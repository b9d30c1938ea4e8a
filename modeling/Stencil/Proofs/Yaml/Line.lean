import Mathlib.Data.List.TakeWhile
import Stencil.Proofs.Yaml.Weight

/-!
# Plain scalars on one line

When the characters of a line are one plain scalar, wherever the line stands (`isPlainLine`): it starts
with no mark, holds no colon at the end of a word and no hash at the start of one, and blanks only
between words. Such a line is read as itself in any place that is indented far enough, and a plain
scalar that lost no weight was such a line.
-/

namespace Stencil.Yaml

/-- The marks that a plain scalar does not start with, the first three only if nothing follows. -/
def indicators : List Char :=
  ['-', '?', ':', ',', '[', ']', '\x7b', '\x7d', '#', '&', '*', '!', '|', '>', '\'', '"', '%', '@', '\x60']

/-- Whether a plain scalar may start with the characters. -/
def opensPlain : List Char → Bool
  | [] => false
  | c :: rest =>
    !isBlankOrEnd (some c) &&
      (!indicators.contains c || ((c = '-' || c = '?' || c = ':') && !isBlankOrEnd rest.head?))

/-- Whether a plain scalar may go on with the characters, behind a blank or not, and ends with them. -/
def staysPlain : Bool → List Char → Bool
  | afterBlank, [] => !afterBlank
  | afterBlank, c :: rest =>
    if isBlank c then staysPlain true rest
    else
      !isBlankOrEnd (some c) && !(afterBlank && c = '#') && !(c = ':' && isBlankOrEnd rest.head?)
        && staysPlain false rest

/-- Whether the characters are one plain scalar on a line. -/
def isPlainLine (chars : List Char) : Bool := opensPlain chars && staysPlain false chars

/-- Whether a place is right before a blank or a line end. -/
def Cursor.AtGap (cursor : Cursor) : Prop := ∃ c, cursor.peek? = some c ∧ (isBlank c || isBreak c)

namespace Cursor

theorem rest_skip {cursor : Cursor} {front back : List Char} (h : cursor.rest = front ++ back) :
    (cursor.skip front.length).rest = back := by
  simp [skip, h]

theorem skip_skip (cursor : Cursor) (m n : Nat) : (cursor.skip m).skip n = cursor.skip (m + n) := by
  simp [skip, Nat.add_assoc]

end Cursor

/-- Whether there is a separator of lines or paragraphs, which a fold keeps as it is. -/
def HasSeparator (chars : List Char) : Prop := '\u2028' ∈ chars ∨ '\u2029' ∈ chars

theorem HasSeparator.mono {chars more : List Char} (h : HasSeparator chars) (hsub : chars <:+ more) :
    HasSeparator more :=
  h.imp (fun hmem => hsub.subset hmem) (fun hmem => hsub.subset hmem)

namespace Cursor

variable {cursor next : Cursor} {c : Char}

theorem lineEnd?_rest (h : cursor.lineEnd? = some (c, next)) :
    next.rest <:+ cursor.rest ∧ next.rest.length < cursor.rest.length ∧
      (¬ HasSeparator cursor.rest → c = '\n') := by
  unfold lineEnd? at h
  split at h
  case h_1 rest hrest =>
    cases h
    exact ⟨List.drop_suffix _ _, by simp only [hrest, List.drop_succ_cons, List.drop_zero, List.length_cons]; omega,
      fun _ => rfl⟩
  case h_2 first rest _ hrest =>
    have hsuffix : cursor.rest.drop 1 <:+ cursor.rest := List.drop_suffix _ _
    have hlt : (cursor.rest.drop 1).length < cursor.rest.length := by simp [hrest]
    split at h
    next hsep =>
      cases h
      refine ⟨hsuffix, hlt, fun hno => absurd ?_ hno⟩
      rcases (by simpa using hsep : c = '\u2028' ∨ c = '\u2029') with rfl | rfl
      · exact .inl (by simp [hrest])
      · exact .inr (by simp [hrest])
    next =>
      split at h
      · cases h
        exact ⟨hsuffix, hlt, fun _ => rfl⟩
      · cases h
  case h_3 => cases h

theorem isBreak_of_lineEnd? (hpeek : cursor.peek? = some c) (h : cursor.lineEnd? = none) :
    isBreak c = false := by
  obtain ⟨rest, hrest⟩ := rest_of_peek hpeek
  unfold lineEnd? at h
  split at h
  · cases h
  next first rest' _ heq =>
    obtain ⟨rfl, rfl⟩ : c = first ∧ rest = rest' := by simpa [hrest] using heq
    split_ifs at h with hsep hbreak
    simpa using hbreak
  next heq => simp [hrest] at heq

theorem lineEnd?_eq_none (hpeek : cursor.peek? = some c) (hbreak : isBreak c = false) :
    cursor.lineEnd? = none := by
  obtain ⟨rest, hrest⟩ := rest_of_peek hpeek
  cases hline : cursor.lineEnd? with
  | none => rfl
  | some ended =>
    obtain ⟨d, next⟩ := ended
    unfold lineEnd? at hline
    split at hline
    next heq =>
      obtain rfl : c = '\r' := by simpa [hrest] using congrArg List.head? heq
      simp [isBreak] at hbreak
    next first _ _ heq =>
      obtain rfl : c = first := by simpa [hrest] using congrArg List.head? heq
      split_ifs at hline with hsep hb
      · rcases (by simpa using hsep : c = '\u2028' ∨ c = '\u2029') with rfl | rfl <;>
          simp [isBreak] at hbreak
      · simp [hb] at hbreak
    next => cases hline

end Cursor

/-! ## Gaps -/

/-- A gap is read to its end. One without a line end is its blanks; one in which a line ends has a
line feed first, unless separators of lines or paragraphs are about. -/
theorem Gap.scan?_reads {tabLimit : Int} {fuel : Nat} {gap gap' : Gap} {cursor next : Cursor}
    (hfuel : cursor.rest.length < fuel) (h : Gap.scan? tabLimit fuel gap cursor = some (gap', next)) :
    ¬ next.AtGap ∧ next.rest <:+ cursor.rest ∧
      (gap'.lineEnds = false → gap.lineEnds = false ∧ ∃ blanks, (∀ c ∈ blanks, isBlank c = true) ∧
        gap'.blanks = gap.blanks ++ blanks ∧ cursor.rest = blanks ++ next.rest) ∧
      (¬ HasSeparator cursor.rest → (gap.lineEnds = true → gap.first = some '\n') →
        gap'.lineEnds = true → gap'.first = some '\n') := by
  induction fuel generalizing gap cursor with
  | zero => omega
  | succ fuel ih =>
    simp only [Gap.scan?] at h
    split at h
    next hpeek =>
      cases h
      refine ⟨?_, List.suffix_refl _, fun hends => ⟨hends, [], by simp⟩, fun _ hfirst => hfirst⟩
      rintro ⟨c, hc, -⟩
      rw [hpeek] at hc
      cases hc
    next c hpeek =>
      obtain ⟨rest, hrest⟩ := Cursor.rest_of_peek hpeek
      split at h
      next hblank =>
        -- A blank moves one character on.
        have hskip : (cursor.skip 1).rest = rest := by simp [Cursor.skip, hrest]
        have hlen : (cursor.skip 1).rest.length < fuel := by simp_all
        have hsuffix : (cursor.skip 1).rest <:+ cursor.rest := List.drop_suffix _ _
        split at h
        next hends =>
          split at h
          next => cases h
          next =>
            obtain ⟨hgap, hrest', hblanks, hfirst⟩ := ih hlen h
            refine ⟨hgap, hrest'.trans hsuffix, fun hno => ?_, fun hsep => ?_⟩
            · exact absurd (hblanks hno).1 (by simp [hends])
            · exact hfirst fun hmore => hsep (hmore.mono hsuffix)
        next hends =>
          obtain ⟨hgap, hrest', hblanks, hfirst⟩ := ih hlen h
          refine ⟨hgap, hrest'.trans hsuffix, fun hno => ⟨by simpa using hends, ?_⟩, fun hsep => ?_⟩
          · obtain ⟨-, blanks, hall, heq, hsplit⟩ := hblanks hno
            exact ⟨c :: blanks, by simpa [hblank] using hall, by simp [heq],
              by rw [hrest, ← hskip, hsplit]; rfl⟩
          · exact hfirst fun hmore => hsep (hmore.mono hsuffix)
      next hblank =>
        split at h
        next hline =>
          cases h
          refine ⟨?_, List.suffix_refl _, fun hends => ⟨hends, [], by simp⟩, fun _ hfirst => hfirst⟩
          rintro ⟨d, hd, hgap⟩
          obtain rfl : c = d := by simpa [hpeek] using hd
          simp [Cursor.isBreak_of_lineEnd? hpeek hline, hblank] at hgap
        next d after hline =>
          obtain ⟨hsuffix, hlt, hfeed⟩ := Cursor.lineEnd?_rest hline
          have hlen : after.rest.length < fuel := by omega
          split at h
          next hends =>
            obtain ⟨hgap, hrest', hblanks, hfirst⟩ := ih hlen h
            refine ⟨hgap, hrest'.trans hsuffix, fun hno => ?_, fun hsep => ?_⟩
            · exact absurd (hblanks hno).1 (by simp [hends])
            · exact hfirst fun hmore => hsep (hmore.mono hsuffix)
          next hends =>
            obtain ⟨hgap, hrest', hblanks, hfirst⟩ := ih hlen h
            refine ⟨hgap, hrest'.trans hsuffix, fun hno => ?_, fun hsep _ => ?_⟩
            · exact absurd (hblanks hno).1 (by simp)
            · refine hfirst (fun hmore => hsep (hmore.mono hsuffix)) fun _ => ?_
              rw [hfeed hsep]

/-! ## From a scalar to its line -/

/-- Blanks are passed over. -/
theorem staysPlain_blanks {blanks : List Char} (h : ∀ c ∈ blanks, isBlank c = true)
    (afterBlank : Bool) (rest : List Char) :
    staysPlain afterBlank (blanks ++ rest) = staysPlain (afterBlank || !blanks.isEmpty) rest := by
  induction blanks generalizing afterBlank with
  | nil => simp
  | cons c blanks ih =>
    simp only [List.mem_cons, forall_eq_or_imp] at h
    simp [staysPlain, h.1, ih h.2]

/-- A word of a plain scalar is characters with which one may go on. -/
theorem plainWord?_stays {fuel : Nat} {acc word : List Char} {cursor next : Cursor}
    (h : plainWord? false fuel acc cursor = some (word, next)) :
    ∃ taken, word = taken.reverse ++ acc ∧ cursor.rest = taken ++ next.rest ∧
      (taken ≠ [] → staysPlain false next.rest = true →
        ∀ afterBlank, (afterBlank = true → cursor.isAt '#' = false) →
          staysPlain afterBlank cursor.rest = true) := by
  induction fuel generalizing acc cursor with
  | zero => cases h; exact ⟨[], rfl, rfl, fun h => absurd rfl h⟩
  | succ fuel ih =>
    simp only [plainWord?] at h
    split at h
    next => cases h; exact ⟨[], rfl, rfl, fun h => absurd rfl h⟩
    next c hpeek =>
      obtain ⟨rest, hrest⟩ := Cursor.rest_of_peek hpeek
      split_ifs at h with hblank hstray hstops
      · cases h; exact ⟨[], rfl, rfl, fun h => absurd rfl h⟩
      · cases h; exact ⟨[], rfl, rfl, fun h => absurd rfl h⟩
      · obtain ⟨taken, hword, htaken, hstays⟩ := ih h
        have hskip : (cursor.skip 1).rest = rest := by simp [Cursor.skip, hrest]
        refine ⟨c :: taken, by simp [hword], by rw [hrest, ← hskip, htaken]; rfl,
          fun _ hnext afterBlank hhash => ?_⟩
        have hon : staysPlain false rest = true := by
          rw [← hskip]
          cases taken with
          | nil => rw [htaken]; exact hnext
          | cons => exact hstays (by simp) hnext false (by simp)
        have hnotBlank : isBlank c = false := by
          cases hb : isBlank c with
          | false => rfl
          | true => simp [isBlankOrEnd, hb] at hblank
        have hcolon : c = ':' → isBlankOrEnd rest.head? = false := by
          simpa [stopsPlain, Cursor.isAt, Cursor.peek?, Cursor.peekAt?, hrest, List.head?_eq_getElem?]
            using hstops
        have hcomment : afterBlank = true → c ≠ '#' := by
          rintro hafter rfl
          simpa [Cursor.isAt, hpeek] using hhash hafter
        have hopen : isBlankOrEnd (some c) = false := by simpa using hblank
        simp only [hrest, staysPlain, hnotBlank, hopen, hon, Bool.false_eq_true, if_false]
        simp
        refine ⟨?_, Classical.or_iff_not_imp_left.2 fun hc => hcolon (by simpa using hc)⟩
        cases afterBlank with
        | false => exact .inl rfl
        | true => exact .inr (hcomment rfl)

/-- A gap that is folded before a word counts as folded: words behind it weigh no more than what they
take. -/
theorem plainWords?_folded {indent : Int} {fuel : Nat} {acc acc' : List Char} {gap : Gap}
    {lineEnded : Bool} {cursor next : Cursor} (hcursor : ¬ cursor.AtGap)
    (h : plainWords? false indent fuel acc gap cursor = some (acc', lineEnded, next)) :
    weight acc' + next.weight ≤ weight acc + weight gap.fold + cursor.weight := by
  cases fuel with
  | zero => cases h; omega
  | succ fuel =>
    simp only [plainWords?] at h
    split at h
    next => cases h; omega
    next =>
      split at h
      next => cases h
      next word after hword =>
        have hsum := plainWord?_weight hword
        obtain ⟨taken, hword, hrest, -⟩ := plainWord?_stays hword
        obtain rfl : word = taken.reverse := by simpa using hword
        simp only [weight_nil, Nat.zero_add, weight_reverse] at hsum
        cases taken with
        | nil =>
          -- Without a word, the place is still the end of the gap.
          have hpeek : after.peek? = cursor.peek? := by simp [Cursor.peek?, hrest]
          simp only [List.reverse_nil, List.isEmpty_nil, if_true] at h
          split at h
          next => cases h; simp at hsum; omega
          next c hc =>
            split at h
            next => cases h; simp at hsum; omega
            next hgap =>
              simp only [Bool.not_eq_true', Bool.not_eq_false] at hgap
              exact absurd ⟨c, hpeek ▸ hc, hgap⟩ hcursor
        | cons c taken =>
          have hne : (c :: taken).reverse.isEmpty = false := by simp
          simp only [hne, Bool.false_eq_true, if_false] at h
          have hacc : weight ((c :: taken).reverse ++ gap.fold.reverse ++ acc) =
              weight (c :: taken) + weight gap.fold + weight acc := by
            simp only [weight_append, weight_reverse]
          split at h
          next => cases h; omega
          next =>
            split at h
            next => cases h; omega
            next =>
              split at h
              next => cases h
              next gap₂ after₂ hscan =>
                have hscan := Gap.scan?_weight hscan
                rw [Gap.weight_empty] at hscan
                split at h
                next => cases h; omega
                next => have := (plainWords?_weight h).2; omega

/-- A plain scalar that lost no weight is characters with which one may go on: a line end would have
been folded, and what comes behind the scalar would have been left. -/
theorem staysPlain_of_plainWords? {fuel : Nat} {acc acc' : List Char} {gap : Gap} {lineEnded : Bool}
    {cursor next : Cursor} (hseparator : ¬ HasSeparator cursor.rest) (hgap : gap.lineEnds = false)
    (hcursor : ¬ cursor.AtGap)
    (h : plainWords? false 0 fuel acc gap cursor = some (acc', lineEnded, next))
    (hweight : weight acc + weight gap.blanks + cursor.weight ≤ weight acc') :
    staysPlain (!gap.blanks.isEmpty) cursor.rest = true := by
  -- Where the scalar ends, nothing is left.
  have hnil {gap : Gap} {cursor : Cursor} (h : weight gap.blanks + cursor.weight = 0) :
      staysPlain (!gap.blanks.isEmpty) cursor.rest = true := by
    have hblanks : gap.blanks = [] := eq_nil_of_weight_eq_zero (by omega)
    have hrest : cursor.rest = [] := eq_nil_of_weight_eq_zero (by
      have : cursor.weight = weight cursor.rest := rfl
      omega)
    simp [hblanks, hrest, staysPlain]
  induction fuel generalizing acc gap cursor with
  | zero => cases h; exact hnil (by omega)
  | succ fuel ih =>
    simp only [plainWords?] at h
    split at h
    next => cases h; exact hnil (by omega)
    next hhash =>
      split at h
      next => cases h
      next word after hword =>
        have hsum := plainWord?_weight hword
        obtain ⟨taken, hword, hrest, hstays⟩ := plainWord?_stays hword
        obtain rfl : word = taken.reverse := by simpa using hword
        simp only [weight_nil, Nat.zero_add, weight_reverse] at hsum
        cases taken with
        | nil =>
          have hpeek : after.peek? = cursor.peek? := by simp [Cursor.peek?, hrest]
          simp only [List.reverse_nil, List.isEmpty_nil, if_true] at h
          split at h
          next => cases h; exact hnil (by omega)
          next c hc =>
            split at h
            next => cases h; exact hnil (by omega)
            next hat =>
              simp only [Bool.not_eq_true', Bool.not_eq_false] at hat
              exact absurd ⟨c, hpeek ▸ hc, hat⟩ hcursor
        | cons c taken =>
          have hne : (c :: taken).reverse.isEmpty = false := by simp
          have hfold : gap.fold = gap.blanks := by simp [Gap.fold, hgap]
          simp only [hne, Bool.false_eq_true, if_false] at h
          have hacc : weight ((c :: taken).reverse ++ gap.fold.reverse ++ acc) =
              weight (c :: taken) + weight gap.blanks + weight acc := by
            simp only [weight_append, weight_reverse, hfold]
          refine hstays (by simp) ?_ _ fun _ => by simp at hhash; exact hhash.2
          split at h
          next hpeek =>
            have : after.rest = [] := by simpa [Cursor.peek?] using hpeek
            simp [this, staysPlain]
          next d hpeek =>
            have hpos := Cursor.skip_weight_lt hpeek (n := 1) (by omega)
            split at h
            next => cases h; omega
            next hat =>
              split at h
              next => cases h
              next gap₂ after₂ hscan =>
                have hloss := Gap.scan?_weight hscan
                rw [Gap.weight_empty] at hloss
                obtain ⟨hend, hsuffix, hblanks, hfeed⟩ := Gap.scan?_reads (Nat.lt_succ_self _) hscan
                split at h
                next hcolumn => simp at hcolumn; omega
                next =>
                  have hseparator' : ¬ HasSeparator after.rest := fun hmore =>
                    hseparator (hmore.mono ⟨_, hrest.symm⟩)
                  cases hends : gap₂.lineEnds with
                  | true =>
                    have hfirst := hfeed hseparator' (by simp) hends
                    have := Gap.fold_weight_lt hends hfirst
                    have := plainWords?_folded hend h
                    omega
                  | false =>
                    obtain ⟨-, blanks, hall, hgap₂, hsplit⟩ := hblanks hends
                    rw [hsplit, staysPlain_blanks hall]
                    obtain rfl : gap₂.blanks = blanks := hgap₂
                    have hafter : after.weight = weight gap₂.blanks + after₂.weight := by
                      simp only [Cursor.weight, hsplit, weight_append]
                    exact ih (fun hmore => hseparator' (hmore.mono hsuffix)) hends hend h (by omega)

/-- A plain scalar that takes a whole text and loses no weight is one on a line. -/
theorem staysPlain_of_plainScalar? {text : String} {lineEnded : Bool} {c : Char} {rest : List Char}
    {cursor next : Cursor} (hrest : cursor.rest = c :: rest) (hopen : isBlankOrEnd (some c) = false)
    (hseparator : ¬ HasSeparator cursor.rest)
    (h : plainScalar? false 0 cursor = some (text, lineEnded, next))
    (hweight : cursor.weight ≤ weight text.toList) : staysPlain false cursor.rest = true := by
  simp only [plainScalar?, Option.map_eq_some_iff] at h
  obtain ⟨⟨acc, ended, after⟩, hwords, heq⟩ := h
  obtain ⟨rfl, -, -⟩ : String.ofList acc.reverse = text ∧ ended = lineEnded ∧ after = next := by
    simpa using heq
  refine staysPlain_of_plainWords? hseparator rfl ?_ hwords (by simpa using hweight)
  rintro ⟨d, hd, hgap⟩
  obtain rfl : c = d := by simpa [Cursor.peek?, hrest] using hd
  rcases Bool.or_eq_true_iff.1 hgap with hb | hb <;> simp [isBlankOrEnd, hb] at hopen

/-! ## From a line to its scalar -/

/-- Characters on a line that are no blanks are one word. -/
theorem plainWord?_line {fuel : Nat} (acc : List Char) {chars tail : List Char} {cursor : Cursor}
    {afterBlank : Bool} (hrest : cursor.rest = chars ++ tail)
    (hstays : staysPlain afterBlank chars = true) (htail : isBlankOrEnd tail.head? = true)
    (hfuel : cursor.rest.length < fuel) :
    plainWord? false fuel acc cursor =
      some ((chars.takeWhile fun c => !isBlank c).reverse ++ acc,
        cursor.skip (chars.takeWhile fun c => !isBlank c).length) := by
  induction chars generalizing fuel acc cursor afterBlank with
  | nil =>
    obtain ⟨fuel, rfl⟩ : ∃ n, fuel = n + 1 := ⟨fuel - 1, by omega⟩
    have hpeek : isBlankOrEnd cursor.peek? = true := by simpa [Cursor.peek?, hrest] using htail
    simp only [plainWord?]
    cases hc : cursor.peek? with
    | none => simp [Cursor.skip]
    | some c => simp [Cursor.skip, ← hc, hpeek]
  | cons c chars ih =>
    obtain ⟨fuel, rfl⟩ : ∃ n, fuel = n + 1 := ⟨fuel - 1, by omega⟩
    have hpeek : cursor.peek? = some c := by simp [Cursor.peek?, hrest]
    simp only [plainWord?, hpeek]
    cases hblank : isBlank c with
    | true => simp [isBlankOrEnd, hblank, Cursor.skip]
    | false =>
      simp only [staysPlain, hblank, Bool.false_eq_true, if_false, Bool.and_eq_true,
        Bool.not_eq_true'] at hstays
      obtain ⟨⟨⟨hopen, -⟩, hcolon⟩, hstays⟩ := hstays
      have hskip : (cursor.skip 1).rest = chars ++ tail := by simp [Cursor.skip, hrest]
      have hstops : stopsPlain false cursor = false := by
        -- A colon is not the last of the characters, so the tail does not decide.
        cases chars with
        | nil =>
          have hc : c ≠ ':' := by simpa [isBlankOrEnd] using hcolon
          simp [stopsPlain, Cursor.isAt, hpeek, hc]
        | cons d chars =>
          simpa [stopsPlain, Cursor.isAt, hpeek, Cursor.peekAt?, hrest] using hcolon
      have hlen : (cursor.skip 1).rest.length < fuel := by
        rw [hskip]; rw [hrest] at hfuel; simpa using hfuel
      simp [hopen, isStrayColon, hstops, ih _ hskip hstays hlen, hblank,
        Cursor.skip_skip, Nat.add_comm]

/-- Blanks before another character are a gap of their own. -/
theorem Gap.scan?_blanks (tabLimit : Int) {fuel : Nat} (before : List Char) {blanks rest : List Char}
    {c : Char} {cursor : Cursor} (hblanks : ∀ c ∈ blanks, isBlank c = true)
    (hrest : cursor.rest = blanks ++ c :: rest) (hc : isBlankOrEnd (some c) = false)
    (hfuel : blanks.length < fuel) :
    Gap.scan? tabLimit fuel { blanks := before } cursor =
      some ({ blanks := before ++ blanks }, cursor.skip blanks.length) := by
  simp only [isBlankOrEnd, Bool.or_eq_false_iff] at hc
  obtain ⟨⟨hblank, hbreak⟩, -⟩ := hc
  induction blanks generalizing fuel before cursor with
  | nil =>
    obtain ⟨fuel, rfl⟩ : ∃ n, fuel = n + 1 := ⟨fuel - 1, by omega⟩
    have hpeek : cursor.peek? = some c := by simp [Cursor.peek?, hrest]
    simp [Gap.scan?, hpeek, hblank, Cursor.lineEnd?_eq_none hpeek hbreak, Cursor.skip]
  | cons b blanks ih =>
    obtain ⟨fuel, rfl⟩ : ∃ n, fuel = n + 1 := ⟨fuel - 1, by omega⟩
    have hpeek : cursor.peek? = some b := by simp [Cursor.peek?, hrest]
    simp only [List.mem_cons, forall_eq_or_imp] at hblanks
    have hskip : (cursor.skip 1).rest = blanks ++ c :: rest := by simp [Cursor.skip, hrest]
    simp only [Gap.scan?, hpeek, hblanks.1, Bool.false_eq_true, if_true, if_false]
    rw [ih _ hblanks.2 hskip (by simpa using hfuel)]
    simp [Cursor.skip_skip, Nat.add_comm]

/-- What becomes of a plain scalar behind a word. -/
def plainRest? (indent : Int) (fuel : Nat) (acc : List Char) (cursor : Cursor) :
    Option (List Char × Bool × Cursor) :=
  match cursor.peek? with
  | none => some (acc, false, cursor)
  | some c =>
    if !(isBlank c || isBreak c) then some (acc, false, cursor)
    else
      match Gap.scan? indent (cursor.rest.length + 1) {} cursor with
      | none => none
      | some (gap, next) =>
        if (next.column : Int) < indent then some (acc, gap.lineEnds, next)
        else plainWords? false indent fuel acc gap next

theorem plainWords?_word {indent : Int} {fuel : Nat} {acc word : List Char} {gap : Gap}
    {cursor next : Cursor} (hmarker : cursor.isDocumentMarker = false) (hhash : cursor.isAt '#' = false)
    (hword : plainWord? false (cursor.rest.length + 1) [] cursor = some (word, next))
    (hne : word.isEmpty = false) :
    plainWords? false indent (fuel + 1) acc gap cursor =
      plainRest? indent fuel (word ++ gap.fold.reverse ++ acc) next := by
  simp only [plainWords?, hmarker, hhash, hword, hne, Bool.or_false, Bool.false_eq_true, if_false,
    Bool.not_false, Bool.true_and, decide_eq_true_eq]
  rfl

/-- A word is passed over. -/
theorem staysPlain_word {afterBlank : Bool} {chars : List Char}
    (h : staysPlain afterBlank chars = true) :
    staysPlain (afterBlank && (chars.takeWhile fun c => !isBlank c).isEmpty)
      (chars.dropWhile fun c => !isBlank c) = true := by
  induction chars generalizing afterBlank with
  | nil => simpa using h
  | cons c chars ih =>
    cases hblank : isBlank c with
    | true => simpa [hblank] using h
    | false =>
      simp only [staysPlain, hblank, Bool.false_eq_true, if_false, Bool.and_eq_true] at h
      simpa [hblank] using ih h.2

/-- Characters on a line are a word, and nothing or a gap and more characters on a line. -/
theorem exists_word {afterBlank : Bool} {c : Char} {chars : List Char}
    (h : staysPlain afterBlank (c :: chars) = true) (hc : isBlank c = false) :
    ∃ word gap rest, c :: chars = c :: word ++ (gap ++ rest) ∧
      (c :: chars).takeWhile (fun c => !isBlank c) = c :: word ∧
      (∀ c ∈ gap, isBlank c = true) ∧
      (gap = [] ∧ rest = [] ∨ gap ≠ [] ∧ ∃ d more, rest = d :: more ∧
        isBlankOrEnd (some d) = false ∧ d ≠ '#' ∧ staysPlain true rest = true) := by
  have hword : (c :: chars).takeWhile (fun c => !isBlank c) =
      c :: chars.takeWhile fun c => !isBlank c := by simp [hc]
  have hsplit : c :: chars = (c :: chars.takeWhile fun c => !isBlank c) ++
      chars.dropWhile fun c => !isBlank c := by simp [List.takeWhile_append_dropWhile]
  have hon : staysPlain false (chars.dropWhile fun c => !isBlank c) = true := by
    simpa [hc] using staysPlain_word h
  refine ⟨_, (chars.dropWhile fun c => !isBlank c).takeWhile isBlank,
    (chars.dropWhile fun c => !isBlank c).dropWhile isBlank, ?_, hword,
    fun d hd => List.mem_takeWhile_imp hd, ?_⟩
  · rw [List.takeWhile_append_dropWhile]
    exact hsplit
  · have hhead := List.head?_dropWhile_not (fun c => !isBlank c) chars
    generalize chars.dropWhile (fun c => !isBlank c) = after at hon hhead
    cases after with
    | nil => exact .inl ⟨rfl, rfl⟩
    | cons b after =>
      have hb : isBlank b = true := by simpa using hhead
      have hgap : ((b :: after).takeWhile isBlank) ≠ [] := by simp [hb]
      refine .inr ⟨hgap, ?_⟩
      have hrest : staysPlain true ((b :: after).dropWhile isBlank) = true := by
        rw [← List.takeWhile_append_dropWhile (p := isBlank) (l := b :: after),
          staysPlain_blanks fun d hd => List.mem_takeWhile_imp hd] at hon
        simpa [hb] using hon
      have hnext := List.head?_dropWhile_not isBlank (b :: after)
      generalize (b :: after).dropWhile isBlank = rest at hrest hnext
      cases rest with
      | nil => cases hrest
      | cons d more =>
        have hd : isBlank d = false := by simpa using hnext
        have hparts := hrest
        simp only [staysPlain, hd, Bool.false_eq_true, if_false, Bool.and_eq_true,
          Bool.not_eq_true'] at hparts
        exact ⟨d, more, rfl, hparts.1.1.1, by simpa using hparts.1.1.2, hrest⟩

/-- Characters on a line are read to their end, if the line is indented far enough. -/
theorem plainWords?_line {indent : Int} {fuel : Nat} (acc before : List Char) {chars tail : List Char}
    {c : Char} {cursor : Cursor} (hrest : cursor.rest = c :: chars ++ tail)
    (hopen : isBlankOrEnd (some c) = false)
    (hstays : staysPlain (!before.isEmpty) (c :: chars) = true) (hhash : c ≠ '#')
    (htail : isBlankOrEnd tail.head? = true) (hcolumn : cursor.column ≠ 0)
    (hindent : indent ≤ (cursor.column : Int)) (hfuel : cursor.rest.length < fuel) :
    ∃ left, tail.length ≤ left ∧
      plainWords? false indent fuel acc { blanks := before } cursor =
        plainRest? indent left ((c :: chars).reverse ++ before.reverse ++ acc)
          (cursor.skip (c :: chars).length) := by
  -- By the length of what is left of the line: each word takes a character at least.
  induction hlen : chars.length using Nat.strongRecOn generalizing fuel acc before chars c cursor with
  | _ n ih =>
    obtain ⟨fuel, rfl⟩ : ∃ n, fuel = n + 1 := ⟨fuel - 1, by omega⟩
    have hpeek : cursor.peek? = some c := by simp [Cursor.peek?, hrest]
    have hmarker : cursor.isDocumentMarker = false := by
      simp [Cursor.isDocumentMarker, Cursor.isMarker, hcolumn]
    have hblank : isBlank c = false := by
      simp only [isBlankOrEnd, Bool.or_eq_false_iff] at hopen
      exact hopen.1.1
    have hword := plainWord?_line [] hrest hstays htail (Nat.lt_succ_self _)
    obtain ⟨word, gap, rest, hsplit, htake, hgap, hmore⟩ := exists_word hstays hblank
    rw [htake] at hword
    have hfold : Gap.fold { blanks := before } = before := by simp [Gap.fold]
    have hlengths : cursor.rest.length = (c :: word).length + (gap ++ rest).length + tail.length := by
      rw [hrest, hsplit]
      simp only [List.length_append]
    -- One word on, what comes is the rest of the line or its tail.
    have hstep : plainWords? false indent (fuel + 1) acc { blanks := before } cursor =
        plainRest? indent fuel ((c :: word).reverse ++ before.reverse ++ acc)
          (cursor.skip (c :: word).length) := by
      have hat : cursor.isAt '#' = false := by simp [Cursor.isAt, hpeek, hhash]
      rw [plainWords?_word hmarker hat hword (by simp), hfold, List.append_nil]
    rcases hmore with ⟨rfl, rfl⟩ | ⟨hne, d, more, rfl, hd, hdhash, hon⟩
    · refine ⟨fuel, ?_, ?_⟩
      · simp only [List.append_nil, List.length_nil, List.length_cons] at hlengths
        omega
      · rw [hstep, hsplit, List.append_nil, List.append_nil]
    · -- A gap comes, and the rest of the line behind it.
      have hafter : (cursor.skip (c :: word).length).rest = gap ++ d :: (more ++ tail) := by
        refine Cursor.rest_skip ?_
        rw [hrest, hsplit]
        simp
      have hscan := Gap.scan?_blanks indent [] hgap hafter hd
        (Nat.lt_succ_of_le (by rw [hafter]; simp :
          gap.length ≤ (cursor.skip (c :: word).length).rest.length))
      have hcount := congrArg List.length hsplit
      simp only [List.length_cons, List.length_append] at hcount hlengths
      obtain ⟨left, hleft, heq⟩ := ih more.length (by omega)
        ((c :: word).reverse ++ before.reverse ++ acc) gap (Cursor.rest_skip hafter) hd
        (by cases gap <;> simp_all) hdhash (by simp [Cursor.skip, hcolumn])
        (by simp only [Cursor.skip]; omega)
        (show _ < fuel by rw [Cursor.rest_skip hafter]; simp; omega) rfl
      refine ⟨left, hleft, ?_⟩
      obtain ⟨b, gap', rfl⟩ := List.exists_cons_of_ne_nil hne
      have hb : isBlank b = true := hgap b (by simp)
      have hpeek' : (cursor.skip (c :: word).length).peek? = some b := by
        rw [Cursor.peek?, hafter]
        rfl
      have hin : ¬ ((((cursor.skip (c :: word).length).skip (b :: gap').length).column : Int) <
          indent) := by
        simp only [Cursor.skip]
        omega
      rw [hstep, plainRest?, hpeek']
      simp only [hb, Bool.true_or, Bool.not_true, Bool.false_eq_true, if_false, hscan,
        List.nil_append, hin, heq, hsplit]
      simp only [Cursor.skip_skip, List.length_append, List.reverse_append, List.append_assoc,
        Nat.add_assoc]

/-- A plain scalar that is opened starts with no blank and no comment. -/
theorem exists_of_opensPlain {chars : List Char} (h : opensPlain chars = true) :
    ∃ c rest, chars = c :: rest ∧ isBlankOrEnd (some c) = false ∧ c ≠ '#' := by
  cases chars with
  | nil => simp [opensPlain] at h
  | cons c rest =>
    simp only [opensPlain, Bool.and_eq_true, Bool.not_eq_true'] at h
    refine ⟨c, rest, rfl, h.1, ?_⟩
    rintro rfl
    simp [indicators] at h

/-- A line that is one plain scalar is read as itself, up to what comes behind it. -/
theorem plainScalar?_line {indent : Int} {chars tail : List Char} {cursor : Cursor}
    (hline : isPlainLine chars = true) (hrest : cursor.rest = chars ++ tail)
    (htail : isBlankOrEnd tail.head? = true) (hcolumn : cursor.column ≠ 0)
    (hindent : indent ≤ (cursor.column : Int)) :
    ∃ left, tail.length ≤ left ∧ plainScalar? false indent cursor =
      (plainRest? indent left chars.reverse (cursor.skip chars.length)).map
        fun (acc, lineEnded, next) => (String.ofList acc.reverse, lineEnded, next) := by
  obtain ⟨hopens, hstays⟩ := Bool.and_eq_true_iff.1 hline
  obtain ⟨c, rest, rfl, hopen, hhash⟩ := exists_of_opensPlain hopens
  obtain ⟨left, hleft, heq⟩ := plainWords?_line [] [] hrest hopen hstays hhash htail
    hcolumn hindent (Nat.lt_succ_self _)
  refine ⟨left, hleft, ?_⟩
  simp only [List.reverse_nil, List.append_nil] at heq
  unfold plainScalar?
  exact congrArg _ heq

end Stencil.Yaml
