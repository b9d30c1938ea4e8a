import Mathlib
import Stencil.Yaml.Token

/-!
# What a scalar is made of

No scalar says more than it was written with. Line ends need care: an escape of two characters may
stand for one, and folding makes one a blank. So a line end weighs twice as much as any other
character. With that, no way of reading a scalar gains weight; what is between quotes or behind a bar
has lost some, and so has a plain scalar in which a line feed was folded.
-/

namespace Stencil.Yaml

/-- What a character weighs. -/
def charWeight (c : Char) : Nat := if isBreak c then 2 else 1

/-- What characters weigh together. -/
def weight (chars : List Char) : Nat := (chars.map charWeight).sum

@[simp] theorem weight_nil : weight [] = 0 := rfl

@[simp] theorem weight_cons (c : Char) (chars : List Char) :
    weight (c :: chars) = charWeight c + weight chars := by
  simp [weight]

@[simp] theorem weight_append (front back : List Char) :
    weight (front ++ back) = weight front + weight back := by
  simp [weight]

@[simp] theorem weight_reverse (chars : List Char) : weight chars.reverse = weight chars := by
  simp [weight, List.sum_reverse]

theorem charWeight_pos (c : Char) : 0 < charWeight c := by
  unfold charWeight; split <;> simp

theorem charWeight_le_two (c : Char) : charWeight c ≤ 2 := by
  unfold charWeight; split <;> simp

theorem eq_nil_of_weight_eq_zero {chars : List Char} (h : weight chars = 0) : chars = [] := by
  cases chars with
  | nil => rfl
  | cons c rest => have := charWeight_pos c; simp at h; omega

theorem weight_drop_le (n : Nat) (chars : List Char) : weight (chars.drop n) ≤ weight chars := by
  conv_rhs => rw [← List.take_append_drop n chars]
  rw [weight_append]
  omega

/-! ## Moving on -/

namespace Cursor

variable {cursor next : Cursor} {c : Char}

/-- What is left weighs. -/
def weight (cursor : Cursor) : Nat := Yaml.weight cursor.rest

theorem skip_weight_le (cursor : Cursor) (n : Nat) : (cursor.skip n).weight ≤ cursor.weight :=
  weight_drop_le n cursor.rest

theorem rest_of_peek (h : cursor.peek? = some c) : ∃ rest, cursor.rest = c :: rest :=
  List.head?_eq_some_iff.1 h

theorem skip_one_weight (h : cursor.peek? = some c) :
    charWeight c + (cursor.skip 1).weight = cursor.weight := by
  obtain ⟨rest, hrest⟩ := rest_of_peek h
  simp [weight, skip, hrest]

theorem skip_weight_lt (h : cursor.peek? = some c) {n : Nat} (hn : 0 < n) :
    (cursor.skip n).weight < cursor.weight := by
  have hone := skip_one_weight h
  have hpos := charWeight_pos c
  have hmore : (cursor.skip n).weight ≤ (cursor.skip 1).weight := by
    obtain ⟨m, rfl⟩ : ∃ m, n = 1 + m := ⟨n - 1, by omega⟩
    simpa only [weight, skip, List.drop_drop] using weight_drop_le m (cursor.rest.drop 1)
  omega

theorem span_weight (cursor : Cursor) (p : Char → Bool) :
    Yaml.weight (cursor.span p).1 + (cursor.span p).2.weight = cursor.weight := by
  have hdrop : cursor.rest.drop (cursor.rest.takeWhile p).length = cursor.rest.dropWhile p := by
    generalize cursor.rest = chars
    induction chars with
    | nil => rfl
    | cons c chars ih => simp only [List.takeWhile_cons, List.dropWhile_cons]; split <;> simp [ih]
  simp only [span, weight, skip, hdrop]
  rw [← weight_append, List.takeWhile_append_dropWhile]

theorem skipWhile_weight_le (cursor : Cursor) (p : Char → Bool) :
    (cursor.skipWhile p).weight ≤ cursor.weight := by
  have := cursor.span_weight p
  simp only [skipWhile]
  omega

/-- What is passed over is lost, if anything is. -/
theorem skipWhile_eq_or_lt (cursor : Cursor) (p : Char → Bool) :
    cursor.skipWhile p = cursor ∨ (cursor.skipWhile p).weight < cursor.weight := by
  cases htaken : cursor.rest.takeWhile p with
  | nil => exact .inl (by simp [skipWhile, span, htaken, skip])
  | cons c taken =>
    have hspan := cursor.span_weight p
    have hpos := charWeight_pos c
    simp only [span, htaken, weight_cons] at hspan
    simp only [skipWhile, span, htaken]
    exact .inr (by omega)

theorem skipComment_weight_le (cursor : Cursor) :
    (if cursor.isAt '#' then cursor.skipWhile fun c => !isBreakOrEnd (some c) else cursor).weight ≤
      cursor.weight := by
  split
  · exact skipWhile_weight_le _ _
  · exact Nat.le_refl _

/-- A line end reads as a character that ends a line, and weighs no less itself. -/
theorem lineEnd?_weight (h : cursor.lineEnd? = some (c, next)) :
    charWeight c = 2 ∧ 2 + next.weight ≤ cursor.weight := by
  have hbreak {c : Char} (hc : isBreak c = true) : charWeight c = 2 := by simp [charWeight, hc]
  unfold lineEnd? at h
  split at h
  case h_1 rest hrest =>
    obtain ⟨rfl, rfl⟩ : '\n' = c ∧ _ = next := by simpa using h
    refine ⟨rfl, ?_⟩
    have hr : charWeight '\r' = 2 := rfl
    have hn : charWeight '\n' = 2 := rfl
    simp only [weight, hrest, List.drop_succ_cons, List.drop_zero, weight_cons]
    omega
  case h_2 first rest _ hrest =>
    have hfirst : isBreak first = true → charWeight c = 2 →
        charWeight c = 2 ∧ 2 + Yaml.weight cursor.rest.tail ≤ cursor.weight := by
      intro hb hc
      refine ⟨hc, ?_⟩
      simp [weight, hrest, hbreak hb]
    split at h
    next hsep =>
      obtain ⟨rfl, rfl⟩ : first = c ∧ _ = next := by simpa using h
      have hb : isBreak first = true := by
        rcases (by simpa using hsep : first = '\u2028' ∨ first = '\u2029') with rfl | rfl <;> rfl
      exact hfirst hb (hbreak hb)
    next =>
      split at h
      next hb =>
        obtain ⟨rfl, rfl⟩ : '\n' = c ∧ _ = next := by simpa using h
        exact hfirst hb rfl
      next => cases h
  case h_3 => cases h

theorem skipLineEnd_weight_le (cursor : Cursor) : cursor.skipLineEnd.weight ≤ cursor.weight := by
  unfold skipLineEnd
  split
  next c next h => have := (lineEnd?_weight h).2; omega
  next => exact Nat.le_refl _

end Cursor

/-! ## Gaps -/

namespace Gap

/-- What was read of a gap weighs, as far as it may still count. -/
def weight (gap : Gap) : Nat :=
  Yaml.weight (if gap.lineEnds then gap.first.toList else gap.blanks) + Yaml.weight gap.further

@[simp] theorem weight_empty : ({} : Gap).weight = 0 := rfl

/-- A line end that is folded into a blank has lost weight. -/
theorem fold_weight_lt {gap : Gap} (hends : gap.lineEnds = true) (hfirst : gap.first = some '\n') :
    Yaml.weight gap.fold < gap.weight := by
  have hblank : charWeight ' ' = 1 := rfl
  have hfeed : charWeight '\n' = 2 := rfl
  simp only [fold, weight, hends, hfirst, if_true]
  split <;> simp [hblank, hfeed]
  omega

theorem fold_weight_le (gap : Gap) : Yaml.weight gap.fold ≤ gap.weight := by
  cases hends : gap.lineEnds with
  | false => simp [fold, weight, hends]
  | true =>
    by_cases hfirst : gap.first = some '\n'
    · exact Nat.le_of_lt (fold_weight_lt hends hfirst)
    · unfold fold weight
      simp only [hends, if_true]
      split
      next h => exact absurd h hfirst
      next c _ h => simp [h]
      next h => simp [h]

theorem scan?_weight {tabLimit : Int} {fuel : Nat} {gap gap' : Gap} {cursor next : Cursor}
    (h : Gap.scan? tabLimit fuel gap cursor = some (gap', next)) :
    gap'.weight + next.weight ≤ gap.weight + cursor.weight := by
  induction fuel generalizing gap cursor with
  | zero => cases h; exact Nat.le_refl _
  | succ fuel ih =>
    simp only [Gap.scan?] at h
    split at h
    next => cases h; exact Nat.le_refl _
    next c hpeek =>
      split at h
      next hblank =>
        have hskip := Cursor.skip_one_weight hpeek
        split at h
        next =>
          split at h
          · cases h
          · have := ih h
            omega
        next hends =>
          have := ih h
          have hmore : Gap.weight { gap with blanks := gap.blanks ++ [c] } =
              gap.weight + charWeight c := by
            simp [weight, hends, Nat.add_right_comm]
          omega
      next =>
        split at h
        next => cases h; exact Nat.le_refl _
        next c after hline =>
          obtain ⟨hc, hafter⟩ := Cursor.lineEnd?_weight hline
          split at h
          next hends =>
            have := ih h
            have hmore : Gap.weight { gap with further := gap.further ++ [c] } = gap.weight + 2 := by
              simp [weight, hc, Nat.add_assoc]
            omega
          next hends =>
            have := ih h
            have hmore : Gap.weight { gap with blanks := [], first := some c, lineEnds := true } ≤
                gap.weight + 2 := by
              simp [weight, hc, hends]
              omega
            omega

end Gap

/-! ## Plain scalars -/

theorem plainWord?_weight {inFlow : Bool} {fuel : Nat} {acc word : List Char}
    {cursor next : Cursor} (h : plainWord? inFlow fuel acc cursor = some (word, next)) :
    weight word + next.weight = weight acc + cursor.weight := by
  induction fuel generalizing acc cursor with
  | zero => cases h; rfl
  | succ fuel ih =>
    simp only [plainWord?] at h
    split at h
    next => cases h; rfl
    next c hpeek =>
      split_ifs at h
      · cases h; rfl
      · cases h; rfl
      · have hskip := Cursor.skip_one_weight hpeek
        have := ih h
        simp only [weight_cons] at this
        omega

theorem plainWord?_grows {inFlow : Bool} {fuel : Nat} {acc word : List Char}
    {cursor next : Cursor} (h : plainWord? inFlow fuel acc cursor = some (word, next)) :
    weight acc ≤ weight word := by
  induction fuel generalizing acc cursor with
  | zero => cases h; exact Nat.le_refl _
  | succ fuel ih =>
    simp only [plainWord?] at h
    split at h
    next => cases h; exact Nat.le_refl _
    next c hpeek =>
      split_ifs at h
      · cases h; exact Nat.le_refl _
      · cases h; exact Nat.le_refl _
      · have := ih h
        simp only [weight_cons] at this
        omega

theorem plainWords?_weight {inFlow : Bool} {indent : Int} {fuel : Nat} {acc acc' : List Char}
    {gap : Gap} {lineEnded : Bool} {cursor next : Cursor}
    (h : plainWords? inFlow indent fuel acc gap cursor = some (acc', lineEnded, next)) :
    weight acc ≤ weight acc' ∧
      weight acc' + next.weight ≤ weight acc + gap.weight + cursor.weight := by
  induction fuel generalizing acc gap cursor with
  | zero => cases h; omega
  | succ fuel ih =>
    simp only [plainWords?] at h
    split at h
    next => cases h; omega
    next =>
      split at h
      next => cases h
      next word after hword =>
        have hword := plainWord?_weight hword
        have hfold := gap.fold_weight_le
        rw [weight_nil, Nat.zero_add] at hword
        -- What has been read now, and the gap that is still open.
        have hgrows : weight acc ≤ weight (if word.isEmpty then acc
            else word ++ gap.fold.reverse ++ acc) := by
          split
          · exact Nat.le_refl _
          · simp
            omega
        have hsum : weight (if word.isEmpty then acc else word ++ gap.fold.reverse ++ acc) +
            (if word.isEmpty then gap else {}).weight + after.weight ≤
            weight acc + gap.weight + cursor.weight := by
          split
          · omega
          · simp
            omega
        generalize (if word.isEmpty then acc else word ++ gap.fold.reverse ++ acc) = acc₁
          at h hgrows hsum
        generalize (if word.isEmpty then gap else {}) = gap₁ at h hsum
        split at h
        next => cases h; omega
        next c hpeek =>
          split at h
          next => cases h; omega
          next =>
            split at h
            next => cases h
            next gap₂ after₂ hscan =>
              have hscan := Gap.scan?_weight hscan
              split at h
              next => cases h; omega
              next => have := ih h; omega

theorem plainScalar?_weight {inFlow : Bool} {indent : Int} {text : String} {lineEnded : Bool}
    {cursor next : Cursor} (h : plainScalar? inFlow indent cursor = some (text, lineEnded, next)) :
    weight text.toList + next.weight ≤ cursor.weight := by
  simp only [plainScalar?, Option.map_eq_some_iff] at h
  obtain ⟨⟨acc, ended, after⟩, hwords, heq⟩ := h
  obtain ⟨rfl, rfl, rfl⟩ : String.ofList acc.reverse = text ∧ ended = lineEnded ∧ after = next := by
    simpa using heq
  simpa using (plainWords?_weight hwords).2

/-- A plain scalar that starts with a character of its own takes that character at least. -/
theorem plainScalar?_weight_lt {inFlow : Bool} {indent : Int} {text : String} {lineEnded : Bool}
    {c : Char} {cursor next : Cursor} (hmarker : cursor.isDocumentMarker = false)
    (hpeek : cursor.peek? = some c) (hcomment : c ≠ '#') (hblank : isBlankOrEnd (some c) = false)
    (hstops : stopsPlain inFlow cursor = false)
    (h : plainScalar? inFlow indent cursor = some (text, lineEnded, next)) :
    next.weight < cursor.weight := by
  simp only [plainScalar?, Option.map_eq_some_iff] at h
  obtain ⟨⟨acc, ended, after⟩, hwords, heq⟩ := h
  obtain ⟨-, -, rfl⟩ : String.ofList acc.reverse = text ∧ ended = lineEnded ∧ after = next := by
    simpa using heq
  have hhash : cursor.isAt '#' = false := by simpa [Cursor.isAt, hpeek] using hcomment
  simp only [plainWords?, hmarker, hhash, Bool.or_self, Bool.false_eq_true, if_false] at hwords
  split at hwords
  next => cases hwords
  next word after₁ hword =>
    have hsum := plainWord?_weight hword
    have hpos : 0 < weight word := by
      simp only [plainWord?, hpeek, hblank, hstops, Bool.false_eq_true, if_false] at hword
      split at hword
      · cases hword
      · have hgrows := plainWord?_grows hword
        have := charWeight_pos c
        rw [weight_cons, weight_nil] at hgrows
        omega
    have hne : word.isEmpty = false := by
      cases word with
      | nil => exact absurd hpos (by simp)
      | cons => rfl
    simp only [weight_nil, Nat.zero_add] at hsum
    simp only [hne, Bool.false_eq_true, if_false] at hwords
    split at hwords
    next => cases hwords; omega
    next d hpeek₁ =>
      split at hwords
      next => cases hwords; omega
      next =>
        split at hwords
        next => cases hwords
        next gap after₂ hscan =>
          have hscan := Gap.scan?_weight hscan
          rw [Gap.weight_empty] at hscan
          split at hwords
          next => cases hwords; omega
          next => have := plainWords?_weight hwords; omega

/-! ## Quoted scalars -/

theorem escaped?_weight {cursor next : Cursor} {value : Char}
    (h : escaped? cursor = some (value, next)) : 1 + next.weight ≤ cursor.weight := by
  simp only [escaped?, Option.bind_eq_bind, Option.bind_eq_some_iff] at h
  obtain ⟨c, hpeek, h⟩ := h
  have hlt {n : Nat} (hn : 0 < n) : 1 + (cursor.skip n).weight ≤ cursor.weight := by
    have := Cursor.skip_weight_lt hpeek hn
    omega
  split at h
  next =>
    obtain ⟨-, rfl⟩ := by simpa using h
    exact hlt (by omega)
  next =>
    simp only [Option.bind_eq_some_iff] at h
    obtain ⟨width, -, h⟩ := h
    split at h
    next => cases h
    next =>
      simp only [Option.bind_eq_some_iff] at h
      obtain ⟨n, -, h⟩ := h
      split at h
      next => cases h
      next =>
        obtain ⟨-, rfl⟩ := by simpa using h
        exact hlt (by omega)

/-- An escape has two characters at least, which is what a line end weighs. -/
theorem quotedWord?_weight {single : Bool} {fuel : Nat} {acc acc' : List Char} {lineEscaped : Bool}
    {cursor next : Cursor} (h : quotedWord? single fuel acc cursor = some (acc', lineEscaped, next)) :
    weight acc' + next.weight ≤ weight acc + cursor.weight := by
  induction fuel generalizing acc cursor with
  | zero => cases h; exact Nat.le_refl _
  | succ fuel ih =>
    simp only [quotedWord?] at h
    generalize (if single = true then '\'' else '"') = quote at h
    split at h
    next => cases h; exact Nat.le_refl _
    next c hpeek =>
      have hskip := Cursor.skip_one_weight hpeek
      have hpos := charWeight_pos c
      split_ifs at h with hblank htwo hend hescape
      · cases h; exact Nat.le_refl _
      · have := ih h
        have hquote : charWeight '\'' = 1 := rfl
        have hlt := Cursor.skip_weight_lt hpeek (n := 2) (by omega)
        simp only [weight_cons, hquote] at this
        omega
      · cases h; exact Nat.le_refl _
      · split at h
        next d after hline =>
          cases h
          have := (Cursor.lineEnd?_weight hline).2
          omega
        next =>
          split at h
          next => cases h
          next value after hvalue =>
            have := ih h
            have hafter := escaped?_weight hvalue
            have htwo := charWeight_le_two value
            simp only [weight_cons] at this
            omega
      · have := ih h
        simp only [weight_cons] at this
        omega

theorem quotedWords?_weight {single : Bool} {fuel : Nat} {acc acc' : List Char}
    {cursor next : Cursor} (h : quotedWords? single fuel acc cursor = some (acc', next)) :
    weight acc' + next.weight < weight acc + cursor.weight := by
  induction fuel generalizing acc cursor with
  | zero => cases h
  | succ fuel ih =>
    simp only [quotedWords?] at h
    generalize (if single = true then '\'' else '"') = quote at h
    split at h
    next => cases h
    next =>
      split at h
      next => cases h
      next acc₁ lineEscaped after hword =>
        have hword := quotedWord?_weight hword
        split at h
        next hquote =>
          cases h
          have hpeek : after.peek? = some quote := by simpa [Cursor.isAt] using hquote
          have := Cursor.skip_weight_lt hpeek (n := 1) (by omega)
          omega
        next =>
          split at h
          next => cases h
          next gap after₂ hscan =>
            have hscan := Gap.scan?_weight hscan
            have hfold := gap.fold_weight_le
            have hfresh : Gap.weight { lineEnds := lineEscaped } = 0 := by
              cases lineEscaped <;> rfl
            have := ih h
            simp only [weight_append, weight_reverse] at this
            omega

theorem quotedScalar?_weight {single : Bool} {text : String} {cursor next : Cursor}
    (h : quotedScalar? single cursor = some (text, next)) :
    weight text.toList + next.weight < cursor.weight := by
  simp only [quotedScalar?, Option.map_eq_some_iff] at h
  obtain ⟨⟨acc, after⟩, hwords, heq⟩ := h
  obtain ⟨rfl, rfl⟩ : String.ofList acc.reverse = text ∧ after = next := by simpa using heq
  have := quotedWords?_weight hwords
  have := cursor.skip_weight_le 1
  simp at *
  omega

/-! ## Block scalars -/

theorem chomping?_weight {cursor next : Cursor} {chomping : Chomping}
    (h : chomping? cursor = some (chomping, next)) : next.weight ≤ cursor.weight := by
  unfold chomping? at h
  split_ifs at h <;> (cases h; exact cursor.skip_weight_le 1)

theorem blockIncrement?_weight {cursor next : Cursor} {increment : Nat}
    (h : blockIncrement? cursor = some (increment, next)) : next.weight ≤ cursor.weight := by
  unfold blockIncrement? at h
  split at h
  · split_ifs at h
    · cases h; exact cursor.skip_weight_le 1
    · cases h; exact Nat.le_refl _
  · cases h; exact Nat.le_refl _

theorem blockHeader?_weight {cursor next : Cursor} {chomping : Chomping} {increment : Nat}
    (h : blockHeader? cursor = some (chomping, increment, next)) : next.weight ≤ cursor.weight := by
  unfold blockHeader? at h
  split at h
  next chomping' after hchomping =>
    simp only [Option.bind_eq_bind, Option.bind_eq_some_iff] at h
    obtain ⟨⟨n, after₂⟩, hincrement, heq⟩ := h
    obtain ⟨-, -, rfl⟩ := by simpa using heq
    exact Nat.le_trans (blockIncrement?_weight hincrement) (chomping?_weight hchomping)
  next =>
    simp only [Option.bind_eq_bind, Option.bind_eq_some_iff] at h
    obtain ⟨⟨n, after⟩, hincrement, heq⟩ := h
    have hafter := blockIncrement?_weight hincrement
    split at heq
    next chomping' after₂ hchomping =>
      obtain ⟨-, -, rfl⟩ := by simpa using heq
      split at hchomping
      · cases hchomping
      · exact Nat.le_trans (chomping?_weight hchomping) hafter
    next =>
      obtain ⟨-, -, rfl⟩ := by simpa using heq
      exact hafter

theorem blockBreaks?_weight {indent : Int} {fuel : Nat} {breaks breaks' : List Char}
    {most most' : Nat} {cursor next : Cursor}
    (h : blockBreaks? indent fuel breaks most cursor = some (breaks', most', next)) :
    weight breaks' + next.weight ≤ weight breaks + cursor.weight := by
  induction fuel generalizing breaks most cursor with
  | zero => cases h
  | succ fuel ih =>
    simp only [blockBreaks?] at h
    generalize (if indent = 0 then (cursor.rest.takeWhile (· = ' ')).length
      else min (cursor.rest.takeWhile (· = ' ')).length (indent.toNat - cursor.column)) = taken at h
    have hskip := cursor.skip_weight_le taken
    split at h
    next => cases h
    next =>
      split at h
      next c after hline =>
        obtain ⟨hc, hafter⟩ := Cursor.lineEnd?_weight hline
        have := ih h
        simp only [weight_append, weight_cons, weight_nil, hc] at this
        omega
      next =>
        cases h
        omega

theorem blockLines?_weight {literal : Bool} {indent : Int} {fuel : Nat} {acc acc' : List Char}
    {leading leading' : Option Char} {leadingBlank : Bool} {trailing trailing' : List Char}
    {cursor next : Cursor}
    (h : blockLines? literal indent fuel acc leading leadingBlank trailing cursor =
      some (acc', leading', trailing', next)) :
    weight acc' + weight leading'.toList + weight trailing' + next.weight ≤
      weight acc + weight leading.toList + weight trailing + cursor.weight := by
  induction fuel generalizing acc leading leadingBlank trailing cursor with
  | zero => cases h
  | succ fuel ih =>
    rw [blockLines?] at h
    split at h
    next =>
      extract_lets startsBlank joint at h
      have hline : weight (blockLine cursor).1 + (blockLine cursor).2.weight = cursor.weight :=
        cursor.span_weight _
      -- A line feed that joins two lines is folded into a blank or into nothing.
      have hjoint : weight joint ≤ weight leading.toList := by
        simp only [joint]
        split
        next hfolded =>
          have hfeed : leading = some '\n' := by
            simp only [Bool.and_eq_true, beq_iff_eq] at hfolded
            exact hfolded.1.1.2
          have hblank : charWeight ' ' = 1 := rfl
          have hn : charWeight '\n' = 2 := rfl
          split <;> simp [hfeed, hblank, hn]
        next => exact Nat.le_refl _
      generalize blockLine cursor = taken at h hline
      obtain ⟨line, after⟩ := taken
      dsimp only at h hline
      cases hend : after.lineEnd? with
      | none =>
        simp only [hend] at h
        split at h
        next => cases h
        next breaks most after₂ hbreaks =>
          have hbreaks := blockBreaks?_weight hbreaks
          have := ih h
          simp at this hbreaks ⊢
          omega
      | some ended =>
        obtain ⟨c, after₁⟩ := ended
        obtain ⟨hc, hafter⟩ := Cursor.lineEnd?_weight hend
        simp only [hend] at h
        split at h
        next => cases h
        next breaks most after₂ hbreaks =>
          have hbreaks := blockBreaks?_weight hbreaks
          have := ih h
          simp [hc] at this hbreaks ⊢
          omega
    next => cases h; exact Nat.le_refl _

/-- The bar or the angle at least is lost. -/
theorem blockScalar?_weight {literal : Bool} {outer : Int} {text : String} {c : Char}
    {cursor next : Cursor} (hpeek : cursor.peek? = some c)
    (h : blockScalar? literal outer cursor = some (text, next)) :
    weight text.toList + next.weight < cursor.weight := by
  simp only [blockScalar?, Option.bind_eq_bind, Option.bind_eq_some_iff] at h
  obtain ⟨⟨chomping, increment, afterHeader⟩, hheader, h⟩ := h
  have hheader := blockHeader?_weight hheader
  have hmark := Cursor.skip_weight_lt hpeek (n := 1) (by omega)
  dsimp only at h
  -- The rest of the line of the bar.
  have hblanks := afterHeader.skipWhile_weight_le isBlank
  generalize afterHeader.skipWhile isBlank = afterBlanks at h hblanks
  have hcomment := afterBlanks.skipComment_weight_le
  generalize (if afterBlanks.isAt '#' then
    afterBlanks.skipWhile fun c => !isBreakOrEnd (some c) else afterBlanks) = lineEnd at h hcomment
  have hfirst := lineEnd.skipLineEnd_weight_le
  split at h
  next => cases h
  next =>
    simp only [Option.bind_eq_some_iff] at h
    obtain ⟨⟨breaks, most, start⟩, hbreaks, ⟨acc, leading, trailing, last⟩, hlines, heq⟩ := h
    have hbreaks := blockBreaks?_weight hbreaks
    have hlines := blockLines?_weight hlines
    obtain ⟨rfl, rfl⟩ := by simpa using heq
    simp at hbreaks hlines
    have hstripped : weight (if chomping = .strip then acc else leading.toList ++ acc) ≤
        weight acc + weight leading.toList := by
      split
      · omega
      · simp [Nat.add_comm]
    have hkept : weight (if chomping = .keep then
        trailing.reverse ++ (if chomping = .strip then acc else leading.toList ++ acc)
        else if chomping = .strip then acc else leading.toList ++ acc) ≤
        weight acc + weight leading.toList + weight trailing := by
      split
      · rw [weight_append, weight_reverse]
        omega
      · omega
    rw [String.toList_ofList, weight_reverse]
    omega

/-! ## Names, tags and directives -/

theorem anchorName?_weight {cursor next : Cursor} {name : String}
    (h : anchorName? cursor = some (name, next)) : next.weight ≤ (cursor.skip 1).weight := by
  simp only [anchorName?, Option.ite_none_left_eq_some] at h
  obtain ⟨-, rfl⟩ : _ ∧ ((cursor.skip 1).span isNameChar).2 = next := by simpa using h.2
  have := (cursor.skip 1).span_weight isNameChar
  omega

theorem tagUri?_weight {anywhere mayBeEmpty : Bool} {cursor next : Cursor} {text : String}
    (h : tagUri? anywhere mayBeEmpty cursor = some (text, next)) : next.weight ≤ cursor.weight := by
  simp only [tagUri?] at h
  split at h
  next => cases h
  next =>
    simp only [Option.bind_eq_bind, Option.bind_eq_some_iff] at h
    obtain ⟨chars, -, heq⟩ := h
    obtain ⟨-, rfl⟩ := by simpa using heq
    have := cursor.span_weight (isTagChar anywhere)
    omega

theorem tagHandle?_weight {cursor next : Cursor} {handle : String}
    (h : tagHandle? cursor = some (handle, next)) : next.weight < cursor.weight := by
  simp only [tagHandle?] at h
  split at h
  next hmark =>
    have hpeek : cursor.peek? = some '!' := by simpa [Cursor.isAt] using hmark
    have hlt := Cursor.skip_weight_lt hpeek (n := 1) (by omega)
    have hspan := (cursor.skip 1).span_weight isNameChar
    split at h
    next =>
      obtain ⟨-, rfl⟩ := by simpa using h
      have := ((cursor.skip 1).span isNameChar).2.skip_weight_le 1
      omega
    next =>
      obtain ⟨-, rfl⟩ := by simpa using h
      omega
  next => cases h

/-- Whether a token is a scalar. -/
def Token.isScalar : Token → Bool
  | .scalar _ _ => true
  | _ => false

theorem tag?_weight {inFlow : Bool} {cursor next : Cursor} {token : Token} {c : Char}
    (hpeek : cursor.peek? = some c) (h : tag? inFlow cursor = some (token, next)) :
    token.isScalar = false ∧ next.weight < cursor.weight := by
  -- What comes behind the tag is looked at, but not taken.
  have hlook {p : Bool} {token' : Token} {after : Cursor} (htoken : token'.isScalar = false)
      (hafter : after.weight < cursor.weight)
      (h : (if p then some (token', after) else none) = some (token, next)) :
      token.isScalar = false ∧ next.weight < cursor.weight := by
    split at h
    · cases h
      exact ⟨htoken, hafter⟩
    · cases h
  simp only [tag?, Option.bind_eq_bind] at h
  split at h
  next =>
    split at h
    next uri after huri =>
      split at h
      next =>
        have := tagUri?_weight huri
        have := Cursor.skip_weight_lt hpeek (n := 2) (by omega)
        have := after.skip_weight_le 1
        exact hlook rfl (by dsimp only; omega) h
      next => cases h
    next => cases h
  next =>
    split at h
    next handle after hhandle =>
      have hhandle := tagHandle?_weight hhandle
      split at h
      all_goals
        simp only [Option.bind_eq_some_iff, Option.map_eq_some_iff] at h
        obtain ⟨-, ⟨⟨suffix, ended⟩, huri, rfl⟩, h⟩ := h
        have := tagUri?_weight huri
        refine hlook ?_ (by dsimp only; omega) h
        first | rfl | (dsimp only; split <;> rfl)
    next => cases h

theorem versionNumber?_weight {cursor next : Cursor} {n : Nat}
    (h : versionNumber? cursor = some (n, next)) : next.weight ≤ cursor.weight := by
  simp only [versionNumber?, Option.ite_none_left_eq_some] at h
  obtain ⟨-, rfl⟩ : _ ∧ (cursor.span fun c => '0' ≤ c && c ≤ '9').2 = next := by simpa using h.2
  have := cursor.span_weight fun c => '0' ≤ c && c ≤ '9'
  omega

theorem directive?_weight {cursor next : Cursor} {token : Token} {c : Char}
    (hpeek : cursor.peek? = some c) (h : directive? cursor = some (token, next)) :
    token.isScalar = false ∧ next.weight < cursor.weight := by
  have hstart := Cursor.skip_weight_lt hpeek (n := 1) (by omega)
  -- The rest of the line holds blanks and a comment.
  have hline {after : Cursor} {token' : Token} (htoken : token'.isScalar = false)
      (hafter : after.weight < cursor.weight)
      (h : (if isBreakOrEnd (if (after.skipWhile isBlank).isAt '#' then
            (after.skipWhile isBlank).skipWhile fun c => !isBreakOrEnd (some c)
            else after.skipWhile isBlank).peek? then
          some (token', (if (after.skipWhile isBlank).isAt '#' then
            (after.skipWhile isBlank).skipWhile fun c => !isBreakOrEnd (some c)
            else after.skipWhile isBlank).skipLineEnd)
        else none) = some (token, next)) :
      token.isScalar = false ∧ next.weight < cursor.weight := by
    have hblanks := after.skipWhile_weight_le isBlank
    generalize after.skipWhile isBlank = afterBlanks at h hblanks
    have hcomment := afterBlanks.skipComment_weight_le
    generalize (if afterBlanks.isAt '#' then
      afterBlanks.skipWhile fun c => !isBreakOrEnd (some c) else afterBlanks) = lineEnd
      at h hcomment
    have := lineEnd.skipLineEnd_weight_le
    split at h
    · cases h
      exact ⟨htoken, by omega⟩
    · cases h
  simp only [directive?, Option.bind_eq_bind] at h
  have hname := (cursor.skip 1).span_weight isNameChar
  generalize (cursor.skip 1).span isNameChar = named at h hname
  obtain ⟨name, afterName⟩ := named
  dsimp only at h hname
  have hblanks := afterName.skipWhile_weight_le isBlank
  split at h
  next => cases h
  next =>
    split at h
    next =>
      split at h
      next major after hmajor =>
        have := versionNumber?_weight hmajor
        split at h
        next =>
          simp only [Option.bind_eq_some_iff, Option.map_eq_some_iff] at h
          obtain ⟨-, ⟨⟨minor, ended⟩, hminor, rfl⟩, h⟩ := h
          have := versionNumber?_weight hminor
          have := after.skip_weight_le 1
          exact hline rfl (by dsimp only; omega) h
        next => cases h
      next => cases h
    next =>
      split at h
      next =>
        split at h
        next handle after hhandle =>
          have := tagHandle?_weight hhandle
          have := after.skipWhile_weight_le isBlank
          cases hafter : after.peek? with
          | none => simp [hafter] at h
          | some d =>
            simp only [hafter] at h
            split at h
            next =>
              split at h
              next uri ended huri =>
                have := tagUri?_weight huri
                split at h
                · exact hline rfl (by dsimp only; omega) h
                · cases h
              next => cases h
            next => cases h
        next => cases h
      next => cases h

end Stencil.Yaml
