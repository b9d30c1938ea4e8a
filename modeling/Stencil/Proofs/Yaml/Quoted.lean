import Stencil.Json.Writer
import Stencil.Proofs.Yaml.Line

/-!
# JSON text between double quotes

What JSON puts between double quotes, YAML reads as the same text, with two exceptions. Characters that
no stream may hold are written as they are, except for the control characters below the blank. And the
line ends of Unicode beyond line feed and carriage return are written as they are as well, but folded
when they are read (`isQuotable`).
-/

namespace Stencil.Yaml

/-- Whether a character comes back from between double quotes: it is escaped, or it may stand in a
stream and ends no line. -/
def isQuotable (c : Char) : Bool :=
  c.toNat < 32 || (isAllowed c && c != '\u0085' && c != '\u2028' && c != '\u2029')

open Json (escapeChar)

/-- A control character is read back from its four digits. -/
theorem escaped?_control : ∀ n < 32, hexNumber?
    ['0', '0', Json.hexDigit (n / 16), Json.hexDigit (n % 16)] = some n := by
  decide

/-- A quotable character that is no control character ends no word, unless it is a blank. -/
theorem isBlankOrEnd_of_isQuotable {c : Char} (h : isQuotable c = true) (hblank : c ≠ ' ')
    (hcontrol : ¬ c.toNat < 32) : isBlankOrEnd (some c) = false := by
  cases hend : isBlankOrEnd (some c) with
  | false => rfl
  | true =>
    have hor : c = ' ' ∨ c = '\t' ∨ c = '\r' ∨ c = '\n' ∨ c = '\u0085' ∨ c = '\u2028' ∨ c = '\u2029' ∨
        c = '\x00' := by
      simpa [isBlankOrEnd, isBlank, isBreak, or_assoc] using hend
    rcases hor with rfl | rfl | rfl | rfl | rfl | rfl | rfl | rfl <;>
      first
        | exact absurd rfl hblank
        | exact absurd (by decide) hcontrol
        | simp [isQuotable] at h

/-- An escape is read as the character it stands for. -/
theorem quotedWord?_escape {fuel : Nat} {acc rest : List Char} {letter value : Char}
    {cursor next : Cursor} (hrest : cursor.rest = '\\' :: letter :: rest)
    (hletter : isBreak letter = false) (hvalue : escaped? (cursor.skip 1) = some (value, next)) :
    quotedWord? false (fuel + 1) acc cursor = quotedWord? false fuel (value :: acc) next := by
  have hpeek : cursor.peek? = some '\\' := by simp [Cursor.peek?, hrest]
  have hafter : (cursor.skip 1).peek? = some letter := by simp [Cursor.peek?, Cursor.skip, hrest]
  have hline := Cursor.lineEnd?_eq_none hafter hletter
  simp [quotedWord?, hpeek, isBlankOrEnd, isBlank, isBreak, hline, hvalue]

/-- A character that is no blank is read back from how it is written. -/
theorem quotedWord?_escapeChar {fuel : Nat} {acc rest : List Char} {c : Char} {cursor : Cursor}
    (hc : isQuotable c = true) (hblank : c ≠ ' ') (hrest : cursor.rest = escapeChar c ++ rest) :
    quotedWord? false (fuel + 1) acc cursor =
      quotedWord? false fuel (c :: acc) (cursor.skip (escapeChar c).length) := by
  unfold escapeChar at hrest ⊢
  split_ifs at hrest ⊢ with h1 h2 h3 h4 h5 h6 h7 hcontrol
  all_goals try
    subst c
    refine quotedWord?_escape hrest rfl ?_
    simp [escaped?, Cursor.peek?, Cursor.skip, hrest, escape?]
  · refine quotedWord?_escape hrest rfl ?_
    have hdigits := escaped?_control c.toNat hcontrol
    have hsmall : ¬ ((0xd800 ≤ c.toNat ∧ c.toNat ≤ 0xdfff) ∨ 0x10ffff < c.toNat) := by omega
    simp [escaped?, Cursor.peek?, Cursor.skip, hrest, escape?, escapeWidth?, hdigits, hsmall]
  · have hpeek : cursor.peek? = some c := by simp [Cursor.peek?, hrest]
    simp [quotedWord?, hpeek, isBlankOrEnd_of_isQuotable hc hblank hcontrol, h1, h2]

/-- What a character is written as starts with no blank and no line end, if it is no blank. -/
theorem exists_head_escapeChar {c : Char} (hc : isQuotable c = true) (hblank : c ≠ ' ') :
    ∃ d rest, escapeChar c = d :: rest ∧ isBlankOrEnd (some d) = false := by
  unfold escapeChar
  split_ifs
  all_goals try exact ⟨_, _, rfl, rfl⟩
  exact ⟨c, [], rfl, isBlankOrEnd_of_isQuotable hc hblank (by assumption)⟩

/-- A word is read up to the blank or the quote behind it. -/
theorem quotedWord?_word {fuel : Nat} {acc word tail : List Char} {c : Char} {cursor : Cursor}
    (hword : ∀ c ∈ word, isQuotable c = true ∧ c ≠ ' ')
    (hrest : cursor.rest = word.flatMap escapeChar ++ c :: tail) (hend : c = '"' ∨ c = ' ')
    (hfuel : word.length < fuel) :
    quotedWord? false fuel acc cursor =
      some (word.reverse ++ acc, false, cursor.skip (word.flatMap escapeChar).length) := by
  induction word generalizing fuel acc cursor with
  | nil =>
    obtain ⟨fuel, rfl⟩ : ∃ n, fuel = n + 1 := ⟨fuel - 1, by omega⟩
    have hpeek : cursor.peek? = some c := by simp [Cursor.peek?, hrest]
    rcases hend with rfl | rfl <;>
      simp [quotedWord?, hpeek, isBlankOrEnd, isBlank, isBreak, Cursor.skip]
  | cons d word ih =>
    obtain ⟨fuel, rfl⟩ : ∃ n, fuel = n + 1 := ⟨fuel - 1, by omega⟩
    simp only [List.mem_cons, forall_eq_or_imp] at hword
    rw [List.flatMap_cons, List.append_assoc] at hrest
    rw [quotedWord?_escapeChar hword.1.1 hword.1.2 hrest,
      ih hword.2 (Cursor.rest_skip hrest) (by simpa using hfuel)]
    simp [Cursor.skip_skip]

/-- Characters up to the first that is not in a class, and the rest. -/
theorem exists_front (p : Char → Bool) (chars : List Char) :
    ∃ front rest, chars = front ++ rest ∧ (∀ c ∈ front, p c = true) ∧
      (rest = [] ∨ ∃ c more, rest = c :: more ∧ p c = false) := by
  refine ⟨chars.takeWhile p, chars.dropWhile p, List.takeWhile_append_dropWhile.symm,
    fun c hc => List.mem_takeWhile_imp hc, ?_⟩
  have hhead := List.head?_dropWhile_not p chars
  cases hdrop : chars.dropWhile p with
  | nil => exact .inl rfl
  | cons c more =>
    rw [hdrop] at hhead
    exact .inr ⟨c, more, rfl, by simpa using hhead⟩

theorem length_le_escaped (chars : List Char) :
    chars.length ≤ (chars.flatMap escapeChar).length := by
  induction chars with
  | nil => exact Nat.le_refl _
  | cons c chars ih =>
    have hpos : 0 < (escapeChar c).length := by
      unfold escapeChar
      split_ifs <;> simp
    rw [List.flatMap_cons, List.length_append, List.length_cons]
    omega

theorem escaped_blanks {blanks : List Char} (h : ∀ c ∈ blanks, c = ' ') :
    blanks.flatMap escapeChar = blanks := by
  induction blanks with
  | nil => rfl
  | cons c blanks ih =>
    simp only [List.mem_cons, forall_eq_or_imp] at h
    rw [List.flatMap_cons, ih h.2, h.1]
    rfl

/-- What is between quotes is read to the closing one, wherever the line stands. -/
theorem quotedWords?_quote {fuel : Nat} (acc : List Char) {chars tail : List Char} {cursor : Cursor}
    (hchars : ∀ c ∈ chars, isQuotable c = true)
    (hrest : cursor.rest = chars.flatMap escapeChar ++ '"' :: tail) (hcolumn : cursor.column ≠ 0)
    (hfuel : chars.length < fuel) :
    quotedWords? false fuel acc cursor =
      some (chars.reverse ++ acc, cursor.skip ((chars.flatMap escapeChar).length + 1)) := by
  -- By the length of the text: behind a word, either the quote comes or blanks do.
  induction hlen : chars.length using Nat.strongRecOn generalizing fuel acc chars cursor with
  | _ n ih =>
    obtain ⟨fuel, rfl⟩ : ∃ n, fuel = n + 1 := ⟨fuel - 1, by omega⟩
    have hmarker : cursor.isDocumentMarker = false := by
      simp [Cursor.isDocumentMarker, Cursor.isMarker, hcolumn]
    have hnotEmpty : cursor.rest.isEmpty = false := by
      rw [hrest]
      cases chars.flatMap escapeChar <;> rfl
    obtain ⟨word, more, rfl, hword, hmore⟩ := exists_front (· ≠ ' ') chars
    have hwordQuotable : ∀ c ∈ word, isQuotable c = true ∧ c ≠ ' ' := fun c hc =>
      ⟨hchars c (by simp [hc]), by simpa using hword c hc⟩
    rw [List.flatMap_append, List.append_assoc] at hrest
    have hwordLength : word.length < cursor.rest.length + 1 := by
      have := length_le_escaped word
      rw [hrest, List.length_append]
      omega
    have hafter := Cursor.rest_skip hrest
    rcases hmore with rfl | ⟨b, more, rfl, hb⟩
    · have hread : quotedWord? false (cursor.rest.length + 1) acc cursor =
          some (word.reverse ++ acc, false, cursor.skip (word.flatMap escapeChar).length) :=
        quotedWord?_word hwordQuotable hrest (.inl rfl) hwordLength
      have hquote : (cursor.skip (word.flatMap escapeChar).length).isAt '"' = true := by
        rw [Cursor.isAt, Cursor.peek?, hafter]
        rfl
      simp only [quotedWords?, hmarker, hnotEmpty, Bool.or_self, Bool.false_eq_true, if_false, hread,
        hquote, if_true, Cursor.skip_skip, List.append_nil]
    · obtain rfl : b = ' ' := by simpa using hb
      obtain ⟨gap, rest, hsplit, hgap, hnext⟩ := exists_front (· = ' ') (' ' :: more)
      simp only [decide_eq_true_eq] at hgap
      have hgapBlank : ∀ c ∈ gap, isBlank c = true := fun c hc => by simp [isBlank, hgap c hc]
      have hgapNe : gap ≠ [] := by
        rintro rfl
        rcases hnext with rfl | ⟨c, _, rfl, hc⟩
        · simp at hsplit
        · obtain ⟨rfl, -⟩ : ' ' = c ∧ _ := by simpa using hsplit
          simp at hc
      rw [hsplit] at hchars hfuel hlen hafter ⊢
      rw [List.flatMap_append, escaped_blanks hgap, List.append_assoc] at hafter
      have hread : quotedWord? false (cursor.rest.length + 1) acc cursor =
          some (word.reverse ++ acc, false, cursor.skip (word.flatMap escapeChar).length) :=
        quotedWord?_word hwordQuotable hrest (.inr rfl) hwordLength
      have hquote : (cursor.skip (word.flatMap escapeChar).length).isAt '"' = false := by
        obtain ⟨b, gap', rfl⟩ := List.exists_cons_of_ne_nil hgapNe
        rw [Cursor.isAt, Cursor.peek?, hafter, hgap b (by simp)]
        rfl
      -- What comes behind the blanks is no blank.
      obtain ⟨d, tail', hd, hopen⟩ : ∃ d tail', rest.flatMap escapeChar ++ '"' :: tail = d :: tail' ∧
          isBlankOrEnd (some d) = false := by
        rcases hnext with rfl | ⟨c, more', rfl, hc⟩
        · exact ⟨'"', tail, rfl, rfl⟩
        · obtain ⟨d, written, hd, hopen⟩ :=
            exists_head_escapeChar (hchars c (by simp)) (by simpa using hc)
          exact ⟨d, _, by rw [List.flatMap_cons, hd]; rfl, hopen⟩
      have hscan := Gap.scan?_blanks 0 [] hgapBlank (hd ▸ hafter) hopen
        (Nat.lt_succ_of_le (by rw [hafter]; simp :
          gap.length ≤ (cursor.skip (word.flatMap escapeChar).length).rest.length))
      have hcount : 0 < gap.length := List.length_pos_iff.2 hgapNe
      simp only [List.length_append] at hlen hfuel
      have hfold : Gap.fold { blanks := [] ++ gap } = gap := by simp [Gap.fold]
      have hrec := ih rest.length (by omega) (gap.reverse ++ (word.reverse ++ acc))
        (fun c hc => hchars c (by simp [hc])) (Cursor.rest_skip hafter)
        (by simp [Cursor.skip, hcolumn]) (show _ < fuel by omega) rfl
      rw [quotedWords?]
      simp only [hmarker, hnotEmpty, Bool.or_self, Bool.false_eq_true, if_false, hread, hquote]
      rw [hscan]
      simp only [Cursor.skip_skip] at hrec
      simp only [hfold, hrec, Cursor.skip_skip, List.flatMap_append, escaped_blanks hgap,
        List.length_append, List.reverse_append, List.append_assoc, Nat.add_assoc]

/-- A text that JSON puts between quotes is read as itself, up to the closing quote. -/
theorem quotedScalar?_quote {text : String} {tail : List Char} {cursor : Cursor}
    (htext : ∀ c ∈ text.toList, isQuotable c = true)
    (hrest : cursor.rest = (Json.quote text).toList ++ tail) :
    quotedScalar? false cursor = some (text, cursor.skip (Json.quote text).toList.length) := by
  have hquote : (Json.quote text).toList = '"' :: (text.toList.flatMap escapeChar ++ ['"']) := by
    simp [Json.quote]
  have hafter : (cursor.skip 1).rest = text.toList.flatMap escapeChar ++ '"' :: tail := by
    simp [Cursor.skip, hrest, hquote]
  have hfuel : text.toList.length < cursor.rest.length + 1 := by
    have := length_le_escaped text.toList
    rw [hrest, hquote, List.length_append, List.length_cons, List.length_append]
    omega
  have hwords := quotedWords?_quote [] htext hafter (by simp [Cursor.skip]) hfuel
  rw [quotedScalar?, hwords, hquote]
  simp [Cursor.skip_skip, Nat.add_comm]

/-! ## Characters of a stream -/

/-- What a quotable character is written as may stand in a stream. -/
theorem isAllowed_escapeChar {c : Char} (hc : isQuotable c = true) :
    ∀ d ∈ escapeChar c, isAllowed d = true := by
  have hdigits : ∀ n < 32, ['\\', 'u', '0', '0', Json.hexDigit (n / 16), Json.hexDigit (n % 16)].all
      isAllowed = true := by decide
  rw [← List.all_eq_true]
  unfold escapeChar
  split_ifs with _ _ _ _ _ _ _ hcontrol
  all_goals try decide
  · exact hdigits _ hcontrol
  · simp only [isQuotable, hcontrol, decide_false, Bool.false_or, Bool.and_eq_true] at hc
    simpa using hc.1.1.1

theorem isAllowed_quote {text : String} (h : ∀ c ∈ text.toList, isQuotable c = true) :
    (Json.quote text).toList.all isAllowed = true := by
  have hquote : isAllowed '"' = true := rfl
  simpa [Json.quote, hquote] using fun c hc => isAllowed_escapeChar (h c hc)

/-- A character that may not stand in a stream is written as it is, if it is no control character below
the blank. -/
theorem mem_quote {text : String} {c : Char} (hmem : c ∈ text.toList) (hcontrol : 32 ≤ c.toNat)
    (hforbidden : isAllowed c = false) : c ∈ (Json.quote text).toList := by
  have hescape : escapeChar c = [c] := by
    unfold escapeChar
    split_ifs with h1 h2 h3 h4 h5 h6 h7 h8
    all_goals try (subst c; revert hcontrol hforbidden; decide)
    · omega
    · rfl
  have : c ∈ text.toList.flatMap escapeChar :=
    List.mem_flatMap.2 ⟨c, hmem, by rw [hescape]; exact List.mem_singleton_self c⟩
  simp [Json.quote, this]

end Stencil.Yaml
