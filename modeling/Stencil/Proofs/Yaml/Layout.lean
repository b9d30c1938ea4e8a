import Stencil.Proofs.Yaml.Line
import Stencil.Yaml.Lexer

/-!
# Between two entries of a block

Behind an entry come line ends, empty lines, comments and the indentation of the next one. How far these
reach is the same for the blanks between tokens and for the gap behind a plain scalar, which ends before
a comment, so it is told once (`Settles`).
-/

namespace Stencil.Yaml

/-- From a column, with characters behind it, only blanks, line ends and comments come before another
column and what stands there. Neither a comment nor what stands there is right of a limit. -/
inductive Settles (limit : Nat) : Nat → List Char → Nat → List Char → Prop where
  | done {column : Nat} : column ≤ limit → Settles limit column [] column []
  | content {column : Nat} {c : Char} {rest : List Char} : column ≤ limit →
      isBlankOrEnd (some c) = false → c ≠ '#' → c ≠ '\ufeff' →
      Settles limit column (c :: rest) column (c :: rest)
  | blank {column column' : Nat} {rest rest' : List Char} :
      Settles limit (column + 1) rest column' rest' → Settles limit column (' ' :: rest) column' rest'
  | lineEnd {column column' : Nat} {rest rest' : List Char} :
      Settles limit 0 rest column' rest' → Settles limit column ('\n' :: rest) column' rest'
  | comment {column column' : Nat} {text rest rest' : List Char} : column ≤ limit →
      (∀ c ∈ text, isBreakOrEnd (some c) = false) → Settles limit 0 rest column' rest' →
      Settles limit column ('#' :: text ++ '\n' :: rest) column' rest'

namespace Settles

variable {limit column column' : Nat} {rest rest' : List Char}

theorem length_le (h : Settles limit column rest column' rest') : rest'.length ≤ rest.length := by
  induction h <;> simp <;> omega

end Settles

namespace Lexer

/-- Blanks, line ends and comments are passed over. -/
theorem skipBlanks_settles {limit column column' : Nat} {rest rest' : List Char}
    (h : Settles limit column rest column' rest') {fuel : Nat} (index line : Nat) (tokens : List Token)
    (keyStart : Option KeyStart) (indent : Int) (outer : List Int) (hfuel : rest.length < fuel) :
    ∃ index' line', line ≤ line' ∧
      skipBlanks fuel ⟨⟨rest, index, line, column⟩, tokens, [keyStart], true, indent, outer⟩ =
        ⟨⟨rest', index', line', column'⟩, tokens, [keyStart], true, indent, outer⟩ := by
  induction h generalizing fuel index line with
  | done =>
    obtain ⟨fuel, rfl⟩ : ∃ n, fuel = n + 1 := ⟨fuel - 1, by omega⟩
    refine ⟨index, line, Nat.le_refl _, ?_⟩
    simp [skipBlanks, Cursor.isAt, Cursor.peek?, Cursor.skipWhile, Cursor.span, Cursor.skip,
      Cursor.lineEnd?]
  | @content column c rest _ hopen hcomment hmark =>
    obtain ⟨fuel, rfl⟩ : ∃ n, fuel = n + 1 := ⟨fuel - 1, by omega⟩
    simp only [isBlankOrEnd, Bool.or_eq_false_iff] at hopen
    have hblank : c ≠ ' ' := by rintro rfl; simp [isBlank] at hopen
    have hpeek : (Cursor.mk (c :: rest) index line column).peek? = some c := rfl
    have hline := Cursor.lineEnd?_eq_none hpeek hopen.1.2
    refine ⟨index, line, Nat.le_refl _, ?_⟩
    simp [skipBlanks, Cursor.isAt, Cursor.peek?, Cursor.skipWhile, Cursor.span, Cursor.skip, inFlow,
      hmark, hblank, hcomment, hline]
  | @blank column column' rest rest' _ ih =>
    obtain ⟨fuel, rfl⟩ : ∃ n, fuel = n + 1 := ⟨fuel - 1, by omega⟩
    obtain ⟨index', line', hline, heq⟩ := ih (index + 1) line
      (show _ < fuel + 1 by simp only [List.length_cons] at hfuel; omega)
    refine ⟨index', line', hline, ?_⟩
    rw [← heq]
    simp [skipBlanks, Cursor.isAt, Cursor.peek?, Cursor.skipWhile, Cursor.span, Cursor.skip, inFlow,
      Nat.add_assoc, Nat.add_comm 1]
  | @lineEnd column column' rest rest' _ ih =>
    obtain ⟨fuel, rfl⟩ : ∃ n, fuel = n + 1 := ⟨fuel - 1, by omega⟩
    obtain ⟨index', line', hline, heq⟩ := ih (index + 1) (line + 1)
      (show _ < fuel by simpa using hfuel)
    refine ⟨index', line', by omega, ?_⟩
    rw [← heq]
    simp [skipBlanks, Cursor.isAt, Cursor.peek?, Cursor.skipWhile, Cursor.span, Cursor.skip, inFlow,
      Cursor.lineEnd?, isBreak]
  | @comment column column' text rest rest' _ htext _ ih =>
    obtain ⟨fuel, rfl⟩ : ∃ n, fuel = n + 1 := ⟨fuel - 1, by omega⟩
    obtain ⟨index', line', hline, heq⟩ := ih (index + (text.length + 1) + 1) (line + 1)
      (show _ < fuel by simp at hfuel; omega)
    refine ⟨index', line', by omega, ?_⟩
    rw [← heq]
    have htake : (text ++ '\n' :: rest).takeWhile (fun c => !isBreakOrEnd (some c)) = text := by
      rw [List.takeWhile_append_of_pos (by simpa using htext)]
      simp [isBreakOrEnd, isBreak]
    have hhash : isBreakOrEnd (some '#') = false := rfl
    simp [skipBlanks, Cursor.isAt, Cursor.peek?, Cursor.skipWhile, Cursor.span, Cursor.skip, inFlow,
      htake, hhash, Cursor.lineEnd?, isBreak]

end Lexer

/-- The gap behind a plain scalar ends where the blanks do, or before a comment. -/
theorem Gap.scan?_settles {limit column column' : Nat} {rest rest' : List Char}
    (h : Settles limit column rest column' rest') (tabLimit : Int) {fuel : Nat} (index line : Nat)
    {gap : Gap} (hgap : gap.lineEnds = true) (hfuel : rest.length < fuel) :
    ∃ gap' next, Gap.scan? tabLimit fuel gap ⟨rest, index, line, column⟩ = some (gap', next) ∧
      gap'.lineEnds = true ∧ line ≤ next.line ∧ next.rest.length ≤ rest.length ∧
      next.column ≤ limit ∧ Settles limit next.column next.rest column' rest' := by
  induction h generalizing fuel index line gap with
  | done hcolumn =>
    obtain ⟨fuel, rfl⟩ : ∃ n, fuel = n + 1 := ⟨fuel - 1, by omega⟩
    exact ⟨gap, _, rfl, hgap, Nat.le_refl _, Nat.le_refl _, hcolumn, .done hcolumn⟩
  | @content column c rest hcolumn hopen hcomment hmark =>
    obtain ⟨fuel, rfl⟩ : ∃ n, fuel = n + 1 := ⟨fuel - 1, by omega⟩
    refine ⟨gap, ⟨c :: rest, index, line, column⟩, ?_, hgap, Nat.le_refl _, Nat.le_refl _, hcolumn,
      .content hcolumn hopen hcomment hmark⟩
    simp only [isBlankOrEnd, Bool.or_eq_false_iff] at hopen
    have hpeek : (Cursor.mk (c :: rest) index line column).peek? = some c := rfl
    have hline := Cursor.lineEnd?_eq_none hpeek hopen.1.2
    simp [Gap.scan?, Cursor.peek?, hopen, hline]
  | @blank column column' rest rest' _ ih =>
    obtain ⟨fuel, rfl⟩ : ∃ n, fuel = n + 1 := ⟨fuel - 1, by omega⟩
    obtain ⟨gap', next, hscan, hends, hline, hlength, hrest⟩ := ih (index + 1) line hgap
      (show _ < fuel by simpa using hfuel)
    refine ⟨gap', next, ?_, hends, hline, by simp only [List.length_cons]; omega, hrest⟩
    simpa [Gap.scan?, Cursor.peek?, isBlank, hgap, Cursor.skip] using hscan
  | @lineEnd column column' rest rest' _ ih =>
    obtain ⟨fuel, rfl⟩ : ∃ n, fuel = n + 1 := ⟨fuel - 1, by omega⟩
    obtain ⟨gap', next, hscan, hends, hline, hlength, hrest⟩ := ih (index + 1) (line + 1)
      (show ({ gap with further := gap.further ++ ['\n'] } : Gap).lineEnds = true from hgap)
      (show _ < fuel by simpa using hfuel)
    refine ⟨gap', next, ?_, hends, by omega, by simp only [List.length_cons]; omega, hrest⟩
    simpa [Gap.scan?, Cursor.peek?, isBlank, hgap, Cursor.lineEnd?, isBreak] using hscan
  | @comment column column' text rest rest' hcolumn htext h _ =>
    obtain ⟨fuel, rfl⟩ : ∃ n, fuel = n + 1 := ⟨fuel - 1, by omega⟩
    refine ⟨gap, ⟨'#' :: text ++ '\n' :: rest, index, line, column⟩, ?_, hgap, Nat.le_refl _,
      Nat.le_refl _, hcolumn, .comment hcolumn htext h⟩
    simp [Gap.scan?, Cursor.peek?, isBlank, Cursor.lineEnd?, isBreak]

/-- At the end of its line a plain scalar ends, if what comes is indented less. -/
theorem plainRest?_lineEnd {limit column' : Nat} {rest rest' : List Char} {cursor : Cursor}
    (hrest : cursor.rest = '\n' :: rest) (h : Settles limit 0 rest column' rest') :
    ∃ next, (∀ left acc, plainRest? ((limit : Int) + 1) left acc cursor = some (acc, true, next)) ∧
      cursor.line < next.line ∧ next.rest.length < cursor.rest.length ∧
      Settles limit next.column next.rest column' rest' := by
  obtain ⟨text, index, line, column⟩ := cursor
  obtain rfl : text = '\n' :: rest := hrest
  obtain ⟨gap, next, hscan, hends, hline, hlength, hcolumn, hsettles⟩ := Gap.scan?_settles h
    ((limit : Int) + 1) (index + 1) (line + 1)
    (show ({ first := some '\n', lineEnds := true } : Gap).lineEnds = true from rfl)
    (Nat.lt_succ_self _)
  refine ⟨next, fun left acc => ?_, hline, by simp only [List.length_cons]; omega, hsettles⟩
  have hgap : Gap.scan? ((limit : Int) + 1) (('\n' :: rest).length + 1) {}
      ⟨'\n' :: rest, index, line, column⟩ = some (gap, next) := by
    simpa [Gap.scan?, Cursor.peek?, isBlank, Cursor.lineEnd?, isBreak] using hscan
  have hless : (next.column : Int) < (limit : Int) + 1 := by omega
  simp only [plainRest?, Cursor.peek?, List.head?_cons, hgap, hless, if_true, hends]
  simp [isBreak]

/-- A comment behind a plain scalar ends it. -/
theorem plainRest?_comment {indent : Int} {left : Nat} {acc rest : List Char} {cursor : Cursor}
    (hrest : cursor.rest = ' ' :: '#' :: rest) (hleft : 0 < left) :
    plainRest? indent left acc cursor = some (acc, false, cursor.skip 1) := by
  obtain ⟨left, rfl⟩ : ∃ n, left = n + 1 := ⟨left - 1, by omega⟩
  have hpeek : cursor.peek? = some ' ' := by simp [Cursor.peek?, hrest]
  have hblank : cursor.rest = [' '] ++ '#' :: rest := hrest
  have hscan := Gap.scan?_blanks indent [] (by simp [isBlank]) hblank rfl
    (show _ < cursor.rest.length + 1 by simp [hrest])
  have hhash : (cursor.skip 1).isAt '#' = true := by
    simp [Cursor.isAt, Cursor.peek?, Cursor.skip, hrest]
  simp only [plainRest?, hpeek]
  rw [hscan]
  simp [isBlank, plainWords?, hhash]

end Stencil.Yaml
