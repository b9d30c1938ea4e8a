import Mathlib
import Stencil.Proofs.Yaml.Weight
import Stencil.Yaml.Lexer

/-!
# A text that is one plain scalar

Each token takes something of the text that is left, and no scalar is heavier than what it takes
(`Stencil.Proofs.Yaml.Weight`). So a scalar as heavy as the whole text was read first, took everything,
and is a plain one on one line: everything else would have lost weight.
-/

namespace Stencil.Yaml

namespace Lexer

variable {lexer lexer' lexer'' : Lexer} {c : Char}

/-! ## One round -/

/-- The place of the next token, with the blocks closed that end before it. -/
def ready? (lexer : Lexer) : Option Lexer :=
  (skipBlanks (lexer.cursor.rest.length + 1) lexer).forgetKeys?.map fun lexer =>
    lexer.closeTo lexer.cursor.column

/-- Reads the token that starts with a character, at its place. -/
def next? (lexer : Lexer) (c : Char) : Option Lexer :=
  if lexer.cursor.column = 0 && c = '%' then do
    let lexer ← (lexer.closeTo (-1)).dropKey?
    let (token, next) ← directive? lexer.cursor
    some ({ lexer with keyAllowed := false }.node token next)
  else if lexer.cursor.isMarker '-' then lexer.documentMark? .documentStart
  else if lexer.cursor.isMarker '.' then lexer.documentMark? .documentEnd
  else lexer.markOrScalar? c

/-- A run is one round after the other. -/
theorem run?_succ (fuel : Nat) (lexer : Lexer) :
    run? (fuel + 1) lexer = lexer.ready?.bind fun lexer =>
      match lexer.cursor.peek? with
      | none => lexer.finish?
      | some c => (lexer.next? c).bind (run? fuel) := by
  rw [run?, ready?]
  cases (skipBlanks (lexer.cursor.rest.length + 1) lexer).forgetKeys? with
  | none => rfl
  | some ready =>
    simp only [Option.map_some, Option.bind_some]
    cases (ready.closeTo ready.cursor.column).cursor.peek? with
    | none => rfl
    | some c =>
      simp only [next?]
      generalize (if ((ready.closeTo ready.cursor.column).cursor.column = 0 && c = '%') = true then _
        else _) = after?
      cases after? <;> rfl

/-! ## What adds no scalar -/

/-- The place is the same, and no scalar has been added. -/
structure Keeps (lexer lexer' : Lexer) : Prop where
  cursor : lexer'.cursor = lexer.cursor
  scalar : ∀ {written text}, Token.scalar written text ∈ lexer'.tokens →
    Token.scalar written text ∈ lexer.tokens

theorem Keeps.refl (lexer : Lexer) : lexer.Keeps lexer := ⟨rfl, id⟩

theorem Keeps.trans (h : lexer.Keeps lexer') (h' : lexer'.Keeps lexer'') : lexer.Keeps lexer'' :=
  ⟨h'.cursor.trans h.cursor, fun hmem => h.scalar (h'.scalar hmem)⟩

theorem insertAt_keeps (lexer : Lexer) (n : Nat) {token : Token} (h : token.isScalar = false) :
    lexer.Keeps (lexer.insertAt n [token]) := by
  refine ⟨rfl, fun {written text} hmem => ?_⟩
  simp only [insertAt, List.reverse_cons, List.reverse_nil, List.nil_append, List.mem_append,
    List.mem_singleton] at hmem
  obtain (hmem | rfl) | hmem := hmem
  · exact List.mem_of_mem_take hmem
  · cases h
  · exact List.mem_of_mem_drop hmem

theorem openBlock_keeps (lexer : Lexer) (column n : Nat) {token : Token}
    (h : token.isScalar = false) : lexer.Keeps (lexer.openBlock column n token) := by
  unfold openBlock
  split
  · exact ⟨rfl, (lexer.insertAt_keeps n h).scalar⟩
  · exact .refl lexer

theorem closeBlocks_keeps (column : Int) (outer : List Int) (lexer : Lexer) :
    lexer.Keeps (closeBlocks column outer lexer) := by
  have hpush (indent : Int) (outer : List Int) :
      lexer.Keeps { lexer.push .blockEnd with indent, outerIndents := outer } :=
    ⟨rfl, fun hmem => by simpa [push] using hmem⟩
  induction outer generalizing lexer with
  | nil =>
    rw [closeBlocks]
    split
    · exact .refl lexer
    · exact hpush (-1) _
  | cons indent rest ih =>
    rw [closeBlocks]
    split
    · exact .refl lexer
    · exact (hpush indent rest).trans
        (ih _ fun indent outer => ⟨rfl, fun hmem => by simpa [push] using hmem⟩)

theorem closeTo_keeps (lexer : Lexer) (column : Int) : lexer.Keeps (lexer.closeTo column) :=
  closeBlocks_keeps ..

theorem dropKey?_keeps (h : lexer.dropKey? = some lexer') : lexer.Keeps lexer' := by
  unfold dropKey? at h
  split at h
  · split at h
    · cases h
    · cases h; exact ⟨rfl, id⟩
  · cases h; exact .refl lexer

theorem noteKey?_keeps (h : lexer.noteKey? = some lexer') : lexer.Keeps lexer' := by
  unfold noteKey? at h
  split at h
  · simp only [Option.bind_eq_bind, Option.bind_eq_some_iff] at h
    obtain ⟨dropped, hdrop, h⟩ := h
    cases h
    exact ⟨(dropKey?_keeps hdrop).cursor, (dropKey?_keeps hdrop).scalar⟩
  · cases h; exact .refl lexer

theorem forgetKeys?_keeps (h : lexer.forgetKeys? = some lexer') : lexer.Keeps lexer' := by
  simp only [forgetKeys?, Option.bind_eq_bind, Option.bind_eq_some_iff] at h
  obtain ⟨keyStarts, -, h⟩ := h
  cases h
  exact ⟨rfl, id⟩

theorem announceKey_keeps (lexer : Lexer) (key : KeyStart) : lexer.Keeps (lexer.announceKey key) :=
  (lexer.insertAt_keeps key.tokens rfl).trans (openBlock_keeps _ _ _ rfl)

/-! ## What takes something -/

/-- Something has been taken, and scalars that were added are lighter than what was there. -/
structure Takes (lexer lexer' : Lexer) : Prop where
  rest : lexer'.cursor.weight < lexer.cursor.weight
  scalar : ∀ {written text}, Token.scalar written text ∈ lexer'.tokens →
    Token.scalar written text ∈ lexer.tokens ∨ weight text.toList < lexer.cursor.weight

theorem Keeps.takes {token : Token} (h : lexer.Keeps lexer')
    (htokens : lexer''.tokens = token :: lexer'.tokens)
    (hrest : lexer''.cursor.weight < lexer.cursor.weight)
    (htoken : ∀ written text, token = .scalar written text →
      weight text.toList < lexer.cursor.weight) : lexer.Takes lexer'' := by
  refine ⟨hrest, fun {written text} hmem => ?_⟩
  rw [htokens, List.mem_cons] at hmem
  obtain rfl | hmem := hmem
  · exact .inr (htoken written text rfl)
  · exact .inl (h.scalar hmem)

/-- A mark takes its characters and adds no scalar. -/
theorem Keeps.mark {token : Token} {n : Nat} (h : lexer.Keeps lexer')
    (hpeek : lexer.cursor.peek? = some c) (hn : 0 < n) (htoken : token.isScalar = false)
    (hcursor : lexer''.cursor = lexer'.cursor.skip n)
    (htokens : lexer''.tokens = token :: lexer'.tokens) : lexer.Takes lexer'' := by
  refine h.takes htokens ?_ fun written text heq => ?_
  · rw [hcursor, h.cursor]
    exact Cursor.skip_weight_lt hpeek hn
  · rw [heq] at htoken
    cases htoken

variable (hpeek : lexer.cursor.peek? = some c)
include hpeek

/-- The end of most steps: a key that can no longer come is forgotten, and a mark is read. -/
theorem Keeps.dropAndMark {token : Token} {n : Nat} {after : Lexer → Lexer}
    (h : lexer.Keeps lexer') (hn : 0 < n) (htoken : token.isScalar = false)
    (hcursor : ∀ mid, (after mid).cursor = mid.cursor.skip n)
    (htokens : ∀ mid, (after mid).tokens = token :: mid.tokens)
    (hafter : (lexer'.dropKey?.bind fun mid => some (after mid)) = some lexer'') :
    lexer.Takes lexer'' := by
  obtain ⟨mid, hdrop, hmid⟩ := Option.bind_eq_some_iff.1 hafter
  cases hmid
  exact (h.trans (dropKey?_keeps hdrop)).mark hpeek hn htoken (hcursor mid) (htokens mid)

theorem blockEntry?_takes (h : lexer.blockEntry? = some lexer') : lexer.Takes lexer' := by
  simp only [ blockEntry?, Option.bind_eq_bind] at h
  split_ifs at h
  · exact (Keeps.refl lexer).dropAndMark hpeek (by omega) rfl (fun _ => rfl) (fun _ => rfl) h
  · exact (openBlock_keeps lexer _ _ rfl).dropAndMark hpeek (by omega) rfl (fun _ => rfl)
      (fun _ => rfl) h
  · cases h

theorem key?_takes (h : lexer.key? = some lexer') : lexer.Takes lexer' := by
  simp only [key?, Option.bind_eq_bind] at h
  split_ifs at h
  · exact (Keeps.refl lexer).dropAndMark hpeek (by omega) rfl (fun _ => rfl) (fun _ => rfl) h
  · exact (openBlock_keeps lexer _ _ rfl).dropAndMark hpeek (by omega) rfl (fun _ => rfl)
      (fun _ => rfl) h
  · cases h

theorem value?_takes (h : lexer.value? = some lexer') : lexer.Takes lexer' := by
  unfold value? at h
  split at h
  next key outer hkeys =>
    cases h
    exact (announceKey_keeps lexer key).mark hpeek (by omega) rfl rfl rfl
  next =>
    split_ifs at h
    · cases h
      exact (Keeps.refl lexer).mark hpeek (by omega) rfl rfl rfl
    · cases h
      exact (openBlock_keeps _ _ _ rfl).mark hpeek (by omega) rfl rfl rfl

theorem documentMark?_takes {token : Token} (htoken : token.isScalar = false)
    (h : lexer.documentMark? token = some lexer') : lexer.Takes lexer' :=
  (closeTo_keeps lexer (-1)).dropAndMark hpeek (by omega) htoken (fun _ => rfl) (fun _ => rfl) h

theorem flowStart?_takes {token : Token} (htoken : token.isScalar = false)
    (h : lexer.flowStart? token = some lexer') : lexer.Takes lexer' := by
  simp only [flowStart?, Option.bind_eq_bind, Option.bind_eq_some_iff] at h
  obtain ⟨noted, hnote, h⟩ := h
  cases h
  exact (noteKey?_keeps hnote).mark hpeek (by omega) htoken rfl rfl

theorem flowEnd?_takes {token : Token} (htoken : token.isScalar = false)
    (h : lexer.flowEnd? token = some lexer') : lexer.Takes lexer' :=
  (Keeps.refl lexer).dropAndMark hpeek (by omega) htoken (fun _ => rfl) (fun _ => rfl) h

omit hpeek in
theorem quoted?_takes {single : Bool} (h : lexer.quoted? single = some lexer') :
    lexer.Takes lexer' := by
  simp only [quoted?, Option.bind_eq_bind, Option.bind_eq_some_iff] at h
  obtain ⟨noted, hnote, ⟨text, next⟩, htext, h⟩ := h
  cases h
  have hkeeps := noteKey?_keeps hnote
  rw [hkeeps.cursor] at htext
  have hweight := quotedScalar?_weight htext
  refine hkeeps.takes rfl (by simp only [node]; omega) fun written text' heq => ?_
  cases heq
  dsimp only
  omega

theorem block?_takes {literal : Bool} (h : lexer.block? literal = some lexer') :
    lexer.Takes lexer' := by
  simp only [block?, Option.bind_eq_bind, Option.bind_eq_some_iff] at h
  obtain ⟨dropped, hdrop, ⟨text, next⟩, htext, h⟩ := h
  cases h
  have hkeeps := dropKey?_keeps hdrop
  rw [hkeeps.cursor] at htext
  have hweight := blockScalar?_weight hpeek htext
  refine hkeeps.takes rfl (by simp only [node]; omega) fun written text' heq => ?_
  cases heq
  dsimp only
  omega

omit hpeek in
theorem property?_takes {read? : Cursor → Option (Token × Cursor)}
    (hread : ∀ {token next}, read? lexer.cursor = some (token, next) →
      token.isScalar = false ∧ next.weight < lexer.cursor.weight)
    (h : lexer.property? read? = some lexer') : lexer.Takes lexer' := by
  simp only [property?, Option.bind_eq_bind, Option.bind_eq_some_iff] at h
  obtain ⟨noted, hnote, ⟨token, next⟩, htoken, h⟩ := h
  cases h
  have hkeeps := noteKey?_keeps hnote
  rw [hkeeps.cursor] at htoken
  obtain ⟨hscalar, hnext⟩ := hread htoken
  refine hkeeps.takes rfl hnext fun written text heq => ?_
  obtain rfl : token = .scalar written text := heq
  cases hscalar

omit hpeek in
theorem noteKey?_inFlow (h : lexer.noteKey? = some lexer') : lexer'.inFlow = lexer.inFlow := by
  unfold noteKey? at h
  split at h
  · simp only [Option.bind_eq_bind, Option.bind_eq_some_iff] at h
    obtain ⟨dropped, hdrop, h⟩ := h
    cases h
    unfold dropKey? at hdrop
    split at hdrop
    · split at hdrop
      · cases hdrop
      · cases hdrop; simp_all [inFlow]
    · cases hdrop
      cases hkeys : lexer.keyStarts <;> simp [inFlow, hkeys]
  · cases h; rfl

theorem of_startsPlain (h : lexer.startsPlain = true) :
    isBlankOrEnd (some c) = false ∧ c ≠ '#' ∧ stopsPlain lexer.inFlow lexer.cursor = false := by
  have hmarks : "-?:,[]\x7b\x7d#&*!|>'\"%@\x60".toList = ['-', '?', ':', ',', '[', ']', '\x7b', '\x7d',
    '#', '&', '*', '!', '|', '>', '\'', '"', '%', '@', '\x60'] := rfl
  have hflow : ",[]\x7b\x7d".toList = [',', '[', ']', '\x7b', '\x7d'] := rfl
  simp only [startsPlain, hpeek, hmarks] at h
  simp only [stopsPlain, Cursor.isAt, hpeek, hflow]
  cases hblank : isBlankOrEnd (some c) with
  | true =>
    have hor : c = '-' ∨ c = '?' ∨ c = ':' := by
      simp only [hblank, Bool.true_or, Bool.not_true, Bool.false_or] at h
      simp at h
      tauto
    rcases hor with rfl | rfl | rfl <;> simp [isBlankOrEnd, isBlank, isBreak] at hblank
  | false =>
    simp only [hblank, Bool.false_or] at h
    simp at h ⊢
    rcases h with (h | ⟨rfl, -⟩) | ⟨⟨hflow, rfl | rfl⟩, hnext⟩ <;> simp_all

/-- A plain scalar takes something, since a character of its own starts it; and it may be as heavy as
what was there. -/
theorem plain?_takes (hmarker : lexer.cursor.isDocumentMarker = false)
    (hstarts : lexer.startsPlain = true) (h : lexer.plain? = some lexer') :
    lexer'.cursor.weight < lexer.cursor.weight ∧
      ∀ {written text}, Token.scalar written text ∈ lexer'.tokens →
        Token.scalar written text ∈ lexer.tokens ∨ weight text.toList ≤ lexer.cursor.weight := by
  simp only [plain?, Option.bind_eq_bind, Option.bind_eq_some_iff] at h
  obtain ⟨noted, hnote, ⟨text, lineEnded, next⟩, htext, h⟩ := h
  cases h
  have hkeeps := noteKey?_keeps hnote
  rw [hkeeps.cursor, noteKey?_inFlow hnote] at htext
  refine ⟨?_, fun {written text'} hmem => ?_⟩
  · obtain ⟨hblank, hcomment, hstops⟩ := of_startsPlain hpeek hstarts
    exact plainScalar?_weight_lt hmarker hpeek hcomment hblank hstops htext
  · simp only [node, push, List.mem_cons] at hmem
    obtain heq | hmem := hmem
    · cases heq
      have := plainScalar?_weight htext
      exact .inr (by omega)
    · exact .inl (hkeeps.scalar hmem)

/-- Of the tokens that start with a character of their own, only a plain scalar may be as heavy as what
was there. -/
theorem markOrScalar?_takes (h : lexer.markOrScalar? c = some lexer') :
    lexer.Takes lexer' ∨ (lexer.plain? = some lexer' ∧ lexer.startsPlain = true ∧
      (c = '-' → isBlankOrEnd (lexer.cursor.peekAt? 1) = false)) := by
  have hname {mark : String → Token} (hmark : ∀ name, (mark name).isScalar = false)
      {token : Token} {next : Cursor}
      (hread : (anchorName? lexer.cursor).map (fun read => (mark read.1, read.2)) =
        some (token, next)) : token.isScalar = false ∧ next.weight < lexer.cursor.weight := by
    obtain ⟨read, hname, heq⟩ := Option.map_eq_some_iff.1 hread
    obtain ⟨rfl, rfl⟩ := Prod.mk.inj heq
    have := anchorName?_weight hname
    have := Cursor.skip_weight_lt hpeek (n := 1) (by omega)
    exact ⟨hmark read.1, by omega⟩
  unfold markOrScalar? at h
  split at h
  case h_1 => exact .inl (flowStart?_takes hpeek rfl h)
  case h_2 => exact .inl (flowStart?_takes hpeek rfl h)
  case h_3 => exact .inl (flowEnd?_takes hpeek rfl h)
  case h_4 => exact .inl (flowEnd?_takes hpeek rfl h)
  case h_5 =>
    exact .inl ((Keeps.refl lexer).dropAndMark hpeek (by omega) rfl (fun _ => rfl) (fun _ => rfl) h)
  case h_6 => exact .inl (property?_takes (hname fun _ => rfl) h)
  case h_7 => exact .inl (property?_takes (hname fun _ => rfl) h)
  case h_8 => exact .inl (property?_takes (tag?_weight hpeek) h)
  case h_9 => exact .inl (quoted?_takes h)
  case h_10 => exact .inl (quoted?_takes h)
  case h_11 =>
    dsimp only at h
    split at h
    next => exact .inl (blockEntry?_takes hpeek h)
    next hentry =>
      split_ifs at h with hkey hvalue hliteral hfolded hstarts
      · exact .inl (key?_takes hpeek h)
      · exact .inl (value?_takes hpeek h)
      · exact .inl (block?_takes hpeek h)
      · exact .inl (block?_takes hpeek h)
      · exact .inr ⟨h, hstarts, fun hc => by simpa [hc] using hentry⟩

/-- What a token takes, and what it may weigh if it is a plain scalar. -/
theorem next?_takes (h : lexer.next? c = some lexer') :
    lexer.Takes lexer' ∨ (lexer.plain? = some lexer' ∧ lexer.startsPlain = true ∧
      lexer.cursor.isDocumentMarker = false ∧
      (c = '-' → isBlankOrEnd (lexer.cursor.peekAt? 1) = false)) := by
  unfold next? at h
  split_ifs at h with hdirective hstart hend
  · simp only [Option.bind_eq_bind, Option.bind_eq_some_iff] at h
    obtain ⟨dropped, hdrop, ⟨token, next⟩, htoken, h⟩ := h
    cases h
    have hkeeps := (closeTo_keeps lexer (-1)).trans (dropKey?_keeps hdrop)
    rw [hkeeps.cursor] at htoken
    obtain ⟨hscalar, hnext⟩ := directive?_weight hpeek htoken
    refine .inl (hkeeps.takes rfl hnext fun written text heq => ?_)
    obtain rfl : token = .scalar written text := heq
    cases hscalar
  · exact .inl (documentMark?_takes hpeek rfl h)
  · exact .inl (documentMark?_takes hpeek rfl h)
  · refine (markOrScalar?_takes hpeek h).imp_right fun ⟨hplain, hstarts, hdash⟩ =>
      ⟨hplain, hstarts, ?_, hdash⟩
    simp [Cursor.isDocumentMarker, hstart, hend]

omit hpeek

/-! ## A whole run -/

/-- Blanks and comments that are passed over are lost, and nothing else is. -/
theorem skipBlanks_eq_or_lt (fuel : Nat) (lexer : Lexer) :
    (skipBlanks fuel lexer).tokens = lexer.tokens ∧
      (skipBlanks fuel lexer = lexer ∨
        (skipBlanks fuel lexer).cursor.weight < lexer.cursor.weight) := by
  induction fuel generalizing lexer with
  | zero => exact ⟨rfl, .inl rfl⟩
  | succ fuel ih =>
    -- Each of the three moves on a line stays where it is or loses something.
    have hmoves {a b c : Cursor} (hab : b = a ∨ b.weight < a.weight)
        (hbc : c = b ∨ c.weight < b.weight) : c = a ∨ c.weight < a.weight := by
      rcases hab with rfl | hab
      · exact hbc
      · rcases hbc with rfl | hbc
        · exact .inr hab
        · exact .inr (by omega)
    have hmark {cursor : Cursor} : (if cursor.column = 0 && cursor.isAt '\ufeff' then cursor.skip 1
        else cursor) = cursor ∨ (if cursor.column = 0 && cursor.isAt '\ufeff' then cursor.skip 1
        else cursor).weight < cursor.weight := by
      split
      next h =>
        have hpeek : cursor.peek? = some '\ufeff' := by
          simp only [Bool.and_eq_true] at h
          simpa [Cursor.isAt] using h.2
        exact .inr (Cursor.skip_weight_lt hpeek (by omega))
      next => exact .inl rfl
    have hcomment {cursor : Cursor} : (if cursor.isAt '#' then
        cursor.skipWhile fun c => !isBreakOrEnd (some c) else cursor) = cursor ∨
        (if cursor.isAt '#' then
          cursor.skipWhile fun c => !isBreakOrEnd (some c) else cursor).weight < cursor.weight := by
      split
      · exact cursor.skipWhile_eq_or_lt _
      · exact .inl rfl
    simp only [skipBlanks]
    have hline := hmoves (hmoves (@hmark lexer.cursor) (Cursor.skipWhile_eq_or_lt _
      fun c => c = ' ' || ((lexer.inFlow || !lexer.keyAllowed) && c = '\t'))) hcomment
    generalize (if Cursor.isAt _ '#' then _ else _ : Cursor) = after at hline ⊢
    split
    next => exact ⟨rfl, hline.imp_left fun h => by rw [h]⟩
    next c next hend =>
      obtain ⟨-, hnext⟩ := Cursor.lineEnd?_weight hend
      have hlt : next.weight < lexer.cursor.weight := by
        rcases hline with rfl | hline <;> omega
      obtain ⟨htokens, hrest⟩ := ih { lexer with
        cursor := next, keyAllowed := lexer.keyAllowed || !lexer.inFlow }
      refine ⟨htokens, .inr ?_⟩
      rcases hrest with heq | hrest
      · rw [heq]; exact hlt
      · exact Nat.lt_trans hrest hlt

/-- What is left and the scalars so far, each of them, are lighter than a bound. -/
structure Light (bound : Nat) (lexer : Lexer) : Prop where
  rest : lexer.cursor.weight < bound
  scalar : ∀ {written text}, Token.scalar written text ∈ lexer.tokens → weight text.toList < bound

variable {bound : Nat}

theorem Light.keeps (h : lexer.Light bound) (hkeeps : lexer.Keeps lexer') : lexer'.Light bound :=
  ⟨hkeeps.cursor ▸ h.rest, fun hmem => h.scalar (hkeeps.scalar hmem)⟩

theorem Light.takes (h : lexer.Light bound) (htakes : lexer.Takes lexer') : lexer'.Light bound :=
  ⟨Nat.lt_trans htakes.rest h.rest, fun hmem =>
    (htakes.scalar hmem).elim h.scalar fun hlt => Nat.lt_trans hlt h.rest⟩

theorem Light.ready? (h : lexer.Light bound) (hready : lexer.ready? = some lexer') :
    lexer'.Light bound := by
  obtain ⟨forgotten, hforget, rfl⟩ := Option.map_eq_some_iff.1 hready
  obtain ⟨htokens, hrest⟩ := skipBlanks_eq_or_lt (lexer.cursor.rest.length + 1) lexer
  have hskipped : (skipBlanks (lexer.cursor.rest.length + 1) lexer).Light bound := by
    refine ⟨?_, fun hmem => h.scalar (htokens ▸ hmem)⟩
    rcases hrest with heq | hlt
    · rw [heq]; exact h.rest
    · exact Nat.lt_trans hlt h.rest
  exact (hskipped.keeps (forgetKeys?_keeps hforget)).keeps (closeTo_keeps _ _)

theorem Light.next? (h : lexer.Light bound) (hpeek : lexer.cursor.peek? = some c)
    (hnext : lexer.next? c = some lexer') : lexer'.Light bound := by
  rcases next?_takes hpeek hnext with htakes | ⟨hplain, hstarts, hmarker, -⟩
  · exact h.takes htakes
  · obtain ⟨hrest, hscalar⟩ := plain?_takes hpeek hmarker hstarts hplain
    exact ⟨Nat.lt_trans hrest h.rest, fun hmem =>
      (hscalar hmem).elim h.scalar fun hle => Nat.lt_of_le_of_lt hle h.rest⟩

theorem finish?_scalar (h : lexer.finish? = some lexer') {written : Notation} {text : String}
    (hmem : Token.scalar written text ∈ lexer'.tokens) :
    Token.scalar written text ∈ lexer.tokens := by
  obtain ⟨dropped, hdrop, rfl⟩ := Option.map_eq_some_iff.1 h
  exact ((closeTo_keeps _ _).trans (dropKey?_keeps hdrop)).scalar (by simpa [push] using hmem)

/-- One more round before a run. -/
theorem Light.round {fuel : Nat} (h : lexer.Light bound)
    (hrun : ∀ {mid}, Light bound mid → run? fuel mid = some lexer' →
      ∀ {written text}, Token.scalar written text ∈ lexer'.tokens → weight text.toList < bound)
    (hround : (match lexer.cursor.peek? with
      | none => lexer.finish?
      | some c => (lexer.next? c).bind (run? fuel)) = some lexer')
    {written : Notation} {text : String} (hmem : Token.scalar written text ∈ lexer'.tokens) :
    weight text.toList < bound := by
  split at hround
  next => exact h.scalar (finish?_scalar hround hmem)
  next c hpeek =>
    obtain ⟨mid, hnext, hmid⟩ := Option.bind_eq_some_iff.1 hround
    exact hrun (h.next? hpeek hnext) hmid hmem

/-- Once something has been lost, no scalar of the run is as heavy as all there was. -/
theorem Light.run? {fuel : Nat} (h : lexer.Light bound) (hrun : run? fuel lexer = some lexer') :
    ∀ {written text}, Token.scalar written text ∈ lexer'.tokens → weight text.toList < bound := by
  induction fuel generalizing lexer with
  | zero => cases hrun
  | succ fuel ih =>
    rw [run?_succ] at hrun
    obtain ⟨ready, hready, hround⟩ := Option.bind_eq_some_iff.1 hrun
    exact fun hmem => (h.ready? hready).round ih hround hmem

/-- From the start of a text, the blanks in front of which lose nothing, one stands at its first
character. -/
theorem ready?_start {chars : List Char} (h : (start chars).ready? = some lexer) :
    lexer = start chars ∨ lexer.Light (weight chars) := by
  obtain ⟨forgotten, hforget, rfl⟩ := Option.map_eq_some_iff.1 h
  obtain ⟨htokens, heq | hlt⟩ := skipBlanks_eq_or_lt (chars.length + 1) (start chars)
  · have hfresh : (start chars).forgetKeys? = some (start chars) := rfl
    change (skipBlanks (chars.length + 1) (start chars)).forgetKeys? = some forgotten at hforget
    rw [heq, hfresh] at hforget
    cases hforget
    exact .inl rfl
  · have hlight : (skipBlanks (chars.length + 1) (start chars)).Light (weight chars) :=
      ⟨hlt, fun hmem => by rw [htokens] at hmem; cases hmem⟩
    exact .inr ((hlight.keeps (forgetKeys?_keeps hforget)).keeps (closeTo_keeps _ _))

/-- After the end of a text, nothing is added but the end of the stream. -/
theorem run?_end {fuel : Nat} {key : KeyStart} (hrest : lexer.cursor.rest = [])
    (hkeys : lexer.keyStarts = [some key]) (hkey : key.required = false) (hindent : lexer.indent = -1)
    (h : run? fuel lexer = some lexer') : lexer'.tokens = .streamEnd :: lexer.tokens := by
  cases fuel with
  | zero => cases h
  | succ fuel =>
    obtain ⟨⟨rest, index, line, column⟩, tokens, keyStarts, keyAllowed, indent, outer⟩ := lexer
    obtain rfl : rest = [] := hrest
    obtain rfl : keyStarts = [some key] := hkeys
    obtain rfl : indent = -1 := hindent
    have hclose (column' : Int) (h : -1 ≤ column') (keyStarts : List (Option KeyStart)) :
        closeBlocks column' outer
            ⟨⟨[], index, line, column⟩, tokens, keyStarts, keyAllowed, -1, outer⟩ =
          ⟨⟨[], index, line, column⟩, tokens, keyStarts, keyAllowed, -1, outer⟩ := by
      unfold closeBlocks
      simp [h]
    have hskip : skipBlanks 1 ⟨⟨[], index, line, column⟩, tokens, [some key], keyAllowed, -1, outer⟩ =
        ⟨⟨[], index, line, column⟩, tokens, [some key], keyAllowed, -1, outer⟩ := by
      simp [skipBlanks, Cursor.isAt, Cursor.peek?, Cursor.skipWhile, Cursor.span, Cursor.skip,
        Cursor.lineEnd?]
    rw [run?_succ] at h
    simp only [ready?, List.length_nil, Nat.zero_add, hskip, forgetKeys?, List.mapM_cons, List.mapM_nil,
      hkey, Bool.false_eq_true, if_false, Option.bind_eq_bind, Option.pure_def] at h
    -- Whether the start of the key is remembered or not makes no difference any more.
    split at h <;>
      simp [closeTo, hclose, Cursor.peek?, finish?, dropKey?, hkey] at h <;>
      simp [← h, push]

/-- A scalar that is as heavy as the text it is in is all of it: it is a plain one, it starts where the
text starts, and nothing is left behind it. -/
theorem run?_alone {fuel : Nat} {chars : List Char} {written : Notation} {text : String}
    (h : run? fuel (start chars) = some lexer') (hmem : Token.scalar written text ∈ lexer'.tokens)
    (hweight : weight chars ≤ weight text.toList) :
    (start chars).startsPlain = true ∧
      (chars.head? = some '-' → isBlankOrEnd chars[1]? = false) ∧
      (∃ lineEnded next, next.rest = [] ∧
        plainScalar? false 0 (start chars).cursor = some (text, lineEnded, next)) ∧
      lexer'.tokens = [.streamEnd, .scalar .plain text] := by
  cases fuel with
  | zero => cases h
  | succ fuel =>
    rw [run?_succ] at h
    obtain ⟨ready, hready, hround⟩ := Option.bind_eq_some_iff.1 h
    rcases ready?_start hready with rfl | hlight
    · cases chars with
      | nil => cases finish?_scalar hround hmem
      | cons c rest =>
        obtain ⟨mid, hstep, hmid⟩ := Option.bind_eq_some_iff.1 hround
        have hpeek : (start (c :: rest)).cursor.peek? = some c := rfl
        rcases next?_takes hpeek hstep with htakes | ⟨hplain, hstarts, hmarker, hdash⟩
        · -- Any other token leaves less than the whole text for what comes after it.
          have hlight : mid.Light (weight (c :: rest)) :=
            ⟨htakes.rest, fun hmem => (htakes.scalar hmem).elim (fun h => by cases h) id⟩
          have := hlight.run? hmid hmem
          omega
        · obtain ⟨hrest, -⟩ := plain?_takes hpeek hmarker hstarts hplain
          simp only [plain?, Option.bind_eq_bind, Option.bind_eq_some_iff] at hplain
          obtain ⟨noted, hnote, ⟨read, lineEnded, next⟩, hread, heq⟩ := hplain
          have hnoted : noted = { start (c :: rest) with keyStarts := [some
              { required := false, tokens := 0, cursor := (start (c :: rest)).cursor }] } := by
            simpa [noteKey?, dropKey?, start, inFlow] using hnote.symm
          subst hnoted
          cases heq
          have hsum := plainScalar?_weight hread
          by_cases hfull : weight read.toList < weight (c :: rest)
          · have hlight : Light (weight (c :: rest)) _ := ⟨hrest, fun hmem => by
              obtain heq | hmem := List.mem_cons.1 hmem
              · cases heq; exact hfull
              · cases hmem⟩
            have := hlight.run? hmid hmem
            omega
          · have hnext : next.rest = [] := by
              refine eq_nil_of_weight_eq_zero ?_
              have : next.weight = 0 := by
                change _ + _ ≤ weight (c :: rest) at hsum
                omega
              exact this
            have htokens := run?_end hnext rfl rfl rfl hmid
            rw [htokens] at hmem
            obtain ⟨rfl, rfl⟩ : written = .plain ∧ text = read := by
              simpa [node, push, start] using hmem
            exact ⟨hstarts, fun hd => hdash (by simpa using hd), ⟨lineEnded, next, hnext, hread⟩, htokens⟩
    · have := hlight.round Light.run? hround hmem
      omega

end Lexer
end Stencil.Yaml
