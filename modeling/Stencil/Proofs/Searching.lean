import Mathlib
import Stencil.Proofs.FileCalls
import Stencil.Proofs.Template.Pieces

/-!
# What the search for calls finds

The search for calls of `toFile` does not read a template, it looks for marks in a text. Here it is held against what
the lexer reads. On all pieces that are written plainly (`Piece.plain`) both agree, so a text asks for files if and
only if there is a call among its tokens (`asksForFiles_iff`). What is not plain is what the search is misled by: a
closing mark inside of a block with an opening mark or a call behind it, be it in a literal or of brackets; a call in a
literal; a comment or a raw block with a call in it or with a mark that nothing in it closes; the name right behind a
number; and the name in a block without an end.
-/

namespace Stencil

open Template Lexer

/-! ## Calls among tokens -/

/-- Whether the name of the function has an opening bracket right behind it, somewhere among tokens. Names and brackets
are tokens of blocks only. -/
def Template.CallsForFiles (tokens : List Token) : Prop := [.name "toFile", .mark "("] <:+: tokens

namespace Template.CallsForFiles

variable {tokens rest front : List Token} {token : Token}

theorem cons_iff : CallsForFiles (token :: rest) ↔
    (token = .name "toFile" ∧ rest.head? = some (.mark "(")) ∨ CallsForFiles rest := by
  rw [CallsForFiles, List.infix_cons_iff, List.cons_prefix_cons, eq_comm]
  refine or_congr (and_congr_right fun _ => ?_) Iff.rfl
  cases rest with
  | nil => simp
  | cons next rest => simp [List.cons_prefix_cons, eq_comm]

theorem not_nil : ¬ CallsForFiles [] := by simp [CallsForFiles]

theorem cons_of_ne (h : token ≠ .name "toFile") : CallsForFiles (token :: rest) ↔ CallsForFiles rest := by
  rw [cons_iff]
  simp [h]

/-- A token that is no part of a call parts calls. -/
theorem append_iff (hname : token ≠ .name "toFile") (hmark : token ≠ .mark "(") :
    CallsForFiles (front ++ token :: rest) ↔ CallsForFiles front ∨ CallsForFiles rest := by
  induction front with
  | nil => simp [cons_of_ne hname, not_nil]
  | cons first front ih =>
      rw [List.cons_append, cons_iff, cons_iff, ih, or_assoc]
      cases front with
      | nil => simp [hmark]
      | cons second front => rfl

theorem emitData_iff {data : List Char} {tokens : Tokens} :
    CallsForFiles (emitData data tokens).tokens ↔ CallsForFiles tokens.tokens := by
  unfold emitData
  split
  · rfl
  · exact cons_of_ne (by simp)

theorem name_mem (h : CallsForFiles tokens) : .name "toFile" ∈ tokens :=
  h.subset List.mem_cons_self

end Template.CallsForFiles

namespace FileCalls

/-! ## Characters -/

theorem isWordChar_of_isNamePart {c : Char} (h : isNamePart c = true) : Text.isWordChar c = true := by
  have hrange := isNamePart_iff.mp h
  rw [Text.isWordChar_eq (by omega)]
  simp
  omega

theorem isBlank_of_isSpace {c : Char} (h : isSpace c = true) : Text.isBlank c = true := by
  simp only [isSpace, Bool.or_eq_true, decide_eq_true_eq] at h
  rcases h with (((rfl | rfl) | rfl) | rfl) | rfl <;> rfl

/-- Whether a character neither starts the name of the function nor goes on with a word. -/
def Apart (c : Char) : Prop := c ≠ 't' ∧ Text.isWordChar c = false

/-- Whether a character of ASCII is no letter, no digit and no underscore. -/
def isAsciiMark (c : Char) : Bool :=
  let n := c.toNat
  n < 48 || (57 < n && n < 65) || (90 < n && n < 95) || n = 96 || (122 < n && n < 128)

theorem apart_of_isAsciiMark {c : Char} (h : isAsciiMark c = true) : Apart c := by
  constructor
  · rintro rfl
    cases h
  · simp [isAsciiMark] at h
    rw [Text.isWordChar_eq (by omega)]
    simp
    omega

theorem apart_of_gap {c : Char} (h : isSpace c = true ∨ c = '-' ∨ c = '+') : Apart c := by
  simp only [isSpace, Bool.or_eq_true, decide_eq_true_eq] at h
  rcases h with ((((rfl | rfl) | rfl) | rfl) | rfl) | rfl | rfl <;> exact apart_of_isAsciiMark rfl

theorem apart_of_mem_singles {c : Char} (h : c ∈ singles) : Apart c := by
  have hall : singles.all isAsciiMark = true := rfl
  exact apart_of_isAsciiMark (List.all_eq_true.mp hall c h)

theorem apart_of_mem_pairs {chars : List Char} (h : chars ∈ pairs) : ∀ c ∈ chars, Apart c := by
  have hall : pairs.all (·.all isAsciiMark) = true := rfl
  exact fun c hc => apart_of_isAsciiMark (List.all_eq_true.mp (List.all_eq_true.mp hall chars h) c hc)

/-! ## Where a call starts -/

/-- Whether a call is at the front, whatever is before it. -/
def startsCall (chars : List Char) : Bool :=
  name.isPrefixOf chars && (Text.trimLeft (chars.drop name.length)).head? == some '('

theorem hasCall_cons (inWord : Bool) (c : Char) (rest : List Char) :
    hasCall inWord (c :: rest) = ((!inWord && startsCall (c :: rest)) || hasCall (Text.isWordChar c) rest) := by
  rw [hasCall, startsCall, Bool.and_assoc]

theorem startsCall_of_ne {c : Char} (hc : c ≠ 't') (rest : List Char) : startsCall (c :: rest) = false := by
  have hname : name = 't' :: "oFile".toList := rfl
  have hstarts : name.isPrefixOf (c :: rest) = false := by
    rw [hname, List.isPrefixOf_cons_cons, beq_false_of_ne (Ne.symm hc), Bool.false_and]
  rw [startsCall, hstarts, Bool.false_and]

/-- Whether a word goes on behind a row of characters. -/
def wordGoesOn (inWord : Bool) : List Char → Bool
  | [] => inWord
  | c :: rest => wordGoesOn (Text.isWordChar c) rest

/-- A row without the first character of the name has no call in it. -/
theorem hasCall_append_of_not_mem {front : List Char} (h : 't' ∉ front) (inWord : Bool) (rest : List Char) :
    hasCall inWord (front ++ rest) = hasCall (wordGoesOn inWord front) rest := by
  induction front generalizing inWord with
  | nil => rfl
  | cons c front ih =>
      have hc : c ≠ 't' := fun heq => h (heq ▸ List.mem_cons_self)
      rw [List.cons_append, hasCall_cons, startsCall_of_ne hc, Bool.and_false, Bool.false_or, wordGoesOn,
        ih fun hmem => h (List.mem_cons_of_mem _ hmem)]

theorem wordGoesOn_of_apart {front : List Char} (h : ∀ c ∈ front, Apart c) (inWord : Bool) :
    wordGoesOn inWord front = (inWord && front.isEmpty) := by
  induction front generalizing inWord with
  | nil => simp [wordGoesOn]
  | cons c front ih =>
      rw [wordGoesOn, ih fun d hd => h d (List.mem_cons_of_mem _ hd), (h c List.mem_cons_self).2]
      simp

theorem hasCall_append_of_apart {front : List Char} (h : ∀ c ∈ front, Apart c) (inWord : Bool) (rest : List Char) :
    hasCall inWord (front ++ rest) = hasCall (inWord && front.isEmpty) rest := by
  rw [hasCall_append_of_not_mem fun hmem => (h 't' hmem).1 rfl, wordGoesOn_of_apart h]

theorem hasCall_of_apart {front : List Char} (h : ∀ c ∈ front, Apart c) (inWord : Bool) :
    hasCall inWord front = false := by
  have hall := hasCall_append_of_apart h inWord []
  rw [List.append_nil] at hall
  rw [hall, hasCall]

/-- Within a word no call starts. -/
theorem hasCall_append_of_word {front : List Char} (h : ∀ c ∈ front, Text.isWordChar c = true) (rest : List Char) :
    hasCall true (front ++ rest) = hasCall true rest := by
  induction front with
  | nil => rfl
  | cons c front ih =>
      rw [List.cons_append, hasCall_cons, h c List.mem_cons_self, ih fun d hd => h d (List.mem_cons_of_mem _ hd)]
      simp

/-- What stands before a row matters only if the row starts like the name. -/
theorem hasCall_eq_of_head {rest : List Char} (h : rest.head? ≠ some 't') (inWord : Bool) :
    hasCall inWord rest = hasCall false rest := by
  cases rest with
  | nil => rfl
  | cons c rest =>
      have hc : c ≠ 't' := fun heq => h (heq ▸ rfl)
      rw [hasCall_cons, hasCall_cons, startsCall_of_ne hc, Bool.and_false, Bool.and_false]

/-- Whether a character parts calls: it is in none, so one is either before it or behind it. -/
structure Parts (mark : Char) : Prop where
  notName : mark ∉ name
  notBlank : Text.isBlank mark = false
  notBracket : mark ≠ '('
  notWord : Text.isWordChar mark = false

theorem Parts.startsCall {mark : Char} (h : Parts mark) (front rest : List Char) :
    startsCall (front ++ mark :: rest) = startsCall front := by
  have hstarts : name.isPrefixOf (front ++ mark :: rest) = name.isPrefixOf front := by
    rw [Bool.eq_iff_iff, List.isPrefixOf_iff_prefix, List.isPrefixOf_iff_prefix]
    refine ⟨fun hname => ?_, fun hname => hname.trans (List.prefix_append _ _)⟩
    rcases List.prefix_or_prefix_of_prefix hname (List.prefix_append front _) with hfront | ⟨behind, hbehind⟩
    · exact hfront
    · -- What the front lacks of the name would start with the mark.
      cases behind with
      | nil => exact ⟨[], by simpa using hbehind.symm⟩
      | cons c behind =>
          rw [← hbehind, List.prefix_append_right_inj] at hname
          have hmark : mark ∈ name := by
            rw [← hbehind, ← (List.cons_prefix_cons.mp hname).1]
            simp
          exact absurd hmark h.notName
  rw [FileCalls.startsCall, FileCalls.startsCall, hstarts]
  cases hname : name.isPrefixOf front with
  | false => rfl
  | true =>
      obtain ⟨behind, rfl⟩ := List.isPrefixOf_iff_prefix.mp hname
      rw [List.append_assoc, List.drop_left, List.drop_left, Text.trimLeft, Text.trimLeft, List.dropWhile_append]
      cases hbehind : behind.dropWhile Text.isBlank with
      | nil => simp [h.notBlank, h.notBracket]
      | cons c behind => rfl

/-- A call is on one side of a character that parts calls. -/
theorem Parts.hasCall_append {mark : Char} (h : Parts mark) (inWord : Bool) (front rest : List Char) :
    hasCall inWord (front ++ mark :: rest) = (hasCall inWord front || hasCall false rest) := by
  induction front generalizing inWord with
  | nil =>
      have hmark : mark ≠ 't' := fun heq => h.notName (heq ▸ List.mem_cons_self)
      rw [List.nil_append, hasCall_cons, startsCall_of_ne hmark, h.notWord, hasCall, Bool.and_false]
  | cons c front ih =>
      rw [List.cons_append, hasCall_cons, hasCall_cons, ih, ← List.cons_append, h.startsCall, Bool.or_assoc]

/-! ## Blocks -/

/-- Whether tokens start with the name of the function, with no blank before it. -/
def startsWithName : List Lexeme → Bool
  | lexeme :: _ => lexeme.blanks.isEmpty && lexeme.token.isName "toFile"
  | [] => false

/-- Whether the tokens of a block are written plainly: no literal has a call in it, and the name of the function does
not stand right behind a number. -/
def plainTokens : List Lexeme → Bool
  | [] => true
  | lexeme :: more =>
    !(lexeme.token.isText && hasCall false lexeme.chars) &&
      !(lexeme.token.isNumber && startsWithName more) && plainTokens more

theorem trimLeft_append_of_isSpace {blanks : List Char} (h : ∀ c ∈ blanks, isSpace c = true) (rest : List Char) :
    Text.trimLeft (blanks ++ rest) = Text.trimLeft rest :=
  List.dropWhile_append_of_pos fun c hc => isBlank_of_isSpace (h c hc)

/-- The first thing in a row that is not blank is a bracket if the first token is. -/
theorem head?_trimLeft_spell {last : List Char} {lexemes : List Lexeme} (h : Row last lexemes) :
    (Text.trimLeft (spell last lexemes)).head? = some '(' ↔
      (lexemes.map Lexeme.token).head? = some (.mark "(") := by
  cases h with
  | nil hlast =>
      refine iff_of_false (fun hhead => ?_) nofun
      have hmem : '(' ∈ last := (List.dropWhile_suffix _).mem (List.mem_of_mem_head? hhead)
      exact absurd (hlast _ hmem) (by decide)
  | @cons lexeme more hblanks hwritten hmore =>
      obtain ⟨first, rest, hchars, hvisible, hbracket⟩ := hwritten.head
      rw [spell, trimLeft_append_of_isSpace hblanks, hchars, List.cons_append, Text.trimLeft,
        List.dropWhile_cons_of_neg (by simp [Text.isBlank_of_visible hvisible])]
      simpa using hbracket

theorem takeWhile_append_of_head {word rest : List Char} (hword : ∀ c ∈ word, isNamePart c = true)
    (hrest : ∀ c, rest.head? = some c → isNamePart c = false) : (word ++ rest).takeWhile isNamePart = word := by
  rw [List.takeWhile_append_of_pos hword]
  cases rest with
  | nil => simp
  | cons c rest => simp [hrest c rfl]

/-- The name of the function as a token, and a bracket next: that is where a call starts. -/
theorem startsCall_name {word behind : List Char} (hword : ∀ c ∈ word, isNamePart c = true)
    (hbehind : ∀ c, behind.head? = some c → isNamePart c = false) :
    startsCall (word ++ behind) = true ↔ word = name ∧ (Text.trimLeft behind).head? = some '(' := by
  rw [startsCall, Bool.and_eq_true, beq_iff_eq, List.isPrefixOf_iff_prefix]
  constructor
  · rintro ⟨⟨rest, hrest⟩, hbracket⟩
    rw [← hrest, List.drop_left] at hbracket
    have hend : ∀ c, rest.head? = some c → isNamePart c = false := by
      intro c hc
      obtain ⟨more, rfl⟩ := List.head?_eq_some_iff.mp hc
      refine Bool.eq_false_iff.mpr fun hpart => ?_
      have hrange := isNamePart_iff.mp hpart
      have hvisible : Text.isBlank c = false := Text.isBlank_of_visible (by omega)
      rw [Text.trimLeft, List.dropWhile_cons_of_neg (by simp [hvisible])] at hbracket
      obtain rfl : c = '(' := by simpa using hbracket
      cases hpart
    have hnamePart : ∀ c ∈ name, isNamePart c = true := List.all_eq_true.mp rfl
    -- Both the name and the word are all that can go on with a name at the front.
    have hname := congrArg (List.takeWhile isNamePart) hrest
    rw [takeWhile_append_of_head hnamePart hend, takeWhile_append_of_head hword hbehind] at hname
    subst hname
    exact ⟨rfl, List.append_cancel_left hrest ▸ hbracket⟩
  · rintro ⟨rfl, hbracket⟩
    rw [List.drop_left]
    exact ⟨List.prefix_append _ _, hbracket⟩

/-- **The search finds the calls among plain tokens.** -/
theorem hasCall_spell {last : List Char} {lexemes : List Lexeme} (h : Row last lexemes)
    (hplain : plainTokens lexemes = true) {inWord : Bool} (hinWord : inWord = true → startsWithName lexemes = false) :
    hasCall inWord (spell last lexemes) = true ↔ CallsForFiles (lexemes.map Lexeme.token) := by
  induction h generalizing inWord with
  | nil hlast => simp [spell, hasCall_of_apart fun c hc => apart_of_gap (hlast c hc), CallsForFiles.not_nil]
  | @cons lexeme more hblanks hwritten hmore ih =>
      obtain ⟨blanks, chars, token⟩ := lexeme
      have hapart : ∀ c ∈ blanks, Apart c := fun c hc => apart_of_gap (.inl (hblanks c hc))
      simp only [spell, List.map_cons]
      rw [hasCall_append_of_apart hapart]
      simp only [plainTokens, Bool.and_eq_true] at hplain
      obtain ⟨⟨hliteral, hnumber⟩, hplain⟩ := hplain
      dsimp only at hwritten
      cases hwritten with
      | pair hpair =>
          have hne : chars ≠ [] := by
            rintro rfl
            revert hpair
            decide
          rw [hasCall_append_of_apart (apart_of_mem_pairs hpair)]
          exact (ih hplain (by simp [hne])).trans (CallsForFiles.cons_of_ne (by simp)).symm
      | @single c hsingle =>
          have hc : ∀ d ∈ [c], Apart d := by simpa using apart_of_mem_singles hsingle
          rw [hasCall_append_of_apart hc]
          exact (ih hplain (by simp)).trans (CallsForFiles.cons_of_ne (by simp)).symm
      | @text quote value inner hquote =>
          have hparts : Parts quote := by
            rcases hquote with rfl | rfl <;> exact ⟨by decide, rfl, by decide, (apart_of_isAsciiMark rfl).2⟩
          have hquote : ∀ d ∈ [quote], Apart d := by
            simpa using ⟨fun heq => hparts.notName (heq ▸ List.mem_cons_self), hparts.notWord⟩
          have hinner : hasCall false inner = false := by
            have hnone : hasCall false (quote :: (inner ++ [quote])) = false := by simpa [Token.isText] using hliteral
            rw [← List.singleton_append, hasCall_append_of_apart hquote, Bool.false_and, hparts.hasCall_append] at hnone
            exact (Bool.or_eq_false_iff.mp hnone).1
          rw [List.cons_append, ← List.singleton_append, hasCall_append_of_apart hquote, List.append_assoc,
            List.singleton_append, hparts.hasCall_append]
          simp only [List.isEmpty_cons, Bool.and_false, hinner, Bool.false_or]
          exact (ih hplain (by simp)).trans (CallsForFiles.cons_of_ne (by simp)).symm
      | @number _ first rest htoken hfirst hchars =>
          have hnot : 't' ∉ first :: rest := fun hmem => absurd (hchars 't' hmem) (by decide)
          have hnext : startsWithName more = false := by simpa [htoken] using hnumber
          rw [hasCall_append_of_not_mem hnot]
          refine (ih hplain fun _ => hnext).trans (CallsForFiles.cons_of_ne ?_).symm
          rintro rfl
          cases htoken
      | @name first rest hstart hword hbehind =>
          have hfirst := isNamePart_of_isNameStart hstart
          have hall : ∀ c ∈ first :: rest, isNamePart c = true := by simpa [hfirst] using hword
          have hwords : ∀ c ∈ rest, Text.isWordChar c = true := fun c hc => isWordChar_of_isNamePart (hword c hc)
          have hhead : (spell last more).head? ≠ some 't' := fun heq => absurd (hbehind 't' heq) (by decide)
          rw [List.cons_append, hasCall_cons, isWordChar_of_isNamePart hfirst, hasCall_append_of_word hwords,
            hasCall_eq_of_head hhead, Bool.or_eq_true, Bool.and_eq_true, ← List.cons_append, startsCall_name hall hbehind,
            head?_trimLeft_spell hmore, CallsForFiles.cons_iff, ih hplain (by simp)]
          have hname : first :: rest = name ↔ Token.name (String.ofList (first :: rest)) = .name "toFile" := by
            rw [Token.name.injEq, ← String.toList_inj, String.toList_ofList]
            rfl
          have hboundary : first :: rest = name → (!(inWord && blanks.isEmpty)) = true := by
            intro heq
            cases inWord with
            | false => rfl
            | true =>
                have hnone := hinWord rfl
                simp only [startsWithName, hname.mp heq] at hnone
                simpa [Token.isName] using hnone
          rw [hname] at hboundary ⊢
          exact or_congr_left ⟨And.right, fun h => ⟨hboundary h.1, h⟩⟩

/-! ## Whole texts -/

/-- The first character of the mark that closes a block, if one is opened at the front. -/
def opens? : Char → List Char → Option Char
  | '{', '{' :: _ => some '}'
  | '{', '%' :: _ => some '%'
  | _, _ => none

/-- The block that the search takes to be at the front, and what is behind it. -/
def block? (c : Char) (rest : List Char) : Option (List Char × List Char) :=
  (opens? c rest).bind fun close => cutAtPair? close '}' (rest.drop 1)

theorem blocks_succ (fuel : Nat) (c : Char) (rest : List Char) : blocks (fuel + 1) (c :: rest) =
    ((block? c rest).map fun found => found.1 :: blocks fuel found.2).getD (blocks fuel rest) := by
  rw [blocks.eq_def]
  dsimp only
  split
  · rename_i inside behind hfound
    have hblock : block? c rest = some (inside, behind) := hfound
    rw [hblock]
    rfl
  · rename_i hfound
    have hblock : block? c rest = none := hfound
    rw [hblock]
    rfl

theorem block?_suffix {c : Char} {rest inside behind : List Char} (h : block? c rest = some (inside, behind)) :
    behind <:+ rest.drop 1 := by
  obtain ⟨close, -, hcut⟩ := Option.bind_eq_some_iff.mp h
  obtain ⟨-, hbehind⟩ := cutAtPair?_prefix hcut
  exact hbehind

/-- More steps than characters find no more blocks. -/
theorem blocks_eq {fuel more : Nat} {chars : List Char} (h : chars.length < fuel) (hmore : chars.length < more) :
    blocks fuel chars = blocks more chars := by
  induction fuel generalizing more chars with
  | zero => cases h
  | succ fuel ih =>
      obtain ⟨more, rfl⟩ := Nat.exists_eq_add_one_of_ne_zero (Nat.ne_zero_of_lt hmore)
      cases chars with
      | nil => rfl
      | cons c rest =>
          rw [List.length_cons] at h hmore
          rw [blocks_succ, blocks_succ]
          cases hblock : block? c rest with
          | none => exact ih (by omega) (by omega)
          | some found =>
              have hlength := (block?_suffix hblock).length_le
              rw [List.length_drop] at hlength
              exact congrArg (found.1 :: ·) (ih (by omega) (by omega))

/-- Whether the search finds a call in a row of characters. -/
def finds (chars : List Char) : Bool := (blocks (chars.length + 1) chars).any (hasCall false)

theorem finds_block {c : Char} {rest inside behind : List Char} (h : block? c rest = some (inside, behind)) :
    finds (c :: rest) = (hasCall false inside || finds behind) := by
  have hlength := (block?_suffix h).length_le
  rw [List.length_drop] at hlength
  have hblocks : blocks (c :: rest).length behind = blocks (behind.length + 1) behind := by
    rw [List.length_cons]
    exact blocks_eq (by omega) (by omega)
  rw [finds, blocks_succ, h, Option.map_some, Option.getD_some, List.any_cons, hblocks]
  rfl

theorem finds_skip {c : Char} {rest : List Char} (h : block? c rest = none) : finds (c :: rest) = finds rest := by
  rw [finds, blocks_succ, h]
  rfl

/-! ### What comes before -/

theorem cutAtPair?_append {a b : Char} {chars before behind : List Char}
    (h : cutAtPair? a b chars = some (before, behind)) (rest : List Char) :
    cutAtPair? a b (chars ++ rest) = some (before, behind ++ rest) := by
  induction chars generalizing before with
  | nil => cases h
  | cons c chars ih =>
      cases chars with
      | nil => cases h
      | cons d chars =>
          rw [List.cons_append, List.cons_append, cutAtPair?]
          rw [cutAtPair?] at h
          split
          · rename_i hpair
            rw [if_pos hpair] at h
            obtain ⟨rfl, rfl⟩ := Prod.mk.inj (Option.some.inj h)
            rfl
          · rename_i hpair
            rw [if_neg hpair] at h
            obtain ⟨found, hfound, heq⟩ := Option.map_eq_some_iff.mp h
            obtain ⟨rfl, rfl⟩ := Prod.mk.inj heq
            rw [← List.cons_append, ih hfound]
            rfl

theorem cutAtPair?_eq {a b : Char} {chars before behind : List Char}
    (h : cutAtPair? a b chars = some (before, behind)) : chars = before ++ a :: b :: behind := by
  induction chars generalizing before with
  | nil => cases h
  | cons c chars ih =>
      cases chars with
      | nil => cases h
      | cons d chars =>
          rw [cutAtPair?] at h
          split at h
          · rename_i hpair
            obtain ⟨rfl, rfl⟩ := Prod.mk.inj (Option.some.inj h)
            simpa using hpair
          · obtain ⟨found, hfound, heq⟩ := Option.map_eq_some_iff.mp h
            obtain ⟨rfl, rfl⟩ := Prod.mk.inj heq
            rw [ih hfound]
            rfl

theorem opens?_cons (c d : Char) (rest : List Char) : opens? c (d :: rest) =
    if c = '{' then if d = '{' then some '}' else if d = '%' then some '%' else none else none := by
  unfold opens?
  split <;> simp_all

theorem opens?_of_ne {c : Char} (h : c ≠ '{') (rest : List Char) : opens? c rest = none := by
  unfold opens?
  split <;> simp_all

theorem opens?_append (c : Char) {chars : List Char} (h : chars ≠ []) (rest : List Char) :
    opens? c (chars ++ rest) = opens? c chars := by
  obtain ⟨d, chars, rfl⟩ := List.exists_cons_of_ne_nil h
  rw [List.cons_append, opens?_cons, opens?_cons]

/-- A block that is closed stays one, whatever comes behind it. -/
theorem block?_append {c : Char} {chars inside behind : List Char} (h : block? c chars = some (inside, behind))
    (rest : List Char) : block? c (chars ++ rest) = some (inside, behind ++ rest) := by
  obtain ⟨close, hopens, hcut⟩ := Option.bind_eq_some_iff.mp h
  cases chars with
  | nil => cases hcut
  | cons d chars =>
      rw [block?, opens?_append c (List.cons_ne_nil d chars), hopens, Option.bind_some]
      exact cutAtPair?_append hcut rest

/-- Whether the search leaves a row of characters outside of blocks and without having found anything, given a bound
on the steps: each block that it takes to start there also ends there and has no call in it. -/
def quietFrom : Nat → List Char → Bool
  | 0, _ => false
  | _ + 1, [] => true
  | fuel + 1, c :: rest =>
    match opens? c rest, block? c rest with
    | some _, some (inside, behind) => !hasCall false inside && quietFrom fuel behind
    | some _, none => false
    | none, _ => (c ≠ '{' || !rest.isEmpty) && quietFrom fuel rest

/-- Whether the search leaves a row of characters as it came to it. -/
def quiet (chars : List Char) : Bool := quietFrom (chars.length + 1) chars

theorem finds_append_of_quietFrom {fuel : Nat} {chars : List Char} (h : quietFrom fuel chars = true)
    (rest : List Char) : finds (chars ++ rest) = finds rest := by
  fun_induction quietFrom fuel chars with
  | case1 => cases h
  | case2 => rfl
  | case3 fuel c chars close inside behind hblock hopens ih =>
      simp only [Bool.and_eq_true, Bool.not_eq_true'] at h
      rw [List.cons_append, finds_block (block?_append hblock rest), h.1, Bool.false_or, ih h.2]
  | case4 => cases h
  | case5 fuel c chars hopens ih =>
      simp only [Bool.and_eq_true, Bool.or_eq_true] at h
      obtain ⟨hend, h⟩ := h
      have hnone : opens? c (chars ++ rest) = none := by
        cases chars with
        | nil => exact opens?_of_ne (by simpa using hend) _
        | cons d chars => rw [opens?_append c (List.cons_ne_nil d chars), hopens]
      rw [List.cons_append, finds_skip (by rw [block?, hnone]; rfl), ih h]

theorem finds_append_of_quiet {chars : List Char} (h : quiet chars = true) (rest : List Char) :
    finds (chars ++ rest) = finds rest := finds_append_of_quietFrom h rest

/-- The search and the lexer see the same opening marks outside of blocks. -/
theorem finds_eq_of_cutAtOpening (chars : List Char) : finds chars =
    finds (((cutAtOpening chars).2.map fun found => found.1.mark ++ found.2).getD []) := by
  fun_induction cutAtOpening chars with
  | case1 | case2 | case3 | case5 => rfl
  | case4 c rest hexpression hstatement _ lead found heq ih =>
      have hnone : opens? c rest = none := by
        unfold opens?
        split
        · exact (hexpression _ rfl rfl).elim
        · exact (hstatement _ rfl rfl).elim
        · rfl
      rw [heq] at ih
      rw [finds_skip (by rw [block?, hnone]; rfl), ih]

/-! ### Plain pieces -/

/-- The first character of a closing mark. -/
def closeChar (expression : Bool) : Char := if expression then '}' else '%'

theorem parts_closeChar (expression : Bool) : Parts (closeChar expression) := by
  cases expression <;> exact ⟨by decide, rfl, by decide, (apart_of_isAsciiMark rfl).2⟩

theorem finds_openMark {expression : Bool} {rest inside behind : List Char}
    (h : cutAtPair? (closeChar expression) '}' rest = some (inside, behind)) :
    finds (openMark expression ++ rest) = (hasCall false inside || finds behind) := by
  cases expression <;> exact finds_block h

/-- What the search takes to be outside of a block that is closed: all that stands behind the first closing mark in it.
The block is given by what stands between its marks. -/
def hidden? (expression : Bool) (between : List Char) : Option (List Char × List Char) :=
  cutAtPair? (closeChar expression) '}' (between ++ closeMark expression)

theorem finds_of_cut {chars lead rest : List Char} {opening : Opening}
    (h : cutAtOpening chars = (lead, some (opening, rest))) : finds chars = finds (opening.mark ++ rest) := by
  rw [finds_eq_of_cutAtOpening, h, Option.map_some, Option.getD_some]

theorem finds_of_cut_none {chars lead : List Char} (h : cutAtOpening chars = (lead, none)) : finds chars = false := by
  rw [finds_eq_of_cutAtOpening, h]
  rfl

end FileCalls

/-- Whether a piece of a template is written so that the search for calls is not misled by it. -/
def Template.Lexer.Piece.plain : Piece → Bool
  | .data _ => true
  | .comment chars => FileCalls.quiet chars
  | .raw chars => FileCalls.quiet chars
  | .block expression sign inside =>
    if inside.closed then
      FileCalls.plainTokens inside.lexemes &&
        (FileCalls.hidden? expression (sign ++ inside.chars)).any fun found =>
          !FileCalls.hasCall false found.2 && FileCalls.quiet found.2
    else !decide (FileCalls.name <:+: inside.chars)

namespace FileCalls

/-- A block that is closed and plain: the search finds a call in it if there is one among its tokens, and then goes on
behind it. -/
theorem finds_closed {expression : Bool} {sign : List Char} {inside : Inside} (hsign : ∀ c ∈ sign, c = '-' ∨ c = '+')
    (hrow : Row inside.last inside.lexemes) (hclosed : inside.closed = true)
    (hplain : (Piece.block expression sign inside).plain = true) (behind : List Char) :
    finds (openMark expression ++ (sign ++ (inside.chars ++ (closeMark expression ++ behind)))) = true ↔
      CallsForFiles (inside.lexemes.map Lexeme.token) ∨ finds behind = true := by
  have hapart : ∀ c ∈ sign, Apart c := fun c hc => apart_of_gap (.inr (hsign c hc))
  have hbrace : ∀ c ∈ ['}'], Apart c := by simpa using apart_of_isAsciiMark rfl
  simp only [Piece.plain, hclosed, if_true, Bool.and_eq_true, Option.any_eq_true, Bool.not_eq_true'] at hplain
  obtain ⟨htokens, ⟨before, hidden⟩, hcut, hnone, hquiet⟩ := hplain
  have hclose : closeMark expression = closeChar expression :: ['}'] := by cases expression <;> rfl
  have hbetween : hasCall false (sign ++ inside.chars) = hasCall false before := by
    have hwhole := congrArg (hasCall false) (cutAtPair?_eq hcut)
    rw [hclose, (parts_closeChar expression).hasCall_append, (parts_closeChar expression).hasCall_append,
      hasCall_of_apart hbrace, ← List.singleton_append, hasCall_append_of_apart hbrace] at hwhole
    simpa [hnone] using hwhole
  have hfound : hasCall false before = true ↔ CallsForFiles (inside.lexemes.map Lexeme.token) := by
    rw [← hbetween, hasCall_append_of_apart hapart, Bool.false_and]
    exact hasCall_spell hrow htokens nofun
  have hrest : sign ++ (inside.chars ++ (closeMark expression ++ behind)) =
      sign ++ inside.chars ++ closeMark expression ++ behind := by simp
  rw [hrest, finds_openMark (cutAtPair?_append hcut behind), finds_append_of_quiet hquiet, Bool.or_eq_true, hfound]

theorem name_infix_of_append {front rest : List Char} (hfront : 't' ∉ front) (h : name <:+: front ++ rest) :
    name <:+: rest := by
  induction front with
  | nil => exact h
  | cons c front ih =>
      refine ih (fun hmem => hfront (List.mem_cons_of_mem _ hmem)) ((List.infix_cons_iff.mp h).resolve_left fun hname => ?_)
      exact hfront ((List.cons_prefix_cons.mp hname).1 ▸ List.mem_cons_self)

/-- In a block without an end that does not mention the function nothing is found. -/
theorem finds_unclosed {expression : Bool} {sign chars : List Char} (hsign : ∀ c ∈ sign, c = '-' ∨ c = '+')
    (h : ¬ name <:+: chars) : finds (openMark expression ++ (sign ++ chars)) = false := by
  have hfront : 't' ∉ openMark expression ++ sign := by
    intro hmem
    rcases List.mem_append.mp hmem with hmem | hmem
    · revert hmem
      cases expression <;> decide
    · exact absurd (hsign _ hmem) (by decide)
  refine Bool.eq_false_iff.mpr fun hfinds => h (name_infix_of_append hfront ?_)
  obtain ⟨inside, hinside, hcall⟩ := List.any_eq_true.mp hfinds
  rw [List.append_assoc]
  exact (name_of_hasCall hcall).trans (mem_blocks hinside)

/-- **What the search finds is what the lexer reads**, on plain pieces. -/
theorem finds_iff {chars : List Char} {pieces : List Piece} {tokens : Tokens} (h : Reads chars pieces tokens)
    (hplain : ∀ piece ∈ pieces, piece.plain = true) : finds chars = true ↔ CallsForFiles tokens.tokens := by
  induction h with
  | data hcut =>
      rw [finds_of_cut_none hcut, CallsForFiles.emitData_iff]
      exact iff_of_false nofun CallsForFiles.not_nil
  | comment hcut hrest _ ih =>
      obtain ⟨-, hquiet, hplain⟩ := by simpa only [List.forall_mem_cons] using hplain
      rw [finds_of_cut hcut, hrest, ← List.append_assoc, finds_append_of_quiet hquiet, CallsForFiles.emitData_iff]
      exact ih hplain
  | raw hcut hrest _ ih =>
      obtain ⟨-, hquiet, hplain⟩ := by simpa only [List.forall_mem_cons] using hplain
      rw [finds_of_cut hcut, hrest, ← List.append_assoc, finds_append_of_quiet hquiet, CallsForFiles.emitData_iff,
        CallsForFiles.emitData_iff]
      exact ih hplain
  | closed expression hcut hsign hclosed hrow hrest _ ih =>
      obtain ⟨-, hblock, hplain⟩ := by simpa only [List.forall_mem_cons] using hplain
      rw [finds_of_cut hcut, Opening.mark_ofBlock, hrest, finds_closed hsign hrow hclosed hblock, ih hplain,
        CallsForFiles.emitData_iff, CallsForFiles.cons_of_ne (by cases expression <;> simp [openToken]),
        CallsForFiles.append_iff (by cases expression <;> simp [closeToken])
          (by cases expression <;> simp [closeToken])]
  | @unclosed chars lead rest sign data inside tokens expression hcut hsign hclosed hrest hnames =>
      have hnot : ¬ name <:+: inside.chars := by
        simpa [Piece.plain, hclosed] using hplain (.block expression sign inside) (by simp)
      rw [finds_of_cut hcut, Opening.mark_ofBlock, hrest, finds_unclosed hsign hnot, CallsForFiles.emitData_iff]
      refine iff_of_false nofun fun hcalls => hnot ?_
      have hcalls : CallsForFiles tokens.tokens :=
        (CallsForFiles.cons_of_ne (by cases expression <;> simp [openToken])).mp hcalls
      exact hnames _ hcalls.name_mem

end FileCalls

/-- **A text asks for files if there is a call among its tokens**, provided that it can be read and that all pieces it
is made of are written plainly. -/
theorem asksForFiles_iff {text : String} (hok : (Tokens.ofString text).cause? = none)
    (hplain : ∀ piece ∈ pieces text, piece.plain = true) :
    (pieces text).flatMap Piece.chars = text.toList ∧
      (asksForFiles text = true ↔ CallsForFiles (Tokens.ofString text).tokens) :=
  have hreads := Tokens.ofString_reads hok
  ⟨hreads.spell, FileCalls.finds_iff hreads hplain⟩

/-- A closing mark in a literal hides what is behind it from the search. -/
example : asksForFiles "\x7b\x7b '\x7d\x7d' ~ toFile('a', 'b') \x7d\x7d" = false := by decide +kernel

/-- A template with a comment and a raw block that hold blocks, a map that ends like a block does, the name in a literal,
and a call with a closing mark behind it. -/
def plainTemplate : String :=
  "a \x7b# \x7b\x7b b \x7d\x7d #\x7d\x7b% raw %\x7d\x7b\x7b c \x7d\x7d\x7b% endraw %\x7d" ++
    "\x7b\x7b \x7b'd': \x7b'e': 'toFile'\x7d\x7d \x7d\x7d\x7b% set f = toFile ('g', '\x7d\x7d') -%\x7d h"

theorem asksForFiles_iff_plainTemplate :
    (Tokens.ofString plainTemplate).cause? = none ∧ (∀ piece ∈ pieces plainTemplate, piece.plain = true) ∧
      (pieces plainTemplate).flatMap Piece.chars = plainTemplate.toList ∧
      CallsForFiles (Tokens.ofString plainTemplate).tokens := by
  have hok : (Tokens.ofString plainTemplate).cause? = none := by decide +kernel
  have hall : (pieces plainTemplate).all Piece.plain = true := by decide +kernel
  have hasks : asksForFiles plainTemplate = true := by decide +kernel
  have hplain : ∀ piece ∈ pieces plainTemplate, piece.plain = true := List.all_eq_true.mp hall
  have h := asksForFiles_iff hok hplain
  exact ⟨hok, hplain, h.1, h.2.mp hasks⟩

end Stencil
