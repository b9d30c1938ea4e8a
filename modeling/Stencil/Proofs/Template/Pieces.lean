import Mathlib
import Stencil.Proofs.Characters
import Stencil.Proofs.Template.Lexer

/-!
# How a template is written

Tokens do not tell how they were written, nor what was left out between them. Here a template is cut into pieces
that do (`pieces`): text, comments, raw blocks, and blocks with the characters of each token in them. A template that
the lexer finds no fault in is the row of its pieces (`Reads.spell`), and the tokens of the blocks are those that the
lexer finds (`scan_reads`).

The pieces are cut by the same steps as the tokens, so that both can be followed at once (`Reads`). What a step reads is
told by what is left behind it.
-/

namespace Stencil.Template

/-- Whether a token is a text in quotes. -/
def Token.isText : Token → Bool
  | .text _ => true
  | _ => false

/-- Whether a token is a number. -/
def Token.isNumber : Token → Bool
  | .integer _ => true
  | .decimal _ => true
  | _ => false

namespace Lexer

/-! ## Pieces -/

/-- The characters that an end is left of. -/
def front (chars rest : List Char) : List Char := chars.take (chars.length - rest.length)

theorem front_append {chars rest : List Char} (h : rest <:+ chars) : front chars rest ++ rest = chars :=
  List.suffix_iff_eq_append.mp h

@[simp] theorem front_of_append (first rest : List Char) : front (first ++ rest) rest = first := by
  simp [front]

/-- The mark that opens a block. -/
def openMark (expression : Bool) : List Char := if expression then ['{', '{'] else ['{', '%']

/-- The mark that closes a block. -/
def closeMark (expression : Bool) : List Char := if expression then ['}', '}'] else ['%', '}']

/-- A token of a block as it is written. -/
structure Lexeme where
  /-- What stands between this token and the one before it. -/
  blanks : List Char
  chars : List Char
  token : Token

/-- What is written in a block behind the sign of its opening mark. -/
structure Inside where
  lexemes : List Lexeme
  /-- What stands behind the last token: blanks and the sign of the closing mark. -/
  last : List Char
  /-- Whether there is a closing mark. -/
  closed : Bool

/-- A piece of a template as it is written. -/
inductive Piece where
  | data (chars : List Char)
  | comment (chars : List Char)
  | raw (chars : List Char)
  /-- A block, with the sign of its opening mark. -/
  | block (expression : Bool) (sign : List Char) (inside : Inside)

mutual

/-- The pieces of a template from a place outside of blocks on. -/
def readOutside : Nat → List Char → List Piece
  | 0, _ => []
  | fuel + 1, chars =>
    match cutAtOpening chars with
    | (lead, none) => [.data lead]
    | (lead, some (opening, rest)) =>
      let inside := (takeSign rest).2
      .data lead :: match opening with
        | .expression =>
          let (block, more) := readInside fuel true 0 inside
          .block true (front rest inside) block :: more
        | .comment =>
          match cutAtPair '#' '}' inside with
          | some (_, behind) => .comment ('{' :: '#' :: front rest behind) :: readOutside fuel behind
          | none => []
        | .statement =>
          match takeTag "raw" inside with
          | some (_, text) =>
            match takeRaw text with
            | some (_, _, _, behind) => .raw ('{' :: '%' :: front rest behind) :: readOutside fuel behind
            | none => []
          | none =>
            let (block, more) := readInside fuel false 0 inside
            .block false (front rest inside) block :: more

/-- The rest of a block with so many brackets open, and the pieces behind the block. -/
def readInside : Nat → Bool → Int → List Char → Inside × List Piece
  | 0, _, _, _ => ({ lexemes := [], last := [], closed := false }, [])
  | fuel + 1, expression, brackets, chars =>
    let bare := skipSpaces chars
    match if brackets = 0 then closing? (closeMark expression) bare else none with
    | some (_, behind) =>
      ({ lexemes := [], last := front chars (closeMark expression ++ behind), closed := true },
        readOutside fuel behind)
    | none =>
      match inner bare with
      | .ok (token, rest) =>
        let (inside, more) := readInside fuel expression (brackets + bracketChange token) rest
        ({ inside with
            lexemes := { blanks := front chars bare, chars := front bare rest, token } :: inside.lexemes }, more)
      | .error _ => ({ lexemes := [], last := chars, closed := false }, [])

end

/-- The pieces of a template. -/
def pieces (text : String) : List Piece :=
  let chars := text.toList
  readOutside (2 * chars.length + 2) chars

/-- Tokens as they are written, and what stands behind the last one. -/
def spell (last : List Char) : List Lexeme → List Char
  | [] => last
  | lexeme :: more => lexeme.blanks ++ (lexeme.chars ++ spell last more)

/-- The characters of a block between its marks. -/
def Inside.chars (inside : Inside) : List Char := spell inside.last inside.lexemes

/-- The characters of a piece. -/
def Piece.chars : Piece → List Char
  | .data chars => chars
  | .comment chars => chars
  | .raw chars => chars
  | .block expression sign inside =>
    openMark expression ++ sign ++ inside.chars ++ if inside.closed then closeMark expression else []

/-! ## How a token is written -/

/-- The characters that numbers are written with. -/
def isNumberChar (c : Char) : Bool := (Json.hexValue? c).isSome || "_.+-xXoO".toList.contains c

/-- What a token is written with, given what stands behind it. -/
inductive Written (behind : List Char) : Token → List Char → Prop
  | pair {chars : List Char} (h : chars ∈ pairs) : Written behind (.mark (String.ofList chars)) chars
  | single {c : Char} (h : c ∈ singles) : Written behind (.mark (String.singleton c)) [c]
  | text {quote : Char} {value : String} (chars : List Char) (h : quote = '\'' ∨ quote = '"') :
    Written behind (.text value) (quote :: (chars ++ [quote]))
  | number {token : Token} {first : Char} {rest : List Char} (htoken : token.isNumber = true)
    (hfirst : Decimal.isDigit first = true) (h : ∀ c ∈ first :: rest, isNumberChar c = true) :
    Written behind token (first :: rest)
  | name {first : Char} {rest : List Char} (hfirst : isNameStart first = true) (h : ∀ c ∈ rest, isNamePart c = true)
    (hbehind : ∀ c, behind.head? = some c → isNamePart c = false) :
    Written behind (.name (String.ofList (first :: rest))) (first :: rest)

theorem isNumberChar_of_isDigit {c : Char} (h : Decimal.isDigit c = true) : isNumberChar c = true := by
  have hvalue : Json.hexValue? c = some (c.toNat - 48) := if_pos h
  rw [isNumberChar, hvalue, Option.isSome_some, Bool.true_or]

theorem takeNumber_append (place : NumberPlace) (chars : List Char) :
    (takeNumber place chars).1 ++ (takeNumber place chars).2.2 = chars := by
  fun_induction takeNumber place chars with
  | case1 => rfl
  | case2 place c chars _ next _ number last rest heq ih =>
      rw [heq] at ih
      exact congrArg (c :: ·) ih
  | case3 => rfl

theorem takeNumber_isNumberChar (place : NumberPlace) (chars : List Char) :
    ∀ c ∈ (takeNumber place chars).1, isNumberChar c = true := by
  fun_induction takeNumber place chars with
  | case1 => exact fun c hc => absurd hc List.not_mem_nil
  | case2 place c chars next? next hnext number last rest heq ih =>
      rw [heq] at ih
      intro d hd
      rcases List.mem_cons.mp hd with rfl | hd
      · by_contra hnot
        have hother : ∀ c, isNumberChar c = true → d ≠ c := fun c hc heq => hnot (heq ▸ hc)
        have hdigit : Decimal.isDigit d = false := Bool.eq_false_iff.mpr fun h => hnot (isNumberChar_of_isDigit h)
        have hnone : next? = none := by
          cases place <;> simp [next?, hdigit, hother '_' rfl, hother '.' rfl, hother 'e' rfl, hother 'E' rfl,
            hother '+' rfl, hother '-' rfl]
        rw [hnone] at hnext
        cases hnext
      · exact ih d hd
  | case3 => exact fun c hc => absurd hc List.not_mem_nil

theorem takeQuoted_eq {quote : Char} {chars inner rest : List Char} (h : takeQuoted quote chars = some (inner, rest)) :
    chars = inner ++ quote :: rest := by
  fun_induction takeQuoted quote chars generalizing inner with
  | case1 => cases h
  | case2 c chars ih =>
      obtain ⟨⟨inner', rest'⟩, hinner, heq⟩ := Option.map_eq_some_iff.mp h
      obtain ⟨rfl, rfl⟩ := Prod.mk.inj heq
      rw [ih hinner]
      rfl
  | case3 chars =>
      obtain ⟨rfl, rfl⟩ := Prod.mk.inj (Option.some.inj h)
      rfl
  | case4 c chars _ _ ih =>
      obtain ⟨⟨inner', rest'⟩, hinner, heq⟩ := Option.map_eq_some_iff.mp h
      obtain ⟨rfl, rfl⟩ := Prod.mk.inj heq
      rw [ih hinner]
      rfl

theorem isNumber_of_integerToken {base : Nat} {digits chars rest : List Char} {token : Token}
    (h : (integerToken base digits).map (fun token => (token, chars)) = .ok (token, rest)) :
    token.isNumber = true ∧ chars = rest := by
  unfold integerToken at h
  split at h
  · split at h
    · cases h
      exact ⟨rfl, rfl⟩
    · cases h
  · cases h

/-- The digits of a number that starts with its base. -/
theorem basedNumber_eq {base : Nat} {chars rest : List Char} {token : Token}
    (h : basedNumber base chars = .ok (token, rest)) :
    ∃ word, chars = word ++ rest ∧ token.isNumber = true ∧ ∀ c ∈ word, isNumberChar c = true := by
  unfold basedNumber at h
  dsimp only at h
  split at h
  · cases h
  · obtain ⟨htoken, rfl⟩ := isNumber_of_integerToken h
    refine ⟨_, List.takeWhile_append_dropWhile.symm, htoken, fun c hc => ?_⟩
    have hchar := List.mem_takeWhile_imp hc
    simp only [Bool.or_eq_true, decide_eq_true_eq, Bool.and_eq_true] at hchar
    rcases hchar with (hdigit | rfl) | ⟨-, hvalue⟩
    · exact isNumberChar_of_isDigit hdigit
    · rfl
    · rw [isNumberChar, hvalue, Bool.true_or]

theorem number_written {first : Char} {more rest : List Char} {token : Token}
    (hfirst : Decimal.isDigit first = true) (h : number (first :: more) = .ok (token, rest)) :
    ∃ word, first :: more = word ++ rest ∧ Written rest token word := by
  have hbased {base : Nat} {mark : Char} {digits : List Char} (hmore : more = mark :: digits)
      (hmark : isNumberChar mark = true) (h : basedNumber base digits = .ok (token, rest)) :
      ∃ word, first :: more = word ++ rest ∧ Written rest token word := by
    obtain ⟨word, hword, htoken, hchars⟩ := basedNumber_eq h
    refine ⟨first :: mark :: word, by rw [hmore, hword]; rfl, .number htoken hfirst ?_⟩
    simpa [isNumberChar_of_isDigit hfirst, hmark] using hchars
  unfold number at h
  split at h
  · rename_i heq
    exact hbased (List.cons.inj heq).2 rfl h
  · rename_i heq
    exact hbased (List.cons.inj heq).2 rfl h
  · rename_i heq
    exact hbased (List.cons.inj heq).2 rfl h
  · rename_i heq
    exact hbased (List.cons.inj heq).2 rfl h
  · rename_i heq
    exact hbased (List.cons.inj heq).2 rfl h
  · rename_i heq
    exact hbased (List.cons.inj heq).2 rfl h
  · have hword := takeNumber_append .whole (first :: more)
    have hchars := takeNumber_isNumberChar .whole (first :: more)
    have htail : ∃ tail, (takeNumber .whole (first :: more)).1 = first :: tail := by
      simp [takeNumber, hfirst]
    obtain ⟨tail, htail⟩ := htail
    rw [htail] at hword hchars
    have hread (htoken : token.isNumber = true) (hrest : (takeNumber .whole (first :: more)).2.2 = rest) :
        ∃ word, first :: more = word ++ rest ∧ Written rest token word :=
      ⟨first :: tail, hrest ▸ hword.symm, .number htoken hfirst hchars⟩
    dsimp only at h
    split at h
    · cases h
    · split at h
      · obtain ⟨htoken, hrest⟩ := isNumber_of_integerToken h
        exact hread htoken hrest
      · split at h
        · cases h
          exact hread rfl rfl
        · cases h

theorem isNameStart_iff {c : Char} : isNameStart c = true ↔
    (65 ≤ c.toNat ∧ c.toNat ≤ 90) ∨ (97 ≤ c.toNat ∧ c.toNat ≤ 122) ∨ c.toNat = 95 := by
  simp [isNameStart, Char.isAlpha, Char.isUpper, Char.isLower, UInt32.le_iff_toNat_le, ← Char.toNat_inj, or_assoc]

theorem isNamePart_iff {c : Char} : isNamePart c = true ↔ (65 ≤ c.toNat ∧ c.toNat ≤ 90) ∨
    (97 ≤ c.toNat ∧ c.toNat ≤ 122) ∨ (48 ≤ c.toNat ∧ c.toNat ≤ 57) ∨ c.toNat = 95 := by
  simp [isNamePart, Char.isAlphanum, Char.isAlpha, Char.isUpper, Char.isLower, Char.isDigit,
    UInt32.le_iff_toNat_le, ← Char.toNat_inj, or_assoc]

theorem isNamePart_of_isNameStart {c : Char} (h : isNameStart c = true) : isNamePart c = true := by
  rw [isNameStart_iff] at h
  rw [isNamePart_iff]
  omega

/-- **A token is written with characters of its own**, and they are taken off the front. -/
theorem inner_written {chars rest : List Char} {token : Token} (h : inner chars = .ok (token, rest)) :
    ∃ word, chars = word ++ rest ∧ Written rest token word := by
  unfold inner at h
  split at h
  · cases h
  · rename_i c more
    split at h
    · rename_i hpair
      cases h
      exact ⟨_, (List.take_append_drop 2 _).symm, .pair (by simpa using hpair)⟩
    split at h
    · rename_i hquote
      unfold quoted at h
      split at h
      · cases h
      · rename_i inner rest' hinner
        split at h
        · cases h
          exact ⟨c :: (inner ++ [c]), by simp [takeQuoted_eq hinner], .text inner (by simpa using hquote)⟩
        · cases h
    split at h
    · rename_i hsingle
      cases h
      exact ⟨[c], rfl, .single (by simpa using hsingle)⟩
    split at h
    · rename_i hdigit
      exact number_written hdigit h
    split at h
    · rename_i hstart
      cases h
      have hpart : isNamePart c = true := isNamePart_of_isNameStart hstart
      have hbehind : ∀ d, ((c :: more).dropWhile isNamePart).head? = some d → isNamePart d = false := fun d hd => by
        simpa [hd] using List.head?_dropWhile_not isNamePart (c :: more)
      refine ⟨(c :: more).takeWhile isNamePart, List.takeWhile_append_dropWhile.symm, ?_⟩
      rw [List.takeWhile_cons_of_pos hpart]
      exact .name hstart (fun d hd => List.mem_takeWhile_imp hd) hbehind
    · cases h

/-- A token starts with a character that can be seen, and with a bracket only if it is one. -/
theorem Written.head {behind chars : List Char} {token : Token} (h : Written behind token chars) :
    ∃ first rest, chars = first :: rest ∧ (32 < first.toNat ∧ first.toNat < 127) ∧
      (first = '(' ↔ token = .mark "(") := by
  cases h with
  | pair h =>
      simp only [pairs, List.mem_cons, List.not_mem_nil, or_false] at h
      rcases h with rfl | rfl | rfl | rfl | rfl | rfl <;>
        exact ⟨_, _, rfl, by decide, iff_of_false (by decide) fun heq => absurd (Token.mark.inj heq) (by decide)⟩
  | @single c h =>
      have hall : singles.all (fun c => 32 < c.toNat && c.toNat < 127) = true := rfl
      refine ⟨c, [], rfl, by simpa using List.all_eq_true.mp hall c h, ?_⟩
      constructor
      · rintro rfl
        rfl
      · intro heq
        have hlist := congrArg String.toList (Token.mark.inj heq)
        simpa using hlist
  | text chars h =>
      rcases h with rfl | rfl <;> exact ⟨_, _, rfl, by decide, iff_of_false (by decide) nofun⟩
  | @number token first rest htoken hfirst h =>
      have hrange := Decimal.isDigit_iff.mp hfirst
      refine ⟨_, _, rfl, by omega, iff_of_false ?_ ?_⟩
      · rintro rfl
        cases hfirst
      · rintro rfl
        cases htoken
  | name hfirst h =>
      have hrange := isNameStart_iff.mp hfirst
      refine ⟨_, _, rfl, by omega, iff_of_false ?_ nofun⟩
      rintro rfl
      revert hrange
      decide

/-- What begins what stands behind is all that a token has to do with it. -/
theorem Written.of_append {behind more chars : List Char} {token : Token}
    (h : Written (behind ++ more) token chars) : Written behind token chars := by
  cases h with
  | pair h => exact .pair h
  | single h => exact .single h
  | text chars h => exact .text chars h
  | number htoken hfirst h => exact .number htoken hfirst h
  | name hfirst h hbehind =>
      refine .name hfirst h fun c hc => hbehind c ?_
      rw [List.head?_append, hc, Option.some_or]

/-! ## What is written in a block -/

/-- Tokens as they are written, each with blanks before it. -/
inductive Row (last : List Char) : List Lexeme → Prop
  | nil (h : ∀ c ∈ last, isSpace c = true ∨ c = '-' ∨ c = '+') : Row last []
  | cons {lexeme : Lexeme} {more : List Lexeme} (hblanks : ∀ c ∈ lexeme.blanks, isSpace c = true)
    (hwritten : Written (spell last more) lexeme.token lexeme.chars) (hmore : Row last more) :
    Row last (lexeme :: more)

/-- The token of a closing mark. -/
def closeToken (expression : Bool) : Token := if expression then .closeExpression else .closeStatement

theorem takeSign_eq (chars : List Char) :
    ∃ sign, chars = sign ++ (takeSign chars).2 ∧ ∀ c ∈ sign, c = '-' ∨ c = '+' := by
  unfold takeSign
  split
  · exact ⟨['-'], rfl, by simp⟩
  · exact ⟨['+'], rfl, by simp⟩
  · exact ⟨[], rfl, by simp⟩

theorem takeWord_eq {word chars rest : List Char} (h : takeWord word chars = some rest) : chars = word ++ rest := by
  unfold takeWord at h
  split at h
  · rename_i hprefix
    obtain ⟨tail, rfl⟩ := List.isPrefixOf_iff_prefix.mp hprefix
    simpa using h
  · cases h

theorem closing?_eq {close chars rest : List Char} {trim : Trim} (h : closing? close chars = some (trim, rest)) :
    ∃ sign, chars = sign ++ (close ++ rest) ∧ ∀ c ∈ sign, c = '-' ∨ c = '+' := by
  obtain ⟨rest', hword, heq⟩ := Option.map_eq_some_iff.mp h
  obtain ⟨-, rfl⟩ := Prod.mk.inj heq
  obtain ⟨sign, hchars, hsign⟩ := takeSign_eq chars
  exact ⟨sign, by rwa [← takeWord_eq hword], hsign⟩

theorem skipSpaces_eq (chars : List Char) :
    ∃ blanks, chars = blanks ++ skipSpaces chars ∧ ∀ c ∈ blanks, isSpace c = true :=
  ⟨_, List.takeWhile_append_dropWhile.symm, fun _ hc => List.mem_takeWhile_imp hc⟩

section

variable {fuel : Nat} {expression : Bool} {brackets : Int} {chars rest : List Char}

/-- The closing mark of a block at the front, if this is where it counts. -/
def stop? (expression : Bool) (brackets : Int) (chars : List Char) : Option (Trim × List Char) :=
  if brackets = 0 then closing? (closeMark expression) (skipSpaces chars) else none

theorem stop?_eq {trim : Trim} (h : stop? expression brackets chars = some (trim, rest)) :
    ∃ last, chars = last ++ (closeMark expression ++ rest) ∧ ∀ c ∈ last, isSpace c = true ∨ c = '-' ∨ c = '+' := by
  unfold stop? at h
  split at h
  · obtain ⟨blanks, hchars, hblanks⟩ := skipSpaces_eq chars
    obtain ⟨sign, hbare, hsign⟩ := closing?_eq h
    refine ⟨blanks ++ sign, by rw [List.append_assoc, ← hbare]; exact hchars, fun c hc => ?_⟩
    exact (List.mem_append.mp hc).imp (hblanks c) (hsign c)
  · cases h

theorem skipSpaces_ne_nil_of_stop {trim : Trim} (h : stop? expression brackets chars = some (trim, rest)) :
    skipSpaces chars ≠ [] := by
  intro hnil
  unfold stop? at h
  split at h
  · obtain ⟨sign, hbare, -⟩ := closing?_eq h
    rw [hnil] at hbare
    cases expression <;> simp [closeMark] at hbare
  · cases h

theorem skipSpaces_ne_nil_of_inner {token : Token} (h : inner (skipSpaces chars) = .ok (token, rest)) :
    skipSpaces chars ≠ [] := by
  intro hnil
  rw [hnil] at h
  cases h

theorem scan_stop {trim : Trim} (h : stop? expression brackets chars = some (trim, rest)) :
    scan (fuel + 1) (.inside expression brackets) chars =
      emit (closeToken expression) (scan fuel (.outside trim) rest) := by
  obtain ⟨c, bare, hbare⟩ := List.exists_cons_of_ne_nil (skipSpaces_ne_nil_of_stop h)
  rw [stop?, hbare] at h
  simp only [scan, hbare]
  rw [show (if expression = true then ['}', '}'] else ['%', '}']) = closeMark expression from rfl, h]
  rfl

theorem scan_token {token : Token} (hgo : stop? expression brackets chars = none)
    (h : inner (skipSpaces chars) = .ok (token, rest)) :
    scan (fuel + 1) (.inside expression brackets) chars =
      emit token (scan fuel (.inside expression (brackets + bracketChange token)) rest) := by
  obtain ⟨c, bare, hbare⟩ := List.exists_cons_of_ne_nil (skipSpaces_ne_nil_of_inner h)
  rw [stop?, hbare] at hgo
  rw [hbare] at h
  simp only [scan, hbare]
  rw [show (if expression = true then ['}', '}'] else ['%', '}']) = closeMark expression from rfl, hgo]
  dsimp only
  rw [h]

theorem readInside_stop {trim : Trim} (h : stop? expression brackets chars = some (trim, rest)) :
    readInside (fuel + 1) expression brackets chars =
      ({ lexemes := [], last := front chars (closeMark expression ++ rest), closed := true },
        readOutside fuel rest) := by
  rw [stop?] at h
  simp only [readInside]
  rw [h]

theorem readInside_token {token : Token} (hgo : stop? expression brackets chars = none)
    (h : inner (skipSpaces chars) = .ok (token, rest)) :
    readInside (fuel + 1) expression brackets chars =
      let read := readInside fuel expression (brackets + bracketChange token) rest
      ({ read.1 with lexemes :=
          { blanks := front chars (skipSpaces chars), chars := front (skipSpaces chars) rest, token } ::
            read.1.lexemes }, read.2) := by
  rw [stop?] at hgo
  simp only [readInside]
  rw [hgo]
  dsimp only
  rw [h]

theorem readInside_error {cause : Cause} (hgo : stop? expression brackets chars = none)
    (h : inner (skipSpaces chars) = .error cause) :
    readInside (fuel + 1) expression brackets chars = ({ lexemes := [], last := chars, closed := false }, []) := by
  rw [stop?] at hgo
  simp only [readInside]
  rw [hgo]
  dsimp only
  rw [h]

end

/-- Both readings of a block that is closed: the tokens of the lexer are those of the pieces, and both go on with the
same characters behind the block. -/
structure Closed (expression : Bool) (chars : List Char) (scanned : Tokens) (read : Inside × List Piece) (fuel : Nat)
    (trim : Trim) (behind : List Char) : Prop where
  closed : read.1.closed = true
  row : Row read.1.last read.1.lexemes
  spelled : chars = read.1.chars ++ (closeMark expression ++ behind)
  pieces : read.2 = readOutside fuel behind
  tokens : scanned.tokens = read.1.lexemes.map Lexeme.token ++
    closeToken expression :: (scan fuel (.outside trim) behind).tokens
  cause : scanned.cause? = (scan fuel (.outside trim) behind).cause?
  fuel : behind.length < fuel

/-- **The lexer and the pieces agree on a block**, which ends at its closing mark or with the text. -/
theorem scan_inside {fuel : Nat} {expression : Bool} {brackets : Int} {chars : List Char} (hfuel : chars.length < fuel)
    (hok : (scan fuel (.inside expression brackets) chars).cause? = none) :
    (∃ rest < fuel, ∃ trim behind, Closed expression chars (scan fuel (.inside expression brackets) chars)
      (readInside fuel expression brackets chars) rest trim behind) ∨
    ((readInside fuel expression brackets chars).1.closed = false ∧
      (readInside fuel expression brackets chars).1.chars = chars ∧
      (readInside fuel expression brackets chars).2 = []) := by
  induction fuel generalizing brackets chars with
  | zero => cases hfuel
  | succ fuel ih =>
      cases hstop : stop? expression brackets chars with
      | some stop =>
          obtain ⟨trim, behind⟩ := stop
          obtain ⟨last, hchars, hlast⟩ := stop?_eq hstop
          have hfront : front chars (closeMark expression ++ behind) = last := by rw [hchars, front_of_append]
          have hlength : behind.length < chars.length := by
            rw [hchars]
            cases expression <;> simp [closeMark] <;> omega
          rw [scan_stop hstop, readInside_stop hstop, hfront]
          exact Or.inl ⟨fuel, Nat.lt_succ_self fuel, trim, behind, rfl, .nil hlast, hchars, rfl, rfl, rfl, by omega⟩
      | none =>
          cases hinner : inner (skipSpaces chars) with
          | error cause =>
              rw [readInside_error hstop hinner]
              exact Or.inr ⟨rfl, rfl, rfl⟩
          | ok read =>
              obtain ⟨token, rest⟩ := read
              obtain ⟨blanks, hchars, hblanks⟩ := skipSpaces_eq chars
              obtain ⟨word, hbare, hwritten⟩ := inner_written hinner
              have hlength : rest.length < chars.length := by
                obtain ⟨first, more, hword, -⟩ := hwritten.head
                rw [hchars, hbare, hword]
                simp
                omega
              have hfront : front chars (skipSpaces chars) = blanks :=
                (congrArg (front · (skipSpaces chars)) hchars).trans (front_of_append blanks _)
              have hfrontBare : front (skipSpaces chars) rest = word := by rw [hbare, front_of_append]
              rw [scan_token hstop hinner] at hok ⊢
              rw [readInside_token hstop hinner, hfront, hfrontBare]
              dsimp only
              have hall : ∀ spelled, rest = spelled → chars = blanks ++ (word ++ spelled) := by
                rintro spelled rfl
                rw [← hbare]
                exact hchars
              rcases ih (by omega) hok with ⟨f, hf, trim, behind, h⟩ | ⟨hopen, hspelled, hpieces⟩
              · refine Or.inl ⟨f, by omega, trim, behind, h.closed, .cons hblanks ?_ h.row, ?_, h.pieces, ?_, h.cause, h.fuel⟩
                · exact Written.of_append (h.spelled ▸ hwritten)
                · rw [hall _ h.spelled]
                  simp [Inside.chars, spell]
                · exact congrArg (token :: ·) h.tokens
              · exact Or.inr ⟨hopen, (hall _ hspelled.symm).symm, hpieces⟩

/-! ## What is written outside of blocks -/

/-- The characters of an opening mark. -/
def Opening.mark : Opening → List Char
  | .expression => ['{', '{']
  | .statement => ['{', '%']
  | .comment => ['{', '#']

/-- The opening mark of a block. -/
def Opening.ofBlock (expression : Bool) : Opening := if expression then .expression else .statement

@[simp] theorem Opening.mark_ofBlock (expression : Bool) : (Opening.ofBlock expression).mark = openMark expression := by
  cases expression <;> rfl

theorem eq_of_cutAtOpening (chars : List Char) : chars = (cutAtOpening chars).1 ++
    ((cutAtOpening chars).2.map fun found => found.1.mark ++ found.2).getD [] := by
  fun_induction cutAtOpening chars with
  | case1 | case2 | case3 | case5 => rfl
  | case4 c rest _ _ _ lead found heq ih =>
      rw [heq] at ih
      exact congrArg (c :: ·) ih

/-- Blanks do not open anything. -/
theorem cutAtOpening_trimLeft (chars : List Char) :
    (cutAtOpening (Text.trimLeft chars)).2 = (cutAtOpening chars).2 := by
  induction chars with
  | nil => rfl
  | cons c rest ih =>
      rw [Text.trimLeft, List.dropWhile_cons]
      split
      · rename_i hblank
        have hc : c ≠ '{' := by
          rintro rfl
          revert hblank
          decide
        rw [← Text.trimLeft, ih]
        simp [cutAtOpening, hc]
      · rfl

@[simp] theorem emitData_cause (chars : List Char) (rest : Tokens) : (emitData chars rest).cause? = rest.cause? := by
  unfold emitData
  split <;> rfl

@[simp] theorem emit_cause (token : Token) (rest : Tokens) : (emit token rest).cause? = rest.cause? := rfl

/-- The token of an opening mark. -/
def openToken (expression : Bool) : Token := if expression then .openExpression else .openStatement

/-- A template is read as pieces and as tokens. -/
inductive Reads : List Char → List Piece → Tokens → Prop
  | data {chars lead data : List Char} (hcut : cutAtOpening chars = (lead, none)) :
    Reads chars [.data lead] (emitData data { tokens := [] })
  | comment {chars lead rest inside behind data : List Char} {pieces : List Piece} {tokens : Tokens}
    (hcut : cutAtOpening chars = (lead, some (.comment, rest))) (hrest : rest = inside ++ behind)
    (h : Reads behind pieces tokens) :
    Reads chars (.data lead :: .comment (Opening.mark .comment ++ inside) :: pieces) (emitData data tokens)
  | raw {chars lead rest inside behind data text : List Char} {pieces : List Piece} {tokens : Tokens}
    (hcut : cutAtOpening chars = (lead, some (.statement, rest))) (hrest : rest = inside ++ behind)
    (h : Reads behind pieces tokens) :
    Reads chars (.data lead :: .raw (Opening.mark .statement ++ inside) :: pieces)
      (emitData data (emitData text tokens))
  | closed {chars lead rest sign behind data : List Char} {inside : Inside} {pieces : List Piece} {tokens : Tokens}
    (expression : Bool) (hcut : cutAtOpening chars = (lead, some (Opening.ofBlock expression, rest)))
    (hsign : ∀ c ∈ sign, c = '-' ∨ c = '+') (hclosed : inside.closed = true) (hrow : Row inside.last inside.lexemes)
    (hrest : rest = sign ++ (inside.chars ++ (closeMark expression ++ behind))) (h : Reads behind pieces tokens) :
    Reads chars (.data lead :: .block expression sign inside :: pieces)
      (emitData data { tokens with tokens := openToken expression :: (inside.lexemes.map Lexeme.token ++
        closeToken expression :: tokens.tokens) })
  | unclosed {chars lead rest sign data : List Char} {inside : Inside} {tokens : Tokens} (expression : Bool)
    (hcut : cutAtOpening chars = (lead, some (Opening.ofBlock expression, rest)))
    (hsign : ∀ c ∈ sign, c = '-' ∨ c = '+') (hclosed : inside.closed = false) (hrest : rest = sign ++ inside.chars)
    (hnames : NamesIn inside.chars tokens) :
    Reads chars [.data lead, .block expression sign inside] (emitData data (emit (openToken expression) tokens))

/-- **The lexer reads the pieces**, if there is no fault. -/
theorem scan_reads {fuel : Nat} {trim : Trim} {chars : List Char} (hfuel : chars.length < fuel)
    (hok : (scan fuel (.outside trim) chars).cause? = none) :
    Reads chars (readOutside fuel chars) (scan fuel (.outside trim) chars) := by
  induction fuel using Nat.strong_induction_on generalizing trim chars with
  | _ fuel ih =>
  obtain ⟨fuel, rfl⟩ := Nat.exists_eq_add_one_of_ne_zero (Nat.ne_zero_of_lt hfuel)
  have hfound : (cutAtOpening (if trim = .drop then Text.trimLeft chars else chars)).2 = (cutAtOpening chars).2 := by
    split
    · exact cutAtOpening_trimLeft chars
    · rfl
  revert hok
  unfold scan readOutside
  generalize (if trim = .drop then Text.trimLeft chars else chars) = trimmed at hfound ⊢
  dsimp only
  generalize hcut : cutAtOpening chars = cut at hfound ⊢
  generalize cutAtOpening trimmed = cut' at hfound ⊢
  obtain ⟨lead, found⟩ := cut
  obtain ⟨lead', found'⟩ := cut'
  obtain rfl : found' = found := hfound
  cases found' with
  | none => exact fun _ => .data hcut
  | some found =>
      obtain ⟨opening, rest⟩ := found
      intro hok
      have hlength : rest.length < fuel := by
        have hlead := congrArg List.length (eq_of_cutAtOpening chars)
        rw [hcut] at hlead
        cases opening <;> simp [Opening.mark] at hlead <;> omega
      have hblock (expression : Bool) (hopening : opening = Opening.ofBlock expression) (data : List Char)
          (hok : (scan fuel (.inside expression 0) (takeSign rest).2).cause? = none) :
          Reads chars
            (.data lead :: .block expression (front rest (takeSign rest).2)
              (readInside fuel expression 0 (takeSign rest).2).1 :: (readInside fuel expression 0 (takeSign rest).2).2)
            (emitData data (emit (openToken expression) (scan fuel (.inside expression 0) (takeSign rest).2))) := by
        rw [hopening] at hcut
        obtain ⟨sign, hrest, hsign⟩ := takeSign_eq rest
        have hfront : front rest (takeSign rest).2 = sign :=
          (congrArg (front · (takeSign rest).2) hrest).trans (front_of_append sign _)
        have hinside : (takeSign rest).2.length < fuel := (takeSign_suffix rest).length_le.trans_lt hlength
        rw [hfront]
        rcases scan_inside hinside hok with ⟨f, hf, trim, behind, h⟩ | ⟨hopen, hspelled, hpieces⟩
        · have hbehind := ih f (by omega) h.fuel (h.cause ▸ hok)
          have hscanned : scan fuel (.inside expression 0) (takeSign rest).2 =
              { scan f (.outside trim) behind with
                tokens := (readInside fuel expression 0 (takeSign rest).2).1.lexemes.map Lexeme.token ++
                  closeToken expression :: (scan f (.outside trim) behind).tokens } :=
            congrArg₂ Tokens.mk h.tokens h.cause
          rw [h.pieces, hscanned]
          exact .closed expression hcut hsign h.closed h.row (hrest.trans (congrArg (sign ++ ·) h.spelled)) hbehind
        · rw [hpieces]
          exact .unclosed expression hcut hsign hopen (by rw [hspelled, ← hrest])
            (by rw [hspelled]; exact scan_namesIn _ _ _)
      cases opening with
      | expression => exact hblock true rfl _ (by simpa using hok)
      | comment =>
          dsimp only at hok ⊢
          cases hcomment : cutAtPair '#' '}' (takeSign rest).2 with
          | none => simp [hcomment] at hok
          | some found =>
              obtain ⟨comment, behind⟩ := found
              have hsuffix : behind <:+ rest := (cutAtPair_suffix hcomment).trans (takeSign_suffix rest)
              rw [hcomment, emitData_cause] at hok
              have hbehind := ih fuel (Nat.lt_succ_self fuel) (hsuffix.length_le.trans_lt hlength) hok
              exact .comment hcut (front_append hsuffix).symm hbehind
      | statement =>
          dsimp only at hok ⊢
          cases htag : takeTag "raw" (takeSign rest).2 with
          | none => exact hblock false rfl _ (by simpa [htag] using hok)
          | some found =>
              obtain ⟨trim', text⟩ := found
              cases hraw : takeRaw text with
              | none => simp [htag, hraw] at hok
              | some found =>
                  obtain ⟨raw, last, last', behind⟩ := found
                  have hsuffix : behind <:+ rest :=
                    ((takeRaw_suffix hraw).trans (takeTag_suffix htag)).trans (takeSign_suffix rest)
                  rw [htag, emitData_cause] at hok
                  dsimp only at hok ⊢
                  rw [hraw, emitData_cause] at hok
                  rw [hraw]
                  have hbehind := ih fuel (Nat.lt_succ_self fuel) (hsuffix.length_le.trans_lt hlength) hok
                  exact .raw hcut (front_append hsuffix).symm hbehind

/-- Pieces are what a template is made of. -/
theorem Reads.spell {chars : List Char} {pieces : List Piece} {tokens : Tokens} (h : Reads chars pieces tokens) :
    pieces.flatMap Piece.chars = chars := by
  have hcut {chars lead rest : List Char} {opening : Opening} (h : cutAtOpening chars = (lead, some (opening, rest))) :
      chars = lead ++ (opening.mark ++ rest) := by
    simpa [h] using eq_of_cutAtOpening chars
  induction h with
  | @data chars lead data h => simpa [Piece.chars, h, eq_comm] using eq_of_cutAtOpening chars
  | comment h hrest _ ih | raw h hrest _ ih => simp [Piece.chars, ih, hcut h, hrest]
  | closed expression h _ hclosed _ hrest _ ih => simp [Piece.chars, ih, hcut h, hrest, hclosed]
  | unclosed expression h _ hclosed hrest => simp [Piece.chars, hcut h, hrest, hclosed]

end Lexer

/-- The pieces of a template without faults. -/
theorem Tokens.ofString_reads {text : String} (hok : (Tokens.ofString text).cause? = none) :
    Lexer.Reads text.toList (Lexer.pieces text) (Tokens.ofString text) :=
  Lexer.scan_reads (by omega) hok

end Stencil.Template
