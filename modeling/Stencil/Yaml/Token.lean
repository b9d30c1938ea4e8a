import Stencil.Yaml.Cursor

/-!
# Tokens of a YAML stream

Besides the marks that are written there are tokens for the start and the end of a block, which only
indentation shows. This file has the tokens and the reading of those that hold text; the order in
which tokens come is found in `Stencil.Yaml.Lexer`.

Within a scalar of several lines a single line end counts as a blank, and further line ends count as
themselves (`fold`).
-/

namespace Stencil.Yaml

/-- How a scalar was written, as far as its meaning depends on it. -/
inductive Notation where
  | plain
  | quoted
  | literal
  | folded
  deriving DecidableEq, Inhabited

/-- A token. -/
inductive Token where
  | streamEnd
  | versionDirective (major minor : Nat)
  | tagDirective (handle uri : String)
  | documentStart
  | documentEnd
  | blockSequenceStart
  | blockMappingStart
  | blockEnd
  | flowSequenceStart
  | flowSequenceEnd
  | flowMappingStart
  | flowMappingEnd
  | blockEntry
  | flowEntry
  | key
  | value
  | alias (name : String)
  | anchor (name : String)
  | tag (handle suffix : String)
  | scalar (written : Notation) (text : String)
  deriving DecidableEq, Inhabited

/-- The blanks and line ends between two parts of a scalar. -/
structure Gap where
  /-- The blanks, if no line ends here. -/
  blanks : List Char := []
  /-- The first line end, unless it was escaped. -/
  first : Option Char := none
  /-- The further line ends. -/
  further : List Char := []
  /-- Whether a line ends here. -/
  lineEnds : Bool := false

/-- What a gap stands for. -/
def Gap.fold (gap : Gap) : List Char :=
  if gap.lineEnds then
    match gap.first with
    | some '\n' => if gap.further.isEmpty then [' '] else gap.further
    | some c => c :: gap.further
    | none => gap.further
  else gap.blanks

/-- Reads blanks and line ends. Fails on a tab in the indentation of a line, left of `tabLimit`. -/
def Gap.scan? (tabLimit : Int) : Nat → Gap → Cursor → Option (Gap × Cursor)
  | 0, gap, cursor => some (gap, cursor)
  | fuel + 1, gap, cursor =>
    match cursor.peek? with
    | none => some (gap, cursor)
    | some c =>
      if isBlank c then
        if gap.lineEnds then
          if c = '\t' && (cursor.column : Int) < tabLimit then none
          else Gap.scan? tabLimit fuel gap (cursor.skip 1)
        else Gap.scan? tabLimit fuel { gap with blanks := gap.blanks ++ [c] } (cursor.skip 1)
      else
        match cursor.lineEnd? with
        | none => some (gap, cursor)
        | some (c, next) =>
          if gap.lineEnds then
            Gap.scan? tabLimit fuel { gap with further := gap.further ++ [c] } next
          else
            Gap.scan? tabLimit fuel { gap with blanks := [], first := some c, lineEnds := true } next

/-! ## Plain scalars -/

/-- Whether a plain scalar stops before the next character. -/
def stopsPlain (inFlow : Bool) (cursor : Cursor) : Bool :=
  (cursor.isAt ':' && isBlankOrEnd (cursor.peekAt? 1))
    || (inFlow && (match cursor.peek? with
      | some c => ",[]\x7b\x7d".toList.contains c
      | none => false))

/-- Whether a colon stands before a mark of flow notation, which is an error inside it. -/
def isStrayColon (inFlow : Bool) (cursor : Cursor) : Bool :=
  inFlow && cursor.isAt ':' && (match cursor.peekAt? 1 with
    | some c => ",?[]\x7b\x7d".toList.contains c
    | none => false)

/-- The characters of a plain scalar up to a blank, a line end or a mark. -/
def plainWord? (inFlow : Bool) : Nat → List Char → Cursor → Option (List Char × Cursor)
  | 0, acc, cursor => some (acc, cursor)
  | fuel + 1, acc, cursor =>
    match cursor.peek? with
    | none => some (acc, cursor)
    | some c =>
      if isBlankOrEnd (some c) then some (acc, cursor)
      else if isStrayColon inFlow cursor then none
      else if stopsPlain inFlow cursor then some (acc, cursor)
      else plainWord? inFlow fuel (c :: acc) (cursor.skip 1)

/-- The words of a plain scalar, the last character first. The flag says whether a line ended after
the last of them. -/
def plainWords? (inFlow : Bool) (indent : Int) :
    Nat → List Char → Gap → Cursor → Option (List Char × Bool × Cursor)
  | 0, acc, gap, cursor => some (acc, gap.lineEnds, cursor)
  | fuel + 1, acc, gap, cursor =>
    if cursor.isDocumentMarker || cursor.isAt '#' then some (acc, gap.lineEnds, cursor)
    else
      match plainWord? inFlow (cursor.rest.length + 1) [] cursor with
      | none => none
      | some (word, next) =>
        let acc := if word.isEmpty then acc else word ++ gap.fold.reverse ++ acc
        let gap := if word.isEmpty then gap else {}
        match next.peek? with
        | none => some (acc, gap.lineEnds, next)
        | some c =>
          if !(isBlank c || isBreak c) then some (acc, gap.lineEnds, next)
          else
            match Gap.scan? indent (next.rest.length + 1) gap next with
            | none => none
            | some (gap, next) =>
              if !inFlow && (next.column : Int) < indent then some (acc, gap.lineEnds, next)
              else plainWords? inFlow indent fuel acc gap next

/-- Reads a plain scalar; its further lines have to be indented. Says too whether a line ended
after it. -/
def plainScalar? (inFlow : Bool) (indent : Int) (cursor : Cursor) :
    Option (String × Bool × Cursor) :=
  (plainWords? inFlow indent (cursor.rest.length + 1) [] {} cursor).map
    fun (acc, lineEnded, next) => (String.ofList acc.reverse, lineEnded, next)

/-! ## Quoted scalars -/

/-- The character that an escape of one letter stands for. -/
def escape? (c : Char) : Option Char :=
  match c with
  | '0' => some '\x00'
  | 'a' => some '\x07'
  | 'b' => some '\x08'
  | 't' => some '\t'
  | '\t' => some '\t'
  | 'n' => some '\n'
  | 'v' => some '\x0b'
  | 'f' => some '\x0c'
  | 'r' => some '\r'
  | 'e' => some '\x1b'
  | ' ' => some ' '
  | '"' => some '"'
  | '/' => some '/'
  | '\\' => some '\\'
  | 'N' => some '\u0085'
  | '_' => some '\u00a0'
  | 'L' => some '\u2028'
  | 'P' => some '\u2029'
  | _ => none

/-- How many digits follow an escape letter. -/
def escapeWidth? (c : Char) : Option Nat :=
  match c with
  | 'x' => some 2
  | 'u' => some 4
  | 'U' => some 8
  | _ => none

/-- The value of a hexadecimal digit. -/
def hexDigit? (c : Char) : Option Nat :=
  if '0' ≤ c && c ≤ '9' then some (c.toNat - 48)
  else if 'a' ≤ c && c ≤ 'f' then some (c.toNat - 87)
  else if 'A' ≤ c && c ≤ 'F' then some (c.toNat - 55)
  else none

/-- The number that hexadecimal digits stand for. -/
def hexNumber? (chars : List Char) : Option Nat :=
  chars.foldl (fun acc c => do some ((← acc) * 16 + (← hexDigit? c))) (some 0)

/-- Reads an escape behind its backslash. -/
def escaped? (cursor : Cursor) : Option (Char × Cursor) := do
  let c ← cursor.peek?
  match escape? c with
  | some value => some (value, cursor.skip 1)
  | none =>
    let width ← escapeWidth? c
    let digits := (cursor.rest.drop 1).take width
    if digits.length ≠ width then none
    else
      let n ← hexNumber? digits
      if (0xd800 ≤ n && n ≤ 0xdfff) || 0x10ffff < n then none
      else some (Char.ofNat n, cursor.skip (1 + width))

/-- The characters inside quotes up to a blank, a line end or the closing quote. The flag says
whether an escaped line end came. -/
def quotedWord? (single : Bool) : Nat → List Char → Cursor → Option (List Char × Bool × Cursor)
  | 0, acc, cursor => some (acc, false, cursor)
  | fuel + 1, acc, cursor =>
    match cursor.peek? with
    | none => some (acc, false, cursor)
    | some c =>
      if isBlankOrEnd (some c) then some (acc, false, cursor)
      else if single && c = '\'' && cursor.peekAt? 1 == some '\'' then
        quotedWord? single fuel ('\'' :: acc) (cursor.skip 2)
      else if c = (if single then '\'' else '"') then some (acc, false, cursor)
      else if !single && c = '\\' then
        let after := cursor.skip 1
        match after.lineEnd? with
        | some (_, next) => some (acc, true, next)
        | none =>
          match escaped? after with
          | none => none
          | some (value, next) => quotedWord? single fuel (value :: acc) next
      else quotedWord? single fuel (c :: acc) (cursor.skip 1)

/-- The words inside quotes up to the closing quote, the last character first. -/
def quotedWords? (single : Bool) : Nat → List Char → Cursor → Option (List Char × Cursor)
  | 0, _, _ => none
  | fuel + 1, acc, cursor =>
    if cursor.isDocumentMarker || cursor.rest.isEmpty then none
    else
      match quotedWord? single (cursor.rest.length + 1) acc cursor with
      | none => none
      | some (acc, lineEscaped, next) =>
        if next.isAt (if single then '\'' else '"') then some (acc, next.skip 1)
        else
          match Gap.scan? 0 (next.rest.length + 1) { lineEnds := lineEscaped } next with
          | none => none
          | some (gap, next) => quotedWords? single fuel (gap.fold.reverse ++ acc) next

/-- Reads a scalar in single or double quotes. -/
def quotedScalar? (single : Bool) (cursor : Cursor) : Option (String × Cursor) :=
  (quotedWords? single (cursor.rest.length + 1) [] (cursor.skip 1)).map
    fun (acc, next) => (String.ofList acc.reverse, next)

/-! ## Block scalars -/

/-- What becomes of the line ends at the end of a block scalar. -/
inductive Chomping where
  | strip
  | clip
  | keep
  deriving DecidableEq

/-- The mark behind the bar that says what becomes of the line ends. -/
def chomping? (cursor : Cursor) : Option (Chomping × Cursor) :=
  if cursor.isAt '+' then some (.keep, cursor.skip 1)
  else if cursor.isAt '-' then some (.strip, cursor.skip 1)
  else none

/-- The digit behind the bar that says how far the block is indented; none is zero. -/
def blockIncrement? (cursor : Cursor) : Option (Nat × Cursor) :=
  match cursor.peek? with
  | some c =>
    if '0' ≤ c && c ≤ '9' then if c = '0' then none else some (c.toNat - 48, cursor.skip 1)
    else some (0, cursor)
  | none => some (0, cursor)

/-- Both marks behind the bar, in either order. -/
def blockHeader? (cursor : Cursor) : Option (Chomping × Nat × Cursor) :=
  match chomping? cursor with
  | some (chomping, next) => do
    let (increment, next) ← blockIncrement? next
    some (chomping, increment, next)
  | none => do
    let (increment, next) ← blockIncrement? cursor
    match (if increment = 0 then none else chomping? next) with
    | some (chomping, next) => some (chomping, increment, next)
    | none => some (.clip, increment, next)

/-- The line ends and the indentation before the next line that is not empty, and the largest
indentation among them. An indentation of zero is still to be found. -/
def blockBreaks? (indent : Int) :
    Nat → List Char → Nat → Cursor → Option (List Char × Nat × Cursor)
  | 0, _, _, _ => none
  | fuel + 1, breaks, most, cursor =>
    let room := cursor.rest.takeWhile (· = ' ')
    let taken := if indent = 0 then room.length else min room.length (indent.toNat - cursor.column)
    let cursor := cursor.skip taken
    let most := max most cursor.column
    if (indent = 0 || (cursor.column : Int) < indent) && cursor.isAt '\t' then none
    else
      match cursor.lineEnd? with
      | some (c, next) => blockBreaks? indent fuel (breaks ++ [c]) most next
      | none => some (breaks, most, cursor)

/-- A line of a block scalar, without its end. -/
def blockLine (cursor : Cursor) : List Char × Cursor :=
  cursor.span fun c => !isBreakOrEnd (some c)

/-- The lines of a block scalar, the last character first, with the line ends that are still open:
the one after the last line and the empty lines behind it. -/
def blockLines? (literal : Bool) (indent : Int) :
    Nat → List Char → Option Char → Bool → List Char → Cursor →
      Option (List Char × Option Char × List Char × Cursor)
  | 0, _, _, _, _, _ => none
  | fuel + 1, acc, leading, leadingBlank, trailing, cursor =>
    if (cursor.column : Int) = indent && !cursor.rest.isEmpty then
      let startsBlank := match cursor.peek? with
        | some c => isBlank c
        | none => false
      let joint : List Char :=
        if !literal && leading == some '\n' && !leadingBlank && !startsBlank then
          if trailing.isEmpty then [' '] else []
        else leading.toList
      let (line, next) := blockLine cursor
      let acc := line.reverse ++ (joint ++ trailing).reverse ++ acc
      let (leading, next) := match next.lineEnd? with
        | some (c, next) => (some c, next)
        | none => (none, next)
      match blockBreaks? indent (next.rest.length + 2) [] 0 next with
      | none => none
      | some (trailing, _, next) => blockLines? literal indent fuel acc leading startsBlank trailing next
    else some (acc, leading, trailing, cursor)

/-- Reads a literal or folded scalar from its bar or angle on. The indentation is that of the block
around it. -/
def blockScalar? (literal : Bool) (outer : Int) (cursor : Cursor) : Option (String × Cursor) := do
  let (chomping, increment, cursor) ← blockHeader? (cursor.skip 1)
  let cursor := cursor.skipWhile isBlank
  let cursor :=
    if cursor.isAt '#' then cursor.skipWhile fun c => !isBreakOrEnd (some c) else cursor
  if !isBreakOrEnd cursor.peek? then none
  else
    let cursor := cursor.skipLineEnd
    let given : Int :=
      if increment = 0 then 0 else if 0 ≤ outer then outer + increment else increment
    let (breaks, most, cursor) ← blockBreaks? given (cursor.rest.length + 2) [] 0 cursor
    let indent : Int := if given = 0 then max (max most (outer + 1)) 1 else given
    let (acc, leading, trailing, cursor) ←
      blockLines? literal indent (cursor.rest.length + 2) [] none false breaks cursor
    let acc := if chomping = .strip then acc else leading.toList ++ acc
    let acc := if chomping = .keep then trailing.reverse ++ acc else acc
    some (String.ofList acc.reverse, cursor)

/-! ## Names, tags and directives -/

/-- Reads the name of an anchor or an alias behind its mark. -/
def anchorName? (cursor : Cursor) : Option (String × Cursor) :=
  let (name, next) := (cursor.skip 1).span isNameChar
  let ended := isBlankOrEnd next.peek? || (match next.peek? with
    | some c => "?:,]\x7d%@\x60".toList.contains c
    | none => false)
  if name.isEmpty || !ended then none else some (String.ofList name, next)

/-- Characters of a tag; the flow marks only in a tag between angles or in a directive. -/
def isTagChar (anywhere : Bool) (c : Char) : Bool :=
  isNameChar c || ";/?:@&=+$.!~*'()%".toList.contains c || (anywhere && ",[]".toList.contains c)

/-- The bytes of escapes of two digits behind percent signs, at least one. -/
def percentBytes : Nat → List Char → List Nat × List Char
  | 0, chars => ([], chars)
  | fuel + 1, chars =>
    match chars with
    | '%' :: a :: b :: rest =>
      match hexNumber? [a, b] with
      | some n =>
        let (bytes, rest) := percentBytes fuel rest
        (n :: bytes, rest)
      | none => ([], chars)
    | _ => ([], chars)

/-- Undoes the escapes in the text of a tag. -/
def unescapeTag? : Nat → List Char → Option (List Char)
  | 0, _ => some []
  | fuel + 1, chars =>
    match chars with
    | [] => some []
    | '%' :: _ => do
      let (bytes, rest) := percentBytes (chars.length) chars
      if bytes.isEmpty then none
      else
        let text ← String.fromUTF8? (ByteArray.mk (bytes.map (fun n => n.toUInt8)).toArray)
        let more ← unescapeTag? fuel rest
        some (text.toList ++ more)
    | c :: rest => do
      let more ← unescapeTag? fuel rest
      some (c :: more)

/-- Reads the text of a tag; one that starts with other characters already may be empty. -/
def tagUri? (anywhere mayBeEmpty : Bool) (cursor : Cursor) : Option (String × Cursor) := do
  let (chars, next) := cursor.span (isTagChar anywhere)
  if chars.isEmpty && !mayBeEmpty then none
  else
    let text ← unescapeTag? (chars.length + 1) chars
    some (String.ofList text, next)

/-- Reads the handle of a tag: an exclamation mark, with a name and another one behind it or not. -/
def tagHandle? (cursor : Cursor) : Option (String × Cursor) :=
  if cursor.isAt '!' then
    let (name, next) := (cursor.skip 1).span isNameChar
    if next.isAt '!' then some (String.ofList ('!' :: name ++ ['!']), next.skip 1)
    else some (String.ofList ('!' :: name), next)
  else none

/-- Reads a tag. -/
def tag? (inFlow : Bool) (cursor : Cursor) : Option (Token × Cursor) := do
  let (token, next) ←
    if cursor.peekAt? 1 == some '<' then
      match tagUri? true false (cursor.skip 2) with
      | some (uri, next) =>
        if next.isAt '>' then some (Token.tag "" uri, next.skip 1) else none
      | none => none
    else
      match tagHandle? cursor with
      | some (handle, next) =>
        if 2 ≤ handle.length && handle.endsWith "!" then
          (tagUri? false false next).map fun (suffix, next) => (Token.tag handle suffix, next)
        else
          (tagUri? false true next).map fun (suffix, next) =>
            let suffix := String.ofList (handle.toList.drop 1) ++ suffix
            (if suffix.isEmpty then Token.tag "" "!" else Token.tag "!" suffix, next)
      | none => none
  if isBlankOrEnd next.peek? || (inFlow && next.isAt ',') then some (token, next) else none

/-- Reads a number of at most nine digits. -/
def versionNumber? (cursor : Cursor) : Option (Nat × Cursor) :=
  let (digits, next) := cursor.span fun c => '0' ≤ c && c ≤ '9'
  if digits.isEmpty || 9 < digits.length then none
  else some (digits.foldl (fun n c => 10 * n + (c.toNat - 48)) 0, next)

/-- Reads a directive and the rest of its line. -/
def directive? (cursor : Cursor) : Option (Token × Cursor) := do
  let (name, next) := (cursor.skip 1).span isNameChar
  if name.isEmpty || !isBlankOrEnd next.peek? then none
  else
    let next := next.skipWhile isBlank
    let (token, next) ←
      if name = "YAML".toList then
        match versionNumber? next with
        | some (major, next) =>
          if next.isAt '.' then
            (versionNumber? (next.skip 1)).map fun (minor, next) =>
              (Token.versionDirective major minor, next)
          else none
        | none => none
      else if name = "TAG".toList then
        match tagHandle? next with
        | some (handle, next) =>
          if (handle = "!" || handle.endsWith "!")
              && (match next.peek? with | some c => isBlank c | none => false) then
            match tagUri? true false (next.skipWhile isBlank) with
            | some (uri, next) =>
              if isBlankOrEnd next.peek? then some (Token.tagDirective handle uri, next) else none
            | none => none
          else none
        | none => none
      else none
    let next := next.skipWhile isBlank
    let next :=
      if next.isAt '#' then next.skipWhile fun c => !isBreakOrEnd (some c) else next
    if isBreakOrEnd next.peek? then some (token, next.skipLineEnd) else none

end Stencil.Yaml
