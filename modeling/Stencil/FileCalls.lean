import Stencil.Text.Blank
import Stencil.Text.Word

/-!
# Whether a text asks for files

Before a template is printed instead of written, its text is searched for calls of `toFile`. The search
is textual. A block starts at an opening mark and ends at the first closing mark of its kind; inside, a
call is the name, not as the end of a longer one, with an opening parenthesis behind it and nothing but
blanks in between.
-/

namespace Stencil

namespace FileCalls

/-- The name of the function that writes files. -/
def name : List Char := "toFile".toList

/-- What is behind the first place where two characters stand, and what comes before it. -/
def cutAtPair? (a b : Char) : List Char → Option (List Char × List Char)
  | c :: d :: rest =>
    if c = a && d = b then some ([], rest)
    else (cutAtPair? a b (d :: rest)).map fun (before, after) => (c :: before, after)
  | _ => none

/-- The insides of the blocks of a text. A mark that nothing closes opens no block. -/
def blocks : Nat → List Char → List (List Char)
  | 0, _ => []
  | _ + 1, [] => []
  | fuel + 1, c :: rest =>
    let close? := match c, rest with
      | '{', '{' :: _ => some '}'
      | '{', '%' :: _ => some '%'
      | _, _ => none
    match close?.bind fun close => cutAtPair? close '}' (rest.drop 1) with
    | some (inside, after) => inside :: blocks fuel after
    | none => blocks fuel rest

/-- Whether a call starts in a row of characters, given whether a word goes on at its front. -/
def hasCall : Bool → List Char → Bool
  | _, [] => false
  | inWord, c :: rest =>
    (!inWord && name.isPrefixOf (c :: rest)
      && (Text.trimLeft ((c :: rest).drop name.length)).head? == some '(')
    || hasCall (Text.isWordChar c) rest

end FileCalls

/-- Whether a text asks for files. -/
def asksForFiles (text : String) : Bool :=
  let chars := text.toList
  (FileCalls.blocks (chars.length + 1) chars).any (FileCalls.hasCall false)

end Stencil
