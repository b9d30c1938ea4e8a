import Stencil.Shell.Session
import Stencil.Text.Split

/-!
# Commands that print

The commands of a shell that put out texts: their own arguments, or what is in files or comes from the input.
-/

namespace Stencil.Shell

open Files

/-- The value of octal digits, at most so many. -/
def octal : Nat → Nat → List Char → Nat × List Char
  | 0, n, chars => (n, chars)
  | _ + 1, n, [] => (n, [])
  | k + 1, n, c :: rest =>
    if '0' ≤ c && c ≤ '7' then octal k (n * 8 + (c.toNat - '0'.toNat)) rest else (n, c :: rest)

/-- A text with what backslashes stand for in their place, and whether printing goes on behind it. -/
def unescape : Nat → List Char → List Char × Bool
  | 0, _ => ([], true)
  | _ + 1, [] => ([], true)
  | steps + 1, '\\' :: c :: rest =>
    let andThen (d : Char) (rest : List Char) : List Char × Bool :=
      let (more, goesOn) := unescape steps rest
      (d :: more, goesOn)
    match c with
    | 'n' => andThen '\n' rest
    | 't' => andThen '\t' rest
    | 'r' => andThen '\r' rest
    | 'a' => andThen '\x07' rest
    | 'b' => andThen '\x08' rest
    | 'f' => andThen '\x0c' rest
    | 'v' => andThen '\x0b' rest
    | '\\' => andThen '\\' rest
    | 'c' => ([], false)
    | c =>
      if '0' ≤ c && c ≤ '7' then
        let (n, rest) := if c = '0' then octal 3 0 rest else octal 3 0 (c :: rest)
        andThen (Char.ofNat n) rest
      else
        let (more, goesOn) := andThen c rest
        ('\\' :: more, goesOn)
  | steps + 1, c :: rest =>
    let (more, goesOn) := unescape steps rest
    (c :: more, goesOn)

/-- Puts backslashes in a text into effect. -/
def unescaped (s : String) : String := String.ofList (unescape (s.length + 1) s.toList).1

/-- A text as wide as asked for, at the right unless the width has a minus sign. -/
def padded (width : List Char) (text : String) : String :=
  let digits := width.filter Char.isDigit
  let blanks := String.ofList (List.replicate ((String.ofList digits).toNat?.getD 0 - text.length) ' ')
  if width.head? = some '-' then text ++ blanks else blanks ++ text

/-- A pattern with its arguments put in, and the arguments that are left. -/
def format : Nat → List Char → List String → String × List String
  | 0, _, args => ("", args)
  | _ + 1, [], args => ("", args)
  | steps + 1, '%' :: rest, args =>
    let isWidth (c : Char) : Bool := c.isDigit || c = '-'
    let width := rest.takeWhile isWidth
    match rest.dropWhile isWidth with
    | [] => (String.ofList ('%' :: width), args)
    | c :: rest =>
      let (piece, args) := match c with
        | '%' => ("%", args)
        | 's' => (padded width (args.head?.getD ""), args.drop 1)
        | 'd' => (padded width (args.head?.getD "0"), args.drop 1)
        | 'b' => (unescaped (args.head?.getD ""), args.drop 1)
        | c => (String.ofList ('%' :: width ++ [c]), args)
      let (more, args) := format steps rest args
      (piece ++ more, args)
  | steps + 1, c :: rest, args =>
    let (more, args) := format steps rest args
    (String.singleton c ++ more, args)

/-- A pattern that is used again as long as arguments are left. -/
def formatAll : Nat → String → List String → String
  | 0, _, _ => ""
  | times + 1, pattern, args =>
    let (text, left) := format (pattern.length + 1) pattern.toList args
    if left.isEmpty || left.length = args.length then text else text ++ formatAll times pattern left

/-- Prints the words after it. -/
def echo (args : List String) : Action := fun _ session =>
  let (args, ending) := match args with
    | "-n" :: rest => (rest, "")
    | args => (args, "\n")
  let text := " ".intercalate args
  let (chars, goesOn) := unescape (text.length + 1) text.toList
  (session.exit 0).say (String.ofList chars ++ if goesOn then ending else "")

/-- Prints after a pattern. -/
def printf (args : List String) : Action := fun _ session =>
  match args with
  | [] => session.complain 2 "printf: usage: printf format [arg ...]"
  | pattern :: args => (session.exit 0).say (formatAll (args.length + 1) (unescaped pattern) args)

/-! ## Files and the input -/

/-- Puts together what is in files, or takes the input if there are none; complains about files that cannot be
read. -/
def withInputs (name : String) (paths : List String) (input : ByteArray) (session : Session)
    (act : ByteArray → Session → Session) : Session :=
  if paths.isEmpty then act input (session.exit 0)
  else
    let (bytes, session) := paths.foldl (fun (bytes, session) path =>
      if path = "-" then (bytes ++ input, session)
      else match session.here.read path with
        | .ok more => (bytes ++ more, session)
        | .error fault => (bytes, session.complain 1 (name ++ ": " ++ path ++ ": " ++ fault.message)))
      (ByteArray.empty, session.exit 0)
    let code := session.status
    let after := act bytes session
    if code.isSuccess || !after.status.isSuccess then after else { after with status := code }

/-- Puts out files, or the input. -/
def cat (args : List String) : Action := fun input session =>
  withInputs "cat" (options args).2 input session fun bytes session => session.put bytes

/-- The lines of bytes that are a text. -/
def linesOf (bytes : ByteArray) : List String :=
  let rows := (Text.splitOn '\n' ((String.fromUTF8? bytes).getD "").toList).map String.ofList
  if rows.getLast? = some "" then rows.dropLast else rows

/-- Puts out lines. -/
def sayLines (lines : List String) (session : Session) : Session :=
  session.say (String.join (lines.map (· ++ "\n")))

/-- How many lines are asked for, and the other arguments. -/
def countOption : List String → Nat × List String
  | "-n" :: n :: rest => (n.toNat?.getD 10, rest)
  | arg :: rest =>
    let digits := arg.toList.dropWhile fun c => c = '-' || c = 'n'
    if arg.startsWith "-" && arg.length > 1 then ((String.ofList digits).toNat?.getD 10, rest)
    else (10, arg :: rest)
  | [] => (10, [])

/-- Puts out the first lines. -/
def head (args : List String) : Action := fun input session =>
  let (count, paths) := countOption args
  withInputs "head" paths input session fun bytes => sayLines ((linesOf bytes).take count)

/-- Puts out the last lines. -/
def tail (args : List String) : Action := fun input session =>
  let (count, paths) := countOption args
  withInputs "tail" paths input session fun bytes =>
    let lines := linesOf bytes
    sayLines (lines.drop (lines.length - count))

/-- Counts lines, words or bytes. -/
def wc (args : List String) : Action := fun input session =>
  let (letters, paths) := options args
  let named := String.join (paths.map (" " ++ ·))
  withInputs "wc" paths input session fun bytes session =>
    let count :=
      if letters = ['c'] then bytes.size
      else if letters = ['w'] then
        ((linesOf bytes).flatMap fun line =>
          (Text.splitOn ' ' line.toList).filter (· ≠ [])).length
      else (bytes.toList.filter (· = 10)).length
    session.say (toString count ++ named ++ "\n")

/-- Puts lines in order. -/
def sort (args : List String) : Action := fun input session =>
  let (letters, paths) := options args
  withInputs "sort" paths input session fun bytes =>
    let lines := (linesOf bytes).mergeSort fun a b => !(b < a)
    let lines := if letters.contains 'u' then lines.eraseDups else lines
    sayLines (if letters.contains 'r' then lines.reverse else lines)

/-- Puts out the lines in which a text occurs. -/
def grep (args : List String) : Action := fun input session =>
  let (letters, rest) := options args
  match rest with
  | [] => session.complain 2 "grep: usage"
  | pattern :: paths =>
    let unread := paths.any fun path => path ≠ "-" && !(session.here.read path).toBool
    withInputs "grep" paths input session fun bytes session =>
      let found := (linesOf bytes).filter fun line =>
        ((line.splitOn pattern).length > 1 || pattern.isEmpty) != letters.contains 'v'
      let session := if unread then session.exit 2 else if found.isEmpty then session.exit 1 else session
      if letters.contains 'q' then session
      else if letters.contains 'c' then session.say (toString found.length ++ "\n")
      else sayLines found session

/-- Puts out the input, and writes it to files. -/
def tee (args : List String) : Action := fun input session =>
  let (letters, paths) := options args
  (session.put input).each paths fun session path =>
    let before := if letters.contains 'a' then (session.here.read path).toOption.getD ByteArray.empty
      else ByteArray.empty
    session.take "tee" (session.here.write path (before ++ input))

/-- The characters of a set, in which a range may stand for all that lie between its ends. -/
def charSet : List Char → List Char
  | a :: '-' :: b :: rest =>
    (List.range (b.toNat + 1 - a.toNat)).map (fun i => Char.ofNat (a.toNat + i)) ++ charSet rest
  | c :: rest => c :: charSet rest
  | [] => []

/-- Puts other characters in the place of some, or takes them away. -/
def tr (args : List String) : Action := fun input session =>
  let text := ((String.fromUTF8? input).getD "").toList
  let session := session.exit 0
  match args with
  | ["-d", set] =>
    let set := charSet (unescaped set).toList
    session.say (String.ofList (text.filter fun c => !set.contains c))
  | [set, other] =>
    let set := charSet (unescaped set).toList
    let other := charSet (unescaped other).toList
    session.say (String.ofList (text.map fun c =>
      match set.idxOf? c with
      | some i => (other[i]?.or other.getLast?).getD c
      | none => c))
  | _ => session.complain 1 "tr: usage"

end Stencil.Shell
