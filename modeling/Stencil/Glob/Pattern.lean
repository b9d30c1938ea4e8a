/-!
# Patterns of paths

A pattern is text with holes: `?` is one character, `*` any number of them, `[a-z]` one of a class and
`{a,b}` one of several patterns. Slashes are characters like any others; only a double star between
slashes, or between a slash and an end, stands for whole directories.
-/

namespace Stencil.Glob

/-- A piece of a pattern. -/
inductive Piece where
  | literal (c : Char)
  /-- One character. -/
  | any
  /-- Any number of characters. -/
  | star
  /-- Any directories in front. -/
  | leading
  /-- Anything below a directory. -/
  | trailing
  /-- Any directories in between. -/
  | between
  /-- One character of a class, or one outside of it. -/
  | oneOf (negated : Bool) (ranges : List (Char × Char))
  | alternatives (branches : List (List Piece))
  deriving Inhabited

/-- Why a text is not a pattern. -/
inductive Fault where
  | unclosedClass
  | reversedRange (low high : Char)
  | unopenedGroup
  | unclosedGroup
  deriving DecidableEq, Inhabited

/-- What is wrong with a pattern, in words. -/
def Fault.message : Fault → String
  | .unclosedClass => "unclosed character class; missing ']'"
  | .reversedRange low high => s!"invalid range; '{low}' > '{high}'"
  | .unopenedGroup =>
    "unopened alternate group; missing '\x7b' (maybe escape '\x7d' with '[\x7d]'?)"
  | .unclosedGroup =>
    "unclosed alternate group; missing '\x7d' (maybe escape '\x7b' with '[\x7b]'?)"

/-- The ranges of a class up to its closing bracket. A bracket that comes first belongs to the class,
and so does a hyphen that comes first or last. -/
def classRanges : List Char → Bool → Bool → List (Char × Char) →
    Except Fault (List (Char × Char) × List Char)
  | [], _, _, _ => .error .unclosedClass
  | c :: rest, first, inRange, ranges =>
    let extend : Except Fault (List (Char × Char) × List Char) :=
      match ranges with
      | (low, _) :: before =>
        if c < low then .error (.reversedRange low c)
        else classRanges rest false false ((low, c) :: before)
      | [] => classRanges rest false false [(c, c)]
    if c = ']' && !first then
      .ok ((if inRange then ('-', '-') :: ranges else ranges).reverse, rest)
    else if inRange then extend
    else if c = '-' && !first then classRanges rest false true ranges
    else classRanges rest false false ((c, c) :: ranges)

/-- The groups that are open, the innermost first: each with its branches, the last one first, and
the pieces of a branch with the last one first. The pattern itself is a group of one branch. -/
abbrev Stack := List (List (List Piece))

/-- Adds a piece to the branch that is being read. -/
def Stack.push (piece : Piece) : Stack → Stack
  | (branch :: branches) :: groups => ((piece :: branch) :: branches) :: groups
  | stack => stack

/-- The pieces of the branch that is being read, the last one first. -/
def Stack.branch : Stack → List Piece
  | (branch :: _) :: _ => branch
  | _ => []

/-- Takes the last piece of the branch away. -/
def Stack.pop : Stack → Stack
  | ((_ :: branch) :: branches) :: groups => (branch :: branches) :: groups
  | stack => stack

/-- Whether a character may stand next to a double star that stands for directories: a slash or the
end, and within a group its comma or its brace. -/
def endsSuffix (inGroup : Bool) : Option Char → Bool
  | none => true
  | some c => inGroup && (c = ',' || c = '}')

/-- What the second of two stars makes of them, given the character before the first one and the text
behind. -/
def doubleStar (before : Option Char) (stack : Stack) (rest : List Char) : Stack × List Char :=
  let stars := ((stack.push .star).push .star, rest)
  let inGroup := 1 < stack.length
  if stack.branch.isEmpty then
    match rest with
    | [] => (stack.push .leading, [])
    | c :: after => if c = '/' then (stack.push .leading, after) else stars
  else if before ≠ some '/' && !(inGroup && (before = some ',' || before = some '{')) then stars
  else
    let replace (piece : Piece) : Stack :=
      match stack.branch with
      | .leading :: _ => stack
      | .trailing :: _ => stack
      | _ => stack.pop.push piece
    if endsSuffix inGroup rest.head? then (replace .trailing, rest)
    else match rest with
      | '/' :: after => (replace .between, after)
      | _ => stars

/-- Reads pieces up to the end. The first argument is the character before. -/
def pieces : Nat → Option Char → Stack → List Char → Except Fault Stack
  | 0, _, stack, _ => .ok stack
  | _ + 1, _, stack, [] => .ok stack
  | fuel + 1, before, stack, c :: rest =>
    match c with
    | '?' => pieces fuel (some c) (stack.push .any) rest
    | '*' =>
      match rest with
      | '*' :: rest =>
        let (stack, after) := doubleStar before stack rest
        pieces fuel (if after.length < rest.length then some '/' else some '*') stack after
      | _ => pieces fuel (some c) (stack.push .star) rest
    | '[' =>
      let (negated, rest) := match rest with
        | '!' :: rest => (true, rest)
        | '^' :: rest => (true, rest)
        | rest => (false, rest)
      match classRanges rest true false [] with
      | .error fault => .error fault
      | .ok (ranges, rest) => pieces fuel (some ']') (stack.push (.oneOf negated ranges)) rest
    | '{' => pieces fuel (some c) ([[]] :: stack) rest
    | '}' =>
      match stack with
      | branches :: group :: groups =>
        let piece := Piece.alternatives (branches.map List.reverse).reverse
        pieces fuel (some c) (Stack.push piece (group :: groups)) rest
      | _ => .error .unopenedGroup
    | ',' =>
      match stack with
      | branches :: group :: groups => pieces fuel (some c) (([] :: branches) :: group :: groups) rest
      | _ => pieces fuel (some c) (stack.push (.literal ',')) rest
    | _ => pieces fuel (some c) (stack.push (.literal c)) rest

/-- Reads a pattern. -/
def parse (text : String) : Except Fault (List Piece) :=
  let chars := text.toList
  match pieces (chars.length + 1) none [[[]]] chars with
  | .error fault => .error fault
  | .ok [[branch]] => .ok branch.reverse
  | .ok _ => .error .unclosedGroup

end Stencil.Glob
