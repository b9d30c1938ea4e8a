import Stencil.Glob.Pattern

/-!
# Matching paths

Paths are matched byte by byte, so `?` and a class take one byte of a character that has several. What
a row of pieces leaves of a text is the set of all possible rests; the pattern matches if nothing is
among them. Keeping sets instead of trying one way after the other bounds the work by the length of
the text.

A path that ends in a dot counts as having no name of its own. A pattern that only asks for the name,
or for its ending, does not match such a path.
-/

namespace Stencil.Glob

/-- The bytes of a character. -/
def charBytes (c : Char) : List UInt8 := (String.singleton c).toUTF8.toList

/-- The bytes that a class stands for: those of a single character one by one, and for a range the
bytes from the last one of its low end to the first one of its high end. -/
def classBytes (ranges : List (Char × Char)) : List (UInt8 × UInt8) :=
  ranges.flatMap fun (low, high) =>
    if low = high then (charBytes low).map fun b => (b, b)
    else
      let below := charBytes low
      let above := charBytes high
      (below.dropLast.map fun b => (b, b)) ++ (above.drop 1).map (fun b => (b, b))
        ++ match below.getLast?, above.head? with
          | some a, some b => [(a, b)]
          | _, _ => []

/-- Whether a byte belongs to a class. -/
def inClass (negated : Bool) (ranges : List (Char × Char)) (b : UInt8) : Bool :=
  ((classBytes ranges).any fun (low, high) => low ≤ b && b ≤ high) != negated

/-- The rests of a text, the longest first. -/
abbrev Rests := List (List UInt8)

/-- Adds a rest, one of each length, the longest first. -/
def Rests.add (rest : List UInt8) : Rests → Rests
  | [] => [rest]
  | other :: more =>
    if other.length < rest.length then rest :: other :: more
    else if other.length = rest.length then other :: more
    else other :: Rests.add rest more

/-- All rests of either set. -/
def Rests.union (a b : Rests) : Rests := a.foldl (fun rests rest => rests.add rest) b

/-- The ends of a text, the longest first. -/
def tails : List UInt8 → Rests
  | [] => [[]]
  | b :: rest => (b :: rest) :: tails rest

/-- The rests behind each slash in a text. -/
def behindSlashes : List UInt8 → Rests
  | [] => []
  | b :: rest => if b = 0x2f then rest :: behindSlashes rest else behindSlashes rest

/-- What is left behind given bytes at the front. -/
def dropFront : List UInt8 → List UInt8 → Option (List UInt8)
  | [], rest => some rest
  | _ :: _, [] => none
  | a :: more, b :: rest => if a = b then dropFront more rest else none

mutual

/-- Whether a piece is nothing at all, which only a group without any branch can be. -/
def Piece.isVoid : Piece → Bool
  | .alternatives branches => areVoid branches
  | _ => false

/-- Whether every branch of a group is nothing at all. -/
def areVoid : List (List Piece) → Bool
  | [] => true
  | branch :: rest => isVoidBranch branch && areVoid rest

/-- Whether a branch is nothing at all. -/
def isVoidBranch : List Piece → Bool
  | [] => true
  | piece :: rest => piece.isVoid && isVoidBranch rest

end

mutual

/-- What a piece can leave of the rests of a text. -/
def Piece.rests : Piece → Rests → Rests
  | .literal c, starts => starts.filterMap (dropFront (charBytes c))
  | .any, starts => starts.filterMap fun
    | _ :: rest => some rest
    | [] => none
  | .star, starts => (starts.head?.map tails).getD []
  | .leading, starts => starts.foldl (fun rests start =>
      Rests.union (behindSlashes start) (rests.add start)) []
  | .trailing, starts => (starts.filterMap (dropFront [0x2f])).head?.map tails |>.getD []
  | .between, starts =>
    (starts.filterMap (dropFront [0x2f])).foldl (fun rests start =>
      Rests.union (behindSlashes start) (rests.add start)) []
  | .oneOf negated ranges, starts => starts.filterMap fun
    | b :: rest => if inClass negated ranges b then some rest else none
    | [] => none
  | .alternatives branches, starts =>
    if areVoid branches then starts else branchRests branches starts

/-- What the branches of a group can leave; a branch that is nothing at all is not one. -/
def branchRests : List (List Piece) → Rests → Rests
  | [], _ => []
  | branch :: more, starts =>
    if isVoidBranch branch then branchRests more starts
    else Rests.union (rowRests branch starts) (branchRests more starts)

/-- What a row of pieces can leave. -/
def rowRests : List Piece → Rests → Rests
  | [], starts => starts
  | piece :: more, starts => rowRests more (piece.rests starts)

end

/-- The characters of pieces that are all literal. -/
def literals? (pieces : List Piece) : Option (List Char) :=
  pieces.mapM fun
    | .literal c => some c
    | _ => none

/-- Whether a pattern is a name below any directories. -/
def asksForName : List Piece → Bool
  | .leading :: piece :: rest =>
    match literals? (piece :: rest) with
    | some chars => !chars.contains '/'
    | none => false
  | _ => false

/-- Whether a pattern is any name with an ending of one point. -/
def asksForEnding (pieces : List Piece) : Bool :=
  let pieces := match pieces with
    | .leading :: rest => rest
    | _ => pieces
  match pieces with
  | .star :: .literal '.' :: rest =>
    match literals? rest with
    | some chars => !chars.contains '.' && !chars.contains '/'
    | none => false
  | _ => false

/-- Whether a pattern is literal but for what stands at its start or at its end. -/
def isAlmostLiteral (pieces : List Piece) : Bool :=
  let isStar : Piece → Bool
    | .star => true
    | _ => false
  let isLiteral (pieces : List Piece) : Bool :=
    match literals? pieces with
    | some chars => !chars.isEmpty
    | none => false
  let front := match pieces.getLast? with
    | some .star => isLiteral pieces.dropLast
    | some .trailing => (literals? pieces.dropLast).isSome
    | _ => isLiteral pieces
  let back := match pieces with
    | .leading :: .literal _ :: rest => (literals? rest).isSome
    | .leading :: rest => isLiteral (if rest.head?.any isStar then rest.drop 1 else rest)
    | _ =>
      match literals? (if pieces.head?.any isStar then pieces.drop 1 else pieces) with
      | some chars => !chars.isEmpty && chars ≠ ['/']
      | none => false
  front || back

/-- Whether a pattern ends in a literal ending of one point. -/
def endsInEnding (pieces : List Piece) : Bool :=
  let rec scan : List Piece → Bool
    | .literal c :: rest => if c = '.' then true else if c = '/' then false else scan rest
    | _ => false
  scan pieces.reverse

/-- Whether a pattern matches by name only, so that a path without a name cannot match. -/
def needsName (pieces : List Piece) : Bool :=
  asksForName pieces
    || ((literals? pieces).isNone && (asksForEnding pieces
      || (!isAlmostLiteral pieces && endsInEnding pieces)))

/-- Whether a pattern matches the whole of a path. -/
def isMatch (pieces : List Piece) (path : String) : Bool :=
  let bytes := path.toUTF8.toList
  let whole := match pieces with
    | [.leading] => true
    | _ => (rowRests pieces [bytes]).contains []
  whole && !(needsName pieces && bytes.getLast? == some 0x2e)

end Stencil.Glob
