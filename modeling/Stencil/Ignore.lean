import Stencil.Glob.Match
import Stencil.Path
import Stencil.Text.Blank

/-!
# Ignored paths

Patterns are relative to a base directory. A path is ignored if it, or a directory above it and below
the base, matches one of them: ignoring a directory ignores all that is inside. The base itself and
paths elsewhere are never ignored.

Patterns are tidied first: blanks around them, a leading `./` and slashes at both ends mean nothing,
and a backslash is a slash. A pattern of which nothing is left is dropped.
-/

namespace Stencil

/-- A pattern as it was tidied, and what it means. -/
structure IgnorePattern where
  text : String
  pieces : List Glob.Piece
  deriving Inhabited

/-- Patterns relative to a base directory. -/
structure IgnoreSet where
  base : String
  patterns : List IgnorePattern
  deriving Inhabited

/-- A text that is not a pattern. -/
structure PatternFault where
  pattern : String
  fault : Glob.Fault
  deriving DecidableEq, Inhabited

/-- The message of a fault. -/
def PatternFault.message (f : PatternFault) : String :=
  "Invalid ignore pattern: error parsing glob '" ++ f.pattern ++ "': " ++ f.fault.message ++ "."

/-- Drops a character at both ends. -/
def trimChar (c : Char) (chars : List Char) : List Char :=
  ((chars.dropWhile (· = c)).reverse.dropWhile (· = c)).reverse

/-- A pattern without what means nothing. -/
def tidyPattern (pattern : String) : String :=
  let chars := (Path.toSlash (Text.trim pattern)).toList
  let chars := match chars with
    | '.' :: '/' :: rest => rest
    | _ => chars
  String.ofList (trimChar '/' chars)

namespace IgnoreSet

/-- Reads patterns up to the first that is none. -/
def parsePatterns : List String → Except PatternFault (List IgnorePattern)
  | [] => .ok []
  | pattern :: rest =>
    let text := tidyPattern pattern
    if text.isEmpty then parsePatterns rest
    else match Glob.parse text with
      | .error fault => .error { pattern := text, fault }
      | .ok pieces =>
        match parsePatterns rest with
        | .error fault => .error fault
        | .ok patterns => .ok ({ text, pieces } :: patterns)

/-- The ignored paths of a base directory. -/
def ofPatterns (base : String) (patterns : List String) : Except PatternFault IgnoreSet :=
  match parsePatterns patterns with
  | .error fault => .error fault
  | .ok patterns => .ok { base, patterns }

/-- Whether a relative path matches one of the patterns. -/
def matchesAny (set : IgnoreSet) (relative : String) : Bool :=
  set.patterns.any fun pattern => Glob.isMatch pattern.pieces relative

/-- The front parts of a row of characters that end before a slash, the longest first. -/
def ancestors (chars : List Char) : List (List Char) :=
  let rec scan : List Char → List Char → List (List Char)
    | _, [] => []
    | before, c :: rest =>
      scan (c :: before) rest ++ (if c = '/' then [before.reverse] else [])
  scan [] chars

/-- Whether a path relative to the base is ignored. -/
def ignoresRelative (set : IgnoreSet) (relative : String) : Bool :=
  !relative.isEmpty && (set.matchesAny relative
    || (ancestors relative.toList).any fun chars => set.matchesAny (String.ofList chars))

/-- Whether a path is ignored. -/
def ignores (set : IgnoreSet) (path : String) : Bool :=
  match Path.below? set.base path with
  | some relative => set.ignoresRelative (Path.toSlash relative)
  | none => false

end IgnoreSet

end Stencil
