/-!
# Characters as YAML sees them

Which characters a stream may hold, which can be shown as they are, and which end a line.
-/

namespace Stencil.Yaml

/-- Characters that may stand in a stream. Control characters other than tab and line ends may not,
and neither may the delete character. -/
def isAllowed (c : Char) : Bool :=
  let n := c.toNat
  n = 0x09 || n = 0x0a || n = 0x0d || (0x20 ≤ n && n ≤ 0x7e) || n = 0x85
    || (0xa0 ≤ n && n ≤ 0xd7ff) || (0xe000 ≤ n && n ≤ 0xfffd) || 0x10000 ≤ n

/-- Characters that are written as they are; the byte order mark is not, although it is allowed. -/
def isPrintable (c : Char) : Bool :=
  let n := c.toNat
  n = 0x0a || (0x20 ≤ n && n ≤ 0x7e)
    || (0xa0 ≤ n && n ≠ 0xfeff && n ≠ 0xfffe && n ≠ 0xffff)

/-- Characters that end a line: carriage return, line feed, next line, line and paragraph
separator. -/
def isBreak (c : Char) : Bool :=
  c = '\r' || c = '\n' || c = '\u0085' || c = '\u2028' || c = '\u2029'

/-- Blank or tab. -/
def isBlank (c : Char) : Bool := c = ' ' || c = '\t'

/-- Blank, tab, line end or the end of the text. -/
def isBlankOrEnd : Option Char → Bool
  | none => true
  | some c => isBlank c || isBreak c || c = '\x00'

/-- Line end or the end of the text. -/
def isBreakOrEnd : Option Char → Bool
  | none => true
  | some c => isBreak c || c = '\x00'

/-- Letters, digits, hyphen and underscore of ASCII: what names of anchors and directives are
made of. -/
def isNameChar (c : Char) : Bool :=
  ('0' ≤ c && c ≤ '9') || ('A' ≤ c && c ≤ 'Z') || ('a' ≤ c && c ≤ 'z') || c = '_' || c = '-'

end Stencil.Yaml
