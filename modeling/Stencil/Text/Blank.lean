/-!
# Blanks of any script

The characters with the Unicode property `White_Space`.
-/

namespace Stencil.Text

/-- Whether a character is white space in the sense of Unicode. -/
def isBlank (c : Char) : Bool :=
  let n := c.toNat
  (9 ≤ n && n ≤ 13) || n = 0x20 || n = 0x85 || n = 0xa0 || n = 0x1680 || (0x2000 ≤ n && n ≤ 0x200a)
    || n = 0x2028 || n = 0x2029 || n = 0x202f || n = 0x205f || n = 0x3000

/-- Drops the blanks at the front. -/
def trimLeft (chars : List Char) : List Char := chars.dropWhile isBlank

/-- Drops the blanks at the end. -/
def trimRight (chars : List Char) : List Char := (chars.reverse.dropWhile isBlank).reverse

/-- Drops the blanks at both ends. -/
def trim (s : String) : String := String.ofList (trimRight (trimLeft s.toList))

/-- Whether there is nothing but blanks. -/
def isAllBlank (s : String) : Bool := s.toList.all isBlank

end Stencil.Text
