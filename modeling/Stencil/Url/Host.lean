import Stencil.Text.Split
import Stencil.Url.Label

/-!
# Hosts

Whether the text between the slashes of a URL names a host. A scheme of the web takes domains, addresses
with four numbers and, in brackets, addresses with eight; percent signs are decoded first. Every other scheme
takes anything that cannot be mistaken for another part of the URL.
-/

namespace Stencil.Url

/-! ## Addresses with four numbers -/

/-- The value of a digit of any base up to sixteen. -/
def digitValue (c : Char) : Nat :=
  if c.isDigit then c.toNat - '0'.toNat else c.toLower.toNat - 'a'.toNat + 10

/-- Whether a character is a hexadecimal digit. -/
def isHexDigit (c : Char) : Bool := c.isDigit || ('a' ≤ c.toLower && c.toLower ≤ 'f')

/-- The number that digits of a base stand for. -/
def ofDigits? (base : Nat) (chars : List Char) : Option Nat :=
  if chars.all fun c => isHexDigit c && digitValue c < base then
    some (chars.foldl (fun n c => n * base + digitValue c) 0)
  else none

/-- One of the numbers of an address: decimal, octal behind a zero, hexadecimal behind `0x`. -/
def number? (chars : List Char) : Option Nat :=
  match chars with
  | [] => none
  | '0' :: 'x' :: rest => ofDigits? 16 rest
  | '0' :: 'X' :: rest => ofDigits? 16 rest
  | '0' :: rest => if rest = [] then some 0 else ofDigits? 8 rest
  | chars => ofDigits? 10 chars

/-- The parts of a domain, without an empty one at the end. -/
def labels (domain : List Char) : List (List Char) :=
  let parts := Text.splitOn '.' domain
  if parts.length > 1 && parts.getLast? = some [] then parts.dropLast else parts

/-- Whether the last part of a domain is a number, so that the whole has to be an address. -/
def endsInNumber (domain : List Char) : Bool :=
  match (labels domain).getLast? with
  | some last => last ≠ [] && (last.all Char.isDigit || (number? last).isSome)
  | none => false

/-- Whether a domain is an address with up to four numbers. -/
def isIpv4 (domain : List Char) : Bool :=
  let parts := labels domain
  match parts.mapM number? with
  | some numbers =>
    let count := numbers.length
    count ≤ 4 && numbers.dropLast.all (· < 256) &&
      (numbers.getLast?.getD 0) < Nat.pow 256 (5 - count)
  | none => false

/-! ## Addresses with eight numbers -/

/-- Whether a text is four decimal numbers with points between them. -/
def isQuad (chars : List Char) : Bool :=
  let parts := Text.splitOn '.' chars
  parts.length = 4 && parts.all fun part =>
    part ≠ [] && part.length ≤ 3 && part.all Char.isDigit &&
      (part.length = 1 || part.head? ≠ some '0') && (ofDigits? 10 part).all (· < 256)

/-- How many numbers of sixteen bits groups with colons between them stand for; an address with four
numbers may stand at the end. -/
def groupCount? : List (List Char) → Option Nat
  | [] => some 0
  | [last] =>
    if last.contains '.' then if isQuad last then some 2 else none
    else if last ≠ [] && last.length ≤ 4 && last.all isHexDigit then some 1 else none
  | group :: rest =>
    if group ≠ [] && group.length ≤ 4 && group.all isHexDigit then (groupCount? rest).map (· + 1)
    else none

/-- The text before the first double colon, and the text behind it. -/
def cutAtGap : List Char → Option (List Char × List Char)
  | ':' :: ':' :: rest => some ([], rest)
  | c :: rest => (cutAtGap rest).map fun (before, after) => (c :: before, after)
  | [] => none

/-- The groups of a text, none if it is empty. -/
def groups (chars : List Char) : List (List Char) :=
  if chars = [] then [] else Text.splitOn ':' chars

/-- Whether a text is an address with eight numbers, of which a double colon leaves some out. -/
def isIpv6 (chars : List Char) : Bool :=
  match cutAtGap chars with
  | some (before, after) =>
    match groupCount? (groups before), groupCount? (groups after) with
    | some m, some n => m + n ≤ 7 && !(before.contains '.')
    | _, _ => false
  | none => groupCount? (groups chars) = some 8

/-! ## Domains -/

/-- The characters that no host has, whatever the scheme. -/
def isForbidden (c : Char) : Bool :=
  c = '\x00' || "\t\n\r #/:<>?@[\\]^|".toList.contains c

/-- The characters that no domain has. -/
def isForbiddenInDomain (c : Char) : Bool := isForbidden c || c.toNat < 0x20 || c = '%' || c = '\x7f'

/-- The bytes of a text with its percent signs decoded. -/
def decodedBytes : List Char → List UInt8
  | '%' :: a :: b :: rest =>
    if isHexDigit a && isHexDigit b then
      UInt8.ofNat (digitValue a * 16 + digitValue b) :: decodedBytes rest
    else '%'.toNat.toUInt8 :: decodedBytes (a :: b :: rest)
  | c :: rest => (String.singleton c).toUTF8.toList ++ decodedBytes rest
  | [] => []

/-- Characters that vanish from domains. -/
def isDropped (c : Char) : Bool :=
  let n := c.toNat
  n = 0xad || n = 0x200b || n = 0x2060 || n = 0xfeff || (0xfe00 ≤ n && n ≤ 0xfe0f)

/-- Characters of full width are the same as those of common width, and there are several full stops. -/
def narrowed (c : Char) : Char :=
  let n := c.toNat
  if 0xff01 ≤ n && n ≤ 0xff5e then Char.ofNat (n - 0xfee0)
  else if n = 0x3002 || n = 0xff61 then '.'
  else c

/-- The domain that a text stands for. -/
def domain? (chars : List Char) : Option (List Char) := do
  let text ← String.fromUTF8? (ByteArray.mk (decodedBytes chars).toArray)
  let chars := (text.toList.filter fun c => !isDropped c).map fun c => (narrowed c).toLower
  if chars.all (fun c => !isForbiddenInDomain c) && (Text.splitOn '.' chars).all isLabel then some chars
  else none

/-! ## Hosts of either kind -/

/-- Whether a text is a host of a scheme of the web. -/
def isWebHost (chars : List Char) : Bool :=
  match chars with
  | '[' :: rest => rest.getLast? = some ']' && isIpv6 rest.dropLast
  | chars =>
    match domain? chars with
    | some domain => domain ≠ [] && (!endsInNumber domain || isIpv4 domain)
    | none => false

/-- Whether a text is a host of any other scheme; it may be empty. -/
def isOtherHost (chars : List Char) : Bool :=
  match chars with
  | '[' :: rest => rest.getLast? = some ']' && isIpv6 rest.dropLast
  | chars => chars.all fun c => !isForbidden c

end Stencil.Url
