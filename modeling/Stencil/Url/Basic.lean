import Stencil.Url.Host

/-!
# URLs

Whether a text is an absolute URL, and of which scheme. Of a URL only those parts are looked at that can make
it one or not: the scheme, and the user, the host and the port between the slashes. What follows can be
anything.
-/

namespace Stencil

/-- What is known of a URL. -/
structure Url where
  scheme : String
  hasHost : Bool
  deriving DecidableEq, Inhabited

namespace Url

/-- The scheme at the front of a text, and what follows its colon. -/
def scheme? (chars : List Char) : Option (String × List Char) :=
  let isPart (c : Char) : Bool := c.isAlphanum || c = '+' || c = '-' || c = '.'
  match chars.takeWhile isPart, chars.dropWhile isPart with
  | first :: more, ':' :: rest =>
    if first.isAlpha then some (String.ofList ((first :: more).map Char.toLower), rest) else none
  | _, _ => none

/-- Whether a scheme is one of the web, whose URLs always have a host. -/
def isWeb (scheme : String) : Bool := ["http", "https", "ws", "wss", "ftp"].contains scheme

/-- Whether a character ends the part of a URL that names the host. -/
def endsAuthority (web : Bool) (c : Char) : Bool :=
  c = '/' || c = '?' || c = '#' || (web && c = '\\')

/-- The characters before a port or the rest, not looking into brackets. -/
def hostPart (inBrackets : Bool) : List Char → List Char
  | [] => []
  | c :: rest =>
    if c = ':' && !inBrackets then []
    else c :: hostPart (if c = '[' then true else if c = ']' then false else inBrackets) rest

/-- Whether what follows a host is a port, or nothing. -/
def isPort (chars : List Char) : Bool :=
  match chars with
  | [] => true
  | _ :: digits =>
    let number := digits.takeWhile (· ≠ '\\')
    number.all Char.isDigit && number.foldl (fun n c => n * 10 + digitValue c) 0 ≤ 65535

/-- Whether there is a host between the slashes of a URL; nothing if that part is not right. -/
def host? (web : Bool) (chars : List Char) : Option Bool :=
  let authority := chars.takeWhile fun c => !endsAuthority web c
  let user? := if authority.contains '@' then
      some (authority.take (authority.length - (Text.afterLast '@' authority).length - 1))
    else none
  let place := if user?.isSome then Text.afterLast '@' authority else authority
  let host := hostPart false place
  let port := place.drop host.length
  let anyone := match user? with
    | some user => user ≠ [] && user ≠ [':']
    | none => false
  let nowhere := host = [] &&
    (web || port ≠ [] || anyone || (user? = some [] && authority.length < chars.length))
  let right := if web then isWebHost host else isOtherHost host
  if nowhere || !right || !isPort port then none else some (host ≠ [])

/-- Reads a URL. Blanks around it do not count, nor do line breaks and tabs in it. -/
def parse? (text : String) : Option Url := do
  let isAround (c : Char) : Bool := c.toNat ≤ 0x20
  let trimmed := ((text.toList.dropWhile isAround).reverse.dropWhile isAround).reverse
  let chars := trimmed.filter fun c => !(c = '\t' || c = '\n' || c = '\r')
  let (scheme, rest) ← scheme? chars
  if isWeb scheme then
    let hasHost ← host? true (rest.dropWhile fun c => c = '/' || c = '\\')
    some { scheme, hasHost }
  else
    match rest with
    | '/' :: '/' :: rest =>
      let hasHost ← host? false rest
      some { scheme, hasHost }
    | _ => some { scheme, hasHost := false }

end Url

end Stencil
