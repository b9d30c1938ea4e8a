import Stencil.Url.Basic

/-!
# Repositories

Where a template can be got from: a directory, or a repository that is fetched. The name of a repository is
what its URL ends with, without the slashes at the end and any `.git` in front of them.
-/

namespace Stencil

/-- A repository and what to check out of it. -/
structure Repository where
  url : String
  branch? : Option String := none
  tag? : Option String := none
  token? : Option String := none
  deriving DecidableEq, Inhabited

/-- Where a template is. -/
inductive Source where
  | directory (path : String)
  | remote (url : String)
  deriving DecidableEq, Inhabited

/-- A text that is not empty. -/
def given (text? : Option String) : Option String := text?.filter fun text => !text.isEmpty

namespace Repository

/-- A repository, where an empty branch, tag or token is the same as none. -/
def make (url : String) (branch? tag? token? : Option String) : Repository :=
  { url, branch? := given branch?, tag? := given tag?, token? := given token? }

/-- Drops an ending as often as it stands there. -/
def dropEnding (ending : List Char) (chars : List Char) : List Char :=
  -- Both are turned round, so that the ending is at the front.
  go ending.reverse chars.length chars.reverse |>.reverse
where
  /-- Drops a beginning, at most so many times. -/
  go (front : List Char) : Nat → List Char → List Char
    | 0, chars => chars
    | n + 1, chars => if front.isPrefixOf chars then go front n (chars.drop front.length) else chars

/-- The name for a repository with a certain URL. -/
def nameOf (url : String) : String :=
  let path := dropEnding ['/'] url.toList
  let last := (path.reverse.takeWhile fun c => c ≠ '/' && c ≠ ':').reverse
  let name := dropEnding ['.', 'g', 'i', 't'] last
  if name.isEmpty then "template" else String.ofList name

/-- The name of a repository. -/
def name (repository : Repository) : String := nameOf repository.url

end Repository

/-- Whether a text is a user's short form for a repository on a host. -/
def isShortForm (text : String) : Bool :=
  match text.toList with
  | 'g' :: 'i' :: 't' :: '@' :: rest =>
    match Text.cutAt ':' rest with
    | (host, some path) => host ≠ [] && path ≠ []
    | (_, none) => false
  | _ => false

/-- Whether a text tells where to fetch a repository from. -/
def isRepositoryUrl (text : String) : Bool :=
  match Url.parse? text with
  | some url => ["https", "http", "git", "ssh"].contains url.scheme && url.hasHost
  | none => isShortForm text

namespace Source

/-- The place that a text means. -/
def ofString (text : String) : Source := if isRepositoryUrl text then remote text else directory text

/-- A place as it is shown. -/
def display : Source → String
  | directory path => "local path: '" ++ path ++ "'"
  | remote url => "git repository: '" ++ url ++ "'"

end Source

end Stencil
