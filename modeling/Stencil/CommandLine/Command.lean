import Stencil.CommandLine.Reading
import Stencil.Settings

/-!
# Commands

What the user can ask of the program.
-/

namespace Stencil.CommandLine

/-- What is to be done. -/
inductive Command where
  /-- Fetch a template and fill it. -/
  | clone (url : String) (output? branch? tag? : Option String) (variablesFrom : String)
      (token? : Option String)
  /-- Fill a local template. -/
  | dryRun (path output : String) (inTerminal hotReload : Bool) (variablesFrom : String)
  | validate (path : String)
  | info (source : String) (branch? tag? : Option String)
  /-- Make a new template. -/
  | start (output? name? description? license? : Option String) (authors : List String)
      (nonInteractive : Bool)
  deriving DecidableEq, Inhabited

/-- A command line that has its form. -/
structure Invocation where
  verbose : Bool
  command : Command
  deriving DecidableEq, Inhabited

/-- A parameter with a short and a long spelling. -/
def both (short : Char) (name : String) (kind : Kind) : Parameter :=
  { name, kind, short? := some short, long? := some name }

/-- The parameters that every command has. -/
def common : List Parameter :=
  [{ name := "verbose", kind := .switch, long? := some "verbose" }, both 'h' "help" .help]

/-- The program itself. -/
def programForm : Form :=
  { names := ["cloney"], parameters := both 'V' "version" .version :: common }

/-- Asks for help on a command. -/
def helpForm : Form := { names := ["help"], parameters := [] }

/-- The command `clone`. -/
def cloneForm : Form where
  names := ["clone", "cl"]
  argument? := some { name := "repository", kind := .text }
  isArgumentNeeded := true
  parameters := [both 'o' "output" .path, both 'b' "branch" .text, both 't' "tag" .text,
    both 'v' "variables" .text, both 'k' "token" .text] ++ common
  exclusive? := some ("tag", "branch")

/-- The command `dry-run`. -/
def dryRunForm : Form where
  names := ["dry-run", "dryrun", "fill"]
  argument? := some { name := "path", kind := .path }
  parameters := [both 'o' "output" .path, both 'i' "output-in-terminal" .switch,
    both 'r' "hot-reload" .switch, both 'v' "variables" .text] ++ common

/-- The command `validate`. -/
def validateForm : Form where
  names := ["validate"]
  argument? := some { name := "path", kind := .path }
  parameters := common

/-- The command `info`. -/
def infoForm : Form where
  names := ["info"]
  argument? := some { name := "source", kind := .text }
  parameters := [both 'b' "branch" .text, both 't' "tag" .text] ++ common
  exclusive? := some ("tag", "branch")

/-- The command `start`. -/
def startForm : Form where
  names := ["start"]
  parameters := [both 'o' "output" .path, both 'n' "name" .text, both 'd' "description" .text,
    both 'l' "license" .text, both 'a' "author" .texts, both 'y' "non-interactive" .switch] ++ common

/-- All commands. -/
def forms : List Form := [cloneForm, dryRunForm, validateForm, infoForm, startForm]

/-- The value that was given to a parameter. -/
def value? (values : Entries (List String)) (name : String) : Option String :=
  (Entries.get? name values).bind List.head?

/-- The command that was given, with what is meant where nothing was said. -/
def commandOf (settings : Settings) (form : Form) (values : Entries (List String)) : Command :=
  let text (name : String) (otherwise : String) : String := (value? values name).getD otherwise
  let isOn (name : String) : Bool := Entries.contains name values
  match form.names.head? with
  | some "clone" =>
    .clone (text "repository" "") (value? values "output") (value? values "branch") (value? values "tag")
      (text "variables" settings.variablesFile) (value? values "token")
  | some "dry-run" =>
    .dryRun (text "path" ".") (text "output" settings.dryRunDirectory) (isOn "output-in-terminal")
      (isOn "hot-reload") (text "variables" settings.variablesFile)
  | some "info" => .info (text "source" ".") (value? values "branch") (value? values "tag")
  | some "start" =>
    .start (value? values "output") (value? values "name") (value? values "description")
      (value? values "license") ((Entries.get? "author" values).getD []) (isOn "non-interactive")
  | _ => .validate (text "path" ".")

/-- Reads a command line. -/
def parse (settings : Settings) (args : List String) : Except Refusal Invocation := do
  let (outer, form, values) ← readLine programForm forms helpForm args
  pure { verbose := Entries.contains "verbose" outer || Entries.contains "verbose" values
         command := commandOf settings form values }

end Stencil.CommandLine
