import Stencil.CommandLine.Form
import Stencil.Text.Split

/-!
# Reading command lines

Arguments are looked at one by one. A value is only taken over when something follows that is right in itself,
or when the line ends: so an unknown parameter is what is complained about, and not a bad value in front of
it.
-/

namespace Stencil.CommandLine

/-- What was read so far. -/
structure Read where
  /-- The values that were given, by the names of their parameters; a switch has none. -/
  values : Entries (List String) := []
  /-- A parameter that was met last, and its value if that was met. -/
  pending? : Option (Parameter × Option String) := none
  /-- Whether two dashes were met, so that everything behind them is an argument. -/
  onlyArguments : Bool := false
  /-- Whether the argument that is known by its place was met. -/
  hasArgument : Bool := false
  deriving Inhabited

namespace Read

/-- Whether a parameter still needs its value. -/
def isWaiting (read : Read) : Bool :=
  match read.pending? with
  | some (_, none) => true
  | _ => false

/-- Takes a parameter over with its values. -/
def take (read : Read) (parameter : Parameter) (values : List String) : Except Refusal Read :=
  let before? := Entries.get? parameter.name read.values
  if parameter.kind = .texts then
    .ok { read with values := Entries.put parameter.name ((before?.getD []) ++ values) read.values }
  else if before?.isSome then .error .conflict
  else if parameter.kind = .path && values.any String.isEmpty then .error .badValue
  else .ok { read with values := Entries.put parameter.name values read.values }

/-- Takes over what was met last. -/
def settle (read : Read) : Except Refusal Read :=
  match read.pending? with
  | none => .ok read
  | some (_, none) => .error .badValue
  | some (parameter, some value) => ({ read with pending? := none }).take parameter [value]

/-- A parameter with no value, or with one that is attached to it. -/
def meet (read : Read) (parameter : Parameter) (attached? : Option String) : Except Refusal Read :=
  match attached? with
  | some value => do (← read.settle).take parameter [value]
  | none => do
    let read ← read.settle
    match parameter.kind with
    | .switch => read.take parameter []
    | .help => .error .helpAsked
    | .version => .error .versionAsked
    | _ => pure { read with pending? := some (parameter, none) }

/-- A row of short parameters; the first one that takes a value takes what follows it. -/
def meetShort (form : Form) (read : Read) : List Char → Except Refusal Read
  | [] => .ok read
  | c :: rest =>
    match form.parameters.find? fun parameter => parameter.short? = some c with
    | none => .error .unknownParameter
    | some parameter =>
      if parameter.takesValue then
        match rest with
        | [] => read.meet parameter none
        | '=' :: value => read.meet parameter (some (String.ofList value))
        | value => read.meet parameter (some (String.ofList value))
      else do
        let read ← read.meet parameter none
        read.meetShort form rest

/-- A long parameter, with a value behind an equals sign if there is one. -/
def meetLong (form : Form) (read : Read) (chars : List Char) : Except Refusal Read :=
  let (name, value?) := Text.cutAt '=' chars
  match form.parameters.find? fun parameter => parameter.long? = some (String.ofList name) with
  | none => .error .unknownParameter
  | some parameter =>
    match value? with
    | none => read.meet parameter none
    | some value =>
      if parameter.takesValue then read.meet parameter (some (String.ofList value))
      else .error .unexpectedValue

/-- An argument that is known by its place, or the value that a parameter waits for. -/
def meetValue (form : Form) (commands : List Form) (read : Read) (text : String) :
    Except Refusal Read :=
  match read.pending?, read.onlyArguments with
  | some (parameter, none), false => .ok { read with pending? := some (parameter, some text) }
  | _, _ =>
    match form.argument? with
    | some argument =>
      if read.hasArgument then .error .unknownParameter
      else do
        let read ← read.settle
        pure { read with pending? := some (argument, some text), hasArgument := true }
    | none =>
      if commands.isEmpty then .error .unknownParameter
      else if read.onlyArguments && commands.any fun command => command.names.contains text then
        .error .unknownParameter
      else .error .unknownCommand

end Read

/-- Reads the arguments of a form, up to the name of a command. -/
def readArguments (form : Form) (commands : List Form) (read : Read) :
    List String → Except Refusal (Read × Option (Form × List String))
  | [] => .ok (read, none)
  | text :: rest =>
    match commands.find? fun command => command.names.contains text with
    | some command =>
      if read.onlyArguments || read.isWaiting then do
        readArguments form commands (← read.meetValue form commands text) rest
      else .ok (read, some (command, rest))
    | none =>
      if read.onlyArguments then do
        readArguments form commands (← read.meetValue form commands text) rest
      else
        match text.toList with
        | ['-', '-'] => readArguments form commands { read with onlyArguments := true } rest
        | '-' :: '-' :: name => do
          readArguments form commands (← read.meetLong form name) rest
        | '-' :: c :: more => do
          readArguments form commands (← read.meetShort form (c :: more)) rest
        | _ => do
          readArguments form commands (← read.meetValue form commands text) rest

/-- The end of the arguments of a form: what was met last is taken over, and what is missing is missed. -/
def finish (form : Form) (read : Read) : Except Refusal (Entries (List String)) := do
  let read ← read.settle
  let excluded := match form.exclusive? with
    | some (a, b) => Entries.contains a read.values && Entries.contains b read.values
    | none => false
  if excluded then throw .conflict
  if form.isArgumentNeeded && !read.hasArgument then throw .argumentMissing
  pure read.values

/-- Which help is asked for. -/
def readHelp (commands : List Form) : List String → Refusal
  | [] => .helpAsked
  | name :: rest =>
    if commands.any fun command => command.names.contains name then
      if rest.isEmpty then .helpAsked else .unknownCommand
    else .unknownCommand

/-- Reads a command line: what was given to the program, the command, and what was given to it. -/
def readLine (program : Form) (commands : List Form) (help : Form) (args : List String) :
    Except Refusal (Entries (List String) × Form × Entries (List String)) := do
  let (read, next?) ← readArguments program (commands ++ [help]) {} args
  match next? with
  | some (command, rest) =>
    if command = help then throw (readHelp (commands ++ [help]) rest)
    let (inner, _) ← readArguments command [] {} rest
    let values ← finish command inner
    let outer ← finish program read
    pure (outer, command, values)
  | none =>
    let outer ← finish program read
    throw (if outer.isEmpty then .nothingGiven else .commandMissing)

end Stencil.CommandLine
