import Stencil.Shell.Expansion

/-!
# Running command lines

A line changes the disk and what else a shell has, and ends with a status. Lines in parentheses, those of a
pipe and those between other lines' words are run in a shell of their own: only what they do to the disk
stays.

A line can start others, so there is a bound on how deep they may be nested.
-/

namespace Stencil.Shell

open Files

/-- Where a stream ends. -/
inductive Sink where
  | out
  | errors
  | file (path : String)
  | nowhere
  deriving DecidableEq, Inhabited

/-- Where the streams of a command come from and go. -/
structure Routing where
  input : ByteArray
  out : Sink := .out
  errors : Sink := .errors
  deriving Inhabited

/-- The path to which output vanishes. -/
def nowhere : String := "/dev/null"

/-- Adds bytes to where a stream ends. -/
def Sink.send (sink : Sink) (bytes : ByteArray) (session : Session) : Session :=
  match sink with
  | .out => session.put bytes
  | .errors => { session with errors := session.errors ++ (String.fromUTF8? bytes).getD "" }
  | .nowhere => session
  | .file path =>
    let before := (session.disk.read path).toOption.getD ByteArray.empty
    match session.disk.write path (before ++ bytes) with
    | .ok disk => session.withDisk disk
    | .error _ => session

/-- Opens what a redirection names. -/
def redirect (routing : Routing) (session : Session) (redirection : Redirection) (path : String) :
    Except String (Routing × Session) :=
  let sendTo (sink : Sink) : Routing :=
    if redirection.stream = 2 then { routing with errors := sink }
    else if redirection.stream = 1 then { routing with out := sink }
    else routing
  let whole := Path.join (Place.render session.directory) path
  match redirection.arrow with
  | .same =>
    let sink := if path = "1" then routing.out else if path = "2" then routing.errors else .nowhere
    .ok (sendTo sink, session)
  | .input =>
    if path = nowhere then .ok ({ routing with input := ByteArray.empty }, session)
    else match session.here.read path with
      | .ok input => .ok ({ routing with input }, session)
      | .error fault => .error ("cannot open " ++ path ++ ": " ++ fault.message)
  | arrow =>
    if path = nowhere then .ok (sendTo .nowhere, session)
    else
      let before := match session.here.read path with
        | .ok bytes => if arrow = .append then bytes else ByteArray.empty
        | .error _ => ByteArray.empty
      match session.here.write path before with
      | .ok disk => .ok (sendTo (.file whole), session.withDisk disk)
      | .error fault => .error ("cannot create " ++ path ++ ": " ++ fault.message)

/-- Runs something with its streams routed. -/
def withRouting (routing : Routing) (session : Session) (act : Action) : Session :=
  let after := act routing.input { session with out := ByteArray.empty, errors := "" }
  let produced := after.out
  let complaints := after.errors.toUTF8
  let after := { after with out := session.out, errors := session.errors }
  routing.errors.send complaints (routing.out.send produced after)

/-- A text without the ends of lines behind it. -/
def withoutEnds (text : String) : String :=
  String.ofList (text.toList.reverse.dropWhile (· = '\n')).reverse

/-- Ends the shell if a command did not go as it should and that is asked for. -/
def strictly (checked : Bool) (session : Session) : Session :=
  if session.isStrict && !checked && !session.status.isSuccess then { session with isOver := true }
  else session

/-- The path of a file that is run. -/
def script? (session : Session) (name : String) : Except Nat String :=
  match session.here.find true name with
  | .error .notADirectory => .error 126
  | .error _ => .error 127
  | .ok (_, .file content true) => .ok ((String.fromUTF8? content).getD "")
  | .ok _ => .error 126

/-- The name of a command that is given by its path. -/
def commonName? (path : String) : Option String :=
  (["/bin/", "/usr/bin/"].find? fun front => path.startsWith front).map fun front =>
    String.ofList (path.toList.drop front.length)

mutual

/-- Runs a line. Whether it is checked says that somebody asks how it goes. -/
def eval : Nat → Bool → Line → Action
  | 0, _, _ => fun _ session => { session.complain 2 "nested too deep" with isOver := true }
  | depth + 1, checked, line => fun input session =>
    if session.isOver then session
    else match line with
      | .nothing => session
      | .simple words redirections => strictly checked (evalSimple depth words redirections input session)
      | .piped first second =>
        let fed := eval depth true first input { session with out := ByteArray.empty }
        let before := session.resume { fed with out := session.out }
        if before.isOver then before
        else strictly checked (session.resume (eval depth checked second fed.out before))
      | .both first second =>
        let after := eval depth true first input session
        if after.isOver || !after.status.isSuccess then after else eval depth checked second input after
      | .either first second =>
        let after := eval depth true first input session
        if after.isOver || after.status.isSuccess then after else eval depth checked second input after
      | .sequence first second => eval depth checked second input (eval depth checked first input session)
      | .negated body =>
        let after := eval depth true body input session
        if after.isOver then after else after.exit (if after.status.isSuccess then 1 else 0)
      | .apart body => strictly checked (session.resume (eval depth checked body input session))
      | .routed body redirections =>
        match redirectAll depth { input } session redirections with
        | .error (session, why) => session.complain 2 why
        | .ok (routing, session) => withRouting routing session (eval depth checked body)
      | .choice condition yes no =>
        let after := eval depth true condition input session
        if after.isOver then after
        else if after.status.isSuccess then eval depth checked yes input after
        else eval depth checked no input (after.exit 0)
      | .loop condition body holds =>
        let after := eval depth true condition input session
        if after.isOver then after
        else if after.status.isSuccess = holds then
          eval depth checked (.loop condition body holds) input (eval depth checked body input after)
        else after.exit 0
      | .each name words body =>
        let (fields, session) := expandAll depth session words
        fields.foldl (fun session field => eval depth checked body input (session.assign name field))
          (session.exit 0)

/-- Runs a command with its words. -/
def evalSimple : Nat → List Word → List Redirection → Action
  | 0, _, _ => fun _ session => session.complain 2 "nested too deep"
  | depth + 1, words, redirections => fun input session =>
    let given := (words.takeWhile fun word => (assignment? word).isSome).filterMap assignment?
    let (fields, session) := expandAll depth session (words.drop given.length)
    match redirectAll depth { input } session redirections with
    | .error (session, why) => session.complain 2 why
    | .ok (routing, session) =>
      let (values, assigned) := given.foldl (fun (values, session) (name, word) =>
        let (value, session) := expandText depth session word
        ((name, value) :: values, session.assign name value)) ([], session.exit 0)
      match fields with
      | [] => if words.length = given.length && given.isEmpty then session.exit 0 else assigned
      | name :: args =>
        -- A value that is given in front of a command is only known to the command.
        let started := { assigned with
          exported := values.map Prod.fst ++ session.exported, status := session.status }
        let after := withRouting routing started (evalNamed depth name args)
        if given.isEmpty then after else { after with vars := session.vars, exported := session.exported }

/-- Runs the command of a name. -/
def evalNamed : Nat → String → List String → Action
  | 0, _, _ => fun _ session => session.complain 2 "nested too deep"
  | depth + 1, name, args => fun input session =>
    match action? name args with
    | some action => action input session
    | none =>
      if name = "sh" || name = "/bin/sh" || name = "bash" then
        match args with
        | "-c" :: text :: rest =>
          let self := if rest.isEmpty then [name] else rest
          session.await (evalText depth text input (session.child self))
        | path :: rest =>
          match session.here.readText path with
          | .ok text => session.await (evalText depth text input (session.child (path :: rest)))
          | .error _ => session.complain 2 ("cannot open " ++ path ++ ": No such file")
        | [] =>
          let text := (String.fromUTF8? input).getD ""
          session.await (evalText depth text ByteArray.empty (session.child [name]))
      else if name = "eval" then evalText depth (" ".intercalate args) input session
      else if name = "exec" then
        match args with
        | [] => session.exit 0
        | name :: args => { evalNamed depth name args input session with isOver := true }
      else if name = "." then
        match args with
        | path :: _ =>
          match session.here.readText path with
          | .ok text => evalText depth text input session
          | .error _ =>
            { session.complain 2 ("cannot open " ++ path ++ ": No such file") with isOver := true }
        | [] => session.exit 0
      else if name = "command" || name = "env" || name = "/usr/bin/env" then
        match args with
        | name :: args => evalNamed depth name args input session
        | [] => session.exit 0
      else if name.toList.contains '/' then
        match commonName? name with
        | some name => evalNamed depth name args input session
        | none =>
        match script? session name with
        | .ok text => session.await (evalText depth text input (session.child (name :: args)))
        | .error 126 => session.complain 126 (name ++ ": Permission denied")
        | .error code => session.complain code (name ++ ": not found")
      else session.complain 127 (name ++ ": not found")

/-- Runs the lines of a text, each after it was read. -/
def evalText : Nat → String → Action
  | 0, _ => fun _ session => session.complain 2 "nested too deep"
  | depth + 1, text => fun input session =>
    match tokensOf? text with
    | some tokens => evalTokens depth tokens input (session.exit 0)
    | none => { session.complain 2 "Syntax error" with isOver := true }

/-- Runs the lines of a row of tokens. -/
def evalTokens : Nat → List Token → Action
  | 0, _ => fun _ session => session.complain 2 "nested too deep"
  | depth + 1, tokens => fun input session =>
    if session.isOver then session
    else match skipLines tokens with
      | [] => session
      | tokens =>
        match readLine? tokens with
        | some (line, rest) => evalTokens depth rest input (eval depth false line input session)
        | none => { session.complain 2 "Syntax error" with isOver := true }

/-- Puts the values into a word. -/
def expand : Nat → Session → Bool → Word → Fields × Session
  | 0, session, _, _ => ({}, session)
  | depth + 1, session, splits, word =>
    word.foldl (fun (fields, session) piece =>
      match piece with
      | .text s quoted => (fields.addText s quoted false, session)
      | .value name quoted => (fields.addText (valueOf session name) quoted (splits && !quoted), session)
      | .output line quoted =>
        let after := evalText depth line ByteArray.empty { session with out := ByteArray.empty }
        let text := withoutEnds ((String.fromUTF8? after.out).getD "")
        (fields.addText text quoted (splits && !quoted), session.resume { after with out := session.out }))
      ({}, session)

/-- The fields of words. -/
def expandAll : Nat → Session → List Word → List String × Session
  | 0, session, _ => ([], session)
  | depth + 1, session, words =>
    words.foldl (fun (fields, session) word =>
      let (more, session) := expand depth session true word
      (fields ++ (more.cut.before.flatMap (texts session.here)), session)) ([], session)

/-- The text of a word that is not split. -/
def expandText : Nat → Session → Word → String × Session
  | 0, session, _ => ("", session)
  | depth + 1, session, word =>
    let (fields, session) := expand depth session false word
    (textOf (fields.current?.getD []), session)

/-- Opens what redirections name, from the first to the last. -/
def redirectAll : Nat → Routing → Session → List Redirection →
    Except (Session × String) (Routing × Session)
  | 0, _, session, _ => .error (session, "nested too deep")
  | depth + 1, routing, session, redirections =>
    redirections.foldlM (fun (routing, session) redirection =>
      let (path, session) := expandText depth session redirection.word
      match redirect routing session redirection path with
      | .ok opened => .ok opened
      | .error why => .error (session, why)) (routing, session)

end

/-- How deep lines may be nested. -/
def maxDepth : Nat := 100000

/-- Runs a text in a directory. -/
def run (text : String) (directory : Place) (disk : Disk) : Session :=
  evalText maxDepth text ByteArray.empty { disk, directory }

end Stencil.Shell
