import Stencil.Template.Filter.Basic
import Stencil.Template.Machine

/-!
# Evaluation

Expressions and statements are followed in the order in which they are written. Everything that an
evaluation starts, be it an operand, the body of a loop, a macro or another template, is one level deeper;
the first argument of each function below is the number of levels that are left. When none is left the
rendering is exhausted.

`include` and `toFile` render a macro or a template by its name. A macro is called where it is; a template
is evaluated afresh, with the given data and nothing else but the leave to write files.
-/

namespace Stencil.Template

/-- The variable by which a template finds the leave to write files. -/
def writerName : String := "__cloney_file_writer"

/-- A constant as a datum. -/
def Literal.datum : Literal → Datum
  | .none => .none
  | .bool b => .bool b
  | .integer n => .integer n
  | .decimal x => .decimal x
  | .text s => .ofString s

namespace Run

/-! ## Parts that need no deeper evaluation -/

/-- Follows statements up to one that does not end normally. -/
def runAll (step : Statement → Run Signal) : List Statement → Run Signal
  | [] => pure .normal
  | s :: rest => do
    match ← step s with
    | .normal => runAll step rest
    | signal => pure signal

/-- Runs a step for item after item; true if it was left early. -/
def forItems (step : Nat → Datum → Run Signal) : Nat → List Datum → Run Bool
  | _, [] => pure false
  | i, x :: rest => do
    match ← step i x with
    | .leave => pure true
    | _ => forItems step (i + 1) rest

/-- The items that a step keeps. -/
def keepItems (step : Datum → Run Bool) : List Datum → Run (List Datum)
  | [] => pure []
  | x :: rest => do
    let kept ← step x
    let others ← keepItems step rest
    pure (if kept then x :: others else others)

/-- The entries of a map as named arguments. -/
def namedEntries (d : Datum) : Run (Entries Datum) := do
  match ← opened d with
  | .named entries => pure entries
  | .map entries => pure (entries.filterMap fun entry => entry.1.text?.map fun name => (name, entry.2))
  | d => raise (.invalid ("attempted to apply keyword arguments from non map (got " ++ d.kind.name ++ ")"))

/-- Evaluates arguments: positional ones in their order, and named ones, if there are any, as one
argument behind them. -/
def evaluateArguments (step : Expr → Run Datum) (args : List Argument) (caller? : Option Datum) :
    Run (List Datum) := do
  let (positional, named?) ← args.foldlM (fun acc arg => do
    let (positional, named?) := acc
    match arg with
    | .positional e => do
      let d ← step e
      pure (positional ++ [d], named?)
    | .spread e => do
      let (items, _) ← itemsOf (← step e)
      pure (positional ++ items, named?)
    | .named name e => do
      let d ← step e
      pure (positional, some (Entries.insert name d (named?.getD [])))
    | .spreadNamed e => do
      let entries ← namedEntries (← step e)
      pure (positional, some (entries.foldl (fun acc entry => Entries.insert entry.1 entry.2 acc)
        (named?.getD []))))
    (([] : List Datum), (none : Option (Entries Datum)))
  let named? := match caller? with
    | some caller => some (Entries.insert "caller" caller (named?.getD []))
    | none => named?
  pure <| match named? with
    | some entries => positional ++ [.named entries]
    | none => positional

/-- Applies a filter. -/
def applyFilter (name : String) (args : List Datum) : Run Datum := do
  let args ← if name = "default" || name = "d" then pure args else args.mapM settled
  ofExcept (Filter.apply (← get).escaping name args)

/-- Applies a check. -/
def applyCheck (name : String) (args : List Datum) : Run Datum := do
  let args ← args.mapM settled
  match Check.find? name with
  | some check => .bool <$> ofExcept (check args)
  | none => raise (.unknownCheck name)

/-- Puts a datum out. -/
def print (d : Datum) : Run Unit := do
  let text ← ofExcept ((← get).escaping.apply (← settled d))
  emit text

/-- How the output is to be escaped. -/
def escapingOf (d : Datum) : Run Escaping :=
  match d with
  | .text "html" _ => pure .markup
  | .text "json" _ => pure .json
  | .text "none" _ => pure .none
  | .text _ _ => raise (.invalid "invalid value to autoescape tag")
  | d => pure (if Datum.same d (.bool true) then .markup else .none)

/-- Assigns data to targets, given how an object is evaluated. -/
def assignTo (step : Expr → Run Datum) : Nat → Target → Datum → Run Unit
  | 0, _, _ => exhausted
  | fuel + 1, target, d =>
    match target with
    | .variable name => assign name d
    | .attribute object name => do
      match ← step object with
      | .space place =>
        modifyStore fun store =>
          { store with spaces := store.spaces.modify place (Entries.insert name d) }
      | other => raise (.invalid ("can only assign to namespaces, not " ++ other.kind.name))
    | .several targets => do
      let items ← unpacked targets.length d
      (targets.zip items).forM fun (target, d) => assignTo step fuel target d

/-- Makes a macro of the innermost frame. -/
def makeMacro (name : String) (parameters : List String) (defaults : List Expr)
    (body : List Statement) : Run Datum := do
  let names := capturedNames parameters defaults body
  (names.filter (· ≠ "caller")).forM capture
  let m ← get
  let place := m.store.macros.size
  let made : MacroBody :=
    { template := m.template, parameters, defaults, body, captured? := (← frame).captured? }
  modifyStore fun store => { store with macros := store.macros.push made }
  pure (.macroRef { place, home := m.home, name, parameters, usesCaller := names.contains "caller" })

/-- Numbers from one to before another, a step apart. -/
def numbersFrom (low : Int) (step : Int) (count : Nat) : List Datum :=
  (List.range count).map fun (i : Nat) => .integer (low + step * (i : Int))

/-- The largest number of items of a range. -/
def maxRange : Nat := 100000

/-- A range of numbers. -/
def makeRange (low high step : Int) : Except Cause Datum :=
  let count : Int :=
    if step > 0 then (high - low + step - 1) / step else (low - high - step - 1) / (-step)
  if step = 0 then .error (.invalid "cannot create range with step of 0")
  else if count > maxRange then .error (.invalid "range has too many elements")
  else .ok (.stream (numbersFrom low step count.toNat) true)

/-- Items between marks, with a separator between them. -/
def joinMarked (mark : String) (items : List Datum) (separator : String) : Datum :=
  .ofString (separator.intercalate (items.map fun d => mark ++ d.display ++ mark))

/-- The bound of an integer argument. -/
def maxArgument : Int := 9223372036854775807

open Reading in
/-- Calls a function that does nothing but compute. -/
def computed (f : Builtin) (args : List Datum) : Except Cause Datum :=
  match f with
  | .range => run (do
      let low ← required (asInt (-maxArgument - 1) maxArgument)
      let high? ← optional (asInt (-maxArgument - 1) maxArgument)
      let step? ← optional (asInt (-maxArgument - 1) maxArgument)
      pure (low, high?, step?)) args |>.bind fun (low, high?, step?) =>
        match high? with
        | some high => makeRange low high (step?.getD 1)
        | none => makeRange 0 low (step?.getD 1)
  | .dict => run (do
      let first? ← next?
      let second? ← next?
      let entriesOf (d? : Option Datum) : Reading (List (Datum × Datum)) :=
        match d? with
        | none => pure []
        | some .undefined => pure []
        | some d =>
          match Filter.entriesOf? d with
          | some entries => pure entries
          | none => throw (.invalid "")
      let first ← entriesOf first?
      let second ← entriesOf second?
      pure (Datum.ofPairs (first ++ second))) args
  | .debug =>
    match args with
    | [] => .ok (.ofString "State")
    | [d] => .ok (.ofString (d.pretty 0))
    | args => .ok (.ofString ((Datum.list args).pretty 0))
  | .os => run (pure (.ofString "linux")) args
  | .arch => run (pure (.ofString "x86_64")) args
  | .joinSingleQuote => run (do
      let items ← required asItems
      let separator ← required asText
      pure (joinMarked "'" items separator)) args
  | .joinDoubleQuote => run (do
      let items ← required asItems
      let separator ← required asText
      pure (joinMarked "\"" items separator)) args
  | .namespace => .error (.invalid "")
  | .include => .error (.invalid "")
  | .toFile => .error (.invalid "")

open Reading in
/-- Makes a namespace. -/
def makeSpace (args : List Datum) : Run Datum := do
  let first? ← ofExcept (Reading.run (optional asAny) args)
  match first? with
  | none => .space <$> newSpace []
  | some d =>
    match Filter.entriesOf? (← opened d) with
    | some entries =>
      let named := entries.filterMap fun entry => entry.1.text?.map fun name => (name, entry.2)
      .space <$> newSpace (Entries.sorted named)
    | none =>
      raise (.invalid ("expected object or keyword arguments, got " ++ d.kind.name))

/-- The data for a template that is rendered by its name: the given ones and the leave to write files. -/
def freshData (data? : Option Datum) : Run Datum := do
  let writer := (← lookup? writerName).getD .undefined
  let given ← opened (data?.getD .undefined)
  let entries := match given with
    | .macroRef head => [(Datum.ofString "name", .ofString head.name),
        (.ofString "arguments", .list (head.parameters.map .ofString)),
        (.ofString "caller", .bool head.usesCaller)]
    | d => (Filter.entriesOf? d).getD []
  pure (Datum.ofPairs (entries ++ [(.ofString writerName, writer)]))

/-- The layers of blocks that a template starts with. -/
def layersOf (document : Document) : Entries BlockLayers :=
  document.blocks.map fun entry => (entry.1, { layers := [(document.name, entry.2)] })

/-- The layers of blocks with those of a parent behind them. -/
def withLayers (blocks : Entries BlockLayers) (parent : Document) : Entries BlockLayers :=
  parent.blocks.foldl (fun blocks entry =>
    let old := (Entries.get? entry.1 blocks).getD { layers := [] }
    Entries.put entry.1 { old with layers := old.layers ++ [(parent.name, entry.2)] } blocks) blocks

/-- What one that asks for a template by name gets, or the end with a fault. -/
def loaded (name : String) : Run Document := do
  match ← load name with
  | .ok document => pure document
  | .error fault => fun _ => Rendering.loadFault name fault

/-- Extends a template: its blocks lie behind those there are, and it is rendered in the place of the
present one. -/
def extend (d : Datum) : Run Unit := do
  if (← get).parent?.isSome then raise (.invalid "tried to extend a second time in a template")
  match d with
  | .text name _ =>
    if (← get).extended.contains name then raise (.invalid "cycle in template inheritance")
    let document ← loaded name
    modify fun m => { m with
      extended := document.name :: m.extended
      blocks := withLayers m.blocks document
      parent? := some document
      muted := true }
  | _ => raise (.invalid "template name was not a string")

/-- The first template of a row of names that there is. -/
def firstLoaded : List Datum → Run (Option Document)
  | [] => pure none
  | d :: rest => do
    match d with
    | .text name _ =>
      match ← load name with
      | .ok document => pure (some document)
      | .error .missing => firstLoaded rest
      | .error fault => fun _ => Rendering.loadFault name fault
    | _ => raise (.invalid "template name was not a string")

/-- Changes how far into its layers a block is. -/
def setLayer (name : String) (depth : Nat) : Run Unit :=
  modify fun m => match Entries.get? name m.blocks with
    | some block => { m with blocks := Entries.put name { block with depth } m.blocks }
    | none => m

/-- Arguments matched with parameters: the values of the parameters and that of the caller. -/
def matchArguments (head : MacroHead) (args : List Datum) :
    Except Cause (List Datum × Option Datum) := do
  let (positional, named) := match args.getLast? with
    | some (.named entries) => (args.dropLast, entries)
    | _ => (args, [])
  if positional.length > head.parameters.length then throw .tooManyArguments
  let values ← head.parameters.zipIdx.mapM fun (parameter, i) =>
    match positional[i]?, Entries.get? parameter named with
    | some _, some _ => throw .tooManyArguments
    | some d, none => pure d
    | none, some d => pure d
    | none, none => pure .undefined
  let known (name : String) : Bool :=
    head.parameters.contains name || (head.usesCaller && name == "caller")
  if named.all fun entry => known entry.1 then
    pure (values, if head.usesCaller then some ((Entries.get? "caller" named).getD .undefined)
      else none)
  else throw .tooManyArguments

/-! ## Evaluation proper -/

mutual

/-- What an expression stands for. -/
def expression : Nat → Expr → Run Datum
  | 0, _ => exhausted
  | fuel + 1, e =>
    match e with
    | .literal l => pure l.datum
    | .variable name => do pure ((← lookup? name).getD .undefined)
    | .list items => do pure (.list (← items.mapM (expression fuel)))
    | .map entries => do
      let pairs ← entries.mapM fun (key, value) => do
        let key ← expression fuel key
        let value ← expression fuel value
        pure (← settled key, value)
      pure (Datum.ofPairs pairs)
    | .unary op operand => do
      let d ← expression fuel operand
      ofExcept (op.apply (← settled d))
    | .binary .and left right => do
      let a ← expression fuel left
      if (← settled a).isTrue then expression fuel right else pure a
    | .binary .or left right => do
      let a ← expression fuel left
      if (← settled a).isTrue then pure a else expression fuel right
    | .binary op left right => do
      let a ← expression fuel left
      let b ← expression fuel right
      ofExcept (op.apply (← settled a) (← settled b))
    | .choice test value otherwise => do
      if (← settled (← expression fuel test)).isTrue then expression fuel value
      else match otherwise with
        | some other => expression fuel other
        | none => pure .undefined
    | .attribute object name => do attributeOf (← expression fuel object) name
    | .item object key => do
      let d ← expression fuel object
      let key ← expression fuel key
      itemAt d (← settled key)
    | .slice object start stop step => do
      let d ← expression fuel object
      let bound (e? : Option Expr) : Run Datum :=
        match e? with
        | some e => expression fuel e
        | none => pure .none
      let start ← bound start
      let stop ← bound stop
      let step ← bound step
      ofExcept (Datum.slice d start stop step)
    | .call callee args => call fuel callee args none
    | .filter operand name args => do
      let d ← expression fuel operand
      let args ← evaluateArguments (expression fuel) args none
      applyFilter name (d :: args)
    | .check operand name args => do
      let d ← expression fuel operand
      let args ← evaluateArguments (expression fuel) args none
      applyCheck name (d :: args)

/-- What a call comes to. -/
def call : Nat → Expr → List Argument → Option Datum → Run Datum
  | 0, _, _, _ => exhausted
  | fuel + 1, callee, args, caller? =>
    match callee with
    | .variable name => do
      let args ← evaluateArguments (expression fuel) args caller?
      match name with
      | "super" =>
        if args.isEmpty then parentBlock fuel else raise (.invalid "super() takes no arguments")
      | "loop" =>
        match args with
        | [d] => loopAgain fuel d
        | _ => raise (.invalid "loop() takes one argument")
      | name =>
        match ← lookup? name with
        | some f => callDatum fuel f args
        | none => raise (.unknownFunction name)
    | .attribute (.variable "self") name => do
      let (_, text) ← captured (callBlock fuel name)
      capturedText text
    | .attribute object name => do
      let d ← expression fuel object
      let args ← evaluateArguments (expression fuel) args caller?
      callMethod fuel d name args
    | callee => do
      let f ← expression fuel callee
      let args ← evaluateArguments (expression fuel) args caller?
      callDatum fuel f args

/-- Calls a datum. -/
def callDatum : Nat → Datum → List Datum → Run Datum
  | 0, _, _ => exhausted
  | fuel + 1, f, args =>
    match f with
    | .macroRef head => callMacro fuel head args
    | .function .namespace => makeSpace args
    | .function .include => do
      let (name, data?) ← ofExcept (Reading.run (do
        let name ← Reading.required Reading.asText
        let data? ← Reading.optional Reading.asAny
        pure (name, data?)) args)
      .ofString <$> renderNamed fuel name data?
    | .function .toFile => do
      let (path, name, data?) ← ofExcept (Reading.run (do
        let path ← Reading.required Reading.asText
        let name ← Reading.required Reading.asText
        let data? ← Reading.optional Reading.asAny
        pure (path, name, data?)) args)
      match ← lookup? writerName with
      | some (.writer _) =>
        if ← permit path then
          let text ← renderNamed fuel name data?
          if ← write path text then pure (.ofString "") else raise (.fileNotWritten path)
        else raise .filesUnsupported
      | _ => raise .filesUnsupported
    | .function f => do
      let args ← args.mapM settled
      ofExcept (computed f args)
    | .loop _ => raise (.invalid "loop cannot be called if reassigned to different variable")
    | d => raise (.invalid ("value of type " ++ d.kind.name ++ " is not callable"))

/-- Calls a method of a datum. -/
def callMethod : Nat → Datum → String → List Datum → Run Datum
  | 0, _, _, _ => exhausted
  | fuel + 1, d, name, args =>
    match d, name with
    | .loop place, "changed" => do
      let loop ← loopAt place
      let same := match loop.last? with
        | some last => Datum.sameAll last args
        | none => false
      if same then pure (.bool false)
      else
        modifyLoop place fun loop => { loop with last? := some args }
        pure (.bool true)
    | .loop place, "cycle" => do
      let loop ← loopAt place
      pure ((args[loop.index % args.length]?).getD .undefined)
    | .loop _, name => raise (.unknownMethod name)
    | d, name => do
      match (← opened d).attribute? name with
      | some f => callDatum fuel f args
      | none => raise (.unknownMethod name)

/-- Calls a macro. It sees what it captured and the data of the template that calls it. -/
def callMacro : Nat → MacroHead → List Datum → Run Datum
  | 0, _, _ => exhausted
  | fuel + 1, head, args => do
    let m ← get
    if head.home ≠ m.home then
      raise (.invalid "cannot call this macro. template state went away.")
    let (values, caller?) ← ofExcept (matchArguments head args)
    let made := (m.store.macros[head.place]?).getD default
    let base := (m.frames.getLast?.map Frame.backdrop).getD .nothing
    let seen := match made.captured? with
      | some place => Backdrop.captured place
      | none => .nothing
    set { m with
      out := "", muted := false, frames := [{ backdrop := seen }, { backdrop := base }]
      outer := m.outer + m.frames.length + 4
      blocks := [], block? := none, extended := [], parent? := none }
    checkDepth
    match caller? with
    | some caller => assign "caller" caller
    | none => pure ()
    let defaults := made.defaults.reverse
    ((made.parameters.zip values).reverse.zipIdx).forM fun ((parameter, d), i) => do
      let d ← match d, defaults[i]? with
        | .undefined, some e => expression fuel e
        | d, _ => pure d
      assign parameter d
    segment fuel made.template made.body
    let after ← get
    set { m with store := after.store }
    capturedText after.out

/-- The text of a macro or a template, by its name. -/
def renderNamed : Nat → String → Option Datum → Run String
  | 0, _, _ => exhausted
  | fuel + 1, name, data? => do
    let found ← lookup? name
    match found with
    | some .undefined => renderLoaded fuel name data?
    | none => renderLoaded fuel name data?
    | some f => do
      let d ← callDatum fuel f data?.toList
      pure (← settled d).display

/-- The text of a template that has to be loaded. -/
def renderLoaded : Nat → String → Option Datum → Run String
  | 0, _, _ => exhausted
  | fuel + 1, name, data? => do
    let document ← loaded name
    let data ← freshData data?
    renderDocument fuel document data

/-- The text of a template with data of its own. -/
def renderDocument : Nat → Document → Datum → Run String
  | 0, _, _ => exhausted
  | fuel + 1, document, data => do
    let m ← get
    set { store := { m.store with homes := m.store.homes + 1 }
          template := document.name
          frames := [{ backdrop := .data data }]
          home := m.store.homes + 1
          blocks := layersOf document : Machine }
    segment fuel document.name document.body
    let after ← get
    set { m with store := after.store }
    pure after.out

/-- Follows the statements of a template or of a part of it, and then those of the template that it
extends. Faults belong to the template whose text is being followed. -/
def segment : Nat → String → List Statement → Run Unit
  | 0, _, _ => exhausted
  | fuel + 1, name, body => do
    let before ← get
    set { before with template := name, parent? := none }
    let _ ← mapFault (Fault.within name) (runAll (statement fuel) body)
    match (← get).parent? with
    | some parent =>
      modify fun m => { m with muted := before.muted }
      segment fuel parent.name parent.body
    | none => pure ()
    modify fun m => { m with template := before.template, parent? := before.parent? }

/-- Renders a block, unless another template takes the place of this one or nothing is put out. -/
def callBlock : Nat → String → Run Unit
  | 0, _ => exhausted
  | fuel + 1, name => do
    let m ← get
    if m.parent?.isNone && !m.muted then
      match (Entries.get? name m.blocks).bind fun block => block.layers[block.depth]? with
      | some (template, body) =>
        modify fun m => { m with block? := some name }
        inFrame {} (segment fuel template body)
        modify fun after => { after with block? := m.block? }
      | none => raise (.unknownBlock name)

/-- The text that the parent template has for the block that is being rendered. -/
def parentBlock : Nat → Run Datum
  | 0 => exhausted
  | fuel + 1 => do
    match (← get).block? with
    | none => raise (.invalid "cannot super outside of block")
    | some name =>
      let block := (Entries.get? name (← get).blocks).getD { layers := [] }
      match block.layers[block.depth + 1]? with
      | none => raise (.invalid "no parent block exists")
      | some (template, body) =>
        setLayer name (block.depth + 1)
        let failed (_ : Fault) : Fault := { cause := .parentBlock }
        let (_, text) ← mapFault failed (captured (inFrame {} (segment fuel template body)))
        setLayer name block.depth
        capturedText text

/-- Runs the innermost loop again over other items, and gives its text. -/
def loopAgain : Nat → Datum → Run Datum
  | 0, _ => exhausted
  | fuel + 1, d => do
    match (← innermostLoop?).bind FrameLoop.again? with
    | none => raise (.invalid "cannot recurse outside of recursive loop")
    | some again =>
      let (items, counted) ← itemsOf d
      let (_, text) ← captured (loopOver fuel again true items counted)
      capturedText text

/-- Runs a loop; true if it did not get to its second item and was not at its end. -/
def loopOver : Nat → LoopBody → Bool → List Datum → Bool → Run Bool
  | 0, _, _, _, _ => exhausted
  | fuel + 1, loop, recursive, items, counted => do
    let depth ← match ← innermostLoop? with
      | some outer =>
        if outer.again?.isSome then do pure ((← loopAt outer.place).depth + 1) else pure 0
      | none => pure 0
    let place ← newLoop { items, counted, index := 0, depth, last? := none }
    let own : FrameLoop := { place, visible := true, again? := if recursive then some loop else none }
    inFrame { loop? := some own } do
      let left ← forItems (fun i d => do
        modifyLoop place fun state => { state with index := i }
        assignTo (expression fuel) fuel loop.target d
        runAll (statement fuel) loop.body) 0 items
      if !left then modifyLoop place fun state => { state with index := items.length }
      pure ((← loopAt place).index = 0)

/-- The items of a loop that pass its condition. -/
def filtered : Nat → Target → Expr → List Datum → Run (List Datum)
  | 0, _, _, _ => exhausted
  | fuel + 1, target, test, items => do
    let place ← newLoop { items, counted := true, index := 0, depth := 0, last? := none }
    inFrame { loop? := some { place, visible := false, again? := none } } <|
      keepItems (fun d => do
        assignTo (expression fuel) fuel target d
        let d ← expression fuel test
        pure (← settled d).isTrue) items

/-- Puts the text of a template in the place of a statement. -/
def splice : Nat → Datum → Bool → Run Unit
  | 0, _, _ => exhausted
  | fuel + 1, d, ignoreMissing => do
    let names := match d with
      | .list items => items
      | .stream items _ => items
      | d => [d]
    match ← firstLoaded names with
    | none =>
      if ignoreMissing || names.isEmpty then pure ()
      else raise (.templateNotFound (", ".intercalate (names.map Datum.display)))
    | some document =>
      let m ← get
      let captured? := (← frame).captured?
      modifyFrame fun frame => { frame with captured? := none }
      modify fun m => { m with escaping := .none, blocks := layersOf document, outer := m.outer + 10 }
      checkDepth
      let failed (_ : Fault) : Fault := { cause := .includedTemplate document.name }
      mapFault failed (segment fuel document.name document.body)
      modifyFrame fun frame => { frame with captured? }
      modify fun after => { after with
        escaping := m.escaping, blocks := m.blocks, outer := m.outer, extended := m.extended }

/-- Follows a statement. -/
def statement : Nat → Statement → Run Signal
  | 0, _ => exhausted
  | fuel + 1, s =>
    match s with
    | .data text => do
      emit text
      pure .normal
    | .print e => do
      let d ← expression fuel e
      print d
      pure .normal
    | .loop target e onlyIf recursive body otherwise => do
      let (items, counted) ← itemsOf (← expression fuel e)
      let (items, counted) ← match onlyIf with
        | some test => do pure (← filtered fuel target test items, true)
        | none => pure (items, counted)
      let without ← loopOver fuel { target, body } recursive items counted
      if without then runAll (statement fuel) otherwise else pure .normal
    | .branch test body otherwise => do
      if (← settled (← expression fuel test)).isTrue then runAll (statement fuel) body
      else runAll (statement fuel) otherwise
    | .scope assignments body =>
      inFrame {} do
        assignments.forM fun (target, e) => do
          let d ← expression fuel e
          assignTo (expression fuel) fuel target d
        runAll (statement fuel) body
    | .assign target e => do
      let d ← expression fuel e
      assignTo (expression fuel) fuel target d
      pure .normal
    | .assignText target filters body => do
      let (signal, text) ← captured (runAll (statement fuel) body)
      let d ← filterText fuel filters (← capturedText text)
      assignTo (expression fuel) fuel target d
      pure signal
    | .escaping mode body => do
      let outside := (← get).escaping
      let inside ← escapingOf (← expression fuel mode)
      modify fun m => { m with escaping := inside }
      let signal ← runAll (statement fuel) body
      modify fun m => { m with escaping := outside }
      pure signal
    | .filtered filters body => do
      let (signal, text) ← captured (runAll (statement fuel) body)
      let d ← filterText fuel filters (← capturedText text)
      print d
      pure signal
    | .block name _ => do
      callBlock fuel name
      pure .normal
    | .parent e => do
      let d ← expression fuel e
      extend d
      pure .normal
    | .splice e ignoreMissing => do
      let d ← expression fuel e
      splice fuel d ignoreMissing
      pure .normal
    | .importAll e target => do
      let exported ← silenced <| inFrame {} do
        let d ← expression fuel e
        splice fuel d false
        pure (mapOf (← frame).locals)
      assignTo (expression fuel) fuel target exported
      pure .normal
    | .importNames e names => do
      let values ← silenced <| inFrame {} do
        let d ← expression fuel e
        splice fuel d false
        names.mapM fun entry => do pure (entry.2, (← lookup? entry.1).getD .undefined)
      values.forM fun (name, d) => assign name d
      pure .normal
    | .define name parameters defaults body => do
      let made ← makeMacro name parameters defaults body
      assign name made
      pure .normal
    | .callWith callee args parameters defaults body => do
      let caller ← makeMacro "caller" parameters defaults body
      let d ← call fuel callee args (some caller)
      print d
      pure .normal
    | .run callee args => do
      let _ ← call fuel callee args none
      pure .normal
    | .next => pure .next
    | .leave => pure .leave

/-- Puts text through filters, one after the other. -/
def filterText : Nat → List FilterCall → Datum → Run Datum
  | 0, _, _ => exhausted
  | fuel + 1, filters, d =>
    filters.foldlM (fun d filter => do
      let args ← evaluateArguments (expression fuel) filter.arguments none
      applyFilter filter.name (d :: args)) d

end

end Run

/-- Everything that a template does with its data, nested no deeper than so many levels. -/
def Document.rendering (depth : Nat) (document : Document) (data : Datum) : Rendering String :=
  (Run.renderDocument depth document data {}).bind fun (text, _) => .done text

end Stencil.Template
