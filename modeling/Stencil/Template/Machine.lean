import Stencil.Template.Capture
import Stencil.Template.Check
import Stencil.Template.Rendering

/-!
# The state of an evaluation

Names are looked up frame by frame, the innermost first: what was assigned there, the loop that the frame
belongs to, and what lies behind the frame, which is the data of the template or what a macro captured.
Behind all frames are the functions that every template has.

What changes while data refer to it is kept in a store: loops, namespaces, what macros captured, and the
bodies of macros. The store is shared by all evaluations that one rendering starts; everything else belongs
to one evaluation.
-/

namespace Stencil.Template

/-- How deep frames may be nested; a macro and a spliced template count for several. -/
def maxFrames : Nat := 500

/-- A loop that is being run. -/
structure LoopState where
  items : List Datum
  counted : Bool
  /-- The number of items before the present one. -/
  index : Nat
  depth : Nat
  /-- What was last asked about whether it changed. -/
  last? : Option (List Datum)
  deriving Inhabited

/-- A macro's parameters and body, and the template that it stands in. -/
structure MacroBody where
  template : String
  parameters : List String
  defaults : List Expr
  body : List Statement
  captured? : Option Nat
  deriving Inhabited

/-- What data refer to by its place. -/
structure Store where
  loops : Array LoopState := #[]
  spaces : Array (Entries Datum) := #[]
  captures : Array (Entries Datum) := #[]
  macros : Array MacroBody := #[]
  /-- The number of evaluations that were started. -/
  homes : Nat := 0
  deriving Inhabited

/-- What a recursive loop runs again. -/
structure LoopBody where
  target : Target
  body : List Statement
  deriving Inhabited

/-- The loop of a frame. -/
structure FrameLoop where
  place : Nat
  /-- Whether it has a name. -/
  visible : Bool
  again? : Option LoopBody
  deriving Inhabited

/-- What lies behind a frame. -/
inductive Backdrop where
  | nothing
  | data (d : Datum)
  /-- What a macro captured. -/
  | captured (place : Nat)
  deriving Inhabited

/-- A scope of names. -/
structure Frame where
  locals : Entries Datum := []
  loop? : Option FrameLoop := none
  backdrop : Backdrop := .nothing
  /-- What the macros that are made in this frame capture. -/
  captured? : Option Nat := none
  deriving Inhabited

/-- A block as a template and the templates that it extends have it, the outermost child first. -/
structure BlockLayers where
  layers : List (String × List Statement)
  /-- The layer that is being rendered. -/
  depth : Nat := 0
  deriving Inhabited

/-- An evaluation under way. -/
structure Machine where
  store : Store := {}
  /-- The template whose text is being followed. -/
  template : String := ""
  out : String := ""
  /-- Whether the output is thrown away. -/
  muted : Bool := false
  /-- The frames, the innermost first. -/
  frames : List Frame := []
  /-- How deep the frames around this evaluation are nested. -/
  outer : Nat := 0
  escaping : Escaping := .none
  home : Nat := 0
  blocks : Entries BlockLayers := []
  block? : Option String := none
  /-- The templates that were extended. -/
  extended : List String := []
  /-- The template to be rendered in the place of this one. -/
  parent? : Option Document := none
  deriving Inhabited

/-- How a statement ends. -/
inductive Signal where
  | normal
  /-- On to the next item of the loop. -/
  | next
  /-- Out of the loop. -/
  | leave
  deriving DecidableEq, Inhabited

/-- A step of an evaluation. -/
abbrev Run (α : Type) := StateT Machine Rendering α

namespace Run

variable {α : Type}

/-- Ends with a fault. -/
def raise (cause : Cause) : Run α := fun _ => Rendering.raise cause

/-- Ends because evaluations are nested too deep. -/
def exhausted : Run α := fun _ => .exhausted

/-- A result, or the end with a fault. -/
def ofExcept (result : Except Cause α) : Run α :=
  match result with
  | .ok a => pure a
  | .error cause => raise cause

/-- Asks for a template. -/
def load (name : String) : Run (Except LoadFault Document) :=
  fun m => .load name fun answer => .done (answer, m)

/-- Asks for leave to write a file. -/
def permit (path : String) : Run Bool := fun m => .permit path fun answer => .done (answer, m)

/-- Asks to write a file. -/
def write (path text : String) : Run Bool :=
  fun m => .write path text fun answer => .done (answer, m)

/-- A step with its faults changed. -/
def mapFault (f : Fault → Fault) (step : Run α) : Run α := fun m => (step m).mapFault f

/-! ## The store -/

/-- Changes the store. -/
def modifyStore (f : Store → Store) : Run Unit := modify fun m => { m with store := f m.store }

/-- What was last known of a loop. -/
def loopAt (place : Nat) : Run LoopState := do pure ((← get).store.loops[place]?.getD default)

/-- Changes a loop. -/
def modifyLoop (place : Nat) (f : LoopState → LoopState) : Run Unit :=
  modifyStore fun store => { store with loops := store.loops.modify place f }

/-- Keeps a new loop. -/
def newLoop (state : LoopState) : Run Nat := do
  let place := (← get).store.loops.size
  modifyStore fun store => { store with loops := store.loops.push state }
  pure place

/-- Keeps a new namespace. -/
def newSpace (entries : Entries Datum) : Run Nat := do
  let place := (← get).store.spaces.size
  modifyStore fun store => { store with spaces := store.spaces.push entries }
  pure place

/-- The number of items that a loop has, where it is known. -/
def countOf (loop : LoopState) : Option Nat := if loop.counted then some loop.items.length else none

/-- A number, or nothing. -/
def numberOr (n? : Option Nat) : Datum :=
  match n? with
  | some n => .integer n
  | none => .undefined

/-- What a loop tells about itself. -/
def loopAttributes (loop : LoopState) : Entries Datum :=
  let i := loop.index
  let before := if i = 0 then none else loop.items[i - 1]?
  [ ("depth", .integer (loop.depth + 1 : Nat)), ("depth0", .integer loop.depth),
    ("first", .bool (i = 0)), ("index", .integer (i + 1 : Nat)), ("index0", .integer i),
    ("last", .bool (loop.items.length ≤ i + 1)), ("length", numberOr (countOf loop)),
    ("nextitem", (loop.items[i + 1]?).getD .undefined), ("previtem", before.getD .undefined),
    ("revindex", numberOr ((countOf loop).map (· - i))),
    ("revindex0", numberOr ((countOf loop).map (· - i - 1))) ]

/-- What a loop is shown as. -/
def loopLabel (loop : LoopState) : String :=
  let count := match countOf loop with
    | some n => toString n
    | none => "?"
  "<loop " ++ toString loop.index ++ "/" ++ count ++ ">"

/-- Entries as a map. -/
def mapOf (entries : Entries Datum) : Datum :=
  Datum.ofPairs (entries.map fun entry => (.ofString entry.1, entry.2))

/-- Whether a datum refers to the store, down to a depth. -/
def refers : Nat → Datum → Bool
  | 0, _ => false
  | fuel + 1, d =>
    match d with
    | .loop _ => true
    | .space _ => true
    | .list items => items.any (refers fuel)
    | .stream items _ => items.any (refers fuel)
    | .map entries => entries.any fun entry => refers fuel entry.1 || refers fuel entry.2
    | .named entries => entries.any fun entry => refers fuel entry.2
    | .group common items => refers fuel common || items.any (refers fuel)
    | _ => false

/-- A datum with what it refers to in its place, down to a depth. -/
def settle (store : Store) : Nat → Datum → Datum
  | 0, _ => .label "..."
  | fuel + 1, d =>
    match d with
    | .loop place => .label (loopLabel (store.loops[place]?.getD default))
    | .space place =>
      mapOf ((store.spaces[place]?.getD []).map fun entry => (entry.1, settle store fuel entry.2))
    | .list items => .list (items.map (settle store fuel))
    | .stream items counted => .stream (items.map (settle store fuel)) counted
    | .map entries =>
      .map (entries.map fun entry => (settle store fuel entry.1, settle store fuel entry.2))
    | .named entries => .named (entries.map fun entry => (entry.1, settle store fuel entry.2))
    | .group common items => .group (settle store fuel common) (items.map (settle store fuel))
    | d => d

/-- How deep data are looked into for references. -/
def settleDepth : Nat := 200

/-- A datum with what it refers to in its place. -/
def settled (d : Datum) : Run Datum := do
  if refers settleDepth d then pure (settle (← get).store settleDepth d) else pure d

/-- A datum with what it itself refers to in its place. -/
def opened (d : Datum) : Run Datum := do
  match d with
  | .loop place => pure (mapOf (loopAttributes (← loopAt place)))
  | .space place => pure (mapOf ((← get).store.spaces[place]?.getD []))
  | d => pure d

/-! ## Output -/

/-- Puts text out. -/
def emit (text : String) : Run Unit :=
  modify fun m => if m.muted then m else { m with out := m.out ++ text }

/-- The text that a step puts out, which goes nowhere else, and its result. -/
def captured (step : Run α) : Run (α × String) := do
  let outside := (← get).out
  let muted := (← get).muted
  modify fun m => { m with out := "", muted := false }
  let a ← step
  let text := (← get).out
  modify fun m => { m with out := outside, muted }
  pure (a, text)

/-- A step whose output is thrown away. -/
def silenced (step : Run α) : Run α := do
  let muted := (← get).muted
  modify fun m => { m with muted := true }
  let a ← step
  modify fun m => { m with muted }
  pure a

/-- Captured text as a datum, safe if the output is escaped. -/
def capturedText (text : String) : Run Datum := do
  pure (.text text ((← get).escaping ≠ .none))

/-! ## Frames -/

/-- How deep frames are nested. -/
def depth : Run Nat := do
  let m ← get
  pure (m.outer + m.frames.length)

/-- Ends with a fault where frames are nested too deep. -/
def checkDepth : Run Unit := do
  if (← depth) > maxFrames then raise (.invalid "recursion limit exceeded")

/-- A step in a frame of its own. -/
def inFrame (frame : Frame) (step : Run α) : Run α := do
  checkDepth
  modify fun m => { m with frames := frame :: m.frames }
  let a ← step
  modify fun m => { m with frames := m.frames.drop 1 }
  pure a

/-- Changes the innermost frame. -/
def modifyFrame (f : Frame → Frame) : Run Unit :=
  modify fun m => match m.frames with
    | frame :: rest => { m with frames := f frame :: rest }
    | [] => m

/-- The innermost frame. -/
def frame : Run Frame := do pure ((← get).frames.head?.getD {})

/-- What a name stands for in one frame. -/
def frameLookup? (store : Store) (name : String) (frame : Frame) : Option Datum :=
  match Entries.get? name frame.locals with
  | some d => some d
  | none =>
    let ofLoop := match frame.loop? with
      | some loop => if loop.visible && name = "loop" then some (Datum.loop loop.place) else none
      | none => none
    match ofLoop with
    | some d => some d
    | none =>
      match frame.backdrop with
      | .nothing => none
      | .data d => d.attribute? name
      | .captured place => Entries.get? name (store.captures[place]?.getD [])

/-- The functions by their names. -/
def builtin? (name : String) : Option Builtin :=
  match name with
  | "range" => some .range
  | "dict" => some .dict
  | "debug" => some .debug
  | "namespace" => some .namespace
  | "include" => some .include
  | "toFile" => some .toFile
  | "os" => some .os
  | "arch" => some .arch
  | "joinSingleQuote" => some .joinSingleQuote
  | "joinDoubleQuote" => some .joinDoubleQuote
  | _ => none

/-- What a name stands for. -/
def lookup? (name : String) : Run (Option Datum) := do
  let m ← get
  match m.frames.findSome? (frameLookup? m.store name) with
  | some d => pure (some d)
  | none => pure ((builtin? name).map .function)

/-- Assigns a datum to a name in the innermost frame, and for the macros that were made there. -/
def assign (name : String) (d : Datum) : Run Unit := do
  match (← frame).captured? with
  | some place =>
    modifyStore fun store =>
      { store with captures := store.captures.modify place (Entries.put name d) }
  | none => pure ()
  modifyFrame fun frame => { frame with locals := Entries.put name d frame.locals }

/-- The place for what the macros of the innermost frame capture. -/
def capturePlace : Run Nat := do
  match (← frame).captured? with
  | some place => pure place
  | none =>
    let place := (← get).store.captures.size
    modifyStore fun store => { store with captures := store.captures.push [] }
    modifyFrame fun frame => { frame with captured? := some place }
    pure place

/-- Captures a name for the macros of the innermost frame, unless they have it. -/
def capture (name : String) : Run Unit := do
  let place ← capturePlace
  let d := (← lookup? name).getD .undefined
  modifyStore fun store =>
    { store with captures := store.captures.modify place fun entries =>
        if Entries.contains name entries then entries else Entries.put name d entries }

/-- The innermost loop. -/
def innermostLoop? : Run (Option FrameLoop) := do pure ((← get).frames.findSome? Frame.loop?)

/-! ## Data -/

/-- An attribute of a datum; what is missing has none to ask for. -/
def attributeOf (d : Datum) (name : String) : Run Datum := do
  match ← opened d with
  | .undefined => raise .undefinedValue
  | d => pure ((d.attribute? name).getD .undefined)

/-- What a key of a datum leads to. -/
def itemAt (d key : Datum) : Run Datum := do
  match ← opened d with
  | .undefined => raise .undefinedValue
  | d => pure ((d.item? key).getD .undefined)

/-- The items of a datum, and whether their number is known beforehand. -/
def itemsOf (d : Datum) : Run (List Datum × Bool) := do
  match ← opened d with
  | .stream items counted => pure (items, counted)
  | d =>
    match d.items? with
    | some items => pure (items, true)
    | none => raise (.invalid (d.kind.name ++ " is not iterable"))

/-- The items of a list or a map that are given names. -/
def unpacked (count : Nat) (d : Datum) : Run (List Datum) := do
  let d ← opened d
  let items? := match d.kind with
    | .undefined => none
    | .none => none
    | .text => none
    | _ => d.items?
  match items? with
  | some items => if items.length = count then pure items else raise .cannotUnpack
  | none => raise .cannotUnpack

end Run

end Stencil.Template
