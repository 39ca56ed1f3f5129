import DawScript.Action
import DawScript.Fault
import DawScript.Session.Basic

/-!
# The state of a run

All that changes while a script runs: the track that calls are aimed at, the counter for new
tracks, the stored symbols, the actions emitted so far and the items passed over. A step of a run
may fail, and it leaves its state behind also then. What a run only reads are the session and the
defaults of its configuration; the value of a path is looked up in both, the state first.
-/

namespace DawScript

/-- The defaults of a run. `strict` makes the first failing item of a combinator end the run. -/
structure Config where
  lengthBars : Int64 := 4
  clipLength : Float := 4.0
  strict : Bool := false
  fx : String := "ReaVerb"


/-- The item that a combinator is visiting, under the name it has meanwhile. -/
structure Binding where
  name : String
  item : Value

/-- The item of a binding, if it goes by this name. -/
def Binding.get? (b : Binding) (name : String) : Option Value :=
  if b.name = name then some b.item else none

/-- An item that a combinator passed over. -/
structure SkippedItem where
  combinator : String
  position : Nat
  reason : String
deriving DecidableEq, Repr

/-- What a run has done so far. `target` is the bound track, negative if there is none. -/
structure State where
  target : Int64
  counter : Int64
  symbols : List (String × Value)
  actions : Array Action
  skipped : Array SkippedItem

/-- What a run only reads: the session, if there is one, and the defaults. -/
structure Env where
  session : Option Session
  config : Config

/-- The position of the first selected track, which has to be a word. -/
def Env.selected? (env : Env) : Option Int64 :=
  (env.session.bind Session.selected?).bind fun position => word? position

/-- A step of a run: it changes the state and may fail. -/
abbrev Run (α : Type) := ExceptT Fault (StateM State) α

namespace State

/-- The target of a run that is aimed at no track. -/
def noTrack : Int64 := -1

/-- A state with nothing done yet but the actions of earlier runs. -/
def fresh (actions : Array Action) : State := ⟨noTrack, 0, [], actions, #[]⟩

/-- The bound track, if there is one. -/
def track? (s : State) : Option Int64 := if 0 ≤ s.target then some s.target else none

/-- The value stored under a name. -/
def symbol? (name : String) (s : State) : Option Value := Fields.find? name s.symbols

/-- Stores a value in place of what was under its name. -/
def store (name : String) (v : Value) (s : State) : State :=
  { s with symbols := Fields.insert name v s.symbols }

/-- Appends an action. -/
def emit (a : Action) (s : State) : State := { s with actions := s.actions.push a }

/-- Appends an item passed over. -/
def skip (item : SkippedItem) (s : State) : State := { s with skipped := s.skipped.push item }

end State

namespace Run

/-- Aims the calls that follow at a track. -/
def aim (track : Int64) : Run Unit := modify fun s => { s with target := track }

/-- Runs a step with another track bound and binds the one from before again, also if the step
fails. -/
def aimedAt {α : Type} (track : Int64) (step : Run α) : Run α :=
  ExceptT.mk fun s =>
    let (outcome, after) := step.run.run { s with target := track }
    (outcome, { after with target := s.target })

/-- The bound track or the first selected one; `call` asks for it. -/
def track (env : Env) (call : String) : Run Int64 := do
  match (← get).track? with
  | some t => return t
  | none => match env.selected? with
    | some t => return t
    | none => throw (.noTrackContext call)

/-- Lets the counter go on after a track placed at `index`. -/
def countFrom (index : Int64) : Run Unit :=
  match word? (index.toInt + 1) with
  | some next => modify fun s => { s with counter := next }
  | none => throw (.invalidArgument "index" .indexExhausted)

/-- The next index for a new track. -/
def nextIndex : Run Int64 := do
  let index := (← get).counter
  countFrom index
  return index

/-- Stores a value under a name. -/
def store (name : String) (v : Value) : Run Unit := modify (State.store name v)

/-- Emits an action of a kind with the given fields. -/
def emit (kind : ActionKind) (fields : List (String × Value)) : Run Unit :=
  modify (State.emit (.of kind fields))

/-- The value of an evaluation, or its fault. -/
def evaluated (result : Except EvalFault Value) : Run Value :=
  match result with
  | .ok v => pure v
  | .error cause => throw (.evaluation cause)

end Run

/-!
## Looking up paths

The root of a path is what the combinator is visiting, else a stored symbol, else one of the two
names of the session; from there each segment names a field of a map or an item of a list.
-/

namespace Value

/-- The value one segment further: a field of a map, or an item of a list by its position. -/
def step (v : Value) (segment : String) : Except Fault Value :=
  let found := match v with
    | .map fields => Fields.find? segment fields
    | .list items => (Decimal.natural? segment.toList).bind fun i => items[i]?
    | _ => none
  match found with
  | some inner => .ok inner
  | none => .error (.propertyNotFound segment v.kind)

/-- The value at the end of a path; the first segment that leads nowhere is reported. -/
def follow (v : Value) (path : List String) : Except Fault Value := path.foldlM step v

end Value

/-- The value that a root name stands for. -/
def rootValue (root : String) (scope : Option Binding) (symbols : List (String × Value))
    (session : Option Session) : Except Fault Value :=
  let known := (scope.bind (·.get? root)).or (Fields.find? root symbols)
  match known, root, session with
  | some v, _, _ => .ok v
  | none, "tracks", some s => .ok s.tracksValue
  | none, "state", some s => .ok s.toValue
  | none, _, _ => .error (.unknownIdentifier root)

/-- The value of a path. -/
def lookUp (root : String) (path : List String) (scope : Option Binding)
    (symbols : List (String × Value)) (session : Option Session) : Except Fault Value := do
  (← rootValue root scope symbols session).follow path

end DawScript
