import DawScript.Run.State
import DawScript.Syntax.Expr

/-!
# Commands

The calls that emit actions or aim at a track. A command runs on the values of its arguments;
commands for a track go to the bound track or else to the first selected one.
-/

namespace DawScript

/-!
## Arguments and parameters

A keyword argument goes to the parameter of its name; a positional one goes to the parameter at the
place where it stands among all arguments of the call.
-/

/-- The parameter that the argument at a position is meant for. -/
def parameter? {α : Type} (parameters : List String) (position : Nat) (a : Arg α) :
    Option String :=
  match a.keyword with
  | some k => if k ∈ parameters then some k else none
  | none => parameters[position]?

/-- An argument as the fault that it is unexpected names it. -/
def argumentName {α : Type} (position : Nat) (a : Arg α) : String :=
  a.keyword.getD ("#" ++ toString (position + 1))

/-- Gives the arguments from a position on to their parameters, none of which may be given
twice. -/
def assignFrom {α : Type} (parameters : List String) :
    Nat → List (String × α) → List (Arg α) → Except Fault (List (String × α))
  | _, given, [] => .ok given
  | position, given, a :: rest =>
    match parameter? parameters position a with
    | none => .error (.unexpectedArgument (argumentName position a))
    | some p =>
      if (given.lookup p).isSome then .error (.unexpectedArgument (argumentName position a))
      else assignFrom parameters (position + 1) (given ++ [(p, a.value)]) rest

/-- The arguments of a call by their parameters. -/
def assign {α : Type} (parameters : List String) (arguments : List (Arg α)) :
    Except Fault (List (String × α)) :=
  assignFrom parameters 0 [] arguments

/-- The argument for a parameter that has to be given. -/
def required {α : Type} (given : List (String × α)) (parameter : String) : Except Fault α :=
  match given.lookup parameter with
  | some a => .ok a
  | none => .error (.missingArgument parameter)

/-- The values of arguments by their parameters. Null counts as no value and does not occur. -/
abbrev Values := List (String × Value)

namespace Values

/-- The value for a parameter, if it is given; it has to be of the type that `read` reads. -/
def typed {α : Type} (type : ArgumentType) (read : Value → Option α) (values : Values)
    (parameter : String) : Except Fault (Option α) :=
  match values.lookup parameter with
  | none => .ok none
  | some v => match read v with
    | some x => .ok (some x)
    | none => .error (.invalidArgument parameter (.wrongType type v.kind))

/-- An integer argument. -/
def int : Values → String → Except Fault (Option Int64) := typed .int Value.int?

/-- An argument that is a number of either kind. -/
def number : Values → String → Except Fault (Option Float) := typed .number Value.float?

/-- An argument that is a truth value. -/
def bool : Values → String → Except Fault (Option Bool) := typed .bool Value.bool?

/-- An argument that is a text. -/
def string : Values → String → Except Fault (Option String) := typed .string Value.string?

/-- An argument that is a list. -/
def list : Values → String → Except Fault (Option (List Value)) := typed .list Value.list?

end Values

/-! ## What commands do -/

/-- A property of a track that can be set. -/
inductive Property where
  | volume
  | pan
  | mute
  | solo
  | name
deriving DecidableEq, Repr

/-- A call that emits an action or aims at a track. -/
inductive Command where
  | track
  | newClip
  | addMidi
  | addFx
  | set (p : Property)
deriving DecidableEq, Repr

namespace Property

/-- The field that carries a property. -/
def field : Property → String
  | .volume => "volume_db"
  | .pan => "pan"
  | .mute => "mute"
  | .solo => "solo"
  | .name => "name"

/-- The kind of action that sets a property. -/
def actionKind : Property → ActionKind
  | .volume => .setTrackVolume
  | .pan => .setTrackPan
  | .mute => .setTrackMute
  | .solo => .setTrackSolo
  | .name => .setTrackName

/-- The type of a property. -/
def type : Property → ArgumentType
  | .volume | .pan => .number
  | .mute | .solo => .bool
  | .name => .string

/-- A value as the payload of a property: numbers become floating-point numbers, and what is not
of the type of the property has no payload. -/
def payload? (p : Property) (v : Value) : Option Value :=
  match p with
  | .volume | .pan => v.float?.map .float
  | .mute | .solo => v.bool?.map .bool
  | .name => v.string?.map .string

end Property

namespace Command

/-- All commands. -/
def all : List Command :=
  [.track, .newClip, .addMidi, .addFx, .set .volume, .set .pan, .set .mute, .set .solo, .set .name]

/-- The name of a command. -/
def name : Command → String
  | .track => "track"
  | .newClip => "new_clip"
  | .addMidi => "add_midi"
  | .addFx => "add_fx"
  | .set .volume => "set_volume"
  | .set .pan => "set_pan"
  | .set .mute => "set_mute"
  | .set .solo => "set_solo"
  | .set .name => "set_name"

/-- The command with a name. -/
def ofName? (s : String) : Option Command := all.find? fun c => c.name == s

/-- The parameters of a command in order. -/
def parameters : Command → List String
  | .track => ["instrument", "name", "index", "id", "selected"]
  | .newClip => ["bar", "start", "end", "length_bars", "length", "position"]
  | .addMidi => ["notes", "note"]
  | .addFx => ["fxname", "instrument"]
  | .set p => [p.field, "value"]

/-- A field of a payload, if there is a text for it. -/
def textField (name : String) (text : Option String) : List (String × Value) :=
  match text with
  | some s => [(name, .string s)]
  | none => []

/-- The index for a new track: the one asked for, after which the counter goes on, or the next. -/
def placeTrack (index : Option Int64) : Run Int64 := do
  match index with
  | some i =>
    if i < 0 then throw (.invalidArgument "index" .indexNegative)
    Run.countFrom i
    return i
  | none => Run.nextIndex

/-- Creates a track and aims at it. -/
def createTrack (values : Values) : Run Unit := do
  let instrument ← values.string "instrument"
  let name ← values.string "name"
  -- the counter moves on before the track is aimed at
  let index ← placeTrack (← values.int "index")
  Run.aim index
  Run.emit .createTrack
    (textField "instrument" instrument ++ textField "name" name ++ [("index", .int index)])

/-- `track`: aims at a track by its number or at the selected track, or creates one. -/
def runTrack (env : Env) (values : Values) : Run Unit := do
  if let some id ← values.int "id" then
    -- the numbers of tracks count from one, their positions from zero
    match word? (id.toInt - 1) with
    | some index => Run.aim index
    | none => throw (.invalidArgument "id" .idTooSmall)
  else if (← values.bool "selected") = some true then
    match env.selected? with
    | some index => Run.aim index
    | none => throw .noSelectedTrack
  else createTrack values

/-- `new_clip`: creates a clip at a bar, or at a position in time. -/
def runNewClip (env : Env) (values : Values) : Run Unit := do
  let track ← Run.track env "new_clip"
  if let some bar ← values.int "bar" then
    -- a bar wins over a position in time
    let length ← values.int "length_bars"
    Run.emit .createClipAtBar
      [("track", .int track), ("bar", .int bar),
       ("length_bars", .int (length.getD env.config.lengthBars))]
  else
    let start ← values.number "start"
    let position ← match start with
      | some x => pure x
      | none => match ← values.number "position" with
        | some x => pure x
        | none => throw .missingClipAnchor
    let length ← values.number "length"
    Run.emit .createClip
      [("track", .int track), ("position", .float position),
       ("length", .float (length.getD env.config.clipLength))]

/-- `add_midi`: adds notes; a single note replaces a list of them. -/
def runAddMidi (env : Env) (values : Values) : Run Unit := do
  let track ← Run.track env "add_midi"
  let notes ← values.list "notes"
  let notes := match values.lookup "note" with
    | some note => [note]
    | none => notes.getD []
  Run.emit .addMidi [("track", .int track), ("notes", .list notes)]

/-- `add_fx`: adds an effect, or an instrument if no effect is named. -/
def runAddFx (env : Env) (values : Values) : Run Unit := do
  let track ← Run.track env "add_fx"
  if let some fx ← values.string "fxname" then
    Run.emit .addTrackFx [("track", .int track), ("fxname", .string fx)]
  else if let some instrument ← values.string "instrument" then
    Run.emit .addInstrument [("track", .int track), ("fxname", .string instrument)]
  else throw .missingFxTarget

/-- The value that a property is set to, with the parameter it was given for: the one of its own
name before `value`. -/
def propertyValue? (p : Property) (values : Values) : Option (String × Value) :=
  match values.lookup p.field with
  | some v => some (p.field, v)
  | none => (values.lookup "value").map fun v => ("value", v)

/-- `set_volume`, `set_pan`, `set_mute`, `set_solo` and `set_name`. -/
def runSet (env : Env) (p : Property) (values : Values) : Run Unit := do
  -- without a track the value does not matter
  let track ← Run.track env (Command.set p).name
  match propertyValue? p values with
  | none => throw (.missingArgument p.field)
  | some (parameter, v) => match p.payload? v with
    | some payload => Run.emit p.actionKind [("track", .int track), (p.field, payload)]
    | none => throw (.invalidArgument parameter (.wrongType p.type v.kind))

/-- Runs a command on the values of its arguments. -/
def run (env : Env) (c : Command) (values : Values) : Run Unit :=
  match c with
  | .track => runTrack env values
  | .newClip => runNewClip env values
  | .addMidi => runAddMidi env values
  | .addFx => runAddFx env values
  | .set p => runSet env p values

/-- The values that a command has for an item that is no track: the item stands for the first
parameter without a value, unless it is null. -/
def fillIn (c : Command) (values : Values) (item : Value) : Values :=
  match c.parameters.find? fun p => (values.lookup p).isNone with
  | some p => if item.isNull then values else values ++ [(p, item)]
  | none => values

/-- The values that a command has for a track: `add_fx` without an effect or an instrument adds
the default effect. -/
def withDefaultFx (env : Env) (c : Command) (values : Values) : Values :=
  if c = .addFx ∧ (values.lookup "fxname").isNone ∧ (values.lookup "instrument").isNone then
    values ++ [("fxname", .string env.config.fx)]
  else values

/-- Runs a command on an item. An item with an integer index is a track, which the command is aimed
at for this once; any other item fills a parameter. -/
def runOnItem (env : Env) (c : Command) (values : Values) (item : Value) : Run Unit := do
  match (item.field? "index").bind Value.int? with
  | none => c.run env (c.fillIn values item)
  | some index => Run.aimedAt index (c.run env (c.withDefaultFx env values))

end Command

end DawScript
