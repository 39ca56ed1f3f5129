import DawScript.Value.Json

/-!
# Actions

What a script intends to do to a session: an action has a kind and a payload of named values. In
its JSON form the name of the kind stands beside the payload under `action`.
-/

namespace DawScript

/-- What an action does to the session. -/
inductive ActionKind where
  | createTrack
  | createClip
  | createClipAtBar
  | addMidi
  | addTrackFx
  | addInstrument
  | setTrackVolume
  | setTrackPan
  | setTrackMute
  | setTrackSolo
  | setTrackName
deriving DecidableEq, Repr

namespace ActionKind

/-- All kinds of actions. -/
def all : List ActionKind :=
  [.createTrack, .createClip, .createClipAtBar, .addMidi, .addTrackFx, .addInstrument,
   .setTrackVolume, .setTrackPan, .setTrackMute, .setTrackSolo, .setTrackName]

/-- The name of a kind. -/
def name : ActionKind → String
  | .createTrack => "create_track"
  | .createClip => "create_clip"
  | .createClipAtBar => "create_clip_at_bar"
  | .addMidi => "add_midi"
  | .addTrackFx => "add_track_fx"
  | .addInstrument => "add_instrument"
  | .setTrackVolume => "set_track_volume"
  | .setTrackPan => "set_track_pan"
  | .setTrackMute => "set_track_mute"
  | .setTrackSolo => "set_track_solo"
  | .setTrackName => "set_track_name"

/-- The kind with a name. -/
def ofName? (s : String) : Option ActionKind := all.find? fun kind => kind.name == s

end ActionKind

/-- One intended effect on the session. The payload is in the order of its names. -/
structure Action where
  kind : ActionKind
  payload : List (String × Value)

namespace Action

/-- The action with the given fields; of two fields under one name the later one counts. -/
def of (kind : ActionKind) (fields : List (String × Value)) : Action :=
  ⟨kind, Fields.ofList fields⟩

/-- The value of a field of the payload. -/
def field? (name : String) (a : Action) : Option Value := Fields.find? name a.payload

/-- The track that an action is aimed at, if it has one. -/
def track? (a : Action) : Option Int64 := (a.field? "track").bind Value.int?

/-- The JSON form of an action: its payload with the name of its kind under `action`. A field of
the payload under that name replaces the kind. -/
def toJson (a : Action) : Json :=
  .object (Fields.insertAll [("action", .string a.kind.name)] (Value.fieldsToJson a.payload))

end Action

end DawScript
