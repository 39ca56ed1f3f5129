import DawScript.Value.Json

/-!
# Sessions

The tracks of a session as they are when a script starts, and what scripts see of them. Records
keep the fields that they do not model among `extra`. As values they have come by way of JSON, which
has no numbers but finite ones.
-/

namespace DawScript

/-- An effect on a track. -/
structure Effect where
  name : String
  enabled : Bool
  extra : List (String × Value)

/-- A clip on a track. -/
structure Clip where
  start : Float
  length : Float
  name : String
  extra : List (String × Value)

/-- A track. Its index is its position unless the session says otherwise. -/
structure Track where
  index : Int64
  name : String
  selected : Bool
  fx : List Effect
  clips : List Clip
  extra : List (String × Value)

/-- A session. -/
structure Session where
  tracks : List Track

/-- A record as a value: its known fields, and the extra ones put among them. -/
def Value.ofRecord (known extra : List (String × Value)) : Value :=
  .viaJson <| .map <| Fields.insertAll (Fields.ofList known) extra

/-- An effect as a value. -/
def Effect.toValue (e : Effect) : Value :=
  .ofRecord [("name", .string e.name), ("enabled", .bool e.enabled)] e.extra

/-- A clip as a value. -/
def Clip.toValue (c : Clip) : Value :=
  .ofRecord
    [("start", .float c.start), ("length", .float c.length), ("name", .string c.name)] c.extra

namespace Track

/-- The index of a track that has none of its own yet. -/
def unset : Int64 := -1

/-- A track with a name and nothing on it. -/
def named (name : String) : Track := ⟨unset, name, false, [], [], []⟩

/-- A track as a value. -/
def toValue (t : Track) : Value :=
  .ofRecord
    [("index", .int t.index), ("name", .string t.name), ("selected", .bool t.selected),
     ("fx", .list (t.fx.map Effect.toValue)), ("clips", .list (t.clips.map Clip.toValue))] t.extra

/-- Gives a track without an index its position as one. -/
def numbered (position : Nat) (t : Track) : Track :=
  if t.index = unset then { t with index := Int64.ofNat position } else t

end Track

namespace Session

/-- The session with the given tracks; those without an index get their position as one. -/
def ofTracks (tracks : List Track) : Session := ⟨tracks.mapIdx Track.numbered⟩

/-- The position of the first selected track. -/
def selected? (s : Session) : Option Nat := s.tracks.findIdx? Track.selected

/-- The track at a position. -/
def track? (s : Session) (position : Int64) : Option Track :=
  if position < 0 then none else s.tracks[position.toInt.toNat]?

/-- All tracks as a list value. -/
def tracksValue (s : Session) : Value := .list (s.tracks.map Track.toValue)

/-- The effects of the track at a position as a list value, empty where there is no track. -/
def fxValue (s : Session) (position : Int64) : Value :=
  .list (((s.track? position).elim [] Track.fx).map Effect.toValue)

/-- The clips of the track at a position as a list value, empty where there is no track. -/
def clipsValue (s : Session) (position : Int64) : Value :=
  .list (((s.track? position).elim [] Track.clips).map Clip.toValue)

/-- A session as a value. -/
def toValue (s : Session) : Value := .map [("tracks", s.tracksValue)]

end Session

end DawScript
