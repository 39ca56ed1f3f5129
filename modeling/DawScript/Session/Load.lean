import DawScript.Fault
import DawScript.Session.Basic

/-!
# Loading sessions

A session from its JSON form, either bare or under `state` in an object. Known fields have their
types and defaults; a record keeps all other fields as values. Of several misfits in a record the
one that comes first in the order of the names is reported.
-/

namespace DawScript

namespace Session

/-- The fault that a JSON value is of the wrong type. -/
def misfit {α : Type} (found : Json) (expected : Expected) : Except Misfit α :=
  .error (.wrongType (foundText found) expected)

/-- Reads a text. -/
def readString : Json → Except Misfit String
  | .string s => .ok s
  | j => misfit j .string

/-- Reads a truth value. -/
def readBool : Json → Except Misfit Bool
  | .bool b => .ok b
  | j => misfit j .truth

/-- Reads an integer, which has to be a word. -/
def readWord : Json → Except Misfit Int64
  | .integer n => match word? n with
    | some w => .ok w
    | none => .error (.wrongValue (foundText (.integer n)) .word)
  | j => misfit j .word

/-- Reads a number. -/
def readFloat : Json → Except Misfit Float
  | .integer n => .ok (Float.ofInt n)
  | .float x => .ok x
  | j => misfit j .float

/-- Reads a list of what `item` reads. -/
def readList {α : Type} (item : Json → Except Misfit α) : Json → Except Misfit (List α)
  | .array items => items.mapM item
  | j => misfit j .sequence

/-- Reads a record: `field` takes in one member after the other. -/
def readRecord {α : Type} (name : String) (field : α → String × Json → Except Misfit α)
    (blank : α) : Json → Except Misfit α
  | .object members => members.foldlM field blank
  | j => misfit j (.record name)

/-- Takes a member into an effect. -/
def effectField (e : Effect) : String × Json → Except Misfit Effect
  | ("name", j) => (readString j).map fun name => { e with name }
  | ("enabled", j) => (readBool j).map fun enabled => { e with enabled }
  | (name, j) => .ok { e with extra := e.extra ++ [(name, Value.ofJson j)] }

/-- Reads an effect. Without a name it is nameless, and it is enabled unless it says otherwise. -/
def readEffect : Json → Except Misfit Effect :=
  readRecord "FxRecord" effectField ⟨"", true, []⟩

/-- Takes a member into a clip. -/
def clipField (c : Clip) : String × Json → Except Misfit Clip
  | ("start", j) => (readFloat j).map fun start => { c with start }
  | ("length", j) => (readFloat j).map fun length => { c with length }
  | ("name", j) => (readString j).map fun name => { c with name }
  | (name, j) => .ok { c with extra := c.extra ++ [(name, Value.ofJson j)] }

/-- Reads a clip. Without a place or length it begins at zero and is empty. -/
def readClip : Json → Except Misfit Clip :=
  readRecord "ClipRecord" clipField ⟨0.0, 0.0, "", []⟩

/-- Takes a member into a track. -/
def trackField (t : Track) : String × Json → Except Misfit Track
  | ("index", j) => (readWord j).map fun index => { t with index }
  | ("name", j) => (readString j).map fun name => { t with name }
  | ("selected", j) => (readBool j).map fun selected => { t with selected }
  | ("fx", j) => (readList readEffect j).map fun fx => { t with fx }
  | ("clips", j) => (readList readClip j).map fun clips => { t with clips }
  | (name, j) => .ok { t with extra := t.extra ++ [(name, Value.ofJson j)] }

/-- Reads a track. -/
def readTrack : Json → Except Misfit Track :=
  readRecord "TrackRecord" trackField (Track.named "")

/-- Reads the tracks of a session: the member `tracks` of an object, or the one item of an array.
Without it there are none. -/
def readTracks : Json → Except Misfit (List Track)
  | .object members => match Fields.find? "tracks" members with
    | some j => readList readTrack j
    | none => .ok []
  | .array [] => .ok []
  | .array (first :: rest) => do
    let tracks ← readList readTrack first
    if rest.isEmpty then return tracks
    else .error (.tooManyItems (rest.length + 1))
  | j => misfit j (.record "SessionSnapshot")

/-- The JSON value that describes the session: what an object holds under `state` if that is an
object, else the value itself. -/
def unwrapped (j : Json) : Json :=
  match j.member? "state" with
  | some inner => if inner.isObject then inner else j
  | none => j

/-- The session that a JSON value describes. -/
def ofJson (j : Json) : Except Fault Session :=
  match readTracks (unwrapped j) with
  | .ok tracks => .ok (ofTracks tracks)
  | .error misfit => .error (.malformed (.sessionShape misfit) ⟨0, 0⟩)

/-- The session that a text in JSON describes. -/
def parse (text : String) : Except Fault Session :=
  match Json.parse text with
  | .ok j => ofJson j
  | .error misread => .error (.malformed (.sessionText misread) ⟨misread.line, misread.column⟩)

end Session

end DawScript
