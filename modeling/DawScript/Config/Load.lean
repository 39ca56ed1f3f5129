import DawScript.Run.State
import DawScript.Yaml.Grammar

/-!
# Loading configurations

A configuration from its YAML text: a mapping from the names of its fields. What is left out keeps
its default, a text without a document leaves everything out, and other names may stand beside the
known ones. A field is given at most once.
-/

namespace DawScript

namespace Config

open Yaml (Scalar Document Node)

/-- Whether a scalar may stand for something other than text: one without quotes and lines of its
own, or literal lines with the tag that says so. -/
def speaks (tag : String) (s : Scalar) : Bool :=
  s.style = .plain || (s.style = .literal && s.tag = some ("tag:yaml.org,2002:" ++ tag))

/-- The truth value of a scalar. -/
def readBool? (s : Scalar) : Option Bool := if speaks "bool" s then Yaml.truth? s.text else none

/-- The integer of a scalar, which has to be a word. -/
def readInt? (s : Scalar) : Option Int64 :=
  if speaks "int" s then (Yaml.integer? s.text.toList).bind word? else none

/-- The floating-point number of a scalar. -/
def readFloat? (s : Scalar) : Option Float :=
  if speaks "float" s then Yaml.float? s.text else none

/-- The names of the fields. -/
def fieldNames : List String :=
  ["default_length_bars", "default_clip_length", "strict_combinators", "default_fx"]

/-- Takes an entry into a configuration. Every scalar has a text. -/
def field? (d : Document) (c : Config) : String × Node → Option Config
  | ("default_length_bars", v) => do return { c with lengthBars := ← (d.scalar? v).bind readInt? }
  | ("default_clip_length", v) => do return { c with clipLength := ← (d.scalar? v).bind readFloat? }
  | ("strict_combinators", v) => do return { c with strict := ← (d.scalar? v).bind readBool? }
  | ("default_fx", v) => do return { c with fx := ← (d.scalar? v).map (·.text) }
  | _ => some c

/-- The configuration that a document describes. -/
def ofDocument? (d : Document) : Option Config :=
  match d.root with
  | .scalar s => if s.style = .plain && s.text.isEmpty then some {} else none
  | .mapping entries => do
    let fields ← entries.mapM fun (key, value) => do return ((← d.scalar? key).text, value)
    let given := (fields.map (·.1)).filter (· ∈ fieldNames)
    if given.Nodup then fields.foldlM (field? d) {} else none
  | _ => none

/-- The configuration that a text in YAML describes. -/
def parse? (text : String) : Option Config := (Document.parse? text).bind ofDocument?

/-- Where the configuration of the user with the given home directory is. -/
def pathIn (home : String) : String :=
  home ++ (if home.isEmpty || home.endsWith "/" then "" else "/") ++ ".chainline/config.yaml"

end Config

end DawScript
