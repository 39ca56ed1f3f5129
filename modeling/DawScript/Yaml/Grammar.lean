import DawScript.Consumed
import DawScript.Yaml.Node
import DawScript.Yaml.Tokens

/-!
# The grammar of YAML

Documents from tokens. Nodes hold nodes again: the reader of an inner node is a parameter of each
rule, restricted to lists shorter than a bound, and `node` ties the knot by recursion on the
bound. Where a node may be left out, a token that cannot begin one shows that it is. A text holds at
most one document.
-/

namespace DawScript.Yaml

namespace Grammar

/-- A result read from tokens, and the anchors after it. -/
abbrev Reading (α : Type) (ts : List Token) := Option (Consumed Token (α × Anchors) ts)

/-- Where a node stands: in a block, as a part of a mapping in a block, where a sequence needs no
deeper indentation, or in a flow collection. -/
inductive Context where
  | block
  | entry
  | flow
deriving DecidableEq

/-- A reader of nodes from lists shorter than `n`. -/
abbrev Inner (n : Nat) :=
  Context → Anchors → (ts : List Token) → ts.length < n → Reading Node ts

/-- The node that stands where nothing is written. -/
def nothing : Node := .scalar .empty

variable {n : Nat}

/-- Reads a node after the token `t`, or nothing where a token of `ends` follows. -/
def nodeAfter (t : Token) (ends : List Token) (inner : Inner n) (context : Context)
    (anchors : Anchors) (ts : List Token) (h : ts.length < n) : Reading Node (t :: ts) :=
  if ts.head?.any (· ∈ ends) then some (.one (nothing, anchors))
  else (inner context anchors ts h).map (·.behind)

/-- Reads the value of an entry if its mark is in front, else nothing. -/
def valueAfter (ends : List Token) (inner : Inner n) (context : Context) (anchors : Anchors)
    (ts : List Token) (h : ts.length < n) :
    Option ((Node × Anchors) × { rest : List Token // rest.length ≤ ts.length }) :=
  match ts with
  | .value :: rest => do
    let ⟨found, after, hafter⟩ ← nodeAfter .value ends inner context anchors rest
      (Nat.lt_of_succ_lt h)
    return (found, ⟨after, Nat.le_of_lt hafter⟩)
  | ts => some ((nothing, anchors), ⟨ts, Nat.le_refl _⟩)

/-! ## Block collections -/

/-- Reads the entries of a block sequence and its end. -/
def blockItems (inner : Inner n) (anchors : Anchors) (ts : List Token) (h : ts.length < n) :
    Reading (List Node) ts :=
  match ts with
  | .blockEnd :: _ => some (.one ([], anchors))
  | .blockEntry :: rest => do
    let ⟨(item, anchors), after, hafter⟩ ← nodeAfter .blockEntry [.blockEntry, .blockEnd] inner
      .block anchors rest (Nat.lt_of_succ_lt h)
    let ⟨(items, anchors), more, hmore⟩ ← blockItems inner anchors after (by omega)
    return ⟨(item :: items, anchors), more, by omega⟩
  | _ => none
termination_by ts.length
decreasing_by simp only [List.length_cons] at *; omega

/-- Reads the entries of a sequence that stands no deeper than the mapping around it, after the
mark of the first one. -/
def flatItems (inner : Inner n) (anchors : Anchors) (ts : List Token) (h : ts.length < n) :
    Reading (List Node) (.blockEntry :: ts) := do
  let ⟨(item, anchors), after, hafter⟩ ← nodeAfter .blockEntry
    [.blockEntry, .key, .value, .blockEnd] inner .block anchors ts h
  match after, hafter with
  | .blockEntry :: rest, hrest =>
    let ⟨(items, anchors), more, hmore⟩ ← flatItems inner anchors rest
      (by simp only [List.length_cons] at hrest; omega)
    return ⟨(item :: items, anchors), more, by simp only [List.length_cons] at *; omega⟩
  | rest, hrest => return ⟨([item], anchors), rest, hrest⟩
termination_by ts.length
decreasing_by simp only [List.length_cons] at hrest; omega

/-- Reads the entries of a block mapping and its end. -/
def blockEntries (inner : Inner n) (anchors : Anchors) (ts : List Token) (h : ts.length < n) :
    Reading (List (Node × Node)) ts :=
  match ts with
  | .blockEnd :: _ => some (.one ([], anchors))
  | .key :: rest => do
    let ends := [.key, .value, .blockEnd]
    let ⟨(key, anchors), after, hafter⟩ ← nodeAfter .key ends inner .entry anchors rest
      (Nat.lt_of_succ_lt h)
    let ((value, anchors), ⟨more, hmore⟩) ← valueAfter ends inner .entry anchors after (by omega)
    have : more.length < (Token.key :: rest).length := by omega
    let ⟨(entries, anchors), last, hlast⟩ ← blockEntries inner anchors more (by omega)
    return ⟨((key, value) :: entries, anchors), last, by omega⟩
  | _ => none
termination_by ts.length
decreasing_by simp only [List.length_cons] at *; omega

/-! ## Flow collections -/

/-- Reads an entry of a flow sequence that is a mapping of one entry, after the mark of its key.
Where the key is left out, the token that shows it is passed over. -/
def flowPair (inner : Inner n) (anchors : Anchors) (ts : List Token) (h : ts.length < n) :
    Reading Node (.key :: ts) := do
  let ends := [.flowEntry, .flowSequenceEnd]
  let ((key, anchors), ⟨after, hafter⟩) ←
    if ts.head?.any (· ∈ Token.value :: ends) then
      some ((nothing, anchors), ⟨ts.tail, by simp⟩)
    else do
      let ⟨found, after, hafter⟩ ← inner .flow anchors ts h
      some (found,
        (⟨after, Nat.le_of_lt hafter⟩ : { rest : List Token // rest.length ≤ ts.length }))
  let ((value, anchors), ⟨more, hmore⟩) ← valueAfter ends inner .flow anchors after (by omega)
  return ⟨(.mapping [(key, value)], anchors), more, by simp only [List.length_cons]; omega⟩

/-- Reads an entry of a flow sequence. -/
def flowItem (inner : Inner n) (anchors : Anchors) (ts : List Token) (h : ts.length < n) :
    Reading Node ts :=
  match ts with
  | .key :: rest => flowPair inner anchors rest (Nat.lt_of_succ_lt h)
  | ts => inner .flow anchors ts h

/-- Reads the entries of a flow sequence and its end. A comma may stand after the last one. -/
def flowItems (inner : Inner n) (anchors : Anchors) (ts : List Token) (h : ts.length < n) :
    Reading (List Node) ts :=
  if ts.head? = some .flowSequenceEnd then
    match ts with
    | _ :: _ => some (.one ([], anchors))
    | [] => none
  else do
    let ⟨(item, anchors), after, hafter⟩ ← flowItem inner anchors ts h
    match after, hafter with
    | .flowSequenceEnd :: rest, hrest =>
      return ⟨([item], anchors), rest, by simp only [List.length_cons] at hrest; omega⟩
    | .flowEntry :: rest, hrest =>
      let ⟨(items, anchors), more, hmore⟩ ← flowItems inner anchors rest
        (by simp only [List.length_cons] at hrest; omega)
      return ⟨(item :: items, anchors), more, by simp only [List.length_cons] at *; omega⟩
    | _, _ => none
termination_by ts.length
decreasing_by simp only [List.length_cons] at hrest; omega

/-- Reads an entry of a flow mapping. Without a mark of its key it has no value. -/
def flowEntry (inner : Inner n) (anchors : Anchors) (ts : List Token) (h : ts.length < n) :
    Reading (Node × Node) ts :=
  match ts with
  | .key :: rest => do
    let ends := [.flowEntry, .flowMappingEnd]
    let ⟨(key, anchors), after, hafter⟩ ← nodeAfter .key (.value :: ends) inner .flow anchors rest
      (Nat.lt_of_succ_lt h)
    let ((value, anchors), ⟨more, hmore⟩) ← valueAfter ends inner .flow anchors after (by omega)
    return ⟨((key, value), anchors), more, by omega⟩
  | ts => (inner .flow anchors ts h).map (·.map fun (key, anchors) => ((key, nothing), anchors))

/-- Reads the entries of a flow mapping and its end. A comma may stand after the last one. -/
def flowEntries (inner : Inner n) (anchors : Anchors) (ts : List Token) (h : ts.length < n) :
    Reading (List (Node × Node)) ts :=
  if ts.head? = some .flowMappingEnd then
    match ts with
    | _ :: _ => some (.one ([], anchors))
    | [] => none
  else do
    let ⟨(entry, anchors), after, hafter⟩ ← flowEntry inner anchors ts h
    match after, hafter with
    | .flowMappingEnd :: rest, hrest =>
      return ⟨([entry], anchors), rest, by simp only [List.length_cons] at hrest; omega⟩
    | .flowEntry :: rest, hrest =>
      let ⟨(entries, anchors), more, hmore⟩ ← flowEntries inner anchors rest
        (by simp only [List.length_cons] at hrest; omega)
      return ⟨(entry :: entries, anchors), more, by simp only [List.length_cons] at *; omega⟩
    | _, _ => none
termination_by ts.length
decreasing_by simp only [List.length_cons] at hrest; omega

/-! ## Nodes -/

/-- What stands before the content of a node: an anchor and a tag, in either order. -/
structure Properties where
  anchor : Option String := none
  tag : Option TagText := none

/-- Splits off the properties in front. -/
def splitProperties : List Token → Properties × List Token
  | .anchor name :: .tag tag :: rest => (⟨some name, some tag⟩, rest)
  | .tag tag :: .anchor name :: rest => (⟨some name, some tag⟩, rest)
  | .anchor name :: rest => (⟨some name, none⟩, rest)
  | .tag tag :: rest => (⟨none, some tag⟩, rest)
  | rest => ({}, rest)

theorem length_splitProperties_le (ts : List Token) :
    (splitProperties ts).2.length ≤ ts.length := by
  unfold splitProperties
  split <;> simp <;> omega

/-- The tag in full. Its handle has to be among the known ones. -/
def fullTag? (handles : List (String × String)) (tag : TagText) : Option String :=
  if tag.handle.isEmpty then some tag.suffix
  else (handles.lookup tag.handle).map (· ++ tag.suffix)

/-- Anchors a node under the name of its properties, if they have one. -/
def Properties.declare (p : Properties) (target : Option Scalar) (anchors : Anchors) : Anchors :=
  match p.anchor with
  | some name => anchors.declare name target
  | none => anchors

/-- Whether a collection begins with a token. -/
def beginsCollection (context : Context) : Token → Bool
  | .blockEntry => context = .entry
  | .flowSequenceStart | .flowMappingStart => true
  | .blockSequenceStart | .blockMappingStart => context ≠ .flow
  | _ => false

/-- Reads a collection by the token that begins it. -/
def collection (inner : Inner n) (anchors : Anchors) (ts : List Token) (h : ts.length ≤ n) :
    Reading Node ts :=
  match ts with
  | .blockEntry :: rest =>
    (flatItems inner anchors rest h).map (·.map fun (items, anchors) => (.sequence items, anchors))
  | .flowSequenceStart :: rest => (flowItems inner anchors rest h).map fun read =>
    (read.map fun (items, anchors) => (.sequence items, anchors)).behind
  | .flowMappingStart :: rest => (flowEntries inner anchors rest h).map fun read =>
    (read.map fun (entries, anchors) => (.mapping entries, anchors)).behind
  | .blockSequenceStart :: rest => (blockItems inner anchors rest h).map fun read =>
    (read.map fun (items, anchors) => (.sequence items, anchors)).behind
  | .blockMappingStart :: rest => (blockEntries inner anchors rest h).map fun read =>
    (read.map fun (entries, anchors) => (.mapping entries, anchors)).behind
  | _ => none

/-- Reads the content of a node after its properties. -/
def content (inner : Inner n) (context : Context) (p : Properties) (tag : Option String)
    (anchors : Anchors) (ts : List Token) (h : ts.length ≤ n) :
    Option ((Node × Anchors) × { rest : List Token // rest.length ≤ ts.length }) :=
  match ts with
  | .scalar style text :: rest =>
    let s : Scalar := ⟨style, tag, text⟩
    some ((.scalar s, p.declare (some s) anchors), ⟨rest, Nat.le_succ _⟩)
  | ts =>
    if ts.head?.any (beginsCollection context) then
      (collection inner (p.declare none anchors) ts h).map fun read =>
        (read.value, ⟨read.rest, Nat.le_of_lt read.shorter⟩)
    else
      let s : Scalar := { Scalar.empty with tag }
      some ((.scalar s, p.declare (some s) anchors), ⟨ts, Nat.le_refl _⟩)

/-- Reads a node from lists shorter than `n`, with the known handles of tags. Without properties
its content cannot be left out. -/
def node (handles : List (String × String)) : (n : Nat) → Inner n
  | 0, _, _, _, h => absurd h (Nat.not_lt_zero _)
  | n + 1, context, anchors, ts, h =>
    match ts with
    | .alias name :: _ =>
      (anchors.number? name).map fun number => .one (.alias number, anchors)
    | ts => do
      let p := (splitProperties ts).1
      let tag ← match p.tag with
        | some tag => (fullTag? handles tag).map some
        | none => some none
      have hle := length_splitProperties_le ts
      let (found, ⟨rest, hrest⟩) ← content (node handles n) context p tag anchors
        (splitProperties ts).2 (by omega)
      if hshorter : rest.length < ts.length then return ⟨found, rest, hshorter⟩ else none

end Grammar

/-!
## Documents

Directives may stand before the mark of a document: a version that is known, and handles of tags,
none of them twice.
-/

/-- Whether a token is a directive. -/
def isDirective : Token → Bool
  | .version _ _ | .handle _ _ => true
  | _ => false

/-- The versions that directives give. -/
def versions : List Token → List (Nat × Nat) :=
  List.filterMap fun t => match t with
    | .version major minor => some (major, minor)
    | _ => none

/-- The handles that directives give, with what they stand for. -/
def givenHandles : List Token → List (String × String) :=
  List.filterMap fun t => match t with
    | .handle name stem => some (name, stem)
    | _ => none

/-- The handles known without a directive. -/
def ownHandles : List (String × String) := [("!", "!"), ("!!", "tag:yaml.org,2002:")]

/-- The known versions. -/
def knownVersions : List (Nat × Nat) := [(1, 1), (1, 2)]

/-- Whether directives may stand before a document together. -/
def agree (directives : List Token) : Bool :=
  (versions directives).length ≤ 1 && (versions directives).all (· ∈ knownVersions) &&
    decide ((givenHandles directives).map (·.1)).Nodup

/-- Whether a token ends a document that has only begun with its mark. -/
def endsDocument (t : Token) : Bool := isDirective t || t = .documentStart || t = .documentEnd

/-- Reads the node of a document, with the known handles of tags. -/
def readRoot (handles : List (String × String)) (ts : List Token) :
    Option (Document × List Token) :=
  (Grammar.node handles (ts.length + 1) .block {} ts (Nat.lt_succ_self _)).map fun read =>
    (⟨read.value.1, read.value.2⟩, read.rest)

/-- Reads a document from its beginning. One with directives has a mark. -/
def readDocument (ts : List Token) : Option (Document × List Token) :=
  let directives := ts.takeWhile isDirective
  let handles := givenHandles directives ++ ownHandles
  match ts.dropWhile isDirective with
  | .documentStart :: body =>
    if !agree directives then none
    else if body.head?.all endsDocument then some (.blank, body)
    else readRoot handles body
  | body => if directives.isEmpty then readRoot handles body else none

/-- The document that tokens make up. -/
def Document.ofTokens? (ts : List Token) : Option Document :=
  if ts.isEmpty then some .blank
  else (readDocument ts).bind fun (d, rest) => if rest.all (· = .documentEnd) then some d else none

/-- The document of a text. -/
def Document.parse? (text : String) : Option Document := (tokens? text).bind Document.ofTokens?

end DawScript.Yaml
