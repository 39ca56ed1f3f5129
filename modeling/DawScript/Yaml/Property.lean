import DawScript.Yaml.Node
import DawScript.Yaml.Scalar

/-!
# Anchors, tags and directives

The parts of a YAML text that begin with a sign and go on with a name: anchors and aliases, tags,
and the directives before a document, which give the version and the handles of tags.
-/

namespace DawScript.Yaml

/-! ## Anchors -/

/-- Whether the name of an anchor may end before what stands in front. -/
def endsAnchor (gs : List Glyph) : Bool :=
  endsWord gs ||
    match gs with
    | g :: _ => g.char ∈ ['?', ':', ',', ']', '}', '%', '@', '\x60']
    | [] => true

/-- Reads the name of an anchor after its sign. -/
def readAnchor (gs : List Glyph) : Reading String gs :=
  match gs with
  | [] => none
  | g :: rest =>
    if g.inName && endsAnchor (rest.dropWhile Glyph.inName) then
      some (.through Glyph.inName (String.ofList (chars (g :: rest.takeWhile Glyph.inName))))
    else none

/-! ## Tags -/

/-- The characters of tags besides those of names and escapes. Between angle brackets commas and
square brackets are among them. -/
def isTagChar (bracketed : Bool) (c : Char) : Bool :=
  isNameChar c ||
    c ∈ [';', '/', '?', ':', '@', '&', '=', '+', '$', '.', '!', '~', '*', '\'', '(', ')'] ||
    (bracketed && c ∈ [',', '[', ']'])

/-- How many octets follow the first octet of an encoded character. -/
def trailingOctets? (octet : Nat) : Option Nat :=
  if octet < 0x80 then some 0
  else if octet / 0x20 = 6 then some 1
  else if octet / 0x10 = 14 then some 2
  else if octet / 0x8 = 30 then some 3
  else none

/-- Splits off the text of a tag. A percent sign begins an octet in two hexadecimal digits, and
`trailing` more octets are wanted for a character; an octet stands for itself. -/
def splitTag? (bracketed : Bool) (trailing : Nat) (gs : List Glyph) :
    Option (Stretch (List Char) gs) :=
  match gs with
  | ⟨'%', _, _⟩ :: a :: b :: rest => do
    let octet ← Radix.number? 16 [a.char, b.char]
    let wanted ← if trailing = 0 then trailingOctets? octet
      else if octet / 0x40 = 2 then some (trailing - 1) else none
    let ⟨text, after, hafter⟩ ← splitTag? bracketed wanted rest
    return ⟨Char.ofNat octet :: text, after, by simp only [List.length_cons]; omega⟩
  | [] => if trailing = 0 then some ⟨[], [], Nat.le_refl _⟩ else none
  | g :: rest =>
    if trailing ≠ 0 || g.char = '%' then none
    else if isTagChar bracketed g.char then
      (splitTag? bracketed 0 rest).map fun ⟨text, after, hafter⟩ =>
        ⟨g.char :: text, after, Nat.le_succ_of_le hafter⟩
    else some ⟨[], g :: rest, Nat.le_refl _⟩

/-- Splits off the rest of a handle after its first exclamation mark: letters, and an exclamation
mark that closes it. -/
def splitHandle (gs : List Glyph) : Stretch (List Char × Bool) gs :=
  let name := chars (gs.takeWhile Glyph.inName)
  match gs.dropWhile Glyph.inName, length_dropWhile_le Glyph.inName gs with
  | ⟨'!', _, _⟩ :: rest, h => ⟨(name, true), rest, Nat.le_of_succ_le h⟩
  | rest, h => ⟨(name, false), rest, h⟩

/-- A handle with the given letters. -/
def closedHandle (name : List Char) : String := String.ofList ('!' :: name ++ ['!'])

/-- Whether a tag may end before what stands in front. -/
def endsTag (inFlow : Bool) (gs : List Glyph) : Bool :=
  endsWord gs ||
    match gs with
    | g :: _ => inFlow && g.char == ','
    | [] => true

/-- Splits off a tag after its exclamation mark: one in angle brackets, one with a handle, or one
whose handle is the exclamation mark. -/
def splitTagText? (gs : List Glyph) : Option (Stretch TagText gs) :=
  match gs with
  | ⟨'<', _, _⟩ :: rest => do
    let ⟨text, after, hafter⟩ ← splitTag? true 0 rest
    match after, hafter with
    | ⟨'>', _, _⟩ :: more, hafter =>
      if text.isEmpty then none
      else return ⟨⟨"", String.ofList text⟩, more, by
        simp only [List.length_cons] at *; omega⟩
    | _, _ => none
  | gs => do
    let ⟨(name, isClosed), rest, hrest⟩ := splitHandle gs
    let ⟨text, after, hafter⟩ ← splitTag? false 0 rest
    if isClosed then
      if text.isEmpty then none
      else return ⟨⟨closedHandle name, String.ofList text⟩, after, Nat.le_trans hafter hrest⟩
    else
      let suffix := String.ofList (name ++ text)
      return ⟨if suffix.isEmpty then ⟨"", "!"⟩ else ⟨"!", suffix⟩, after,
        Nat.le_trans hafter hrest⟩

/-- Reads a tag with its exclamation mark `g`. -/
def readTag (inFlow : Bool) (g : Glyph) (gs : List Glyph) : Reading TagText (g :: gs) := do
  let ⟨tag, rest, hrest⟩ ← splitTagText? gs
  if endsTag inFlow rest then return ⟨tag, rest, Nat.lt_succ_of_le hrest⟩ else none

/-! ## Directives -/

/-- Splits off a number of at most nine digits. -/
def splitNumber? (gs : List Glyph) : Option (Stretch Nat gs) :=
  let digits := chars (gs.takeWhile fun g => g.char.isDigit)
  if 9 < digits.length then none
  else (Decimal.natural? digits).map fun n =>
    ⟨n, gs.dropWhile fun g => g.char.isDigit, length_dropWhile_le _ gs⟩

/-- Splits off a version: two numbers with a point between them. -/
def splitVersion? (gs : List Glyph) : Option (Stretch Token gs) := do
  let ⟨major, rest, hrest⟩ ← splitNumber? (skipInline gs)
  match rest, hrest with
  | ⟨'.', _, _⟩ :: more, hrest =>
    let ⟨minor, after, hafter⟩ ← splitNumber? more
    return ⟨.version major minor, after, by
      have := length_skipInline_le gs
      simp only [List.length_cons] at hrest
      omega⟩
  | _, _ => none

/-- Splits off a handle and what it stands for. -/
def splitHandleStem? (gs : List Glyph) : Option (Stretch Token gs) :=
  have hgs := length_skipInline_le gs
  match h : skipInline gs with
  | ⟨'!', _, _⟩ :: rest => do
    let ⟨(name, isClosed), after, hafter⟩ := splitHandle rest
    let handle ← if isClosed then some (closedHandle name)
      else if name.isEmpty then some "!" else none
    match after, hafter with
    | ⟨c, _, _⟩ :: more, hafter =>
      if !isBlank c then none
      else
        have hmore := length_skipInline_le more
        let ⟨stem, final, hfinal⟩ ← splitTag? true 0 (skipInline more)
        if stem.isEmpty || !endsWord final then none
        else return ⟨.handle handle (String.ofList stem), final, by
          rw [h] at hgs
          simp only [List.length_cons] at *
          omega⟩
    | [], _ => none
  | _ => none

/-- Reads a directive with its percent sign `g`, and the rest of its line. -/
def readDirective (g : Glyph) (gs : List Glyph) : Reading Token (g :: gs) := do
  let name := String.ofList (chars (gs.takeWhile Glyph.inName))
  let after := gs.dropWhile Glyph.inName
  if !endsWord after then none
  else
    let ⟨token, rest, hrest⟩ ← if name = "YAML" then splitVersion? after
      else if name = "TAG" then splitHandleStem? after
      else none
    match h : nextLine? rest with
    | some next => return ⟨token, next, Nat.lt_succ_of_le <|
        Nat.le_trans (length_nextLine_le h) <|
        Nat.le_trans hrest (length_dropWhile_le Glyph.inName gs)⟩
    | none => none

end DawScript.Yaml
