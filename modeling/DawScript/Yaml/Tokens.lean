import DawScript.Yaml.BlockScalar
import DawScript.Yaml.Property

/-!
# From text to tokens

The tokens of a YAML text. Block collections begin where a line stands deeper than what is around
it and end where one stands less deep. A key without a mark of its own is known as a key only at
the colon after it, so the place before everything that may be one is kept as an empty slot, which
is filled when the colon comes.
-/

namespace DawScript.Yaml

/-- What may be a key: the slot before it and its place. One that begins a line of an open block
mapping has to be a key. -/
structure PossibleKey where
  slot : Nat
  line : Nat
  column : Nat
  required : Bool

/-- A text read in part: the tokens so far, the columns of the open block collections from the
innermost on, what may be a key in the innermost collection and in those around it as far as they
are flow collections, and whether a key may begin here. -/
structure Scan where
  slots : Array (List Token) := #[]
  indents : List Nat := []
  possible : Option PossibleKey := none
  outer : List (Option PossibleKey) := []
  keyAllowed : Bool := true

namespace Scan

/-- Whether a flow collection is open. -/
def inFlow (s : Scan) : Bool := !s.outer.isEmpty

/-- The least column that is deeper than the innermost block collection. -/
def depth (s : Scan) : Nat :=
  match s.indents with
  | [] => 0
  | column :: _ => column + 1

/-- Adds a token. -/
def emit (t : Token) (s : Scan) : Scan := { s with slots := s.slots.push [t] }

/-- Says whether a key may come next. -/
def allowKey (allowed : Bool) (s : Scan) : Scan := { s with keyAllowed := allowed }

/-! ## Blocks -/

/-- Opens a block collection where a column is deeper than what is around it. -/
def openBlock (column : Nat) (start : Token) (s : Scan) : Scan :=
  if s.inFlow || column < s.depth then s
  else { s.emit start with indents := column :: s.indents }

/-- Closes the innermost block collections as far as their columns are too deep. -/
def closeBlocks (tooDeep : Nat → Bool) (s : Scan) : Scan :=
  if s.inFlow then s
  else
    let closed := (s.indents.takeWhile tooDeep).map fun _ => [Token.blockEnd]
    { s with slots := s.slots ++ closed.toArray, indents := s.indents.dropWhile tooDeep }

/-- Closes all block collections. -/
def closeAll (s : Scan) : Scan := s.closeBlocks fun _ => true

/-! ## Keys -/

/-- Gives up what may be a key in the innermost collection, unless it has to be one. -/
def dropKey (s : Scan) : Option Scan :=
  match s.possible with
  | none => some s
  | some key => if key.required then none else some { s with possible := none }

/-- Keeps the place of what may be a key. -/
def saveKey (g : Glyph) (s : Scan) : Option Scan :=
  if !s.keyAllowed then some s
  else s.dropKey.map fun s =>
    { s with
      slots := s.slots.push []
      possible := some
        ⟨s.slots.size, g.line, g.column, !s.inFlow && s.indents.head? == some g.column⟩ }

/-- The longest way from the beginning of a key to its colon. -/
def keyReach : Nat := 1024

/-- Gives up what may be a key once another line or too many columns lie between, unless it has to
be one. -/
def expireKey (g : Glyph) : Option PossibleKey → Option (Option PossibleKey)
  | none => some none
  | some key =>
    if key.line < g.line || key.column + keyReach < g.column then
      if key.required then none else some none
    else some (some key)

/-- Gives up everything that is no key any more. -/
def expireKeys (g : Glyph) (s : Scan) : Option Scan := do
  return { s with possible := ← expireKey g s.possible, outer := ← s.outer.mapM (expireKey g) }

/-! ## Signs -/

/-- Begins a document or ends one. -/
def border (t : Token) (s : Scan) : Option Scan :=
  s.closeAll.dropKey.map fun s => (s.emit t).allowKey false

/-- Opens a flow collection, which may be a key as a whole. -/
def openFlow (g : Glyph) (t : Token) (s : Scan) : Option Scan :=
  (s.saveKey g).map fun s =>
    ({ s with possible := none, outer := s.possible :: s.outer }.emit t).allowKey true

/-- Closes a flow collection. -/
def closeFlow (t : Token) (s : Scan) : Option Scan :=
  s.dropKey.map fun s =>
    match s.outer with
    | [] => (s.emit t).allowKey false
    | possible :: outer => ({ s with possible, outer }.emit t).allowKey false

/-- Begins the next entry of a flow collection. -/
def flowEntry (s : Scan) : Option Scan := s.dropKey.map fun s => (s.emit .flowEntry).allowKey true

/-- Begins an entry of a block sequence. -/
def blockEntry (g : Glyph) (s : Scan) : Option Scan :=
  if !s.inFlow && !s.keyAllowed then none
  else (s.openBlock g.column .blockSequenceStart).dropKey.map fun s =>
    (s.emit .blockEntry).allowKey true

/-- Begins a key with its mark. -/
def markedKey (g : Glyph) (s : Scan) : Option Scan :=
  if !s.inFlow && !s.keyAllowed then none
  else (s.openBlock g.column .blockMappingStart).dropKey.map fun s =>
    (s.emit .key).allowKey (!s.inFlow)

/-- Begins a value. What may be a key before the colon is one, and a mapping begins with it where
it is deeper than what is around it. -/
def value (g : Glyph) (s : Scan) : Option Scan :=
  match s.possible with
  | some key =>
    -- only now it is known that a key stands before the colon
    let opens := !s.inFlow && s.depth ≤ key.column
    let marks := if opens then [.blockMappingStart, .key] else [.key]
    some <| Scan.allowKey false <| Scan.emit .value
      { s with
        slots := s.slots.setIfInBounds key.slot marks
        indents := if opens then key.column :: s.indents else s.indents
        possible := none }
  | none =>
    if !s.inFlow && !s.keyAllowed then none
    else
      some (((s.openBlock g.column .blockMappingStart).emit .value).allowKey (!s.inFlow))

/-! ## Tokens -/

/-- Whether a plain scalar may begin with `g` before `rest`. -/
def startsPlain (inFlow : Bool) (g : Glyph) (rest : List Glyph) : Bool :=
  if g.char ∈ ['?', ':'] then !inFlow && !endsWord rest
  else !(isGap g || g.char ∈ [',', '[', ']', '{', '}', '#', '&', '*', '!', '|', '>', '\'', '"',
    '%', '@', '\x60'])

/-- Reads a block scalar, after which a key may begin. -/
def blockScalar (style : Style) (g : Glyph) (rest : List Glyph) (s : Scan) :
    Reading Scan (g :: rest) := do
  let s ← s.dropKey
  let read ← readBlock (style = .folded) s.depth g rest
  return read.map fun text => (s.emit (.scalar style (String.ofList text))).allowKey true

/-- Reads a quoted scalar, which may be a key. -/
def quotedScalar (style : Style) (g : Glyph) (rest : List Glyph) (s : Scan) :
    Reading Scan (g :: rest) := do
  let s ← s.saveKey g
  let read ← readQuoted g.char rest
  return (read.map fun text => (s.emit (.scalar style (String.ofList text))).allowKey false).behind

/-- Reads a plain scalar, which may be a key. A key may begin after it once it has passed a line
end. -/
def plainScalar (g : Glyph) (rest : List Glyph) (s : Scan) : Reading Scan (g :: rest) := do
  let s ← s.saveKey g
  let read ← readPlain s.inFlow s.depth g rest
  return read.map fun found =>
    (s.emit (.scalar .plain (String.ofList found.text))).allowKey found.crossed

/-- Reads an anchor or an alias, before which a key may begin. -/
def anchor (token : String → Token) (g : Glyph) (rest : List Glyph) (s : Scan) :
    Reading Scan (g :: rest) := do
  let s ← s.saveKey g
  let read ← readAnchor rest
  return (read.map fun name => (s.emit (token name)).allowKey false).behind

/-- Reads a tag, before which a key may begin. -/
def tag (g : Glyph) (rest : List Glyph) (s : Scan) : Reading Scan (g :: rest) := do
  let s ← s.saveKey g
  let read ← readTag s.inFlow g rest
  return read.map fun text => (s.emit (.tag text)).allowKey false

/-- Reads a directive. -/
def directive (g : Glyph) (rest : List Glyph) (s : Scan) : Reading Scan (g :: rest) := do
  let s ← s.closeAll.dropKey
  let read ← readDirective g rest
  return read.map fun t => (s.emit t).allowKey false

/-- A sign of one character. -/
def sign (g : Glyph) (rest : List Glyph) (next : Option Scan) : Reading Scan (g :: rest) :=
  next.map fun s => .one s

/-- Reads the token that begins with `g`. -/
def step (g : Glyph) (rest : List Glyph) (s : Scan) : Reading Scan (g :: rest) :=
  if g.column = 0 && g.char = '%' then s.directive g rest
  else if marksDocument '-' (g :: rest) then
    (s.border .documentStart).map fun s => ⟨s, rest.drop 2, length_drop_lt⟩
  else if marksDocument '.' (g :: rest) then
    (s.border .documentEnd).map fun s => ⟨s, rest.drop 2, length_drop_lt⟩
  else if g.char = '[' then sign g rest (s.openFlow g .flowSequenceStart)
  else if g.char = '{' then sign g rest (s.openFlow g .flowMappingStart)
  else if g.char = ']' then sign g rest (s.closeFlow .flowSequenceEnd)
  else if g.char = '}' then sign g rest (s.closeFlow .flowMappingEnd)
  else if g.char = ',' then sign g rest s.flowEntry
  else if g.char = '-' && endsWord rest then sign g rest (s.blockEntry g)
  else if g.char = '?' && (s.inFlow || endsWord rest) then sign g rest (s.markedKey g)
  else if g.char = ':' && (s.inFlow || endsWord rest) then sign g rest (s.value g)
  else if g.char = '*' then s.anchor .alias g rest
  else if g.char = '&' then s.anchor .anchor g rest
  else if g.char = '!' then s.tag g rest
  else if g.char = '|' && !s.inFlow then s.blockScalar .literal g rest
  else if g.char = '>' && !s.inFlow then s.blockScalar .folded g rest
  else if g.char = '\'' then s.quotedScalar .singleQuoted g rest
  else if g.char = '"' then s.quotedScalar .doubleQuoted g rest
  else if startsPlain s.inFlow g rest then s.plainScalar g rest
  else none

/-- Passes over blanks, comments and line ends, and says whether a key may begin after them. In a
block collection one may after a line end, and no tab may stand where one may. -/
def skipBlanks (inFlow inComment keyAllowed : Bool) : List Glyph → Bool × List Glyph
  | [] => (keyAllowed, [])
  | g :: rest =>
    if isBreak g.char then skipBlanks inFlow false (keyAllowed || !inFlow) rest
    else if inComment || g.char = '#' then skipBlanks inFlow true keyAllowed rest
    else if g.char = ' ' || (g.char = '\t' && (inFlow || !keyAllowed)) then
      skipBlanks inFlow false keyAllowed rest
    else (keyAllowed, g :: rest)

theorem length_skipBlanks_le (inFlow inComment keyAllowed : Bool) (gs : List Glyph) :
    (skipBlanks inFlow inComment keyAllowed gs).2.length ≤ gs.length := by
  induction gs generalizing inComment keyAllowed with
  | nil => exact Nat.le_refl _
  | cons g rest ih =>
    unfold skipBlanks
    split
    · exact Nat.le_succ_of_le (ih _ _)
    · split
      · exact Nat.le_succ_of_le (ih _ _)
      · split
        · exact Nat.le_succ_of_le (ih _ _)
        · exact Nat.le_refl _

/-- The tokens at the end of the text. -/
def finish (s : Scan) : Option (List Token) :=
  s.closeAll.dropKey.map fun s => s.slots.toList.flatten

/-- Reads tokens up to the end of the text. -/
def run (s : Scan) (gs : List Glyph) : Option (List Token) :=
  have hblanks := length_skipBlanks_le s.inFlow false s.keyAllowed gs
  match h : skipBlanks s.inFlow false s.keyAllowed gs with
  | (_, []) => s.finish
  | (keyAllowed, g :: rest) => do
    -- a required key without its colon is a fault even where its block ends here
    let s ← (s.allowKey keyAllowed).expireKeys g
    let ⟨s, after, hafter⟩ ← (s.closeBlocks (g.column < ·)).step g rest
    have : after.length < gs.length := by rw [h] at hblanks; dsimp only at hblanks; omega
    s.run after
termination_by gs.length

end Scan

/-- The tokens of a text, if it is made of tokens. -/
def tokens? (text : String) : Option (List Token) := (glyphs? text).bind ({} : Scan).run

end DawScript.Yaml
