import DawScript.Decimal.Text
import DawScript.Yaml.Scalar

/-!
# Block scalars

Scalars of whole lines, all indented alike. A header says what becomes of the line ends after the
last line and may say how deep the lines stand; else the blank lines and the first other line
decide it. A literal scalar keeps its line ends, a folded one joins its lines like a plain scalar,
except around lines that begin with a blank.
-/

namespace DawScript.Yaml

/-- What becomes of the line ends after the last line: none stays, one stays, or all stay. -/
inductive Chomping where
  | strip
  | clip
  | keep
deriving DecidableEq, Repr

/-- The header of a block scalar: what becomes of the last line ends, and by how much more than
what is around them the lines are indented, if it says so. -/
structure BlockHeader where
  chomping : Chomping
  increment : Option Nat

/-- The sign for what becomes of the last line ends. -/
def chomping? : Char → Option Chomping
  | '-' => some .strip
  | '+' => some .keep
  | _ => none

/-- The digit for the indentation, which cannot be zero. -/
def increment? (c : Char) : Option Nat :=
  if c.isDigit && c ≠ '0' then some (Decimal.digitValue c) else none

/-- Whether a character belongs to a header. -/
def isHeaderChar (c : Char) : Bool := c.isDigit || (chomping? c).isSome

/-- The header that characters spell: at most one sign and one digit, in either order. -/
def blockHeader? : List Char → Option BlockHeader
  | [] => some ⟨.clip, none⟩
  | [c] =>
    match chomping? c with
    | some chomping => some ⟨chomping, none⟩
    | none => (increment? c).map fun n => ⟨.clip, some n⟩
  | [c, d] =>
    match chomping? c, chomping? d with
    | some chomping, none => (increment? d).map fun n => ⟨chomping, some n⟩
    | none, some chomping => (increment? c).map fun n => ⟨chomping, some n⟩
    | _, _ => none
  | _ => none

/-! ## Lines -/

/-- What is left after the spaces of an indentation, which is not yet known or by `indent`
columns. -/
def skipIndentation (indent : Option Nat) (gs : List Glyph) : List Glyph :=
  gs.dropWhile fun g => g.char == ' ' && indent.all (g.column < ·)

theorem length_skipIndentation_le (indent : Option Nat) (gs : List Glyph) :
    (skipIndentation indent gs).length ≤ gs.length :=
  length_dropWhile_le _ gs

/-- Blank lines: their line ends, and the greatest column reached in their indentation and that of
the line after them. -/
structure BlankLines where
  breaks : List Char
  widest : Nat

/-- Splits off blank lines and the indentation after them. No tab may stand in an indentation. -/
def splitBlankLines? (indent : Option Nat) (gs : List Glyph) : Option (Stretch BlankLines gs) :=
  match skipIndentation indent gs, length_skipIndentation_le indent gs with
  | [], h => some ⟨⟨[], 0⟩, [], h⟩
  | g :: rest, h =>
    if g.char = '\t' && indent.all (g.column < ·) then none
    else if isBreak g.char then
      (splitBlankLines? indent rest).map fun ⟨lines, after, hafter⟩ =>
        ⟨⟨g.char :: lines.breaks, max g.column lines.widest⟩, after,
          Nat.le_trans hafter (Nat.le_of_succ_le h)⟩
    else some ⟨⟨[], g.column⟩, g :: rest, h⟩
termination_by gs.length

/-- A line of a block scalar without its indentation: its text, its line end if it has one, and
the line ends of the blank lines after it. -/
structure BlockLine where
  text : List Char
  ending : List Char
  blank : List Char

/-- Splits off the line end in front. -/
def splitBreak : List Glyph → List Char × List Glyph
  | [] => ([], [])
  | g :: rest => if isBreak g.char then ([g.char], rest) else ([], g :: rest)

theorem length_splitBreak_le (gs : List Glyph) : (splitBreak gs).2.length ≤ gs.length := by
  unfold splitBreak
  split
  · exact Nat.le_refl _
  · split
    · exact Nat.le_succ _
    · exact Nat.le_refl _

/-- Splits off the lines that are indented by `indent` columns. -/
def splitLines? (indent : Nat) (gs : List Glyph) : Option (Stretch (List BlockLine) gs) :=
  match gs with
  | [] => some ⟨[], [], Nat.le_refl _⟩
  | g :: more =>
    if g.column ≠ indent then some ⟨[], g :: more, Nat.le_refl _⟩
    else
      have hline := length_dropWhile_le (fun g => !isBreak g.char) more
      let line := more.dropWhile fun g => !isBreak g.char
      have hbreak := length_splitBreak_le line
      match splitBlankLines? (some indent) (splitBreak line).2 with
      | none => none
      | some ⟨blank, next, hnext⟩ =>
        have : next.length < (g :: more).length := by
          simp only [line, List.length_cons] at *; omega
        (splitLines? indent next).map fun ⟨lines, rest, hrest⟩ =>
          ⟨⟨g.char :: chars (more.takeWhile fun g => !isBreak g.char), (splitBreak line).1,
            blank.breaks⟩ :: lines, rest, by omega⟩
termination_by gs.length
decreasing_by simp only [List.length_cons] at *; omega

/-! ## Text -/

/-- Whether a line begins with a blank, so that the line ends around it are kept. -/
def BlockLine.isIndented (line : BlockLine) : Bool :=
  match line.text with
  | c :: _ => isBlank c
  | [] => false

/-- What stands between two lines of a scalar. -/
def lineGap (folded : Bool) (line next : BlockLine) : List Char :=
  if folded && line.ending = ['\n'] && !line.isIndented && !next.isIndented then
    if line.blank.isEmpty then [' '] else line.blank
  else line.ending ++ line.blank

/-- What stands after the last line of a scalar. -/
def lastGap (chomping : Chomping) (line : BlockLine) : List Char :=
  match chomping with
  | .strip => []
  | .clip => line.ending
  | .keep => line.ending ++ line.blank

/-- The text of lines. -/
def joinLines (folded : Bool) (chomping : Chomping) : List BlockLine → List Char
  | [] => []
  | [line] => line.text ++ lastGap chomping line
  | line :: next :: rest =>
    line.text ++ lineGap folded line next ++ joinLines folded chomping (next :: rest)

/-- The text of a block scalar with blank lines before its lines. Without other lines the blank
ones count only where all line ends stay. -/
def blockText (folded : Bool) (chomping : Chomping) (leading : List Char)
    (lines : List BlockLine) : List Char :=
  if lines.isEmpty && chomping ≠ .keep then [] else leading ++ joinLines folded chomping lines

/-- Reads a block scalar with its first sign `g`. What is around it is indented up to the column
before `outer`. -/
def readBlock (folded : Bool) (outer : Nat) (g : Glyph) (gs : List Glyph) :
    Reading (List Char) (g :: gs) :=
  have hheader := length_dropWhile_le (fun g => isHeaderChar g.char) gs
  match blockHeader? (chars (gs.takeWhile fun g => isHeaderChar g.char)),
      h : nextLine? (gs.dropWhile fun g => isHeaderChar g.char) with
  | some header, some body => do
    have hbody := length_nextLine_le h
    let fixed := header.increment.map fun n => if outer = 0 then n else outer - 1 + n
    let ⟨leading, lines, hlines⟩ ← splitBlankLines? fixed body
    let indent := fixed.getD (max leading.widest (max outer 1))
    let ⟨found, rest, hrest⟩ ← splitLines? indent lines
    return ⟨blockText folded header.chomping leading.breaks found, rest, by
      simp only [List.length_cons]; omega⟩
  | _, _ => none

end DawScript.Yaml
