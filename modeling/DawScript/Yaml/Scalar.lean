import DawScript.Decimal.Text
import DawScript.Yaml.Glyph

/-!
# Scalars inside lines

Quoted and plain scalars. Both may run over several lines, and the gap between two words then
folds: one line end stands for a space, and of several the first is dropped. A quoted scalar ends
at its quote. A plain one ends where something else begins, or where a line stands less deep than
it may.
-/

namespace DawScript.Yaml

/-- A result read from the beginning of `gs`, if it can be read. -/
abbrev Reading (α : Type) (gs : List Glyph) := Option (Consumed Glyph α gs)

/-- Whether a character stands between words. -/
def isGap (g : Glyph) : Bool := isBlank g.char || isBreak g.char

/-- What a gap stands for: blanks inside a line stay, one line end becomes a space, and the first
of several line ends is dropped. A separator of lines or paragraphs keeps its line ends. -/
def foldGap (gap : List Glyph) : List Char :=
  match (chars gap).filter isBreak with
  | [] => chars gap
  | ['\n'] => [' ']
  | '\n' :: more => more
  | breaks => breaks

/-! ## Quoted scalars -/

/-- What an escape of one letter stands for. -/
def unescaped? : Char → Option Char
  | '0' => some '\x00'
  | 'a' => some '\x07'
  | 'b' => some '\x08'
  | 't' | '\t' => some '\t'
  | 'n' => some '\n'
  | 'v' => some '\x0b'
  | 'f' => some '\x0c'
  | 'r' => some '\r'
  | 'e' => some '\x1b'
  | ' ' => some ' '
  | '"' => some '"'
  | '/' => some '/'
  | '\\' => some '\\'
  | 'N' => some '\u0085'
  | '_' => some '\u00a0'
  | 'L' => some '\u2028'
  | 'P' => some '\u2029'
  | _ => none

/-- How many hexadecimal digits an escape by number has. -/
def codeLength? : Char → Option Nat
  | 'x' => some 2
  | 'u' => some 4
  | 'U' => some 8
  | _ => none

/-- The character with a code point, which is none of the surrogates. -/
def charOf? (n : Nat) : Option Char := if n.isValidChar then some (Char.ofNat n) else none

/-- Reads an escape after its backslash. -/
def readEscape (gs : List Glyph) : Reading Char gs :=
  match gs with
  | [] => none
  | g :: rest =>
    match codeLength? g.char with
    | none => (unescaped? g.char).map fun c => .one c
    | some count =>
      let digits := chars (rest.take count)
      if digits.length < count then none
      else ((Radix.number? 16 digits).bind charOf?).map fun c =>
        ⟨c, rest.drop count, length_drop_lt⟩

/-- Reads a quoted scalar after its opening quote. Between double quotes a backslash begins an
escape, and one before a line end joins the lines without a space; between single quotes a doubled
quote stands for one. No document may begin or end inside. -/
def readQuoted (quote : Char) (gs : List Glyph) : Reading (List Char) gs :=
  match gs with
  | [] => none
  | g :: rest =>
    if bordersDocument (g :: rest) then none
    else if isGap g then
      have _hgap := length_dropWhile_le isGap rest
      (readQuoted quote (rest.dropWhile isGap)).map fun more =>
        (more.map (foldGap (g :: rest.takeWhile isGap) ++ ·)).past.behind
    else if g.char = quote then
      match rest with
      | [] => some (.one [])
      | h :: after =>
        if quote = '\'' && h.char = '\'' then
          (readQuoted quote after).map fun more =>
            (more.map ('\'' :: ·)).behind.behind
        else some (.one [])
    else if quote = '"' && g.char = '\\' then
      match rest with
      | [] => none
      | h :: after =>
        if isBreak h.char then
          have _hgap := length_dropWhile_le isGap after
          (readQuoted quote (after.dropWhile isGap)).map fun more =>
            (more.map ((chars (after.takeWhile isGap)).filter isBreak ++ ·)).past.behind.behind
        else do
          let ⟨c, rest', hrest⟩ ← readEscape (h :: after)
          (readQuoted quote rest').map fun more =>
            ((more.map (c :: ·)).within (Nat.le_of_lt hrest)).behind
    else (readQuoted quote rest).map fun more => (more.map (g.char :: ·)).behind
termination_by gs.length
decreasing_by all_goals (simp only [List.length_cons] at *; omega)

/-! ## Plain scalars -/

/-- Whether a character has a meaning of its own inside flow collections. -/
def isFlowIndicator (c : Char) : Bool := c ∈ [',', '[', ']', '{', '}']

/-- Whether a word of a plain scalar ends here: at a gap, at a colon before a gap, and in a flow
collection at an indicator. -/
def endsPlain (inFlow : Bool) : List Glyph → Bool
  | [] => true
  | g :: rest =>
    isGap g || (g.char == ':' && endsWord rest) || (inFlow && isFlowIndicator g.char)

/-- Whether a colon stands before an indicator, which no plain scalar in a flow collection may
hold. -/
def clashes : List Glyph → Bool
  | ⟨':', _, _⟩ :: h :: _ => isFlowIndicator h.char || h.char == '?'
  | _ => false

/-- Splits off the word in front. -/
def splitWord? (inFlow : Bool) (gs : List Glyph) : Option (Stretch (List Char) gs) :=
  match gs with
  | [] => some ⟨[], [], Nat.le_refl _⟩
  | g :: rest =>
    if inFlow && clashes (g :: rest) then none
    else if endsPlain inFlow (g :: rest) then some ⟨[], g :: rest, Nat.le_refl _⟩
    else (splitWord? inFlow rest).map fun ⟨word, after, hafter⟩ =>
      ⟨g.char :: word, after, Nat.le_succ_of_le hafter⟩

/-- Whether a tab stands in a gap where a line has to be indented by `indent` columns. -/
def hasStrayTab (indent : Nat) (gap : List Glyph) : Bool :=
  (gap.dropWhile fun g => !isBreak g.char).any fun g => g.char == '\t' && g.column < indent

/-- Whether a plain scalar ends before what stands in front after a gap: where the text or the
document ends, before a comment, and on a line that is not indented by `indent` columns. -/
def endsBefore (inFlow : Bool) (indent : Nat) (gs : List Glyph) : Bool :=
  match gs with
  | [] => true
  | g :: _ => (!inFlow && g.column < indent) || bordersDocument gs || g.char == '#'

/-- A plain scalar, and whether a line end was passed after its last word. -/
structure PlainText where
  text : List Char
  crossed : Bool

/-- Reads a plain scalar whose first character is `g` and whose lines after the first are indented
by `indent` columns. -/
def readPlain (inFlow : Bool) (indent : Nat) (g : Glyph) (gs : List Glyph) :
    Reading PlainText (g :: gs) :=
  match splitWord? inFlow gs with
  | none => none
  | some ⟨word, after, hafter⟩ =>
    let gap := after.takeWhile isGap
    have _hgap := length_dropWhile_le isGap after
    match h : after.dropWhile isGap with
    | [] => some ⟨⟨g.char :: word, gap.any (isBreak ·.char)⟩, [], by simp⟩
    | next :: more =>
      have hnext : (next :: more).length < (g :: gs).length := by
        rw [← h, List.length_cons]; omega
      have : more.length < gs.length := by simpa using hnext
      if hasStrayTab indent gap then none
      else if endsBefore inFlow indent (next :: more) || endsPlain inFlow (next :: more) then
        some ⟨⟨g.char :: word, gap.any (isBreak ·.char)⟩, next :: more, hnext⟩
      else if inFlow && clashes (next :: more) then none
      else (readPlain inFlow indent next more).map fun t =>
        (t.map fun t => ⟨g.char :: word ++ foldGap gap ++ t.text, t.crossed⟩).within (by omega)
termination_by gs.length

end DawScript.Yaml
