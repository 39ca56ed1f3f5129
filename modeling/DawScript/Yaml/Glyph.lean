import DawScript.Consumed

/-!
# Characters of a YAML text

YAML is read by lines and columns: a column decides how deep a collection stands, and a line end
ends a comment or folds into a space. So a text is first turned into characters with their places.
Line ends of two characters count as one, and control characters are refused.
-/

namespace DawScript.Yaml

/-- A character with its place; lines and columns count from zero. -/
structure Glyph where
  char : Char
  line : Nat
  column : Nat
deriving DecidableEq, Repr

/-- A result read from the beginning of `gs`, which may be empty, and what is left. -/
structure Stretch (α : Type) (gs : List Glyph) where
  value : α
  rest : List Glyph
  le : rest.length ≤ gs.length

/-- Whether a character ends a line, once line ends are unified. -/
def isBreak (c : Char) : Bool := c == '\n' || c == '\u2028' || c == '\u2029'

/-- Whether a character is a blank inside a line. -/
def isBlank (c : Char) : Bool := c == ' ' || c == '\t'

/-- The characters that a YAML text may hold. -/
def isAllowed (c : Char) : Bool :=
  let n := c.toNat
  n == 0x9 || n == 0xa || n == 0xd || (0x20 ≤ n && n ≤ 0x7e) || n == 0x85 ||
    (0xa0 ≤ n && n ≤ 0xd7ff) || (0xe000 ≤ n && n ≤ 0xfffd && n != 0xfeff) || 0x10000 ≤ n

/-- Writes the line ends of the text as line feeds; the separators of lines and paragraphs
stay. -/
def unifyBreaks : List Char → List Char
  | [] => []
  | '\r' :: '\n' :: cs => '\n' :: unifyBreaks cs
  | c :: cs => (if c = '\r' || c = '\u0085' then '\n' else c) :: unifyBreaks cs

/-- The characters of a text with their places, from the given line and column on. -/
def placed : Nat → Nat → List Char → List Glyph
  | _, _, [] => []
  | line, column, c :: cs =>
    ⟨c, line, column⟩ ::
      if isBreak c then placed (line + 1) 0 cs else placed line (column + 1) cs

/-- The characters of a text with their places, if the text may be one in YAML. A byte order mark
before it is passed over. -/
def glyphs? (text : String) : Option (List Glyph) :=
  let cs := match text.toList with
    | '\ufeff' :: cs => cs
    | cs => cs
  if cs.all isAllowed then some (placed 0 0 (unifyBreaks cs)) else none

/-- Whether a word ends here: at a blank, at a line end or at the end of the text. -/
def endsWord : List Glyph → Bool
  | [] => true
  | g :: _ => isBlank g.char || isBreak g.char

/-- Whether a mark of a document stands in front: three times `mark` as a word at the beginning
of a line. -/
def marksDocument (mark : Char) : List Glyph → Bool
  | a :: b :: c :: rest =>
    a.column == 0 && a.char == mark && b.char == mark && c.char == mark && endsWord rest
  | _ => false

/-- Whether a document begins or ends here. -/
def bordersDocument (gs : List Glyph) : Bool := marksDocument '-' gs || marksDocument '.' gs

/-- The letters of names: those of ASCII, digits, the underscore and the hyphen. -/
def isNameChar (c : Char) : Bool := c.isAlphanum || c == '_' || c == '-'

/-- Whether a glyph is a letter of a name. -/
def Glyph.inName (g : Glyph) : Bool := isNameChar g.char

/-- The characters of a stretch of text. -/
def chars (gs : List Glyph) : List Char := gs.map (·.char)

/-- What is left after the blanks in front. -/
def skipInline (gs : List Glyph) : List Glyph := gs.dropWhile fun g => isBlank g.char

/-- What is left after blanks and a comment that reaches to the end of the line. -/
def skipComment (gs : List Glyph) : List Glyph :=
  match skipInline gs with
  | [] => []
  | g :: rest => if g.char = '#' then rest.dropWhile fun g => !isBreak g.char else g :: rest

/-- What follows a line end, or the end of the text, in front. -/
def afterBreak? : List Glyph → Option (List Glyph)
  | [] => some []
  | g :: rest => if isBreak g.char then some rest else none

/-- What follows the line if nothing but blanks and a comment is left of it. -/
def nextLine? (gs : List Glyph) : Option (List Glyph) := afterBreak? (skipComment gs)

theorem length_skipInline_le (gs : List Glyph) : (skipInline gs).length ≤ gs.length :=
  length_dropWhile_le _ gs

theorem length_skipComment_le (gs : List Glyph) : (skipComment gs).length ≤ gs.length := by
  have hinline := length_skipInline_le gs
  unfold skipComment
  split
  · exact Nat.zero_le _
  · next g rest heq =>
    rw [heq, List.length_cons] at hinline
    split
    · have hcomment := length_dropWhile_le (fun g => !isBreak g.char) rest
      omega
    · exact hinline

theorem length_nextLine_le {gs rest : List Glyph} (h : nextLine? gs = some rest) :
    rest.length ≤ gs.length := by
  have hcomment := length_skipComment_le gs
  unfold nextLine? at h
  cases hskip : skipComment gs with
  | nil =>
    rw [hskip] at h
    cases h
    exact Nat.zero_le _
  | cons g more =>
    rw [hskip, List.length_cons] at hcomment
    simp only [hskip, afterBreak?, Option.ite_none_right_eq_some, Option.some.injEq] at h
    rw [← h.2]
    omega

end DawScript.Yaml
