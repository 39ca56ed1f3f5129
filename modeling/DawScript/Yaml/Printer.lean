import DawScript.Json.Basic
import DawScript.Yaml.Glyph
import DawScript.Yaml.Node

/-!
# YAML text

JSON values as YAML in block style. A list inside a mapping stands no deeper than its key, and a
collection inside a list begins behind the hyphen. A text is written without quotes where it reads
back as that text, else between single quotes, and between double quotes where it holds characters
that have to be escaped. A text with line ends is written as literal lines.
-/

namespace DawScript.Yaml

/-! ## Characters of a scalar -/

/-- Whether a character is written as it is. Only characters of the basic plane are. -/
def isPrintable (c : Char) : Bool :=
  let n := c.toNat
  n == 0xa || (0x20 ≤ n && n ≤ 0x7e) || (0xa0 ≤ n && n ≤ 0xfffd && n != 0xfeff)

/-- The escape of one letter that a character has between double quotes. -/
def escapeLetter? : Char → Option Char
  | '\x00' => some '0'
  | '\x07' => some 'a'
  | '\x08' => some 'b'
  | '\t' => some 't'
  | '\n' => some 'n'
  | '\x0b' => some 'v'
  | '\x0c' => some 'f'
  | '\r' => some 'r'
  | '\x1b' => some 'e'
  | '"' => some '"'
  | '\\' => some '\\'
  | '\u0085' => some 'N'
  | '\u2028' => some 'L'
  | '\u2029' => some 'P'
  | _ => none

/-- A number in upper-case hexadecimal digits, with zeros up to a width. -/
def hexText (width n : Nat) : List Char :=
  let digits := (Nat.toDigits 16 n).map Char.toUpper
  List.replicate (width - digits.length) '0' ++ digits

/-- The escape of a character by its number. -/
def numberEscape (c : Char) : List Char :=
  let n := c.toNat
  if n ≤ 0xff then 'x' :: hexText 2 n
  else if n ≤ 0xffff then 'u' :: hexText 4 n
  else 'U' :: hexText 8 n

/-- How a character is written between double quotes. -/
def escaped (c : Char) : List Char :=
  match escapeLetter? c with
  | some letter => ['\\', letter]
  | none => if isPrintable c then [c] else '\\' :: numberEscape c

/-! ## The style of a text -/

/-- The integers of up to a hundred and twenty-eight bits, with a sign or without one. -/
def isWide (n : Int) : Bool :=
  -0x80000000000000000000000000000000 ≤ n && n < 0x100000000000000000000000000000000

/-- Whether a text without quotes would stand for something other than itself, or for different
numbers to different readers. -/
def isAmbiguous (cs : List Char) : Bool :=
  let s := String.ofList cs
  s.isEmpty || s ∈ nullWords || (truth? s).isSome || (integer? cs).any isWide ||
    (float? s).isSome || hasNeedlessZero (Decimal.splitSign cs).2

/-- Whether what follows a sign gives it its meaning: a blank, a line end or the end. -/
def endsSign : List Char → Bool
  | [] => true
  | c :: _ => isBlank c || isBreak c || c == '\x00'

/-- Whether a sign in front, not at the beginning of a text, ends it there: a colon before a gap,
or a hash after one. -/
def breaksOff (previous : Char) (c : Char) (rest : List Char) : Bool :=
  (c == ':' && endsSign rest) || (c == '#' && endsSign [previous])

/-- Whether a sign that ends a text stands in it after its first character. -/
def isBrokenOff : Char → List Char → Bool
  | _, [] => false
  | previous, c :: rest => breaksOff previous c rest || isBrokenOff c rest

/-- Whether the beginning of a text means something else than a text. -/
def beginsWithSign : List Char → Bool
  | '-' :: '-' :: '-' :: _ | '.' :: '.' :: '.' :: _ => true
  | c :: rest =>
    c ∈ ['#', ',', '[', ']', '{', '}', '&', '*', '!', '|', '>', '\'', '"', '%', '@', '\x60'] ||
      (c ∈ ['?', ':', '-'] && endsSign rest)
  | [] => false

/-- Whether a space stands next to a line end, in the given order. -/
def hasPair (first second : Char → Bool) : List Char → Bool
  | a :: b :: rest => (first a && second b) || hasPair first second (b :: rest)
  | _ => false

/-- Whether a character is a space. -/
def isSpace (c : Char) : Bool := c == ' '

/-- Whether a text begins or ends with a character of a kind. -/
def hasAtEnds (p : Char → Bool) (cs : List Char) : Bool := cs.head?.any p || cs.getLast?.any p

/-- Whether characters have to be escaped, or spaces would be lost before line ends. -/
def needsEscapes (cs : List Char) : Bool :=
  cs.any (!isPrintable ·) || hasPair isSpace isBreak cs

/-- Whether a text may stand without quotes. -/
def allowsPlain (cs : List Char) : Bool :=
  !(needsEscapes cs || cs.any isBreak || hasAtEnds isSpace cs || beginsWithSign cs ||
    match cs with
    | [] => false
    | c :: rest => isBrokenOff c rest)

/-- Whether a text may stand between single quotes. -/
def allowsSingle (cs : List Char) : Bool := !(needsEscapes cs || hasPair isBreak isSpace cs)

/-- Whether a text may stand as literal lines. -/
def allowsLiteral (cs : List Char) : Bool := !(needsEscapes cs || cs.getLast?.any isSpace)

/-- The style in which a text is written. -/
def styleOf (cs : List Char) : Style :=
  if '\n' ∈ cs then if allowsLiteral cs then .literal else .doubleQuoted
  else if !isAmbiguous cs && allowsPlain cs then .plain
  else if allowsSingle cs then .singleQuoted
  else .doubleQuoted

/-! ## Scalars -/

/-- Spaces of an indentation. -/
def spaces (indent : Nat) : List Char := List.replicate indent ' '

/-- Text after a single quote, with the one that closes it. A quote is doubled, and what follows a
separator of lines is indented. -/
def singleQuotedTail (indent : Nat) : (atStart : Bool) → List Char → List Char
  | atStart, [] => (if atStart then spaces indent else []) ++ ['\'']
  | atStart, c :: cs =>
    if isBreak c then c :: singleQuotedTail indent true cs
    else
      (if atStart then spaces indent else []) ++ (if c = '\'' then ['\'', '\''] else [c]) ++
        singleQuotedTail indent false cs

/-- Text between double quotes. -/
def doubleQuotedText (cs : List Char) : List Char := '"' :: cs.flatMap escaped ++ ['"']

/-- The header of literal lines. The indentation is given where the first line does not show it,
and a sign says whether no line end follows the last line or more than one. -/
def literalHeader (cs : List Char) : List Char :=
  let indentation := if cs.head?.any (fun c => isSpace c || isBreak c) then ['2'] else []
  let chomping := match cs.reverse with
    | last :: rest =>
      if !isBreak last then ['-'] else if rest.head?.all isBreak then ['+'] else []
    | [] => ['-']
  '|' :: indentation ++ chomping

/-- Literal lines, each indented unless it is blank, and the end of the last one. -/
def literalLines (indent : Nat) : (atStart : Bool) → List Char → List Char
  | true, [] => []
  | false, [] => ['\n']
  | atStart, c :: cs =>
    if isBreak c then c :: literalLines indent true cs
    else (if atStart then spaces indent else []) ++ c :: literalLines indent false cs

/-- A text without line ends of its own, in its style. -/
def inlineText (indent : Nat) (cs : List Char) : List Char :=
  match styleOf cs with
  | .plain => cs
  | .singleQuoted => '\'' :: singleQuotedTail indent false cs
  | _ => doubleQuotedText cs

/-- A text up to the end of its last line. What follows its first line is indented. -/
def textLines (indent : Nat) (s : String) : String :=
  let cs := s.toList
  String.ofList <|
    if styleOf cs = .literal then literalHeader cs ++ '\n' :: literalLines indent true cs
    else inlineText indent cs ++ ['\n']

/-- The longest key in bytes that stands before its colon in one line. -/
def simpleKeyLimit : Nat := 128

/-- Whether a key stands before its colon in one line. -/
def isSimpleKey (s : String) : Bool :=
  s.utf8ByteSize ≤ simpleKeyLimit && !s.toList.any isBreak

/-- A floating-point number; what is not finite has no number. -/
def floatText (x : Float) : String :=
  if x.isFinite then Decimal.Layout.yaml.finite x else "null"

/-- A scalar or an empty collection up to the end of its last line. -/
def scalarLines (indent : Nat) : Json → String
  | .null => "null\n"
  | .bool b => if b then "true\n" else "false\n"
  | .integer n => toString n ++ "\n"
  | .float x => floatText x ++ "\n"
  | .string s => textLines indent s
  | .array _ => "[]\n"
  | .object _ => "\x7b\x7d\n"

/-! ## Collections -/

/-- The indentation of a line. -/
def indentation (indent : Nat) : String := String.ofList (spaces indent)

/-- Parts at `indent` that begin behind a sign; without parts, what stands for none. -/
def behind (indent : Nat) (none : String) : List String → String
  | [] => " " ++ none
  | parts => " " ++ (indentation indent).intercalate parts

/-- Parts at `indent` on lines of their own after a key; without parts, what stands for none. -/
def below (indent : Nat) (none : String) : List String → String
  | [] => " " ++ none
  | parts => "\n" ++ String.join (parts.map (indentation indent ++ ·))

mutual

/-- A value behind the sign of its entry, in a collection at `indent`. -/
def behindSign (indent : Nat) : Json → String
  | .array items => behind (indent + 2) "[]\n" (itemLines (indent + 2) items)
  | .object members => behind (indent + 2) "\x7b\x7d\n" (memberLines (indent + 2) members)
  | scalar => " " ++ scalarLines (indent + 2) scalar

/-- A value behind its key, in a mapping at `indent`. -/
def behindKey (indent : Nat) : Json → String
  | .array items => below indent "[]\n" (itemLines indent items)
  | .object members => below (indent + 2) "\x7b\x7d\n" (memberLines (indent + 2) members)
  | scalar => " " ++ scalarLines (indent + 2) scalar

/-- The items of a list at `indent`, each without the indentation of its first line. -/
def itemLines (indent : Nat) : List Json → List String
  | [] => []
  | item :: rest => ("-" ++ behindSign indent item) :: itemLines indent rest

/-- The entries of a mapping at `indent`, each without the indentation of its first line. A key
that is no simple one has a question mark, and its value begins a line. -/
def memberLines (indent : Nat) : List (String × Json) → List String
  | [] => []
  | (name, value) :: rest =>
    (if isSimpleKey name then
      String.ofList (inlineText indent name.toList) ++ ":" ++ behindKey indent value
    else "? " ++ textLines (indent + 2) name ++ indentation indent ++ ":" ++
      behindSign indent value) :: memberLines indent rest

end

/-- A value as a document. -/
def text : Json → String
  | .array [] => "[]\n"
  | .array items => String.join (itemLines 0 items)
  | .object [] => "\x7b\x7d\n"
  | .object members => String.join (memberLines 0 members)
  | scalar => scalarLines 2 scalar

end DawScript.Yaml
