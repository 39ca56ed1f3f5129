import DawScript.Fault
import DawScript.Text.Characters

/-!
# Lexemes and tokens

The beginning of a text that makes up one token. A lexeme and the rest are the text that was read
(`Lexeme.split`), and no lexeme is empty. Names and numbers are as long as their characters go, a
string ends at its quote, and the signs of two characters win over those of one. A script is read as
its tokens with their positions.
-/

namespace DawScript

/-- A nonempty beginning of `cs` as a token, and the rest. -/
structure Lexeme (cs : List Char) where
  token : Token
  text : List Char
  rest : List Char
  split : text ++ rest = cs
  nonempty : text ≠ []

namespace Lexeme

/-- What is left after a lexeme is shorter. -/
theorem rest_length_lt {cs : List Char} (l : Lexeme cs) : l.rest.length < cs.length := by
  have hlength := congrArg List.length l.split
  have hpos := List.length_pos_iff.2 l.nonempty
  rw [List.length_append] at hlength
  omega

/-! ## Blanks and comments -/

/-- The blanks inside a line. -/
def isSpace (c : Char) : Bool := c == ' ' || c == '\t' || c == '\r'

/-- Splits off a comment: two slashes or a hash, and all up to the end of the line. -/
def splitComment (cs : List Char) : List Char × List Char :=
  match cs with
  | '#' :: _ => (cs.takeWhile (· != '\n'), cs.dropWhile (· != '\n'))
  | '/' :: '/' :: _ => (cs.takeWhile (· != '\n'), cs.dropWhile (· != '\n'))
  | _ => ([], cs)

/-- Splits off blanks, at most one comment, and blanks. -/
def splitBlanks (cs : List Char) : List Char × List Char :=
  let before := cs.takeWhile isSpace
  let (comment, rest) := splitComment (cs.dropWhile isSpace)
  (before ++ comment ++ rest.takeWhile isSpace, rest.dropWhile isSpace)

theorem splitComment_append (cs : List Char) : (splitComment cs).1 ++ (splitComment cs).2 = cs := by
  unfold splitComment
  split <;> simp [List.takeWhile_append_dropWhile]

/-- Splitting off blanks loses nothing. -/
theorem splitBlanks_append (cs : List Char) : (splitBlanks cs).1 ++ (splitBlanks cs).2 = cs := by
  have hcomment := splitComment_append (cs.dropWhile isSpace)
  simp only [splitBlanks, List.append_assoc, List.takeWhile_append_dropWhile, hcomment]

/-- What is left after blanks is no longer. -/
theorem splitBlanks_length_le (cs : List Char) : (splitBlanks cs).2.length ≤ cs.length := by
  have hlength := congrArg List.length (splitBlanks_append cs)
  rw [List.length_append] at hlength
  omega

/-! ## Names -/

/-- The token of a name: a keyword if it is one. -/
def wordToken (word : List Char) : Token :=
  match String.ofList word with
  | "true" | "True" => .trueWord
  | "false" | "False" => .falseWord
  | "null" | "None" => .nullWord
  | "and" => .andWord
  | "or" => .orWord
  | "not" => .notWord
  | s => .name s

/-- Reads a name as far as its characters go. -/
def word (c : Char) (cs : List Char) (h : Text.startsName c = true) : Lexeme (c :: cs) where
  token := wordToken ((c :: cs).takeWhile Text.continuesName)
  text := (c :: cs).takeWhile Text.continuesName
  rest := (c :: cs).dropWhile Text.continuesName
  split := List.takeWhile_append_dropWhile
  nonempty := by simp [Text.continuesName_of_startsName h]

/-! ## Numbers -/

/-- Splits the digits of a fraction off, with the point before them. Without a digit after the
point there is no fraction. -/
def splitFraction (cs : List Char) : List Char × List Char :=
  match cs with
  | '.' :: d :: more =>
    if d.isDigit then
      ('.' :: (d :: more).takeWhile Char.isDigit, (d :: more).dropWhile Char.isDigit)
    else ([], cs)
  | _ => ([], cs)

theorem splitFraction_append (cs : List Char) :
    (splitFraction cs).1 ++ (splitFraction cs).2 = cs := by
  unfold splitFraction
  split
  · split
    · rw [List.cons_append, List.takeWhile_append_dropWhile]
    · rfl
  · rfl

/-- The token of a number: an integer without a fraction, which has to be a word, and the nearest
floating-point number with one. -/
def numberToken (whole fraction : List Char) : Except SyntaxFault Token :=
  match fraction with
  | [] =>
    let n := Decimal.natOfDigits whole
    if fitsWord n then .ok (.integer n) else .error (.integerTooLarge (String.ofList whole))
  | _ :: digits =>
    .ok (.number (Decimal.nearest (Decimal.natOfDigits (whole ++ digits)) (-digits.length)))

/-- Whether a text begins with a digit. -/
def startsWithDigit : List Char → Bool
  | d :: _ => d.isDigit
  | [] => false

/-- Whether a number begins a text: with a digit, or with a point and a digit. -/
def startsNumber : List Char → Bool
  | '.' :: cs => startsWithDigit cs
  | cs => startsWithDigit cs

theorem number_ne_nil {cs : List Char} (h : startsNumber cs = true) :
    cs.takeWhile Char.isDigit ++ (splitFraction (cs.dropWhile Char.isDigit)).1 ≠ [] := by
  unfold startsNumber startsWithDigit at h
  split at h
  · next rest =>
    split at h
    · next d more => simp [splitFraction, h]
    · cases h
  · split at h
    · simp [h]
    · cases h

/-- Reads a number that may have a fraction. -/
def number (cs : List Char) (h : startsNumber cs = true) : Except SyntaxFault (Lexeme cs) :=
  let whole := cs.takeWhile Char.isDigit
  let fraction := splitFraction (cs.dropWhile Char.isDigit)
  (numberToken whole fraction.1).map fun token =>
    { token := token
      text := whole ++ fraction.1
      rest := fraction.2
      split := by
        rw [List.append_assoc, splitFraction_append, List.takeWhile_append_dropWhile]
      nonempty := number_ne_nil h }

/-- Reads a number without a fraction. -/
def integer (c : Char) (cs : List Char) (h : c.isDigit = true) :
    Except SyntaxFault (Lexeme (c :: cs)) :=
  (numberToken ((c :: cs).takeWhile Char.isDigit) []).map fun token =>
    { token := token
      text := (c :: cs).takeWhile Char.isDigit
      rest := (c :: cs).dropWhile Char.isDigit
      split := List.takeWhile_append_dropWhile
      nonempty := by simp [h] }

/-! ## Strings -/

/-- What a backslash before a character stands for. -/
def unescaped (c : Char) : Char :=
  match c with
  | 'n' => '\n'
  | 't' => '\t'
  | _ => c

/-- The rest of a string after its opening quote: what it says, its text up to and including the
closing quote, and the text after it. -/
structure StringTail (cs : List Char) where
  content : List Char
  text : List Char
  rest : List Char
  split : text ++ rest = cs

/-- Reads a string up to its closing quote. A backslash takes the character after it with it; a
line end or the end of the text without one leaves the string unclosed. -/
def stringTail? (quote : Char) : (cs : List Char) → Option (StringTail cs)
  | [] => none
  | c :: cs =>
    if c = quote then some ⟨[], [c], cs, rfl⟩
    else if c = '\n' then none
    else if c = '\\' then
      match cs with
      | [] => none
      | e :: more => (stringTail? quote more).map fun tail =>
        ⟨unescaped e :: tail.content, c :: e :: tail.text, tail.rest, by simp [tail.split]⟩
    else (stringTail? quote cs).map fun tail =>
      ⟨c :: tail.content, c :: tail.text, tail.rest, by simp [tail.split]⟩

/-- Reads a string from its opening quote. -/
def string (quote : Char) (cs : List Char) : Except SyntaxFault (Lexeme (quote :: cs)) :=
  match stringTail? quote cs with
  | some tail => .ok
    { token := .string (String.ofList tail.content)
      text := quote :: tail.text
      rest := tail.rest
      split := by rw [List.cons_append, tail.split]
      nonempty := List.cons_ne_nil _ _ }
  | none => .error .unclosedString

/-! ## Signs -/

/-- The sign that two characters make. -/
def pairToken? : Char → Char → Option Token
  | '=', '=' => some .equal
  | '!', '=' => some .notEqual
  | '<', '=' => some .lessEqual
  | '>', '=' => some .greaterEqual
  | _, _ => none

/-- The sign that one character makes. -/
def charToken? : Char → Option Token
  | ';' => some .newline
  | '(' => some .leftParen
  | ')' => some .rightParen
  | '[' => some .leftBracket
  | ']' => some .rightBracket
  | '{' => some .leftBrace
  | '}' => some .rightBrace
  | ',' => some .comma
  | ':' => some .colon
  | '@' => some .at
  | '+' => some .plus
  | '-' => some .minus
  | '*' => some .star
  | '/' => some .slash
  | '.' => some .dot
  | '=' => some .assign
  | '<' => some .less
  | '>' => some .greater
  | _ => none

/-- The sign at the beginning of a text, if there is one. -/
def sign? (c : Char) : (cs : List Char) → Option (Lexeme (c :: cs))
  | [] => (charToken? c).map fun t => ⟨t, [c], [], rfl, by simp⟩
  | d :: more =>
    match pairToken? c d with
    -- the longer sign wins
    | some t => some ⟨t, [c, d], more, rfl, by simp⟩
    | none => (charToken? c).map fun t => ⟨t, [c], d :: more, rfl, by simp⟩

/-! ## One lexeme -/

/-- Tokens after which a point begins a path segment and never a fraction. -/
def endsValue : Option Token → Bool
  | some (.name _) | some (.integer _) | some .rightParen | some .rightBracket => true
  | _ => false

/-- Reads the lexeme that begins with `c`, after the token `previous` if there is one. A point
with a digit after it begins a number unless a value ends before it, and the digits after a point
are a path segment, which has no fraction. -/
def read (previous : Option Token) (c : Char) (cs : List Char) :
    Except SyntaxFault (Lexeme (c :: cs)) :=
  if c = '"' ∨ c = '\'' then string c cs
  else if h : startsNumber (c :: cs) = true ∧ (c = '.' → endsValue previous = false) then
    -- digits after a point are the position of an item, as in `items.0.name`
    if hdigit : c.isDigit = true ∧ previous = some .dot then integer c cs hdigit.1
    else number (c :: cs) h.1
  else if hword : Text.startsName c = true then .ok (word c cs hword)
  else match sign? c cs with
    | some sign => .ok sign
    | none => .error (.unexpectedCharacter c)

end Lexeme

/-!
## From text to tokens

The tokens of a script are ended by the token for the end of the script. Each line end is a token;
the column of a token counts the characters before it in its line.
-/

/-- The position after the characters of a lexeme or a blank, none of which ends the line. A line
end that a string holds behind a backslash takes no column. -/
def Position.after (p : Position) (text : List Char) : Position :=
  ⟨p.line, p.column + text.countP (· != '\n')⟩

/-- The first position of the line after. -/
def Position.nextLine (p : Position) : Position := ⟨p.line + 1, 1⟩

/-- Where a script begins. -/
def Position.start : Position := ⟨1, 1⟩

/-- Reads the tokens of a text that begins at a position, after the token `previous` if there is
one. -/
def tokensFrom (previous : Option Token) (p : Position) (cs : List Char) :
    Except Fault (List PlacedToken) :=
  have hblanks := Lexeme.splitBlanks_length_le cs
  let here := p.after (Lexeme.splitBlanks cs).1
  match h : (Lexeme.splitBlanks cs).2 with
  | [] => .ok [⟨.endOfScript, here⟩]
  | c :: rest =>
    have : rest.length < cs.length := by
      rw [h, List.length_cons] at hblanks
      exact hblanks
    -- blanks stop before a line end, which is a token of its own
    if c = '\n' then do
      let others ← tokensFrom (some .newline) here.nextLine rest
      return ⟨.newline, here⟩ :: others
    else match Lexeme.read previous c rest with
      | .error cause => .error (.malformed cause here)
      | .ok lexeme => do
        have : lexeme.rest.length < cs.length := by
          have hrest := lexeme.rest_length_lt
          rw [List.length_cons] at hrest
          omega
        let others ← tokensFrom (some lexeme.token) (here.after lexeme.text) lexeme.rest
        return ⟨lexeme.token, here⟩ :: others
termination_by cs.length

/-- The tokens of a script. -/
def tokens (script : String) : Except Fault (List PlacedToken) :=
  tokensFrom none .start script.toList

end DawScript
