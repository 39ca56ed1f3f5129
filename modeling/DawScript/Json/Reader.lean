import DawScript.Consumed
import DawScript.Decimal.Text
import DawScript.Json.Basic

/-!
# Reading JSON

Text in JSON becomes a value, or a fault that names its cause and its place by line and byte
column. Arrays and objects may stand inside each other up to a fixed depth, which bounds the
recursion. Every reader returns what it leaves of the text, and a fault counts the bytes that were
left when it was found.
-/

namespace DawScript.Json

/-- What can be wrong with JSON text. -/
inductive Cause where
  | endInList
  | endInObject
  | endInString
  | endInValue
  | missingColon
  | missingListEnd
  | missingObjectEnd
  | unknownWord
  | missingValue
  | badEscape
  | badNumber
  | numberTooLarge
  | controlInString
  | nameNotString
  | loneSurrogate
  | missingSurrogate
  | trailingComma
  | trailingText
  | tooDeep
deriving DecidableEq, Repr

/-- The wording of a cause. -/
def Cause.message : Cause → String
  | .endInList => "EOF while parsing a list"
  | .endInObject => "EOF while parsing an object"
  | .endInString => "EOF while parsing a string"
  | .endInValue => "EOF while parsing a value"
  | .missingColon => "expected `:`"
  | .missingListEnd => "expected `,` or `]`"
  | .missingObjectEnd => "expected `,` or `\x7d`"
  | .unknownWord => "expected ident"
  | .missingValue => "expected value"
  | .badEscape => "invalid escape"
  | .badNumber => "invalid number"
  | .numberTooLarge => "number out of range"
  | .controlInString => "control character (\\u0000-\\u001F) found while parsing a string"
  | .nameNotString => "key must be a string"
  | .loneSurrogate => "lone leading surrogate in hex escape"
  | .missingSurrogate => "unexpected end of hex escape"
  | .trailingComma => "trailing comma"
  | .trailingText => "trailing characters"
  | .tooDeep => "recursion limit exceeded"

/-- A cause and the number of bytes not yet read when it was found. -/
structure Fault where
  cause : Cause
  unread : Nat
deriving DecidableEq, Repr

/-- The number of bytes of a text. -/
def byteCount (cs : List Char) : Nat := cs.foldr (fun c n => c.utf8Size + n) 0

/-- A fault found before `rest`. -/
def Fault.before (cause : Cause) (rest : List Char) : Fault := ⟨cause, byteCount rest⟩

/-- A fault found in the first byte of `rest`, if there is one. -/
def Fault.at (cause : Cause) (rest : List Char) : Fault := ⟨cause, byteCount rest - 1⟩

/-- A result read from `cs`, or a fault. -/
abbrev Reading (α : Type) (cs : List Char) := Except Fault (Consumed Char α cs)

/-- JSON's blanks. -/
def isSpace (c : Char) : Bool := c == ' ' || c == '\n' || c == '\t' || c == '\r'

/-- The text after leading blanks. -/
def skipSpaces (cs : List Char) : List Char := cs.dropWhile isSpace

theorem length_skipSpaces_le (cs : List Char) : (skipSpaces cs).length ≤ cs.length :=
  length_dropWhile_le isSpace cs

/-! ## Numbers -/

/-- The largest significand that digits are collected into: `2 ^ 64 - 1`. -/
def significandLimit : Nat := 0xffffffffffffffff

/-- Collects digits into a significand while it stays within the limit: the significand, how many
digits went in, and the digits that did not. -/
def collect : Nat → Nat → List Char → Nat × Nat × List Char
  | significand, count, [] => (significand, count, [])
  | significand, count, d :: digits =>
    let next := significand * 10 + Decimal.digitValue d
    if next ≤ significandLimit then collect next (count + 1) digits
    else (significand, count, d :: digits)

/-- Ten to a power that a floating-point number can hold. -/
def powerOfTen (e : Nat) : Float := Decimal.nearest 1 e

/-- Divides by a power of ten, at most `10 ^ 308` at a time. -/
def scaleDown (x : Float) (e : Nat) : Float :=
  if e ≤ 308 then x / powerOfTen e
  else if x == 0.0 then x
  else scaleDown (x / powerOfTen 308) (e - 308)
termination_by e

/-- The floating-point number for a significand and a power of ten. The significand is rounded
first and the scaled result again; nothing is returned when it is too large. -/
def scaled? (significand : Nat) (e : Int) : Option Float :=
  let x := significand.toUInt64.toFloat
  if e < 0 then some (scaleDown x e.natAbs)
  else if e ≤ 308 then
    let y := x * powerOfTen e.toNat
    if y.isInf then none else some y
  else if x == 0.0 then some x
  else none

/-- The largest exponent that is read digit by digit: `2 ^ 31 - 1`. -/
def exponentLimit : Nat := 0x7fffffff

/-- Collects the digits of an exponent: the exponent, or nothing when it passes the limit, and the
text from where it stopped. -/
def collectExponent : Nat → List Char → Option Nat × List Char
  | e, [] => (some e, [])
  | e, c :: cs =>
    if c.isDigit then
      let next := e * 10 + Decimal.digitValue c
      if next ≤ exponentLimit then collectExponent next cs else (none, cs)
    else (some e, c :: cs)

theorem length_collectExponent_le (e : Nat) (cs : List Char) :
    (collectExponent e cs).2.length ≤ cs.length := by
  fun_induction collectExponent e cs with
  | case1 => simp
  | case2 e c cs h next hle ih => exact Nat.le_succ_of_le ih
  | case3 e c cs h next hle => simp
  | case4 e c cs h => simp

/-- The number of a significand and a power of ten, with its sign, read up to `rest`. -/
def floatNumber (negative : Bool) (significand : Nat) (e : Int) (rest : List Char) :
    Except Fault Json :=
  match scaled? significand e with
  | some x => .ok (.float (if negative then -x else x))
  | none => .error (.before .numberTooLarge rest)

/-- Reads the digits of an exponent, which scale a significand further. -/
def readExponentDigits (negative down : Bool) (significand : Nat) (start : Int) (cs : List Char) :
    Reading Json cs :=
  match cs with
  | [] => .error (.before .endInValue [])
  | c :: digits =>
    if !c.isDigit then .error (.before .badNumber digits)
    else
      have hrest := length_collectExponent_le (Decimal.digitValue c) digits
      match h : collectExponent (Decimal.digitValue c) digits with
      | (some e, rest) => do
        let number ← floatNumber negative significand (if down then start - e else start + e) rest
        return ⟨number, rest, by simp only [h] at hrest; exact Nat.lt_succ_of_le hrest⟩
      | (none, rest) =>
        -- too large an exponent is a fault only if it makes the number large
        if significand ≠ 0 && !down then .error (.before .numberTooLarge rest)
        else
          have hdrop := length_dropWhile_le Char.isDigit rest
          .ok ⟨.float (if negative then -0.0 else 0.0), rest.dropWhile Char.isDigit, by
            simp only [h] at hrest
            exact Nat.lt_succ_of_le (Nat.le_trans hdrop hrest)⟩

/-- Reads an exponent with its mark. -/
def readExponent (negative : Bool) (significand : Nat) (start : Int) (mark : Char)
    (cs : List Char) : Reading Json (mark :: cs) :=
  match cs with
  | '+' :: digits =>
    (readExponentDigits negative false significand start digits).map (·.behind.behind)
  | '-' :: digits =>
    (readExponentDigits negative true significand start digits).map (·.behind.behind)
  | digits =>
    (readExponentDigits negative false significand start digits).map (·.behind)

/-- Reads a fraction with its point; the digits beyond the limit do not count. -/
def readFraction (negative : Bool) (significand : Nat) (start : Int) (cs : List Char) :
    Reading Json ('.' :: cs) :=
  let digits := cs.takeWhile Char.isDigit
  have hle := length_dropWhile_le Char.isDigit cs
  match h : cs.dropWhile Char.isDigit with
  | rest =>
    if digits.isEmpty then
      .error (.at (if rest.isEmpty then .endInValue else .badNumber) rest)
    else
      let (significand, count, _) := collect significand 0 digits
      match rest with
      | c :: more =>
        if c = 'e' || c = 'E' then
          (readExponent negative significand (start - count) c more).map
            (·.within (by simp only [h] at hle; exact Nat.le_succ_of_le hle))
        else do
          let number ← floatNumber negative significand (start - count) (c :: more)
          return ⟨number, c :: more, by simp only [h] at hle; exact Nat.lt_succ_of_le hle⟩
      | [] => do
        let number ← floatNumber negative significand (start - count) []
        return ⟨number, [], by simp⟩

/-- The magnitude of the least integer: `2 ^ 63`. -/
def negativeLimit : Nat := 0x8000000000000000

/-- The number of an integer's digits, when it has no fraction and no exponent. What does not fit
a signed or an unsigned word becomes a floating-point number, and so does a negative zero. -/
def integerNumber (negative : Bool) (significand : Nat) (surplus : Nat) (rest : List Char) :
    Except Fault Json :=
  -- the digits that did not go in count as powers of ten
  if surplus ≠ 0 then floatNumber negative significand surplus rest
  else if !negative then .ok (.integer significand)
  else if 0 < significand && significand ≤ negativeLimit then .ok (.integer (-significand))
  else .ok (.float (-significand.toUInt64.toFloat))

theorem length_dropWhile_lt {p : Char → Bool} {c : Char} {cs : List Char} (h : p c = true) :
    ((c :: cs).dropWhile p).length < (c :: cs).length := by
  rw [List.dropWhile_cons_of_pos h]
  exact Nat.lt_succ_of_le (length_dropWhile_le p cs)

/-- Reads a number after its sign. -/
def readNumber (negative : Bool) (cs : List Char) : Reading Json cs :=
  match cs with
  | [] => .error (.before .endInValue [])
  | c :: after =>
    if hdigit : c.isDigit = true then
      let digits := (c :: after).takeWhile Char.isDigit
      -- no digit may follow a leading zero
      if c = '0' && 1 < digits.length then .error (.at .badNumber after)
      else
        let (significand, _, surplus) := collect 0 0 digits
        have hlt := @length_dropWhile_lt Char.isDigit c after hdigit
        match h : (c :: after).dropWhile Char.isDigit with
        | '.' :: more =>
          (readFraction negative significand surplus.length more).map
            (·.within (by simp only [h] at hlt; exact Nat.le_of_lt hlt))
        | mark :: more =>
          if mark = 'e' || mark = 'E' then
            (readExponent negative significand surplus.length mark more).map
              (·.within (by simp only [h] at hlt; exact Nat.le_of_lt hlt))
          else do
            let number ← integerNumber negative significand surplus.length (mark :: more)
            return ⟨number, mark :: more, by simp only [h] at hlt; exact hlt⟩
        | [] => do
          let number ← integerNumber negative significand surplus.length []
          return ⟨number, [], by simp⟩
    else .error (.before .badNumber after)

/-! ## Strings -/

/-- Reads four hexadecimal digits as one number. The text ends too early when fewer than four
bytes are left. -/
def readHex (cs : List Char) : Reading Nat cs :=
  match cs with
  | a :: b :: c :: d :: rest =>
    match Radix.number? 16 [a, b, c, d] with
    | some n => .ok ⟨n, rest, by simp; omega⟩
    | none => .error ⟨.badEscape, byteCount cs - 4⟩
  | _ =>
    if 4 ≤ byteCount cs then .error ⟨.badEscape, byteCount cs - 4⟩
    else .error (.before .endInString [])

/-- Whether a number is the first half of a character beyond the basic plane. -/
def isLeading (n : Nat) : Bool := 0xd800 ≤ n && n ≤ 0xdbff

/-- Whether a number is the second half of a character beyond the basic plane. -/
def isTrailing (n : Nat) : Bool := 0xdc00 ≤ n && n ≤ 0xdfff

/-- Reads the escape of a character by its number: four hexadecimal digits, or two such escapes
for the two halves of a character beyond the basic plane. -/
def readNumberedChar (cs : List Char) : Reading Char cs := do
  let ⟨n, rest, h⟩ ← readHex cs
  if isTrailing n then .error (.before .loneSurrogate rest)
  else if !isLeading n then return ⟨Char.ofNat n, rest, h⟩
  else match rest, h with
    | [], _ => .error (.before .endInString [])
    | '\\' :: [], _ => .error (.before .endInString [])
    | '\\' :: 'u' :: more, h =>
      let ⟨n', rest', h'⟩ ← readHex more
      if isTrailing n' then
        return ⟨Char.ofNat ((n - 0xd800) * 0x400 + (n' - 0xdc00) + 0x10000), rest', by
          simp only [List.length_cons] at h; omega⟩
      else .error (.before .loneSurrogate rest')
    | '\\' :: _ :: more, _ => .error (.before .missingSurrogate more)
    | _ :: more, _ => .error (.before .missingSurrogate more)

/-- Reads an escape after its backslash. -/
def readEscape (cs : List Char) : Reading Char cs :=
  match cs with
  | [] => .error (.before .endInString [])
  | c :: rest =>
    match c with
    | '"' => .ok (.one '"')
    | '\\' => .ok (.one '\\')
    | '/' => .ok (.one '/')
    | 'b' => .ok (.one '\x08')
    | 'f' => .ok (.one '\x0c')
    | 'n' => .ok (.one '\n')
    | 'r' => .ok (.one '\r')
    | 't' => .ok (.one '\t')
    | 'u' => (readNumberedChar rest).map (·.behind)
    | _ => .error (.before .badEscape rest)

/-- Reads the characters of a string up to and including its closing quote. -/
def readChars (cs : List Char) : Reading (List Char) cs :=
  match cs with
  | [] => .error (.before .endInString [])
  | '"' :: rest => .ok (.one [])
  | '\\' :: rest => do
    let ⟨c, more, h⟩ ← readEscape rest
    let ⟨others, rest', h'⟩ ← readChars more
    return ⟨c :: others, rest', by simp; omega⟩
  | c :: rest =>
    if c.toNat < 0x20 then .error (.before .controlInString rest)
    else (readChars rest).map fun chars => (chars.map (c :: ·)).behind
termination_by cs.length

/-- Reads a string after its opening quote. -/
def readString (cs : List Char) : Reading String cs :=
  (readChars cs).map (·.map String.ofList)

/-! ## Values -/

/-- Reads the letters of a word after its first one. -/
def readWord (value : Json) : List Char → (c : Char) → (cs : List Char) → Reading Json (c :: cs)
  | [], _, _ => .ok (.one value)
  | _ :: _, _, [] => .error (.before .endInValue [])
  | letter :: letters, _, c :: cs =>
    if c = letter then (readWord value letters c cs).map (·.behind)
    else .error (.before .unknownWord cs)

/-- A reader of one value. -/
abbrev ValueReader := (cs : List Char) → Reading Json cs

/-- Reads the items of an array and its closing bracket, after blanks and a first item. -/
def readItems (value : ValueReader) (cs : List Char) : Reading (List Json) cs :=
  have hspaces := length_skipSpaces_le cs
  match h : skipSpaces cs with
  | [] => .error (.at .endInList [])
  | ']' :: rest => .ok ⟨[], rest, by simp only [h, List.length_cons] at hspaces; omega⟩
  | ',' :: rest =>
    have hinner := length_skipSpaces_le rest
    match h' : skipSpaces rest with
    | [] => .error (.at .endInValue [])
    | ']' :: more => .error (.at .trailingComma (']' :: more))
    | c :: more => do
      let ⟨item, after, hitem⟩ ← value (c :: more)
      have : after.length < cs.length := by
        simp only [h, h', List.length_cons] at hspaces hinner hitem; omega
      let ⟨items, rest', hitems⟩ ← readItems value after
      return ⟨item :: items, rest', by omega⟩
  | c :: rest => .error (.at .missingListEnd (c :: rest))
termination_by cs.length

/-- Reads an array after its opening bracket. -/
def readArray (value : ValueReader) (cs : List Char) : Reading (List Json) cs :=
  have hspaces := length_skipSpaces_le cs
  match h : skipSpaces cs with
  | [] => .error (.at .endInList [])
  | ']' :: rest => .ok ⟨[], rest, by simp only [h, List.length_cons] at hspaces; omega⟩
  | c :: rest => do
    let ⟨item, after, hitem⟩ ← value (c :: rest)
    let ⟨items, rest', hitems⟩ ← readItems value after
    return ⟨item :: items, rest', by
      simp only [h] at hspaces; omega⟩

/-- Reads a member of an object after the opening quote of its name. -/
def readMember (value : ValueReader) (cs : List Char) : Reading (String × Json) cs := do
  let ⟨name, after, hname⟩ ← readString cs
  have hspaces := length_skipSpaces_le after
  match h : skipSpaces after with
  | [] => .error (.at .endInObject [])
  | ':' :: rest =>
    let ⟨held, rest', hvalue⟩ ← value rest
    return ⟨(name, held), rest', by simp only [h, List.length_cons] at hspaces; omega⟩
  | c :: rest => .error (.at .missingColon (c :: rest))

/-- Reads the members of an object and its closing brace, after a first member. -/
def readMembers (value : ValueReader) (cs : List Char) : Reading (List (String × Json)) cs :=
  have hspaces := length_skipSpaces_le cs
  match h : skipSpaces cs with
  | [] => .error (.at .endInObject [])
  | '}' :: rest => .ok ⟨[], rest, by simp only [h, List.length_cons] at hspaces; omega⟩
  | ',' :: rest =>
    have hinner := length_skipSpaces_le rest
    match h' : skipSpaces rest with
    | [] => .error (.at .endInValue [])
    | '}' :: more => .error (.at .trailingComma ('}' :: more))
    | '"' :: more => do
      let ⟨member, after, hmember⟩ ← readMember value more
      have : after.length < cs.length := by
        simp only [h, h', List.length_cons] at hspaces hinner; omega
      let ⟨members, rest', hmembers⟩ ← readMembers value after
      return ⟨member :: members, rest', by omega⟩
    | c :: more => .error (.at .nameNotString (c :: more))
  | c :: rest => .error (.at .missingObjectEnd (c :: rest))
termination_by cs.length

/-- Reads an object after its opening brace. -/
def readObject (value : ValueReader) (cs : List Char) : Reading (List (String × Json)) cs :=
  have hspaces := length_skipSpaces_le cs
  match h : skipSpaces cs with
  | [] => .error (.at .endInObject [])
  | '}' :: rest => .ok ⟨[], rest, by simp only [h, List.length_cons] at hspaces; omega⟩
  | '"' :: rest => do
    let ⟨member, after, hmember⟩ ← readMember value rest
    let ⟨members, rest', hmembers⟩ ← readMembers value after
    return ⟨member :: members, rest', by
      simp only [h, List.length_cons] at hspaces; omega⟩
  | c :: rest => .error (.at .nameNotString (c :: rest))

/-- Reads a value that is no container, by its first character. -/
def readScalar : (c : Char) → (cs : List Char) → Reading Json (c :: cs)
  | 'n', cs => readWord .null ['u', 'l', 'l'] 'n' cs
  | 't', cs => readWord (.bool true) ['r', 'u', 'e'] 't' cs
  | 'f', cs => readWord (.bool false) ['a', 'l', 's', 'e'] 'f' cs
  | '-', cs => (readNumber true cs).map (·.behind)
  | '"', cs => (readString cs).map fun s => (s.map Json.string).behind
  | c, cs =>
    if c.isDigit then readNumber false (c :: cs) else .error (.at .missingValue (c :: cs))

/-- Reads a value whose containers nest at most `depth` deep. -/
def readValue (depth : Nat) : ValueReader := fun cs =>
  have hspaces := length_skipSpaces_le cs
  match h : skipSpaces cs with
  | [] => .error (.at .endInValue [])
  | '[' :: rest =>
    match depth with
    | 0 => .error (.at .tooDeep ('[' :: rest))
    | inner + 1 => (readArray (readValue inner) rest).map fun items =>
        (items.map Json.array).within (by simp only [h, List.length_cons] at hspaces; omega)
  | '{' :: rest =>
    match depth with
    | 0 => .error (.at .tooDeep ('{' :: rest))
    | inner + 1 => (readObject (readValue inner) rest).map fun members =>
        (members.map fun ms => Json.object (Fields.ofList ms)).within
          (by simp only [h, List.length_cons] at hspaces; omega)
  | c :: rest => (readScalar c rest).map (·.within (by simpa only [h] using hspaces))

/-- How deep arrays and objects may nest. -/
def depthLimit : Nat := 127

/-- A fault with its place: the line, and the byte column in it. -/
structure Misread where
  cause : Cause
  line : Nat
  column : Nat
deriving DecidableEq, Repr

/-- The wording of a fault with its place. -/
def Misread.message (m : Misread) : String :=
  m.cause.message ++ " at line " ++ toString m.line ++ " column " ++ toString m.column

/-- The line and byte column reached after `count` more bytes of a text. -/
def placeAfter : Nat → Nat → Nat → List Char → Nat × Nat
  | line, column, _, [] => (line, column)
  | line, column, count, c :: cs =>
    if count = 0 then (line, column)
    else if c = '\n' then placeAfter (line + 1) 0 (count - 1) cs
    else placeAfter line (column + min count c.utf8Size) (count - c.utf8Size) cs

/-- Reads a whole text as one value, with blanks around it. -/
def parse (text : String) : Except Misread Json :=
  let cs := text.toList
  let outcome : Except Fault Json := do
    let ⟨value, rest, _⟩ ← readValue depthLimit cs
    match skipSpaces rest with
    | [] => return value
    | c :: more => .error (.at .trailingText (c :: more))
  outcome.mapError fun fault =>
    let (line, column) := placeAfter 1 0 (byteCount cs - fault.unread) cs
    ⟨fault.cause, line, column⟩

end DawScript.Json
