import DawScript.Proofs.CheckedRun
import DawScript.Proofs.Scanning

/-!
# Checked lexing

The lexer as it goes through the characters of a script by their index, with a check at every
character read and at every round of a loop. It does what `tokens` does by taking lists apart
(`run_lex`), so none of its checks ever fails.
-/

set_option autoImplicit false

namespace DawScript

/-- The index of the next character, and its line and column. -/
structure Cursor where
  index : Nat
  position : Position

/-- The place after some characters that do not end the line. -/
def Cursor.after (k : Cursor) (text : List Char) : Cursor :=
  ⟨k.index + text.length, k.position.after text⟩

namespace Checked

open Lexeme (isSpace unescaped wordToken endsValue)

variable (cs : List Char)

/-- The places in a text. -/
def textExtent : Extent Cursor := ⟨Cursor.index, cs.length⟩

/-! ## Characters -/

/-- Whether the text ends here. -/
def atTextEnd : Checked Cursor Bool := do return cs.length ≤ (← get).index

/-- The next character, which has to be there. -/
def peekChar : Checked Cursor Char := do
  match cs[(← get).index]? with
  | some c => return c
  | none => trap .outOfBounds

/-- The character after the next one, if there is one. -/
def peekSecond : Checked Cursor (Option Char) := do return cs[(← get).index + 1]?

/-- Takes the next character, which has to be there. -/
def takeChar : Checked Cursor Char := do
  let c ← peekChar cs
  modify (·.after [c])
  return c

/-- Whether a character `c` comes next. -/
def charIsNext (p : Char → Bool) : Checked Cursor Bool := do
  if ← atTextEnd cs then return false
  else return p (← peekChar cs)

/-- Takes characters as long as they have a property. -/
def takeChars (p : Char → Bool) : Checked Cursor (List Char) :=
  iterate (textExtent cs) (fun taken => do
    if ← charIsNext cs p then
      let c ← takeChar cs
      return .inl (taken ++ [c])
    else return .inr taken) []

/-! ## Blanks -/

/-- Passes over a comment. -/
def skipComment : Checked Cursor Unit := do
  if ← atTextEnd cs then return ()
  else
    let c ← peekChar cs
    if (c = '/' ∧ (← peekSecond cs) = some '/') ∨ c = '#' then
      let _ ← takeChars cs (· != '\n')

/-- Passes over blanks, a comment and blanks. -/
def skipBlanks : Checked Cursor Unit := do
  let _ ← takeChars cs isSpace
  skipComment cs
  let _ ← takeChars cs isSpace

/-! ## Lexemes -/

/-- The sign that a character makes whatever comes after it. -/
def singleSign? : Char → Option Token
  | ';' => some .newline
  | '(' => some .leftParen
  | ')' => some .rightParen
  | '[' => some .leftBracket
  | ']' => some .rightBracket
  | '{' => some .leftBrace
  | '}' => some .rightBrace
  | ',' => some .comma
  | ':' => some .colon
  | '@' => some .at
  | '+' => some .plus
  | '-' => some .minus
  | '*' => some .star
  | '/' => some .slash
  | _ => none

/-- The sign that a character makes by itself, and the one that it makes with an equals sign. -/
def pairSign? : Char → Option (Token × Token)
  | '=' => some (.assign, .equal)
  | '<' => some (.less, .lessEqual)
  | '>' => some (.greater, .greaterEqual)
  | _ => none

/-- Takes one character as a token. -/
def single (t : Token) : Checked Cursor Token := do
  let _ ← takeChar cs
  return t

/-- Takes one character, or two if an equals sign comes second. -/
def oneOrTwo (one two : Token) : Checked Cursor Token := do
  let _ ← takeChar cs
  if ← charIsNext cs (· == '=') then
    let _ ← takeChar cs
    return two
  else return one

/-- Takes one character of a string, or a backslash and the character after it. The string began
at `start`. -/
def stringRound (quote : Char) (start : Position) (content : List Char) :
    Checked Cursor (List Char ⊕ List Char) := do
  if ← charIsNext cs (· != quote) then
    let c ← takeChar cs
    if c = '\n' then fail (.malformed .unclosedString start)
    else if c = '\\' then
      if ← atTextEnd cs then return .inr content
      else
        let e ← takeChar cs
        return .inl (content ++ [unescaped e])
    else return .inl (content ++ [c])
  else return .inr content

/-- Takes a string from its opening quote. -/
def string (quote : Char) : Checked Cursor Token := do
  let start := (← get).position
  let _ ← takeChar cs
  let content ← iterate (textExtent cs) (stringRound cs quote start) []
  if ← atTextEnd cs then fail (.malformed .unclosedString start)
  else
    let _ ← takeChar cs
    return .string (String.ofList content)

/-- The number that a text with a point is, which it has to be. -/
def decimal (text : List Char) : Checked Cursor Token :=
  match Decimal.float? text with
  | some x => return .number x
  | none => trap .notANumber

/-- The integer that a text is if it is a word. -/
def word (text : List Char) (start : Position) : Checked Cursor Token :=
  match (Decimal.integer? text).filter fitsWord with
  | some n => return .integer n.toNat
  | none => fail (.malformed (.integerTooLarge (String.ofList text)) start)

/-- Takes a number. -/
def number (fraction : Bool) : Checked Cursor Token := do
  let start := (← get).position
  let whole ← takeChars cs Char.isDigit
  let point ← charIsNext cs (· == '.')
  if fraction && point && (← peekSecond cs).any Char.isDigit then
    let c ← takeChar cs
    let digits ← takeChars cs Char.isDigit
    decimal (whole ++ c :: digits)
  else if whole.head? = some '.' then decimal whole
  else word whole start

/-- Takes a name or a keyword. -/
def name : Checked Cursor Token := do
  return wordToken (← takeChars cs Text.continuesName)

/-- Takes the lexeme that comes next, after the token `previous` if there is one. -/
def lexeme (previous : Option Token) : Checked Cursor Token := do
  let start := (← get).position
  let c ← peekChar cs
  match singleSign? c, pairSign? c with
  | some t, _ => single cs t
  | none, some (one, two) => oneOrTwo cs one two
  | none, none =>
    if c = '!' ∧ (← peekSecond cs) = some '=' then oneOrTwo cs .notEqual .notEqual
    else if c = '"' ∨ c = '\'' then string cs c
    else if c = '.' then
      if (← peekSecond cs).any Char.isDigit && !endsValue previous then number cs true
      else single cs .dot
    else if c.isDigit then number cs (previous != some .dot)
    else if Text.startsName c then name cs
    else fail (.malformed (.unexpectedCharacter c) start)

/-- Takes a line end. -/
def lineEnd : Checked Cursor Token := do
  let _ ← takeChar cs
  modify fun k => ⟨k.index, k.position.nextLine⟩
  return .newline

/-- Takes one token, or the end of the text. -/
def lexRound (taken : List PlacedToken) :
    Checked Cursor (List PlacedToken ⊕ List PlacedToken) := do
  skipBlanks cs
  let here := (← get).position
  if ← atTextEnd cs then return .inr (taken ++ [⟨.endOfScript, here⟩])
  else if (← peekChar cs) = '\n' then
    return .inl (taken ++ [⟨← lineEnd cs, here⟩])
  else
    return .inl (taken ++ [⟨← lexeme cs (taken.getLast?.map PlacedToken.token), here⟩])

/-- All tokens of a text. -/
def lex : Checked Cursor (List PlacedToken) := iterate (textExtent cs) (lexRound cs) []

/-! ## What a cursor sees -/

/-- A cursor sees the rest of a text from a place in it. -/
def Sees (k : Cursor) (rest : List Char) : Prop := k.index ≤ cs.length ∧ cs.drop k.index = rest

variable {cs} {k : Cursor} {c : Char} {rest text : List Char}

theorem sees_start (cs : List Char) : Sees cs ⟨0, .start⟩ cs := ⟨Nat.zero_le _, rfl⟩

theorem Sees.length (h : Sees cs k rest) : k.index + rest.length = cs.length := by
  rw [← h.2, List.length_drop, Nat.add_sub_cancel' h.1]

theorem Sees.after (h : Sees cs k rest) {more : List Char} (hsplit : text ++ more = rest) :
    Sees cs (k.after text) more := by
  subst hsplit
  have hlength := h.length
  rw [List.length_append] at hlength
  refine ⟨by simp only [Cursor.after]; omega, ?_⟩
  rw [Cursor.after, ← List.drop_drop, h.2, List.drop_left]

theorem Sees.tail (h : Sees cs k (c :: rest)) : Sees cs (k.after [c]) rest := h.after rfl

theorem Sees.later (h : Sees cs k rest) {more : List Char} (hsplit : text ++ more = rest)
    (htext : text ≠ []) : (textExtent cs).Later k (k.after text) := by
  have hlength := h.length
  have hpos := List.length_pos_iff.2 htext
  rw [← hsplit, List.length_append] at hlength
  simp only [Extent.Later, textExtent, Cursor.after]
  omega

theorem Sees.later_tail (h : Sees cs k (c :: rest)) : (textExtent cs).Later k (k.after [c]) :=
  h.later (rfl : [c] ++ rest = c :: rest) (List.cons_ne_nil _ _)

@[simp] theorem after_nil (k : Cursor) : k.after [] = k := rfl

theorem after_append (k : Cursor) (text more : List Char) :
    k.after (text ++ more) = (k.after text).after more := by
  simp only [Cursor.after, List.length_append, Position.after_append, Nat.add_assoc]

/-! ## Steps of the lexer -/

theorem run_atTextEnd (h : Sees cs k rest) :
    (atTextEnd cs).run k = .ok (rest.isEmpty, k) := by
  have hend : decide (cs.length ≤ k.index) = rest.isEmpty := by
    have hlength := h.length
    cases rest with
    | nil => simpa using hlength.ge
    | cons c rest =>
      rw [List.length_cons] at hlength
      simp
      omega
  rw [← hend]
  rfl

theorem run_peekChar (h : Sees cs k (c :: rest)) : (peekChar cs).run k = .ok (c, k) := by
  have hchar : cs[k.index]? = some c := by
    rw [← List.head?_drop, h.2, List.head?_cons]
  rw [peekChar, run_bind_ok (a := k) rfl, hchar]
  rfl

theorem run_peekSecond (h : Sees cs k rest) :
    (peekSecond cs).run k = .ok (rest.tail.head?, k) := by
  have hchar : cs[k.index + 1]? = rest.tail.head? := by
    rw [← List.head?_drop, ← List.drop_drop, h.2, List.drop_one]
  rw [← hchar]
  rfl

theorem run_takeChar (h : Sees cs k (c :: rest)) :
    (takeChar cs).run k = .ok (c, k.after [c]) := by
  rw [takeChar, run_bind_ok (run_peekChar h)]
  rfl

theorem run_charIsNext (p : Char → Bool) (h : Sees cs k rest) :
    (charIsNext cs p).run k = .ok (rest.head?.any p, k) := by
  rw [charIsNext, run_bind_ok (run_atTextEnd h)]
  cases rest with
  | nil => rfl
  | cons c rest =>
    change (peekChar cs >>= _).run k = _
    rw [run_bind_ok (run_peekChar h)]
    rfl

theorem run_takeChars (p : Char → Bool) (h : Sees cs k rest) :
    (takeChars cs p).run k = .ok (rest.takeWhile p, k.after (rest.takeWhile p)) := by
  -- what has been taken stands before what comes
  have hloop (taken : List Char) :
      (iterate (textExtent cs) (fun taken => do
        if ← charIsNext cs p then
          let c ← takeChar cs
          return .inl (taken ++ [c])
        else return .inr taken) taken).run k =
        .ok (taken ++ rest.takeWhile p, k.after (rest.takeWhile p)) := by
    induction rest generalizing k taken with
    | nil =>
      rw [List.takeWhile_nil, List.append_nil, after_nil]
      refine iterate_done ?_
      rw [run_bind_ok (run_charIsNext p h)]
      rfl
    | cons c rest ih =>
      by_cases hc : p c = true
      · rw [iterate_next (taken ++ [c]) (t := k.after [c]) ?_ h.later_tail, ih h.tail]
        · rw [List.takeWhile_cons_of_pos hc, List.append_assoc, List.singleton_append,
            ← after_append, List.singleton_append]
        · rw [run_bind_ok (run_charIsNext p h), List.head?_cons, Option.any_some, hc, if_pos rfl,
            run_bind_ok (run_takeChar h)]
          rfl
      · rw [List.takeWhile_cons_of_neg hc, List.append_nil, after_nil]
        refine iterate_done ?_
        rw [run_bind_ok (run_charIsNext p h), List.head?_cons, Option.any_some, if_neg hc]
        rfl
  exact hloop []

theorem Sees.after_takeWhile (h : Sees cs k rest) (p : Char → Bool) :
    Sees cs (k.after (rest.takeWhile p)) (rest.dropWhile p) :=
  h.after List.takeWhile_append_dropWhile

/-! ## Blanks and comments -/

theorem run_skipComment (h : Sees cs k rest) :
    (skipComment cs).run k = .ok ((), k.after (Lexeme.splitComment rest).1) := by
  rw [skipComment, run_bind_ok (run_atTextEnd h)]
  cases rest with
  | nil => rfl
  | cons c rest =>
    change (peekChar cs >>= _).run k = _
    rw [run_bind_ok (run_peekChar h), run_bind_ok (run_peekSecond h)]
    by_cases hcomment : (c = '/' ∧ (c :: rest).tail.head? = some '/') ∨ c = '#'
    · rw [if_pos hcomment, run_bind_ok (run_takeChars _ h)]
      have hsplit : (Lexeme.splitComment (c :: rest)).1 = (c :: rest).takeWhile (· != '\n') := by
        unfold Lexeme.splitComment
        split
        · rfl
        · rfl
        · next hhash hslash =>
          rcases hcomment with ⟨rfl, hnext⟩ | rfl
          · obtain ⟨more, rfl⟩ := List.head?_eq_some_iff.1 hnext
            exact absurd rfl (hslash more)
          · exact absurd rfl (hhash rest)
      rw [hsplit]
      rfl
    · rw [if_neg hcomment]
      have hsplit : (Lexeme.splitComment (c :: rest)).1 = [] := by
        unfold Lexeme.splitComment
        split
        · next heq => exact absurd (Or.inr (List.cons.inj heq).1) hcomment
        · next heq =>
          cases heq
          exact absurd (Or.inl ⟨rfl, rfl⟩) hcomment
        · rfl
      rw [hsplit]
      rfl

theorem run_skipBlanks (h : Sees cs k rest) :
    (skipBlanks cs).run k = .ok ((), k.after (Lexeme.splitBlanks rest).1) := by
  have hbefore := h.after_takeWhile isSpace
  have hcomment := hbefore.after (Lexeme.splitComment_append _)
  rw [skipBlanks, run_bind_ok (run_takeChars _ h), run_bind_ok (run_skipComment hbefore),
    run_bind_ok (run_takeChars _ hcomment), Lexeme.splitBlanks, after_append, after_append]
  rfl

theorem Sees.after_blanks (h : Sees cs k rest) :
    Sees cs (k.after (Lexeme.splitBlanks rest).1) (Lexeme.splitBlanks rest).2 :=
  h.after (Lexeme.splitBlanks_append rest)

/-! ## Lexemes -/

/-- What is taken of a text when a lexeme is read of it. -/
def outcome (k : Cursor) {text : List Char} :
    Except SyntaxFault (Lexeme text) → Except Stop (Token × Cursor)
  | .ok l => .ok (l.token, k.after l.text)
  | .error cause => .error (.fault (.malformed cause k.position))

theorem run_single (t : Token) (h : Sees cs k (c :: rest)) :
    (single cs t).run k = .ok (t, k.after [c]) := by
  rw [single, run_bind_ok (run_takeChar h)]
  rfl

theorem run_oneOrTwo (one two : Token) (h : Sees cs k (c :: rest)) :
    (oneOrTwo cs one two).run k =
      if rest.head? = some '=' then .ok (two, k.after [c, '=']) else .ok (one, k.after [c]) := by
  rw [oneOrTwo, run_bind_ok (run_takeChar h), run_bind_ok (run_charIsNext _ h.tail)]
  cases rest with
  | nil => rfl
  | cons d rest =>
    by_cases hd : d = '='
    · subst hd
      change (takeChar cs >>= _).run _ = _
      rw [run_bind_ok (run_takeChar h.tail), ← after_append]
      rfl
    · have hne : (d == '=') = false := beq_eq_false_iff_ne.2 hd
      rw [List.head?_cons, Option.any_some, hne, if_neg fun h => hd (Option.some.inj h)]
      rfl

theorem run_name (h : Sees cs k (c :: rest)) (hc : Text.startsName c = true) :
    (name cs).run k = outcome k (.ok (Lexeme.word c rest hc)) := by
  rw [name, run_bind_ok (run_takeChars _ h)]
  rfl

/-! ## Numbers -/

section Numbers

variable {whole digits : List Char}

theorem splitSign_of_head {text : List Char} (h : ∀ d ∈ text.head?, d ≠ '-' ∧ d ≠ '+') :
    Decimal.splitSign text = (false, text) := by
  unfold Decimal.splitSign
  split
  · exact absurd rfl (h _ rfl).1
  · exact absurd rfl (h _ rfl).2
  · rfl

theorem ne_sign_of_isDigit {d : Char} (h : d.isDigit = true) : d ≠ '-' ∧ d ≠ '+' := by
  constructor <;> rintro rfl <;> cases h

/-- Digits with a point in front of the last of them are a number. -/
theorem run_decimal (hwhole : ∀ d ∈ whole, d.isDigit = true)
    (hdigits : ∀ d ∈ digits, d.isDigit = true) (hne : digits ≠ []) :
    (decimal (whole ++ '.' :: digits)).run k =
      .ok (.number (Decimal.nearest (Decimal.natOfDigits (whole ++ digits)) (-digits.length)),
        k) := by
  have hsign : Decimal.splitSign (whole ++ '.' :: digits) = (false, whole ++ '.' :: digits) := by
    refine splitSign_of_head fun d hd => ?_
    cases whole with
    | nil =>
      cases hd
      exact ⟨by decide, by decide⟩
    | cons c rest =>
      cases hd
      exact ne_sign_of_isDigit (hwhole d List.mem_cons_self)
  have hpoint : ∀ d ∈ ('.' :: digits).head?, d.isDigit = false := fun d hd => by cases hd; rfl
  have hend : ∀ d ∈ ([] : List Char).head?, d.isDigit = false := nofun
  obtain ⟨htake, hdrop⟩ := Lexeme.takeWhile_append_of hwhole hpoint
  obtain ⟨htake', hdrop'⟩ := Lexeme.takeWhile_append_of hdigits hend
  rw [List.append_nil] at htake' hdrop'
  have hfloat : Decimal.float? (whole ++ '.' :: digits) = some
      (Decimal.nearest (Decimal.natOfDigits (whole ++ digits)) (-digits.length)) := by
    simp only [Decimal.float?, hsign, Decimal.magnitude?, Decimal.splitFraction, htake, hdrop,
      htake', hdrop', Decimal.exponent?]
    cases digits with
    | nil => exact absurd rfl hne
    | cons d more => simp
  rw [decimal, hfloat]
  rfl

/-- Digits are an integer if they are a word. -/
theorem run_word (hwhole : ∀ d ∈ whole, d.isDigit = true) (hne : whole ≠ []) (start : Position) :
    (word whole start).run k = match Lexeme.numberToken whole [] with
      | .ok t => .ok (t, k)
      | .error cause => .error (.fault (.malformed cause start)) := by
  have hsign : Decimal.splitSign whole = (false, whole) :=
    splitSign_of_head fun d hd => ne_sign_of_isDigit (hwhole d (List.mem_of_mem_head? hd))
  have hinteger : Decimal.integer? whole = some (Decimal.natOfDigits whole : Int) := by
    have hall : whole.all Char.isDigit = true := List.all_eq_true.2 hwhole
    simp [Decimal.integer?, hsign, Decimal.natural?, hall, hne]
  rw [word, hinteger, Option.filter_some, Lexeme.numberToken]
  cases fitsWord (Decimal.natOfDigits whole) <;> rfl

/-- A fraction is a point with a digit after it, and there is none without them. -/
theorem splitFraction_cases (tail : List Char) :
    ((tail.head?.any (· == '.') && tail.tail.head?.any Char.isDigit) = true ∧
      ∃ more, tail = '.' :: more ∧ more.takeWhile Char.isDigit ≠ [] ∧
        (Lexeme.splitFraction tail).1 = '.' :: more.takeWhile Char.isDigit) ∨
    ((tail.head?.any (· == '.') && tail.tail.head?.any Char.isDigit) = false ∧
      (Lexeme.splitFraction tail).1 = []) := by
  unfold Lexeme.splitFraction
  split
  · next d more =>
    cases hd : d.isDigit with
    | true => exact Or.inl ⟨by simp [hd], d :: more, rfl, by simp [hd], rfl⟩
    | false => exact Or.inr ⟨by simp [hd], rfl⟩
  · next hpoint =>
    refine Or.inr ⟨?_, rfl⟩
    cases tail with
    | nil => rfl
    | cons c rest =>
      cases rest with
      | nil => simp
      | cons d more =>
        have hc : c ≠ '.' := fun h => hpoint d more (h ▸ rfl)
        simp [hc]

theorem takeWhile_isDigit_ne_nil (h : Lexeme.startsWithDigit rest = true) :
    rest.takeWhile Char.isDigit ≠ [] := by
  cases rest with
  | nil => cases h
  | cons c rest =>
    have hc : c.isDigit = true := h
    rw [List.takeWhile_cons_of_pos hc]
    exact List.cons_ne_nil _ _

/-- What is taken of a number: its digits, and a fraction where there may be one. -/
theorem run_number (fraction : Bool) (h : Sees cs k rest)
    (hstart : Lexeme.startsWithDigit rest = true ∨
      fraction = true ∧ Lexeme.startsNumber rest = true) :
    (number cs fraction).run k =
      match Lexeme.numberToken (rest.takeWhile Char.isDigit)
        (if fraction then (Lexeme.splitFraction (rest.dropWhile Char.isDigit)).1 else []) with
      | .ok t => .ok (t, k.after (rest.takeWhile Char.isDigit ++
          if fraction then (Lexeme.splitFraction (rest.dropWhile Char.isDigit)).1 else []))
      | .error cause => .error (.fault (.malformed cause k.position)) := by
  have htail := h.after_takeWhile Char.isDigit
  have hwhole : ∀ d ∈ rest.takeWhile Char.isDigit, d.isDigit = true :=
    fun d hd => List.mem_takeWhile_imp hd
  -- without a fraction the digits are an integer, and they do not begin with a point
  have hinteger (hne : rest.takeWhile Char.isDigit ≠ []) :
      (if (rest.takeWhile Char.isDigit).head? = some '.' then decimal (rest.takeWhile Char.isDigit)
        else word (rest.takeWhile Char.isDigit) k.position).run
          (k.after (rest.takeWhile Char.isDigit)) =
        match Lexeme.numberToken (rest.takeWhile Char.isDigit) [] with
        | .ok t => .ok (t, k.after (rest.takeWhile Char.isDigit ++ []))
        | .error cause => .error (.fault (.malformed cause k.position)) := by
    have hhead : (rest.takeWhile Char.isDigit).head? ≠ some '.' := fun hhead =>
      absurd (hwhole _ (List.mem_of_mem_head? hhead)) (by decide)
    rw [if_neg hhead, run_word hwhole hne, List.append_nil]
  rw [number, run_bind_ok (a := k) (t := k) rfl, run_bind_ok (run_takeChars _ h),
    run_bind_ok (run_charIsNext _ htail), run_bind_ok (run_peekSecond htail), Bool.and_assoc]
  obtain ⟨hpoint, more, hmore, hdigits, hsplit⟩ | ⟨hpoint, hsplit⟩ :=
    splitFraction_cases (rest.dropWhile Char.isDigit)
  · rw [hpoint]
    cases fraction with
    | false =>
      simp only [Bool.false_and, Bool.false_eq_true, if_false]
      exact hinteger (takeWhile_isDigit_ne_nil (hstart.resolve_right nofun))
    | true =>
      rw [hmore] at htail
      rw [hsplit, if_pos rfl, Bool.and_true, if_pos rfl, run_bind_ok (run_takeChar htail),
        run_bind_ok (run_takeChars _ htail.tail),
        run_decimal hwhole (fun d hd => List.mem_takeWhile_imp hd) hdigits, ← after_append,
        ← after_append]
      rfl
  · rw [hpoint, Bool.and_false, hsplit, ite_self]
    refine hinteger ?_
    rcases hstart with hstart | ⟨-, hstart⟩
    · exact takeWhile_isDigit_ne_nil hstart
    · -- a point with a digit after it would be a fraction
      unfold Lexeme.startsNumber at hstart
      split at hstart
      · next more =>
        cases more with
        | nil => cases hstart
        | cons d more =>
          have hd : d.isDigit = true := hstart
          simp [hd] at hpoint
      · exact takeWhile_isDigit_ne_nil hstart

/-- The digits that a lexeme begins with are read without a fraction after a point, and else with
one. -/
theorem run_number_lexeme (previous : Option Token) (h : Sees cs k (c :: rest))
    (hc : c.isDigit = true) :
    (number cs (previous != some .dot)).run k = outcome k (Lexeme.read previous c rest) := by
  rw [run_number _ h (Or.inl hc), Lexeme.read, if_neg (visible_of_isDigit hc).1.quote,
    dif_pos (Lexeme.startsNumber_of_isDigit hc)]
  by_cases hprevious : previous = some .dot
  · rw [dif_pos ⟨hc, hprevious⟩, Lexeme.integer, bne_eq_false_iff_eq.2 hprevious]
    simp only [Bool.false_eq_true, if_false, List.append_nil]
    cases Lexeme.numberToken ((c :: rest).takeWhile Char.isDigit) [] <;> rfl
  · rw [dif_neg fun h => hprevious h.2, Lexeme.number, bne_iff_ne.2 hprevious]
    simp only [if_true]
    cases Lexeme.numberToken ((c :: rest).takeWhile Char.isDigit)
      (Lexeme.splitFraction ((c :: rest).dropWhile Char.isDigit)).1 <;> rfl

/-- A fraction that begins a lexeme. -/
theorem run_number_point {previous : Option Token} (h : Sees cs k ('.' :: rest))
    (hrest : Lexeme.startsWithDigit rest = true) (hprevious : endsValue previous = false) :
    (number cs true).run k = outcome k (Lexeme.read previous '.' rest) := by
  have hnumber : Lexeme.startsNumber ('.' :: rest) = true := hrest
  have hread : Lexeme.read previous '.' rest = Lexeme.number ('.' :: rest) hnumber := by
    rw [Lexeme.read, if_neg (by decide), dif_pos ⟨hnumber, fun _ => hprevious⟩,
      dif_neg (by rintro ⟨⟨⟩, -⟩)]
  rw [run_number _ h (Or.inr ⟨rfl, hnumber⟩), hread, Lexeme.number]
  simp only [if_true]
  cases Lexeme.numberToken (('.' :: rest).takeWhile Char.isDigit)
    (Lexeme.splitFraction (('.' :: rest).dropWhile Char.isDigit)).1 <;> rfl

end Numbers

/-! ## Strings -/

/-- Where the rounds of a string end: at its closing quote if it has one, after what it says and
its text. If not, they end at the end of the text or with the fault that the string is unclosed. -/
def EndsString (cs : List Char) (quote : Char) (start : Position) (content : List Char) (k : Cursor)
    {rest : List Char} : Option (Lexeme.StringTail rest) → Prop
  | some tail => ∃ l, (iterate (textExtent cs) (stringRound cs quote start) content).run k =
      .ok (content ++ tail.content, l) ∧ Sees cs l (quote :: tail.rest) ∧
      l.after [quote] = k.after tail.text
  | none => (iterate (textExtent cs) (stringRound cs quote start) content).run k =
      .error (.fault (.malformed .unclosedString start)) ∨
    ∃ more l, (iterate (textExtent cs) (stringRound cs quote start) content).run k =
      .ok (more, l) ∧ Sees cs l []

/-- A round that takes `text` and adds what it says leaves the rest of the string to the others. -/
theorem EndsString.round (text : List Char) {quote : Char} {start : Position}
    {content : List Char} {d : Char}
    {more : List Char} {o : Option (Lexeme.StringTail more)} (h : Sees cs k (text ++ more))
    (htext : text ≠ [])
    (hround : (stringRound cs quote start content).run k =
      .ok (.inl (content ++ [d]), k.after text))
    (hmore : EndsString cs quote start (content ++ [d]) (k.after text) o) :
    EndsString cs quote start content k (o.map fun tail =>
      (⟨d :: tail.content, text ++ tail.text, tail.rest, by rw [List.append_assoc, tail.split]⟩ :
        Lexeme.StringTail (text ++ more))) := by
  have hnext := iterate_next _ hround (h.later rfl htext)
  cases o with
  | none =>
    simp only [Option.map_none, EndsString, hnext]
    exact hmore
  | some tail =>
    obtain ⟨l, hrun, hl, hafter⟩ := hmore
    refine ⟨l, ?_, hl, hafter.trans (after_append ..).symm⟩
    rw [hnext, hrun, List.append_assoc, List.singleton_append]

theorem run_stringRounds {quote : Char} (start : Position) (content : List Char)
    (h : Sees cs k rest) :
    EndsString cs quote start content k (Lexeme.stringTail? quote rest) := by
  -- a round takes one character or two
  induction hn : rest.length using Nat.strongRecOn generalizing k rest content with
  | ind n ih =>
    subst hn
    cases rest with
    | nil =>
      refine Or.inr ⟨content, k, iterate_done ?_, h⟩
      rw [stringRound, run_bind_ok (run_charIsNext _ h)]
      rfl
    | cons c rest =>
      have hnext := run_charIsNext (· != quote) h
      rw [List.head?_cons, Option.any_some] at hnext
      rw [Lexeme.stringTail?.eq_def]
      by_cases hquote : c = quote
      · subst hquote
        simp only [if_true]
        refine ⟨k, ?_, h, rfl⟩
        rw [List.append_nil]
        refine iterate_done ?_
        rw [stringRound, run_bind_ok hnext, bne_self_eq_false]
        rfl
      · rw [bne_iff_ne.2 hquote] at hnext
        simp only [hquote, if_false]
        by_cases hline : c = '\n'
        · subst hline
          refine Or.inl (iterate_error ?_)
          rw [stringRound, run_bind_ok hnext, if_pos rfl, run_bind_ok (run_takeChar h)]
          rfl
        · simp only [hline, if_false]
          by_cases hescape : c = '\\'
          · subst hescape
            simp only [if_true]
            cases rest with
            | nil =>
              refine Or.inr ⟨content, k.after ['\\'], iterate_done ?_, h.tail⟩
              rw [stringRound, run_bind_ok hnext, if_pos rfl, run_bind_ok (run_takeChar h),
                if_neg (by decide), if_pos rfl, run_bind_ok (run_atTextEnd h.tail)]
              rfl
            | cons e more =>
              have hmore := ih more.length (by simp) (content ++ [unescaped e]) h.tail.tail rfl
              rw [← after_append] at hmore
              refine EndsString.round ['\\', e] h (List.cons_ne_nil _ _) ?_ hmore
              rw [stringRound, run_bind_ok hnext, if_pos rfl, run_bind_ok (run_takeChar h),
                if_neg (by decide), if_pos rfl, run_bind_ok (run_atTextEnd h.tail)]
              change (takeChar cs >>= _).run _ = _
              rw [run_bind_ok (run_takeChar h.tail), ← after_append]
              rfl
          · simp only [hescape, if_false]
            refine EndsString.round [c] h (List.cons_ne_nil _ _) ?_
              (ih rest.length (by simp) (content ++ [c]) h.tail rfl)
            rw [stringRound, run_bind_ok hnext, if_pos rfl, run_bind_ok (run_takeChar h),
              if_neg hline, if_neg hescape]
            rfl

theorem run_string {quote : Char} (h : Sees cs k (quote :: rest)) :
    (string cs quote).run k = outcome k (Lexeme.string quote rest) := by
  have hrounds : EndsString cs quote k.position [] _ (Lexeme.stringTail? quote rest) :=
    run_stringRounds k.position [] h.tail
  rw [string, run_bind_ok (a := k) (t := k) rfl, run_bind_ok (run_takeChar h), Lexeme.string]
  cases htail : Lexeme.stringTail? quote rest with
  | some tail =>
    rw [htail] at hrounds
    obtain ⟨l, hrun, hl, hafter⟩ := hrounds
    rw [run_bind_ok hrun, run_bind_ok (run_atTextEnd hl)]
    change (takeChar cs >>= _).run _ = _
    rw [run_bind_ok (run_takeChar hl), hafter, ← after_append]
    rfl
  | none =>
    rw [htail] at hrounds
    obtain hrun | ⟨more, l, hrun, hl⟩ := hrounds
    · exact run_bind_error hrun
    · rw [run_bind_ok hrun, run_bind_ok (run_atTextEnd hl)]
      rfl

/-! ## Any lexeme -/

section Signs

variable {previous : Option Token} {t : Token}

theorem charToken?_of_singleSign? (h : singleSign? c = some t) :
    Lexeme.charToken? c = some t ∧ c ≠ '.' ∧ ∀ d, Lexeme.pairToken? c d = none := by
  unfold singleSign? at h
  split at h <;> cases h <;> exact ⟨rfl, by decide, fun d => rfl⟩

theorem read_singleSign (h : singleSign? c = some t) :
    Lexeme.read previous c rest = .ok ⟨t, [c], rest, rfl, List.cons_ne_nil _ _⟩ := by
  obtain ⟨hchar, hpoint, hpair⟩ := charToken?_of_singleSign? h
  obtain ⟨hvisible, hstart, hdigit⟩ := visible_of_charToken? hchar
  refine Lexeme.read_of_sign? hvisible hstart hdigit (fun hc => absurd hc hpoint) ?_
  cases rest with
  | nil => rw [Lexeme.sign?, hchar]; rfl
  | cons d more => rw [Lexeme.sign?, hpair, hchar]; rfl

theorem charToken?_of_pairSign? {one two : Token} (h : pairSign? c = some (one, two)) :
    Lexeme.charToken? c = some one ∧ c ≠ '.' ∧
      ∀ d, Lexeme.pairToken? c d = if d = '=' then some two else none := by
  unfold pairSign? at h
  split at h <;> cases h <;> refine ⟨rfl, by decide, fun d => ?_⟩ <;>
    by_cases hd : d = '=' <;> simp [Lexeme.pairToken?, hd]

/-- A sign that is another one with an equals sign after it. -/
theorem outcome_pairSign {one two : Token} (h : pairSign? c = some (one, two)) :
    outcome k (Lexeme.read previous c rest) =
      if rest.head? = some '=' then .ok (two, k.after [c, '=']) else .ok (one, k.after [c]) := by
  obtain ⟨hone, hpoint, hpair⟩ := charToken?_of_pairSign? h
  obtain ⟨hvisible, hstart, hdigit⟩ := visible_of_charToken? hone
  have hread {l : Lexeme (c :: rest)} (hl : Lexeme.sign? c rest = some l) :
      Lexeme.read previous c rest = .ok l :=
    Lexeme.read_of_sign? hvisible hstart hdigit (fun hc => absurd hc hpoint) hl
  cases rest with
  | nil =>
    rw [hread (l := ⟨one, [c], [], rfl, List.cons_ne_nil _ _⟩) (by rw [Lexeme.sign?, hone]; rfl)]
    rfl
  | cons d more =>
    by_cases hd : d = '='
    · subst hd
      rw [hread (l := ⟨two, [c, '='], more, rfl, List.cons_ne_nil _ _⟩)
        (by rw [Lexeme.sign?, hpair, if_pos rfl])]
      rfl
    · rw [hread (l := ⟨one, [c], d :: more, rfl, List.cons_ne_nil _ _⟩)
        (by rw [Lexeme.sign?, hpair, if_neg hd, hone]; rfl), List.head?_cons,
        if_neg fun h => hd (Option.some.inj h)]
      rfl

theorem read_notEqual (more : List Char) :
    Lexeme.read previous '!' ('=' :: more) =
      .ok ⟨.notEqual, ['!', '='], more, rfl, List.cons_ne_nil _ _⟩ := by
  have hpair : Lexeme.pairToken? '!' '=' = some .notEqual := rfl
  obtain ⟨hvisible, hstart, hdigit, -⟩ := visible_of_pairToken? hpair
  exact Lexeme.read_of_sign? hvisible hstart hdigit nofun (by rw [Lexeme.sign?, hpair])

theorem read_point (h : Lexeme.startsWithDigit rest = true → endsValue previous = true) :
    Lexeme.read previous '.' rest = .ok ⟨.dot, ['.'], rest, rfl, List.cons_ne_nil _ _⟩ := by
  obtain ⟨hvisible, hstart, hdigit⟩ := visible_of_charToken? (c := '.') rfl
  refine Lexeme.read_of_sign? hvisible hstart hdigit (fun _ => h) ?_
  cases rest with
  | nil => rfl
  | cons d more => rfl

/-- A character that begins nothing is not expected. -/
theorem read_unexpected (hsingle : singleSign? c = none) (hpair : pairSign? c = none)
    (hnot : ¬ (c = '!' ∧ rest.head? = some '=')) (hquote : ¬ (c = '"' ∨ c = '\''))
    (hpoint : c ≠ '.') (hdigit : c.isDigit = false) (hstart : Text.startsName c = false) :
    Lexeme.read previous c rest = .error (.unexpectedCharacter c) := by
  have hnumber : Lexeme.startsNumber (c :: rest) = false := by
    unfold Lexeme.startsNumber
    split
    · next heq => exact absurd (List.cons.inj heq).1 hpoint
    · exact hdigit
  have hequal : c ≠ '=' ∧ c ≠ '<' ∧ c ≠ '>' := by
    refine ⟨?_, ?_, ?_⟩ <;> rintro rfl <;> cases hpair
  have hchar : Lexeme.charToken? c = none := by
    unfold Lexeme.charToken?
    split
    all_goals first
      | exact absurd rfl hpoint
      | exact absurd rfl hequal.1
      | exact absurd rfl hequal.2.1
      | exact absurd rfl hequal.2.2
      | exact absurd hsingle (by decide)
      | rfl
  have hsign : Lexeme.sign? c rest = none := by
    cases rest with
    | nil => rw [Lexeme.sign?, hchar]; rfl
    | cons d more =>
      have hpair : Lexeme.pairToken? c d = none := by
        unfold Lexeme.pairToken?
        split
        · exact absurd rfl hequal.1
        · exact absurd ⟨rfl, rfl⟩ hnot
        · exact absurd rfl hequal.2.1
        · exact absurd rfl hequal.2.2
        · rfl
      rw [Lexeme.sign?, hpair, hchar]
      rfl
  rw [Lexeme.read, if_neg hquote, dif_neg fun h => Bool.false_ne_true (hnumber.symm.trans h.1),
    dif_neg fun h => Bool.false_ne_true (hstart.symm.trans h), hsign]

end Signs

/-- The lexeme that comes next is the one that is read. -/
theorem run_lexeme (previous : Option Token) (h : Sees cs k (c :: rest)) :
    (lexeme cs previous).run k = outcome k (Lexeme.read previous c rest) := by
  have hsecond := run_peekSecond h
  rw [List.tail_cons] at hsecond
  rw [lexeme, run_bind_ok (a := k) (t := k) rfl, run_bind_ok (run_peekChar h)]
  cases hsingle : singleSign? c with
  | some t =>
    rw [read_singleSign hsingle]
    exact run_single t h
  | none =>
    cases hpair : pairSign? c with
    | some signs =>
      rw [outcome_pairSign hpair]
      exact run_oneOrTwo _ _ h
    | none =>
      simp only []
      rw [run_bind_ok hsecond]
      by_cases hnot : c = '!' ∧ rest.head? = some '='
      · obtain ⟨rfl, hnext⟩ := hnot
        obtain ⟨more, rfl⟩ := List.head?_eq_some_iff.1 hnext
        rw [if_pos ⟨rfl, rfl⟩, run_oneOrTwo _ _ h, read_notEqual]
        rfl
      · rw [if_neg hnot]
        by_cases hquote : c = '"' ∨ c = '\''
        · rw [if_pos hquote, Lexeme.read, if_pos hquote]
          exact run_string h
        · rw [if_neg hquote]
          by_cases hpoint : c = '.'
          · subst hpoint
            rw [if_pos rfl, run_bind_ok hsecond]
            have hhead : rest.head?.any Char.isDigit = Lexeme.startsWithDigit rest := by
              cases rest <;> rfl
            rw [hhead]
            cases hdigit : Lexeme.startsWithDigit rest with
            | false =>
              rw [read_point fun h => absurd (hdigit.symm.trans h) Bool.false_ne_true]
              exact run_single _ h
            | true =>
              cases hvalue : endsValue previous with
              | true =>
                rw [read_point fun _ => hvalue]
                exact run_single _ h
              | false => exact run_number_point h hdigit hvalue
          · rw [if_neg hpoint]
            cases hdigit : c.isDigit with
            | true => exact run_number_lexeme previous h hdigit
            | false =>
              cases hstart : Text.startsName c with
              | true =>
                rw [Lexeme.read_word hstart]
                exact run_name h hstart
              | false =>
                rw [read_unexpected hsingle hpair hnot hquote hpoint hdigit hstart]
                rfl

/-! ## All tokens -/

theorem run_lineEnd (h : Sees cs k ('\n' :: rest)) :
    (lineEnd cs).run k = .ok (.newline, ⟨k.index + 1, k.position.nextLine⟩) := by
  rw [lineEnd, run_bind_ok (run_takeChar h)]
  rfl

section Lex

variable {taken : List PlacedToken}

/-- The tokens that the rounds of a lexer end with, after those that were taken. -/
def Lexes (cs : List Char) (taken : List PlacedToken) (k : Cursor)
    (r : Except Fault (List PlacedToken)) : Prop :=
  ((iterate (textExtent cs) (lexRound cs) taken).run k).map Prod.fst =
    (r.map (taken ++ ·)).mapError .fault

theorem Lexes.round {t : PlacedToken} {l : Cursor} {r : Except Fault (List PlacedToken)}
    (hround : (lexRound cs taken).run k = .ok (.inl (taken ++ [t]), l))
    (hlater : (textExtent cs).Later k l) (h : Lexes cs (taken ++ [t]) l r) :
    Lexes cs taken k (r.map (t :: ·)) := by
  rw [Lexes, iterate_next _ hround hlater, h]
  cases r with
  | error fault => rfl
  | ok others => simp [Except.map, Except.mapError]

theorem run_lexRounds (taken : List PlacedToken) (h : Sees cs k rest) :
    Lexes cs taken k (tokensFrom (taken.getLast?.map PlacedToken.token) k.position rest) := by
  -- every round takes at least one character
  induction hn : rest.length using Nat.strongRecOn generalizing k rest taken with
  | ind n ih =>
    subst hn
    have hblanks := h.after_blanks
    have hlength := Lexeme.splitBlanks_length_le rest
    generalize hhere : k.after (Lexeme.splitBlanks rest).1 = here at hblanks
    have hposition : k.position.after (Lexeme.splitBlanks rest).1 = here.position :=
      congrArg Cursor.position hhere
    have hindex : k.index ≤ here.index := hhere ▸ Nat.le_add_right _ _
    have hstart : (skipBlanks cs).run k = .ok ((), here) := hhere ▸ run_skipBlanks h
    cases hsplit : (Lexeme.splitBlanks rest).2 with
    | nil =>
      rw [hsplit] at hblanks
      rw [tokensFrom_nil hsplit, hposition, Lexes,
        iterate_done (b := taken ++ [⟨.endOfScript, here.position⟩]) (t := here)]
      · rfl
      · rw [lexRound, run_bind_ok hstart, run_bind_ok (a := here) (t := here) rfl,
          run_bind_ok (run_atTextEnd hblanks)]
        rfl
    | cons c more =>
      rw [hsplit] at hblanks hlength
      rw [List.length_cons] at hlength
      have hprevious (t : PlacedToken) :
          (taken ++ [t]).getLast?.map PlacedToken.token = some t.token := by simp
      have hchar := run_peekChar hblanks
      by_cases hc : c = '\n'
      · subst hc
        rw [tokensFrom_newline hsplit, hposition]
        have hmore := ih more.length hlength (taken ++ [⟨.newline, here.position⟩])
          (k := ⟨here.index + 1, here.position.nextLine⟩) hblanks.tail rfl
        rw [hprevious] at hmore
        have hlater : (textExtent cs).Later k ⟨here.index + 1, here.position.nextLine⟩ :=
          ⟨Nat.lt_succ_of_le hindex, hblanks.tail.1⟩
        refine Lexes.round ?_ hlater hmore
        rw [lexRound, run_bind_ok hstart, run_bind_ok (a := here) (t := here) rfl,
          run_bind_ok (run_atTextEnd hblanks)]
        change (peekChar cs >>= _).run here = _
        rw [run_bind_ok hchar, if_pos rfl, run_bind_ok (run_lineEnd hblanks)]
        rfl
      · rw [tokensFrom_char hsplit hc, hposition]
        have hlexeme := run_lexeme (taken.getLast?.map PlacedToken.token) hblanks
        have hround : (lexRound cs taken).run k =
            (lexeme cs (taken.getLast?.map PlacedToken.token) >>= fun t =>
              pure (.inl (taken ++ [⟨t, here.position⟩]))).run here := by
          rw [lexRound, run_bind_ok hstart, run_bind_ok (a := here) (t := here) rfl,
            run_bind_ok (run_atTextEnd hblanks)]
          change (peekChar cs >>= _).run here = _
          rw [run_bind_ok hchar, if_neg hc]
        cases hread : Lexeme.read (taken.getLast?.map PlacedToken.token) c more with
        | error cause =>
          rw [hread] at hlexeme
          rw [run_bind_error hlexeme] at hround
          rw [Lexes, iterate_error hround]
          rfl
        | ok l =>
          rw [hread] at hlexeme
          rw [run_bind_ok hlexeme] at hround
          have hrest := l.rest_length_lt
          rw [List.length_cons] at hrest
          have hafter := hblanks.after l.split
          have hmore := ih l.rest.length (by omega) (taken ++ [⟨l.token, here.position⟩])
            hafter rfl
          rw [hprevious] at hmore
          have hlater : (textExtent cs).Later k (here.after l.text) :=
            ⟨Nat.lt_of_le_of_lt hindex (hblanks.later l.split l.nonempty).1, hafter.1⟩
          exact Lexes.round hround hlater hmore

/-- The checked lexer finds the tokens of a script, or the fault of it. -/
theorem run_lex (script : String) :
    ((lex script.toList).run ⟨0, .start⟩).map Prod.fst = (tokens script).mapError .fault := by
  have h := run_lexRounds [] (sees_start script.toList)
  have hid (r : Except Fault (List PlacedToken)) : r.map ([] ++ ·) = r := by cases r <;> rfl
  rw [Lexes, hid] at h
  exact h

end Lex

end Checked

end DawScript
