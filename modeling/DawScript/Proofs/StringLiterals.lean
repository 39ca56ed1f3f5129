import DawScript.Proofs.LexemeReading
import DawScript.Proofs.TokenList

/-!
# String literals

The text behind an opening quote falls into units: a backslash with the character after it, or a
character by itself (`StringUnit.ofText`). A string ends at the first unit that is its quote, and it
is unclosed if there is none before a line end by itself (`Lexeme.stringTail?_eq_none_iff`). So
every text can be written as a string, and it is read back as the text (`strings_are_read_back`).
-/

set_option autoImplicit false

namespace DawScript

/-! ## Units -/

/-- A character in a string: by itself, or behind a backslash. -/
inductive StringUnit where
  | plain (c : Char)
  | escape (c : Char)
deriving DecidableEq, Repr

namespace StringUnit

/-- A unit as it is written. -/
def text : StringUnit → List Char
  | plain c => [c]
  | escape c => ['\\', c]

/-- The character that a unit stands for. -/
def meaning : StringUnit → Char
  | plain c => c
  | escape c => Lexeme.unescaped c

/-- The units of a text. Each backslash takes the character after it with it; one at the end of the
text is by itself. -/
def ofText : List Char → List StringUnit
  | '\\' :: c :: cs => escape c :: ofText cs
  | c :: cs => plain c :: ofText cs
  | [] => []

theorem ofText_plain {c : Char} (h : c ≠ '\\') (cs : List Char) :
    ofText (c :: cs) = plain c :: ofText cs := by
  rw [ofText.eq_def]
  split
  · next heq => exact absurd (List.cons.inj heq).1 h
  · next heq =>
    cases heq
    rfl
  · next heq => cases heq

theorem ofText_escape (c : Char) (cs : List Char) :
    ofText ('\\' :: c :: cs) = escape c :: ofText cs := rfl

/-- Nothing of a text is lost in its units. -/
theorem flatMap_text_ofText (cs : List Char) : (ofText cs).flatMap text = cs := by
  fun_induction ofText cs with
  | case1 c cs ih => rw [List.flatMap_cons, ih, text, List.cons_append, List.singleton_append]
  | case2 c cs hescape ih => rw [List.flatMap_cons, ih, text, List.singleton_append]
  | case3 => rfl

/-- The unit that stands for a character in a string with the given quote. -/
def spelling (quote c : Char) : StringUnit :=
  if c = '\\' then escape '\\' else if c = quote then escape quote
  else if c = '\n' then escape 'n' else plain c

/-- What a text is written as between two quotes. -/
def written (quote : Char) (cs : List Char) : List Char :=
  cs.flatMap fun c => (spelling quote c).text

section Spelling

variable {quote : Char}

/-- Neither the quote nor a line end is written by itself. -/
theorem spelling_ne_plain {d : Char} (h : d = quote ∨ d = '\n') (c : Char) :
    spelling quote c ≠ plain d := by
  unfold spelling
  split_ifs with hbackslash hc hline
  · nofun
  · nofun
  · nofun
  · rintro ⟨⟩
    exact h.elim hc hline

theorem meaning_spelling (hquote : Lexeme.unescaped quote = quote) (c : Char) :
    (spelling quote c).meaning = c := by
  unfold spelling
  split_ifs with hbackslash hc hline
  · rw [hbackslash]
    rfl
  · rw [hc]
    exact hquote
  · rw [hline]
    rfl
  · rfl

theorem map_meaning_spelling (hquote : Lexeme.unescaped quote = quote) (cs : List Char) :
    (cs.map (spelling quote)).map meaning = cs := by
  rw [List.map_map]
  exact (List.map_congr_left fun c _ => meaning_spelling hquote c).trans (List.map_id cs)

theorem ofText_written (quote : Char) (cs rest : List Char) :
    ofText (written quote cs ++ rest) = cs.map (spelling quote) ++ ofText rest := by
  induction cs with
  | nil => rfl
  | cons c cs ih =>
    have hunit (more : List Char) :
        ofText ((spelling quote c).text ++ more) = spelling quote c :: ofText more := by
      unfold spelling
      split_ifs with hbackslash
      · rfl
      · rfl
      · rfl
      · exact ofText_plain hbackslash more
    rw [written, List.flatMap_cons, List.append_assoc, hunit, List.map_cons, List.cons_append]
    exact congrArg _ ih

end Spelling

end StringUnit

/-! ## Closed and unclosed strings -/

open StringUnit

namespace Lexeme

section Tail

variable {quote : Char} {cs : List Char}

/-- A string is unclosed exactly if no quote by itself comes before the first line end by itself or
the end of the text. -/
theorem stringTail?_eq_none_iff (hescape : quote ≠ '\\') (hline : quote ≠ '\n') :
    stringTail? quote cs = none ↔
      .plain quote ∉ (ofText cs).takeWhile (· ≠ .plain '\n') := by
  fun_induction stringTail? quote cs with
  | case1 => simp [ofText]
  | case2 cs => simp [ofText_plain hescape, hline]
  | case3 cs hquote => simp [ofText_plain]
  | case4 hquote _ => simp [ofText, hescape]
  | case5 e more _ _ ih => simp [ofText_escape, ih]
  | case6 c cs hquote hline hbackslash ih =>
    simp [ofText_plain hbackslash, hline, Ne.symm hquote, ih]

/-- A closed string says what its units before the quote stand for, and the text goes on after the
quote. -/
theorem content_of_stringTail? (hescape : quote ≠ '\\') {tail : StringTail cs}
    (h : stringTail? quote cs = some tail) :
    tail.content = ((ofText cs).takeWhile (· ≠ .plain quote)).map meaning ∧
      ofText tail.rest = ((ofText cs).dropWhile (· ≠ .plain quote)).tail := by
  fun_induction stringTail? quote cs with
  | case1 | case3 | case4 => cases h
  | case2 cs =>
    cases h
    simp [ofText_plain hescape]
  | case5 e more _ _ ih =>
    obtain ⟨tail', htail', rfl⟩ := Option.map_eq_some_iff.1 h
    obtain ⟨hcontent, hrest⟩ := ih htail'
    simp [ofText_escape, hcontent, hrest, meaning]
  | case6 c cs hc hline hbackslash ih =>
    obtain ⟨tail', htail', rfl⟩ := Option.map_eq_some_iff.1 h
    obtain ⟨hcontent, hrest⟩ := ih htail'
    simp [ofText_plain hbackslash, hc, hcontent, hrest, meaning]

/-- No quote has a meaning of its own in a string. -/
theorem quote_spec (hquote : quote = '"' ∨ quote = '\'') :
    quote ≠ '\\' ∧ quote ≠ '\n' ∧ unescaped quote = quote := by
  rcases hquote with rfl | rfl <;> decide

/-- What is written between quotes is read back, whatever comes after it. -/
theorem stringTail?_written (hquote : quote = '"' ∨ quote = '\'') (content rest : List Char) :
    ∃ tail, stringTail? quote (written quote content ++ quote :: rest) = some tail ∧
      tail.content = content ∧ tail.rest = rest := by
  obtain ⟨hescape, hline, hmeaning⟩ := quote_spec hquote
  have hunits : ofText (written quote content ++ quote :: rest) =
      content.map (spelling quote) ++ .plain quote :: ofText rest := by
    rw [ofText_written, ofText_plain hescape]
  have hinside (d : Char) (hd : d = quote ∨ d = '\n') :
      ∀ u ∈ content.map (spelling quote), decide (u ≠ .plain d) = true := by
    intro u hu
    obtain ⟨c, -, rfl⟩ := List.mem_map.1 hu
    exact decide_eq_true (spelling_ne_plain hd c)
  cases htail : stringTail? quote (written quote content ++ quote :: rest) with
  | none =>
    -- the quote after the content is by itself, and no line end before it is
    refine absurd ?_ ((stringTail?_eq_none_iff hescape hline).1 htail)
    rw [hunits, List.takeWhile_append_of_pos (hinside '\n' (Or.inr rfl))]
    simp [hline]
  | some tail =>
    obtain ⟨hcontent, hrest⟩ := content_of_stringTail? hescape htail
    rw [hunits] at hcontent hrest
    rw [List.takeWhile_append_of_pos (hinside quote (Or.inl rfl)), List.map_append,
      map_meaning_spelling hmeaning] at hcontent
    rw [List.dropWhile_append_of_pos (hinside quote (Or.inl rfl))] at hrest
    refine ⟨tail, rfl, by simpa using hcontent, ?_⟩
    have hsame : ofText tail.rest = ofText rest := by simpa using hrest
    rw [← flatMap_text_ofText tail.rest, hsame, flatMap_text_ofText]

end Tail

section Read

variable {quote : Char} (previous : Option Token)

theorem splitBlanks_quote (hquote : quote = '"' ∨ quote = '\'') (cs : List Char) :
    splitBlanks (quote :: cs) = ([], quote :: cs) := by
  rcases hquote with rfl | rfl
  · exact splitBlanks_cons rfl (by decide) nofun
  · exact splitBlanks_cons rfl (by decide) nofun

theorem read_string (hquote : quote = '"' ∨ quote = '\'') (cs : List Char) :
    read previous quote cs = string quote cs := by
  rw [read, if_pos hquote]

/-- A written text is read with the quotes around it, and nothing of what comes after it is. -/
theorem read_written (hquote : quote = '"' ∨ quote = '\'') (s : String) (rest : List Char) :
    ∃ l, read previous quote (written quote s.toList ++ quote :: rest) = .ok l ∧
      l.token = .string s ∧ l.text = quote :: written quote s.toList ++ [quote] ∧
      l.rest = rest := by
  obtain ⟨tail, htail, hcontent, hrest⟩ := stringTail?_written hquote s.toList rest
  rw [read_string previous hquote, string, htail]
  refine ⟨_, rfl, ?_, ?_, hrest⟩
  · rw [hcontent, String.ofList_toList]
  · have hsplit : tail.text ++ rest = written quote s.toList ++ [quote] ++ rest := by
      have htext := tail.split
      rw [hrest] at htext
      simpa using htext
    exact congrArg (quote :: ·) (List.append_cancel_right hsplit)

/-- A text behind a quote is refused only as an unclosed string. -/
theorem read_quote_eq_error_iff (hquote : quote = '"' ∨ quote = '\'') {cs : List Char}
    {cause : SyntaxFault} :
    read previous quote cs = .error cause ↔ cause = .unclosedString ∧
      .plain quote ∉ (ofText cs).takeWhile (· ≠ .plain '\n') := by
  obtain ⟨hescape, hline, -⟩ := quote_spec hquote
  rw [read_string previous hquote, ← stringTail?_eq_none_iff hescape hline, string]
  split
  · next htail => simp [htail]
  · next htail => simp [htail, eq_comm]

end Read

end Lexeme

/-- A written text is one token of a script, and what comes after it is read on its own. -/
theorem tokensFrom_written {quote : Char} (hquote : quote = '"' ∨ quote = '\'')
    (previous : Option Token) (p : Position) (s : String) (rest : List Char) :
    tokensFrom previous p (quote :: written quote s.toList ++ [quote] ++ rest) =
      (tokensFrom (some (.string s)) (p.after (quote :: written quote s.toList ++ [quote]))
        rest).map (⟨.string s, p⟩ :: ·) := by
  obtain ⟨l, hread, htoken, htext, hrest⟩ := Lexeme.read_written previous hquote s rest
  have hliteral : quote :: written quote s.toList ++ [quote] ++ rest =
      quote :: (written quote s.toList ++ quote :: rest) := by simp
  have hblanks := Lexeme.splitBlanks_quote hquote (written quote s.toList ++ quote :: rest)
  rw [hliteral, tokensFrom_char (congrArg Prod.snd hblanks) (Lexeme.quote_spec hquote).2.1, hread,
    hblanks, ← htext]
  simp only [htoken, hrest]
  rfl

/-! ## Main result -/

/-- Every text can be written as a string with either quote: with a backslash before each backslash
and each quote in it, and with a backslash and `n` for each line end. Wherever it stands in a
script, it is read as the text, and reading goes on exactly after it. What follows a quote cannot be
read as a string exactly if, with each backslash paired with the character after it, no quote by
itself comes before the first line end by itself or the end of the script. -/
theorem strings_are_read_back {quote : Char} (hquote : quote = '"' ∨ quote = '\'')
    (previous : Option Token) :
    (∀ (s : String) (rest : List Char),
      let literal := quote :: written quote s.toList ++ [quote]
      (∃ l, Lexeme.read previous quote (written quote s.toList ++ quote :: rest) = .ok l ∧
        l.token = .string s ∧ l.text = literal ∧ l.rest = rest) ∧
      ∀ p, tokensFrom previous p (literal ++ rest) =
        (tokensFrom (some (.string s)) (p.after literal) rest).map (⟨.string s, p⟩ :: ·)) ∧
    ∀ (cs : List Char) (cause : SyntaxFault),
      Lexeme.read previous quote cs = .error cause ↔ cause = .unclosedString ∧
        .plain quote ∉ (ofText cs).takeWhile (· ≠ .plain '\n') := by
  refine ⟨fun s rest => ⟨?_, fun p => ?_⟩, fun cs cause => ?_⟩
  · exact Lexeme.read_written previous hquote s rest
  · exact tokensFrom_written hquote previous p s rest
  · exact Lexeme.read_quote_eq_error_iff previous hquote

/-- A text with an apostrophe, a backslash and a line end is read back between apostrophes, and a
point is left after it. Without the backslash before it the line end leaves the string unclosed,
although there are two apostrophes: the first belongs to a backslash and the second comes too
late. -/
theorem text_between_apostrophes :
    (∃ l, Lexeme.read none '\'' "it\\'s \\\\\\n'.".toList = .ok l ∧
      l.token = .string "it's \\\n" ∧ l.rest = ['.']) ∧
    Lexeme.read none '\'' "it\\'s\n'".toList = .error .unclosedString := by
  obtain ⟨hread, hunclosed⟩ := @strings_are_read_back '\'' (Or.inr rfl) none
  obtain ⟨l, hl, htoken, -, hrest⟩ := (hread "it's \\\n" ['.']).1
  exact ⟨⟨l, hl, htoken, hrest⟩, (hunclosed _ _).2 ⟨rfl, by decide⟩⟩

end DawScript
