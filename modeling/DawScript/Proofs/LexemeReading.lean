import DawScript.Proofs.Canonical
import DawScript.Proofs.ShortestDecimal
import DawScript.Syntax.Lexeme

/-!
# Reading one lexeme

What the first characters of a text are read as: names go up to the first character that does not
go on with them, numbers up to the end of their digits, and quoted texts are read as the text that
was quoted (`Lexeme.read_quoted`).
-/

set_option autoImplicit false

namespace DawScript

open Lexeme

/-! ## Characters -/

theorem letterRanges_all : Text.letterRanges.all (fun range => 0x80 ≤ range.1) = true := by
  decide +kernel

/-- The characters that begin names are letters of scripts in ASCII, the underscore, and characters
outside of ASCII. -/
theorem startsName_cases {c : Char} (h : Text.startsName c = true) :
    c.isAlpha = true ∨ c = '_' ∨ 0x80 ≤ c.toNat := by
  simp only [Text.startsName, Text.isLetter, Bool.or_eq_true, beq_iff_eq] at h
  rcases h with (h | h) | h
  · exact Or.inl h
  · -- the table of letters has no range in ASCII
    obtain ⟨range, hmem, hle, -⟩ := Text.inRanges_eq_true_iff.1 h
    have hrange : 0x80 ≤ range.1 :=
      of_decide_eq_true (List.all_eq_true.1 letterRanges_all range hmem)
    exact Or.inr (Or.inr (Nat.le_trans hrange hle))
  · exact Or.inr (Or.inl h)

theorem not_digit_of_startsName {c : Char} (h : Text.startsName c = true) : c.isDigit = false := by
  rw [Bool.eq_false_iff]
  intro hdigit
  simp only [Char.isDigit, Bool.and_eq_true, decide_eq_true_eq] at hdigit
  rcases startsName_cases h with h | rfl | h
  · simp only [Char.isAlpha, Char.isUpper, Char.isLower, Bool.or_eq_true, Bool.and_eq_true,
      decide_eq_true_eq] at h
    simp only [UInt32.le_iff_toNat_le] at *
    simp at *
    omega
  · revert hdigit
    decide
  · -- digits are ASCII
    have h2 := UInt32.le_iff_toNat_le.1 hdigit.2
    change c.toNat ≤ 57 at h2
    omega

theorem not_startsName_of {c : Char} (halpha : c.isAlpha = false) (hunderscore : c ≠ '_')
    (hascii : c.toNat < 0x80) : Text.startsName c = false := by
  rw [Bool.eq_false_iff]
  intro h
  rcases startsName_cases h with h | h | h
  · rw [halpha] at h
    cases h
  · exact hunderscore h
  · exact absurd h (Nat.not_le.2 hascii)

theorem startsName_of_isAlpha {c : Char} (h : c.isAlpha = true) : Text.startsName c = true := by
  simp [Text.startsName, Text.isLetter_of_isAlpha h]

theorem continuesName_of_letters {cs : List Char} (h : cs.all Char.isAlpha = true) :
    cs.all Text.continuesName = true := by
  rw [List.all_eq_true] at h ⊢
  exact fun c hc => Text.continuesName_of_startsName (startsName_of_isAlpha (h c hc))

/-- The signs and spaces that are written next to names. -/
def nameEnds : List Char := ['(', ')', '[', ']', '{', '}', ',', ':', '=', '.', ' ', '\n']

theorem nameEnds_all : nameEnds.all (fun c => !Text.continuesName c) = true := by
  decide +kernel

theorem not_continuesName_of_mem {c : Char} (h : c ∈ nameEnds) : Text.continuesName c = false := by
  simpa using List.all_eq_true.1 nameEnds_all c h

/-- What the first character of a token that is not a number or a string looks like. -/
structure Visible (c : Char) : Prop where
  quote : ¬ (c = '"' ∨ c = '\'')
  space : isSpace c = false
  hash : c ≠ '#'
  lineEnd : c ≠ '\n'

theorem visible_of_startsName {c : Char} (h : Text.startsName c = true) :
    Visible c ∧ c ≠ '.' ∧ c ≠ '/' ∧ c ≠ '=' := by
  have hne {d : Char} (hd : Text.startsName d = false) : c ≠ d := by
    rintro rfl
    rw [h] at hd
    cases hd
  have hsign (d : Char) (halpha : d.isAlpha = false) (hunderscore : d ≠ '_')
      (hascii : d.toNat < 0x80) : c ≠ d :=
    hne (not_startsName_of halpha hunderscore hascii)
  have hdot := hsign '.' rfl (by decide) (by decide)
  have hslash := hsign '/' rfl (by decide) (by decide)
  have hequal := hsign '=' rfl (by decide) (by decide)
  have hhash := hsign '#' rfl (by decide) (by decide)
  have hline := hsign '\n' rfl (by decide) (by decide)
  refine ⟨⟨?_, ?_, hhash, hline⟩, hdot, hslash, hequal⟩
  · rintro (h | h)
    · exact hsign '"' rfl (by decide) (by decide) h
    · exact hsign '\'' rfl (by decide) (by decide) h
  · have h1 := hsign ' ' rfl (by decide) (by decide)
    have h2 := hsign '\t' rfl (by decide) (by decide)
    have h3 := hsign '\r' rfl (by decide) (by decide)
    simp [isSpace, h1, h2, h3]

theorem visible_of_charToken? {c : Char} {t : Token} (h : charToken? c = some t) :
    Visible c ∧ Text.startsName c = false ∧ c.isDigit = false := by
  have hsign (d : Char) (halpha : d.isAlpha = false) (hunderscore : d ≠ '_')
      (hascii : d.toNat < 0x80) : Text.startsName d = false :=
    not_startsName_of halpha hunderscore hascii
  -- one case for each sign, and one for all other characters
  unfold charToken? at h
  split at h
  all_goals first
    | cases h; done
    | exact ⟨⟨by decide, by decide, by decide, by decide⟩,
        hsign _ rfl (by decide) (by decide), rfl⟩

theorem visible_of_pairToken? {c d : Char} {t : Token} (h : pairToken? c d = some t) :
    Visible c ∧ Text.startsName c = false ∧ c.isDigit = false ∧ c ≠ '.' ∧ c ≠ '/' := by
  unfold pairToken? at h
  split at h
  all_goals first
    | cases h; done
    | exact ⟨⟨by decide, by decide, by decide, by decide⟩,
        not_startsName_of rfl (by decide) (by decide), rfl, by decide, by decide⟩

theorem visible_of_isDigit {c : Char} (h : c.isDigit = true) :
    Visible c ∧ c ≠ '.' ∧ c ≠ '/' ∧ c ≠ '=' := by
  have hne {d : Char} (hd : d.isDigit = false) : c ≠ d := by
    rintro rfl
    rw [h] at hd
    cases hd
  refine ⟨⟨?_, ?_, hne rfl, hne rfl⟩, hne rfl, hne rfl, hne rfl⟩
  · rintro (h | h)
    · exact hne rfl h
    · exact hne rfl h
  · have hspace : c ≠ ' ' := hne rfl
    have htab : c ≠ '\t' := hne rfl
    have hreturn : c ≠ '\r' := hne rfl
    simp [isSpace, hspace, htab, hreturn]

/-- There are no blanks in front of a character that is neither a space nor begins a comment. -/
theorem splitBlanks_cons {c : Char} {cs : List Char} (hspace : isSpace c = false) (hhash : c ≠ '#')
    (hslash : c = '/' → cs.head? ≠ some '/') : splitBlanks (c :: cs) = ([], c :: cs) := by
  have hcomment : splitComment (c :: cs) = ([], c :: cs) := by
    unfold splitComment
    split
    · next heq =>
      cases heq
      exact absurd rfl hhash
    · next heq =>
      cases heq
      exact absurd rfl (hslash rfl)
    · rfl
  simp [splitBlanks, hspace, hcomment]

theorem splitBlanks_space (cs : List Char) :
    (splitBlanks (' ' :: cs)).1 = ' ' :: (splitBlanks cs).1 ∧
      (splitBlanks (' ' :: cs)).2 = (splitBlanks cs).2 := by
  have hspace : isSpace ' ' = true := rfl
  simp [splitBlanks, hspace]

/-! ## One lexeme -/

namespace Lexeme

variable {previous : Option Token} {cs rest : List Char}

theorem takeWhile_append_of {p : Char → Bool} {ds rest : List Char} (hds : ∀ d ∈ ds, p d = true)
    (hrest : ∀ d ∈ rest.head?, p d = false) :
    (ds ++ rest).takeWhile p = ds ∧ (ds ++ rest).dropWhile p = rest := by
  have hend : rest.takeWhile p = [] ∧ rest.dropWhile p = rest := by
    cases rest with
    | nil => exact ⟨rfl, rfl⟩
    | cons d more => simp [hrest d rfl]
  rw [List.takeWhile_append_of_pos hds, List.dropWhile_append_of_pos hds, hend.1, hend.2,
    List.append_nil]
  exact ⟨rfl, rfl⟩

/-- A character that begins names is read with the word that it begins. -/
theorem read_word {c : Char} {cs : List Char} (h : Text.startsName c = true) :
    Lexeme.read previous c cs = .ok (word c cs h) := by
  obtain ⟨hvisible, hdot, -⟩ := visible_of_startsName h
  have hnumber : startsNumber (c :: cs) = false := by
    unfold startsNumber
    split
    · next heq => exact absurd (List.cons.inj heq).1 hdot
    · exact not_digit_of_startsName h
  simp [Lexeme.read, hvisible.quote, hnumber, h]

/-- A sign that begins neither a number nor a name is read. -/
theorem read_of_sign? {c : Char} {l : Lexeme (c :: cs)} (hvisible : Visible c)
    (hstart : Text.startsName c = false) (hdigit : c.isDigit = false)
    (hdot : c = '.' → startsWithDigit cs = true → endsValue previous = true)
    (h : sign? c cs = some l) : Lexeme.read previous c cs = .ok l := by
  have hnumber : ¬ (startsNumber (c :: cs) = true ∧ (c = '.' → endsValue previous = false)) := by
    rintro ⟨hnumber, hend⟩
    -- only a point with a digit after it could begin a number, and then a value ends before it
    unfold startsNumber at hnumber
    split at hnumber
    · next heq =>
      cases heq
      rw [hdot rfl hnumber] at hend
      exact absurd (hend rfl) nofun
    · rw [startsWithDigit, hdigit] at hnumber
      cases hnumber
  rw [Lexeme.read, if_neg hvisible.quote, dif_neg hnumber, dif_neg (by rw [hstart]; nofun), h]

/-- A sign of one character is read when it makes no sign of two with the next one. -/
theorem read_sign {c : Char} {t : Token} (h : charToken? c = some t)
    (hpair : ∀ d ∈ cs.head?, pairToken? c d = none)
    (hdot : c = '.' → startsWithDigit cs = true → endsValue previous = true) :
    ∃ l, Lexeme.read previous c cs = .ok l ∧ l.token = t ∧ l.rest = cs := by
  obtain ⟨hvisible, hstart, hdigit⟩ := visible_of_charToken? h
  -- at the end of a text there is no next character to make a pair with
  have hsign : ∃ l, sign? c cs = some l ∧ l.token = t ∧ l.rest = cs := by
    cases cs with
    | nil => exact ⟨_, by rw [sign?, h]; rfl, rfl, rfl⟩
    | cons d more =>
      rw [sign?, hpair d rfl]
      exact ⟨_, by rw [h]; rfl, rfl, rfl⟩
  obtain ⟨l, hl, htoken, hrest⟩ := hsign
  exact ⟨l, read_of_sign? hvisible hstart hdigit hdot hl, htoken, hrest⟩

/-- A sign of two characters is read whatever comes after it. -/
theorem read_pair (previous : Option Token) {c d : Char} {t : Token} (h : pairToken? c d = some t)
    (cs : List Char) :
    ∃ l, Lexeme.read previous c (d :: cs) = .ok l ∧ l.token = t ∧ l.rest = cs := by
  obtain ⟨hvisible, hstart, hdigit, hdot, -⟩ := visible_of_pairToken? h
  have hsign : ∃ l, sign? c (d :: cs) = some l ∧ l.token = t ∧ l.rest = cs := by
    rw [sign?, h]
    exact ⟨_, rfl, rfl, rfl⟩
  obtain ⟨l, hl, htoken, hrest⟩ := hsign
  exact ⟨l, read_of_sign? hvisible hstart hdigit (fun heq => absurd heq hdot) hl, htoken, hrest⟩

theorem startsNumber_of_isDigit {c : Char} (h : c.isDigit = true) :
    startsNumber (c :: cs) = true ∧ (c = '.' → endsValue previous = false) := by
  have hdot := (visible_of_isDigit h).2.1
  refine ⟨?_, fun heq => absurd heq hdot⟩
  unfold startsNumber
  split
  · next heq => exact absurd (List.cons.inj heq).1 hdot
  · exact h

/-- A number is read with the fraction after its digits. -/
theorem read_number {c : Char} {tail : List Char} {t : Token} (hprevious : previous ≠ some .dot)
    (hdigits : ∀ d ∈ c :: cs, d.isDigit = true) (htail : ∀ d ∈ tail.head?, d.isDigit = false)
    (ht : numberToken (c :: cs) (splitFraction tail).1 = .ok t) :
    ∃ l, Lexeme.read previous c (cs ++ tail) = .ok l ∧ l.token = t ∧
      l.rest = (splitFraction tail).2 := by
  have hc := hdigits c List.mem_cons_self
  obtain ⟨htake, hdrop⟩ := takeWhile_append_of hdigits htail
  rw [List.cons_append] at htake hdrop
  rw [Lexeme.read, if_neg (visible_of_isDigit hc).1.quote, dif_pos (startsNumber_of_isDigit hc),
    dif_neg fun h => hprevious h.2]
  simp only [number, htake, hdrop, ht, Except.map]
  exact ⟨_, rfl, rfl, rfl⟩

/-- After a point, digits are read without a fraction. -/
theorem read_position {c : Char} {tail : List Char} {t : Token}
    (hdigits : ∀ d ∈ c :: cs, d.isDigit = true) (htail : ∀ d ∈ tail.head?, d.isDigit = false)
    (ht : numberToken (c :: cs) [] = .ok t) :
    ∃ l, Lexeme.read (some .dot) c (cs ++ tail) = .ok l ∧ l.token = t ∧ l.rest = tail := by
  have hc := hdigits c List.mem_cons_self
  obtain ⟨htake, hdrop⟩ := takeWhile_append_of hdigits htail
  rw [← htake] at ht
  rw [Lexeme.read, if_neg (visible_of_isDigit hc).1.quote, dif_pos (startsNumber_of_isDigit hc),
    dif_pos ⟨hc, rfl⟩, integer]
  simp only [List.cons_append] at ht hdrop
  rw [ht]
  exact ⟨_, rfl, rfl, hdrop⟩

/-- A character that is quoted with the escapes of scripts stands for itself, or has an escape that
is read as the character. -/
theorem escaped_cases {c : Char} (h : Text.EscapedPlainly c) :
    (Text.escaped c = [c] ∧ c ≠ '"' ∧ c ≠ '\\' ∧ c ≠ '\n') ∨
      ∃ e, Text.escaped c = ['\\', e] ∧ unescaped e = c := by
  by_cases hquote : c = '"'
  · subst hquote
    exact Or.inr ⟨'"', rfl, rfl⟩
  by_cases hbackslash : c = '\\'
  · subst hbackslash
    exact Or.inr ⟨'\\', rfl, rfl⟩
  by_cases hline : c = '\n'
  · subst hline
    exact Or.inr ⟨'n', rfl, rfl⟩
  by_cases htab : c = '\t'
  · subst htab
    exact Or.inr ⟨'t', rfl, rfl⟩
  -- what is left are the characters that stand for themselves and those with other escapes
  left
  refine ⟨?_, hquote, hbackslash, hline⟩
  by_cases hreturn : c = '\r'
  · subst hreturn
    exact absurd h (by decide)
  by_cases hnull : c = '\x00'
  · subst hnull
    exact absurd h (by decide)
  by_cases hprintable : Text.isPrintable c = true
  · simp [Text.escaped, hquote, hbackslash, hline, htab, hreturn, hnull, hprintable]
  · -- an escape by number is neither the character nor a backslash with one letter
    have hnumber : Text.escaped c = Text.numberEscape c := by
      simp [Text.escaped, hquote, hbackslash, hline, htab, hreturn, hnull, hprintable]
    rw [Text.EscapedPlainly, hnumber, Text.numberEscape] at h
    simp at h

/-- One quoted character in front of the rest of a string. -/
theorem stringTail?_escaped {c : Char} (h : Text.EscapedPlainly c) {tail : StringTail cs}
    (htail : stringTail? '"' cs = some tail) :
    ∃ longer, stringTail? '"' (Text.escaped c ++ cs) = some longer ∧
      longer.content = c :: tail.content ∧ longer.rest = tail.rest := by
  rcases escaped_cases h with ⟨hc, hquote, hbackslash, hline⟩ | ⟨e, hc, he⟩
  · -- none of the characters that end a string or begin an escape
    rw [hc]
    refine ⟨⟨c :: tail.content, c :: tail.text, tail.rest, by simp [tail.split]⟩, ?_, rfl, rfl⟩
    change stringTail? '"' (c :: cs) = some _
    rw [stringTail?.eq_def]
    simp [hquote, hbackslash, hline, htail]
  · rw [hc, ← he]
    refine ⟨⟨unescaped e :: tail.content, '\\' :: e :: tail.text, tail.rest,
      by simp [tail.split]⟩, ?_, rfl, rfl⟩
    change stringTail? '"' ('\\' :: e :: cs) = some _
    rw [stringTail?.eq_def]
    simp [htail]

theorem stringTail?_quoted {content : List Char} (h : ∀ c ∈ content, Text.EscapedPlainly c)
    (rest : List Char) :
    ∃ tail, stringTail? '"' (content.flatMap Text.escaped ++ '"' :: rest) = some tail ∧
      tail.content = content ∧ tail.rest = rest := by
  induction content with
  | nil =>
    refine ⟨⟨[], ['"'], rest, rfl⟩, ?_, rfl, rfl⟩
    change stringTail? '"' ('"' :: rest) = some _
    rw [stringTail?.eq_def]
    rfl
  | cons c content ih =>
    obtain ⟨tail, htail, hcontent, hrest⟩ := ih fun d hd => h d (List.mem_cons_of_mem c hd)
    obtain ⟨longer, hlonger, hcontent', hrest'⟩ :=
      stringTail?_escaped (h c List.mem_cons_self) htail
    rw [List.flatMap_cons, List.append_assoc]
    exact ⟨longer, hlonger, by rw [hcontent', hcontent], hrest'.trans hrest⟩

/-- A quoted text is read as the text. -/
theorem read_quoted (previous : Option Token) {s : String}
    (h : ∀ c ∈ s.toList, Text.EscapedPlainly c) (rest : List Char) :
    ∃ l, Lexeme.read previous '"' (s.toList.flatMap Text.escaped ++ '"' :: rest) = .ok l ∧
      l.token = .string s ∧ l.rest = rest := by
  obtain ⟨tail, htail, hcontent, hrest⟩ := stringTail?_quoted h rest
  rw [Lexeme.read, if_pos (Or.inl rfl), string, htail]
  refine ⟨_, rfl, ?_, hrest⟩
  simp only [hcontent, String.ofList_toList]

end Lexeme

/-! ## Ends of words -/

/-- A text with which no name goes on. -/
def EndsName (rest : List Char) : Prop := ∀ d ∈ rest.head?, Text.continuesName d = false

/-- A text with which neither a name nor a number goes on. -/
structure Ends (rest : List Char) : Prop where
  noName : EndsName rest
  noFraction : splitFraction rest = ([], rest)

theorem endsName_cons {c : Char} (hc : c ∈ nameEnds) (cs : List Char) : EndsName (c :: cs) := by
  intro d hd
  cases hd
  exact not_continuesName_of_mem hc

theorem EndsName.noDigit {rest : List Char} (h : EndsName rest) :
    ∀ d ∈ rest.head?, d.isDigit = false := by
  intro d hd
  have hname := h d hd
  simp only [Text.continuesName, Text.isNumber, Bool.or_eq_false_iff] at hname
  exact hname.1.2.1

theorem ends_cons {c : Char} (hc : c ∈ nameEnds) (hdot : c ≠ '.') (cs : List Char) :
    Ends (c :: cs) := by
  refine ⟨endsName_cons hc cs, ?_⟩
  unfold splitFraction
  split
  · next heq => exact absurd (List.cons.inj heq).1 hdot
  · rfl

theorem endsName_point (cs : List Char) : EndsName ('.' :: cs) :=
  endsName_cons (by decide) cs

theorem ends_point {c : Char} (hc : Text.startsName c = true) (cs : List Char) :
    Ends ('.' :: c :: cs) := by
  refine ⟨endsName_point (c :: cs), ?_⟩
  simp [splitFraction, not_digit_of_startsName hc]

end DawScript
