import DawScript.Proofs.Scanning

/-!
# Positions of tokens

Where the tokens of a script say that they stand. A script is read token by token (`Scanned`), and
every token and every fault carries the position that the text before it leads to, where the line
ends that a string holds behind a backslash are not counted (`tokens_positions`).
-/

set_option autoImplicit false

namespace DawScript

open Lexeme

/-! ## Positions in a text -/

/-- The position of what follows a text: one line further for each line end of the text, and one
column further for each character since the last of them. -/
def Position.following (before : List Char) : Position :=
  ⟨1 + before.count '\n', 1 + (before.reverse.takeWhile (· != '\n')).length⟩

namespace Position

theorem following_lineEnd (before : List Char) :
    (following before).nextLine = following (before ++ ['\n']) := by
  simp [following, nextLine, List.count_append, Nat.add_assoc]

theorem following_char {c : Char} (hc : c ≠ '\n') (before : List Char) :
    (following before).after [c] = following (before ++ [c]) := by
  simp [following, after, hc, Nat.add_assoc]

/-- Inside a line every character takes a column. -/
theorem following_append {text : List Char} (h : '\n' ∉ text) (before : List Char) :
    (following before).after text = following (before ++ text) := by
  induction text generalizing before with
  | nil => simp [after]
  | cons c cs ih =>
    rw [List.mem_cons, not_or] at h
    rw [← List.singleton_append, after_append, following_char (Ne.symm h.1), ih h.2,
      List.append_assoc]

/-- The line ends inside a lexeme take no column. -/
theorem following_filter (before text : List Char) :
    (following before).after text = following (before ++ text.filter (· != '\n')) := by
  have hfilter : (following before).after text =
      (following before).after (text.filter (· != '\n')) := by
    simp [after, List.countP_filter]
  rw [hfilter, following_append (by simp)]

end Position

/-! ## Line ends inside lexemes -/

namespace Lexeme

theorem lineEnd_not_mem_blanks (cs : List Char) : '\n' ∉ (splitBlanks cs).1 := by
  have hspace (ds : List Char) : '\n' ∉ ds.takeWhile isSpace := fun hmem =>
    absurd (List.mem_takeWhile_imp hmem) (by decide)
  have hline (ds : List Char) : '\n' ∉ ds.takeWhile (· != '\n') := fun hmem =>
    absurd (List.mem_takeWhile_imp hmem) (by decide)
  have hcomment (ds : List Char) : '\n' ∉ (splitComment ds).1 := by
    unfold splitComment
    split
    · exact hline _
    · exact hline _
    · exact List.not_mem_nil
  simp only [splitBlanks, List.mem_append, not_or]
  exact ⟨⟨hspace _, hcomment _⟩, hspace _⟩

/-- A string holds a line end only behind a backslash. -/
theorem escaped_of_mem_tail {quote : Char} (hquote : quote ≠ '\n') {cs : List Char}
    {tail : StringTail cs} (h : stringTail? quote cs = some tail) (hmem : '\n' ∈ tail.text) :
    ['\\', '\n'] <:+: tail.text := by
  induction cs using stringTail?.induct quote with
  | case1 =>
    rw [stringTail?.eq_def] at h
    cases h
  | case2 cs =>
    rw [stringTail?.eq_def] at h
    simp only [if_true] at h
    cases h
    exact absurd (List.mem_singleton.1 hmem) hquote.symm
  | case3 cs hne =>
    rw [stringTail?.eq_def] at h
    simp [hne] at h
  | case4 hne =>
    rw [stringTail?.eq_def] at h
    simp [hne] at h
  | case5 e more hne hline ih =>
    rw [stringTail?.eq_def] at h
    simp only [hne, hline, if_false, if_true] at h
    obtain ⟨shorter, hshorter, rfl⟩ := Option.map_eq_some_iff.1 h
    by_cases he : e = '\n'
    · subst he
      exact ⟨[], shorter.text, rfl⟩
    · have hin : '\n' ∈ shorter.text := by
        simpa [Ne.symm he] using hmem
      exact (ih hshorter hin).trans ⟨['\\', e], [], by simp⟩
  | case6 c more hne hline hbackslash ih =>
    rw [stringTail?.eq_def] at h
    simp only [hne, hline, hbackslash, if_false] at h
    obtain ⟨longer, hlonger, rfl⟩ := Option.map_eq_some_iff.1 h
    have hin : '\n' ∈ longer.text := by
      simpa [Ne.symm hline] using hmem
    exact (ih hlonger hin).trans ⟨[c], [], by simp⟩

theorem lineEnd_not_mem_digits (cs : List Char) : '\n' ∉ cs.takeWhile Char.isDigit :=
  fun hmem => absurd (List.mem_takeWhile_imp hmem) (by decide)

theorem lineEnd_not_mem_fraction (cs : List Char) : '\n' ∉ (splitFraction cs).1 := by
  unfold splitFraction
  split
  · split
    · rw [List.mem_cons, not_or]
      exact ⟨by decide, lineEnd_not_mem_digits _⟩
    · exact List.not_mem_nil
  · exact List.not_mem_nil

theorem second_of_pairToken? {c d : Char} {t : Token} (h : pairToken? c d = some t) : d = '=' := by
  unfold pairToken? at h
  split at h
  all_goals first
    | rfl
    | cases h

theorem lineEnd_not_mem_sign {c : Char} {cs : List Char} {l : Lexeme (c :: cs)} (hc : c ≠ '\n')
    (h : sign? c cs = some l) : '\n' ∉ l.text := by
  unfold sign? at h
  split at h
  · obtain ⟨t, -, rfl⟩ := Option.map_eq_some_iff.1 h
    simpa using hc.symm
  · split at h
    · next hpair =>
      cases h
      rw [second_of_pairToken? hpair]
      simpa using hc.symm
    · obtain ⟨t, -, rfl⟩ := Option.map_eq_some_iff.1 h
      simpa using hc.symm

/-- A lexeme that does not begin with a line end holds one only behind a backslash. -/
theorem escaped_of_mem {previous : Option Token} {c : Char} {cs : List Char} {l : Lexeme (c :: cs)}
    (hc : c ≠ '\n') (h : read previous c cs = .ok l) (hmem : '\n' ∈ l.text) :
    ['\\', '\n'] <:+: l.text := by
  have hnumber {x : Except SyntaxFault Token} {f : Token → Lexeme (c :: cs)}
      (hf : ∀ t, '\n' ∉ (f t).text) (hmap : x.map f = .ok l) : '\n' ∉ l.text := by
    cases x with
    | error cause => cases hmap
    | ok t =>
      cases hmap
      exact hf t
  unfold read at h
  split at h
  · unfold string at h
    split at h
    · next tail htail =>
      cases h
      have hin : '\n' ∈ tail.text := by
        simpa [Ne.symm hc] using hmem
      exact (escaped_of_mem_tail hc htail hin).trans ⟨[c], [], by simp⟩
    · cases h
  -- what is not a string has no line end
  · refine absurd hmem ?_
    split at h
    · split at h
      · exact hnumber (fun _ => lineEnd_not_mem_digits _) h
      · exact hnumber (fun _ hin => (List.mem_append.1 hin).elim (lineEnd_not_mem_digits _)
          (lineEnd_not_mem_fraction _)) h
    · split at h
      · cases h
        have hline : Text.continuesName '\n' = false := not_continuesName_of_mem (by decide)
        intro hin
        have hcont := List.mem_takeWhile_imp hin
        rw [hline] at hcont
        cases hcont
      · split at h
        · next hsign =>
          cases h
          exact lineEnd_not_mem_sign hc hsign
        · cases h

end Lexeme

/-! ## What a fault complains about -/

/-- A fault of the scanner complains about the beginning of a text. -/
def SyntaxFault.ComplainsOf : SyntaxFault → List Char → Prop
  | .unexpectedCharacter c, cs => cs.head? = some c
  | .unclosedString, cs =>
    ∃ quote content, cs = quote :: content ∧ (quote = '"' ∨ quote = '\'') ∧
      stringTail? quote content = none
  | .integerTooLarge digits, cs =>
    digits.toList = cs.takeWhile Char.isDigit ∧ ¬ fitsWord (Decimal.natOfDigits digits.toList)
  | _, _ => False

theorem Lexeme.numberToken_error {whole fraction : List Char} {cause : SyntaxFault}
    (h : numberToken whole fraction = .error cause) :
    cause = .integerTooLarge (String.ofList whole) ∧ ¬ fitsWord (Decimal.natOfDigits whole) := by
  unfold numberToken at h
  split at h
  · simp only at h
    split at h
    · cases h
    · next hfits =>
      cases h
      exact ⟨rfl, hfits⟩
  · cases h

/-- A lexeme that cannot be read is refused for its first character, for a string that is not closed
or for its digits. -/
theorem Lexeme.complainsOf_of_read {previous : Option Token} {c : Char} {cs : List Char}
    {cause : SyntaxFault} (h : read previous c cs = .error cause) :
    cause.ComplainsOf (c :: cs) := by
  have hnumber {whole fraction : List Char} {f : Token → Lexeme (c :: cs)}
      (hwhole : whole = (c :: cs).takeWhile Char.isDigit)
      (hmap : (numberToken whole fraction).map f = .error cause) : cause.ComplainsOf (c :: cs) := by
    cases ht : numberToken whole fraction with
    | ok t =>
      rw [ht] at hmap
      cases hmap
    | error refusal =>
      rw [ht] at hmap
      cases hmap
      obtain ⟨rfl, hfits⟩ := numberToken_error ht
      refine ⟨?_, ?_⟩
      · rw [String.toList_ofList, hwhole]
      · rwa [String.toList_ofList]
  unfold read at h
  split at h
  · next hquote =>
    unfold string at h
    split at h
    · cases h
    · next hnone =>
      cases h
      exact ⟨c, cs, rfl, hquote, hnone⟩
  · split at h
    · split at h
      · exact hnumber rfl h
      · exact hnumber rfl h
    · split at h
      · cases h
      · split at h
        · cases h
        · cases h
          rfl

/-! ## Reading a script token by token -/

/-- A script has been read up to the first character of its next token, or up to its end: which
tokens were read, the text before, the same text without the line ends inside of lexemes, and the
text that is left. -/
inductive Scanned (script : List Char) :
    List Token → List Char → List Char → List Char → Prop where
  | start : Scanned script [] (splitBlanks script).1 (splitBlanks script).1 (splitBlanks script).2
  | lineEnd {read : List Token} {before counted cs : List Char} :
      Scanned script read before counted ('\n' :: cs) →
      Scanned script (read ++ [.newline]) (before ++ ['\n'] ++ (splitBlanks cs).1)
        (counted ++ ['\n'] ++ (splitBlanks cs).1) (splitBlanks cs).2
  | lexeme {read : List Token} {before counted cs : List Char} {c : Char} {l : Lexeme (c :: cs)} :
      Scanned script read before counted (c :: cs) → c ≠ '\n' →
      Lexeme.read read.getLast? c cs = .ok l →
      Scanned script (read ++ [l.token]) (before ++ l.text ++ (splitBlanks l.rest).1)
        (counted ++ l.text.filter (· != '\n') ++ (splitBlanks l.rest).1) (splitBlanks l.rest).2

namespace Scanned

variable {script before counted rest : List Char} {read : List Token}

/-- Nothing of the script is lost. -/
theorem split (h : Scanned script read before counted rest) : before ++ rest = script := by
  induction h with
  | start => exact splitBlanks_append script
  | lineEnd _ ih =>
    rw [← ih]
    simp [splitBlanks_append]
  | @lexeme read before counted cs c l _ _ _ ih =>
    rw [← ih, List.append_assoc, List.append_assoc, splitBlanks_append, l.split]

/-- Only line ends are not counted. -/
theorem sublist (h : Scanned script read before counted rest) :
    counted.Sublist before ∧ counted.filter (· != '\n') = before.filter (· != '\n') := by
  induction h with
  | start => exact ⟨List.Sublist.refl _, rfl⟩
  | lineEnd _ ih =>
    exact ⟨(ih.1.append_right _).append_right _, by simp [ih.2]⟩
  | lexeme _ _ _ ih =>
    exact ⟨(ih.1.append List.filter_sublist).append_right _, by simp [ih.2]⟩

/-- A position is that of the text before if no line end of it is left out. -/
theorem following_eq_iff (h : Scanned script read before counted rest) :
    Position.following counted = .following before ↔ counted = before := by
  refine ⟨fun heq => ?_, fun heq => by rw [heq]⟩
  obtain ⟨hsub, hfilter⟩ := h.sublist
  have hline : counted.count '\n' = before.count '\n' := by
    have := congrArg Position.line heq
    simpa [Position.following] using this
  have hlength (cs : List Char) :
      cs.length = cs.count '\n' + (cs.filter (· != '\n')).length := by
    rw [List.count, List.countP_eq_length_filter]
    exact List.length_eq_length_filter_add _
  exact hsub.eq_of_length (by rw [hlength counted, hlength before, hline, hfilter])

/-- Without a backslash before a line end all of the text is counted. -/
theorem counted_eq (h : Scanned script read before counted rest)
    (hplain : ¬ ['\\', '\n'] <:+: before) : counted = before := by
  induction h with
  | start => rfl
  | lineEnd _ ih =>
    have hshorter := ih fun hin =>
      hplain (List.infix_append_of_infix_left (List.infix_append_of_infix_left hin))
    rw [hshorter]
  | @lexeme read before counted cs c l _ hc hread ih =>
    have hshorter := ih fun hin =>
      hplain (List.infix_append_of_infix_left (List.infix_append_of_infix_left hin))
    have hline : '\n' ∉ l.text := fun hmem =>
      hplain ((escaped_of_mem hc hread hmem).trans ⟨before, (splitBlanks l.rest).1, by simp⟩)
    have hfilter : l.text.filter (· != '\n') = l.text := by
      rw [List.filter_eq_self]
      intro d hd
      rw [bne_iff_ne]
      rintro rfl
      exact hline hd
    rw [hshorter, hfilter]

end Scanned

/-! ## Positions of tokens and faults -/

/-- After the tokens `read`, the text that is left begins with a token: its end, a line end, or a
lexeme. -/
inductive BeginsWith (read : List Token) : List Char → Token → Prop where
  | ending : BeginsWith read [] .endOfScript
  | lineEnd (cs : List Char) : BeginsWith read ('\n' :: cs) .newline
  | lexeme {c : Char} {cs : List Char} {l : Lexeme (c :: cs)} :
      c ≠ '\n' → Lexeme.read read.getLast? c cs = .ok l → BeginsWith read (c :: cs) l.token

/-- After the tokens `read`, the text that is left begins with a lexeme that cannot be read. -/
inductive Refused (read : List Token) : List Char → SyntaxFault → Prop where
  | intro {c : Char} {cs : List Char} {cause : SyntaxFault} :
      c ≠ '\n' → Lexeme.read read.getLast? c cs = .error cause → Refused read (c :: cs) cause

/-- The position at which the text `rest` of a script stands, when the tokens `read` are before it:
that of the text before, but for the line ends that strings hold behind backslashes. -/
def StandsAt (script : List Char) (read : List Token) (rest : List Char) (p : Position) : Prop :=
  ∃ before counted, Scanned script read before counted rest ∧ before ++ rest = script ∧
    p = .following counted ∧ (p = .following before ↔ counted = before) ∧
    (¬ ['\\', '\n'] <:+: before → p = .following before)

theorem Scanned.standsAt {script before counted rest : List Char} {read : List Token}
    (h : Scanned script read before counted rest) :
    StandsAt script read rest (.following counted) :=
  ⟨before, counted, h, h.split, rfl, h.following_eq_iff,
    fun hplain => congrArg Position.following (h.counted_eq hplain)⟩

/-- What the tokens from somewhere in a script on say about where they stand. -/
def Placed (script : List Char) (read : List Token) : Except Fault Tokens → Prop
  | .ok ts => ∀ (i : Nat) (t : PlacedToken), ts[i]? = some t → ∃ rest,
      BeginsWith (read ++ Tokens.kinds (ts.take i)) rest t.token ∧
        StandsAt script (read ++ Tokens.kinds (ts.take i)) rest t.position
  | .error fault => ∃ more rest cause p, fault = .malformed cause p ∧
      Refused (read ++ more) rest cause ∧ cause.ComplainsOf rest ∧
        StandsAt script (read ++ more) rest p

/-- One token more in front. -/
theorem Placed.cons {script rest : List Char} {read : List Token} {t : PlacedToken}
    {outcome : Except Fault Tokens} (hbegins : BeginsWith read rest t.token)
    (hstands : StandsAt script read rest t.position)
    (h : Placed script (read ++ [t.token]) outcome) :
    Placed script read (outcome.map (t :: ·)) := by
  cases outcome with
  | error fault =>
    obtain ⟨more, rest', cause, p, hfault, hplaced⟩ := h
    rw [List.append_assoc] at hplaced
    exact ⟨[t.token] ++ more, rest', cause, p, hfault, hplaced⟩
  | ok ts =>
    intro i u hu
    cases i with
    | zero =>
      cases hu
      refine ⟨rest, ?_⟩
      simpa [Tokens.kinds] using ⟨hbegins, hstands⟩
    | succ i =>
      obtain ⟨rest', hplaced⟩ := h i u hu
      rw [List.append_assoc] at hplaced
      exact ⟨rest', hplaced⟩

theorem tokensFrom_placed {script before counted cs : List Char} {read : List Token}
    (h : Scanned script read (before ++ (splitBlanks cs).1) (counted ++ (splitBlanks cs).1)
      (splitBlanks cs).2) :
    Placed script read (tokensFrom read.getLast? (.following counted) cs) := by
  -- every token leaves a shorter text
  induction hm : cs.length using Nat.strongRecOn generalizing read before counted cs with
  | ind m ih =>
    subst hm
    have hblanks := splitBlanks_length_le cs
    have hhere := Position.following_append (lineEnd_not_mem_blanks cs) counted
    have hstands := h.standsAt
    cases hsplit : (splitBlanks cs).2 with
    | nil =>
      rw [hsplit] at hstands
      rw [tokensFrom_nil hsplit, hhere]
      intro i t ht
      cases i with
      | zero =>
        cases ht
        exact ⟨[], .ending, by simpa [Tokens.kinds] using hstands⟩
      | succ i => cases ht
    | cons c rest =>
      rw [hsplit] at h hstands
      rw [hsplit, List.length_cons] at hblanks
      by_cases hc : c = '\n'
      · subst hc
        rw [tokensFrom_newline hsplit, hhere, Position.following_lineEnd]
        refine Placed.cons (.lineEnd rest) hstands ?_
        have hnext := ih rest.length hblanks h.lineEnd rfl
        rwa [List.getLast?_concat] at hnext
      · rw [tokensFrom_char hsplit hc, hhere]
        cases hread : Lexeme.read read.getLast? c rest with
        | error cause =>
          refine ⟨[], c :: rest, cause, _, rfl, ?_⟩
          rw [List.append_nil]
          exact ⟨.intro hc hread, complainsOf_of_read hread, hstands⟩
        | ok l =>
          have hrest := l.rest_length_lt
          rw [List.length_cons] at hrest
          refine Placed.cons (t := ⟨l.token, _⟩) (.lexeme hc hread) hstands ?_
          have hnext := ih l.rest.length (by omega) (h.lexeme hc hread) rfl
          rw [List.getLast?_concat] at hnext
          rwa [Position.following_filter]

/-- The position of every token of a script, the end included, is that of the text before the token
without the line ends that strings hold behind backslashes. It is exact where no such line end
stands before the token, so in particular where there is no backslash before a line end. A fault of
the scanner carries the position of the lexeme that it complains about in the same way. -/
theorem tokens_positions (script : String) :
    match tokens script with
    | .ok ts => ∀ (i : Nat) (t : PlacedToken), ts[i]? = some t → ∃ rest,
        BeginsWith (Tokens.kinds (ts.take i)) rest t.token ∧
          StandsAt script.toList (Tokens.kinds (ts.take i)) rest t.position
    | .error fault => ∃ read rest cause p, fault = .malformed cause p ∧
        Refused read rest cause ∧ cause.ComplainsOf rest ∧
          StandsAt script.toList read rest p := by
  have hstart : Scanned script.toList [] ([] ++ (splitBlanks script.toList).1)
      ([] ++ (splitBlanks script.toList).1) (splitBlanks script.toList).2 := .start
  have hplaced : Placed script.toList [] (tokens script) := tokensFrom_placed hstart
  cases htokens : tokens script with
  | error fault =>
    rw [htokens] at hplaced
    exact hplaced
  | ok ts =>
    rw [htokens] at hplaced
    exact hplaced

/-- The name after a string with a line end stands in the second line, but its position is in the
first one, and so is that of the end of the script. -/
theorem position_after_escaped_lineEnd :
    tokens "\"a\\\nb\" c" = .ok [⟨.string "a\nb", ⟨1, 1⟩⟩, ⟨.name "c", ⟨1, 7⟩⟩,
        ⟨.endOfScript, ⟨1, 8⟩⟩] ∧
      Position.following "\"a\\\nb\" ".toList = ⟨2, 4⟩ ∧
      Position.following "\"a\\\nb\" c".toList = ⟨2, 5⟩ := by
  decide +kernel

end DawScript
