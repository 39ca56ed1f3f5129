import DawScript.Proofs.ProgramPhrase
import DawScript.Proofs.Scanning

/-!
# Scripts one after the other

No lexeme reaches beyond a line end, so a text that ends with one is read in the same way whatever
comes after it (`scans_lineEnd`). A script after a script that ends with a line end is therefore
read as the chains of the first script and then those of the second (`parse_append`).
-/

set_option autoImplicit false

namespace DawScript

/-! ## Lexemes before a line end -/

namespace Lexeme

variable {previous : Option Token}

section Split

variable {p : Char → Bool} (hp : p '\n' = false) (cs ds : List Char)

include hp

theorem takeWhile_lineEnd : (cs ++ '\n' :: ds).takeWhile p = cs.takeWhile p := by
  induction cs with
  | nil => simp [hp]
  | cons c cs ih =>
    rw [List.cons_append, List.takeWhile_cons, List.takeWhile_cons, ih]

theorem dropWhile_lineEnd : (cs ++ '\n' :: ds).dropWhile p = cs.dropWhile p ++ '\n' :: ds := by
  induction cs with
  | nil => simp [hp]
  | cons c cs ih =>
    rw [List.cons_append, List.dropWhile_cons, List.dropWhile_cons]
    split
    · exact ih
    · rfl

end Split

/-- Whether a comment begins a text. -/
def beginsComment (cs : List Char) : Bool := cs.head? == some '#' || cs.take 2 == ['/', '/']

theorem splitComment_eq (cs : List Char) :
    splitComment cs =
      if beginsComment cs then (cs.takeWhile (· != '\n'), cs.dropWhile (· != '\n'))
      else ([], cs) := by
  unfold splitComment
  split
  · rfl
  · rfl
  · next hhash hslash =>
    have hnone : beginsComment cs = false := by
      match cs with
      | [] => rfl
      | [c] => simpa [beginsComment] using fun h => hhash [] (by rw [h])
      | c :: d :: more =>
        simp only [beginsComment, List.head?_cons, List.take_succ_cons, List.take_zero,
          Bool.or_eq_false_iff, beq_eq_false_iff_ne]
        refine ⟨fun h => ?_, fun h => ?_⟩
        · cases h
          exact hhash (d :: more) rfl
        · cases h
          exact hslash more rfl
    rw [hnone]
    rfl

theorem splitComment_lineEnd (cs ds : List Char) : splitComment (cs ++ '\n' :: ds) =
    ((splitComment cs).1, (splitComment cs).2 ++ '\n' :: ds) := by
  have hbegins : beginsComment (cs ++ '\n' :: ds) = beginsComment cs := by
    match cs with
    | [] => rfl
    | [c] => simp [beginsComment]
    | c :: d :: more => rfl
  have htake := takeWhile_lineEnd (p := fun c => c != '\n') rfl cs ds
  have hdrop := dropWhile_lineEnd (p := fun c => c != '\n') rfl cs ds
  rw [splitComment_eq, splitComment_eq, hbegins, htake, hdrop]
  split <;> rfl

/-- Blanks end before a line end. -/
theorem splitBlanks_lineEnd (cs ds : List Char) : splitBlanks (cs ++ '\n' :: ds) =
    ((splitBlanks cs).1, (splitBlanks cs).2 ++ '\n' :: ds) := by
  have hline : isSpace '\n' = false := rfl
  simp only [splitBlanks, takeWhile_lineEnd hline, dropWhile_lineEnd hline, splitComment_lineEnd]

theorem splitFraction_lineEnd (cs ds : List Char) : splitFraction (cs ++ '\n' :: ds) =
    ((splitFraction cs).1, (splitFraction cs).2 ++ '\n' :: ds) := by
  have hline : Char.isDigit '\n' = false := rfl
  match cs with
  | [] => rfl
  | [c] =>
    by_cases hdot : c = '.'
    · subst hdot
      rfl
    · simp [splitFraction, hdot]
  | c :: d :: more =>
    have htake := takeWhile_lineEnd hline (d :: more) ds
    have hdrop := dropWhile_lineEnd hline (d :: more) ds
    rw [List.cons_append] at htake hdrop
    by_cases hdot : c = '.'
    · subst hdot
      simp only [splitFraction, List.cons_append, htake, hdrop]
      split <;> rfl
    · simp [splitFraction, hdot]

/-- The token of a lexeme and the text after it. -/
def outcome {cs : List Char} (x : Except SyntaxFault (Lexeme cs)) :
    Except SyntaxFault (Token × List Char) :=
  x.map fun l => (l.token, l.rest)

/-- What is read of a text is read of it before a line end too. -/
def beforeLineEnd (x : Except SyntaxFault (Token × List Char)) (ds : List Char) :
    Except SyntaxFault (Token × List Char) :=
  x.map fun (t, rest) => (t, rest ++ '\n' :: ds)

theorem number_lineEnd {c : Char} {cs ds : List Char} (h : startsNumber (c :: cs) = true)
    (h' : startsNumber (c :: (cs ++ '\n' :: ds)) = true) :
    outcome (number (c :: (cs ++ '\n' :: ds)) h') =
      beforeLineEnd (outcome (number (c :: cs) h)) ds := by
  have hline : Char.isDigit '\n' = false := rfl
  have htake := takeWhile_lineEnd hline (c :: cs) ds
  have hdrop := dropWhile_lineEnd hline (c :: cs) ds
  rw [List.cons_append] at htake hdrop
  simp only [number, htake, hdrop, splitFraction_lineEnd]
  cases numberToken _ _ <;> rfl

theorem integer_lineEnd {c : Char} (cs ds : List Char) (h : c.isDigit = true) :
    outcome (integer c (cs ++ '\n' :: ds) h) = beforeLineEnd (outcome (integer c cs h)) ds := by
  have hline : Char.isDigit '\n' = false := rfl
  have htake := takeWhile_lineEnd hline (c :: cs) ds
  have hdrop := dropWhile_lineEnd hline (c :: cs) ds
  rw [List.cons_append] at htake hdrop
  simp only [integer, htake, hdrop]
  cases numberToken _ _ <;> rfl

theorem word_lineEnd {c : Char} (cs ds : List Char) (h : Text.startsName c = true) :
    outcome (.ok (word c (cs ++ '\n' :: ds) h)) =
      beforeLineEnd (outcome (.ok (word c cs h))) ds := by
  have hline : Text.continuesName '\n' = false := not_continuesName_of_mem (by decide)
  have htake := takeWhile_lineEnd hline (c :: cs) ds
  have hdrop := dropWhile_lineEnd hline (c :: cs) ds
  rw [List.cons_append] at htake hdrop
  simp only [outcome, beforeLineEnd, word, Except.map, htake, hdrop]

theorem sign?_lineEnd (c : Char) (cs ds : List Char) :
    (sign? c (cs ++ '\n' :: ds)).map (fun l => (l.token, l.rest)) =
      (sign? c cs).map fun l => (l.token, l.rest ++ '\n' :: ds) := by
  cases cs with
  | nil =>
    -- no sign of two characters has a line end in it
    have hpair : pairToken? c '\n' = none := by
      unfold pairToken?
      split <;> first | rfl | next heq => cases heq
    simp only [sign?, List.nil_append, hpair]
    cases charToken? c <;> rfl
  | cons d more =>
    simp only [sign?, List.cons_append]
    cases pairToken? c d with
    | some t => rfl
    | none => cases charToken? c <;> rfl

/-- All lexemes but strings are read before a line end as they are read before the end of the
text. -/
theorem read_lineEnd (previous : Option Token) {c : Char} (hc : ¬ (c = '"' ∨ c = '\''))
    (cs ds : List Char) :
    outcome (read previous c (cs ++ '\n' :: ds)) =
      beforeLineEnd (outcome (read previous c cs)) ds := by
  have hdigit (cs : List Char) : startsWithDigit (cs ++ '\n' :: ds) = startsWithDigit cs := by
    cases cs <;> rfl
  have hnumber : startsNumber (c :: (cs ++ '\n' :: ds)) = startsNumber (c :: cs) := by
    by_cases hdot : c = '.'
    · subst hdot
      exact hdigit cs
    · unfold startsNumber
      split
      · next heq => exact absurd (List.cons.inj heq).1 hdot
      · split
        · next heq => exact absurd (List.cons.inj heq).1 hdot
        · rfl
  simp only [read, if_neg hc]
  by_cases hstarts : startsNumber (c :: cs) = true ∧ (c = '.' → endsValue previous = false)
  · have hstarts' := hstarts
    rw [← hnumber] at hstarts'
    rw [dif_pos hstarts, dif_pos hstarts']
    by_cases hposition : c.isDigit = true ∧ previous = some .dot
    · rw [dif_pos hposition, dif_pos hposition]
      exact integer_lineEnd cs ds hposition.1
    · rw [dif_neg hposition, dif_neg hposition]
      exact number_lineEnd hstarts.1 hstarts'.1
  · have hstarts' := hstarts
    rw [← hnumber] at hstarts'
    rw [dif_neg hstarts, dif_neg hstarts']
    by_cases hword : Text.startsName c = true
    · rw [dif_pos hword, dif_pos hword]
      exact word_lineEnd cs ds hword
    · rw [dif_neg hword, dif_neg hword]
      have hsign := sign?_lineEnd c cs ds
      cases h : sign? c cs with
      | none =>
        rw [h, Option.map_none, Option.map_eq_none_iff] at hsign
        rw [hsign]
        rfl
      | some l =>
        rw [h] at hsign
        obtain ⟨l', hl', heq⟩ := Option.map_eq_some_iff.1 hsign
        rw [hl']
        exact congrArg Except.ok heq

/-- A string that is closed is closed whatever comes after it. -/
theorem stringTail?_append {quote : Char} {cs : List Char} {tail : StringTail cs}
    (h : stringTail? quote cs = some tail) (ds : List Char) :
    ∃ longer, stringTail? quote (cs ++ ds) = some longer ∧ longer.content = tail.content ∧
      longer.rest = tail.rest ++ ds := by
  fun_induction stringTail? quote cs with
  | case1 => cases h
  | case2 cs =>
    cases h
    refine ⟨⟨[], [quote], cs ++ ds, rfl⟩, ?_, rfl, rfl⟩
    change stringTail? quote (quote :: (cs ++ ds)) = some _
    rw [stringTail?.eq_def]
    simp
  | case3 => cases h
  | case4 => cases h
  | case5 e more hquote hline ih =>
    obtain ⟨tail', htail', rfl⟩ := Option.map_eq_some_iff.1 h
    obtain ⟨longer, hlonger, hcontent, hrest⟩ := ih htail'
    refine ⟨⟨unescaped e :: longer.content, '\\' :: e :: longer.text, longer.rest,
      by simp [longer.split]⟩, ?_, by simp only [hcontent], hrest⟩
    change stringTail? quote ('\\' :: e :: (more ++ ds)) = some _
    rw [stringTail?.eq_def]
    simp [hquote, hlonger]
  | case6 c cs hquote hline hescape ih =>
    obtain ⟨tail', htail', rfl⟩ := Option.map_eq_some_iff.1 h
    obtain ⟨longer, hlonger, hcontent, hrest⟩ := ih htail'
    refine ⟨⟨c :: longer.content, c :: longer.text, longer.rest, by simp [longer.split]⟩, ?_,
      by simp only [hcontent], hrest⟩
    change stringTail? quote (c :: (cs ++ ds)) = some _
    rw [stringTail?.eq_def]
    simp [hquote, hline, hescape, hlonger]

theorem stringTail?_text {quote : Char} {cs : List Char} {tail : StringTail cs}
    (h : stringTail? quote cs = some tail) : ∃ text, tail.text = text ++ [quote] := by
  fun_induction stringTail? quote cs with
  | case1 | case3 | case4 => cases h
  | case2 cs =>
    cases h
    exact ⟨[], rfl⟩
  | case5 e more hquote hline ih =>
    obtain ⟨tail', htail', rfl⟩ := Option.map_eq_some_iff.1 h
    obtain ⟨text, htext⟩ := ih htail'
    exact ⟨'\\' :: e :: text, by simp only [htext, List.cons_append]⟩
  | case6 c cs hquote hline hescape ih =>
    obtain ⟨tail', htail', rfl⟩ := Option.map_eq_some_iff.1 h
    obtain ⟨text, htext⟩ := ih htail'
    exact ⟨c :: text, by simp only [htext, List.cons_append]⟩

/-- A lexeme that is read in a text with a line end at its end leaves the line end, and it is read
in the same way whatever comes after the line end. -/
theorem read_of_lineEnd {c : Char} {cs : List Char} {l : Lexeme (c :: (cs ++ ['\n']))}
    (h : read previous c (cs ++ ['\n']) = .ok l) : ∃ rest, l.rest = rest ++ ['\n'] ∧
      ∀ ds, ∃ l', read previous c (cs ++ '\n' :: ds) = .ok l' ∧ l'.token = l.token ∧
        l'.rest = rest ++ '\n' :: ds := by
  by_cases hc : c = '"' ∨ c = '\''
  · have hne : c ≠ '\n' := by rcases hc with rfl | rfl <;> decide
    simp only [read, if_pos hc] at h ⊢
    cases htail : stringTail? c (cs ++ ['\n']) with
    | none => simp only [string, htail, reduceCtorEq] at h
    | some tail =>
      simp only [string, htail, Except.ok.injEq] at h
      subst h
      -- a string ends with its quote, so the line end comes after it
      obtain ⟨text, htext⟩ := stringTail?_text htail
      have hsplit := tail.split
      rw [htext] at hsplit
      obtain ⟨rest, hrest⟩ : ∃ rest, tail.rest = rest ++ ['\n'] := by
        rcases List.eq_nil_or_concat' tail.rest with hnil | ⟨rest, d, hd⟩
        · rw [hnil, List.append_nil] at hsplit
          exact absurd (List.append_inj' hsplit rfl).2 (by simpa using hne)
        · rw [hd, ← List.append_assoc] at hsplit
          have hlast := (List.append_inj' hsplit rfl).2
          exact ⟨rest, by rw [hd, hlast]⟩
      refine ⟨rest, hrest, ?_⟩
      intro ds
      obtain ⟨longer, hlonger, hcontent, hrest'⟩ :
          ∃ longer, stringTail? c (cs ++ '\n' :: ds) = some longer ∧
            longer.content = tail.content ∧ longer.rest = tail.rest ++ ds := by
        rw [List.append_cons]
        exact stringTail?_append htail ds
      simp only [string, hlonger]
      refine ⟨_, rfl, by rw [hcontent], ?_⟩
      exact hrest'.trans (by rw [hrest, List.append_assoc]; rfl)
  · -- what was read before the end of the text determines what is read before any line end
    have hend := read_lineEnd previous hc cs []
    rw [h] at hend
    cases hread : read previous c cs with
    | error fault =>
      rw [hread] at hend
      cases hend
    | ok l₀ =>
      rw [hread] at hend
      obtain ⟨htoken, hrest⟩ := Prod.mk.inj (Except.ok.inj hend)
      refine ⟨l₀.rest, hrest, ?_⟩
      intro ds
      have hall := read_lineEnd previous hc cs ds
      rw [hread] at hall
      cases hread' : read previous c (cs ++ '\n' :: ds) with
      | error fault =>
        rw [hread'] at hall
        cases hall
      | ok l' =>
        rw [hread'] at hall
        obtain ⟨htoken', hrest'⟩ := Prod.mk.inj (Except.ok.inj hall)
        exact ⟨l', rfl, htoken'.trans htoken.symm, hrest'⟩

end Lexeme

/-! ## Tokens before a line end -/

open Lexeme

theorem kinds_of_map {t : PlacedToken} {x : Except Fault Tokens} {ts : Tokens}
    (h : x.map (t :: ·) = .ok ts) : ∃ others, x = .ok others ∧ ts = t :: others := by
  cases x with
  | error fault => cases h
  | ok others =>
    cases h
    exact ⟨others, rfl, rfl⟩

/-- A text that ends with a line end is read in the same way whatever comes after it. -/
theorem scans_lineEnd {previous : Option Token} {p : Position} {cs : List Char} {ts : Tokens}
    (h : tokensFrom previous p (cs ++ ['\n']) = .ok ts) :
    ∃ w, ts.kinds = w ++ [.newline, .endOfScript] ∧
      ∀ ds, Scans previous (cs ++ '\n' :: ds) (w ++ [.newline]) (some .newline) ds := by
  -- one token after the other, the last of which is the line end
  induction hm : cs.length using Nat.strongRecOn generalizing previous p cs ts with
  | ind m ih =>
    subst hm
    have hblanks := splitBlanks_length_le cs
    have hsplit (ds : List Char) : (splitBlanks (cs ++ '\n' :: ds)).2 =
        (splitBlanks cs).2 ++ '\n' :: ds := by rw [splitBlanks_lineEnd]
    cases hrest : (splitBlanks cs).2 with
    | nil =>
      rw [hrest] at hsplit
      rw [tokensFrom_newline (hsplit [])] at h
      obtain ⟨others, hothers, rfl⟩ := kinds_of_map h
      rw [tokensFrom_nil rfl] at hothers
      cases hothers
      exact ⟨[], rfl, fun ds => Scans.lineEnd_of_blanks (hsplit ds)⟩
    | cons c more =>
      simp only [hrest, List.cons_append] at hsplit
      rw [hrest, List.length_cons] at hblanks
      by_cases hc : c = '\n'
      · subst hc
        rw [tokensFrom_newline (hsplit [])] at h
        obtain ⟨others, hothers, rfl⟩ := kinds_of_map h
        obtain ⟨w, hw, hscans⟩ := ih more.length hblanks hothers rfl
        refine ⟨.newline :: w, by rw [Tokens.kinds_cons, hw]; rfl, ?_⟩
        intro ds
        exact (Scans.lineEnd_of_blanks (hsplit ds)).trans (hscans ds)
      · rw [tokensFrom_char (hsplit []) hc] at h
        cases hread : Lexeme.read previous c (more ++ ['\n']) with
        | error cause =>
          rw [hread] at h
          cases h
        | ok l =>
          rw [hread] at h
          obtain ⟨others, hothers, rfl⟩ := kinds_of_map h
          obtain ⟨rest, hl, hall⟩ := read_of_lineEnd hread
          have hshorter := l.rest_length_lt
          simp only [hl, List.length_cons, List.length_append, List.length_nil] at hshorter
          rw [hl] at hothers
          obtain ⟨w, hw, hscans⟩ := ih rest.length (by omega) hothers rfl
          refine ⟨l.token :: w, by rw [Tokens.kinds_cons, hw]; rfl, ?_⟩
          intro ds
          obtain ⟨l', hread', htoken, hrest'⟩ := hall ds
          have hscan := Scans.lexeme_of_blanks (hsplit ds) hc hread'
          rw [htoken, hrest'] at hscan
          exact hscan.trans (hscans ds)

/-- The kinds of tokens do not depend on where a text stands, and on the token before it only as
far as that decides what the first lexeme is. -/
theorem kinds_tokensFrom {previous previous' : Option Token} {p : Position} {cs : List Char}
    {ts : Tokens} (hread : ∀ c rest, Lexeme.read previous c rest = Lexeme.read previous' c rest)
    (h : tokensFrom previous p cs = .ok ts) (q : Position) :
    ∃ us, tokensFrom previous' q cs = .ok us ∧ Tokens.kinds us = ts.kinds := by
  induction hm : cs.length using Nat.strongRecOn generalizing previous previous' p q cs ts with
  | ind m ih =>
    subst hm
    have hblanks := splitBlanks_length_le cs
    cases hrest : (splitBlanks cs).2 with
    | nil =>
      rw [tokensFrom_nil hrest] at h ⊢
      cases h
      exact ⟨_, rfl, rfl⟩
    | cons c more =>
      rw [hrest, List.length_cons] at hblanks
      by_cases hc : c = '\n'
      · subst hc
        rw [tokensFrom_newline hrest] at h ⊢
        obtain ⟨others, hothers, rfl⟩ := kinds_of_map h
        obtain ⟨us, hus, hkinds⟩ := ih more.length hblanks (fun _ _ => rfl) hothers
          (q.after (splitBlanks cs).1).nextLine rfl
        refine ⟨_, by rw [hus]; rfl, ?_⟩
        rw [Tokens.kinds_cons, Tokens.kinds_cons, hkinds]
      · rw [tokensFrom_char hrest hc] at h ⊢
        rw [← hread]
        cases hl : Lexeme.read previous c more with
        | error cause =>
          rw [hl] at h
          cases h
        | ok l =>
          rw [hl] at h
          obtain ⟨others, hothers, rfl⟩ := kinds_of_map h
          have hshorter := l.rest_length_lt
          rw [List.length_cons] at hshorter
          obtain ⟨us, hus, hkinds⟩ := ih l.rest.length (by omega) (fun _ _ => rfl) hothers
            ((q.after (splitBlanks cs).1).after l.text) rfl
          refine ⟨_, by simp only [hus]; rfl, ?_⟩
          rw [Tokens.kinds_cons, Tokens.kinds_cons, hkinds]

/-- A text after a line end is read like one at the beginning of a script. -/
theorem read_newline (c : Char) (cs : List Char) :
    Lexeme.read none c cs = Lexeme.read (some .newline) c cs := by
  simp only [Lexeme.read, endsValue, reduceCtorEq, Option.some.injEq]

/-! ## Programs one after the other -/

/-- A group ends with its closing token. -/
theorem Phrase.ends_close {n : Nonterminal} {w : List Token} {x : n.Meaning} (h : Phrase n w x)
    {g : Group} (hn : n = .group g) : ∃ v, w = v ++ [g.close] := by
  induction h with
  | closed g' k =>
    cases hn
    exact ⟨lineEnds k, rfl⟩
  | last g' j k _ _ =>
    cases hn
    exact ⟨_, rfl⟩
  | @next g' j k u _ _ _ _ _ _ ih =>
    cases hn
    obtain ⟨v, rfl⟩ := ih rfl
    refine ⟨lineEnds j ++ u ++ lineEnds k ++ .comma :: v, ?_⟩
    simp only [List.append_assoc, List.cons_append]
  | _ => cases hn

theorem CallPhrase.ends {w : List Token} {c : Call} (h : CallPhrase w c) :
    ∃ v, w = v ++ [.rightParen] := by
  obtain ⟨j, k, s, hgroup⟩ := h
  obtain ⟨v, rfl⟩ := hgroup.ends_close rfl
  refine ⟨lineEnds j ++ .name s :: (lineEnds k ++ .leftParen :: v), ?_⟩
  simp only [List.append_assoc, List.cons_append, Group.close]

theorem ChainPhrase.ends {w : List Token} {cs : List Call} (h : ChainPhrase w cs) :
    ∃ v, w = v ++ [.rightParen] := by
  induction h with
  | one hcall => exact hcall.ends
  | @point k v _ _ _ _ _ ih =>
    obtain ⟨u, rfl⟩ := ih
    refine ⟨v ++ (lineEnds k ++ .dot :: u), ?_⟩
    simp only [List.append_assoc, List.cons_append]

theorem lineEnds_append_derives (j : Nat) {w : List Token} {p : Program}
    (h : Program.Derives w p) : Program.Derives (lineEnds j ++ w) p := by
  cases h with
  | empty k =>
    rw [← List.append_assoc, Grammar.lineEnds_append]
    exact .empty _
  | chains k hchains =>
    rw [← List.append_assoc, Grammar.lineEnds_append]
    exact .chains _ hchains

/-- Behind a chain and a line end there is room for a whole program. -/
theorem ChainPhrase.followed {v z : List Token} {cs : List Call} {q : Program}
    (h : ChainPhrase v cs) (hq : Program.Derives z q) (j : Nat) :
    ChainsPhrase (v ++ (lineEnds (j + 1) ++ z)) (⟨cs⟩ :: q.chains) := by
  cases hq with
  | empty k =>
    rw [← List.append_assoc (lineEnds _), Grammar.lineEnds_append]
    exact .last _ h
  | chains k hchains =>
    rw [← List.append_assoc (lineEnds _), Grammar.lineEnds_append, Nat.add_right_comm]
    exact .next _ h hchains

/-- The end of the script after chains can be replaced by a line end and a whole program. -/
theorem ChainsPhrase.followed {w : List Token} {cs : List Chain} (h : ChainsPhrase w cs) :
    ∃ v k, w = v ++ .rightParen :: (lineEnds k ++ [.endOfScript]) ∧
      ∀ {z : List Token} {q : Program}, Program.Derives z q → ∀ j,
        ChainsPhrase (v ++ .rightParen :: (lineEnds (j + 1) ++ z)) (cs ++ q.chains) := by
  induction h with
  | last k hchain =>
    obtain ⟨v, rfl⟩ := hchain.ends
    refine ⟨v, k, by rw [List.append_assoc]; rfl, ?_⟩
    intro z q hq j
    have hall := hchain.followed hq j
    rwa [List.append_assoc] at hall
  | @next m u _ _ _ hchain _ ih =>
    obtain ⟨v, k, rfl, hfollowed⟩ := ih
    refine ⟨u ++ (lineEnds (m + 1) ++ v), k, by simp only [List.append_assoc], ?_⟩
    intro z q hq j
    have hall := ChainsPhrase.next m hchain (hfollowed hq j)
    simpa only [List.append_assoc, List.cons_append] using hall

/-- A program whose word ends with a line end can be followed by another program. -/
theorem Program.Derives.append {w z : List Token} {p q : Program}
    (hp : Program.Derives (w ++ [.newline, .endOfScript]) p) (hq : Program.Derives z q) :
    Program.Derives (w ++ .newline :: z) ⟨p.chains ++ q.chains⟩ := by
  have hlast {u : List Token} (h : w ++ [.newline, .endOfScript] = u ++ [.endOfScript]) :
      u = w ++ [.newline] := by
    rw [List.append_cons] at h
    exact (List.append_inj' h rfl).1.symm
  generalize hword : w ++ [Token.newline, .endOfScript] = word at hp
  cases hp with
  | empty k =>
    have hk := hlast hword
    rw [List.append_cons, ← hk]
    exact lineEnds_append_derives k hq
  | chains k hchains =>
    obtain ⟨v, m, rfl, hfollowed⟩ := hchains.followed
    have hu := hlast (u := lineEnds k ++ (v ++ .rightParen :: lineEnds m))
      (by rw [hword]; simp only [List.append_assoc, List.cons_append])
    cases m with
    | zero =>
      -- the last chain ends with a parenthesis, which is no line end
      have hparen : lineEnds k ++ v ++ [Token.rightParen] = w ++ [.newline] := by
        rw [List.append_assoc]
        exact hu
      cases (List.append_inj' hparen rfl).2
    | succ m =>
      have hall := Program.Derives.chains k (hfollowed hq m)
      have hline : lineEnds k ++ (v ++ .rightParen :: (lineEnds (m + 1) ++ z)) =
          w ++ [.newline] ++ z := by
        rw [← hu]
        simp only [List.append_assoc, List.cons_append]
      rwa [hline, ← List.append_cons] at hall

theorem parse_eq_ok {s : String} {p : Program} (h : Program.parse s = .ok p) :
    ∃ ts, tokens s = .ok ts ∧ Program.Derives (Tokens.kinds ts) p := by
  rw [Program.parse] at h
  cases hts : tokens s with
  | error fault =>
    rw [hts] at h
    cases h
  | ok ts =>
    rw [hts] at h
    exact ⟨ts, rfl, derives_of_ofTokens (tokens_ended hts) h⟩

/-- A script that ends with a line end and a script after it are read together as the chains of the
first and then those of the second. -/
theorem parse_append {s t : String} {p q : Program} (hend : s.toList.getLast? = some '\n')
    (hs : Program.parse s = .ok p) (ht : Program.parse t = .ok q) :
    Program.parse (s ++ t) = .ok ⟨p.chains ++ q.chains⟩ ∧
      (Program.parse (s ++ t)).map Program.calls = .ok (p.calls ++ q.calls) := by
  obtain ⟨cs, hcs⟩ := List.getLast?_eq_some_iff.1 hend
  obtain ⟨ts, hts, hp⟩ := parse_eq_ok hs
  obtain ⟨us, hus, hq⟩ := parse_eq_ok ht
  rw [tokens, hcs] at hts
  obtain ⟨w, hw, hscans⟩ := scans_lineEnd hts
  obtain ⟨place, hscan⟩ := hscans t.toList .start
  obtain ⟨vs, hvs, hkinds⟩ := kinds_tokensFrom read_newline hus place
  -- the tokens of both together are those of the first up to its end, and then all of the second
  have htokens : (tokens (s ++ t)).map Tokens.kinds = .ok (w ++ .newline :: Tokens.kinds us) := by
    rw [tokens, String.toList_append, hcs, List.append_assoc, List.singleton_append, hscan, hvs,
      ← hkinds]
    exact congrArg Except.ok (List.append_cons _ _ _).symm
  have hparse : Program.parse (s ++ t) = .ok ⟨p.chains ++ q.chains⟩ := by
    rw [Program.parse]
    cases hall : tokens (s ++ t) with
    | error fault =>
      rw [hall] at htokens
      cases htokens
    | ok all =>
      rw [hall] at htokens
      rw [hw] at hp
      exact (hp.append hq).ofTokens (Except.ok.inj htokens)
  refine ⟨hparse, ?_⟩
  rw [hparse]
  exact congrArg Except.ok List.flatMap_append

/-- The first script ends in a comment that holds a point and a quote, and an empty line stands
before the second. -/
theorem parse_append_comment : ∃ p q,
    Program.parse "track('a')\n.mute() // 1. \"\n" = .ok p ∧ Program.parse "\n pan(to=-1)" = .ok q ∧
      Program.parse ("track('a')\n.mute() // 1. \"\n" ++ "\n pan(to=-1)") =
        .ok ⟨p.chains ++ q.chains⟩ ∧
      p.calls.map Call.text = ["track(\"a\")", "mute()"] ∧
      q.calls.map Call.text = ["pan(to=-1)"] := by
  have htexts (s : String) (texts : List String)
      (h : (Program.parse s).map (fun p => p.calls.map Call.text) = .ok texts) :
      ∃ p, Program.parse s = .ok p ∧ p.calls.map Call.text = texts := by
    cases hs : Program.parse s with
    | error fault =>
      rw [hs] at h
      cases h
    | ok p =>
      rw [hs] at h
      exact ⟨p, rfl, Except.ok.inj h⟩
  obtain ⟨p, hp, hptexts⟩ := htexts "track('a')\n.mute() // 1. \"\n" ["track(\"a\")", "mute()"]
    (by decide +kernel)
  obtain ⟨q, hq, hqtexts⟩ := htexts "\n pan(to=-1)" ["pan(to=-1)"] (by decide +kernel)
  exact ⟨p, q, hp, hq, (parse_append (by decide) hp hq).1, hptexts, hqtexts⟩

end DawScript
