import DawScript.Proofs.TokenReading
import DawScript.Syntax.Lexeme

/-!
# Lists of tokens

The tokens of a text one by one, and where they end: with the token for the end of the script, which
stands nowhere else (`tokens_ended`).
-/

set_option autoImplicit false

namespace DawScript

/-- A list of tokens ends with the end of the script and has it nowhere else. -/
def Tokens.Ended (ts : Tokens) : Prop :=
  ∃ w, ts.kinds = w ++ [.endOfScript] ∧ Token.endOfScript ∉ w

namespace Tokens

theorem ended_single (position : Position) : Ended [⟨.endOfScript, position⟩] :=
  ⟨[], rfl, List.not_mem_nil⟩

theorem Ended.ne_nil {ts : Tokens} (h : Ended ts) : ts ≠ [] := by
  rintro rfl
  obtain ⟨w, hw, -⟩ := h
  exact absurd (congrArg List.length hw) (by simp [kinds])

theorem Ended.cons {ts : Tokens} (h : Ended ts) {t : PlacedToken} (ht : t.token ≠ .endOfScript) :
    Ended (t :: ts) := by
  obtain ⟨w, hw, hend⟩ := h
  refine ⟨t.token :: w, ?_, ?_⟩
  · rw [kinds_cons, hw]
    rfl
  · rw [List.mem_cons, not_or]
    exact ⟨ht.symm, hend⟩

/-- A word without the end of the script can be taken off the front. -/
theorem Ended.of_append {ts r : Tokens} (h : Ended ts) {w : List Token}
    (hts : ts.kinds = w ++ r.kinds) (hw : Token.endOfScript ∉ w) : Ended r := by
  obtain ⟨v, hv, hend⟩ := h
  rw [hts] at hv
  rcases List.append_eq_append_iff.1 hv with ⟨u, rfl, hu⟩ | ⟨u, rfl, hu⟩
  · exact ⟨u, hu, fun hmem => hend (List.mem_append_right _ hmem)⟩
  · -- the word would reach beyond the end of the script
    cases u with
    | nil => exact ⟨[], hu.symm, List.not_mem_nil⟩
    | cons t more =>
      obtain ⟨rfl, -⟩ := List.cons.inj hu
      exact absurd (List.mem_append_right _ List.mem_cons_self) hw

/-- Where the script ends, there is no other token. -/
theorem Ended.kinds_of_atEnd {ts : Tokens} (h : Ended ts) (hend : ts.atEnd = true) :
    ts.kinds = [.endOfScript] := by
  obtain ⟨w, hw, hmem⟩ := h
  cases w with
  | nil => exact hw
  | cons t more =>
    obtain ⟨position, rest, rfl, -⟩ := eq_cons_of_kinds hw
    -- it would stand in front of the last token
    have ht : t = .endOfScript := by simpa [atEnd, front] using hend
    exact absurd (ht ▸ List.mem_cons_self) hmem

end Tokens

namespace Lexeme

theorem numberToken_cases {whole fraction : List Char} {t : Token}
    (h : numberToken whole fraction = .ok t) :
    (∃ n : Nat, t = .integer n ∧ (n : Int) < wordLimit) ∨ ∃ x, t = .number x := by
  unfold numberToken at h
  split at h
  · simp only at h
    split at h <;> cases h
    next hfits => exact Or.inl ⟨_, rfl, (fitsWord_iff.1 hfits).2⟩
  · cases h
    exact Or.inr ⟨_, rfl⟩

theorem sign?_cases {c : Char} {cs : List Char} {l : Lexeme (c :: cs)}
    (h : sign? c cs = some l) :
    charToken? c = some l.token ∨ ∃ d, pairToken? c d = some l.token := by
  unfold sign? at h
  split at h
  · obtain ⟨t, ht, rfl⟩ := Option.map_eq_some_iff.1 h
    exact Or.inl ht
  · split at h
    · next ht =>
      cases h
      exact Or.inr ⟨_, ht⟩
    · obtain ⟨t, ht, rfl⟩ := Option.map_eq_some_iff.1 h
      exact Or.inl ht

/-- What a lexeme can be: a string, a number, a word, or a sign of one or two characters. -/
theorem read_cases {previous : Option Token} {c : Char} {cs : List Char} {l : Lexeme (c :: cs)}
    (h : read previous c cs = .ok l) :
    (∃ s, l.token = .string s) ∨
      ((∃ n : Nat, l.token = .integer n ∧ (n : Int) < wordLimit) ∨ ∃ x, l.token = .number x) ∨
      (∃ hstart, l = word c cs hstart) ∨
      charToken? c = some l.token ∨ ∃ d, pairToken? c d = some l.token := by
  have hnumber {whole fraction : List Char} {f : Token → Lexeme (c :: cs)}
      (hf : ∀ t, (f t).token = t) (hmap : (numberToken whole fraction).map f = .ok l) :
      (∃ n : Nat, l.token = .integer n ∧ (n : Int) < wordLimit) ∨ ∃ x, l.token = .number x := by
    cases ht : numberToken whole fraction with
    | error cause =>
      rw [ht] at hmap
      cases hmap
    | ok t =>
      rw [ht] at hmap
      cases hmap
      rw [hf]
      exact numberToken_cases ht
  -- the branches of the reader, in its order
  unfold read at h
  split at h
  · unfold string at h
    split at h <;> cases h
    exact Or.inl ⟨_, rfl⟩
  · split at h
    · split at h
      · exact Or.inr (Or.inl (hnumber (fun _ => rfl) h))
      · exact Or.inr (Or.inl (hnumber (fun _ => rfl) h))
    · split at h
      · next hstart =>
        cases h
        exact Or.inr (Or.inr (Or.inl ⟨hstart, rfl⟩))
      · split at h <;> cases h
        next hsign => exact Or.inr (Or.inr (Or.inr (sign?_cases hsign)))

/-- No sign is a name, an integer or the end of the script. -/
theorem sign_spec {c : Char} {t : Token}
    (h : charToken? c = some t ∨ ∃ d, pairToken? c d = some t) :
    t ≠ .endOfScript ∧ (∀ s, t ≠ .name s) ∧ ∀ n, t ≠ .integer n := by
  rcases h with h | ⟨d, h⟩
  · unfold charToken? at h
    split at h <;> cases h <;> exact ⟨nofun, nofun, nofun⟩
  · unfold pairToken? at h
    split at h <;> cases h <;> exact ⟨nofun, nofun, nofun⟩

/-- No lexeme is the end of the script. -/
theorem read_ne_end {previous : Option Token} {c : Char} {cs : List Char} {l : Lexeme (c :: cs)}
    (h : read previous c cs = .ok l) : l.token ≠ .endOfScript := by
  rcases read_cases h with ⟨s, hs⟩ | (⟨n, hn, -⟩ | ⟨x, hx⟩) | ⟨hstart, rfl⟩ | hsign
  · rw [hs]
    nofun
  · rw [hn]
    nofun
  · rw [hx]
    nofun
  · unfold word wordToken
    simp only
    split <;> nofun
  · exact (sign_spec hsign).1

/-- Only words are read as names. -/
theorem read_name {previous : Option Token} {c : Char} {cs : List Char} {l : Lexeme (c :: cs)}
    {s : String} (h : read previous c cs = .ok l) (ht : l.token = .name s) :
    ∃ hstart, l = word c cs hstart := by
  rcases read_cases h with ⟨s, hs⟩ | (⟨n, hn, -⟩ | ⟨x, hx⟩) | hword | hsign
  · rw [hs] at ht
    cases ht
  · rw [hn] at ht
    cases ht
  · rw [hx] at ht
    cases ht
  · exact hword
  · exact absurd ht ((sign_spec hsign).2.1 s)

/-- An integer that is read is a word. -/
theorem read_integer {previous : Option Token} {c : Char} {cs : List Char} {l : Lexeme (c :: cs)}
    {n : Nat} (h : read previous c cs = .ok l) (ht : l.token = .integer n) :
    (n : Int) < wordLimit := by
  rcases read_cases h with ⟨s, hs⟩ | (⟨m, hm, hlimit⟩ | ⟨x, hx⟩) | ⟨hstart, rfl⟩ | hsign
  · rw [hs] at ht
    cases ht
  · rw [hm] at ht
    cases ht
    exact hlimit
  · rw [hx] at ht
    cases ht
  · unfold word wordToken at ht
    simp only at ht
    split at ht <;> cases ht
  · exact absurd ht ((sign_spec hsign).2.2 n)

end Lexeme

/-! ## One token after the other -/

section Steps

variable {previous : Option Token} {p : Position} {cs : List Char}

theorem tokensFrom_nil (h : (Lexeme.splitBlanks cs).2 = []) :
    tokensFrom previous p cs = .ok [⟨.endOfScript, p.after (Lexeme.splitBlanks cs).1⟩] := by
  rw [tokensFrom]
  split
  · rfl
  · next heq =>
    rw [h] at heq
    cases heq

theorem tokensFrom_newline {rest : List Char} (h : (Lexeme.splitBlanks cs).2 = '\n' :: rest) :
    tokensFrom previous p cs =
      (tokensFrom (some .newline) (p.after (Lexeme.splitBlanks cs).1).nextLine rest).map
        (⟨.newline, p.after (Lexeme.splitBlanks cs).1⟩ :: ·) := by
  rw [tokensFrom]
  split
  · next heq =>
    rw [h] at heq
    cases heq
  · next heq =>
    rw [h] at heq
    cases heq
    rfl

theorem tokensFrom_char {c : Char} {rest : List Char} (h : (Lexeme.splitBlanks cs).2 = c :: rest)
    (hc : c ≠ '\n') :
    tokensFrom previous p cs = match Lexeme.read previous c rest with
      | .error cause => .error (.malformed cause (p.after (Lexeme.splitBlanks cs).1))
      | .ok l => (tokensFrom (some l.token)
          ((p.after (Lexeme.splitBlanks cs).1).after l.text) l.rest).map
            (⟨l.token, p.after (Lexeme.splitBlanks cs).1⟩ :: ·) := by
  rw [tokensFrom]
  split
  · next heq =>
    rw [h] at heq
    cases heq
  · next heq =>
    rw [h] at heq
    cases heq
    rw [if_neg hc]
    cases Lexeme.read previous c rest <;> rfl

end Steps

/-- Induction on the tokens of a text: its end, a line end, or a lexeme. A text without tokens has a
lexeme that cannot be read. -/
theorem tokensFrom_induction {P : Tokens → Prop}
    (nil : ∀ p, P [⟨.endOfScript, p⟩])
    (newline : ∀ p ts, P ts → P (⟨.newline, p⟩ :: ts))
    (lexeme : ∀ {previous : Option Token} {c : Char} {rest : List Char} {l : Lexeme (c :: rest)},
      Lexeme.read previous c rest = .ok l → ∀ p ts, P ts → P (⟨l.token, p⟩ :: ts))
    (previous : Option Token) (p : Position) (cs : List Char) :
    (∃ ts, tokensFrom previous p cs = .ok ts ∧ P ts) ∨
      ∃ cause position, tokensFrom previous p cs = .error (.malformed cause position) := by
  have hcons {t : PlacedToken} {x : Except Fault Tokens} (ht : ∀ ts, P ts → P (t :: ts))
      (hx : (∃ ts, x = .ok ts ∧ P ts) ∨ ∃ cause position, x = .error (.malformed cause position)) :
      (∃ ts, x.map (t :: ·) = .ok ts ∧ P ts) ∨
        ∃ cause position, x.map (t :: ·) = .error (.malformed cause position) := by
    obtain ⟨ts, rfl, hts⟩ | ⟨cause, position, rfl⟩ := hx
    · exact Or.inl ⟨t :: ts, rfl, ht ts hts⟩
    · exact Or.inr ⟨cause, position, rfl⟩
  -- every token leaves a shorter text
  induction hm : cs.length using Nat.strongRecOn generalizing previous p cs with
  | ind m ih =>
    subst hm
    have hblanks := Lexeme.splitBlanks_length_le cs
    cases hsplit : (Lexeme.splitBlanks cs).2 with
    | nil =>
      rw [tokensFrom_nil hsplit]
      exact Or.inl ⟨_, rfl, nil _⟩
    | cons c rest =>
      rw [hsplit, List.length_cons] at hblanks
      by_cases hc : c = '\n'
      · subst hc
        rw [tokensFrom_newline hsplit]
        exact hcons (newline _) (ih rest.length hblanks _ _ rest rfl)
      · rw [tokensFrom_char hsplit hc]
        cases hread : Lexeme.read previous c rest with
        | error cause => exact Or.inr ⟨cause, _, rfl⟩
        | ok l =>
          have hrest := l.rest_length_lt
          rw [List.length_cons] at hrest
          exact hcons (lexeme hread _) (ih l.rest.length (by omega) _ _ l.rest rfl)

theorem tokensFrom_ended {previous : Option Token} {p : Position} {cs : List Char} {ts : Tokens}
    (h : tokensFrom previous p cs = .ok ts) : ts.Ended := by
  obtain ⟨us, hus, hended⟩ | ⟨cause, position, herror⟩ :=
    tokensFrom_induction Tokens.ended_single (fun p us hus => hus.cons nofun)
      (fun hread p us hus => hus.cons (Lexeme.read_ne_end hread)) previous p cs
  · cases h.symm.trans hus
    exact hended
  · cases h.symm.trans herror

/-- The tokens of a script end with its end. -/
theorem tokens_ended {script : String} {ts : Tokens} (h : tokens script = .ok ts) : ts.Ended :=
  tokensFrom_ended h

end DawScript
