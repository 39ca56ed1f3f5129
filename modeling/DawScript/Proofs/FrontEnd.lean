import DawScript.Proofs.CheckedGrammar
import DawScript.Proofs.CheckedLexing
import DawScript.Proofs.ProgramPhrase

/-!
# The front end

Lexing and parsing one after the other, with every check made. The main result (`front_end_total`)
is that no script ends in a misstep: each is a program or has a fault of its text. How deep calls
may nest is not limited here.
-/

set_option autoImplicit false

namespace DawScript

/-! ## Digits -/

namespace Lexeme

/-- The fraction that digits at the beginning of a text have; after a point they have none. -/
def fraction (previous : Option Token) (cs : List Char) : List Char :=
  if previous = some .dot then [] else (splitFraction (cs.dropWhile Char.isDigit)).1

/-- A digit begins the number that its run of digits and their fraction make. -/
theorem read_digit (previous : Option Token) {c : Char} (hc : c.isDigit = true)
    (rest : List Char) : ∃ f : Token → Lexeme (c :: rest), read previous c rest =
      (numberToken ((c :: rest).takeWhile Char.isDigit) (fraction previous (c :: rest))).map f := by
  rw [read, if_neg (visible_of_isDigit hc).1.quote, dif_pos (startsNumber_of_isDigit hc), fraction]
  by_cases hprevious : previous = some .dot
  · rw [dif_pos ⟨hc, hprevious⟩, if_pos hprevious]
    exact ⟨_, rfl⟩
  · rw [dif_neg fun h => hprevious h.2, if_neg hprevious]
    exact ⟨_, rfl⟩

theorem numberToken_eq_error_iff {whole fraction : List Char} {cause : SyntaxFault} :
    numberToken whole fraction = .error cause ↔
      fraction = [] ∧ wordLimit ≤ (Decimal.natOfDigits whole : Int) ∧
        cause = .integerTooLarge (String.ofList whole) := by
  cases fraction with
  | nil =>
    have hnonneg : -wordLimit ≤ (Decimal.natOfDigits whole : Int) := by
      unfold wordLimit
      omega
    have hfits : fitsWord (Decimal.natOfDigits whole) = true ↔
        (Decimal.natOfDigits whole : Int) < wordLimit :=
      fitsWord_iff.trans (and_iff_right hnonneg)
    simp only [numberToken]
    split
    · next h => simp [hfits.1 h]
    · next h => simp [not_lt.1 (mt hfits.2 h), eq_comm]
  | cons point digits => simp [numberToken]

/-- A run of digits without a fraction cannot be read if it is too large for a word, and any other
one can. -/
theorem read_digit_eq_error_iff {previous : Option Token} {c : Char} (hc : c.isDigit = true)
    {rest : List Char} {cause : SyntaxFault} :
    read previous c rest = .error cause ↔
      fraction previous (c :: rest) = [] ∧
        wordLimit ≤ (Decimal.natOfDigits ((c :: rest).takeWhile Char.isDigit) : Int) ∧
        cause = .integerTooLarge (String.ofList ((c :: rest).takeWhile Char.isDigit)) := by
  obtain ⟨f, hread⟩ := read_digit previous hc rest
  rw [hread, ← numberToken_eq_error_iff]
  cases numberToken ((c :: rest).takeWhile Char.isDigit) (fraction previous (c :: rest)) <;>
    simp [Except.map]

end Lexeme

/-! ## Tokens -/

/-- The tokens of a script can be read, and the integers among them are words, or the script has a
fault of its text. -/
theorem tokens_integersFit_or_malformed (script : String) :
    (∃ ts : Tokens, tokens script = .ok ts ∧ IntegersFit ts.kinds) ∨
      ∃ cause position, tokens script = .error (.malformed cause position) := by
  have hcons {t : PlacedToken} {ts : Tokens}
      (ht : ∀ n : Nat, t.token = .integer n → (n : Int) < wordLimit)
      (hts : IntegersFit ts.kinds) : IntegersFit (Tokens.kinds (t :: ts)) := by
    intro n hn
    rcases List.mem_cons.1 hn with hn | hn
    · exact ht n hn.symm
    · exact hts n hn
  refine tokensFrom_induction ?_ ?_ ?_ none .start script.toList
  · exact fun p n hn => nomatch List.mem_singleton.1 hn
  · exact fun p ts => hcons nofun
  · exact fun hread p ts => hcons fun n => Lexeme.read_integer hread

theorem tokens_integersFit {script : String} {ts : Tokens} (h : tokens script = .ok ts) :
    IntegersFit ts.kinds := by
  obtain ⟨us, hus, hfits⟩ | ⟨cause, position, herror⟩ := tokens_integersFit_or_malformed script
  · cases h.symm.trans hus
    exact hfits
  · cases h.symm.trans herror

theorem tokens_malformed {script : String} {fault : Fault} (h : tokens script = .error fault) :
    fault.Malformed := by
  obtain ⟨ts, hts, -⟩ | ⟨cause, position, herror⟩ := tokens_integersFit_or_malformed script
  · cases h.symm.trans hts
  · cases h.symm.trans herror
    exact ⟨cause, position, rfl⟩

/-! ## Expressions and programs -/

/-- Each integer in the arguments of a call can be negated. -/
def Call.Negatable (c : Call) : Prop := ∀ a ∈ c.arguments, a.value.Negatable

theorem CallPhrase.negatable {w : List Token} {c : Call} (h : CallPhrase w c)
    (hw : IntegersFit w) : c.Negatable := by
  obtain ⟨j, k, s, hgroup⟩ := h
  exact hgroup.negatable hw.right.tail.right.tail

theorem ChainPhrase.negatable {w : List Token} {cs : List Call} (h : ChainPhrase w cs)
    (hw : IntegersFit w) : ∀ c ∈ cs, c.Negatable := by
  induction h with
  | one hcall => exact List.forall_mem_singleton.2 (hcall.negatable hw)
  | point k hcall _ ih =>
    exact List.forall_mem_cons.2 ⟨hcall.negatable hw.left, ih hw.right.right.tail⟩

theorem ChainsPhrase.negatable {w : List Token} {chains : List Chain} (h : ChainsPhrase w chains)
    (hw : IntegersFit w) : ∀ chain ∈ chains, ∀ c ∈ chain.calls, c.Negatable := by
  induction h with
  | last k hchain => exact List.forall_mem_singleton.2 (hchain.negatable hw.left)
  | next k hchain _ ih =>
    exact List.forall_mem_cons.2 ⟨hchain.negatable hw.left, ih hw.right.right⟩

theorem Program.Derives.negatable {w : List Token} {p : Program} (h : Program.Derives w p)
    (hw : IntegersFit w) : ∀ c ∈ p.calls, c.Negatable := by
  intro c hc
  obtain ⟨chain, hchain, hmem⟩ := List.mem_flatMap.1 hc
  cases h with
  | empty k => cases hchain
  | chains k hphrase => exact hphrase.negatable hw.right chain hchain c hmem

namespace Parser

theorem At.of_lt {ts : Tokens} (hended : ts.Ended) {q : Nat} (hq : q < ts.length) :
    At ts q (ts.drop q) := by
  obtain ⟨v, hv, hend⟩ := hended
  refine ⟨rfl, Tokens.Ended.of_append ⟨v, hv, hend⟩ (w := Tokens.kinds (ts.take q)) ?_ ?_⟩
  · rw [Tokens.kinds, Tokens.kinds, Tokens.kinds, ← List.map_append, List.take_append_drop]
  · -- the end is the last token
    have hlength := congrArg List.length hv
    rw [Tokens.kinds, List.length_map, List.length_append, List.length_singleton] at hlength
    rw [Tokens.kinds, List.map_take, ← Tokens.kinds, hv, List.take_append_of_le_length (by omega)]
    exact fun hmem => hend (List.mem_of_mem_take hmem)

/-- Whatever the parser takes as an expression, at whatever place, has only integers that can be
negated. -/
theorem negatable_of_run_expr {ts : Tokens} (hended : ts.Ended) (hfits : IntegersFit ts.kinds)
    {q r : Nat} {e : Expr} (hq : q < ts.length) (h : (expr ts).run q = .ok (e, r)) :
    e.Negatable := by
  have hat := At.of_lt hended hq
  have hlength : (ts.drop q).length < ts.length + 1 := by
    rw [List.length_drop]
    omega
  have hagrees := agrees_expr hfits (ts.length + 1) (ts.length + 1) hlength hlength hat
  cases hread : Grammar.expr (ts.length + 1) (ts.drop q) hlength with
  | error fault =>
    rw [hread] at hagrees
    rw [hagrees.2] at h
    cases h
  | ok z =>
    rw [hread] at hagrees
    obtain ⟨s, hrun, -⟩ := hagrees
    rw [hrun] at h
    cases h
    obtain ⟨w, hw, hphrase⟩ := Grammar.expr_sound _ ⟨_, hread⟩
    have hrest := hat.integersFit hfits
    rw [hw] at hrest
    exact hphrase.negatable hrest.left

end Parser

/-! ## Scripts -/

/-- A script that cannot be read has a fault of its text. -/
theorem parse_malformed {script : String} {fault : Fault}
    (h : Program.parse script = .error fault) : fault.Malformed := by
  unfold Program.parse at h
  cases hts : tokens script with
  | error fault' =>
    rw [hts] at h
    cases h
    exact tokens_malformed hts
  | ok ts =>
    rw [hts] at h
    exact Parser.ofTokens_malformed (tokens_ended hts) (tokens_integersFit hts) h

namespace Checked

/-- The program of a script, with every check made. -/
def parse (script : String) : Except Stop Program := do
  let (ts, _) ← (lex script.toList).run ⟨0, .start⟩
  let (p, _) ← (Parser.program ts).run 0
  return p

/-- No check fails. -/
theorem parse_eq (script : String) : parse script = (Program.parse script).mapError .fault := by
  have hlex := run_lex script
  unfold parse Program.parse
  cases hrun : (lex script.toList).run ⟨0, .start⟩ with
  | error stop =>
    rw [hrun] at hlex
    cases hts : tokens script with
    | error fault =>
      rw [hts] at hlex
      cases hlex
      rfl
    | ok ts =>
      rw [hts] at hlex
      cases hlex
  | ok out =>
    rw [hrun] at hlex
    obtain ⟨ts, k⟩ := out
    cases hts : tokens script with
    | error fault =>
      rw [hts] at hlex
      cases hlex
    | ok us =>
      rw [hts] at hlex
      cases hlex
      have hprogram := Parser.run_program (tokens_ended hts) (tokens_integersFit hts)
      change (do
        let (p, _) ← (Parser.program ts).run 0
        return p) = (Program.ofTokens ts).mapError .fault
      rw [hprogram]
      cases Program.ofTokens ts <;> rfl

end Checked

/-- Every script is a program or has a fault of its text, and is read without a misstep. Its tokens
end with the end of the script and nowhere before, and the parser stops in front of it. Integer
tokens are words, and no integer in an expression is the least word. Digits cannot be read just if
they have no fraction and are too large for a word. -/
theorem front_end_total (script : String) :
    ((∃ p, Checked.parse script = .ok p) ∨
      ∃ cause position, Checked.parse script = .error (.fault (.malformed cause position))) ∧
    Checked.parse script = (Program.parse script).mapError .fault ∧
    (∀ ts : Tokens, tokens script = .ok ts →
      ts.Ended ∧ IntegersFit ts.kinds ∧
      (∀ p q, (Parser.program ts).run 0 = .ok (p, q) →
        q + 1 = ts.length ∧ ∀ call ∈ p.calls, ∀ a ∈ call.arguments, a.value.Negatable) ∧
      ∀ q e r, q < ts.length → (Parser.expr ts).run q = .ok (e, r) → e.Negatable) ∧
    ∀ (previous : Option Token) (c : Char) (rest : List Char) (cause : SyntaxFault),
      c.isDigit = true →
      (Lexeme.read previous c rest = .error cause ↔
        Lexeme.fraction previous (c :: rest) = [] ∧
          wordLimit ≤ (Decimal.natOfDigits ((c :: rest).takeWhile Char.isDigit) : Int) ∧
          cause = .integerTooLarge (String.ofList ((c :: rest).takeWhile Char.isDigit))) := by
  refine ⟨?_, Checked.parse_eq script, ?_, fun _ _ _ _ hc => Lexeme.read_digit_eq_error_iff hc⟩
  · rw [Checked.parse_eq]
    cases h : Program.parse script with
    | ok p => exact Or.inl ⟨p, rfl⟩
    | error fault =>
      obtain ⟨cause, position, rfl⟩ := parse_malformed h
      exact Or.inr ⟨cause, position, rfl⟩
  · intro ts hts
    have hended := tokens_ended hts
    have hfits := tokens_integersFit hts
    refine ⟨hended, hfits, ?_, fun q e r hq h => Parser.negatable_of_run_expr hended hfits hq h⟩
    intro p q h
    rw [Parser.run_program hended hfits] at h
    cases hread : Program.ofTokens ts with
    | error fault =>
      rw [hread] at h
      cases h
    | ok program =>
      rw [hread] at h
      cases h
      have hpos := List.length_pos_iff.2 hended.ne_nil
      exact ⟨by omega, (derives_of_ofTokens hended hread).negatable hfits⟩

end DawScript
