import DawScript.Proofs.TokenReading
import DawScript.Syntax.Grammar

/-!
# What readers accept is derived

Whatever a reader of expressions takes from a list of tokens, the grammar derives from the word
taken (`expr_sound`). Each rule is sound if the reader of its inner expressions is, and the bound
ties the knot.
-/

set_option autoImplicit false

namespace DawScript

/-- The word between a list of tokens and a rest of it is derived. -/
def Derived (n : Nonterminal) (ts r : Tokens) (x : n.Meaning) : Prop :=
  ∃ w, ts.kinds = w ++ r.kinds ∧ Phrase n w x

namespace Grammar

open Tokens

variable {n : Nat}

/-- A reader of inner expressions returns only what the grammar derives. -/
def Inner.Sound (inner : Inner n) : Prop :=
  ∀ ⦃ts : Tokens⦄ ⦃h : ts.length < n⦄ ⦃e : Expr⦄ ⦃r : Tokens⦄, Reads (inner ts h) e r →
    Derived (.expr .disjunction) ts r e

/-- A rule returns only what the grammar derives at a level. -/
def Rule.Sound (l : Level) (rule : Rule n) : Prop :=
  ∀ ⦃ts : Tokens⦄ ⦃h : ts.length ≤ n⦄ ⦃e : Expr⦄ ⦃r : Tokens⦄, Reads (rule ts h) e r →
    Derived (.expr l) ts r e

/-! ## Groups -/

/-- Elements up to the closing token are derived as a group if each of them is. -/
theorem elements_sound (g : Group)
    {element : (ts : Tokens) → ts.length < n → Reading g.Element ts}
    (helement : ∀ {ts h x r}, Reads (element ts h) x r → Derived (.element g) ts r x)
    {ts : Tokens} {h : ts.length < n} {xs : List g.Element} {r : Tokens}
    (hread : Reads (elements g.close element ts h) xs r) : Derived (.group g) ts r xs := by
  -- a comma leads to a shorter list of tokens
  induction hm : ts.length using Nat.strongRecOn generalizing ts xs r with
  | ind m ih =>
    subst hm
    rw [elements] at hread
    split at hread
    · next rest _ htake =>
      -- the group ends at once, or after a last comma
      obtain ⟨rfl, rfl⟩ := hread.of_ok
      obtain ⟨k, hk⟩ := kinds_of_take? htake
      refine ⟨lineEnds k ++ [g.close], ?_, .closed g k⟩
      rw [hk, List.append_assoc]
      rfl
    · obtain ⟨⟨first, after, hafter⟩, hfirst, hread⟩ := hread.of_bind
      obtain ⟨j, hj⟩ := kinds_skipNewlines ts
      have hskip := skipNewlines_length_le ts
      obtain ⟨v, hv, hphrase⟩ := helement ⟨_, hfirst⟩
      rw [hv] at hj
      simp only at hread
      split at hread
      · next rest hrest htake =>
        -- a comma, and the rest of the group
        obtain ⟨⟨others, more, _⟩, hothers, hread⟩ := hread.of_bind
        obtain ⟨rfl, rfl⟩ := hread.of_ok
        obtain ⟨k, hk⟩ := kinds_of_take? htake
        obtain ⟨w, hw, hgroup⟩ := ih rest.length (by omega) ⟨_, hothers⟩ rfl
        refine ⟨_, ?_, .next g j k hphrase hgroup⟩
        rw [hj, hk, hw]
        simp only [List.append_assoc, List.cons_append]
      · -- no comma, so the closing token is due
        obtain ⟨⟨rest, _⟩, hexpect, hread⟩ := hread.of_bind
        obtain ⟨rfl, rfl⟩ := hread.of_ok
        obtain ⟨k, hk⟩ := kinds_of_take? (take?_of_expect hexpect)
        refine ⟨_, ?_, .last g j k hphrase⟩
        rw [hj, hk]
        simp only [List.append_assoc, List.cons_append, List.nil_append]

section Inner

variable {inner : Inner n} (hinner : inner.Sound)

include hinner

theorem arg_sound {ts : Tokens} {h : ts.length < n} {a : Arg Expr} {r : Tokens}
    (hread : Reads (arg inner ts h) a r) : Derived (.element .arguments) ts r a := by
  unfold arg at hread
  split at hread
  · next keyword _ _ rest _ =>
    obtain ⟨⟨value, after, _⟩, hvalue, hread⟩ := hread.of_bind
    obtain ⟨rfl, rfl⟩ := hread.of_ok
    obtain ⟨w, hw, hphrase⟩ := hinner ⟨_, hvalue⟩
    refine ⟨_, ?_, .keyword keyword hphrase⟩
    rw [kinds_cons, kinds_cons, hw]
    rfl
  · obtain ⟨⟨value, after, _⟩, hvalue, hread⟩ := hread.of_bind
    obtain ⟨rfl, rfl⟩ := hread.of_ok
    obtain ⟨w, hw, hphrase⟩ := hinner ⟨_, hvalue⟩
    exact ⟨w, hw, .positional hphrase⟩

theorem args_sound {ts : Tokens} {h : ts.length < n} {arguments : List (Arg Expr)} {r : Tokens}
    (hread : Reads (args inner ts h) arguments r) : Derived (.group .arguments) ts r arguments :=
  elements_sound .arguments (arg_sound hinner) hread

theorem items_sound {ts : Tokens} {h : ts.length < n} {es : List Expr} {r : Tokens}
    (hread : Reads (items inner ts h) es r) : Derived (.group .items) ts r es := by
  refine elements_sound .items ?_ hread
  intro _ _ _ _ hitem
  obtain ⟨w, hw, hphrase⟩ := hinner hitem
  exact ⟨w, hw, .item hphrase⟩

theorem entry_sound {ts : Tokens} {h : ts.length < n} {x : String × Expr} {r : Tokens}
    (hread : Reads (entry inner ts h) x r) : Derived (.element .entries) ts r x := by
  obtain ⟨⟨key, rest, _⟩, hkey, hread⟩ := hread.of_bind
  obtain ⟨⟨_, rest', _⟩, hcolon, hread⟩ := hread.of_bind
  obtain ⟨⟨value, rest'', _⟩, hvalue, hread⟩ := hread.of_bind
  obtain ⟨rfl, rfl⟩ := hread.of_ok
  obtain ⟨w, hw, hphrase⟩ := hinner ⟨_, hvalue⟩
  -- a key is a name or a string, and two tokens may stand after it
  have hname : ∃ t, EntryName t key ∧ kinds ts = t :: kinds rest := by
    unfold mapKey at hkey
    split at hkey
    · cases hkey
      exact ⟨_, .name _, rfl⟩
    · cases hkey
      exact ⟨_, .string _, rfl⟩
    · cases hkey
  have hseparator : ∃ t, (t = .colon ∨ t = .assign) ∧ kinds rest = t :: kinds rest' := by
    unfold afterKey at hcolon
    split at hcolon
    · cases hcolon
      exact ⟨_, Or.inl rfl, rfl⟩
    · cases hcolon
      exact ⟨_, Or.inr rfl, rfl⟩
    · cases hcolon
  obtain ⟨t, ht, hts⟩ := hname
  obtain ⟨separator, hsep, hrest⟩ := hseparator
  refine ⟨_, ?_, .entry ht hsep hphrase⟩
  rw [hts, hrest, hw]
  rfl

theorem entries_sound {ts : Tokens} {h : ts.length < n} {es : List (String × Expr)} {r : Tokens}
    (hread : Reads (entries inner ts h) es r) : Derived (.group .entries) ts r es :=
  elements_sound .entries (entry_sound hinner) hread

/-! ## Operands -/

omit hinner in
theorem literal_of_literal? {t : Token} {v : Value} (h : literal? t = some v) : Literal t v := by
  unfold literal? at h
  split at h <;> cases h
  · exact .integer _
  · exact .number _
  · exact .string _
  · exact .true
  · exact .false
  · exact .null

theorem function_sound {ts : Tokens} {h : ts.length < n} {e : Expr} {r : Tokens}
    (hread : Reads (function inner ts h) e r) :
    ∃ w, kinds ts = w ++ kinds r ∧ Phrase (.expr .operand) (.at :: w) e := by
  obtain ⟨⟨name, after, _⟩, hname, hread⟩ := hread.of_bind
  obtain ⟨k, hk⟩ := kinds_of_expectName ⟨_, hname⟩
  simp only at hread
  split at hread
  · next rest _ htake =>
    obtain ⟨⟨arguments, more, _⟩, harguments, hread⟩ := hread.of_bind
    obtain ⟨rfl, rfl⟩ := hread.of_ok
    obtain ⟨w, hw, hgroup⟩ := args_sound hinner ⟨_, harguments⟩
    refine ⟨_, ?_, .functionCall k name hgroup⟩
    rw [hk, kinds_of_takeFront? htake, hw]
    simp only [List.append_assoc, List.cons_append]
  · obtain ⟨rfl, rfl⟩ := hread.of_ok
    refine ⟨_, ?_, .function k name⟩
    rw [hk, List.append_assoc]
    rfl

theorem nameOrCall_sound {name : String} {after : Tokens} {h : after.length < n} {e : Expr}
    {r : { rest : Tokens // rest.length ≤ after.length }}
    (hread : nameOrCall inner name after h = .ok (e, r)) :
    ∃ w, kinds after = w ++ kinds r.1 ∧ Phrase (.expr .operand) (.name name :: w) e := by
  unfold nameOrCall at hread
  split at hread
  · next rest _ htake =>
    cases harguments : args inner rest (by omega) with
    | error fault =>
      rw [harguments] at hread
      cases hread
    | ok c =>
      obtain ⟨arguments, more, _⟩ := c
      rw [harguments] at hread
      cases hread
      obtain ⟨w, hw, hgroup⟩ := args_sound hinner ⟨_, harguments⟩
      refine ⟨_, ?_, .call name hgroup⟩
      rw [kinds_of_takeFront? htake, hw]
      rfl
  · cases hread
    exact ⟨[], rfl, .name name⟩

theorem operandFrom_sound {t : PlacedToken} {rest : Tokens} {h : rest.length < n} {e : Expr}
    {r : Tokens} (hread : Reads (operandFrom inner t rest h) e r) :
    Derived (.expr .operand) (t :: rest) r e := by
  obtain ⟨token, position⟩ := t
  -- one case for each token that begins an operand, in the order of the reader
  unfold operandFrom at hread
  simp only at hread
  split at hread
  · obtain ⟨⟨value, after, _⟩, hvalue, hread⟩ := hread.of_bind
    obtain ⟨⟨more, _⟩, hexpect, hread⟩ := hread.of_bind
    obtain ⟨rfl, rfl⟩ := hread.of_ok
    obtain ⟨j, hj⟩ := kinds_skipNewlines rest
    obtain ⟨w, hw, hphrase⟩ := hinner ⟨_, hvalue⟩
    obtain ⟨k, hk⟩ := kinds_of_take? (take?_of_expect hexpect)
    refine ⟨_, ?_, .parentheses j k hphrase⟩
    rw [kinds_cons, hj, hw, hk]
    simp only [List.append_assoc, List.cons_append, List.nil_append]
  · obtain ⟨⟨es, after, _⟩, hes, hread⟩ := hread.of_bind
    obtain ⟨rfl, rfl⟩ := hread.of_ok
    obtain ⟨w, hw, hgroup⟩ := items_sound hinner ⟨_, hes⟩
    refine ⟨_, ?_, .list hgroup⟩
    rw [kinds_cons, hw]
    rfl
  · obtain ⟨⟨es, after, _⟩, hes, hread⟩ := hread.of_bind
    obtain ⟨rfl, rfl⟩ := hread.of_ok
    obtain ⟨w, hw, hgroup⟩ := entries_sound hinner ⟨_, hes⟩
    refine ⟨_, ?_, .map hgroup⟩
    rw [kinds_cons, hw]
    rfl
  · obtain ⟨⟨f, after, _⟩, hf, hread⟩ := hread.of_bind
    obtain ⟨rfl, rfl⟩ := hread.of_ok
    obtain ⟨w, hw, hphrase⟩ := function_sound hinner ⟨_, hf⟩
    refine ⟨_, ?_, hphrase⟩
    rw [kinds_cons, hw]
    rfl
  · obtain ⟨⟨f, after, _⟩, hf, hread⟩ := hread.of_bind
    obtain ⟨rfl, rfl⟩ := hread.of_ok
    obtain ⟨w, hw, hphrase⟩ := nameOrCall_sound hinner hf
    refine ⟨_, ?_, hphrase⟩
    rw [kinds_cons, hw]
    rfl
  · split at hread
    · next v hliteral =>
      obtain ⟨rfl, rfl⟩ := hread.of_ok
      exact ⟨_, rfl, .literal (literal_of_literal? hliteral)⟩
    · exact absurd hread Reads.not_error

theorem primary_sound : Rule.Sound .operand (primary inner) := by
  intro ts h e r hread
  cases ts with
  | nil => exact absurd hread Reads.not_error
  | cons t rest => exact operandFrom_sound hinner hread

/-! ## After operands -/

omit hinner in
theorem segment_of_segment? {t : Token} {s : String} (h : segment? t = some s) : Segment t s := by
  unfold segment? at h
  split at h <;> cases h
  · exact .name _
  · exact .position _

/-- Segments and method calls after an operand continue the derivation of the operand. -/
theorem postfixes_sound {input ts : Tokens} {left e : Expr} {hts : ts.length < input.length}
    {hn : input.length ≤ n} {r : Tokens}
    (hread : Reads (postfixes inner left ts hts hn) e r) {v : List Token}
    (hleft : Phrase (.expr .postfixed) v left) :
    ∃ w, kinds ts = w ++ kinds r ∧ Phrase (.expr .postfixed) (v ++ w) e := by
  -- each step takes a point and a segment, so the tokens that are left get fewer
  induction hm : ts.length using Nat.strongRecOn generalizing ts left v with
  | ind m ih =>
    subst hm
    rw [postfixes] at hread
    split at hread
    · obtain ⟨rfl, rfl⟩ := hread.of_ok
      exact ⟨[], rfl, by rwa [List.append_nil]⟩
    · exact absurd hread Reads.not_error
    · next t after hafter hdot =>
      have hstep : after.length < ts.length := Nat.lt_of_succ_lt hafter
      have hkinds := kinds_of_takeFront? hdot
      rw [kinds_cons] at hkinds
      simp only at hread
      split at hread
      · exact absurd hread Reads.not_error
      · next segment hsegment =>
        have hs := segment_of_segment? hsegment
        split at hread
        · next rest hrest hopen =>
          obtain ⟨⟨arguments, more, hmore⟩, harguments, hread⟩ := hread.of_bind
          obtain ⟨u, hu, hgroup⟩ := args_sound hinner ⟨_, harguments⟩
          obtain ⟨w, hw, hphrase⟩ := ih more.length (by omega) hread
            (.method hleft hs hgroup) rfl
          refine ⟨.dot :: t.token :: .leftParen :: u ++ w, ?_, ?_⟩
          · rw [hkinds, kinds_of_takeFront? hopen, hu, hw]
            simp only [List.append_assoc, List.cons_append]
          · simpa only [List.append_assoc, List.cons_append] using hphrase
        · -- without a parenthesis only a property goes on
          obtain ⟨longer, hlonger, hread⟩ := hread.of_bind
          unfold access at hlonger
          split at hlonger
          · next root path =>
            cases hlonger
            obtain ⟨w, hw, hphrase⟩ := ih after.length hstep hread (.segment hleft hs) rfl
            refine ⟨.dot :: t.token :: w, ?_, ?_⟩
            · rw [hkinds, hw]
              rfl
            · simpa only [List.append_assoc, List.cons_append, List.nil_append] using hphrase
          · cases hlonger

theorem postfixed_sound : Rule.Sound .postfixed (postfixed inner) := by
  intro ts h e r hread
  obtain ⟨⟨left, rest, _⟩, hleft, hread⟩ := hread.of_bind
  obtain ⟨v, hv, hoperand⟩ := primary_sound hinner ⟨_, hleft⟩
  obtain ⟨w, hw, hphrase⟩ := postfixes_sound hinner hread (.tighter .postfixed hoperand)
  refine ⟨v ++ w, ?_, hphrase⟩
  rw [hv, hw, List.append_assoc]

/-! ## Signs -/

omit hinner in
theorem signed_eq_postfixed {token : Token} {position : Position} {rest : Tokens}
    (hnot : token ≠ .notWord) (hminus : token ≠ .minus)
    (h : (⟨token, position⟩ :: rest : Tokens).length ≤ n) :
    signed inner (⟨token, position⟩ :: rest) h = postfixed inner (⟨token, position⟩ :: rest) h := by
  cases token with
  | notWord => exact absurd rfl hnot
  | minus => exact absurd rfl hminus
  | _ => rfl

theorem signed_sound : Rule.Sound .signed (signed inner) := by
  intro ts h e r hread
  induction ts generalizing e r with
  | nil =>
    obtain ⟨w, hw, hphrase⟩ := postfixed_sound hinner hread
    exact ⟨w, hw, .tighter .signed hphrase⟩
  | cons t rest ih =>
    obtain ⟨token, position⟩ := t
    -- signs recurse over what follows them, anything else is handed on
    by_cases hnot : token = .notWord
    · subst hnot
      rw [signed] at hread
      obtain ⟨⟨operand, after, _⟩, hoperand, hread⟩ := hread.of_bind
      obtain ⟨rfl, rfl⟩ := hread.of_ok
      obtain ⟨w, hw, hphrase⟩ := ih ⟨_, hoperand⟩
      refine ⟨_, ?_, .not hphrase⟩
      rw [kinds_cons, hw]
      rfl
    · by_cases hminus : token = .minus
      · subst hminus
        rw [signed] at hread
        obtain ⟨⟨operand, after, _⟩, hoperand, hread⟩ := hread.of_bind
        obtain ⟨rfl, rfl⟩ := hread.of_ok
        obtain ⟨w, hw, hphrase⟩ := ih ⟨_, hoperand⟩
        refine ⟨.minus :: w, by rw [kinds_cons, hw]; rfl, ?_⟩
        -- the sign of a number becomes part of it
        unfold negated
        split
        · exact .minusInt hphrase
        · exact .minusFloat hphrase
        · next hint hfloat => exact .minus hphrase hint hfloat
      · rw [signed_eq_postfixed hnot hminus] at hread
        obtain ⟨w, hw, hphrase⟩ := postfixed_sound hinner hread
        exact ⟨w, hw, .tighter .signed hphrase⟩

end Inner

/-! ## Operators -/

/-- The operators of a level by their tokens. -/
def OperatorsOf (l : Level) (op? : Token → Option BinaryOp) : Prop :=
  ∀ t op, op? t = some op ↔ op.level = l ∧ t = op.token

theorem operatorsOf_orOp? : OperatorsOf .disjunction orOp? := by
  intro t op
  cases op <;> cases t <;> simp [orOp?, BinaryOp.level, BinaryOp.token]

theorem operatorsOf_andOp? : OperatorsOf .conjunction andOp? := by
  intro t op
  cases op <;> cases t <;> simp [andOp?, BinaryOp.level, BinaryOp.token]

theorem operatorsOf_comparisonOp? : OperatorsOf .comparison comparisonOp? := by
  intro t op
  cases op <;> cases t <;> simp [comparisonOp?, BinaryOp.level, BinaryOp.token]

theorem operatorsOf_sumOp? : OperatorsOf .sum sumOp? := by
  intro t op
  cases op <;> cases t <;> simp [sumOp?, BinaryOp.level, BinaryOp.token]

theorem operatorsOf_productOp? : OperatorsOf .product productOp? := by
  intro t op
  cases op <;> cases t <;> simp [productOp?, BinaryOp.level, BinaryOp.token]

section Operators

variable {l : Level} {op? : Token → Option BinaryOp} {operand : Rule n}

/-- Operators and operands after a first operand continue its derivation to the left. -/
theorem operations_sound (hop : OperatorsOf l op?) (hl : l ≠ .comparison)
    (hoperand : operand.Sound l.tighter) {input ts : Tokens} {left e : Expr}
    {hts : ts.length < input.length} {hn : input.length ≤ n} {r : Tokens}
    (hread : Reads (operations op? operand left ts hts hn) e r) {v : List Token}
    (hleft : Phrase (.expr l) v left) :
    ∃ w, kinds ts = w ++ kinds r ∧ Phrase (.expr l) (v ++ w) e := by
  -- the left operand grows with each step, so the induction is for all of them
  induction hm : ts.length using Nat.strongRecOn generalizing ts left v with
  | ind m ih =>
    subst hm
    cases ts with
    | nil =>
      rw [operations] at hread
      obtain ⟨rfl, rfl⟩ := hread.of_ok
      exact ⟨[], rfl, by rwa [List.append_nil]⟩
    | cons t rest =>
      rw [operations] at hread
      split at hread
      · obtain ⟨rfl, rfl⟩ := hread.of_ok
        exact ⟨[], rfl, by rwa [List.append_nil]⟩
      · next op hsome =>
        obtain ⟨⟨right, after, hafter⟩, hright, hread⟩ := hread.of_bind
        obtain ⟨rfl, ht⟩ := (hop t.token op).1 hsome
        obtain ⟨u, hu, hphrase⟩ := hoperand ⟨_, hright⟩
        have hshorter : after.length < (t :: rest).length := Nat.lt_succ_of_lt hafter
        obtain ⟨w, hw, hall⟩ := ih after.length hshorter hread (.operation op hl hleft hphrase) rfl
        refine ⟨op.token :: u ++ w, ?_, ?_⟩
        · rw [kinds_cons, ht, hu, hw, List.append_assoc]
          rfl
        · simpa only [List.append_assoc, List.cons_append] using hall

theorem leftChain_sound (hop : OperatorsOf l op?) (hl : l ≠ .comparison)
    (hoperand : operand.Sound l.tighter) : Rule.Sound l (leftChain op? operand) := by
  intro ts h e r hread
  obtain ⟨⟨left, rest, _⟩, hleft, hread⟩ := hread.of_bind
  obtain ⟨v, hv, hphrase⟩ := hoperand ⟨_, hleft⟩
  obtain ⟨w, hw, hall⟩ := operations_sound hop hl hoperand hread (.tighter l hphrase)
  refine ⟨v ++ w, ?_, hall⟩
  rw [hv, hw, List.append_assoc]

theorem oneComparison_sound (hoperand : operand.Sound .sum) :
    Rule.Sound .comparison (oneComparison operand) := by
  intro ts h e r hread
  obtain ⟨⟨left, after, hafter⟩, hleft, hread⟩ := hread.of_bind
  obtain ⟨v, hv, hphrase⟩ := hoperand ⟨_, hleft⟩
  cases after with
  | nil =>
    obtain ⟨rfl, rfl⟩ := hread.of_ok
    exact ⟨v, hv, .tighter .comparison hphrase⟩
  | cons t rest =>
    simp only at hread
    split at hread
    · obtain ⟨rfl, rfl⟩ := hread.of_ok
      exact ⟨v, hv, .tighter .comparison hphrase⟩
    · next op hsome =>
      obtain ⟨⟨right, more, _⟩, hright, hread⟩ := hread.of_bind
      obtain ⟨rfl, rfl⟩ := hread.of_ok
      -- both operands are sums, so there is no second comparison
      obtain ⟨hlevel, ht⟩ := (operatorsOf_comparisonOp? t.token op).1 hsome
      obtain ⟨w, hw, hphrase'⟩ := hoperand ⟨_, hright⟩
      refine ⟨_, ?_, .comparison op hlevel hphrase hphrase'⟩
      rw [hv, kinds_cons, ht, hw, List.append_assoc]
      rfl

end Operators

theorem layered_sound {inner : Inner n} (hinner : inner.Sound) :
    Rule.Sound .disjunction (layered inner) := by
  -- the ladder of levels, from the loosest one down
  refine leftChain_sound operatorsOf_orOp? nofun ?_
  refine leftChain_sound operatorsOf_andOp? nofun ?_
  apply oneComparison_sound
  refine leftChain_sound operatorsOf_sumOp? nofun ?_
  refine leftChain_sound operatorsOf_productOp? nofun ?_
  exact signed_sound hinner

/-- Whatever is read as an expression is derived as one. -/
theorem expr_sound (n : Nat) : (expr n).Sound := by
  -- the reader of inner expressions has one step less left
  induction n with
  | zero =>
    intro ts h
    exact absurd h (Nat.not_lt_zero _)
  | succ n ih =>
    intro ts h e r hread
    exact layered_sound ih hread

end Grammar

end DawScript
