import DawScript.Proofs.CheckedParsing
import DawScript.Proofs.IntegerLiterals

/-!
# The checked parser and the grammar

Each rule of the checked parser agrees with the rule of the grammar that it goes by. The inner
expressions stand behind the first token of the expression around them, so the agreement of a rule
needs that of inner expressions for fewer tokens only, and `agrees_expr` is by induction on them.
-/

set_option autoImplicit false

namespace DawScript

namespace Parser

open Checked Tokens

variable {all : List PlacedToken} {n m : Nat}

/-- A run agrees with a reader wherever fewer than `m` tokens are left. -/
def AgreesBelow (all : List PlacedToken) (m : Nat) {α : Type} (c : Parser α)
    (reader : (ts : Tokens) → ts.length < n → Reading α ts) : Prop :=
  ∀ ⦃q : Nat⦄ ⦃ts : Tokens⦄ (h : ts.length < n), ts.length < m → At all q ts →
    Agrees all c q (reader ts h) Consumed.value Consumed.rest

/-- A run agrees with a rule wherever no more than `m` tokens are left. -/
def AgreesUpTo (all : List PlacedToken) (m : Nat) (c : Parser Expr) (rule : Grammar.Rule n) :
    Prop :=
  ∀ ⦃q : Nat⦄ ⦃ts : Tokens⦄ (h : ts.length ≤ n), ts.length ≤ m → At all q ts →
    Agrees all c q (rule ts h) Consumed.value Consumed.rest

/-- A token with a meaning that the end of the script does not have. -/
theorem ne_end_of_eq_some {β : Type} {meaning? : Token → Option β} {t : Token} {b : β}
    (hend : meaning? .endOfScript = none) (h : meaning? t = some b) : t ≠ .endOfScript := by
  rintro rfl
  rw [hend] at h
  cases h

theorem At.integersFit {q : Nat} {ts : Tokens} (hat : At all q ts)
    (hfits : IntegersFit (kinds all)) : IntegersFit (kinds ts) := by
  intro k hk
  rw [← hat.1, kinds, List.map_drop] at hk
  exact hfits k (List.mem_of_mem_drop hk)

/-! ## Groups -/

/-- The elements of a group. -/
theorem agrees_groupRounds {α : Type} {close : Token} {c : Parser α}
    {element : (ts : Tokens) → ts.length < n → Reading α ts} (hclose : close ≠ .endOfScript)
    (helement : AgreesBelow all m c element) {q : Nat} {ts : Tokens} (h : ts.length < n)
    (hm : ts.length < m) (hat : At all q ts) (taken : List α) :
    Agrees all (iterate (extent all) (groupRound all close c) taken) q
      (Grammar.elements close element ts h) (fun z => taken ++ z.value) Consumed.rest := by
  -- each round takes an element and a comma
  induction hl : ts.length using Nat.strongRecOn generalizing ts q taken with
  | ind l ih =>
    subst hl
    have hskip := skipNewlines_length_le ts
    obtain ⟨r, hrun, hr, hcases⟩ := hat.leads.check_cases close hclose
    refine Agrees.iterate ?_
    rw [Grammar.elements, groupRound, bind_assoc]
    refine Agrees.step hrun ?_
    rw [bind_assoc]
    obtain ⟨rest, _, htake, hcheck, hadvance, hrest⟩ | ⟨htake, hcheck⟩ := hcases
    · rw [htake]
      refine Agrees.step hcheck ?_
      rw [if_pos rfl, bind_assoc]
      exact Agrees.step hadvance (Agrees.done (List.append_nil taken) hrest)
    · rw [htake]
      refine Agrees.step hcheck ?_
      rw [if_neg Bool.false_ne_true, bind_assoc]
      refine Agrees.bind (helement (by omega) (by omega) hr) ?_
      rintro ⟨first, after, hafter⟩ s - hs
      change At all s after at hs
      obtain ⟨t, hrun, ht, hcases⟩ := hs.leads.check_cases .comma (by decide)
      rw [bind_assoc]
      refine Agrees.step hrun ?_
      rw [bind_assoc]
      obtain ⟨rest, hrest, hcomma, hcheck, hadvance, hat'⟩ | ⟨hcomma, hcheck⟩ := hcases
      · simp only [hcomma]
        refine Agrees.step hcheck ?_
        rw [if_pos rfl, bind_assoc]
        have hlater : (extent all).Later q (t + 1) := hat.later hat' (by omega)
        refine Agrees.step hadvance (Agrees.next hlater ?_)
        refine Agrees.wrap (ih rest.length (by omega) _ (by omega) hat' (taken ++ [first]) rfl) ?_
          fun z => rfl
        exact fun z => List.append_cons taken first z.value
      · simp only [hcomma]
        refine Agrees.step hcheck ?_
        rw [if_neg Bool.false_ne_true, bind_assoc]
        refine Agrees.bind (agrees_expect close hclose ht.leads_of_skipped) ?_
        rintro ⟨rest, hrest⟩ u - hu
        exact Agrees.done rfl hu

section Inner

variable {c : Parser Expr} {inner : Grammar.Inner n}

theorem agrees_arg (hinner : AgreesBelow all m c inner) :
    AgreesBelow all m (arg all c) (Grammar.arg inner) := by
  intro q ts h hm hat
  obtain ⟨⟨token, position⟩, rest, rfl⟩ := hat.exists_cons
  have hsecond : all[q + 1]? = rest.head? := by
    rw [← List.head?_drop, ← List.drop_drop, hat.1, List.drop_one, List.tail_cons]
  have hpositional : Agrees all (c >>= fun e => pure (⟨none, e⟩ : Arg Expr)) q
      (inner _ h >>= fun z => .ok ⟨⟨none, z.value⟩, z.rest, z.shorter⟩) Consumed.value
      Consumed.rest := Agrees.bind (hinner h hm hat) fun z r _ hr => Agrees.pure rfl hr
  refine Agrees.step (run_peek hat) (Agrees.step (a := q) (r := q) rfl ?_)
  rw [hsecond]
  -- only a name with an equals sign after it is a keyword
  cases token with
  | name keyword =>
    cases rest with
    | nil => exact hpositional
    | cons t more =>
      obtain ⟨token, position'⟩ := t
      cases token with
      | assign =>
        obtain ⟨r, hrun, hr⟩ := agrees_expectName hat.leads
        change At all r (⟨.assign, position'⟩ :: more) at hr
        refine Agrees.step hrun (Agrees.step (run_advance hr nofun) ?_)
        simp only [List.length_cons] at hm
        refine Agrees.bind (hinner _ (by omega) (hr.tail nofun)) ?_
        exact fun z s _ hs => Agrees.pure rfl hs
      | _ => exact hpositional
  | _ => exact hpositional

/-- Arguments from a place where none are left to be passed over and no closing parenthesis
stands. -/
theorem agrees_argsRounds (hinner : AgreesBelow all m c inner) {q : Nat} {ts : Tokens}
    (h : ts.length < n) (hm : ts.length < m) (hat : At all q ts.skipNewlines)
    (hopen : take? .rightParen ts = none) (taken : List (Arg Expr)) :
    Agrees all (iterate (extent all) (argsRound all c) taken) q (Grammar.args inner ts h)
      (fun z => taken ++ z.value) Consumed.rest := by
  -- each round takes an argument and a comma, and finds out whether the comma is the last one
  induction hl : ts.length using Nat.strongRecOn generalizing ts q taken with
  | ind l ih =>
    subst hl
    have hskip := skipNewlines_length_le ts
    obtain ⟨r, hrun, hr⟩ := hat.leads_of_skipped
    refine Agrees.iterate ?_
    rw [Grammar.args, Grammar.elements, hopen, argsRound, bind_assoc]
    refine Agrees.step hrun ?_
    rw [bind_assoc]
    refine Agrees.bind (agrees_arg hinner (by omega) (by omega) hr) ?_
    rintro ⟨first, after, hafter⟩ s - hs
    change At all s after at hs
    obtain ⟨t, hrun, ht, hcases⟩ := hs.leads.check_cases .comma (by decide)
    rw [bind_assoc]
    refine Agrees.step hrun ?_
    rw [bind_assoc]
    obtain ⟨rest, hrest, hcomma, hcheck, hadvance, hrest'⟩ | ⟨hcomma, hcheck⟩ := hcases
    · simp only [hcomma]
      refine Agrees.step hcheck ?_
      rw [if_pos rfl, bind_assoc]
      refine Agrees.step hadvance ?_
      obtain ⟨u, hrun, hu, hcases⟩ := hrest'.leads.check_cases .rightParen (by decide)
      rw [bind_assoc]
      refine Agrees.step hrun ?_
      rw [bind_assoc]
      obtain ⟨more, _, hclose, hcheck, hadvance, hmore⟩ | ⟨hclose, hcheck⟩ := hcases
      · rw [Grammar.elements, hclose]
        refine Agrees.step hcheck ?_
        rw [if_pos rfl, bind_assoc]
        exact Agrees.step hadvance (Agrees.done rfl hmore)
      · refine Agrees.step hcheck ?_
        rw [if_neg Bool.false_ne_true]
        have hskip := skipNewlines_length_le rest
        refine Agrees.next (hat.later hu (by omega)) ?_
        refine Agrees.wrap (ih rest.length (by omega) _ (by omega) hu hclose (taken ++ [first]) rfl)
          ?_ fun z => rfl
        exact fun z => List.append_cons taken first z.value
    · simp only [hcomma]
      refine Agrees.step hcheck ?_
      rw [if_neg Bool.false_ne_true, bind_assoc]
      refine Agrees.bind (agrees_expect .rightParen (by decide) ht.leads_of_skipped) ?_
      rintro ⟨rest, hrest⟩ u - hu
      exact Agrees.done rfl hu

theorem agrees_args (hinner : AgreesBelow all m c inner) :
    AgreesBelow all m (args all c) (Grammar.args inner) := by
  intro q ts h hm hat
  obtain ⟨r, hrun, hr, hcases⟩ := hat.leads.check_cases .rightParen (by decide)
  refine Agrees.step hrun ?_
  obtain ⟨rest, _, hclose, hcheck, hadvance, hrest⟩ | ⟨hclose, hcheck⟩ := hcases
  · rw [Grammar.args, Grammar.elements, hclose]
    refine Agrees.step hcheck ?_
    exact Agrees.step hadvance (Agrees.pure rfl hrest)
  · refine Agrees.step hcheck ?_
    exact agrees_argsRounds hinner h hm hr hclose []

/-- A group from its opening bracket on. -/
theorem agrees_group {α : Type} (opening close : Token) {d : Parser α}
    {element : (ts : Tokens) → ts.length < n → Reading α ts} (hend : opening ≠ .endOfScript)
    (hnewline : opening ≠ .newline) (hclose : close ≠ .endOfScript)
    (helement : AgreesBelow all m d element) {q : Nat} {position : Position} {ts : Tokens}
    (h : ts.length < n) (hm : ts.length < m) (hat : At all q (⟨opening, position⟩ :: ts)) :
    Agrees all (group all opening close d) q (Grammar.elements close element ts h) Consumed.value
      Consumed.rest := by
  obtain ⟨r, hrun, hr⟩ := hat.leads
  rw [skipNewlines_cons, if_neg hnewline] at hr
  have hexpect : (expect all opening).run q = .ok ((), r + 1) := by
    rw [expect, run_bind_ok hrun, run_bind_ok (run_peek hr), if_pos rfl]
    exact run_advance hr hend
  exact Agrees.step hexpect (agrees_groupRounds hclose helement h hm (hr.tail hend) [])

theorem agrees_mapKey {q : Nat} {ts : Tokens} (hat : At all q ts) :
    Agrees all (mapKey all) q (Grammar.mapKey ts) Consumed.value Consumed.rest := by
  obtain ⟨⟨token, position⟩, rest, rfl⟩ := hat.exists_cons
  refine Agrees.step (run_peek hat) ?_
  cases token with
  | name s | string s =>
    exact Agrees.step (run_advance hat nofun) (Agrees.pure rfl (hat.tail nofun))
  | _ => exact Agrees.fault ⟨_, _, rfl⟩ rfl

theorem agrees_afterKey {q : Nat} {ts : Tokens} (hat : At all q ts) :
    Agrees all (afterKey all) q (Grammar.afterKey ts) Consumed.value Consumed.rest := by
  obtain ⟨⟨token, position⟩, rest, rfl⟩ := hat.exists_cons
  refine Agrees.step (run_check .colon (by decide) hat) ?_
  refine Agrees.step (run_check .assign (by decide) hat) ?_
  cases token with
  | colon | assign => exact Agrees.ok (run_advance hat nofun) (hat.tail nofun)
  | _ => exact Agrees.step (run_peek hat) (Agrees.fault ⟨_, _, rfl⟩ rfl)

theorem agrees_entry (hinner : AgreesBelow all m c inner) :
    AgreesBelow all m (entry all c) (Grammar.entry inner) := by
  intro q ts h hm hat
  refine Agrees.bind (agrees_mapKey hat) ?_
  rintro ⟨key, rest, hkey⟩ r - hr
  refine Agrees.bind (agrees_afterKey hr) ?_
  rintro ⟨_, rest', hcolon⟩ s - hs
  change rest'.length < rest.length at hcolon
  refine Agrees.bind (hinner (by omega) (by omega) hs) ?_
  exact fun z t _ ht => Agrees.pure rfl ht

/-! ## Operands -/

theorem agrees_function (hinner : AgreesBelow all m c inner) :
    AgreesBelow all m (function all c) (Grammar.function inner) := by
  intro q ts h hm hat
  refine Agrees.bind (agrees_expectName hat.leads) ?_
  rintro ⟨name, after, hafter⟩ r - hr
  change At all r after at hr
  obtain ⟨rest, hrest, htake, hcheck, hadvance, hat'⟩ | ⟨htake, hcheck⟩ :=
    check_cases .leftParen (by decide) hr
  · simp only [htake]
    refine Agrees.step hcheck (Agrees.step hadvance ?_)
    refine Agrees.bind (agrees_args hinner (by omega) (by omega) hat') ?_
    exact fun z t _ ht => Agrees.pure rfl ht
  · simp only [htake]
    exact Agrees.step hcheck (Agrees.pure rfl hr)

theorem agrees_nameOrCall (hinner : AgreesBelow all m c inner) (name : String) {q : Nat}
    {ts : Tokens} (h : ts.length < n) (hm : ts.length < m) (hat : At all q ts) :
    Agrees all (nameOrCall all c name) q (Grammar.nameOrCall inner name ts h) Prod.fst
      (fun z => z.2.1) := by
  unfold Grammar.nameOrCall
  obtain ⟨rest, hrest, htake, hcheck, hadvance, hat'⟩ | ⟨htake, hcheck⟩ :=
    check_cases .leftParen (by decide) hat
  · rw [htake]
    refine Agrees.step hcheck (Agrees.step hadvance ?_)
    refine Agrees.bind (agrees_args hinner (by omega) (by omega) hat') ?_
    exact fun z t _ ht => Agrees.pure rfl ht
  · rw [htake]
    exact Agrees.step hcheck (Agrees.pure rfl hat)

theorem agrees_literal {q : Nat} {t : PlacedToken} {rest : Tokens} (hat : At all q (t :: rest)) :
    Agrees all (match Grammar.literal? t.token with
      | some v => do
        advance all
        return .literal v
      | none => unexpected .expression t) q
      (match Grammar.literal? t.token with
      | some v => .ok (.one (.literal v))
      | none => Tokens.unexpected .expression (t :: rest) : Reading Expr (t :: rest))
      Consumed.value Consumed.rest := by
  cases hliteral : Grammar.literal? t.token with
  | none => exact Agrees.fault ⟨_, _, rfl⟩ rfl
  | some v =>
    have hend := ne_end_of_eq_some rfl hliteral
    exact Agrees.step (run_advance hat hend) (Agrees.pure rfl (hat.tail hend))

theorem agrees_primary (hinner : AgreesBelow all m c inner) :
    AgreesUpTo all m (primary all c) (Grammar.primary inner) := by
  intro q ts h hm hat
  obtain ⟨⟨token, position⟩, rest, rfl⟩ := hat.exists_cons
  have hrest : rest.length < n ∧ rest.length < m := ⟨h, hm⟩
  refine Agrees.step (run_peek hat) ?_
  cases token with
  | leftParen =>
    have hskip := skipNewlines_length_le rest
    obtain ⟨r, hrun, hr⟩ := (hat.tail nofun).leads
    refine Agrees.step (run_advance hat nofun) (Agrees.step hrun ?_)
    refine Agrees.bind (hinner (by omega) (by omega) hr) ?_
    rintro ⟨e, after, hafter⟩ s - hs
    refine Agrees.bind (agrees_expect .rightParen (by decide) (At.leads hs)) ?_
    exact fun z t _ ht => Agrees.pure rfl ht
  | leftBracket =>
    refine Agrees.bind (agrees_group .leftBracket .rightBracket nofun nofun nofun hinner hrest.1
      hrest.2 hat) ?_
    exact fun z t _ ht => Agrees.pure rfl ht
  | leftBrace =>
    refine Agrees.bind (agrees_group .leftBrace .rightBrace nofun nofun nofun
      (agrees_entry hinner) hrest.1 hrest.2 hat) ?_
    exact fun z t _ ht => Agrees.pure rfl ht
  | «at» =>
    refine Agrees.step (run_advance hat nofun) ?_
    exact Agrees.wrap (agrees_function hinner hrest.1 hrest.2 (hat.tail nofun)) (fun z => rfl)
      fun z => rfl
  | name s =>
    refine Agrees.step (run_advance hat nofun) ?_
    exact Agrees.wrap (agrees_nameOrCall hinner s hrest.1 hrest.2 (hat.tail nofun)) (fun z => rfl)
      fun z => rfl
  | _ => exact agrees_literal hat

/-! ## After operands -/

theorem malformed_of_access {e : Expr} {segment : String} {position : Position} {fault : Fault}
    (h : Grammar.access e segment position = .error fault) : fault.Malformed := by
  unfold Grammar.access at h
  split at h <;> cases h
  exact ⟨_, _, rfl⟩

theorem agrees_postfixRounds (hinner : AgreesBelow all m c inner) {q : Nat} {input ts : Tokens}
    (hts : ts.length < input.length) (hn : input.length ≤ n) (hm : input.length ≤ m)
    (hat : At all q ts) (e : Expr) :
    Agrees all (iterate (extent all) (postfixRound all c) e) q
      (Grammar.postfixes inner e ts hts hn) Consumed.value Consumed.rest := by
  -- each round takes a point and a segment
  induction hl : ts.length using Nat.strongRecOn generalizing ts q e with
  | ind l ih =>
    subst hl
    refine Agrees.iterate ?_
    rw [Grammar.postfixes, postfixRound, bind_assoc]
    obtain ⟨rest, hrest, htake, hcheck, hadvance, hat'⟩ | ⟨htake, hcheck⟩ :=
      check_cases .dot (by decide) hat
    · obtain ⟨t, after, rfl⟩ := hat'.exists_cons
      rw [List.length_cons] at hrest
      simp only [htake]
      refine Agrees.step hcheck ?_
      rw [if_pos rfl, bind_assoc]
      refine Agrees.step hadvance ?_
      rw [bind_assoc]
      refine Agrees.step (run_peek hat') ?_
      cases hsegment : Grammar.segment? t.token with
      | none => exact Agrees.fault ⟨_, _, rfl⟩ rfl
      | some segment =>
        have hend := ne_end_of_eq_some rfl hsegment
        have hafter := hat'.tail hend
        simp only [bind_assoc]
        refine Agrees.step (run_advance hat' hend) ?_
        obtain ⟨rest, hrest', hopen, hcheck, hadvance, hat''⟩ | ⟨hopen, hcheck⟩ :=
          check_cases .leftParen (by decide) hafter
        · simp only [hopen]
          refine Agrees.step hcheck ?_
          rw [if_pos rfl, bind_assoc]
          refine Agrees.step hadvance ?_
          rw [bind_assoc]
          refine Agrees.bind (agrees_args hinner _ (by omega) hat'') ?_
          rintro ⟨arguments, more, hmore⟩ r - hr
          change At all r more at hr
          exact Agrees.next (hat.later hr (by omega)) (ih more.length (by omega) _ hr _ rfl)
        · simp only [hopen]
          refine Agrees.step hcheck ?_
          rw [if_neg Bool.false_ne_true]
          cases haccess : Grammar.access e segment t.position with
          | error fault => exact Agrees.fault (malformed_of_access haccess) rfl
          | ok longer =>
            refine Agrees.next (hat.later hafter (by omega)) ?_
            exact ih after.length (by omega) _ hafter _ rfl
    · rw [htake]
      exact Agrees.step hcheck (Agrees.done rfl hat)

theorem agrees_postfixed (hinner : AgreesBelow all m c inner) :
    AgreesUpTo all m (postfixed all c) (Grammar.postfixed inner) := by
  intro q ts h hm hat
  refine Agrees.bind (agrees_primary hinner h hm hat) ?_
  rintro ⟨e, rest, hrest⟩ r - hr
  exact agrees_postfixRounds hinner hrest h hm hr e

/-! ## Signs -/

theorem run_negate {e : Expr} (h : e.Negatable) (q : Nat) :
    (negate e).run q = .ok (Grammar.negated e, q) := by
  unfold negate
  split
  · next n =>
    have hne : n ≠ Int64.minValue := fun heq => Int64.lt_irrefl (heq ▸ h n .whole)
    rw [if_neg hne]
    rfl
  · rfl

/-- The integers of all tokens are in the range of words, so those in what is read can be
negated. -/
theorem agrees_signed (hfits : IntegersFit (kinds all)) (hsound : inner.Sound)
    (hinner : AgreesBelow all m c inner) :
    AgreesUpTo all m (signed all c) (Grammar.signed inner) := by
  intro q ts h hm hat
  induction ts generalizing q with
  | nil => exact absurd rfl hat.2.ne_nil
  | cons t rest ih =>
    obtain ⟨token, position⟩ := t
    refine Agrees.congr (run_descend q) (Agrees.step (run_peek hat) ?_)
    -- signs recurse over what follows them, anything else is handed on
    have hself (hend : token ≠ .endOfScript) :
        Agrees all (again (extent all) (signedWith all c) q) (q + 1)
          (Grammar.signed inner rest (Nat.le_of_succ_le h)) Consumed.value Consumed.rest := by
      have hrest := hat.tail hend
      exact Agrees.congr (run_again (hat.later hrest (Nat.lt_succ_self _)))
        (ih (Nat.le_of_succ_le h) (Nat.le_of_succ_le hm) hrest)
    cases token with
    | notWord =>
      refine Agrees.step (run_advance hat nofun) (Agrees.bind (hself nofun) ?_)
      exact fun z r _ hr => Agrees.pure rfl hr
    | minus =>
      refine Agrees.step (run_advance hat nofun) (Agrees.bind (hself nofun) ?_)
      rintro ⟨e, after, hafter⟩ r hread hr
      have hnegatable : e.Negatable := by
        obtain ⟨w, hw, hphrase⟩ := Grammar.signed_sound hsound ⟨_, hread⟩
        have hrest := (hat.tail nofun).integersFit hfits
        rw [hw] at hrest
        exact hphrase.negatable hrest.left
      exact Agrees.ok (run_negate hnegatable r) hr
    | _ => exact agrees_postfixed hinner h hm hat

end Inner

/-! ## Operators -/

section Operators

variable {op? : Token → Option BinaryOp} {operand : Parser Expr} {rule : Grammar.Rule n}

theorem agrees_operationRounds (hend : op? .endOfScript = none)
    (hoperand : AgreesUpTo all m operand rule) {q : Nat} {input ts : Tokens}
    (hts : ts.length < input.length) (hn : input.length ≤ n) (hm : input.length ≤ m)
    (hat : At all q ts) (left : Expr) :
    Agrees all (iterate (extent all) (operationRound all op? operand) left) q
      (Grammar.operations op? rule left ts hts hn) Consumed.value Consumed.rest := by
  -- each round takes an operator and an operand
  induction hl : ts.length using Nat.strongRecOn generalizing ts q left with
  | ind l ih =>
    subst hl
    obtain ⟨t, rest, rfl⟩ := hat.exists_cons
    rw [List.length_cons] at hts
    refine Agrees.iterate ?_
    rw [Grammar.operations, operationRound, bind_assoc]
    refine Agrees.step (run_peek hat) ?_
    cases hop : op? t.token with
    | none => exact Agrees.done rfl hat
    | some op =>
      have ht := ne_end_of_eq_some hend hop
      simp only [bind_assoc]
      refine Agrees.step (run_advance hat ht) ?_
      refine Agrees.bind (hoperand (by omega) (by omega) (hat.tail ht)) ?_
      rintro ⟨right, after, hafter⟩ r - hr
      change At all r after at hr
      have hlater := hat.later hr (by rw [List.length_cons]; omega)
      exact Agrees.next hlater (ih after.length (by rw [List.length_cons]; omega) _ hr _ rfl)

theorem agrees_leftChain (hend : op? .endOfScript = none)
    (hoperand : AgreesUpTo all m operand rule) :
    AgreesUpTo all m (leftChain all op? operand) (Grammar.leftChain op? rule) := by
  intro q ts h hm hat
  refine Agrees.bind (hoperand h hm hat) ?_
  rintro ⟨left, rest, hrest⟩ r - hr
  exact agrees_operationRounds hend hoperand hrest h hm hr left

theorem agrees_oneComparison (hoperand : AgreesUpTo all m operand rule) :
    AgreesUpTo all m (oneComparison all operand) (Grammar.oneComparison rule) := by
  intro q ts h hm hat
  refine Agrees.bind (hoperand h hm hat) ?_
  rintro ⟨left, after, hafter⟩ r - hr
  change At all r after at hr
  obtain ⟨t, rest, rfl⟩ := hr.exists_cons
  refine Agrees.step (run_peek hr) ?_
  simp only
  cases hop : Grammar.comparisonOp? t.token with
  | none => exact Agrees.pure rfl hr
  | some op =>
    have ht := ne_end_of_eq_some rfl hop
    rw [List.length_cons] at hafter
    refine Agrees.step (run_advance hr ht) ?_
    refine Agrees.bind (hoperand (by omega) (by omega) (hr.tail ht)) ?_
    exact fun z s _ hs => Agrees.pure rfl hs

end Operators

theorem agrees_layered {c : Parser Expr} {inner : Grammar.Inner n}
    (hfits : IntegersFit (kinds all)) (hsound : inner.Sound) (hinner : AgreesBelow all m c inner) :
    AgreesUpTo all m (layered all c) (Grammar.layered inner) := by
  -- the ladder of levels, from the loosest one down
  refine agrees_leftChain rfl (agrees_leftChain rfl (agrees_oneComparison ?_))
  refine agrees_leftChain rfl (agrees_leftChain rfl ?_)
  exact agrees_signed hfits hsound hinner

/-- The checked parser finds the expression that the grammar reads, or its fault. -/
theorem agrees_expr (hfits : IntegersFit (kinds all)) (n m : Nat) :
    AgreesBelow all m (expr all) (Grammar.expr n) := by
  -- inner expressions stand at later places
  induction n generalizing m with
  | zero => exact fun q ts h => absurd h (Nat.not_lt_zero _)
  | succ n ih =>
    intro q ts h hm hat
    have hinner : AgreesBelow all ts.length (again (extent all) (layered all) q)
        (Grammar.expr n) := by
      intro r us hn hlt hus
      exact Agrees.congr (run_again (hat.later hus hlt)) (ih (us.length + 1) hn (by omega) hus)
    exact Agrees.congr (run_descend q)
      (agrees_layered hfits (Grammar.expr_sound n) hinner (Nat.le_of_lt_succ h) (Nat.le_refl _) hat)

/-! ## Programs -/

theorem agrees_call (hfits : IntegersFit (kinds all)) {q : Nat} {ts : Tokens} (hat : At all q ts) :
    Agrees all (call all) q (Grammar.call ts) Consumed.value Consumed.rest := by
  refine Agrees.bind (agrees_expectName hat.leads) ?_
  rintro ⟨name, after, hafter⟩ r - hr
  refine Agrees.bind (agrees_expect .leftParen (by decide) (At.leads hr)) ?_
  rintro ⟨rest, hrest⟩ s - hs
  refine Agrees.bind (agrees_args (agrees_expr hfits ts.length ts.length) _
    (Nat.lt_trans hrest hafter) hs) ?_
  exact fun z t _ ht => Agrees.pure rfl ht

theorem run_goesOn {q : Nat} {ts : Tokens} (hat : At all q ts) :
    (∃ r rest hrest, take? .dot ts = some ⟨rest, hrest⟩ ∧ (goesOn all).run q = .ok (true, r) ∧
      (advance all).run r = .ok ((), r + 1) ∧ At all (r + 1) rest) ∨
    (take? .dot ts = none ∧ (goesOn all).run q = .ok (false, q)) := by
  obtain ⟨r, hskip, hr, hcases⟩ := hat.leads.check_cases .dot (by decide)
  obtain ⟨t, tail, rfl⟩ := hat.exists_cons
  have hcheck : (check all .dot).run q = .ok (t.token == .dot, q) := run_check .dot (by decide) hat
  by_cases ht : t.token = .dot
  · -- no line ends are in front of the point
    rw [skipNewlines_cons, if_neg (by rw [ht]; nofun)] at hr
    obtain rfl := hat.unique hr
    have hgoesOn : (goesOn all).run q = .ok (true, q) := by
      rw [goesOn, run_bind_ok hcheck, if_pos (beq_iff_eq.2 ht)]
      rfl
    obtain ⟨rest, hrest, htake, _, hadvance, hat'⟩ | ⟨_, hcheck'⟩ := hcases
    · exact Or.inl ⟨q, rest, hrest, htake, hgoesOn, hadvance, hat'⟩
    · rw [hcheck, beq_iff_eq.2 ht] at hcheck'
      cases hcheck'
  · have hgoesOn : (goesOn all).run q = (checkPastNewlines all .dot).run q := by
      rw [goesOn, run_bind_ok hcheck, if_neg (by simpa using ht)]
    obtain ⟨rest, hrest, htake, hcheck, hadvance, hat'⟩ | ⟨htake, hcheck⟩ := hcases
    · refine Or.inl ⟨r, rest, hrest, htake, ?_, hadvance, hat'⟩
      rw [hgoesOn, checkPastNewlines, run_bind_ok (a := q) (t := q) rfl, run_bind_ok hskip,
        run_bind_ok hcheck]
      rfl
    · refine Or.inr ⟨htake, ?_⟩
      rw [hgoesOn, checkPastNewlines, run_bind_ok (a := q) (t := q) rfl, run_bind_ok hskip,
        run_bind_ok hcheck]
      rfl

theorem agrees_chainRounds (hfits : IntegersFit (kinds all)) {q : Nat} {input ts : Tokens}
    (hts : ts.length < input.length) (hat : At all q ts) (taken : List Call) :
    Agrees all (iterate (extent all) (chainRound all) taken) q
      (@Grammar.moreCalls input ts hts) (fun z => taken ++ z.value) Consumed.rest := by
  -- each round takes a point and a call
  induction hl : ts.length using Nat.strongRecOn generalizing ts q taken with
  | ind l ih =>
    subst hl
    refine Agrees.iterate ?_
    rw [Grammar.moreCalls, chainRound, bind_assoc]
    obtain ⟨r, rest, hrest, htake, hgoesOn, hadvance, hat'⟩ | ⟨htake, hgoesOn⟩ := run_goesOn hat
    · simp only [htake]
      refine Agrees.step hgoesOn ?_
      rw [if_pos rfl, bind_assoc]
      refine Agrees.step hadvance ?_
      rw [bind_assoc]
      refine Agrees.bind (agrees_call hfits hat') ?_
      rintro ⟨first, after, hafter⟩ s - hs
      change At all s after at hs
      refine Agrees.next (hat.later hs (by omega)) ?_
      refine Agrees.wrap (ih after.length (by omega) _ hs (taken ++ [first]) rfl) ?_ fun z => rfl
      exact fun z => List.append_cons taken first z.value
    · rw [htake]
      exact Agrees.step hgoesOn (Agrees.done (List.append_nil taken) hat)

theorem agrees_chain (hfits : IntegersFit (kinds all)) {q : Nat} {ts : Tokens}
    (hat : At all q ts) :
    Agrees all (chain all) q (Grammar.chain ts) Consumed.value Consumed.rest := by
  refine Agrees.bind (agrees_call hfits hat) ?_
  rintro ⟨first, after, hafter⟩ r - hr
  refine Agrees.bind (agrees_chainRounds hfits hafter hr [first]) ?_
  exact fun z s _ hs => Agrees.pure rfl hs

/-- The last token, where the script ends. -/
theorem At.drop_length {q : Nat} {ts : Tokens} (hat : At all q ts) (hend : ts.atEnd = true) :
    ts = all.drop (all.length - 1) := by
  have hlength := congrArg List.length (hat.2.kinds_of_atEnd hend)
  have hsum := hat.length
  rw [kinds, List.length_map, List.length_singleton] at hlength
  rw [← hat.1, show all.length - 1 = q by omega]

theorem agrees_programRounds (hfits : IntegersFit (kinds all)) {q : Nat} {ts : Tokens}
    (hat : At all q ts) (taken : List Chain) :
    Agrees all (iterate (extent all) (programRound all) taken) q (Grammar.chains ts) (taken ++ ·)
      (fun _ => all.drop (all.length - 1)) := by
  -- each round takes a chain
  induction hl : ts.length using Nat.strongRecOn generalizing ts q taken with
  | ind l ih =>
    subst hl
    refine Agrees.iterate ?_
    rw [Grammar.chains, programRound, bind_assoc]
    refine Agrees.step (run_atEnd hat) ?_
    cases hend : ts.atEnd with
    | true => exact Agrees.done (List.append_nil taken) (hat.drop_length hend ▸ hat)
    | false =>
      simp only [Bool.false_eq_true, if_false, bind_assoc]
      refine Agrees.bind (agrees_chain hfits hat) ?_
      rintro ⟨first, rest, hrest⟩ r - hr
      change At all r rest at hr
      refine Agrees.step (run_atEnd hr) (Agrees.step (run_check .newline (by decide) hr) ?_)
      by_cases hgap : (!Tokens.atEnd rest && !(front rest).token == .newline) = true
      · rw [if_pos hgap, if_pos (by exact hgap), bind_assoc]
        exact Agrees.step (run_peek_front hr) (Agrees.fault ⟨_, _, rfl⟩ rfl)
      · rw [if_neg hgap, if_neg (by exact hgap), bind_assoc]
        have hskip := skipNewlines_length_le rest
        obtain ⟨s, hrun, hs⟩ := hr.leads
        refine Agrees.step hrun (Agrees.next (hat.later hs (by omega)) ?_)
        refine Agrees.wrap (ih _ (by omega) hs (taken ++ [first]) rfl) ?_ fun z => rfl
        exact fun others => List.append_cons taken first others

/-- The chains of a script from its beginning. -/
theorem agrees_program {ts : Tokens} (hended : ts.Ended) (hfits : IntegersFit ts.kinds) :
    Agrees ts (program ts) 0 (Program.ofTokens ts) id (fun _ => ts.drop (ts.length - 1)) := by
  have hat : At ts 0 ts := ⟨rfl, hended⟩
  obtain ⟨r, hrun, hr⟩ := hat.leads
  have hread : Program.ofTokens ts = Grammar.chains ts.skipNewlines >>= fun cs => .ok ⟨cs⟩ := by
    rw [Program.ofTokens]
    cases Grammar.chains ts.skipNewlines <;> rfl
  rw [hread]
  exact Agrees.step hrun (Agrees.bind (agrees_programRounds hfits hr []) fun cs s _ hs =>
    Agrees.pure rfl hs)

theorem ofTokens_malformed {ts : Tokens} (hended : ts.Ended) (hfits : IntegersFit ts.kinds)
    {fault : Fault} (h : Program.ofTokens ts = .error fault) : fault.Malformed := by
  have hagrees := agrees_program hended hfits
  rw [h] at hagrees
  exact hagrees.1

/-- The checked parser finds the program that tokens make up, or the fault of them. It stops in
front of the end of the script. -/
theorem run_program {ts : Tokens} (hended : ts.Ended) (hfits : IntegersFit ts.kinds) :
    (program ts).run 0 = ((Program.ofTokens ts).map (·, ts.length - 1)).mapError .fault := by
  have hagrees := agrees_program hended hfits
  cases hread : Program.ofTokens ts with
  | error fault =>
    rw [hread] at hagrees
    exact hagrees.2
  | ok p =>
    rw [hread] at hagrees
    obtain ⟨s, hrun, hs⟩ := hagrees
    have hlength := hs.length
    have hpos := List.length_pos_iff.2 hended.ne_nil
    rw [List.length_drop] at hlength
    rw [hrun, show s = ts.length - 1 by omega]
    rfl

end Parser

end DawScript
