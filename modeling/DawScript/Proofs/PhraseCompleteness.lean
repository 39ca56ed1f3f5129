import DawScript.Proofs.PhraseSoundness

/-!
# What is derived is read

A word that the grammar derives is read with the value that it is derived with, whatever follows it,
as long as the token after it would not be read as part of it (`Phrase.complete`). The grammar has
its left operands first, as readers do; so a word of a level with operators to the left is said to
be read up to the point where the loop over operators goes on (`resume`).
-/

set_option autoImplicit false

namespace DawScript

open Grammar Tokens

/-! ## Tokens that extend a phrase -/

namespace Level

/-- A token after a phrase of a level would be read as part of it. -/
def Extends (l : Level) (t : Token) : Prop :=
  t = .leftParen ∨ (t = .dot ∧ l ≠ .operand) ∨
    ∃ op : BinaryOp, t = op.token ∧ l ≤ op.level

/-- What follows a phrase of a level does not extend it. -/
def Stops (l : Level) (v : List Token) : Prop := ∀ t, v.head? = some t → ¬ l.Extends t

theorem extends_of_tighter {l : Level} {t : Token} (h : l.tighter.Extends t) : l.Extends t := by
  rcases h with h | ⟨h, hne⟩ | ⟨op, h, hle⟩
  · exact Or.inl h
  · refine Or.inr (Or.inl ⟨h, fun hl => hne ?_⟩)
    rw [hl]
    rfl
  · refine Or.inr (Or.inr ⟨op, h, Nat.le_trans ?_ hle⟩)
    cases l <;> decide

theorem Stops.tighter {l : Level} {v : List Token} (h : l.Stops v) : l.tighter.Stops v :=
  fun t ht hextends => h t ht (extends_of_tighter hextends)

theorem stops_cons {l : Level} {t : Token} {v : List Token} (h : ¬ l.Extends t) :
    l.Stops (t :: v) := by
  intro u hu
  cases hu
  exact h

theorem token_injective {op op' : BinaryOp} (h : op.token = op'.token) : op = op' := by
  cases op <;> cases op' <;> first | rfl | cases h

/-- An operator does not extend its left operand's tighter parts. -/
theorem not_extends_operator (op : BinaryOp) : ¬ op.level.tighter.Extends op.token := by
  rintro (h | ⟨h, -⟩ | ⟨other, h, hle⟩)
  · cases op <;> cases h
  · cases op <;> cases h
  · cases token_injective h
    cases op <;> exact absurd hle (by decide)

theorem not_extends_dot : ¬ Level.operand.Extends .dot := by
  rintro (h | ⟨-, h⟩ | ⟨op, h, -⟩)
  · cases h
  · exact h rfl
  · cases op <;> cases h

/-- The levels whose operators stand between operands and group to the left. -/
def chainOp? : Level → Option (Token → Option BinaryOp)
  | .disjunction => some orOp?
  | .conjunction => some andOp?
  | .sum => some sumOp?
  | .product => some productOp?
  | _ => none

theorem exists_chainOp? {op : BinaryOp} (h : op.level ≠ .comparison) :
    ∃ op?, chainOp? op.level = some op? := by
  cases op <;> first | exact ⟨_, rfl⟩ | exact absurd rfl h

theorem operatorsOf_chainOp? {l : Level} {op? : Token → Option BinaryOp}
    (h : chainOp? l = some op?) : OperatorsOf l op? := by
  cases l <;> cases h
  · exact operatorsOf_orOp?
  · exact operatorsOf_andOp?
  · exact operatorsOf_sumOp?
  · exact operatorsOf_productOp?

/-- What may not follow a phrase of a level for the reader to get to the end of the phrase. -/
def stop : Level → Level
  | .comparison => .comparison
  | .signed => .signed
  | l => l.tighter

end Level

/-! ## Readers by level -/

namespace Grammar

variable {n : Nat}

/-- The reader of a level. -/
def rule (inner : Inner n) : Level → Rule n
  | .disjunction => layered inner
  | .conjunction => leftChain andOp? <| oneComparison <| leftChain sumOp? <|
    leftChain productOp? <| signed inner
  | .comparison => oneComparison <| leftChain sumOp? <| leftChain productOp? <| signed inner
  | .sum => leftChain sumOp? <| leftChain productOp? <| signed inner
  | .product => leftChain productOp? <| signed inner
  | .signed => signed inner
  | .postfixed => postfixed inner
  | .operand => primary inner

/-- What the reader of a level does after the beginning `e` of a phrase. -/
def resume (inner : Inner n) (l : Level) {input : Tokens} (e : Expr) (r : Tokens)
    (hr : r.length < input.length) (hn : input.length ≤ n) : Reading Expr input :=
  match l.chainOp? with
  | some op? => operations op? (rule inner l.tighter) e r hr hn
  | none => if l = .postfixed then postfixes inner e r hr hn else .ok ⟨e, r, hr⟩

theorem rule_of_chainOp? {inner : Inner n} {l : Level} {op? : Token → Option BinaryOp}
    (h : l.chainOp? = some op?) : rule inner l = leftChain op? (rule inner l.tighter) := by
  cases l <;> cases h <;> rfl

theorem resume_of_chainOp? {inner : Inner n} {l : Level} {op? : Token → Option BinaryOp}
    (h : l.chainOp? = some op?) {input : Tokens} (e : Expr) (r : Tokens)
    (hr : r.length < input.length) (hn : input.length ≤ n) :
    resume inner l e r hr hn = operations op? (rule inner l.tighter) e r hr hn := by
  rw [resume, h]

/-- A token that does not extend a phrase is no operator of its level. -/
theorem no_operator {l : Level} {op? : Token → Option BinaryOp} (hop : OperatorsOf l op?)
    {t : Token} (ht : ¬ l.Extends t) : op? t = none := by
  cases hsome : op? t with
  | none => rfl
  | some op =>
    obtain ⟨rfl, htoken⟩ := (hop t op).1 hsome
    exact absurd (Or.inr (Or.inr ⟨op, htoken, Nat.le_refl _⟩)) ht

/-- Where nothing extends a phrase, the reader ends with it. -/
theorem reads_resume {inner : Inner n} {l : Level} {input r : Tokens} {e : Expr}
    (hr : r.length < input.length) (hn : input.length ≤ n) (hstop : l.Stops r.kinds) :
    Reads (resume inner l e r hr hn) e r := by
  cases hchain : l.chainOp? with
  | some op? =>
    rw [resume_of_chainOp? hchain]
    cases r with
    | nil =>
      rw [operations]
      exact Reads.ok hr
    | cons t rest =>
      rw [operations, no_operator (Level.operatorsOf_chainOp? hchain) (hstop t.token rfl)]
      exact Reads.ok hr
  | none =>
    simp only [resume, hchain]
    split
    · next hl =>
      subst hl
      have hdot : takeFront? .dot r = none :=
        takeFront?_eq_none fun heq => hstop _ heq (Or.inr (Or.inl ⟨rfl, by decide⟩))
      rw [postfixes, hdot]
      exact Reads.ok hr
    · exact Reads.ok hr

/-- An operator and its right operand take the loop over operators one step further. -/
theorem reads_operations {op? : Token → Option BinaryOp} {operand : Rule n} {l : Level}
    (hop : OperatorsOf l op?) {op : BinaryOp} (hlevel : op.level = l) {input rest after : Tokens}
    {position : Position} {left right e : Expr} {r : Tokens}
    {hr : (⟨op.token, position⟩ :: rest : Tokens).length < input.length} {hn : input.length ≤ n}
    {hrest : rest.length ≤ n} {hafter : after.length < input.length}
    (hright : Reads (operand rest hrest) right after)
    (h : Reads (operations op? operand (.binary op left right) after hafter hn) e r) :
    Reads (operations op? operand left (⟨op.token, position⟩ :: rest) hr hn) e r := by
  have hsome : op? op.token = some op := (hop op.token op).2 ⟨hlevel, rfl⟩
  obtain ⟨hshorter, hright⟩ := hright
  rw [operations]
  simp only [hsome]
  exact Reads.bind hright h

/-! ## Completeness by level -/

/-- The reader of elements of a group. -/
def elementReader (inner : Inner n) (g : Group) (ts : Tokens) (h : ts.length < n) :
    Reading g.Element ts :=
  match g with
  | .arguments => arg inner ts h
  | .items => inner ts h
  | .entries => entry inner ts h

end Grammar

/-- What follows an element of a group: line ends, and then a comma or the end of the group. -/
def FollowsElement (v : List Token) : Prop :=
  ∃ k t rest, v = lineEnds k ++ t :: rest ∧ (t = .comma ∨ ∃ g : Group, t = g.close)

/-- A word is read with a value in every list of tokens that begins with it, if what comes next does
not extend it. -/
def Nonterminal.Complete : (n : Nonterminal) → List Token → n.Meaning → Prop
  | .expr l, w, e => ∀ (n : Nat) (ts : Tokens) (h : ts.length ≤ n) (v : List Token),
      ts.kinds = w ++ v → l.stop.Stops v →
      ∃ r, ∃ hr : r.length < ts.length, r.kinds = v ∧
        ∀ e' r', Reads (resume (Grammar.expr n) l e r hr h) e' r' →
          Reads (rule (Grammar.expr n) l ts h) e' r'
  | .element g, w, x => ∀ (n : Nat) (ts : Tokens) (h : ts.length < n) (v : List Token),
      ts.kinds = w ++ v → FollowsElement v →
      ∃ r, r.kinds = v ∧ Reads (elementReader (Grammar.expr n) g ts h) x r
  | .group g, w, xs => ∀ (n : Nat) (ts : Tokens) (h : ts.length < n) (v : List Token),
      ts.kinds = w ++ v →
      ∃ r, r.kinds = v ∧ Reads (elements g.close (elementReader (Grammar.expr n) g) ts h) xs r

section Complete

variable {l : Level} {w : List Token} {e : Expr}

/-- A phrase that nothing extends is read to its end. -/
theorem reads_of_complete (hc : (Nonterminal.expr l).Complete w e) {n : Nat} {ts : Tokens}
    (h : ts.length ≤ n) {v : List Token} (hts : ts.kinds = w ++ v) (hv : l.Stops v) :
    ∃ r, r.kinds = v ∧ Reads (rule (expr n) l ts h) e r := by
  have hstop : l.stop.Stops v := by
    cases l <;> first | exact hv | exact hv.tighter
  obtain ⟨r, hr, hkinds, hresume⟩ := hc n ts h v hts hstop
  refine ⟨r, hkinds, hresume e r (reads_resume hr h ?_)⟩
  rw [hkinds]
  exact hv

/-- A whole expression is read as an inner one. -/
theorem reads_expr_of_complete (hc : (Nonterminal.expr .disjunction).Complete w e) {n : Nat}
    {ts : Tokens} (h : ts.length < n) {v : List Token} (hts : ts.kinds = w ++ v)
    (hv : Level.disjunction.Stops v) : ∃ r, r.kinds = v ∧ Reads (expr n ts h) e r := by
  cases n with
  | zero => exact absurd h (Nat.not_lt_zero _)
  | succ n => exact reads_of_complete hc (Nat.le_of_lt_succ h) hts hv

theorem reads_oneComparison {n : Nat} {operand : Rule n} {ts : Tokens} {h : ts.length ≤ n}
    {r : Tokens} (hleft : Reads (operand ts h) e r) (hr : Level.comparison.Stops r.kinds) :
    Reads (oneComparison operand ts h) e r := by
  obtain ⟨hshorter, hleft⟩ := hleft
  apply Reads.bind hleft
  cases r with
  | nil => exact Reads.ok hshorter
  | cons t rest =>
    simp only [no_operator operatorsOf_comparisonOp? (hr t.token rfl)]
    exact Reads.ok hshorter

/-- A phrase of a tighter level is one of a level. -/
theorem complete_tighter (hphrase : Phrase (.expr l.tighter) w e)
    (hc : (Nonterminal.expr l.tighter).Complete w e) : (Nonterminal.expr l).Complete w e := by
  intro n ts h v hts hv
  cases hchain : l.chainOp? with
  | some op? =>
    have hstop : l.tighter.Stops v := by
      cases l <;> first | exact hv | cases hchain
    -- the phrase is the first operand, after which the loop over operators begins
    obtain ⟨r, hkinds, hr, hread⟩ := reads_of_complete hc h hts hstop
    refine ⟨r, hr, hkinds, ?_⟩
    intro e' r' hrest
    rw [rule_of_chainOp? hchain]
    rw [resume_of_chainOp? hchain] at hrest
    exact Reads.bind hread hrest
  | none =>
    -- the levels without a loop over operators are read each in its own way
    cases l with
    | disjunction | conjunction | sum | product => cases hchain
    | comparison =>
      obtain ⟨r, hkinds, hread⟩ := reads_of_complete hc h hts hv.tighter
      refine ⟨r, hread.1, hkinds, ?_⟩
      intro e' r' hrest
      obtain ⟨rfl, rfl⟩ := hrest.of_ok
      rw [← hkinds] at hv
      exact reads_oneComparison hread hv
    | signed =>
      obtain ⟨r, hkinds, hread⟩ := reads_of_complete hc h hts hv.tighter
      refine ⟨r, hread.1, hkinds, ?_⟩
      intro e' r' hrest
      obtain ⟨rfl, rfl⟩ := hrest.of_ok
      -- a tighter phrase has no sign in front, so the reader of signs hands it on
      obtain ⟨t, rest, rfl, hnot, hminus⟩ := hphrase.begins_unsigned (Or.inl rfl)
      obtain ⟨position, after, rfl, -⟩ := eq_cons_of_kinds hts
      change Reads (signed (Grammar.expr n) _ h) _ _
      rw [signed_eq_postfixed hnot hminus]
      exact hread
    | postfixed =>
      obtain ⟨r, hkinds, hr, hread⟩ := reads_of_complete hc h hts hv
      exact ⟨r, hr, hkinds, fun e' r' hrest => Reads.bind hread hrest⟩
    | operand => exact hc n ts h v hts hv

theorem complete_operation {op : BinaryOp} {u : List Token} {left right : Expr}
    (hop : op.level ≠ .comparison) (hleft : (Nonterminal.expr op.level).Complete u left)
    (hright : (Nonterminal.expr op.level.tighter).Complete w right) :
    (Nonterminal.expr op.level).Complete (u ++ op.token :: w) (.binary op left right) := by
  intro n ts h v hts hv
  obtain ⟨op?, hchain⟩ := Level.exists_chainOp? hop
  have hstop : op.level.stop = op.level.tighter := by
    cases op <;> first | rfl | exact absurd rfl hop
  rw [hstop] at hv
  -- the operator ends the left operand, and the loop over operators goes on with it
  obtain ⟨r, hr, hkinds, hresume⟩ := hleft n ts h (op.token :: (w ++ v))
    (by rw [hts, List.append_assoc]; rfl)
    (by rw [hstop]; exact Level.stops_cons (Level.not_extends_operator op))
  obtain ⟨position, rest, rfl, hrest⟩ := eq_cons_of_kinds hkinds
  have hshorter : rest.length < ts.length := Nat.lt_of_succ_lt hr
  -- the right operand begins further on, so the readers inside still have steps left
  have hfuel := Nat.le_of_lt (Nat.lt_of_lt_of_le hshorter h)
  obtain ⟨after, hafter, hread⟩ := reads_of_complete hright hfuel hrest hv
  refine ⟨after, Nat.lt_trans hread.1 hshorter, hafter, fun e' r' hmore => hresume e' r' ?_⟩
  rw [resume_of_chainOp? hchain] at hmore ⊢
  exact reads_operations (Level.operatorsOf_chainOp? hchain) rfl hread hmore

theorem complete_comparison {op : BinaryOp} {u : List Token} {left right : Expr}
    (hop : op.level = .comparison) (hleft : (Nonterminal.expr .sum).Complete u left)
    (hright : (Nonterminal.expr .sum).Complete w right) :
    (Nonterminal.expr .comparison).Complete (u ++ op.token :: w) (.binary op left right) := by
  intro n ts h v hts hv
  -- the operands of a comparison are sums, so the operator ends the left one
  have hstop : Level.sum.Stops (op.token :: (w ++ v)) := by
    have hop' := Level.not_extends_operator op
    rw [hop] at hop'
    exact Level.stops_cons hop'
  have hts' : ts.kinds = u ++ op.token :: (w ++ v) := by rw [hts, List.append_assoc]; rfl
  obtain ⟨r, hkinds, hr, hread⟩ := reads_of_complete hleft h hts' hstop
  obtain ⟨position, rest, rfl, hrest⟩ := eq_cons_of_kinds hkinds
  have hshorter : rest.length < ts.length := Nat.lt_of_succ_lt hr
  obtain ⟨after, hafter, hless, hread'⟩ := reads_of_complete hright
    (Nat.le_of_lt (Nat.lt_of_lt_of_le hshorter h)) hrest hv.tighter
  refine ⟨after, Nat.lt_trans hless hshorter, hafter, ?_⟩
  intro e' r' hmore
  obtain ⟨rfl, rfl⟩ := hmore.of_ok
  have hsome : comparisonOp? op.token = some op :=
    (operatorsOf_comparisonOp? op.token op).2 ⟨hop, rfl⟩
  apply Reads.bind hread
  simp only [hsome]
  exact Reads.bind hread' (Reads.ok _)

/-- A sign before a phrase that is read makes a phrase that is read. -/
theorem complete_sign {t : Token} {f : Expr → Expr}
    (hsign : ∀ {n : Nat} {position : Position} {rest r : Tokens} {e : Expr}
      (h : (⟨t, position⟩ :: rest : Tokens).length ≤ n),
      Reads (signed (Grammar.expr n) rest (Nat.le_of_succ_le h)) e r →
      Reads (signed (Grammar.expr n) (⟨t, position⟩ :: rest) h) (f e) r)
    (hc : (Nonterminal.expr .signed).Complete w e) :
    (Nonterminal.expr .signed).Complete (t :: w) (f e) := by
  intro n ts h v hts hv
  obtain ⟨position, rest, rfl, hrest⟩ := eq_cons_of_kinds hts
  obtain ⟨r, hkinds, hread⟩ := reads_of_complete hc (Nat.le_of_succ_le h) hrest hv
  refine ⟨r, Nat.lt_trans hread.1 (Nat.lt_succ_self _), hkinds, ?_⟩
  intro e' r' hmore
  obtain ⟨rfl, rfl⟩ := hmore.of_ok
  exact hsign h hread

theorem complete_not (hc : (Nonterminal.expr .signed).Complete w e) :
    (Nonterminal.expr .signed).Complete (.notWord :: w) (.unary .not e) := by
  refine complete_sign (fun h hread => ?_) hc
  rw [signed]
  exact Reads.bind hread.2 (Reads.ok _)

theorem complete_minus (hc : (Nonterminal.expr .signed).Complete w e) :
    (Nonterminal.expr .signed).Complete (.minus :: w) (negated e) := by
  refine complete_sign (fun h hread => ?_) hc
  rw [signed]
  exact Reads.bind hread.2 (Reads.ok _)

/-! ## After operands -/

theorem segment?_of_segment {t : Token} {s : String} (h : Segment t s) : segment? t = some s := by
  cases h <;> rfl

theorem no_parenthesis {r : Tokens} (h : l.Stops r.kinds) : takeFront? .leftParen r = none :=
  takeFront?_eq_none fun heq => h _ heq (Or.inl rfl)

theorem complete_segment {t : Token} {root segment : String} {path : List String}
    (hsegment : Segment t segment)
    (hc : (Nonterminal.expr .postfixed).Complete w (.property root path)) :
    (Nonterminal.expr .postfixed).Complete (w ++ [.dot, t])
      (.property root (path ++ [segment])) := by
  intro n ts h v hts hv
  obtain ⟨r, hr, hkinds, hresume⟩ := hc n ts h (.dot :: t :: v)
    (by rw [hts, List.append_assoc]; rfl) (Level.stops_cons Level.not_extends_dot)
  obtain ⟨position, rest, rfl, hrest⟩ := eq_cons_of_kinds hkinds
  obtain ⟨position', after, rfl, hafter⟩ := eq_cons_of_kinds hrest
  have hshorter : after.length < ts.length := Nat.lt_of_succ_lt (Nat.lt_of_succ_lt hr)
  refine ⟨after, hshorter, hafter, fun e' r' hmore => hresume e' r' ?_⟩
  change Reads (postfixes _ _ _ _ _) _ _
  -- no parenthesis follows, so the segment is not the name of a method
  rw [← hafter] at hv
  rw [postfixes]
  simp only [takeFront?_cons, segment?_of_segment hsegment, no_parenthesis hv]
  exact hmore

theorem complete_method {u : List Token} {t : Token} {name : String} {arguments : List (Arg Expr)}
    (hsegment : Segment t name) (hc : (Nonterminal.expr .postfixed).Complete u e)
    (harguments : (Nonterminal.group .arguments).Complete w arguments) :
    (Nonterminal.expr .postfixed).Complete (u ++ .dot :: t :: .leftParen :: w)
      (.method e name (arguments.map Arg.value)) := by
  intro n ts h v hts hv
  obtain ⟨r, hr, hkinds, hresume⟩ := hc n ts h (.dot :: t :: .leftParen :: (w ++ v))
    (by rw [hts, List.append_assoc]; rfl) (Level.stops_cons Level.not_extends_dot)
  obtain ⟨position, rest, rfl, hrest⟩ := eq_cons_of_kinds hkinds
  obtain ⟨position', after, rfl, hafter⟩ := eq_cons_of_kinds hrest
  obtain ⟨position'', inside, rfl, hinside⟩ := eq_cons_of_kinds hafter
  have hshorter : inside.length < ts.length :=
    Nat.lt_of_succ_lt (Nat.lt_of_succ_lt (Nat.lt_of_succ_lt hr))
  obtain ⟨more, hmore, hless, hread⟩ :=
    harguments n inside (Nat.lt_of_lt_of_le hshorter h) v hinside
  refine ⟨more, Nat.lt_trans hless hshorter, hmore, fun e' r' hgoes => hresume e' r' ?_⟩
  change Reads (postfixes _ _ _ _ _) _ _
  rw [postfixes]
  simp only [takeFront?_cons, segment?_of_segment hsegment]
  exact Reads.bind hread hgoes

/-! ## Operands -/

/-- An operand is read from its first token. -/
theorem complete_operand {t : Token}
    (hread : ∀ {n : Nat} {position : Position} {rest : Tokens} (h : rest.length < n)
      (v : List Token), rest.kinds = w ++ v → Level.operand.Stops v →
      ∃ r, r.kinds = v ∧
        Reads (operandFrom (Grammar.expr n) ⟨t, position⟩ rest h) e r) :
    (Nonterminal.expr .operand).Complete (t :: w) e := by
  intro n ts h v hts hv
  obtain ⟨position, rest, rfl, hrest⟩ := eq_cons_of_kinds hts
  obtain ⟨r, hkinds, hoperand⟩ := hread h v hrest hv
  refine ⟨r, hoperand.1, hkinds, ?_⟩
  intro e' r' hmore
  obtain ⟨rfl, rfl⟩ := hmore.of_ok
  exact hoperand

theorem complete_literal {t : Token} {x : Value} (hliteral : Literal t x) :
    (Nonterminal.expr .operand).Complete [t] (.literal x) := by
  refine complete_operand fun {n position rest} h v hrest _ => ⟨rest, hrest, ?_⟩
  cases hliteral <;> exact Reads.ok _

theorem complete_name (s : String) : (Nonterminal.expr .operand).Complete [.name s] (.name s) := by
  refine complete_operand fun {n position rest} h v hrest hv => ⟨rest, hrest, ?_⟩
  rw [List.nil_append] at hrest
  rw [← hrest] at hv
  simp only [operandFrom, nameOrCall, no_parenthesis hv]
  exact Reads.ok _

theorem complete_call (s : String) {arguments : List (Arg Expr)}
    (hc : (Nonterminal.group .arguments).Complete w arguments) :
    (Nonterminal.expr .operand).Complete (.name s :: .leftParen :: w) (.call s arguments) := by
  apply complete_operand
  intro n position rest h v hrest _
  obtain ⟨position', inside, rfl, hinside⟩ := eq_cons_of_kinds hrest
  have hinner : inside.length < n := Nat.lt_trans (Nat.lt_succ_self _) h
  obtain ⟨r, hkinds, hless, hread⟩ := hc n inside hinner v hinside
  refine ⟨r, hkinds, ?_⟩
  have hargs : args (Grammar.expr n) inside hinner = .ok ⟨arguments, r, hless⟩ := hread
  simp only [operandFrom, nameOrCall, takeFront?_cons, hargs]
  exact Reads.ok _

theorem complete_function (k : Nat) (s : String) :
    (Nonterminal.expr .operand).Complete (.at :: (lineEnds k ++ [.name s])) (.function s []) := by
  apply complete_operand
  intro n position rest h v hrest hv
  rw [List.append_assoc] at hrest
  obtain ⟨after, ⟨hless, hname⟩, hafter⟩ := expectName_of_kinds (w := v) hrest
  refine ⟨after, hafter, ?_⟩
  -- what follows is no parenthesis, so the reference has no arguments
  rw [← hafter] at hv
  simp only [operandFrom]
  refine Reads.bind (b := ⟨.function s [], after, hless⟩) ?_ (Reads.ok _)
  unfold Grammar.function
  rw [hname]
  simp only [Bind.bind, Except.bind, no_parenthesis hv]
  rfl

theorem complete_functionCall (k : Nat) (s : String) {arguments : List (Arg Expr)}
    (hc : (Nonterminal.group .arguments).Complete w arguments) :
    (Nonterminal.expr .operand).Complete (.at :: (lineEnds k ++ .name s :: .leftParen :: w))
      (.function s arguments) := by
  apply complete_operand
  intro n position rest h v hrest hv
  rw [List.append_assoc] at hrest
  obtain ⟨after, ⟨hless, hname⟩, hafter⟩ := expectName_of_kinds (w := .leftParen :: (w ++ v)) hrest
  obtain ⟨position', inside, rfl, hinside⟩ := eq_cons_of_kinds hafter
  have hinner : inside.length < n := Nat.lt_trans (Nat.lt_of_succ_lt hless) h
  obtain ⟨r, hkinds, hmore, hread⟩ := hc n inside hinner v hinside
  have hargs : args (Grammar.expr n) inside hinner = .ok ⟨arguments, r, hmore⟩ := hread
  have hshorter : r.length < rest.length := Nat.lt_trans hmore (Nat.lt_of_succ_lt hless)
  refine ⟨r, hkinds, ?_⟩
  simp only [operandFrom]
  refine Reads.bind (b := ⟨.function s arguments, r, hshorter⟩) ?_ (Reads.ok _)
  unfold Grammar.function
  rw [hname]
  simp only [Bind.bind, Except.bind, takeFront?_cons, hargs]
  rfl

theorem complete_list {items : List Expr} (hc : (Nonterminal.group .items).Complete w items) :
    (Nonterminal.expr .operand).Complete (.leftBracket :: w) (.list items) := by
  apply complete_operand
  intro n position rest h v hrest _
  obtain ⟨r, hkinds, hless, hread⟩ := hc n rest h v hrest
  exact ⟨r, hkinds, Reads.bind hread (Reads.ok _)⟩

theorem complete_map {entries : List (String × Expr)}
    (hc : (Nonterminal.group .entries).Complete w entries) :
    (Nonterminal.expr .operand).Complete (.leftBrace :: w) (.map entries) := by
  apply complete_operand
  intro n position rest h v hrest _
  obtain ⟨r, hkinds, hless, hread⟩ := hc n rest h v hrest
  exact ⟨r, hkinds, Reads.bind hread (Reads.ok _)⟩

/-! ## Elements and groups -/

theorem FollowsElement.stops {v : List Token} (h : FollowsElement v) (l : Level) : l.Stops v := by
  obtain ⟨k, t, rest, rfl, ht⟩ := h
  cases k with
  | zero =>
    apply Level.stops_cons
    rintro (h | ⟨h, -⟩ | ⟨op, h, -⟩)
    all_goals rcases ht with rfl | ⟨g, rfl⟩
    · cases h
    · cases g <;> cases h
    · cases h
    · cases g <;> cases h
    · cases op <;> cases h
    · cases g <;> cases op <;> cases h
  | succ k =>
    apply Level.stops_cons
    rintro (h | ⟨h, -⟩ | ⟨op, h, -⟩)
    · cases h
    · cases h
    · cases op <;> cases h

theorem FollowsElement.head_ne_assign {v : List Token} (h : FollowsElement v) :
    v.head? ≠ some .assign := by
  obtain ⟨k, t, rest, rfl, ht⟩ := h
  intro heq
  cases k with
  | zero =>
    rcases ht with rfl | ⟨g, rfl⟩
    · cases heq
    · cases g <;> cases heq
  | succ k => cases heq

theorem follows_close (k : Nat) (g : Group) (v : List Token) :
    FollowsElement (lineEnds k ++ g.close :: v) := ⟨k, g.close, v, rfl, Or.inr ⟨g, rfl⟩⟩

theorem complete_parentheses (j k : Nat) (hphrase : Phrase (.expr .disjunction) w e)
    (hc : (Nonterminal.expr .disjunction).Complete w e) :
    (Nonterminal.expr .operand).Complete
      (.leftParen :: (lineEnds j ++ w ++ lineEnds k ++ [.rightParen])) e := by
  apply complete_operand
  intro n position rest h v hrest _
  have hword : rest.kinds = lineEnds j ++ (w ++ (lineEnds k ++ .rightParen :: v)) := by
    rw [hrest]
    simp only [List.append_assoc, List.cons_append, List.nil_append]
  -- a phrase does not begin with a line end, so all of those after the parenthesis are skipped
  have hbegin : (w ++ (lineEnds k ++ .rightParen :: v)).head? ≠ some .newline := by
    obtain ⟨t, more, rfl, ht, -⟩ := hphrase.begins nofun
    exact fun heq => ht (Option.some.inj heq)
  have hskip := skipNewlines_of_kinds hword hbegin
  have hshorter := Nat.lt_of_le_of_lt (skipNewlines_length_le rest) h
  obtain ⟨after, hafter, hless, hread⟩ := reads_expr_of_complete hc hshorter hskip
    ((follows_close k .arguments v).stops _)
  obtain ⟨⟨more, hmore⟩, htake, hkinds⟩ := take?_of_kinds hafter nofun
  refine ⟨more, hkinds, ?_⟩
  simp only [operandFrom]
  exact Reads.bind hread (Reads.bind (expect_of_take? htake) (Reads.ok _))

theorem complete_keyword (s : String) (hc : (Nonterminal.expr .disjunction).Complete w e) :
    (Nonterminal.element .arguments).Complete (.name s :: .assign :: w) ⟨some s, e⟩ := by
  intro n ts h v hts hv
  obtain ⟨position, rest, rfl, hrest⟩ := eq_cons_of_kinds hts
  obtain ⟨position', after, rfl, hafter⟩ := eq_cons_of_kinds hrest
  obtain ⟨r, hkinds, hless, hread⟩ :=
    reads_expr_of_complete hc (Nat.lt_of_succ_lt (Nat.lt_of_succ_lt h)) hafter (hv.stops _)
  exact ⟨r, hkinds, Reads.bind hread (Reads.ok _)⟩

theorem arg_eq_positional {n : Nat} {inner : Inner n} {ts : Tokens} (h : ts.length < n)
    (hts : ∀ s rest, ts.kinds ≠ .name s :: .assign :: rest) :
    arg inner ts h = (inner ts h).map (Consumed.map (Arg.mk none)) := by
  unfold arg
  split
  · exact absurd rfl (hts _ _)
  · cases inner _ _ <;> rfl

theorem complete_positional (hphrase : Phrase (.expr .disjunction) w e)
    (hc : (Nonterminal.expr .disjunction).Complete w e) :
    (Nonterminal.element .arguments).Complete w ⟨none, e⟩ := by
  intro n ts h v hts hv
  obtain ⟨r, hkinds, hless, hread⟩ := reads_expr_of_complete hc h hts (hv.stops _)
  refine ⟨r, hkinds, hless, ?_⟩
  -- a name that is a phrase of its own has no assignment after it
  have hword : ∀ s rest, ts.kinds ≠ .name s :: .assign :: rest := by
    rw [hts]
    exact hphrase.not_keyword ⟨_, rfl⟩ hv.head_ne_assign
  simp only [elementReader]
  rw [arg_eq_positional h hword, hread]
  rfl

theorem complete_entry {t separator : Token} {name : String} (hname : EntryName t name)
    (hseparator : separator = .colon ∨ separator = .assign)
    (hc : (Nonterminal.expr .disjunction).Complete w e) :
    (Nonterminal.element .entries).Complete (t :: separator :: w) (name, e) := by
  intro n ts h v hts hv
  obtain ⟨position, rest, rfl, hrest⟩ := eq_cons_of_kinds hts
  obtain ⟨position', after, rfl, hafter⟩ := eq_cons_of_kinds hrest
  obtain ⟨r, hkinds, hless, hread⟩ :=
    reads_expr_of_complete hc (Nat.lt_of_succ_lt (Nat.lt_of_succ_lt h)) hafter (hv.stops _)
  have hkey : mapKey (⟨t, position⟩ :: ⟨separator, position'⟩ :: after) = .ok (.one name) := by
    cases hname <;> rfl
  have hafterKey : afterKey (⟨separator, position'⟩ :: after) = .ok (.one ()) := by
    rcases hseparator with rfl | rfl <;> rfl
  exact ⟨r, hkinds, Reads.bind hkey (Reads.bind hafterKey (Reads.bind hread (Reads.ok _)))⟩

theorem complete_closed (g : Group) (k : Nat) :
    (Nonterminal.group g).Complete (lineEnds k ++ [g.close]) [] := by
  intro n ts h v hts
  rw [List.append_assoc] at hts
  obtain ⟨⟨r, hless⟩, htake, hkinds⟩ := take?_of_kinds hts (by cases g <;> nofun)
  refine ⟨r, hkinds, ?_⟩
  rw [elements, htake]
  exact Reads.ok hless

/-- A group whose first element is read goes on after it with a comma or ends. -/
theorem reads_elements {g : Group} {j n : Nat} {x : g.Element} {v : List Token}
    (hphrase : Phrase (.element g) w x) (hc : (Nonterminal.element g).Complete w x) {ts : Tokens}
    (h : ts.length < n) (hts : ts.kinds = lineEnds j ++ (w ++ v)) (hv : FollowsElement v) :
    ∃ after : Tokens, ∃ hafter : after.length < (skipNewlines ts).length, after.kinds = v ∧
      take? g.close ts = none ∧
      elementReader (Grammar.expr n) g (skipNewlines ts)
        (Nat.lt_of_le_of_lt (skipNewlines_length_le ts) h) = .ok ⟨x, after, hafter⟩ := by
  obtain ⟨t, more, rfl, hnewline, hclose⟩ := hphrase.begins nofun
  have hhead : ((t :: more) ++ v).head? ≠ some .newline := fun heq => hnewline (Option.some.inj heq)
  have hskip := skipNewlines_of_kinds hts hhead
  obtain ⟨after, hkinds, hless, hread⟩ := hc n (skipNewlines ts) _ v hskip hv
  refine ⟨after, hless, hkinds, ?_, hread⟩
  exact take?_eq_none hts hhead fun heq => hclose g (Option.some.inj heq)

theorem complete_last {g : Group} (j k : Nat) {x : g.Element} (hphrase : Phrase (.element g) w x)
    (hc : (Nonterminal.element g).Complete w x) :
    (Nonterminal.group g).Complete (lineEnds j ++ w ++ lineEnds k ++ [g.close]) [x] := by
  intro n ts h v hts
  -- after the element there is no comma, so the group has to end
  have hword : ts.kinds = lineEnds j ++ (w ++ (lineEnds k ++ g.close :: v)) := by
    rw [hts]
    simp only [List.append_assoc, List.cons_append, List.nil_append]
  obtain ⟨after, hafter, hkinds, hnone, hread⟩ :=
    reads_elements hphrase hc h hword (follows_close k g v)
  have hclose : g.close ≠ .newline := by cases g <;> nofun
  have hcomma : take? .comma after = none := by
    refine take?_eq_none hkinds ?_ ?_
    · cases g <;> nofun
    · cases g <;> nofun
  obtain ⟨⟨r, hr⟩, htake, hrest⟩ := take?_of_kinds hkinds hclose
  refine ⟨r, hrest, ?_⟩
  rw [elements, hnone]
  apply Reads.bind hread
  simp only [hcomma]
  exact Reads.bind (expect_of_take? htake) (Reads.ok _)

theorem complete_next {g : Group} (j k : Nat) {u : List Token} {x : g.Element}
    {xs : List g.Element} (hphrase : Phrase (.element g) u x)
    (hc : (Nonterminal.element g).Complete u x) (hcs : (Nonterminal.group g).Complete w xs) :
    (Nonterminal.group g).Complete (lineEnds j ++ u ++ lineEnds k ++ .comma :: w) (x :: xs) := by
  intro n ts h v hts
  have hword : ts.kinds = lineEnds j ++ (u ++ (lineEnds k ++ .comma :: (w ++ v))) := by
    rw [hts]
    simp only [List.append_assoc, List.cons_append]
  obtain ⟨after, hafter, hkinds, hnone, hread⟩ :=
    reads_elements hphrase hc h hword ⟨k, .comma, w ++ v, rfl, Or.inl rfl⟩
  obtain ⟨⟨rest, hrest⟩, htake, hmore⟩ := take?_of_kinds hkinds (by decide)
  have hless : rest.length < n :=
    Nat.lt_trans hrest (Nat.lt_trans hafter (Nat.lt_of_le_of_lt (skipNewlines_length_le ts) h))
  obtain ⟨r, hr, hreads⟩ := hcs n rest hless v hmore
  refine ⟨r, hr, ?_⟩
  rw [elements, hnone]
  apply Reads.bind hread
  simp only [htake]
  exact Reads.bind hreads.2 (Reads.ok _)

end Complete

/-- Whatever the grammar derives is read. -/
theorem Phrase.complete {n : Nonterminal} {w : List Token} {x : n.Meaning} (h : Phrase n w x) :
    n.Complete w x := by
  -- by induction on the derivation, one lemma for each rule of the grammar
  induction h with
  | tighter l h ih => exact complete_tighter h ih
  | operation op hop _ _ ihl ihr => exact complete_operation hop ihl ihr
  | comparison op hop _ _ ihl ihr => exact complete_comparison hop ihl ihr
  | not _ ih => exact complete_not ih
  | minusInt _ ih | minusFloat _ ih => exact complete_minus ih
  | minus _ hint hfloat ih =>
    have hneg := complete_minus ih
    rwa [negated] at hneg
    · exact hint
    · exact hfloat
  | segment _ hsegment ih => exact complete_segment hsegment ih
  | method _ hsegment _ ih iha => exact complete_method hsegment ih iha
  | literal hliteral => exact complete_literal hliteral
  | name s => exact complete_name s
  | call s _ ih => exact complete_call s ih
  | function k s => exact complete_function k s
  | functionCall k s _ ih => exact complete_functionCall k s ih
  | parentheses j k h ih => exact complete_parentheses j k h ih
  | list _ ih => exact complete_list ih
  | map _ ih => exact complete_map ih
  | keyword s _ ih => exact complete_keyword s ih
  | positional h ih => exact complete_positional h ih
  | item _ ih =>
    intro n ts h v hts hv
    exact reads_expr_of_complete ih h hts (hv.stops _)
  | entry hname hseparator _ ih => exact complete_entry hname hseparator ih
  | closed g k => exact complete_closed g k
  | last g j k h ih => exact complete_last j k h ih
  | next g j k h _ ih ihs => exact complete_next j k h ih ihs

end DawScript
