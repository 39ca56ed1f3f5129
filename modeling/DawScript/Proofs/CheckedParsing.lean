import DawScript.Proofs.CheckedRun
import DawScript.Proofs.PhraseSoundness
import DawScript.Proofs.TokenList
import DawScript.Syntax.Grammar
import Mathlib.Data.List.DropRight

/-!
# Checked parsing

The parser as it goes through the tokens of a script by their index, with a check at every token
read or taken, at every round of a loop, at every recursive call and at every negation of an
integer. What each step does is said of the tokens that stand at the index (`At`), and a run agrees
with a reader of lists if it finds what the reader finds there (`Agrees`).
-/

set_option autoImplicit false

namespace DawScript

/-- A run through tokens. Its place is the index of the next token. -/
abbrev Parser (α : Type) := Checked Nat α

namespace Parser

open Checked

variable (all : List PlacedToken)

/-- The places in a list of tokens. -/
def extent : Extent Nat := ⟨id, all.length⟩

/-! ## Tokens -/

/-- The next token, or the last one behind the end. There has to be one. -/
def peek : Parser PlacedToken := do
  match all[min (← get) (all.length - 1)]? with
  | some t => return t
  | none => trap .noToken

/-- Takes the next token, which must not be the end of the script. -/
def advance : Parser Unit := do
  if (← peek all).token = .endOfScript then trap .endTaken
  else modify fun q => if q < all.length then q + 1 else q

/-- Whether the script ends here. -/
def atEnd : Parser Bool := do
  if all.length ≤ (← get) then return true
  else return (← peek all).token == .endOfScript

/-- Whether the token `t` comes next. -/
def check (t : Token) : Parser Bool := do
  if ← atEnd all then return false
  else return (← peek all).token == t

/-- Passes over one line end if there is one. -/
def newlineRound (_ : Unit) : Parser (Unit ⊕ Unit) := do
  if ← check all .newline then
    modify (· + 1)
    return .inl ()
  else return .inr ()

/-- Passes over line ends. -/
def skipNewlines : Parser Unit := iterate (extent all) (newlineRound all) ()

/-- Passes over line ends if the token `t` comes after them. -/
def checkPastNewlines (t : Token) : Parser Bool := do
  let saved ← get
  skipNewlines all
  if ← check all t then return true
  else
    set saved
    return false

/-- The fault that another token was wanted. -/
def unexpected {α : Type} (wanted : Wanted) (t : PlacedToken) : Parser α :=
  fail (.malformed (.unexpected wanted t.token) t.position)

/-- Takes the token `t`, which has to come next after line ends. -/
def expect (t : Token) : Parser Unit := do
  skipNewlines all
  let u ← peek all
  if u.token = t then advance all
  else unexpected (.token t) u

/-- Takes a name, which has to come next after line ends. -/
def expectName : Parser String := do
  skipNewlines all
  let t ← peek all
  match t.token with
  | .name s =>
    advance all
    return s
  | _ => unexpected .identifier t

/-! ## Arguments, lists and maps -/

section Groups

variable (inner : Parser Expr)

/-- Takes an argument. -/
def arg : Parser (Arg Expr) := do
  let first ← peek all
  let second := all[(← get) + 1]?.map PlacedToken.token
  match first.token, second with
  | .name _, some .assign =>
    let keyword ← expectName all
    advance all
    return ⟨some keyword, ← inner⟩
  | _, _ => return ⟨none, ← inner⟩

/-- Takes one argument and the comma or the closing parenthesis after it. -/
def argsRound (taken : List (Arg Expr)) : Parser (List (Arg Expr) ⊕ List (Arg Expr)) := do
  skipNewlines all
  let a ← arg all inner
  skipNewlines all
  if ← check all .comma then
    advance all
    skipNewlines all
    if ← check all .rightParen then
      advance all
      return .inr (taken ++ [a])
    else return .inl (taken ++ [a])
  else
    expect all .rightParen
    return .inr (taken ++ [a])

/-- Takes arguments after the opening parenthesis. -/
def args : Parser (List (Arg Expr)) := do
  skipNewlines all
  if ← check all .rightParen then
    advance all
    return []
  else iterate (extent all) (argsRound all inner) []

/-- Takes the token that closes a group, or an element and what comes after it. -/
def groupRound {α : Type} (close : Token) (element : Parser α) (taken : List α) :
    Parser (List α ⊕ List α) := do
  skipNewlines all
  if ← check all close then
    advance all
    return .inr taken
  else
    let x ← element
    skipNewlines all
    if ← check all .comma then
      advance all
      return .inl (taken ++ [x])
    else
      expect all close
      return .inr (taken ++ [x])

/-- Takes the elements of a group between brackets. -/
def group {α : Type} (opening close : Token) (element : Parser α) : Parser (List α) := do
  expect all opening
  iterate (extent all) (groupRound all close element) []

/-- Takes the name of an entry of a map. -/
def mapKey : Parser String := do
  let t ← peek all
  match t.token with
  | .name s =>
    advance all
    return s
  | .string s =>
    advance all
    return s
  | _ => unexpected .mapKey t

/-- Takes the colon or the equals sign after the name of an entry. -/
def afterKey : Parser Unit := do
  if (← check all .colon) || (← check all .assign) then advance all
  else unexpected .colonAfterKey (← peek all)

/-- Takes an entry of a map. -/
def entry : Parser (String × Expr) := do
  let key ← mapKey all
  afterKey all
  return (key, ← inner)

end Groups

/-! ## Expressions -/

section Expressions

variable (inner : Parser Expr)

/-- Takes a function reference after its sign. -/
def function : Parser Expr := do
  let name ← expectName all
  if ← check all .leftParen then
    advance all
    return .function name (← args all inner)
  else return .function name []

/-- Takes the arguments after a name if there are any. -/
def nameOrCall (name : String) : Parser Expr := do
  if ← check all .leftParen then
    advance all
    return .call name (← args all inner)
  else return .name name

/-- Takes an operand. -/
def primary : Parser Expr := do
  let t ← peek all
  match t.token with
  | .leftParen =>
    advance all
    skipNewlines all
    let e ← inner
    expect all .rightParen
    return e
  | .leftBracket => return .list (← group all .leftBracket .rightBracket inner)
  | .leftBrace => return .map (← group all .leftBrace .rightBrace (entry all inner))
  | .at =>
    advance all
    function all inner
  | .name s =>
    advance all
    nameOrCall all inner s
  | token =>
    match Grammar.literal? token with
    | some v =>
      advance all
      return .literal v
    | none => unexpected .expression t

/-- Takes one path segment or method call if there is one. -/
def postfixRound (e : Expr) : Parser (Expr ⊕ Expr) := do
  if ← check all .dot then
    advance all
    let t ← peek all
    match Grammar.segment? t.token with
    | none => unexpected .propertyName t
    | some segment =>
      advance all
      if ← check all .leftParen then
        advance all
        let arguments ← args all inner
        return .inl (.method e segment (arguments.map Arg.value))
      else match Grammar.access e segment t.position with
        | .ok longer => return .inl longer
        | .error fault => fail fault
  else return .inr e

/-- Takes an operand with the segments and method calls after it. -/
def postfixed : Parser Expr := do
  iterate (extent all) (postfixRound all inner) (← primary all inner)

/-- The negation of an expression, which must not be the least integer. -/
def negate (e : Expr) : Parser Expr :=
  match e with
  | .literal (.int n) =>
    if n = Int64.minValue then trap .leastNegated else return .literal (.int (-n))
  | e => return Grammar.negated e

/-- Takes an operand with the signs before it, where `self` takes one after a sign. -/
def signedWith (self : Parser Expr) : Parser Expr := do
  match (← peek all).token with
  | .notWord =>
    advance all
    return .unary .not (← self)
  | .minus =>
    advance all
    negate (← self)
  | _ => postfixed all inner

/-- Takes an operand with the signs before it. -/
def signed : Parser Expr := descend (extent all) (signedWith all inner)

/-- Takes an operator and an operand if the operator is of a level. -/
def operationRound (op? : Token → Option BinaryOp) (operand : Parser Expr) (left : Expr) :
    Parser (Expr ⊕ Expr) := do
  match op? (← peek all).token with
  | none => return .inr left
  | some op =>
    advance all
    return .inl (.binary op left (← operand))

/-- Takes operands with operators of one level between them. -/
def leftChain (op? : Token → Option BinaryOp) (operand : Parser Expr) : Parser Expr := do
  iterate (extent all) (operationRound all op? operand) (← operand)

/-- Takes one operand, or two with a comparison between them. -/
def oneComparison (operand : Parser Expr) : Parser Expr := do
  let left ← operand
  match Grammar.comparisonOp? (← peek all).token with
  | none => return left
  | some op =>
    advance all
    return .binary op left (← operand)

/-- Takes an expression, where `inner` takes those inside of it. -/
def layered : Parser Expr :=
  leftChain all Grammar.orOp? <| leftChain all Grammar.andOp? <| oneComparison all <|
    leftChain all Grammar.sumOp? <| leftChain all Grammar.productOp? <| signed all inner

end Expressions

/-- Takes an expression. -/
def expr : Parser Expr := descend (extent all) (layered all)

/-! ## Programs -/

/-- Takes a call. -/
def call : Parser Call := do
  let name ← expectName all
  expect all .leftParen
  return ⟨name, ← args all (expr all)⟩

/-- Whether a point comes next, perhaps after line ends, which are then passed over. -/
def goesOn : Parser Bool := do
  if ← check all .dot then return true
  else checkPastNewlines all .dot

/-- Takes a point and a call after it if there is a point. -/
def chainRound (calls : List Call) : Parser (List Call ⊕ List Call) := do
  if ← goesOn all then
    advance all
    return .inl (calls ++ [← call all])
  else return .inr calls

/-- Takes a chain of calls. -/
def chain : Parser Chain := do
  return ⟨← iterate (extent all) (chainRound all) [← call all]⟩

/-- Takes a chain and the line ends after it, unless the script ends. -/
def programRound (chains : List Chain) : Parser (List Chain ⊕ List Chain) := do
  if ← atEnd all then return .inr chains
  else
    let c ← chain all
    if !(← atEnd all) && !(← check all .newline) then unexpected .endOfStatement (← peek all)
    else
      skipNewlines all
      return .inl (chains ++ [c])

/-- Takes all chains of a script. -/
def program : Parser Program := do
  skipNewlines all
  return ⟨← iterate (extent all) (programRound all) []⟩

/-! ## What stands at an index -/

/-- The tokens from an index on, which end with the end of the script. -/
def At (q : Nat) (ts : Tokens) : Prop := all.drop q = ts ∧ ts.Ended

variable {all} {q r : Nat} {t : PlacedToken} {ts rest : Tokens}

theorem At.exists_cons (h : At all q ts) : ∃ t rest, ts = t :: rest :=
  List.exists_cons_of_ne_nil h.2.ne_nil

theorem At.length (h : At all q ts) : q + ts.length = all.length := by
  have hpos := List.length_pos_iff.2 h.2.ne_nil
  have hlength := congrArg List.length h.1
  rw [List.length_drop] at hlength
  omega

theorem At.lt (h : At all q ts) : q < all.length := by
  have hlength := h.length
  have hpos := List.length_pos_iff.2 h.2.ne_nil
  omega

theorem At.unique (h : At all q ts) (hr : At all r ts) : q = r := by
  have hlength := h.length
  have hlength' := hr.length
  omega

/-- A place with fewer tokens after it is later. -/
theorem At.later (h : At all q ts) (hr : At all r rest) (hlt : rest.length < ts.length) :
    (extent all).Later q r := by
  have hlength := h.length
  have hlength' := hr.length
  simp only [Extent.Later, extent, id]
  omega

theorem At.tail (h : At all q (t :: rest)) (ht : t.token ≠ .endOfScript) : At all (q + 1) rest := by
  refine ⟨by rw [← List.drop_drop, h.1, List.drop_one, List.tail_cons], ?_⟩
  exact h.2.of_append (w := [t.token]) rfl (by simpa using ht.symm)

theorem At.getElem? (h : At all q (t :: rest)) : all[q]? = some t := by
  rw [← List.head?_drop, h.1, List.head?_cons]

/-! ## Steps of the parser -/

theorem run_peek (h : At all q (t :: rest)) : (peek all).run q = .ok (t, q) := by
  have hmin : min q (all.length - 1) = q := by
    have := h.lt
    omega
  rw [peek, run_bind_ok (a := q) (t := q) rfl, hmin, h.getElem?]
  rfl

theorem run_advance (h : At all q (t :: rest)) (ht : t.token ≠ .endOfScript) :
    (advance all).run q = .ok ((), q + 1) := by
  rw [advance, run_bind_ok (run_peek h), if_neg ht]
  change Except.ok ((), if q < all.length then q + 1 else q) = _
  rw [if_pos h.lt]

theorem run_atEnd (h : At all q ts) : (atEnd all).run q = .ok (ts.atEnd, q) := by
  rw [atEnd, run_bind_ok (a := q) (t := q) rfl, if_neg (Nat.not_le.2 h.lt)]
  obtain ⟨t, rest, rfl⟩ := h.exists_cons
  rw [run_bind_ok (run_peek h)]
  rfl

theorem run_peek_front (h : At all q ts) : (peek all).run q = .ok (ts.front, q) := by
  obtain ⟨t, rest, rfl⟩ := h.exists_cons
  exact run_peek h

/-- The token `u` is in front and can be taken, or another one is in front. -/
theorem front_cases (u : Token) (hu : u ≠ .endOfScript) (h : At all q ts) :
    (ts.front.token = u ∧ ∃ rest hrest, Tokens.takeFront? u ts = some ⟨rest, hrest⟩ ∧
      (advance all).run q = .ok ((), q + 1) ∧ At all (q + 1) rest) ∨
    (ts.front.token ≠ u ∧ Tokens.takeFront? u ts = none) := by
  obtain ⟨t, rest, rfl⟩ := h.exists_cons
  by_cases ht : t.token = u
  · have hend : t.token ≠ .endOfScript := ht ▸ hu
    exact Or.inl ⟨ht, rest, by simp, if_pos ht, run_advance h hend, h.tail hend⟩
  · exact Or.inr ⟨ht, if_neg ht⟩

theorem run_check (u : Token) (hu : u ≠ .endOfScript) (h : At all q ts) :
    (check all u).run q = .ok (ts.front.token == u, q) := by
  rw [check, run_bind_ok (run_atEnd h)]
  cases hend : ts.atEnd with
  | true =>
    have hfront : ts.front.token = .endOfScript := eq_of_beq hend
    rw [hfront, beq_eq_false_iff_ne.2 hu.symm]
    rfl
  | false =>
    change (peek all >>= _).run q = _
    rw [run_bind_ok (run_peek_front h)]
    rfl

/-- A check for a token finds what can be taken from the front. -/
theorem check_cases (u : Token) (hu : u ≠ .endOfScript) (h : At all q ts) :
    (∃ rest hrest, Tokens.takeFront? u ts = some ⟨rest, hrest⟩ ∧
      (check all u).run q = .ok (true, q) ∧ (advance all).run q = .ok ((), q + 1) ∧
      At all (q + 1) rest) ∨
    (Tokens.takeFront? u ts = none ∧ (check all u).run q = .ok (false, q)) := by
  have hcheck := run_check u hu h
  obtain ⟨hfront, rest, hrest, htake, hadvance, hat⟩ | ⟨hfront, htake⟩ := front_cases u hu h
  · rw [beq_iff_eq.2 hfront] at hcheck
    exact Or.inl ⟨rest, hrest, htake, hcheck, hadvance, hat⟩
  · rw [beq_eq_false_iff_ne.2 hfront] at hcheck
    exact Or.inr ⟨htake, hcheck⟩

/-- A name is in front and can be taken, or none is in front. -/
theorem frontName_cases (h : At all q ts) :
    (∃ s rest hrest, Tokens.frontName? ts = some ⟨s, rest, hrest⟩ ∧ ts.front.token = .name s ∧
      (advance all).run q = .ok ((), q + 1) ∧ At all (q + 1) rest) ∨
    (Tokens.frontName? ts = none ∧ ∀ s, ts.front.token ≠ .name s) := by
  obtain ⟨⟨token, position⟩, rest, rfl⟩ := h.exists_cons
  cases token with
  | name s => exact Or.inl ⟨s, rest, by simp, rfl, rfl, run_advance h nofun, h.tail nofun⟩
  | _ => exact Or.inr ⟨rfl, nofun⟩

/-- Passing over line ends at an index leads to the tokens that a list has after its line ends. -/
def Leads (all : List PlacedToken) (q : Nat) (ts : Tokens) : Prop :=
  ∃ r, (skipNewlines all).run q = .ok ((), r) ∧ At all r ts.skipNewlines

theorem At.leads (h : At all q ts) : Leads all q ts := by
  induction ts generalizing q with
  | nil => exact absurd rfl h.2.ne_nil
  | cons t rest ih =>
    have hcheck : (check all .newline).run q = .ok (t.token == .newline, q) :=
      run_check .newline nofun h
    rw [Leads, Tokens.skipNewlines_cons]
    by_cases ht : t.token = .newline
    · have hend : t.token ≠ .endOfScript := by
        rw [ht]
        nofun
      obtain ⟨r, hr, hrest⟩ := ih (h.tail hend)
      refine ⟨r, ?_, by rwa [if_pos ht]⟩
      rw [skipNewlines, iterate_next () (t := q + 1) ?_
        (h.later (h.tail hend) (by simp))]
      · exact hr
      · rw [newlineRound, run_bind_ok hcheck, beq_iff_eq.2 ht]
        rfl
    · refine ⟨q, iterate_done ?_, by rwa [if_neg ht]⟩
      rw [newlineRound, run_bind_ok hcheck, beq_eq_false_iff_ne.2 ht]
      rfl

/-- The same holds where the line ends have been passed over already. -/
theorem At.leads_of_skipped (h : At all q ts.skipNewlines) : Leads all q ts := by
  obtain ⟨r, hr, hat⟩ := h.leads
  have htwice : ts.skipNewlines.skipNewlines = ts.skipNewlines := List.dropWhile_idempotent _ ts
  rw [htwice] at hat
  exact ⟨r, hr, hat⟩

/-- After line ends, a check for a token finds what can be taken after them. -/
theorem Leads.check_cases (u : Token) (hu : u ≠ .endOfScript) (h : Leads all q ts) :
    ∃ r, (skipNewlines all).run q = .ok ((), r) ∧ At all r ts.skipNewlines ∧
      ((∃ rest hrest, Tokens.take? u ts = some ⟨rest, hrest⟩ ∧
        (check all u).run r = .ok (true, r) ∧ (advance all).run r = .ok ((), r + 1) ∧
        At all (r + 1) rest) ∨
      (Tokens.take? u ts = none ∧ (check all u).run r = .ok (false, r))) := by
  obtain ⟨r, hskip, hr⟩ := h
  refine ⟨r, hskip, hr, ?_⟩
  obtain ⟨rest, hrest, htake, hcheck, hadvance, hat⟩ | ⟨htake, hcheck⟩ := Parser.check_cases u hu hr
  · exact Or.inl ⟨rest, _, by rw [Tokens.take?, htake]; rfl, hcheck, hadvance, hat⟩
  · exact Or.inr ⟨by rw [Tokens.take?, htake]; rfl, hcheck⟩

/-! ## Agreement with readers of lists -/

/-- A run from an index agrees with a result that was read of the list there: it has the same
value and stands before the same rest, or it has the same fault, which is one of the script's
text. -/
def Agrees (all : List PlacedToken) {α γ : Type} (c : Parser α) (q : Nat) (x : Except Fault γ)
    (value : γ → α) (rest : γ → Tokens) : Prop :=
  match x with
  | .ok y => ∃ r, c.run q = .ok (value y, r) ∧ At all r (rest y)
  | .error fault => fault.Malformed ∧ c.run q = .error (.fault fault)

section Agrees

variable {α β γ δ : Type} {c d : Parser α} {g : α → Parser β} {x : Except Fault γ}
  {f : γ → Except Fault δ} {value : γ → α} {rest : γ → Tokens} {value' : δ → β}
  {rest' : δ → Tokens} {y : Except Fault δ} {a : α}

theorem Agrees.congr (hrun : c.run q = d.run r) (h : Agrees all d r x value rest) :
    Agrees all c q x value rest := by
  unfold Agrees at h ⊢
  rwa [hrun]

theorem Agrees.step (hrun : c.run q = .ok (a, r)) (h : Agrees all (g a) r y value' rest') :
    Agrees all (c >>= g) q y value' rest' :=
  h.congr (run_bind_ok hrun)

theorem Agrees.bind (hc : Agrees all c q x value rest)
    (hg : ∀ z r, x = .ok z → At all r (rest z) →
      Agrees all (g (value z)) r (f z) value' rest') :
    Agrees all (c >>= g) q (x >>= f) value' rest' := by
  cases x with
  | error fault => exact ⟨hc.1, run_bind_error hc.2⟩
  | ok z =>
    obtain ⟨r, hrun, hr⟩ := hc
    exact (hg z r rfl hr).congr (run_bind_ok hrun)

theorem Agrees.ok {z : γ} (hrun : c.run q = .ok (value z, r)) (hr : At all r (rest z)) :
    Agrees all c q (.ok z) value rest :=
  ⟨r, hrun, hr⟩

theorem Agrees.fault {fault : Fault} (hfault : fault.Malformed)
    (hrun : c.run q = .error (.fault fault)) : Agrees all c q (.error fault) value rest :=
  ⟨hfault, hrun⟩

/-- What was read may be put into something else. -/
theorem Agrees.wrap {put : γ → δ} {value' : δ → α} (h : Agrees all c q x value rest)
    (hvalue : ∀ z, value' (put z) = value z) (hrest : ∀ z, rest' (put z) = rest z) :
    Agrees all c q (x >>= fun z => .ok (put z)) value' rest' := by
  cases x with
  | error fault => exact h
  | ok z =>
    obtain ⟨r, hrun, hr⟩ := h
    exact ⟨r, by rw [hrun, hvalue], by rwa [hrest]⟩

theorem Agrees.pure {z : γ} (hvalue : value z = a) (hr : At all q (rest z)) :
    Agrees all (pure a) q (.ok z) value rest :=
  ⟨q, by rw [hvalue, run_pure], hr⟩

section Rounds

variable {ρ : Type} {body : ρ → Parser (ρ ⊕ α)} {start after : ρ} {s : Nat}

theorem Agrees.iterate
    (h : Agrees all (body start >>= proceed (extent all) body q) q x value rest) :
    Agrees all (iterate (extent all) body start) q x value rest :=
  h.congr (run_iterate start q)

/-- The last round of a loop. -/
theorem Agrees.done {z : γ} (hvalue : value z = a) (hr : At all q (rest z)) :
    Agrees all (Pure.pure (.inr a) >>= proceed (extent all) body s) q (.ok z) value rest := by
  rw [pure_bind]
  exact Agrees.pure hvalue hr

/-- Any other round of a loop. -/
theorem Agrees.next (hlater : (extent all).Later s q)
    (h : Agrees all (Checked.iterate (extent all) body after) q x value rest) :
    Agrees all (Pure.pure (.inl after) >>= proceed (extent all) body s) q x value rest := by
  rw [pure_bind]
  exact h.congr (run_proceed hlater)

end Rounds

end Agrees

theorem agrees_expect (u : Token) (hu : u ≠ .endOfScript) (h : Leads all q ts) :
    Agrees all (expect all u) q (Tokens.expect u ts) (fun _ => ()) Subtype.val := by
  obtain ⟨r, hskip, hr⟩ := h
  refine Agrees.step hskip (Agrees.step (run_peek_front hr) ?_)
  obtain ⟨hfront, rest, hrest, htake, hadvance, hat⟩ | ⟨hfront, htake⟩ := front_cases u hu hr
  · rw [Tokens.expect, Tokens.take?, htake, if_pos hfront]
    exact Agrees.ok hadvance hat
  · rw [Tokens.expect, Tokens.take?, htake, if_neg hfront]
    exact Agrees.fault ⟨_, _, rfl⟩ rfl

theorem agrees_expectName (h : Leads all q ts) :
    Agrees all (expectName all) q (Tokens.expectName ts) Consumed.value Consumed.rest := by
  obtain ⟨r, hskip, hr⟩ := h
  refine Agrees.step hskip (Agrees.step (run_peek_front hr) ?_)
  obtain ⟨s, rest, hrest, hname, hfront, hadvance, hat⟩ | ⟨hname, hfront⟩ := frontName_cases hr
  · rw [Tokens.expectName, hname, hfront]
    exact Agrees.step hadvance (Agrees.ok (run_pure s _) hat)
  · rw [Tokens.expectName, hname]
    split
    · next s hs => exact absurd hs (hfront s)
    · exact Agrees.fault ⟨_, _, rfl⟩ rfl

end Parser

end DawScript
