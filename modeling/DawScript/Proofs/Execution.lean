import DawScript.Run.Interpret

/-!
# Executing runs

What a run makes of a state, construct by construct, and the facts that inductions over expressions
rest on: an induction principle that reaches the arguments of function references (`Expr.rec'`), the
arguments of a call as a map over its expressions (`operands_eq_map`), and those of a command as
expressions that are evaluated in the order of its parameters (`argumentValues_eq`).
-/

set_option autoImplicit false

namespace DawScript

variable {α β : Type}

namespace Run

/-- What a run makes of a state: its outcome and the state that it leaves. -/
def exec (x : Run α) (s : State) : Except Fault α × State := x.run.run s

@[simp] theorem exec_pure (a : α) (s : State) : (pure a : Run α).exec s = (.ok a, s) := rfl

@[simp] theorem exec_throw (fault : Fault) (s : State) :
    (throw fault : Run α).exec s = (.error fault, s) := rfl

@[simp] theorem exec_get (s : State) : (get : Run State).exec s = (.ok s, s) := rfl

@[simp] theorem exec_modify (f : State → State) (s : State) :
    (modify f : Run Unit).exec s = (.ok (), f s) := rfl

@[simp] theorem exec_lift (result : Except Fault α) (s : State) :
    (liftM result : Run α).exec s = (result, s) := by
  cases result <;> rfl

@[simp] theorem exec_store (name : String) (v : Value) (s : State) :
    (store name v).exec s = (.ok (), s.store name v) := rfl

@[simp] theorem exec_emit (kind : ActionKind) (fields : List (String × Value)) (s : State) :
    (emit kind fields).exec s = (.ok (), s.emit (.of kind fields)) := rfl

@[simp] theorem exec_aim (track : Int64) (s : State) :
    (aim track).exec s = (.ok (), { s with target := track }) := rfl

theorem exec_aimedAt (track : Int64) (x : Run α) (s : State) :
    (aimedAt track x).exec s =
      ((x.exec { s with target := track }).1,
        { (x.exec { s with target := track }).2 with target := s.target }) := rfl

theorem exec_bind (x : Run α) (f : α → Run β) (s : State) :
    (x >>= f).exec s = match x.exec s with
      | (.ok a, t) => (f a).exec t
      | (.error fault, t) => (.error fault, t) := by
  change (ExceptT.bindCont f (x.exec s).1 : StateM State (Except Fault β)) (x.exec s).2 = _
  rcases x.exec s with ⟨_ | _, t⟩ <;> rfl

theorem exec_bind_ok {x : Run α} {s t : State} {a : α} (h : x.exec s = (.ok a, t))
    (f : α → Run β) : (x >>= f).exec s = (f a).exec t := by
  rw [exec_bind, h]

theorem exec_bind_error {x : Run α} {s t : State} {fault : Fault}
    (h : x.exec s = (.error fault, t)) (f : α → Run β) :
    (x >>= f).exec s = (.error fault, t) := by
  rw [exec_bind, h]

theorem exec_map (g : α → β) (x : Run α) (s : State) :
    (g <$> x).exec s = ((x.exec s).1.map g, (x.exec s).2) := by
  rw [map_eq_pure_bind, exec_bind]
  rcases x.exec s with ⟨_ | _, t⟩ <;> rfl

theorem exec_tryCatch (x : Run α) (handler : Fault → Run α) (s : State) :
    (tryCatch x handler).exec s = match x.exec s with
      | (.ok a, t) => (.ok a, t)
      | (.error fault, t) => (handler fault).exec t := by
  simp only [tryCatch, tryCatchThe, MonadExceptOf.tryCatch, ExceptT.tryCatch]
  unfold exec ExceptT.run StateT.run
  simp only [ExceptT.mk, bind, StateT.bind]
  cases x s with
  | mk outcome t => cases outcome <;> rfl

/-- Naming the call of a fault changes neither a value nor the state. -/
theorem exec_within (name written : String) (x : Run α) (s : State) :
    (tryCatch x fun fault => throw (fault.within name written)).exec s =
      ((x.exec s).1.mapError (Fault.within name written), (x.exec s).2) := by
  rw [exec_tryCatch]
  rcases x.exec s with ⟨_ | _, t⟩ <;> rfl

theorem exec_settle (env : Env) (c : Combinator) (position : Nat) (x : Run Value) (s : State) :
    (settle env c position x).exec s = match x.exec s with
      | (.ok v, t) => (.ok (some v), t)
      | (.error fault, t) =>
        if env.config.strict then (.error fault, t)
        else (.ok none, t.skip ⟨c.name, position, fault.message⟩) := by
  rw [settle, exec_tryCatch, exec_map]
  rcases x.exec s with ⟨fault | v, t⟩
  · cases env.config.strict <;> rfl
  · rfl

/-- Two runs that make the same of every state are the same. -/
theorem ext {x y : Run α} (h : ∀ s, x.exec s = y.exec s) : x = y := funext h

theorem lift_ok_bind (a : α) (f : α → Run β) :
    ((liftM (Except.ok a : Except Fault α) : Run α) >>= f) = f a := ext fun _ => rfl

theorem lift_error_bind (fault : Fault) (f : α → Run β) :
    ((liftM (Except.error fault : Except Fault α) : Run α) >>= f) = throw fault := ext fun _ => rfl

theorem lift_map_bind {γ : Type} (f : α → β) (x : Except Fault α) (g : β → Run γ) :
    ((liftM (x.map f) : Run β) >>= g) = (liftM x >>= fun a => g (f a)) := by
  cases x <;> rfl

end Run

/-! ## Expressions -/

namespace Expr

/-- The arguments of a function reference; other expressions have none. -/
def ownArguments : Expr → List (Arg Expr)
  | .function _ arguments => arguments
  | _ => []

/-- Induction on expressions. A call may use the hypothesis for the arguments of the function
references among its arguments, since a combinator evaluates these itself. -/
@[elab_as_elim]
theorem rec' {motive : Expr → Prop}
    (literal : ∀ v, motive (.literal v))
    (list : ∀ items, (∀ e ∈ items, motive e) → motive (.list items))
    (map : ∀ entries, (∀ entry ∈ entries, motive entry.2) → motive (.map entries))
    (property : ∀ root path, motive (.property root path))
    (binary : ∀ op left right, motive left → motive right → motive (.binary op left right))
    (unary : ∀ op operand, motive operand → motive (.unary op operand))
    (method : ∀ target name arguments, motive target → (∀ e ∈ arguments, motive e) →
      motive (.method target name arguments))
    (call : ∀ name arguments, (∀ a ∈ arguments, motive a.value) →
      (∀ a ∈ arguments, ∀ b ∈ a.value.ownArguments, motive b.value) →
      motive (.call name arguments))
    (function : ∀ name arguments, (∀ a ∈ arguments, motive a.value) →
      motive (.function name arguments)) :
    ∀ e, motive e := by
  -- the arguments of an argument are smaller than the call, so the size carries the induction
  suffices bounded : ∀ n, ∀ e : Expr, sizeOf e < n → motive e from
    fun e => bounded (sizeOf e + 1) e (Nat.lt_succ_self _)
  intro n
  induction n with
  | zero => exact fun e h => absurd h (Nat.not_lt_zero _)
  | succ n ih =>
    have argument {arguments : List (Arg Expr)} {a : Arg Expr} (ha : a ∈ arguments) :
        sizeOf a.value < sizeOf arguments := by
      have hmem := List.sizeOf_lt_of_mem ha
      obtain ⟨keyword, value⟩ := a
      simp only [Arg.mk.sizeOf_spec] at hmem
      simp only
      omega
    intro e h
    cases e with
    | literal v => exact literal v
    | property root path => exact property root path
    | list items =>
      refine list items fun e he => ih e ?_
      have hmem := List.sizeOf_lt_of_mem he
      simp only [Expr.list.sizeOf_spec] at h
      omega
    | map entries =>
      refine map entries fun entry hentry => ih entry.2 ?_
      have hmem := List.sizeOf_lt_of_mem hentry
      obtain ⟨name, value⟩ := entry
      simp only [Prod.mk.sizeOf_spec] at hmem
      simp only [Expr.map.sizeOf_spec] at h
      simp only
      omega
    | binary op left right =>
      simp only [Expr.binary.sizeOf_spec] at h
      exact binary op left right (ih left (by omega)) (ih right (by omega))
    | unary op operand =>
      simp only [Expr.unary.sizeOf_spec] at h
      exact unary op operand (ih operand (by omega))
    | method target name arguments =>
      simp only [Expr.method.sizeOf_spec] at h
      refine method target name arguments (ih target (by omega)) fun e he => ih e ?_
      have hmem := List.sizeOf_lt_of_mem he
      omega
    | call name arguments =>
      simp only [Expr.call.sizeOf_spec] at h
      refine call name arguments (fun a ha => ih _ ?_) fun a ha b hb => ih _ ?_
      · have hmem := argument ha
        omega
      · have hmem := argument ha
        cases hvalue : a.value with
        | function inner own =>
          -- `b` is inside the reference and the reference inside the call
          rw [hvalue] at hb hmem
          have hown : sizeOf b.value < sizeOf own := argument hb
          simp only [Expr.function.sizeOf_spec] at hmem
          omega
        | _ => simp [hvalue, ownArguments] at hb
    | function name arguments =>
      simp only [Expr.function.sizeOf_spec] at h
      refine function name arguments fun a ha => ih _ ?_
      have hmem := argument ha
      omega

end Expr

/-! ## Arguments of calls -/

/-- Changes the value of an argument and leaves its keyword. -/
def Arg.map (f : α → β) (a : Arg α) : Arg β := ⟨a.keyword, f a.value⟩

/-- What an expression does in runs. -/
def meaning (env : Env) (e : Expr) : Meaning := ⟨e, evaluate env e⟩

/-- What an expression and its own arguments do in runs. -/
def operand (env : Env) (e : Expr) : Operand := ⟨meaning env e, ownArguments env e⟩

theorem meanings_eq_map (env : Env) (arguments : List (Arg Expr)) :
    meanings env arguments = arguments.map (Arg.map (meaning env)) := by
  induction arguments with
  | nil => simp [meanings]
  | cons a rest ih =>
    rw [meanings, ih]
    rfl

theorem operands_eq_map (env : Env) (arguments : List (Arg Expr)) :
    operands env arguments = arguments.map (Arg.map (operand env)) := by
  induction arguments with
  | nil => simp [operands]
  | cons a rest ih =>
    rw [operands, ih]
    rfl

/-- The call of a command runs it with what its arguments do. -/
theorem runNamed_of_command (env : Env) {c : Command} {name : String}
    (arguments : List (Arg Expr)) (scope : Option Binding)
    (hnot : Combinator.ofName? name = none) (hcommand : Command.ofName? name = some c) :
    runNamed env name (operands env arguments) scope =
      runCommand env c (meanings env arguments) scope := by
  have hmeanings : ((operands env arguments).map fun a =>
      (⟨a.keyword, a.value.toMeaning⟩ : Arg Meaning)) = meanings env arguments := by
    rw [operands_eq_map, meanings_eq_map, List.map_map]
    rfl
  simp only [runNamed, hnot, hcommand, hmeanings]

/-- The own arguments of an expression, each with what it does. -/
theorem operand_arguments (env : Env) (e : Expr) :
    (operand env e).arguments = e.ownArguments.map (Arg.map (meaning env)) := by
  change ownArguments env e = _
  cases e with
  | function name arguments => rw [ownArguments, meanings_eq_map]; rfl
  | _ => simp [ownArguments, Expr.ownArguments]

/-- The values given to parameters, each changed by `f`. -/
def mapGiven (f : α → β) (given : List (String × α)) : List (String × β) :=
  given.map (Prod.map id f)

theorem lookup_mapGiven (f : α → β) (given : List (String × α)) (p : String) :
    (mapGiven f given).lookup p = (given.lookup p).map f := by
  induction given with
  | nil => rfl
  | cons entry rest ih =>
    obtain ⟨name, v⟩ := entry
    simp only [mapGiven, List.map_cons, Prod.map_apply, id_eq, List.lookup_cons] at ih ⊢
    cases hname : p == name with
    | true => rfl
    | false => exact ih

theorem required_mapGiven (f : α → β) (given : List (String × α)) (p : String) :
    required (mapGiven f given) p = (required given p).map f := by
  simp only [required, lookup_mapGiven]
  cases given.lookup p <;> rfl

theorem assignFrom_map (f : α → β) (parameters : List String) (arguments : List (Arg α)) :
    ∀ (position : Nat) (given : List (String × α)),
      assignFrom parameters position (mapGiven f given) (arguments.map (Arg.map f)) =
        (assignFrom parameters position given arguments).map (mapGiven f) := by
  induction arguments with
  | nil => exact fun _ _ => rfl
  | cons a rest ih =>
    intro position given
    simp only [List.map_cons, assignFrom]
    -- the parameter depends on the keyword and the position, which `f` leaves as they are
    have hparameter : parameter? parameters position (a.map f) = parameter? parameters position a :=
      rfl
    rw [hparameter]
    cases parameter? parameters position a with
    | none => rfl
    | some p =>
      simp only [lookup_mapGiven, Option.isSome_map]
      split
      · rfl
      · have happend : mapGiven f given ++ [(p, (a.map f).value)] =
            mapGiven f (given ++ [(p, a.value)]) := by
          simp [mapGiven, Arg.map]
        rw [happend, ih]

/-- Which argument is meant for which parameter does not depend on what the arguments are. -/
theorem assign_map (f : α → β) (parameters : List String) (arguments : List (Arg α)) :
    assign parameters (arguments.map (Arg.map f)) =
      (assign parameters arguments).map (mapGiven f) :=
  assignFrom_map f parameters arguments 0 []

/-- What is given to a parameter is the value of an argument. -/
theorem mem_of_assignFrom {parameters : List String} {arguments : List (Arg α)} :
    ∀ {position : Nat} {given result : List (String × α)},
      assignFrom parameters position given arguments = .ok result →
        ∀ entry ∈ result, entry ∈ given ∨ ∃ a ∈ arguments, a.value = entry.2 := by
  induction arguments with
  | nil =>
    intro position given result h entry hentry
    cases h
    exact Or.inl hentry
  | cons a rest ih =>
    intro position given result h entry hentry
    rw [assignFrom] at h
    split at h
    · cases h
    · next p _ =>
      split at h
      · cases h
      · -- given before `a`, given with `a`, or given after it
        rcases ih h entry hentry with hgiven | ⟨b, hb, hvalue⟩
        · rcases List.mem_append.1 hgiven with hgiven | hnew
          · exact Or.inl hgiven
          · cases List.mem_singleton.1 hnew
            exact Or.inr ⟨a, List.mem_cons_self, rfl⟩
        · exact Or.inr ⟨b, List.mem_cons_of_mem _ hb, hvalue⟩

theorem mem_of_lookup {given : List (String × α)} {p : String} {v : α}
    (h : given.lookup p = some v) : (p, v) ∈ given := by
  induction given with
  | nil => cases h
  | cons entry rest ih =>
    obtain ⟨name, held⟩ := entry
    rw [List.lookup_cons] at h
    split at h
    · next heq =>
      cases h
      rw [eq_of_beq heq]
      exact List.mem_cons_self
    · exact List.mem_cons_of_mem _ (ih h)

/-- What is found under a parameter is the value of an argument. -/
theorem mem_of_assign_lookup {parameters : List String} {arguments : List (Arg α)}
    {given : List (String × α)} (h : assign parameters arguments = .ok given) {p : String} {v : α}
    (hv : given.lookup p = some v) : ∃ a ∈ arguments, a.value = v := by
  rcases mem_of_assignFrom h _ (mem_of_lookup hv) with hnil | hmem
  · cases hnil
  · exact hmem

theorem lookup_of_required {given : List (String × α)} {p : String} {v : α}
    (h : required given p = .ok v) : given.lookup p = some v := by
  unfold required at h
  split at h
  · next heq =>
    cases h
    exact heq
  · cases h

/-! ## The values of arguments -/

/-- What is given, in the order of the parameters. -/
def inParameterOrder (parameters : List String) (given : List (String × α)) :
    List (String × α) :=
  parameters.filterMap fun p => (given.lookup p).map (Prod.mk p)

theorem mem_inParameterOrder {parameters : List String} {given : List (String × α)} {p : String}
    {v : α} :
    (p, v) ∈ inParameterOrder parameters given ↔ p ∈ parameters ∧ given.lookup p = some v := by
  simp only [inParameterOrder, List.mem_filterMap, Option.map_eq_some_iff, Prod.mk.injEq]
  constructor
  · rintro ⟨q, hq, w, hw, rfl, rfl⟩
    exact ⟨hq, hw⟩
  · rintro ⟨hp, hv⟩
    exact ⟨p, hp, v, hv, rfl, rfl⟩

/-- What is found in the order of the parameters is given. -/
theorem lookup_of_mem_inParameterOrder {parameters : List String} {given : List (String × α)}
    {v : α} (h : v ∈ (inParameterOrder parameters given).map Prod.snd) :
    ∃ p, given.lookup p = some v := by
  obtain ⟨⟨p, _⟩, hmem, rfl⟩ := List.mem_map.1 h
  exact ⟨p, (mem_inParameterOrder.1 hmem).2⟩

theorem map_snd_inParameterOrder (parameters : List String) (given : List (String × α)) :
    (inParameterOrder parameters given).map Prod.snd =
      parameters.filterMap fun p => given.lookup p := by
  rw [inParameterOrder, List.map_filterMap]
  congr 1
  funext p
  cases given.lookup p <;> rfl

/-- The values for parameters, of which null counts as no value. -/
def present (names : List String) (values : List Value) : Values :=
  (names.zip values).filter fun entry => !entry.2.isNull

theorem present_cons (p : String) (names : List String) (v : Value) (values : List Value) :
    present (p :: names) (v :: values) =
      if v.isNull then present names values else (p, v) :: present names values := by
  cases hnull : v.isNull <;> simp [present, hnull]

/-- The arguments of a command are evaluated in the order of its parameters. -/
theorem argumentValues_eq (env : Env) (given : List (String × Expr)) (scope : Option Binding)
    (parameters : List String) :
    argumentValues (mapGiven (meaning env) given) scope parameters =
      present ((inParameterOrder parameters given).map Prod.fst) <$>
        evaluateItems env ((inParameterOrder parameters given).map Prod.snd) scope := by
  induction parameters with
  | nil =>
    change argumentValues _ scope [] = present [] <$> evaluateItems env [] scope
    rw [argumentValues, evaluateItems, map_pure]
    rfl
  | cons p rest ih =>
    rw [argumentValues, lookup_mapGiven, inParameterOrder, List.filterMap_cons]
    cases given.lookup p with
    | none => exact ih
    | some e =>
      change (evaluate env e scope >>= fun v => argumentValues _ scope rest >>= fun others =>
          pure (if v.isNull then others else (p, v) :: others)) =
        present (p :: _) <$> evaluateItems env (e :: _) scope
      rw [evaluateItems, ih]
      simp only [map_bind, map_pure, present_cons, bind_map_left]
      rfl

/-! ## Equations of the combinators -/

/-- The items of a collection and the name they go by, from its value. -/
def itemsOf (name : String) (v : Value) : Run (List Value × String) :=
  match v with
  | .list items => return (items, name)
  | other => throw (.notASequence other.kind)

theorem collection_eq (m : Meaning) (scope : Option Binding) :
    collection m scope = match m.source.name? with
      | some s => get >>= fun t => itemsOf (itemName s) ((t.symbol? s).getD (.list []))
      | none => m.value scope >>= itemsOf "item" := by
  unfold collection
  cases m.source.name? with
  | some s => rfl
  | none => rfl

theorem storeKeyword?_map (f : α → β) (arguments : List (Arg α)) :
    storeKeyword? (arguments.map (Arg.map f)) =
      (storeKeyword? arguments).map (Prod.map id f) := by
  match arguments with
  | [] => rfl
  | [⟨none, _⟩] => rfl
  | [⟨some key, v⟩] =>
    simp only [storeKeyword?, List.map_cons, List.map_nil, Arg.map]
    split <;> rfl
  | _ :: _ :: _ => simp [storeKeyword?]

theorem mem_of_storeKeyword? {arguments : List (Arg α)} {key : String} {v : α}
    (h : storeKeyword? arguments = some (key, v)) : ∃ a ∈ arguments, a.value = v := by
  unfold storeKeyword? at h
  split at h
  · split at h
    · cases h
    · cases h
      exact ⟨_, List.mem_cons_self, rfl⟩
  · cases h

/-- What `store` does with the expressions given to its two parameters. -/
def storeGiven (env : Env) (given : List (String × Expr)) (scope : Option Binding) : Run Value := do
  let nameSource ← required given "name"
  let name ← storeName (meaning env nameSource) scope
  let source ← required given "value"
  let v ← evaluate env source scope
  Run.store name v
  return .null

theorem runStore_eq (env : Env) (arguments : List (Arg Expr)) (scope : Option Binding) :
    runStore (arguments.map (Arg.map (operand env))) scope =
      match storeKeyword? arguments with
      | some (key, e) => evaluate env e scope >>= fun v => Run.store key v >>= fun _ => pure .null
      | none => liftM (assign Combinator.store.parameters arguments) >>= fun given =>
          storeGiven env given scope := by
  unfold runStore
  rw [storeKeyword?_map]
  cases storeKeyword? arguments with
  | some pair => rfl
  | none =>
    simp only [Option.map_none, assign_map, Run.lift_map_bind, required_mapGiven, storeGiven]
    rfl

/-! ## Runs of calls -/

/-- The state that a run of calls leaves, also when it fails. -/
def Env.final (env : Env) (calls : List Call) (actions : Array Action) : State :=
  ((runCalls env calls).exec (env.initial actions)).2

theorem initial_actions (env : Env) (actions : Array Action) :
    (env.initial actions).actions = actions := by
  unfold Env.initial
  split <;> rfl

theorem initial_skipped (env : Env) (actions : Array Action) :
    (env.initial actions).skipped = #[] := by
  unfold Env.initial
  split <;> rfl

theorem interpret_eq (env : Env) (calls : List Call) (actions : Array Action) :
    interpret env calls actions = match (runCalls env calls).exec (env.initial actions) with
      | (.error fault, t) => (.error fault, t.actions)
      | (.ok _, t) =>
        if t.actions.size = actions.size then (.error .noActions, t.actions)
        else (.ok ⟨t.skipped, t.symbols⟩, t.actions) := by
  unfold interpret Run.exec
  rcases (runCalls env calls).run.run (env.initial actions) with ⟨_ | _, t⟩ <;> rfl

/-- The actions of an interpretation are those of the state that its run leaves. -/
theorem interpret_actions (env : Env) (calls : List Call) (actions : Array Action) :
    (interpret env calls actions).2 = (env.final calls actions).actions := by
  rw [interpret_eq, Env.final]
  rcases (runCalls env calls).exec (env.initial actions) with ⟨_ | _, t⟩
  · rfl
  · simp only
    split <;> rfl

end DawScript
