import DawScript.Proofs.CommandSteps
import DawScript.Proofs.Task

/-!
# Induction over the tasks of a run

What a task makes of a state has a property as soon as the steps that tasks are made of have it:
what a task begins counts for the task, and sequencing, commands, settling an item and naming the
call of a fault keep the property (`TaskProperty.evaluate`, `TaskProperty.runCalls`). The induction
over expressions follows the order in which a run begins its tasks and is done here once.
-/

set_option autoImplicit false

namespace DawScript

variable {α β : Type}

/-- A property of what a part of a task, begun in a state, makes of it: an outcome and the state
left. Every step of a run has it, and for a task it is enough that what the task begins has it. -/
structure TaskProperty (env : Env) where
  holds : {α : Type} → Task × State → State → Except Fault α × State → Prop
  done {α : Type} {p : Task × State} {s : State} (a : α) : holds p s (.ok a, s)
  failed {α : Type} {p : Task × State} {s : State} {fault : Fault} :
    fault.isBare = true → holds p s ((.error fault, s) : Except Fault α × State)
  stored {p : Task × State} {s : State} (name : String) (v : Value) :
    holds p s (.ok (), s.store name v)
  bind {α β : Type} {p : Task × State} {s : State} {x : Run α} {f : α → Run β} :
    holds p s (x.exec s) → (∀ a t, x.exec s = (.ok a, t) → holds p t ((f a).exec t)) →
      holds p s ((x >>= f).exec s)
  begun {α : Type} {p q : Task × State} {s : State} {result : Except Fault α × State} :
    Begins env p q → holds q s result → holds p s result
  command (c : Command) (values : Values) (s : State) :
    holds (.command c values, s) s ((c.run env values).exec s)
  aimed (c : Command) (values : Values) (track : Int64) (s : State) :
    holds (.command c values, { s with target := track }) s
      ((Run.aimedAt track (c.run env values)).exec s)
  settled {p : Task × State} {s : State} {x : Run Value} (c : Combinator) (position : Nat) :
    holds p s (x.exec s) → holds p s ((settle env c position x).exec s)
  called {name : String} {arguments : List (Arg Expr)} {scope : Option Binding} {s : State} :
    holds (.evaluate (.call name arguments) scope, s) s
        ((runNamed env name (operands env arguments) scope).exec s) →
      holds (.evaluate (.call name arguments) scope, s) s
        ((runCall env name (argumentsText arguments) (operands env arguments) scope).exec s)

namespace TaskProperty

variable {env : Env} (P : TaskProperty env) {p : Task × State} {s : State}

/-! ## Steps that leave the state -/

theorem lift {x : Except Fault α} (hx : FailsBare x) : P.holds p s ((liftM x : Run α).exec s) := by
  rw [Run.exec_lift]
  cases x with
  | ok a => exact P.done a
  | error fault => exact P.failed (hx fault rfl)

theorem lift_bind {x : Except Fault α} {f : α → Run β} (hx : FailsBare x)
    (hf : ∀ a, x = .ok a → P.holds p s ((f a).exec s)) :
    P.holds p s (((liftM x : Run α) >>= f).exec s) := by
  apply P.bind (P.lift hx)
  intro a t ht
  rw [Run.exec_lift] at ht
  cases ht
  exact hf a rfl

theorem evaluated (result : Except EvalFault Value) :
    P.holds p s ((Run.evaluated result).exec s) := by
  cases result with
  | ok v => exact P.done v
  | error cause => exact P.failed rfl

theorem itemsOf (name : String) (v : Value) : P.holds p s ((itemsOf name v).exec s) := by
  cases v with
  | list items => exact P.done (items, name)
  | _ => exact P.failed rfl

theorem runMethod (target : Value) (name : String) (arguments : List Value) :
    P.holds p s ((runMethod target name arguments).exec s) := by
  unfold DawScript.runMethod
  cases Method.ofName? name with
  | some m => exact P.evaluated _
  | none => exact P.failed rfl

theorem store_bind (name : String) (v result : Value) :
    P.holds p s ((Run.store name v >>= fun _ => (pure result : Run Value)).exec s) :=
  P.bind (P.stored name v) fun _ _ _ => P.done result

/-! ## Expressions in a row -/

/-- The evaluation of an expression has the property. -/
def Keeps (e : Expr) : Prop :=
  ∀ scope s, P.holds (.evaluate e scope, s) s ((evaluate env e scope).exec s)

/-- The evaluations of an expression and of its own arguments have the property. -/
def KeepsOwn (e : Expr) : Prop := P.Keeps e ∧ ∀ a ∈ e.ownArguments, P.Keeps a.value

section Rows

variable {scope : Option Binding}

/-- A run that begins with the first of some expressions and goes on with the others. -/
theorem first {e : Expr} {es : List Expr} {f : Value → Run β} (he : P.Keeps e)
    (hf : ∀ v t, P.holds (.evaluateAll es scope, t) t ((f v).exec t)) :
    P.holds (.evaluateAll (e :: es) scope, s) s ((evaluate env e scope >>= f).exec s) :=
  P.bind (P.begun (.first e es scope s) (he scope s))
    fun v t ht => P.begun (.next e es scope s t v ht) (hf v t)

theorem evaluateItems {es : List Expr} (h : ∀ e ∈ es, P.Keeps e) (s : State) :
    P.holds (.evaluateAll es scope, s) s ((evaluateItems env es scope).exec s) := by
  induction es generalizing s with
  | nil =>
    rw [DawScript.evaluateItems]
    exact P.done []
  | cons e rest ih =>
    rw [DawScript.evaluateItems]
    apply P.first (h e List.mem_cons_self)
    intro v t
    exact P.bind (ih (fun e he => h e (List.mem_cons_of_mem _ he)) t) fun _ _ _ => P.done _

theorem evaluateEntries {entries : List (String × Expr)}
    (h : ∀ entry ∈ entries, P.Keeps entry.2) (s : State) :
    P.holds (.evaluateAll (entries.map Prod.snd) scope, s) s
      ((evaluateEntries env entries scope).exec s) := by
  induction entries generalizing s with
  | nil =>
    rw [DawScript.evaluateEntries]
    exact P.done []
  | cons entry rest ih =>
    obtain ⟨name, e⟩ := entry
    rw [DawScript.evaluateEntries]
    apply P.first (h (name, e) List.mem_cons_self)
    intro v t
    have hrest := ih (fun entry he => h entry (List.mem_cons_of_mem _ he)) t
    exact P.bind hrest fun _ _ _ => P.done _

theorem argumentValues {given : List (String × Expr)}
    (h : ∀ p e, given.lookup p = some e → P.Keeps e) (parameters : List String) (s : State) :
    P.holds (.evaluateAll (parameters.filterMap fun p => given.lookup p) scope, s) s
      ((argumentValues (mapGiven (meaning env) given) scope parameters).exec s) := by
  -- the arguments are evaluated like the items of a list
  rw [argumentValues_eq, ← map_snd_inParameterOrder, map_eq_pure_bind]
  refine P.bind (P.evaluateItems (fun e he => ?_) s) fun _ _ _ => P.done _
  obtain ⟨p, hp⟩ := lookup_of_mem_inParameterOrder he
  exact h p e hp

end Rows

theorem commandValues {c : Command} {arguments : List (Arg Expr)} {scope : Option Binding}
    (h : ∀ a ∈ arguments, P.Keeps a.value)
    (hbegin : ∀ given, assign c.parameters arguments = .ok given →
      Begins env p (.evaluateAll (c.given given) scope, s)) :
    P.holds p s ((commandValues c (meanings env arguments) scope).exec s) := by
  simp only [DawScript.commandValues, meanings_eq_map, assign_map, Run.lift_map_bind]
  refine P.lift_bind (failsBare_assign _ _) fun given hgiven => P.begun (hbegin given hgiven) ?_
  refine P.argumentValues ?_ c.parameters s
  intro q e he
  obtain ⟨a, ha, rfl⟩ := mem_of_assign_lookup hgiven he
  exact h a ha

/-! ## Callbacks and visits -/

theorem callback {e : Expr} {f : Callback} (he : P.KeepsOwn e)
    (hf : callback env (operand env e) = .ok f) (c : Combinator) (name : String) (position : Nat)
    (item : Value) (rest : List Value) (s : State) :
    P.holds (.visit c name e position (item :: rest), s) s ((f ⟨name, item⟩).exec s) := by
  -- what is no function reference is evaluated with the item bound to its name
  have hexpression (hne : ∀ inner arguments, e ≠ .function inner arguments)
      (hvalue : f = fun scope => evaluate env e (some scope)) :
      P.holds (.visit c name e position (item :: rest), s) s ((f ⟨name, item⟩).exec s) := by
    rw [hvalue]
    exact P.begun (.item c name e position item rest s hne) (he.1 _ s)
  cases e with
  | function inner arguments =>
    simp only [DawScript.callback, operand, meaning] at hf
    cases hcommand : Command.ofName? inner with
    | some command =>
      rw [hcommand] at hf
      cases hf
      have hown : ownArguments env (.function inner arguments) = meanings env arguments := by
        rw [ownArguments]
      simp only [runCommandOnItem, hown]
      refine P.bind (P.commandValues he.2 fun given hgiven =>
        .itemArguments c name inner command arguments given position item rest s hcommand hgiven) ?_
      intro values t ht
      refine P.bind ?_ fun _ u _ => P.done _
      -- an item with an index aims the command at the track of the index
      unfold Command.runOnItem
      cases hindex : (item.field? "index").bind Value.int? with
      | none =>
        exact P.begun (.itemCommand c name inner command arguments values position item rest s t
          hcommand ht hindex) (P.command command _ t)
      | some index =>
        exact P.begun (.itemTrack c name inner command arguments values position item rest index
          s t hcommand ht hindex) (P.aimed command _ index t)
    | none =>
      -- other functions have a value and do nothing else
      rw [hcommand] at hf
      simp only at hf
      split at hf
      · cases hf
      · split at hf
        · cases hf
          exact P.evaluated _
        · cases hf
  | _ =>
    simp only [DawScript.callback, operand, meaning] at hf
    cases hf
    exact hexpression (by simp) rfl

theorem visitFrom {e : Expr} {f : Callback} (he : P.KeepsOwn e)
    (hf : DawScript.callback env (operand env e) = .ok f) (c : Combinator) (name : String)
    (items : List Value) (position : Nat) (s : State) :
    P.holds (.visit c name e position items, s) s
      ((visitFrom env c name f position items).exec s) := by
  induction items generalizing position s with
  | nil => exact P.done []
  | cons item rest ih =>
    rw [DawScript.visitFrom]
    refine P.bind (P.settled c position (P.callback he hf c name position item rest s)) ?_
    intro outcome t ht
    refine P.bind (P.begun
      (.nextItem c name e f position item rest outcome s t hf ht) (ih (position + 1) t)) ?_
    exact fun others u _ => P.done _

theorem collection {source : Expr} {scope : Option Binding} (h : P.Keeps source)
    (hbegin : source.name? = none → Begins env p (.evaluate source scope, s)) :
    P.holds p s ((collection (meaning env source) scope).exec s) := by
  simp only [collection_eq, meaning]
  cases hname : source.name? with
  | some name =>
    -- a bare name is looked up among the symbols and begins no task
    exact P.itemsOf _ _
  | none => exact P.bind (P.begun (hbegin hname) (h scope s)) fun v t _ => P.itemsOf _ v

/-! ## The combinators -/

section Combinators

variable {name : String} {arguments : List (Arg Expr)} {given : List (String × Expr)}
  {scope : Option Binding}

theorem visitCollection {c : Combinator} {function : String} (s : State)
    (hcall : CombinatorCall c name arguments given) (hfunction : c.function? = some function)
    (h : ∀ p e, given.lookup p = some e → P.KeepsOwn e) :
    P.holds (.evaluate (.call name arguments) scope, s) s
      ((visitCollection env c function "collection" (mapGiven (operand env) given) scope).exec
        s) := by
  simp only [DawScript.visitCollection, required_mapGiven, Run.lift_map_bind]
  apply P.lift_bind (failsBare_required _ _)
  intro e he
  apply P.lift_bind (failsBare_callback _ _)
  intro f hf
  apply P.lift_bind (failsBare_required _ _)
  intro source hsource
  have hgiven := lookup_of_required he
  have hsourceGiven := lookup_of_required hsource
  -- what has been found out so far is what the moments of the visit are made of
  have hvisit : VisitCall env c name arguments e source f :=
    ⟨⟨given, function, hcall, hfunction, hgiven, hsourceGiven⟩, hf⟩
  refine P.bind (P.collection (h _ source hsourceGiven).1 fun hname =>
    .visitSource c name arguments e source f scope s hvisit hname) ?_
  intro pair t ht
  exact P.begun (.visit c name arguments e source f pair.1 pair.2 scope s t hvisit ht)
    (P.visitFrom (h _ e hgiven) hf c pair.2 pair.1 0 t)

theorem runReduce (s : State) (hcall : CombinatorCall .reduce name arguments given)
    (h : ∀ p e, given.lookup p = some e → P.KeepsOwn e) :
    P.holds (.evaluate (.call name arguments) scope, s) s
      ((runReduce (mapGiven (operand env) given) scope).exec s) := by
  simp only [DawScript.runReduce, required_mapGiven, Run.lift_map_bind, lookup_mapGiven]
  apply P.lift_bind (failsBare_required _ _)
  intro e he
  apply P.lift_bind (failsBare_reducer _)
  intro r hr
  apply P.lift_bind (failsBare_required _ _)
  intro source hsource
  have hgiven := lookup_of_required he
  have hsourceGiven := lookup_of_required hsource
  refine P.bind (P.collection (h _ source hsourceGiven).1 fun hname =>
    .reduceSource name arguments given e source r scope s hcall hgiven hr hsourceGiven hname) ?_
  intro items t ht
  cases hinitial : given.lookup "initial" with
  | none => exact P.bind (P.done none) fun _ u _ => P.evaluated _
  | some initial =>
    refine P.bind ?_ fun _ u _ => P.evaluated _
    rw [map_eq_pure_bind]
    exact P.bind (P.begun (.reduceInitial name arguments given e source initial r items scope s t
      hcall hgiven hr hsourceGiven ht hinitial) ((h _ initial hinitial).1 scope t))
      fun _ _ _ => P.done _

theorem storeName {source : Expr} (s : State) (h : P.Keeps source)
    (hbegin : source.name? = none → Begins env p (.evaluate source scope, s)) :
    P.holds p s ((storeName (meaning env source) scope).exec s) := by
  simp only [DawScript.storeName, meaning]
  cases hname : source.name? with
  | some text => exact P.done text
  | none =>
    apply P.bind (P.begun (hbegin hname) (h scope s))
    intro v t _
    cases v with
    | string text => exact P.done text
    | _ => exact P.failed rfl

theorem runStore (s : State) (hname : Combinator.ofName? name = some .store)
    (h : ∀ a ∈ arguments, P.Keeps a.value) :
    P.holds (.evaluate (.call name arguments) scope, s) s
      ((runStore (arguments.map (Arg.map (operand env))) scope).exec s) := by
  rw [runStore_eq]
  cases hkeyword : storeKeyword? arguments with
  | some pair =>
    obtain ⟨a, ha, hvalue⟩ := mem_of_storeKeyword? hkeyword
    refine P.bind (P.begun (.storeKeyword name arguments pair.1 pair.2 scope s hname hkeyword) ?_)
      fun v t _ => P.store_bind _ v _
    rw [← hvalue]
    exact h a ha scope s
  | none =>
    -- the name comes before the value, in the state that the name leaves
    apply P.lift_bind (failsBare_assign _ _)
    intro given hassign
    have hcall : CombinatorCall .store name arguments given := ⟨hname, hassign⟩
    have hgiven {p : String} {e : Expr} (he : required given p = .ok e) : P.Keeps e := by
      obtain ⟨a, ha, rfl⟩ := mem_of_assign_lookup hassign (lookup_of_required he)
      exact h a ha
    apply P.lift_bind (failsBare_required _ _)
    intro nameSource hsource
    refine P.bind (P.storeName s (hgiven hsource) fun hbare =>
      .storeName name arguments given nameSource scope s hcall hkeyword
        (lookup_of_required hsource) hbare) ?_
    intro key t ht
    apply P.lift_bind (failsBare_required _ _)
    intro source hvalue
    exact P.bind (P.begun (.storeValue name arguments given nameSource source key scope s t hcall
      hkeyword (lookup_of_required hsource) ht (lookup_of_required hvalue))
      (hgiven hvalue scope t)) fun v u _ => P.store_bind _ v _

theorem queriedTrack {c : Combinator} (hc : c = .getFxChain ∨ c = .getClips) (s : State)
    (hcall : CombinatorCall c name arguments given)
    (h : ∀ p e, given.lookup p = some e → P.KeepsOwn e) :
    P.holds (.evaluate (.call name arguments) scope, s) s
      ((queriedTrack (mapGiven (operand env) given) scope).exec s) := by
  simp only [DawScript.queriedTrack, lookup_mapGiven]
  cases hindex : given.lookup "track_index" with
  | none => exact P.done s.target
  | some source =>
    refine P.bind (P.begun (.trackIndex c name arguments given source scope s hc hcall hindex)
      ((h _ source hindex).1 scope s)) ?_
    intro v t _
    cases hv : v.int? with
    | some index => exact P.done index
    | none => exact P.failed rfl

theorem runListing {c : Combinator} (hc : c = .getFxChain ∨ c = .getClips)
    (symbol : String) (part : Session → Int64 → Value) (s : State)
    (hcall : CombinatorCall c name arguments given)
    (h : ∀ p e, given.lookup p = some e → P.KeepsOwn e) :
    P.holds (.evaluate (.call name arguments) scope, s) s
      ((runListing env symbol part (mapGiven (operand env) given) scope).exec s) := by
  apply P.bind (P.queriedTrack hc s hcall h)
  intro index t _
  cases env.session.filter fun s => (s.track? index).isSome with
  | none => exact P.done _
  | some session => exact P.store_bind symbol _ _

theorem runCombinator (c : Combinator) (s : State) (hname : Combinator.ofName? name = some c)
    (h : ∀ a ∈ arguments, P.KeepsOwn a.value) :
    P.holds (.evaluate (.call name arguments) scope, s) s
      ((runCombinator env c (arguments.map (Arg.map (operand env))) scope).exec s) := by
  have hgiven {given : List (String × Expr)} (hassign : assign c.parameters arguments = .ok given)
      (p : String) (e : Expr) (he : given.lookup p = some e) : P.KeepsOwn e := by
    obtain ⟨a, ha, rfl⟩ := mem_of_assign_lookup hassign he
    exact h a ha
  have hvisited {given : List (String × Expr)} (hassign : assign c.parameters arguments = .ok given)
      {function : String} (hfunction : c.function? = some function)
      {f : List (Value × Value) → Value} :
      P.holds (.evaluate (.call name arguments) scope, s) s
        ((DawScript.visitCollection env c function "collection" (mapGiven (operand env) given)
          scope >>= fun visited => (pure (f visited) : Run Value)).exec s) :=
    P.bind (P.visitCollection s ⟨hname, hassign⟩ hfunction (hgiven hassign))
      fun _ _ _ => P.done _
  cases c with
  | store => exact P.runStore s hname fun a ha => (h a ha).1
  | filter | map | forEach =>
    simp only [DawScript.runCombinator, assign_map, Run.lift_map_bind]
    exact P.lift_bind (failsBare_assign _ _) fun given hassign => hvisited hassign rfl
  | reduce =>
    simp only [DawScript.runCombinator, assign_map, Run.lift_map_bind]
    exact P.lift_bind (failsBare_assign _ _) fun given hassign =>
      P.runReduce s ⟨hname, hassign⟩ (hgiven hassign)
  | getTracks =>
    simp only [DawScript.runCombinator, assign_map, Run.lift_map_bind]
    exact P.lift_bind (failsBare_assign _ _) fun given hassign => P.store_bind _ _ _
  | getFxChain =>
    simp only [DawScript.runCombinator, assign_map, Run.lift_map_bind]
    exact P.lift_bind (failsBare_assign _ _) fun given hassign =>
      P.runListing (Or.inl rfl) _ _ s ⟨hname, hassign⟩ (hgiven hassign)
  | getClips =>
    simp only [DawScript.runCombinator, assign_map, Run.lift_map_bind]
    exact P.lift_bind (failsBare_assign _ _) fun given hassign =>
      P.runListing (Or.inr rfl) _ _ s ⟨hname, hassign⟩ (hgiven hassign)

end Combinators

/-! ## Calls and expressions -/

theorem runNamed {name : String} {arguments : List (Arg Expr)} {scope : Option Binding}
    (s : State) (h : ∀ a ∈ arguments, P.KeepsOwn a.value) :
    P.holds (.evaluate (.call name arguments) scope, s) s
      ((runNamed env name (operands env arguments) scope).exec s) := by
  cases hcombinator : Combinator.ofName? name with
  | some c =>
    simp only [DawScript.runNamed, hcombinator, operands_eq_map]
    exact P.runCombinator c s hcombinator h
  | none =>
    cases hcommand : Command.ofName? name with
    | none =>
      simp only [DawScript.runNamed, hcombinator, hcommand]
      exact P.failed rfl
    | some c =>
      have hcall : CommandCall c name arguments := ⟨hcombinator, hcommand⟩
      -- first the arguments run and then the command, in the state that they leave
      rw [runNamed_of_command env arguments scope hcombinator hcommand, runCommand]
      refine P.bind (P.commandValues (fun a ha => (h a ha).1) fun given hgiven =>
        .arguments c name arguments given scope s hcall hgiven) ?_
      intro values t ht
      exact P.bind (P.begun (.command c name arguments values scope s t hcall ht)
        (P.command c values t)) fun _ u _ => P.done _

/-- The evaluation of every expression has the property. -/
theorem evaluate (e : Expr) : P.Keeps e := by
  -- the induction follows the order in which the parts of an expression are evaluated
  induction e using Expr.rec' with
  | literal v =>
    intro scope s
    simp only [DawScript.evaluate]
    exact P.done v
  | list items ih =>
    intro scope s
    simp only [DawScript.evaluate]
    exact P.bind (P.begun (.parts (.list items) scope s) (P.evaluateItems ih s))
      fun _ _ _ => P.done _
  | map entries ih =>
    intro scope s
    simp only [DawScript.evaluate]
    exact P.bind (P.begun (.parts (.map entries) scope s) (P.evaluateEntries ih s))
      fun _ _ _ => P.done _
  | property root path =>
    intro scope s
    simp only [DawScript.evaluate]
    exact P.lift (failsBare_lookUp root path scope s.symbols env.session)
  | binary op left right ihl ihr =>
    intro scope s
    simp only [DawScript.evaluate]
    refine P.begun (.parts (.binary op left right) scope s) ?_
    apply P.first ihl
    intro l t
    exact P.first ihr fun r u => P.evaluated _
  | unary op operand ih =>
    intro scope s
    simp only [DawScript.evaluate]
    refine P.begun (.parts (.unary op operand) scope s) ?_
    exact P.first ih fun v t => P.evaluated _
  | method target name arguments iht iha =>
    intro scope s
    simp only [DawScript.evaluate]
    refine P.begun (.parts (.method target name arguments) scope s) ?_
    apply P.first iht
    intro v t
    exact P.bind (P.evaluateItems iha t) fun _ _ _ => P.runMethod _ _ _
  | call name arguments iha ihown =>
    intro scope s
    simp only [DawScript.evaluate]
    exact P.called (P.runNamed s fun a ha => ⟨iha a ha, ihown a ha⟩)
  | function name arguments _ =>
    intro scope s
    simp only [DawScript.evaluate]
    exact P.failed rfl

/-- The run of every list of calls has the property. -/
theorem runCalls (calls : List Call) (s : State) :
    P.holds (.evaluateAll (calls.map Call.expr) none, s) s ((runCalls env calls).exec s) := by
  induction calls generalizing s with
  | nil => exact P.done ()
  | cons c rest ih =>
    -- a call of a script is evaluated as any other call
    have hcall : c.run env = DawScript.evaluate env c.expr none := by
      simp only [Call.expr, DawScript.evaluate, Call.run]
    rw [DawScript.runCalls, hcall]
    exact P.first (P.evaluate c.expr) fun _ t => ih t

end TaskProperty

end DawScript
