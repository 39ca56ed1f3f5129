import DawScript.Proofs.Execution

/-!
# Relations that scripts keep

A relation between the runs under two environments holds of the evaluation of every expression as
soon as the steps that scripts are made of keep it: sequencing, reading and storing symbols, running
a command, naming the call of a fault, and settling the item of a combinator
(`RunRelation.evaluate`). The induction over expressions is done here once for all such relations.
-/

set_option autoImplicit false

namespace DawScript

variable {α β : Type}

/-- A relation between runs under two environments that every step of a script keeps. -/
structure RunRelation (env env' : Env) where
  rel : {α : Type} → Run α → Run α → Prop
  session_eq : env.session = env'.session
  fx_eq : env.config.fx = env'.config.fx
  pure {α : Type} (a : α) : rel (pure a) (pure a)
  throw {α : Type} (fault : Fault) : rel (throw fault : Run α) (throw fault)
  bind {α β : Type} {x y : Run α} {f g : α → Run β} :
    rel x y → (∀ a, rel (f a) (g a)) → rel (x >>= f) (y >>= g)
  symbols : rel (State.symbols <$> (get : Run State)) (State.symbols <$> get)
  target : rel (State.target <$> (get : Run State)) (State.target <$> get)
  store (name : String) (v : Value) : rel (Run.store name v) (Run.store name v)
  command (c : Command) (values : Values) : rel (c.run env values) (c.run env' values)
  aimedAt {x y : Run Unit} (track : Int64) :
    rel x y → rel (Run.aimedAt track x) (Run.aimedAt track y)
  within {x y : Run Value} (name written : String) : rel x y →
    rel (tryCatch x fun fault => MonadExcept.throw (fault.within name written))
      (tryCatch y fun fault => MonadExcept.throw (fault.within name written))
  settle {x y : Run Value} (c : Combinator) (position : Nat) : rel x y →
    rel (DawScript.settle env c position x) (DawScript.settle env' c position y)

namespace RunRelation

variable {env env' : Env} (R : RunRelation env env')

/-! ## Sequencing -/

theorem lift (x : Except Fault α) : R.rel (liftM x : Run α) (liftM x) := by
  cases x with
  | ok a => exact R.pure a
  | error fault => exact R.throw fault

theorem lift_bind {x : Except Fault α} {f g : α → Run β} (h : ∀ a, x = .ok a → R.rel (f a) (g a)) :
    R.rel (liftM x >>= f) (liftM x >>= g) := by
  cases x with
  | ok a =>
    rw [Run.lift_ok_bind, Run.lift_ok_bind]
    exact h a rfl
  | error fault =>
    rw [Run.lift_error_bind, Run.lift_error_bind]
    exact R.throw fault

theorem map (f : α → β) {x y : Run α} (h : R.rel x y) : R.rel (f <$> x) (f <$> y) := by
  rw [map_eq_pure_bind, map_eq_pure_bind]
  exact R.bind h fun a => R.pure (f a)

theorem symbols_bind (f : List (String × Value) → Run α)
    (h : ∀ symbols, R.rel (f symbols) (f symbols)) :
    R.rel (get >>= fun s => f s.symbols) (get >>= fun s => f s.symbols) := by
  have hbind := R.bind R.symbols h
  rwa [bind_map_left] at hbind

theorem evaluated (result : Except EvalFault Value) :
    R.rel (Run.evaluated result) (Run.evaluated result) := by
  cases result with
  | ok v => exact R.pure v
  | error cause => exact R.throw _

/-! ## Arguments -/

/-- The relation holds of the evaluation of an expression under every binding. -/
def Keeps (e : Expr) : Prop := ∀ scope, R.rel (evaluate env e scope) (evaluate env' e scope)

/-- The relation holds of the evaluation of an expression and of its own arguments. -/
def KeepsOwn (e : Expr) : Prop := R.Keeps e ∧ ∀ a ∈ e.ownArguments, R.Keeps a.value

theorem evaluateItems {items : List Expr} (h : ∀ e ∈ items, R.Keeps e) (scope : Option Binding) :
    R.rel (evaluateItems env items scope) (evaluateItems env' items scope) := by
  induction items with
  | nil => simp only [DawScript.evaluateItems]; exact R.pure []
  | cons e rest ih =>
    simp only [DawScript.evaluateItems]
    apply R.bind (h e List.mem_cons_self scope)
    intro v
    exact R.bind (ih fun e he => h e (List.mem_cons_of_mem _ he)) fun _ => R.pure _

theorem argumentValues {given : List (String × Expr)} (scope : Option Binding)
    (h : ∀ p e, given.lookup p = some e → R.Keeps e) (parameters : List String) :
    R.rel (argumentValues (mapGiven (meaning env) given) scope parameters)
      (argumentValues (mapGiven (meaning env') given) scope parameters) := by
  rw [argumentValues_eq, argumentValues_eq]
  refine R.map _ (R.evaluateItems (fun e he => ?_) scope)
  obtain ⟨p, hp⟩ := lookup_of_mem_inParameterOrder he
  exact h p e hp

theorem commandValues {arguments : List (Arg Expr)} (c : Command) (scope : Option Binding)
    (h : ∀ a ∈ arguments, R.Keeps a.value) :
    R.rel (commandValues c (arguments.map (Arg.map (meaning env))) scope)
      (commandValues c (arguments.map (Arg.map (meaning env'))) scope) := by
  simp only [DawScript.commandValues, assign_map, Run.lift_map_bind]
  apply R.lift_bind
  intro given hgiven
  refine R.argumentValues scope ?_ c.parameters
  intro p e he
  obtain ⟨a, ha, rfl⟩ := mem_of_assign_lookup hgiven he
  exact h a ha

theorem runCommand {arguments : List (Arg Expr)} (c : Command) (scope : Option Binding)
    (h : ∀ a ∈ arguments, R.Keeps a.value) :
    R.rel (runCommand env c (arguments.map (Arg.map (meaning env))) scope)
      (runCommand env' c (arguments.map (Arg.map (meaning env'))) scope) := by
  apply R.bind (R.commandValues c scope h)
  intro values
  exact R.bind (R.command c values) fun _ => R.pure _

/-! ## Callbacks and visits -/

theorem runOnItem (c : Command) (values : Values) (item : Value) :
    R.rel (c.runOnItem env values item) (c.runOnItem env' values item) := by
  simp only [Command.runOnItem, Command.withDefaultFx, R.fx_eq]
  cases (item.field? "index").bind Value.int? with
  | none => exact R.command c _
  | some index => exact R.aimedAt index (R.command c _)

theorem runCommandOnItem {arguments : List (Arg Expr)} (c : Command) (scope : Binding)
    (h : ∀ a ∈ arguments, R.Keeps a.value) :
    R.rel (runCommandOnItem env c (arguments.map (Arg.map (meaning env))) scope)
      (runCommandOnItem env' c (arguments.map (Arg.map (meaning env'))) scope) := by
  apply R.bind (R.commandValues c (some scope) h)
  intro values
  exact R.bind (R.runOnItem c values scope.item) fun _ => R.pure _

/-- A function is refused under both environments with the same fault, or gives callbacks that the
relation holds of. -/
theorem callback_bind {e : Expr} (he : R.KeepsOwn e) {f g : Callback → Run β}
    (h : ∀ x y : Callback, (∀ scope, R.rel (x scope) (y scope)) → R.rel (f x) (g y)) :
    R.rel (liftM (callback env (operand env e)) >>= f)
      (liftM (callback env' (operand env' e)) >>= g) := by
  obtain ⟨hvalue, hown⟩ := he
  -- both environments take an expression of any other kind as it is
  have hexpression {x : Callback} (hx : callback env (operand env e) = .ok x)
      {y : Callback} (hy : callback env' (operand env' e) = .ok y)
      (hrel : ∀ scope, R.rel (x scope) (y scope)) :
      R.rel (liftM (callback env (operand env e)) >>= f)
        (liftM (callback env' (operand env' e)) >>= g) := by
    rw [hx, hy, Run.lift_ok_bind, Run.lift_ok_bind]
    exact h x y hrel
  cases e with
  | function name arguments =>
    simp only [callback, operand_arguments]
    simp only [operand, meaning, Expr.ownArguments] at hown ⊢
    cases Command.ofName? name with
    | some c =>
      simp only [Run.lift_ok_bind]
      exact h _ _ fun scope => R.runCommandOnItem c scope hown
    | none =>
      cases Builtin.ofName? name with
      | none =>
        simp only [Run.lift_error_bind]
        exact R.throw _
      | some builtin =>
        cases arguments with
        | nil =>
          simp only [List.map_nil, Run.lift_ok_bind]
          exact h _ _ fun scope => R.evaluated _
        | cons a rest =>
          simp only [List.map_cons, Run.lift_error_bind]
          exact R.throw _
  | _ => exact hexpression rfl rfl fun scope => hvalue (some scope)

/-- A function that both environments accept gives callbacks that the relation holds of. -/
theorem of_callback {e : Expr} (he : R.KeepsOwn e) {f g : Callback}
    (hf : callback env (operand env e) = .ok f) (hg : callback env' (operand env' e) = .ok g)
    (scope : Binding) : R.rel (f scope) (g scope) := by
  have hbind := R.callback_bind he fun x y hxy => hxy scope
  rwa [hf, hg, Run.lift_ok_bind, Run.lift_ok_bind] at hbind

theorem visitFrom (c : Combinator) (name : String) {f g : Callback}
    (h : ∀ scope, R.rel (f scope) (g scope)) (items : List Value) :
    ∀ position, R.rel (visitFrom env c name f position items)
      (visitFrom env' c name g position items) := by
  induction items with
  | nil => exact fun _ => R.pure []
  | cons item rest ih =>
    intro position
    refine R.bind (R.settle c position (h ⟨name, item⟩)) ?_
    intro outcome
    exact R.bind (ih (position + 1)) fun others => R.pure _

theorem itemsOf (name : String) (v : Value) :
    R.rel (itemsOf name v) (DawScript.itemsOf name v) := by
  cases v with
  | list items => exact R.pure _
  | _ => exact R.throw _

theorem collection {e : Expr} (h : R.Keeps e) (scope : Option Binding) :
    R.rel (collection (meaning env e) scope) (collection (meaning env' e) scope) := by
  simp only [collection_eq, meaning]
  cases e.name? with
  | some s =>
    exact R.symbols_bind
      (fun symbols => DawScript.itemsOf (itemName s) ((Fields.find? s symbols).getD (.list [])))
      fun symbols => R.itemsOf _ _
  | none => exact R.bind (h scope) fun v => R.itemsOf _ v

theorem visitCollection {given : List (String × Expr)} (c : Combinator) (function source : String)
    (scope : Option Binding) (h : ∀ p e, given.lookup p = some e → R.KeepsOwn e) :
    R.rel (visitCollection env c function source (mapGiven (operand env) given) scope)
      (visitCollection env' c function source (mapGiven (operand env') given) scope) := by
  simp only [DawScript.visitCollection, required_mapGiven, Run.lift_map_bind]
  apply R.lift_bind
  intro e he
  apply R.callback_bind (h function e (lookup_of_required he))
  intro x y hxy
  apply R.lift_bind
  intro e' he'
  apply R.bind (R.collection (h source e' (lookup_of_required he')).1 scope)
  intro pair
  exact R.visitFrom c pair.2 hxy pair.1 0

/-! ## The combinators -/

theorem runReduce {given : List (String × Expr)} (scope : Option Binding)
    (h : ∀ p e, given.lookup p = some e → R.KeepsOwn e) :
    R.rel (runReduce (mapGiven (operand env) given) scope)
      (runReduce (mapGiven (operand env') given) scope) := by
  -- the operator is looked up first, then the items, and the initial value comes last
  simp only [DawScript.runReduce, required_mapGiven, Run.lift_map_bind, lookup_mapGiven]
  apply R.lift_bind
  intro e he
  apply R.lift_bind
  intro r hr
  apply R.lift_bind
  intro e' he'
  apply R.bind (R.collection (h _ e' (lookup_of_required he')).1 scope)
  intro pair
  cases hinitial : given.lookup "initial" with
  | none => exact R.bind (R.pure none) fun initial => R.evaluated _
  | some m =>
    exact R.bind (R.map some ((h _ m hinitial).1 scope)) fun initial => R.evaluated _

theorem storeName {e : Expr} (h : R.Keeps e) (scope : Option Binding) :
    R.rel (storeName (meaning env e) scope) (storeName (meaning env' e) scope) := by
  simp only [DawScript.storeName, meaning]
  cases e.name? with
  | some s => exact R.pure s
  | none =>
    apply R.bind (h scope)
    intro v
    cases v with
    | string s => exact R.pure s
    | _ => exact R.throw _

theorem runStore {arguments : List (Arg Expr)} (scope : Option Binding)
    (h : ∀ a ∈ arguments, R.KeepsOwn a.value) :
    R.rel (runStore (arguments.map (Arg.map (operand env))) scope)
      (runStore (arguments.map (Arg.map (operand env'))) scope) := by
  -- a keyword that is no parameter names the symbol; otherwise the name is an argument
  simp only [runStore_eq]
  cases hkeyword : storeKeyword? arguments with
  | some pair =>
    obtain ⟨a, ha, hvalue⟩ := mem_of_storeKeyword? hkeyword
    refine R.bind (?_ : R.rel (evaluate env pair.2 scope) (evaluate env' pair.2 scope)) ?_
    · rw [← hvalue]
      exact (h a ha).1 scope
    · intro v
      exact R.bind (R.store _ v) fun _ => R.pure _
  | none =>
    apply R.lift_bind
    intro given hassign
    have hgiven {p : String} {e : Expr} (he : required given p = .ok e) : R.Keeps e := by
      obtain ⟨a, ha, rfl⟩ := mem_of_assign_lookup hassign (lookup_of_required he)
      exact (h a ha).1
    apply R.lift_bind
    intro nameSource hname
    apply R.bind (R.storeName (hgiven hname) scope)
    intro name
    apply R.lift_bind
    intro source hsource
    apply R.bind (hgiven hsource scope)
    intro v
    exact R.bind (R.store name v) fun _ => R.pure _

theorem queriedTrack {given : List (String × Expr)} (scope : Option Binding)
    (h : ∀ p e, given.lookup p = some e → R.KeepsOwn e) :
    R.rel (queriedTrack (mapGiven (operand env) given) scope)
      (queriedTrack (mapGiven (operand env') given) scope) := by
  simp only [DawScript.queriedTrack, lookup_mapGiven]
  cases hindex : given.lookup "track_index" with
  | none => exact R.target
  | some e =>
    apply R.bind ((h _ e hindex).1 scope)
    intro v
    cases v.int? with
    | some index => exact R.pure index
    | none => exact R.throw _

theorem runListing {given : List (String × Expr)} (symbol : String)
    (part : Session → Int64 → Value) (scope : Option Binding)
    (h : ∀ p e, given.lookup p = some e → R.KeepsOwn e) :
    R.rel (runListing env symbol part (mapGiven (operand env) given) scope)
      (runListing env' symbol part (mapGiven (operand env') given) scope) := by
  simp only [DawScript.runListing, R.session_eq]
  apply R.bind (R.queriedTrack scope h)
  intro index
  cases env'.session.filter fun s => (s.track? index).isSome with
  | none => exact R.pure _
  | some s => exact R.bind (R.store symbol _) fun _ => R.pure _

theorem runCombinator {arguments : List (Arg Expr)} (c : Combinator) (scope : Option Binding)
    (h : ∀ a ∈ arguments, R.KeepsOwn a.value) :
    R.rel (runCombinator env c (arguments.map (Arg.map (operand env))) scope)
      (runCombinator env' c (arguments.map (Arg.map (operand env'))) scope) := by
  have hgiven {given : List (String × Expr)} (hassign : assign c.parameters arguments = .ok given)
      (p : String) (e : Expr) (he : given.lookup p = some e) : R.KeepsOwn e := by
    obtain ⟨a, ha, rfl⟩ := mem_of_assign_lookup hassign he
    exact h a ha
  cases c with
  | filter =>
    simp only [DawScript.runCombinator, assign_map, Run.lift_map_bind]
    apply R.lift_bind
    intro given hassign
    exact R.bind (R.visitCollection _ _ _ scope (hgiven hassign)) fun _ => R.pure _
  | map =>
    simp only [DawScript.runCombinator, assign_map, Run.lift_map_bind]
    apply R.lift_bind
    intro given hassign
    exact R.bind (R.visitCollection _ _ _ scope (hgiven hassign)) fun _ => R.pure _
  | forEach =>
    simp only [DawScript.runCombinator, assign_map, Run.lift_map_bind]
    apply R.lift_bind
    intro given hassign
    exact R.bind (R.visitCollection _ _ _ scope (hgiven hassign)) fun _ => R.pure _
  | reduce =>
    simp only [DawScript.runCombinator, assign_map, Run.lift_map_bind]
    exact R.lift_bind fun given hassign => R.runReduce scope (hgiven hassign)
  | store => exact R.runStore scope h
  | getTracks =>
    simp only [DawScript.runCombinator, assign_map, Run.lift_map_bind, runGetTracks, R.session_eq]
    apply R.lift_bind
    intro given _
    exact R.bind (R.store _ _) fun _ => R.pure _
  | getFxChain =>
    simp only [DawScript.runCombinator, assign_map, Run.lift_map_bind]
    exact R.lift_bind fun given hassign => R.runListing _ _ scope (hgiven hassign)
  | getClips =>
    simp only [DawScript.runCombinator, assign_map, Run.lift_map_bind]
    exact R.lift_bind fun given hassign => R.runListing _ _ scope (hgiven hassign)

/-! ## Calls and expressions -/

theorem runNamed {arguments : List (Arg Expr)} (name : String) (scope : Option Binding)
    (h : ∀ a ∈ arguments, R.KeepsOwn a.value) :
    R.rel (runNamed env name (arguments.map (Arg.map (operand env))) scope)
      (runNamed env' name (arguments.map (Arg.map (operand env'))) scope) := by
  simp only [DawScript.runNamed]
  cases Combinator.ofName? name with
  | some c => exact R.runCombinator c scope h
  | none =>
    cases Command.ofName? name with
    | none => exact R.throw _
    | some c =>
      simp only [List.map_map]
      exact R.runCommand c scope fun a ha => (h a ha).1

theorem runMethod (target : Value) (name : String) (arguments : List Value) :
    R.rel (runMethod target name arguments) (runMethod target name arguments) := by
  unfold DawScript.runMethod
  cases Method.ofName? name with
  | some m => exact R.evaluated _
  | none => exact R.throw _

theorem evaluateEntries {entries : List (String × Expr)} (h : ∀ entry ∈ entries, R.Keeps entry.2)
    (scope : Option Binding) :
    R.rel (evaluateEntries env entries scope) (evaluateEntries env' entries scope) := by
  induction entries with
  | nil => simp only [DawScript.evaluateEntries]; exact R.pure []
  | cons entry rest ih =>
    obtain ⟨name, e⟩ := entry
    simp only [DawScript.evaluateEntries]
    apply R.bind (h (name, e) List.mem_cons_self scope)
    intro v
    exact R.bind (ih fun entry he => h entry (List.mem_cons_of_mem _ he)) fun _ => R.pure _

/-- The relation holds of the evaluation of every expression. -/
theorem evaluate (e : Expr) : R.Keeps e := by
  -- a call needs the arguments of the function references that it is given, hence `Expr.rec'`
  induction e using Expr.rec' with
  | literal v =>
    intro scope
    simp only [DawScript.evaluate]
    exact R.pure v
  | list items ih =>
    intro scope
    simp only [DawScript.evaluate]
    exact R.bind (R.evaluateItems ih scope) fun values => R.pure _
  | map entries ih =>
    intro scope
    simp only [DawScript.evaluate]
    exact R.bind (R.evaluateEntries ih scope) fun fields => R.pure _
  | property root path =>
    intro scope
    simp only [DawScript.evaluate, R.session_eq]
    exact R.symbols_bind (fun symbols => liftM (lookUp root path scope symbols env'.session))
      fun symbols => R.lift _
  | binary op left right ihl ihr =>
    intro scope
    simp only [DawScript.evaluate]
    apply R.bind (ihl scope)
    intro l
    exact R.bind (ihr scope) fun r => R.evaluated _
  | unary op operand ih =>
    intro scope
    simp only [DawScript.evaluate]
    exact R.bind (ih scope) fun v => R.evaluated _
  | method target name arguments iht iha =>
    intro scope
    simp only [DawScript.evaluate]
    apply R.bind (iht scope)
    intro v
    exact R.bind (R.evaluateItems iha scope) fun values => R.runMethod v name values
  | call name arguments iha ihown =>
    intro scope
    simp only [DawScript.evaluate, operands_eq_map, runCall]
    exact R.within name _ (R.runNamed name scope fun a ha => ⟨iha a ha, ihown a ha⟩)
  | function name arguments _ =>
    intro scope
    simp only [DawScript.evaluate]
    exact R.throw _

/-- The relation holds of the run of every list of calls. -/
theorem runCalls (calls : List Call) : R.rel (runCalls env calls) (runCalls env' calls) := by
  induction calls with
  | nil => exact R.pure ()
  | cons c rest ih =>
    -- a call of a script is evaluated as an expression without a binding
    have hcall : R.rel (c.run env) (c.run env') := by
      have he := R.evaluate (.call c.name c.arguments) none
      simpa only [DawScript.evaluate, Call.run] using he
    exact R.bind hcall fun _ => ih

end RunRelation

/-! ## Properties -/

/-- A property of runs that every step of a script keeps. -/
structure RunProperty (env : Env) where
  holds : {α : Type} → Run α → Prop
  pure {α : Type} (a : α) : holds (pure a)
  throw {α : Type} (fault : Fault) : holds (throw fault : Run α)
  bind {α β : Type} {x : Run α} {f : α → Run β} : holds x → (∀ a, holds (f a)) → holds (x >>= f)
  symbols : holds (State.symbols <$> (get : Run State))
  target : holds (State.target <$> (get : Run State))
  store (name : String) (v : Value) : holds (Run.store name v)
  command (c : Command) (values : Values) : holds (c.run env values)
  aimedAt {x : Run Unit} (track : Int64) : holds x → holds (Run.aimedAt track x)
  within {x : Run Value} (name written : String) : holds x →
    holds (tryCatch x fun fault => MonadExcept.throw (fault.within name written))
  settle {x : Run Value} (c : Combinator) (position : Nat) : holds x →
    holds (DawScript.settle env c position x)

/-- A property as a relation of a run with itself. -/
def RunProperty.relation {env : Env} (P : RunProperty env) : RunRelation env env where
  rel x y := x = y ∧ P.holds x
  session_eq := rfl
  fx_eq := rfl
  pure a := ⟨rfl, P.pure a⟩
  throw fault := ⟨rfl, P.throw fault⟩
  bind h hf := ⟨by rw [h.1, funext fun a => (hf a).1], P.bind h.2 fun a => (hf a).2⟩
  symbols := ⟨rfl, P.symbols⟩
  target := ⟨rfl, P.target⟩
  store name v := ⟨rfl, P.store name v⟩
  command c values := ⟨rfl, P.command c values⟩
  aimedAt track h := ⟨by rw [h.1], P.aimedAt track h.2⟩
  within name written h := ⟨by rw [h.1], P.within name written h.2⟩
  settle c position h := ⟨by rw [h.1], P.settle c position h.2⟩

/-- Callbacks have every property that the steps of scripts keep. -/
theorem RunProperty.holds_callback {env : Env} (P : RunProperty env) {function : Expr}
    {f : Callback} (hf : callback env (operand env function) = .ok f) (scope : Binding) :
    P.holds (f scope) := by
  have hown : P.relation.KeepsOwn function :=
    ⟨P.relation.evaluate function, fun a _ => P.relation.evaluate a.value⟩
  exact (P.relation.of_callback hown hf hf scope).2

end DawScript
