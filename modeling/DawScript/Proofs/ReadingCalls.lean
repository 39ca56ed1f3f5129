import DawScript.Proofs.SkippedItems

/-!
# Reading calls

A combinator that visits or folds items with an expression or a function of one value is a call that
only reads: it adds reports of items passed over and changes nothing else (`ReadingCall.reports`).
So it does not matter which of two such calls comes first (`reading_changes_nothing`).
-/

set_option autoImplicit false

namespace DawScript

variable {α β : Type}

/-! ## Reports -/

/-- A state with more items passed over. -/
def State.reporting (new : Array SkippedItem) (s : State) : State :=
  { s with skipped := s.skipped ++ new }

theorem State.reporting_empty (s : State) : s.reporting #[] = s := by
  rw [reporting, Array.append_empty]

namespace Run

/-- A run that leaves everything but the items passed over as it was. -/
def OnlySkips (x : Run α) : Prop :=
  ∀ s, ∃ skipped, (x.exec s).2 = { s with skipped := skipped }

/-- A run that adds the same reports to whatever is passed over before it, and has the same outcome
each time. -/
def Reports (x : Run α) : Prop :=
  ∀ s : State, ∃ outcome new, ∀ before,
    x.exec (s.reporting before) = (outcome, s.reporting (before ++ new))

section OnlySkips

variable {x : Run α} {f : α → Run β}

theorem Reads.onlySkips (h : Reads x) : OnlySkips x := fun s => ⟨s.skipped, h s⟩

theorem onlySkips_bind (hx : OnlySkips x) (hf : ∀ a, OnlySkips (f a)) : OnlySkips (x >>= f) := by
  intro s
  obtain ⟨skipped, hs⟩ := hx s
  rw [exec_bind]
  cases hexec : x.exec s with
  | mk outcome t =>
    rw [hexec] at hs
    cases hs
    cases outcome with
    | error fault => exact ⟨skipped, rfl⟩
    | ok a =>
      obtain ⟨more, ht⟩ := hf a { s with skipped := skipped }
      exact ⟨more, ht⟩

theorem onlySkips_lift_bind {result : Except Fault α} (hf : ∀ a, result = .ok a → OnlySkips (f a)) :
    OnlySkips (liftM result >>= f) := by
  cases result with
  | ok a => exact hf a rfl
  | error fault => exact (reads_throw fault).onlySkips

theorem onlySkips_within {x : Run Value} (name written : String) (hx : OnlySkips x) :
    OnlySkips (tryCatch x fun fault => throw (fault.within name written)) := by
  intro s
  rw [exec_within]
  exact hx s

theorem onlySkips_settle (env : Env) (c : Combinator) (position : Nat) {x : Run Value}
    (hx : OnlySkips x) : OnlySkips (settle env c position x) := by
  intro s
  obtain ⟨skipped, hs⟩ := hx s
  rw [exec_settle]
  cases hexec : x.exec s with
  | mk outcome t =>
    rw [hexec] at hs
    cases hs
    cases outcome with
    | ok v => exact ⟨skipped, rfl⟩
    | error fault =>
      simp only
      split
      · exact ⟨skipped, rfl⟩
      · exact ⟨skipped.push ⟨c.name, position, fault.message⟩, rfl⟩

/-- What a run passes over comes after what was passed over before it. -/
theorem OnlySkips.reports (hx : OnlySkips x) (hoblivious : Oblivious x) : Reports x := by
  intro s
  obtain ⟨new, hnew⟩ := hx { s with skipped := #[] }
  refine ⟨(x.exec { s with skipped := #[] }).1, new, ?_⟩
  intro before
  have hstart : s.reporting before =
      State.after #[] (s.skipped ++ before) { s with skipped := #[] } := by
    simp only [State.reporting, State.after, Array.empty_append, Array.append_empty]
  rw [hstart, hoblivious, hnew]
  simp only [State.reporting, State.after, Array.empty_append, Array.append_assoc]

/-- Of two runs that only add reports, each has the same outcome and adds the same reports whichever
comes first. -/
theorem Reports.exec_swap {x : Run α} {y : Run β} (hx : Reports x) (hy : Reports y) (s : State) :
    ∃ outcome outcome' new new',
      x.exec s = (outcome, s.reporting new) ∧
      y.exec (s.reporting new) = (outcome', s.reporting (new ++ new')) ∧
      y.exec s = (outcome', s.reporting new') ∧
      x.exec (s.reporting new') = (outcome, s.reporting (new' ++ new)) := by
  obtain ⟨outcome, new, hx⟩ := hx s
  obtain ⟨outcome', new', hy⟩ := hy s
  have hx₀ := hx #[]
  have hy₀ := hy #[]
  rw [State.reporting_empty, Array.empty_append] at hx₀ hy₀
  exact ⟨outcome, outcome', new, new', hx₀, hy new, hy₀, hx new'⟩

end OnlySkips

end Run

open Run

/-! ## Combinators that only read -/

/-- A call of `filter`, `map`, `for_each` or `reduce` without calls in its arguments, whose callback
is no command. -/
structure ReadingCall (c : Combinator) (name : String) (arguments : List (Arg Expr)) : Prop where
  visitsOrFolds : c ∈ [Combinator.filter, .map, .forEach, .reduce]
  combinator : Combinator.ofName? name = some c
  plain : Expr.argumentCalls arguments = []
  callback : ∀ given parameter inner own, assign c.parameters arguments = .ok given →
    c.function? = some parameter → given.lookup parameter = some (.function inner own) →
    Command.ofName? inner = none

section Combinator

variable {env : Env} {c : Combinator} {name : String}

/-- A callback that is an expression without calls or a function of one value only reads. -/
theorem callback_reads {function : Expr} {f : Callback} (hplain : function.calls = [])
    (hcommand : ∀ inner own, function = .function inner own → Command.ofName? inner = none)
    (h : callback env (operand env function) = .ok f) (scope : Binding) : (f scope).Reads := by
  cases function with
  | function inner own =>
    simp only [callback, operand, meaning, hcommand inner own rfl] at h
    cases hbuiltin : Builtin.ofName? inner with
    | none =>
      rw [hbuiltin] at h
      cases h
    | some b =>
      simp only [hbuiltin] at h
      cases hown : ownArguments env (.function inner own) with
      | nil =>
        rw [hown] at h
        cases h
        exact reads_evaluated _
      | cons a rest =>
        rw [hown] at h
        cases h
  | _ =>
    cases h
    exact evaluate_reads hplain

theorem visitFrom_onlySkips {f : Callback} (hf : ∀ scope, (f scope).Reads) (items : List Value) :
    ∀ position, (visitFrom env c name f position items).OnlySkips := by
  induction items with
  | nil => exact fun _ => (reads_pure []).onlySkips
  | cons item rest ih =>
    intro position
    rw [visitFrom]
    apply onlySkips_bind (onlySkips_settle env c position (hf ⟨name, item⟩).onlySkips)
    intro outcome
    apply onlySkips_bind (ih (position + 1))
    exact fun others => (reads_pure _).onlySkips

theorem itemsOf_reads (name : String) (v : Value) : (itemsOf name v).Reads := by
  cases v with
  | list items => exact reads_pure _
  | _ => exact reads_throw _

theorem collection_reads {source : Expr} {scope : Option Binding} (h : source.calls = []) :
    (collection (meaning env source) scope).Reads := by
  rw [collection_eq]
  cases (meaning env source).source.name? with
  | some s => exact reads_bind (fun _ => rfl) fun t => itemsOf_reads _ _
  | none => exact reads_bind (evaluate_reads h) fun v => itemsOf_reads _ v

variable {arguments : List (Arg Expr)} {given : List (String × Expr)} {scope : Option Binding}
  (hgiven : ∀ p e, given.lookup p = some e → e.calls = [])

include hgiven

theorem visitCollection_onlySkips {function : String}
    (hcommand : ∀ inner own, given.lookup function = some (.function inner own) →
      Command.ofName? inner = none) :
    (visitCollection env c function "collection" (mapGiven (operand env) given)
      scope).OnlySkips := by
  simp only [visitCollection, required_mapGiven, lift_map_bind]
  apply onlySkips_lift_bind
  intro e he
  have hfunction := lookup_of_required he
  apply onlySkips_lift_bind
  intro f hf
  apply onlySkips_lift_bind
  intro source hsource
  apply onlySkips_bind (collection_reads (hgiven _ source (lookup_of_required hsource))).onlySkips
  intro found
  apply visitFrom_onlySkips
  apply callback_reads (hgiven function e hfunction) ?_ hf
  rintro inner own rfl
  exact hcommand inner own hfunction

theorem runReduce_onlySkips :
    (runReduce (mapGiven (operand env) given) scope).OnlySkips := by
  simp only [runReduce, required_mapGiven, lift_map_bind, lookup_mapGiven]
  apply onlySkips_lift_bind
  intro e _
  apply onlySkips_lift_bind
  intro r _
  apply onlySkips_lift_bind
  intro source hsource
  apply onlySkips_bind (collection_reads (hgiven _ source (lookup_of_required hsource))).onlySkips
  intro found
  apply Reads.onlySkips
  cases hinitial : given.lookup "initial" with
  | none => exact reads_bind (reads_pure none) fun start => reads_evaluated _
  | some e =>
    apply reads_bind ?_ fun start => reads_evaluated _
    rw [map_eq_pure_bind]
    exact reads_bind (evaluate_reads (hgiven _ e hinitial)) fun v => reads_pure (some v)

end Combinator

/-- A call that only reads leaves everything but the items passed over as it was. -/
theorem ReadingCall.onlySkips {c : Combinator} {name : String} {arguments : List (Arg Expr)}
    (h : ReadingCall c name arguments) (env : Env) (scope : Option Binding) :
    (evaluate env (.call name arguments) scope).OnlySkips := by
  rw [evaluate, runCall, runNamed, h.combinator]
  apply onlySkips_within
  have hplain {given : List (String × Expr)}
      (hassign : assign c.parameters arguments = .ok given) :=
    Expr.calls_of_lookup h.plain hassign
  have hcommand {given : List (String × Expr)} (hassign : assign c.parameters arguments = .ok given)
      {parameter : String} (hparameter : c.function? = some parameter) (inner : String)
      (own : List (Arg Expr)) (hfunction : given.lookup parameter = some (.function inner own)) :
      Command.ofName? inner = none :=
    h.callback given parameter inner own hassign hparameter hfunction
  have hvisits := h.visitsOrFolds
  cases c with
  | filter | map | forEach =>
    simp only [runCombinator, operands_eq_map, assign_map, lift_map_bind]
    apply onlySkips_lift_bind
    intro given hassign
    apply onlySkips_bind (visitCollection_onlySkips (hplain hassign) (hcommand hassign rfl))
    exact fun visited => (reads_pure _).onlySkips
  | reduce =>
    simp only [runCombinator, operands_eq_map, assign_map, lift_map_bind]
    apply onlySkips_lift_bind
    intro given hassign
    exact runReduce_onlySkips (hplain hassign)
  | store | getTracks | getFxChain | getClips => simp at hvisits

theorem ReadingCall.reports {c : Combinator} {name : String} {arguments : List (Arg Expr)}
    (h : ReadingCall c name arguments) (env : Env) (scope : Option Binding) :
    (evaluate env (.call name arguments) scope).Reports :=
  (h.onlySkips env scope).reports ((obliviousness env).relation.evaluate _ scope).2

/-! ## Main result -/

/-- Reading changes nothing. An expression without calls leaves every state as it was, whether it
has a value or a fault, and has the same outcome wherever its free names stand for the same: what
the binding, else the symbols, else the session have under them. A combinator call that only reads
adds reports of items passed over and changes nothing else, and of two such calls each has the same
outcome and adds the same reports whichever comes first. -/
theorem reading_changes_nothing :
    (∀ e : Expr, e.calls = [] → ∀ (env : Env) (scope : Option Binding) (s : State),
      ((evaluate env e scope).exec s).2 = s ∧
      ∀ (env' : Env) (scope' : Option Binding) (s' : State),
        (∀ root ∈ e.free, rootAt env scope s root = rootAt env' scope' s' root) →
        ((evaluate env e scope).exec s).1 = ((evaluate env' e scope').exec s').1) ∧
    (∀ (env : Env) (scope : Option Binding) (s : State) (root : String),
      rootAt env scope s root =
        (((scope.bind (·.get? root)).or (s.symbol? root)).or
          (env.session.bind (·.named? root))).elim (.error (.unknownIdentifier root)) .ok) ∧
    (∀ (c : Combinator) (name : String) (arguments : List (Arg Expr)),
      ReadingCall c name arguments → ∀ (env : Env) (scope : Option Binding),
        (evaluate env (.call name arguments) scope).Reports) ∧
    ∀ (c c' : Combinator) (name name' : String) (arguments arguments' : List (Arg Expr)),
      ReadingCall c name arguments → ReadingCall c' name' arguments' →
      ∀ (env : Env) (scope scope' : Option Binding) (s : State),
        ∃ outcome outcome' new new',
          (evaluate env (.call name arguments) scope).exec s = (outcome, s.reporting new) ∧
          (evaluate env (.call name' arguments') scope').exec (s.reporting new) =
            (outcome', s.reporting (new ++ new')) ∧
          (evaluate env (.call name' arguments') scope').exec s = (outcome', s.reporting new') ∧
          (evaluate env (.call name arguments) scope).exec (s.reporting new') =
            (outcome, s.reporting (new' ++ new)) := by
  refine ⟨?_, rootAt_eq, ?_, ?_⟩
  · intro e he env scope s
    refine ⟨evaluate_reads he s, ?_⟩
    intro env' scope' s' hroots
    obtain ⟨outcome, hexec, hexec'⟩ := evaluate_readAlike he hroots
    rw [hexec, hexec']
  · intro c name arguments h env scope
    exact h.reports env scope
  · intro c c' name name' arguments arguments' h h' env scope scope' s
    exact (h.reports env scope).exec_swap (h'.reports env scope') s

/-- Two stored levels, and a text that both calls pass over. It does not matter whether the levels
are mapped first or filtered first, and a level may as well be stored as bound. -/
theorem levels_in_either_order :
    let below : Expr := .binary .sub (.name "level") (.literal (.int 1))
    let stored : State :=
      (State.fresh #[]).store "levels" (.list [.int 1, .string "high", .int 3])
    let mapped := evaluate ⟨none, {}⟩ (.call "map" [⟨none, below⟩, ⟨none, .name "levels"⟩]) none
    let filtered :=
      evaluate ⟨none, {}⟩ (.call "filter" [⟨none, .name "levels"⟩, ⟨none, below⟩]) none
    ((evaluate ⟨none, {}⟩ below (some ⟨"level", .int 3⟩)).exec stored).1 =
        ((evaluate ⟨none, {}⟩ below none).exec ((State.fresh #[]).store "level" (.int 3))).1 ∧
      ∃ new new',
        mapped.exec stored = (.ok (.list [.int 0, .int 2]), stored.reporting new) ∧
        filtered.exec (stored.reporting new) =
          (.ok (.list [.int 3]), stored.reporting (new ++ new')) ∧
        filtered.exec stored = (.ok (.list [.int 3]), stored.reporting new') ∧
        mapped.exec (stored.reporting new') =
          (.ok (.list [.int 0, .int 2]), stored.reporting (new' ++ new)) := by
  intro below stored mapped filtered
  obtain ⟨hreading, -, -, hswap⟩ := reading_changes_nothing
  refine ⟨(hreading below rfl _ _ _).2 _ _ _ ?_, ?_⟩
  · intro root hroot
    cases List.mem_singleton.1 hroot
    rfl
  · have hmapped : ReadingCall .map "map" [⟨none, below⟩, ⟨none, .name "levels"⟩] := by
      refine ⟨by decide, rfl, rfl, ?_⟩
      rintro given parameter inner own ⟨⟩ ⟨⟩ hfunction
      cases hfunction
    have hfiltered : ReadingCall .filter "filter" [⟨none, .name "levels"⟩, ⟨none, below⟩] := by
      refine ⟨by decide, rfl, rfl, ?_⟩
      rintro given parameter inner own ⟨⟩ ⟨⟩ hfunction
      cases hfunction
    obtain ⟨outcome, outcome', new, new', hfirst, hsecond, hfirst', hsecond'⟩ :=
      hswap _ _ _ _ _ _ hmapped hfiltered ⟨none, {}⟩ none none stored
    have houtcome : outcome = .ok (.list [.int 0, .int 2]) :=
      (congrArg Prod.fst hfirst).symm.trans rfl
    have houtcome' : outcome' = .ok (.list [.int 3]) :=
      (congrArg Prod.fst hfirst').symm.trans rfl
    subst houtcome houtcome'
    exact ⟨new, new', hfirst, hsecond, hfirst', hsecond'⟩

end DawScript
