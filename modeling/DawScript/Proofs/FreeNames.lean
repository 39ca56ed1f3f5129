import DawScript.Proofs.Execution

/-!
# Free names

The free names of an expression are the roots of the paths that it evaluates under the binding
around it (`Expr.free`). What a combinator does with each item runs under a binding of its own, and
a bare name that stands for a collection or for the name of a symbol is not evaluated, so neither
counts. Bindings that agree on the free names of an expression make no difference to it
(`evaluate_congr`), and a binding of any other name might as well not be there
(`evaluate_of_notMem_free`).
-/

set_option autoImplicit false

namespace DawScript

/-! ## Free names of expressions -/

/-- An expression with its free names. -/
structure WithFree where
  source : Expr
  free : List String

/-- The free names of what is given to a parameter. -/
def freeGiven (given : List (String × WithFree)) (p : String) : List String :=
  ((given.lookup p).map WithFree.free).getD []

/-- The free names of an expression where a bare name is not evaluated. -/
def WithFree.unlessBare (e : WithFree) : List String :=
  if e.source.name?.isSome then [] else e.free

/-- The free names of what is given to a parameter for which a bare name is not evaluated. -/
def freeUnlessBare (given : List (String × WithFree)) (p : String) : List String :=
  ((given.lookup p).map WithFree.unlessBare).getD []

/-- The free names of arguments by their parameters. Arguments that cannot be given to them are not
evaluated. -/
def freeAssigned (parameters : List String) (arguments : List (Arg WithFree))
    (names : List (String × WithFree) → List String) : List String :=
  match assign parameters arguments with
  | .ok given => names given
  | .error _ => []

/-- The free names of a call of a combinator. The function that it is given does not count. -/
def Combinator.free (c : Combinator) (arguments : List (Arg WithFree)) : List String :=
  let on := freeAssigned c.parameters arguments
  match c with
  | .filter | .map | .forEach => on fun given => freeUnlessBare given "collection"
  | .reduce => on fun given => freeUnlessBare given "collection" ++ freeGiven given "initial"
  | .store =>
    match storeKeyword? arguments with
    | some (_, e) => e.free
    | none => on fun given => freeUnlessBare given "name" ++ freeGiven given "value"
  | .getTracks => []
  | .getFxChain | .getClips => on fun given => freeGiven given "track_index"

/-- The free names of a call of a command. -/
def Command.free (c : Command) (arguments : List (Arg WithFree)) : List String :=
  freeAssigned c.parameters arguments fun given => c.parameters.flatMap (freeGiven given)

/-- The free names of a call. -/
def freeInCall (name : String) (arguments : List (Arg WithFree)) : List String :=
  match Combinator.ofName? name with
  | some c => c.free arguments
  | none => match Command.ofName? name with
    | some c => c.free arguments
    | none => []

namespace Expr

mutual

/-- The names that an expression looks up in the binding around it. -/
def free : Expr → List String
  | .literal _ => []
  | .list items => itemsFree items
  | .map entries => entriesFree entries
  | .property root _ => [root]
  | .binary _ left right => free left ++ free right
  | .unary _ operand => free operand
  | .method target _ arguments => free target ++ itemsFree arguments
  | .call name arguments => freeInCall name (argumentsWithFree arguments)
  -- a function reference is no value, so its arguments are not evaluated where it stands
  | .function _ _ => []

/-- The free names of expressions. -/
def itemsFree : List Expr → List String
  | [] => []
  | item :: rest => free item ++ itemsFree rest

/-- The free names of the entries of a map. -/
def entriesFree : List (String × Expr) → List String
  | [] => []
  | (_, value) :: rest => free value ++ entriesFree rest

/-- Arguments with their free names. -/
def argumentsWithFree : List (Arg Expr) → List (Arg WithFree)
  | [] => []
  | ⟨keyword, value⟩ :: rest => ⟨keyword, ⟨value, free value⟩⟩ :: argumentsWithFree rest

end

/-- An expression with its free names. -/
def withFree (e : Expr) : WithFree := ⟨e, e.free⟩

/-- Only a bare name is not evaluated. -/
theorem unlessBare_withFree {e : Expr} (h : e.name? = none) : e.withFree.unlessBare = e.free := by
  simp [WithFree.unlessBare, withFree, h]

theorem argumentsWithFree_eq_map (arguments : List (Arg Expr)) :
    argumentsWithFree arguments = arguments.map (Arg.map withFree) := by
  induction arguments with
  | nil => simp [argumentsWithFree]
  | cons a rest ih =>
    rw [argumentsWithFree, ih]
    rfl

theorem free_subset_itemsFree {items : List Expr} {e : Expr} (he : e ∈ items) :
    e.free ⊆ itemsFree items := by
  induction items with
  | nil => cases he
  | cons item rest ih =>
    rw [itemsFree]
    rcases List.mem_cons.1 he with rfl | he
    · exact List.subset_append_left _ _
    · exact List.subset_append_of_subset_right _ (ih he)

theorem free_subset_entriesFree {entries : List (String × Expr)} {entry : String × Expr}
    (hentry : entry ∈ entries) : entry.2.free ⊆ entriesFree entries := by
  induction entries with
  | nil => cases hentry
  | cons first rest ih =>
    rw [entriesFree]
    rcases List.mem_cons.1 hentry with rfl | hentry
    · exact List.subset_append_left _ _
    · exact List.subset_append_of_subset_right _ (ih hentry)

end Expr

/-! ## Bindings that agree -/

/-- Two bindings have the same to say about some names. -/
def Agree (names : List String) (scope scope' : Option Binding) : Prop :=
  ∀ name ∈ names, scope.bind (·.get? name) = scope'.bind (·.get? name)

theorem Agree.mono {names more : List String} {scope scope' : Option Binding}
    (h : Agree more scope scope') (hsubset : names ⊆ more) : Agree names scope scope' :=
  fun name hname => h name (hsubset hname)

/-- Bindings that agree on the free names of an expression make no difference to it. -/
def Coincides (env : Env) (e : Expr) : Prop :=
  ∀ scope scope', Agree e.free scope scope' → evaluate env e scope = evaluate env e scope'

section Given

variable {env : Env} {scope scope' : Option Binding} {given : List (String × Expr)}

theorem freeGiven_of_lookup {p : String} {e : Expr} (hp : given.lookup p = some e) :
    freeGiven (mapGiven Expr.withFree given) p = e.free := by
  simp [freeGiven, lookup_mapGiven, hp, Expr.withFree]

theorem freeUnlessBare_of_lookup {p : String} {e : Expr} (hp : given.lookup p = some e) :
    freeUnlessBare (mapGiven Expr.withFree given) p = e.withFree.unlessBare := by
  simp [freeUnlessBare, lookup_mapGiven, hp]

theorem collection_congr {e : Expr} (he : Coincides env e)
    (h : Agree e.withFree.unlessBare scope scope') :
    collection (meaning env e) scope = collection (meaning env e) scope' := by
  simp only [collection_eq, meaning]
  cases hname : e.name? with
  | some s => rfl
  | none =>
    rw [Expr.unlessBare_withFree hname] at h
    simp only [he scope scope' h]

theorem storeName_congr {e : Expr} (he : Coincides env e)
    (h : Agree e.withFree.unlessBare scope scope') :
    storeName (meaning env e) scope = storeName (meaning env e) scope' := by
  simp only [storeName, meaning]
  cases hname : e.name? with
  | some s => rfl
  | none =>
    rw [Expr.unlessBare_withFree hname] at h
    simp only [he scope scope' h]

variable (he : ∀ p e, given.lookup p = some e → Coincides env e)

include he

theorem argumentValues_congr {parameters : List String}
    (h : Agree (parameters.flatMap (freeGiven (mapGiven Expr.withFree given))) scope scope') :
    argumentValues (mapGiven (meaning env) given) scope parameters =
      argumentValues (mapGiven (meaning env) given) scope' parameters := by
  induction parameters with
  | nil => rfl
  | cons p rest ih =>
    rw [List.flatMap_cons] at h
    have hrest := ih (h.mono (List.subset_append_right _ _))
    simp only [argumentValues, lookup_mapGiven]
    cases hp : given.lookup p with
    | none => exact hrest
    | some e =>
      have hagree := h.mono (List.subset_append_left _ _)
      rw [freeGiven_of_lookup hp] at hagree
      have hvalue : (meaning env e).value scope = (meaning env e).value scope' :=
        he p e hp scope scope' hagree
      simp only [Option.map_some, hvalue, hrest]

theorem visitCollection_congr (c : Combinator) (function : String)
    (h : Agree (freeUnlessBare (mapGiven Expr.withFree given) "collection") scope scope') :
    visitCollection env c function "collection" (mapGiven (operand env) given) scope =
      visitCollection env c function "collection" (mapGiven (operand env) given) scope' := by
  simp only [visitCollection, required_mapGiven, Run.lift_map_bind]
  cases hsource : required given "collection" with
  | error fault => rfl
  | ok source =>
    have hlookup := lookup_of_required hsource
    rw [freeUnlessBare_of_lookup hlookup] at h
    have hcollection := collection_congr (he _ _ hlookup) h
    simp only [Run.lift_ok_bind, operand, hcollection]

theorem runReduce_congr
    (h : Agree (freeUnlessBare (mapGiven Expr.withFree given) "collection" ++
      freeGiven (mapGiven Expr.withFree given) "initial") scope scope') :
    runReduce (mapGiven (operand env) given) scope =
      runReduce (mapGiven (operand env) given) scope' := by
  simp only [runReduce, required_mapGiven, Run.lift_map_bind, lookup_mapGiven]
  have hinitial : ∀ e, given.lookup "initial" = some e →
      (meaning env e).value scope = (meaning env e).value scope' := by
    intro e hlookup
    have hagree := h.mono (List.subset_append_right _ _)
    rw [freeGiven_of_lookup hlookup] at hagree
    exact he _ e hlookup scope scope' hagree
  cases hsource : required given "collection" with
  | error fault => rfl
  | ok source =>
    have hlookup := lookup_of_required hsource
    have hagree := h.mono (List.subset_append_left _ _)
    rw [freeUnlessBare_of_lookup hlookup] at hagree
    have hcollection := collection_congr (he _ _ hlookup) hagree
    cases hgiven : given.lookup "initial" with
    | none => simp only [Run.lift_ok_bind, operand, hcollection, Option.map_none]
    | some e =>
      simp only [Run.lift_ok_bind, operand, hcollection, Option.map_some, hinitial e hgiven]

theorem storeGiven_congr
    (h : Agree (freeUnlessBare (mapGiven Expr.withFree given) "name" ++
      freeGiven (mapGiven Expr.withFree given) "value") scope scope') :
    storeGiven env given scope = storeGiven env given scope' := by
  simp only [storeGiven]
  cases hname : required given "name" with
  | error fault => rfl
  | ok nameSource =>
    have hlookup := lookup_of_required hname
    have hagree := h.mono (List.subset_append_left _ _)
    rw [freeUnlessBare_of_lookup hlookup] at hagree
    have hstoreName := storeName_congr (he _ _ hlookup) hagree
    cases hvalue : required given "value" with
    | error fault => simp only [Run.lift_ok_bind, hstoreName, Run.lift_error_bind]
    | ok source =>
      have hsource := lookup_of_required hvalue
      have hagree := h.mono (List.subset_append_right _ _)
      rw [freeGiven_of_lookup hsource] at hagree
      simp only [Run.lift_ok_bind, hstoreName, he _ _ hsource scope scope' hagree]

theorem runListing_congr (symbol : String) (part : Session → Int64 → Value)
    (h : Agree (freeGiven (mapGiven Expr.withFree given) "track_index") scope scope') :
    runListing env symbol part (mapGiven (operand env) given) scope =
      runListing env symbol part (mapGiven (operand env) given) scope' := by
  simp only [runListing, queriedTrack, lookup_mapGiven]
  cases hindex : given.lookup "track_index" with
  | none => rfl
  | some e =>
    rw [freeGiven_of_lookup hindex] at h
    simp only [Option.map_some, operand, meaning, he _ e hindex scope scope' h]

end Given

/-! ## Calls -/

section Call

variable {env : Env} {scope scope' : Option Binding} {arguments : List (Arg Expr)}

/-- Arguments that can be given to parameters may be looked at one by one, and others are a fault
under every binding. -/
theorem assigned_congr {α : Type} {parameters : List String}
    {names : List (String × WithFree) → List String} {f g : List (String × Expr) → Run α}
    (h : Agree (freeAssigned parameters (arguments.map (Arg.map Expr.withFree)) names) scope scope')
    (hf : ∀ given, assign parameters arguments = .ok given →
      Agree (names (mapGiven Expr.withFree given)) scope scope' → f given = g given) :
    (liftM (assign parameters arguments) >>= f : Run α) =
      liftM (assign parameters arguments) >>= g := by
  rw [freeAssigned, assign_map] at h
  cases hassign : assign parameters arguments with
  | error fault => rfl
  | ok given =>
    rw [hassign] at h
    rw [Run.lift_ok_bind, Run.lift_ok_bind]
    exact hf given hassign h

variable (he : ∀ a ∈ arguments, Coincides env a.value)

include he

theorem coincides_of_lookup {parameters : List String} {given : List (String × Expr)}
    (hassign : assign parameters arguments = .ok given) (p : String) (e : Expr)
    (hp : given.lookup p = some e) : Coincides env e := by
  obtain ⟨a, ha, rfl⟩ := mem_of_assign_lookup hassign hp
  exact he a ha

theorem runCombinator_congr (c : Combinator)
    (h : Agree (c.free (arguments.map (Arg.map Expr.withFree))) scope scope') :
    runCombinator env c (arguments.map (Arg.map (operand env))) scope =
      runCombinator env c (arguments.map (Arg.map (operand env))) scope' := by
  have hlookup {parameters : List String} {given : List (String × Expr)}
      (hassign : assign parameters arguments = .ok given) := coincides_of_lookup he hassign
  cases c with
  | filter | map | forEach =>
    simp only [runCombinator, assign_map, Run.lift_map_bind]
    refine assigned_congr h fun given hassign hagree => ?_
    simp only [runFilter, runMap, runForEach, visitCollection_congr (hlookup hassign) _ _ hagree]
  | reduce =>
    simp only [runCombinator, assign_map, Run.lift_map_bind]
    exact assigned_congr h fun given hassign hagree => runReduce_congr (hlookup hassign) hagree
  | store =>
    simp only [Combinator.free, storeKeyword?_map] at h
    simp only [runCombinator, runStore_eq]
    cases hkeyword : storeKeyword? arguments with
    | some pair =>
      rw [hkeyword] at h
      obtain ⟨a, ha, hvalue⟩ := mem_of_storeKeyword? hkeyword
      have hpair : evaluate env pair.2 scope = evaluate env pair.2 scope' := by
        rw [← hvalue]
        refine he a ha scope scope' ?_
        rw [hvalue]
        exact h
      simp only [hpair]
    | none =>
      rw [hkeyword] at h
      exact assigned_congr h fun given hassign hagree => storeGiven_congr (hlookup hassign) hagree
  | getTracks => rfl
  | getFxChain | getClips =>
    simp only [runCombinator, assign_map, Run.lift_map_bind]
    exact assigned_congr h fun given hassign hagree =>
      runListing_congr (hlookup hassign) _ _ hagree

theorem runCommand_congr (c : Command)
    (h : Agree (c.free (arguments.map (Arg.map Expr.withFree))) scope scope') :
    runCommand env c (arguments.map (Arg.map (meaning env))) scope =
      runCommand env c (arguments.map (Arg.map (meaning env))) scope' := by
  have hvalues : commandValues c (arguments.map (Arg.map (meaning env))) scope =
      commandValues c (arguments.map (Arg.map (meaning env))) scope' := by
    simp only [commandValues, assign_map, Run.lift_map_bind]
    exact assigned_congr h fun given hassign hagree =>
      argumentValues_congr (coincides_of_lookup he hassign) hagree
  simp only [runCommand, hvalues]

theorem runCall_congr (name : String)
    (h : Agree (Expr.call name arguments).free scope scope') (written : String) :
    runCall env name written (operands env arguments) scope =
      runCall env name written (operands env arguments) scope' := by
  rw [Expr.free, Expr.argumentsWithFree_eq_map, freeInCall] at h
  simp only [runCall, runNamed, operands_eq_map]
  cases hcombinator : Combinator.ofName? name with
  | some c =>
    rw [hcombinator] at h
    simp only [runCombinator_congr he c h]
  | none =>
    rw [hcombinator] at h
    cases hcommand : Command.ofName? name with
    | none => rfl
    | some c =>
      rw [hcommand] at h
      have hrun := runCommand_congr he c h
      simp only [List.map_map]
      exact congrArg (fun x : Run Value => tryCatch x fun fault =>
        throw (fault.within name written)) hrun

end Call

/-! ## Expressions -/

section Parts

variable {env : Env} {scope scope' : Option Binding}

theorem evaluateItems_congr {items : List Expr} (he : ∀ e ∈ items, Coincides env e)
    (h : Agree (Expr.itemsFree items) scope scope') :
    evaluateItems env items scope = evaluateItems env items scope' := by
  induction items with
  | nil => simp only [evaluateItems]
  | cons e rest ih =>
    have hfirst := he e List.mem_cons_self scope scope'
      (h.mono (Expr.free_subset_itemsFree List.mem_cons_self))
    rw [Expr.itemsFree] at h
    have hrest := ih (fun d hd => he d (List.mem_cons_of_mem _ hd))
      (h.mono (List.subset_append_right _ _))
    simp only [evaluateItems, hfirst, hrest]

theorem evaluateEntries_congr {entries : List (String × Expr)}
    (he : ∀ entry ∈ entries, Coincides env entry.2)
    (h : Agree (Expr.entriesFree entries) scope scope') :
    evaluateEntries env entries scope = evaluateEntries env entries scope' := by
  induction entries with
  | nil => simp only [evaluateEntries]
  | cons entry rest ih =>
    have hfirst := he entry List.mem_cons_self scope scope'
      (h.mono (Expr.free_subset_entriesFree List.mem_cons_self))
    rw [Expr.entriesFree] at h
    have hrest := ih (fun d hd => he d (List.mem_cons_of_mem _ hd))
      (h.mono (List.subset_append_right _ _))
    simp only [evaluateEntries, hfirst, hrest]

theorem lookUp_congr {root : String} (h : Agree [root] scope scope') (path : List String)
    (symbols : List (String × Value)) (session : Option Session) :
    lookUp root path scope symbols session = lookUp root path scope' symbols session := by
  simp only [lookUp, rootValue, h root List.mem_cons_self]

end Parts

/-- Bindings that agree on the free names of an expression make no difference to it. -/
theorem evaluate_congr (env : Env) (e : Expr) : Coincides env e := by
  induction e using Expr.rec' with
  | literal v =>
    intro scope scope' _
    simp only [evaluate]
  | list items ih =>
    intro scope scope' h
    simp only [evaluate, evaluateItems_congr ih h]
  | map entries ih =>
    intro scope scope' h
    simp only [evaluate, evaluateEntries_congr ih h]
  | property root path =>
    intro scope scope' h
    simp only [evaluate, lookUp_congr h]
  | binary op left right ihl ihr =>
    intro scope scope' h
    rw [Expr.free] at h
    have hl := ihl scope scope' (h.mono (List.subset_append_left _ _))
    have hr := ihr scope scope' (h.mono (List.subset_append_right _ _))
    simp only [evaluate, hl, hr]
  | unary op operand ih =>
    intro scope scope' h
    simp only [evaluate, ih scope scope' h]
  | method target name arguments iht iha =>
    intro scope scope' h
    rw [Expr.free] at h
    have ht := iht scope scope' (h.mono (List.subset_append_left _ _))
    have ha := evaluateItems_congr iha (h.mono (List.subset_append_right _ _))
    simp only [evaluate, ht, ha]
  | call name arguments iha _ =>
    -- callbacks are run under the binding of an item, whatever the one around the call is
    intro scope scope' h
    simp only [evaluate, runCall_congr iha name h]
  | function name arguments _ =>
    intro scope scope' _
    simp only [evaluate]

/-- A binding of a name is not seen where the name is not free: whatever the name is bound to, and
also if it is not bound at all, an expression has the same value or fault and leaves the same
state. -/
theorem evaluate_of_notMem_free (env : Env) (e : Expr) (x : String) (hx : x ∉ e.free)
    (v w : Value) (s : State) :
    (evaluate env e (some ⟨x, v⟩)).exec s = (evaluate env e (some ⟨x, w⟩)).exec s ∧
      (evaluate env e (some ⟨x, v⟩)).exec s = (evaluate env e none).exec s := by
  have hnone (u : Value) : Agree e.free (some ⟨x, u⟩) none := by
    intro name hname
    have hne : x ≠ name := fun heq => hx (heq ▸ hname)
    simp [Binding.get?, hne]
  have hv := evaluate_congr env e _ _ (hnone v)
  have hw := evaluate_congr env e _ _ (hnone w)
  rw [hv, hw]
  exact ⟨rfl, rfl⟩

/-- The levels of the tracks added to a start. -/
def sumOfLevels : Expr :=
  .call "reduce" [⟨none, .function "add" []⟩,
    ⟨none, .call "map" [⟨none, .property "track" ["level"]⟩, ⟨none, .name "tracks"⟩]⟩,
    ⟨some "initial", .name "start"⟩]

/-- In the sum of levels the track is that of the callback, not the one bound around it. -/
theorem evaluate_sumOfLevels :
    let level (n : Int64) : Value := .map [("level", .int n)]
    let state : State :=
      { State.fresh #[] with
        symbols := [("start", .int 10), ("tracks", .list [level 3, level 4])] }
    sumOfLevels.free = ["start"] ∧
    (evaluate ⟨none, {}⟩ sumOfLevels none).exec state = (.ok (.int 17), state) ∧
    (evaluate ⟨none, {}⟩ sumOfLevels (some ⟨"track", level 5⟩)).exec state =
      (.ok (.int 17), state) ∧
    (evaluate ⟨none, {}⟩ sumOfLevels (some ⟨"track", .null⟩)).exec state =
      (.ok (.int 17), state) := by
  intro level state
  have hfree : sumOfLevels.free = ["start"] := rfl
  have hnone : (evaluate ⟨none, {}⟩ sumOfLevels none).exec state = (.ok (.int 17), state) := rfl
  obtain ⟨hvalues, hbound⟩ := evaluate_of_notMem_free ⟨none, {}⟩ sumOfLevels "track"
    (by rw [hfree]; decide) (level 5) .null state
  refine ⟨hfree, hnone, hbound.trans hnone, ?_⟩
  rw [← hvalues, hbound, hnone]

end DawScript
