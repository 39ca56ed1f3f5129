import DawScript.Proofs.Assignment
import DawScript.Proofs.Reads

/-!
# Queries

What the calls that ask for tracks, effects and clips leave behind. A query that finds a track
stores the list that it returns, so the combinators after it visit that list; a query for a part of
a track that does not exist returns the empty list and stores nothing, so a list from before stays
where it was (`query_stores_result`).
-/

set_option autoImplicit false

namespace DawScript

/-! ## What a query asks about -/

/-- The symbol under which a query stores its list; other combinators are no queries. -/
def Combinator.querySymbol? : Combinator → Option String
  | .getTracks => some "tracks"
  | .getFxChain => some "fx_chain"
  | .getClips => some "clips"
  | _ => none

/-- The arguments of a query ask about a track: the one whose index they give, or the bound one if
there are none. -/
def AsksAbout (env : Env) (arguments : List (Arg Expr)) (scope : Option Binding) (s : State)
    (index : Int64) : Prop :=
  match arguments with
  | [] => s.target = index
  | a :: _ => ((evaluate env a.value scope).exec s).1 = .ok (.int index)

/-- A query finds what it asks for: all tracks are always found, even if there is no session, and a
part of a track only where the session has the track. -/
def Combinator.Finds (env : Env) (c : Combinator) (arguments : List (Arg Expr))
    (scope : Option Binding) (s : State) : Prop :=
  c = .getTracks ∨ ∃ session index, env.session = some session ∧
    AsksAbout env arguments scope s index ∧ (session.track? index).isSome

/-- What a successful query does: it finds a list and stores it, or finds no track. -/
inductive Queried (found : Prop) (symbol : String) (s : State) : Value → State → Prop where
  | stored (items : List Value) : found →
      Queried found symbol s (.list items) (s.store symbol (.list items))
  | noTrack : ¬ found → Queried found symbol s (.list []) s

theorem State.symbol?_store (name other : String) (v : Value) (s : State) :
    (s.store name v).symbol? other = if name = other then some v else s.symbol? other :=
  Fields.find?_insert other name v s.symbols

/-! ## One query -/

/-- A query for a part of a track has no argument or one, which gives the index. -/
theorem assign_trackIndex {α : Type} {arguments : List (Arg α)} {given : List (String × α)}
    (h : assign ["track_index"] arguments = .ok given) :
    (arguments = [] ∧ given = []) ∨ ∃ a, arguments = [a] ∧ given = [("track_index", a.value)] := by
  have hvalues := map_snd_of_assign h
  have hnames := names_of_assign h
  cases given with
  | nil => exact Or.inl ⟨List.map_eq_nil_iff.1 hvalues.symm, rfl⟩
  | cons entry rest =>
    have hfirst : entry.1 = "track_index" := List.mem_singleton.1 (hnames List.mem_cons_self)
    cases rest with
    | nil =>
      obtain ⟨a, rfl, hvalue⟩ := List.map_eq_singleton_iff.1 hvalues.symm
      exact Or.inr ⟨a, rfl, by rw [hvalue, ← hfirst]⟩
    | cons other more =>
      -- both would be for the one parameter
      have hsecond : other.1 = "track_index" :=
        List.mem_singleton.1 (hnames (List.mem_cons_of_mem _ List.mem_cons_self))
      have hdiffer := (List.nodup_cons.1 (nodup_of_assign h)).1
      exact absurd (hfirst.trans hsecond.symm) (fun heq => hdiffer (heq ▸ List.mem_cons_self))

section Query

variable {env : Env} {arguments : List (Arg Expr)} {given : List (String × Expr)}
  {scope : Option Binding} {s : State}

/-- The index that a query asks about is only read. -/
theorem exec_queriedTrack (hassign : assign ["track_index"] arguments = .ok given)
    (hplain : Expr.argumentCalls arguments = []) {index : Int64} {t : State}
    (h : (queriedTrack (mapGiven (operand env) given) scope).exec s = (.ok index, t)) :
    AsksAbout env arguments scope s index ∧ t = s := by
  unfold queriedTrack at h
  rcases assign_trackIndex hassign with ⟨rfl, rfl⟩ | ⟨a, rfl, rfl⟩
  · cases h
    exact ⟨rfl, rfl⟩
  · have hreads : (evaluate env a.value scope).Reads :=
      evaluate_reads (by simpa [Expr.argumentCalls] using hplain)
    have hlookup : (mapGiven (operand env) [("track_index", a.value)]).lookup "track_index" =
        some (operand env a.value) := rfl
    simp only [hlookup] at h
    change (evaluate env a.value scope >>= _).exec s = _ at h
    cases hvalue : (evaluate env a.value scope).exec s with
    | mk outcome u =>
      have hsame : u = s := by
        have hstate := hreads s
        rwa [hvalue] at hstate
      subst hsame
      cases outcome with
      | error fault =>
        rw [Run.exec_bind_error hvalue] at h
        cases h
      | ok v =>
        rw [Run.exec_bind_ok hvalue] at h
        cases hint : v.int? with
        | none =>
          rw [hint] at h
          cases h
        | some found =>
          rw [hint] at h
          cases h
          refine ⟨?_, rfl⟩
          change ((evaluate env a.value scope).exec _).1 = _
          rw [hvalue, Value.int?_eq_some_iff.1 hint]

/-- A query asks about one track only. -/
theorem AsksAbout.unique {index index' : Int64} (h : AsksAbout env arguments scope s index)
    (h' : AsksAbout env arguments scope s index') : index = index' := by
  cases arguments with
  | nil => exact Eq.trans (Eq.symm h) h'
  | cons a rest =>
    have heq : Except.ok (Value.int index) = .ok (.int index') := Eq.trans (Eq.symm h) h'
    cases heq
    rfl

/-- A query for a part of a track stores the part under its symbol if the session has the track,
and else does nothing. -/
theorem exec_runListing {c : Combinator} (hc : c ≠ .getTracks) {symbol : String}
    {part : Session → Int64 → List Value}
    (hassign : assign ["track_index"] arguments = .ok given)
    (hplain : Expr.argumentCalls arguments = []) {v : Value} {t : State}
    (h : (runListing env symbol (fun session index => .list (part session index))
      (mapGiven (operand env) given) scope).exec s = (.ok v, t)) :
    Queried (c.Finds env arguments scope s) symbol s v t := by
  unfold runListing at h
  cases hindex : (queriedTrack (mapGiven (operand env) given) scope).exec s with
  | mk outcome u =>
    cases outcome with
    | error fault =>
      rw [Run.exec_bind_error hindex] at h
      cases h
    | ok index =>
      rw [Run.exec_bind_ok hindex] at h
      obtain ⟨hasks, rfl⟩ := exec_queriedTrack hassign hplain hindex
      cases hsession : env.session.filter fun session => (session.track? index).isSome with
      | none =>
        rw [hsession] at h
        cases h
        refine .noTrack ?_
        rintro (htracks | ⟨session, index', hsome, hasks', htrack⟩)
        · exact hc htracks
        · -- the track that is asked about is the one that was looked for
          cases hasks.unique hasks'
          rw [hsome, Option.filter_some, if_pos htrack] at hsession
          cases hsession
      | some session =>
        rw [hsession] at h
        cases h
        obtain ⟨hsome, htrack⟩ := Option.filter_eq_some_iff.1 hsession
        exact .stored _ (Or.inr ⟨session, index, hsome, hasks, htrack⟩)

/-- A successful query stores the list that it finds under its symbol, or finds no track. -/
theorem exec_query {c : Combinator} {symbol : String} (hsymbol : c.querySymbol? = some symbol)
    (hplain : Expr.argumentCalls arguments = []) {v : Value} {t : State}
    (h : (evaluate env (.call c.name arguments) scope).exec s = (.ok v, t)) :
    Queried (c.Finds env arguments scope s) symbol s v t := by
  have hname : Combinator.ofName? c.name = some c := by
    cases c <;> rfl
  have hrun : (runCombinator env c (operands env arguments) scope).exec s = (.ok v, t) := by
    rw [evaluate, runCall, Run.exec_within, runNamed, hname] at h
    cases hexec : (runCombinator env c (operands env arguments) scope).exec s with
    | mk outcome u =>
      rw [hexec] at h
      cases outcome with
      | error fault => cases h
      | ok w => exact h
  simp only [runCombinator, operands_eq_map, assign_map, Run.lift_map_bind] at hrun
  cases hassign : assign c.parameters arguments with
  | error fault =>
    cases c with
    | getTracks | getFxChain | getClips =>
      rw [hassign, Run.lift_error_bind] at hrun
      cases hrun
    | _ => cases hsymbol
  | ok given =>
    cases c with
    | getTracks =>
      cases hsymbol
      rw [hassign, Run.lift_ok_bind] at hrun
      cases hrun
      cases env.session with
      | none => exact .stored [] (Or.inl rfl)
      | some session => exact .stored _ (Or.inl rfl)
    | getFxChain =>
      cases hsymbol
      rw [hassign, Run.lift_ok_bind] at hrun
      exact exec_runListing (by decide) hassign hplain hrun
    | getClips =>
      cases hsymbol
      rw [hassign, Run.lift_ok_bind] at hrun
      exact exec_runListing (by decide) hassign hplain hrun
    | _ => cases hsymbol

end Query

/-! ## Results and symbols -/

/-- A successful query for tracks, effects or clips changes nothing but its symbol. If it finds what
it asks for, the symbol then holds the list that it returns, and that is the list that a combinator
over the name visits. A query for a part of a track that does not exist returns the empty list and
leaves the symbol as it was too, so the symbol holds the result only where an empty list had been
stored before. -/
theorem query_stores_result (env : Env) {c : Combinator} {symbol : String}
    (hsymbol : c.querySymbol? = some symbol) {arguments : List (Arg Expr)}
    (hplain : Expr.argumentCalls arguments = []) {scope : Option Binding} {s t : State} {v : Value}
    (h : (evaluate env (.call c.name arguments) scope).exec s = (.ok v, t)) :
    (∀ other, other ≠ symbol → t.symbol? other = s.symbol? other) ∧
    t.target = s.target ∧ t.counter = s.counter ∧ t.actions = s.actions ∧
    t.skipped = s.skipped ∧
    (c.Finds env arguments scope s → t.symbol? symbol = some v ∧
      ∃ items, v = .list items ∧ ∀ scope',
        (collection (meaning env (.name symbol)) scope').exec t =
          (.ok (items, itemName symbol), t)) ∧
    (¬ c.Finds env arguments scope s → v = .list [] ∧ t = s) ∧
    (t.symbol? symbol = some v ↔
      c.Finds env arguments scope s ∨ s.symbol? symbol = some (.list [])) := by
  cases exec_query hsymbol hplain h with
  | stored items hfound =>
    have hstored : (s.store symbol (.list items)).symbol? symbol = some (.list items) := by
      rw [State.symbol?_store, if_pos rfl]
    refine ⟨fun other hother => ?_, rfl, rfl, rfl, rfl, fun _ => ⟨hstored, items, rfl, ?_⟩,
      fun hnone => absurd hfound hnone, fun _ => Or.inl hfound, fun _ => hstored⟩
    · rw [State.symbol?_store, if_neg hother.symm]
    · intro scope'
      rw [collection_eq]
      change (itemsOf (itemName symbol)
        (((s.store symbol (.list items)).symbol? symbol).getD _)).exec _ = _
      rw [hstored]
      rfl
  | noTrack hnone =>
    exact ⟨fun _ _ => rfl, rfl, rfl, rfl, rfl, fun hfound => absurd hfound hnone,
      fun _ => ⟨rfl, rfl⟩, Or.inr, fun hor => hor.resolve_left hnone⟩

/-- A session with one track, which has an effect and a clip. -/
def sessionOfDrums : Session :=
  ⟨[⟨0, "Drums", false, [⟨"ReaComp", true, []⟩], [⟨0, 4, "Beat", []⟩], []⟩]⟩

/-- The clips of the bound track are what the query returns and what its symbol then holds. -/
theorem query_stores_clipsOfDrums :
    let env : Env := ⟨some sessionOfDrums, {}⟩
    let s : State := { env.initial #[] with target := 0 }
    let clips : Value := .list [(⟨0, 4, "Beat", []⟩ : Clip).toValue]
    Combinator.getClips.Finds env [] none s ∧
    ∃ t, (evaluate env (.call "get_clips" []) none).exec s = (.ok clips, t) ∧
      t.symbol? "clips" = some clips ∧ t.symbol? "tracks" = s.symbol? "tracks" := by
  intro env s clips
  have hfinds : Combinator.getClips.Finds env [] none s := Or.inr ⟨_, 0, rfl, rfl, rfl⟩
  have hexec : (evaluate env (.call Combinator.getClips.name []) none).exec s =
      (.ok clips, s.store "clips" clips) := rfl
  obtain ⟨hothers, -, -, -, -, hfound, -⟩ := query_stores_result env rfl rfl hexec
  exact ⟨hfinds, _, hexec, (hfound hfinds).1, hothers "tracks" (by decide)⟩

/-- After the effects of a track, a query for those of a track that does not exist returns the empty
list, but the symbol still holds the effects from before. -/
theorem stale_effects_after_missing_track :
    let env : Env := ⟨some sessionOfDrums, {}⟩
    ∃ s t, (Call.run env ⟨"get_fx_chain", [⟨none, .literal (.int 0)⟩]⟩).exec (env.initial #[]) =
        (.ok (.list [(⟨"ReaComp", true, []⟩ : Effect).toValue]), s) ∧
      (Call.run env ⟨"get_fx_chain", [⟨none, .literal (.int 99)⟩]⟩).exec s = (.ok (.list []), t) ∧
      t.symbol? "fx_chain" = some (.list [(⟨"ReaComp", true, []⟩ : Effect).toValue]) :=
  ⟨_, _, rfl, rfl, rfl⟩

end DawScript
