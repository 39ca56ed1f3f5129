import DawScript.Proofs.NestedCalls
import DawScript.Proofs.Payload

/-!
# Numbers of created tracks

The counter for new tracks is a function of the actions that a run has emitted: it is the index
after the last track that they create (`counterAfter`). This holds in every state that a run leads
to, so a track without an index of its own is placed right after the last one, and the indexes of
created tracks ascend as long as no index is asked for that lies below the counter
(`counter_follows_created_tracks`).
-/

set_option autoImplicit false

namespace DawScript

variable {α β : Type}

/-! ## Indexes of created tracks -/

/-- The index of the track that an action creates. -/
def Action.createdIndex? (a : Action) : Option Int64 :=
  if a.kind = .createTrack then (a.field? "index").bind Value.int? else none

/-- The indexes of the tracks that actions create. -/
def createdIndexes (actions : List Action) : List Int64 := actions.filterMap Action.createdIndex?

/-- The index after the last track that actions create, zero if they create none. -/
def counterAfter (actions : List Action) : Int :=
  match (createdIndexes actions).getLast? with
  | some index => index.toInt + 1
  | none => 0

section Indexes

variable {a : Action} (actions : List Action) {index : Int64}

theorem createdIndex?_of_ne (h : a.kind ≠ .createTrack) : a.createdIndex? = none := if_neg h

theorem createdIndexes_append_of_none (h : a.createdIndex? = none) :
    createdIndexes (actions ++ [a]) = createdIndexes actions := by
  simp [createdIndexes, h]

theorem createdIndexes_append_of_some (h : a.createdIndex? = some index) :
    createdIndexes (actions ++ [a]) = createdIndexes actions ++ [index] := by
  simp [createdIndexes, h]

theorem counterAfter_append_of_none (h : a.createdIndex? = none) :
    counterAfter (actions ++ [a]) = counterAfter actions := by
  rw [counterAfter, createdIndexes_append_of_none actions h, counterAfter]

theorem counterAfter_append_of_some (h : a.createdIndex? = some index) :
    counterAfter (actions ++ [a]) = index.toInt + 1 := by
  rw [counterAfter, createdIndexes_append_of_some actions h, List.getLast?_concat]

end Indexes

/-! ## Creating a track -/

/-- A step from a state to another creates a track at an index, by an action, and moves the counter
on to the next index. -/
structure Creates (s t : State) (a : Action) (index : Int64) : Prop where
  kind : a.kind = .createTrack
  createdIndex : a.createdIndex? = some index
  actions : t.actions = s.actions.push a
  counter : t.counter.toInt = index.toInt + 1

/-- The index for a new track is the one that is asked for, or else the counter. -/
def Values.Places (values : Values) (s : State) (index : Int64) : Prop :=
  match values.lookup "index" with
  | some v => v = .int index
  | none => index = s.counter

namespace Command

theorem typed_int_eq_some {values : Values} {p : String} {n : Int64}
    (h : values.int p = .ok (some n)) : values.lookup p = some (.int n) := by
  unfold Values.int Values.typed at h
  cases hp : values.lookup p with
  | none =>
    rw [hp] at h
    cases h
  | some v =>
    rw [hp] at h
    simp only at h
    split at h
    · next hv =>
      cases h
      rw [Value.int?_eq_some_iff.1 hv]
    · cases h

theorem typed_int_eq_none {values : Values} {p : String} (h : values.int p = .ok none) :
    values.lookup p = none := by
  unfold Values.int Values.typed at h
  cases hp : values.lookup p with
  | none => rfl
  | some v =>
    rw [hp] at h
    simp only at h
    split at h <;> cases h

/-- A track is placed at the index asked for or else at the counter, and the counter moves on. -/
theorem exec_placeTrack_ok {index : Option Int64} {s t : State} {i : Int64}
    (h : (placeTrack index).exec s = (.ok i, t)) :
    t = { s with counter := t.counter } ∧ t.counter.toInt = i.toInt + 1 ∧
      i = index.getD s.counter := by
  have hcount {j : Int64} {u : State} (hu : (Run.countFrom j).exec s = (.ok (), u)) :
      u = { s with counter := u.counter } ∧ u.counter.toInt = j.toInt + 1 := by
    rw [Run.exec_countFrom] at hu
    cases hnext : word? (j.toInt + 1) with
    | none =>
      rw [hnext] at hu
      cases hu
    | some next =>
      rw [hnext] at hu
      cases hu
      exact ⟨rfl, word?_eq_some_iff.1 hnext⟩
  have hcounted {j : Int64}
      (hj : (Run.countFrom j >>= fun _ => (pure j : Run Int64)).exec s = (.ok i, t)) :
      t = { s with counter := t.counter } ∧ t.counter.toInt = i.toInt + 1 ∧ i = j := by
    rw [Run.exec_bind] at hj
    cases hexec : (Run.countFrom j).exec s with
    | mk outcome u =>
      rw [hexec] at hj
      cases outcome with
      | error fault => cases hj
      | ok _ =>
        cases hj
        exact ⟨(hcount hexec).1, (hcount hexec).2, rfl⟩
  cases index with
  | none => exact hcounted h
  | some asked =>
    by_cases hneg : asked < 0
    · simp only [placeTrack, hneg, if_true] at h
      cases h
    · simp only [placeTrack, hneg, if_false] at h
      exact hcounted h

/-- The action that creates a track names its index. -/
theorem createdIndex?_of_createTrack (instrument name : Option String) (index : Int64) :
    (Action.of .createTrack (textField "instrument" instrument ++ textField "name" name ++
      [("index", .int index)])).createdIndex? = some index := by
  have hkind : (Action.of .createTrack (textField "instrument" instrument ++
      textField "name" name ++ [("index", .int index)])).kind = .createTrack := rfl
  rw [Action.createdIndex?, if_pos hkind, field?_index_createTrack]
  rfl

/-- Whenever a step succeeds, the state that it leaves has a property. -/
def Ensures (x : Run Unit) (s : State) (Q : State → Prop) : Prop :=
  ∀ t, x.exec s = (.ok (), t) → Q t

section Ensures

variable {s : State} {Q : State → Prop}

theorem ensures_throw (fault : Fault) : Ensures (throw fault) s Q := nofun

theorem ensures_lift_bind {x : Except Fault α} {f : α → Run Unit}
    (h : ∀ a, x = .ok a → Ensures (f a) s Q) : Ensures (liftM x >>= f) s Q := by
  cases x with
  | ok a =>
    rw [Run.lift_ok_bind]
    exact h a rfl
  | error fault =>
    rw [Run.lift_error_bind]
    exact ensures_throw fault

end Ensures

variable (values : Values) (s : State)

theorem createTrack_ensures :
    Ensures (createTrack values) s fun t =>
      ∃ a index, Creates s t a index ∧ values.Places s index := by
  apply ensures_lift_bind
  intro instrument _
  apply ensures_lift_bind
  intro name _
  apply ensures_lift_bind
  intro asked hasked t ht
  rw [Run.exec_bind] at ht
  cases hplace : (placeTrack asked).exec s with
  | mk outcome u =>
    rw [hplace] at ht
    cases outcome with
    | error fault => cases ht
    | ok index =>
      obtain ⟨hstate, hcounter, hindex⟩ := exec_placeTrack_ok hplace
      cases ht
      refine ⟨_, index, ⟨rfl, createdIndex?_of_createTrack instrument name index, ?_, hcounter⟩, ?_⟩
      · rw [hstate]
        rfl
      · rw [hindex, Values.Places]
        cases asked with
        | none => rw [typed_int_eq_none hasked]; rfl
        | some n => rw [typed_int_eq_some hasked]; rfl

/-- A `track` that succeeds aims at a track and does nothing else, or it creates one. -/
theorem runTrack_ensures (env : Env) :
    Ensures (runTrack env values) s fun t =>
      t = { s with target := t.target } ∨
        ∃ a index, Creates s t a index ∧ values.Places s index := by
  apply ensures_lift_bind
  intro id _
  cases id with
  | some id =>
    simp only
    cases word? (id.toInt - 1) with
    | some index =>
      rintro t ⟨⟩
      exact Or.inl rfl
    | none => exact ensures_throw _
  | none =>
    apply ensures_lift_bind
    intro selected _
    split
    · cases env.selected? with
      | some index =>
        rintro t ⟨⟩
        exact Or.inl rfl
      | none => exact ensures_throw _
    · exact fun t ht => Or.inr (createTrack_ensures values s t ht)

/-- A `track` that emits an action creates a track. -/
theorem creates_of_exec {env : Env} {values : Values} {s t : State} {a : Action}
    (hexec : (Command.track.run env values).exec s = (.ok (), t))
    (hpush : t.actions = s.actions.push a) :
    ∃ index, Creates s t a index ∧ values.Places s index := by
  rcases runTrack_ensures values s env t hexec with haimed | ⟨b, index, hcreates, hplaces⟩
  · -- aiming emits nothing
    have hsize := congrArg Array.size hpush
    rw [haimed, Array.size_push] at hsize
    exact absurd hsize (Nat.succ_ne_self _).symm
  · have hsame : b = a := (Array.push_eq_push.1 (hcreates.actions.symm.trans hpush)).1
    exact ⟨index, hsame ▸ hcreates, hplaces⟩

/-- The effect of a command leaves the counter and creates no track, or it creates one. -/
theorem Does.keeps_or_creates {env : Env} {s t : State} {c : Command} (h : Does env s c t) :
    (t.counter = s.counter ∧ (t.actions = s.actions ∨
      ∃ a, a.kind ≠ .createTrack ∧ t.actions = s.actions.push a)) ∨
    c = .track ∧ ∃ a index, Creates s t a index := by
  have hemit {kind : ActionKind} {fields : List (String × Value)} (hkind : kind ≠ .createTrack) :
      ∃ a, a.kind ≠ .createTrack ∧ (s.emit (.of kind fields)).actions = s.actions.push a :=
    ⟨.of kind fields, hkind, rfl⟩
  cases h with
  | aim track => exact Or.inl ⟨rfl, Or.inl rfl⟩
  | create instrument name index next _ hnext =>
    exact Or.inr ⟨rfl, _, index, rfl, createdIndex?_of_createTrack instrument name index, rfl,
      word?_eq_some_iff.1 hnext⟩
  | set p track payload _ _ => exact Or.inl ⟨rfl, Or.inr (hemit (by cases p <;> decide))⟩
  | _ => exact Or.inl ⟨rfl, Or.inr (hemit (by decide))⟩

end Command

/-! ## The counter of a run -/

/-- What a run that began after some actions has appended since: created tracks have an index, and
the counter is the one that they lead to. -/
structure Numbered (start : Array Action) (s : State) (appended : List Action) : Prop where
  actions : s.actions.toList = start.toList ++ appended
  indexed : ∀ a ∈ appended, a.kind = .createTrack → ∃ index, a.createdIndex? = some index
  counter : s.counter.toInt = counterAfter appended

namespace Numbered

variable {start : Array Action} {s t : State} {appended : List Action} {a : Action}

/-- Only the actions and the counter count. -/
theorem congr (h : Numbered start s appended) (hactions : t.actions = s.actions)
    (hcounter : t.counter = s.counter) : Numbered start t appended :=
  ⟨hactions ▸ h.actions, h.indexed, hcounter ▸ h.counter⟩

theorem push_other (h : Numbered start s appended) (hkind : a.kind ≠ .createTrack)
    (hactions : t.actions = s.actions.push a) (hcounter : t.counter = s.counter) :
    Numbered start t (appended ++ [a]) := by
  refine ⟨?_, ?_, ?_⟩
  · rw [hactions, Array.toList_push, h.actions, List.append_assoc]
  · intro b hb hcreates
    rcases List.mem_append.1 hb with hb | hb
    · exact h.indexed b hb hcreates
    · cases List.mem_singleton.1 hb
      exact absurd hcreates hkind
  · rw [hcounter, h.counter, counterAfter_append_of_none appended (createdIndex?_of_ne hkind)]

theorem push_created {index : Int64} (h : Numbered start s appended)
    (hcreates : Creates s t a index) : Numbered start t (appended ++ [a]) := by
  refine ⟨?_, ?_, ?_⟩
  · rw [hcreates.actions, Array.toList_push, h.actions, List.append_assoc]
  · intro b hb hkind
    rcases List.mem_append.1 hb with hb | hb
    · exact h.indexed b hb hkind
    · cases List.mem_singleton.1 hb
      exact ⟨index, hcreates.createdIndex⟩
  · rw [hcreates.counter, counterAfter_append_of_some appended hcreates.createdIndex]

theorem initial (env : Env) (actions : Array Action) :
    Numbered actions (env.initial actions) [] := by
  refine ⟨by rw [initial_actions, List.append_nil], nofun, ?_⟩
  unfold Env.initial
  split <;> rfl

end Numbered

/-- In every state of a run the counter is the one that the actions appended so far lead to. -/
theorem numbered_invariant (env : Env) (start : Array Action) :
    StateInvariant env fun s => ∃ appended, Numbered start s appended where
  aimed _ := fun ⟨appended, h⟩ => ⟨appended, h.congr rfl rfl⟩
  stored _ _ := fun ⟨appended, h⟩ => ⟨appended, h.congr rfl rfl⟩
  skipped _ := fun ⟨appended, h⟩ => ⟨appended, h.congr rfl rfl⟩
  commanded := by
    rintro s t c ⟨appended, h⟩ hdoes
    rcases hdoes.keeps_or_creates with
      ⟨hcounter, hsame | ⟨a, hkind, hpush⟩⟩ | ⟨-, a, index, hcreates⟩
    · exact ⟨appended, h.congr hsame hcounter⟩
    · exact ⟨appended ++ [a], h.push_other hkind hpush hcounter⟩
    · exact ⟨appended ++ [a], h.push_created hcreates⟩

/-! ## Ascending indexes -/

/-- The created tracks of a run have ascending indexes, all of them below the counter. -/
structure Ascending (s : State) (appended : List Action) : Prop where
  indexes : (createdIndexes appended).Pairwise (· < ·)
  below : ∀ index ∈ createdIndexes appended, index < s.counter

namespace Ascending

variable {s t : State} {appended : List Action} {a : Action}

theorem congr (h : Ascending s appended) (hcounter : t.counter = s.counter) :
    Ascending t appended := ⟨h.indexes, hcounter ▸ h.below⟩

theorem push_other (h : Ascending s appended) (hkind : a.kind ≠ .createTrack)
    (hcounter : t.counter = s.counter) : Ascending t (appended ++ [a]) := by
  have hsame := createdIndexes_append_of_none appended (createdIndex?_of_ne hkind)
  exact ⟨hsame ▸ h.indexes, hcounter ▸ hsame ▸ h.below⟩

/-- A track at the counter or above it keeps the indexes ascending. -/
theorem push_created {index : Int64} (h : Ascending s appended) (hcreates : Creates s t a index)
    (hle : s.counter ≤ index) : Ascending t (appended ++ [a]) := by
  have hmore := createdIndexes_append_of_some appended hcreates.createdIndex
  have hnext : index < t.counter := by
    have hcounter := hcreates.counter
    rw [Int64.lt_iff_toInt_lt]
    omega
  constructor
  · rw [hmore, List.pairwise_append]
    refine ⟨h.indexes, List.pairwise_singleton _ _, ?_⟩
    intro before hbefore last hlast
    cases List.mem_singleton.1 hlast
    exact Int64.lt_of_lt_of_le (h.below before hbefore) hle
  · rw [hmore]
    intro before hbefore
    rcases List.mem_append.1 hbefore with hbefore | hlast
    · exact Int64.lt_trans (Int64.lt_of_lt_of_le (h.below before hbefore) hle) hnext
    · cases List.mem_singleton.1 hlast
      exact hnext

end Ascending

/-- Wherever a task leads to, a track that is created at an index asked for is created at the
counter or above it. -/
def PlacesForward (env : Env) (p : Task × State) : Prop :=
  ∀ values s t a index, Reaches env p (.command .track values, s) →
    (Command.track.run env values).exec s = (.ok (), t) → t.actions = s.actions.push a →
    values.lookup "index" = some (.int index) → s.counter ≤ index

/-- The created tracks of a run that began after some actions are numbered in ascending order. -/
def State.Ascends (start : Array Action) (s : State) : Prop :=
  ∃ appended, Numbered start s appended ∧ Ascending s appended

section Ascends

variable {env : Env} {start : Array Action} {p q : Task × State} {s t : State}

theorem PlacesForward.of_begins (h : PlacesForward env p) (hbegin : Begins env p q) :
    PlacesForward env q :=
  fun values s t a index hreach => h values s t a index (.head hbegin hreach)

theorem State.Ascends.congr (h : s.Ascends start) (hactions : t.actions = s.actions)
    (hcounter : t.counter = s.counter) : t.Ascends start := by
  obtain ⟨appended, hnumbered, hascending⟩ := h
  exact ⟨appended, hnumbered.congr hactions hcounter, hascending.congr hcounter⟩

/-- A command keeps the numbers ascending if it places its track at the counter or above it. -/
theorem ascends_command (c : Command) (values : Values) (s : State)
    (hforward : PlacesForward env (.command c values, s)) (h : s.Ascends start) :
    ((c.run env values).exec s).2.Ascends start := by
  obtain ⟨appended, hnumbered, hascending⟩ := h
  rcases Command.exec_run env s values c with ⟨fault, hexec⟩ | ⟨t, hexec, hdoes⟩
  · rw [hexec]
    exact ⟨appended, hnumbered, hascending⟩
  · rw [hexec]
    rcases hdoes.keeps_or_creates with ⟨hcounter, hsame | ⟨a, hkind, hpush⟩⟩ | ⟨rfl, a, _, hcreates⟩
    · exact ⟨appended, hnumbered.congr hsame hcounter, hascending.congr hcounter⟩
    · exact ⟨appended ++ [a], hnumbered.push_other hkind hpush hcounter,
        hascending.push_other hkind hcounter⟩
    · obtain ⟨index, hcreates, hplaces⟩ := Command.creates_of_exec hexec hcreates.actions
      have hle : s.counter ≤ index := by
        unfold Values.Places at hplaces
        cases hlookup : values.lookup "index" with
        | none =>
          rw [hlookup] at hplaces
          exact hplaces ▸ Int64.le_refl _
        | some v =>
          rw [hlookup] at hplaces
          cases hplaces
          exact hforward values s t a index .refl hexec hcreates.actions hlookup
      exact ⟨appended ++ [a], hnumbered.push_created hcreates,
        hascending.push_created hcreates hle⟩

theorem ascends_bind {x : Run α} {f : α → Run β}
    (hx : PlacesForward env p → s.Ascends start → (x.exec s).2.Ascends start)
    (hf : ∀ a t, x.exec s = (.ok a, t) →
      PlacesForward env p → t.Ascends start → ((f a).exec t).2.Ascends start)
    (hforward : PlacesForward env p) (h : s.Ascends start) :
    ((x >>= f).exec s).2.Ascends start := by
  have ht := hx hforward h
  rw [Run.exec_bind]
  cases hexec : x.exec s with
  | mk outcome t =>
    rw [hexec] at ht
    cases outcome with
    | error fault => exact ht
    | ok a => exact hf a t hexec hforward ht

theorem ascends_settle {x : Run Value} (c : Combinator) (position : Nat)
    (h : (x.exec s).2.Ascends start) :
    ((settle env c position x).exec s).2.Ascends start := by
  rw [Run.exec_settle]
  generalize x.exec s = result at h
  rcases result with ⟨fault | v, t⟩
  · simp only
    split
    · exact h
    · exact h.congr rfl rfl
  · exact h

end Ascends

/-- Numbering in ascending order as a property of tasks that place tracks forward. -/
def ascent (env : Env) (start : Array Action) : TaskProperty env where
  holds p s result := PlacesForward env p → s.Ascends start → result.2.Ascends start
  done _ _ h := h
  failed _ _ h := h
  stored _ _ _ h := h.congr rfl rfl
  bind := ascends_bind
  begun hbegin hq hforward h := hq (hforward.of_begins hbegin) h
  command := ascends_command
  aimed c values track s hforward h := by
    have hrun := ascends_command c values { s with target := track } hforward (h.congr rfl rfl)
    rw [Run.exec_aimedAt]
    exact hrun.congr rfl rfl
  settled c position hx hforward h := ascends_settle c position (hx hforward h)
  called hrun hforward h := by
    rw [runCall, Run.exec_within]
    exact hrun hforward h

/-- In every state that a run leads to, and in the one that it leaves, the counter is the index
after the last track that the run has created so far, zero if it has created none. So a track
without an index of its own is placed right after the last one; and if no track is asked for at an
index below the counter of that moment, the tracks that the run creates have ascending indexes. -/
theorem counter_follows_created_tracks (env : Env) (calls : List Call) (actions : Array Action) :
    (∀ task s, env.Reaches calls actions task s → ∃ appended, Numbered actions s appended) ∧
    (∃ appended, Numbered actions (env.final calls actions) appended) ∧
    (∀ values s t a, env.Reaches calls actions (.command .track values) s →
      (Command.track.run env values).exec s = (.ok (), t) → t.actions = s.actions.push a →
      values.lookup "index" = none →
      ∃ appended index, Numbered actions s appended ∧ a.kind = .createTrack ∧
        a.createdIndex? = some index ∧ index.toInt = counterAfter appended) ∧
    ((∀ values s t a index, env.Reaches calls actions (.command .track values) s →
        (Command.track.run env values).exec s = (.ok (), t) → t.actions = s.actions.push a →
        values.lookup "index" = some (.int index) → s.counter ≤ index) →
      ∃ appended, Numbered actions (env.final calls actions) appended ∧
        (createdIndexes appended).Pairwise (· < ·)) := by
  have hinitial := Numbered.initial env actions
  have hreached {task : Task} {s : State} (hreach : env.Reaches calls actions task s) :
      ∃ appended, Numbered actions s appended :=
    (numbered_invariant env actions).of_reaches ⟨[], hinitial⟩ hreach
  have hfinal : ∃ appended, Numbered actions (env.final calls actions) appended :=
    ((numbered_invariant env actions).relation.runCalls calls).2 _ ⟨[], hinitial⟩
  refine ⟨fun task s => hreached, hfinal, ?_, ?_⟩
  · intro values s t a hreach hexec hpush hnone
    obtain ⟨appended, hnumbered⟩ := hreached hreach
    obtain ⟨index, hcreates, hplaces⟩ := Command.creates_of_exec hexec hpush
    rw [Values.Places, hnone] at hplaces
    refine ⟨appended, index, hnumbered, hcreates.kind, hcreates.createdIndex, ?_⟩
    rw [hplaces, hnumbered.counter]
  · intro hforward
    have hascends : (env.initial actions).Ascends actions :=
      ⟨[], hinitial, List.Pairwise.nil, nofun⟩
    obtain ⟨appended, hnumbered, hascending⟩ :=
      (ascent env actions).runCalls calls (env.initial actions) hforward hascends
    exact ⟨appended, hnumbered, hascending.indexes⟩

/-- Three tracks, the second one at an index of its own. -/
def tracksWithGap : List Call :=
  [⟨"track", []⟩, ⟨"track", [⟨some "index", .literal (.int 5)⟩]⟩, ⟨"track", []⟩]

/-- The second track is asked for above the counter of that moment, so the indexes ascend. -/
theorem counter_follows_tracksWithGap :
    let env : Env := ⟨none, {}⟩
    (∀ values s t a index, env.Reaches tracksWithGap #[] (.command .track values) s →
      (Command.track.run env values).exec s = (.ok (), t) → t.actions = s.actions.push a →
      values.lookup "index" = some (.int index) → s.counter ≤ index) ∧
    ∃ appended, Numbered #[] (env.final tracksWithGap #[]) appended ∧
      createdIndexes appended = [0, 5, 6] ∧ (createdIndexes appended).Pairwise (· < ·) := by
  intro env
  have hplain : ∀ d ∈ tracksWithGap, d.IsPlain := by
    intro d hd
    simp only [tracksWithGap, List.mem_cons, List.not_mem_nil, or_false] at hd
    rcases hd with rfl | rfl | rfl <;> exact ⟨⟨.track, rfl, rfl⟩, rfl⟩
  have hforward : ∀ values s t a index, env.Reaches tracksWithGap #[] (.command .track values) s →
      (Command.track.run env values).exec s = (.ok (), t) → t.actions = s.actions.push a →
      values.lookup "index" = some (.int index) → s.counter ≤ index := by
    intro values s t a index hreach _ _ hlookup
    obtain ⟨before, d, rest, u, hsplit, hbefore, -, hvalues⟩ :=
      command_of_reaches_plain hplain hreach
    have hauto : (commandValues .track (meanings env []) none).exec u = (.ok [], u) := rfl
    have hplaced : (commandValues .track
        (meanings env [⟨some "index", .literal (.int 5)⟩]) none).exec u =
          (.ok [("index", .int 5)], u) := rfl
    rcases before with _ | ⟨first, _ | ⟨second, _ | ⟨third, others⟩⟩⟩
    · cases hsplit
      rw [hauto] at hvalues
      cases hvalues
      cases hlookup
    · cases hsplit
      rw [hplaced] at hvalues
      cases hvalues
      cases hlookup
      have hcounter : ((runCalls env [⟨"track", []⟩]).exec (env.initial #[])).2.counter = 1 := by
        decide +kernel
      rw [hbefore] at hcounter
      rw [hcounter]
      decide
    · cases hsplit
      rw [hauto] at hvalues
      cases hvalues
      cases hlookup
    · simp [tracksWithGap] at hsplit
  obtain ⟨-, -, -, hascending⟩ := counter_follows_created_tracks env tracksWithGap #[]
  obtain ⟨appended, hnumbered, hpairwise⟩ := hascending hforward
  refine ⟨hforward, appended, hnumbered, ?_, hpairwise⟩
  have hactions := hnumbered.actions
  rw [Array.toList_empty, List.nil_append] at hactions
  rw [← hactions]
  decide +kernel

end DawScript
