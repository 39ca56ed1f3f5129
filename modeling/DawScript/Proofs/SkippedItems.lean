import DawScript.Proofs.Independence
import DawScript.Proofs.Reads

/-!
# Items passed over

A command whose arguments contain no call fails before it changes anything
(`runCommandOnItem_atomic`). So an item for which it fails leaves no trace but the report of it, and
a visit of a list ends like one of the list without the items that it passes over
(`failed_commands_leave_no_trace`).
-/

set_option autoImplicit false

namespace DawScript

variable {α : Type}

/-- The effect of a command passes over nothing. -/
theorem Command.Does.skipped {env : Env} {s t : State} {c : Command} (h : Does env s c t) :
    t.skipped = s.skipped := by
  cases h <;> rfl

namespace Run

/-- A run that leaves the state as it was when it fails, and passes over nothing when it
succeeds. -/
def Atomic (x : Run α) : Prop := ∀ s,
  (∃ fault, x.exec s = (.error fault, s)) ∨
    ∃ a t, x.exec s = (.ok a, t) ∧ t.skipped = s.skipped

theorem atomic_command (env : Env) (c : Command) (values : Values) :
    Atomic (c.run env values) := by
  intro s
  rcases Command.exec_run env s values c with hfault | ⟨t, hexec, hdoes⟩
  · exact Or.inl hfault
  · exact Or.inr ⟨(), t, hexec, hdoes.skipped⟩

theorem atomic_aimedAt {x : Run α} (track : Int64) (hx : Atomic x) :
    Atomic (aimedAt track x) := by
  intro s
  rw [exec_aimedAt]
  rcases hx { s with target := track } with ⟨fault, hexec⟩ | ⟨a, t, hexec, hskipped⟩
  · -- the bound track is put back, and nothing else had changed
    rw [hexec]
    exact Or.inl ⟨fault, rfl⟩
  · rw [hexec]
    exact Or.inr ⟨a, _, rfl, hskipped⟩

/-- What is only read before an atomic run does not count. -/
theorem atomic_bind {β : Type} {x : Run α} {f : α → Run β} (hx : Reads x)
    (hf : ∀ a, Atomic (f a)) : Atomic (x >>= f) := by
  intro s
  have hs := hx s
  rw [exec_bind]
  cases hexec : x.exec s with
  | mk outcome t =>
    rw [hexec] at hs
    cases hs
    cases outcome with
    | error fault => exact Or.inl ⟨fault, rfl⟩
    | ok a => exact hf a t

theorem atomic_map {β : Type} {x : Run α} (hx : Atomic x) (g : α → β) : Atomic (g <$> x) := by
  intro s
  rw [exec_map]
  rcases hx s with ⟨fault, hexec⟩ | ⟨a, t, hexec, hskipped⟩
  · rw [hexec]
    exact Or.inl ⟨fault, rfl⟩
  · rw [hexec]
    exact Or.inr ⟨g a, t, rfl, hskipped⟩

/-- An atomic run that fails has left the state as it was. -/
theorem Atomic.state_eq {x : Run α} (hx : Atomic x) {s t : State} {fault : Fault}
    (h : x.exec s = (.error fault, t)) : t = s := by
  rcases hx s with ⟨_, hexec⟩ | ⟨_, _, hexec, -⟩
  · rw [hexec] at h
    cases h
    rfl
  · rw [hexec] at h
    cases h

/-- A run that passes over nothing does the same after other items passed over. -/
theorem Oblivious.exec_skipped {x : Run α} (hx : Oblivious x) {s t : State}
    {outcome : Except Fault α} (h : x.exec s = (outcome, t)) (hskipped : t.skipped = s.skipped)
    (skipped : Array SkippedItem) :
    x.exec { s with skipped := skipped } = (outcome, { t with skipped := skipped }) := by
  -- both states are ones after the items that they have passed over
  have hfirst := hx #[] s.skipped { s with skipped := #[] }
  rw [State.after_skipped, h, Prod.mk.injEq] at hfirst
  obtain ⟨rfl, rfl⟩ := hfirst
  have hnone : (x.exec { s with skipped := #[] }).2.skipped = #[] := by
    simpa [State.after] using hskipped
  have hsecond := hx #[] skipped { s with skipped := #[] }
  have hafter : State.after #[] skipped { s with skipped := #[] } =
      { s with skipped := skipped } := by
    simp only [State.after, Array.empty_append, Array.append_empty]
  rw [hafter] at hsecond
  rw [hsecond]
  simp only [State.after, hnone, Array.append_empty]

end Run

open Run

/-! ## Commands -/

section Command

variable (env : Env) (c : Command)

theorem runOnItem_atomic (values : Values) (item : Value) :
    (c.runOnItem env values item).Atomic := by
  unfold Command.runOnItem
  cases (item.field? "index").bind Value.int? with
  | none => exact atomic_command env c _
  | some index => exact atomic_aimedAt index (atomic_command env c _)

variable {arguments : List (Arg Expr)} (h : Expr.argumentCalls arguments = [])

include h

/-- A command that fails has changed nothing, if its arguments contain no call. -/
theorem runCommand_atomic (scope : Option Binding) :
    (runCommand env c (meanings env arguments) scope).Atomic := by
  apply atomic_bind (commandValues_reads env c h scope)
  intro values
  exact atomic_map (atomic_command env c values) fun _ => Value.null

theorem runCommandOnItem_atomic (scope : Binding) :
    (runCommandOnItem env c (meanings env arguments) scope).Atomic := by
  apply atomic_bind (commandValues_reads env c h (some scope))
  intro values
  exact atomic_map (runOnItem_atomic env c values scope.item) fun _ => Value.null

end Command

/-! ## Visits -/

/-- The items that are not at the given positions, counted from `start`. -/
def withoutPositions (positions : List Nat) (start : Nat) (items : List Value) : List Value :=
  ((items.zipIdx start).filter fun entry => entry.2 ∉ positions).map Prod.fst

section WithoutPositions

variable {positions : List Nat} {position start : Nat} (item : Value) (items : List Value)

theorem withoutPositions_cons_of_notMem (h : start ∉ positions) :
    withoutPositions positions start (item :: items) =
      item :: withoutPositions positions (start + 1) items := by
  simp [withoutPositions, List.zipIdx_cons, h]

/-- A position before the items does not count. -/
theorem withoutPositions_of_lt (h : position < start) :
    withoutPositions (position :: positions) start items =
      withoutPositions positions start items := by
  unfold withoutPositions
  congr 1
  refine List.filter_congr fun entry hentry => ?_
  have hle : start ≤ entry.2 := List.le_snd_of_mem_zipIdx hentry
  have hne : entry.2 ≠ position := by omega
  simp [hne]

theorem withoutPositions_cons_self :
    withoutPositions (start :: positions) start (item :: items) =
      withoutPositions positions (start + 1) items := by
  rw [← withoutPositions_of_lt items (Nat.lt_succ_self start)]
  simp [withoutPositions, List.zipIdx_cons]

end WithoutPositions

/-- The items that a visit passes over leave no trace: the visit does not fail, and a visit of the
other items, begun in the same state up to the report of what is passed over, ends in the same way
and passes over nothing. -/
def NoTrace (env : Env) (c : Combinator) (name : String) (f : Callback) (position : Nat)
    (items : List Value) (s : State) : Prop :=
  ∃ visited t new, (visitFrom env c name f position items).exec s = (.ok visited, t) ∧
    t.skipped.toList = s.skipped.toList ++ new ∧
    (∀ entry ∈ new, position ≤ entry.position) ∧
    ∀ start skipped,
      (visitFrom env c name f start
          (withoutPositions (new.map SkippedItem.position) position items)).exec
        { s with skipped := skipped } = (.ok visited, { t with skipped := skipped })

section NoTrace

variable {env : Env} {c : Combinator} {name : String} {f : Callback} {position : Nat}
  {item : Value} {rest : List Value} {s : State}

/-- An item that fails is passed over, and the others are visited as if it were not there. -/
theorem noTrace_of_failed (hlenient : env.config.strict = false) {fault : Fault}
    (hexec : (f ⟨name, item⟩).exec s = (.error fault, s))
    (h : NoTrace env c name f (position + 1) rest (s.skip ⟨c.name, position, fault.message⟩)) :
    NoTrace env c name f position (item :: rest) s := by
  obtain ⟨visited, t, new, hvisit, hnew, hle, hwithout⟩ := h
  refine ⟨visited, t, ⟨c.name, position, fault.message⟩ :: new, ?_, ?_, ?_, ?_⟩
  · have hsettle := exec_settle env c position (f ⟨name, item⟩) s
    rw [hexec] at hsettle
    simp only [hlenient, Bool.false_eq_true, if_false] at hsettle
    rw [visitFrom, exec_bind_ok hsettle, exec_bind_ok hvisit]
    rfl
  · simp [hnew, State.skip]
  · intro entry hentry
    rcases List.mem_cons.1 hentry with rfl | hentry
    · exact Nat.le_refl _
    · exact Nat.le_of_succ_le (hle entry hentry)
  · intro start skipped
    rw [List.map_cons, withoutPositions_cons_self]
    exact hwithout start skipped

/-- An item that does not fail is visited both times, with the same effect. -/
theorem noTrace_of_visited (hoblivious : (f ⟨name, item⟩).Oblivious) {v : Value} {t : State}
    (hexec : (f ⟨name, item⟩).exec s = (.ok v, t)) (hskipped : t.skipped = s.skipped)
    (h : NoTrace env c name f (position + 1) rest t) :
    NoTrace env c name f position (item :: rest) s := by
  obtain ⟨visited, u, new, hvisit, hnew, hle, hwithout⟩ := h
  refine ⟨(item, v) :: visited, u, new, ?_, ?_, ?_, ?_⟩
  · have hsettle := exec_settle env c position (f ⟨name, item⟩) s
    rw [hexec] at hsettle
    rw [visitFrom, exec_bind_ok hsettle, exec_bind_ok hvisit]
    rfl
  · rw [hnew, hskipped]
  · exact fun entry hentry => Nat.le_of_succ_le (hle entry hentry)
  · intro start skipped
    -- only later positions are left out, so the item is still there
    have hlater : position ∉ new.map SkippedItem.position := by
      intro hmem
      obtain ⟨entry, hentry, heq⟩ := List.mem_map.1 hmem
      have hafter := hle entry hentry
      omega
    have hsettle := exec_settle env c start (f ⟨name, item⟩) { s with skipped := skipped }
    rw [hoblivious.exec_skipped hexec hskipped] at hsettle
    rw [withoutPositions_cons_of_notMem _ _ hlater, visitFrom, exec_bind_ok hsettle,
      exec_bind_ok (hwithout (start + 1) skipped)]
    rfl

/-- If every item either fails and leaves the state or passes over nothing, the visit passes over
items without a trace. -/
theorem noTrace_of_atomic (hlenient : env.config.strict = false)
    (hatomic : ∀ scope, (f scope).Atomic) (hoblivious : ∀ scope, (f scope).Oblivious)
    (items : List Value) (position : Nat) (s : State) :
    NoTrace env c name f position items s := by
  induction items generalizing position s with
  | nil => exact ⟨[], s, [], rfl, by simp, by simp, fun _ _ => rfl⟩
  | cons item rest ih =>
    rcases hatomic ⟨name, item⟩ s with ⟨fault, hexec⟩ | ⟨v, t, hexec, hskipped⟩
    · exact noTrace_of_failed hlenient hexec (ih _ _)
    · exact noTrace_of_visited (hoblivious _) hexec hskipped (ih _ _)

end NoTrace

/-- A command whose arguments contain no call leaves the state as it was when it fails, run for
itself or on an item. So unless the defaults are strict, a visit of items with it ends like a visit
of the items that are not passed over: with the same results, bound track, counter, symbols and
actions. That visit passes over nothing. -/
theorem failed_commands_leave_no_trace (env : Env) (command : Command)
    (arguments : List (Arg Expr)) (h : Expr.argumentCalls arguments = []) :
    (∀ scope s fault t,
      (runCommand env command (meanings env arguments) scope).exec s = (.error fault, t) →
        t = s) ∧
    (∀ scope s fault t,
      (runCommandOnItem env command (meanings env arguments) scope).exec s = (.error fault, t) →
        t = s) ∧
    (env.config.strict = false → ∀ c name items s, ∃ visited t new,
      (visit env c name (runCommandOnItem env command (meanings env arguments)) items).exec s =
        (.ok visited, t) ∧
      t.skipped.toList = s.skipped.toList ++ new ∧
      (visit env c name (runCommandOnItem env command (meanings env arguments))
          (withoutPositions (new.map SkippedItem.position) 0 items)).exec s =
        (.ok visited, { t with skipped := s.skipped })) := by
  refine ⟨fun scope s fault t hexec => (runCommand_atomic env command h scope).state_eq hexec,
    fun scope s fault t hexec => (runCommandOnItem_atomic env command h scope).state_eq hexec, ?_⟩
  intro hlenient c name items s
  have htrace :
      NoTrace env c name (runCommandOnItem env command (meanings env arguments)) 0 items s :=
    noTrace_of_atomic hlenient (runCommandOnItem_atomic env command h)
      (runCommandOnItem_oblivious env command arguments) items 0 s
  obtain ⟨visited, t, new, hvisit, hnew, -, hwithout⟩ := htrace
  exact ⟨visited, t, new, hvisit, hnew, hwithout 0 s.skipped⟩

/-- Bars for clips, with a text among them that is no bar. -/
def barsWithText : List Value := [.int 3, .string "chorus", .int 5]

/-- Clips of two bars on the first track pass over the text, and end as without it. -/
theorem visit_barsWithText :
    let visitor := runCommandOnItem ⟨none, {}⟩ .newClip
      (meanings ⟨none, {}⟩ [⟨some "length_bars", .literal (.int 2)⟩])
    let start : State := { State.fresh #[] with target := 0 }
    ∃ visited t, (visit ⟨none, {}⟩ .forEach "bar" visitor barsWithText).exec start =
        (.ok visited, t) ∧
      t.skipped.toList.map SkippedItem.position = [1] ∧
      (visit ⟨none, {}⟩ .forEach "bar" visitor [.int 3, .int 5]).exec start =
        (.ok visited, { t with skipped := #[] }) := by
  intro visitor start
  obtain ⟨visited, t, new, hvisit, hnew, hwithout⟩ :=
    (failed_commands_leave_no_trace ⟨none, {}⟩ .newClip
      [⟨some "length_bars", .literal (.int 2)⟩] rfl).2.2 rfl .forEach "bar" barsWithText start
  have hposition : ((visit ⟨none, {}⟩ .forEach "bar" visitor barsWithText).exec
      start).2.skipped.toList.map SkippedItem.position = [1] := rfl
  rw [hvisit] at hposition
  have hnewPosition : new.map SkippedItem.position = [1] := by
    rwa [hnew] at hposition
  rw [hnewPosition] at hwithout
  exact ⟨visited, t, hvisit, hposition, hwithout⟩

end DawScript
