import DawScript.Fault

/-!
# Checked runs

A front end that moves a place through its input can go wrong in ways that are no fault of a
script: it can read behind the end, or go round without moving on. A checked run makes such a
misstep a result of its own (`Trap`). Loops and recursive calls are made by `iterate` and
`descend`, which run on only from a later place and so always end.
-/

set_option autoImplicit false

namespace DawScript

/-- A misstep of the front end: it reads a character behind the end of the text, takes a text with
a point for a number that is none, looks for a token where there is none, takes the end of the
script, begins a round of a loop or a call of itself without having moved on, or negates the least
integer. -/
inductive Trap where
  | outOfBounds
  | notANumber
  | noToken
  | endTaken
  | stalled
  | leastNegated
deriving DecidableEq, Repr

/-- A fault of the text of a script. -/
def Fault.Malformed (f : Fault) : Prop := ∃ cause position, f = .malformed cause position

/-- Why the front end stops without a result: a misstep, or a fault of the script. -/
inductive Stop where
  | trap (t : Trap)
  | fault (f : Fault)

/-- A run that moves a place of type `σ`. -/
abbrev Checked (σ α : Type) := StateT σ (Except Stop) α

namespace Checked

variable {σ α β : Type}

/-- Stops with a misstep. -/
def trap (t : Trap) : Checked σ α := fun _ => .error (.trap t)

/-- Stops with a fault of the script. -/
def fail (f : Fault) : Checked σ α := fun _ => .error (.fault f)

/-! ## Steps -/

section Steps

variable {x : Checked σ α} {f : α → Checked σ β} {s t : σ} {a : α} {stop : Stop}

theorem run_pure (a : α) (s : σ) : (pure a : Checked σ α).run s = .ok (a, s) := rfl

theorem run_bind_ok (h : x.run s = .ok (a, t)) : (x >>= f).run s = (f a).run t := by
  rw [StateT.run_bind, h]
  rfl

theorem run_bind_error (h : x.run s = .error stop) : (x >>= f).run s = .error stop := by
  rw [StateT.run_bind, h]
  rfl

end Steps

/-! ## Loops and recursion -/

/-- A way to measure how far a place is in an input. -/
structure Extent (σ : Type) where
  index : σ → Nat
  length : Nat

/-- A place is later than another, and not behind the end. -/
def Extent.Later (E : Extent σ) (s t : σ) : Prop := E.index s < E.index t ∧ E.index t ≤ E.length

instance (E : Extent σ) (s t : σ) : Decidable (E.Later s t) :=
  inferInstanceAs (Decidable (_ ∧ _))

/-- Runs `body` until it says that it is done. Each round has to end at a later place. -/
def iterate (E : Extent σ) (body : α → Checked σ (α ⊕ β)) (a : α) : Checked σ β := fun s => do
  match ← (body a).run s with
  | (.inr b, t) => return (b, t)
  | (.inl next, t) =>
    if _h : E.Later s t then iterate E body next t else .error (.trap .stalled)
termination_by s => E.length - E.index s
decreasing_by
  unfold Extent.Later at _h
  omega

/-- Runs `body`, which may call itself. Each call has to be made at a later place. -/
def descend (E : Extent σ) (body : Checked σ α → Checked σ α) : Checked σ α := fun s =>
  (body fun t => if _h : E.Later s t then descend E body t else .error (.trap .stalled)).run s
termination_by s => E.length - E.index s
decreasing_by
  unfold Extent.Later at _h
  omega

section Iterate

variable {E : Extent σ} {body : α → Checked σ (α ⊕ β)} {a : α} {b : β} {s t : σ} {stop : Stop}

/-- What comes after a round that was begun at the place `s`. -/
def proceed (E : Extent σ) (body : α → Checked σ (α ⊕ β)) (s : σ) : α ⊕ β → Checked σ β
  | .inr b => pure b
  | .inl next => fun t => if E.Later s t then iterate E body next t else .error (.trap .stalled)

theorem run_iterate (a : α) (s : σ) :
    (iterate E body a).run s = (body a >>= proceed E body s).run s := by
  change iterate E body a s = _
  rw [iterate, StateT.run_bind]
  congr 1
  funext out
  obtain ⟨_ | _, t⟩ := out <;> rfl

theorem run_proceed {next : α} (h : E.Later s t) :
    (proceed E body s (.inl next)).run t = (iterate E body next).run t := if_pos h

theorem iterate_done (h : (body a).run s = .ok (.inr b, t)) :
    (iterate E body a).run s = .ok (b, t) := by
  change iterate E body a s = _
  rw [iterate, h]
  rfl

theorem iterate_next (next : α) (h : (body a).run s = .ok (.inl next, t))
    (hlater : E.Later s t) :
    (iterate E body a).run s = (iterate E body next).run t := by
  change iterate E body a s = _
  rw [iterate, h]
  exact dif_pos hlater

theorem iterate_error (h : (body a).run s = .error stop) :
    (iterate E body a).run s = .error stop := by
  change iterate E body a s = _
  rw [iterate, h]
  rfl

end Iterate

section Descend

variable {E : Extent σ} {body : Checked σ α → Checked σ α} {s t : σ}

/-- A call of a run by itself, where the call before it was made at the place `s`. -/
def again (E : Extent σ) (body : Checked σ α → Checked σ α) (s : σ) : Checked σ α := fun t =>
  if E.Later s t then descend E body t else .error (.trap .stalled)

theorem run_descend (s : σ) : (descend E body).run s = (body (again E body s)).run s := by
  change descend E body s = _
  rw [descend]
  rfl

theorem run_again (h : E.Later s t) : (again E body s).run t = (descend E body).run t := if_pos h

end Descend

end Checked

end DawScript
