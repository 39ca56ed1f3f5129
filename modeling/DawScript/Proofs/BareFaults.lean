import DawScript.Proofs.Execution

/-!
# Bare faults

A fault is bare if it can arise in the run of a call by itself: it names no call yet, it is not
about the text of a script, and it is not the one of a run without actions. All faults of giving
arguments to parameters, of callbacks and of paths are bare.
-/

set_option autoImplicit false

namespace DawScript

variable {α β : Type}

/-- Whether a fault can arise in the run of a call by itself. -/
def Fault.isBare : Fault → Bool
  | .malformed _ _ | .noActions | .inCall _ _ _ => false
  | _ => true

/-- A bare fault is within the call that it is given. -/
theorem Fault.within_of_isBare {fault : Fault} (h : fault.isBare = true) (name written : String) :
    fault.within name written = .inCall name written fault := by
  cases fault with
  | inCall call arguments source => cases h
  | _ => rfl

/-- A bare fault is its own root. -/
theorem Fault.root_of_isBare {fault : Fault} (h : fault.isBare = true) : fault.root = fault := by
  cases fault with
  | inCall call arguments source => cases h
  | _ => rfl

/-- A result that is no value is a bare fault. -/
def FailsBare (x : Except Fault α) : Prop := ∀ fault, x = .error fault → fault.isBare = true

theorem failsBare_ok (a : α) : FailsBare (.ok a) := nofun

theorem failsBare_error {fault : Fault} (h : fault.isBare = true) :
    FailsBare (.error fault : Except Fault α) := by
  rintro _ ⟨⟩
  exact h

theorem failsBare_bind {x : Except Fault α} {f : α → Except Fault β} (hx : FailsBare x)
    (hf : ∀ a, FailsBare (f a)) : FailsBare (x >>= f) := by
  cases x with
  | ok a => exact hf a
  | error fault => exact failsBare_error (hx fault rfl)

/-! ## Arguments -/

theorem failsBare_assignFrom (parameters : List String) (arguments : List (Arg α)) :
    ∀ (position : Nat) (given : List (String × α)),
      FailsBare (assignFrom parameters position given arguments) := by
  induction arguments with
  | nil => exact fun _ given => failsBare_ok given
  | cons a rest ih =>
    intro position given
    rw [assignFrom]
    cases parameter? parameters position a with
    | none => exact failsBare_error rfl
    | some p =>
      simp only
      split
      · exact failsBare_error rfl
      · exact ih _ _

theorem failsBare_assign (parameters : List String) (arguments : List (Arg α)) :
    FailsBare (assign parameters arguments) := failsBare_assignFrom parameters arguments 0 []

theorem failsBare_required (given : List (String × α)) (p : String) :
    FailsBare (required given p) := by
  unfold required
  cases given.lookup p with
  | some a => exact failsBare_ok a
  | none => exact failsBare_error rfl

theorem failsBare_typed (type : ArgumentType) (read : Value → Option α) (values : Values)
    (p : String) : FailsBare (values.typed type read p) := by
  unfold Values.typed
  cases values.lookup p with
  | none => exact failsBare_ok none
  | some v =>
    simp only
    cases read v with
    | some x => exact failsBare_ok (some x)
    | none => exact failsBare_error rfl

theorem failsBare_callback (env : Env) (o : Operand) : FailsBare (callback env o) := by
  unfold callback
  cases o.source with
  | function name arguments =>
    simp only
    cases Command.ofName? name with
    | some c => exact failsBare_ok _
    | none =>
      simp only
      cases Builtin.ofName? name with
      | none => exact failsBare_error rfl
      | some f =>
        simp only
        cases o.arguments with
        | nil => exact failsBare_ok _
        | cons a rest => exact failsBare_error rfl
  | _ => exact failsBare_ok _

theorem failsBare_reducer (e : Expr) : FailsBare (reducer e) := by
  cases e with
  | function name arguments =>
    simp only [reducer]
    cases Reducer.ofName? name with
    | some r => exact failsBare_ok r
    | none => exact failsBare_error rfl
  | _ => exact failsBare_error rfl

/-! ## Paths -/

theorem failsBare_step (v : Value) (segment : String) : FailsBare (v.step segment) := by
  unfold Value.step
  simp only
  split
  · exact failsBare_ok _
  · exact failsBare_error rfl

theorem failsBare_follow (path : List String) (v : Value) : FailsBare (v.follow path) := by
  induction path generalizing v with
  | nil => exact failsBare_ok v
  | cons segment rest ih => exact failsBare_bind (failsBare_step v segment) ih

theorem failsBare_rootValue (root : String) (scope : Option Binding)
    (symbols : List (String × Value)) (session : Option Session) :
    FailsBare (rootValue root scope symbols session) := by
  unfold rootValue
  simp only
  split
  · exact failsBare_ok _
  · exact failsBare_ok _
  · exact failsBare_ok _
  · exact failsBare_error rfl

theorem failsBare_lookUp (root : String) (path : List String) (scope : Option Binding)
    (symbols : List (String × Value)) (session : Option Session) :
    FailsBare (lookUp root path scope symbols session) :=
  failsBare_bind (failsBare_rootValue root scope symbols session) (failsBare_follow path)

end DawScript
