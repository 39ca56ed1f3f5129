/-!
# What a reader leaves

A reader takes a nonempty beginning of its input. It returns what it made of it together with the
rest, and with the fact that the rest is shorter, by which the loops over readers end.
-/

namespace DawScript

theorem length_dropWhile_le {τ : Type} (p : τ → Bool) (ts : List τ) :
    (ts.dropWhile p).length ≤ ts.length :=
  (List.dropWhile_sublist p).length_le

theorem length_drop_lt {τ : Type} {n : Nat} {t : τ} {ts : List τ} :
    (ts.drop n).length < (t :: ts).length := by
  rw [List.length_drop, List.length_cons]
  omega

/-- A result read from the beginning of `input`, and the rest of the input, which is shorter. -/
structure Consumed (τ α : Type) (input : List τ) where
  value : α
  rest : List τ
  shorter : rest.length < input.length

namespace Consumed

variable {τ α β : Type} {input longer : List τ}

/-- A result read from one element, which is all that is taken. -/
def one (value : α) {t : τ} {ts : List τ} : Consumed τ α (t :: ts) :=
  ⟨value, ts, Nat.lt_succ_self _⟩

/-- A result read from one element and all elements of a kind after it. -/
def through (p : τ → Bool) (value : α) {t : τ} {ts : List τ} : Consumed τ α (t :: ts) :=
  ⟨value, ts.dropWhile p, Nat.lt_succ_of_le (length_dropWhile_le p ts)⟩

/-- Changes the result and leaves the rest. -/
def map (f : α → β) (c : Consumed τ α input) : Consumed τ β input :=
  ⟨f c.value, c.rest, c.shorter⟩

/-- What was read from an input was read from a longer one in the same way. -/
def within (c : Consumed τ α input) (h : input.length ≤ longer.length) : Consumed τ α longer :=
  ⟨c.value, c.rest, Nat.lt_of_lt_of_le c.shorter h⟩

/-- What was read behind an element was read from that element on. -/
def behind {t : τ} (c : Consumed τ α input) : Consumed τ α (t :: input) :=
  c.within (Nat.le_succ _)

/-- What was read after all elements of a kind was read from the first of them on. -/
def past {p : τ → Bool} (c : Consumed τ α (input.dropWhile p)) : Consumed τ α input :=
  c.within (length_dropWhile_le p input)

@[simp] theorem map_value (f : α → β) (c : Consumed τ α input) : (c.map f).value = f c.value := rfl

@[simp] theorem map_rest (f : α → β) (c : Consumed τ α input) : (c.map f).rest = c.rest := rfl

@[simp] theorem within_value (c : Consumed τ α input) (h : input.length ≤ longer.length) :
    (c.within h).value = c.value := rfl

@[simp] theorem within_rest (c : Consumed τ α input) (h : input.length ≤ longer.length) :
    (c.within h).rest = c.rest := rfl

end Consumed

end DawScript
