import DawScript.Proofs.Phrase

/-!
# Steps of reading

What the steps that readers are made of take from a list of tokens, said about the words of tokens
without their positions. `Reads` is the outcome of a reader without the fact that its rest is
shorter.
-/

set_option autoImplicit false

namespace DawScript

variable {α β : Type}

/-- A reader returns a value and leaves a rest. -/
def Reads {ts : Tokens} (x : Reading α ts) (v : α) (r : Tokens) : Prop :=
  ∃ h, x = .ok ⟨v, r, h⟩

namespace Reads

variable {ts : Tokens} {v : α} {r : Tokens}

theorem ok (h : r.length < ts.length) : Reads (.ok ⟨v, r, h⟩ : Reading α ts) v r := ⟨h, rfl⟩

theorem of_ok {c : Consumed PlacedToken α ts} (h : Reads (.ok c) v r) :
    c.value = v ∧ c.rest = r := by
  obtain ⟨_, heq⟩ := h
  cases heq
  exact ⟨rfl, rfl⟩

/-- What a sequence reads comes from something that its first part returned. -/
theorem of_bind {x : Except Fault β} {f : β → Reading α ts} (h : Reads (x >>= f) v r) :
    ∃ b, x = .ok b ∧ Reads (f b) v r := by
  cases x with
  | error fault =>
    obtain ⟨_, heq⟩ := h
    cases heq
  | ok b => exact ⟨b, rfl, h⟩

theorem bind {x : Except Fault β} {f : β → Reading α ts} {b : β} (hx : x = .ok b)
    (hf : Reads (f b) v r) : Reads (x >>= f) v r := by
  rw [hx]
  exact hf

theorem not_error {fault : Fault} : ¬ Reads (.error fault : Reading α ts) v r := nofun

end Reads

namespace Tokens

variable {ts : Tokens} {t u : Token} {w : List Token} {k : Nat}

@[simp] theorem kinds_nil : kinds [] = [] := rfl

@[simp] theorem kinds_cons (p : PlacedToken) (ts : Tokens) :
    kinds (p :: ts) = p.token :: kinds ts := rfl

theorem eq_cons_of_kinds (h : kinds ts = t :: w) : ∃ p r, ts = ⟨t, p⟩ :: r ∧ kinds r = w := by
  cases ts with
  | nil => cases h
  | cons p r =>
    obtain ⟨token, position⟩ := p
    obtain ⟨rfl, hw⟩ := List.cons.inj h
    exact ⟨position, r, rfl, hw⟩

theorem skipNewlines_cons (p : PlacedToken) (ts : Tokens) :
    skipNewlines (p :: ts) = if p.token = .newline then skipNewlines ts else p :: ts := by
  simp only [skipNewlines, List.dropWhile_cons, beq_iff_eq]

/-- Before what is left after line ends there were line ends only. -/
theorem kinds_skipNewlines (ts : Tokens) :
    ∃ k, kinds ts = lineEnds k ++ kinds (skipNewlines ts) := by
  induction ts with
  | nil => exact ⟨0, rfl⟩
  | cons p rest ih =>
    rw [skipNewlines_cons]
    split
    · next hp =>
      obtain ⟨k, hk⟩ := ih
      refine ⟨k + 1, ?_⟩
      rw [kinds_cons, hp, hk]
      rfl
    · exact ⟨0, rfl⟩

theorem head_skipNewlines (ts : Tokens) : (kinds (skipNewlines ts)).head? ≠ some .newline := by
  induction ts with
  | nil => nofun
  | cons p rest ih =>
    rw [skipNewlines_cons]
    split
    · exact ih
    · next hp => exact fun heq => hp (Option.some.inj heq)

/-- Passing over line ends stops at the first other token. -/
theorem skipNewlines_of_kinds (h : kinds ts = lineEnds k ++ w) (hw : w.head? ≠ some .newline) :
    kinds (skipNewlines ts) = w := by
  induction k generalizing ts with
  | zero =>
    cases ts with
    | nil => exact h
    | cons p rest =>
      -- the first token is that of the word
      have hp : p.token ≠ .newline := by
        intro hp
        apply hw
        rw [← hp]
        exact congrArg List.head? h.symm
      rw [skipNewlines_cons, if_neg hp]
      exact h
  | succ k ih =>
    obtain ⟨p, r, rfl, hr⟩ := eq_cons_of_kinds h
    rw [skipNewlines_cons, if_pos rfl]
    exact ih hr

theorem kinds_of_takeFront? {r : Shorter ts} (h : takeFront? t ts = some r) :
    kinds ts = t :: kinds r.1 := by
  cases ts with
  | nil => cases h
  | cons p rest =>
    simp only [takeFront?] at h
    split at h
    · next hp =>
      cases h
      rw [kinds_cons, hp]
    · cases h

theorem takeFront?_cons (t : Token) (position : Position) (ts : Tokens) :
    takeFront? t (⟨t, position⟩ :: ts) = some ⟨ts, Nat.lt_succ_self _⟩ := if_pos rfl

theorem takeFront?_of_kinds (h : kinds ts = t :: w) :
    ∃ r, takeFront? t ts = some r ∧ kinds r.1 = w := by
  obtain ⟨p, r, rfl, hr⟩ := eq_cons_of_kinds h
  exact ⟨_, takeFront?_cons t p r, hr⟩

theorem takeFront?_eq_none (h : (kinds ts).head? ≠ some t) : takeFront? t ts = none := by
  cases ts with
  | nil => rfl
  | cons p rest => exact if_neg fun hp => h (congrArg some hp)

theorem kinds_of_take? {r : Shorter ts} (h : take? t ts = some r) :
    ∃ k, kinds ts = lineEnds k ++ t :: kinds r.1 := by
  obtain ⟨rest, hrest, rfl⟩ := Option.map_eq_some_iff.1 h
  obtain ⟨k, hk⟩ := kinds_skipNewlines ts
  rw [kinds_of_takeFront? hrest] at hk
  exact ⟨k, hk⟩

theorem take?_of_kinds (h : kinds ts = lineEnds k ++ t :: w) (ht : t ≠ .newline) :
    ∃ r, take? t ts = some r ∧ kinds r.1 = w := by
  have hskip := skipNewlines_of_kinds h fun heq => ht (Option.some.inj heq)
  obtain ⟨r, htake, hr⟩ := takeFront?_of_kinds hskip
  refine ⟨⟨r.1, Nat.lt_of_lt_of_le r.2 (skipNewlines_length_le ts)⟩, ?_, hr⟩
  rw [take?, htake]
  rfl

theorem take?_eq_none (h : kinds ts = lineEnds k ++ w) (hw : w.head? ≠ some .newline)
    (ht : w.head? ≠ some t) : take? t ts = none := by
  rw [take?, takeFront?_eq_none]
  · rfl
  · rw [skipNewlines_of_kinds h hw]
    exact ht

theorem take?_of_expect {r : Shorter ts} (h : expect t ts = .ok r) : take? t ts = some r := by
  unfold expect at h
  split at h
  · next heq =>
    cases h
    exact heq
  · cases h

theorem expect_of_take? {r : Shorter ts} (h : take? t ts = some r) : expect t ts = .ok r := by
  rw [expect, h]

theorem kinds_of_frontName? {c : Consumed PlacedToken String ts} (h : frontName? ts = some c) :
    kinds ts = .name c.value :: kinds c.rest := by
  unfold frontName? at h
  split at h
  · cases h
    rfl
  · cases h

theorem frontName?_of_kinds {s : String} (h : kinds ts = .name s :: w) :
    ∃ c, frontName? ts = some c ∧ c.value = s ∧ kinds c.rest = w := by
  obtain ⟨p, r, rfl, hr⟩ := eq_cons_of_kinds h
  exact ⟨_, rfl, rfl, hr⟩

theorem kinds_of_expectName {s : String} {r : Tokens} (h : Reads (expectName ts) s r) :
    ∃ k, kinds ts = lineEnds k ++ .name s :: kinds r := by
  obtain ⟨k, hk⟩ := kinds_skipNewlines ts
  unfold expectName at h
  cases hname : frontName? (skipNewlines ts) with
  | none =>
    rw [hname] at h
    exact absurd h Reads.not_error
  | some name =>
    rw [hname] at h
    obtain ⟨hvalue, hrest⟩ := h.of_ok
    rw [kinds_of_frontName? hname] at hk
    rw [← hvalue, ← hrest]
    exact ⟨k, hk⟩

theorem expectName_of_kinds {s : String} (h : kinds ts = lineEnds k ++ .name s :: w) :
    ∃ r, Reads (expectName ts) s r ∧ kinds r = w := by
  obtain ⟨c, hc, rfl, hrest⟩ := frontName?_of_kinds (skipNewlines_of_kinds h nofun)
  refine ⟨c.rest, ?_, hrest⟩
  rw [expectName, hc]
  exact Reads.ok _

end Tokens

end DawScript
