import Mathlib.Data.List.Nodup
import Mathlib.Data.List.Perm.Basic
import Mathlib.Data.Set.List
import DawScript.Proofs.Execution

/-!
# Arguments and their parameters

Which value each parameter gets from the arguments of a call. A keyword argument is meant for the
parameter of its name, a positional one for the parameter at its place among all arguments; the
arguments can be given if each of them has a parameter and no two have the same
(`assign_eq_ok_iff`). So the order of keyword arguments does not matter as long as the positional
ones keep their places (`assign_by_places_and_keywords`).
-/

set_option autoImplicit false

namespace DawScript

variable {α : Type}

/-! ## Finding what is given -/

section Lookup

variable {given others : List (String × α)} {p : String} {v : α}

/-- What is given under different names is found under them. -/
theorem lookup_eq_some_iff_mem (h : (given.map Prod.fst).Nodup) :
    given.lookup p = some v ↔ (p, v) ∈ given := by
  refine ⟨mem_of_lookup, fun hmem => ?_⟩
  induction given with
  | nil => cases hmem
  | cons entry rest ih =>
    obtain ⟨hfirst, hrest⟩ := List.nodup_cons.1 h
    rcases List.mem_cons.1 hmem with rfl | hmem
    · exact List.lookup_cons_self
    · have hne : (p == entry.1) = false :=
        beq_false_of_ne fun heq => hfirst (heq ▸ List.mem_map_of_mem hmem)
      rw [List.lookup_cons, hne]
      exact ih hrest hmem

theorem lookup_eq_none_iff_notMem : given.lookup p = none ↔ p ∉ given.map Prod.fst := by
  rw [List.lookup_eq_none_iff]
  constructor
  · intro h hmem
    obtain ⟨entry, hentry, rfl⟩ := List.mem_map.1 hmem
    simpa using h entry hentry
  · intro h entry hentry
    exact bne_iff_ne.2 fun heq => h (heq ▸ List.mem_map_of_mem hentry)

/-- The order of what is given does not matter for what is found. -/
theorem lookup_of_perm (hperm : given.Perm others) (h : (given.map Prod.fst).Nodup) :
    given.lookup p = others.lookup p := by
  have hothers : (others.map Prod.fst).Nodup := (hperm.map Prod.fst).nodup_iff.1 h
  refine Option.ext fun v => ?_
  rw [lookup_eq_some_iff_mem h, lookup_eq_some_iff_mem hothers, hperm.mem_iff]

end Lookup

/-! ## What arguments are meant for -/

/-- What the arguments from a position on are meant for, in order: each with its parameter, if it
has one. -/
def meantFrom (parameters : List String) : Nat → List (Arg α) → List (Option String × α)
  | _, [] => []
  | position, a :: rest =>
    (parameter? parameters position a, a.value) :: meantFrom parameters (position + 1) rest

theorem injective_some_id (α : Type) :
    Function.Injective (Prod.map some id : String × α → Option String × α) :=
  (Option.some_injective _).prodMap Function.injective_id

section Assign

variable {parameters : List String} {arguments others : List (Arg α)}
  {given before : List (String × α)}

theorem map_snd_meantFrom (parameters : List String) (arguments : List (Arg α)) (position : Nat) :
    (meantFrom parameters position arguments).map Prod.snd = arguments.map Arg.value := by
  induction arguments generalizing position with
  | nil => rfl
  | cons a rest ih => rw [meantFrom, List.map_cons, ih, List.map_cons]

/-- Arguments are given after others if all have a parameter, and no two parameters are the
same. -/
theorem assignFrom_eq_ok_iff {position : Nat} (hbefore : (before.map Prod.fst).Nodup) :
    assignFrom parameters position before arguments = .ok given ↔
      ∃ own, given = before ++ own ∧
        meantFrom parameters position arguments = own.map (Prod.map some id) ∧
        (given.map Prod.fst).Nodup := by
  induction arguments generalizing position before with
  | nil =>
    constructor
    · intro h
      cases h
      exact ⟨[], (List.append_nil _).symm, rfl, hbefore⟩
    · rintro ⟨own, rfl, hown, -⟩
      rw [List.map_eq_nil_iff.1 hown.symm, List.append_nil, assignFrom]
  | cons a rest ih =>
    rw [assignFrom, meantFrom]
    cases hp : parameter? parameters position a with
    | none =>
      refine iff_of_false (fun h => by cases h) ?_
      rintro ⟨own, -, hown, -⟩
      cases own with
      | nil => cases hown
      | cons entry more => cases (List.cons.inj hown).1
    | some p =>
      simp only
      by_cases hgiven : (before.lookup p).isSome
      · -- the parameter is given already
        rw [if_pos hgiven]
        refine iff_of_false (fun h => by cases h) ?_
        rintro ⟨own, rfl, hown, hnodup⟩
        cases own with
        | nil => cases hown
        | cons entry more =>
          have hentry : p = entry.1 :=
            Option.some.inj (congrArg Prod.fst (List.cons.inj hown).1)
          rw [List.map_append, List.map_cons, ← hentry] at hnodup
          have hnone : before.lookup p = none := lookup_eq_none_iff_notMem.2 fun hmem =>
            (List.nodup_append.1 hnodup).2.2 p hmem p List.mem_cons_self rfl
          rw [hnone] at hgiven
          cases hgiven
      · rw [if_neg hgiven]
        have hnotMem : p ∉ before.map Prod.fst :=
          lookup_eq_none_iff_notMem.1 (Option.not_isSome_iff_eq_none.1 hgiven)
        have hlonger : ((before ++ [(p, a.value)]).map Prod.fst).Nodup := by
          rw [List.map_append, List.map_singleton, List.nodup_append]
          refine ⟨hbefore, List.nodup_singleton _, fun q hq r hr hqr => ?_⟩
          have hqp : q = p := hqr.trans (List.mem_singleton.1 hr)
          exact hnotMem (hqp ▸ hq)
        rw [ih hlonger]
        constructor
        · rintro ⟨own, rfl, hown, hnodup⟩
          exact ⟨(p, a.value) :: own, List.append_assoc .., by rw [hown]; rfl, hnodup⟩
        · rintro ⟨own, rfl, hown, hnodup⟩
          cases own with
          | nil => cases hown
          | cons entry more =>
            obtain ⟨hentry, hmore⟩ := List.cons.inj hown
            have hsame : entry = (p, a.value) := by
              obtain ⟨q, v⟩ := entry
              cases hentry
              rfl
            rw [hsame] at hnodup ⊢
            exact ⟨more, (List.append_cons ..), hmore, hnodup⟩

/-- Arguments are given to their parameters exactly if each has one and no two have the same. -/
theorem assign_eq_ok_iff : assign parameters arguments = .ok given ↔
    meantFrom parameters 0 arguments = given.map (Prod.map some id) ∧
      (given.map Prod.fst).Nodup := by
  have hnone : (([] : List (String × α)).map Prod.fst).Nodup := List.nodup_nil
  rw [assign, assignFrom_eq_ok_iff hnone]
  constructor
  · rintro ⟨own, rfl, hown, hnodup⟩
    exact ⟨hown, hnodup⟩
  · rintro ⟨hown, hnodup⟩
    exact ⟨given, rfl, hown, hnodup⟩

theorem nodup_of_assign (h : assign parameters arguments = .ok given) :
    (given.map Prod.fst).Nodup :=
  (assign_eq_ok_iff.1 h).2

/-- The values given are those of the arguments, in the order in which they are written. -/
theorem map_snd_of_assign (h : assign parameters arguments = .ok given) :
    given.map Prod.snd = arguments.map Arg.value := by
  rw [← map_snd_meantFrom parameters arguments 0, (assign_eq_ok_iff.1 h).1, List.map_map]
  rfl

/-- Arguments can be given exactly if each is meant for a parameter and no two for the same. -/
theorem exists_assign_iff : (∃ given, assign parameters arguments = .ok given) ↔
    none ∉ (meantFrom parameters 0 arguments).map Prod.fst ∧
      ((meantFrom parameters 0 arguments).map Prod.fst).Nodup := by
  have hnames (given : List (String × α)) :
      (given.map (Prod.map some id)).map Prod.fst = (given.map Prod.fst).map some := by
    rw [List.map_map, List.map_map]
    rfl
  simp only [assign_eq_ok_iff]
  constructor
  · rintro ⟨given, hmeant, hnodup⟩
    rw [hmeant, hnames]
    exact ⟨by simp, hnodup.map (Option.some_injective _)⟩
  · rintro ⟨hsome, hnodup⟩
    have hrange : meantFrom parameters 0 arguments ∈ Set.range (List.map (Prod.map some id)) := by
      rw [Set.range_list_map]
      rintro ⟨_ | p, v⟩ hentry
      · exact absurd (List.mem_map_of_mem hentry) hsome
      · exact ⟨(p, v), rfl⟩
    obtain ⟨given, hgiven⟩ := hrange
    rw [← hgiven, hnames] at hnodup
    exact ⟨given, hgiven.symm, hnodup.of_map some⟩

/-- Arguments that are meant for the same parameters with the same values, in whatever order, can be
given if one of them can, and then the same is given. -/
theorem assign_of_perm
    (hperm : (meantFrom parameters 0 arguments).Perm (meantFrom parameters 0 others))
    (h : assign parameters arguments = .ok given) :
    ∃ given', assign parameters others = .ok given' ∧ given.Perm given' := by
  obtain ⟨hnone, hnodup⟩ := exists_assign_iff.1 ⟨given, h⟩
  have hnames := hperm.map Prod.fst
  obtain ⟨given', hothers⟩ := exists_assign_iff.2
    ⟨fun hmem => hnone (hnames.mem_iff.2 hmem), hnames.nodup_iff.1 hnodup⟩
  rw [(assign_eq_ok_iff.1 h).1, (assign_eq_ok_iff.1 hothers).1] at hperm
  exact ⟨given', hothers, (List.map_perm_map_iff (injective_some_id α)).1 hperm⟩

/-- The values for the parameters in order, if the arguments can be given to them. -/
def slots? (parameters : List String) (arguments : List (Arg α)) : Option (List (Option α)) :=
  (assign parameters arguments).toOption.map fun given => parameters.map fun p => given.lookup p

theorem slots?_of_perm
    (hperm : (meantFrom parameters 0 arguments).Perm (meantFrom parameters 0 others)) :
    slots? parameters arguments = slots? parameters others := by
  unfold slots?
  cases h : assign parameters arguments with
  | ok given =>
    obtain ⟨given', hothers, hsame⟩ := assign_of_perm hperm h
    rw [hothers]
    exact congrArg some (List.map_congr_left fun p _ => lookup_of_perm hsame (nodup_of_assign h))
  | error fault =>
    cases hothers : assign parameters others with
    | error fault' => rfl
    | ok given' =>
      obtain ⟨given, hgiven, -⟩ := assign_of_perm hperm.symm hothers
      rw [hgiven] at h
      cases h

end Assign

/-! ## Places and keywords -/

/-- The positional arguments from a position on, each with its place among all arguments. -/
def positionalsFrom : Nat → List (Arg α) → List (Nat × α)
  | _, [] => []
  | position, ⟨none, v⟩ :: rest => (position, v) :: positionalsFrom (position + 1) rest
  | position, ⟨some _, _⟩ :: rest => positionalsFrom (position + 1) rest

/-- The positional arguments, each with its place among all arguments. -/
abbrev positionals (arguments : List (Arg α)) : List (Nat × α) := positionalsFrom 0 arguments

/-- The values of the positional arguments in order. -/
def positionalValues (arguments : List (Arg α)) : List α :=
  (arguments.filter fun a => a.keyword.isNone).map Arg.value

/-- The keyword arguments, each with its keyword. -/
def keywords (arguments : List (Arg α)) : List (String × α) :=
  arguments.filterMap fun a => a.keyword.map fun k => (k, a.value)

/-- What positional arguments at places and keyword arguments are meant for. -/
def meantBy (parameters : List String) (places : List (Nat × α)) (named : List (String × α)) :
    List (Option String × α) :=
  places.map (fun entry => (parameters[entry.1]?, entry.2)) ++
    named.map fun entry => (if entry.1 ∈ parameters then some entry.1 else none, entry.2)

/-- No positional argument stands after a keyword argument. -/
def KeywordsLast (arguments : List (Arg α)) : Prop :=
  arguments.Pairwise fun a b => a.keyword.isSome → b.keyword.isSome

section Places

variable {parameters : List String} {arguments others : List (Arg α)}
  {given : List (String × α)}

/-- Arguments are meant for what their places and keywords say. -/
theorem meantFrom_perm (parameters : List String) (arguments : List (Arg α)) (position : Nat) :
    (meantFrom parameters position arguments).Perm
      (meantBy parameters (positionalsFrom position arguments) (keywords arguments)) := by
  induction arguments generalizing position with
  | nil => exact List.Perm.nil
  | cons a rest ih =>
    obtain ⟨_ | k, v⟩ := a
    · exact (ih (position + 1)).cons _
    · exact ((ih (position + 1)).cons _).trans List.perm_middle.symm

/-- Where keyword arguments come last, the place of a positional argument is the number of
positional ones before it. -/
theorem positionalsFrom_of_keywordsLast (h : KeywordsLast arguments) (position : Nat) :
    positionalsFrom position arguments =
      ((positionalValues arguments).zipIdx position).map Prod.swap := by
  induction arguments generalizing position with
  | nil => rfl
  | cons a rest ih =>
    obtain ⟨hfirst, hrest⟩ := List.pairwise_cons.1 h
    obtain ⟨_ | k, v⟩ := a
    · rw [positionalsFrom, ih hrest]
      rfl
    · -- after a keyword argument there is no positional one
      have hnone : positionalValues rest = [] := by
        rw [positionalValues, List.map_eq_nil_iff, List.filter_eq_nil_iff]
        intro b hb
        simpa [Option.isSome_iff_ne_none] using hfirst b hb rfl
      rw [positionalsFrom, ih hrest, hnone]
      change _ = List.map Prod.swap ((positionalValues rest).zipIdx position)
      rw [hnone]
      rfl

/-- What is given to a parameter is the positional argument at its place or the keyword argument of
its name. -/
theorem lookup_of_assign (h : assign parameters arguments = .ok given) {p : String} {v : α} :
    given.lookup p = some v ↔
      (some p, v) ∈ meantBy parameters (positionals arguments) (keywords arguments) := by
  obtain ⟨hmeant, hnodup⟩ := assign_eq_ok_iff.1 h
  rw [lookup_eq_some_iff_mem hnodup, ← (meantFrom_perm parameters arguments 0).mem_iff, hmeant]
  exact (List.mem_map_of_injective (injective_some_id α)).symm

/-- Arguments are given to parameters. -/
theorem names_of_assign (h : assign parameters arguments = .ok given) :
    given.map Prod.fst ⊆ parameters := by
  intro p hp
  obtain ⟨⟨_, v⟩, hmem, rfl⟩ := List.mem_map.1 hp
  have hmeant := (lookup_of_assign h).1 ((lookup_eq_some_iff_mem (nodup_of_assign h)).2 hmem)
  rcases List.mem_append.1 hmeant with hplace | hkeyword
  · obtain ⟨entry, -, hentry⟩ := List.mem_map.1 hplace
    exact List.mem_of_getElem? (Prod.mk.inj hentry).1
  · obtain ⟨entry, -, hentry⟩ := List.mem_map.1 hkeyword
    have hknown := (Prod.mk.inj hentry).1
    split at hknown
    · cases hknown
      assumption
    · cases hknown

/-- Arguments can be given exactly if each has a parameter at its place or under its keyword and no
two have the same. -/
theorem exists_assign_iff_meantBy : (∃ given, assign parameters arguments = .ok given) ↔
    none ∉ (meantBy parameters (positionals arguments) (keywords arguments)).map Prod.fst ∧
      ((meantBy parameters (positionals arguments) (keywords arguments)).map Prod.fst).Nodup := by
  have hnames := (meantFrom_perm parameters arguments 0).map Prod.fst
  rw [exists_assign_iff, hnames.mem_iff, hnames.nodup_iff]

/-- Keyword arguments in another order give the same, if the positional ones keep their places. -/
theorem slots?_of_places (hplaces : positionals others = positionals arguments)
    (hkeywords : (keywords others).Perm (keywords arguments)) :
    slots? parameters others = slots? parameters arguments := by
  refine slots?_of_perm ((meantFrom_perm parameters others 0).trans ?_)
  refine List.Perm.trans ?_ (meantFrom_perm parameters arguments 0).symm
  have hsame : positionalsFrom 0 others = positionalsFrom 0 arguments := hplaces
  rw [meantBy, meantBy, hsame]
  exact (hkeywords.map _).append_left _

end Places

/-- What the parameters of a call get is settled by the places of the positional arguments among all
arguments and by the keyword arguments, whatever the order of these. The arguments can be given if
each has a parameter and no two have the same; then a positional argument goes to the parameter at
its place, a keyword argument to the one of its name, and no other parameter gets anything. Where
keyword arguments come last, the place of a positional argument is the number of positional ones
before it, so a keyword argument may stand anywhere among those at the end. -/
theorem assign_by_places_and_keywords (parameters : List String) (arguments : List (Arg α)) :
    ((∃ given, assign parameters arguments = .ok given) ↔
      none ∉ (meantBy parameters (positionals arguments) (keywords arguments)).map Prod.fst ∧
      ((meantBy parameters (positionals arguments) (keywords arguments)).map Prod.fst).Nodup) ∧
    (∀ given, assign parameters arguments = .ok given → ∀ p v, given.lookup p = some v ↔
      (∃ i : Nat, (i, v) ∈ positionals arguments ∧ parameters[i]? = some p) ∨
        (p, v) ∈ keywords arguments ∧ p ∈ parameters) ∧
    (∀ others, positionals others = positionals arguments →
      (keywords others).Perm (keywords arguments) →
      slots? parameters others = slots? parameters arguments) ∧
    (KeywordsLast arguments →
      (∀ given, assign parameters arguments = .ok given → ∀ (i : Nat) v,
        (positionalValues arguments)[i]? = some v →
        ∃ p, parameters[i]? = some p ∧ given.lookup p = some v) ∧
      ∀ others, KeywordsLast others → positionalValues others = positionalValues arguments →
        (keywords others).Perm (keywords arguments) →
        slots? parameters others = slots? parameters arguments) := by
  have hlookup {given : List (String × α)} (h : assign parameters arguments = .ok given)
      {p : String} {v : α} : given.lookup p = some v ↔
        (∃ i : Nat, (i, v) ∈ positionals arguments ∧ parameters[i]? = some p) ∨
          (p, v) ∈ keywords arguments ∧ p ∈ parameters := by
    rw [lookup_of_assign h, meantBy, List.mem_append]
    refine or_congr ?_ ?_
    · simp
    · simp
  refine ⟨exists_assign_iff_meantBy, fun given h p v => hlookup h,
    fun others => slots?_of_places, fun hlast => ⟨fun given h i v hv => ?_, ?_⟩⟩
  · have hplace : (i, v) ∈ positionals arguments := by
      rw [positionals, positionalsFrom_of_keywordsLast hlast]
      exact List.mem_map_of_mem (List.mk_mem_zipIdx_iff_getElem?.2 hv)
    cases hp : parameters[i]? with
    | none =>
      -- then the argument would not have been given
      have hnone : (none, v) ∈ meantBy parameters (positionals arguments) (keywords arguments) :=
        List.mem_append_left _ (List.mem_map.2 ⟨(i, v), hplace, by rw [hp]⟩)
      exact absurd (List.mem_map_of_mem hnone) (exists_assign_iff_meantBy.1 ⟨given, h⟩).1
    | some p => exact ⟨p, rfl, (hlookup h).2 (Or.inl ⟨i, hplace, hp⟩)⟩
  · intro others hothers hvalues
    refine slots?_of_places ?_
    rw [positionals, positionals, positionalsFrom_of_keywordsLast hlast,
      positionalsFrom_of_keywordsLast hothers, hvalues]

/-- Moved before a positional argument, the keyword argument of a clip's length makes its bar a
start. -/
theorem moved_keyword_changes_parameter :
    let bar : Arg Nat := ⟨none, 5⟩
    let length : Arg Nat := ⟨some "length_bars", 2⟩
    positionalValues [bar, length] = positionalValues [length, bar] ∧
    keywords [bar, length] = keywords [length, bar] ∧
    slots? Command.newClip.parameters [bar, length] =
      some [some 5, none, none, some 2, none, none] ∧
    slots? Command.newClip.parameters [length, bar] =
      some [none, some 5, none, some 2, none, none] := by
  decide

end DawScript
