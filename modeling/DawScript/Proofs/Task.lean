import DawScript.Proofs.Growth
import Mathlib.Logic.Relation

/-!
# The tasks of a run

A run is made of tasks: evaluating expressions, visiting the items of a combinator, running commands
on the values of their arguments. `Begins` says which tasks a task begins and in which state, and a
state is reached when a chain of such steps leads to it (`Reaches`). So "at the moment when a
command runs" has a meaning that reaches through nested calls and callbacks.
-/

set_option autoImplicit false

namespace DawScript

/-- The expressions that an expression other than a call evaluates first, in this order. -/
def Expr.parts : Expr → List Expr
  | .list items => items
  | .map entries => entries.map Prod.snd
  | .binary _ left right => [left, right]
  | .unary _ operand => [operand]
  | .method target _ arguments => target :: arguments
  | _ => []

/-- The parameter for the function of a combinator that visits items. -/
def Combinator.function? : Combinator → Option String
  | .filter => some "predicate"
  | .map | .forEach => some "func"
  | _ => none

/-- The expressions given to a command in the order in which it evaluates them. -/
def Command.given (c : Command) (given : List (String × Expr)) : List Expr :=
  c.parameters.filterMap fun p => given.lookup p

/-- Something that a run does at some point. -/
inductive Task where
  | evaluate (e : Expr) (scope : Option Binding)
  | evaluateAll (es : List Expr) (scope : Option Binding)
  | visit (c : Combinator) (name : String) (function : Expr) (position : Nat) (items : List Value)
  | command (c : Command) (values : Values)

/-- A call of a combinator with its arguments given to their parameters. -/
structure CombinatorCall (c : Combinator) (name : String) (arguments : List (Arg Expr))
    (given : List (String × Expr)) : Prop where
  combinator : Combinator.ofName? name = some c
  assigned : assign c.parameters arguments = .ok given

/-- A call of a command with its arguments given to their parameters. -/
structure CommandCall (c : Command) (name : String) (arguments : List (Arg Expr)) : Prop where
  not_combinator : Combinator.ofName? name = none
  command : Command.ofName? name = some c

/-- A call that visits the items of `source` with `function`, which stands for the callback `f`. -/
structure VisitCall (env : Env) (c : Combinator) (name : String) (arguments : List (Arg Expr))
    (function source : Expr) (f : Callback) : Prop where
  call : ∃ given parameter, CombinatorCall c name arguments given ∧
    c.function? = some parameter ∧ given.lookup parameter = some function ∧
    given.lookup "collection" = some source
  callback : callback env (operand env function) = .ok f

/-- A task in a state begins another task in a state. -/
inductive Begins (env : Env) : Task × State → Task × State → Prop where
  | first (e : Expr) (es : List Expr) (scope : Option Binding) (s : State) :
      Begins env (.evaluateAll (e :: es) scope, s) (.evaluate e scope, s)
  | next (e : Expr) (es : List Expr) (scope : Option Binding) (s t : State) (v : Value) :
      (evaluate env e scope).exec s = (.ok v, t) →
      Begins env (.evaluateAll (e :: es) scope, s) (.evaluateAll es scope, t)
  | parts (e : Expr) (scope : Option Binding) (s : State) :
      Begins env (.evaluate e scope, s) (.evaluateAll e.parts scope, s)
  | arguments (c : Command) (name : String) (arguments : List (Arg Expr))
      (given : List (String × Expr)) (scope : Option Binding) (s : State) :
      CommandCall c name arguments → assign c.parameters arguments = .ok given →
      Begins env (.evaluate (.call name arguments) scope, s) (.evaluateAll (c.given given) scope, s)
  | command (c : Command) (name : String) (arguments : List (Arg Expr)) (values : Values)
      (scope : Option Binding) (s t : State) :
      CommandCall c name arguments →
      (commandValues c (meanings env arguments) scope).exec s = (.ok values, t) →
      Begins env (.evaluate (.call name arguments) scope, s) (.command c values, t)
  | visitSource (c : Combinator) (name : String) (arguments : List (Arg Expr))
      (function source : Expr) (f : Callback) (scope : Option Binding) (s : State) :
      VisitCall env c name arguments function source f → source.name? = none →
      Begins env (.evaluate (.call name arguments) scope, s) (.evaluate source scope, s)
  | visit (c : Combinator) (name : String) (arguments : List (Arg Expr)) (function source : Expr)
      (f : Callback) (items : List Value) (itemName : String) (scope : Option Binding)
      (s t : State) :
      VisitCall env c name arguments function source f →
      (collection (meaning env source) scope).exec s = (.ok (items, itemName), t) →
      Begins env (.evaluate (.call name arguments) scope, s) (.visit c itemName function 0 items, t)
  | reduceSource (name : String) (arguments : List (Arg Expr)) (given : List (String × Expr))
      (function source : Expr) (r : Reducer) (scope : Option Binding) (s : State) :
      CombinatorCall .reduce name arguments given → given.lookup "func" = some function →
      reducer function = .ok r → given.lookup "collection" = some source → source.name? = none →
      Begins env (.evaluate (.call name arguments) scope, s) (.evaluate source scope, s)
  | reduceInitial (name : String) (arguments : List (Arg Expr)) (given : List (String × Expr))
      (function source initial : Expr) (r : Reducer) (items : List Value × String)
      (scope : Option Binding) (s t : State) :
      CombinatorCall .reduce name arguments given → given.lookup "func" = some function →
      reducer function = .ok r → given.lookup "collection" = some source →
      (collection (meaning env source) scope).exec s = (.ok items, t) →
      given.lookup "initial" = some initial →
      Begins env (.evaluate (.call name arguments) scope, s) (.evaluate initial scope, t)
  | storeKeyword (name : String) (arguments : List (Arg Expr)) (key : String) (source : Expr)
      (scope : Option Binding) (s : State) :
      Combinator.ofName? name = some .store → storeKeyword? arguments = some (key, source) →
      Begins env (.evaluate (.call name arguments) scope, s) (.evaluate source scope, s)
  | storeName (name : String) (arguments : List (Arg Expr)) (given : List (String × Expr))
      (nameSource : Expr) (scope : Option Binding) (s : State) :
      CombinatorCall .store name arguments given → storeKeyword? arguments = none →
      given.lookup "name" = some nameSource → nameSource.name? = none →
      Begins env (.evaluate (.call name arguments) scope, s) (.evaluate nameSource scope, s)
  | storeValue (name : String) (arguments : List (Arg Expr)) (given : List (String × Expr))
      (nameSource source : Expr) (key : String) (scope : Option Binding) (s t : State) :
      CombinatorCall .store name arguments given → storeKeyword? arguments = none →
      given.lookup "name" = some nameSource →
      (storeName (meaning env nameSource) scope).exec s = (.ok key, t) →
      given.lookup "value" = some source →
      Begins env (.evaluate (.call name arguments) scope, s) (.evaluate source scope, t)
  | trackIndex (c : Combinator) (name : String) (arguments : List (Arg Expr))
      (given : List (String × Expr)) (source : Expr) (scope : Option Binding) (s : State) :
      c = .getFxChain ∨ c = .getClips → CombinatorCall c name arguments given →
      given.lookup "track_index" = some source →
      Begins env (.evaluate (.call name arguments) scope, s) (.evaluate source scope, s)
  | item (c : Combinator) (name : String) (function : Expr) (position : Nat) (item : Value)
      (rest : List Value) (s : State) :
      (∀ inner arguments, function ≠ .function inner arguments) →
      Begins env (.visit c name function position (item :: rest), s)
        (.evaluate function (some ⟨name, item⟩), s)
  | itemArguments (c : Combinator) (name inner : String) (command : Command)
      (arguments : List (Arg Expr)) (given : List (String × Expr)) (position : Nat) (item : Value)
      (rest : List Value) (s : State) :
      Command.ofName? inner = some command → assign command.parameters arguments = .ok given →
      Begins env (.visit c name (.function inner arguments) position (item :: rest), s)
        (.evaluateAll (command.given given) (some ⟨name, item⟩), s)
  | itemCommand (c : Combinator) (name inner : String) (command : Command)
      (arguments : List (Arg Expr)) (values : Values) (position : Nat) (item : Value)
      (rest : List Value) (s t : State) :
      Command.ofName? inner = some command →
      (commandValues command (meanings env arguments) (some ⟨name, item⟩)).exec s =
        (.ok values, t) →
      (item.field? "index").bind Value.int? = none →
      Begins env (.visit c name (.function inner arguments) position (item :: rest), s)
        (.command command (command.fillIn values item), t)
  | itemTrack (c : Combinator) (name inner : String) (command : Command)
      (arguments : List (Arg Expr)) (values : Values) (position : Nat) (item : Value)
      (rest : List Value) (index : Int64) (s t : State) :
      Command.ofName? inner = some command →
      (commandValues command (meanings env arguments) (some ⟨name, item⟩)).exec s =
        (.ok values, t) →
      (item.field? "index").bind Value.int? = some index →
      Begins env (.visit c name (.function inner arguments) position (item :: rest), s)
        (.command command (command.withDefaultFx env values), { t with target := index })
  | nextItem (c : Combinator) (name : String) (function : Expr) (f : Callback) (position : Nat)
      (item : Value) (rest : List Value) (outcome : Option Value) (s t : State) :
      callback env (operand env function) = .ok f →
      (settle env c position (f ⟨name, item⟩)).exec s = (.ok outcome, t) →
      Begins env (.visit c name function position (item :: rest), s)
        (.visit c name function (position + 1) rest, t)

/-- A task in a state leads to another one through tasks begun on the way. -/
abbrev Reaches (env : Env) : Task × State → Task × State → Prop :=
  Relation.ReflTransGen (Begins env)

/-- The calls of a script as the expressions that they are. -/
def Call.expr (c : Call) : Expr := .call c.name c.arguments

/-- A run of calls leads to a task in a state. -/
def Env.Reaches (env : Env) (calls : List Call) (actions : Array Action) (task : Task)
    (s : State) : Prop :=
  DawScript.Reaches env (.evaluateAll (calls.map Call.expr) none, env.initial actions) (task, s)

end DawScript
