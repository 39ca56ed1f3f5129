import DawScript.Run.Command
import DawScript.Value.Arithmetic
import DawScript.Value.Method

/-!
# Combinators

The calls that compute values. `filter`, `map` and `for_each` visit the items of a list one by one;
an item that fails is passed over, or ends the run if the defaults are strict. Everything else that
fails in a combinator ends the run.

Combinators see their arguments by their meaning: an argument is what it does in a run under a
binding (`Meaning`), and for a function reference also what its own arguments do (`Operand`).
-/

namespace DawScript

/-- An expression with what it does in a run, under the binding of a combinator if there is one. -/
structure Meaning where
  source : Expr
  value : Option Binding → Run Value

/-- An expression with what it does, and with what the arguments do if it is a function
reference. -/
structure Operand extends Meaning where
  arguments : List (Arg Meaning)

/-- The calls that compute values. -/
inductive Combinator where
  | filter
  | map
  | forEach
  | reduce
  | store
  | getTracks
  | getFxChain
  | getClips
deriving DecidableEq, Repr

/-- The folds that `reduce` knows. -/
inductive Reducer where
  | add
  | mul
  | min
  | max
  | count
deriving DecidableEq, Repr

namespace Reducer

/-- The fold with a name. -/
def ofName? : String → Option Reducer
  | "add" => some .add
  | "mul" => some .mul
  | "min" => some .min
  | "max" => some .max
  | "count" => some .count
  | _ => none

/-- What a fold starts from by itself; the others start from the first item. -/
def seed? : Reducer → Option Value
  | .count => some (.int 0)
  | _ => none

/-- The item if it compares with the accumulator as asked, else the accumulator. -/
def choose (op : BinaryOp) (acc item : Value) : Except EvalFault Value := do
  let replaces ← op.apply item acc
  return if replaces.isTruthy then item else acc

/-- One step of a fold. -/
def apply (r : Reducer) (acc item : Value) : Except EvalFault Value :=
  match r with
  | .add => BinaryOp.add.apply acc item
  | .mul => BinaryOp.mul.apply acc item
  | .min => choose .lt acc item
  | .max => choose .gt acc item
  | .count => BinaryOp.add.apply acc (.int 1)

/-- A fold over items from an accumulator. -/
def fold (r : Reducer) (acc : Value) (items : List Value) : Except EvalFault Value :=
  items.foldlM r.apply acc

/-- A fold that starts from `initial` if it is given, else from its own seed or the first item;
without any of these it is null. -/
def run (r : Reducer) (initial : Option Value) (items : List Value) : Except EvalFault Value :=
  match initial.or r.seed?, items with
  | some acc, _ => r.fold acc items
  | none, first :: rest => r.fold first rest
  | none, [] => .ok .null

end Reducer

namespace Combinator

/-- All combinators. -/
def all : List Combinator :=
  [.filter, .map, .forEach, .reduce, .store, .getTracks, .getFxChain, .getClips]

/-- The name of a combinator. -/
def name : Combinator → String
  | .filter => "filter"
  | .map => "map"
  | .forEach => "for_each"
  | .reduce => "reduce"
  | .store => "store"
  | .getTracks => "get_tracks"
  | .getFxChain => "get_fx_chain"
  | .getClips => "get_clips"

/-- The combinator with a name. -/
def ofName? (s : String) : Option Combinator := all.find? fun c => c.name == s

/-- The parameters of a combinator in order. -/
def parameters : Combinator → List String
  | .filter => ["collection", "predicate"]
  | .map => ["func", "collection"]
  | .forEach => ["collection", "func"]
  | .reduce => ["func", "collection", "initial"]
  | .store => ["name", "value"]
  | .getTracks => []
  | .getFxChain | .getClips => ["track_index"]

end Combinator

/-! ## Names of items -/

/-- A text without an ending, if it ends so. -/
def withoutEnding? (ending name : List Char) : Option (List Char) :=
  if ending.isSuffixOf name then some (name.take (name.length - ending.length)) else none

/-- The name that the items of a collection go by: the name of the collection without its plural
`s` and without `_chain` or `_list`, or `item` if that leaves less than two characters. -/
def itemName (collection : String) : String :=
  let name := collection.toList
  let singular := (withoutEnding? ['s'] name).getD name
  let stem := ((withoutEnding? "_chain".toList singular).or
    (withoutEnding? "_list".toList singular)).getD singular
  if stem.length < 2 then "item" else String.ofList stem

/-! ## Callbacks -/

/-- What a combinator does with each item. -/
abbrev Callback := Binding → Run Value

/-- The values of the arguments of a command in the order of its parameters; null counts as no
value. -/
def argumentValues (given : List (String × Meaning)) (scope : Option Binding) :
    List String → Run Values
  | [] => return []
  | p :: rest =>
    match given.lookup p with
    | none => argumentValues given scope rest
    | some m => do
      let v ← m.value scope
      let others ← argumentValues given scope rest
      return if v.isNull then others else (p, v) :: others

/-- The values of the arguments of a command. -/
def commandValues (c : Command) (arguments : List (Arg Meaning)) (scope : Option Binding) :
    Run Values := do
  let given ← assign c.parameters arguments
  argumentValues given scope c.parameters

/-- Runs a command with its arguments. -/
def runCommand (env : Env) (c : Command) (arguments : List (Arg Meaning))
    (scope : Option Binding) : Run Value := do
  c.run env (← commandValues c arguments scope)
  return .null

/-- Runs a command on the item of a binding. -/
def runCommandOnItem (env : Env) (c : Command) (arguments : List (Arg Meaning)) : Callback :=
  fun scope => do
    let values ← commandValues c arguments (some scope)
    c.runOnItem env values scope.item
    return .null

/-- What a function or an expression does with each item. A function reference is a command or a
function of one value, and such a function takes no arguments. -/
def callback (env : Env) (o : Operand) : Except Fault Callback :=
  match o.source with
  | .function name _ =>
    match Command.ofName? name with
    | some c => .ok (runCommandOnItem env c o.arguments)
    | none => match Builtin.ofName? name with
      | none => .error (.unknownFunction name)
      | some f => match o.arguments with
        | [] => .ok fun scope => Run.evaluated (f.apply scope.item)
        | a :: _ => .error (.unexpectedArgument (a.keyword.getD a.value.source.text))
  | _ => .ok fun scope => o.value (some scope)

/-! ## Visiting items -/

/-- What becomes of one item: its result, or nothing if it failed and is passed over. -/
def settle (env : Env) (c : Combinator) (position : Nat) (step : Run Value) :
    Run (Option Value) :=
  tryCatch (some <$> step) fun fault => do
    -- what the item emitted and stored before it failed stays
    if env.config.strict then throw fault
    modify (State.skip ⟨c.name, position, fault.message⟩)
    return none

/-- Visits items from a position on and returns those that did not fail with their results. -/
def visitFrom (env : Env) (c : Combinator) (name : String) (f : Callback) :
    Nat → List Value → Run (List (Value × Value))
  | _, [] => return []
  | position, item :: rest => do
    let outcome ← settle env c position (f ⟨name, item⟩)
    let others ← visitFrom env c name f (position + 1) rest
    return match outcome with
      | some result => (item, result) :: others
      | none => others

/-- Visits all items. -/
def visit (env : Env) (c : Combinator) (name : String) (f : Callback) (items : List Value) :
    Run (List (Value × Value)) :=
  visitFrom env c name f 0 items

/-- The items of a collection and the name they go by. A bare name is a stored symbol, empty if
nothing is stored under it; any other expression is evaluated. -/
def collection (m : Meaning) (scope : Option Binding) : Run (List Value × String) := do
  let (v, name) ← match m.source.name? with
    | some s => do
      let stored := (← get).symbol? s
      pure (stored.getD (.list []), itemName s)
    | none => do
      let v ← m.value scope
      pure (v, "item")
  match v with
  | .list items => return (items, name)
  | other => throw (.notASequence other.kind)

/-! ## The combinators -/

/-- Visits a collection: the function is settled before the collection is evaluated. -/
def visitCollection (env : Env) (c : Combinator) (function source : String)
    (given : List (String × Operand)) (scope : Option Binding) : Run (List (Value × Value)) := do
  let f ← callback env (← required given function)
  let (items, name) ← collection (← required given source).toMeaning scope
  visit env c name f items

/-- `filter`: the items whose result counts as true. -/
def runFilter (env : Env) (given : List (String × Operand)) (scope : Option Binding) :
    Run Value := do
  let visited ← visitCollection env .filter "predicate" "collection" given scope
  return .list ((visited.filter fun pair => pair.2.isTruthy).map Prod.fst)

/-- `map`: the results of the items. -/
def runMap (env : Env) (given : List (String × Operand)) (scope : Option Binding) :
    Run Value := do
  let visited ← visitCollection env .map "func" "collection" given scope
  return .list (visited.map Prod.snd)

/-- `for_each`: visits the items for what that does. -/
def runForEach (env : Env) (given : List (String × Operand)) (scope : Option Binding) :
    Run Value := do
  let _ ← visitCollection env .forEach "func" "collection" given scope
  return .null

/-- The fold that an expression refers to. -/
def reducer (e : Expr) : Except Fault Reducer :=
  match e with
  | .function name _ => match Reducer.ofName? name with
    | some r => .ok r
    | none => .error (.unknownFunction name)
  | other => .error (.evaluation (.notFunction other.text))

/-- `reduce`: a fold over the items. -/
def runReduce (given : List (String × Operand)) (scope : Option Binding) : Run Value := do
  -- an unknown fold is a fault before anything is evaluated
  let r ← reducer (← required given "func").source
  let (items, _) ← collection (← required given "collection").toMeaning scope
  let initial ← match given.lookup "initial" with
    | some m => some <$> m.value scope
    | none => pure none
  Run.evaluated (r.run initial items)

/-- The name under which `store` stores: a bare name as it is, else a text. -/
def storeName (m : Meaning) (scope : Option Binding) : Run String :=
  match m.source.name? with
  | some s => return s
  | none => do
    match ← m.value scope with
    | .string s => return s
    | other => throw (.invalidArgument "name" (.wrongType .name other.kind))

/-- The name and the value of a `store` with a single keyword argument that is no parameter. -/
def storeKeyword? {α : Type} (arguments : List (Arg α)) : Option (String × α) :=
  match arguments with
  | [⟨some key, value⟩] => if key ∈ Combinator.store.parameters then none else some (key, value)
  | _ => none

/-- `store`: stores a value under a name, given either as two arguments or as one keyword
argument. -/
def runStore (arguments : List (Arg Operand)) (scope : Option Binding) : Run Value := do
  match storeKeyword? arguments with
  | some (key, m) =>
    -- `store(total=…)` is short for `store(total, …)`
    let v ← m.value scope
    Run.store key v
  | none =>
    let given ← assign Combinator.store.parameters arguments
    let name ← storeName (← required given "name").toMeaning scope
    let v ← (← required given "value").value scope
    Run.store name v
  return .null

/-- `get_tracks`: the tracks of the session, stored as `tracks`. -/
def runGetTracks (env : Env) : Run Value := do
  let tracks := env.session.elim (.list []) Session.tracksValue
  Run.store "tracks" tracks
  return tracks

/-- The track that a query asks about: the one given, or the bound one. -/
def queriedTrack (given : List (String × Operand)) (scope : Option Binding) : Run Int64 := do
  match given.lookup "track_index" with
  | some m =>
    let v ← m.value scope
    match v.int? with
    | some index => return index
    | none => throw (.invalidArgument "track_index" (.wrongType .int v.kind))
  | none => return (← get).target

/-- `get_fx_chain` and `get_clips`: a part of a track, stored as `symbol`. Where there is no track
the list is empty and nothing is stored. -/
def runListing (env : Env) (symbol : String) (part : Session → Int64 → Value)
    (given : List (String × Operand)) (scope : Option Binding) : Run Value := do
  let index ← queriedTrack given scope
  match env.session.filter fun s => (s.track? index).isSome with
  | none => return .list []
  | some s =>
    let v := part s index
    Run.store symbol v
    return v

/-- Runs a combinator with its arguments. All but `store` give them to their parameters first. -/
def runCombinator (env : Env) (c : Combinator) (arguments : List (Arg Operand))
    (scope : Option Binding) : Run Value :=
  let on (body : List (String × Operand) → Run Value) : Run Value := do
    body (← assign c.parameters arguments)
  match c with
  | .filter => on fun given => runFilter env given scope
  | .map => on fun given => runMap env given scope
  | .forEach => on fun given => runForEach env given scope
  | .reduce => on fun given => runReduce given scope
  | .store => runStore arguments scope
  | .getTracks => on fun _ => runGetTracks env
  | .getFxChain => on fun given => runListing env "fx_chain" Session.fxValue given scope
  | .getClips => on fun given => runListing env "clips" Session.clipsValue given scope

end DawScript
