import DawScript.Run.Combinator
import DawScript.Syntax.Grammar

/-!
# Runs of scripts

A run executes the calls of a script in order and stops at the first fault. Its actions are
appended to those of earlier runs and stay there also when the run fails. A run that ends without
a fault has to emit at least one action.
-/

namespace DawScript

/-!
## What expressions do

The value of an expression in a run, by recursion on the expression. Operands, items and arguments
are evaluated from left to right, both operands of every operator. A call names itself in the
faults that arise in it.
-/

/-- Runs the call of a name: a combinator, else a command. -/
def runNamed (env : Env) (name : String) (arguments : List (Arg Operand))
    (scope : Option Binding) : Run Value :=
  match Combinator.ofName? name with
  | some c => runCombinator env c arguments scope
  | none => match Command.ofName? name with
    | some c => runCommand env c (arguments.map fun a => ⟨a.keyword, a.value.toMeaning⟩) scope
    | none => throw (.unknownMethod name)

/-- Runs a call; a fault that arises in it names it, as it is written. -/
def runCall (env : Env) (name written : String) (arguments : List (Arg Operand))
    (scope : Option Binding) : Run Value :=
  tryCatch (runNamed env name arguments scope) fun fault => throw (fault.within name written)

/-- The value of a method for a value and arguments. -/
def runMethod (target : Value) (name : String) (arguments : List Value) : Run Value :=
  match Method.ofName? name with
  | some m => Run.evaluated (m.apply target arguments)
  | none => throw (.unknownMethod name)

mutual

/-- Evaluates an expression. -/
def evaluate (env : Env) (e : Expr) (scope : Option Binding) : Run Value :=
  match e with
  | .literal v => return v
  | .list items => do
    let values ← evaluateItems env items scope
    return .list values
  | .map entries => do
    -- of entries with the same name the last one counts
    let fields ← evaluateEntries env entries scope
    return .map (Fields.ofList fields)
  | .property root path => do
    let symbols := (← get).symbols
    lookUp root path scope symbols env.session
  | .binary op left right => do
    -- also `and` and `or` look at both operands
    let l ← evaluate env left scope
    let r ← evaluate env right scope
    Run.evaluated (op.apply l r)
  | .unary op operand => do
    let v ← evaluate env operand scope
    Run.evaluated (op.apply v)
  | .method target name arguments => do
    let v ← evaluate env target scope
    let values ← evaluateItems env arguments scope
    runMethod v name values
  | .call name arguments =>
    runCall env name (argumentsText arguments) (operands env arguments) scope
  | .function name _ => throw (.evaluation (.functionNotValue name))

/-- Evaluates expressions from left to right. -/
def evaluateItems (env : Env) (items : List Expr) (scope : Option Binding) : Run (List Value) :=
  match items with
  | [] => return []
  | item :: rest => do
    let v ← evaluate env item scope
    let others ← evaluateItems env rest scope
    return v :: others

/-- Evaluates the entries of a map from left to right. -/
def evaluateEntries (env : Env) (entries : List (String × Expr)) (scope : Option Binding) :
    Run (List (String × Value)) :=
  match entries with
  | [] => return []
  | (name, e) :: rest => do
    let v ← evaluate env e scope
    let others ← evaluateEntries env rest scope
    return (name, v) :: others

/-- What the arguments of a call do, and what the arguments of function references among them
do. -/
def operands (env : Env) (arguments : List (Arg Expr)) : List (Arg Operand) :=
  match arguments with
  | [] => []
  | ⟨keyword, e⟩ :: rest =>
    ⟨keyword, ⟨⟨e, fun scope => evaluate env e scope⟩, ownArguments env e⟩⟩ :: operands env rest

/-- What the arguments of a function reference do; other expressions have none. -/
def ownArguments (env : Env) (e : Expr) : List (Arg Meaning) :=
  match e with
  | .function _ arguments => meanings env arguments
  | _ => []

/-- What the arguments of a function reference do. -/
def meanings (env : Env) (arguments : List (Arg Expr)) : List (Arg Meaning) :=
  match arguments with
  | [] => []
  | ⟨keyword, e⟩ :: rest => ⟨keyword, ⟨e, fun scope => evaluate env e scope⟩⟩ :: meanings env rest

end

/-- Runs a call for itself. -/
def Call.run (env : Env) (c : Call) : Run Value :=
  runCall env c.name (argumentsText c.arguments) (operands env c.arguments) none

/-! ## Scripts -/

/-- What a run leaves besides its actions: the items passed over and the stored symbols. -/
structure Report where
  skipped : Array SkippedItem
  symbols : List (String × Value)

/-- Where a run begins: the tracks of the session are stored as `tracks`. -/
def Env.initial (env : Env) (actions : Array Action) : State :=
  match env.session with
  | some s => (State.fresh actions).store "tracks" s.tracksValue
  | none => State.fresh actions

/-- Runs calls in order. -/
def runCalls (env : Env) (calls : List Call) : Run Unit :=
  match calls with
  | [] => return
  | c :: rest => do
    let _ ← c.run env
    runCalls env rest

/-- Runs calls and appends their actions to `actions`. -/
def interpret (env : Env) (calls : List Call) (actions : Array Action) :
    Except Fault Report × Array Action :=
  let (outcome, final) := (runCalls env calls).run.run (env.initial actions)
  match outcome with
  | .error fault => (.error fault, final.actions)
  | .ok _ =>
    if final.actions.size = actions.size then (.error .noActions, final.actions)
    else (.ok ⟨final.skipped, final.symbols⟩, final.actions)

/-- The calls of a script. A blank script is one without actions. -/
def callsOf (script : String) : Except Fault (List Call) :=
  if Text.isBlankText script then .error .noActions
  else (Program.parse script).map Program.calls

/-- Runs a script and appends its actions to `actions`. -/
def interpretScript (env : Env) (script : String) (actions : Array Action) :
    Except Fault Report × Array Action :=
  match callsOf script with
  | .error fault => (.error fault, actions)
  | .ok calls => interpret env calls actions

end DawScript
