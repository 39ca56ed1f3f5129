import DawScript.Cli.Arguments
import DawScript.Config.Load
import DawScript.Run.Interpret
import DawScript.Session.Load
import DawScript.Yaml.Printer

/-!
# Runs from the command line

What a run prints and how it ends, from what is asked for and the texts of its files. The script,
the configuration and the session are read in this order, and the first that cannot be used ends
the run before anything is printed. A configuration that is not asked for is used only if it can
be. The actions of a run are printed also when it fails. The lines of its log, which carry the time,
are left out.
-/

namespace DawScript.Cli

/-! ## Sources -/

/-- The texts that a run is made from, as far as they can be read; a text that cannot be read
comes with the reason. The texts under `config` and `state` are there if they are asked for, and
`homeConfig` is the user's own configuration, if there is one. How it is worded that a text is no
configuration, `refusal` says. -/
structure Sources where
  script : Except String String
  config : Option (Except String String)
  homeConfig : Option String
  state : Option (Except String String)
  refusal : String → String := fun _ => "invalid configuration"

/-- What a command finds: standard input and the files by their paths, with the reason where one
cannot be read, and the user's home directory, if there is one. -/
structure Files (m : Type → Type) where
  input : m (Except String String)
  file : String → m (Except String String)
  home : m (Option String)
  refusal : String → String := fun _ => "invalid configuration"

section Reading

variable {m : Type → Type} (files : Files m)

/-- The script that a request names. -/
def Files.script (request : Request) : m (Except String String) :=
  if request.script = "-" then files.input else files.file request.script

variable [Monad m]

/-- The user's own configuration, if there is one. -/
def Files.homeConfig : m (Option String) := do
  match ← files.home with
  | none => return none
  | some home => return (← files.file (Config.pathIn home)).toOption

/-- The sources that a request asks for. -/
def Files.sources (request : Request) : m Sources := do
  return {
    script := ← files.script request
    config := ← request.config.mapM files.file
    homeConfig := ← files.homeConfig
    state := ← request.state.mapM files.file
    refusal := files.refusal }

end Reading

/-! ## Outcomes -/

/-- Why a run fails. -/
inductive Failure where
  | unreadable (reason : String)
  | badConfig (reason : String)
  | fault (f : Fault)
deriving DecidableEq, Repr

/-- The wording of a failure. -/
def Failure.message : Failure → String
  | .unreadable reason => reason
  | .badConfig reason => reason
  | .fault f => f.message

/-- What a failure was caused by, from the nearest cause on. -/
def Failure.causes : Failure → List Fault
  | .fault f => f.causes
  | _ => []

/-- What is reported of a failure: its wording, and that of each cause on a line of its own. -/
def Failure.report (f : Failure) : String :=
  "error: " ++ f.message ++ "\n" ++
    String.join (f.causes.map fun cause => "  caused by: " ++ cause.message ++ "\n")

/-- How a command ends: its exit code, what it prints, and what it reports of a failure behind its
log. -/
structure Outcome where
  exit : Nat
  output : String
  errors : String
deriving DecidableEq, Repr

/-- Actions in a format, with a line end after them. -/
def render (format : Format) (actions : List Action) : String :=
  let values := Json.array (actions.map Action.toJson)
  match format with
  | .json => values.pretty ++ "\n"
  | .yaml => Yaml.text values ++ "\n"

/-- What is printed of the actions of a run, nothing if there are none. -/
def printed (format : Format) (actions : List Action) : String :=
  if actions.isEmpty then "" else render format actions

/-! ## Runs -/

/-- The configuration of a run. -/
def Sources.loadConfig (sources : Sources) : Except Failure Config :=
  match sources.config with
  | some (.ok text) => match Config.parse? text with
    | some config => .ok config
    | none => .error (.badConfig (sources.refusal text))
  | some (.error reason) => .error (.unreadable reason)
  | none => .ok ((sources.homeConfig.bind Config.parse?).getD {})

/-- The session of a run, if there is one. -/
def Sources.loadSession (sources : Sources) : Except Failure (Option Session) :=
  match sources.state with
  | some (.ok text) => match Session.parse text with
    | .ok session => .ok (some session)
    | .error fault => .error (.fault fault)
  | some (.error reason) => .error (.unreadable reason)
  | none => .ok none

/-- The script of a run and what it is run with. -/
def Sources.load (sources : Sources) : Except Failure (String × Env) := do
  let script ← sources.script.mapError .unreadable
  let config ← sources.loadConfig
  let session ← sources.loadSession
  return (script, ⟨session, config⟩)

/-- Runs a script and prints its actions. -/
def runScript (format : Format) (script : String) (env : Env) : Outcome :=
  let (outcome, actions) := interpretScript env script #[]
  let output := printed format actions.toList
  match outcome with
  | .ok _ => ⟨0, output, ""⟩
  | .error fault => ⟨1, output, (Failure.fault fault).report⟩

/-- Runs a script from its sources. -/
def run (format : Format) (sources : Sources) : Outcome :=
  match sources.load with
  | .ok (script, env) => runScript format script env
  | .error failure => ⟨1, "", failure.report⟩

/-- The outcome of a command, where `read` gives the sources that a request asks for. -/
def invoke {m : Type → Type} [Monad m] (read : Request → m Sources) (arguments : List String) :
    m Outcome :=
  match Request.ofArguments arguments with
  | .ok request => do return run request.format (← read request)
  | .error .help => return ⟨0, helpText, ""⟩
  | .error .version => return ⟨0, versionText, ""⟩
  | .error (.misuse misuse) =>
    return ⟨2, "", "error: " ++ misuse.message ++ "\n\n" ++ usageText ++ "\n"⟩

end DawScript.Cli
