/-!
# Command-line arguments

A run is asked for by the file of its script and by options. An option has a long name after two
hyphens and a letter after one. Its value stands in the next argument, after an equals sign, or
right after the letter; letters without a value may share one hyphen. Two hyphens alone end the
options. Arguments are taken in their order, so a request for help wins over misuse only where it
stands before it.
-/

namespace DawScript.Cli

/-- How actions are printed. -/
inductive Format where
  | json
  | yaml
deriving DecidableEq, Repr

/-- What a run is asked for: its files, the format, and how much it is to log. The script `-` is
standard input. -/
structure Request where
  script : String
  state : Option String := none
  config : Option String := none
  format : Format := .json
  verbosity : Nat := 0
deriving DecidableEq, Repr

/-- An option that has a value. -/
inductive Setting where
  | state
  | config
  | format
deriving DecidableEq, Repr

/-- An option that has none. -/
inductive Flag where
  | verbose
  | help
  | version
deriving DecidableEq, Repr

/-- An option, with a value or without one. -/
inductive Switch where
  | setting (s : Setting)
  | flag (f : Flag)
deriving DecidableEq, Repr

/-- The option with a long name. -/
def Switch.ofName? : String → Option Switch
  | "state" => some (.setting .state)
  | "config" => some (.setting .config)
  | "format" => some (.setting .format)
  | "verbose" => some (.flag .verbose)
  | "help" => some (.flag .help)
  | "version" => some (.flag .version)
  | _ => none

/-- The option with a letter. -/
def Switch.ofLetter? : Char → Option Switch
  | 's' => some (.setting .state)
  | 'c' => some (.setting .config)
  | 'f' => some (.setting .format)
  | 'v' => some (.flag .verbose)
  | 'h' => some (.flag .help)
  | 'V' => some (.flag .version)
  | _ => none

/-- The long name of an option with a value. -/
def Setting.name : Setting → String
  | .state => "state"
  | .config => "config"
  | .format => "format"

/-- Why no run can be asked for in this way. -/
inductive Misuse where
  | unexpected (argument : String)
  | missingValue (s : Setting)
  | repeated (s : Setting)
  | badValue (s : Setting) (value : String)
  | unwantedValue (argument : String)
  | emptyScript
  | missingScript
deriving DecidableEq, Repr

/-- The wording of a misuse. -/
def Misuse.message : Misuse → String
  | .unexpected argument => "unexpected argument '" ++ argument ++ "' found"
  | .missingValue s => "a value is required for '--" ++ s.name ++ "' but none was supplied"
  | .repeated s => "the argument '--" ++ s.name ++ "' cannot be used multiple times"
  | .badValue s value => "invalid value '" ++ value ++ "' for '--" ++ s.name ++ "'"
  | .unwantedValue argument => "unexpected value in '" ++ argument ++ "'"
  | .emptyScript => "a value is required for '<SCRIPT>' but none was supplied"
  | .missingScript => "the required argument '<SCRIPT>' was not provided"

/-- Why arguments ask for no run. -/
inductive Stop where
  | help
  | version
  | misuse (m : Misuse)
deriving DecidableEq, Repr

/-- What has been asked for so far. -/
@[ext]
structure Gathered where
  script : Option String := none
  state : Option String := none
  config : Option String := none
  format : Option Format := none
  verbosity : Nat := 0

/-- The format with a name. -/
def Format.ofName? : String → Option Format
  | "json" => some .json
  | "yaml" => some .yaml
  | _ => none

/-- The name of a file, which is not empty. -/
def fileName (s : Setting) (value : String) : Except Stop String :=
  if value.isEmpty then .error (.misuse (.badValue s value)) else .ok value

/-- Gives an option its value, which it may have only once. -/
def Setting.assign (value : String) (g : Gathered) : Setting → Except Stop Gathered
  | .state => do
    if g.state.isSome then throw (.misuse (.repeated .state))
    return { g with state := some (← fileName .state value) }
  | .config => do
    if g.config.isSome then throw (.misuse (.repeated .config))
    return { g with config := some (← fileName .config value) }
  | .format => do
    if g.format.isSome then throw (.misuse (.repeated .format))
    match Format.ofName? value with
    | some chosen => return { g with format := some chosen }
    | none => throw (.misuse (.badValue .format value))

/-- Follows an option without a value. -/
def Flag.raise (g : Gathered) : Flag → Except Stop Gathered
  | .verbose => .ok { g with verbosity := g.verbosity + 1 }
  | .help => .error .help
  | .version => .error .version

/-- Takes the script. -/
def takeScript (argument : String) (g : Gathered) : Except Stop Gathered :=
  if g.script.isSome then .error (.misuse (.unexpected argument))
  else if argument.isEmpty then .error (.misuse .emptyScript)
  else .ok { g with script := some argument }

/-- Whether an argument cannot be the value of an option before it. A hyphen alone can. -/
def isOptionText (argument : String) : Bool :=
  match argument.toList with
  | '-' :: _ :: _ => true
  | _ => false

/-- What an argument leaves to be read: nothing, or the value of an option. -/
abbrev Pending := Option Setting

/-- Takes a long option without its hyphens. -/
def takeLong (argument : String) (text : List Char) (g : Gathered) :
    Except Stop (Gathered × Pending) := do
  let name := String.ofList (text.takeWhile (· != '='))
  match Switch.ofName? name, text.dropWhile (· != '=') with
  | some (.setting s), [] => return (g, some s)
  | some (.setting s), _ :: value => return (← s.assign (String.ofList value) g, none)
  | some (.flag f), [] => return (← f.raise g, none)
  | some (.flag _), _ :: _ => throw (.misuse (.unwantedValue argument))
  | none, _ => throw (.misuse (.unexpected argument))

/-- The value right after the letter of an option; an equals sign before it does not count. -/
def attached : List Char → List Char
  | '=' :: value => value
  | value => value

/-- Takes the letters after one hyphen. -/
def takeLetters (argument : String) (g : Gathered) :
    List Char → Except Stop (Gathered × Pending)
  | [] => .ok (g, none)
  | letter :: rest =>
    match Switch.ofLetter? letter with
    | some (.flag f) => do takeLetters argument (← f.raise g) rest
    | some (.setting s) =>
      if rest.isEmpty then .ok (g, some s)
      else (s.assign (String.ofList (attached rest)) g).map fun g => (g, none)
    | none => .error (.misuse (.unexpected argument))

/-- Takes an argument that no option waits for, before the end of the options. -/
def takeArgument (argument : String) (g : Gathered) : Except Stop (Gathered × Pending) :=
  match argument.toList with
  | '-' :: '-' :: text => takeLong argument text g
  | ['-'] => (takeScript argument g).map fun g => (g, none)
  | '-' :: letters => takeLetters argument g letters
  | _ => (takeScript argument g).map fun g => (g, none)

/-- Takes all arguments. -/
def gather (g : Gathered) (pending : Pending) : List String → Except Stop Gathered
  | [] =>
    match pending with
    | some s => .error (.misuse (.missingValue s))
    | none => .ok g
  | argument :: rest =>
    match pending with
    | some s =>
      if isOptionText argument then .error (.misuse (.missingValue s))
      else do gather (← s.assign argument g) none rest
    | none =>
      if argument = "--" then rest.foldlM (fun g argument => takeScript argument g) g
      else do
        let (g, pending) ← takeArgument argument g
        gather g pending rest

/-- The request that arguments ask for. -/
def Request.ofArguments (arguments : List String) : Except Stop Request := do
  let g ← gather {} none arguments
  match g.script with
  | none => throw (.misuse .missingScript)
  | some script => return {
      script, state := g.state, config := g.config, format := g.format.getD .json,
      verbosity := g.verbosity }

/-- The version. -/
def versionText : String := "chainline 0.1.0\n"

/-- How the command line is used. -/
def usageText : String := "Usage: chainline [OPTIONS] <SCRIPT>"

/-- The text of help. -/
def helpText : String :=
  "Compile DAW method-chain scripts into actions\n\n" ++ usageText ++ "\n\n" ++
  "Arguments:\n  <SCRIPT>  Script file, or `-` to read stdin\n\n" ++
  "Options:\n" ++
  "  -s, --state <STATE>    " ++
    "Session snapshot JSON (\x7b\"tracks\": [...]\x7d or \x7b\"state\": \x7b...\x7d\x7d)\n" ++
  "  -c, --config <CONFIG>  Config file (default: ~/.chainline/config.yaml)\n" ++
  "  -f, --format <FORMAT>  Output format [default: json] [possible values: json, yaml]\n" ++
  "  -v, --verbose...       More logging (-v info, -vv debug, -vvv trace)\n" ++
  "  -h, --help             Print help\n" ++
  "  -V, --version          Print version\n"

end DawScript.Cli
