import DawScript.Json.Reader
import DawScript.Syntax.Token
import DawScript.Value.Operator

/-!
# Faults

Everything that can end the reading or the running of a script, by its cause. The wording of each
fault is `Fault.message`. A fault inside a call names the innermost call in which it arose, and no
call is named twice (`Fault.inCall`).
-/

namespace DawScript

/-!
## Misfits of session data

A JSON value does not describe a session if it is of the wrong type, if it is a number out of range,
or if it has too many items.
-/

namespace Session

/-- What a place in session data has to hold. -/
inductive Expected where
  | sequence
  | string
  | truth
  | word
  | float
  | record (name : String)
deriving DecidableEq, Repr

/-- The wording of what is expected. -/
def Expected.text : Expected → String
  | .sequence => "a sequence"
  | .string => "a string"
  | .truth => "a boolean"
  | .word => "i64"
  | .float => "f64"
  | .record name => "struct " ++ name

/-- What is found instead. -/
def foundText : Json → String
  | .null => "null"
  | .bool b => "boolean `" ++ (if b then "true" else "false") ++ "`"
  | .integer n => "integer `" ++ toString n ++ "`"
  | .float x => "floating point `" ++ Json.floatText x ++ "`"
  | .string s => "string " ++ Text.quoted s
  | .array _ => "sequence"
  | .object _ => "map"

/-- Why a JSON value does not describe a session. -/
inductive Misfit where
  | wrongType (found : String) (expected : Expected)
  | wrongValue (found : String) (expected : Expected)
  | tooManyItems (count : Nat)
deriving DecidableEq, Repr

/-- The wording of a misfit. -/
def Misfit.message : Misfit → String
  | .wrongType found expected => "invalid type: " ++ found ++ ", expected " ++ expected.text
  | .wrongValue found expected => "invalid value: " ++ found ++ ", expected " ++ expected.text
  | .tooManyItems count =>
    "invalid length " ++ toString count ++ ", expected fewer elements in array"

end Session

/-! ## Faults of reading and running -/

/-- What a reader of tokens wanted to see. -/
inductive Wanted where
  | token (t : Token)
  | identifier
  | expression
  | propertyName
  | mapKey
  | colonAfterKey
  | endOfStatement
deriving DecidableEq, Repr

/-- The wording of what was wanted. -/
def Wanted.text : Wanted → String
  | .token t => t.text
  | .identifier => "identifier"
  | .expression => "expression"
  | .propertyName => "property name"
  | .mapKey => "map key"
  | .colonAfterKey => "':' after map key"
  | .endOfStatement => "end of statement"

/-- What can be wrong with the text of a script or of a session. -/
inductive SyntaxFault where
  | unexpectedCharacter (c : Char)
  | unclosedString
  | integerTooLarge (digits : String)
  | unexpected (wanted : Wanted) (got : Token)
  | noAccess (segment target : String)
  | sessionText (misread : Json.Misread)
  | sessionShape (misfit : Session.Misfit)
deriving DecidableEq, Repr

/-- The wording of what is wrong with a text. -/
def SyntaxFault.message : SyntaxFault → String
  | .unexpectedCharacter c => "unexpected character: " ++ Text.inApostrophes c
  | .unclosedString => "unclosed string literal"
  | .integerTooLarge digits => "invalid integer: " ++ digits
  | .unexpected wanted got => "expected " ++ wanted.text ++ ", got " ++ got.text
  | .noAccess segment target => "cannot access '" ++ segment ++ "' on " ++ target
  | .sessionText misread => "invalid session JSON: " ++ misread.message
  | .sessionShape misfit => "invalid session state: " ++ misfit.message

/-- What an argument has to be. -/
inductive ArgumentType where
  | int
  | number
  | bool
  | string
  | list
  | name
deriving DecidableEq, Repr

/-- The wording of what an argument has to be. -/
def ArgumentType.text : ArgumentType → String
  | .int => "int"
  | .number => "number"
  | .bool => "bool"
  | .string => "string"
  | .list => "list"
  | .name => "identifier or string"

/-- Why an argument is refused. -/
inductive ArgumentFault where
  | wrongType (expected : ArgumentType) (got : Value.Kind)
  | indexExhausted
  | indexNegative
  | idTooSmall
deriving DecidableEq, Repr

/-- The wording of why an argument is refused. -/
def ArgumentFault.message : ArgumentFault → String
  | .wrongType expected got => "expected " ++ expected.text ++ ", got " ++ got.text
  | .indexExhausted => "expected int below i64::MAX, got int"
  | .indexNegative => "expected non-negative int, got negative int"
  | .idTooSmall => "expected int above i64::MIN, got int"

/-- Why a script cannot be read or run. -/
inductive Fault where
  | malformed (cause : SyntaxFault) (position : Position)
  | noTrackContext (call : String)
  | noSelectedTrack
  | missingClipAnchor
  | missingFxTarget
  | missingArgument (name : String)
  | invalidArgument (name : String) (cause : ArgumentFault)
  | unexpectedArgument (name : String)
  | unknownIdentifier (name : String)
  | propertyNotFound (segment : String) (kind : Value.Kind)
  | evaluation (cause : EvalFault)
  | notASequence (kind : Value.Kind)
  | unknownFunction (name : String)
  | unknownMethod (name : String)
  | noActions
  | inCall (call arguments : String) (source : Fault)
deriving DecidableEq, Repr

namespace Fault

/-- The wording of a fault. -/
def message : Fault → String
  | .malformed cause position =>
    "[" ++ toString position.line ++ ":" ++ toString position.column ++ "] syntax error: " ++
      cause.message
  | .noTrackContext call =>
    "no track context for " ++ call ++ " call and no selected track found"
  | .noSelectedTrack => "no selected track found in session state"
  | .missingClipAnchor => "clip call must specify bar, start, or position"
  | .missingFxTarget => "fx call must specify fxname or instrument"
  | .missingArgument name => "missing required argument '" ++ name ++ "'"
  | .invalidArgument name cause => "invalid argument '" ++ name ++ "': " ++ cause.message
  | .unexpectedArgument name => "unexpected argument '" ++ name ++ "'"
  | .unknownIdentifier name => "unknown identifier '" ++ name ++ "'"
  | .propertyNotFound segment kind =>
    "property '" ++ segment ++ "' not found on " ++ kind.text
  | .evaluation cause => "evaluation error: " ++ cause.message
  | .notASequence kind => "collection must be a list, got " ++ kind.text
  | .unknownFunction name => "unknown function '@" ++ name ++ "'"
  | .unknownMethod name => "unknown method '" ++ name ++ "'"
  | .noActions => "no actions found in DSL code"
  | .inCall call arguments source =>
    call ++ "(" ++ arguments ++ "): " ++ source.message

/-- Whether a fault names the call in which it arose. -/
def isInCall : Fault → Bool
  | .inCall _ _ _ => true
  | _ => false

/-- A fault with the call in which it arose; one that names its call already keeps it. -/
def within (call arguments : String) (fault : Fault) : Fault :=
  if fault.isInCall then fault else .inCall call arguments fault

/-- The fault without the calls around it. -/
def root : Fault → Fault
  | .inCall _ _ source => source.root
  | fault => fault

/-- What a fault was caused by: the fault inside a call, and then what that one was caused by. -/
def causes : Fault → List Fault
  | .inCall _ _ source => source :: source.causes
  | _ => []

@[simp] theorem within_inCall (call arguments call' arguments' : String) (source : Fault) :
    within call arguments (.inCall call' arguments' source) = .inCall call' arguments' source := rfl

/-- Naming the call leaves the root of a fault. -/
@[simp] theorem root_within (call arguments : String) (fault : Fault) :
    (within call arguments fault).root = fault.root := by
  unfold within
  split
  · rfl
  · rfl

/-- A fault within a call names a call. -/
theorem isInCall_within (call arguments : String) (fault : Fault) :
    (within call arguments fault).isInCall = true := by
  unfold within
  split
  · next h => exact h
  · rfl

/-- The innermost call keeps its place. -/
theorem within_within (call arguments call' arguments' : String) (fault : Fault) :
    within call arguments (within call' arguments' fault) = within call' arguments' fault :=
  if_pos (isInCall_within call' arguments' fault)

/-- The root of a fault has no calls around it. -/
theorem root_root (fault : Fault) : fault.root.root = fault.root := by
  induction fault with
  | inCall call arguments source ih => exact ih
  | _ => rfl

end Fault

end DawScript
