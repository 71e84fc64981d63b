import HostWatch.Json.Limits
import HostWatch.Text.Quoted

/-!
# Faults

Everything that can go wrong is a `Fault`, named by its cause. `Fault.message` is its wording and
`Fault.kind` sorts it. Causes that lie outside the program (the file system, a malformed text) are
worded by whoever shows the message.
-/

namespace HostWatch

/-- Why an operation on a file fails. -/
inductive FileProblem where
  | notFound
  | alreadyThere
  | isDirectory
  | notDirectory
  | nameTooLong
  | tooManyLinks
  /-- More directories missing, each inside the other, than are made at once. -/
  | tooManyMissing
  /-- A path with a NUL character, which the system does not take at all. -/
  | nulInPath
  deriving DecidableEq, Repr

/-- A cause outside the program. -/
inductive Cause where
  | file (problem : FileProblem) (path : String)
  /-- A text that is no JSON. -/
  | json
  /-- A text with lists and objects too deep in each other. -/
  | nesting
  /-- Bytes that are no UTF-8. -/
  | encoding
  /-- Required fields that are missing. -/
  | fields
  deriving DecidableEq, Repr

def FileProblem.wording : FileProblem → String
  | notFound => "no such file or directory"
  | alreadyThere => "file exists"
  | isDirectory => "is a directory"
  | notDirectory => "not a directory"
  | nameTooLong => "file name too long"
  | tooManyLinks => "too many links"
  | tooManyMissing => "maximum recursion depth exceeded while calling a Python object"
  | nulInPath => "embedded null byte"

/-- The wording of causes for those who have none of their own. -/
def Cause.wording : Cause → String
  | file problem path => problem.wording ++ ": " ++ path
  | json => "not a JSON text"
  | nesting => "lists and objects too deep in each other"
  | encoding => "not a UTF-8 text"
  | fields => "required fields are missing"

/-- What the system reports. -/
inductive SystemKind where
  | other
  | file (problem : FileProblem)
  | denied
  | noProcess
  deriving DecidableEq, Repr

/-- The kinds of fault. -/
inductive FaultKind where
  | configuration
  | capture
  | sink
  | responder
  | rule
  | system (kind : SystemKind)
  | general
  | badValue
  | wrongType
  | outOfRange
  | missingKey
  | missingPart
  | malformedTable
  | tooDeep
  deriving DecidableEq, Repr

/-- Settings with which nothing can run. -/
inductive ConfigurationProblem where
  | noCapturers
  | noSchedules
  | capturerMissing (index : Nat)
  | undelivered (count : Nat)
  | writerMissing
  | indicatorPathEmpty
  | indicatorsUnreadable (cause : Cause)
  | indicatorsMalformed (cause : Cause)
  | indicatorsNotObject
  deriving DecidableEq, Repr

/-- What is wrong with a rule definition or a file of them. -/
inductive RuleProblem where
  | withoutId
  | withoutMetric (id : String)
  | unsupportedOperator (id op : String)
  | unknownSeverity (id severity : String)
  | unreadable (path : String) (cause : Cause)
  | notList (path : String)
  | entryNotObject (path : String) (index : Nat)
  | entryIncomplete (path : String) (index : Nat) (cause : Cause)
  deriving DecidableEq, Repr

/-- What is wrong with the kind of a value. Kinds are given by their names. -/
inductive TypeProblem where
  /-- Two values without an order between them. -/
  | unordered (symbol left right : String)
  /-- An operation that is not there for two values. -/
  | noOperation (symbol left right : String)
  /-- A value that cannot be looked up. -/
  | unhashable (kind : String)
  | notIterable (kind : String)
  | notReal (kind : String)
  | notInteger (kind : String)
  | notPath (kind : String)
  | noFormat (kind : String)
  /-- Something other than a list of words that is to be joined. -/
  | notJoinable
  | notWord (index : Nat) (kind : String)
  /-- Something other than an integer that is to cut a list. -/
  | notIndex
  /-- Something other than an integer that is to bound a list. -/
  | notBound
  /-- Something else where metadata should be. -/
  | notMetadata
  /-- Arguments or fields that are missing or not known. -/
  | arguments
  /-- A name that stands for something other than a level. -/
  | notLevel (name : String)
  deriving DecidableEq, Repr

/-- The stages of taking a snapshot. -/
inductive CaptureStage where
  | capture
  | info
  | verbose
  deriving DecidableEq, Repr

inductive Fault where
  /-- A fault of a part that was plugged in, in its own words. -/
  | external (kind : FaultKind) (text : String)
  | configuration (problem : ConfigurationProblem)
  | rule (problem : RuleProblem)
  | capture (capturer : String) (stage : CaptureStage) (cause : Fault)
  | sink (name : String) (cause : Fault)
  | responder (name : String) (cause : Fault)
  | file (problem : FileProblem) (path : String)
  | noPid (ruleId : String)
  | processGone (pid : Int)
  | processDenied (pid : Int)
  /-- A number without a neighbouring integer. -/
  | unbounded (cause : Binary64.Unbounded)
  /-- An integer beyond the range of doubles. -/
  | integerTooLarge
  /-- A quotient of integers beyond the range of doubles. -/
  | quotientTooLarge
  /-- An integer beyond the range of what counts things. -/
  | integerTooLong
  /-- A text that should name a double. -/
  | notDouble (text : String)
  /-- A text that should name an integer. -/
  | notInteger (text : String)
  /-- A text that has no fixed places. -/
  | noPlaces
  /-- A name that no level has. -/
  | unknownLevel (name : String)
  | yearOutOfRange
  /-- A home directory that is itself given by way of one. -/
  | homeUnknown
  | wrongType (problem : TypeProblem)
  /-- An object without a certain key. -/
  | missingKey (key : String)
  /-- Something of a kind that lacks the part it is asked for. -/
  | missingPart (kind part : String)
  | fieldTooLong
  | tableBreak
  /-- Lists and objects too deep in each other. -/
  | tooDeep
  /-- A value that cannot be written as JSON. -/
  | unwritable (obstacle : Json.Obstacle)
  deriving DecidableEq, Repr

namespace ConfigurationProblem

def message (word : Cause → String) : ConfigurationProblem → String
  | noCapturers => "no capturers enabled by config"
  | noSchedules => "capture scheduler: schedules is empty"
  | capturerMissing index =>
    "capture scheduler: schedule " ++ toString index ++ " capturer is missing"
  | undelivered count =>
    "response router: pipeline is not configured (" ++ toString count ++
      " accepted alerts undelivered)"
  | writerMissing => "log responder: writer is not set"
  | indicatorPathEmpty => "ioc config path is empty"
  | indicatorsUnreadable cause => "read ioc config: " ++ word cause
  | indicatorsMalformed cause => "decode ioc config: " ++ word cause
  | indicatorsNotObject => "decode ioc config: expected a JSON object"

end ConfigurationProblem

namespace RuleProblem

def message (word : Cause → String) : RuleProblem → String
  | withoutId => "rule definition needs an id"
  | withoutMetric id => "rule " ++ id ++ ": metric is empty"
  | unsupportedOperator id op => "rule " ++ id ++ ": unsupported operator " ++ op
  | unknownSeverity id severity => "rule " ++ id ++ ": unknown severity " ++ severity
  | unreadable path cause => "read rule definitions " ++ path ++ ": " ++ word cause
  | notList path => "rule definitions " ++ path ++ ": expected a JSON list"
  | entryNotObject path index =>
    "rule definitions " ++ path ++ ": entry " ++ toString index ++ " is not an object"
  | entryIncomplete path index cause =>
    "rule definitions " ++ path ++ ": entry " ++ toString index ++ ": " ++ word cause

end RuleProblem

def TypeProblem.message : TypeProblem → String
  | unordered symbol left right =>
    "'" ++ symbol ++ "' not supported between instances of '" ++ left ++ "' and '" ++ right ++ "'"
  | noOperation symbol left right =>
    "unsupported operand type(s) for " ++ symbol ++ ": '" ++ left ++ "' and '" ++ right ++ "'"
  | unhashable kind => "unhashable type: '" ++ kind ++ "'"
  | notIterable kind => "'" ++ kind ++ "' object is not iterable"
  | notReal kind => "float() argument must be a string or a real number, not '" ++ kind ++ "'"
  | notInteger kind =>
    "int() argument must be a string, a bytes-like object or a real number, not '" ++ kind ++ "'"
  | notPath kind => "expected str, bytes or os.PathLike object, not " ++ kind
  | noFormat kind => "unsupported format string passed to " ++ kind ++ ".__format__"
  | notJoinable => "can only join an iterable"
  | notWord index kind =>
    "sequence item " ++ toString index ++ ": expected str instance, " ++ kind ++ " found"
  | notIndex => "a list is cut at an integer"
  | notBound => "an integer is required"
  | notMetadata => "must be called with a dataclass type or instance"
  | arguments => "fields are missing or not known"
  | notLevel name => "Level not an integer or a valid string: " ++ name

def CaptureStage.label : CaptureStage → String
  | capture => "capture"
  | info => "getinfo"
  | verbose => "getverboseinfo"

namespace Fault

def kind : Fault → FaultKind
  | external k _ => k
  | configuration _ => .configuration
  | rule _ => .rule
  | capture .. => .capture
  | sink .. => .sink
  | responder .. => .responder
  | file .nulInPath _ => .badValue
  | file .tooManyMissing _ => .tooDeep
  | file problem _ => .system (.file problem)
  | noPid _ => .badValue
  | processGone _ => .system .noProcess
  | processDenied _ => .system .denied
  | unbounded .nan => .badValue
  | unbounded .infinite => .outOfRange
  | integerTooLarge | quotientTooLarge | integerTooLong => .outOfRange
  | notDouble _ | notInteger _ | noPlaces | unknownLevel _ | yearOutOfRange => .badValue
  | homeUnknown => .general
  | wrongType _ => .wrongType
  | missingKey _ => .missingKey
  | missingPart .. => .missingPart
  | tableBreak | fieldTooLong => .malformedTable
  | tooDeep => .tooDeep
  | unwritable (.tooLong _) => .badValue
  | unwritable .tooDeep | unwritable .tooDeepInRecord => .tooDeep
  | unwritable .formless => .wrongType

/-- The wording of a fault. A missing key is shown between quotes. -/
def message (word : Cause → String) : Fault → String
  | external k text => if k = .missingKey then Text.quoted text else text
  | configuration problem => problem.message word
  | rule problem => problem.message word
  | capture capturer stage cause =>
    "[" ++ capturer ++ "] " ++ stage.label ++ " error: " ++ message word cause
  | sink name cause => "sink " ++ name ++ ": " ++ message word cause
  | responder name cause => name ++ ": " ++ message word cause
  | file .nulInPath _ => FileProblem.nulInPath.wording
  | file .tooManyMissing _ => FileProblem.tooManyMissing.wording
  | file problem path => word (.file problem path)
  | noPid ruleId => "no pid in alert evidence (rule " ++ ruleId ++ ")"
  | processGone pid => "kill process " ++ toString pid ++ ": no such process"
  | processDenied pid => "kill process " ++ toString pid ++ ": access denied"
  | unbounded .nan => "cannot convert float NaN to integer"
  | unbounded .infinite => "cannot convert float infinity to integer"
  | integerTooLarge => "int too large to convert to float"
  | quotientTooLarge => "integer division result too large for a float"
  | integerTooLong => "integer too large for a size"
  | notDouble text => "could not convert string to float: " ++ Text.quoted text
  | notInteger text => "invalid literal for int() with base 10: " ++ Text.quoted text
  | noPlaces => "Unknown format code 'f' for object of type 'str'"
  | unknownLevel name => "Unknown level: " ++ Text.quoted name
  | yearOutOfRange => "year 0 is out of range"
  | homeUnknown => "Could not determine home directory."
  | wrongType problem => problem.message
  | missingKey key => Text.quoted key
  | missingPart kind part => "'" ++ kind ++ "' object has no attribute '" ++ part ++ "'"
  | tableBreak =>
    "new-line character seen in unquoted field - do you need to open the file in " ++
      "universal-newline mode?"
  | fieldTooLong => "field larger than field limit (131072)"
  | tooDeep => word .nesting
  | unwritable obstacle => obstacle.message

/-- Faults that this program names itself; they end a run in an orderly way. -/
def isOwn (f : Fault) : Bool :=
  match f.kind with
  | .configuration | .capture | .sink | .responder | .rule => true
  | _ => false

/-- Faults that the system reports. -/
def isSystem (f : Fault) : Bool :=
  match f.kind with
  | .system _ => true
  | _ => false

end Fault

/-- The value, if there is one, or else the fault. -/
def Fault.ofOption {α : Type} (f : Fault) : Option α → Except Fault α
  | some a => .ok a
  | none => .error f

/-- Takes a rounding that can fail as one with a fault. -/
def Fault.ofUnbounded {α : Type} : Except Binary64.Unbounded α → Except Fault α
  | .ok a => .ok a
  | .error e => .error (.unbounded e)

/-- Where one step after another gives a result, each of them does. -/
theorem ok_of_bind {α β : Type} {e : Except Fault α} {next : α → Except Fault β} {y : β}
    (ok : e >>= next = .ok y) : ∃ x, e = .ok x ∧ next x = .ok y := by
  cases e with
  | error f => cases ok
  | ok x => exact ⟨x, rfl, ok⟩

end HostWatch
