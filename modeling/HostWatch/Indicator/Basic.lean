import HostWatch.Text.Blank
import HostWatch.Text.Case
import HostWatch.Value.Display
import HostWatch.Value.Reading

/-!
# Indicators

Texts that mark a process, a file or a remote address as known to be bad. Indicators are compared in
lower case and without blanks around them; `Indicators.normalized` brings lists of values into that
form.
-/

namespace HostWatch

/-- Lists of indicators as they are given, of any shape. -/
structure IndicatorSource where
  processNames : Value := .list []
  processPaths : Value := .list []
  processCommands : Value := .list []
  filePaths : Value := .list []
  remoteAddresses : Value := .list []
  deriving Repr

/-- Lists of indicators in normal form. -/
structure Indicators where
  processNames : List String := []
  processPaths : List String := []
  processCommands : List String := []
  filePaths : List String := []
  remoteAddresses : List String := []
  deriving DecidableEq, Repr

namespace Indicators

/-- The normal form of one indicator. -/
def canonical (v : Value) : String := Text.lower (Text.trim v.display)

/-- Keeps the first of equal texts and drops empty ones; `seen` stands before. -/
def distinctAfter (seen : List String) : List String → List String
  | [] => []
  | s :: rest =>
    if s = "" ∨ s ∈ seen then distinctAfter seen rest else s :: distinctAfter (s :: seen) rest

/-- The distinct texts that are not empty, in the order of their first occurrence. -/
def distinct (texts : List String) : List String := distinctAfter [] texts

/-- The normal form of a list of indicators. -/
def normalize (values : List Value) : List String := distinct (values.map canonical)

/-- The normal form of a value that should be a list. -/
def ofValue (v : Value) : Except Fault (List String) := v.elementsIfAny.map normalize

def isEmpty (i : Indicators) : Bool :=
  i.processNames.isEmpty && i.processPaths.isEmpty && i.processCommands.isEmpty &&
    i.filePaths.isEmpty && i.remoteAddresses.isEmpty

/-- Every list with its name. -/
def fields (i : Indicators) : List (String × List String) := [
  ("process_names", i.processNames), ("process_paths", i.processPaths),
  ("process_cmdlines", i.processCommands), ("file_paths", i.filePaths),
  ("remote_ips", i.remoteAddresses)]

/-- The lists as a value. -/
def toValue (i : Indicators) : Value :=
  .object (i.fields.map fun (k, texts) => (k, .list (texts.map .text)))

end Indicators

namespace IndicatorSource

/-- Every list with its name. -/
def fields (i : IndicatorSource) : List (String × Value) := [
  ("process_names", i.processNames), ("process_paths", i.processPaths),
  ("process_cmdlines", i.processCommands), ("file_paths", i.filePaths),
  ("remote_ips", i.remoteAddresses)]

/-- Takes the lists from an object; what it does not know is left out. -/
def ofFields (given : List (String × Value)) : IndicatorSource :=
  let field (name : String) := (OrderedMap.get? given name).getD (.list [])
  { processNames := field "process_names"
    processPaths := field "process_paths"
    processCommands := field "process_cmdlines"
    filePaths := field "file_paths"
    remoteAddresses := field "remote_ips" }

def isEmpty (i : IndicatorSource) : Bool := i.fields.all fun (_, v) => v.isEmpty

/-- All lists in normal form. -/
def normalized (i : IndicatorSource) : Except Fault Indicators := do
  return {
    processNames := ← Indicators.ofValue i.processNames
    processPaths := ← Indicators.ofValue i.processPaths
    processCommands := ← Indicators.ofValue i.processCommands
    filePaths := ← Indicators.ofValue i.filePaths
    remoteAddresses := ← Indicators.ofValue i.remoteAddresses }

/-- The indicators in a value read from a file. -/
def ofValue : Value → Except Fault Indicators
  | .object given => (ofFields given).normalized
  | _ => .error (.configuration .indicatorsNotObject)

end IndicatorSource

/-- Lists in normal form as a source. -/
def Indicators.toSource (i : Indicators) : IndicatorSource :=
  let list (texts : List String) : Value := .list (texts.map .text)
  { processNames := list i.processNames
    processPaths := list i.processPaths
    processCommands := list i.processCommands
    filePaths := list i.filePaths
    remoteAddresses := list i.remoteAddresses }

end HostWatch
