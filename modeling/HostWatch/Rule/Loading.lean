import HostWatch.Files.Stored
import HostWatch.Rule.Definition

/-!
# Files of rule definitions
-/

namespace HostWatch.RuleDefinition

/-- The definitions in the file at a path. -/
def load (f : Files) (path : String) : Except Fault (List RuleDefinition) :=
  match f.readJson path with
  | .error .nesting => .error .tooDeep
  | .error cause => .error (.rule (.unreadable path cause))
  | .ok v => ofValue path v

end HostWatch.RuleDefinition
