import HostWatch.Files.Basic
import HostWatch.Json.Reader

/-!
# Stored values

Reading a JSON file: it may be missing, hold no UTF-8, or hold no JSON that can be read.
-/

namespace HostWatch.Files

/-- The value in the file at a path. -/
def readJson (f : Files) (path : String) : Except Cause Value :=
  let l := Location.parse path
  match f.read l with
  | .error p => .error (.file p l.display)
  | .ok content =>
    match content.text? with
    | none => .error .encoding
    | some s =>
      match Json.parse s with
      | .ok v => .ok v
      | .error .malformed => .error .json
      | .error .tooDeep => .error .nesting

end HostWatch.Files
