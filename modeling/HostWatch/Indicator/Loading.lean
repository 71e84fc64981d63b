import HostWatch.Files.Stored
import HostWatch.Indicator.Basic

/-!
# Files of indicators
-/

namespace HostWatch.Indicators

/-- The indicators in the file at a path, in normal form. -/
def load (f : Files) (path : String) : Except Fault Indicators :=
  if path = "" then .error (.configuration .indicatorPathEmpty)
  else
    match f.readJson path with
    | .error .nesting => .error .tooDeep
    | .error (.file .nulInPath name) =>
      .error (.configuration (.indicatorsMalformed (.file .nulInPath name)))
    | .error (.file p name) => .error (.configuration (.indicatorsUnreadable (.file p name)))
    | .error cause => .error (.configuration (.indicatorsMalformed cause))
    | .ok v => IndicatorSource.ofValue v

end HostWatch.Indicators
