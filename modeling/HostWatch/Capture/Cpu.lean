import HostWatch.Capture.Basic

/-!
# Processor load
-/

namespace HostWatch

/-- The load at the last capture: of each core, and their mean. -/
structure CpuCapturer where
  cores : List Float := []
  total : Option Float := none
  deriving DecidableEq, Repr

namespace CpuCapturer

/-- The mean of a list; zero if it is empty. -/
def mean (xs : List Float) : Float :=
  if xs.isEmpty then 0 else xs.foldl (· + ·) 0 / Binary64.ofInt xs.length

def capture (m : Machine) (c : CpuCapturer) : CpuCapturer × Option Fault :=
  match m.cores.bind Value.elements |>.bind (·.mapM Value.toDouble) with
  | .error f => (c, some f)
  | .ok cores => ({ cores, total := some (mean cores) }, none)

def info (c : CpuCapturer) : Snapshot :=
  match c.total with
  | none => .beforeCapture "CPU"
  | some total => {
      summary := "CPUSnapshot(total=" ++ Binary64.displayFixed 1 total ++ "%, cores=" ++
        toString c.cores.length ++ ")"
      metrics := ("cpu.total_pct", total) :: ("cpu.count", Binary64.ofInt c.cores.length) ::
        c.cores.mapIdx fun i x => ("cpu.core" ++ toString i ++ ".pct", x)
      metadata := some { capturer := "CPU" } }

/-- One line for the mean and one for each core. -/
def verbose (c : CpuCapturer) : String :=
  match c.total with
  | none => "CPU: no sample yet"
  | some total =>
    let lines := c.cores.mapIdx fun i x =>
      "core" ++ toString i ++ ": " ++ Binary64.displayFixed 1 x ++ "%"
    "\n".intercalate (("total: " ++ Binary64.displayFixed 1 total ++ "%") :: lines)

end CpuCapturer

end HostWatch
