import HostWatch.Capture.Basic

/-!
# Memory
-/

namespace HostWatch

/-- Memory and swap space at the last capture. -/
structure MemoryCapturer where
  memory : Option MemoryReading := none
  swap : Option MemoryReading := none
  deriving Repr

namespace MemoryCapturer

/-- Memory is read first; what is known of it stays if swap space cannot be read. -/
def capture (m : Machine) (c : MemoryCapturer) : MemoryCapturer × Option Fault :=
  match m.memory with
  | .error f => (c, some f)
  | .ok memory =>
    match m.swap with
    | .error f => ({ c with memory := some memory }, some f)
    | .ok swap => ({ memory := some memory, swap := some swap }, none)

/-- The measurements of one kind of memory. -/
def metrics (name : String) (r : MemoryReading) : Except Fault (List (String × Float)) := do
  return [("mem." ++ name ++ ".used_pct", ← r.percent.toDouble),
    ("mem." ++ name ++ ".used_bytes", ← r.used.toDouble),
    ("mem." ++ name ++ ".total_bytes", ← r.total.toDouble)]

def info (c : MemoryCapturer) : Except Fault Snapshot :=
  match c.memory, c.swap with
  | none, _ => .ok (.beforeCapture "MEM")
  | some memory, none => do
    let _ ← memory.percent.toFixed 1
    throw (.missingPart Value.null.kindName "percent")
  | some memory, some swap => do
    let ramText ← memory.percent.toFixed 1
    let swapText ← swap.percent.toFixed 1
    return {
      summary := "MEMSnapshot(ram=" ++ ramText ++ "%, swap=" ++ swapText ++ "%)"
      metrics := (← metrics "ram" memory) ++ (← metrics "swap" swap)
      metadata := some { capturer := "MEM" } }

end MemoryCapturer

end HostWatch
