import HostWatch.Capture.Basic

/-!
# Disks

Use of each disk, and the rates of all transfers together between the last two captures.
-/

namespace HostWatch

structure DiskCapturer where
  paths : List Value := [.text "/"]
  /-- The use of each disk at the last capture. -/
  usage : OrderedMap String DiskReading := []
  previous : Option (Number × TransferReading) := none
  current : Option (Number × TransferReading) := none
  deriving Repr

namespace DiskCapturer

/-- Watches the given paths, or the root if there are none. -/
def ofPaths (paths : Value) : Except Fault DiskCapturer := do
  return { paths := ← (paths.orElse (.list [.text "/"])).elements }

/-- Asks for the use of each disk in turn. -/
def survey (m : Machine) : List Value → OrderedMap String DiskReading →
    Except Fault (OrderedMap String DiskReading)
  | [], usage => .ok usage
  | path :: rest, usage =>
    match m.disk path with
    | .error f => .error f
    | .ok reading => survey m rest (OrderedMap.set usage path.display reading)

/-- The use of the disks is kept also if the transfers cannot be read. -/
def capture (m : Machine) (clock : Number) (c : DiskCapturer) : DiskCapturer × Option Fault :=
  match survey m c.paths [] with
  | .error f => (c, some f)
  | .ok usage =>
    match m.transfers with
    | .error f => ({ c with usage, previous := c.current }, some f)
    | .ok reading =>
      ({ c with usage, previous := c.current, current := reading.map fun r => (clock, r) }, none)

/-- The measurements of one disk, and how it is named in the summary. -/
def describe (entry : String × DiskReading) : Except Fault (List (String × Float) × String) := do
  let (path, r) := entry
  let metrics := [("disk." ++ path ++ ".used_pct", ← r.percent.toDouble),
    ("disk." ++ path ++ ".free_bytes", ← r.free.toDouble)]
  return (metrics, path ++ "=" ++ (← r.percent.toFixed 1) ++ "%")

/-- The rates of the transfers, if there are two captures to compare. -/
def transferMetrics (c : DiskCapturer) : Except Fault (List (String × Float)) :=
  match c.previous, c.current with
  | some (t₀, r₀), some (t₁, r₁) => do
    let seconds ← Capture.elapsed t₀ t₁
    return [("disk.read_bytes_per_sec", ← Capture.rate r₀.read r₁.read seconds),
      ("disk.write_bytes_per_sec", ← Capture.rate r₀.written r₁.written seconds)]
  | _, _ => .ok []

def info (c : DiskCapturer) : Except Fault Snapshot :=
  if c.usage.isEmpty then .ok (.beforeCapture "DISK")
  else do
    let disks ← c.usage.mapM describe
    let transfers ← c.transferMetrics
    return {
      summary := "DISKSnapshot(" ++ ", ".intercalate (disks.map Prod.snd) ++ ")"
      metrics := OrderedMap.ofPairs (disks.flatMap Prod.fst ++ transfers)
      metadata := some { capturer := "DISK" } }

end DiskCapturer

end HostWatch
