import HostWatch.Capture.Basic

/-!
# Network throughput

Rates are taken between the last two captures. A machine without interfaces has no counters; that is
captured too, and noticed only when the counters are asked for.
-/

namespace HostWatch

/-- The counters of the last two captures, each with its time. -/
structure NetworkCapturer where
  previous : Option (Number × Option NetworkReading) := none
  current : Option (Number × Option NetworkReading) := none
  deriving Repr

namespace NetworkCapturer

/-- The last capture becomes the one before, also if there is nothing to take its place. -/
def capture (m : Machine) (clock : Number) (c : NetworkCapturer) :
    NetworkCapturer × Option Fault :=
  match m.network with
  | .error f => ({ c with previous := c.current }, some f)
  | .ok reading => ({ previous := c.current, current := some (clock, reading) }, none)

def isWarm (c : NetworkCapturer) : Bool := c.previous.isSome

/-- The counters of a capture. -/
def counters : Option NetworkReading → Except Fault NetworkReading :=
  Fault.ofOption (.missingPart Value.null.kindName "bytes_recv")

def info (c : NetworkCapturer) : Except Fault Snapshot :=
  match c.current with
  | none => .ok (.beforeCapture "NET")
  | some (t₁, r₁) => do
    let r₁ ← counters r₁
    let totals := [("net.rx_bytes_total", ← r₁.received.toDouble),
      ("net.tx_bytes_total", ← r₁.sent.toDouble)]
    match c.previous with
    | none =>
      return {
        summary := "NETSnapshot(warming up)"
        metrics := totals
        metadata := some { capturer := "NET" } }
    | some (t₀, r₀) =>
      let seconds ← Capture.elapsed t₀ t₁
      let r₀ ← counters r₀
      let rx ← Capture.rate r₀.received r₁.received seconds
      let tx ← Capture.rate r₀.sent r₁.sent seconds
      return {
        summary := "NETSnapshot(rx=" ++ Binary64.displayFixed 0 rx ++ "B/s, tx=" ++
          Binary64.displayFixed 0 tx ++ "B/s)"
        metrics := totals ++ [("net.rx_bytes_per_sec", rx), ("net.tx_bytes_per_sec", tx)]
        metadata := some { capturer := "NET" } }

end NetworkCapturer

end HostWatch
