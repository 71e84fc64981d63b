import HostWatch.Capture.Basic

/-!
# New connections

A connection is told by its process and its two ends. It is new if the capture before did not know
it. The first capture only learns what is there.
-/

namespace HostWatch

/-- What tells a connection from others. -/
structure ConnectionKey where
  pid : Value
  near : Endpoint
  far : Endpoint
  deriving Repr

namespace ConnectionKey

/-- The parts that are compared. -/
def parts (k : ConnectionKey) : List Value :=
  [k.pid, k.near.address, k.near.port, k.far.address, k.far.port]

/-- Whether two keys tell the same connection. -/
def same (a b : ConnectionKey) : Bool := Value.sameItems a.parts b.parts

/-- Whether a key is among others. -/
def isAmong (k : ConnectionKey) (others : List ConnectionKey) : Bool := others.any k.same

end ConnectionKey

structure ConnectionCapturer where
  /-- The kind of connections that are asked for. -/
  kind : Value := .text "inet"
  /-- The most new connections that a snapshot shows. -/
  maxNew : Value := .int 200
  known : Option (List ConnectionKey) := none
  count : Nat := 0
  fresh : List (ConnectionKey × Value) := []
  freshTotal : Nat := 0
  isWarm : Bool := false
  deriving Repr

namespace ConnectionCapturer

/-- Asks for a kind of connections, or for the usual one. -/
def ofKind (kind : Value) (maxNew : Value := .int 200) : ConnectionCapturer where
  kind := kind.orElse (.text "inet")
  maxNew

/-- The key of a connection with a remote end; an unknown process counts as zero. -/
def key? (c : ConnectionReading) : Option ConnectionKey :=
  c.far?.map fun far => ⟨c.pid.orElse (.int 0), c.near?.getD {}, far⟩

/-- The connections with a remote end, each with its status. -/
def remoteOnes (connections : List ConnectionReading) :
    Except Fault (List (ConnectionKey × Value)) :=
  (connections.filterMap fun c => (key? c).map fun k => (k, c.status)).mapM fun (k, status) => do
    let _ ← k.parts.mapM Value.toKey
    return (k, status)

/-- The distinct keys. -/
def distinctKeys (connections : List (ConnectionKey × Value)) : List ConnectionKey :=
  connections.foldl (fun keys (k, _) => if k.isAmong keys then keys else keys ++ [k]) []

/-- The new connections are kept last; if their number cannot be limited, those of the capture
before stay. -/
def capture (m : Machine) (c : ConnectionCapturer) : ConnectionCapturer × Option Fault :=
  match m.connections.bind remoteOnes with
  | .error f => (c, some f)
  | .ok current =>
    let found :=
      match c.known with
      | none => []
      | some known => current.filter fun (k, _) => !k.isAmong known
    let warm := c.known.isSome
    let keys := distinctKeys current
    let c := { c with
      known := some keys
      count := keys.length
      freshTotal := found.length
      isWarm := warm }
    if warm then
      match Capture.upTo c.maxNew found with
      | .ok fresh => ({ c with fresh }, none)
      | .error f => (c, some f)
    else ({ c with fresh := [] }, none)

/-- The record of a new connection. -/
def recordOf (k : ConnectionKey) (status : Value) : Value := .object [
  ("pid", k.pid), ("local_ip", k.near.address), ("local_port", k.near.port),
  ("remote_ip", k.far.address), ("remote_port", k.far.port), ("status", status)]

def info (c : ConnectionCapturer) : Snapshot :=
  if c.known.isNone then .beforeCapture "CONN"
  else {
    summary := "CONNSnapshot(remote=" ++ toString c.count ++ ", new=" ++
      toString c.freshTotal ++ ")"
    metrics := [("conn.count", Binary64.ofInt c.count), ("conn.new", Binary64.ofInt c.freshTotal)]
    fields := some [("conn.new", .list (c.fresh.map fun (k, status) => recordOf k status))]
    metadata := some { capturer := "CONN" } }

end ConnectionCapturer

end HostWatch
