import HostWatch.Machine
import HostWatch.Value.Access

/-!
# Descriptions of machines

A machine can be described by an object: `Machine.observe` takes the readings from it, and a
reading that it does not hold is an ordinary one. A reading may be an object with the field
`error`; which fault that is, is told by the function `fault`.
-/

namespace HostWatch

/-- A reading, or the fault that stands in its place. -/
def readingOf {α : Type} (fault : Value → Fault) (read : Value → α) (v : Value) : Except Fault α :=
  match v.part? "error" with
  | some e => .error (fault e)
  | none => .ok (read v)

/-- The reading under a name in a description, or the ordinary one if it is not there. -/
def readingAt {α : Type} (fault : Value → Fault) (v : Value) (name : String)
    (ordinary : Except Fault α) (read : Value → α) : Except Fault α :=
  match v.part? name with
  | some x => readingOf fault read x
  | none => ordinary

def MemoryReading.ofValue (v : Value) : MemoryReading :=
  ⟨v.getOr "percent" (.double 0), v.getOr "used" (.int 0), v.getOr "total" (.int 0)⟩

def NetworkReading.ofValue (v : Value) : NetworkReading :=
  ⟨v.getOr "bytes_recv" (.int 0), v.getOr "bytes_sent" (.int 0)⟩

def DiskReading.ofValue (v : Value) : DiskReading :=
  ⟨v.getOr "percent" (.double 0), v.getOr "free" (.int 0)⟩

def TransferReading.ofValue (v : Value) : TransferReading :=
  ⟨v.getOr "read_bytes" (.int 0), v.getOr "write_bytes" (.int 0)⟩

def ProcessEntry.ofValue (v : Value) : ProcessEntry :=
  if (v.get "gone").toBool || (v.get "denied").toBool then .unreadable
  else .readable {
    pid := v.part? "pid"
    parent := v.get "ppid"
    name := v.get "name"
    executable := v.get "exe"
    command := v.get "cmdline"
    user := v.get "username"
    created := v.get "create_time" }

def Endpoint.ofValue? : Value → Option Endpoint
  | .list [address, port] => some ⟨address, port⟩
  | _ => none

def ConnectionReading.ofValue (v : Value) : ConnectionReading where
  pid := v.get "pid"
  near? := Endpoint.ofValue? (v.get "laddr")
  far? := Endpoint.ofValue? (v.get "raddr")
  status := v.getOr "status" (.text "")

def TaskQuery.ofValue (v : Value) : TaskQuery :=
  if (v.part? "fail").isSome then .failed
  else .output (v.textAt "stdout") ((v.getOr "returncode" (.int 0)).toNumber?.any Number.isZero)

def RegistryValue.ofValue : Value → RegistryValue
  | .list [name, data] => some (name.display, data)
  | _ => none

namespace Machine

/-- The machine with all its readings taken from a description. -/
def observe (fault : Value → Fault) (m : Machine) (v : Value) : Machine :=
  let usual : Machine := {}
  { m with
    cores := readingAt fault v "cpu" usual.cores id
    memory := readingAt fault v "vm" usual.memory MemoryReading.ofValue
    swap := readingAt fault v "swap" usual.swap MemoryReading.ofValue
    network := readingAt fault v "net" usual.network fun x =>
      match x with
      | .null => none
      | x => some (.ofValue x)
    processes := readingAt fault v "procs" usual.processes fun x => x.items.map ProcessEntry.ofValue
    connections := readingAt fault v "conns" usual.connections fun x =>
      x.items.map ConnectionReading.ofValue
    disks := readingAt fault v "disk" usual.disks fun x =>
      x.entries.map fun (path, d) => (path, readingOf fault DiskReading.ofValue d)
    transfers := readingAt fault v "disk_io" usual.transfers fun x =>
      match x with
      | .null => none
      | x => some (.ofValue x) }

/-- The machine that a description gives: its readings, and what it keeps for programs that start by
themselves. -/
def ofValue (fault : Value → Fault) (home : String) (v : Value) : Machine :=
  { observe fault { home } (v.get "readings") with
    platform := ((v.part? "platform").map Value.toText).getD "linux"
    registry := (v.get "registry").entries.map fun (k, l) => (k, l.items.map RegistryValue.ofValue)
    tasks := ((v.part? "schtasks").map TaskQuery.ofValue).getD (.output "" true)
    environment := (v.get "env").entries.map fun (k, s) => (k, s.toText) }

end Machine

end HostWatch
