import HostWatch.Fault
import HostWatch.Files.Location
import HostWatch.OrderedMap
import HostWatch.Value.Display
import HostWatch.Value.Key

/-!
# The observed machine

What the system answers when it is asked about itself. Each reading may be a fault, and what it
holds may be of any shape until it is put to use.
-/

namespace HostWatch

/-- Use of memory. -/
structure MemoryReading where
  percent : Value
  used : Value
  total : Value
  deriving Repr

/-- Bytes through the network since the machine started. -/
structure NetworkReading where
  received : Value
  sent : Value
  deriving Repr

/-- Use of a disk. -/
structure DiskReading where
  percent : Value
  free : Value
  deriving Repr

/-- Bytes read from and written to all disks since the machine started. -/
structure TransferReading where
  read : Value
  written : Value
  deriving Repr

/-- A process. What is not known of it is empty; the id may not be listed at all. -/
structure ProcessReading where
  pid : Option Value := none
  parent : Value := .null
  name : Value := .null
  executable : Value := .null
  command : Value := .null
  user : Value := .null
  created : Value := .null
  deriving Repr

/-- An entry of the process list; one that ended or is protected cannot be looked at. -/
inductive ProcessEntry where
  | readable (p : ProcessReading)
  | unreadable
  deriving Repr

/-- An end of a connection. -/
structure Endpoint where
  address : Value := .text ""
  port : Value := .int 0
  deriving Repr

structure ConnectionReading where
  pid : Value
  near? : Option Endpoint
  far? : Option Endpoint
  status : Value
  deriving Repr

/-- The answer to the question for scheduled tasks. -/
inductive TaskQuery where
  | output (text : String) (succeeded : Bool)
  | failed
  deriving DecidableEq, Repr

/-- A value in the registry, unless it cannot be read. -/
abbrev RegistryValue := Option (String × Value)

structure Machine where
  cores : Except Fault Value := .ok (.list [.double 10, .double 20])
  memory : Except Fault MemoryReading := .ok ⟨.double 50, .int 1024, .int 2048⟩
  swap : Except Fault MemoryReading := .ok ⟨.double 0, .int 0, .int 0⟩
  /-- What went through the network, if there is an interface. -/
  network : Except Fault (Option NetworkReading) := .ok (some ⟨.int 0, .int 0⟩)
  processes : Except Fault (List ProcessEntry) := .ok []
  connections : Except Fault (List ConnectionReading) := .ok []
  /-- The disks by the path they are asked for under. -/
  disks : Except Fault (OrderedMap String (Except Fault DiskReading)) :=
    .ok [("/", .ok ⟨.double 1, .int 1⟩)]
  /-- What all disks have transferred, if the machine counts it. -/
  transfers : Except Fault (Option TransferReading) := .ok none
  platform : String := "linux"
  /-- The values of each key of the registry that can be opened. -/
  registry : OrderedMap String (List RegistryValue) := []
  tasks : TaskQuery := .output "" true
  environment : OrderedMap String String := []
  /-- The home directory of the user, where the environment names none. -/
  home : String := "/root"

instance : Inhabited Machine := ⟨{}⟩

namespace Machine

/-- The use of the disk at a path. -/
def disk (m : Machine) (path : Value) : Except Fault DiskReading := do
  let disks ← m.disks
  let missing : Fault := .external (.system .other) ("no such path: " ++ path.display)
  match ← path.toKey with
  | ⟨.text name⟩ => (OrderedMap.get? disks name).getD (.error missing)
  | _ => throw missing

/-- The home directory. A path of nothing but slashes, or of nothing at all, is the root. -/
def homeDirectory (m : Machine) : Except Fault Location :=
  let path := (OrderedMap.get? m.environment "HOME").getD m.home
  if path.startsWith "~" then .error .homeUnknown
  else if path.toList.all (· == '/') then .ok (.ofRoot [])
  else .ok (.parse path)

def isWindows (m : Machine) : Bool := m.platform.startsWith "win"

end Machine

end HostWatch
