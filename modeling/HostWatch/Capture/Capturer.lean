import HostWatch.Capture.Connection
import HostWatch.Capture.Cpu
import HostWatch.Capture.Disk
import HostWatch.Capture.FileWatch
import HostWatch.Capture.Memory
import HostWatch.Capture.Network
import HostWatch.Capture.Persistence
import HostWatch.Capture.Process
import HostWatch.Settings.Basic
import HostWatch.Text.Case

/-!
# Capturers

A `Capturer` takes snapshots of one source: one of the library's own, or one of the surrounding
program, of which only its answers are known.
-/

namespace HostWatch

/-- What a source of the surrounding program gives at one capture. -/
inductive ProbeAnswer where
  | snapshot (s : Snapshot)
  | captureFault (fault : Fault)
  | infoFault (fault : Fault)

/-- What a source of the surrounding program says in more words. -/
structure ProbeWords where
  /-- What it says of the `n`-th capture, from zero. -/
  said : Nat → Except Fault String

namespace ProbeWords

/-- The same words of every capture. -/
def ok (s : String) : ProbeWords := ⟨fun _ => .ok s⟩

/-- The same fault at every capture. -/
def error (f : Fault) : ProbeWords := ⟨fun _ => .error f⟩

end ProbeWords

/-- A source of the surrounding program. Its answers depend on the number of captures. -/
structure Probe where
  name : String
  answer : Nat → ProbeAnswer
  /-- Whether it has seen enough to compare, if it knows. -/
  warm : Option (Nat → Except Fault Bool) := none
  verbose : Option ProbeWords := none
  /-- The number of captures so far. -/
  captures : Nat := 0

inductive Capturer where
  | cpu (c : CpuCapturer)
  | memory (c : MemoryCapturer)
  | network (c : NetworkCapturer)
  | process (c : ProcessCapturer)
  | connection (c : ConnectionCapturer)
  | disk (c : DiskCapturer)
  | persistence (c : PersistenceCapturer)
  | fileWatch (c : FileWatchCapturer)
  | probe (p : Probe)

namespace Capturer

def name : Capturer → String
  | cpu _ => "CPU"
  | memory _ => "MEM"
  | network _ => "NET"
  | process _ => "PROC"
  | connection _ => "CONN"
  | disk _ => "DISK"
  | persistence _ => "PERSIST"
  | fileWatch _ => "FILE"
  | probe p => p.name

/-- The seconds between two captures where nothing is set, by the name of the source. -/
def defaultInterval (name : String) : Number :=
  let known : List (String × Float) := [("CPU", 1), ("NET", 5), ("CONN", 5), ("PROC", 5),
    ("MEM", 5), ("FILE", 15), ("DISK", 30), ("PERSIST", 600)]
  .double ((OrderedMap.get? known (Text.upper name)).getD 5)

/-- Takes one capture at the time `clock`. -/
def capture (m : Machine) (f : Files) (clock : Number) : Capturer → Capturer × Option Fault
  | cpu c => let (c, e) := c.capture m; (cpu c, e)
  | memory c => let (c, e) := c.capture m; (memory c, e)
  | network c => let (c, e) := c.capture m clock; (network c, e)
  | process c => let (c, e) := c.capture m; (process c, e)
  | connection c => let (c, e) := c.capture m; (connection c, e)
  | disk c => let (c, e) := c.capture m clock; (disk c, e)
  | persistence c => let (c, e) := c.capture m f; (persistence c, e)
  | fileWatch c => let (c, e) := c.capture f; (fileWatch c, e)
  | probe p =>
    let fault :=
      match p.answer p.captures with
      | .captureFault e => some e
      | _ => none
    (probe { p with captures := p.captures + 1 }, fault)

/-- The snapshot of the last capture. -/
def info : Capturer → Except Fault Snapshot
  | cpu c => .ok c.info
  | memory c => c.info
  | network c => c.info
  | process c => .ok c.info
  | connection c => .ok c.info
  | disk c => c.info
  | persistence c => .ok c.info
  | fileWatch c => .ok c.info
  | probe p =>
    match p.answer (p.captures - 1) with
    | .snapshot s => .ok s
    | .captureFault e | .infoFault e => .error e

/-- Whether a source has seen enough to compare, where that is a question. -/
def isWarm? : Capturer → Option (Except Fault Bool)
  | cpu _ | memory _ | disk _ => none
  | network c => some (.ok c.isWarm)
  | process c => some (.ok c.isWarm)
  | connection c => some (.ok c.isWarm)
  | persistence c => some (.ok c.isWarm)
  | fileWatch c => some (.ok c.isWarm)
  | probe p => p.warm.map fun warm => warm (p.captures - 1)

/-- What a source says in more words, if it does. -/
def verbose? : Capturer → Option (Except Fault String)
  | cpu c => some (.ok c.verbose)
  | probe p => p.verbose.map fun words => words.said (p.captures - 1)
  | _ => none

/-- A capturer of the processor's load. It asks for the load once before the first capture. -/
def newCpu (m : Machine) : Except Fault Capturer :=
  match m.cores with
  | .ok _ => .ok (cpu {})
  | .error f => .error f

/-- A capturer, unless the setting that asks for it is empty. -/
def ifWanted (setting : Value) (c : Except Fault Capturer) : Except Fault (List Capturer) :=
  if setting.isEmpty then .ok [] else c.map ([·])

/-- The capturers that the settings ask for; `folders` are those watched for persistence. -/
def ofSettings (s : Settings) (m : Machine) (folders : Except Fault (List String)) :
    Except Fault (List Capturer) := do
  let wanted ← [
    ifWanted s.cpuEnabled (newCpu m),
    ifWanted s.memoryEnabled (.ok (memory {})),
    ifWanted s.networkEnabled (.ok (network {})),
    ifWanted s.processesEnabled (.ok (process {})),
    ifWanted s.connectionsEnabled (.ok (connection (.ofKind s.connectionKind))),
    ifWanted s.disksEnabled ((DiskCapturer.ofPaths s.diskPaths).map disk),
    ifWanted s.persistenceEnabled (folders.map fun folders => persistence { folders }),
    ifWanted s.fileWatchEnabled
      ((FileWatchCapturer.ofPaths m s.fileWatchPaths s.fileWatchMaxFiles).map fileWatch)
    ].mapM id
  if wanted.flatten.isEmpty then throw (.configuration .noCapturers)
  return wanted.flatten

end Capturer

end HostWatch
