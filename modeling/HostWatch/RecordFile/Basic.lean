import HostWatch.Files.Location
import HostWatch.Value.Reading

/-!
# Record files

A `RecordFile` holds one record per line. Once it has reached its largest size it is put aside
under a name with the time, and an empty one takes its place.
-/

namespace HostWatch

structure RecordFile where
  location : Location
  /-- The size in bytes from which the file is put aside. -/
  maxBytes : Number
  /-- Where the open file is kept. -/
  slot : Nat
  deriving DecidableEq, Repr

namespace RecordFile

def defaultMaxBytes : Number := 5242880

/-- A record file at a path. A limit that is not positive stands for the default. -/
def ofPath (path maxBytes : Value) (slot : Nat) : Except Fault RecordFile := do
  let path ← path.toPath
  let limit ← maxBytes.comparable ">"
  return {
    location := Location.parse path
    maxBytes := if limit.isPositive then limit else defaultMaxBytes
    slot }

end RecordFile

end HostWatch
