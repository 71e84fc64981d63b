import HostWatch.Files.Description
import HostWatch.Host
import HostWatch.Machine.Description

/-!
# Descriptions of hosts

One object describes all that a program finds: the machine, the user, the time, and files.
-/

namespace HostWatch

/-- The facts in a description. -/
def Facts.ofValue (v : Value) : Facts :=
  let usual : Facts := {}
  { hostName := ((v.part? "host").map Value.toText).getD usual.hostName
    user := (v.get "user").toText?
    timezone := ((v.part? "timezone").map Value.toText).getD usual.timezone
    os := ((v.part? "os").map Value.toText).getD usual.os
    architecture := ((v.part? "arch").map Value.toText).getD usual.architecture }

/-- The host in a description, with further files. A reading that is a fault is worded by its text.
-/
def Host.ofValue (home : String) (f : Files) (v : Value) : Host where
  files := f.describedBy v
  machine := Machine.ofValue (fun e => .external .general e.toText) home v
  facts := Facts.ofValue v
  clock := (v.get "clock").toNumber
  now := (v.get "now").toMoment?.getD (Timestamp.ofMicros 0)

end HostWatch
