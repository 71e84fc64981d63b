import HostWatch.Value.Access

/-!
# Metadata

What is known about where and when a snapshot was taken. `Metadata.merge` fills the gaps of one
record from another. `Metadata.toFields` is the written form, `Metadata.ofValue` reads it.
-/

namespace HostWatch

structure Metadata where
  host : String := ""
  agentVersion : String := ""
  agentBuild : String := ""
  session : String := ""
  timezone : String := ""
  capturedAt : Option Timestamp := none
  os : String := ""
  arch : String := ""
  capturer : String := ""
  /-- Seconds between two captures. -/
  interval : Value := .double 0
  maxFiles : Value := .int 0
  deriving Repr

instance : Inhabited Metadata := ⟨{}⟩

/-- The first text, unless it is empty. -/
def firstText (own base : String) : String := if own = "" then base else own

namespace Metadata

/-- Field by field the own content where there is some, that of the base otherwise. -/
def merge (own base : Metadata) : Metadata where
  host := firstText own.host base.host
  agentVersion := firstText own.agentVersion base.agentVersion
  agentBuild := firstText own.agentBuild base.agentBuild
  session := firstText own.session base.session
  timezone := firstText own.timezone base.timezone
  capturedAt := own.capturedAt <|> base.capturedAt
  os := firstText own.os base.os
  arch := firstText own.arch base.arch
  capturer := firstText own.capturer base.capturer
  interval := own.interval.orElse base.interval
  maxFiles := own.maxFiles.orElse base.maxFiles

/-- Every field with the name it is written under. -/
def fields (m : Metadata) : List (String × Value) := [
  ("host", .text m.host),
  ("agent_version", .text m.agentVersion),
  ("agent_build", .text m.agentBuild),
  ("session", .text m.session),
  ("timezone", .text m.timezone),
  ("captured_at", (m.capturedAt.map fun t => .text t.iso).getD .null),
  ("os", .text m.os),
  ("arch", .text m.arch),
  ("capturer", .text m.capturer),
  ("interval_sec", m.interval),
  ("max_files", m.maxFiles)]

/-- The fields that are not empty. -/
def toFields (m : Metadata) : List (String × Value) :=
  m.fields.filter fun (_, v) => !v.isEmpty

/-- The name of the first field that is empty. -/
def firstEmpty? (m : Metadata) : Option String :=
  (m.fields.find? fun (_, v) => v.isEmpty).map Prod.fst

/-- Reads metadata from its written form; what is missing there stays empty. -/
def ofValue (v : Value) : Metadata where
  host := v.textAt "host"
  agentVersion := v.textAt "agent_version"
  agentBuild := v.textAt "agent_build"
  session := v.textAt "session"
  timezone := v.textAt "timezone"
  capturedAt := (v.get "captured_at").toMoment?
  os := v.textAt "os"
  arch := v.textAt "arch"
  capturer := v.textAt "capturer"
  interval := v.getOr "interval_sec" (.double 0)
  maxFiles := v.getOr "max_files" (.int 0)

end Metadata

end HostWatch
