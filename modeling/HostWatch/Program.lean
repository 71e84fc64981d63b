import HostWatch.Agent
import HostWatch.CommandLine
import HostWatch.Logging
import HostWatch.Settings.Store

/-!
# The program

One run of the program from its arguments to its exit code, as a function of the host.
-/

namespace HostWatch.Program

/-- What a run leaves behind. -/
structure Finished where
  code : Nat
  host : Host
  logger : Logger
  /-- What was logged before the logger was set up. -/
  early : List Notice

/-- The code of a run that ends in order. -/
def success : Nat := 0

/-- The code of a run that cannot start or go on. -/
def failure : Nat := 2

/-- What is said at the end of a run. -/
def summary (s : Scheduler) (first : Option Fault) : Scheduler :=
  let s := s.note (.retained s.history.alerts.length s.queue.length s.capacity s.drops)
  let s := s.statistics.foldl
    (fun s (name, stat) => s.note (.sinkReport name stat.succeeded stat.failed stat.last)) s
  match first with
  | some f => s.note (.errorReport s.errors.length f)
  | none => s

/-- Lets the agent work and closes it. With `order`, captures are made in that order; without it
every source is captured once. -/
def work (s : Scheduler) (order : Option (List Nat)) : Except Fault (Nat × Host) :=
  let (s, result) :=
    match order with
    | none => s.runOnce
    | some order => s.run order
  match result with
  | .error f =>
    let s := if f.isOwn then s.note (.ended f) else s
    match s.close with
    | (_, some f) => .error f
    | (s, none) => if f.isOwn then .ok (failure, s.host) else .error f
  | .ok first =>
    match s.close with
    | (_, some f) => .error f
    | (s, none) => .ok (success, (summary s first).host)

/-- Runs the program; `order` names the captures to make if they are not made once each. A fault
that the program does not name itself is given back. -/
def run (a : Arguments) (places : Settings.Places) (folders : Except Fault (List String))
    (order : List String → List Nat) (h : Host) : Except Fault Finished := do
  let (settings, files, early) ← Settings.load places a.config h.files
  let settings := if a.verbose then { settings with verbose := .bool true } else settings
  let level := (Value.text (a.logLevel.getD "")).orElse settings.logLevel
  let (logger, files) ← Logger.setUp level settings.logFile {} files
  let h := { h with files }
  match Agent.build settings folders h with
  | .error f =>
    if f.isOwn then return ⟨failure, h.note (.ended f), logger, early⟩ else throw f
  | .ok s =>
    let names := s.schedules.filterMap fun sc => sc.capturer.map Capturer.name
    let (code, h) ← work s (if a.once then none else some (order names))
    return ⟨code, h, logger, early⟩

/-- What the console shows of a run. -/
def consoleTexts (word : Cause → String) (f : Finished) : List String :=
  let early := f.early.filterMap fun n => ({} : Logger).consoleText? (n.toRecord word)
  early ++ f.host.journal.notices.filterMap fun n => f.logger.consoleText? (n.toRecord word)

/-- The files after a run, with what the log file has been given. -/
def filesWithLog (word : Cause → String) (f : Finished) : Files :=
  f.host.journal.notices.foldl
    (fun files n => f.logger.append f.host.now (n.toRecord word) files) f.host.files

end HostWatch.Program
