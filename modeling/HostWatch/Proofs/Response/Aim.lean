import HostWatch.Capture.Connection
import HostWatch.Indicator.Rule
import HostWatch.Proofs.Response.Kills

/-!
# Which processes are aimed at

The responder that ends processes takes every whole number in the evidence for a process id. A connection
without an owner is recorded under the id zero, and the indicator rule puts a zero where a record has no id;
neither is told from a process later on. `Alert.aimLaw` follows the ids from the records through the evidence
to the attempts: these are all on positive ids exactly if the evidence names no other.
-/

namespace HostWatch

open Host

/-! ### Attempts -/

section Attempts
variable {a : Alert} {h h' : Host}

theorem Host.Emits.unique {α : Type} {f : Event → Option α} {xs ys : List α} (hxs : Emits f h h' xs)
    (hys : Emits f h h' ys) : xs = ys :=
  List.append_cancel_left (hxs.symm.trans hys)

/-- Where every attempt succeeds there is one on each process. -/
theorem endProcesses_killed (a : Alert) (pids : List Int) (killed : ∀ n pid, h.killOutcomes.outcome n pid = .killed) :
    Emits Event.signal? h (endProcesses a pids h).1 (pids.map fun pid => (pid, .killed)) := by
  induction pids generalizing h with
  | nil => exact .refl
  | cons pid rest ih =>
    have attempt : h.signal pid = (.killed, { h with attempts := h.attempts + 1 }.record (.signalled pid .killed)) := by
      rw [signal, killed]
    have signalled : Emits Event.signal? h (h.signal pid).2 [(pid, .killed)] := by
      rw [attempt]
      exact emits_record (h := { h with attempts := h.attempts + 1 }) rfl
    have noted : Emits Event.signal? (h.signal pid).2 ((h.signal pid).2.note (.killed pid a.id a.ruleId.display)) [] :=
      emits_record_none rfl
    have later := ih (h := (h.signal pid).2.note (.killed pid a.id a.ruleId.display)) (by rw [attempt]; exact killed)
    unfold endProcesses
    rw [attempt] at signalled noted later ⊢
    exact signalled.trans (noted.trans later)

theorem kill_attempts (a : Alert) (h : Host) : ∃ signals,
    Emits Event.signal? h ((Responder.kill false).handle a h).1 signals ∧ UpToFailure (pidsIn a.evidence) signals := by
  obtain ⟨signals, emitted, served, -⟩ := answerByKilling_served false a (h.record (.handed (.kill false) a))
  have handed : Emits Event.signal? h (h.record (.handed (.kill false) a)) [] := emits_record_none rfl
  exact ⟨signals, handed.trans emitted, served rfl⟩

theorem kill_attempts_killed (a : Alert) (killed : ∀ n pid, h.killOutcomes.outcome n pid = .killed) :
    Emits Event.signal? h ((Responder.kill false).handle a h).1
      ((pidsIn a.evidence).map fun pid => (pid, .killed)) := by
  have handed : Emits Event.signal? h (h.record (.handed (.kill false) a)) [] := emits_record_none rfl
  refine handed.trans ?_
  show Emits Event.signal? _ (answerByKilling false a _).1 _
  unfold answerByKilling
  by_cases none : (pidsIn a.evidence).isEmpty
  · rw [if_pos none, List.isEmpty_iff.1 none]
    exact .refl
  · rw [if_neg none]
    exact endProcesses_killed a _ killed

end Attempts

/-! ### Ids in evidence -/

section Evidence
variable {i : Indicators} {record : Value} {a : Alert}

theorem pidsIn_of_clues {evidence : List (String × Value)} {pid : Value}
    (single : OrderedMap.get? evidence "pid" = some pid) (more : OrderedMap.get? evidence "pids" = none) :
    pidsIn evidence = (pidOf? pid).toList := by
  unfold pidsIn
  rw [single, more]
  rfl

theorem pidsIn_processAlert? (h : i.processAlert? record = some a) :
    pidsIn a.evidence = (pidOf? (record.getOr "pid" (.int 0))).toList := by
  obtain ⟨found, -, rfl⟩ := Option.map_eq_some_iff.1 h
  exact pidsIn_of_clues (by simp [OrderedMap.get?]) (by simp [OrderedMap.get?])

theorem pidsIn_connectionAlert? (h : i.connectionAlert? record = some a) :
    pidsIn a.evidence = (pidOf? (record.getOr "pid" (.int 0))).toList := by
  simp only [Indicators.connectionAlert?, Option.map_eq_some_iff] at h
  obtain ⟨found, -, rfl⟩ := h
  exact pidsIn_of_clues (by simp [OrderedMap.get?]) (by simp [OrderedMap.get?])

theorem pidsIn_indicatorAlert (h : i.processAlert? record = some a ∨ i.connectionAlert? record = some a) :
    pidsIn a.evidence = (pidOf? (record.getOr "pid" (.int 0))).toList := by
  rcases h with process | connection
  · exact pidsIn_processAlert? process
  · exact pidsIn_connectionAlert? connection

theorem pidsIn_fileAlert? (h : i.fileAlert? record = some a) : pidsIn a.evidence = [] := by
  obtain ⟨found, -, rfl⟩ := Option.map_eq_some_iff.1 h
  simp [pidsIn, OrderedMap.get?]

/-- A connection is recorded under its owner, or else under zero. -/
theorem pid_recordOf {c : ConnectionReading} {k : ConnectionKey} (key : ConnectionCapturer.key? c = some k)
    (status : Value) : (ConnectionCapturer.recordOf k status).getOr "pid" (.int 0) = c.pid.orElse (.int 0) := by
  obtain ⟨far, -, rfl⟩ := Option.map_eq_some_iff.1 key
  rfl

end Evidence

namespace Alert
variable {a : Alert}

/-- The ids that an alert brings to the responder that ends processes. -/
structure AimLaw (a : Alert) : Prop where
  attempts : ∀ h, ∃ signals, Emits Event.signal? h ((Responder.kill false).handle a h).1 signals ∧
    UpToFailure (pidsIn a.evidence) signals
  positive : (∀ h signals, Emits Event.signal? h ((Responder.kill false).handle a h).1 signals →
    ∀ s ∈ signals, 0 < s.1) ↔ ∀ pid ∈ pidsIn a.evidence, 0 < pid
  named : ∀ (i : Indicators) record, i.processAlert? record = some a ∨ i.connectionAlert? record = some a →
    pidsIn a.evidence = (pidOf? (record.getOr "pid" (.int 0))).toList
  file : ∀ (i : Indicators) record, i.fileAlert? record = some a → pidsIn a.evidence = []
  unnamed : ∀ (i : Indicators) record, i.processAlert? record = some a ∨ i.connectionAlert? record = some a →
    record.part? "pid" = none → pidsIn a.evidence = [0]
  owner : ∀ (i : Indicators) c k status, ConnectionCapturer.key? c = some k →
    i.connectionAlert? (ConnectionCapturer.recordOf k status) = some a →
    pidsIn a.evidence = if c.pid.isEmpty then [0] else (pidOf? c.pid).toList

/-- The attempts in earnest, for every alert: they go through the ids in the evidence, and are all on positive
ids exactly if these are. An alert of the indicator rule has the id of its record, or zero if there is none. -/
theorem aimLaw (a : Alert) : a.AimLaw where
  attempts := kill_attempts a
  positive := by
    constructor
    · intro positive pid hpid
      have all := kill_attempts_killed a (h := { now := .ofMicros 0 }) fun _ _ => rfl
      exact positive _ _ all (pid, .killed) (List.mem_map_of_mem hpid)
    · intro positive h signals emitted s hs
      obtain ⟨signals', emitted', served⟩ := kill_attempts a h
      obtain rfl := emitted.unique emitted'
      exact positive s.1 (served.mem s hs)
  named := fun _ _ => pidsIn_indicatorAlert
  file := fun _ _ => pidsIn_fileAlert?
  unnamed := by
    intro i record raised none
    rw [pidsIn_indicatorAlert raised, Value.getOr, none]
    rfl
  owner := by
    intro i c k status key raised
    rw [pidsIn_connectionAlert? raised, pid_recordOf key, Value.orElse]
    split
    · rfl
    · rfl

/-- A connection whose owner is not known. -/
def ownerless : ConnectionReading where
  pid := .null
  near? := none
  far? := some ⟨.text "203.0.113.7", .int 443⟩
  status := .text "ESTABLISHED"

/-- A connection without an owner leads to an attempt on the process zero. -/
theorem not_forall_positive : ¬ ∀ (i : Indicators) (c : ConnectionReading) k status a,
    ConnectionCapturer.key? c = some k → i.connectionAlert? (ConnectionCapturer.recordOf k status) = some a →
    ∀ h signals, Emits Event.signal? h ((Responder.kill false).handle a h).1 signals → ∀ s ∈ signals, 0 < s.1 := by
  intro positive
  have raised : ∃ a, Indicators.connectionAlert? { remoteAddresses := ["203.0.113.7"] }
      (ConnectionCapturer.recordOf ⟨.int 0, {}, ⟨.text "203.0.113.7", .int 443⟩⟩ ownerless.status) = some a :=
    ⟨_, by rfl⟩
  obtain ⟨a, raised⟩ := raised
  have key : ConnectionCapturer.key? ownerless = some ⟨.int 0, {}, ⟨.text "203.0.113.7", .int 443⟩⟩ := rfl
  have aim : pidsIn a.evidence = [0] := by
    rw [pidsIn_connectionAlert? raised, pid_recordOf key]
    rfl
  have attempts := kill_attempts_killed a (h := { now := .ofMicros 0 }) fun _ _ => rfl
  rw [aim] at attempts
  exact absurd (positive _ _ _ _ a key raised _ _ attempts (0, .killed) (by simp)) (by decide)

end Alert

end HostWatch
