import HostWatch.Response.Pipeline

/-!
# The journal is never read

What sinks, responders and the pipeline do depends on the host but not on its journal: whatever was noted before,
they do the same and give the same answers (`Unread`). Nor do they turn the clock.
-/

namespace HostWatch

/-- The host with another journal. -/
def Host.withJournal (h : Host) (j : Journal) : Host := { h with journal := j }

/-- Two outcomes at one time that differ in the journal only. -/
structure InStep {α : Type} (clock : Number) (o o' : Host × α) : Prop where
  clock : o.1.clock = clock
  same : ∃ j, o' = (o.1.withJournal j, o.2)

/-- The effects and the answer of an operation do not depend on the journal, and the clock is left alone. -/
def Unread {α : Type} (g : Host → Host × α) : Prop := ∀ h j, InStep h.clock (g h) (g (h.withJournal j))

section Unread
variable {α β : Type} {clock : Number} {o o' : Host × α}

theorem inStep_rfl {h : Host} (a : α) (j : Journal) : InStep h.clock (h, a) (h.withJournal j, a) := ⟨rfl, j, rfl⟩

/-- What is done next is done in step. -/
theorem InStep.bind {k : α → Host → Host × β} (s : InStep clock o o') (hk : ∀ a, Unread (k a)) :
    InStep clock (k o.2 o.1) (k o'.2 o'.1) := by
  obtain ⟨rfl, j, rfl⟩ := s
  exact hk o.2 o.1 j

theorem InStep.map (s : InStep clock o o') (f : α → β) : InStep clock (o.1, f o.2) (o'.1, f o'.2) :=
  s.bind (k := fun a h => (h, f a)) fun a _ j => inStep_rfl (f a) j

theorem unread_foldl {step : Host → α → Host} (hstep : ∀ x, Unread fun h => (step h x, ())) (xs : List α) (b : β) :
    Unread fun h => (xs.foldl step h, b) := by
  induction xs with
  | nil => exact fun _ j => inStep_rfl b j
  | cons x xs ih => exact fun h j => (hstep x h j).bind (k := fun _ h => (xs.foldl step h, b)) fun _ => ih

end Unread

/-! ### Record files -/

namespace RecordFile
variable (f : RecordFile)

/-- The files once the record file is open. -/
def opened (files : Files) : Except Fault Files :=
  match f.handle? files with
  | some _ => .ok files
  | none =>
    match files.makeDirectories f.location.parent with
    | .error p => .error (.file p f.location.parent.display)
    | .ok files =>
      match files.openSlot f.slot f.location with
      | .error p => .error (.file p f.location.display)
      | .ok files => .ok files

theorem ensureOpen_eq (h : Host) : f.ensureOpen h = (f.opened h.files).map fun files => { h with files } := by
  unfold ensureOpen opened
  cases f.handle? h.files with
  | some id => rfl
  | none =>
    cases h.files.makeDirectories f.location.parent with
    | error p => rfl
    | ok files =>
      dsimp only
      cases files.openSlot f.slot f.location <;> rfl

theorem unread_rotate : Unread f.rotate := by
  intro h j
  -- The reading of the clock in seconds since 1970 is all that is asked of the host but its files.
  obtain ⟨seconds, later, hclock⟩ : ∃ seconds later, ∀ files j,
      ({ h with files, journal := j } : Host).wallClock =
        (seconds, { h with files, journal := j, upcoming := later }) := by
    unfold Host.wallClock
    rcases h.upcoming with _ | ⟨t, rest⟩
    · exact ⟨.double h.now.seconds, [], fun _ _ => rfl⟩
    · exact ⟨t, rest, fun _ _ => rfl⟩
  have here := hclock (h.files.closeSlot f.slot) h.journal
  have there := hclock (h.files.closeSlot f.slot) j
  unfold rotate
  simp only [Host.withJournal, here, there, ensureOpen_eq, Host.note, Host.record]
  cases milliseconds seconds with
  | error e => exact ⟨rfl, j, rfl⟩
  | ok ms =>
    dsimp only
    cases (h.files.closeSlot f.slot).rename f.location (Location.parse (f.rotatedName ms)) with
    | error p => exact ⟨rfl, j, rfl⟩
    | ok files =>
      dsimp only
      cases f.opened files with
      | error e => exact ⟨rfl, _, rfl⟩
      | ok files => exact ⟨rfl, _, rfl⟩

theorem unread_appendLine (s : String) : Unread (f.appendLine s) := by
  intro h j
  unfold appendLine
  have files : (h.withJournal j).files = h.files := rfl
  rw [files]
  cases f.handle? h.files with
  | none => exact inStep_rfl none j
  | some id =>
    dsimp only
    by_cases full : f.maxBytes ≤ .int ((h.files.append id s).body id).content.size
    · rw [if_pos full, if_pos full]
      exact f.unread_rotate { h with files := h.files.append id s } j
    · rw [if_neg full, if_neg full]
      exact ⟨rfl, j, rfl⟩

theorem unread_write (record : Value) : Unread (f.write record) := by
  intro h j
  unfold write
  cases line record with
  | error obstacle => exact inStep_rfl (some (Fault.unwritable obstacle)) j
  | ok s =>
    dsimp only
    rw [ensureOpen_eq, ensureOpen_eq]
    have files : (h.withJournal j).files = h.files := rfl
    rw [files]
    cases f.opened h.files with
    | error e => exact inStep_rfl (some e) j
    | ok files => exact f.unread_appendLine (s ++ "\n") { h with files } j

end RecordFile

/-! ### Responders and sinks -/

theorem unread_endProcesses (a : Alert) (pids : List Int) : Unread (endProcesses a pids) := by
  induction pids with
  | nil => exact fun h j => inStep_rfl none j
  | cons pid rest ih =>
    intro h j
    unfold endProcesses
    simp only [Host.signal, Host.withJournal, Host.record]
    cases h.killOutcomes.outcome h.attempts pid with
    | killed =>
      exact ih (({ h with attempts := h.attempts + 1 }.record (.signalled pid .killed)).note
        (.killed pid a.id a.ruleId.display)) _
    | gone => exact ⟨rfl, _, rfl⟩
    | denied => exact ⟨rfl, _, rfl⟩
    | failed fault => exact ⟨rfl, _, rfl⟩

theorem unread_answerByKilling (dryRun : Bool) (a : Alert) : Unread (answerByKilling dryRun a) := by
  intro h j
  unfold answerByKilling
  dsimp only
  split
  · exact inStep_rfl _ j
  · split
    · have note (pid : Int) : Unread fun h => (h.note (.killSkipped pid a.id a.ruleId.display), ()) :=
        fun _ _ => ⟨rfl, _, rfl⟩
      exact unread_foldl note (pidsIn a.evidence) none h j
    · exact unread_endProcesses a _ h j

theorem unread_act (r : Responder) (a : Alert) : Unread (r.act a) := by
  induction r with
  | external party => exact fun h j => ⟨rfl, j, rfl⟩
  | log attached =>
    intro h j
    cases attached with
    | false => exact inStep_rfl _ j
    | true =>
      unfold Responder.act
      cases a.toValue with
      | error f => exact inStep_rfl _ j
      | ok v =>
        dsimp only
        cases Json.render .escaped v with
        | error obstacle => exact inStep_rfl _ j
        | ok s => exact ⟨rfl, _, rfl⟩
  | file f =>
    intro h j
    unfold Responder.act
    cases a.toValue with
    | ok v => exact f.unread_write v h j
    | error fault => exact inStep_rfl _ j
  | kill dryRun => exact unread_answerByKilling dryRun a
  | restricted rules inner ih =>
    intro h j
    unfold Responder.act
    split
    · exact ih h j
    · split
      · exact inStep_rfl _ j
      · split
        · exact ih h j
        · exact inStep_rfl _ j
  | vacant => exact fun h j => inStep_rfl _ j

theorem unread_handle (r : Responder) (a : Alert) : Unread (r.handle a) :=
  fun h j => unread_act r a (h.record (.handed r a)) (.handed r a :: j)

theorem unread_consume (k : Sink) (x : Snapshot) : Unread (k.consume x) := by
  intro h j
  -- The offer is recorded with its failure once the sink has answered.
  have recorded {o o' : Host × Option Fault} (s : InStep h.clock o o') :
      InStep h.clock (o.1.record (.offered k x o.2), o.2) (o'.1.record (.offered k x o'.2), o'.2) :=
    s.bind (k := fun failure h => (h.record (.offered k x failure), failure)) fun _ _ _ => ⟨rfl, _, rfl⟩
  unfold Sink.consume
  cases k with
  | external party => exact ⟨rfl, _, rfl⟩
  | file f =>
    cases x.toValue? with
    | some v => exact recorded (f.unread_write v h j)
    | none => exact ⟨rfl, _, rfl⟩

theorem unread_deliverOne (a : Alert) (responders : List Responder) : Unread (deliverOne a responders) := by
  induction responders with
  | nil => exact fun h j => inStep_rfl _ j
  | cons r rest ih =>
    intro h j
    obtain ⟨time, j₁, handled⟩ := unread_handle r a h j
    unfold deliverOne
    rw [handled, ← time]
    rcases r.handle a h with ⟨h₁, _ | failure⟩
    · exact ih h₁ j₁
    · dsimp only
      cases r.name with
      | error f => exact inStep_rfl _ j₁
      | ok name => exact (ih h₁ j₁).map fun more => more.map (.responder name failure :: ·)

theorem unread_deliver (responders : List Responder) (alerts : List Alert) : Unread (deliver responders alerts) := by
  induction alerts with
  | nil => exact fun h j => inStep_rfl _ j
  | cons a rest ih =>
    intro h j
    obtain ⟨time, j₁, one⟩ := unread_deliverOne a responders h j
    unfold deliver
    rw [one, ← time]
    rcases deliverOne a responders h with ⟨h₁, f | failures⟩
    · exact inStep_rfl _ j₁
    · exact (ih h₁ j₁).map fun more => more.map (failures ++ ·)

/-! ### The pipeline -/

theorem unread_hook (hook : DropHook) (a : Alert) : Unread fun h => (hook.run a h, ()) := by
  intro h j
  cases hook with
  | silent => exact inStep_rfl () j
  | reported => exact ⟨rfl, _, rfl⟩
  | noted => exact ⟨rfl, _, rfl⟩

section Pipeline
variable (alerts : List Alert) (h : Host) (j : Journal)

theorem screen_unread (r : Router) :
    (r.screen alerts h).2.2.clock = h.clock ∧ ∃ j', r.screen alerts (h.withJournal j) =
      ((r.screen alerts h).1, (r.screen alerts h).2.1, (r.screen alerts h).2.2.withJournal j') := by
  unfold Router.screen
  cases r.policy with
  | none => exact ⟨rfl, j, rfl⟩
  | some p =>
    have hooks := unread_foldl (unread_hook r.hook)
      (((p.decideAll h.clock alerts).made.filter fun d => !d.2).map Prod.fst) () h j
    obtain ⟨time, j', same⟩ := hooks
    have host := congrArg Prod.fst same
    exact ⟨time, j', congrArg (fun h' => (_, _, h')) host⟩

theorem run_unread (r : Router) (shared : Option (List Responder)) :
    (r.run shared alerts h).2.1.clock = h.clock ∧ ∃ j', r.run shared alerts (h.withJournal j) =
      ((r.run shared alerts h).1, (r.run shared alerts h).2.1.withJournal j', (r.run shared alerts h).2.2) := by
  obtain ⟨time, j₁, screened⟩ := screen_unread alerts h j r
  unfold Router.run
  rw [screened, ← time]
  rcases r.screen alerts h with ⟨f | ⟨_ | ⟨a, rest⟩⟩, r₁, h₁⟩
  · exact ⟨rfl, j₁, rfl⟩
  · exact ⟨rfl, j₁, rfl⟩
  · dsimp only
    cases r₁.responders? shared with
    | none => exact ⟨rfl, j₁, rfl⟩
    | some responders =>
      obtain ⟨time, j₂, delivered⟩ := unread_deliver responders (a :: rest) h₁ j₁
      dsimp only
      exact ⟨time, j₂, by rw [delivered]⟩

theorem respond_unread (p : Pipeline) :
    (p.respond alerts h).2.1.clock = h.clock ∧ ∃ j', p.respond alerts (h.withJournal j) =
      ((p.respond alerts h).1, (p.respond alerts h).2.1.withJournal j', (p.respond alerts h).2.2) := by
  unfold Pipeline.respond
  cases p.router with
  | some r =>
    obtain ⟨time, j', same⟩ := run_unread alerts h j r p.responders
    dsimp only
    exact ⟨time, j', by rw [same]⟩
  | none =>
    cases p.responders with
    | some responders =>
      obtain ⟨time, j', same⟩ := unread_deliver responders alerts h j
      dsimp only
      exact ⟨time, j', by rw [same]⟩
    | none => exact ⟨rfl, j, rfl⟩

/-- What becomes of a snapshot does not depend on what was noted before it. -/
theorem process_unread (p : Pipeline) (x : Snapshot) (metadata : Metadata) :
    (p.process x metadata h).host.clock = h.clock ∧ ∃ j', p.process x metadata (h.withJournal j) =
      { p.process x metadata h with host := (p.process x metadata h).host.withJournal j' } := by
  unfold Pipeline.process
  cases p.detector with
  | none => exact ⟨rfl, j, rfl⟩
  | some d =>
    have note (n : Notice) : Unread fun h => (h.note n, ()) := fun _ _ => ⟨rfl, _, rfl⟩
    have clock : (h.withJournal j).clock = h.clock := rfl
    have now : (h.withJournal j).now = h.now := rfl
    dsimp only
    rw [clock, now]
    generalize d.evaluate h.clock h.now x metadata true = verdict
    obtain ⟨time, j₁, same⟩ := unread_foldl note verdict.notices () h j
    have noted := congrArg Prod.fst same
    dsimp only at time noted
    rw [noted, ← time]
    generalize verdict.notices.foldl Host.note h = h₁
    cases verdict.alerts with
    | error f => exact ⟨rfl, j₁, rfl⟩
    | ok alerts =>
      dsimp only
      by_cases due : (alerts.filter fun a => !a.rateLimited).isEmpty
      · rw [if_pos due, if_pos due]
        exact ⟨rfl, j₁, rfl⟩
      · obtain ⟨time', j₂, same⟩ := respond_unread (alerts.filter fun a => !a.rateLimited) h₁ j₁
          { p with detector := some verdict.detector }
        rw [if_neg due, if_neg due, same]
        generalize Pipeline.respond _ _ h₁ = answered at time' ⊢
        obtain ⟨p₁, h₂, f | failures⟩ := answered
        · exact ⟨time', j₂, rfl⟩
        · exact ⟨time', j₂, rfl⟩

end Pipeline

end HostWatch
