import HostWatch.Capture.Capturer

/-!
# Leaving out the captures that fail

Where a capture that fails leaves a state from which the next captures go on as before (`Capture.Forgives`), all
captures that fail can be left out of a run: what is seen after each of the others stays the same
(`Capture.reports_succeeded`). All sources of the library forgive, each in its way (`Capturer.forgives`), so
what they show after a capture and what they compare with is told by the captures that did not fail
(`Capturer.failures_invisible`).
-/

namespace HostWatch

namespace Capture

variable {σ υ τ ρ : Type}

/-! ### Runs with failures -/

section
variable (capture : τ → σ → σ × Option Fault)

/-- Where a run leads, whichever of its captures fail. -/
def after (s : σ) (ts : List τ) : σ := ts.foldl (fun s t => (capture t s).1) s

/-- The captures of a run that do not fail. -/
def succeeded (s : σ) : List τ → List τ
  | [] => []
  | t :: ts =>
    match capture t s with
    | (s', none) => t :: succeeded s' ts
    | (s', some _) => succeeded s' ts

/-- What is seen right after each capture of a run that does not fail. -/
def reports (look : σ → ρ) (s : σ) : List τ → List ρ
  | [] => []
  | t :: ts =>
    match capture t s with
    | (s', none) => look s' :: reports look s' ts
    | (s', some _) => reports look s' ts

/-- At every moment a capture fails from both states, or is the same from both. -/
def Agree (s u : σ) : Prop :=
  ∀ t, capture t s = capture t u ∨ (capture t s).2.isSome ∧ (capture t u).2.isSome

/-- A capture that fails does not matter to those that come next. -/
def Forgives (s : σ) : Prop := ∀ t s' e, capture t s = (s', some e) → Agree capture s' s

end

variable {capture : τ → σ → σ × Option Fault} {s u v s' : σ} {t : τ} {ts : List τ}

theorem Agree.refl : Agree capture s s := fun _ => .inl rfl

theorem Agree.trans (h : Agree capture s u) (h' : Agree capture u v) : Agree capture s v := by
  intro t
  rcases h t with same | ⟨hs, hu⟩
  · rw [same]
    exact h' t
  · rcases h' t with same | ⟨-, hv⟩
    · exact .inr ⟨hs, same ▸ hu⟩
    · exact .inr ⟨hs, hv⟩

theorem Agree.fails {e : Fault} (h : Agree capture s u) (ko : capture t s = (s', some e)) :
    ∃ u' e', capture t u = (u', some e') := by
  rcases h t with same | ⟨-, hu⟩
  · exact ⟨s', e, same ▸ ko⟩
  · obtain ⟨e', he'⟩ := Option.isSome_iff_exists.1 hu
    exact ⟨_, e', Prod.ext rfl he'⟩

theorem Agree.succeeds (h : Agree capture s u) (ok : capture t s = (s', none)) : capture t u = (s', none) := by
  rcases h t with same | ⟨hs, -⟩
  · exact same ▸ ok
  · rw [ok] at hs
    cases hs

/-- What a run that leaves out the failures has to do with the run as it is. -/
structure SameRun (capture : τ → σ → σ × Option Fault) (look : σ → ρ) (s u : σ) (ts : List τ) : Prop where
  /-- What is seen after the captures that do not fail is the same. -/
  seen : reports capture look u (succeeded capture s ts) = reports capture look s ts
  /-- No further capture fails. -/
  whole : succeeded capture u (succeeded capture s ts) = succeeded capture s ts
  /-- The next capture finds the same to compare with. -/
  next : Agree capture (after capture s ts) (after capture u (succeeded capture s ts))

/-- The two runs go on from states that agree: a failure moves only one of them, and any other capture brings
them together. -/
theorem Agree.sameRun {inv : σ → Prop} (keeps : ∀ t s, inv s → inv (capture t s).1)
    (forgives : ∀ s, inv s → Forgives capture s) (look : σ → ρ) (hs : inv s) (h : Agree capture s u)
    (ts : List τ) : SameRun capture look s u ts := by
  induction ts generalizing s u with
  | nil => exact ⟨rfl, rfl, h⟩
  | cons t ts ih =>
    have inv' : inv (capture t s).1 := keeps t s hs
    rcases step : capture t s with ⟨s', _ | e⟩
    · rw [step] at inv'
      have step' := h.succeeds step
      have rest := ih inv' .refl
      have left : succeeded capture s (t :: ts) = t :: succeeded capture s' ts := by rw [succeeded, step]
      constructor
      · rw [left, reports, step', reports, step]
        exact congrArg (look s' :: ·) rest.seen
      · rw [left, succeeded, step']
        exact congrArg (t :: ·) rest.whole
      · rw [left, after, after, List.foldl_cons, List.foldl_cons, step, step']
        exact rest.next
    · rw [step] at inv'
      have rest := ih inv' ((forgives s hs t s' e step).trans h)
      have left : succeeded capture s (t :: ts) = succeeded capture s' ts := by rw [succeeded, step]
      constructor
      · rw [left, reports, step]
        exact rest.seen
      · rw [left]
        exact rest.whole
      · rw [left, after, List.foldl_cons, step]
        exact rest.next

/-! ### Ways to forgive -/

theorem Forgives.of_unchanged (h : ∀ t s' e, capture t s = (s', some e) → s' = s) : Forgives capture s :=
  fun t s' e ko => h t s' e ko ▸ .refl

/-- Failures that leave everything as it was, but for those after which every capture fails. -/
theorem Forgives.of_stuck (stuck : σ → Prop) (fails : ∀ t s, stuck s → (capture t s).2.isSome)
    (h : ∀ t s' e, capture t s = (s', some e) → s' = s ∨ stuck s ∧ stuck s') : Forgives capture s := by
  intro t s' e ko
  rcases h t s' e ko with rfl | ⟨hs, hs'⟩
  · exact .refl
  · exact fun t => .inr ⟨fails t s' hs', fails t s hs⟩

/-! ### What is new since the capture before -/

/-- Why the first of a list cannot be taken. That does not depend on the list. -/
def limitFault? (limit : Value) : Option Fault :=
  match upTo limit ([] : List Unit) with
  | .ok _ => none
  | .error f => some f

theorem limitFault?_eq {α : Type} (limit : Value) (l : List α) : limitFault? limit =
    match upTo limit l with
    | .ok _ => none
    | .error f => some f := by
  unfold limitFault? upTo
  cases limit with
  | number n => dsimp only; cases n.worth <;> rfl
  | _ => rfl

theorem limitFault?_int (n : Int) : limitFault? (.int n) = none := rfl

/-- A source shows the first of what is new since the capture before, as many as a limit says. A capture fails in
reading, and leaves everything as it was; or it cannot limit what is new, but then there was a capture before,
and it is known what is there now. -/
def Bounded (capture : τ → σ → σ × Option Fault) (warm : σ → Bool) (limit : σ → Value) : Prop :=
  ∀ t s, (∃ f, capture t s = (s, some f)) ∨ ∃ s', capture t s = (s', if warm s then limitFault? (limit s) else none) ∧
    warm s' = true ∧ limit s' = limit s

namespace Bounded
variable {warm : σ → Bool} {limit : σ → Value} {e : Fault}

theorem limit_capture (bounded : Bounded capture warm limit) (t : τ) (s : σ) :
    limit (capture t s).1 = limit s := by
  rcases bounded t s with ⟨f, made⟩ | ⟨s', made, -, same⟩
  · rw [made]
  · rw [made, same]

theorem unchanged_or_stuck (bounded : Bounded capture warm limit) (ko : capture t s = (s', some e)) :
    s' = s ∨ (limitFault? (limit s)).isSome ∧ warm s = true ∧ warm s' = true ∧ limit s' = limit s := by
  rcases bounded t s with ⟨f, made⟩ | ⟨s'', made, warm', same⟩
  · exact .inl (congrArg Prod.fst (ko.symm.trans made))
  · obtain ⟨rfl, fault⟩ := Prod.mk.inj (ko.symm.trans made)
    split at fault
    · rename_i hwarm
      exact .inr ⟨by rw [← fault]; rfl, hwarm, warm', same⟩
    · cases fault

theorem unchanged {n : Int} (bounded : Bounded capture warm limit) (t : τ) (number : limit s = .int n)
    (ko : capture t s = (s', some e)) : s' = s := by
  refine (bounded.unchanged_or_stuck ko).resolve_right fun ⟨stuck, _⟩ => ?_
  rw [number, limitFault?_int] at stuck
  cases stuck

/-- Once what is new cannot be limited every capture fails. -/
theorem forgives (bounded : Bounded capture warm limit) (s : σ) : Forgives capture s := by
  refine .of_stuck (fun s => (limitFault? (limit s)).isSome ∧ warm s = true) (fun t s stuck => ?_)
    fun t s' e ko => (bounded.unchanged_or_stuck ko).imp_right fun ⟨stuck, hwarm, hwarm', same⟩ =>
      ⟨⟨stuck, hwarm⟩, same ▸ stuck, hwarm'⟩
  rcases bounded t s with ⟨f, made⟩ | ⟨s', made, -⟩
  · rw [made]
    rfl
  · rw [made, if_pos stuck.2]
    exact stuck.1

end Bounded

theorem Forgives.embed {capture' : τ → υ → υ × Option Fault} {g : σ → υ}
    (embeds : ∀ t s, capture' t (g s) = (g (capture t s).1, (capture t s).2)) (h : Forgives capture s) :
    Forgives capture' (g s) := by
  intro t w e ko
  rw [embeds] at ko
  obtain ⟨rfl, hfault⟩ := Prod.mk.inj ko
  intro t'
  rw [embeds, embeds]
  rcases h t _ e (Prod.ext rfl hfault) t' with same | failing
  · exact .inl (by rw [same])
  · exact .inr failing

end Capture

/-! ### The sources of the library -/

open Capture (Agree Forgives)

/-- What a capture finds: the machine, its files and the time. -/
structure Moment where
  machine : Machine
  files : Files
  clock : Number

/-- The capture of a source at a moment. -/
def Moment.take (x : Moment) (c : Capturer) : Capturer × Option Fault := c.capture x.machine x.files x.clock

theorem CpuCapturer.unchanged {c c' : CpuCapturer} {m : Machine} {e : Fault} (ko : c.capture m = (c', some e)) :
    c' = c := by
  unfold capture at ko
  split at ko
  · exact (congrArg Prod.fst ko).symm
  · cases ko

theorem CpuCapturer.forgives (c : CpuCapturer) : Forgives (fun (x : Moment) c => c.capture x.machine) c :=
  .of_unchanged fun _ _ _ => unchanged

theorem FileWatchCapturer.unchanged {c c' : FileWatchCapturer} {f : Files} {e : Fault}
    (ko : c.capture f = (c', some e)) : c' = c := by
  unfold capture at ko
  split at ko
  · exact (congrArg Prod.fst ko).symm
  · cases ko

theorem FileWatchCapturer.forgives (c : FileWatchCapturer) :
    Forgives (fun (x : Moment) c => c.capture x.files) c :=
  .of_unchanged fun _ _ _ => unchanged

/-- The use of memory that a failure leaves behind is read again. -/
theorem MemoryCapturer.forgives (c : MemoryCapturer) : Forgives (fun (x : Moment) c => c.capture x.machine) c := by
  intro x c' e _ y
  dsimp only [capture]
  rcases y.machine.memory with f | memory
  · exact .inr ⟨rfl, rfl⟩
  · rcases y.machine.swap with f | swap
    · exact .inr ⟨rfl, rfl⟩
    · exact .inl rfl

/-- The last counters stay, and it is them that come to be compared. -/
theorem NetworkCapturer.forgives (c : NetworkCapturer) :
    Forgives (fun (x : Moment) c => c.capture x.machine x.clock) c := by
  intro x c' e ko y
  have same : c'.current = c.current := by
    dsimp only [capture] at ko
    split at ko
    · exact (congrArg (·.1.current) ko).symm
    · cases ko
  dsimp only [capture]
  rcases y.machine.network with f | reading
  · exact .inr ⟨rfl, rfl⟩
  · exact .inl (by rw [same])

theorem PersistenceCapturer.forgives (c : PersistenceCapturer) :
    Forgives (fun (x : Moment) c => c.capture x.machine x.files) c := by
  intro x c' e ko y
  obtain ⟨folders, same⟩ : c'.folders = c.folders ∧ c'.current = c.current := by
    dsimp only [capture] at ko
    split at ko
    · exact ⟨(congrArg (·.1.folders) ko).symm, (congrArg (·.1.current) ko).symm⟩
    · cases ko
  dsimp only [capture]
  rw [folders]
  rcases Autoruns.collect y.machine y.files c.folders with f | entries
  · exact .inr ⟨rfl, rfl⟩
  · exact .inl (by rw [same])

theorem DiskCapturer.forgives (c : DiskCapturer) :
    Forgives (fun (x : Moment) c => c.capture x.machine x.clock) c := by
  intro x c' e ko y
  obtain ⟨paths, same⟩ : c'.paths = c.paths ∧ c'.current = c.current := by
    dsimp only [capture] at ko
    split at ko
    · exact ⟨(congrArg (·.1.paths) ko).symm, (congrArg (·.1.current) ko).symm⟩
    · split at ko
      · exact ⟨(congrArg (·.1.paths) ko).symm, (congrArg (·.1.current) ko).symm⟩
      · cases ko
  dsimp only [capture]
  rw [paths]
  rcases survey y.machine c.paths [] with f | usage
  · exact .inr ⟨rfl, rfl⟩
  · rcases y.machine.transfers with f | reading
    · exact .inr ⟨rfl, rfl⟩
    · exact .inl (by rw [same])

theorem ProcessCapturer.bounded :
    Capture.Bounded (fun (x : Moment) c => capture x.machine c) (·.known.isSome) (·.maxNew) := by
  intro x c
  dsimp only [capture]
  rcases x.machine.processes.bind fun entries => survey c.known entries [] [] with f | ⟨current, found⟩
  · exact .inl ⟨f, rfl⟩
  · rw [Capture.limitFault?_eq c.maxNew found]
    dsimp only
    split
    · rcases Capture.upTo c.maxNew found with f | fresh <;> exact .inr ⟨_, rfl, rfl, rfl⟩
    · exact .inr ⟨_, rfl, rfl, rfl⟩

theorem ConnectionCapturer.bounded :
    Capture.Bounded (fun (x : Moment) c => capture x.machine c) (·.known.isSome) (·.maxNew) := by
  rintro x ⟨kind, maxNew, known, count, fresh, freshTotal, isWarm⟩
  dsimp only [capture]
  rcases x.machine.connections.bind remoteOnes with f | current
  · exact .inl ⟨f, rfl⟩
  rcases known with _ | known
  · exact .inr ⟨_, rfl, rfl, rfl⟩
  · rw [Capture.limitFault?_eq maxNew (current.filter fun e => !e.1.isAmong known)]
    simp only [Option.isSome_some, if_true]
    generalize Capture.upTo maxNew (current.filter fun e => !e.1.isAmong known) = shown
    cases shown <;> exact .inr ⟨_, rfl, rfl, rfl⟩

namespace Capturer

variable {c : Capturer}

/-- One of the library's own sources. -/
def IsOwn : Capturer → Prop
  | probe _ => False
  | _ => True

theorem isOwn_take (x : Moment) (own : c.IsOwn) : (x.take c).1.IsOwn := by
  cases c <;> exact own

theorem forgives (own : c.IsOwn) : Forgives Moment.take c := by
  cases c with
  | cpu c => exact c.forgives.embed (g := cpu) fun _ _ => rfl
  | memory c => exact c.forgives.embed (g := memory) fun _ _ => rfl
  | network c => exact c.forgives.embed (g := network) fun _ _ => rfl
  | process c => exact (ProcessCapturer.bounded.forgives c).embed (g := process) fun _ _ => rfl
  | connection c => exact (ConnectionCapturer.bounded.forgives c).embed (g := connection) fun _ _ => rfl
  | disk c => exact c.forgives.embed (g := disk) fun _ _ => rfl
  | persistence c => exact c.forgives.embed (g := persistence) fun _ _ => rfl
  | fileWatch c => exact c.forgives.embed (g := fileWatch) fun _ _ => rfl
  | probe _ => exact own.elim

/-- What a source shows: its snapshot, whether it has enough to compare, and what it says in more words. -/
def shows (c : Capturer) : Except Fault Snapshot × Option (Except Fault Bool) × Option (Except Fault String) :=
  (c.info, c.isWarm?, c.verbose?)

/-- Whichever captures fail, what a source shows after the others is what it would show without the failures. -/
theorem failures_invisible (own : c.IsOwn) (xs : List Moment) : Capture.SameRun Moment.take shows c c xs :=
  Agree.refl.sameRun (fun x _ => isOwn_take x) (fun _ => forgives) shows own xs

/-- Two captures of the network, between which the counters could not be read. -/
def interrupted : List Moment := [
  { machine := { network := .ok (some ⟨.int 1000, .int 0⟩) }, files := {}, clock := .int 10 },
  { machine := { network := .error .integerTooLarge }, files := {}, clock := .int 12 },
  { machine := { network := .ok (some ⟨.int 5000, .int 0⟩) }, files := {}, clock := .int 14 }]

theorem failures_invisible_interrupted :
    (Capture.reports Moment.take isWarm? (network {}) interrupted = [some (.ok false), some (.ok true)] ∧
      Capture.succeeded Moment.take (network {}) interrupted = [interrupted[0], interrupted[2]]) ∧
    Capture.SameRun Moment.take shows (network {}) (network {}) interrupted :=
  ⟨⟨rfl, rfl⟩, failures_invisible (c := network {}) trivial interrupted⟩

end Capturer

end HostWatch
