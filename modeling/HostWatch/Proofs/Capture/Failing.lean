import HostWatch.Proofs.Capture.Persistence
import HostWatch.Proofs.Capture.Series
import HostWatch.Proofs.Capture.Skipping

/-!
# What a capture that fails leaves behind

A source remembers the last capture that did not fail (`Capturer.Remembers`). A capture that fails leaves it as
it was where nothing is put away before the reading that fails (`Capturer.Settled`); else it leaves what a
capture leaves that finds for that reading what the last one found (`Capturer.failureLaw`): throughput,
transfers and autoruns are compared with themselves. Swap space that was never read cannot be shown at all.
-/

namespace HostWatch

open Capture (Series)

/-! ### Each source -/

theorem MemoryCapturer.read_of_ok {c c' : MemoryCapturer} {m : Machine} (ok : c.capture m = (c', none)) :
    ∃ swap, m.swap = .ok swap ∧ c'.swap = some swap := by
  unfold capture at ok
  split at ok
  · cases ok
  · split at ok
    · cases ok
    · rename_i swap hswap
      exact ⟨swap, hswap, (congrArg (·.1.swap) ok).symm⟩

theorem MemoryCapturer.left_of_failed {c c' : MemoryCapturer} {m : Machine} {e : Fault}
    (ko : c.capture m = (c', some e)) : (∃ f, m.memory = .error f) ∧ c' = c ∨
      ∃ memory, m.memory = .ok memory ∧ c' = { c with memory := some memory } := by
  unfold capture at ko
  split at ko
  · rename_i f hmemory
    exact .inl ⟨⟨f, hmemory⟩, (congrArg Prod.fst ko).symm⟩
  · rename_i memory hmemory
    split at ko
    · exact .inr ⟨memory, hmemory, (congrArg Prod.fst ko).symm⟩
    · cases ko

/-- What is known of memory alone cannot be shown. -/
theorem MemoryCapturer.info_of_no_swap {c : MemoryCapturer} (memory : c.memory.isSome) (swap : c.swap = none) :
    ∃ e, c.info = .error e := by
  obtain ⟨r, hr⟩ := Option.isSome_iff_exists.1 memory
  simp only [info, hr, swap]
  rcases r.percent.toFixed 1 with e | text
  · exact ⟨e, rfl⟩
  · exact ⟨_, rfl⟩

theorem NetworkCapturer.read_of_ok {c c' : NetworkCapturer} {m : Machine} {clock : Number}
    (ok : c.capture m clock = (c', none)) : ∃ r, m.network = .ok r ∧ c'.current = some (clock, r) := by
  unfold capture at ok
  split at ok
  · cases ok
  · rename_i r hr
    exact ⟨r, hr, (congrArg (·.1.current) ok).symm⟩

theorem DiskCapturer.read_of_ok {c c' : DiskCapturer} {m : Machine} {clock : Number}
    (ok : c.capture m clock = (c', none)) :
    ∃ r, m.transfers = .ok r ∧ c'.current = r.map fun r => (clock, r) := by
  unfold capture at ok
  split at ok
  · cases ok
  · split at ok
    · cases ok
    · rename_i r hr
      exact ⟨r, hr, (congrArg (·.1.current) ok).symm⟩

theorem DiskCapturer.left_of_failed {c c' : DiskCapturer} {m : Machine} {clock : Number} {e : Fault}
    (ko : c.capture m clock = (c', some e)) : (∃ f, survey m c.paths [] = .error f) ∧ c' = c ∨
      ∃ usage, survey m c.paths [] = .ok usage ∧ c' = { c with usage, previous := c.current } := by
  unfold capture at ko
  split at ko
  · rename_i f hsurvey
    exact .inl ⟨⟨f, hsurvey⟩, (congrArg Prod.fst ko).symm⟩
  · rename_i usage hsurvey
    split at ko
    · exact .inr ⟨usage, hsurvey, (congrArg Prod.fst ko).symm⟩
    · cases ko

theorem DiskCapturer.survey_congr {m m' : Machine} (same : m.disks = m'.disks) (paths : List Value)
    (usage : OrderedMap String DiskReading) : survey m paths usage = survey m' paths usage := by
  induction paths generalizing usage with
  | nil => rfl
  | cons path rest ih =>
    have disk : m.disk path = m'.disk path := by unfold Machine.disk; rw [same]
    rw [survey, survey, disk]
    split
    · rfl
    · exact ih _

theorem DiskCapturer.capture_of_survey {c : DiskCapturer} {m : Machine} (m' : Machine)
    {usage : OrderedMap String DiskReading} {r : Option TransferReading} (same : m.disks = m'.disks)
    (husage : survey m' c.paths [] = .ok usage) (hr : m.transfers = .ok r) (clock : Number) :
    c.capture m clock = ({ c with usage, previous := c.current, current := r.map fun r => (clock, r) }, none) := by
  rw [← survey_congr same] at husage
  simp only [capture, husage, hr]

namespace Capturer

variable {c c' c₀ : Capturer} {xs : List Moment} {x y : Moment} {last : Option Moment} {e : Fault}

/-- One of the library's own sources that has captured nothing yet. -/
inductive New : Capturer → Prop
  | cpu : New (cpu {})
  | memory : New (memory {})
  | network : New (network {})
  | process (n : Int) : New (process { maxNew := .int n })
  | connection (kind : Value) (n : Int) : New (connection { kind, maxNew := .int n })
  | disk (paths : List Value) : New (disk { paths })
  | persistence (folders : List String) : New (persistence { folders })
  | fileWatch (paths : List Value) (maxFiles : Value) : New (fileWatch { paths, maxFiles })

/-- What a source knows of the last capture that did not fail. -/
def Remembers : Option Moment → Capturer → Prop
  | none, memory c => c.swap = none
  | some y, memory c => ∃ swap, y.machine.swap = .ok swap ∧ c.swap = some swap
  | none, network c => c.previous = none ∧ c.current = none
  | some y, network c => ∃ r, y.machine.network = .ok r ∧ c.current = some (y.clock, r)
  | none, disk c => c.current = none
  | some y, disk c => ∃ r, y.machine.transfers = .ok r ∧ c.current = r.map fun r => (y.clock, r)
  | none, persistence c => c.previous = none ∧ c.current = none
  | some y, persistence c =>
    ∃ entries, Autoruns.collect y.machine y.files c.folders = .ok entries ∧ c.current = some entries
  | _, process c => ∃ n, c.maxNew = .int n
  | _, connection c => ∃ n, c.maxNew = .int n
  | _, cpu _ | _, fileWatch _ => True
  | _, probe _ => False

theorem New.remembers (new : New c) : Remembers none c := by
  cases new with
  | network | persistence => exact ⟨rfl, rfl⟩
  | process n => exact ⟨n, rfl⟩
  | connection _ n => exact ⟨n, rfl⟩
  | memory | disk => exact rfl
  | cpu | fileWatch => exact trivial

theorem of_embed {σ : Type} {g : σ → Capturer} {p : σ × Option Fault} {fault : Option Fault}
    (h : (g p.1, p.2) = (c', fault)) : ∃ d, c' = g d ∧ p = (d, fault) := by
  obtain ⟨rfl, rfl⟩ := Prod.mk.inj h
  exact ⟨p.1, rfl, rfl⟩

theorem Remembers.limit_process {c : ProcessCapturer} (h : Remembers last (process c)) : ∃ n, c.maxNew = .int n := by
  cases last <;> exact h

theorem Remembers.limit_connection {c : ConnectionCapturer} (h : Remembers last (connection c)) :
    ∃ n, c.maxNew = .int n := by
  cases last <;> exact h

theorem isSome_eq {β : Type} {o : Option β} (first : xs.getLast? = none → o = none)
    (later : ∀ y, xs.getLast? = some y → ∃ b, o = some b) : o.isSome = !xs.isEmpty := by
  rcases last : xs.getLast? with _ | y
  · rw [first last, List.getLast?_eq_none_iff.1 last]
    rfl
  · obtain ⟨b, hb⟩ := later y last
    obtain ⟨ys, rfl⟩ := List.getLast?_eq_some_iff.1 last
    simp [hb]

/-- A source that puts the last capture in the place of the one before it, and then reads. -/
structure Shifting {σ β : Type} (g : σ → Capturer) (capture : Moment → σ → σ × Option Fault)
    (previous current : σ → Option β) (shift : σ → σ) (read : Moment → σ → Except Fault β) : Prop where
  embeds : ∀ x s, x.take (g s) = (g (capture x s).1, (capture x s).2)
  fails : ∀ x s e, read x s = .error e → capture x s = (shift s, some e)
  reads : ∀ x s b, read x s = .ok b → ∃ s', capture x s = (s', none) ∧ (current s = some b → s' = shift s)
  shifted : ∀ s, previous (shift s) = current s ∧ current (shift s) = current s
  still : ∀ s, previous s = current s → shift s = s

theorem shifting_network : Shifting network (fun x c => c.capture x.machine x.clock) (·.previous) (·.current)
    (fun c => { c with previous := c.current }) (fun x _ => x.machine.network.map (x.clock, ·)) where
  embeds _ _ := rfl
  fails x c e failed := by
    rcases read : x.machine.network with f | r
    · rw [read] at failed
      cases failed
      simp only [NetworkCapturer.capture, read]
    · rw [read] at failed
      cases failed
  reads x c b found := by
    rcases read : x.machine.network with f | r
    · rw [read] at found
      cases found
    · rw [read] at found
      cases found
      simp only [NetworkCapturer.capture, read]
      exact ⟨_, rfl, fun same => by rw [same]⟩
  shifted _ := ⟨rfl, rfl⟩
  still := by
    rintro ⟨previous, current⟩ same
    obtain rfl : previous = current := same
    rfl

theorem shifting_persistence : Shifting persistence (fun x c => c.capture x.machine x.files) (·.previous) (·.current)
    (fun c => { c with previous := c.current }) (fun x c => Autoruns.collect x.machine x.files c.folders) where
  embeds _ _ := rfl
  fails x c e failed := by simp only [PersistenceCapturer.capture, failed]
  reads x c b found := by
    simp only [PersistenceCapturer.capture, found]
    exact ⟨_, rfl, fun same => by rw [same]⟩
  shifted _ := ⟨rfl, rfl⟩
  still := by
    rintro ⟨folders, previous, current⟩ same
    obtain rfl : previous = current := same
    rfl

namespace Shifting
variable {σ β : Type} {g : σ → Capturer} {capture : Moment → σ → σ × Option Fault} {previous current : σ → Option β}
  {shift : σ → σ} {read : Moment → σ → Except Fault β} {s : σ}

theorem left_of_failed (law : Shifting g capture previous current shift read) (ko : x.take (g s) = (c', some e)) :
    c' = g (shift s) := by
  rw [law.embeds] at ko
  rcases found : read x s with f | b
  · rw [law.fails x s f found] at ko
    exact (congrArg Prod.fst ko).symm
  · obtain ⟨s', made, -⟩ := law.reads x s b found
    rw [made] at ko
    cases congrArg Prod.snd ko

end Shifting

theorem Remembers.isOwn (h : Remembers last c) : c.IsOwn := by
  cases c with
  | probe p => cases last <;> exact h
  | _ => trivial

theorem Remembers.succeeded (h : Remembers last c) (ok : x.take c = (c', none)) : Remembers (some x) c' := by
  cases c with
  | cpu c =>
    obtain ⟨d, rfl, -⟩ := of_embed (g := cpu) (p := c.capture x.machine) ok
    trivial
  | fileWatch c =>
    obtain ⟨d, rfl, -⟩ := of_embed (g := fileWatch) (p := c.capture x.files) ok
    trivial
  | memory c =>
    obtain ⟨d, rfl, made⟩ := of_embed (g := memory) (p := c.capture x.machine) ok
    exact MemoryCapturer.read_of_ok made
  | network c =>
    obtain ⟨d, rfl, made⟩ := of_embed (g := network) (p := c.capture x.machine x.clock) ok
    exact NetworkCapturer.read_of_ok made
  | disk c =>
    obtain ⟨d, rfl, made⟩ := of_embed (g := disk) (p := c.capture x.machine x.clock) ok
    exact DiskCapturer.read_of_ok made
  | persistence c =>
    obtain ⟨d, rfl, made⟩ := of_embed (g := persistence) (p := c.capture x.machine x.files) ok
    obtain ⟨entries, hentries, rfl⟩ := PersistenceCapturer.take_eq_of_ok (t := (x.machine, x.files)) made
    exact ⟨entries, hentries, rfl⟩
  | process c =>
    obtain ⟨d, rfl, made⟩ := of_embed (g := process) (p := c.capture x.machine) ok
    obtain ⟨n, hn⟩ := h.limit_process
    have same := ProcessCapturer.bounded.limit_capture x c
    rw [made] at same
    exact ⟨n, same.trans hn⟩
  | connection c =>
    obtain ⟨d, rfl, made⟩ := of_embed (g := connection) (p := c.capture x.machine) ok
    obtain ⟨n, hn⟩ := h.limit_connection
    have same := ConnectionCapturer.bounded.limit_capture x c
    rw [made] at same
    exact ⟨n, same.trans hn⟩
  | probe p => exact h.isOwn.elim

theorem Remembers.failed (h : Remembers last c) (ko : x.take c = (c', some e)) : Remembers last c' := by
  cases c with
  | cpu c =>
    obtain ⟨d, rfl, -⟩ := of_embed (g := cpu) (p := c.capture x.machine) ko
    cases last <;> trivial
  | fileWatch c =>
    obtain ⟨d, rfl, -⟩ := of_embed (g := fileWatch) (p := c.capture x.files) ko
    cases last <;> trivial
  | memory c =>
    obtain ⟨d, rfl, made⟩ := of_embed (g := memory) (p := c.capture x.machine) ko
    rcases MemoryCapturer.left_of_failed made with ⟨-, rfl⟩ | ⟨_, -, rfl⟩ <;> cases last <;> exact h
  | network c =>
    obtain rfl := shifting_network.left_of_failed ko
    cases last with
    | none => exact ⟨h.2, h.2⟩
    | some y => exact h
  | disk c =>
    obtain ⟨d, rfl, made⟩ := of_embed (g := disk) (p := c.capture x.machine x.clock) ko
    rcases DiskCapturer.left_of_failed made with ⟨-, rfl⟩ | ⟨_, -, rfl⟩ <;> cases last <;> exact h
  | persistence c =>
    obtain rfl := shifting_persistence.left_of_failed ko
    cases last with
    | none => exact ⟨h.2, h.2⟩
    | some y => exact h
  | process c =>
    obtain ⟨d, rfl, made⟩ := of_embed (g := process) (p := c.capture x.machine) ko
    obtain ⟨n, hn⟩ := h.limit_process
    rwa [ProcessCapturer.bounded.unchanged x hn made]
  | connection c =>
    obtain ⟨d, rfl, made⟩ := of_embed (g := connection) (p := c.capture x.machine) ko
    obtain ⟨n, hn⟩ := h.limit_connection
    rwa [ConnectionCapturer.bounded.unchanged x hn made]
  | probe p => exact h.isOwn.elim

theorem New.remembers_series (new : New c₀) (run : Series Moment.take c₀ xs c) : Remembers xs.getLast? c := by
  induction run with
  | nil => exact new.remembers
  | succeeded _ ok ih =>
    rw [List.getLast?_concat]
    exact ih.succeeded ok
  | failed _ ko ih => exact ih.failed ko

/-! ### The law -/

/-- Nothing has to be put away before the reading that fails. -/
def Settled (x : Moment) : Capturer → Prop
  | memory _ => ∃ f, x.machine.memory = .error f
  | disk c => ∃ f, DiskCapturer.survey x.machine c.paths [] = .error f
  | network c => c.previous = c.current
  | persistence c => c.previous = c.current
  | _ => True

/-- Whether a source puts the last capture in the place of the one before it, and then reads. -/
def shifts : Capturer → Bool
  | network _ | persistence _ => true
  | _ => false

/-- What a capture that fails at `x` comes to: what was read before the fault, and the rest as it was at `y`. -/
def filledIn (x y : Moment) : Capturer → Moment
  | memory _ => { y with machine := { y.machine with memory := x.machine.memory } }
  | disk _ => { y with machine := { y.machine with disks := x.machine.disks } }
  | _ => y

/-- A moment at which the machine counts no transfers. -/
def uncounted (x : Moment) : Moment := { x with machine := { x.machine with transfers := .ok none } }

/-- What a capture leaves behind that fails at `x`, after captures of which those at `xs` did not fail. -/
structure FailureLaw (xs : List Moment) (x : Moment) (c c' : Capturer) : Prop where
  settled : c.Settled x → c' = c
  /-- Else it is as if what could not be read were what it was the last time. -/
  repeats : ∀ y, xs.getLast? = some y → ¬ c.Settled x → (filledIn x y c).take c = (c', none)
  /-- Memory is shown with swap space or not at all; disks are shown without transfers. -/
  first : xs = [] → ¬ c.Settled x →
    (∃ m, c = memory m) ∧ (∃ f, c'.info = .error f) ∨ (∃ d, c = disk d) ∧ (uncounted x).take c = (c', none)
  /-- The source of counters or autoruns that has none has nothing to put away. -/
  cold : c.shifts → xs = [] → c.Settled x
  /-- Another failure changes no more. -/
  again : c.shifts → ∀ y, c'.Settled y
  warmth : c'.isWarm? = if c.shifts then some (.ok !xs.isEmpty) else c.isWarm?

/-- Sources that read everything before they put anything away. -/
theorem FailureLaw.of_unchanged (settled : ∀ x, c.Settled x) (still : c.shifts = false) :
    FailureLaw xs x c c where
  settled _ := rfl
  repeats _ _ h := absurd (settled x) h
  first _ h := absurd (settled x) h
  cold _ _ := settled x
  again _ := settled
  warmth := by rw [still]; rfl

theorem failureLaw_memory {m : MemoryCapturer} (known : Remembers xs.getLast? (memory m))
    (ko : x.take (memory m) = (c', some e)) : FailureLaw xs x (memory m) c' := by
  obtain ⟨d, rfl, made⟩ := of_embed (g := memory) (p := m.capture x.machine) ko
  have left := MemoryCapturer.left_of_failed made
  have late (h : ¬ (memory m).Settled x) :
      ∃ r, x.machine.memory = .ok r ∧ d = { m with memory := some r } :=
    left.resolve_left fun early => h early.1
  refine ⟨?_, ?_, ?_, nofun, nofun, rfl⟩
  · rintro ⟨f, hf⟩
    rcases left with ⟨-, rfl⟩ | ⟨r, hr, -⟩
    · rfl
    · cases hf.symm.trans hr
  · intro y last h
    obtain ⟨r, hr, rfl⟩ := late h
    rw [last] at known
    obtain ⟨swap, hswap, same⟩ := known
    have redone : m.capture (filledIn x y (memory m)).machine = ({ m with memory := some r }, none) := by
      simp only [MemoryCapturer.capture, filledIn, hr, hswap, ← same]
    exact congrArg (fun p => (memory p.1, p.2)) redone
  · rintro rfl h
    obtain ⟨r, -, rfl⟩ := late h
    exact .inl ⟨⟨m, rfl⟩, MemoryCapturer.info_of_no_swap rfl known⟩

theorem failureLaw_disk {d : DiskCapturer} (known : Remembers xs.getLast? (disk d))
    (ko : x.take (disk d) = (c', some e)) : FailureLaw xs x (disk d) c' := by
  obtain ⟨d', rfl, made⟩ := of_embed (g := disk) (p := d.capture x.machine x.clock) ko
  have left := DiskCapturer.left_of_failed made
  have late (h : ¬ (disk d).Settled x) : ∃ usage, DiskCapturer.survey x.machine d.paths [] = .ok usage ∧
      d' = { d with usage, previous := d.current } := left.resolve_left fun early => h early.1
  refine ⟨?_, ?_, ?_, nofun, nofun, rfl⟩
  · rintro ⟨f, hf⟩
    rcases left with ⟨-, rfl⟩ | ⟨usage, husage, -⟩
    · rfl
    · cases hf.symm.trans husage
  · intro y last h
    obtain ⟨usage, husage, rfl⟩ := late h
    rw [last] at known
    obtain ⟨r, hr, same⟩ := known
    have redone :=
      DiskCapturer.capture_of_survey (m := (filledIn x y (disk d)).machine) (x.machine) rfl husage hr y.clock
    rw [← same] at redone
    exact congrArg (fun p => (disk p.1, p.2)) redone
  · rintro rfl h
    obtain ⟨usage, husage, rfl⟩ := late h
    have redone := DiskCapturer.capture_of_survey (m := (uncounted x).machine) (x.machine) rfl husage rfl x.clock
    have same : d.current = none := known
    rw [Option.map_none, ← same] at redone
    exact .inr ⟨⟨d, rfl⟩, congrArg (fun p => (disk p.1, p.2)) redone⟩

/-- Sources that compare the last two captures. A failure makes the last one stand for both. -/
theorem FailureLaw.of_shifting {σ β : Type} {g : σ → Capturer} {capture : Moment → σ → σ × Option Fault}
    {previous current : σ → Option β} {shift : σ → σ} {read : Moment → σ → Except Fault β} {s : σ}
    (law : Shifting g capture previous current shift read) (settled : ∀ y s, (g s).Settled y ↔ previous s = current s)
    (shifts : (g s).shifts = true) (filled : ∀ y, filledIn x y (g s) = y)
    (warm : ∀ s, (g s).isWarm? = some (.ok (previous s).isSome))
    (first : xs.getLast? = none → previous s = none ∧ current s = none)
    (later : ∀ y, xs.getLast? = some y → ∃ b, read y s = .ok b ∧ current s = some b)
    (ko : x.take (g s) = (c', some e)) : FailureLaw xs x (g s) c' := by
  obtain rfl := law.left_of_failed ko
  obtain ⟨before, now⟩ := law.shifted s
  have cold (empty : xs = []) : previous s = current s := by
    obtain ⟨hprevious, hcurrent⟩ := first (List.getLast?_eq_none_iff.2 empty)
    rw [hprevious, hcurrent]
  refine ⟨fun h => congrArg g (law.still s ((settled x s).1 h)), fun y last _ => ?_,
    fun empty h => absurd ((settled x s).2 (cold empty)) h, fun _ empty => (settled x s).2 (cold empty),
    fun _ y => (settled y _).2 (before.trans now.symm), ?_⟩
  · obtain ⟨b, found, same⟩ := later y last
    obtain ⟨s', made, shifted⟩ := law.reads y s b found
    rw [filled, law.embeds, made, shifted same]
  · have known : (current s).isSome = !xs.isEmpty :=
      isSome_eq (fun last => (first last).2) fun y last => (later y last).imp fun _ h => h.2
    rw [shifts, if_pos rfl, warm, before, known]

/-- What every source of the library leaves behind when it fails, after any captures. -/
theorem failureLaw (new : New c₀) (run : Series Moment.take c₀ xs c) (ko : x.take c = (c', some e)) :
    FailureLaw xs x c c' := by
  have known := new.remembers_series run
  cases c with
  | cpu c =>
    obtain ⟨d, rfl, made⟩ := of_embed (g := cpu) (p := c.capture x.machine) ko
    obtain rfl := CpuCapturer.unchanged made
    exact .of_unchanged (fun _ => trivial) rfl
  | fileWatch c =>
    obtain ⟨d, rfl, made⟩ := of_embed (g := fileWatch) (p := c.capture x.files) ko
    obtain rfl := FileWatchCapturer.unchanged made
    exact .of_unchanged (fun _ => trivial) rfl
  | process c =>
    obtain ⟨d, rfl, made⟩ := of_embed (g := process) (p := c.capture x.machine) ko
    obtain ⟨n, hn⟩ := known.limit_process
    obtain rfl := ProcessCapturer.bounded.unchanged x hn made
    exact .of_unchanged (fun _ => trivial) rfl
  | connection c =>
    obtain ⟨d, rfl, made⟩ := of_embed (g := connection) (p := c.capture x.machine) ko
    obtain ⟨n, hn⟩ := known.limit_connection
    obtain rfl := ConnectionCapturer.bounded.unchanged x hn made
    exact .of_unchanged (fun _ => trivial) rfl
  | memory m => exact failureLaw_memory known ko
  | disk d => exact failureLaw_disk known ko
  | network n =>
    refine .of_shifting shifting_network (fun _ _ => Iff.rfl) rfl (fun _ => rfl) (fun _ => rfl) (fun last => ?_)
      (fun y last => ?_) ko <;> rw [last] at known
    · exact known
    · obtain ⟨r, hr, same⟩ := known
      exact ⟨(y.clock, r), by rw [hr]; rfl, same⟩
  | persistence p =>
    refine .of_shifting shifting_persistence (fun _ _ => Iff.rfl) rfl (fun _ => rfl) (fun _ => rfl) (fun last => ?_)
      (fun y last => ?_) ko <;> rw [last] at known
    · exact known
    · exact known
  | probe p => exact known.isOwn.elim

/-- Two moments: at the second neither the counters of the network nor swap space can be read. -/
def sound : Moment where
  machine := { network := .ok (some ⟨.int 1000, .int 0⟩) }
  files := {}
  clock := .int 10
def broken : Moment where
  machine := { network := .error .integerTooLarge, swap := .error .integerTooLarge }
  files := {}
  clock := .int 12

theorem failureLaw_broken : ∃ c c' e, Series Moment.take (network {}) [sound] c ∧ broken.take c = (c', some e) ∧
    ¬ c.Settled broken ∧ FailureLaw [sound] broken c c' :=
  ⟨_, _, _, .single rfl, rfl, nofun, failureLaw .network (.single rfl) rfl⟩

/-- A failure can make a snapshot impossible, and it can make a source warm. -/
theorem not_forall_failures_kept :
    (¬ ∀ (c₀ c c' : Capturer) (xs : List Moment) (x : Moment) (e : Fault), New c₀ → Series Moment.take c₀ xs c →
      x.take c = (c', some e) → c'.info = c.info) ∧
    ¬ ∀ (c₀ c c' : Capturer) (xs : List Moment) (x : Moment) (e : Fault), New c₀ → Series Moment.take c₀ xs c →
      x.take c = (c', some e) → c'.isWarm? = c.isWarm? := by
  constructor
  · intro claim
    have same := claim (memory {}) _ _ [] broken _ .memory .nil rfl
    obtain ⟨e, raises⟩ := MemoryCapturer.info_of_no_swap (c := { memory := some ⟨.double 50, .int 1024, .int 2048⟩ })
      rfl rfl
    cases raises.symm.trans same
  · intro claim
    have same := claim (network {}) _ _ [sound] broken _ .network (.single rfl) rfl
    cases same

end Capturer

end HostWatch
