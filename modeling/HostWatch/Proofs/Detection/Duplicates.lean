import HostWatch.Proofs.Detection.Findings

/-!
# Duplicates leave no trace

A deduper forgets an alert that it suppresses at once: the alert changes nothing that the deduper holds, and
the limiter never sees it. So suppressed alerts can be left out of the batches of a run, any of them in any
batches, and no other alert notices (`Detector.sieveAll_keeping`). This needs nothing of the clock, whose
readings may go back and may differ between the deduper and the limiter.
-/

namespace HostWatch

inductive Decision where
  | passes
  | suppressed
  /-- An alert before it in its batch could not be judged. -/
  | unjudged
  deriving DecidableEq, Repr

namespace Decision

/-- The alerts that pass, in their order. -/
def passing (decisions : List (Alert × Decision)) : List Alert :=
  (decisions.filter fun x => x.2 = .passes).map Prod.fst

/-- The decisions say what a batch comes to: every alert is judged, and those that pass are left. -/
structure Tells (decisions : List (Alert × Decision)) (unique : List Alert) : Prop where
  judged : ∀ x ∈ decisions, x.2 ≠ .unjudged
  left : unique = passing decisions

/-- What is left of some alerts when suppressed ones are left out. -/
inductive Thins : List (Alert × Decision) → List (Alert × Decision) → Prop
  | nil : Thins [] []
  | keep {x : Alert × Decision} {full thin : List (Alert × Decision)} (rest : Thins full thin) :
      Thins (x :: full) (x :: thin)
  | drop {a : Alert} {full thin : List (Alert × Decision)} (rest : Thins full thin) :
      Thins ((a, .suppressed) :: full) thin

variable {full thin : List (Alert × Decision)}

theorem Thins.eq_of_none_suppressed (h : Thins full thin) (none : ∀ x ∈ full, x.2 ≠ .suppressed) : thin = full := by
  induction h with
  | nil => rfl
  | keep _ ih => rw [ih (List.forall_mem_cons.1 none).2]
  | drop _ _ => exact absurd rfl (List.forall_mem_cons.1 none).1

theorem map_fst_decided (decision : Decision) (alerts : List Alert) :
    (alerts.map (·, decision)).map Prod.fst = alerts := by
  rw [List.map_map]
  exact List.map_id _

theorem tells_of_all_pass (alerts : List Alert) : Tells (alerts.map (·, .passes)) alerts where
  judged := by simp
  left := by simp [passing, List.filter_map, Function.comp_def]

end Decision

open Decision

/-! ### Dedupers -/

namespace Deduper

section Decisions
variable {τ : Type} [Clock τ] [LT τ] [DecidableLT τ]

def decisions (window now : τ) : OrderedMap Key τ → List Alert → List (Alert × Decision)
  | _, [] => []
  | suppressed, a :: rest =>
    match pass window now suppressed a with
    | .error _ => (a :: rest).map (·, .unjudged)
    | .ok none => (a, .suppressed) :: decisions window now suppressed rest
    | .ok (some after) => (a, .passes) :: decisions window now after rest

variable {window now : τ} {m after : OrderedMap Key τ} {a : Alert} {rest : List Alert} {f : Fault}
  {thin : List (Alert × Decision)}

theorem map_fst_decisions (m : OrderedMap Key τ) (alerts : List Alert) :
    (decisions window now m alerts).map Prod.fst = alerts := by
  induction alerts generalizing m with
  | nil => rfl
  | cons a rest ih =>
    unfold decisions
    split
    · exact map_fst_decided _ _
    · rw [List.map_cons, ih]
    · rw [List.map_cons, ih]

theorem decisions_tell (m : OrderedMap Key τ) (alerts : List Alert)
    (ok : (sift window now m alerts).fault = none) :
    Tells (decisions window now m alerts) (sift window now m alerts).passed := by
  induction alerts generalizing m with
  | nil => exact ⟨by simp [decisions], rfl⟩
  | cons a rest ih =>
    unfold sift at ok ⊢
    unfold decisions
    rcases hpass : pass window now m a with f | _ | after
    · simp [hpass] at ok
    · rw [hpass] at ok
      obtain ⟨judged, left⟩ := ih m ok
      exact ⟨List.forall_mem_cons.2 ⟨by simp, judged⟩, left⟩
    · rw [hpass] at ok
      obtain ⟨judged, left⟩ := ih after ok
      exact ⟨List.forall_mem_cons.2 ⟨by simp, judged⟩, congrArg (a :: ·) left⟩

theorem decisions_of_suppressed (h : pass window now m a = .ok none) (rest : List Alert) :
    decisions window now m (a :: rest) = (a, .suppressed) :: decisions window now m rest ∧
      sift window now m (a :: rest) = sift window now m rest := by
  rw [decisions, sift, h]
  exact ⟨rfl, rfl⟩

theorem decisions_of_passes (h : pass window now m a = .ok (some after)) (rest : List Alert) :
    decisions window now m (a :: rest) = (a, .passes) :: decisions window now after rest ∧
      sift window now m (a :: rest) =
        { sift window now after rest with passed := a :: (sift window now after rest).passed } := by
  rw [decisions, sift, h]
  exact ⟨rfl, rfl⟩

theorem decisions_of_fault (h : pass window now m a = .error f) (rest : List Alert) :
    decisions window now m (a :: rest) = (a :: rest).map (·, .unjudged) := by
  rw [decisions, h]

/-- A batch without some of the alerts that are suppressed. -/
theorem decisions_thin (m : OrderedMap Key τ) (alerts : List Alert)
    (h : Thins (decisions window now m alerts) thin) :
    decisions window now m (thin.map Prod.fst) = thin ∧
      sift window now m (thin.map Prod.fst) = sift window now m alerts := by
  induction alerts generalizing m thin with
  | nil =>
    cases h
    exact ⟨rfl, rfl⟩
  | cons a rest ih =>
    rcases hpass : pass window now m a with f | _ | after
    · -- from here on nothing is suppressed, so nothing is left out
      have unjudged := decisions_of_fault hpass rest
      have full : thin = decisions window now m (a :: rest) :=
        h.eq_of_none_suppressed (by simp [unjudged])
      rw [full, map_fst_decisions]
      exact ⟨rfl, rfl⟩
    · obtain ⟨hdecisions, hsift⟩ := decisions_of_suppressed hpass rest
      rw [hdecisions] at h
      rw [hsift]
      cases h with
      | @keep _ _ thin h =>
        obtain ⟨first, same⟩ := ih m h
        obtain ⟨hdecisions, hsift⟩ := decisions_of_suppressed hpass (thin.map Prod.fst)
        rw [List.map_cons, hdecisions, hsift, first, same]
        exact ⟨rfl, rfl⟩
      | drop h => exact ih m h
    · obtain ⟨hdecisions, hsift⟩ := decisions_of_passes hpass rest
      rw [hdecisions] at h
      rw [hsift]
      cases h with
      | @keep _ _ thin h =>
        obtain ⟨first, same⟩ := ih after h
        obtain ⟨hdecisions, hsift⟩ := decisions_of_passes hpass (thin.map Prod.fst)
        rw [List.map_cons, hdecisions, hsift, first, same]
        exact ⟨rfl, rfl⟩

end Decisions

section Filter
variable {τ : Type} [Clock τ] [LT τ] [LE τ] [DecidableLT τ] [DecidableLE τ] [OfNat τ 0]
  {d : Deduper τ} {now : τ} {alerts unique : List Alert} {thin : List (Alert × Decision)}

/-- What a deduper decides on a batch. A window that is not positive passes all. -/
def judged (d : Deduper τ) (now : τ) (alerts : List Alert) : List (Alert × Decision) :=
  if d.window ≤ 0 then alerts.map (·, .passes) else decisions d.window now d.suppressed alerts

theorem map_fst_judged (d : Deduper τ) (now : τ) (alerts : List Alert) :
    (d.judged now alerts).map Prod.fst = alerts := by
  unfold judged
  split
  · exact map_fst_decided _ _
  · exact map_fst_decisions _ _

theorem judged_tells (ok : (d.filter now alerts).1 = .ok unique) : Tells (d.judged now alerts) unique := by
  unfold filter at ok
  unfold judged
  split
  · rename_i hw
    rw [if_pos hw] at ok
    rw [← Except.ok.inj ok]
    exact tells_of_all_pass alerts
  · rename_i hw
    rw [if_neg hw] at ok
    rcases hfault : (sift d.window now d.suppressed alerts).fault with _ | f
    · simp only [hfault] at ok
      rw [← Except.ok.inj ok]
      exact decisions_tell _ _ hfault
    · simp [hfault] at ok

theorem filter_thin (h : Thins (d.judged now alerts) thin) :
    d.judged now (thin.map Prod.fst) = thin ∧ d.filter now (thin.map Prod.fst) = d.filter now alerts := by
  unfold judged at h ⊢
  unfold filter
  split
  · rename_i hw
    rw [if_pos hw] at h
    have full : thin = alerts.map (·, .passes) := h.eq_of_none_suppressed (by simp)
    rw [full, map_fst_decided]
    exact ⟨rfl, rfl⟩
  · rename_i hw
    rw [if_neg hw] at h
    obtain ⟨first, same⟩ := decisions_thin _ _ h
    rw [same]
    exact ⟨first, rfl⟩

end Filter

end Deduper

/-! ### Detection -/

namespace Detector

/-- A batch, with the readings of the clock at which it comes to the deduper and to the limiter. -/
structure Intake (τ : Type) where
  dedupedAt : τ
  limitedAt : τ
  alerts : List Alert

/-- The batch with only some of its alerts. -/
def Intake.keeping {τ : Type} (i : Intake τ) (kept : List (Alert × Decision)) : Intake τ :=
  { i with alerts := kept.map Prod.fst }

/-- What becomes of a batch: the decision of the deduper on every alert, and the alerts that the limiter sees,
with their flags and whether they pass. -/
structure Sieved where
  decisions : List (Alert × Decision)
  metered : Except Fault (List (Alert × Bool))

/-- The same with the decisions on only some of the alerts. -/
def Sieved.keeping (s : Sieved) (kept : List (Alert × Decision)) : Sieved := { s with decisions := kept }

/-- The decisions are on the alerts of the batch, and what passes by them is what the limiter sees. -/
structure Sieved.Accords (s : Sieved) (alerts : List Alert) : Prop where
  alerts : s.decisions.map Prod.fst = alerts
  metered : ∀ metered, s.metered = .ok metered →
    ∃ unique, Tells s.decisions unique ∧ List.Forall₂ Metered unique metered

/-- What is returned of a batch: all that the limiter sees, or what it passes. -/
def Sieved.returned (s : Sieved) (includeLimited : Bool) : Except Fault (List Alert) :=
  s.metered.map fun metered => if includeLimited then metered.map Prod.fst else passedOf metered

section AnyClock
variable {τ : Type} [Clock τ] [LT τ] [LE τ] [DecidableLT τ] [DecidableLE τ] [OfNat τ 0]

/-- What the deduper decides on a batch, if there is one. -/
def judged (d : Detector τ) (now : τ) (alerts : List Alert) : List (Alert × Decision) :=
  match d.deduper with
  | none => alerts.map (·, .passes)
  | some deduper => deduper.judged now alerts

/-- The deduper and then the limiter go through a batch. -/
def sieve (d : Detector τ) (i : Intake τ) : Sieved × Detector τ :=
  let decisions := d.judged i.dedupedAt i.alerts
  match d.dedupe i.dedupedAt i.alerts with
  | (.error f, d) => (⟨decisions, .error f⟩, d)
  | (.ok unique, d) =>
    let (metered, d) := d.limit i.limitedAt unique
    (⟨decisions, metered⟩, d)

/-- One batch after the other. -/
def sieveAll (d : Detector τ) : List (Intake τ) → List Sieved × Detector τ
  | [] => ([], d)
  | i :: rest =>
    let (one, d) := d.sieve i
    let (more, d) := d.sieveAll rest
    (one :: more, d)

variable {d : Detector τ} {now : τ} {alerts unique : List Alert} {i : Intake τ} {thin : List (Alert × Decision)}

theorem map_fst_judged (d : Detector τ) (now : τ) (alerts : List Alert) :
    (d.judged now alerts).map Prod.fst = alerts := by
  unfold judged
  split
  · exact map_fst_decided _ _
  · exact Deduper.map_fst_judged _ _ _

theorem judged_tells (ok : (d.dedupe now alerts).1 = .ok unique) : Tells (d.judged now alerts) unique := by
  unfold dedupe at ok
  unfold judged
  rcases hd : d.deduper with _ | deduper
  · rw [hd] at ok
    rw [← Except.ok.inj ok]
    exact tells_of_all_pass alerts
  · rw [hd] at ok
    exact Deduper.judged_tells ok

theorem dedupe_thin (h : Thins (d.judged now alerts) thin) :
    d.judged now (thin.map Prod.fst) = thin ∧ d.dedupe now (thin.map Prod.fst) = d.dedupe now alerts := by
  unfold judged at h ⊢
  unfold dedupe
  rcases hd : d.deduper with _ | deduper
  · rw [hd] at h
    have full : thin = alerts.map (·, .passes) := h.eq_of_none_suppressed (by simp)
    rw [full, map_fst_decided]
    exact ⟨rfl, rfl⟩
  · rw [hd] at h
    obtain ⟨first, same⟩ := Deduper.filter_thin h
    refine ⟨first, ?_⟩
    simp only [same]

theorem sieve_decisions (d : Detector τ) (i : Intake τ) :
    (d.sieve i).1.decisions = d.judged i.dedupedAt i.alerts := by
  unfold sieve
  simp only
  split <;> rfl

theorem sieve_thin (h : Thins (d.sieve i).1.decisions thin) :
    d.sieve (i.keeping thin) = ((d.sieve i).1.keeping thin, (d.sieve i).2) := by
  rw [sieve_decisions] at h
  obtain ⟨first, same⟩ := dedupe_thin h
  unfold sieve Intake.keeping
  simp only [first, same]
  split <;> rfl

theorem sieve_accords (d : Detector τ) (i : Intake τ) : (d.sieve i).1.Accords i.alerts where
  alerts := by
    rw [sieve_decisions]
    exact map_fst_judged _ _ _
  metered metered ok := by
    rw [sieve_decisions]
    unfold sieve at ok
    simp only at ok
    split at ok
    · cases ok
    · rename_i unique d' hdedupe
      exact ⟨unique, judged_tells (congrArg Prod.fst hdedupe), limit_metered ok⟩

/-- Detection sends what its rules find through deduper and limiter. -/
theorem evaluate_of_gather {clock : τ} {time : Timestamp} {s : Snapshot} {metadata : Metadata} {found : Findings}
    (hfound : gather d.rules s metadata time d.ids = found) (ok : found.fault = none) (includeLimited : Bool) :
    let sieved := { d with ids := found.ids }.sieve ⟨clock, clock, found.alerts⟩
    (d.evaluate clock time s metadata includeLimited).alerts = sieved.1.returned includeLimited ∧
      (d.evaluate clock time s metadata includeLimited).detector = sieved.2 := by
  simp only [evaluate, sieve, hfound, ok]
  generalize dedupe _ clock found.alerts = deduped
  rcases deduped with ⟨f | unique, d₁⟩
  · exact ⟨rfl, rfl⟩
  · simp only
    generalize d₁.limit clock unique = limited
    rcases limited with ⟨f | metered, d₂⟩
    · exact ⟨rfl, rfl⟩
    · exact ⟨rfl, rfl⟩

/-! ### Runs -/

theorem sieveAll_cons (d : Detector τ) (i : Intake τ) (rest : List (Intake τ)) : d.sieveAll (i :: rest) =
    ((d.sieve i).1 :: ((d.sieve i).2.sieveAll rest).1, ((d.sieve i).2.sieveAll rest).2) := rfl

theorem sieveAll_thin {intakes : List (Intake τ)} {kept : List (List (Alert × Decision))}
    (h : List.Forall₂ (fun s thin => Thins s.decisions thin) (d.sieveAll intakes).1 kept) :
    d.sieveAll (intakes.zipWith Intake.keeping kept) =
      ((d.sieveAll intakes).1.zipWith Sieved.keeping kept, (d.sieveAll intakes).2) := by
  induction intakes generalizing d kept with
  | nil =>
    cases h
    rfl
  | cons i rest ih =>
    rw [sieveAll_cons] at h ⊢
    cases h with
    | cons one h =>
      rw [List.zipWith_cons_cons, List.zipWith_cons_cons, sieveAll_cons, sieve_thin one, ih h]

/-- Any of the alerts that the deduper suppresses can be left out of the batches of a run. The decisions on the
others stay the same, and so does all that the limiter sees and flags, and what both hold at the end. This is
what detection does with what its rules find. -/
theorem sieveAll_keeping (d : Detector τ) (intakes : List (Intake τ)) :
    (∀ kept, List.Forall₂ (fun s thin => Thins s.decisions thin) (d.sieveAll intakes).1 kept →
      d.sieveAll (intakes.zipWith Intake.keeping kept) =
        ((d.sieveAll intakes).1.zipWith Sieved.keeping kept, (d.sieveAll intakes).2)) ∧
    (∀ i, (d.sieve i).1.Accords i.alerts) ∧
    ∀ clock time s metadata found, gather d.rules s metadata time d.ids = found → found.fault = none →
      ∀ includeLimited, let sieved := { d with ids := found.ids }.sieve ⟨clock, clock, found.alerts⟩
        (d.evaluate clock time s metadata includeLimited).alerts = sieved.1.returned includeLimited ∧
          (d.evaluate clock time s metadata includeLimited).detector = sieved.2 :=
  ⟨fun _ thins => sieveAll_thin thins, d.sieve_accords, fun _ _ _ _ _ => evaluate_of_gather⟩

end AnyClock

/-- Suppression for ten seconds, and one alert of a key in a hundred. -/
def strict : Detector Int where
  rules := []
  deduper := some { window := 10 }
  limiter := some { window := 100, burst := 1 }
  ids := .default fun _ => 0

/-- A duplicate in a batch, one in the next, whose clock has gone back, and an alert beyond the rate after
them. The first duplicate is left out and the second is not. -/
theorem sieveAll_keeping_between :
    let k : Alert := { dedupKey := "k" }
    let l : Alert := { dedupKey := "l" }
    let kept : List (List (Alert × Decision)) :=
      [[(k, .passes), (l, .passes)], [(k, .suppressed)], [(k, .passes)]]
    let intakes : List (Intake Int) := [⟨5, 6, [k, k, l]⟩, ⟨0, 1, [k]⟩, ⟨15, 16, [k]⟩]
    List.Forall₂ (fun s thin => Thins s.decisions thin) (strict.sieveAll intakes).1 kept ∧
      strict.sieveAll [⟨5, 6, [k, l]⟩, ⟨0, 1, [k]⟩, ⟨15, 16, [k]⟩] =
        ((strict.sieveAll intakes).1.zipWith Sieved.keeping kept, (strict.sieveAll intakes).2) := by
  intro k l kept intakes
  have thins : List.Forall₂ (fun s thin => Thins s.decisions thin) (strict.sieveAll intakes).1 kept :=
    .cons (.keep (.drop (.keep .nil))) (.cons (.keep .nil) (.cons (.keep .nil) .nil))
  exact ⟨thins, (sieveAll_keeping strict intakes).1 kept thins⟩

end Detector

end HostWatch
