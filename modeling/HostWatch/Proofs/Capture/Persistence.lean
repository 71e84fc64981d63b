import HostWatch.Proofs.Capture.Autoruns
import HostWatch.Proofs.Capture.Series
import HostWatch.Proofs.Rule.Silence

/-!
# From the entries of two captures to the alert on them

A capture that is not the first tells the difference from the last successful one before it, and the rule on
changes alerts if the difference is large enough: `PersistenceCapturer.change_exact`. The rule gets the
numbers as doubles, which are exact below `2 ^ 53`; that many entries fit into no machine.
-/

namespace HostWatch

open PersistenceCapturer (size)

/-- The measurements and the field that tell a difference. -/
structure Snapshot.Tells (s : Snapshot) (d : AutorunsDiff) : Prop where
  added : s.metric? "persist.added" = some (size d.added)
  changed : s.metric? "persist.changed" = some (size d.changed)
  removed : s.metric? "persist.removed" = some (size d.removed)
  diff : s.field? "persist.diff" = if d.isEmpty then none else some d.toValue

namespace Rule
variable {s : Snapshot} {d : AutorunsDiff} {least : Int}

theorem count_size {α : Type} {l : List α} (small : l.length < twoPow 53) : count (size l) = .ok l.length := by
  unfold count size
  rw [Binary64.truncate?_ofInt small]
  rfl

/-- What an alert on a difference shows of it. -/
def evidenceOf (d : AutorunsDiff) : List (String × Value) := [
  ("persist.added", .int d.added.length), ("persist.changed", .int d.changed.length),
  ("persist.removed", .int d.removed.length), ("entries", d.toValue)]

/-- The rule on changes, on a difference that `n` labels stand in. -/
structure ChangeLaw (least : Int) (n : Nat) (d : AutorunsDiff) (s : Snapshot) : Prop where
  alerts : least ≤ n → ∃ a, (persistenceChange (.int least)).findings s = .ok [a] ∧
    a.ruleId = .text "persist.change" ∧ a.evidence = evidenceOf d
  silent : n < least → (persistenceChange (.int least)).findings s = .ok []

theorem changeLaw (tells : s.Tells d) (positive : 1 ≤ least)
    (small : d.added.length + d.changed.length + d.removed.length < twoPow 53) :
    ChangeLaw least (d.added.length + d.changed.length + d.removed.length) d s := by
  have hadded : countOrZero (s.metric? "persist.added") = .ok d.added.length := by
    rw [tells.added]
    exact count_size (by omega)
  have hchanged : countOrZero (s.metric? "persist.changed") = .ok d.changed.length := by
    rw [tells.changed]
    exact count_size (by omega)
  have hremoved : countOrZero (s.metric? "persist.removed") = .ok d.removed.length := by
    rw [tells.removed]
    exact count_size (by omega)
  have measured : ((s.metric? "persist.added").isNone && (s.metric? "persist.changed").isNone &&
      (s.metric? "persist.removed").isNone) = false := by simp [tells.added]
  have fewer := isFewer_int (d.added.length + d.changed.length + d.removed.length) least
  constructor
  · intro enough
    -- The field is there, as an alert has at least one label to show.
    have notEmpty : d.isEmpty = false := by
      by_contra empty
      simp only [AutorunsDiff.isEmpty, Bool.not_eq_false, Bool.and_eq_true, List.isEmpty_iff_length_eq_zero] at empty
      omega
    have entries : (s.field? "persist.diff").bind Value.nonempty? = some d.toValue := by
      rw [tells.diff, notEmpty]
      rfl
    rw [decide_eq_false (by omega)] at fewer
    simp only [findings, persistenceChange, measured, Bool.false_eq_true, if_false, entries]
    rw [hadded, hchanged, hremoved]
    dsimp only [bind, Except.bind]
    rw [fewer]
    exact ⟨_, rfl, rfl, rfl⟩
  · intro few
    rw [decide_eq_true (by omega)] at fewer
    simp only [findings, persistenceChange, measured, Bool.false_eq_true, if_false]
    rw [hadded, hchanged, hremoved]
    dsimp only [bind, Except.bind]
    rw [fewer]
    rfl

/-- Where no difference is told there is none to alert on. -/
theorem persistenceChange_of_unmeasured (least : Value) (added : s.metric? "persist.added" = none)
    (changed : s.metric? "persist.changed" = none) (removed : s.metric? "persist.removed" = none) :
    (persistenceChange least).findings s = .ok [] := by
  simp only [findings, persistenceChange, added, changed, removed]
  rfl

end Rule

namespace PersistenceCapturer

variable {folders : List String} {ts : List (Machine × Files)} {t : Machine × Files}
  {c c' : PersistenceCapturer}

/-- One capture of a machine and its files. -/
def take (t : Machine × Files) (c : PersistenceCapturer) : PersistenceCapturer × Option Fault := c.capture t.1 t.2

theorem take_eq_of_ok (ok : take t c = (c', none)) : ∃ entries, Autoruns.collect t.1 t.2 c.folders = .ok entries ∧
    c' = { c with previous := c.current, current := some entries } := by
  unfold take capture at ok
  split at ok
  · cases ok
  · rename_i entries hentries
    exact ⟨entries, hentries, (congrArg Prod.fst ok).symm⟩

theorem keepsReading : Capture.KeepsReading take (·.folders = folders) current
    fun t => Autoruns.collect t.1 t.2 folders := by
  rintro t c rfl
  unfold take capture
  rcases read : Autoruns.collect t.1 t.2 c.folders with e | entries
  · exact .inl ⟨_, e, rfl, rfl, rfl⟩
  · exact .inr ⟨_, entries, rfl, rfl, read, rfl⟩

theorem info_tells {old new : Autoruns} (hprevious : c.previous = some old) (hcurrent : c.current = some new) :
    c.info.Tells (AutorunsDiff.between old new) := by
  unfold info
  rw [hcurrent, hprevious]
  refine ⟨rfl, rfl, rfl, ?_⟩
  show OrderedMap.get? (if (AutorunsDiff.between old new).isEmpty then _ else _) "persist.diff" = _
  split <;> rfl

theorem info_unmeasured (cold : c.previous = none) (least : Value) :
    (Rule.persistenceChange least).findings c.info = .ok [] := by
  have none (name : String) (h : name ≠ "persist.entries") : c.info.metric? name = none := by
    unfold info
    rw [cold]
    rcases c.current with _ | entries
    · rfl
    · show OrderedMap.get? [("persist.entries", _)] name = none
      simp [OrderedMap.get?, h.symm]
  exact Rule.persistenceChange_of_unmeasured least (none _ (by decide)) (none _ (by decide)) (none _ (by decide))

/-- What a capture says of the entries `new`, where `old` are those of the successful capture before. -/
structure Reports (old new : Autoruns) (s : Snapshot) : Prop where
  exact : (AutorunsDiff.between old new).Exact old new
  tells : s.Tells (AutorunsDiff.between old new)
  alerts : ∀ least : Int, 1 ≤ least → (Autoruns.differing old new).card < twoPow 53 →
    Rule.ChangeLaw least (Autoruns.differing old new).card (AutorunsDiff.between old new) s

/-- Changes among the entries are told and alerted on as they are; there are none at the first capture. -/
theorem change_exact (run : Capture.Series take { folders } ts c) (ok : take t c = (c', none)) :
    ∃ new, Autoruns.collect t.1 t.2 folders = .ok new ∧
      (ts = [] → ∀ least, (Rule.persistenceChange least).findings c'.info = .ok []) ∧
      ∀ t₀, ts.getLast? = some t₀ →
        ∃ old, Autoruns.collect t₀.1 t₀.2 folders = .ok old ∧ Reports old new c'.info := by
  obtain ⟨rfl, -⟩ := run.kept_eq keepsReading rfl rfl
  obtain ⟨new, hnew, rfl⟩ := take_eq_of_ok ok
  refine ⟨new, hnew, ?_, ?_⟩
  · intro first
    exact info_unmeasured (run.kept_of_nil keepsReading rfl rfl first)
  · intro t₀ last
    obtain ⟨old, hold, kept⟩ := run.kept_of_last keepsReading rfl rfl last
    have distinct := Autoruns.distinct_collect hold
    have distinct' := Autoruns.distinct_collect hnew
    have tells := info_tells (c := { c with previous := c.current, current := some new }) kept rfl
    refine ⟨old, hold, AutorunsDiff.exact_between distinct distinct', tells, ?_⟩
    intro least positive small
    rw [← AutorunsDiff.size_between distinct distinct'] at small ⊢
    exact Rule.changeLaw tells positive small

/-- A folder with three files: one of a name, one that is kept, and one that is written to. -/
def folder (name text : String) (modified : Int) : Files where
  entries := [(["work"], .directory), (["work", name], .file 0), (["work", "kept"], .file 1),
    (["work", "log"], .file 2)]
  bodies := [(0, ⟨.text "x", 0⟩), (1, ⟨.text "y", 0⟩), (2, ⟨.text text, modified⟩)]
  changes := 3

/-- One file is gone and another has come, and one has grown. -/
def before : Machine × Files := ({}, folder "old" "z" 0)
def after : Machine × Files := ({}, folder "new" "zz" 1)

def capturer : PersistenceCapturer := { folders := ["/work"] }

theorem change_exact_mixed : ∃ c c' old new, Capture.Series take capturer [before] c ∧ take after c = (c', none) ∧
    Autoruns.collect before.1 before.2 capturer.folders = .ok old ∧
    Autoruns.collect after.1 after.2 capturer.folders = .ok new ∧ Reports old new c'.info ∧
    AutorunsDiff.between old new = ⟨["file:/work/new"], ["file:/work/log"], ["file:/work/old"]⟩ := by
  have first : (take before capturer).2 = none := Option.isNone_iff_eq_none.1 (by decide +kernel)
  have second : (take after (take before capturer).1).2 = none := Option.isNone_iff_eq_none.1 (by decide +kernel)
  have run : Capture.Series take capturer [before] (take before capturer).1 := .single (Prod.ext rfl first)
  obtain ⟨new, hnew, -, changed⟩ := change_exact run (Prod.ext rfl second)
  obtain ⟨old, hold, reports⟩ := changed before rfl
  have told : (AutorunsDiff.between <$> Autoruns.collect before.1 before.2 ["/work"] <*>
      Autoruns.collect after.1 after.2 ["/work"]).toOption =
        some ⟨["file:/work/new"], ["file:/work/log"], ["file:/work/old"]⟩ := by decide +kernel
  rw [hold, hnew] at told
  exact ⟨_, _, old, new, run, Prod.ext rfl second, hold, hnew, reports, Option.some.inj told⟩

end PersistenceCapturer

end HostWatch
