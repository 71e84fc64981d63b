import HostWatch.Capture.Persistence
import HostWatch.Proofs.OrderedMap
import Mathlib.Data.Finset.Card
import Mathlib.Data.List.Nodup

/-!
# The difference of two maps of entries

`AutorunsDiff.exact_between`: the labels of the difference are those under which the two maps differ, each
once and in its own list, and in order; with the new texts they lead from the old map to the new one
(`AutorunsDiff.patched`). So there are as many of them as there are differing labels
(`AutorunsDiff.size_between`).
-/

namespace HostWatch

open OrderedMap

namespace Autoruns
variable {m : Machine} {f : Files} {folders : List String} {entries : Autoruns}

theorem distinct_runKeys (m : Machine) : Distinct (runKeys m) := by
  unfold runKeys
  split
  · exact distinct_ofPairs _
  · exact distinct_nil

theorem distinct_collect (ok : collect m f folders = .ok entries) : Distinct entries := by
  obtain ⟨tasks, -, ok⟩ := ok_of_bind ok
  cases ok
  exact ((distinct_runKeys m).update _).update tasks

/-- The labels under which two maps differ. -/
def differing (old new : Autoruns) : Finset String :=
  (keys old ++ keys new).toFinset.filter fun label => get? old label ≠ get? new label

theorem mem_differing {old new : Autoruns} {label : String} :
    label ∈ differing old new ↔ get? old label ≠ get? new label := by
  unfold differing
  rw [Finset.mem_filter, List.mem_toFinset, List.mem_append]
  refine ⟨And.right, fun h => ⟨?_, h⟩⟩
  by_contra absent
  rw [not_or, ← get?_eq_none_iff, ← get?_eq_none_iff] at absent
  exact h (absent.1.trans absent.2.symm)

end Autoruns

namespace AutorunsDiff
variable {old new : Autoruns} {d : AutorunsDiff} {label : String}

def labels (d : AutorunsDiff) : List String := d.added ++ d.changed ++ d.removed

/-- The old entries without the removed ones, and with the added and the changed ones as they are now. -/
def patched (d : AutorunsDiff) (old new : Autoruns) : Autoruns :=
  update (old.filter fun e => !d.removed.contains e.1)
    (new.filter fun e => d.added.contains e.1 || d.changed.contains e.1)

/-- What the difference from the old entries to the new ones has to be. -/
structure Exact (old new : Autoruns) (d : AutorunsDiff) : Prop where
  sorted : ∀ list ∈ [d.added, d.changed, d.removed], list.Pairwise (· < ·)
  disjoint : [d.added, d.changed, d.removed].Pairwise List.Disjoint
  added : ∀ label, label ∈ d.added ↔ label ∈ keys new ∧ label ∉ keys old
  removed : ∀ label, label ∈ d.removed ↔ label ∈ keys old ∧ label ∉ keys new
  changed : ∀ label, label ∈ d.changed ↔
    ∃ before after, get? old label = some before ∧ get? new label = some after ∧ before ≠ after
  leads : ∀ label, get? (d.patched old new) label = get? new label

theorem mem_sorted {l : List String} : label ∈ sorted l ↔ label ∈ l := (List.mergeSort_perm l _).mem_iff

theorem sorted_increasing {l : List String} (nodup : l.Nodup) : (sorted l).Pairwise (· < ·) := by
  have increasing : (sorted l).Pairwise fun a b => decide (a ≤ b) = true := by
    refine List.pairwise_mergeSort ?_ ?_ l
    · intro a b c hab hbc
      exact decide_eq_true (String.le_trans (of_decide_eq_true hab) (of_decide_eq_true hbc))
    · intro a b
      simpa using String.le_total a b
  have apart : (sorted l).Nodup := (List.mergeSort_perm l _).nodup_iff.2 nodup
  exact (increasing.and apart).imp fun ⟨le, ne⟩ =>
    String.not_le.1 fun ge => ne (String.le_antisymm (of_decide_eq_true le) ge)

theorem mem_added : label ∈ (between old new).added ↔ label ∈ keys new ∧ label ∉ keys old := by
  show label ∈ sorted _ ↔ _
  rw [mem_sorted, List.mem_filter, Bool.not_eq_true', Bool.eq_false_iff, ne_eq, contains_iff]

theorem mem_removed : label ∈ (between old new).removed ↔ label ∈ keys old ∧ label ∉ keys new := by
  show label ∈ sorted _ ↔ _
  rw [mem_sorted, List.mem_filter, Bool.not_eq_true', Bool.eq_false_iff, ne_eq, contains_iff]

theorem mem_changed : label ∈ (between old new).changed ↔
    ∃ before after, get? old label = some before ∧ get? new label = some after ∧ before ≠ after := by
  show label ∈ sorted _ ↔ _
  rw [mem_sorted, List.mem_filter, Bool.and_eq_true, contains_iff, bne_iff_ne]
  constructor
  · rintro ⟨there, before, differ⟩
    obtain ⟨a, ha⟩ := exists_get?_of_mem_keys before
    obtain ⟨b, hb⟩ := exists_get?_of_mem_keys there
    refine ⟨a, b, ha, hb, ?_⟩
    rintro rfl
    exact differ (ha.trans hb.symm)
  · rintro ⟨a, b, ha, hb, differ⟩
    refine ⟨mem_keys_of_get? hb, mem_keys_of_get? ha, ?_⟩
    rw [ha, hb]
    exact fun same => differ (Option.some.inj same)

theorem disjoint_between :
    [(between old new).added, (between old new).changed, (between old new).removed].Pairwise List.Disjoint := by
  have addedChanged : (between old new).added.Disjoint (between old new).changed := by
    intro label hadded hchanged
    obtain ⟨_, _, ha, -⟩ := mem_changed.1 hchanged
    exact (mem_added.1 hadded).2 (mem_keys_of_get? ha)
  have addedRemoved : (between old new).added.Disjoint (between old new).removed :=
    fun label hadded hremoved => (mem_added.1 hadded).2 (mem_removed.1 hremoved).1
  have changedRemoved : (between old new).changed.Disjoint (between old new).removed := by
    intro label hchanged hremoved
    obtain ⟨_, _, -, hb, -⟩ := mem_changed.1 hchanged
    exact (mem_removed.1 hremoved).2 (mem_keys_of_get? hb)
  simp [addedChanged, addedRemoved, changedRemoved]

theorem get?_patched (hnew : Distinct new) (label : String) :
    get? ((between old new).patched old new) label = get? new label := by
  unfold patched
  rw [get?_update _ (hnew.filter _), get?_filter_keys (fun k => _ || _), get?_filter_keys (fun k => !_)]
  -- What is not among the new entries is gone if it was removed, and was never there otherwise.
  rcases hn : get? new label with _ | after
  · rw [ite_self, Option.none_or]
    split
    · rename_i kept
      rw [Bool.not_eq_true', List.contains_eq_mem, decide_eq_false_iff_not, mem_removed, not_and_or,
        not_not] at kept
      rcases kept with absent | there
      · exact get?_eq_none_iff.2 absent
      · exact absurd there (get?_eq_none_iff.1 hn)
    · rfl
  · by_cases told : label ∈ (between old new).added ∨ label ∈ (between old new).changed
    · have : ((between old new).added.contains label || (between old new).changed.contains label) = true := by
        simpa using told
      rw [if_pos this]
      rfl
    · have : ¬ ((between old new).added.contains label || (between old new).changed.contains label) = true := by
        simpa using told
      rw [if_neg this, Option.none_or]
      rw [not_or, mem_added, mem_changed] at told
      have there := mem_keys_of_get? hn
      obtain ⟨before, ho⟩ := exists_get?_of_mem_keys (not_not.1 fun absent => told.1 ⟨there, absent⟩)
      have same : before = after := not_not.1 fun differ => told.2 ⟨before, after, ho, hn, differ⟩
      have kept : label ∉ (between old new).removed := fun h => (mem_removed.1 h).2 there
      rw [if_pos (by simpa using kept), ho, same]

theorem exact_between (hold : Distinct old) (hnew : Distinct new) : Exact old new (between old new) where
  sorted := by
    have fromNew (p : String → Bool) : (sorted ((keys new).filter p)).Pairwise (· < ·) :=
      sorted_increasing ((distinct_iff_nodup.1 hnew).filter p)
    have fromOld (p : String → Bool) : (sorted ((keys old).filter p)).Pairwise (· < ·) :=
      sorted_increasing ((distinct_iff_nodup.1 hold).filter p)
    rintro list hlist
    simp only [List.mem_cons, List.not_mem_nil, or_false] at hlist
    rcases hlist with rfl | rfl | rfl
    · exact fromNew _
    · exact fromNew _
    · exact fromOld _
  disjoint := disjoint_between
  added _ := mem_added
  removed _ := mem_removed
  changed _ := mem_changed
  leads := get?_patched hnew

theorem between_self (m : Autoruns) : between m m = ⟨[], [], []⟩ := by
  have added : (between m m).added = [] :=
    List.eq_nil_iff_forall_not_mem.2 fun label h => (mem_added.1 h).2 (mem_added.1 h).1
  have removed : (between m m).removed = [] :=
    List.eq_nil_iff_forall_not_mem.2 fun label h => (mem_removed.1 h).2 (mem_removed.1 h).1
  have changed : (between m m).changed = [] := by
    refine List.eq_nil_iff_forall_not_mem.2 fun label h => ?_
    obtain ⟨before, after, ha, hb, differ⟩ := mem_changed.1 h
    exact differ (Option.some.inj (ha.symm.trans hb))
  show AutorunsDiff.mk (between m m).added (between m m).changed (between m m).removed = _
  rw [added, changed, removed]

theorem mem_labels : label ∈ (between old new).labels ↔ get? old label ≠ get? new label := by
  unfold labels
  rw [List.mem_append, List.mem_append, mem_added, mem_changed, mem_removed, ← isSome_get?, ← isSome_get?]
  rcases get? old label with _ | a <;> rcases get? new label with _ | b <;> simp

theorem nodup_labels (hold : Distinct old) (hnew : Distinct new) : (between old new).labels.Nodup := by
  have exact := exact_between hold hnew
  have nodup {list : List String} (h : list ∈ [(between old new).added, (between old new).changed,
      (between old new).removed]) : list.Nodup := by
    refine (exact.sorted list h).imp ?_
    rintro a _ lt rfl
    exact String.lt_irrefl a lt
  have disjoint := exact.disjoint
  simp only [List.pairwise_cons, List.mem_cons, List.not_mem_nil, or_false, forall_eq_or_imp, forall_eq] at disjoint
  unfold labels
  rw [List.nodup_append', List.nodup_append', List.disjoint_append_left]
  exact ⟨⟨nodup (by simp), nodup (by simp), disjoint.1.1⟩, nodup (by simp), disjoint.1.2, disjoint.2.1⟩

/-- As many labels as there are that differ. -/
theorem size_between (hold : Distinct old) (hnew : Distinct new) :
    (between old new).added.length + (between old new).changed.length + (between old new).removed.length =
      (Autoruns.differing old new).card := by
  have same : (between old new).labels.toFinset = Autoruns.differing old new := by
    ext label
    rw [List.mem_toFinset, mem_labels, Autoruns.mem_differing]
  rw [← same, List.toFinset_card_of_nodup (nodup_labels hold hnew), labels, List.length_append, List.length_append]

end AutorunsDiff

end HostWatch
