import HostWatch.Capture.FileWatch
import HostWatch.Proofs.Capture.Series
import HostWatch.Proofs.OrderedMap
import Mathlib.Data.List.Nodup

/-!
# File events are the difference of two scans

`Scan.exactChanges`: between two scans each path has the event that its states tell, at most one, and the
events lead from the old paths to the new ones. A scan takes in no more files than it is allowed to
(`Scan.length_ofPaths`). `FileWatchCapturer.events_exact` puts both to any series of captures.
-/

namespace HostWatch

namespace Scan

open OrderedMap

variable {old new scan : Scan} {path : String} {c : FileChange}

/-! ### Two scans -/

/-- What is left of some paths, or comes to them. -/
def follow (paths : List String) : String × FileChange → List String
  | (path, .create) => paths.insert path
  | (path, .delete) => paths.erase path
  | (_, .modify) => paths

/-- What the events between two scans have to be. -/
structure ExactChanges (old new : Scan) (events : List (String × FileChange)) : Prop where
  create : ∀ path, (path, .create) ∈ events ↔ path ∈ keys new ∧ path ∉ keys old
  delete : ∀ path, (path, .delete) ∈ events ↔ path ∈ keys old ∧ path ∉ keys new
  modify : ∀ path, (path, .modify) ∈ events ↔
    ∃ before after, get? old path = some before ∧ get? new path = some after ∧ before ≠ after
  once : (events.map Prod.fst).Nodup
  leads : (events.foldl follow (keys old)).Perm (keys new)
  nil_iff : events = [] ↔ ∀ path, get? old path = get? new path

theorem mem_changes : (path, c) ∈ changes old new ↔
    (∃ state, (path, state) ∈ new ∧ changeOf old path state = some c) ∨
      c = .delete ∧ path ∈ keys old ∧ path ∉ keys new := by
  unfold changes
  rw [List.mem_append, List.mem_filterMap, List.mem_filterMap]
  refine or_congr ⟨?_, ?_⟩ ⟨?_, ?_⟩
  · rintro ⟨⟨p, state⟩, hmem, h⟩
    obtain ⟨c', hc, heq⟩ := Option.map_eq_some_iff.1 h
    cases heq
    exact ⟨state, hmem, hc⟩
  · rintro ⟨state, hmem, hc⟩
    exact ⟨(path, state), hmem, Option.map_eq_some_iff.2 ⟨c, hc, rfl⟩⟩
  · rintro ⟨⟨p, state⟩, hmem, h⟩
    dsimp only at h
    split at h
    · cases h
    · rename_i absent
      cases h
      exact ⟨rfl, List.mem_map_of_mem hmem, mt contains_iff.2 absent⟩
  · rintro ⟨rfl, there, gone⟩
    obtain ⟨⟨p, state⟩, hmem, rfl⟩ := List.mem_map.1 there
    exact ⟨(p, state), hmem, if_neg (mt contains_iff.1 gone)⟩

theorem changeOf_ne_delete {state : FileState} : changeOf old path state ≠ some .delete := by
  unfold changeOf
  split
  · exact fun h => by cases h
  · split <;> exact fun h => by cases h

theorem changeOf_eq_create {state : FileState} : changeOf old path state = some .create ↔ get? old path = none := by
  unfold changeOf
  split
  · simp_all
  · split <;> simp_all

theorem changeOf_eq_modify {state : FileState} : changeOf old path state = some .modify ↔
    ∃ before, get? old path = some before ∧ before ≠ state := by
  unfold changeOf
  split
  · simp_all
  · split <;> simp_all

theorem create_mem_changes : (path, .create) ∈ changes old new ↔ path ∈ keys new ∧ path ∉ keys old := by
  rw [mem_changes]
  constructor
  · rintro (⟨state, hmem, hc⟩ | ⟨h, -⟩)
    · exact ⟨List.mem_map_of_mem hmem, get?_eq_none_iff.1 (changeOf_eq_create.1 hc)⟩
    · cases h
  · rintro ⟨there, absent⟩
    obtain ⟨⟨p, state⟩, hmem, rfl⟩ := List.mem_map.1 there
    exact .inl ⟨state, hmem, changeOf_eq_create.2 (get?_eq_none_iff.2 absent)⟩

theorem delete_mem_changes : (path, .delete) ∈ changes old new ↔ path ∈ keys old ∧ path ∉ keys new := by
  rw [mem_changes]
  constructor
  · rintro (⟨state, -, hc⟩ | ⟨-, h⟩)
    · exact absurd hc changeOf_ne_delete
    · exact h
  · exact fun h => .inr ⟨rfl, h⟩

theorem modify_mem_changes (distinct : Distinct new) : (path, .modify) ∈ changes old new ↔
    ∃ before after, get? old path = some before ∧ get? new path = some after ∧ before ≠ after := by
  rw [mem_changes]
  constructor
  · rintro (⟨after, hmem, hc⟩ | ⟨h, -⟩)
    · obtain ⟨before, hold, hne⟩ := changeOf_eq_modify.1 hc
      exact ⟨before, after, hold, distinct.get?_iff.2 hmem, hne⟩
    · cases h
  · rintro ⟨before, after, hold, hnew, hne⟩
    exact .inl ⟨after, mem_of_get? hnew, changeOf_eq_modify.2 ⟨before, hold, hne⟩⟩

theorem map_fst_filterMap_sublist {α β : Type} {f : String × α → Option (String × β)}
    (keeps : ∀ e x, f e = some x → x.1 = e.1) (m : List (String × α)) :
    ((m.filterMap f).map Prod.fst).Sublist (m.map Prod.fst) := by
  induction m with
  | nil => exact .slnil
  | cons e m ih =>
    rw [List.filterMap_cons]
    split
    · exact ih.cons _
    · rename_i x h
      rw [List.map_cons, List.map_cons, keeps e x h]
      exact ih.cons_cons _

theorem changes_once (hold : Distinct old) (hnew : Distinct new) : ((changes old new).map Prod.fst).Nodup := by
  unfold changes
  rw [List.map_append, List.nodup_append]
  refine ⟨List.Sublist.nodup (map_fst_filterMap_sublist ?_ new) (distinct_iff_nodup.1 hnew),
    List.Sublist.nodup (map_fst_filterMap_sublist ?_ old) (distinct_iff_nodup.1 hold), ?_⟩
  · rintro ⟨p, state⟩ x h
    obtain ⟨c, -, rfl⟩ := Option.map_eq_some_iff.1 h
    rfl
  · rintro ⟨p, state⟩ x h
    dsimp only at h
    split at h <;> cases h
    rfl
  · -- The events of the first half are about files that are there, those of the second are not.
    intro p hp q hq same
    subst same
    obtain ⟨⟨_, c⟩, hmem, rfl⟩ := List.mem_map.1 hp
    obtain ⟨⟨p, state⟩, there, h⟩ := List.mem_filterMap.1 hmem
    obtain ⟨_, -, heq⟩ := Option.map_eq_some_iff.1 h
    obtain ⟨⟨_, d⟩, hmem', hq⟩ := List.mem_map.1 hq
    obtain ⟨⟨q, _⟩, -, h'⟩ := List.mem_filterMap.1 hmem'
    dsimp only at h' hq
    split at h' <;> cases h'
    rename_i absent
    cases heq
    subst hq
    exact absent (contains_iff.2 (List.mem_map_of_mem there))

theorem follow_nodup {paths : List String} (h : paths.Nodup) (e : String × FileChange) : (follow paths e).Nodup := by
  rcases e with ⟨p, _ | _ | _⟩
  · exact h.insert
  · exact h
  · exact h.erase p

theorem mem_follow {paths : List String} (h : paths.Nodup) (e : String × FileChange) :
    path ∈ follow paths e ↔ e = (path, .create) ∨ path ∈ paths ∧ e ≠ (path, .delete) := by
  rcases e with ⟨p, _ | _ | _⟩
  · simp [follow, List.mem_insert_iff, eq_comm]
  · simp [follow]
  · simp [follow, h.mem_erase_iff, and_comm, eq_comm]

/-- What becomes of the paths by a list of events, each about another path. -/
theorem mem_foldl_follow {events : List (String × FileChange)} {paths : List String} (h : paths.Nodup)
    (once : (events.map Prod.fst).Nodup) : (events.foldl follow paths).Nodup ∧
      ∀ path, path ∈ events.foldl follow paths ↔
        (path, .create) ∈ events ∨ path ∈ paths ∧ (path, .delete) ∉ events := by
  induction events generalizing paths with
  | nil => exact ⟨h, by simp⟩
  | cons e events ih =>
    obtain ⟨other, once⟩ := List.nodup_cons.1 once
    obtain ⟨nodup, mem⟩ := ih (follow_nodup h e) once
    refine ⟨nodup, fun path => ?_⟩
    have single (c : FileChange) : e.1 = path → (path, c) ∉ events := by
      rintro rfl hmem
      exact other (List.mem_map.2 ⟨_, hmem, rfl⟩)
    rw [List.foldl_cons, mem, mem_follow h, List.mem_cons, List.mem_cons]
    by_cases same : e.1 = path
    · have := single .create same
      have := single .delete same
      grind
    · have (c : FileChange) : e ≠ (path, c) := by
        rintro rfl
        exact same rfl
      grind

theorem exactChanges (hold : Distinct old) (hnew : Distinct new) : ExactChanges old new (changes old new) where
  create _ := create_mem_changes
  delete _ := delete_mem_changes
  modify _ := modify_mem_changes hnew
  once := changes_once hold hnew
  leads := by
    obtain ⟨nodup, mem⟩ := mem_foldl_follow (distinct_iff_nodup.1 hold) (changes_once hold hnew)
    refine (List.perm_ext_iff_of_nodup nodup (distinct_iff_nodup.1 hnew)).2 fun path => ?_
    rw [mem, create_mem_changes, delete_mem_changes]
    by_cases path ∈ keys new <;> by_cases path ∈ keys old <;> simp_all
  nil_iff := by
    constructor
    · intro none path
      have absent (e : String × FileChange) : e ∉ changes old new := by simp [none]
      have create := mt create_mem_changes.2 (absent (path, .create))
      have delete := mt delete_mem_changes.2 (absent (path, .delete))
      have modify := mt (modify_mem_changes hnew).2 (absent (path, .modify))
      rcases ho : get? old path with _ | before <;> rcases hn : get? new path with _ | after
      · rfl
      · exact absurd ⟨mem_keys_of_get? hn, get?_eq_none_iff.1 ho⟩ create
      · exact absurd ⟨mem_keys_of_get? ho, get?_eq_none_iff.1 hn⟩ delete
      · by_cases same : before = after
        · rw [same]
        · exact absurd ⟨before, after, ho, hn, same⟩ modify
    · intro same
      have keys_iff (path : String) : path ∈ keys old ↔ path ∈ keys new := by
        rw [← isSome_get?, ← isSome_get?, same]
      refine List.eq_nil_iff_forall_not_mem.2 ?_
      rintro ⟨path, _ | _ | _⟩ hmem
      · obtain ⟨h, h'⟩ := create_mem_changes.1 hmem
        exact h' ((keys_iff path).2 h)
      · obtain ⟨before, after, ho, hn, hne⟩ := (modify_mem_changes hnew).1 hmem
        rw [same, hn] at ho
        exact hne (Option.some.inj ho).symm
      · obtain ⟨h, h'⟩ := delete_mem_changes.1 hmem
        exact h' ((keys_iff path).1 h)

/-! ### Scanning -/

section
variable {f : Files} {limit : Value} {full : Bool} {found : Scan}

/-- No path stands twice in a scan, and it is not longer than allowed. -/
structure Within (limit : Value) (scan : Scan) : Prop where
  distinct : Distinct scan
  length_le : ∀ n, limit = .int n → (scan.length : Int) ≤ max 0 n

theorem Within.nil : Within limit [] := ⟨distinct_nil, fun n _ => Int.le_max_left 0 n⟩

theorem Within.add {paths : List String} (h : Within limit scan)
    (ok : add f limit paths scan = .ok (found, full)) : Within limit found := by
  induction paths generalizing scan with
  | nil =>
    cases ok
    exact h
  | cons path rest ih =>
    obtain ⟨most, hmost, ok⟩ := ok_of_bind ok
    split at ok
    · cases ok
      exact h
    rename_i room
    split at ok
    · rename_i state _
      refine ih ⟨h.distinct.set path state, ?_⟩ ok
      rintro n rfl
      obtain rfl : (Number.int n) = most := Except.ok.inj hmost
      have below : (scan.length : Int) < n := Int.not_le.1 (mt Number.int_le_int.2 room)
      have := length_set_le scan path state
      omega
    · exact ih h ok

theorem Within.addBelow {roots : List Value} (h : Within limit scan)
    (ok : addBelow f limit roots scan = .ok found) : Within limit found := by
  induction roots generalizing scan with
  | nil =>
    cases ok
    exact h
  | cons root rest ih =>
    obtain ⟨path, -, ok⟩ := ok_of_bind ok
    split at ok
    · cases ok
    obtain ⟨⟨next, full⟩, hadd, ok⟩ := ok_of_bind ok
    dsimp only at ok
    split at ok
    · cases ok
      exact h.add hadd
    · exact ih (h.add hadd) ok

theorem within_ofPaths {paths : List Value} (ok : ofPaths f limit paths = .ok found) : Within limit found :=
  Within.nil.addBelow ok

end

end Scan

namespace FileWatchCapturer

variable {paths : List Value} {maxFiles : Value} {fs : List Files} {f : Files} {c c' : FileWatchCapturer}

/-- What a watcher is asked to do. -/
def Asked (paths : List Value) (maxFiles : Value) (c : FileWatchCapturer) : Prop :=
  c.paths = paths ∧ c.maxFiles = maxFiles

theorem capture_eq_of_ok (ok : c.capture f = (c', none)) : ∃ scan, Scan.ofPaths f c.maxFiles c.paths = .ok scan ∧
    c' = { c with
      previous := some scan
      events := (c.previous.map fun old => Scan.changes old scan).getD []
      isWarm := c.previous.isSome } := by
  unfold capture at ok
  split at ok
  · cases ok
  · rename_i scan hscan
    exact ⟨scan, hscan, (congrArg Prod.fst ok).symm⟩

theorem keepsReading : Capture.KeepsReading capture (Asked paths maxFiles) previous
    (Scan.ofPaths · maxFiles paths) := by
  rintro f c ⟨rfl, rfl⟩
  unfold capture
  rcases read : Scan.ofPaths f c.maxFiles c.paths with e | scan
  · exact .inl ⟨c, e, rfl, ⟨rfl, rfl⟩, rfl⟩
  · exact .inr ⟨_, scan, rfl, ⟨rfl, rfl⟩, read, rfl⟩

/-- What a capture that found the files `new` says of them. -/
structure Reports (maxFiles : Value) (new : Scan) (c : FileWatchCapturer) : Prop where
  within : Scan.Within maxFiles new
  count : c.info.metric? "file.events" = some (Binary64.ofInt c.events.length)
  records : c.info.field? "file.events" = some (.list (c.events.map eventValue))

/-- File events are the difference of the scan and the one before it, whatever else was captured. -/
theorem events_exact (run : Capture.Series capture { paths, maxFiles } fs c) (ok : c.capture f = (c', none)) :
    ∃ new, Scan.ofPaths f maxFiles paths = .ok new ∧ Reports maxFiles new c' ∧ (fs = [] → c'.events = []) ∧
      ∀ f₀, fs.getLast? = some f₀ →
        ∃ old, Scan.ofPaths f₀ maxFiles paths = .ok old ∧ Scan.ExactChanges old new c'.events := by
  obtain ⟨⟨rfl, rfl⟩, -⟩ := run.kept_eq keepsReading ⟨rfl, rfl⟩ rfl
  obtain ⟨new, hnew, rfl⟩ := capture_eq_of_ok ok
  have within := Scan.within_ofPaths hnew
  refine ⟨new, hnew, ⟨within, rfl, rfl⟩, ?_, ?_⟩
  · intro first
    have cold := run.kept_of_nil keepsReading ⟨rfl, rfl⟩ rfl first
    dsimp only
    rw [cold]
    rfl
  · intro f₀ last
    obtain ⟨old, hold, kept⟩ := run.kept_of_last keepsReading ⟨rfl, rfl⟩ rfl last
    refine ⟨old, hold, ?_⟩
    dsimp only
    rw [kept]
    exact Scan.exactChanges (Scan.within_ofPaths hold).distinct within.distinct

/-- Three directories with a file each: one of a name, one that is kept, and one that is written to. -/
def threeFiles (name text : String) (modified : Int) : Files where
  entries := [(["work"], .directory), (["work", "p"], .directory), (["work", "p", name], .file 0),
    (["work", "q"], .directory), (["work", "q", "kept"], .file 1), (["work", "r"], .directory),
    (["work", "r", "log"], .file 2)]
  bodies := [(0, ⟨.text "x", 0⟩), (1, ⟨.text "y", 0⟩), (2, ⟨.text text, modified⟩)]
  changes := 3

/-- One file is gone and another has come, and one has grown. -/
def earlier : Files := threeFiles "old" "z" 0
def later : Files := threeFiles "new" "zz" 1

def watcher : FileWatchCapturer := { paths := ["p", "q", "r"], maxFiles := .int 5 }

theorem events_exact_mixed : ∃ c c', Capture.Series capture watcher [earlier] c ∧
    c.capture later = (c', none) ∧
    c'.events = [("p/new", .create), ("r/log", .modify), ("p/old", .delete)] ∧
    ∃ old new, Scan.ofPaths earlier watcher.maxFiles watcher.paths = .ok old ∧
      Scan.ofPaths later watcher.maxFiles watcher.paths = .ok new ∧ Scan.ExactChanges old new c'.events := by
  have first : (watcher.capture earlier).2 = none := Option.isNone_iff_eq_none.1 (by decide +kernel)
  have second : ((watcher.capture earlier).1.capture later).2 = none :=
    Option.isNone_iff_eq_none.1 (by decide +kernel)
  have run : Capture.Series capture watcher [earlier] (watcher.capture earlier).1 :=
    .single (Prod.ext rfl first)
  obtain ⟨new, hnew, -, -, changed⟩ := events_exact run (Prod.ext rfl second)
  obtain ⟨old, hold, exact⟩ := changed earlier rfl
  exact ⟨_, _, run, Prod.ext rfl second, by decide +kernel, old, new, hold, hnew, exact⟩

end FileWatchCapturer

end HostWatch
