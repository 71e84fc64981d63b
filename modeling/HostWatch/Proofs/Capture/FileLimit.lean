import HostWatch.Proofs.Capture.FileChanges
import HostWatch.Proofs.Files.Walking
import Mathlib.Data.List.Basic

/-!
# Where a scan stops

A scan takes in the files below its roots in the order of the walk and stops at the limit: it is the
beginning of the list of all of them (`Scan.ofPaths_eq_take`). In which order a tree lists the names in a
directory is left open (`Files.precedes`); it need not be the same in two captures. So a file has a create
event where it is before the limit now and was not there or was beyond the limit before, and likewise for
delete events (`FileWatchCapturer.events_cut`). Below the limit create and delete events are true of the tree.
-/

namespace HostWatch

namespace Scan

open OrderedMap

variable {f : Files} {n : Int} {roots : List Value} {scan found m : Scan} {full : Bool} {path : String}

/-- The files among some paths that can be looked at, with what is seen of them. -/
def measured (f : Files) (paths : List String) : List (String × FileState) :=
  paths.filterMap fun path => (f.measure? path).map fun state => (path, state)

/-- The paths of the walk below a root. -/
def listed (f : Files) (root : Value) : List String :=
  match root.toPath with
  | .ok path => f.walk path
  | .error _ => []

/-- All files below the roots in the order of the walk, each where it comes first. -/
def whole (f : Files) (roots : List Value) : Scan := ofPairs (measured f (roots.flatMap (listed f)))

/-- A file lies below one of the roots. -/
def LiesBelow (f : Files) (roots : List Value) (path : String) : Prop :=
  ∃ root ∈ roots, ∃ dir, root.toPath = .ok dir ∧ f.LiesIn dir path

/-- All files below the roots can be looked at. -/
def Readable (f : Files) (roots : List Value) : Prop := ∀ path, LiesBelow f roots path → (f.measure? path).isSome

/-- A file of the tree: it lies below one of the roots and can be looked at. -/
def InTree (f : Files) (roots : List Value) (path : String) : Prop :=
  LiesBelow f roots path ∧ (f.measure? path).isSome

/-- At least `n` other files of the tree come before a file. -/
def Beyond (f : Files) (roots : List Value) (n : Int) (path : String) : Prop :=
  n ≤ (keys (whole f roots)).idxOf path

theorem mem_flatMap_listed : path ∈ roots.flatMap (listed f) ↔ LiesBelow f roots path := by
  rw [List.mem_flatMap]
  refine exists_congr fun root => and_congr_right fun _ => ?_
  unfold listed
  rcases root.toPath with e | dir
  · simp
  · simp [Files.mem_walk]

theorem mem_measured {paths : List String} {state : FileState} :
    (path, state) ∈ measured f paths ↔ path ∈ paths ∧ f.measure? path = some state := by
  unfold measured
  rw [List.mem_filterMap]
  constructor
  · rintro ⟨p, hmem, h⟩
    obtain ⟨s, hs, heq⟩ := Option.map_eq_some_iff.1 h
    cases heq
    exact ⟨hmem, hs⟩
  · rintro ⟨hmem, hs⟩
    exact ⟨path, hmem, Option.map_eq_some_iff.2 ⟨state, hs, rfl⟩⟩

theorem mem_whole : path ∈ keys (whole f roots) ↔ InTree f roots path := by
  unfold whole InTree
  rw [mem_keys_ofPairs, Option.isSome_iff_exists, ← mem_flatMap_listed]
  constructor
  · intro h
    obtain ⟨⟨p, state⟩, hmem, rfl⟩ := List.mem_map.1 h
    obtain ⟨hmem, hs⟩ := mem_measured.1 hmem
    exact ⟨hmem, state, hs⟩
  · rintro ⟨hmem, state, hs⟩
    exact List.mem_map_of_mem (mem_measured.2 ⟨hmem, hs⟩)

/-! ### Adding what is there already changes nothing -/

/-- Everything in a scan is as it is seen. -/
def Seen (f : Files) (scan : Scan) : Prop := ∀ e ∈ scan, f.measure? e.1 = some e.2

theorem Seen.nil : Seen f [] := fun _ h => absurd h List.not_mem_nil

theorem Seen.set_eq {state : FileState} (seen : Seen f scan) (hs : f.measure? path = some state) :
    OrderedMap.set scan path state = if path ∈ keys scan then scan else scan ++ [(path, state)] := by
  induction scan with
  | nil => rfl
  | cons e scan ih =>
    obtain ⟨here, rest⟩ := List.forall_mem_cons.1 seen
    rw [OrderedMap.set]
    by_cases same : e.1 = path
    · subst same
      have as : e.2 = state := Option.some.inj (here.symm.trans hs)
      rw [if_pos BEq.rfl, if_pos (show e.1 ∈ keys (e :: scan) from List.mem_cons_self ..), ← as]
    · rw [if_neg (by simpa using same), ih rest]
      have iff : path ∈ keys (e :: scan) ↔ path ∈ keys scan := by
        unfold keys
        rw [List.map_cons, List.mem_cons]
        exact or_iff_right (Ne.symm same)
      simp only [iff]
      split <;> rfl

theorem Seen.set {state : FileState} (seen : Seen f scan) (hs : f.measure? path = some state) :
    Seen f (OrderedMap.set scan path state) ∧ scan <+: OrderedMap.set scan path state := by
  rw [seen.set_eq hs]
  split
  · exact ⟨seen, List.prefix_rfl⟩
  · refine ⟨?_, List.prefix_append ..⟩
    intro e he
    rcases List.mem_append.1 he with he | he
    · exact seen e he
    · rw [List.mem_singleton.1 he]
      exact hs

/-- More files come after those that are there. -/
theorem Seen.update (seen : Seen f scan) (more : Seen f m) :
    Seen f (OrderedMap.update scan m) ∧ scan <+: OrderedMap.update scan m := by
  unfold OrderedMap.update
  induction m generalizing scan with
  | nil => exact ⟨seen, List.prefix_rfl⟩
  | cons e m ih =>
    obtain ⟨here, rest⟩ := List.forall_mem_cons.1 more
    obtain ⟨seen', grows⟩ := seen.set here
    obtain ⟨seen'', grows'⟩ := ih seen' rest
    exact ⟨seen'', grows.trans grows'⟩

theorem seen_measured (paths : List String) : Seen f (measured f paths) := fun _ h => (mem_measured.1 h).2

theorem update_append (scan m m' : Scan) :
    OrderedMap.update scan (m ++ m') = OrderedMap.update (OrderedMap.update scan m) m' := List.foldl_append

/-! ### Up to the limit -/

/-- How adding ends: at the limit, with the beginning of what there is, or before it with everything. -/
theorem add_spec {paths : List String} (seen : Seen f scan) (room : scan.length ≤ n.toNat)
    (ok : add f (.int n) paths scan = .ok (found, full)) :
    if full then found.length = n.toNat ∧ found <+: OrderedMap.update scan (measured f paths)
    else found.length ≤ n.toNat ∧ found = OrderedMap.update scan (measured f paths) := by
  induction paths generalizing scan with
  | nil =>
    cases ok
    exact ⟨room, rfl⟩
  | cons path rest ih =>
    obtain ⟨most, hmost, ok⟩ := ok_of_bind ok
    obtain rfl : (Number.int n) = most := Except.ok.inj hmost
    have grows := (seen.update (seen_measured (f := f) (path :: rest))).2
    split at ok
    · rename_i most
      cases ok
      have most : n ≤ found.length := Number.int_le_int.1 most
      exact ⟨by omega, grows⟩
    rename_i below
    have below : (scan.length : Int) < n := Int.not_le.1 (mt Number.int_le_int.2 below)
    split at ok
    · rename_i state hs
      have same : measured f (path :: rest) = (path, state) :: measured f rest := by
        rw [measured, List.filterMap_cons_some (by rw [hs]; rfl)]
        rfl
      have room : (OrderedMap.set scan path state).length ≤ n.toNat := by
        have := length_set_le scan path state
        omega
      rw [same]
      exact ih (seen.set hs).1 room ok
    · rename_i hs
      have same : measured f (path :: rest) = measured f rest := by
        rw [measured, List.filterMap_cons_none (by rw [hs]; rfl)]
        rfl
      rw [same]
      exact ih seen room ok

theorem addBelow_eq_take (seen : Seen f scan) (room : scan.length ≤ n.toNat)
    (ok : addBelow f (.int n) roots scan = .ok found) :
    found = (OrderedMap.update scan (measured f (roots.flatMap (listed f)))).take n.toNat := by
  induction roots generalizing scan with
  | nil =>
    cases ok
    exact (List.take_of_length_le room).symm
  | cons root rest ih =>
    obtain ⟨path, hpath, ok⟩ := ok_of_bind ok
    split at ok
    · cases ok
    obtain ⟨⟨next, full⟩, hadd, ok⟩ := ok_of_bind ok
    have here : listed f root = f.walk path := by rw [listed, hpath]
    have parts : measured f ((root :: rest).flatMap (listed f)) =
        measured f (f.walk path) ++ measured f (rest.flatMap (listed f)) := by
      rw [List.flatMap_cons, here]
      exact List.filterMap_append
    have spec := add_spec seen room hadd
    have seen' := (seen.update (seen_measured (f := f) (f.walk path))).1
    rw [parts, update_append]
    dsimp only at ok
    split at ok
    · rename_i stop
      cases ok
      rw [if_pos stop] at spec
      -- What comes after the limit does not matter.
      have beginning := spec.2.trans (seen'.update (seen_measured (rest.flatMap (listed f)))).2
      rw [← spec.1]
      exact List.prefix_iff_eq_take.1 beginning
    · rename_i go
      rw [if_neg go] at spec
      rw [← spec.2] at seen' ⊢
      exact ih seen' spec.1 ok

/-- A scan is the beginning of the list of all files, up to the limit. -/
theorem ofPaths_eq_take (ok : ofPaths f (.int n) roots = .ok scan) : scan = (whole f roots).take n.toNat :=
  addBelow_eq_take .nil (Nat.zero_le _) ok

theorem mem_ofPaths (ok : ofPaths f (.int n) roots = .ok scan) :
    path ∈ keys scan ↔ InTree f roots path ∧ ¬ Beyond f roots n path := by
  have cut : keys scan = (keys (whole f roots)).take n.toNat := by
    rw [ofPaths_eq_take ok]
    exact List.map_take
  rw [← mem_whole, cut]
  by_cases there : path ∈ keys (whole f roots)
  · rw [List.mem_take_iff_idxOf_lt there, and_iff_right there, Beyond]
    omega
  · exact ⟨fun h => absurd (List.mem_of_mem_take h) there, fun h => absurd h.1 there⟩

theorem not_beyond_of_le (few : ((whole f roots).length : Int) ≤ n) (there : InTree f roots path) :
    ¬ Beyond f roots n path := by
  have := List.idxOf_lt_length_of_mem (mem_whole.2 there)
  rw [keys, List.length_map] at this
  unfold Beyond keys
  omega

end Scan

namespace FileWatchCapturer

open Scan

variable {roots : List Value} {n : Int} {fs : List Files} {before after : Files} {c c' : FileWatchCapturer}

/-- What create and delete events say of the trees before and after: a file comes into the scan or goes out
of it, by what happens to it or by what happens to the files before it. -/
structure CutChanges (roots : List Value) (n : Int) (before after : Files)
    (events : List (String × FileChange)) : Prop where
  create : ∀ path, (path, .create) ∈ events ↔ (InTree after roots path ∧ ¬ Beyond after roots n path) ∧
    (InTree before roots path → Beyond before roots n path)
  delete : ∀ path, (path, .delete) ∈ events ↔ (InTree before roots path ∧ ¬ Beyond before roots n path) ∧
    (InTree after roots path → Beyond after roots n path)
  create_true : ((whole before roots).length : Int) ≤ n → ∀ path, (path, .create) ∈ events →
    InTree after roots path ∧ ¬ InTree before roots path
  delete_true : ((whole after roots).length : Int) ≤ n → ∀ path, (path, .delete) ∈ events →
    InTree before roots path ∧ ¬ InTree after roots path

theorem cutChanges {old new : Scan} (hold : Scan.ofPaths before (.int n) roots = .ok old)
    (hnew : Scan.ofPaths after (.int n) roots = .ok new) : CutChanges roots n before after (changes old new) := by
  have create (path : String) : (path, .create) ∈ changes old new ↔
      (InTree after roots path ∧ ¬ Beyond after roots n path) ∧
        (InTree before roots path → Beyond before roots n path) := by
    rw [create_mem_changes, mem_ofPaths hnew, mem_ofPaths hold, not_and, not_not]
  have delete (path : String) : (path, .delete) ∈ changes old new ↔
      (InTree before roots path ∧ ¬ Beyond before roots n path) ∧
        (InTree after roots path → Beyond after roots n path) := by
    rw [delete_mem_changes, mem_ofPaths hold, mem_ofPaths hnew, not_and, not_not]
  refine ⟨create, delete, fun few path h => ?_, fun few path h => ?_⟩
  · obtain ⟨⟨there, -⟩, beyond⟩ := (create path).1 h
    exact ⟨there, fun was => not_beyond_of_le few was (beyond was)⟩
  · obtain ⟨⟨was, -⟩, beyond⟩ := (delete path).1 h
    exact ⟨was, fun there => not_beyond_of_le few there (beyond there)⟩

/-- Of two successive captures, each event is true of the tree up to the limit of the scan, whatever the order in
which each of the trees is listed. -/
theorem events_cut (run : Capture.Series capture { paths := roots, maxFiles := .int n } fs c)
    (ok : c.capture after = (c', none)) (last : fs.getLast? = some before) :
    CutChanges roots n before after c'.events := by
  obtain ⟨⟨hpaths, hmax⟩, -⟩ := run.kept_eq keepsReading ⟨rfl, rfl⟩ rfl
  obtain ⟨new, hnew, rfl⟩ := capture_eq_of_ok ok
  obtain ⟨old, hold, kept⟩ := run.kept_of_last keepsReading ⟨rfl, rfl⟩ rfl last
  rw [hpaths, hmax] at hnew
  dsimp only
  rw [kept]
  exact cutChanges hold hnew

/-- Two directories with a file each, and what is left when the first file is removed. -/
def pair : Files where
  entries := [(["work"], .directory), (["work", "p"], .directory), (["work", "p", "a"], .file 0),
    (["work", "q"], .directory), (["work", "q", "b"], .file 1)]
  bodies := [(0, ⟨.text "x", 0⟩), (1, ⟨.text "y", 0⟩)]
  changes := 2
def lone : Files := pair.remove (Location.parse "p/a")

/-- Looks at one file at most. -/
def narrow : FileWatchCapturer := { paths := ["p", "q"], maxFiles := .int 1 }

theorem narrow_first : narrow.capture pair = ((narrow.capture pair).1, none) :=
  Prod.ext rfl (Option.isNone_iff_eq_none.1 (by decide +kernel))

theorem narrow_second :
    (narrow.capture pair).1.capture lone = (((narrow.capture pair).1.capture lone).1, none) :=
  Prod.ext rfl (Option.isNone_iff_eq_none.1 (by decide +kernel))

theorem events_cut_narrow : ∃ c c', Capture.Series capture narrow [pair] c ∧ c.capture lone = (c', none) ∧
    c'.events = [("q/b", .create), ("p/a", .delete)] ∧ CutChanges ["p", "q"] 1 pair lone c'.events :=
  ⟨_, _, .single narrow_first, narrow_second, by decide +kernel,
    events_cut (.single narrow_first) narrow_second rfl⟩

/-- An event can be about a file that was there all along, where the limit comes to let it in. -/
theorem not_forall_events_true :
    ¬ ∀ (roots : List Value) (n : Int) (before after : Files) (c c' : FileWatchCapturer),
      Readable before roots → Readable after roots →
      Capture.Series capture { paths := roots, maxFiles := .int n } [before] c → c.capture after = (c', none) →
      (∀ path, (path, .create) ∈ c'.events → ¬ InTree before roots path) ∧
        ∀ path, (path, .delete) ∈ c'.events → ¬ InTree after roots path := by
  intro claim
  have all : (∀ path ∈ ["p", "q"].flatMap (listed pair), (pair.measure? path).isSome) ∧
      ∀ path ∈ ["p", "q"].flatMap (listed lone), (lone.measure? path).isSome := by decide +kernel
  obtain ⟨created, -⟩ := claim ["p", "q"] 1 pair lone _ _
    (fun path lies => all.1 path (mem_flatMap_listed.2 lies))
    (fun path lies => all.2 path (mem_flatMap_listed.2 lies)) (.single narrow_first) narrow_second
  exact created "q/b" (by decide +kernel) (mem_whole.1 (by decide +kernel))

end FileWatchCapturer

end HostWatch
