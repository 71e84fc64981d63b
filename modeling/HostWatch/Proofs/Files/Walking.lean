import HostWatch.Files.Walk

/-!
# What a walk lists

`Files.mem_walk`: a walk lists the files that lie below its directory, each under the path that the names
on the way to it make, and no others, whatever the order is in which the tree lists them. `Files.Lies` says
what lies below a directory without the order and without the bound on the depth that the walk has.
-/

namespace HostWatch.Files

variable {f : Files} {key : List String} {path p name : String} {e : Entry}

/-- A file lies below the directory `key`, through directories only; with `key` shown as `path` it is
shown as the last path. -/
inductive Lies (f : Files) : List String → String → String → Prop
  | here {key : List String} {path name : String} {e : Entry} (entry : (key ++ [name], e) ∈ f.entries)
      (file : f.visit key name e = .file) : Lies f key path (join path name)
  | inside {key : List String} {path name p : String} (entry : (key ++ [name], .directory) ∈ f.entries)
      (below : Lies f (key ++ [name]) (join path name) p) : Lies f key path p

/-- A file lies below a directory that is named by a path. -/
def LiesIn (f : Files) (path p : String) : Prop :=
  isPath path ∧ ∃ key, f.entry? (Location.parse path) = .ok (key, .directory) ∧ f.Lies key path p

theorem mem_children : (name, e) ∈ f.children key ↔ (key ++ [name], e) ∈ f.entries := by
  unfold children
  rw [List.mem_filterMap]
  constructor
  · rintro ⟨⟨k, e'⟩, hmem, h⟩
    dsimp only at h
    split at h
    · rename_i last hlast
      split at h
      · rename_i same
        cases h
        obtain ⟨init, rfl⟩ := List.getLast?_eq_some_iff.1 hlast
        rwa [← same, List.dropLast_concat]
      · cases h
    · cases h
  · intro hmem
    exact ⟨(key ++ [name], e), hmem, by simp⟩

theorem visit_eq_enter : f.visit key name e = .enter ↔ e = .directory := by
  unfold visit
  constructor
  · intro h
    split at h
    · rfl
    · cases h
    · split at h <;> cases h
  · rintro rfl
    rfl

theorem mem_inOrder : (name, e) ∈ f.inOrder key ↔ (key ++ [name], e) ∈ f.entries := by
  rw [inOrder, List.mem_mergeSort, mem_children]

theorem mem_below_succ {depth : Nat} : p ∈ f.below (depth + 1) key path ↔
    (∃ name e, (key ++ [name], e) ∈ f.entries ∧ f.visit key name e = .file ∧ p = join path name) ∨
      ∃ name, (key ++ [name], .directory) ∈ f.entries ∧ p ∈ f.below depth (key ++ [name]) (join path name) := by
  rw [below, List.mem_append, List.mem_map, List.mem_flatMap]
  refine or_congr ⟨?_, ?_⟩ ⟨?_, ?_⟩
  · rintro ⟨⟨name, e⟩, hmem, rfl⟩
    obtain ⟨hmem, file⟩ := List.mem_filter.1 hmem
    exact ⟨name, e, mem_inOrder.1 hmem, of_decide_eq_true file, rfl⟩
  · rintro ⟨name, e, entry, file, rfl⟩
    exact ⟨(name, e), List.mem_filter.2 ⟨mem_inOrder.2 entry, decide_eq_true file⟩, rfl⟩
  · rintro ⟨⟨name, e⟩, hmem, inner⟩
    obtain ⟨hmem, enter⟩ := List.mem_filter.1 hmem
    obtain rfl := visit_eq_enter.1 (of_decide_eq_true enter)
    exact ⟨name, mem_inOrder.1 hmem, inner⟩
  · rintro ⟨name, entry, inner⟩
    exact ⟨(name, .directory), List.mem_filter.2 ⟨mem_inOrder.2 entry,
      decide_eq_true (visit_eq_enter.2 rfl)⟩, inner⟩

/-! ### The depth suffices -/

theorem Lies.of_mem_below {depth : Nat} (h : p ∈ f.below depth key path) : f.Lies key path p := by
  induction depth generalizing key path with
  | zero => cases h
  | succ depth ih =>
    rcases mem_below_succ.1 h with ⟨name, e, entry, file, rfl⟩ | ⟨name, entry, inner⟩
    · exact .here entry file
    · exact .inside entry (ih inner)

/-- The number of entries that are deeper than a directory. -/
def deeper (f : Files) (key : List String) : Nat := f.entries.countP fun e => key.length < e.1.length

theorem deeper_lt (entry : (key ++ [name], e) ∈ f.entries) : f.deeper (key ++ [name]) < f.deeper key := by
  unfold deeper
  obtain ⟨before, after, split⟩ := List.append_of_mem entry
  rw [split, List.countP_append, List.countP_append, List.countP_cons, List.countP_cons]
  have fewer (l : OrderedMap (List String) Entry) :
      l.countP (fun e => (key ++ [name]).length < e.1.length) ≤ l.countP fun e => key.length < e.1.length :=
    List.countP_mono_left fun e _ h => by
      simp only [List.length_append, List.length_singleton, decide_eq_true_eq] at h ⊢
      omega
  have := fewer before
  have := fewer after
  simp only [List.length_append, List.length_singleton] at *
  simp
  omega

/-- Each directory that is entered is deeper than the one before, so a walk that goes deeper than the
number of entries misses nothing. -/
theorem Lies.mem_below (h : f.Lies key path p) {depth : Nat} (enough : f.deeper key < depth) :
    p ∈ f.below depth key path := by
  induction h generalizing depth with
  | @here key path name e entry file =>
    obtain ⟨depth, rfl⟩ := Nat.exists_eq_add_of_lt (Nat.zero_lt_of_lt enough)
    rw [Nat.zero_add]
    exact mem_below_succ.2 (.inl ⟨name, e, entry, file, rfl⟩)
  | @inside key path name p entry _ ih =>
    obtain ⟨depth, rfl⟩ := Nat.exists_eq_add_of_lt (Nat.zero_lt_of_lt enough)
    rw [Nat.zero_add] at enough ⊢
    exact mem_below_succ.2 (.inr ⟨name, entry, ih (by have := deeper_lt entry; omega)⟩)

theorem mem_walk : p ∈ f.walk path ↔ f.LiesIn path p := by
  unfold walk
  by_cases taken : isPath path
  · rw [if_neg (by simp [taken])]
    split
    · rename_i key found
      have all : f.deeper key < f.entries.length + 1 := Nat.lt_succ_of_le List.countP_le_length
      refine ⟨fun h => ⟨taken, key, found, .of_mem_below h⟩, ?_⟩
      rintro ⟨-, key', found', lies⟩
      cases found.symm.trans found'
      exact lies.mem_below all
    · rename_i other
      refine ⟨fun h => absurd h List.not_mem_nil, ?_⟩
      rintro ⟨-, key, found, -⟩
      exact absurd found (other key)
  · rw [if_pos (by simp [taken])]
    exact ⟨fun h => absurd h List.not_mem_nil, fun h => absurd h.1 taken⟩

end HostWatch.Files
