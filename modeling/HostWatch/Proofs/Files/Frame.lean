import HostWatch.Proofs.Files.Ways

/-!
# What a change leaves alone

Of a tree that is changed `Files.Untouched` says what stays: all files and links but those under some names,
all directories, and what all files but one hold. Making directories and opening a file touch next to nothing
(`paves_of_makeBelow`, `openSlot_cases`), and what `rename` moves is told by the ways to it (`rename_ok`).
-/

namespace HostWatch.Files

variable {f g k : Files} {touched touched' : List String → Prop} {ending : Ending} {id slot c n : Nat}
  {here there dirs names key key' : List String} {name : String} {e : Entry} {p : Place} {l : Location}
  {content : Content}

/-- Files and links stay what they are but under the names that are touched, and all files that were there
hold what they held, one excepted. Directories may be made. -/
structure Untouched (touched : List String → Prop) (id : Nat) (f g : Files) : Prop where
  entries : ∀ key, ¬ touched key → ∀ e, e ≠ .directory →
    (OrderedMap.get? g.entries key = some e ↔ OrderedMap.get? f.entries key = some e)
  directories : f.Keeps g
  bodies : ∀ i < f.changes, i ≠ id → OrderedMap.get? g.bodies i = OrderedMap.get? f.bodies i
  changes : f.changes ≤ g.changes

/-- Every file there is has got its id from a change. -/
def Numbered (f : Files) : Prop :=
  ∀ key id, OrderedMap.get? f.entries key = some (.file id) → id < f.changes

namespace Untouched

theorem of_entries (entries : g.entries = f.entries) (changes : f.changes ≤ g.changes)
    (bodies : ∀ i < f.changes, i ≠ id → OrderedMap.get? g.bodies i = OrderedMap.get? f.bodies i) :
    Untouched touched id f g :=
  ⟨fun _ _ _ _ => by rw [entries], fun _ h => by rwa [entries], bodies, changes⟩

theorem mono (h : Untouched touched id f g) (more : ∀ key, touched key → touched' key) :
    Untouched touched' id f g where
  entries key untouched := h.entries key fun ht => untouched (more key ht)
  directories := h.directories
  bodies := h.bodies
  changes := h.changes

theorem trans (h : Untouched touched id f g) (h' : Untouched touched id g k) : Untouched touched id f k where
  entries key untouched e other := (h'.entries key untouched e other).trans (h.entries key untouched e other)
  directories key directory := h'.directories key (h.directories key directory)
  bodies i lt other := (h'.bodies i (Nat.lt_of_lt_of_le lt h.changes) other).trans (h.bodies i lt other)
  changes := Nat.le_trans h.changes h'.changes

theorem closeSlot (f : Files) (slot : Nat) : Untouched touched id f (f.closeSlot slot) :=
  .of_entries rfl (Nat.le_refl _) fun _ _ _ => rfl

end Untouched

/-! ### Making directories -/

/-- The second tree is the first with directories at names that were free. -/
structure Paves (f g : Files) : Prop where
  grows : f.Grows g
  added : ∀ key e, OrderedMap.get? g.entries key = some e →
    OrderedMap.get? f.entries key = some e ∨ (OrderedMap.get? f.entries key = none ∧ e = .directory)
  same : g = { f with entries := g.entries }

namespace Paves

theorem refl (f : Files) : f.Paves f := ⟨fun _ _ h => h, fun _ _ h => .inl h, rfl⟩

theorem setEntry (free : OrderedMap.get? f.entries key = none) : f.Paves (f.setEntry key .directory) where
  grows key' e h := by
    rw [get?_setEntry]
    split
    · rename_i same
      rw [← eq_of_beq same, free] at h
      cases h
    · exact h
  added key' e h := by
    rw [get?_setEntry] at h
    split at h
    · rename_i same
      obtain rfl := Option.some.inj h
      exact .inr ⟨eq_of_beq same ▸ free, rfl⟩
    · exact .inl h
  same := rfl

theorem trans (h : f.Paves g) (h' : g.Paves k) : f.Paves k where
  grows key e entry := h'.grows key e (h.grows key e entry)
  added key e entry := by
    rcases h'.added key e entry with entry | ⟨none, rfl⟩
    · exact h.added key e entry
    · rcases before : OrderedMap.get? f.entries key with _ | e
      · exact .inr ⟨rfl, rfl⟩
      · rw [h.grows key e before] at none
        cases none
  same := by rw [h'.same, h.same]

theorem untouched (h : f.Paves g) : Untouched touched id f g where
  entries key _ e other := by
    refine ⟨fun entry => ?_, h.grows key e⟩
    rcases h.added key e entry with entry | ⟨-, rfl⟩
    · exact entry
    · exact absurd rfl other
  directories key := h.grows key .directory
  bodies i _ _ := by rw [h.same]
  changes := Nat.le_of_eq (by rw [h.same])

end Paves

/-- The second tree is the first with an empty file at a name that was free, which is open in a slot. -/
structure Creates (f g : Files) (slot : Nat) (key : List String) : Prop where
  free : OrderedMap.get? f.entries key = none
  entries : ∀ k, OrderedMap.get? g.entries k =
    if key == k then some (.file f.changes) else OrderedMap.get? f.entries k
  handle : OrderedMap.get? g.handles slot = some f.changes
  empty : (g.body f.changes).content = .text ""
  bodies : ∀ i, i ≠ f.changes → OrderedMap.get? g.bodies i = OrderedMap.get? f.bodies i
  working : g.working = f.working
  changes : g.changes = f.changes + 1

namespace Creates

theorem entry (h : f.Creates g slot key) : OrderedMap.get? g.entries key = some (.file f.changes) := by
  rw [h.entries, if_pos (by simp)]

theorem grows (h : f.Creates g slot key) : f.Grows g := by
  intro k e before
  rw [h.entries, if_neg]
  · exact before
  · intro same
    rw [← eq_of_beq same, h.free] at before
    cases before

theorem untouched (h : f.Creates g slot key) : Untouched (· = key) id f g where
  entries k other e _ := by rw [h.entries, if_neg (by simpa using Ne.symm other)]
  directories k := h.grows k .directory
  bodies i lt _ := h.bodies i (Nat.ne_of_lt lt)
  changes := by
    rw [h.changes]
    exact Nat.le_succ f.changes

theorem numbered (h : f.Creates g slot key) (numbered : f.Numbered) : g.Numbered := by
  intro k i entry
  rw [h.entries] at entry
  rw [h.changes]
  split at entry
  · obtain rfl := Entry.file.inj (Option.some.inj entry)
    exact Nat.lt_succ_self _
  · exact Nat.lt_succ_of_lt (numbered k i entry)

end Creates

/-- The entries when what stands under one name has got another. -/
def renamed (f : Files) (key key' : List String) (e : Entry) : OrderedMap (List String) Entry :=
  if key = key' then f.entries else OrderedMap.set (f.entries.filter fun e => e.1 != key) key' e

theorem get?_renamed (other : key ≠ key') (k : List String) : OrderedMap.get? (f.renamed key key' e) k =
    if key' == k then some e else if key == k then none else OrderedMap.get? f.entries k := by
  rw [renamed, if_neg other, OrderedMap.get?_set, OrderedMap.get?_filter_ne]

/-- What is moved is no directory, nor is it moved to one. -/
theorem rename_ok {source target : Location} (ok : f.rename source target = .ok g) : ∃ key e p,
    f.locate .link source = .ok (.taken key e) ∧ e ≠ .directory ∧ f.locate .link target = .ok p ∧
      (∀ k, p ≠ .taken k .directory) ∧ g = { f with entries := f.renamed key p.key e } := by
  unfold rename at ok
  split at ok
  · cases ok
  · cases ok
  · cases ok
  rename_i key e noDirectory found
  have result (key' : List String) : (if key = key' then (.ok f : Except FileProblem Files)
      else .ok { f with entries := OrderedMap.set (f.entries.filter fun e => e.1 != key) key' e }) =
        .ok { f with entries := f.renamed key key' e } := by
    unfold renamed
    split <;> rfl
  split at ok
  · cases ok
  · cases ok
  · rename_i key' e' noDirectory' found'
    refine ⟨key, e, _, found, noDirectory, found', fun k same => ?_,
      Except.ok.inj (ok.symm.trans (result key'))⟩
    exact noDirectory' (Place.taken.inj same).2
  · rename_i key' found'
    exact ⟨key, e, _, found, noDirectory, found', by simp, Except.ok.inj (ok.symm.trans (result key'))⟩

end HostWatch.Files
