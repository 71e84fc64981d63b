import HostWatch.Files.Basic
import HostWatch.Proofs.OrderedMap
import Mathlib.Data.List.Nodup

/-!
# What the files of a tree hold

`Files.contents` is a tree without its directories: the names of the files and what they hold. As long
as every file has one name (`Files.Separate`), changing, making and moving a file do to it what they do
to a map from names to contents.
-/

namespace HostWatch

namespace OrderedMap

variable {κ α : Type} [BEq κ] {m : OrderedMap κ α} {key key' : κ} {a : α}

theorem get?_filter_ne [LawfulBEq κ] : get? (m.filter fun e => e.1 != key) key' =
    if key == key' then none else get? m key' := by
  induction m with
  | nil => simp
  | cons e m ih =>
    by_cases hk : e.1 == key
    · obtain rfl := eq_of_beq hk
      simp only [List.filter_cons, bne_self_eq_false, Bool.false_eq_true, if_false, ih, get?]
      split <;> rfl
    · have kept : (e.1 != key) = true := by simpa using hk
      simp only [List.filter_cons, kept, if_true, get?, ih]
      by_cases hk' : e.1 == key'
      · obtain rfl := eq_of_beq hk'
        have other : (key == e.1) = false := by
          rw [beq_eq_false_iff_ne]
          rintro rfl
          simp at hk
        simp [other]
      · simp [hk']

theorem mem_values_set {b : α} (hb : b ∈ (set m key a).map Prod.snd) : b = a ∨ b ∈ m.map Prod.snd := by
  obtain ⟨e, he, rfl⟩ := List.mem_map.1 hb
  rcases of_mem_set he with he | he
  · exact .inr (List.mem_map_of_mem he)
  · exact .inl he

/-- A value that is new is no second one. -/
theorem nodup_values_set (nodup : (m.map Prod.snd).Nodup) (new : a ∉ m.map Prod.snd) :
    ((set m key a).map Prod.snd).Nodup := by
  induction m with
  | nil => simp [set]
  | cons e m ih =>
    rw [List.map_cons, List.nodup_cons] at nodup
    rw [List.map_cons, List.mem_cons, not_or] at new
    unfold set
    split
    · exact List.nodup_cons.2 ⟨new.2, nodup.2⟩
    · rw [List.map_cons, List.nodup_cons]
      refine ⟨fun h => ?_, ih nodup.2 new.2⟩
      rcases mem_values_set h with heq | h
      · exact new.1 heq.symm
      · exact nodup.1 h

end OrderedMap

namespace Files

variable {f : Files} {key key' : List String} {id : Nat} {c : Content} {s : String}

/-- The names of files with their ids. -/
def filesOf (entries : OrderedMap (List String) Entry) : OrderedMap (List String) Nat :=
  entries.filterMap fun e =>
    match e.2 with
    | .file id => some (e.1, id)
    | _ => none

/-- The names of files with what they hold. -/
def contents (f : Files) : OrderedMap (List String) Content :=
  (filesOf f.entries).map fun e => (e.1, (f.body e.2).content)

/-- Every file has one name, and no id is given to two files. -/
structure Separate (f : Files) : Prop where
  ids : ((filesOf f.entries).map Prod.snd).Nodup
  fresh : ∀ id ∈ (filesOf f.entries).map Prod.snd, id < f.changes

/-- A name that a file has or can have. -/
def Open (f : Files) (key : List String) : Prop :=
  ∀ e, OrderedMap.get? f.entries key = some e → ∃ id, e = .file id

theorem open_of_none (h : OrderedMap.get? f.entries key = none) : f.Open key := by
  intro e he
  rw [h] at he
  cases he

/-! ### Names and ids -/

section FilesOf
variable {entries : OrderedMap (List String) Entry}

theorem filesOf_set (h : ∀ e, OrderedMap.get? entries key = some e → ∃ id, e = .file id) (id : Nat) :
    filesOf (OrderedMap.set entries key (.file id)) = OrderedMap.set (filesOf entries) key id := by
  induction entries with
  | nil => rfl
  | cons x entries ih =>
    obtain ⟨k, e⟩ := x
    by_cases hk : k == key
    · obtain ⟨id', rfl⟩ := h e (by simp [OrderedMap.get?, hk])
      simp [filesOf, OrderedMap.set, hk]
    · have rest := ih fun e he => h e (by simpa [OrderedMap.get?, hk] using he)
      unfold filesOf at rest ⊢
      cases e <;> simp [OrderedMap.set, hk, rest]

theorem filesOf_filter (p : List String → Bool) :
    filesOf (entries.filter fun e => p e.1) = (filesOf entries).filter fun e => p e.1 := by
  induction entries with
  | nil => rfl
  | cons x entries ih =>
    obtain ⟨k, e⟩ := x
    unfold filesOf at ih ⊢
    by_cases hp : p k
    · cases e <;> simp [hp, ih]
    · cases e <;> simp [hp, ih]

theorem get?_filesOf (h : OrderedMap.get? entries key = some (.file id)) :
    OrderedMap.get? (filesOf entries) key = some id := by
  induction entries with
  | nil => cases h
  | cons x entries ih =>
    obtain ⟨k, e⟩ := x
    unfold filesOf at ih ⊢
    by_cases hk : k == key
    · rw [OrderedMap.get?, if_pos hk] at h
      obtain rfl := Option.some.inj h
      simp [OrderedMap.get?, hk]
    · rw [OrderedMap.get?, if_neg hk] at h
      cases e <;> simp [OrderedMap.get?, hk, ih h]

theorem get?_filesOf_of_none (h : OrderedMap.get? entries key = none) :
    OrderedMap.get? (filesOf entries) key = none := by
  induction entries with
  | nil => rfl
  | cons x entries ih =>
    obtain ⟨k, e⟩ := x
    unfold filesOf at ih ⊢
    rw [OrderedMap.get?] at h
    split at h
    · cases h
    · rename_i hk
      cases e <;> simp [OrderedMap.get?, hk, ih h]

/-- Changing the file with an id changes what stands under its one name. -/
theorem map_update {m : OrderedMap (List String) Nat} (old : Nat → Content)
    (nodup : (m.map Prod.snd).Nodup) (h : OrderedMap.get? m key = some id) :
    (m.map fun e => (e.1, if id = e.2 then c else old e.2)) =
      OrderedMap.set (m.map fun e => (e.1, old e.2)) key c := by
  induction m with
  | nil => cases h
  | cons x m ih =>
    obtain ⟨k, i⟩ := x
    obtain ⟨hi, nodup⟩ := List.nodup_cons.1 nodup
    by_cases hk : k == key
    · rw [OrderedMap.get?, if_pos hk] at h
      obtain rfl := Option.some.inj h
      have others : (m.map fun e => (e.1, if i = e.2 then c else old e.2)) =
          m.map fun e => (e.1, old e.2) := by
        refine List.map_congr_left fun e he => ?_
        have other : i ≠ e.2 := fun heq => hi (List.mem_map.2 ⟨e, he, heq.symm⟩)
        simp [other]
      simp [OrderedMap.set, hk, others]
    · rw [OrderedMap.get?, if_neg hk] at h
      have other : id ≠ i := by
        rintro rfl
        exact hi (List.mem_map.2 ⟨(key, id), OrderedMap.mem_of_get? h, rfl⟩)
      simp [OrderedMap.set, hk, other, ih nodup h]

end FilesOf

theorem get?_contents (key : List String) : OrderedMap.get? f.contents key =
    (OrderedMap.get? (filesOf f.entries) key).map fun i => (f.body i).content :=
  OrderedMap.get?_map_values (fun i => (f.body i).content) _ _

theorem get?_contents_of_file (h : OrderedMap.get? f.entries key = some (.file id)) :
    OrderedMap.get? f.contents key = some (f.body id).content := by
  rw [get?_contents, get?_filesOf h]
  rfl

/-- What is held under a name is held by the file that has it. -/
theorem Open.exists_file (isOpen : f.Open key) (h : OrderedMap.get? f.contents key = some c) :
    ∃ id, OrderedMap.get? f.entries key = some (.file id) ∧ (f.body id).content = c := by
  rcases hk : OrderedMap.get? f.entries key with _ | e
  · rw [get?_contents, get?_filesOf_of_none hk] at h
    cases h
  · obtain ⟨id, rfl⟩ := isOpen e hk
    rw [get?_contents_of_file hk] at h
    exact ⟨id, rfl, Option.some.inj h⟩

/-- Everything there is in a tree is what its files hold. -/
theorem everything_map_snd (f : Files) : f.everything.map Prod.snd = f.contents.map Prod.snd := by
  unfold everything contents filesOf
  induction f.entries with
  | nil => rfl
  | cons x entries ih =>
    obtain ⟨k, e⟩ := x
    cases e with
    | file id => exact congrArg ((f.body id).content :: ·) ih
    | directory => exact ih
    | link target => exact ih

/-! ### Changes -/

theorem body_setContent (i : Nat) :
    ((f.setContent id c).body i).content = if id = i then c else (f.body i).content := by
  unfold body setContent
  rw [OrderedMap.get?_set]
  by_cases h : id = i <;> simp [h]

theorem contents_setContent (separate : f.Separate) (h : OrderedMap.get? f.entries key = some (.file id)) :
    (f.setContent id c).contents = OrderedMap.set f.contents key c := by
  unfold contents
  simp only [body_setContent]
  exact map_update (fun i => (f.body i).content) separate.ids (get?_filesOf h)

theorem Separate.setContent (separate : f.Separate) : (f.setContent id c).Separate where
  ids := separate.ids
  fresh i hi := Nat.lt_succ_of_lt (separate.fresh i hi)

theorem Separate.not_mem_changes (separate : f.Separate) : f.changes ∉ (filesOf f.entries).map Prod.snd :=
  fun h => absurd (separate.fresh _ h) (Nat.lt_irrefl _)

theorem entries_create : (f.create key c).2.entries = OrderedMap.set f.entries key (.file f.changes) := rfl

theorem contents_create (separate : f.Separate) (isOpen : f.Open key) :
    (f.create key c).2.contents = OrderedMap.set f.contents key c := by
  have others : ((filesOf f.entries).map fun e => (e.1, if f.changes = e.2 then c else (f.body e.2).content))
      = f.contents := by
    refine List.map_congr_left fun e he => ?_
    have other : f.changes ≠ e.2 := fun heq =>
      separate.not_mem_changes (List.mem_map.2 ⟨e, he, heq.symm⟩)
    simp [other]
  have bodies (i : Nat) : ((f.create key c).2.body i).content =
      if f.changes = i then c else (f.body i).content := body_setContent (f := f.setEntry key _) i
  unfold contents at others ⊢
  rw [entries_create, filesOf_set isOpen]
  simp only [bodies]
  have both := OrderedMap.set_map (fun i => if f.changes = i then c else (f.body i).content)
    (filesOf f.entries) key f.changes
  rw [← both, others, if_pos rfl]

theorem Separate.create (separate : f.Separate) (isOpen : f.Open key) : (f.create key c).2.Separate where
  ids := by
    rw [entries_create, filesOf_set isOpen]
    exact OrderedMap.nodup_values_set separate.ids separate.not_mem_changes
  fresh i hi := by
    rw [entries_create, filesOf_set isOpen] at hi
    rcases OrderedMap.mem_values_set hi with rfl | hi
    · exact Nat.lt_succ_self _
    · exact Nat.lt_succ_of_lt (separate.fresh i hi)

/-! ### Moving a file -/

/-- The tree in which a file has another name. -/
def moved (f : Files) (key key' : List String) (id : Nat) : Files :=
  { f with entries := OrderedMap.set (f.entries.filter fun (k, _) => k != key) key' (.file id) }

theorem get?_moved (k : List String) : OrderedMap.get? (f.moved key key' id).entries k =
    if key' == k then some (.file id) else if key == k then none else OrderedMap.get? f.entries k := by
  unfold moved
  rw [OrderedMap.get?_set, OrderedMap.get?_filter_ne]

theorem filesOf_moved (isOpen : f.Open key') (hne : key ≠ key') : filesOf (f.moved key key' id).entries =
    OrderedMap.set ((filesOf f.entries).filter fun e => e.1 != key) key' id := by
  unfold moved
  rw [filesOf_set, filesOf_filter (· != key)]
  intro e he
  rw [OrderedMap.get?_filter_ne] at he
  have other : (key == key') = false := by simpa using hne
  rw [other] at he
  exact isOpen e he

theorem contents_moved (isOpen : f.Open key') (hne : key ≠ key') : (f.moved key key' id).contents =
    OrderedMap.set (f.contents.filter fun e => e.1 != key) key' (f.body id).content := by
  unfold contents
  rw [filesOf_moved isOpen hne]
  have both := OrderedMap.set_map (fun i => (f.body i).content)
    ((filesOf f.entries).filter fun e => e.1 != key) key' id
  rw [List.filter_map]
  exact both.symm

theorem Separate.moved (separate : f.Separate) (h : OrderedMap.get? f.entries key = some (.file id))
    (isOpen : f.Open key') (hne : key ≠ key') : (f.moved key key' id).Separate := by
  have sub : ((filesOf f.entries).filter fun e => e.1 != key).Sublist (filesOf f.entries) :=
    List.filter_sublist
  have gone : id ∉ ((filesOf f.entries).filter fun e => e.1 != key).map Prod.snd := by
    intro hm
    obtain ⟨e, he, hid⟩ := List.mem_map.1 hm
    obtain ⟨he, other⟩ := List.mem_filter.1 he
    have same := List.inj_on_of_nodup_map separate.ids he (OrderedMap.mem_of_get? (get?_filesOf h)) hid
    simp [same] at other
  refine ⟨?_, fun i hi => ?_⟩
  · rw [filesOf_moved isOpen hne]
    exact OrderedMap.nodup_values_set (separate.ids.sublist (sub.map _)) gone
  · rw [filesOf_moved isOpen hne] at hi
    rcases OrderedMap.mem_values_set hi with rfl | hi
    · exact separate.fresh _ (List.mem_map_of_mem (OrderedMap.mem_of_get? (get?_filesOf h)))
    · exact separate.fresh i ((sub.map _).subset hi)

end Files

end HostWatch
