import HostWatch.Proofs.Json.Lines
import HostWatch.Proofs.OrderedMap
import HostWatch.RecordFile.Writing
import Mathlib.Data.List.Induction
import Mathlib.Tactic.ByContra

/-!
# What is kept of the lines that are written

A `Shelf` is what stands in a record file and in those put aside, line by line. A record that cannot be
written leaves it as it is. What is put aside at one time takes the place of what was put aside at the same
time before; so all lines are kept exactly as long as no two files are put aside at the same time
(`Shelf.lines_perm_iff`).
-/

namespace HostWatch

/-- A record, and the clock when it is written: in seconds and in whole milliseconds. -/
structure Writing where
  record : Value
  seconds : Number
  time : Int
  reads : RecordFile.milliseconds seconds = .ok time

namespace Writing

/-- The host when a record is written: the clock reads what it does then. -/
def start (w : Writing) (h : Host) : Host := { h with upcoming := [w.seconds] }

/-- The line of a record without its line break, unless it cannot be written. -/
def line? (w : Writing) : Option String := (RecordFile.line w.record).toOption

theorem line_eq_ok_iff {w : Writing} {line : String} :
    RecordFile.line w.record = .ok line ↔ w.line? = some line := by
  unfold line?
  rcases RecordFile.line w.record with obstacle | s <;> simp [Except.toOption]

theorem line?_eq_none_iff {w : Writing} :
    w.line? = none ↔ ∃ obstacle, RecordFile.line w.record = .error obstacle := by
  unfold line?
  rcases RecordFile.line w.record with obstacle | s <;> simp [Except.toOption]

theorem unbroken_of_line? {w : Writing} {line : String} (h : w.line? = some line) :
    Text.Unbroken line.toList := by
  rw [Json.eq_textOf_of_render (line_eq_ok_iff.2 h)]
  exact Json.unbroken_textOf rfl w.record

end Writing

structure Shelf where
  /-- The lines put aside, by the time at which they were. -/
  aside : OrderedMap Int (List String) := []
  /-- The lines in the file that is written to. -/
  live : List String := []
  /-- When files were put aside. -/
  rotations : List Int := []

namespace Shelf

/-- One more line; once the file has reached its largest size it is put aside. -/
def add (maxBytes : Number) (s : Shelf) (line : String) (time : Int) : Shelf :=
  let live := s.live ++ [line]
  if maxBytes ≤ .int (Text.written live).utf8ByteSize then
    { aside := OrderedMap.set s.aside time live, live := [], rotations := s.rotations ++ [time] }
  else { s with live }

/-- One more record. -/
def put (maxBytes : Number) (s : Shelf) (w : Writing) : Shelf :=
  match w.line? with
  | none => s
  | some line => s.add maxBytes line w.time

/-- The shelf after all that was written. -/
def after (maxBytes : Number) (writings : List Writing) : Shelf := writings.foldl (put maxBytes) {}

/-- All lines on the shelf. -/
def lines (s : Shelf) : List String := s.aside.flatMap Prod.snd ++ s.live

variable {s : Shelf} {maxBytes : Number} {w : Writing} {writings : List Writing} {texts : List String}

/-- Records that cannot be written leave nothing behind. -/
theorem after_of_refused (refused : ∀ w ∈ writings, w.line? = none) : after maxBytes writings = {} := by
  induction writings with
  | nil => rfl
  | cons w writings ih =>
    obtain ⟨first, others⟩ := List.forall_mem_cons.1 refused
    have same : put maxBytes {} w = {} := by rw [put, first]
    rw [after, List.foldl_cons, same]
    exact ih others

theorem after_concat : after maxBytes (writings ++ [w]) = (after maxBytes writings).put maxBytes w := by
  rw [after, List.foldl_append]
  rfl

/-! ### Replacing lines -/

section Replace
variable {m : OrderedMap Int (List String)} {t : Int} {old new : List String}

theorem flatMap_set_of_not_mem (h : t ∉ OrderedMap.keys m) :
    (OrderedMap.set m t new).flatMap Prod.snd = m.flatMap Prod.snd ++ new := by
  induction m with
  | nil => simp [OrderedMap.set]
  | cons e m ih =>
    rw [OrderedMap.keys, List.map_cons, List.mem_cons, not_or] at h
    have other : ¬ (e.1 == t) = true := by simpa using Ne.symm h.1
    rw [OrderedMap.set, if_neg other, List.flatMap_cons, List.flatMap_cons, ih h.2, List.append_assoc]

theorem length_flatMap_set (new : List String) (h : OrderedMap.get? m t = some old) :
    ((OrderedMap.set m t new).flatMap Prod.snd).length + old.length =
      (m.flatMap Prod.snd).length + new.length := by
  induction m with
  | nil => cases h
  | cons e m ih =>
    rw [OrderedMap.get?] at h
    rw [OrderedMap.set]
    split at h
    · rename_i hk
      obtain rfl := Option.some.inj h
      rw [if_pos hk]
      simp only [List.flatMap_cons, List.length_append]
      omega
    · rename_i hk
      rw [if_neg hk]
      have rest := ih h
      simp only [List.flatMap_cons, List.length_append]
      omega

end Replace

/-! ### What is kept -/

/-- How a shelf and all that was written belong together. -/
structure Keeps (s : Shelf) (texts : List String) : Prop where
  times : ∀ t, t ∈ OrderedMap.keys s.aside ↔ t ∈ s.rotations
  /-- No empty file is put aside. -/
  filled : ∀ e ∈ s.aside, e.2 ≠ []
  all : s.rotations.Nodup → s.lines = texts
  fewer : ¬ s.rotations.Nodup → s.lines.length < texts.length

theorem Keeps.length_le (h : s.Keeps texts) : s.lines.length ≤ texts.length := by
  by_cases nodup : s.rotations.Nodup
  · exact Nat.le_of_eq (congrArg _ (h.all nodup))
  · exact Nat.le_of_lt (h.fewer nodup)

theorem keeps_empty : Keeps {} [] := ⟨by simp [OrderedMap.keys], by simp, fun _ => rfl, by simp⟩

theorem Keeps.addLine (h : s.Keeps texts) (line : String) :
    Keeps { s with live := s.live ++ [line] } (texts ++ [line]) where
  times := h.times
  filled := h.filled
  all nodup := by
    rw [← h.all nodup]
    exact (List.append_assoc ..).symm
  fewer many := by
    have := h.fewer many
    simp only [lines, List.length_append, List.length_singleton] at this ⊢
    omega

theorem Keeps.rotate (h : s.Keeps texts) (t : Int) (filled : s.live ≠ []) :
    Keeps { aside := OrderedMap.set s.aside t s.live, live := [], rotations := s.rotations ++ [t] }
      texts where
  times u := by
    rw [OrderedMap.mem_keys_set, h.times, List.mem_append, List.mem_singleton]
    exact or_comm
  filled e he := by
    rcases OrderedMap.of_mem_set he with he | he
    · exact h.filled e he
    · rw [he]
      exact filled
  all nodup := by
    obtain ⟨before, -, apart⟩ := List.nodup_append.1 nodup
    have new : t ∉ OrderedMap.keys s.aside := by
      rw [h.times]
      exact fun ht => apart t ht t (List.mem_singleton_self t) rfl
    rw [← h.all before, lines, flatMap_set_of_not_mem new, List.append_nil]
    rfl
  fewer many := by
    have atMost := h.length_le
    simp only [lines, List.length_append, List.length_nil, Nat.add_zero] at atMost ⊢
    by_cases seen : t ∈ s.rotations
    · obtain ⟨old, hold⟩ := OrderedMap.exists_get?_of_mem_keys ((h.times t).2 seen)
      have replaced := length_flatMap_set s.live hold
      have lost : 0 < old.length := List.length_pos_iff.2 (h.filled _ (OrderedMap.mem_of_get? hold))
      omega
    · have before : ¬ s.rotations.Nodup := fun nodup => many (by
        rw [List.nodup_append]
        refine ⟨nodup, by simp, fun a ha b hb => ?_⟩
        rintro rfl
        exact seen (List.mem_singleton.1 hb ▸ ha))
      have new : t ∉ OrderedMap.keys s.aside := by rwa [h.times]
      have := h.fewer before
      rw [flatMap_set_of_not_mem new, List.length_append]
      rwa [lines, List.length_append] at this

theorem Keeps.add (h : s.Keeps texts) (line : String) (time : Int) :
    (s.add maxBytes line time).Keeps (texts ++ [line]) := by
  simp only [Shelf.add]
  split
  · exact (h.addLine line).rotate time (by simp)
  · exact h.addLine line

theorem Keeps.put (h : s.Keeps texts) : (s.put maxBytes w).Keeps (texts ++ w.line?.toList) := by
  unfold Shelf.put
  rcases w.line? with _ | line
  · rw [Option.toList_none, List.append_nil]
    exact h
  · exact h.add line w.time

theorem keeps_after (maxBytes : Number) (writings : List Writing) :
    (after maxBytes writings).Keeps (writings.filterMap Writing.line?) := by
  induction writings using List.reverseRecOn with
  | nil => exact keeps_empty
  | append_singleton writings w ih =>
    have last : [w].filterMap Writing.line? = w.line?.toList := by cases h : w.line? <;> simp [h]
    rw [after_concat, List.filterMap_append, last]
    exact ih.put

theorem mem_lines_add {line new : String} {time : Int} (h : line ∈ (s.add maxBytes new time).lines) :
    line ∈ s.lines ∨ line = new := by
  have live (hl : line ∈ s.live ++ [new]) : line ∈ s.lines ∨ line = new := by
    rcases List.mem_append.1 hl with hl | hl
    · exact .inl (List.mem_append_right _ hl)
    · exact .inr (List.mem_singleton.1 hl)
  simp only [add] at h
  split at h
  · obtain ⟨e, he, hline⟩ := List.mem_flatMap.1 ((List.mem_append.1 h).resolve_right List.not_mem_nil)
    rcases OrderedMap.of_mem_set he with he | he
    · exact .inl (List.mem_append_left _ (List.mem_flatMap.2 ⟨e, he, hline⟩))
    · exact live (he ▸ hline)
  · rcases List.mem_append.1 h with h | h
    · exact .inl (List.mem_append_left _ h)
    · exact live h

theorem unbroken_lines (writings : List Writing) :
    ∀ line ∈ (after maxBytes writings).lines, Text.Unbroken line.toList := by
  induction writings using List.reverseRecOn with
  | nil => simp [after, lines]
  | append_singleton writings w ih =>
    intro line hline
    rw [after_concat] at hline
    unfold put at hline
    split at hline
    · exact ih line hline
    · rename_i new written
      rcases mem_lines_add hline with hline | rfl
      · exact ih line hline
      · exact Writing.unbroken_of_line? written

theorem exists_writing_of_mem_rotations {t : Int} (h : t ∈ (after maxBytes writings).rotations) :
    ∃ w ∈ writings, w.time = t := by
  induction writings using List.reverseRecOn with
  | nil => cases h
  | append_singleton writings w ih =>
    have one : t ∈ (after maxBytes writings).rotations ∨ t = w.time := by
      rw [after_concat] at h
      simp only [put, add] at h
      split at h
      · exact .inl h
      split at h
      · simpa using h
      · exact .inl h
    rcases one with h | rfl
    · obtain ⟨v, hv, hvt⟩ := ih h
      exact ⟨v, List.mem_append_left _ hv, hvt⟩
    · exact ⟨w, by simp, rfl⟩

/-- All lines are kept exactly if no two files are put aside at the same time. -/
theorem lines_perm_iff (writings : List Writing) :
    (after maxBytes writings).lines.Perm (writings.filterMap Writing.line?) ↔
      (after maxBytes writings).rotations.Nodup := by
  have keeps := keeps_after maxBytes writings
  constructor
  · intro perm
    by_contra many
    have := keeps.fewer many
    rw [perm.length_eq] at this
    exact Nat.lt_irrefl _ this
  · intro nodup
    rw [keeps.all nodup]

end Shelf

end HostWatch
