import HostWatch.Files.Location

/-!
# Paths and what they read as

`Location.Proper` holds of all that `Location.parse` gives, and a proper location is read back from its
path (`Location.parse_display`). So what is put behind a path ends up behind its last name
(`Location.parse_display_append`).
-/

namespace HostWatch.Location

/-- Two slashes at most, and names that a path can hold. -/
structure Proper (l : Location) : Prop where
  slashes : l.slashes ≤ 2
  names : ∀ name ∈ l.names, name ≠ "" ∧ name ≠ "." ∧ '/' ∉ name.toList

variable {w current rest : List Char} {l : Location} {name s : String} {dirs : List String} {n : Nat}

/-! ### Segments -/

theorem segments_append (h : '/' ∉ w) (current rest : List Char) :
    segments current (w ++ '/' :: rest) = (current.reverse ++ w) :: segments [] rest := by
  induction w generalizing current with
  | nil => simp [segments]
  | cons c w ih =>
    rw [List.mem_cons, not_or] at h
    rw [List.cons_append, segments, if_neg (Ne.symm h.1), ih h.2, List.reverse_cons, List.append_assoc]
    rfl

theorem segments_of_no_slash (h : '/' ∉ w) (current : List Char) :
    segments current w = [current.reverse ++ w] := by
  induction w generalizing current with
  | nil => simp [segments]
  | cons c w ih =>
    rw [List.mem_cons, not_or] at h
    rw [segments, if_neg (Ne.symm h.1), ih h.2, List.reverse_cons, List.append_assoc]
    rfl

theorem slash_not_mem_segments (h : '/' ∉ current) : ∀ v ∈ segments current w, '/' ∉ v := by
  induction w generalizing current with
  | nil =>
    intro v hv
    rw [segments, List.mem_singleton] at hv
    rw [hv, List.mem_reverse]
    exact h
  | cons c w ih =>
    intro v hv
    unfold segments at hv
    split at hv
    · rcases List.mem_cons.1 hv with rfl | hv
      · rw [List.mem_reverse]
        exact h
      · exact ih List.not_mem_nil v hv
    · rename_i hc
      refine ih ?_ v hv
      rw [List.mem_cons, not_or]
      exact ⟨Ne.symm hc, h⟩

theorem segments_replicate (n : Nat) (rest : List Char) :
    segments [] (List.replicate n '/' ++ rest) = List.replicate n [] ++ segments [] rest := by
  induction n with
  | zero => rfl
  | succ n ih =>
    rw [List.replicate_succ, List.replicate_succ, List.cons_append, List.cons_append, segments, if_pos rfl,
      ih]
    rfl

/-- Cutting at the slashes undoes joining with slashes. -/
theorem segments_intercalate {ws : List (List Char)} (hne : ws ≠ []) (h : ∀ w ∈ ws, '/' ∉ w) :
    segments [] (['/'].intercalate ws) = ws := by
  induction ws with
  | nil => exact absurd rfl hne
  | cons w ws ih =>
    obtain ⟨hw, h⟩ := List.forall_mem_cons.1 h
    cases ws with
    | nil => simpa using segments_of_no_slash hw []
    | cons v ws =>
      have joined : ['/'].intercalate (w :: v :: ws) = w ++ '/' :: ['/'].intercalate (v :: ws) := by
        simp [List.intercalate]
      rw [joined, segments_append hw, ih (List.cons_ne_nil _ _) h]
      rfl

/-! ### Reading back -/

theorem proper_parse (path : String) : (parse path).Proper where
  slashes := by
    simp only [parse]
    split <;> omega
  names := by
    intro name hname
    simp only [parse, List.mem_filter, List.mem_map, Bool.and_eq_true, bne_iff_ne] at hname
    obtain ⟨⟨w, hw, rfl⟩, hempty, hdot⟩ := hname
    refine ⟨hempty, hdot, ?_⟩
    rw [String.toList_ofList]
    exact slash_not_mem_segments List.not_mem_nil w hw

theorem Proper.child (h : l.Proper) (name : String) (proper : name ≠ "" ∧ name ≠ "." ∧ '/' ∉ name.toList) :
    (l.child name).Proper where
  slashes := h.slashes
  names name' hname' := by
    rcases List.mem_append.1 hname' with hname' | hname'
    · exact h.names name' hname'
    · obtain rfl := List.mem_singleton.1 hname'
      exact proper

theorem display_toList (hne : l.names ≠ []) :
    l.display.toList = List.replicate l.slashes '/' ++ ['/'].intercalate (l.names.map String.toList) := by
  have shown : ¬ (l.slashes = 0 && l.names.isEmpty) = true := by simp [hne]
  rw [display, if_neg shown, String.toList_append, String.toList_ofList, String.toList_intercalate]
  rfl

/-- The names of a proper location do not begin with a slash. -/
theorem takeWhile_slash_intercalate (h : l.Proper) :
    (['/'].intercalate (l.names.map String.toList)).takeWhile (· == '/') = [] := by
  rcases hl : l.names with _ | ⟨name, names⟩
  · rfl
  obtain ⟨nonempty, -, slash⟩ := h.names name (by simp [hl])
  rcases hc : name.toList with _ | ⟨c, w⟩
  · exact absurd (String.toList_injective hc) nonempty
  have first : c ≠ '/' := by
    rintro rfl
    exact slash (by simp [hc])
  cases names <;> simp [List.intercalate, hc, first]

theorem parse_display_of_empty (h : l.Proper) (none : l.names = []) : parse l.display = l := by
  obtain ⟨slashes, names⟩ := l
  obtain rfl : names = [] := none
  have atMost : slashes = 0 ∨ slashes = 1 ∨ slashes = 2 := by
    have := h.slashes
    dsimp only at this
    omega
  rcases atMost with rfl | rfl | rfl <;> decide

theorem parse_display (h : l.Proper) : parse l.display = l := by
  by_cases hne : l.names = []
  · exact parse_display_of_empty h hne
  have noSlash : ∀ w ∈ l.names.map String.toList, '/' ∉ w := by
    intro w hw
    obtain ⟨name, hname, rfl⟩ := List.mem_map.1 hw
    exact (h.names name hname).2.2
  have cut : segments [] l.display.toList =
      List.replicate l.slashes [] ++ l.names.map String.toList := by
    rw [display_toList hne, segments_replicate, segments_intercalate (by simpa using hne) noSlash]
  have slashes : (l.display.toList.takeWhile (· == '/')).length = l.slashes := by
    rw [display_toList hne, List.takeWhile_append_of_pos (by simp), takeWhile_slash_intercalate h]
    simp
  have keep : (l.names.map String.toList).map String.ofList = l.names := by simp
  have proper : l.names.filter (fun name => name != "" && name != ".") = l.names := by
    rw [List.filter_eq_self]
    intro name hname
    obtain ⟨nonempty, dot, -⟩ := h.names name hname
    simp [nonempty, dot]
  have blank : ((List.replicate l.slashes []).map String.ofList).filter
      (fun name => name != "" && name != ".") = [] := by simp
  have atMost := h.slashes
  rw [parse, cut, slashes, List.map_append, List.filter_append, blank, keep, proper, List.nil_append]
  have same : (if l.slashes = 2 then 2 else min l.slashes 1) = l.slashes := by
    split <;> omega
  rw [same]

theorem intercalate_concat_append (dirs : List String) (name s : String) :
    "/".intercalate (dirs ++ [name]) ++ s = "/".intercalate (dirs ++ [name ++ s]) := by
  rcases dirs with _ | ⟨d, dirs⟩
  · simp
  · rw [String.intercalate_append_of_ne_nil (by simp) (by simp),
      String.intercalate_append_of_ne_nil (by simp) (by simp), String.append_assoc]
    simp

theorem display_append (hl : l.names = dirs ++ [name]) (s : String) :
    l.display ++ s = display { l with names := dirs ++ [name ++ s] } := by
  simp only [display, hl]
  rw [if_neg (by simp), if_neg (by simp), String.append_assoc, intercalate_concat_append]

/-- What stands behind a path belongs to its last name. -/
theorem parse_display_append (h : l.Proper) (hl : l.names = dirs ++ [name]) (hs : '/' ∉ s.toList) :
    parse (l.display ++ s) = { l with names := dirs ++ [name ++ s] } := by
  rw [display_append hl]
  refine parse_display ⟨h.slashes, ?_⟩
  intro name' hname'
  rcases List.mem_append.1 hname' with hname' | hname'
  · exact h.names name' (by simp [hl, hname'])
  obtain rfl := List.mem_singleton.1 hname'
  obtain ⟨nonempty, dot, slash⟩ := h.names name (by simp [hl])
  rcases hc : name.toList with _ | ⟨c, w⟩
  · exact absurd (String.toList_injective hc) nonempty
  have chars : (name ++ s).toList = c :: (w ++ s.toList) := by simp [hc]
  refine ⟨fun heq => ?_, fun heq => ?_, ?_⟩
  · rw [heq] at chars
    cases chars
  · rw [heq] at chars
    obtain ⟨rfl, rest⟩ := List.cons.inj chars
    rw [(List.append_eq_nil_iff.1 rest.symm).1] at hc
    exact dot (String.toList_injective hc)
  · rw [String.toList_append, List.mem_append, not_or]
    exact ⟨slash, hs⟩

end HostWatch.Location
