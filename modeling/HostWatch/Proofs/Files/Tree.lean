import HostWatch.Files.Basic
import HostWatch.Proofs.OrderedMap

/-!
# Ways through a tree

`Files.Leads` holds of names that lead from one directory to another without a link on the way. What
follows them is looked up in the directory where they end (`Leads.advance_append`), and the directories
on the way need not be made again (`Leads.makeBelow`). Where there are directories only, a name leads to
one of them or is free (`OnlyDirectories.of_advance`).
-/

namespace HostWatch.Files

variable {f g : Files} {here there key names dirs rest : List String} {name : String} {ending : Ending}

/-- The names lead from one directory to another, through directories only. -/
def Leads (f : Files) (here names there : List String) : Prop :=
  f.advance .target here names = .ok (.place (.taken there .directory))

/-- A name that an entry can have. -/
structure Fits (name : String) : Prop where
  dot : name ≠ "."
  up : name ≠ ".."
  short : name.utf8ByteSize ≤ maxName

/-- Nothing but directories is there. -/
def OnlyDirectories (f : Files) : Prop := ∀ e ∈ f.entries, e.2 = .directory

/-- All directories of one tree are directories of another. -/
def Keeps (f g : Files) : Prop :=
  ∀ key, OrderedMap.get? f.entries key = some .directory → OrderedMap.get? g.entries key = some .directory

theorem Keeps.refl : Keeps f f := fun _ h => h

/-! ### Leading on -/

theorem leads_nil : f.Leads here [] there ↔ here = there := by
  simp [Leads, advance]

theorem leads_cons : f.Leads here (name :: rest) there ↔
    (name = "." ∧ f.Leads here rest there) ∨ (name = ".." ∧ f.Leads here.dropLast rest there) ∨
    (Fits name ∧ OrderedMap.get? f.entries (here ++ [name]) = some .directory ∧
      f.Leads (here ++ [name]) rest there) := by
  unfold Leads
  rw [advance]
  by_cases dot : name = "."
  · subst dot
    have other : ¬ Fits "." := fun h => h.dot rfl
    simp [other]
  by_cases up : name = ".."
  · subst up
    have other : ¬ Fits ".." := fun h => h.up rfl
    simp [other]
  by_cases long : maxName < name.utf8ByteSize
  · have other : ¬ Fits name := fun h => absurd h.short (by omega)
    simp [dot, up, long, other]
  have fits : Fits name := ⟨dot, up, by omega⟩
  simp only [dot, up, long, fits, if_false, false_and, false_or, true_and]
  rcases OrderedMap.get? f.entries (here ++ [name]) with _ | _ | id | target
  · by_cases last : rest.isEmpty <;> simp [last]
  · simp
  · by_cases last : rest.isEmpty <;> simp [last]
  · simp

/-- Of what follows only the end matters. -/
theorem Leads.advance_append (h : f.Leads here dirs there) (ending : Ending) (rest : List String) :
    f.advance ending here (dirs ++ rest) = f.advance ending there rest := by
  induction dirs generalizing here with
  | nil =>
    rw [leads_nil.1 h]
    rfl
  | cons name dirs ih =>
    rw [List.cons_append, advance]
    rcases leads_cons.1 h with ⟨dot, h⟩ | ⟨up, h⟩ | ⟨fits, directory, h⟩
    · rw [if_pos dot, ih h]
    · rw [if_neg (by simp [up]), if_pos up, ih h]
    · rw [if_neg fits.dot, if_neg fits.up, if_neg (Nat.not_lt.2 fits.short)]
      simp only [directory]
      exact ih h

theorem Leads.mono (keeps : f.Keeps g) (h : f.Leads here names there) : g.Leads here names there := by
  induction names generalizing here with
  | nil => exact leads_nil.2 (leads_nil.1 h)
  | cons name names ih =>
    refine leads_cons.2 ?_
    rcases leads_cons.1 h with ⟨dot, h⟩ | ⟨up, h⟩ | ⟨fits, directory, h⟩
    · exact .inl ⟨dot, ih h⟩
    · exact .inr (.inl ⟨up, ih h⟩)
    · exact .inr (.inr ⟨fits, keeps _ directory, ih h⟩)

/-! ### The last name -/

theorem advance_singleton (fits : Fits name) : f.advance ending here [name] =
    match OrderedMap.get? f.entries (here ++ [name]) with
    | none => .ok (.place (.free (here ++ [name])))
    | some .directory => .ok (.place (.taken (here ++ [name]) .directory))
    | some (.file id) => .ok (.place (.taken (here ++ [name]) (.file id)))
    | some (.link target) =>
      if ending = .link then .ok (.place (.taken (here ++ [name]) (.link target)))
      else .ok (.link here target []) := by
  rw [advance, if_neg fits.dot, if_neg fits.up, if_neg (Nat.not_lt.2 fits.short)]
  rcases hk : OrderedMap.get? f.entries (here ++ [name]) with _ | _ | id | target <;> simp [advance, hk]

theorem advance_of_none (fits : Fits name) (h : OrderedMap.get? f.entries (here ++ [name]) = none) :
    f.advance ending here [name] = .ok (.place (.free (here ++ [name]))) := by
  rw [advance_singleton fits, h]

theorem advance_of_file {id : Nat} (fits : Fits name)
    (h : OrderedMap.get? f.entries (here ++ [name]) = some (.file id)) :
    f.advance ending here [name] = .ok (.place (.taken (here ++ [name]) (.file id))) := by
  rw [advance_singleton fits, h]

theorem find_of_advance {place : Place} {links : Nat} (h : f.advance ending here names = .ok (.place place)) :
    f.find ending links here names = .ok place := by
  unfold find
  rw [h]

/-- Only what an entry can be called is free. -/
theorem Leads.of_find_free {links : Nat} (h : f.Leads here dirs there) (dot : name ≠ ".")
    (free : f.find .link links here (dirs ++ [name]) = .ok (.free key)) :
    Fits name ∧ key = there ++ [name] ∧ OrderedMap.get? f.entries (there ++ [name]) = none := by
  have step := h.advance_append .link [name]
  unfold find at free
  rw [step] at free
  by_cases up : name = ".."
  · subst up
    simp [advance] at free
  by_cases long : maxName < name.utf8ByteSize
  · rw [advance, if_neg dot, if_neg up, if_pos long] at free
    cases free
  have fits : Fits name := ⟨dot, up, by omega⟩
  rw [advance_singleton fits] at free
  refine ⟨fits, ?_⟩
  rcases hk : OrderedMap.get? f.entries (there ++ [name]) with _ | _ | id | target
  all_goals simp [hk] at free
  exact ⟨free.symm, rfl⟩

/-! ### Making directories -/

theorem OnlyDirectories.eq_directory (only : f.OnlyDirectories) {e : Entry}
    (h : OrderedMap.get? f.entries key = some e) : e = .directory := only _ (OrderedMap.mem_of_get? h)

theorem get?_setEntry {e : Entry} {key' : List String} :
    OrderedMap.get? (f.setEntry key e).entries key' =
      if key == key' then some e else OrderedMap.get? f.entries key' := OrderedMap.get?_set ..

theorem keeps_setEntry {e : Entry} (new : OrderedMap.get? f.entries key ≠ some .directory) :
    f.Keeps (f.setEntry key e) := by
  intro key' hk
  rw [get?_setEntry]
  split
  · rename_i heq
    rw [eq_of_beq heq] at new
    exact absurd hk new
  · exact hk

theorem OnlyDirectories.setEntry (only : f.OnlyDirectories) (key : List String) :
    (f.setEntry key .directory).OnlyDirectories :=
  fun e he => (OrderedMap.of_mem_set he).elim (only e) id

/-- Making directories makes nothing else. -/
theorem OnlyDirectories.makeBelow {made : Bool} (only : f.OnlyDirectories)
    (ok : f.makeBelow made here names = .ok g) : g.OnlyDirectories ∧ g.handles = f.handles := by
  induction names generalizing f made here with
  | nil =>
    obtain rfl := Except.ok.inj ok
    exact ⟨only, rfl⟩
  | cons name names ih =>
    rw [Files.makeBelow] at ok
    by_cases up : name = ".."
    · rw [if_pos up] at ok
      exact ih only ok
    by_cases long : maxName < name.utf8ByteSize
    · rw [if_neg up, if_pos long] at ok
      cases ok
    rw [if_neg up, if_neg long] at ok
    rcases hk : OrderedMap.get? f.entries (here ++ [name]) with _ | e
    · simp only [hk] at ok
      split at ok
      · cases ok
      · obtain ⟨only', handles⟩ := ih (only.setEntry _) ok
        exact ⟨only', handles⟩
    · obtain rfl := only.eq_directory hk
      simp only [hk] at ok
      exact ih only ok

/-- What is there already is not made again. -/
theorem Leads.makeBelow {made : Bool} (h : f.Leads here names there) (dots : "." ∉ names) :
    f.makeBelow made here names = .ok f := by
  induction names generalizing here made with
  | nil => rfl
  | cons name names ih =>
    rw [List.mem_cons, not_or] at dots
    rw [Files.makeBelow]
    rcases leads_cons.1 h with ⟨dot, -⟩ | ⟨up, h⟩ | ⟨fits, directory, h⟩
    · exact absurd dot.symm dots.1
    · rw [if_pos up]
      exact ih h dots.2
    · rw [if_neg fits.up, if_neg (Nat.not_lt.2 fits.short)]
      simp only [directory]
      exact ih h dots.2

/-! ### Opening a file -/

/-- Where there are directories only, a name at most is free. -/
theorem OnlyDirectories.of_advance {r : Reach} (only : f.OnlyDirectories) (dots : "." ∉ names)
    (h : f.advance ending here names = .ok r) :
    (∃ there, r = .place (.taken there .directory)) ∨
    ∃ dirs there name, names = dirs ++ [name] ∧ f.Leads here dirs there ∧ Fits name ∧
      OrderedMap.get? f.entries (there ++ [name]) = none ∧ r = .place (.free (there ++ [name])) := by
  induction names generalizing here with
  | nil => exact .inl ⟨here, (Except.ok.inj h).symm⟩
  | cons name names ih =>
    rw [List.mem_cons, not_or] at dots
    rw [advance, if_neg (Ne.symm dots.1)] at h
    have lead {middle : List String} (step : ∀ {dirs there}, f.Leads middle dirs there →
        f.Leads here (name :: dirs) there) (h : f.advance ending middle names = .ok r) :
        (∃ there, r = .place (.taken there .directory)) ∨
        ∃ dirs there last, name :: names = dirs ++ [last] ∧ f.Leads here dirs there ∧ Fits last ∧
          OrderedMap.get? f.entries (there ++ [last]) = none ∧ r = .place (.free (there ++ [last])) := by
      rcases ih dots.2 h with taken | ⟨dirs, there, last, rfl, leads, rest⟩
      · exact .inl taken
      · exact .inr ⟨name :: dirs, there, last, rfl, step leads, rest⟩
    by_cases up : name = ".."
    · rw [if_pos up] at h
      exact lead (fun leads => leads_cons.2 (.inr (.inl ⟨up, leads⟩))) h
    by_cases long : maxName < name.utf8ByteSize
    · rw [if_neg up, if_pos long] at h
      cases h
    have fits : Fits name := ⟨Ne.symm dots.1, up, by omega⟩
    rw [if_neg up, if_neg long] at h
    rcases hk : OrderedMap.get? f.entries (here ++ [name]) with _ | e
    · simp only [hk] at h
      split at h
      · rename_i last
        obtain rfl := List.isEmpty_iff.1 last
        exact .inr ⟨[], here, name, rfl, leads_nil.2 rfl, fits, hk, (Except.ok.inj h).symm⟩
      · cases h
    · obtain rfl := only.eq_directory hk
      simp only [hk] at h
      exact lead (fun leads => leads_cons.2 (.inr (.inr ⟨fits, hk, leads⟩))) h

end HostWatch.Files
