import HostWatch.Proofs.Files.Contents
import HostWatch.Proofs.Files.Tree

/-!
# What is written is found

A file that is written or opened at a location is found there afterwards, links on the way or not
(`Files.read_of_write`, `Files.locate_of_openSlot`). To write means to go the same way as to read, except
where a link names a directory: nothing is ever written behind one (`Files.find_concat_dot`).
-/

namespace HostWatch.Files

variable {f g : Files} {key here names rest : List String} {name : String} {id links : Nat} {ending : Ending}
  {p : Place} {r : Reach} {l : Location} {content : Content}

/-- One step into a directory, along a name that an entry can have. -/
theorem advance_cons_of_fits (fits : Fits name) : f.advance ending here (name :: rest) =
    match OrderedMap.get? f.entries (here ++ [name]) with
    | none => if rest.isEmpty then .ok (.place (.free (here ++ [name]))) else .error .notFound
    | some .directory => f.advance ending (here ++ [name]) rest
    | some (.file id) =>
      if rest.isEmpty then .ok (.place (.taken (here ++ [name]) (.file id))) else .error .notDirectory
    | some (.link target) =>
      if rest.isEmpty && ending = .link then .ok (.place (.taken (here ++ [name]) (.link target)))
      else .ok (.link here target rest) := by
  rw [advance]
  exact (if_neg fits.dot).trans ((if_neg fits.up).trans (if_neg (Nat.not_lt.2 fits.short)))

/-- The ways to take a step. -/
theorem advance_cons_ok (h : f.advance ending here (name :: rest) = .ok r) :
    (name = "." ∧ f.advance ending here rest = .ok r) ∨
    (name = ".." ∧ f.advance ending here.dropLast rest = .ok r) ∨ Fits name := by
  rw [advance] at h
  by_cases dot : name = "."
  · rw [if_pos dot] at h
    exact .inl ⟨dot, h⟩
  by_cases up : name = ".."
  · rw [if_neg dot, if_pos up] at h
    exact .inr (.inl ⟨up, h⟩)
  by_cases long : maxName < name.utf8ByteSize
  · rw [if_neg dot, if_neg up, if_pos long] at h
    cases h
  · exact .inr (.inr ⟨dot, up, Nat.not_lt.1 long⟩)

theorem advance_dot : f.advance ending here ("." :: rest) = f.advance ending here rest := by simp [advance]

theorem advance_up : f.advance ending here (".." :: rest) = f.advance ending here.dropLast rest := by
  simp [advance]

/-! ### What a way depends on -/

theorem advance_congr (same : g.entries = f.entries) :
    g.advance ending here names = f.advance ending here names := by
  induction names generalizing here with
  | nil => rfl
  | cons name rest ih => simp only [advance, same, ih]

theorem find_congr (same : g.entries = f.entries) :
    g.find ending links here names = f.find ending links here names := by
  induction links generalizing here names with
  | zero =>
    unfold find
    rw [advance_congr same]
  | succ links ih =>
    unfold find
    rw [advance_congr same]
    simp only [ih]

/-- Where a location leads depends on the entries, and not on what the files hold. -/
theorem locate_congr (same : g.entries = f.entries) (working : g.working = f.working) (ending : Ending)
    (l : Location) : g.locate ending l = f.locate ending l := by
  simp only [locate, startOf, working, find_congr same]

/-! ### What is at a place -/

/-- A free name has no entry, and a file is the entry of its name. -/
def Actual (f : Files) : Place → Prop
  | .free key => OrderedMap.get? f.entries key = none
  | .taken key (.file id) => OrderedMap.get? f.entries key = some (.file id)
  | .taken _ _ => True

theorem actual_of_advance (h : f.advance ending here names = .ok (.place p)) : f.Actual p := by
  induction names generalizing here with
  | nil =>
    obtain rfl := Reach.place.inj (Except.ok.inj h)
    trivial
  | cons name rest ih =>
    rcases advance_cons_ok h with ⟨-, h⟩ | ⟨-, h⟩ | fits
    · exact ih h
    · exact ih h
    rw [advance_cons_of_fits fits] at h
    rcases found : OrderedMap.get? f.entries (here ++ [name]) with _ | _ | id | target
    · simp only [found] at h
      split at h
      · obtain rfl := Reach.place.inj (Except.ok.inj h)
        exact found
      · cases h
    · simp only [found] at h
      exact ih h
    · simp only [found] at h
      split at h
      · obtain rfl := Reach.place.inj (Except.ok.inj h)
        exact found
      · cases h
    · simp only [found] at h
      split at h
      · obtain rfl := Reach.place.inj (Except.ok.inj h)
        trivial
      · cases h

theorem actual_of_find (h : f.find ending links here names = .ok p) : f.Actual p := by
  induction links generalizing here names with
  | zero =>
    unfold find at h
    rcases step : f.advance ending here names with _ | q | _
    · simp [step] at h
    · simp only [step] at h
      obtain rfl := Except.ok.inj h
      exact actual_of_advance step
    · simp [step] at h
  | succ links ih =>
    unfold find at h
    rcases step : f.advance ending here names with _ | q | _
    · simp [step] at h
    · simp only [step] at h
      obtain rfl := Except.ok.inj h
      exact actual_of_advance step
    · simp only [step] at h
      exact ih h

theorem actual_of_locate (h : f.locate ending l = .ok p) : f.Actual p := by
  unfold locate at h
  split at h
  · cases h
  · exact actual_of_find h

/-! ### The same way -/

/-- The second tree is the first with a file in a place where that file was or nothing. -/
structure Gains (f g : Files) (key : List String) (id : Nat) : Prop where
  file : OrderedMap.get? g.entries key = some (.file id)
  before : OrderedMap.get? f.entries key = none ∨ OrderedMap.get? f.entries key = some (.file id)
  others : ∀ k, k ≠ key → OrderedMap.get? g.entries k = OrderedMap.get? f.entries k
  working : g.working = f.working

/-- The place of the file, whether it is there already or not. -/
def Meant (key : List String) (id : Nat) (p : Place) : Prop := p = .free key ∨ p = .taken key (.file id)

/-- Where the way to a place of the first tree leads in the second. -/
def Reach.seen (key : List String) (id : Nat) : Reach → Reach
  | .place _ => .place (.taken key (.file id))
  | .link here target rest => .link here target rest

theorem Gains.get?_of_ne_file (gains : f.Gains g key id) {e : Entry}
    (h : OrderedMap.get? f.entries here = some e) (other : e ≠ .file id) :
    OrderedMap.get? g.entries here = some e := by
  rw [gains.others here, h]
  rintro rfl
  rcases gains.before with none | file
  · rw [h] at none
    cases none
  · rw [h] at file
    exact other (Option.some.inj file)

theorem Gains.advance (gains : f.Gains g key id) (meant : ∀ p, r = .place p → Meant key id p)
    (h : f.advance .newFile here names = .ok r) : g.advance .target here names = .ok (r.seen key id) := by
  induction names generalizing here with
  | nil =>
    obtain rfl := Except.ok.inj h
    rcases meant _ rfl with same | same <;> cases same
  | cons name rest ih =>
    rcases advance_cons_ok h with ⟨rfl, h⟩ | ⟨rfl, h⟩ | fits
    · rw [advance_dot]
      exact ih h
    · rw [advance_up]
      exact ih h
    rw [advance_cons_of_fits fits] at h ⊢
    rcases found : OrderedMap.get? f.entries (here ++ [name]) with _ | _ | id' | target
    · simp only [found] at h
      split at h
      · rename_i last
        obtain rfl := Except.ok.inj h
        obtain same | same := meant _ rfl
        · obtain rfl := Place.free.inj same
          simp only [gains.file, last, if_true]
          rfl
        · cases same
      · cases h
    · simp only [found] at h
      simp only [gains.get?_of_ne_file found (by simp)]
      exact ih h
    · simp only [found] at h
      split at h
      · rename_i last
        obtain rfl := Except.ok.inj h
        obtain same | same := meant _ rfl
        · cases same
        · obtain ⟨rfl, -⟩ := Place.taken.inj same
          simp only [gains.file, last, if_true]
          rfl
      · cases h
    · simp [found] at h
      obtain rfl := h
      simp [gains.get?_of_ne_file found (by simp)]
      rfl

/-! ### Links to directories -/

/-- What is looked for as a directory is found as one, or behind a link that is looked for as one. -/
theorem advance_concat_dot (h : f.advance ending here (names ++ ["."]) = .ok r) :
    (∃ there, r = .place (.taken there .directory)) ∨
    ∃ start target rest, r = .link start target (rest ++ ["."]) := by
  induction names generalizing here with
  | nil =>
    rw [List.nil_append, advance_dot] at h
    exact .inl ⟨here, (Except.ok.inj h).symm⟩
  | cons name rest ih =>
    rw [List.cons_append] at h
    rcases advance_cons_ok h with ⟨-, h⟩ | ⟨-, h⟩ | fits
    · exact ih h
    · exact ih h
    rw [advance_cons_of_fits fits] at h
    rcases found : OrderedMap.get? f.entries (here ++ [name]) with _ | _ | id | target
    · simp [found] at h
    · simp only [found] at h
      exact ih h
    · simp [found] at h
    · simp [found] at h
      exact .inr ⟨here, target, rest, h.symm⟩

/-- Nothing but a directory is found behind a name that stands for one. -/
theorem find_concat_dot (h : f.find ending links here (names ++ ["."]) = .ok p) :
    ∃ there, p = .taken there .directory := by
  induction links generalizing here names with
  | zero =>
    unfold find at h
    rcases step : f.advance ending here (names ++ ["."]) with _ | r
    · simp [step] at h
    rcases advance_concat_dot step with ⟨there, rfl⟩ | ⟨start, target, rest, rfl⟩
    · simp only [step] at h
      exact ⟨there, (Except.ok.inj h).symm⟩
    · simp [step] at h
  | succ links ih =>
    unfold find at h
    rcases step : f.advance ending here (names ++ ["."]) with _ | r
    · simp [step] at h
    rcases advance_concat_dot step with ⟨there, rfl⟩ | ⟨start, target, rest, rfl⟩
    · simp only [step] at h
      exact ⟨there, (Except.ok.inj h).symm⟩
    · simp only [step, ← List.append_assoc] at h
      exact ih h

/-- A file is made where it will be found: a link that ends in a slash is not followed to make one. -/
theorem targetNames_newFile (target : String) :
    targetNames .newFile target = targetNames .target target ∨
      ∃ names, targetNames .newFile target = names ++ ["."] := by
  unfold targetNames
  dsimp only
  split
  · exact .inr ⟨_, rfl⟩
  · exact .inl rfl
  · exact .inl rfl

theorem Gains.find (gains : f.Gains g key id) (meant : Meant key id p)
    (h : f.find .newFile links here names = .ok p) :
    g.find .target links here names = .ok (.taken key (.file id)) := by
  have reached {q : Place} (step : f.advance .newFile here names = .ok (.place q)) (same : q = p) :
      g.find .target links here names = .ok (.taken key (.file id)) := by
    obtain rfl := same
    exact find_of_advance (gains.advance (fun _ same => Reach.place.inj same ▸ meant) step)
  induction links generalizing here names with
  | zero =>
    unfold Files.find at h
    rcases step : f.advance .newFile here names with _ | q | ⟨start, target, rest⟩
    · simp [step] at h
    · simp only [step] at h
      exact reached step (Except.ok.inj h)
    · simp [step] at h
  | succ links ih =>
    unfold Files.find at h
    rcases step : f.advance .newFile here names with _ | q | ⟨start, target, rest⟩
    · simp [step] at h
    · simp only [step] at h
      exact reached step (Except.ok.inj h)
    have same : g.advance .target here names = .ok (.link start target rest) :=
      gains.advance (fun _ same => by cases same) step
    simp only [step] at h
    unfold Files.find
    simp only [same, ite_self]
    have onward {dirs : List String} (h : f.find .newFile links dirs (targetNames .target target ++ rest) = .ok p) :
        g.find .target links dirs (targetNames .target target ++ rest) = .ok (.taken key (.file id)) :=
      ih h fun step same => by
        obtain rfl := same
        exact find_of_advance (gains.advance (fun _ same => Reach.place.inj same ▸ meant) step)
    -- only a link at the end of the way is followed in another manner to make a file
    rcases rest with _ | ⟨name, rest⟩
    · rcases targetNames_newFile target with names | ⟨dirs, names⟩
      · simp only [List.isEmpty_nil, if_true, names] at h
        exact onward h
      · simp only [List.isEmpty_nil, if_true, names, List.append_nil] at h
        obtain ⟨there, rfl⟩ := find_concat_dot h
        rcases meant with same | same <;> cases same
    · exact onward h

theorem Gains.locate (gains : f.Gains g key id) (meant : Meant key id p)
    (h : f.locate .newFile l = .ok p) : g.locate .target l = .ok (.taken key (.file id)) := by
  have start : g.startOf l = f.startOf l := by rw [startOf, startOf, gains.working]
  unfold Files.locate at h ⊢
  split at h
  · cases h
  · rw [start]
    exact gains.find meant h

/-! ### Writing and opening -/

theorem gains_setContent (h : OrderedMap.get? f.entries key = some (.file id)) (content : Content) :
    f.Gains (f.setContent id content) key id := ⟨h, .inr h, fun _ _ => rfl, rfl⟩

theorem gains_create (h : OrderedMap.get? f.entries key = none) (content : Content) :
    f.Gains (f.create key content).2 key f.changes where
  file := (OrderedMap.get?_set ..).trans (by simp)
  before := .inl h
  others k other := (OrderedMap.get?_set ..).trans (by simp [other.symm])
  working := rfl

theorem content_setContent (f : Files) (id : Nat) (content : Content) :
    ((f.setContent id content).body id).content = content := by
  rw [body_setContent, if_pos rfl]

/-- What is written at a location is found there. -/
theorem locate_of_write (h : f.write l content = .ok g) :
    ∃ key id, g.locate .target l = .ok (.taken key (.file id)) ∧ (g.body id).content = content := by
  unfold write at h
  split at h
  · rename_i key id found
    obtain rfl := Except.ok.inj h
    exact ⟨key, id, (gains_setContent (actual_of_locate found) content).locate (.inr rfl) found,
      content_setContent f id content⟩
  · rename_i key found
    obtain rfl := Except.ok.inj h
    exact ⟨key, f.changes, (gains_create (actual_of_locate found) content).locate (.inl rfl) found,
      content_setContent _ _ content⟩
  · cases h
  · cases h

theorem read_of_locate (h : f.locate .target l = .ok (.taken key (.file id))) :
    f.read l = .ok (f.body id).content := by
  simp only [read, file?, entry?, h]
  rfl

theorem read_of_write (h : f.write l content = .ok g) : g.read l = .ok content := by
  obtain ⟨key, id, found, same⟩ := locate_of_write h
  rw [read_of_locate found, same]

/-- What is opened at a location is found there. -/
theorem locate_of_openSlot {slot : Nat} (h : f.openSlot slot l = .ok g) : ∃ key id,
    OrderedMap.get? g.handles slot = some id ∧ g.locate .target l = .ok (.taken key (.file id)) := by
  have handle (handles : OrderedMap Nat Nat) (id : Nat) :
      OrderedMap.get? (OrderedMap.set handles slot id) slot = some id := by rw [OrderedMap.get?_set]; simp
  unfold openSlot at h
  split at h
  · rename_i key id found
    obtain rfl := Except.ok.inj h
    have gains : f.Gains { f with handles := OrderedMap.set f.handles slot id } key id :=
      ⟨actual_of_locate found, .inr (actual_of_locate found), fun _ _ => rfl, rfl⟩
    exact ⟨key, id, handle _ _, gains.locate (.inr rfl) found⟩
  · rename_i key found
    obtain rfl := Except.ok.inj h
    have made := gains_create (actual_of_locate found) (.text "")
    have gains : f.Gains { (f.create key (.text "")).2 with
        handles := OrderedMap.set f.handles slot f.changes } key f.changes :=
      ⟨made.file, made.before, made.others, made.working⟩
    exact ⟨key, f.changes, handle _ _, gains.locate (.inl rfl) found⟩
  · cases h
  · cases h

end HostWatch.Files
