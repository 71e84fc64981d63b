import HostWatch.Proofs.Capture.Persistence

/-!
# Sources that fail to be read

The values of a key of the registry, the files of a folder and the scheduled tasks are read one after another,
and what fails to be read is passed over: no fault tells it, and the entries are missing. So between two
captures of the same sources nothing is ever changed, but an entry comes or goes if its source could be read
at only one of them (`Sources.unread_exact`). A failed read may well be told as a change
(`Sources.not_forall_unread_silent`).
-/

namespace HostWatch

open OrderedMap Autoruns

/-- What starts by itself, whether or not it can be read. -/
structure Sources where
  isWindows : Bool
  /-- The names of the values of a key of the registry. -/
  values : String → List String
  data : String → String → Value
  /-- The files directly inside a folder. -/
  files : String → List String
  /-- The size of a file and the time of its last change. -/
  state : String → String
  /-- What the system tells of the scheduled tasks. -/
  tasks : String

/-- What is read or fails to be read on its own. -/
inductive Source where
  | key (name : String)
  | folder (path : String)
  | tasks

namespace Source
variable (s : Sources) (t t' : Machine × Files)

/-- The entries of a source. -/
def Entry (label text : String) : Source → Prop
  | .key name => ∃ value ∈ s.values name,
    label = "run:" ++ name ++ "\\" ++ value ∧ text = (s.data name value).display
  | .folder path => ∃ file ∈ s.files path, label = "file:" ++ file ∧ text = s.state file
  | .tasks => ∃ rows, Text.Table.rows s.tasks = .ok rows ∧ get? (ofPairs (rows.filterMap taskOf)) label = some text

def Has (label : String) (source : Source) : Prop := ∃ text, source.Entry s label text

/-- The values of a key as they are enumerated. -/
def valuesOf (name : String) : List RegistryValue := (s.values name).map fun value => some (value, s.data name value)

def filesOf (path : String) : List (String × String) := (s.files path).map fun file => ("file:" ++ file, s.state file)

/-- The whole source was read. -/
def IsWhole : Source → Prop
  | .key name => get? t.1.registry name = some (valuesOf s name)
  | .folder path => inFolder t.2 path = filesOf s path
  | .tasks => t.1.tasks = .output s.tasks true

/-- The source was read, or that failed: a key could not be opened or not be enumerated to the end, a folder
or some of its files could not be looked at, or nobody could be asked for the tasks. -/
def IsRead : Source → Prop
  | .key name => get? t.1.registry name = some (valuesOf s name) ∨ get? t.1.registry name = none ∨
    ∃ n rest, get? t.1.registry name = some ((valuesOf s name).take n ++ none :: rest)
  | .folder path => (inFolder t.2 path).Sublist (filesOf s path)
  | .tasks => t.1.tasks = .output s.tasks true ∨ t.1.tasks = .failed ∨ ∃ text, t.1.tasks = .output text false

/-- As much was read of the source at both captures. -/
def IsAlike : Source → Prop
  | .key name => get? t.1.registry name = get? t'.1.registry name
  | .folder path => inFolder t.2 path = inFolder t'.2 path
  | .tasks => t.1.tasks = t'.1.tasks

end Source

namespace Sources
variable {s : Sources} {folders : List String} {t t' : Machine × Files} {entries entries' : Autoruns}
  {label text text' : String} {source source' : Source}

/-- The sources that are looked at. -/
def watched (s : Sources) (folders : List String) : List Source :=
  folders.map .folder ++ if s.isWindows then .tasks :: registryKeys.map .key else []

/-- A machine and its files show the sources, as far as they can be read. -/
structure ShownBy (s : Sources) (folders : List String) (t : Machine × Files) : Prop where
  platform : t.1.isWindows = s.isWindows
  read : ∀ source ∈ s.watched folders, source.IsRead s t

theorem folder_mem_watched {path : String} : .folder path ∈ s.watched folders ↔ path ∈ folders := by
  unfold watched
  split <;> simp

theorem key_mem_watched {name : String} :
    .key name ∈ s.watched folders ↔ s.isWindows = true ∧ name ∈ registryKeys := by
  unfold watched
  split <;> simp_all

theorem tasks_mem_watched : .tasks ∈ s.watched folders ↔ s.isWindows = true := by
  unfold watched
  split <;> simp_all

/-! ### What is read of a source -/

def runEntries (s : Sources) (name : String) : List (String × String) :=
  (s.values name).map fun value => ("run:" ++ name ++ "\\" ++ value, (s.data name value).display)

theorem mem_runEntries {name : String} :
    (label, text) ∈ s.runEntries name ↔ (Source.key name).Entry s label text := by
  simp only [runEntries, Source.Entry, List.mem_map, Prod.mk.injEq, eq_comm]

theorem mem_filesOf {path : String} :
    (label, text) ∈ Source.filesOf s path ↔ (Source.folder path).Entry s label text := by
  simp only [Source.filesOf, Source.Entry, List.mem_map, Prod.mk.injEq, eq_comm]

theorem ofKey_values (label name : String) (values : List String) (rest : List RegistryValue) :
    ofKey label (values.map (fun value => some (value, s.data name value)) ++ rest) =
      values.map (fun value => (label ++ "\\" ++ value, (s.data name value).display)) ++ ofKey label rest := by
  induction values with
  | nil => rfl
  | cons value values ih => exact congrArg _ ih

theorem ofKey_of_whole {name : String} (whole : (Source.key name).IsWhole s t) :
    ofKey ("run:" ++ name) ((get? t.1.registry name).getD []) = s.runEntries name := by
  have all := ofKey_values (s := s) ("run:" ++ name) name (s.values name) []
  rw [List.append_nil] at all
  rw [whole, Option.getD_some, Source.valuesOf, all]
  exact List.append_nil _

theorem ofKey_subset {name : String} (read : (Source.key name).IsRead s t) :
    ofKey ("run:" ++ name) ((get? t.1.registry name).getD []) ⊆ s.runEntries name := by
  rcases read with whole | unopened | ⟨n, rest, cut⟩
  · rw [ofKey_of_whole whole]
    exact List.Subset.refl _
  · rw [unopened]
    exact List.nil_subset _
  · -- Enumerating stops at the value that fails, and what was read until then stays.
    rw [cut, Option.getD_some, Source.valuesOf, ← List.map_take, ofKey_values]
    show _ ++ [] ⊆ _
    rw [List.append_nil]
    exact (List.take_sublist ..).map _ |>.subset

theorem get?_runKeys (shown : s.ShownBy folders t) (h : get? (runKeys t.1) label = some text) :
    ∃ source ∈ s.watched folders, source.Entry s label text := by
  unfold runKeys at h
  split at h
  · rename_i windows
    obtain ⟨name, hname, hmem⟩ := List.mem_flatMap.1 (mem_of_get?_ofPairs h)
    have watched : .key name ∈ s.watched folders := key_mem_watched.2 ⟨shown.platform ▸ windows, hname⟩
    exact ⟨.key name, watched, mem_runEntries.1 (ofKey_subset (shown.read _ watched) hmem)⟩
  · cases h

theorem get?_inFolders (shown : s.ShownBy folders t) (h : get? (inFolders t.2 folders) label = some text) :
    ∃ source ∈ s.watched folders, source.Entry s label text := by
  obtain ⟨path, hpath, hmem⟩ := List.mem_flatMap.1 (mem_of_get?_ofPairs h)
  have watched : .folder path ∈ s.watched folders := folder_mem_watched.2 hpath
  exact ⟨.folder path, watched, mem_filesOf.1 ((shown.read _ watched).subset hmem)⟩

/-- The tasks are read as a whole or not at all. -/
theorem tasks_ok {told : Autoruns} (shown : s.ShownBy folders t) (ok : Autoruns.tasks t.1 = .ok told) :
    told = [] ∧ ¬ (s.isWindows = true ∧ Source.tasks.IsWhole s t) ∨ s.isWindows = true ∧
      ∃ rows, Text.Table.rows s.tasks = .ok rows ∧ told = ofPairs (rows.filterMap taskOf) := by
  unfold Autoruns.tasks at ok
  rw [shown.platform] at ok
  by_cases windows : s.isWindows = true
  · rw [if_pos windows] at ok
    rcases shown.read .tasks (tasks_mem_watched.2 windows) with whole | failed | ⟨text, refused⟩
    · rw [whole] at ok
      dsimp only at ok
      rcases hrows : Text.Table.rows s.tasks with problem | rows
      · rw [hrows] at ok
        cases problem <;> cases ok
      · rw [hrows] at ok
        exact .inr ⟨windows, rows, rfl, (Except.ok.inj ok).symm⟩
    · rw [failed] at ok
      exact .inl ⟨(Except.ok.inj ok).symm, fun ⟨_, whole⟩ => by cases failed.symm.trans whole⟩
    · rw [refused] at ok
      exact .inl ⟨(Except.ok.inj ok).symm, fun ⟨_, whole⟩ => by cases refused.symm.trans whole⟩
  · rw [if_neg windows] at ok
    exact .inl ⟨(Except.ok.inj ok).symm, fun h => windows h.1⟩

/-! ### What is read of all sources -/

/-- Nothing is collected that is not there. -/
theorem entry_of_get? (shown : s.ShownBy folders t) (ok : collect t.1 t.2 folders = .ok entries)
    (h : get? entries label = some text) : ∃ source ∈ s.watched folders, source.Entry s label text := by
  obtain ⟨told, htold, ok⟩ := ok_of_bind ok
  obtain rfl := Except.ok.inj ok
  rcases of_get?_update h with h | h
  · rcases of_get?_update h with h | h
    · exact get?_runKeys shown h
    · exact get?_inFolders shown ((distinct_ofPairs _).get?_iff.2 h)
  · rcases tasks_ok shown htold with ⟨rfl, -⟩ | ⟨windows, rows, hrows, rfl⟩
    · cases h
    · exact ⟨.tasks, tasks_mem_watched.2 windows, rows, hrows, (distinct_ofPairs _).get?_iff.2 h⟩

/-- What is read as a whole is collected. -/
theorem mem_keys_of_whole (shown : s.ShownBy folders t) (ok : collect t.1 t.2 folders = .ok entries)
    (watched : source ∈ s.watched folders) (whole : source.IsWhole s t) (entry : source.Entry s label text) :
    label ∈ keys entries := by
  obtain ⟨told, htold, ok⟩ := ok_of_bind ok
  obtain rfl := Except.ok.inj ok
  rw [mem_keys_update, mem_keys_update]
  rcases source with name | path | _
  · obtain ⟨windows, hname⟩ := key_mem_watched.1 watched
    refine .inl (.inl ?_)
    unfold runKeys
    rw [shown.platform, if_pos windows, mem_keys_ofPairs]
    refine List.mem_map.2 ⟨(label, text), List.mem_flatMap.2 ⟨name, hname, ?_⟩, rfl⟩
    rw [ofKey_of_whole whole]
    exact mem_runEntries.2 entry
  · refine .inl (.inr ?_)
    unfold inFolders
    rw [mem_keys_ofPairs]
    refine List.mem_map.2 ⟨(label, text), List.mem_flatMap.2 ⟨path, folder_mem_watched.1 watched, ?_⟩, rfl⟩
    rw [whole]
    exact mem_filesOf.2 entry
  · have windows := tasks_mem_watched.1 watched
    obtain ⟨rows, hrows, hget⟩ := entry
    rcases tasks_ok shown htold with ⟨-, unread⟩ | ⟨-, rows', hrows', rfl⟩
    · exact absurd ⟨windows, whole⟩ unread
    · obtain rfl : rows = rows' := Except.ok.inj (hrows.symm.trans hrows')
      exact .inr (mem_keys_of_get? hget)

theorem collect_congr (shown : s.ShownBy folders t) (shown' : s.ShownBy folders t')
    (alike : ∀ source ∈ s.watched folders, source.IsAlike t t') :
    collect t.1 t.2 folders = collect t'.1 t'.2 folders := by
  have platform : t.1.isWindows = t'.1.isWindows := shown.platform.trans shown'.platform.symm
  have hkeys : runKeys t.1 = runKeys t'.1 := by
    unfold runKeys
    rw [platform]
    split
    · rename_i windows
      have same (name : String) (h : name ∈ registryKeys) : get? t.1.registry name = get? t'.1.registry name :=
        alike (.key name) (key_mem_watched.2 ⟨shown'.platform ▸ windows, h⟩)
      exact congrArg ofPairs (List.flatMap_congr fun name h => by rw [same name h])
    · rfl
  have hfolders : inFolders t.2 folders = inFolders t'.2 folders :=
    congrArg ofPairs (List.flatMap_congr fun path h => alike (.folder path) (folder_mem_watched.2 h))
  have htasks : Autoruns.tasks t.1 = Autoruns.tasks t'.1 := by
    unfold Autoruns.tasks
    rw [platform]
    split
    · rename_i windows
      have same : t.1.tasks = t'.1.tasks := alike .tasks (tasks_mem_watched.2 (shown'.platform ▸ windows))
      rw [same]
    · rfl
  unfold collect
  rw [hkeys, hfolders, htasks]

/-! ### Labels tell the source -/

theorem runLabel_inj {name name' value value' : String} (h : name ∈ registryKeys) (h' : name' ∈ registryKeys)
    (same : "run:" ++ name ++ "\\" ++ value = "run:" ++ name' ++ "\\" ++ value') : name = name' ∧ value = value' := by
  rw [← String.toList_inj] at same
  rw [← value.toList_inj]
  simp only [registryKeys, List.mem_cons, List.not_mem_nil, or_false] at h h'
  rcases h with rfl | rfl | rfl | rfl <;> rcases h' with rfl | rfl | rfl | rfl <;> simp_all

theorem label_of_taskOf {row : List String} {e : String × String} (h : taskOf row = some e) :
    ∃ task, e.1 = "task:" ++ task := by
  unfold taskOf at h
  split at h
  · cases h
  · dsimp only at h
    split at h
    · cases h
    · cases h
      exact ⟨_, rfl⟩

def kind : Source → String
  | .key _ => "run:"
  | .folder _ => "file:"
  | .tasks => "task:"

theorem label_of_entry (entry : source.Entry s label text) : ∃ rest, label = kind source ++ rest := by
  rcases source with name | path | _
  · obtain ⟨value, -, rfl, -⟩ := entry
    exact ⟨name ++ "\\" ++ value, by rw [kind, String.append_assoc, String.append_assoc, String.append_assoc]⟩
  · obtain ⟨file, -, rfl, -⟩ := entry
    exact ⟨file, rfl⟩
  · obtain ⟨rows, -, hget⟩ := entry
    obtain ⟨row, -, hrow⟩ := List.mem_filterMap.1 (mem_of_get?_ofPairs hget)
    exact label_of_taskOf hrow

/-- Under one label there is one text, wherever it is read. -/
theorem text_unique (watched : source ∈ s.watched folders) (watched' : source' ∈ s.watched folders)
    (entry : source.Entry s label text) (entry' : source'.Entry s label text') : text = text' := by
  -- Sources of two kinds do not share a label, and so only those of one kind are compared below.
  have other (h : kind source ≠ kind source') : text = text' := by
    obtain ⟨rest, rfl⟩ := label_of_entry entry
    obtain ⟨rest', same⟩ := label_of_entry entry'
    rw [← String.toList_inj] at same
    rcases source with _ | _ | _ <;> rcases source' with _ | _ | _ <;> simp [kind] at h same
  rcases source with name | path | _ <;> rcases source' with name' | path' | _
  case key.key =>
    obtain ⟨value, -, rfl, rfl⟩ := entry
    obtain ⟨value', -, same, rfl⟩ := entry'
    obtain ⟨rfl, rfl⟩ := runLabel_inj (key_mem_watched.1 watched).2 (key_mem_watched.1 watched').2 same
    rfl
  case folder.folder =>
    obtain ⟨file, -, rfl, rfl⟩ := entry
    obtain ⟨file', -, same, rfl⟩ := entry'
    obtain rfl : file = file' := by simpa [← String.toList_inj] using same
    rfl
  case tasks.tasks =>
    obtain ⟨rows, hrows, hget⟩ := entry
    obtain ⟨rows', hrows', hget'⟩ := entry'
    obtain rfl : rows = rows' := Except.ok.inj (hrows.symm.trans hrows')
    exact Option.some.inj (hget.symm.trans hget')
  all_goals exact other (by simp [kind])

theorem alike_of_whole (whole : source.IsWhole s t) (whole' : source.IsWhole s t') : source.IsAlike t t' := by
  cases source
  all_goals exact whole.trans whole'.symm

/-- No source that has the entry was read as a whole, and there is one. -/
def Unread (s : Sources) (folders : List String) (t : Machine × Files) (label : String) : Prop :=
  (∃ source ∈ s.watched folders, source.Has s label) ∧
    ∀ source ∈ s.watched folders, source.Has s label → ¬ source.IsWhole s t

theorem unread_of_missing (shown : s.ShownBy folders t) (shown' : s.ShownBy folders t')
    (ok : collect t.1 t.2 folders = .ok entries) (ok' : collect t'.1 t'.2 folders = .ok entries')
    (there : label ∈ keys entries') (missing : label ∉ keys entries) : s.Unread folders t label := by
  obtain ⟨text, hget⟩ := exists_get?_of_mem_keys there
  obtain ⟨source, watched, entry⟩ := entry_of_get? shown' ok' hget
  refine ⟨⟨source, watched, text, entry⟩, ?_⟩
  rintro source watched ⟨text, entry⟩ whole
  exact missing (mem_keys_of_whole shown ok watched whole entry)

section
open PersistenceCapturer (take)
variable {c c₁ c₂ : PersistenceCapturer}

/-- Two captures after each other, of the same sources. Nothing is changed; what comes was not read first, and
what goes is not read now. If as much is read of each source, there is no difference and no alert. -/
theorem unread_exact (asked : c.folders = folders) (first : take t c = (c₁, none)) (second : take t' c₁ = (c₂, none))
    (shown : s.ShownBy folders t) (shown' : s.ShownBy folders t') : ∃ d : AutorunsDiff, c₂.info.Tells d ∧
      d.changed = [] ∧ (∀ label ∈ d.added, s.Unread folders t label) ∧
      (∀ label ∈ d.removed, s.Unread folders t' label) ∧
      ((∀ source ∈ s.watched folders, source.IsWhole s t ∧ source.IsWhole s t' ∨ source.IsAlike t t') →
        d = ⟨[], [], []⟩ ∧ (Rule.persistenceChange (.int 1)).findings c₂.info = .ok []) := by
  subst asked
  obtain ⟨old, hold, rfl⟩ := PersistenceCapturer.take_eq_of_ok first
  obtain ⟨new, hnew, rfl⟩ := PersistenceCapturer.take_eq_of_ok second
  have tells : (PersistenceCapturer.info { c with previous := some old, current := some new }).Tells
      (AutorunsDiff.between old new) := PersistenceCapturer.info_tells rfl rfl
  refine ⟨_, tells, ?_, ?_, ?_, ?_⟩
  · refine List.eq_nil_iff_forall_not_mem.2 fun label h => ?_
    obtain ⟨before, after, ha, hb, differ⟩ := AutorunsDiff.mem_changed.1 h
    obtain ⟨source, watched, entry⟩ := entry_of_get? shown hold ha
    obtain ⟨source', watched', entry'⟩ := entry_of_get? shown' hnew hb
    exact differ (text_unique watched watched' entry entry')
  · intro label h
    obtain ⟨there, missing⟩ := AutorunsDiff.mem_added.1 h
    exact unread_of_missing shown shown' hold hnew there missing
  · intro label h
    obtain ⟨there, missing⟩ := AutorunsDiff.mem_removed.1 h
    exact unread_of_missing shown' shown hnew hold there missing
  · intro alike
    have same := collect_congr shown shown' fun source h =>
      (alike source h).elim (fun whole => alike_of_whole whole.1 whole.2) id
    obtain rfl : old = new := Except.ok.inj (hold.symm.trans (same.trans hnew))
    rw [AutorunsDiff.between_self] at tells ⊢
    exact ⟨rfl, (Rule.changeLaw tells (Int.le_refl 1) (by decide)).silent (by decide)⟩

end

/-- A machine with one task, and the same when it cannot be asked for it. -/
def scheduling : Sources where
  isWindows := true
  values _ := []
  data _ _ := .null
  files _ := []
  state _ := ""
  tasks := "\"\\Backup\",\"Ready\"\n"

def answering : Machine × Files :=
  ({ platform := "win32", registry := registryKeys.map (·, []), tasks := .output scheduling.tasks true }, {})

def silenced : Machine × Files := ({ answering.1 with tasks := .failed }, {})

theorem shown_answering : scheduling.ShownBy [] answering where
  platform := by decide +kernel
  read source h := by
    rcases source with name | path | _
    · have listed := (key_mem_watched.1 h).2
      simp only [registryKeys, List.mem_cons, List.not_mem_nil, or_false] at listed
      rcases listed with rfl | rfl | rfl | rfl <;> exact .inl rfl
    · cases folder_mem_watched.1 h
    · exact .inl rfl

theorem shown_silenced : scheduling.ShownBy [] silenced where
  platform := shown_answering.platform
  read source h := by
    rcases source with name | path | _
    · exact shown_answering.read _ h
    · exact shown_answering.read _ h
    · exact .inr (.inl rfl)

theorem answering_ok : (PersistenceCapturer.take answering { folders := [] }).2 = none :=
  Option.isNone_iff_eq_none.1 (by decide +kernel)

theorem silenced_ok :
    (PersistenceCapturer.take silenced (PersistenceCapturer.take answering { folders := [] }).1).2 = none :=
  Option.isNone_iff_eq_none.1 (by decide +kernel)

/-- A task is told to be removed when the system could not be asked. -/
theorem not_forall_unread_silent : ¬ ∀ (s : Sources) (folders : List String) (c c₁ c₂ : PersistenceCapturer)
    (t t' : Machine × Files), c.folders = folders → PersistenceCapturer.take t c = (c₁, none) →
    PersistenceCapturer.take t' c₁ = (c₂, none) → s.ShownBy folders t → s.ShownBy folders t' →
    c₂.info.Tells ⟨[], [], []⟩ ∧ (Rule.persistenceChange (.int 1)).findings c₂.info = .ok [] := by
  intro silent
  obtain ⟨tells, -⟩ :=
    silent scheduling [] _ _ _ answering silenced rfl (Prod.ext rfl answering_ok) (Prod.ext rfl silenced_ok)
    shown_answering shown_silenced
  have none : _ = some (PersistenceCapturer.size ([] : List String)) := tells.removed
  revert none
  decide +kernel

theorem unread_exact_silenced : ∃ c₁ c₂, PersistenceCapturer.take answering { folders := [] } = (c₁, none) ∧
    PersistenceCapturer.take silenced c₁ = (c₂, none) ∧ ∃ d : AutorunsDiff, c₂.info.Tells d ∧ d.changed = [] ∧
      (∀ label ∈ d.added, scheduling.Unread [] answering label) ∧
      (∀ label ∈ d.removed, scheduling.Unread [] silenced label) := by
  obtain ⟨d, tells, changed, added, removed, -⟩ :=
    unread_exact rfl (Prod.ext rfl answering_ok) (Prod.ext rfl silenced_ok) shown_answering shown_silenced
  exact ⟨_, _, Prod.ext rfl answering_ok, Prod.ext rfl silenced_ok, d, tells, changed, added, removed⟩

end Sources

end HostWatch
