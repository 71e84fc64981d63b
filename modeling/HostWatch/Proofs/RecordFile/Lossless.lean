import HostWatch.Proofs.RecordFile.Rotation

/-!
# Which lines are found again

From an empty directory on, the lines found in a record file and in those put aside are all that were
written, exactly as long as no two files are put aside within the same millisecond
(`RecordFile.writeAll_writeLaw`). Otherwise the later one takes the place of the earlier one, which is
lost. A record that cannot be written has no line, and writing it changes nothing.
-/

namespace HostWatch.RecordFile
open Files

variable {f : RecordFile} {site : Site f} {times : Int → Prop} {files : Files} {s : Shelf}
  {writings : List Writing}

/-! ### The first opening -/

theorem ensureOpen_ok {host opened : Host} (closed : f.handle? host.files = none)
    (opens : f.ensureOpen host = .ok opened) : ∃ made files,
      host.files.makeDirectories f.location.parent = .ok made ∧
      made.openSlot f.slot f.location = .ok files ∧ opened = { host with files } := by
  simp only [RecordFile.ensureOpen, closed] at opens
  split at opens
  · cases opens
  · rename_i made hmade
    split at opens
    · cases opens
    · rename_i files hfiles
      exact ⟨made, files, hmade, hfiles, (Except.ok.inj opens).symm⟩

theorem filesOf_of_onlyDirectories (only : files.OnlyDirectories) : filesOf files.entries = [] := by
  refine List.filterMap_eq_nil_iff.2 fun e he => ?_
  rw [only e he]

theorem contents_of_onlyDirectories (only : files.OnlyDirectories) : files.contents = [] := by
  rw [contents, filesOf_of_onlyDirectories only]
  rfl

theorem makeDirectories_ok {made : Files} {l : Location} (h : files.makeDirectories l = .ok made) :
    refusal? l = none ∧ files.makeBelow false (files.startOf l) l.names = .ok made := by
  unfold makeDirectories at h
  split at h
  · cases h
  · rename_i known
    exact ⟨known, h⟩

/-- What could be opened where there are directories only has a name that was free. -/
theorem openSlot_ok {opened : Files} {slot : Nat} {l : Location} (only : files.OnlyDirectories)
    (proper : l.Proper) (h : files.openSlot slot l = .ok opened) :
    refusal? l = none ∧ ∃ dirs here name, l.names = dirs ++ [name] ∧
      files.Leads (files.startOf l) dirs here ∧ Fits name ∧
      OrderedMap.get? files.entries (here ++ [name]) = none := by
  have dots : "." ∉ l.names := fun hdot => (proper.names _ hdot).2.1 rfl
  unfold openSlot locate at h
  rcases known : refusal? l with _ | p
  · simp only [known] at h
    refine ⟨rfl, ?_⟩
    unfold find at h
    rcases hr : files.advance .newFile (files.startOf l) l.names with p | r
    · simp [hr] at h
    rcases only.of_advance dots hr with ⟨there, rfl⟩ | ⟨dirs, there, name, names, leads, fits, free, -⟩
    · simp [hr] at h
    · exact ⟨dirs, there, name, names, leads, fits, free⟩
  · simp [known] at h

theorem exists_vacant {made opened : Files} (proper : f.location.Proper) (only : files.OnlyDirectories)
    (closed : f.handle? files = none) (hmade : files.makeDirectories f.location.parent = .ok made)
    (hopened : made.openSlot f.slot f.location = .ok opened) :
    ∃ site : Site f, Vacant site (fun _ => False) made [] := by
  obtain ⟨parentKnown, below⟩ := makeDirectories_ok hmade
  obtain ⟨only', handles⟩ := only.makeBelow below
  obtain ⟨known, dirs, here, name, names, leads, fits, free⟩ := openSlot_ok only' proper hopened
  have none := filesOf_of_onlyDirectories only'
  refine ⟨⟨dirs, here, name, names, proper, fits, known, parentKnown⟩, leads, ?_,
    contents_of_onlyDirectories only', free, ?_, fun _ h => h.elim⟩
  · exact ⟨by simp [none], by simp [none]⟩
  · rw [handle?, handles]
    exact closed

theorem Stands.allows_of_free (h : Stands site (fun _ => False) files s)
    (free : ∀ t, times t → ∃ key, files.locate .link (Location.parse (f.rotatedName t)) = .ok (.free key)) :
    Stands site times files s := by
  refine ⟨h.reaches, h.separate, h.contents, h.isOpen, fun t ht => ?_⟩
  obtain ⟨key, found⟩ := free t ht
  have dot : site.name ++ suffix t ≠ "." := by
    have proper := Location.proper_parse (f.rotatedName t)
    rw [parse_rotatedName site] at proper
    exact (proper.names _ (by simp)).2.1
  unfold locate at found
  split at found
  · cases found
  · rename_i known
    rw [parse_rotatedName site] at found
    obtain ⟨fits, -, none⟩ := Leads.of_find_free h.reaches dot found
    exact ⟨⟨fits, known⟩, open_of_none none⟩

theorem ensureOpen_upcoming {host opened : Host} {readings : List Number}
    (closed : f.handle? host.files = none) (opens : f.ensureOpen host = .ok opened) :
    f.ensureOpen { host with upcoming := readings } = .ok { opened with upcoming := readings } := by
  obtain ⟨made, files, hmade, hfiles, rfl⟩ := ensureOpen_ok closed opens
  simp only [RecordFile.ensureOpen, closed, hmade, hfiles]

/-- It is the first record with a line that opens the file; up to it nothing changes. -/
theorem writeAll_of_opens {start opened : Host} (writings : List Writing) (closed : f.handle? start.files = none)
    (opens : f.ensureOpen start = .ok opened) (stands : Stands site times opened.files s) :
    f.writeAll start writings = f.writeAll opened writings ∨ (∀ w ∈ writings, w.line? = none) ∧
      ∃ h, f.writeAll start writings = .ok h ∧ h.files = start.files := by
  induction writings generalizing start opened with
  | nil => exact .inr ⟨fun w hw => absurd hw List.not_mem_nil, start, rfl, rfl⟩
  | cons w writings ih =>
    have closed' : f.handle? (w.start start).files = none := closed
    have opens' : f.ensureOpen (w.start start) = .ok (w.start opened) := ensureOpen_upcoming closed opens
    have stands' : Stands site times (w.start opened).files s := stands
    unfold writeAll at ih ⊢
    rw [List.foldlM_cons, List.foldlM_cons]
    rcases written : w.line? with _ | line
    · rw [attempt_of_refused start written, attempt_of_refused opened written, List.forall_mem_cons]
      exact (ih closed' opens' stands').imp id fun ⟨refused, rest⟩ => ⟨⟨written, refused⟩, rest⟩
    · have again : f.ensureOpen (w.start opened) = .ok (w.start opened) := Stands.ensureOpen stands'
      left
      simp only [attempt, write, Writing.line_eq_ok_iff.2 written, opens', again]

/-! ### What is found -/

/-- The lines of what a file holds. -/
def linesIn (c : Content) : List String := (c.text?.map Text.linesOf).getD []

/-- The lines of all files there are. -/
def linesFound (files : Files) : List String := files.everything.flatMap fun e => linesIn e.2

theorem linesFound_eq (files : Files) : linesFound files = (files.contents.map Prod.snd).flatMap linesIn := by
  rw [← everything_map_snd, List.flatMap_map, linesFound]

theorem linesIn_written {lines : List String} (unbroken : ∀ line ∈ lines, Text.Unbroken line.toList) :
    linesIn (.text (Text.written lines)) = lines := Text.linesOf_written unbroken

theorem Stands.linesFound (h : Stands site times files s)
    (unbroken : ∀ line ∈ s.lines, Text.Unbroken line.toList) : linesFound files = s.lines := by
  have aside : (asideOnDisk site s.aside).flatMap (fun e => linesIn e.2) = s.aside.flatMap Prod.snd := by
    rw [asideOnDisk, List.flatMap_map]
    refine List.flatMap_congr fun e he => linesIn_written fun line hline => ?_
    exact unbroken line (List.mem_append_left _ (List.mem_flatMap.2 ⟨e, he, hline⟩))
  have live : linesIn (.text (Text.written s.live)) = s.live :=
    linesIn_written fun line hline => unbroken line (List.mem_append_right _ hline)
  rw [linesFound_eq, List.flatMap_map, h.contents, onDisk, List.flatMap_append, aside]
  simp [live, Shelf.lines]

theorem Stands.read (h : Stands site times files s) :
    files.read f.location = .ok (.text (Text.written s.live)) := by
  obtain ⟨id, -, hid⟩ := h.isOpen
  have place := locate_file h.reaches .target (advance_of_file site.fits hid)
  simp only [Files.read, file?, entry?, place, Except.map, h.content hid]

theorem Stands.read_aside (h : Stands site times files s) {t : Int} {lines : List String} (ht : times t)
    (hlines : OrderedMap.get? s.aside t = some lines) :
    files.read (Location.parse (f.rotatedName t)) = .ok (.text (Text.written lines)) := by
  obtain ⟨allows, isOpen⟩ := h.allows t ht
  have held : OrderedMap.get? files.contents (site.asideKey t) = some (.text (Text.written lines)) := by
    rw [h.contents, onDisk, OrderedMap.get?_append, get?_asideOnDisk, hlines]
    rfl
  obtain ⟨id, hid, hcontent⟩ := isOpen.exists_file held
  have place := locate_aside h.reaches allows .target (advance_of_file allows.fits hid)
  simp only [Files.read, file?, entry?, place, Except.map, hcontent]

/-! ### From an empty directory on -/

/-- What is there after some records were written, of which those without a line have left nothing. -/
structure WriteLaw (f : RecordFile) (writings : List Writing) (h : Host) : Prop where
  live : writings.filterMap Writing.line? ≠ [] → h.files.read f.location =
    .ok (.text (Text.written (Shelf.after f.maxBytes writings).live))
  aside : ∀ t lines, OrderedMap.get? (Shelf.after f.maxBytes writings).aside t = some lines →
    h.files.read (Location.parse (f.rotatedName t)) = .ok (.text (Text.written lines))
  found : linesFound h.files = (Shelf.after f.maxBytes writings).lines
  lossless_iff : (linesFound h.files).Perm (writings.filterMap Writing.line?) ↔
    (Shelf.after f.maxBytes writings).rotations.Nodup

theorem Stands.writeLaw {h : Host} (stands : Stands site times h.files (Shelf.after f.maxBytes writings))
    (ht : ∀ w ∈ writings, times w.time) : WriteLaw f writings h where
  live _ := stands.read
  aside t lines hlines := by
    have key : t ∈ OrderedMap.keys (Shelf.after f.maxBytes writings).aside :=
      List.mem_map.2 ⟨(t, lines), OrderedMap.mem_of_get? hlines, rfl⟩
    have rotated := ((Shelf.keeps_after f.maxBytes writings).times t).1 key
    obtain ⟨w, hw, rfl⟩ := Shelf.exists_writing_of_mem_rotations rotated
    exact stands.read_aside (ht w hw) hlines
  found := stands.linesFound (Shelf.unbroken_lines writings)
  lossless_iff := by
    rw [stands.linesFound (Shelf.unbroken_lines writings)]
    exact Shelf.lines_perm_iff writings

/-- Without any line the file is not even opened. -/
theorem writeLaw_of_refused {h : Host} (only : h.files.OnlyDirectories) (refused : ∀ w ∈ writings, w.line? = none) :
    WriteLaw f writings h := by
  have none : linesFound h.files = [] := by
    rw [linesFound_eq, contents_of_onlyDirectories only]
    rfl
  have empty : Shelf.after f.maxBytes writings = {} := Shelf.after_of_refused refused
  have nothing : writings.filterMap Writing.line? = [] := List.filterMap_eq_nil_iff.2 refused
  refine ⟨fun some => absurd nothing some, fun t lines h => ?_, by rw [none, empty]; rfl, ?_⟩
  · rw [empty] at h
    cases h
  · rw [none, nothing, empty]
    exact ⟨fun _ => .nil, fun _ => .nil⟩

/-- A record file in a tree of directories that can be opened, and put aside at all the times at which
records are written. -/
structure Ready (f : RecordFile) (start opened : Host) (writings : List Writing) : Prop where
  directories : start.files.OnlyDirectories
  closed : f.handle? start.files = none
  opens : f.ensureOpen start = .ok opened
  free : ∀ w ∈ writings, ∃ key,
    opened.files.locate .link (Location.parse (f.rotatedName w.time)) = .ok (.free key)

theorem Ready.writeAll {start opened : Host} (ready : Ready f start opened writings)
    (proper : f.location.Proper) : ∃ h, f.writeAll start writings = .ok h ∧ WriteLaw f writings h := by
  obtain ⟨made, files, hmade, hfiles, rfl⟩ := ensureOpen_ok ready.closed ready.opens
  obtain ⟨site, vacant⟩ := exists_vacant proper ready.directories ready.closed hmade hfiles
  obtain ⟨files', hfiles', stands⟩ := vacant.openSlot
  obtain rfl := Except.ok.inj (hfiles.symm.trans hfiles')
  let opened : Host := { start with files }
  have atFirst : Stands site (fun t => ∃ w ∈ writings, w.time = t) opened.files {} := by
    refine (stands []).allows_of_free ?_
    rintro t ⟨w, hw, rfl⟩
    exact ready.free w hw
  have allowed : ∀ w ∈ writings, ∃ v ∈ writings, v.time = w.time := fun w hw => ⟨w, hw, rfl⟩
  obtain ⟨h, ok, after⟩ := Stands.writeAll atFirst allowed
  rcases writeAll_of_opens writings ready.closed ready.opens atFirst with same |
    ⟨refused, h, ok, files⟩
  · exact ⟨h, same.trans ok, after.writeLaw allowed⟩
  · exact ⟨h, ok, writeLaw_of_refused (files ▸ ready.directories) refused⟩

theorem proper_of_ofPath {path maxBytes : Value} {slot : Nat} (made : ofPath path maxBytes slot = .ok f) :
    f.location.Proper := by
  simp only [ofPath, bind, Except.bind] at made
  split at made
  · cases made
  · rename_i p _
    split at made
    · cases made
    · obtain rfl := Except.ok.inj made
      exact Location.proper_parse p

/-- Whatever is written to a record file in an empty directory, the lines found in it and in the files
put aside are those of the shelf: all that were written, each once, exactly if no two files were put aside
within the same millisecond. -/
theorem writeAll_writeLaw {path maxBytes : Value} {slot : Nat} {start opened : Host}
    (made : ofPath path maxBytes slot = .ok f) (ready : Ready f start opened writings) :
    ∃ h, f.writeAll start writings = .ok h ∧ WriteLaw f writings h :=
  ready.writeAll (proper_of_ofPath made)

/-! ### Two files put aside within the same millisecond -/

/-- A record with a number, written at a time in whole seconds. -/
def numbered (i seconds : Int) : Writing where
  record := .object [("i", .number (.int i))]
  seconds := .int seconds
  time := seconds * 1000
  reads := rfl

/-- Two records at one time. -/
def sameTime : List Writing := [numbered 1 1700000000, numbered 2 1700000000]

/-- Every record that is written to it fills this file. -/
def narrow : RecordFile := { location := Location.parse "alerts.jsonl", maxBytes := 1, slot := 0 }

/-- A host with an empty directory. -/
def emptyHost : Host := { now := .ofMicros 0 }

/-- The host once the file is open. -/
def emptyHostOpened : Host := (narrow.ensureOpen emptyHost).toOption.getD emptyHost

theorem ready_sameTime : Ready narrow emptyHost emptyHostOpened sameTime where
  directories e he := by rw [show e = (["work"], .directory) from List.mem_singleton.1 he]
  closed := rfl
  opens := rfl
  free w hw := by
    have time : w.time = 1700000000000 := by
      simp only [sameTime, List.mem_cons, List.not_mem_nil, or_false] at hw
      rcases hw with rfl | rfl <;> rfl
    rw [time]
    exact ⟨["work", "alerts.jsonl.1700000000000"], by decide +kernel⟩

theorem rotations_sameTime :
    (Shelf.after narrow.maxBytes sameTime).rotations = [1700000000000, 1700000000000] := by
  decide +kernel

theorem lines_sameTime : (Shelf.after narrow.maxBytes sameTime).lines = ["\x7b\"i\": 2\x7d"] := by
  decide +kernel

/-- Of two files put aside within the same millisecond only the second is found. -/
theorem writeAll_writeLaw_sameTime :
    ofPath (.text "alerts.jsonl") (.number 1) 0 = .ok narrow ∧
    Ready narrow emptyHost emptyHostOpened sameTime ∧
    ∃ h, narrow.writeAll emptyHost sameTime = .ok h ∧ WriteLaw narrow sameTime h ∧
      linesFound h.files = ["\x7b\"i\": 2\x7d"] := by
  have made : ofPath (.text "alerts.jsonl") (.number 1) 0 = .ok narrow := rfl
  obtain ⟨h, ok, law⟩ := writeAll_writeLaw made ready_sameTime
  exact ⟨made, ready_sameTime, h, ok, law, law.found.trans lines_sameTime⟩

/-- A clock that never goes back is not enough for all lines to be found. -/
theorem not_forall_lossless : ¬ ∀ (f : RecordFile) (start opened : Host) (writings : List Writing),
    f.location.Proper → Ready f start opened writings →
    writings.Pairwise (fun v w => v.time ≤ w.time) →
    ∀ h, f.writeAll start writings = .ok h →
      (linesFound h.files).Perm (writings.filterMap Writing.line?) := by
  intro lossless
  have proper : narrow.location.Proper := Location.proper_parse "alerts.jsonl"
  obtain ⟨h, ok, law⟩ := ready_sameTime.writeAll proper
  have perm := lossless narrow emptyHost emptyHostOpened sameTime proper ready_sameTime (by decide) h ok
  have nodup := law.lossless_iff.1 perm
  rw [rotations_sameTime] at nodup
  exact absurd nodup (by decide)

end HostWatch.RecordFile
