import HostWatch.Proofs.Files.Contents
import HostWatch.Proofs.Files.Paths
import HostWatch.Proofs.Files.Tree
import HostWatch.Proofs.RecordFile.Shelf
import Std.Data.String.ToInt

/-!
# A record file and those put aside

What a record file and the files put aside hold is what a `Shelf` says. The invariant is
`RecordFile.Stands`: in the directory of the file, which the names of its path lead to, stand the files of
the shelf, and the one that is written to is open. One write keeps it up (`Stands.attempt`): a record that
cannot be written changes nothing, appending changes one content, and putting the file aside moves it and makes
a new one.
-/

namespace HostWatch

namespace RecordFile
open Files

/-- Where a record file stands: the names that lead to its directory, that directory, and its name. -/
structure Site (f : RecordFile) where
  dirs : List String
  here : List String
  name : String
  names : f.location.names = dirs ++ [name]
  proper : f.location.Proper
  fits : Fits name
  known : refusal? f.location = none
  parentKnown : refusal? f.location.parent = none

/-- What the name of a file put aside at a time has more than that of the file. -/
def suffix (time : Int) : String := "." ++ toString time

namespace Site
variable {f : RecordFile} (site : Site f)

/-- The file that is written to. -/
def key : List String := site.here ++ [site.name]

/-- The file put aside at a time. -/
def asideKey (time : Int) : List String := site.here ++ [site.name ++ suffix time]

end Site

/-- A file can be put aside at a time. -/
structure Allows {f : RecordFile} (site : Site f) (time : Int) : Prop where
  fits : Fits (site.name ++ suffix time)
  known : refusal? (Location.parse (f.rotatedName time)) = none

/-! ### Names -/

section Names
variable {f : RecordFile} {site : Site f} {time time' : Int}

theorem slash_not_mem_suffix (time : Int) : '/' ∉ (suffix time).toList := by
  rw [suffix, String.toList_append, Json.toList_toString_int]
  intro h
  have digits : '/' ∈ Nat.toDigits 10 time.natAbs := by
    split at h <;> simpa using h
  have : '/'.isDigit = true := Nat.isDigit_of_mem_toDigits (by decide) (by decide) digits
  exact absurd this (by decide)

theorem suffix_injective (h : suffix time = suffix time') : time = time' := by
  have chars := congrArg String.toList h
  rw [suffix, suffix, String.toList_append, String.toList_append, List.append_cancel_left_eq] at chars
  exact Int.repr_injective (String.toList_injective chars)

theorem asideKey_inj : site.asideKey time = site.asideKey time' ↔ time = time' := by
  refine ⟨fun h => ?_, fun h => h ▸ rfl⟩
  have same := List.append_cancel_left h
  have chars := congrArg String.toList (List.singleton_inj.1 same)
  rw [String.toList_append, String.toList_append, List.append_cancel_left_eq] at chars
  exact suffix_injective (String.toList_injective chars)

theorem ne_append_suffix (here : List String) (name : String) (time : Int) :
    here ++ [name] ≠ here ++ [name ++ suffix time] := by
  intro h
  have same := List.singleton_inj.1 (List.append_cancel_left h)
  have chars := congrArg (List.length ∘ String.toList) same
  simp [suffix] at chars

theorem key_ne_asideKey : site.key ≠ site.asideKey time := ne_append_suffix _ _ time

theorem rotatedName_eq (f : RecordFile) (time : Int) : f.rotatedName time = f.location.display ++ suffix time := by
  rw [rotatedName, suffix, String.append_assoc]

theorem parse_rotatedName_of_names {dirs : List String} {name : String} (proper : f.location.Proper)
    (names : f.location.names = dirs ++ [name]) (time : Int) : Location.parse (f.rotatedName time) =
      { f.location with names := dirs ++ [name ++ suffix time] } := by
  rw [rotatedName_eq]
  exact Location.parse_display_append proper names (slash_not_mem_suffix time)

theorem parse_rotatedName (site : Site f) (time : Int) : Location.parse (f.rotatedName time) =
    { f.location with names := site.dirs ++ [site.name ++ suffix time] } :=
  parse_rotatedName_of_names site.proper site.names time

end Names

/-! ### Looking up -/

section Lookup
variable {f : RecordFile} {site : Site f} {files : Files} {time : Int} {ending : Ending}

/-- The directory of a file is where its path leads to. -/
def Reaches (site : Site f) (files : Files) : Prop :=
  files.Leads (files.startOf f.location) site.dirs site.here

theorem Reaches.mono {files' : Files} (reaches : Reaches site files) (keeps : files.Keeps files')
    (working : files'.working = files.working) : Reaches site files' := by
  have start : files'.startOf f.location = files.startOf f.location := by rw [startOf, startOf, working]
  unfold Reaches at *
  rw [start]
  exact Leads.mono keeps reaches

theorem locate_file (reaches : Reaches site files) (ending : Ending) {place : Place}
    (last : files.advance ending site.here [site.name] = .ok (.place place)) :
    files.locate ending f.location = .ok place := by
  rw [locate, site.known]
  refine find_of_advance ?_
  rw [site.names, reaches.advance_append]
  exact last

theorem locate_aside (reaches : Reaches site files) (allows : Allows site time) (ending : Ending)
    {place : Place} (last : files.advance ending site.here [site.name ++ suffix time] = .ok (.place place)) :
    files.locate ending (Location.parse (f.rotatedName time)) = .ok place := by
  rw [locate, allows.known]
  refine find_of_advance ?_
  rw [parse_rotatedName site]
  show files.advance ending (files.startOf f.location) _ = _
  rw [reaches.advance_append]
  exact last

/-- The directories that lead to the file need not be made again. -/
theorem makeDirectories_of_reaches (reaches : Reaches site files) :
    files.makeDirectories f.location.parent = .ok files := by
  have names : f.location.parent.names = site.dirs := by simp [Location.parent, site.names]
  have dots : "." ∉ site.dirs := fun h => (site.proper.names "." (by simp [site.names, h])).2.1 rfl
  rw [makeDirectories, site.parentKnown, names]
  exact Leads.makeBelow reaches dots

end Lookup

/-! ### The invariant -/

/-- What is put aside, by the names of the files. -/
def asideOnDisk {f : RecordFile} (site : Site f) (aside : OrderedMap Int (List String)) :
    OrderedMap (List String) Content :=
  aside.map fun e => (site.asideKey e.1, .text (Text.written e.2))

/-- What is on the shelf, by the names of the files. -/
def onDisk {f : RecordFile} (site : Site f) (s : Shelf) : OrderedMap (List String) Content :=
  asideOnDisk site s.aside ++ [(site.key, .text (Text.written s.live))]

/-- The file is not there, nor open; only what was put aside is there. -/
structure Vacant {f : RecordFile} (site : Site f) (times : Int → Prop) (files : Files)
    (aside : OrderedMap Int (List String)) : Prop where
  reaches : Reaches site files
  separate : files.Separate
  contents : files.contents = asideOnDisk site aside
  free : OrderedMap.get? files.entries site.key = none
  closed : f.handle? files = none
  allows : ∀ t, times t → Allows site t ∧ files.Open (site.asideKey t)

/-- The file is open, and what is on the shelf is there. -/
structure Stands {f : RecordFile} (site : Site f) (times : Int → Prop) (files : Files) (s : Shelf) :
    Prop where
  reaches : Reaches site files
  separate : files.Separate
  contents : files.contents = onDisk site s
  isOpen : ∃ id, f.handle? files = some id ∧ OrderedMap.get? files.entries site.key = some (.file id)
  allows : ∀ t, times t → Allows site t ∧ files.Open (site.asideKey t)

section Shelf
variable {f : RecordFile} {site : Site f} {times : Int → Prop} {files : Files} {s : Shelf}
  {aside : OrderedMap Int (List String)} {t : Int} {id : Nat} {lines : List String}

theorem get?_asideOnDisk_key : OrderedMap.get? (asideOnDisk site aside) site.key = none := by
  refine OrderedMap.get?_eq_none_of_forall fun e he => ?_
  obtain ⟨e, -, rfl⟩ := List.mem_map.1 he
  rw [beq_eq_false_iff_ne]
  exact key_ne_asideKey.symm

theorem get?_asideOnDisk : OrderedMap.get? (asideOnDisk site aside) (site.asideKey t) =
    (OrderedMap.get? aside t).map fun lines => .text (Text.written lines) := by
  induction aside with
  | nil => rfl
  | cons e aside ih =>
    have same : (site.asideKey e.1 == site.asideKey t) = (e.1 == t) := by
      rw [Bool.eq_iff_iff, beq_iff_eq, beq_iff_eq, asideKey_inj]
    unfold asideOnDisk at ih ⊢
    rw [List.map_cons, OrderedMap.get?, OrderedMap.get?, ih, same]
    split <;> rfl

theorem asideOnDisk_set : asideOnDisk site (OrderedMap.set aside t lines) =
    OrderedMap.set (asideOnDisk site aside) (site.asideKey t) (.text (Text.written lines)) := by
  induction aside with
  | nil => rfl
  | cons e aside ih =>
    have same : (site.asideKey e.1 == site.asideKey t) = (e.1 == t) := by
      rw [Bool.eq_iff_iff, beq_iff_eq, beq_iff_eq, asideKey_inj]
    unfold asideOnDisk at ih ⊢
    by_cases h : e.1 == t
    · simp [OrderedMap.set, same, h]
    · simp [OrderedMap.set, same, h, ih]

theorem onDisk_filter : (onDisk site s).filter (fun e => e.1 != site.key) = asideOnDisk site s.aside := by
  have kept : (asideOnDisk site s.aside).filter (fun e => e.1 != site.key) = asideOnDisk site s.aside := by
    rw [List.filter_eq_self]
    intro e he
    obtain ⟨e, -, rfl⟩ := List.mem_map.1 he
    rw [bne_iff_ne]
    exact key_ne_asideKey.symm
  rw [onDisk, List.filter_append, kept]
  simp

theorem Stands.content (h : Stands site times files s)
    (hid : OrderedMap.get? files.entries site.key = some (.file id)) :
    (files.body id).content = .text (Text.written s.live) := by
  have found := get?_contents_of_file hid
  rw [h.contents, onDisk, OrderedMap.get?_append, get?_asideOnDisk_key, Option.none_or] at found
  have single : OrderedMap.get? [(site.key, Content.text (Text.written s.live))] site.key =
      some (.text (Text.written s.live)) := by simp [OrderedMap.get?]
  exact (Option.some.inj (single.symm.trans found)).symm

/-! ### Appending -/

theorem Stands.append (h : Stands site times files s)
    (hid : OrderedMap.get? files.entries site.key = some (.file id)) (line : String) :
    Stands site times (files.append id (line ++ "\n")) { s with live := s.live ++ [line] } where
  reaches := h.reaches.mono .refl rfl
  separate := h.separate.setContent
  contents := by
    rw [Files.append, contents_setContent h.separate hid, h.content hid, h.contents, onDisk, onDisk,
      OrderedMap.set_append_of_none get?_asideOnDisk_key, Text.written_concat]
    simp [OrderedMap.set, Content.append]
  isOpen := h.isOpen
  allows := h.allows

/-! ### Putting aside -/

theorem Stands.closeSlot_rename (h : Stands site times files s) (ht : times t)
    (hid : OrderedMap.get? files.entries site.key = some (.file id)) :
    (files.closeSlot f.slot).rename f.location (Location.parse (f.rotatedName t)) =
      .ok ((files.closeSlot f.slot).moved site.key (site.asideKey t) id) := by
  obtain ⟨allows, isOpen⟩ := h.allows t ht
  have reaches : Reaches site (files.closeSlot f.slot) := h.reaches.mono .refl rfl
  have source := locate_file reaches .link (advance_of_file site.fits hid)
  have other : ¬ site.here ++ [site.name] = site.here ++ [site.name ++ suffix t] := key_ne_asideKey
  rcases hk : OrderedMap.get? files.entries (site.asideKey t) with _ | e
  · have target := locate_aside reaches allows .link (advance_of_none allows.fits hk)
    simp only [Files.rename, source, target, if_neg other]
    rfl
  · obtain ⟨id', rfl⟩ := isOpen e hk
    have target := locate_aside reaches allows .link (advance_of_file allows.fits hk)
    simp only [Files.rename, source, target, if_neg other]
    rfl

theorem Stands.moved (h : Stands site times files s) (ht : times t)
    (hid : OrderedMap.get? files.entries site.key = some (.file id)) :
    Vacant site times ((files.closeSlot f.slot).moved site.key (site.asideKey t) id)
      (OrderedMap.set s.aside t s.live) := by
  obtain ⟨-, isOpen⟩ := h.allows t ht
  have entries (k : List String) : OrderedMap.get?
      ((files.closeSlot f.slot).moved site.key (site.asideKey t) id).entries k =
        if site.asideKey t == k then some (.file id)
        else if site.key == k then none else OrderedMap.get? files.entries k := get?_moved k
  have separate : (files.closeSlot f.slot).Separate := ⟨h.separate.ids, h.separate.fresh⟩
  have isOpen' : (files.closeSlot f.slot).Open (site.asideKey t) := isOpen
  refine ⟨h.reaches.mono (fun k directory => ?_) rfl,
    separate.moved hid isOpen' key_ne_asideKey, ?_, ?_, ?_, fun u hu => ⟨(h.allows u hu).1, ?_⟩⟩
  · have notAside : (site.asideKey t == k) = false := by
      rw [beq_eq_false_iff_ne]
      rintro rfl
      obtain ⟨id', hfile⟩ := isOpen _ directory
      cases hfile
    have notFile : (site.key == k) = false := by
      rw [beq_eq_false_iff_ne]
      rintro rfl
      rw [hid] at directory
      cases directory
    rw [entries, notAside, notFile]
    exact directory
  · rw [contents_moved isOpen' key_ne_asideKey]
    have before : (files.closeSlot f.slot).contents = onDisk site s := h.contents
    have moved : ((files.closeSlot f.slot).body id).content = .text (Text.written s.live) := h.content hid
    rw [before, onDisk_filter, moved, asideOnDisk_set]
  · have other : (site.asideKey t == site.key) = false := by simpa using key_ne_asideKey.symm
    rw [entries, other]
    simp
  · refine OrderedMap.get?_eq_none_of_forall fun e he => ?_
    have left := (List.mem_filter.1 he).2
    simpa using left
  · intro e he
    rw [entries] at he
    split at he
    · exact ⟨id, (Option.some.inj he).symm⟩
    · split at he
      · cases he
      · exact (h.allows u hu).2 e he

/-! ### Opening -/

theorem Vacant.openSlot (h : Vacant site times files aside) :
    ∃ opened, files.openSlot f.slot f.location = .ok opened ∧
      ∀ rotations, Stands site times opened { aside, live := [], rotations } := by
  have place := locate_file h.reaches .newFile (advance_of_none site.fits h.free)
  have isOpen : files.Open site.key := open_of_none h.free
  refine ⟨{ (files.create site.key (.text "")).2 with
    handles := OrderedMap.set files.handles f.slot files.changes }, ?_, fun rotations => ?_⟩
  · simp only [Files.openSlot, place]
    rfl
  refine ⟨h.reaches.mono (keeps_setEntry (by simp [h.free])) rfl, ?_, ?_, ⟨files.changes, ?_, ?_⟩,
    fun u hu => ⟨(h.allows u hu).1, ?_⟩⟩
  · have separate := h.separate.create (c := .text "") isOpen
    exact ⟨separate.ids, separate.fresh⟩
  · have created := contents_create (c := .text "") h.separate isOpen
    have notAside : OrderedMap.get? (asideOnDisk site aside) site.key = none := get?_asideOnDisk_key
    have last := OrderedMap.set_append_of_none notAside [] (Content.text "")
    rw [List.append_nil] at last
    rw [h.contents, last] at created
    exact created
  · exact (OrderedMap.get?_set ..).trans (by simp)
  · exact (OrderedMap.get?_set ..).trans (by simp)
  · intro e he
    have created := (OrderedMap.get?_set files.entries site.key (site.asideKey u) (.file files.changes)).symm.trans he
    split at created
    · exact ⟨_, (Option.some.inj created).symm⟩
    · exact (h.allows u hu).2 e created

theorem Vacant.ensureOpen {host : Host} (h : Vacant site times host.files aside) :
    ∃ opened, f.ensureOpen host = .ok { host with files := opened } ∧
      ∀ rotations, Stands site times opened { aside, live := [], rotations } := by
  obtain ⟨opened, ok, stands⟩ := h.openSlot
  refine ⟨opened, ?_, stands⟩
  simp only [RecordFile.ensureOpen, h.closed, makeDirectories_of_reaches h.reaches, ok]

theorem Stands.ensureOpen {host : Host} (h : Stands site times host.files s) :
    f.ensureOpen host = .ok host := by
  obtain ⟨id, handle, -⟩ := h.isOpen
  simp only [RecordFile.ensureOpen, handle]

/-! ### Writing -/

/-- Putting the file aside when the clock says so. -/
theorem Stands.rotate {host : Host} {w : Writing} (h : Stands site times host.files s) (ht : times w.time)
    (clock : host.upcoming = [w.seconds]) (rotations : List Int) :
    ∃ host', f.rotate host = (host', none) ∧
      Stands site times host'.files { aside := OrderedMap.set s.aside w.time s.live, live := [], rotations } := by
  obtain ⟨id, -, hid⟩ := h.isOpen
  have renamed := h.closeSlot_rename ht hid
  let noted : Host := Host.note
    { host with
      files := (host.files.closeSlot f.slot).moved site.key (site.asideKey w.time) id
      upcoming := [] }
    (.rotated f.location.display (f.rotatedName w.time))
  have vacant : Vacant site times noted.files (OrderedMap.set s.aside w.time s.live) := h.moved ht hid
  obtain ⟨opened, ok, stands⟩ := Vacant.ensureOpen vacant
  refine ⟨{ noted with files := opened }, ?_, stands rotations⟩
  simp only [RecordFile.rotate, Host.wallClock, clock, w.reads, renamed]
  rw [ok]

theorem Stands.write {host : Host} {w : Writing} {line : String} (h : Stands site times host.files s)
    (ht : times w.time) (written : w.line? = some line) : ∃ host', f.write w.record (w.start host) = (host', none) ∧
      Stands site times host'.files (s.add f.maxBytes line w.time) := by
  obtain ⟨id, handle, hid⟩ := h.isOpen
  have appended := h.append hid line
  have size : ((host.files.append id (line ++ "\n")).body id).content.size =
      (Text.written (s.live ++ [line])).utf8ByteSize := by
    rw [appended.content hid]
    rfl
  have isOpen : f.ensureOpen (w.start host) = .ok (w.start host) := Stands.ensureOpen h
  have files : (w.start host).files = host.files := rfl
  simp only [RecordFile.write, Writing.line_eq_ok_iff.2 written, isOpen, RecordFile.appendLine, files, handle, size,
    Shelf.add]
  split
  · let full : Host := { w.start host with files := host.files.append id (line ++ "\n") }
    have stands : Stands site times full.files { s with live := s.live ++ [line] } := appended
    exact Stands.rotate stands ht rfl _
  · exact ⟨_, rfl, appended⟩

/-- Writes a record when its clock says so. A record that cannot be written is passed over. -/
def attempt (f : RecordFile) (h : Host) (w : Writing) : Except Fault Host :=
  match f.write w.record (w.start h) with
  | (h, none) | (h, some (.unwritable _)) => .ok h
  | (_, some e) => .error e

/-- Writes records one after another, up to the first fault that is not of a record. -/
def writeAll (f : RecordFile) (h : Host) (writings : List Writing) : Except Fault Host :=
  writings.foldlM f.attempt h

theorem write_of_refused {w : Writing} {obstacle : Json.Obstacle} (h : Host)
    (refused : RecordFile.line w.record = .error obstacle) :
    f.write w.record h = (h, some (.unwritable obstacle)) := by
  rw [RecordFile.write, refused]

theorem attempt_of_refused {w : Writing} (h : Host) (refused : w.line? = none) : f.attempt h w = .ok (w.start h) := by
  obtain ⟨obstacle, refused⟩ := Writing.line?_eq_none_iff.1 refused
  rw [attempt, write_of_refused _ refused]

theorem Stands.attempt {host : Host} {w : Writing} (h : Stands site times host.files s) (ht : times w.time) :
    ∃ host', f.attempt host w = .ok host' ∧ Stands site times host'.files (s.put f.maxBytes w) := by
  rcases written : w.line? with _ | line
  · have same : s.put f.maxBytes w = s := by rw [Shelf.put, written]
    refine ⟨_, attempt_of_refused host written, ?_⟩
    rw [same]
    exact h
  · obtain ⟨host', ok, stands⟩ := h.write ht written
    have next : s.put f.maxBytes w = s.add f.maxBytes line w.time := by rw [Shelf.put, written]
    refine ⟨host', by rw [RecordFile.attempt, ok], ?_⟩
    rw [next]
    exact stands

theorem Stands.writeAll {host : Host} {writings : List Writing} (h : Stands site times host.files s)
    (ht : ∀ w ∈ writings, times w.time) : ∃ host', f.writeAll host writings = .ok host' ∧
      Stands site times host'.files (writings.foldl (Shelf.put f.maxBytes) s) := by
  induction writings generalizing host s with
  | nil => exact ⟨host, rfl, h⟩
  | cons w writings ih =>
    rw [List.forall_mem_cons] at ht
    obtain ⟨host₁, ok, stands⟩ := h.attempt ht.1
    obtain ⟨host₂, oks, stands₂⟩ := ih stands ht.2
    refine ⟨host₂, ?_, stands₂⟩
    unfold RecordFile.writeAll at oks ⊢
    rw [List.foldlM_cons, ok]
    exact oks

end Shelf

end RecordFile

end HostWatch
