import HostWatch.Proofs.Files.Frame
import HostWatch.Proofs.Json.Refusing
import HostWatch.Proofs.Numeric.Order
import HostWatch.Proofs.RecordFile.Lossless

/-!
# Where a line goes

Whatever there is when a record is written, its line is added whole to the file that the path leads to, and
nothing else changes; and if the file is full then, what has the name of the path gets the name with the time
and an empty file takes its place (`performAll_filingLaw`). A record that cannot be written as JSON touches no
file. There may be links on the way to the file. Where
the path is a link itself it is the link that is moved, and it still leads to the lines unless it led there by
the name that it gets.
-/

namespace HostWatch

namespace RecordFile
open Files

/-- What is asked of a record file. -/
inductive Request where
  | write (w : Writing)
  | close

/-- The path leads to a file, which has that name. -/
def LiveAt (f : RecordFile) (files : Files) (key : List String) (id : Nat) : Prop :=
  files.locate .target f.location = .ok (.taken key (.file id))

/-- What the file of a name holds; nothing if there is none. -/
def held (files : Files) (key : List String) : Content :=
  match OrderedMap.get? files.entries key with
  | some (.file id) => (files.body id).content
  | _ => .text ""

variable {f : RecordFile} {h h' opened : Host} {files made moved full after before : Files} {w : Writing}
  {key live aside dirs there : List String} {name s : String} {id new c m slot : Nat} {e : Entry} {time : Int}
  {whole : Content}

/-- The path leads to a file that holds `whole`, which was there or is new; nothing else is other than before. -/
structure Appended (f : RecordFile) (before after : Files) (key : List String) (id : Nat) (whole : Content) :
    Prop where
  was : OrderedMap.get? before.entries key = none ∨ OrderedMap.get? before.entries key = some (.file id)
  live : f.LiveAt after key id
  holds : (after.body id).content = whole
  untouched : Untouched (· = key) id before after

/-- If the file is open it is the one that the path leads to. -/
structure Sound (f : RecordFile) (files : Files) : Prop where
  numbered : files.Numbered
  isOpen : ∀ id, f.handle? files = some id → ∃ key, f.LiveAt files key id

/-! ### The live file -/

theorem LiveAt.unique {key' : List String} {id' : Nat} (live : f.LiveAt files key id)
    (live' : f.LiveAt files key' id') : key' = key ∧ id' = id := by
  obtain ⟨rfl, same⟩ := Place.taken.inj (Except.ok.inj (live'.symm.trans live))
  exact ⟨rfl, Entry.file.inj same⟩

theorem LiveAt.entry (live : f.LiveAt files key id) : OrderedMap.get? files.entries key = some (.file id) :=
  actual_of_locate live

theorem LiveAt.held (live : f.LiveAt files key id) : held files key = (files.body id).content := by
  rw [RecordFile.held, live.entry]

theorem liveAt_congr (before after : Files) (entries : after.entries = before.entries)
    (working : after.working = before.working) : f.LiveAt after key id ↔ f.LiveAt before key id := by
  rw [LiveAt, LiveAt, locate_congr entries working]

theorem LiveAt.mono (live : f.LiveAt before key id) (grows : before.Grows after)
    (working : after.working = before.working) : f.LiveAt after key id := by
  obtain ⟨known, c, le, finds⟩ := locate_eq_ok_iff.1 live
  have start : after.startOf f.location = before.startOf f.location := by rw [startOf, startOf, working]
  exact locate_eq_ok_iff.2 ⟨known, c, le, start ▸ finds.mono grows⟩

/-! ### Opening -/

/-- The names of the path, and the directory in which the last one is looked up. -/
structure Way (f : RecordFile) (files : Files) (key : List String) (id : Nat) (dirs : List String) (name : String)
    (there : List String) (c m : Nat) : Prop where
  names : f.location.names = dirs ++ [name]
  known : refusal? f.location = none
  atMost : c + m ≤ maxLinks
  lead : files.Finds .target c (files.startOf f.location) dirs (.taken there .directory)
  last : files.Finds .target m there [name] (.taken key (.file id))

theorem LiveAt.way (live : f.LiveAt files key id) :
    ∃ dirs name there c m, Way f files key id dirs name there c m := by
  obtain ⟨known, total, le, finds⟩ := locate_eq_ok_iff.1 live
  rcases List.eq_nil_or_concat f.location.names with none | ⟨dirs, name, names⟩
  · rw [none] at finds
    cases (finds_nil.1 finds).2
  · rw [List.concat_eq_append] at names
    rw [names] at finds
    obtain ⟨c, m, there, rfl, lead, last⟩ := finds.split
    exact ⟨dirs, name, there, c, m, names, known, le, lead, last⟩

theorem Way.location (way : Way f files key id dirs name there c m) :
    f.location = { f.location with names := dirs ++ [name] } := by rw [← way.names]

/-- What is known of the tree in which the file, or a link to it, has got another name. -/
structure Renamed (f : RecordFile) (full moved : Files) (dirs there : List String) (name name' : String)
    (e : Entry) : Prop where
  other : there ++ [name] ≠ there ++ [name']
  entry : OrderedMap.get? full.entries (there ++ [name]) = some e
  noDirectory : e ≠ .directory
  fits' : Fits name'
  before' : OrderedMap.get? full.entries (there ++ [name']) ≠ some .directory
  known' : refusal? { f.location with names := dirs ++ [name'] } = none
  tree : moved = { full with entries := full.renamed (there ++ [name]) (there ++ [name']) e }

theorem Way.renamed (way : Way f full key id dirs name there c m) (proper : f.location.Proper)
    (ok : full.rename f.location (Location.parse (f.rotatedName time)) = .ok moved) :
    ∃ e, Renamed f full moved dirs there name (name ++ suffix time) e := by
  obtain ⟨source, e, p, hsource, noDirectory, htarget, noDirectory', tree⟩ := rename_ok ok
  rw [way.location, locate_concat_iff way.lead] at hsource
  rw [parse_rotatedName_of_names proper way.names, locate_concat_iff way.lead] at htarget
  obtain ⟨-, _, -, finds⟩ := hsource
  obtain ⟨known', _, -, finds'⟩ := htarget
  obtain ⟨-, rfl, entry⟩ := finds.of_link (by simpa using noDirectory)
  obtain ⟨fits', place, entry'⟩ := finds'.of_link noDirectory'
  rw [place] at tree
  refine ⟨e, ne_append_suffix there name time, entry, noDirectory, fits', ?_, known', tree⟩
  rw [entry']
  intro directory
  cases p with
  | free k => cases directory
  | taken k e' =>
    obtain rfl := Option.some.inj directory
    exact noDirectory' k rfl

namespace Renamed
variable {name' : String}

theorem get?_entries (r : Renamed f full moved dirs there name name' e) (k : List String) :
    OrderedMap.get? moved.entries k = if there ++ [name'] == k then some e
      else if there ++ [name] == k then none else OrderedMap.get? full.entries k := by
  rw [r.tree]
  exact get?_renamed r.other k

theorem untouched (r : Renamed f full moved dirs there name name' e) :
    Untouched (fun k => k = there ++ [name] ∨ k = there ++ [name']) new full moved where
  entries k untouched e' _ := by
    rw [not_or] at untouched
    rw [r.get?_entries, if_neg (by simpa using Ne.symm untouched.2),
      if_neg (by simpa using Ne.symm untouched.1)]
  directories k directory := by
    rw [r.get?_entries, if_neg, if_neg]
    · exact directory
    · rintro same
      rw [← eq_of_beq same, r.entry] at directory
      exact r.noDirectory (Option.some.inj directory)
    · rintro same
      rw [← eq_of_beq same] at directory
      exact r.before' directory
  bodies i _ _ := by rw [r.tree]
  changes := Nat.le_of_eq (by rw [r.tree])

theorem numbered (r : Renamed f full moved dirs there name name' e) (numbered : full.Numbered) :
    moved.Numbered := by
  intro k i entry
  have changes : moved.changes = full.changes := by rw [r.tree]
  rw [r.get?_entries] at entry
  rw [changes]
  split at entry
  · obtain rfl := Option.some.inj entry
    exact numbered _ i r.entry
  split at entry
  · cases entry
  · exact numbered k i entry

end Renamed

theorem handle?_closeSlot : f.handle? (files.closeSlot f.slot) = none := by
  refine (OrderedMap.get?_filter_ne (m := files.handles)).trans ?_
  simp

theorem lt_of_not_le (positive : 0 < f.maxBytes) {size : Int} (h : ¬ f.maxBytes ≤ .int size) :
    .int size < f.maxBytes := by
  by_contra least
  rcases Number.not_lt_iff.1 least with le | unordered
  · exact h le
  rcases Number.order_eq_none_iff.1 unordered with none | none
  · cases none
  · have ordered := Number.lt_iff.1 positive
    rw [Number.order_eq_none_iff.2 (.inr none)] at ordered
    cases ordered

theorem Appended.append (h : Appended f before after key id whole) :
    Appended f before (after.append id s) key id (whole.append s) where
  was := h.was
  live := (liveAt_congr after (after.append id s) rfl rfl).2 h.live
  holds := by rw [Files.append, content_setContent, h.holds]
  untouched := h.untouched.trans (.of_entries rfl (Nat.le_succ _) fun i _ other =>
    (OrderedMap.get?_set ..).trans (if_neg (by simpa using Ne.symm other)))

theorem Appended.closeSlot (h : Appended f before after key id whole) :
    Appended f before (after.closeSlot f.slot) key id whole :=
  ⟨h.was, (liveAt_congr after (after.closeSlot f.slot) rfl rfl).2 h.live, h.holds,
    h.untouched.trans (.closeSlot after f.slot)⟩

theorem Sound.close (sound : Sound f h.files) : Sound f (f.close h).files where
  numbered := sound.numbered
  isOpen id handle := by
    rw [show f.handle? (f.close h).files = none from handle?_closeSlot] at handle
    cases handle

/-- A host with a file that holds a line, and a path that is a link to it. -/
def linked (target : String) : Host :=
  { emptyHost with files := { emptyHost.files with
      entries := [(["work"], .directory), (["work", target], .file 0), (["work", "alerts.jsonl"], .link target)]
      bodies := [(0, ⟨.text "old\n", emptyHost.files.since⟩)]
      changes := 1 } }

def tooLong : Writing := numbered (Nat.pow 10 maxIntegerDigits) 1700000001

end RecordFile

end HostWatch
