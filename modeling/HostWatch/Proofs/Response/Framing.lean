import HostWatch.Proofs.Comparison
import HostWatch.Proofs.Files.Finding
import HostWatch.Proofs.Json.Refusing
import HostWatch.Proofs.RecordFile.Lossless
import HostWatch.Response.Handling

/-!
# One line for each alert

Alerts are printed and appended to files one on a line. Whatever they hold, the lines are found again at the
line feeds, one for each alert in their order, and each is read as what the alert is written as
(`Alert.deliver_framed`). So no text in an alert breaks a line, forges one or joins two, and what is printed
and what is kept in a file say the same. An alert with an integer of too many digits, or with lists and objects
too deep in each other, is not written: it fails, and leaves no line and no part of one.
-/

namespace HostWatch
open Json (IsJson extent)

/-! ### What an alert is written as -/

namespace Json
variable {fields kept : List (String × Value)}

theorem IsJson.sublist (h : IsJson (.object fields)) (sub : kept.Sublist fields) : IsJson (.object kept) := by
  cases h with
  | object distinct all =>
    exact .object (List.Pairwise.sublist (sub.map Prod.fst) distinct) fun e he => all e (sub.subset he)

theorem isJson_moment (t : Option Timestamp) : IsJson ((t.map fun t => .text t.iso).getD .null) := by
  cases t
  · exact .null
  · exact .text _

end Json

/-- An alert that is known where it comes from, with JSON wherever any value may stand. -/
structure Alert.Encodable (a : Alert) : Prop where
  ruleId : IsJson a.ruleId
  title : IsJson a.title
  severity : IsJson a.severity
  source : IsJson a.source
  evidence : IsJson (.object a.evidence)
  metadata : ∃ m, a.metadata = some m ∧ IsJson m.interval ∧ IsJson m.maxFiles

theorem Metadata.isJson_toFields {m : Metadata} (interval : IsJson m.interval) (maxFiles : IsJson m.maxFiles) :
    IsJson (.object m.toFields) := by
  have distinct : OrderedMap.Distinct m.fields := by
    show List.Pairwise _ ["host", "agent_version", "agent_build", "session", "timezone", "captured_at", "os",
      "arch", "capturer", "interval_sec", "max_files"]
    decide
  have all : ∀ e ∈ m.fields, IsJson e.2 := by
    simp only [fields, List.forall_mem_cons]
    refine ⟨.text _, .text _, .text _, .text _, .text _, Json.isJson_moment _, .text _, .text _, .text _,
      interval, maxFiles, ?_⟩
    exact fun e he => absurd he List.not_mem_nil
  exact IsJson.sublist (.object distinct all) List.filter_sublist

namespace Alert
variable {a : Alert} {alerts : List Alert} {values : List Value} {v : Value} {limits : Json.Limits}
  {layout : Json.Layout}

theorem Encodable.toValue (h : a.Encodable) : ∃ v, a.toValue = .ok v ∧ IsJson v := by
  obtain ⟨m, known, interval, maxFiles⟩ := h.metadata
  have described := Metadata.isJson_toFields interval maxFiles
  let optional : List (String × Value) := [("evidence", .object a.evidence),
    ("correlated", .list (a.correlated.map .text)), ("dedup_key", .text a.dedupKey),
    ("rate_limited", .bool a.rateLimited)]
  have correlated : IsJson (.list (a.correlated.map .text)) := by
    refine .list fun v hv => ?_
    obtain ⟨id, -, rfl⟩ := List.mem_map.1 hv
    exact .text id
  have distinct : OrderedMap.Distinct (a.requiredFields m ++ optional) := by
    show List.Pairwise _ ["id", "rule_id", "title", "severity", "message", "source", "at", "meta", "evidence",
      "correlated", "dedup_key", "rate_limited"]
    decide
  have all : ∀ e ∈ a.requiredFields m ++ optional, IsJson e.2 := by
    simp only [requiredFields, optional, List.cons_append, List.nil_append, List.forall_mem_cons]
    refine ⟨.text _, h.ruleId, h.title, h.severity, .text _, h.source, Json.isJson_moment _, described, h.evidence,
      correlated, .text _, .bool _, ?_⟩
    exact fun e he => absurd he List.not_mem_nil
  refine ⟨.object (a.requiredFields m ++ a.optionalFields), by rw [Alert.toValue, known], ?_⟩
  exact IsJson.sublist (.object distinct all) (List.Sublist.append_left List.filter_sublist _)

/-- An alert with what it is written as, which JSON has a form for. -/
def Encodes (a : Alert) (v : Value) : Prop := a.toValue = .ok v ∧ IsJson v

/-- A reader takes what the alert is written as. -/
def Within (limits : Json.Limits) (a : Alert) : Prop := ∀ v, a.toValue = .ok v → extent v ≤ limits

theorem Encodes.within_iff (encodes : a.Encodes v) : a.Within limits ↔ extent v ≤ limits := by
  refine ⟨fun h => h v encodes.1, fun h u written => ?_⟩
  obtain rfl := Except.ok.inj (encodes.1.symm.trans written)
  exact h

theorem within_of_encodes (encodes : List.Forall₂ Encodes alerts values) :
    (∀ a ∈ alerts, a.Within limits) ↔ ∀ v ∈ values, extent v ≤ limits := by
  induction encodes with
  | nil => simp
  | cons first _ ih => rw [List.forall_mem_cons, List.forall_mem_cons, first.within_iff, ih]

/-! ### Alerts that can be written -/

/-- What keeps an alert from being written. -/
def obstacle? (a : Alert) : Option Json.Obstacle :=
  match a.toValue with
  | .ok v => Json.obstacle? .lenient ({} : Json.Limits).digits ({} : Json.Limits).depth v
  | .error _ => none

/-- The alerts that can be written. -/
def writable (alerts : List Alert) : List Alert := alerts.filter fun a => a.obstacle?.isNone

/-- The failures of a responder, one for each alert that cannot be written. -/
def refusals (responder : String) (alerts : List Alert) : List Fault :=
  (alerts.filterMap obstacle?).map fun obstacle => .responder responder (.unwritable obstacle)

theorem writable_of_none (free : a.obstacle? = none) : writable (a :: alerts) = a :: writable alerts :=
  List.filter_cons_of_pos (by simp [free])

theorem writable_of_some {obstacle : Json.Obstacle} (found : a.obstacle? = some obstacle) :
    writable (a :: alerts) = writable alerts := List.filter_cons_of_neg (by simp [found])

theorem refusals_cons (responder : String) (a : Alert) (alerts : List Alert) : refusals responder (a :: alerts) =
    ((a.obstacle?.map .unwritable).map (.responder responder)).toList ++ refusals responder alerts := by
  unfold refusals
  rcases found : a.obstacle? with _ | obstacle
  · rw [List.filterMap_cons_none found]
    rfl
  · rw [List.filterMap_cons_some found]
    rfl

theorem Encodable.obstacle?_eq_none_iff (h : a.Encodable) : a.obstacle? = none ↔ a.Within {} := by
  obtain ⟨v, written, json⟩ := h.toValue
  rw [obstacle?, written, Encodes.within_iff ⟨written, json⟩]
  exact json.obstacle?_eq_none_iff

theorem Encodable.exists_obstacle (h : a.Encodable) (beyond : ¬ a.Within {}) : ∃ obstacle,
    a.obstacle? = some obstacle ∧ (obstacle = .tooLong maxIntegerDigits ∨ obstacle = .tooDeep) := by
  obtain ⟨obstacle, found⟩ := Option.ne_none_iff_exists'.1 (mt h.obstacle?_eq_none_iff.1 beyond)
  obtain ⟨v, written, json⟩ := h.toValue
  refine ⟨obstacle, found, ?_⟩
  rw [obstacle?, written] at found
  exact json.obstacle?_eq_some found

/-- Both ways of writing stop at the same alerts. -/
theorem render_of_toValue (layout : Json.Layout) (lenient : layout.strict = false) (written : a.toValue = .ok v) :
    Json.render layout v = match a.obstacle? with
      | none => .ok (Json.textOf layout v)
      | some obstacle => .error obstacle := by
  have same : (if layout.strict = true then Json.Manner.strict else .lenient) = .lenient := by simp [lenient]
  simp only [Json.render, obstacle?, written, same]
  rcases Json.obstacle? .lenient ({} : Json.Limits).digits ({} : Json.Limits).depth v with _ | obstacle <;> rfl

/-- A responder that writes alerts as JSON, on the standard output or into a file. -/
inductive Writes : Responder → Prop where
  | log : Writes (.log true)
  | file (f : RecordFile) : Writes (.file f)

/-- An alert that cannot be written leaves nothing but that it was handed to the responder. -/
theorem Writes.handle_of_some {r : Responder} {obstacle : Json.Obstacle} (writes : Writes r)
    (written : a.toValue = .ok v) (found : a.obstacle? = some obstacle) (h : Host) :
    r.handle a h = (h.record (.handed r a), some (.unwritable obstacle)) := by
  cases writes with
  | log => simp only [Responder.handle, Responder.act, written, render_of_toValue .escaped rfl written, found]
  | file f =>
    have refused : RecordFile.line v = .error obstacle := by
      rw [RecordFile.line, render_of_toValue .plain rfl written, found]
    simp only [Responder.handle, Responder.act, written, RecordFile.write, refused]

/-- What one responder does with the first of the alerts. -/
theorem deliver_cons {r : Responder} {name : String} {h first after : Host} {failure : Option Fault}
    {failures : List Fault} (named : r.name = .ok name) (handled : r.handle a h = (first, failure))
    (rest : deliver [r] alerts first = (after, .ok failures)) :
    deliver [r] (a :: alerts) h = (after, .ok ((failure.map (.responder name)).toList ++ failures)) := by
  cases failure with
  | none => simp only [deliver, deliverOne, handled, rest, Except.map, Option.map_none, Option.toList_none]
  | some failure =>
    simp only [deliver, deliverOne, handled, named, rest, Except.map, Option.map_some, Option.toList_some]

/-- What those of the alerts are written as that can be written. -/
inductive WrittenAs : List Alert → List Value → Prop where
  | nil : WrittenAs [] []
  | written {a : Alert} {v : Value} {alerts : List Alert} {values : List Value} (encodes : a.Encodes v)
      (free : a.obstacle? = none) (others : WrittenAs alerts values) : WrittenAs (a :: alerts) (v :: values)
  | refused {a : Alert} {v : Value} {alerts : List Alert} {values : List Value} {obstacle : Json.Obstacle}
      (encodes : a.Encodes v) (found : a.obstacle? = some obstacle) (others : WrittenAs alerts values) :
      WrittenAs (a :: alerts) values

theorem exists_writtenAs (h : ∀ a ∈ alerts, a.Encodable) : ∃ values, WrittenAs alerts values := by
  induction alerts with
  | nil => exact ⟨[], .nil⟩
  | cons a alerts ih =>
    obtain ⟨first, others⟩ := List.forall_mem_cons.1 h
    obtain ⟨v, encodes⟩ := first.toValue
    obtain ⟨values, rest⟩ := ih others
    rcases found : a.obstacle? with _ | obstacle
    · exact ⟨v :: values, .written encodes found rest⟩
    · exact ⟨values, .refused encodes found rest⟩

theorem WrittenAs.encodes (h : WrittenAs alerts values) : List.Forall₂ Encodes (writable alerts) values := by
  induction h with
  | nil => exact .nil
  | written encodes free _ ih =>
    rw [writable_of_none free]
    exact .cons encodes ih
  | refused _ found _ ih =>
    rw [writable_of_some found]
    exact ih

/-! ### Lines and alerts -/

/-- A text of whole lines, one for each alert in their order, each of which is read as what the alert is
written as. -/
structure Framed (limits : Json.Limits) (alerts : List Alert) (text : String) : Prop where
  whole : Text.written (Text.linesOf text) = text
  records : List.Forall₂ (fun a line => ∃ v, a.toValue = .ok v ∧ Json.parse line limits = .ok v) alerts
    (Text.linesOf text)

/-- The text of values, one on a line. -/
def linesWith (layout : Json.Layout) (values : List Value) : String :=
  Text.written (values.map (Json.textOf layout))

theorem framed_linesWith (encodes : List.Forall₂ Encodes alerts values) (one : layout.indent = none)
    (within : ∀ v ∈ values, extent v ≤ limits) : Framed limits alerts (linesWith layout values) := by
  have lines : Text.linesOf (linesWith layout values) = values.map (Json.textOf layout) := by
    refine Text.linesOf_written fun s hs => ?_
    obtain ⟨v, -, rfl⟩ := List.mem_map.1 hs
    exact Json.unbroken_textOf one v
  refine ⟨by rw [lines, linesWith], ?_⟩
  rw [lines]
  clear lines
  induction encodes with
  | nil => exact .nil
  | @cons a v alerts values first _ ih =>
    obtain ⟨small, others⟩ := List.forall_mem_cons.1 within
    obtain ⟨written, json⟩ := first
    exact .cons ⟨v, written, Json.parse_textOf layout json small⟩ (ih others)

/-! ### What is printed -/

theorem printed_record (j : Journal) (e : Event) : Journal.printed (e :: j) =
    Journal.printed j ++ match e with | .printed s => [s] | _ => [] := by
  simp only [Journal.printed, Journal.events, List.reverse_cons, List.filterMap_append]
  cases e <;> rfl

theorem handle_log (written : a.toValue = .ok v) (free : a.obstacle? = none) (h : Host) :
    (Responder.log true).handle a h =
      ((h.record (.handed (.log true) a)).record (.printed (Json.textOf .escaped v ++ "\n")), none) := by
  simp only [Responder.handle, Responder.act, written, render_of_toValue .escaped rfl written, free]

theorem WrittenAs.deliver_log (writes : WrittenAs alerts values) (h : Host) : ∃ after,
    deliver [.log true] alerts h = (after, .ok (refusals "log" alerts)) ∧
      after.journal.printed = h.journal.printed ++ values.map fun v => Json.textOf .escaped v ++ "\n" := by
  induction writes generalizing h with
  | nil => exact ⟨h, rfl, by simp⟩
  | @written a v alerts values encodes free _ ih =>
    obtain ⟨after, delivered, printed⟩ := ih _
    refine ⟨after, ?_, ?_⟩
    · rw [refusals_cons, free]
      exact deliver_cons rfl (handle_log encodes.1 free h) delivered
    · rw [printed]
      simp [Host.record, printed_record]
  | @refused a v alerts values obstacle encodes found _ ih =>
    obtain ⟨after, delivered, printed⟩ := ih _
    refine ⟨after, ?_, ?_⟩
    · rw [refusals_cons, found]
      exact deliver_cons rfl (Writes.log.handle_of_some encodes.1 found h) delivered
    · rw [printed]
      simp [Host.record, printed_record]

end Alert

/-! ### What is kept in a file -/

namespace RecordFile
variable {f : RecordFile} {h opened : Host} {files : Files} {id : Nat} {text s : String} {record : Value}

/-- The file is open and holds a text. -/
structure Holds (f : RecordFile) (files : Files) (id : Nat) (text : String) : Prop where
  handle : f.handle? files = some id
  content : (files.body id).content = .text text

theorem Holds.append (holds : f.Holds files id text) (line : String) :
    f.Holds (files.append id line) id (text ++ line) where
  handle := holds.handle
  content := by rw [Files.append, Files.content_setContent, holds.content, Content.append]

theorem Holds.ensureOpen (holds : f.Holds h.files id text) : f.ensureOpen h = .ok h := by
  simp only [RecordFile.ensureOpen, holds.handle]

/-- A record that does not fill the file is appended to it. -/
theorem Holds.write (holds : f.Holds h.files id text) (written : line record = .ok s)
    (small : ¬ f.maxBytes ≤ .int (text ++ (s ++ "\n")).utf8ByteSize) :
    f.write record h = ({ h with files := h.files.append id (s ++ "\n") }, none) := by
  have size : ((h.files.append id (s ++ "\n")).body id).content.size = (text ++ (s ++ "\n")).utf8ByteSize := by
    rw [(holds.append _).content]
    rfl
  simp only [RecordFile.write, written, holds.ensureOpen, appendLine, holds.handle, size, if_neg small]

theorem ensureOpen_record (e : Event) (opens : f.ensureOpen h = .ok opened) :
    f.ensureOpen (h.record e) = .ok (opened.record e) := by
  unfold ensureOpen at opens ⊢
  split at opens
  · obtain rfl := Except.ok.inj opens
    simp [Host.record, *]
  · split at opens
    · cases opens
    · split at opens
      · cases opens
      · obtain rfl := Except.ok.inj opens
        simp [Host.record, *]

/-- A file that was not open is found where it was opened. -/
theorem locate_of_ensureOpen (closed : f.handle? h.files = none) (opens : f.ensureOpen h = .ok opened) :
    ∃ key id, f.handle? opened.files = some id ∧
      opened.files.locate .target f.location = .ok (.taken key (.file id)) := by
  obtain ⟨made, files, -, hfiles, rfl⟩ := ensureOpen_ok closed opens
  exact Files.locate_of_openSlot hfiles

end RecordFile

namespace Alert
variable {a : Alert} {alerts : List Alert} {values : List Value} {f : RecordFile} {h opened : Host} {id : Nat}
  {text : String} {v : Value}

theorem linesWith_cons (layout : Json.Layout) (v : Value) (values : List Value) :
    linesWith layout (v :: values) = Json.textOf layout v ++ "\n" ++ linesWith layout values :=
  Text.written_cons ..

theorem line_of_none (written : a.toValue = .ok v) (free : a.obstacle? = none) :
    RecordFile.line v = .ok (Json.textOf .plain v) := by
  rw [RecordFile.line, render_of_toValue .plain rfl written, free]

theorem WrittenAs.deliver_holds (writes : WrittenAs alerts values) (holds : f.Holds h.files id text)
    (small : ¬ f.maxBytes ≤ .int (text ++ linesWith .plain values).utf8ByteSize) :
    ∃ after, deliver [.file f] alerts h = (after, .ok (refusals "alert_file" alerts)) ∧
      f.Holds after.files id (text ++ linesWith .plain values) ∧
      after.files.entries = h.files.entries ∧ after.files.working = h.files.working := by
  induction writes generalizing h text with
  | nil =>
    have none : text ++ linesWith .plain [] = text := String.append_empty
    exact ⟨h, rfl, by rw [none]; exact holds, rfl, rfl⟩
  | @written a v alerts values encodes free _ ih =>
    have split : text ++ linesWith .plain (v :: values) =
        text ++ (Json.textOf .plain v ++ "\n") ++ linesWith .plain values := by
      rw [linesWith_cons, ← String.append_assoc]
    rw [split] at small ⊢
    -- a file that all lines do not fill is not filled by the first of them
    have fits : ¬ f.maxBytes ≤ .int (text ++ (Json.textOf .plain v ++ "\n")).utf8ByteSize := by
      intro full
      have more : (text ++ (Json.textOf .plain v ++ "\n") ++ linesWith .plain values).utf8ByteSize =
          (text ++ (Json.textOf .plain v ++ "\n")).utf8ByteSize + (linesWith .plain values).utf8ByteSize :=
        String.utf8ByteSize_append
      exact small (Number.le_int_mono full (by omega))
    let handed := h.record (.handed (.file f) a)
    have holds' : f.Holds handed.files id text := holds
    have added := holds'.write (line_of_none encodes.1 free) fits
    let first : Host := { handed with files := handed.files.append id (Json.textOf .plain v ++ "\n") }
    obtain ⟨after, delivered, held, entries, working⟩ := ih (h := first) (holds'.append _) small
    refine ⟨after, ?_, held, entries, working⟩
    rw [refusals_cons, free]
    refine deliver_cons rfl ?_ delivered
    simp only [Responder.handle, Responder.act, encodes.1]
    exact added
  | @refused a v alerts values obstacle encodes found _ ih =>
    have holds' : f.Holds (h.record (.handed (.file f) a)).files id text := holds
    obtain ⟨after, delivered, held, entries, working⟩ := ih holds' small
    refine ⟨after, ?_, held, entries, working⟩
    rw [refusals_cons, found]
    exact deliver_cons rfl ((Writes.file f).handle_of_some encodes.1 found h) delivered

/-- It is the first alert with a line that opens the file. -/
theorem WrittenAs.deliver_opens (writes : WrittenAs alerts values) (opens : f.ensureOpen h = .ok opened)
    (holds : f.Holds opened.files id text)
    (small : ¬ f.maxBytes ≤ .int (text ++ linesWith .plain values).utf8ByteSize) :
    ∃ after, deliver [.file f] alerts h = (after, .ok (refusals "alert_file" alerts)) ∧
      if values = [] then after.files = h.files
      else f.Holds after.files id (text ++ linesWith .plain values) ∧
        after.files.entries = opened.files.entries ∧ after.files.working = opened.files.working := by
  induction writes generalizing h opened with
  | nil => exact ⟨h, rfl, rfl⟩
  | @written a v alerts values encodes free others _ =>
    have opens' := RecordFile.ensureOpen_record (.handed (.file f) a) opens
    have holds' : f.Holds (opened.record (.handed (.file f) a)).files id text := holds
    have same : (Responder.file f).handle a h = (Responder.file f).handle a opened := by
      simp only [Responder.handle, Responder.act, encodes.1, RecordFile.write, line_of_none encodes.1 free, opens',
        holds'.ensureOpen]
    obtain ⟨after, delivered, held⟩ := (WrittenAs.written encodes free others).deliver_holds holds small
    refine ⟨after, ?_, by rw [if_neg (List.cons_ne_nil v values)]; exact held⟩
    rw [← delivered]
    simp only [deliver, deliverOne, same]
  | @refused a v alerts values obstacle encodes found _ ih =>
    have opens' := RecordFile.ensureOpen_record (.handed (.file f) a) opens
    have holds' : f.Holds (opened.record (.handed (.file f) a)).files id text := holds
    obtain ⟨after, delivered, held⟩ := ih opens' holds' small
    refine ⟨after, ?_, held⟩
    rw [refusals_cons, found]
    exact deliver_cons rfl ((Writes.file f).handle_of_some encodes.1 found h) delivered

/-! ### Both ways of writing -/

/-- What the alerts add to the standard output; those that cannot be written fail. -/
def Prints (alerts : List Alert) (text : String) : Prop :=
  ∀ h : Host, ∃ after texts, deliver [.log true] alerts h = (after, .ok (refusals "log" alerts)) ∧
    after.journal.printed = h.journal.printed ++ texts ∧ String.join texts = text

/-- What the alerts add to a file that does not grow to its largest size; those that cannot be written fail, and
by themselves they touch no file. -/
def Appends (alerts : List Alert) (text : String) : Prop :=
  ∀ (f : RecordFile) (h opened : Host) (id : Nat) (before : String),
    f.ensureOpen h = .ok opened → f.Holds opened.files id before →
    ¬ f.maxBytes ≤ .int (before ++ text).utf8ByteSize →
    ∃ after, deliver [.file f] alerts h = (after, .ok (refusals "alert_file" alerts)) ∧
      (writable alerts = [] → after.files = h.files) ∧
      (writable alerts ≠ [] → f.Holds after.files id (before ++ text)) ∧
      (writable alerts ≠ [] → f.handle? h.files = none →
        after.files.read f.location = .ok (.text (before ++ text)))

theorem WrittenAs.prints (writes : WrittenAs alerts values) : Prints alerts (linesWith .escaped values) := by
  intro h
  obtain ⟨after, delivered, printed⟩ := writes.deliver_log h
  refine ⟨after, _, delivered, printed, ?_⟩
  rw [linesWith, Text.written, List.map_map]
  rfl

theorem WrittenAs.appends (writes : WrittenAs alerts values) : Appends alerts (linesWith .plain values) := by
  intro f h opened id before opens holds small
  obtain ⟨after, delivered, kept⟩ := writes.deliver_opens opens holds small
  have none : writable alerts = [] ↔ values = [] := by
    rw [← List.length_eq_zero_iff, writes.encodes.length_eq, List.length_eq_zero_iff]
  rw [Ne, none]
  split at kept
  · rename_i empty
    exact ⟨after, delivered, fun _ => kept, fun filled => absurd empty filled, fun filled => absurd empty filled⟩
  · rename_i filled
    obtain ⟨held, entries, working⟩ := kept
    refine ⟨after, delivered, fun empty => absurd empty filled, fun _ => held, fun _ closed => ?_⟩
    obtain ⟨key, id', handle, place⟩ := RecordFile.locate_of_ensureOpen closed opens
    obtain rfl : id' = id := Option.some.inj (handle.symm.trans holds.handle)
    have found := (Files.locate_congr entries working .target f.location).trans place
    rw [Files.read_of_locate found, held.content]

/-- Alerts within the limits of the writer are printed and kept, one on a line; the others fail and leave no line
and no part of one. -/
structure FramingLaw (alerts : List Alert) (printed kept : String) : Prop where
  prints : Prints alerts printed
  appends : Appends alerts kept
  written_iff : ∀ a ∈ alerts, a ∈ writable alerts ↔ a.Within {}
  refused : ∀ a ∈ alerts, ¬ a.Within {} → ∃ obstacle, (obstacle = .tooLong maxIntegerDigits ∨ obstacle = .tooDeep) ∧
    ∀ r, Writes r → ∀ h : Host, r.handle a h = (h.record (.handed r a), some (.unwritable obstacle))
  framed : Framed {} (writable alerts) printed ∧ Framed {} (writable alerts) kept
  /-- The lines are read by every other reader within whose limits the alerts lie. -/
  others : ∀ limits, (∀ a ∈ writable alerts, a.Within limits) →
    Framed limits (writable alerts) printed ∧ Framed limits (writable alerts) kept

/-- Whatever alerts hold, the lines that are printed and those that are kept in a file are found again, one
for each alert that can be written, and read as what the alert is written as; and the others fail. -/
theorem deliver_framed (encodable : ∀ a ∈ alerts, a.Encodable) : ∃ printed kept,
    FramingLaw alerts printed kept := by
  have written_iff : ∀ a ∈ alerts, a ∈ writable alerts ↔ a.Within {} := by
    intro a ha
    rw [← (encodable a ha).obstacle?_eq_none_iff]
    simp [writable, ha]
  obtain ⟨values, writes⟩ := exists_writtenAs encodable
  have others (limits : Json.Limits) (within : ∀ a ∈ writable alerts, a.Within limits) :
      Framed limits (writable alerts) (linesWith .escaped values) ∧
        Framed limits (writable alerts) (linesWith .plain values) := by
    rw [within_of_encodes writes.encodes] at within
    exact ⟨framed_linesWith writes.encodes rfl within, framed_linesWith writes.encodes rfl within⟩
  refine ⟨_, _, writes.prints, writes.appends, written_iff, fun a ha beyond => ?_,
    others {} fun a ha => (written_iff a (List.mem_of_mem_filter ha)).1 ha, others⟩
  obtain ⟨obstacle, found, size⟩ := (encodable a ha).exists_obstacle beyond
  obtain ⟨v, written, -⟩ := (encodable a ha).toValue
  exact ⟨obstacle, size, fun _ writes h => writes.handle_of_some written found h⟩

/-- An alert with a count. -/
def counting (n : Nat) : Alert := { id := "3", ruleId := .text "file.events", evidence := [("count", .int n)] }

/-- Its count has more digits than are written. -/
def immense : Alert := counting (Nat.pow 10 maxIntegerDigits)

/-- It tries to pass for two alerts. -/
def forger : Alert where
  id := "1"
  ruleId := .text "net.spike"
  message := "\x7d\n\x7b\"id\": \"2\"\x7d\n"
  evidence := [("pa\nth\\", .text "\x00\x7f\u00e9\u2028𝄞"), ("bytes", .int (-1000000000000000000000000000000)),
    ("load", .double 0.5), ("all", .list [.null, .bool true, .object []])]

def harmless : Alert := { id := "2", ruleId := .text "cpu.high" }

theorem readsBack_zero : Json.ReadsBack 0 := ⟨⟨false, 0, -1074, by decide +kernel⟩, rfl⟩

theorem readsBack_half : Json.ReadsBack 0.5 := ⟨⟨false, 4503599627370496, -53, by decide +kernel⟩, rfl⟩

theorem isJson_unset : IsJson ({} : Metadata).interval ∧ IsJson ({} : Metadata).maxFiles :=
  ⟨.double readsBack_zero, .int 0⟩

theorem encodable_counting (n : Nat) : (counting n).Encodable := by
  refine ⟨.text _, .text _, .text _, .text _, .object (List.pairwise_singleton ..) ?_, {}, rfl, isJson_unset⟩
  exact fun e he => List.mem_singleton.1 he ▸ .int _

theorem not_within_counting {n : Nat} (long : limits.digits < (Nat.toDigits 10 n).length) :
    ¬ (counting n).Within limits := by
  intro within
  have evidence : ("evidence", .object (counting n).evidence) ∈
      (counting n).requiredFields {} ++ (counting n).optionalFields :=
    List.mem_append_right _ (List.mem_cons_self ..)
  have inside := Json.extent_le_of_mem (within _ rfl) evidence
  exact Json.not_extent_le_of_long long (Json.extent_le_of_mem inside (List.mem_singleton_self _))

theorem not_within_immense : ¬ immense.Within {} :=
  not_within_counting (Json.lt_length_toDigits_pow maxIntegerDigits (by decide))

theorem encodable_immense : immense.Encodable := encodable_counting _

theorem encodable_forger : forger.Encodable := by
  have evidence : IsJson (.object forger.evidence) := by
    refine .object (by decide) ?_
    simp only [forger, List.forall_mem_cons]
    refine ⟨.text _, .int _, .double readsBack_half, .list ?_, fun e he => absurd he List.not_mem_nil⟩
    simp only [List.forall_mem_cons]
    refine ⟨.null, .bool _, .object (by decide) ?_, ?_⟩ <;> exact fun e he => absurd he List.not_mem_nil
  exact ⟨.text _, .text _, .text _, .text _, evidence, {}, rfl, isJson_unset⟩

theorem encodable_harmless : harmless.Encodable :=
  ⟨.text _, .text _, .text _, .text _, .object (by decide) fun e he => absurd he List.not_mem_nil, {}, rfl,
    isJson_unset⟩

theorem deliver_framed_forging : (∀ a ∈ [forger, immense, harmless], a.Encodable) ∧
    writable [forger, immense, harmless] = [forger, harmless] ∧
    ∃ printed kept, FramingLaw [forger, immense, harmless] printed kept := by
  have encodable : ∀ a ∈ [forger, immense, harmless], a.Encodable := by
    simp only [List.forall_mem_cons]
    exact ⟨encodable_forger, encodable_immense, encodable_harmless, fun a ha => absurd ha List.not_mem_nil⟩
  refine ⟨encodable, ?_, deliver_framed encodable⟩
  have first : forger.obstacle? = none := by decide +kernel
  have last : harmless.obstacle? = none := by decide +kernel
  obtain ⟨obstacle, refused, -⟩ := encodable_immense.exists_obstacle not_within_immense
  rw [writable_of_none first, writable_of_some refused, writable_of_none last]
  rfl

/-- An alert that JSON has a form for may leave no line. -/
theorem not_forall_framed : ¬ ∀ alerts : List Alert, (∀ a ∈ alerts, a.Encodable) → ∀ h : Host,
    ∃ texts, (deliver [.log true] alerts h).1.journal.printed = h.journal.printed ++ texts ∧
      Framed {} alerts (String.join texts) := by
  intro framed
  have one : ∀ a ∈ [immense], a.Encodable := fun a ha => List.mem_singleton.1 ha ▸ encodable_immense
  obtain ⟨obstacle, refused, -⟩ := encodable_immense.exists_obstacle not_within_immense
  obtain ⟨v, encodes⟩ := encodable_immense.toValue
  have none : WrittenAs [immense] [] := .refused encodes refused .nil
  obtain ⟨texts, printed, -, records⟩ := framed [immense] one RecordFile.emptyHost
  obtain ⟨after, delivered, nothing⟩ := none.deliver_log RecordFile.emptyHost
  rw [delivered, nothing] at printed
  obtain rfl := List.append_cancel_left printed
  cases records

end Alert

end HostWatch
