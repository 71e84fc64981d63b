import HostWatch.Proofs.Files.Finding
import HostWatch.Proofs.Files.Paths
import HostWatch.Proofs.Json.Refusing
import HostWatch.Settings.Store

/-!
# Settings that are saved and loaded

Settings that were saved are loaded as they were, and what else comes to stand in the file changes nothing
(`Settings.load_save`), as long as the reader takes all that stands there. An integer of too many digits
costs all settings, also the ones that it is none of, and a list that is too deep the whole run
(`Settings.load_chosen_extended`).
-/

namespace HostWatch.Settings
open Json (IsJson extent nested)

variable {s base : Settings} {given : List (String × Value)} {p : Places} {path : Option String} {f saved : Files}
  {l : Location} {layout : Json.Layout} {home text : String} {v : Value} {fault : Fault}

/-! ### Names -/

/-- The entries of an object that are settings. -/
def known (given : List (String × Value)) : List (String × Value) := given.filter fun e => e.1 ∈ names

theorem get?_known {name : String} (h : name ∈ names) :
    OrderedMap.get? (known given) name = OrderedMap.get? given name := by
  induction given with
  | nil => rfl
  | cons e given ih =>
    unfold known at ih ⊢
    by_cases hk : e.1 == name
    · obtain rfl := eq_of_beq hk
      simp [h, OrderedMap.get?]
    · by_cases he : e.1 ∈ names <;> simp [he, hk, OrderedMap.get?, ih]

/-- Entries that are no settings change nothing. -/
theorem override_known (base : Settings) (given : List (String × Value)) :
    base.override (known given) = base.override given := by
  simp (disch := decide) only [override, Thresholds.override, Value.getOr, Value.part?, get?_known]

/-- An object that gives every setting leaves nothing of the others. -/
theorem override_fields (base s : Settings) : base.override s.fields = s := rfl

theorem distinct_fields (s : Settings) : OrderedMap.Distinct s.fields := by
  have same : OrderedMap.Distinct ({} : Settings).fields := by decide
  exact same

theorem known_fields (s : Settings) : known s.fields = s.fields := by
  rw [known, List.filter_eq_self]
  intro e he
  have member : e.1 ∈ s.fields.map Prod.fst := List.mem_map_of_mem he
  exact decide_eq_true member

/-! ### Places -/

theorem proper_named (home : String) (path : Option String) : ((Places.ofHome home).named path).Proper := by
  have usual : (Places.ofHome home).settings.Proper :=
    ((Location.proper_parse home).child ".hostsentry" (by decide)).child "config.json" (by decide)
  rcases path with _ | path
  · exact usual
  · unfold Places.named
    dsimp only
    split
    · exact usual
    · exact Location.proper_parse path

/-! ### Saving -/

/-- Settings that JSON has a form for are saved unless the files do not allow it. -/
theorem save_error (json : IsJson (.object s.fields)) (within : extent (.object s.fields) ≤ {})
    (h : s.save l f = .error fault) : ∃ problem place, fault = .file problem place := by
  have written : s.render = .ok (Json.textOf .indented (.object s.fields)) :=
    json.render_eq_ok_iff.2 ⟨within, rfl⟩
  unfold save at h
  rw [written] at h
  split at h
  · exact ⟨_, _, (Except.error.inj h).symm⟩
  · dsimp only at h
    split at h
    · exact ⟨_, _, (Except.error.inj h).symm⟩
    · cases h

theorem read_of_save (h : s.save l f = .ok saved) :
    saved.read l = .ok (.text (Json.textOf .indented (.object s.fields))) := by
  unfold save at h
  split at h
  · cases h
  split at h
  · cases h
  rename_i text written
  split at h
  · cases h
  · rename_i there
    obtain rfl := Except.ok.inj h
    rw [← Json.eq_textOf_of_render written]
    exact Files.read_of_write there

/-! ### Loading -/

theorem entry?_of_read {content : Content} (h : f.read l = .ok content) : ∃ found, f.entry? l = .ok found := by
  unfold Files.read Files.file? at h
  rcases found : f.entry? l with problem | entry
  · rw [found] at h
    cases h
  · exact ⟨entry, rfl⟩

theorem readJson_of_read (proper : l.Proper) (h : f.read l = .ok (.text text)) :
    f.readJson l.display = match Json.parse text with
      | .ok v => .ok v
      | .error .malformed => .error .json
      | .error .tooDeep => .error .nesting := by
  rw [Files.readJson, Location.parse_display proper]
  rcases parsed : Json.parse text with refusal | v
  · cases refusal <;> simp [h, Content.text?, parsed]
  · simp [h, Content.text?, parsed]

/-- What is loaded where there is a text. -/
theorem load_of_read (proper : (p.named path).Proper) (h : f.read (p.named path) = .ok (.text text)) :
    load p path f = match Json.parse text with
      | .ok v =>
        match (initial p).ofValue v with
        | .error complaint => .ok (initial p, f, [.settingsUnusable (p.named path).display complaint])
        | .ok s => .ok (s, f, [])
      | .error .malformed => .ok (initial p, f, [.settingsUnreadable (p.named path).display .json])
      | .error .tooDeep => .error .tooDeep := by
  obtain ⟨found, there⟩ := entry?_of_read h
  simp only [load, there, readAt, readJson_of_read proper h]
  rcases Json.parse text with refusal | v
  · cases refusal <;> rfl
  · dsimp only
    rcases (initial p).ofValue v with complaint | s <;> rfl

theorem load_of_object (proper : (p.named path).Proper) (json : IsJson (.object given))
    (within : extent (.object given) ≤ {})
    (h : f.read (p.named path) = .ok (.text (Json.textOf layout (.object given)))) :
    load p path f = .ok ((initial p).override given, f, []) := by
  rw [load_of_read proper h, Json.parse_textOf layout json within]
  rfl

/-- Settings that are saved at a path are loaded from it as they were, and so they are when other entries have
come to stand among them. Only the files can be in the way of saving them. -/
theorem load_save (home : String) (path : Option String) (f : Files) (json : IsJson (.object s.fields))
    (within : extent (.object s.fields) ≤ {}) :
    let p := Places.ofHome home
    (∀ fault, s.save (p.named path) f = .error fault → ∃ problem place, fault = .file problem place) ∧
    (∀ saved, s.save (p.named path) f = .ok saved → load p path saved = .ok (s, saved, [])) ∧
    ∀ layout given added, known given = s.fields → IsJson (.object given) → extent (.object given) ≤ {} →
      added.read (p.named path) = .ok (.text (Json.textOf layout (.object given))) →
      load p path added = .ok (s, added, []) := by
  intro p
  have proper : (p.named path).Proper := proper_named home path
  have loads {layout : Json.Layout} {given : List (String × Value)} {added : Files} (same : known given = s.fields)
      (json : IsJson (.object given)) (within : extent (.object given) ≤ {})
      (there : added.read (p.named path) = .ok (.text (Json.textOf layout (.object given)))) :
      load p path added = .ok (s, added, []) := by
    rw [load_of_object proper json within there, ← override_known, same, override_fields]
  refine ⟨fun fault => save_error json within, fun saved written => ?_, fun _ _ _ => loads⟩
  exact loads (known_fields s) json within (read_of_save written)

/-! ### Some settings -/

/-- Settings that differ from the defaults in a few places. -/
def chosen : Settings where
  verbose := .bool true
  fileWatchPaths := .list [.text "/srv/K\u00e4se \x22𝄞\x22\n"]
  intervals := .object [("CPU", .double 2)]
  thresholds := { cpuPercent := .int 75 }
  policyDeny := .list [.text "net.spike"]

/-- The chosen settings, with a value before them that is none. -/
def extended (v : Value) : List (String × Value) := ("x", v) :: chosen.fields

theorem isJson_chosen : ∀ e ∈ chosen.fields, IsJson e.2 := by
  have zero : Json.ReadsBack 0 := ⟨⟨false, 0, -1074, by decide +kernel⟩, rfl⟩
  have two : Json.ReadsBack 2 := ⟨⟨false, 4503599627370496, -51, by decide +kernel⟩, rfl⟩
  have three : Json.ReadsBack 3 := ⟨⟨false, 6755399441055744, -51, by decide +kernel⟩, rfl⟩
  have thirty : Json.ReadsBack 30 := ⟨⟨false, 8444249301319680, -48, by decide +kernel⟩, rfl⟩
  have sixty : Json.ReadsBack 60 := ⟨⟨false, 8444249301319680, -47, by decide +kernel⟩, rfl⟩
  have ninety : Json.ReadsBack 90 := ⟨⟨false, 6333186975989760, -46, by decide +kernel⟩, rfl⟩
  have empty : IsJson (.list []) := .list fun v hv => absurd hv List.not_mem_nil
  have single (s : String) : IsJson (.list [.text s]) := .list <| by simp [IsJson.text]
  have intervals : IsJson (.object [("CPU", .double 2)]) := .object (by decide) <| by simp [IsJson.double two]
  simp only [Settings.fields, Thresholds.fields, chosen, List.forall_mem_append, List.forall_mem_cons]
  simp [IsJson.bool, IsJson.int, IsJson.text, IsJson.double, *]

theorem isJson_extended (json : IsJson v) : IsJson (.object (extended v)) := by
  refine .object ?_ (List.forall_mem_cons.2 ⟨json, isJson_chosen⟩)
  have same : OrderedMap.Distinct (("x", Value.null) :: ({} : Settings).fields) := by decide
  exact same

theorem known_extended (v : Value) : known (extended v) = chosen.fields := known_fields chosen

/-- The files where the chosen settings have been saved. -/
def filed : Files := (({} : Files).create ["work", "c"] (.text (Json.textOf .indented (.object chosen.fields)))).2

theorem save_chosen : chosen.save (.parse "c") {} = .ok filed := rfl

/-- The same files where the extended settings have been written. -/
def refiled (v : Value) : Files := filed.setContent 0 (.text (Json.textOf .indented (.object (extended v))))

theorem read_refiled (v : Value) :
    (refiled v).read (.parse "c") = .ok (.text (Json.textOf .indented (.object (extended v)))) :=
  have written (content : Content) : filed.write (.parse "c") content = .ok (filed.setContent 0 content) := rfl
  Files.read_of_write (written _)

theorem load_save_chosen : IsJson (.object chosen.fields) ∧ extent (.object chosen.fields) ≤ {} ∧
    chosen.save (.parse "c") {} = .ok filed ∧
    load (.ofHome "/home/agent") (some "c") filed = .ok (chosen, filed, []) ∧
    load (.ofHome "/home/agent") (some "c") (refiled (.text "dark")) = .ok (chosen, refiled (.text "dark"), []) := by
  have json : IsJson (.object chosen.fields) := .object (distinct_fields _) isJson_chosen
  have within : extent (.object chosen.fields) ≤ {} := by decide +kernel
  have extendedWithin : extent (.object (extended (.text "dark"))) ≤ {} := by decide +kernel
  obtain ⟨-, saved, added⟩ := load_save "/home/agent" (some "c") {} json within
  refine ⟨json, within, save_chosen, saved filed save_chosen, ?_⟩
  exact added .indented _ _ (known_extended _) (isJson_extended (.text _)) extendedWithin (read_refiled _)

theorem load_refiled_long (home : String) {n : Nat} (long : ({} : Json.Limits).digits < (Nat.toDigits 10 n).length) :
    load (.ofHome home) (some "c") (refiled (.int n)) =
      .ok (initial (.ofHome home), refiled (.int n), [.settingsUnreadable "c" .json]) := by
  have refused : Json.parse (Json.textOf .indented (.object (extended (.int n)))) = .error .malformed :=
    Json.parse_object_of_refuses (Json.refuses_long long) (by decide) (.int n) (isJson_extended (.int n))
  rw [load_of_read (proper_named home (some "c")) (read_refiled _), refused]
  rfl

theorem load_refiled_deep (home : String) {n : Nat} (deep : ({} : Json.Limits).depth ≤ n) :
    load (.ofHome home) (some "c") (refiled (nested n)) = .error .tooDeep := by
  have json := Json.isJson_nested n
  have refused : Json.parse (Json.textOf .indented (.object (extended (nested n)))) = .error .tooDeep :=
    Json.parse_object_of_refuses (Json.refuses_nested (Nat.sub_le_of_le_add (by omega))) (by decide) json
      (isJson_extended json)
  rw [load_of_read (proper_named home (some "c")) (read_refiled _), refused]

/-- An entry that is no setting, but too long for the reader, costs all the settings that were chosen; one that
is too deep for it stops the run. -/
theorem load_chosen_extended :
    let p := Places.ofHome "/home/agent"
    let long := Value.int (Nat.pow 10 maxIntegerDigits)
    chosen.save (.parse "c") {} = .ok filed ∧
    (known (extended long) = chosen.fields ∧ IsJson (.object (extended long)) ∧
      load p (some "c") (refiled long) = .ok (initial p, refiled long, [.settingsUnreadable "c" .json]) ∧
      (initial p).verbose ≠ chosen.verbose) ∧
    (known (extended (nested 100000)) = chosen.fields ∧ IsJson (.object (extended (nested 100000))) ∧
      load p (some "c") (refiled (nested 100000)) = .error .tooDeep) := by
  intro p long
  have lost : load p (some "c") (refiled long) = .ok (initial p, refiled long, [.settingsUnreadable "c" .json]) :=
    load_refiled_long _ (Json.lt_length_toDigits_pow maxIntegerDigits (by decide))
  have other : (initial p).verbose ≠ chosen.verbose := by
    intro same
    cases same
  exact ⟨save_chosen, ⟨known_extended _, isJson_extended (.int _), lost, other⟩,
    known_extended _, isJson_extended (Json.isJson_nested _), load_refiled_deep _ (by decide)⟩

end HostWatch.Settings
