import HostWatch.Indicator.Rule
import HostWatch.Proofs.Json.Reading
import HostWatch.Proofs.Text.Cut
import Std.Data.String.ToInt

/-!
# Findings are told apart by their keys

An alert of the indicator rule is counted under a text that joins what it is about with bars, and
indicators, paths and addresses may hold bars themselves. Still two such texts are the same only if all
parts are (`Subject.key_injective`). A bar has no case and is no blank, so what follows it is lowered as
if it stood alone: of two ways to cut a text, the longer indicator would occur in both paths, and so
would the shorter one, but only one of them comes first in the list; and an address is at least as long
as what follows a bar in it. The alerts of the rule are `Indicators.dedupKey_eq_iff`.
-/

namespace HostWatch

/-! ### Lower case and blanks around a bar -/

namespace Text

theorem occurs_iff {part whole : String} : occurs part whole = true ↔ part.toList <:+: whole.toList :=
  occursAmong_iff

/-- What follows a bar is lowered as if it stood alone. -/
theorem lowerAfter_append_bar (inWord : Bool) (cs ds : List Char) :
    lowerAfter false ds <:+ lowerAfter inWord (cs ++ '|' :: ds) := by
  induction cs generalizing inWord with
  | nil =>
    have caseless : isCased '|' = false := by decide +kernel
    have seen : isCaseIgnorable '|' = false := by decide +kernel
    have here : lowerChar '|' = ['|'] := by decide
    simp [lowerAfter, caseless, seen, here]
  | cons c cs ih =>
    rw [List.cons_append, lowerAfter]
    exact List.suffix_append_of_suffix (ih _)

theorem lower_suffix {s t : String} {l : List Char} (h : t.toList = l ++ '|' :: s.toList) :
    (lower s).toList <:+ (lower t).toList := by
  simp only [lower, String.toList_ofList, h]
  exact lowerAfter_append_bar _ _ _

/-- Leaving out characters never makes the lower case longer. A sigma becomes another letter at the end of a
word, but one letter all the same. -/
theorem length_lowerAfter_le {cs ds : List Char} (h : cs.Sublist ds) (inWord inWord' : Bool) :
    (lowerAfter inWord cs).length ≤ (lowerAfter inWord' ds).length := by
  induction h generalizing inWord inWord' with
  | slnil => exact Nat.le_refl _
  | cons d _ ih =>
    rw [lowerAfter, List.length_append]
    exact Nat.le_trans (ih _ _) (Nat.le_add_left _ _)
  | cons_cons d _ ih =>
    have width (b : Bool) (rest : List Char) :
        (if d = 'Σ' then (if b && !startsCased rest then ['ς'] else ['σ']) else lowerChar d).length =
          if d = 'Σ' then 1 else (lowerChar d).length := by
      split
      · split <;> rfl
      · rfl
    simp only [lowerAfter, List.length_append, width]
    exact Nat.add_le_add_left (ih _ _) _

theorem length_lower_le {s t : String} (h : s.toList.Sublist t.toList) :
    (lower s).toList.length ≤ (lower t).toList.length := by
  simp only [lower, String.toList_ofList]
  exact length_lowerAfter_le h _ _

section Trim
variable {p : Char → Bool} {x : Char}

theorem dropWhile_append_cons (hx : p x = false) (l r : List Char) :
    (l ++ x :: r).dropWhile p = l.dropWhile p ++ x :: r := by
  rw [List.dropWhile_append]
  split
  · rename_i hnil
    rw [List.isEmpty_iff.1 hnil, List.dropWhile_cons_of_neg (by simp [hx]), List.nil_append]
  · rfl

theorem dropWhile_sublist_append (l r : List Char) : (l.dropWhile p).Sublist ((l ++ r).dropWhile p) := by
  rw [List.dropWhile_append]
  split
  · rename_i hnil
    simp [List.isEmpty_iff.1 hnil]
  · exact List.sublist_append_left _ _

/-- What is left of the end of a text is also left of the whole text, past a letter that stays. -/
theorem trimBoth_sublist_append (hx : p x = false) (l r : List Char) :
    (trimBoth p r).Sublist (trimBoth p (l ++ x :: r)) := by
  have whole : trimBoth p (l ++ x :: r) = l.dropWhile p ++ x :: (r.reverse.dropWhile p).reverse := by
    simp only [trimBoth, dropWhile_append_cons hx, List.reverse_append, List.reverse_cons,
      List.append_assoc, List.singleton_append, List.reverse_reverse]
  have cut : ((r.dropWhile p).reverse.dropWhile p).Sublist (r.reverse.dropWhile p) := by
    have parts : r.reverse = (r.dropWhile p).reverse ++ (r.takeWhile p).reverse := by
      rw [← List.reverse_append, List.takeWhile_append_dropWhile]
    rw [parts]
    exact dropWhile_sublist_append _ _
  rw [whole]
  exact (cut.reverse.cons x).trans (List.sublist_append_right _ _)

end Trim

theorem trim_sublist {s t : String} {l : List Char} (h : t.toList = l ++ '|' :: s.toList) :
    (trim s).toList.Sublist (trim t).toList := by
  simp only [trim, String.toList_ofList, h]
  exact trimBoth_sublist_append (by decide) l s.toList

end Text

/-- If what each of two searches of a list finds would do for the other one, they find the same. -/
theorem find?_unique {α : Type} {p q : α → Bool} {l : List α} {x y : α} (hx : l.find? p = some x)
    (hy : l.find? q = some y) (hqx : q x = true) (hpy : p y = true) : x = y := by
  induction l with
  | nil => cases hx
  | cons a l ih =>
    cases hp : p a <;> cases hq : q a <;> simp only [List.find?_cons, hp, hq] at hx hy
    · exact ih hx hy
    · cases hy
      rw [hp] at hpy
      cases hpy
    · cases hx
      rw [hq] at hqx
      cases hqx
    · exact (Option.some.inj hx).symm.trans (Option.some.inj hy)

/-! ### What an alert is about -/

namespace Indicators

/-- What an alert of the rule is about: a process, a file or a connection, with the indicator. -/
inductive Subject
  | process (indicator : String) (pid : Int)
  | file (indicator path : String)
  | connection (indicator address : String) (pid : Int)
  deriving DecidableEq, Repr

namespace Subject

/-- What an alert on the subject is counted under. -/
def key : Subject → String
  | .process indicator pid => "ioc|process|" ++ indicator ++ "|" ++ toString pid
  | .file indicator path => "ioc|file|" ++ indicator ++ "|" ++ path
  | .connection indicator address pid =>
    "ioc|conn|" ++ indicator ++ "|" ++ address ++ "|" ++ toString pid

/-- A file or a connection is the subject only with the indicator that is found for it. -/
def Found (i : Indicators) : Subject → Prop
  | .process .. => True
  | .file indicator path => i.matchFile? path = some indicator
  | .connection indicator address _ => i.matchAddress? address = some indicator

end Subject

section Cuts
variable {i : Indicators} {s s' t t' : String} {m : List Char}

/-- No path is cut at two bars with the indicators of both cuts found. -/
theorem matchFile?_cut (h : i.matchFile? t = some s) (h' : i.matchFile? t' = some s')
    (hs : s'.toList = s.toList ++ '|' :: m) (ht : t.toList = m ++ '|' :: t'.toList) : False := by
  have within : s'.toList <:+: (Text.lower t').toList := Text.occurs_iff.1 (List.find?_some h' :)
  have inner : s.toList <:+: (Text.lower t').toList := by
    refine List.IsInfix.trans ?_ within
    rw [hs]
    exact (List.prefix_append _ _).isInfix
  have outer : s'.toList <:+: (Text.lower t).toList := within.trans (Text.lower_suffix ht).isInfix
  have same : s = s' := find?_unique h h' (Text.occurs_iff.2 inner) (Text.occurs_iff.2 outer)
  have longer := congrArg List.length hs
  rw [same, List.length_append, List.length_cons] at longer
  omega

theorem eq_lower_of_matchAddress? (h : i.matchAddress? t = some s) : s = Text.lower (Text.trim t) := by
  simp only [matchAddress?] at h
  split at h
  · exact (Option.some.inj h).symm
  · cases h

/-- No address is cut at two bars with the indicators of both cuts found. -/
theorem matchAddress?_cut (h : i.matchAddress? t = some s) (h' : i.matchAddress? t' = some s')
    (hs : s'.toList = s.toList ++ '|' :: m) (ht : t.toList = m ++ '|' :: t'.toList) : False := by
  have shorter : s'.toList.length ≤ s.toList.length := by
    rw [eq_lower_of_matchAddress? h, eq_lower_of_matchAddress? h']
    exact Text.length_lower_le (Text.trim_sublist ht)
  rw [hs, List.length_append, List.length_cons] at shorter
  omega

end Cuts

/-- Where no path is cut at two bars with both indicators found, the parts are those of the joined text. -/
theorem parts_unique {find? : String → Option String} {s s' t t' : String}
    (cut : ∀ {s s' t t' : String} {m : List Char}, find? t = some s → find? t' = some s' →
      s'.toList = s.toList ++ '|' :: m → t.toList = m ++ '|' :: t'.toList → False)
    (h : find? t = some s) (h' : find? t' = some s')
    (joined : s.toList ++ '|' :: t.toList = s'.toList ++ '|' :: t'.toList) : s = s' ∧ t = t' := by
  rcases cut_cases joined with ⟨hs, ht⟩ | ⟨m, hs, ht⟩ | ⟨m, hs, ht⟩
  · exact ⟨String.toList_inj.1 hs, String.toList_inj.1 ht⟩
  · exact (cut h h' hs ht).elim
  · exact (cut h' h hs ht).elim

/-- A number holds no bar, so it stands behind the last one. -/
theorem cut_number {l l' : List Char} {n n' : Int}
    (joined : l ++ '|' :: n.repr.toList = l' ++ '|' :: n'.repr.toList) : l = l' ∧ n = n' := by
  have free (k : Int) : '|' ∉ k.repr.toList := fun h => absurd (Json.numeral_int k _ h) (by decide)
  obtain ⟨before, behind⟩ := cut_last (free n) (free n') joined
  exact ⟨before, Int.repr_injective (String.toList_inj.1 behind)⟩

/-- The parts of a subject can be told from its key, whatever bars they hold. -/
theorem Subject.key_injective {i : Indicators} {x y : Subject} (hx : x.Found i) (hy : y.Found i)
    (h : x.key = y.key) : x = y := by
  have chars := congrArg String.toList h
  cases x <;> cases y <;> simp [key] at chars
  case process.process =>
    obtain ⟨indicators, pids⟩ := cut_number chars
    rw [String.toList_inj.1 indicators, pids]
  case file.file =>
    obtain ⟨indicators, paths⟩ := parts_unique matchFile?_cut hx hy chars
    rw [indicators, paths]
  case connection.connection =>
    simp only [← List.cons_append, ← List.append_assoc] at chars
    obtain ⟨joined, pids⟩ := cut_number chars
    obtain ⟨indicators, addresses⟩ := parts_unique matchAddress?_cut hx hy joined
    rw [indicators, addresses, pids]

/-! ### The alerts of the rule -/

/-- The alert is one that the rule raises on the snapshot. -/
def Raises (i : Indicators) (s : Snapshot) (a : Alert) : Prop :=
  ∃ evaluate raised, i.rule.evaluate = some evaluate ∧ evaluate s = .ok raised ∧ a ∈ raised

end Indicators

/-- Every record of a new process or a new connection has an integer for its process id, if it has one. -/
def Snapshot.HasProcessIds (s : Snapshot) : Prop :=
  ∀ name ∈ ["proc.new", "conn.new"], ∀ records, Rule.visited (s.field? name) = .ok records →
    ∀ record ∈ records, ∃ n : Int, record.getOr "pid" (.int 0) = .int n

namespace Alert

/-- What the evidence of an alert says under a name. -/
def clue (a : Alert) (name : String) : Option Value := OrderedMap.get? a.evidence name

/-- Two alerts are about the same thing: the same indicator for the same process, file or connection. -/
structure SameFinding (a b : Alert) : Prop where
  kind : a.clue "kind" = b.clue "kind"
  indicator : a.clue "indicator" = b.clue "indicator"
  process : a.clue "kind" = some (.text "process") → a.clue "pid" = b.clue "pid"
  file : a.clue "kind" = some (.text "file") → a.clue "path" = b.clue "path"
  connection : a.clue "kind" = some (.text "connection") →
    a.clue "remote_ip" = b.clue "remote_ip" ∧ a.clue "pid" = b.clue "pid"

end Alert

namespace Indicators

namespace Subject

/-- What the evidence of an alert on the subject says. -/
def clues : Subject → List (String × Value)
  | .process indicator pid =>
    [("kind", .text "process"), ("indicator", .text indicator), ("pid", .int pid)]
  | .file indicator path => [("kind", .text "file"), ("indicator", .text indicator), ("path", .text path)]
  | .connection indicator address pid =>
    [("kind", .text "connection"), ("indicator", .text indicator), ("remote_ip", .text address),
      ("pid", .int pid)]

/-- The alert is counted under the key of the subject, and its evidence names the parts. -/
structure Of (a : Alert) (x : Subject) : Prop where
  key : a.dedupKey = x.key
  clues : ∀ e ∈ x.clues, a.clue e.1 = some e.2

variable {a b : Alert} {x y : Subject}

theorem Of.sameFinding_iff (ha : Of a x) (hb : Of b y) : a.SameFinding b ↔ x = y := by
  have left := ha.clues
  have right := hb.clues
  constructor
  · rintro ⟨kind, indicator, process, file, connection⟩
    -- different kinds contradict `kind`; within one kind every part of the subject is a clue
    cases x <;> cases y <;> simp only [Subject.clues, List.forall_mem_cons] at left right <;>
      simp_all
  · rintro rfl
    have same : ∀ e ∈ x.clues, a.clue e.1 = b.clue e.1 := fun e he => (left e he).trans (right e he).symm
    cases x <;> simp only [Subject.clues, List.forall_mem_cons] at left same <;>
      constructor <;> simp_all

end Subject

variable {i : Indicators} {s t : Snapshot} {a b : Alert} {record : Value}

theorem of_processAlert? {n : Int} (pid : record.getOr "pid" (.int 0) = .int n)
    (h : i.processAlert? record = some a) : ∃ x : Subject, x.Found i ∧ Subject.Of a x := by
  simp only [processAlert?, Option.map_eq_some_iff, pid] at h
  obtain ⟨⟨indicator, part⟩, -, rfl⟩ := h
  refine ⟨.process indicator n, trivial, ?_, ?_⟩
  · rfl
  · simp [Subject.clues, Alert.clue, OrderedMap.get?]

theorem of_fileAlert? (h : i.fileAlert? record = some a) : ∃ x : Subject, x.Found i ∧ Subject.Of a x := by
  simp only [fileAlert?, Option.map_eq_some_iff] at h
  obtain ⟨indicator, found, rfl⟩ := h
  refine ⟨.file indicator (partText record "path"), found, ?_, ?_⟩
  · rfl
  · simp [Subject.clues, Alert.clue, OrderedMap.get?]

theorem of_connectionAlert? {n : Int} (pid : record.getOr "pid" (.int 0) = .int n)
    (h : i.connectionAlert? record = some a) : ∃ x : Subject, x.Found i ∧ Subject.Of a x := by
  simp only [connectionAlert?, Option.map_eq_some_iff, pid] at h
  obtain ⟨indicator, found, rfl⟩ := h
  refine ⟨.connection indicator (partText record "remote_ip") n, found, ?_, ?_⟩
  · rfl
  · simp [Subject.clues, Alert.clue, OrderedMap.get?]

theorem Raises.exists_record (h : i.Raises s a) : ∃ source ∈ i.sources, ∃ records,
    Rule.visited (s.field? source.1) = .ok records ∧ ∃ record ∈ records, source.2 record = some a := by
  obtain ⟨evaluate, raised, rule, evaluated, ha⟩ := h
  obtain rfl := Option.some.inj rule
  dsimp only at evaluated
  split at evaluated
  · cases evaluated
    cases ha
  · rename_i fields given
    split at evaluated
    · cases evaluated
      cases ha
    · simp only [Snapshot.field?, given]
      exact exists_record_of_mem_collect evaluated ha

/-- Every alert of the rule is on a subject that its key and its evidence show. -/
theorem Raises.exists_subject (ids : s.HasProcessIds) (h : i.Raises s a) :
    ∃ x : Subject, x.Found i ∧ Subject.Of a x := by
  obtain ⟨source, hsource, records, visited, record, hrecord, raised⟩ := h.exists_record
  simp only [sources, List.mem_cons, List.not_mem_nil, or_false] at hsource
  rcases hsource with rfl | rfl | rfl <;> dsimp only at raised visited
  · obtain ⟨n, pid⟩ := ids "proc.new" (by decide) records visited record hrecord
    exact of_processAlert? pid raised
  · exact of_fileAlert? raised
  · obtain ⟨n, pid⟩ := ids "conn.new" (by decide) records visited record hrecord
    exact of_connectionAlert? pid raised

/-- On snapshots with integer process ids, two alerts of the rule are counted under the same key if and
only if they are about the same thing. -/
theorem dedupKey_eq_iff (hs : s.HasProcessIds) (ht : t.HasProcessIds) (ha : i.Raises s a)
    (hb : i.Raises t b) : a.dedupKey = b.dedupKey ↔ a.SameFinding b := by
  obtain ⟨x, foundx, ofx⟩ := ha.exists_subject hs
  obtain ⟨y, foundy, ofy⟩ := hb.exists_subject ht
  rw [ofx.sameFinding_iff ofy, ofx.key, ofy.key]
  constructor
  · exact Subject.key_injective foundx foundy
  · rintro rfl
    rfl

/-- Indicators with bars, one of which extends another one. -/
def barred : Indicators :=
  { processNames := ["x|1"], filePaths := ["a|b", "a"], remoteAddresses := ["h|2"] }

/-- A new process and a new connection, and a file that changed. -/
def changed (path : String) : Snapshot where
  fields := some [("proc.new", .list [.object [("pid", .int 7), ("name", .text "X|1.exe")]]),
    ("file.events", .list [.object [("path", .text path)]]),
    ("conn.new", .list [.object [("pid", .int 7), ("remote_ip", .text " H|2")]])]

theorem changed_hasProcessIds (path : String) : (changed path).HasProcessIds := by
  intro name hname records visited record hrecord
  simp only [List.mem_cons, List.not_mem_nil, or_false] at hname
  rcases hname with rfl | rfl <;> cases visited <;> obtain rfl := List.mem_singleton.1 hrecord <;>
    exact ⟨7, rfl⟩

theorem dedupKey_eq_iff_bars : ∃ a b, barred.Raises (changed "b|a") a ∧ barred.Raises (changed "a|b") b ∧
    a.dedupKey = "ioc|file|a|b|a" ∧ b.dedupKey = "ioc|file|a|b|a|b" ∧ ¬ a.SameFinding b := by
  have ha : barred.Raises (changed "b|a") _ :=
    ⟨_, _, rfl, rfl, List.mem_cons_of_mem _ List.mem_cons_self⟩
  have hb : barred.Raises (changed "a|b") _ :=
    ⟨_, _, rfl, rfl, List.mem_cons_of_mem _ List.mem_cons_self⟩
  refine ⟨_, _, ha, hb, rfl, rfl, ?_⟩
  rw [← dedupKey_eq_iff (changed_hasProcessIds _) (changed_hasProcessIds _) ha hb]
  decide

end Indicators

end HostWatch
