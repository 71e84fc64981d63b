import HostWatch.Capture.Connection
import HostWatch.Capture.Process
import HostWatch.Proofs.Capture.Series
import HostWatch.Proofs.Numeric.Equality
import HostWatch.Proofs.OrderedMap
import Mathlib.Data.List.Induction

/-!
# What is new since the capture before

A process is new exactly if no process of the last successful capture had its id and its time of creation; a
connection is new exactly if none had its key. All of them are counted and the first ones are shown, in the
order in which they are listed: `newcomers_exact`. The known processes are a map and the known keys are kept
without repetitions; neither makes a difference if no id is listed twice (`ProcessCapturer.wasKnown_iff`) and
since equality of keys is transitive (`ConnectionCapturer.isAmong_distinctKeys`).
-/

namespace HostWatch

/-- How many things there are, how many of them are new, and the first `k` new ones. -/
structure Snapshot.Counts (s : Snapshot) (source : String) (k count : Nat) (newcomers : List Value) : Prop where
  count : s.metric? (source ++ ".count") = some (Binary64.ofInt count)
  new : s.metric? (source ++ ".new") = some (Binary64.ofInt newcomers.length)
  shown : s.field? (source ++ ".new") = some (.list (newcomers.take k))

theorem Capture.upTo_nat {α : Type} (k : Nat) (l : List α) : upTo (.int k) l = .ok (l.take k) :=
  congrArg Except.ok (if_pos (Int.natCast_nonneg k))

/-! ### Processes -/

namespace ProcessCapturer

/-- A process that can be looked at, with its id and its time of creation. -/
structure Seen where
  pid : Int
  time : Float
  process : ProcessReading

def look (p : ProcessReading) : Except Fault Seen := do return ⟨← idOf p, ← created p, p⟩

def readable : List ProcessEntry → List ProcessReading
  | [] => []
  | .readable p :: rest => p :: readable rest
  | .unreadable :: rest => readable rest

/-- The processes that can be looked at, as they are listed. -/
def seen (m : Machine) : Except Fault (List Seen) := do (readable (← m.processes)).mapM look

/-- Whether a process was there, with the same time of creation. -/
def Seen.isAmong (e : Seen) (others : List Seen) : Bool := others.any fun o => o.pid == e.pid && o.time == e.time

/-- No id is listed twice. -/
def DistinctIds (m : Machine) : Prop := ∀ l, seen m = .ok l → (l.map Seen.pid).Nodup

/-- The new ones among some processes, with what is shown of them. -/
def newcomers (old new : List Seen) : Except Fault (List NewProcess) :=
  (new.filter fun e => !e.isAmong old).mapM fun e => describe e.pid e.process

def pairs (l : List Seen) : List (Int × Float) := l.map fun e => (e.pid, e.time)

variable {known : Option (OrderedMap Int Float)} {entries : List ProcessEntry} {m : Machine} {k : Nat}
  {c c' : ProcessCapturer} {l : List Seen}

/-- Whether a process is new to what is known; everything is known at first. -/
def isNew (known : Option (OrderedMap Int Float)) (e : Seen) : Bool :=
  match known with
  | some known => !wasKnown known e.pid e.time
  | none => false

/-- What is shown of the new ones among some processes. -/
def described (known : Option (OrderedMap Int Float)) (l : List Seen) : Except Fault (List NewProcess) :=
  (l.filter (isNew known)).mapM fun e => describe e.pid e.process

theorem described_cons (e : Seen) (l : List Seen) : described known (e :: l) = do
    let first ← described known [e]
    let others ← described known l
    return first ++ others := by
  unfold described
  rw [← List.singleton_append, List.filter_append, List.mapM_append]

theorem described_one {e : Seen} {records : List NewProcess} (ok : described known [e] = .ok records) :
    records.reverse = records := by
  unfold described at ok
  rw [List.filter_cons] at ok
  split at ok
  · obtain ⟨record, -, ok⟩ := ok_of_bind ok
    cases ok
    rfl
  · cases ok
    rfl

theorem survey_readable {p : ProcessReading} {current : OrderedMap Int Float} {fresh : List NewProcess} :
    survey known (.readable p :: entries) current fresh = (do
      let e ← look p
      let added ← described known [e]
      survey known entries (OrderedMap.set current e.pid e.time) (added ++ fresh)) := by
  unfold look described
  rw [survey]
  rcases idOf p with _ | pid
  · rfl
  rcases created p with _ | time
  · rfl
  rcases known with _ | known
  · rfl
  · dsimp only [bind, Except.bind, pure, Except.pure]
    rcases was : wasKnown known pid time with _ | _
    · have new : isNew (some known) ⟨pid, time, p⟩ = true := by simp [isNew, was]
      rw [List.filter_cons_of_pos new, List.filter_nil, List.mapM_cons]
      rcases describe pid p with _ | record <;> rfl
    · have old : isNew (some known) ⟨pid, time, p⟩ = false := by simp [isNew, was]
      rw [List.filter_cons_of_neg (by simp [old])]
      rfl

/-- The loop over the processes, as what it reads and what it describes of that. -/
theorem survey_ok {current now : OrderedMap Int Float} {fresh found : List NewProcess}
    (ok : survey known entries current fresh = .ok (now, found)) : ∃ l records,
      (readable entries).mapM look = .ok l ∧ described known l = .ok records ∧
      now = OrderedMap.update current (pairs l) ∧ found = fresh.reverse ++ records := by
  induction entries generalizing current fresh with
  | nil =>
    cases ok
    exact ⟨[], [], rfl, rfl, rfl, (List.append_nil _).symm⟩
  | cons entry rest ih =>
    rcases entry with p | _
    · rw [survey_readable] at ok
      obtain ⟨e, he, ok⟩ := ok_of_bind ok
      obtain ⟨added, hadded, ok⟩ := ok_of_bind ok
      obtain ⟨l, records, hl, hrecords, hnow, hfound⟩ := ih ok
      refine ⟨e :: l, added ++ records, ?_, ?_, hnow, ?_⟩
      · rw [readable, List.mapM_cons, he, hl]
        rfl
      · rw [described_cons, hadded, hrecords]
        rfl
      · -- The loop gathers backwards, and one process adds at most one record.
        rw [hfound, List.reverse_append, described_one hadded, List.append_assoc]
    · exact ih ok

def knownOf (l : List Seen) : OrderedMap Int Float := OrderedMap.ofPairs (pairs l)

theorem distinct_pairs (nodup : (l.map Seen.pid).Nodup) : OrderedMap.Distinct (pairs l) := by
  have keys : OrderedMap.keys (pairs l) = l.map Seen.pid := List.map_map
  exact OrderedMap.distinct_iff_nodup.2 (keys ▸ nodup)

theorem knownOf_eq (nodup : (l.map Seen.pid).Nodup) : knownOf l = pairs l :=
  OrderedMap.ofPairs_of_distinct (distinct_pairs nodup)

theorem wasKnown_iff (nodup : (l.map Seen.pid).Nodup) (e : Seen) :
    wasKnown (knownOf l) e.pid e.time = e.isAmong l := by
  have distinct := distinct_pairs nodup
  rw [knownOf_eq nodup, Bool.eq_iff_iff]
  unfold wasKnown Seen.isAmong
  rw [List.any_eq_true]
  constructor
  · intro h
    rcases hget : OrderedMap.get? (pairs l) e.pid with _ | time
    · rw [hget] at h
      cases h
    · rw [hget] at h
      obtain ⟨o, ho, heq⟩ := List.mem_map.1 (OrderedMap.mem_of_get? hget)
      obtain ⟨pid, rfl⟩ := Prod.mk.inj heq
      exact ⟨o, ho, (Bool.and_eq_true ..).mpr ⟨beq_iff_eq.2 pid, h⟩⟩
  · rintro ⟨o, ho, h⟩
    obtain ⟨pid, time⟩ := (Bool.and_eq_true ..).mp h
    have hget : OrderedMap.get? (pairs l) e.pid = some o.time := by
      rw [← eq_of_beq pid]
      exact distinct.get?_iff.2 (List.mem_map_of_mem ho)
    rw [hget]
    exact time

theorem described_nothing : described none l = .ok [] := by
  unfold described
  rw [List.filter_eq_nil_iff.2 (by simp [isNew])]
  rfl

/-- The state after a capture that saw the processes `l` and described the new ones. -/
def learned (k : Nat) (l : List Seen) (records : List NewProcess) (c : ProcessCapturer) : ProcessCapturer :=
  { c with
    known := some (knownOf l)
    count := (knownOf l).length
    fresh := records.take k
    freshTotal := records.length
    isWarm := c.known.isSome }

/-- What a capture comes to where the shown ones are limited by a natural number. -/
theorem capture_eq (limit : c.maxNew = .int k) : (∃ e, c.capture m = (c, some e)) ∨
    ∃ l records, seen m = .ok l ∧ described c.known l = .ok records ∧
      c.capture m = (learned k l records c, none) := by
  unfold capture seen
  rcases m.processes with e | entries
  · exact .inl ⟨e, rfl⟩
  dsimp only [bind, Except.bind]
  rcases hsurvey : survey c.known entries [] [] with e | ⟨current, found⟩
  · exact .inl ⟨e, rfl⟩
  obtain ⟨l, records, hl, hrecords, hcurrent, hfound⟩ := survey_ok hsurvey
  obtain rfl : found = records := hfound
  obtain rfl : current = knownOf l := hcurrent
  refine .inr ⟨l, found, hl, hrecords, ?_⟩
  dsimp only
  rw [limit, Capture.upTo_nat]
  unfold learned
  rcases hknown : c.known with _ | known
  · rw [hknown, described_nothing] at hrecords
    obtain rfl := Except.ok.inj hrecords
    rw [List.take_nil, limit]
    rfl
  · rw [limit]
    rfl

theorem keepsReading : Capture.KeepsReading capture (·.maxNew = .int k) (·.known)
    fun m => (seen m).map knownOf := by
  intro m c limit
  rcases capture_eq (m := m) limit with ⟨e, ko⟩ | ⟨l, records, hl, -, ok⟩
  · exact .inl ⟨c, e, ko, limit, rfl⟩
  · exact .inr ⟨_, knownOf l, ok, limit, congrArg (Except.map knownOf) hl, rfl⟩

theorem described_known {old new : List Seen} (nodup : (old.map Seen.pid).Nodup) :
    described (some (knownOf old)) new = newcomers old new := by
  unfold described newcomers isNew
  simp only [wasKnown_iff nodup]

theorem info_learned {records : List NewProcess} (nodup : (l.map Seen.pid).Nodup) :
    (learned k l records c).info.Counts "proc" k l.length (records.map NewProcess.toValue) := by
  have length : (knownOf l).length = l.length := by
    rw [knownOf_eq nodup]
    exact List.length_map ..
  refine ⟨?_, ?_, ?_⟩
  · rw [← length]
    rfl
  · rw [List.length_map]
    rfl
  · rw [← List.map_take]
    rfl

/-- What a capture of `t`, that has led to the state `c`, tells of the processes after captures of `ts`. -/
structure Exact (k : Nat) (ts : List Machine) (t : Machine) (c : ProcessCapturer) : Prop where
  warm : c.isWarm ↔ ts ≠ []
  first : ts = [] → ∃ new, seen t = .ok new ∧ c.info.Counts "proc" k new.length []
  later : ∀ t₀, ts.getLast? = some t₀ → ∃ old new records, seen t₀ = .ok old ∧ seen t = .ok new ∧
    newcomers old new = .ok records ∧ c.info.Counts "proc" k new.length (records.map NewProcess.toValue)

theorem exact_of_series {ts : List Machine} {t : Machine}
    (run : Capture.Series capture { maxNew := .int k } ts c) (ok : c.capture t = (c', none))
    (distinct : ∀ m ∈ t :: ts, DistinctIds m) : Exact k ts t c' := by
  have limit := (run.kept_eq keepsReading rfl rfl).1
  rcases capture_eq (m := t) limit with ⟨e, ko⟩ | ⟨new, records, hnew, hrecords, heq⟩
  · rw [ko] at ok
    cases ok
  obtain rfl : learned k new records c = c' := congrArg Prod.fst (heq.symm.trans ok)
  have counts : (learned k new records c).info.Counts "proc" k new.length _ :=
    info_learned (distinct t (List.mem_cons_self ..) new hnew)
  refine ⟨run.isSome_kept keepsReading rfl rfl, ?_, ?_⟩
  · intro cold
    rw [run.kept_of_nil keepsReading rfl rfl cold, described_nothing] at hrecords
    obtain rfl := Except.ok.inj hrecords
    exact ⟨new, hnew, counts⟩
  · intro t₀ last
    obtain ⟨known, hread, kept⟩ := run.kept_of_last keepsReading rfl rfl last
    rcases hold : seen t₀ with e | old
    · rw [hold] at hread
      cases hread
    rw [hold] at hread
    obtain rfl : knownOf old = known := Except.ok.inj hread
    have nodup := distinct t₀ (List.mem_cons_of_mem _ (List.mem_of_getLast? last)) old hold
    rw [kept, described_known nodup] at hrecords
    exact ⟨old, new, records, rfl, hnew, hrecords, counts⟩

end ProcessCapturer

/-! ### Connections -/

namespace ConnectionKey

def Hashable (k : ConnectionKey) : Prop := ∀ v ∈ k.parts, v.Hashable

theorem same_comm {a b : ConnectionKey} (ha : a.Hashable) (hb : b.Hashable) : a.same b = b.same a :=
  Value.sameItems_comm ha hb

theorem same_trans {a b c : ConnectionKey} (hb : b.Hashable) (hab : a.same b) (hbc : b.same c) : a.same c :=
  Value.sameItems_trans hb hab hbc

/-- Some of the keys `all`: one of each. -/
structure Represents (keys all : List ConnectionKey) : Prop where
  sublist : keys.Sublist all
  apart : keys.Pairwise fun a b => a.same b = false
  covers : ∀ k ∈ all, k ∈ keys ∨ k.isAmong keys

end ConnectionKey

namespace ConnectionCapturer

open ConnectionKey (Represents)

/-- The connections with a remote end, as they are listed. -/
def listed (connections : List ConnectionReading) : List (ConnectionKey × Value) :=
  connections.filterMap fun c => (key? c).map fun k => (k, c.status)

/-- Whether a connection was there. -/
def wasListed (old : List (ConnectionKey × Value)) (e : ConnectionKey × Value) : Bool := old.any fun o => e.1.same o.1

/-- What is shown of the new ones among some connections. -/
def newcomers (old new : List (ConnectionKey × Value)) : List Value :=
  (new.filter fun e => !wasListed old e).map fun (k, status) => recordOf k status

variable {m : Machine} {k : Nat} {c c' : ConnectionCapturer} {kind : Value} {l : List (ConnectionKey × Value)}
  {connections : List ConnectionReading}

theorem remoteOnes_ok (ok : remoteOnes connections = .ok l) : l = listed connections ∧ ∀ e ∈ l, e.1.Hashable := by
  unfold remoteOnes at ok
  unfold listed
  generalize connections.filterMap _ = all at ok ⊢
  induction all generalizing l with
  | nil =>
    cases ok
    exact ⟨rfl, by simp⟩
  | cons e all ih =>
    rw [List.mapM_cons] at ok
    obtain ⟨e', he, ok⟩ := ok_of_bind ok
    obtain ⟨l', hl, ok⟩ := ok_of_bind ok
    cases ok
    obtain ⟨keys, hkeys, he⟩ := ok_of_bind he
    cases he
    obtain ⟨rfl, hashable⟩ := ih hl
    exact ⟨rfl, List.forall_mem_cons.2 ⟨Value.hashable_of_mapM hkeys, hashable⟩⟩

theorem distinctKeys_concat (e : ConnectionKey × Value) : distinctKeys (l ++ [e]) =
    if e.1.isAmong (distinctKeys l) then distinctKeys l else distinctKeys l ++ [e.1] := by
  unfold distinctKeys
  rw [List.foldl_append]
  rfl

theorem represents_distinctKeys (hashable : ∀ e ∈ l, e.1.Hashable) : Represents (distinctKeys l) (l.map Prod.fst) := by
  induction l using List.reverseRecOn with
  | nil => exact ⟨.slnil, .nil, by simp⟩
  | append_singleton l e ih =>
    rw [List.forall_mem_append] at hashable
    obtain ⟨sublist, apart, covers⟩ := ih hashable.1
    rw [distinctKeys_concat, List.map_append]
    split
    · rename_i among
      refine ⟨sublist.trans (List.sublist_append_left ..), apart, ?_⟩
      rw [List.forall_mem_append]
      exact ⟨covers, by simpa using .inr among⟩
    · rename_i other
      refine ⟨sublist.append (.refl _), ?_, ?_⟩
      · refine List.pairwise_append.2 ⟨apart, List.pairwise_singleton .., ?_⟩
        intro a ha b hb
        obtain rfl := List.mem_singleton.1 hb
        obtain ⟨o, ho, rfl⟩ := List.mem_map.1 (sublist.subset ha)
        rw [ConnectionKey.same_comm (hashable.1 o ho) (hashable.2 e (List.mem_singleton_self e))]
        exact Bool.eq_false_iff.2 fun same => other (List.any_eq_true.2 ⟨o.1, ha, same⟩)
      · rw [List.forall_mem_append]
        refine ⟨fun k hk => (covers k hk).imp (List.mem_append_left _) ?_, by simp⟩
        intro among
        rw [ConnectionKey.isAmong, List.any_append]
        exact Bool.or_eq_true_iff.2 (.inl among)

/-- Nothing is lost by knowing one key of each. -/
theorem isAmong_distinctKeys (hashable : ∀ e ∈ l, e.1.Hashable) (e : ConnectionKey × Value) :
    e.1.isAmong (distinctKeys l) = wasListed l e := by
  obtain ⟨sublist, -, covers⟩ := represents_distinctKeys hashable
  rw [Bool.eq_iff_iff]
  unfold ConnectionKey.isAmong wasListed
  rw [List.any_eq_true, List.any_eq_true]
  constructor
  · rintro ⟨k, hk, same⟩
    obtain ⟨o, ho, rfl⟩ := List.mem_map.1 (sublist.subset hk)
    exact ⟨o, ho, same⟩
  · rintro ⟨o, ho, same⟩
    rcases covers o.1 (List.mem_map_of_mem ho) with kept | among
    · exact ⟨o.1, kept, same⟩
    · -- Another key stands for the one of `o`. It equals what is looked up, as equality is transitive.
      obtain ⟨k, hk, same'⟩ := List.any_eq_true.1 among
      exact ⟨k, hk, ConnectionKey.same_trans (hashable o ho) same same'⟩

/-- The connections that are new to what is known; all are known at first. -/
def found (known : Option (List ConnectionKey)) (l : List (ConnectionKey × Value)) : List (ConnectionKey × Value) :=
  match known with
  | none => []
  | some known => l.filter fun (k, _) => !k.isAmong known

/-- The state after a capture that read the connections `l`. -/
def learned (k : Nat) (l : List (ConnectionKey × Value)) (c : ConnectionCapturer) : ConnectionCapturer :=
  { c with
    known := some (distinctKeys l)
    count := (distinctKeys l).length
    fresh := (found c.known l).take k
    freshTotal := (found c.known l).length
    isWarm := c.known.isSome }

theorem capture_eq (limit : c.maxNew = .int k) : (∃ e, c.capture m = (c, some e)) ∨
    ∃ l, m.connections.bind remoteOnes = .ok l ∧ c.capture m = (learned k l c, none) := by
  unfold capture
  rcases m.connections.bind remoteOnes with e | l
  · exact .inl ⟨e, rfl⟩
  refine .inr ⟨l, rfl, ?_⟩
  dsimp only
  rw [limit, Capture.upTo_nat]
  unfold learned
  rcases c.known with _ | known
  · simp only [found, List.take_nil, limit]
    rfl
  · simp only [limit]
    rfl

theorem keepsReading : Capture.KeepsReading capture (·.maxNew = .int k) (·.known)
    fun m => (m.connections.bind remoteOnes).map distinctKeys := by
  intro m c limit
  rcases capture_eq (m := m) limit with ⟨e, ko⟩ | ⟨l, hl, ok⟩
  · exact .inl ⟨c, e, ko, limit, rfl⟩
  · exact .inr ⟨_, distinctKeys l, ok, limit, congrArg (Except.map distinctKeys) hl, rfl⟩

theorem info_learned : (learned k l c).info.Counts "conn" k (distinctKeys l).length
    ((found c.known l).map fun (k, status) => recordOf k status) := by
  refine ⟨rfl, ?_, ?_⟩
  · rw [List.length_map]
    rfl
  · rw [← List.map_take]
    rfl

/-- What a capture of `t`, that has led to the state `c`, tells of the connections after captures of `ts`. -/
structure Exact (k : Nat) (ts : List Machine) (t : Machine) (c : ConnectionCapturer) : Prop where
  warm : c.isWarm ↔ ts ≠ []
  first : ts = [] → ∃ new keys, t.connections = .ok new ∧ Represents keys ((listed new).map Prod.fst) ∧
    c.info.Counts "conn" k keys.length []
  later : ∀ t₀, ts.getLast? = some t₀ → ∃ old new keys, t₀.connections = .ok old ∧ t.connections = .ok new ∧
    Represents keys ((listed new).map Prod.fst) ∧
    c.info.Counts "conn" k keys.length (newcomers (listed old) (listed new))

theorem read_ok (ok : m.connections.bind remoteOnes = .ok l) :
    ∃ connections, m.connections = .ok connections ∧ l = listed connections ∧ ∀ e ∈ l, e.1.Hashable := by
  obtain ⟨connections, hconnections, ok⟩ := ok_of_bind ok
  exact ⟨connections, hconnections, remoteOnes_ok ok⟩

theorem exact_of_series {ts : List Machine} {t : Machine}
    (run : Capture.Series capture { kind, maxNew := .int k } ts c) (ok : c.capture t = (c', none)) :
    Exact k ts t c' := by
  have limit := (run.kept_eq keepsReading rfl rfl).1
  rcases capture_eq (m := t) limit with ⟨e, ko⟩ | ⟨l, hl, heq⟩
  · rw [ko] at ok
    cases ok
  obtain rfl : learned k l c = c' := congrArg Prod.fst (heq.symm.trans ok)
  obtain ⟨new, hnew, rfl, hashable⟩ := read_ok hl
  have represents := represents_distinctKeys hashable
  have counts : (learned k (listed new) c).info.Counts "conn" k (distinctKeys (listed new)).length _ := info_learned
  refine ⟨run.isSome_kept keepsReading rfl rfl, ?_, ?_⟩
  · intro cold
    rw [run.kept_of_nil keepsReading rfl rfl cold] at counts
    exact ⟨new, _, hnew, represents, counts⟩
  · intro t₀ last
    obtain ⟨known, hread, kept⟩ := run.kept_of_last keepsReading rfl rfl last
    rcases hold : t₀.connections.bind remoteOnes with e | l
    · rw [hold] at hread
      cases hread
    rw [hold] at hread
    obtain rfl : distinctKeys l = known := Except.ok.inj hread
    obtain ⟨old, hconnections, rfl, hashable'⟩ := read_ok hold
    have same : found c.known (listed new) = (listed new).filter fun e => !wasListed (listed old) e := by
      rw [kept]
      unfold found
      simp only [← isAmong_distinctKeys hashable']
    rw [same] at counts
    exact ⟨old, new, _, hconnections, hnew, represents, counts⟩

end ConnectionCapturer

namespace Capture

/-- New processes and new connections are told as they are, whatever else was captured. -/
theorem newcomers_exact (k : Nat) (ts : List Machine) (t : Machine) :
    (∀ c c' : ProcessCapturer, Series ProcessCapturer.capture { maxNew := .int k } ts c → c.capture t = (c', none) →
      (∀ m ∈ t :: ts, ProcessCapturer.DistinctIds m) → ProcessCapturer.Exact k ts t c') ∧
    (∀ (kind : Value) (c c' : ConnectionCapturer),
      Series ConnectionCapturer.capture { kind, maxNew := .int k } ts c → c.capture t = (c', none) →
      ConnectionCapturer.Exact k ts t c') :=
  ⟨fun _ _ run ok distinct => ProcessCapturer.exact_of_series run ok distinct,
    fun _ _ _ run ok => ConnectionCapturer.exact_of_series run ok⟩

/-- A machine with one process and one connection, and a process and a connection that took their places. -/
def started : Machine where
  processes := .ok [.readable { pid := some (.int 1), created := .int 5 }]
  connections := .ok [⟨.int 1, none, some ⟨"10.0.0.1", .int 80⟩, "ESTABLISHED"⟩]

def restarted : Machine where
  processes := .ok [.readable { pid := some (.int 1), created := .int 6 }]
  connections := .ok [⟨.int 1, none, some ⟨"10.0.0.1", .int 81⟩, "ESTABLISHED"⟩]

theorem newcomers_exact_restarted :
    (∃ c c' : ProcessCapturer, Series ProcessCapturer.capture { maxNew := .int 9 } [started] c ∧
      c.capture restarted = (c', none) ∧ ProcessCapturer.Exact 9 [started] restarted c' ∧ c'.freshTotal = 1) ∧
    ∃ c c' : ConnectionCapturer, Series ConnectionCapturer.capture { maxNew := .int 9 } [started] c ∧
      c.capture restarted = (c', none) ∧ ConnectionCapturer.Exact 9 [started] restarted c' ∧ c'.freshTotal = 1 := by
  obtain ⟨processes, connections⟩ := newcomers_exact 9 [started] restarted
  have distinct : ∀ m ∈ [restarted, started], ProcessCapturer.DistinctIds m := by
    intro m hm l hl
    simp only [List.mem_cons, List.not_mem_nil, or_false] at hm
    rcases hm with rfl | rfl
    · obtain rfl := Except.ok.inj hl
      exact List.pairwise_singleton _ _
    · obtain rfl := Except.ok.inj hl
      exact List.pairwise_singleton _ _
  constructor
  · have run : Series ProcessCapturer.capture { maxNew := .int 9 } [started] _ := .single rfl
    exact ⟨_, _, run, rfl, processes _ _ run rfl distinct, by decide⟩
  · have run : Series ConnectionCapturer.capture { maxNew := .int 9 } [started] _ := .single rfl
    exact ⟨_, _, run, rfl, connections _ _ _ run rfl, by decide⟩

end Capture

end HostWatch
