import HostWatch.Detection.Deduper
import HostWatch.Proofs.Detection.Arrival
import HostWatch.Proofs.OrderedMap

/-!
# The law of suppression

An alert passes a `Deduper` exactly if no alert with its key passed less than a window before
(`Deduper.run_windowLaw`), over any number of batches. What carries the proof is `Remembers`: at every
time the map names the same live suppressions as the whole history does. Forgetting what is over and
letting time pass keep that, so the map never decides differently from the history.
-/

namespace HostWatch.Deduper

/-- What comes of one batch after another. -/
def run (d : Deduper Int) : List Batch → List (Except Fault (List Alert)) × Deduper Int
  | [] => ([], d)
  | b :: rest =>
    let (passed, d) := d.filter b.now b.alerts
    let (more, d) := d.run rest
    (passed :: more, d)

/-- No alert with the key of `a` has passed less than a window before the time `t`. -/
def IsFree (window : Int) (history : List Arrival) (t : Int) (a : Alert) : Prop :=
  ∀ b ∈ history, b.passes → b.alert.SameKey a → b.time + window ≤ t

/-- Of the arrivals in a history exactly those pass that are free when they come. -/
def Lawful (window : Int) (history : List Arrival) : Prop :=
  ∀ before a after, history = before ++ a :: after →
    (a.passes ↔ IsFree window before a.time a.alert)

/-- Until when a key is suppressed at the time `now`, going by what has passed. -/
def suppressedUntil (window now : Int) (history : List Arrival) (k : Key) : Option Int :=
  ((Arrival.lastPass k history).map (· + window)).filter fun t => decide (now < t)

/-- What a run of a deduper has done, told by the history of all arrivals. -/
structure WindowLaw (window : Int) (batches : List Batch) (history : List (List Arrival)) : Prop where
  /-- The history names the alerts of each batch. -/
  arrivals : List.Forall₂ Arrival.OfBatch batches history
  /-- The deduper returns those that pass, in their order. -/
  results : (run { window } batches).1 = history.map fun arrivals => .ok (Arrival.passing arrivals)
  lawful : Lawful window history.flatten
  /-- Alerts with one key pass at least a window apart. -/
  apart : history.flatten.Pairwise fun a b =>
    a.passes → b.passes → a.alert.SameKey b.alert → a.time + window ≤ b.time
  /-- What is suppressed has a predecessor that passed less than a window before. -/
  preceded : ∀ before a after, history.flatten = before ++ a :: after → a.passes = false →
    ∃ b ∈ before, b.passes ∧ b.alert.SameKey a.alert ∧ b.time ≤ a.time ∧ a.time < b.time + window
  /-- After each batch exactly the keys are kept that are still suppressed. -/
  kept : ∀ n b, batches[n]? = some b → ∀ k,
    OrderedMap.get? (run { window } (batches.take (n + 1))).2.suppressed k =
      suppressedUntil window b.now (history.take (n + 1)).flatten k
  /-- After each batch nothing is kept whose time is over. -/
  forgotten : ∀ n b, batches[n]? = some b →
    ∀ e ∈ (run { window } (batches.take (n + 1))).2.suppressed, b.now < e.2

section Lawful
variable {window : Int} {history : List Arrival} {x : Arrival}

theorem lawful_nil : Lawful window [] := by
  intro before a after h
  simp at h

theorem Lawful.concat (h : Lawful window history)
    (hx : x.passes ↔ IsFree window history x.time x.alert) : Lawful window (history ++ [x]) := by
  intro before a after heq
  rcases concat_eq_append_cons heq with ⟨rfl, rfl⟩ | ⟨after, earlier⟩
  · exact hx
  · exact h before a after earlier

theorem Lawful.of_concat (h : Lawful window (history ++ [x])) :
    Lawful window history ∧ (x.passes ↔ IsFree window history x.time x.alert) :=
  ⟨fun before a after heq => h before a (after ++ [x]) (by simp [heq]), h history x [] rfl⟩

theorem Lawful.apart (h : Lawful window history) : history.Pairwise fun a b =>
    a.passes → b.passes → a.alert.SameKey b.alert → a.time + window ≤ b.time := by
  induction history using List.reverseRecOn with
  | nil => exact .nil
  | append_singleton history x ih =>
    obtain ⟨hh, hx⟩ := h.of_concat
    refine List.pairwise_append.2 ⟨ih hh, List.pairwise_singleton _ _, fun a ha b hb pa pb same => ?_⟩
    obtain rfl := List.mem_singleton.1 hb
    exact hx.1 pb a ha pa same

theorem Lawful.preceded (h : Lawful window history) (sorted : history.Pairwise fun a b => a.time ≤ b.time)
    {before after : List Arrival} {a : Arrival} (heq : history = before ++ a :: after)
    (ha : a.passes = false) :
    ∃ b ∈ before, b.passes ∧ b.alert.SameKey a.alert ∧ b.time ≤ a.time ∧ a.time < b.time + window := by
  have held : ¬ IsFree window before a.time a.alert := fun free => by
    have := (h before a after heq).2 free
    rw [ha] at this
    cases this
  simp only [IsFree, not_forall, Int.not_le] at held
  obtain ⟨b, hb, passes, same, lt⟩ := held
  have le : b.time ≤ a.time := (List.pairwise_append.1 (heq ▸ sorted)).2.2 b hb a (.head _)
  exact ⟨b, hb, passes, same, le, lt⟩

end Lawful

/-! ### What the map remembers -/

/-- At the time `now` the map names the live suppressions of a lawful history. -/
structure Remembers (window now : Int) (m : OrderedMap Key Int) (history : List Arrival) : Prop where
  distinct : OrderedMap.Distinct m
  sorted : history.Pairwise fun a b => a.time ≤ b.time
  past : ∀ a ∈ history, a.time ≤ now
  lawful : Lawful window history
  live : ∀ k, (OrderedMap.get? m k).filter (fun t => decide (now < t)) =
    suppressedUntil window now history k

theorem suppresses_eq (m : OrderedMap Key Int) (now : Int) (k : Key) : suppresses m now k =
    ((OrderedMap.get? m k).filter fun t => decide (now < t)).isSome := by
  unfold suppresses
  cases OrderedMap.get? m k with
  | none => rfl
  | some t => by_cases h : now < t <;> simp [Option.filter, h]

theorem filter_filter_of_le {now later : Int} (h : now ≤ later) (until? : Option Int) :
    (until?.filter fun t => decide (now < t)).filter (fun t => decide (later < t)) =
      until?.filter fun t => decide (later < t) := by
  cases until? with
  | none => rfl
  | some t =>
    by_cases ht : now < t
    · simp [Option.filter, ht]
    · have : ¬ later < t := by omega
      simp [Option.filter, ht, this]

namespace Remembers
variable {window now : Int} {m : OrderedMap Key Int} {history : List Arrival} {a : Alert} {k : Key}

theorem empty (window now : Int) : Remembers window now [] [] :=
  ⟨OrderedMap.distinct_nil, .nil, by simp, lawful_nil, fun _ => rfl⟩

theorem later (h : Remembers window now m history) {t : Int} (hle : now ≤ t) :
    Remembers window t m history := by
  refine ⟨h.distinct, h.sorted, fun a ha => Int.le_trans (h.past a ha) hle, h.lawful, fun k => ?_⟩
  rw [← filter_filter_of_le hle, h.live, suppressedUntil, filter_filter_of_le hle, suppressedUntil]

/-- The map suppresses a key exactly if the history does. -/
theorem suppresses_iff (h : Remembers window now m history) (hk : a.key.toKey = .ok k) :
    suppresses m now k ↔ ¬ IsFree window history now a := by
  have last : (suppressedUntil window now history k).isSome = true ↔
      ∃ u, Arrival.lastPass k history = some u ∧ now - window < u := by
    unfold suppressedUntil
    cases Arrival.lastPass k history with
    | none => simp
    | some u => simp [Option.filter, Option.isSome_iff_exists, Int.sub_lt_iff]
  rw [suppresses_eq, h.live, last, ← Arrival.exists_pass_iff h.sorted]
  simp only [IsFree, Alert.sameKey_iff hk, not_forall, Int.not_le]
  constructor
  · exact fun ⟨b, hb, passes, same, lt⟩ => ⟨b, hb, passes, same, by omega⟩
  · exact fun ⟨b, hb, passes, same, lt⟩ => ⟨b, hb, passes, same, by omega⟩

/-- One more alert, with what the map says after it. -/
theorem concat (h : Remembers window now m history) {x : Arrival} (ht : x.time = now)
    (hx : x.passes ↔ IsFree window history now x.alert) {m' : OrderedMap Key Int}
    (distinct : OrderedMap.Distinct m')
    (live : ∀ k, (OrderedMap.get? m' k).filter (fun t => decide (now < t)) =
      suppressedUntil window now (history ++ [x]) k) : Remembers window now m' (history ++ [x]) where
  distinct := distinct
  sorted := List.pairwise_append.2 ⟨h.sorted, List.pairwise_singleton _ _, fun a ha b hb =>
    List.mem_singleton.1 hb ▸ ht ▸ h.past a ha⟩
  past a ha := by
    rcases List.mem_append.1 ha with ha | ha
    · exact h.past a ha
    · exact Int.le_of_eq (List.mem_singleton.1 ha ▸ ht)
  lawful := h.lawful.concat (ht ▸ hx)
  live := live

theorem suppress (h : Remembers window now m history) (hk : a.key.toKey = .ok k)
    (hs : suppresses m now k) : Remembers window now m (history ++ [⟨now, a, false⟩]) := by
  refine h.concat rfl ?_ h.distinct fun l => ?_
  · simpa using (h.suppresses_iff hk).1 hs
  · rw [h.live, suppressedUntil, suppressedUntil, Arrival.lastPass_concat]
    simp

theorem pass (h : Remembers window now m history) (hk : a.key.toKey = .ok k)
    (hs : ¬ suppresses m now k) :
    Remembers window now (OrderedMap.set m k (now + window)) (history ++ [⟨now, a, true⟩]) := by
  refine h.concat rfl ?_ (h.distinct.set k _) fun l => ?_
  · simpa [h.suppresses_iff hk] using hs
  · have := h.live l
    unfold suppressedUntil at this ⊢
    rw [OrderedMap.get?_set, Arrival.lastPass_concat, Alert.hasKey_eq hk]
    by_cases hkl : k == l
    · simp [hkl]
    · simpa [hkl] using this

/-- Forgetting what is over leaves the suppressions that are live, and those only. -/
theorem forget (h : Remembers window now m history) :
    let kept := m.filter fun e => !decide (e.2 ≤ now)
    Remembers window now kept history ∧
      (∀ k, OrderedMap.get? kept k = suppressedUntil window now history k) ∧
      ∀ e ∈ kept, now < e.2 := by
  intro kept
  have kept_eq (k : Key) : OrderedMap.get? kept k = suppressedUntil window now history k := by
    have flip : (fun t => !decide (t ≤ now)) = fun t => decide (now < t) := by
      funext t
      rw [← decide_not]
      exact decide_eq_decide.2 Int.not_le
    rw [← h.live, ← flip]
    exact OrderedMap.get?_filter h.distinct (fun t => !decide (t ≤ now)) k
  refine ⟨⟨h.distinct.filter _, h.sorted, h.past, h.lawful, fun k => ?_⟩, kept_eq, fun e he => ?_⟩
  · rw [kept_eq, suppressedUntil, filter_filter_of_le (Int.le_refl _)]
  · simpa [kept] using (List.mem_filter.1 he).2

end Remembers

/-! ### Runs -/

section Batch
variable {window now : Int} {m : OrderedMap Key Int} {history : List Arrival} {a : Alert} {k : Key}
  {rest : List Alert}

theorem sift_cons_of_suppresses (hk : a.key.toKey = .ok k) (hs : suppresses m now k) :
    sift window now m (a :: rest) = sift window now m rest := by
  simp [sift, Deduper.pass, hk, hs, bind, Except.bind, pure, Except.pure]

theorem sift_cons_of_not_suppresses (hk : a.key.toKey = .ok k) (hs : ¬ suppresses m now k) :
    sift window now m (a :: rest) =
      { sift window now (OrderedMap.set m k (now + window)) rest with
        passed := a :: (sift window now (OrderedMap.set m k (now + window)) rest).passed } := by
  simp [sift, Deduper.pass, hk, hs, bind, Except.bind, pure, Except.pure, Clock.after]

/-- A batch extends the history that the map remembers. -/
theorem sift_remembers (alerts : List Alert) (keys : ∀ a ∈ alerts, ∃ k, a.key.toKey = .ok k)
    (h : Remembers window now m history) :
    ∃ arrivals, Arrival.OfBatch ⟨now, alerts⟩ arrivals ∧
      (sift window now m alerts).fault = none ∧
      (sift window now m alerts).passed = Arrival.passing arrivals ∧
      Remembers window now (sift window now m alerts).suppressed (history ++ arrivals) := by
  induction alerts generalizing m history with
  | nil => exact ⟨[], ⟨rfl, by simp⟩, rfl, rfl, by simpa [sift] using h⟩
  | cons a rest ih =>
    obtain ⟨⟨k, hk⟩, keys⟩ := List.forall_mem_cons.1 keys
    by_cases hs : suppresses m now k
    · obtain ⟨arrivals, ⟨halerts, htimes⟩, hfault, hpassed, hr⟩ := ih keys (h.suppress hk hs)
      rw [sift_cons_of_suppresses hk hs]
      refine ⟨⟨now, a, false⟩ :: arrivals, ⟨?_, ?_⟩, hfault, hpassed, ?_⟩
      · rw [List.map_cons, halerts]
      · exact List.forall_mem_cons.2 ⟨rfl, htimes⟩
      · rwa [List.append_assoc, List.singleton_append] at hr
    · obtain ⟨arrivals, ⟨halerts, htimes⟩, hfault, hpassed, hr⟩ := ih keys (h.pass hk hs)
      rw [sift_cons_of_not_suppresses hk hs]
      refine ⟨⟨now, a, true⟩ :: arrivals, ⟨?_, ?_⟩, hfault, ?_, ?_⟩
      · rw [List.map_cons, halerts]
      · exact List.forall_mem_cons.2 ⟨rfl, htimes⟩
      · simp only [hpassed]
        rfl
      · rwa [List.append_assoc, List.singleton_append] at hr

end Batch

/-- After a batch at the time `now` the deduper keeps the live suppressions and nothing else. -/
structure KeepsLive (now : Int) (d : Deduper Int) (history : List Arrival) : Prop where
  kept : ∀ k, OrderedMap.get? d.suppressed k = suppressedUntil d.window now history k
  forgotten : ∀ e ∈ d.suppressed, now < e.2

variable {now : Int} {d : Deduper Int} {history : List Arrival}

theorem filter_remembers (hw : 0 < d.window) (b : Batch) (keys : ∀ a ∈ b.alerts, ∃ k, a.key.toKey = .ok k)
    (h : Remembers d.window b.now d.suppressed history) :
    ∃ arrivals d', Arrival.OfBatch b arrivals ∧
      d.filter b.now b.alerts = (.ok (Arrival.passing arrivals), d') ∧ d'.window = d.window ∧
      Remembers d.window b.now d'.suppressed (history ++ arrivals) ∧
      KeepsLive b.now d' (history ++ arrivals) := by
  obtain ⟨arrivals, hb, hfault, hpassed, hr⟩ := sift_remembers b.alerts keys h
  obtain ⟨hr, kept, forgotten⟩ := hr.forget
  let live := (sift d.window b.now d.suppressed b.alerts).suppressed.filter fun e => !decide (e.2 ≤ b.now)
  refine ⟨arrivals, { d with suppressed := live }, hb, ?_, rfl, hr, kept, forgotten⟩
  simp only [filter, Int.not_le.2 hw, if_false, hfault, hpassed, live]

theorem run_remembers (hw : 0 < d.window) (batches : List Batch) (order : Batch.InOrder batches)
    (keys : Batch.HaveKeys batches) (h : Remembers d.window now d.suppressed history)
    (start : ∀ b ∈ batches, now ≤ b.now) :
    ∃ more : List (List Arrival), List.Forall₂ Arrival.OfBatch batches more ∧
      (d.run batches).1 = more.map (fun arrivals => .ok (Arrival.passing arrivals)) ∧
      (∃ now m, Remembers d.window now m (history ++ more.flatten)) ∧
      ∀ n b, batches[n]? = some b → (d.run (batches.take (n + 1))).2.window = d.window ∧
        KeepsLive b.now (d.run (batches.take (n + 1))).2 (history ++ (more.take (n + 1)).flatten) := by
  induction batches generalizing d now history with
  | nil => exact ⟨[], .nil, rfl, ⟨now, d.suppressed, by simpa using h⟩, by simp⟩
  | cons b rest ih =>
    obtain ⟨hb, order⟩ := List.pairwise_cons.1 order
    obtain ⟨hkeys, keys⟩ := List.forall_mem_cons.1 keys
    obtain ⟨arrivals, d', harr, hfilter, hwin, hr, hlive⟩ :=
      filter_remembers hw b hkeys (h.later (start b (.head _)))
    rw [← hwin] at hw hr
    obtain ⟨more, hmore, hresults, hlast, hkept⟩ := ih hw order keys hr hb
    refine ⟨arrivals :: more, .cons harr hmore, ?_, ?_, fun n c hc => ?_⟩
    · simp only [run, hfilter, hresults, List.map_cons]
    · rwa [hwin, List.append_assoc] at hlast
    · cases n with
      | zero =>
        obtain rfl := Option.some.inj hc
        simpa [run, hfilter, hwin] using hlive
      | succ n =>
        have := hkept n c hc
        rw [hwin, List.append_assoc] at this
        simpa only [run, hfilter, List.take_succ_cons, List.flatten_cons] using this

/-- The law of suppression, for every run of a new deduper whose clock never goes back. -/
theorem run_windowLaw {window : Int} (hw : 0 < window) (batches : List Batch)
    (order : Batch.InOrder batches) (keys : Batch.HaveKeys batches) :
    ∃ history, WindowLaw window batches history := by
  -- The clock readings have a lower bound, from which on the empty map remembers the empty history.
  obtain ⟨start, hstart⟩ : ∃ t, ∀ b ∈ batches, t ≤ b.now := by
    cases batches with
    | nil => exact ⟨0, by simp⟩
    | cons b rest => exact ⟨b.now, List.forall_mem_cons.2 ⟨Int.le_refl _, (List.pairwise_cons.1 order).1⟩⟩
  obtain ⟨history, harr, hresults, ⟨now, m, hr⟩, hkept⟩ :=
    run_remembers (d := { window }) hw batches order keys (.empty window start) hstart
  rw [List.nil_append] at hr
  refine ⟨history, harr, hresults, hr.lawful, hr.lawful.apart,
    fun before a after heq => hr.lawful.preceded hr.sorted heq, fun n b hb k => ?_, fun n b hb => ?_⟩
  · have := (hkept n b hb).2.kept k
    rwa [(hkept n b hb).1, List.nil_append] at this
  · exact (hkept n b hb).2.forgotten

/-- A repetition in one batch, one right before the end of the window and one at its end. -/
theorem run_windowLaw_boundary :
    let batches : List Batch := [⟨0, [{ dedupKey := "k" }, { dedupKey := "k" }]⟩,
      ⟨9, [{ dedupKey := "k" }, { dedupKey := "l" }]⟩, ⟨10, [{ dedupKey := "k" }]⟩]
    (0 < (10 : Int) ∧ Batch.InOrder batches ∧ Batch.HaveKeys batches) ∧
      ∃ history, WindowLaw 10 batches history := by
  intro batches
  have order : Batch.InOrder batches := by simp [Batch.InOrder, batches]
  have keys : Batch.HaveKeys batches := by
    simp [Batch.HaveKeys, batches, Alert.key, Value.orElse, Value.isEmpty, Value.toKey]
  exact ⟨⟨by decide, order, keys⟩, run_windowLaw (by decide) batches order keys⟩

end HostWatch.Deduper
