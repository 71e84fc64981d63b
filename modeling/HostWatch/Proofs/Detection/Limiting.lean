import HostWatch.Proofs.Detection.Arrival
import HostWatch.Proofs.Detection.Flags
import HostWatch.Proofs.OrderedMap

/-!
# The law of rates

The arrivals of each key are cut into windows: one opens at the first arrival that no window covers,
and covers what comes less than its length later. A `RateLimiter` passes the first `burst` arrivals of
each window and flags the others (`RateLimiter.run_limitLaw`). What carries the proof is `Counts`: for
every key the limiter notes when its last window ends and how many arrivals of it have passed.
-/

namespace HostWatch

/-- What a limiter says of an arrival: the alert, flagged if it does not pass, and whether it passes. -/
def Arrival.metered (a : Arrival) : Alert × Bool :=
  (if a.passes then a.alert else { a.alert with rateLimited := true }, a.passes)

namespace RateLimiter

/-- What comes of one batch after another. -/
def run (l : RateLimiter Int) : List Batch → List (Except Fault (List (Alert × Bool))) × RateLimiter Int
  | [] => ([], l)
  | b :: rest =>
    let (metered, l) := l.filter b.now b.alerts
    let (more, l) := l.run rest
    (metered :: more, l)

/-- The arrivals that one window covers. -/
structure Window where
  first : Arrival
  rest : List Arrival

namespace Window

def arrivals (w : Window) : List Arrival := w.first :: w.rest

/-- Exactly the first `burst` arrivals pass. -/
structure FirstPass (burst : Nat) (w : Window) : Prop where
  first : ∀ a ∈ w.arrivals.take burst, a.passes
  others : ∀ a ∈ w.arrivals.drop burst, a.passes = false

end Window

/-- Arrivals are cut into windows of a length: each covers what comes less than this after its first
arrival, and what comes later opens the next. -/
structure CutInto (length : Int) (arrivals : List Arrival) (windows : List Window) : Prop where
  all : windows.flatMap Window.arrivals = arrivals
  covered : ∀ w ∈ windows, ∀ a ∈ w.rest, w.first.time ≤ a.time ∧ a.time < w.first.time + length
  apart : windows.Pairwise fun v w => v.first.time + length ≤ w.first.time

/-- The arrivals of a key. -/
def ofKey (k : Key) (history : List Arrival) : List Arrival := history.filter fun a => a.alert.hasKey k

/-- What passes at a time `t` or less than `length` after it. -/
def passedWithin (length t : Int) (arrivals : List Arrival) : List Arrival :=
  arrivals.filter fun a => a.passes && (decide (t ≤ a.time) && decide (a.time < t + length))

/-- What a run of a limiter has done, told by the history of all arrivals. -/
structure LimitLaw (window : Int) (burst : Nat) (batches : List Batch) (history : List (List Arrival)) :
    Prop where
  /-- The history names the alerts of each batch. -/
  arrivals : List.Forall₂ Arrival.OfBatch batches history
  /-- Each batch comes back in its order, flagged where an alert does not pass. -/
  results : (run { window, burst := .int burst } batches).1 =
    history.map fun arrivals => .ok (arrivals.map Arrival.metered)
  /-- Returned is what passes; these are the alerts that are not flagged. -/
  returned : ∀ arrivals ∈ history, passedOf (arrivals.map Arrival.metered) = Arrival.passing arrivals ∧
    Arrival.passing arrivals = ((arrivals.map Arrival.metered).map Prod.fst).filter fun a => !a.rateLimited
  /-- Of every window of a key exactly the first arrivals pass. -/
  windows : ∀ k, ∃ windows, CutInto window (ofKey k history.flatten) windows ∧
    ∀ w ∈ windows, w.FirstPass burst
  /-- In no time as long as a window more than two bursts of a key pass. -/
  few : ∀ k t, (passedWithin window t (ofKey k history.flatten)).length ≤ 2 * burst

/-! ### Windows -/

section Windows
variable {length t : Int} {burst : Nat} {arrivals : List Arrival} {windows init : List Window} {v w : Window}
  {x : Arrival}

theorem CutInto.mem (h : CutInto length arrivals windows) (hw : w ∈ windows) : w.first ∈ arrivals := by
  rw [← h.all]
  exact List.mem_flatMap.2 ⟨w, hw, .head _⟩

/-- An arrival while the last window is open. -/
theorem CutInto.cover (h : CutInto length arrivals (init ++ [v])) (hle : v.first.time ≤ x.time)
    (hlt : x.time < v.first.time + length) :
    CutInto length (arrivals ++ [x]) (init ++ [⟨v.first, v.rest ++ [x]⟩]) where
  all := by
    rw [← h.all]
    simp [Window.arrivals]
  covered w hw a ha := by
    rcases List.mem_append.1 hw with hw | hw
    · exact h.covered w (List.mem_append_left _ hw) a ha
    · rw [List.mem_singleton.1 hw] at ha ⊢
      rcases List.mem_append.1 ha with ha | ha
      · exact h.covered v (by simp) a ha
      · rw [List.mem_singleton.1 ha]
        exact ⟨hle, hlt⟩
  apart := by
    obtain ⟨hinit, -, hlast⟩ := List.pairwise_append.1 h.apart
    refine List.pairwise_append.2 ⟨hinit, List.pairwise_singleton _ _, fun w hw u hu => ?_⟩
    rw [List.mem_singleton.1 hu]
    exact hlast w hw v (by simp)

/-- An arrival when no window is open. -/
theorem CutInto.open (h : CutInto length arrivals windows)
    (ended : ∀ w ∈ windows, w.first.time + length ≤ x.time) :
    CutInto length (arrivals ++ [x]) (windows ++ [⟨x, []⟩]) where
  all := by
    rw [← h.all]
    simp [Window.arrivals]
  covered w hw a ha := by
    rcases List.mem_append.1 hw with hw | hw
    · exact h.covered w hw a ha
    · rw [List.mem_singleton.1 hw] at ha
      cases ha
  apart := List.pairwise_append.2 ⟨h.apart, List.pairwise_singleton _ _, fun w hw u hu =>
    List.mem_singleton.1 hu ▸ ended w hw⟩

theorem CutInto.allEnded (h : CutInto length arrivals (init ++ [v])) (hpos : 0 < length)
    (hlast : v.first.time + length ≤ t) : ∀ w ∈ init ++ [v], w.first.time + length ≤ t := by
  intro w hw
  rcases List.mem_append.1 hw with hw | hw
  · have before := (List.pairwise_append.1 h.apart).2.2 w hw v (by simp)
    omega
  · rw [List.mem_singleton.1 hw]
    exact hlast

theorem Window.FirstPass.within_le (h : w.FirstPass burst) (length t : Int) :
    (passedWithin length t w.arrivals).length ≤ burst := by
  have others : passedWithin length t (w.arrivals.drop burst) = [] := by
    rw [passedWithin, List.filter_eq_nil_iff]
    intro a ha
    simp [h.others a ha]
  have first : (passedWithin length t (w.arrivals.take burst)).length ≤ burst :=
    Nat.le_trans (List.length_filter_le _ _) (List.length_take_le _ _)
  rw [← List.take_append_drop burst w.arrivals, passedWithin, List.filter_append, List.length_append]
  change (passedWithin length t _).length + (passedWithin length t _).length ≤ burst
  rw [others]
  exact first

theorem within_flatMap_cons (w : Window) (windows : List Window) :
    (passedWithin length t ((w :: windows).flatMap Window.arrivals)).length =
      (passedWithin length t w.arrivals).length +
        (passedWithin length t (windows.flatMap Window.arrivals)).length := by
  rw [List.flatMap_cons, passedWithin, List.filter_append, List.length_append]
  rfl

/-- The windows of a key, without the arrivals that they come from. -/
structure Spaced (length : Int) (windows : List Window) : Prop where
  covered : ∀ w ∈ windows, ∀ a ∈ w.arrivals, w.first.time ≤ a.time ∧ a.time < w.first.time + length
  apart : windows.Pairwise fun v w => v.first.time + length ≤ w.first.time

theorem CutInto.spaced (h : CutInto length arrivals windows) (hpos : 0 < length) : Spaced length windows where
  covered w hw a ha := by
    rcases List.mem_cons.1 ha with rfl | ha
    · omega
    · exact h.covered w hw a ha
  apart := h.apart

theorem Spaced.tail (h : Spaced length (w :: windows)) : Spaced length windows :=
  ⟨fun v hv => h.covered v (.tail _ hv), (List.pairwise_cons.1 h.apart).2⟩

theorem Spaced.within_late (h : Spaced length windows) (late : ∀ w ∈ windows, t + length ≤ w.first.time) :
    passedWithin length t (windows.flatMap Window.arrivals) = [] := by
  rw [passedWithin, List.filter_eq_nil_iff]
  intro a ha
  obtain ⟨w, hw, ha⟩ := List.mem_flatMap.1 ha
  have := late w hw
  have := (h.covered w hw a ha).1
  simp only [Bool.and_eq_true, decide_eq_true_eq]
  omega

/-- If every window begins after `t`, only the first of them can begin early enough to count. -/
theorem Spaced.within_begun (h : Spaced length windows) (hfirst : ∀ w ∈ windows, w.FirstPass burst)
    (begun : ∀ w ∈ windows, t ≤ w.first.time) :
    (passedWithin length t (windows.flatMap Window.arrivals)).length ≤ burst := by
  cases windows with
  | nil => exact Nat.zero_le _
  | cons w rest =>
    have late : ∀ v ∈ rest, t + length ≤ v.first.time := by
      intro v hv
      have := begun w (.head _)
      have := (List.pairwise_cons.1 h.apart).1 v hv
      omega
    rw [within_flatMap_cons, h.tail.within_late late]
    exact (hfirst w (.head _)).within_le length t

theorem Spaced.within_le (h : Spaced length windows) (hfirst : ∀ w ∈ windows, w.FirstPass burst) (t : Int) :
    (passedWithin length t (windows.flatMap Window.arrivals)).length ≤ 2 * burst := by
  induction windows with
  | nil => exact Nat.zero_le _
  | cons w rest ih =>
    obtain ⟨hw, hrest⟩ := List.forall_mem_cons.1 hfirst
    rw [within_flatMap_cons]
    by_cases hover : w.first.time + length ≤ t
    · -- the first window is over at `t`
      have none : passedWithin length t w.arrivals = [] := by
        rw [passedWithin, List.filter_eq_nil_iff]
        intro a ha
        have := (h.covered w (.head _) a ha).2
        simp only [Bool.and_eq_true, decide_eq_true_eq]
        omega
      rw [none]
      have := ih h.tail hrest
      simpa using this
    · -- it is still open after `t`, so the others begin after `t`, and only the first of them counts
      have begun : ∀ v ∈ rest, t ≤ v.first.time := by
        intro v hv
        have := (List.pairwise_cons.1 h.apart).1 v hv
        omega
      have first := hw.within_le length t
      have others := h.tail.within_begun hrest begun
      omega

end Windows

/-! ### What the limiter notes -/

/-- What is noted of a key once a window of it is opened. -/
def Window.note (length : Int) (burst : Nat) (w : Window) : RateWindow Int :=
  ⟨min burst w.arrivals.length, w.first.time + length⟩

/-- What is noted of a key fits the windows that its arrivals are cut into. -/
structure Tallies (length : Int) (burst : Nat) (noted : Option (RateWindow Int)) (arrivals : List Arrival)
    (windows : List Window) : Prop where
  cut : CutInto length arrivals windows
  firstPass : ∀ w ∈ windows, w.FirstPass burst
  noted : noted = windows.getLast?.map (Window.note length burst)

/-- The window that an arrival at the time `now` falls into, going by what is noted. -/
def current (length now : Int) (noted : Option (RateWindow Int)) : RateWindow Int :=
  (noted.filter fun w => !decide (w.ends ≤ now)).getD ⟨0, now + length⟩

/-- A window after one more arrival. -/
def count (burst : Nat) (w : RateWindow Int) : RateWindow Int :=
  if w.passed < burst then { w with passed := w.passed + 1 } else w

/-- For every key the limiter notes the windows of a history. -/
structure Counts (length : Int) (burst : Nat) (now : Int) (m : OrderedMap Key (RateWindow Int))
    (history : List Arrival) : Prop where
  past : ∀ a ∈ history, a.time ≤ now
  tallies : ∀ k, ∃ windows, Tallies length burst (OrderedMap.get? m k) (ofKey k history) windows

section Tallies
variable {length : Int} {burst : Nat} {noted : Option (RateWindow Int)} {arrivals : List Arrival}
  {windows init : List Window} {v w : Window} {x : Arrival}

theorem Window.FirstPass.cover (h : v.FirstPass burst) (hx : x.passes = decide (v.arrivals.length < burst)) :
    Window.FirstPass burst ⟨v.first, v.rest ++ [x]⟩ := by
  have all : (⟨v.first, v.rest ++ [x]⟩ : Window).arrivals = v.arrivals ++ [x] := rfl
  constructor
  · intro a ha
    rw [all, List.take_append] at ha
    rcases List.mem_append.1 ha with ha | ha
    · exact h.first a ha
    · have room : v.arrivals.length < burst := by
        by_contra hfull
        rw [Nat.sub_eq_zero_of_le (Nat.le_of_not_lt hfull)] at ha
        cases ha
      rw [List.mem_singleton.1 (List.mem_of_mem_take ha), hx]
      exact decide_eq_true room
  · intro a ha
    rw [all, List.drop_append] at ha
    rcases List.mem_append.1 ha with ha | ha
    · exact h.others a ha
    · have full : ¬ v.arrivals.length < burst := by
        intro hroom
        rw [List.drop_eq_nil_of_le (by simp; omega)] at ha
        cases ha
      rw [List.mem_singleton.1 (List.mem_of_mem_drop ha), hx]
      exact decide_eq_false full

theorem firstPass_single (hburst : 0 < burst) (hx : x.passes = true) : Window.FirstPass burst ⟨x, []⟩ where
  first a ha := by
    rw [List.mem_singleton.1 (List.mem_of_mem_take ha)]
    exact hx
  others a ha := by
    rw [List.drop_eq_nil_of_le (show (Window.arrivals ⟨x, []⟩).length ≤ burst from hburst)] at ha
    cases ha

theorem Window.note_cover : Window.note length burst ⟨v.first, v.rest ++ [x]⟩ =
    count burst (Window.note length burst v) := by
  have all : (⟨v.first, v.rest ++ [x]⟩ : Window).arrivals.length = v.arrivals.length + 1 := by
    simp [Window.arrivals]
  by_cases hroom : (Window.note length burst v).passed < burst
  · rw [count, if_pos hroom]
    simp only [Window.note, all, RateWindow.mk.injEq, and_true] at hroom ⊢
    omega
  · rw [count, if_neg hroom]
    simp only [Window.note, all, RateWindow.mk.injEq, and_true] at hroom ⊢
    omega

/-- One more arrival of a key. -/
theorem Tallies.arrive (h : Tallies length burst noted arrivals windows) (hpos : 0 < length) (hburst : 0 < burst)
    (past : ∀ a ∈ arrivals, a.time ≤ x.time)
    (hx : x.passes = decide ((current length x.time noted).passed < burst)) :
    ∃ windows, Tallies length burst (some (count burst (current length x.time noted))) (arrivals ++ [x])
      windows := by
  by_cases hopen : ∃ init v, windows = init ++ [v] ∧ x.time < v.first.time + length
  · obtain ⟨init, v, rfl, hlt⟩ := hopen
    have hnoted : noted = some (v.note length burst) := by simpa using h.noted
    have hcurrent : current length x.time noted = v.note length burst := by
      have : ¬ (v.note length burst).ends ≤ x.time := by simpa [Window.note] using hlt
      simp [current, hnoted, Option.filter, this]
    rw [hcurrent] at hx ⊢
    have hx : x.passes = decide (v.arrivals.length < burst) := by
      rw [hx, decide_eq_decide]
      show min burst v.arrivals.length < burst ↔ _
      omega
    refine ⟨_, h.cut.cover (past _ (h.cut.mem (by simp))) hlt, fun w hw => ?_, ?_⟩
    · rcases List.mem_append.1 hw with hw | hw
      · exact h.firstPass w (List.mem_append_left _ hw)
      · rw [List.mem_singleton.1 hw]
        exact (h.firstPass v (by simp)).cover hx
    · simp [Window.note_cover]
  · have ended : ∀ w ∈ windows, w.first.time + length ≤ x.time := by
      rcases List.eq_nil_or_concat windows with rfl | ⟨init, v, rfl⟩
      · simp
      · rw [List.concat_eq_append] at h hopen ⊢
        refine h.cut.allEnded hpos ?_
        by_contra hlt
        exact hopen ⟨init, v, rfl, by omega⟩
    have hcurrent : current length x.time noted = ⟨0, x.time + length⟩ := by
      unfold current
      rw [h.noted]
      cases hlast : windows.getLast? with
      | none => rfl
      | some v =>
        have : (v.note length burst).ends ≤ x.time := ended v (List.mem_of_getLast? hlast)
        simp [Option.filter, this]
    rw [hcurrent] at hx ⊢
    have hx : x.passes = true := by simpa [hburst] using hx
    refine ⟨_, h.cut.open ended, fun w hw => ?_, ?_⟩
    · rcases List.mem_append.1 hw with hw | hw
      · exact h.firstPass w hw
      · rw [List.mem_singleton.1 hw]
        exact firstPass_single hburst hx
    · simp [Window.note, Window.arrivals, count, hburst]
      omega

end Tallies

/-! ### Runs -/

section Runs
variable {window now : Int} {burst : Nat} {m : OrderedMap Key (RateWindow Int)} {history : List Arrival}
  {a : Alert} {k : Key} {rest : List Alert} {l : RateLimiter Int}

theorem ofKey_concat (x : Arrival) :
    ofKey k (history ++ [x]) = if x.alert.hasKey k then ofKey k history ++ [x] else ofKey k history := by
  unfold ofKey
  rw [List.filter_append]
  by_cases h : x.alert.hasKey k <;> simp [h]

theorem Counts.later (h : Counts window burst now m history) {t : Int} (hle : now ≤ t) :
    Counts window burst t m history :=
  ⟨fun a ha => Int.le_trans (h.past a ha) hle, h.tallies⟩

/-- The arrival of an alert that is counted under the key `k`. -/
def arrival (window : Int) (burst : Nat) (now : Int) (m : OrderedMap Key (RateWindow Int)) (k : Key)
    (a : Alert) : Arrival :=
  ⟨now, a, decide ((current window now (OrderedMap.get? m k)).passed < burst)⟩

/-- The notes after that arrival. -/
def counted (window : Int) (burst : Nat) (now : Int) (m : OrderedMap Key (RateWindow Int)) (k : Key) :
    OrderedMap Key (RateWindow Int) :=
  OrderedMap.set m k (count burst (current window now (OrderedMap.get? m k)))

theorem Counts.arrive (h : Counts window burst now m history) (hpos : 0 < window) (hburst : 0 < burst)
    (hk : a.key.toKey = .ok k) :
    Counts window burst now (counted window burst now m k) (history ++ [arrival window burst now m k a]) := by
  constructor
  · intro b hb
    rcases List.mem_append.1 hb with hb | hb
    · exact h.past b hb
    · rw [List.mem_singleton.1 hb]
      exact Int.le_refl _
  · intro l
    obtain ⟨windows, tallies⟩ := h.tallies l
    rw [ofKey_concat, counted, OrderedMap.get?_set]
    have hasKey : (arrival window burst now m k a).alert.hasKey l = (k == l) := Alert.hasKey_eq hk
    rw [hasKey]
    by_cases hkl : k == l
    · rw [if_pos hkl, if_pos hkl, OrderedMap.get?_congr m hkl]
      have past : ∀ b ∈ ofKey l history, b.time ≤ (arrival window burst now m k a).time :=
        fun b hb => h.past b (List.mem_of_mem_filter hb)
      have passes : (arrival window burst now m k a).passes =
          decide ((current window now (OrderedMap.get? m l)).passed < burst) := by
        rw [← OrderedMap.get?_congr m hkl]
        rfl
      exact tallies.arrive (x := arrival window burst now m k a) hpos hburst past passes
    · rw [if_neg hkl, if_neg hkl]
      exact ⟨windows, tallies⟩

theorem windowAt_eq : windowAt window now m k = .ok (current window now (OrderedMap.get? m k)) := by
  unfold windowAt current open?
  cases (OrderedMap.get? m k).filter fun w => !decide (w.ends ≤ now) <;> rfl

theorem meter_cons (hk : a.key.toKey = .ok k) :
    meter window (.int burst) now m (a :: rest) =
      { meter window (.int burst) now (counted window burst now m k) rest with
        metered := (arrival window burst now m k a).metered ::
          (meter window (.int burst) now (counted window burst now m k) rest).metered } := by
  rw [meter, hk]
  simp only [windowAt_eq, Number.int_le_int, Int.ofNat_le, counted]
  by_cases hfull : burst ≤ (current window now (OrderedMap.get? m k)).passed
  · simp [hfull, arrival, Arrival.metered, count, Nat.not_lt.2 hfull]
  · simp [hfull, arrival, Arrival.metered, count, Nat.lt_of_not_le hfull]

/-- A batch extends the history whose windows are noted. -/
theorem meter_counts (hpos : 0 < window) (hburst : 0 < burst) (alerts : List Alert)
    (keys : ∀ a ∈ alerts, ∃ k, a.key.toKey = .ok k) (h : Counts window burst now m history) :
    ∃ arrivals, Arrival.OfBatch ⟨now, alerts⟩ arrivals ∧
      (meter window (.int burst) now m alerts).fault = none ∧
      (meter window (.int burst) now m alerts).metered = arrivals.map Arrival.metered ∧
      Counts window burst now (meter window (.int burst) now m alerts).windows (history ++ arrivals) := by
  induction alerts generalizing m history with
  | nil => exact ⟨[], ⟨rfl, by simp⟩, rfl, rfl, by simpa [meter] using h⟩
  | cons a rest ih =>
    obtain ⟨⟨k, hk⟩, keys⟩ := List.forall_mem_cons.1 keys
    obtain ⟨arrivals, ⟨halerts, htimes⟩, hfault, hmetered, hcounts⟩ := ih keys (h.arrive hpos hburst hk)
    rw [meter_cons hk]
    refine ⟨arrival window burst now m k a :: arrivals, ⟨?_, ?_⟩, hfault, ?_, ?_⟩
    · rw [List.map_cons, halerts]
      rfl
    · exact List.forall_mem_cons.2 ⟨rfl, htimes⟩
    · rw [List.map_cons, hmetered]
    · rwa [List.append_assoc, List.singleton_append] at hcounts

theorem filter_counts (hpos : 0 < l.window) (hburst : 0 < burst) (hl : l.burst = .int burst) (b : Batch)
    (keys : ∀ a ∈ b.alerts, ∃ k, a.key.toKey = .ok k) (h : Counts l.window burst b.now l.windows history) :
    ∃ arrivals l', Arrival.OfBatch b arrivals ∧
      l.filter b.now b.alerts = (.ok (arrivals.map Arrival.metered), l') ∧
      l'.window = l.window ∧ l'.burst = l.burst ∧
      Counts l.window burst b.now l'.windows (history ++ arrivals) := by
  obtain ⟨arrivals, hb, hfault, hmetered, hcounts⟩ := meter_counts hpos hburst b.alerts keys h
  refine ⟨arrivals, { l with windows := (meter l.window l.burst b.now l.windows b.alerts).windows }, hb, ?_,
    rfl, rfl, hl ▸ hcounts⟩
  have positive : ¬ (l.window ≤ 0 ∨ Number.int burst ≤ 0) := by
    rintro (hle | hle)
    · omega
    · have : (burst : Int) ≤ 0 := Number.int_le_int.1 hle
      omega
  simp only [filter, hl, if_neg positive, hfault, hmetered]

theorem run_counts (hpos : 0 < l.window) (hburst : 0 < burst) (hl : l.burst = .int burst) (batches : List Batch)
    (order : Batch.InOrder batches) (keys : Batch.HaveKeys batches)
    (h : Counts l.window burst now l.windows history) (start : ∀ b ∈ batches, now ≤ b.now) :
    ∃ more : List (List Arrival), List.Forall₂ Arrival.OfBatch batches more ∧
      (l.run batches).1 = more.map (fun arrivals => .ok (arrivals.map Arrival.metered)) ∧
      ∃ now m, Counts l.window burst now m (history ++ more.flatten) := by
  induction batches generalizing l now history with
  | nil => exact ⟨[], .nil, rfl, now, l.windows, by simpa using h⟩
  | cons b rest ih =>
    obtain ⟨hb, order⟩ := List.pairwise_cons.1 order
    obtain ⟨hkeys, keys⟩ := List.forall_mem_cons.1 keys
    obtain ⟨arrivals, l', harr, hfilter, hwindow, hlimit, hcounts⟩ :=
      filter_counts hpos hburst hl b hkeys (h.later (start b (.head _)))
    rw [← hwindow] at hpos hcounts
    obtain ⟨more, hmore, hresults, hlast⟩ := ih hpos (hlimit.trans hl) order keys hcounts hb
    refine ⟨arrivals :: more, .cons harr hmore, ?_, ?_⟩
    · simp only [run, hfilter, hresults, List.map_cons]
    · rwa [hwindow, List.append_assoc] at hlast

theorem counts_empty (window now : Int) (burst : Nat) : Counts window burst now [] [] where
  past := by simp
  tallies _ := ⟨[], ⟨rfl, by simp, .nil⟩, by simp, rfl⟩

end Runs

/-- A batch that comes unflagged leaves unflagged exactly what passes. -/
theorem passing_eq_unflagged {b : Batch} {arrivals : List Arrival} (h : Arrival.OfBatch b arrivals)
    (unflagged : ∀ a ∈ b.alerts, a.rateLimited = false) :
    passedOf (arrivals.map Arrival.metered) = Arrival.passing arrivals ∧
      Arrival.passing arrivals = ((arrivals.map Arrival.metered).map Prod.fst).filter fun a => !a.rateLimited := by
  have passed : passedOf (arrivals.map Arrival.metered) = Arrival.passing arrivals := by
    rw [passedOf, Arrival.passing, List.filter_map, List.map_map]
    refine List.map_congr_left fun a ha => ?_
    have passes : a.passes = true := (List.mem_filter.1 ha).2
    simp [Arrival.metered, passes]
  refine ⟨passed, ?_⟩
  rw [← passed]
  have metered : List.Forall₂ Detector.Metered b.alerts (arrivals.map Arrival.metered) := by
    rw [← h.1]
    exact List.forall₂_map_left_iff.2 (List.forall₂_map_right_iff.2 (List.forall₂_same.2 fun a _ => rfl))
  exact Detector.passedOf_eq_filter metered unflagged

/-- The law of rates, for every run of a new limiter whose clock never goes back and whose alerts come
unflagged, as those of standard rules do; and for every limiter that detection uses, asking for the
flagged alerts too adds nothing but these. -/
theorem run_limitLaw {window : Int} (hpos : 0 < window) {burst : Nat} (hburst : 0 < burst)
    (batches : List Batch) (order : Batch.InOrder batches) (keys : Batch.HaveKeys batches)
    (unflagged : ∀ b ∈ batches, ∀ a ∈ b.alerts, a.rateLimited = false) :
    (∃ history, LimitLaw window burst batches history) ∧
    (∀ (τ : Type) [Clock τ] [LT τ] [LE τ] [DecidableLT τ] [DecidableLE τ] [OfNat τ 0] (d : Detector τ),
      (∀ r ∈ d.rules, r.LeavesUnflagged) → ∀ clock now s metadata,
        (d.evaluate clock now s metadata false).alerts = (d.evaluate clock now s metadata true).alerts.map
          fun alerts => alerts.filter fun a => !a.rateLimited) ∧
    ∀ r : Rule, r.IsStandard → r.LeavesUnflagged := by
  refine ⟨?_, fun τ _ _ _ _ _ _ d hrules clock now s metadata => ?_, fun r hr => hr.leavesUnflagged⟩
  · -- The clock readings have a lower bound, from which on nothing has been noted.
    obtain ⟨start, hstart⟩ : ∃ t, ∀ b ∈ batches, t ≤ b.now := by
      cases batches with
      | nil => exact ⟨0, by simp⟩
      | cons b rest => exact ⟨b.now, List.forall_mem_cons.2 ⟨Int.le_refl _, (List.pairwise_cons.1 order).1⟩⟩
    obtain ⟨history, harr, hresults, now, m, hcounts⟩ :=
      run_counts (l := { window, burst := .int burst }) hpos hburst rfl batches order keys
        (counts_empty window start burst) hstart
    rw [List.nil_append] at hcounts
    refine ⟨history, harr, hresults, fun arrivals harrivals => ?_, fun k => ?_, fun k t => ?_⟩
    · obtain ⟨b, hb, hof⟩ := exists_left_of_forall₂ harr harrivals
      exact passing_eq_unflagged hof (unflagged b hb)
    · obtain ⟨windows, tallies⟩ := hcounts.tallies k
      exact ⟨windows, tallies.cut, tallies.firstPass⟩
    · obtain ⟨windows, tallies⟩ := hcounts.tallies k
      have few := (tallies.cut.spaced hpos).within_le tallies.firstPass t
      rwa [tallies.cut.all] at few
  · exact (Detector.evaluate_unflagged hrules clock now s metadata).1

/-- A detector of processor load that raises at most one alert in ten seconds. -/
def throttled : Detector Int where
  rules := [.cpuHigh (.double 90)]
  limiter := some { window := 10, burst := 1 }
  ids := .default fun _ => 0

/-- Three alerts of one key in a batch of which two pass, one more before the end of their window and one
at its end. -/
theorem run_limitLaw_rollover :
    let batches : List Batch := [⟨0, [{ dedupKey := "k" }, { dedupKey := "k" }, { dedupKey := "k" }]⟩,
      ⟨9, [{ dedupKey := "k" }, { dedupKey := "l" }]⟩, ⟨10, [{ dedupKey := "k" }]⟩]
    (0 < (10 : Int) ∧ 0 < 2 ∧ Batch.InOrder batches ∧ Batch.HaveKeys batches ∧
      (∀ b ∈ batches, ∀ a ∈ b.alerts, a.rateLimited = false) ∧ ∀ r ∈ throttled.rules, r.LeavesUnflagged) ∧
      (∃ history, LimitLaw 10 2 batches history) ∧
      (throttled.evaluate 0 (.ofMicros 0) {} {} false).alerts =
        (throttled.evaluate 0 (.ofMicros 0) {} {} true).alerts.map
          fun alerts => alerts.filter fun a => !a.rateLimited := by
  intro batches
  have order : Batch.InOrder batches := by simp [Batch.InOrder, batches]
  have keys : Batch.HaveKeys batches := by
    simp [Batch.HaveKeys, batches, Alert.key, Value.orElse, Value.isEmpty, Value.toKey]
  have unflagged : ∀ b ∈ batches, ∀ a ∈ b.alerts, a.rateLimited = false := by simp [batches]
  have window : 0 < (10 : Int) := by decide
  have burst : 0 < 2 := by decide
  obtain ⟨law, evaluates, standard⟩ := run_limitLaw window burst batches order keys unflagged
  have rules : ∀ r ∈ throttled.rules, r.LeavesUnflagged := by
    intro r hr
    rw [List.mem_singleton.1 hr]
    exact standard _ (.cpuHigh _)
  exact ⟨⟨window, burst, order, keys, unflagged, rules⟩, law, evaluates Int throttled rules _ _ _ _⟩

end RateLimiter

end HostWatch
