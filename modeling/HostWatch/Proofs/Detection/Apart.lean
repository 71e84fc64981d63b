import HostWatch.Detection.Detector
import HostWatch.Proofs.Detection.Arrival
import HostWatch.Proofs.OrderedMap

/-!
# Keys are kept apart

A filter goes through alerts one by one (`Steps`). It keeps keys apart (`KeepsApart`) if an alert
changes nothing that is held for another key, and if what becomes of it is an answer to what is held
for its own. The alerts of a key then fare as if they came alone (`KeepsApart.answersTo`). Dedupers and
limiters keep keys apart (`Deduper.keepsApart`, `RateLimiter.keepsApart`), and what they return for a
batch is what their steps say (`Deduper.dedupe_of_steps`, `RateLimiter.limit_of_steps`).
-/

namespace HostWatch

section Steps
variable {σ ε β : Type}

/-- What becomes of alerts one by one, and the states before and afterwards. -/
inductive Steps (step : σ → Alert → β → σ → Prop) : σ → List (Alert × β) → σ → Prop
  | nil {s : σ} : Steps step s [] s
  | cons {s s' s'' : σ} {a : Alert} {b : β} {marks : List (Alert × β)} (one : step s a b s')
      (rest : Steps step s' marks s'') : Steps step s ((a, b) :: marks) s''

/-- The alerts that are counted under a key, in their order. -/
def withKey (k : Key) (marks : List (Alert × β)) : List (Alert × β) := marks.filter fun m => m.1.hasKey k

/-- What becomes of alerts of one key, going by what is held for it. -/
def answersTo (answer : ε → Alert → Except Fault (β × ε)) :
    ε → List Alert → Except Fault (List (Alert × β) × ε)
  | held, [] => .ok ([], held)
  | held, a :: rest => do
    let (b, held) ← answer held a
    let (marks, held) ← answersTo answer held rest
    return ((a, b) :: marks, held)

/-- What is held for a key is touched by no alert of another key, and it alone decides on those of its
own. -/
structure KeepsApart (view : σ → Key → ε) (answer : ε → Alert → Except Fault (β × ε))
    (step : σ → Alert → β → σ → Prop) : Prop where
  other : ∀ {s a b s' k}, step s a b s' → a.hasKey k = false → view s' k = view s k
  own : ∀ {s a b s' k}, step s a b s' → a.hasKey k = true → answer (view s k) a = .ok (b, view s' k)

variable {view : σ → Key → ε} {answer : ε → Alert → Except Fault (β × ε)} {step : σ → Alert → β → σ → Prop}
  {s s' : σ} {marks : List (Alert × β)}

/-- The alerts of a key fare as if they came alone. -/
theorem KeepsApart.answersTo (h : KeepsApart view answer step) (hs : Steps step s marks s') (k : Key) :
    answersTo answer (view s k) ((marks.map Prod.fst).filter (·.hasKey k)) =
      .ok (withKey k marks, view s' k) := by
  induction hs with
  | nil => rfl
  | @cons s s₁ s' a b marks one _ ih =>
    rcases hk : a.hasKey k with _ | _
    · rw [h.other one hk] at ih
      simpa [withKey, hk] using ih
    · have first := h.own one hk
      simp only [List.map_cons, List.filter_cons, hk, if_true, HostWatch.answersTo, first]
      simp [ih, bind, Except.bind, withKey, hk, pure, Except.pure]

end Steps

/-! ### Dedupers -/

namespace Deduper
variable {now : Number} {deduper deduper' : Option (Deduper Number)} {d d' : Deduper Number}
  {a : Alert} {k l : Key} {m : OrderedMap Key Number} {marks : List (Alert × Bool)}

/-- What a deduper does with one alert, if there is one and its window is positive. -/
inductive Step (now : Number) : Option (Deduper Number) → Alert → Bool → Option (Deduper Number) → Prop
  | idle {deduper : Option (Deduper Number)} {a : Alert} (h : ∀ d ∈ deduper, d.window ≤ 0) :
      Step now deduper a true deduper
  | holds {d : Deduper Number} {a : Alert} (hw : ¬ d.window ≤ 0)
      (h : pass d.window now d.suppressed a = .ok none) : Step now (some d) a false (some d)
  | passes {d : Deduper Number} {a : Alert} {m : OrderedMap Key Number} (hw : ¬ d.window ≤ 0)
      (h : pass d.window now d.suppressed a = .ok (some m)) :
      Step now (some d) a true (some { d with suppressed := m })

/-- What a deduper goes by for a key: its window, and until when the key is suppressed. -/
abbrev Held := Option (Number × Option Number)

def heldFor (deduper : Option (Deduper Number)) (k : Key) : Held :=
  deduper.map fun d => (d.window, OrderedMap.get? d.suppressed k)

/-- What becomes of an alert, going by what is held for its key. -/
def answer (now : Number) : Held → Alert → Except Fault (Bool × Held)
  | none, _ => .ok (true, none)
  | some (window, last?), _ =>
    if window ≤ 0 then .ok (true, some (window, last?))
    else if last?.any fun t => decide (now < t) then .ok (false, some (window, last?))
    else (Clock.after now window).map fun t => (true, some (window, some t))

/-- The deduper at the end of a batch: it forgets the keys whose time is over. -/
def forget (now : Number) (d : Deduper Number) : Deduper Number :=
  if d.window ≤ 0 then d
  else { d with suppressed := d.suppressed.filter fun (_, t) => !decide (t ≤ now) }

theorem of_pass {τ : Type} [Clock τ] [LT τ] [DecidableLT τ] {window now : τ} {m : OrderedMap Key τ}
    {passed : Option (OrderedMap Key τ)} (h : pass window now m a = .ok passed) : ∃ l, a.key.toKey = .ok l ∧
      (suppresses m now l = true ∧ passed = none ∨ suppresses m now l = false ∧
        ∃ t, Clock.after now window = .ok t ∧ passed = some (OrderedMap.set m l t)) := by
  unfold pass at h
  rcases hl : a.key.toKey with f | l
  · rw [hl] at h
    cases h
  · rw [hl] at h
    refine ⟨l, rfl, ?_⟩
    rcases hs : suppresses m now l with _ | _
    · rcases ht : Clock.after now window with f | t
      · simp [hs, ht, bind, Except.bind] at h
      · simp only [hs, ht, bind, Except.bind] at h
        exact .inr ⟨rfl, t, rfl, (Except.ok.inj h).symm⟩
    · simp only [hs, bind, Except.bind] at h
      exact .inl ⟨rfl, (Except.ok.inj h).symm⟩

theorem suppresses_eq_any (h : l == k) :
    suppresses m now l = (OrderedMap.get? m k).any fun t => decide (now < t) := by
  unfold suppresses
  rw [OrderedMap.get?_congr m h]
  cases OrderedMap.get? m k <;> rfl

theorem keepsApart (now : Number) : KeepsApart heldFor (answer now) (Step now) where
  other := by
    intro s a b s' k hstep hk
    cases hstep with
    | idle => rfl
    | holds => rfl
    | passes hw h =>
      obtain ⟨l, hl, ⟨-, hm⟩ | ⟨-, t, -, hm⟩⟩ := of_pass h
      · cases hm
      · obtain rfl := Option.some.inj hm
        rw [Alert.hasKey_eq hl] at hk
        simp [heldFor, OrderedMap.get?_set, hk]
  own := by
    intro s a b s' k hstep hk
    cases hstep with
    | idle h =>
      rcases s with _ | d
      · rfl
      · have hw : d.window ≤ 0 := h d rfl
        simp [heldFor, answer, hw]
    | @holds d _ hw h =>
      obtain ⟨l, hl, ⟨hs, -⟩ | ⟨-, t, -, hm⟩⟩ := of_pass h
      · rw [Alert.hasKey_eq hl] at hk
        rw [suppresses_eq_any hk] at hs
        simp only [heldFor, answer, Option.map_some, if_neg hw, hs, if_true]
      · cases hm
    | @passes d _ m hw h =>
      obtain ⟨l, hl, ⟨-, hm⟩ | ⟨hs, t, ht, hm⟩⟩ := of_pass h
      · cases hm
      · obtain rfl := Option.some.inj hm
        rw [Alert.hasKey_eq hl] at hk
        rw [suppresses_eq_any hk] at hs
        simp [heldFor, answer, hw, hs, ht, Except.map, OrderedMap.get?_set, hk]

/-- Forgetting what is over does not mix up keys. -/
theorem heldFor_forget (now : Number) (hd : OrderedMap.Distinct d.suppressed) (k : Key) :
    heldFor (some (d.forget now)) k =
    (heldFor (some d) k).map fun (window, last?) =>
      (window, if window ≤ 0 then last? else last?.filter fun t => !decide (t ≤ now)) := by
  unfold forget
  split
  · rename_i hw
    simp [heldFor, hw]
  · rename_i hw
    have kept := OrderedMap.get?_filter hd (fun t => !decide (t ≤ now)) k
    simp only [heldFor, Option.map_some, if_neg hw, kept]

theorem Step.distinct {passes : Bool} (h : Step now deduper a passes deduper')
    (hd : ∀ d ∈ deduper, OrderedMap.Distinct d.suppressed) :
    ∀ d ∈ deduper', OrderedMap.Distinct d.suppressed := by
  cases h with
  | idle => exact hd
  | holds => exact hd
  | @passes d _ m hw h =>
    obtain ⟨l, -, ⟨-, hm⟩ | ⟨-, t, -, hm⟩⟩ := of_pass h
    · cases hm
    · obtain rfl := Option.some.inj hm
      intro d' hd'
      obtain rfl := Option.some.inj hd'
      exact (hd d rfl).set l t

theorem sift_of_steps (hw : ¬ d.window ≤ 0) (h : Steps (Step now) (some d) marks deduper') :
    ∃ m, deduper' = some { d with suppressed := m } ∧ sift d.window now d.suppressed (marks.map Prod.fst) =
      { passed := passedOf marks, suppressed := m } := by
  generalize hs : some d = s at h
  induction h generalizing d with
  | nil => exact ⟨d.suppressed, hs.symm, rfl⟩
  | @cons s s₁ s' a b marks one _ ih =>
    subst hs
    cases one with
    | idle h => exact absurd (h d rfl) hw
    | holds _ h =>
      obtain ⟨m, hm, hsift⟩ := ih hw rfl
      refine ⟨m, hm, ?_⟩
      rw [List.map_cons, sift, h]
      simpa [passedOf] using hsift
    | @passes _ _ m₁ _ h =>
      obtain ⟨m, hm, hsift⟩ := ih (d := { d with suppressed := m₁ }) hw rfl
      refine ⟨m, hm, ?_⟩
      rw [List.map_cons, sift, h]
      simp [passedOf, hsift]

theorem steps_idle (hidle : ∀ d ∈ deduper, d.window ≤ 0) (h : Steps (Step now) deduper marks deduper') :
    deduper' = deduper ∧ passedOf marks = marks.map Prod.fst := by
  induction h with
  | nil => exact ⟨rfl, rfl⟩
  | @cons s s₁ s' a b marks one _ ih =>
    cases one with
    | idle =>
      obtain ⟨hsame, hall⟩ := ih hidle
      exact ⟨hsame, by simpa [passedOf] using hall⟩
    | @holds d _ hw | @passes d _ _ hw => exact absurd (hidle d rfl) hw

/-- What is left of a batch, and the deduper afterwards. -/
theorem dedupe_of_steps {detector : Detector Number} (h : Steps (Step now) detector.deduper marks deduper') :
    detector.dedupe now (marks.map Prod.fst) =
      (.ok (passedOf marks), { detector with deduper := deduper'.map (forget now) }) := by
  obtain ⟨rules, deduper, limiter, ids⟩ := detector
  rcases deduper with _ | d
  · obtain ⟨rfl, hall⟩ := steps_idle (by simp) h
    simp [Detector.dedupe, hall]
  · by_cases hw : d.window ≤ 0
    · obtain ⟨rfl, hall⟩ := steps_idle (by simpa using hw) h
      simp [Detector.dedupe, filter, forget, hw, hall]
    · obtain ⟨m, rfl, hsift⟩ := sift_of_steps hw h
      simp [Detector.dedupe, filter, forget, hw, hsift]

end Deduper

/-! ### Limiters -/

namespace RateLimiter
variable {now : Number} {limiter limiter' : Option (RateLimiter Number)} {l : RateLimiter Number}
  {a : Alert} {k : Key} {marks : List (Alert × Bool)}

/-- A limiter that passes everything. -/
def IsIdle (l : RateLimiter Number) : Prop := l.window ≤ 0 ∨ l.burst ≤ 0

/-- What a limiter does with one alert, if there is one that does anything. -/
inductive Step (now : Number) :
    Option (RateLimiter Number) → Alert → Bool → Option (RateLimiter Number) → Prop
  | idle {limiter : Option (RateLimiter Number)} {a : Alert} (h : ∀ l ∈ limiter, l.IsIdle) :
      Step now limiter a true limiter
  | holds {l : RateLimiter Number} {a : Alert} {key : Key} {w : RateWindow Number} (hl : ¬ l.IsIdle)
      (hk : a.key.toKey = .ok key) (ho : windowAt l.window now l.windows key = .ok w)
      (hb : l.burst ≤ .int w.passed) :
      Step now (some l) a false (some { l with windows := OrderedMap.set l.windows key w })
  | passes {l : RateLimiter Number} {a : Alert} {key : Key} {w : RateWindow Number} (hl : ¬ l.IsIdle)
      (hk : a.key.toKey = .ok key) (ho : windowAt l.window now l.windows key = .ok w)
      (hb : ¬ l.burst ≤ .int w.passed) :
      Step now (some l) a true
        (some { l with windows := OrderedMap.set l.windows key { w with passed := w.passed + 1 } })

/-- What a limiter goes by for a key: how it is set up, and the window of the key. -/
abbrev Held := Option (Number × Number × Option (RateWindow Number))

def heldFor (limiter : Option (RateLimiter Number)) (k : Key) : Held :=
  limiter.map fun l => (l.window, l.burst, OrderedMap.get? l.windows k)

/-- The window that an alert falls into, going by the last one of its key. -/
def windowAfter (window now : Number) (last? : Option (RateWindow Number)) :
    Except Fault (RateWindow Number) :=
  match last?.filter fun w => !decide (w.ends ≤ now) with
  | some w => .ok w
  | none => (Clock.after now window).map (RateWindow.mk 0)

/-- What becomes of an alert, going by what is held for its key. -/
def answer (now : Number) : Held → Alert → Except Fault (Bool × Held)
  | none, _ => .ok (true, none)
  | some (window, burst, last?), _ =>
    if window ≤ 0 ∨ burst ≤ 0 then .ok (true, some (window, burst, last?))
    else (windowAfter window now last?).map fun w =>
      if burst ≤ .int w.passed then (false, some (window, burst, some w))
      else (true, some (window, burst, some { w with passed := w.passed + 1 }))

theorem windowAt_eq_windowAfter {window : Number} {m : OrderedMap Key (RateWindow Number)} {key : Key}
    (h : key == k) : windowAt window now m key = windowAfter window now (OrderedMap.get? m k) := by
  unfold windowAt open? windowAfter
  rw [OrderedMap.get?_congr m h]
  generalize (OrderedMap.get? m k).filter _ = last?
  cases last? <;> rfl

theorem keepsApart (now : Number) : KeepsApart heldFor (answer now) (Step now) where
  other := by
    intro s a b s' k hstep hk
    cases hstep with
    | idle => rfl
    | holds hl hkey ho hb | passes hl hkey ho hb =>
      rw [Alert.hasKey_eq hkey] at hk
      simp [heldFor, OrderedMap.get?_set, hk]
  own := by
    intro s a b s' k hstep hk
    cases hstep with
    | idle h =>
      rcases s with _ | l
      · rfl
      · have hl : l.window ≤ 0 ∨ l.burst ≤ 0 := h l rfl
        simp [heldFor, answer, hl]
    | @holds l _ key w hl hkey ho hb =>
      rw [Alert.hasKey_eq hkey] at hk
      rw [windowAt_eq_windowAfter hk] at ho
      unfold IsIdle at hl
      simp [heldFor, answer, hl, ho, Except.map, OrderedMap.get?_set, hk, hb]
    | @passes l _ key w hl hkey ho hb =>
      rw [Alert.hasKey_eq hkey] at hk
      rw [windowAt_eq_windowAfter hk] at ho
      unfold IsIdle at hl
      simp [heldFor, answer, hl, ho, Except.map, OrderedMap.get?_set, hk, hb]

/-- A batch as the limiter returns it. -/
def flagged (marks : List (Alert × Bool)) : List (Alert × Bool) :=
  marks.map fun (a, passes) => (if passes then a else { a with rateLimited := true }, passes)

theorem meter_of_steps (hl : ¬ l.IsIdle) (h : Steps (Step now) (some l) marks limiter') :
    ∃ m, limiter' = some { l with windows := m } ∧ meter l.window l.burst now l.windows (marks.map Prod.fst) =
      { metered := flagged marks, windows := m } := by
  generalize hs : some l = s at h
  induction h generalizing l with
  | nil => exact ⟨l.windows, hs.symm, rfl⟩
  | @cons s s₁ s' a b marks one _ ih =>
    subst hs
    cases one with
    | idle h => exact absurd (h l rfl) hl
    | @holds _ _ key w _ hk ho hb =>
      obtain ⟨m, hm, hmeter⟩ := ih (l := { l with windows := OrderedMap.set l.windows key w }) hl rfl
      refine ⟨m, hm, ?_⟩
      rw [List.map_cons, meter, hk]
      simp [ho, hb, hmeter, flagged]
    | @passes _ _ key w _ hk ho hb =>
      obtain ⟨m, hm, hmeter⟩ := ih (l := { l with
        windows := OrderedMap.set l.windows key { w with passed := w.passed + 1 } }) hl rfl
      refine ⟨m, hm, ?_⟩
      rw [List.map_cons, meter, hk]
      simp [ho, hb, hmeter, flagged]

theorem steps_idle (hidle : ∀ l ∈ limiter, l.IsIdle) (h : Steps (Step now) limiter marks limiter') :
    limiter' = limiter ∧ flagged marks = (marks.map Prod.fst).map fun a => (a, true) := by
  induction h with
  | nil => exact ⟨rfl, rfl⟩
  | @cons s s₁ s' a b marks one _ ih =>
    cases one with
    | idle =>
      obtain ⟨hsame, hall⟩ := ih hidle
      exact ⟨hsame, by simpa [flagged] using hall⟩
    | @holds l _ _ _ hl | @passes l _ _ _ hl => exact absurd (hidle l rfl) hl

/-- The batch with its flags, and the limiter afterwards. -/
theorem limit_of_steps {detector : Detector Number} (h : Steps (Step now) detector.limiter marks limiter') :
    detector.limit now (marks.map Prod.fst) =
      (.ok (flagged marks), { detector with limiter := limiter' }) := by
  obtain ⟨rules, deduper, limiter, ids⟩ := detector
  rcases limiter with _ | l
  · obtain ⟨rfl, hall⟩ := steps_idle (by simp) h
    simp [Detector.limit, hall]
  · by_cases hl : l.window ≤ 0 ∨ l.burst ≤ 0
    · obtain ⟨rfl, hall⟩ := steps_idle (by simpa [IsIdle] using hl) h
      simp [Detector.limit, filter, hl, hall]
    · obtain ⟨m, rfl, hmeter⟩ := meter_of_steps hl h
      simp [Detector.limit, filter, hl, hmeter]

end RateLimiter

end HostWatch
