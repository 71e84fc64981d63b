import HostWatch.Proofs.Detection.Arrival
import HostWatch.Proofs.Detection.Typed
import HostWatch.Response.Policy
import Mathlib.Algebra.Order.Ring.Int
import Mathlib.Order.Lattice

/-!
# The law of admission

A policy accepts an alert exactly if its rule and severity suit and its key is past its cooldown, going
by the latest alert with that key that was accepted (`Policy.run_admissionLaw`). The clock may jump back
and forth. What carries the proof is `Policy.Setup.Holds`: the map says for each key when its cooldown
ends. What is rejected leaves no trace, so a run takes the same course without it.
-/

namespace HostWatch

/-- A duration after a reading of the clock is their sum. -/
def Clock.IsExact (τ : Type) [Clock τ] [Add τ] : Prop := ∀ t d : τ, Clock.after t d = .ok (t + d)

/-- The rule and the severity of an alert are texts. -/
structure Alert.IsWorded (a : Alert) : Prop where
  ruleId : a.ruleId.IsText
  severity : a.severity.IsText

namespace Policy

/-- How a policy is set up. -/
structure Setup (τ : Type) where
  minSeverity : String := ""
  allow : List String := []
  deny : List String := []
  cooldown : τ

/-- An alert that a policy is asked about. -/
structure Request (τ : Type) where
  time : τ
  alert : Alert

section Law
variable {τ : Type}

/-- When an alert with a key was accepted last; each request stands with the answer to it. -/
def lastAccepted (k : Key) (history : List (Request τ × Bool)) : Option τ :=
  (history.filter fun x => x.2 && x.1.alert.hasKey k).getLast?.map fun x => x.1.time

theorem lastAccepted_concat {k : Key} {history : List (Request τ × Bool)} {x : Request τ × Bool} :
    lastAccepted k (history ++ [x]) =
      if x.2 && x.1.alert.hasKey k then some x.1.time else lastAccepted k history := by
  unfold lastAccepted
  rw [List.filter_append]
  by_cases h : x.2 && x.1.alert.hasKey k
  · simp [h]
  · simp [h]

/-- A history without some of the requests that were rejected. -/
inductive Thinned : List (Request τ × Bool) → List (Request τ × Bool) → Prop
  | nil : Thinned [] []
  | keep {x : Request τ × Bool} {full thin : List (Request τ × Bool)} (rest : Thinned full thin) :
      Thinned (x :: full) (x :: thin)
  | drop {r : Request τ} {full thin : List (Request τ × Bool)} (rest : Thinned full thin) :
      Thinned ((r, false) :: full) thin

theorem Thinned.concat (before : List (Request τ × Bool)) (r : Request τ) :
    Thinned (before ++ [(r, false)]) before := by
  induction before with
  | nil => exact .drop .nil
  | cons x before ih => exact .keep ih

/-- The policy that is set up, with what it holds of the past. -/
def Setup.holding (c : Setup τ) (eligible : OrderedMap Key τ) : Policy τ where
  minSeverity := .text c.minSeverity
  allow := c.allow.map Key.ofText
  deny := c.deny.map Key.ofText
  cooldown := .ok c.cooldown
  eligible := eligible

/-- What does not depend on the past: rule and severity of the alert suit. -/
structure Setup.Suits (c : Setup τ) (a : Alert) : Prop where
  notDenied : a.ruleId ∉ c.deny.map Value.text
  allowed : c.allow = [] ∨ a.ruleId ∈ c.allow.map Value.text
  severe : c.minSeverity = "" ∨ Severity.rank c.minSeverity ≤ Severity.rank a.severity.toText

/-- The request is to be accepted after a history. -/
structure Setup.Admits [LinearOrder τ] [Add τ] [Zero τ] (c : Setup τ) (before : List (Request τ × Bool))
    (r : Request τ) : Prop extends c.Suits r.alert where
  cooled : 0 < c.cooldown → ∀ k, r.alert.key.toKey = .ok k → ∀ t, lastAccepted k before = some t →
    t + c.cooldown ≤ r.time

variable [Clock τ] [LinearOrder τ] [Add τ] [Zero τ]

/-- The answer to a request, and the policy afterwards; a request that fails leaves it as it was. -/
def ask (p : Policy τ) (r : Request τ) : Except Fault Bool × Policy τ :=
  match p.decision r.time r.alert with
  | .ok (accepted, p') => (.ok accepted, p')
  | .error f => (.error f, p)

/-- The answers to one request after another. -/
def run (p : Policy τ) : List (Request τ) → List (Except Fault Bool) × Policy τ
  | [] => ([], p)
  | r :: rest =>
    let (answer, p) := p.ask r
    let (more, p) := p.run rest
    (answer :: more, p)

/-- What a run of a new policy has done, told by the history of all requests. -/
structure AdmissionLaw (c : Setup τ) (requests : List (Request τ)) (history : List (Request τ × Bool)) :
    Prop where
  asked : history.map Prod.fst = requests
  answers : ((c.holding []).run requests).1 = history.map fun x => .ok x.2
  admitted : ∀ before r accepted after, history = before ++ (r, accepted) :: after →
    (accepted = true ↔ c.Admits before r)
  /-- What is rejected leaves the policy as it was. -/
  unchanged : ∀ before r after, history = before ++ (r, false) :: after →
    ((c.holding []).run (before.map Prod.fst ++ [r])).2 = ((c.holding []).run (before.map Prod.fst)).2
  /-- Without some of the requests that are rejected the others are answered alike, and so it makes no
  difference to them where such requests are put in. -/
  thinned : ∀ thin, Thinned history thin → (c.holding []).run (thin.map Prod.fst) =
    (thin.map fun x => .ok x.2, ((c.holding []).run requests).2)

end Law

/-! ### One request -/

section Request
variable {τ : Type} {c : Setup τ} {m : OrderedMap Key τ} {a : Alert}

theorem contains_ofText (texts : List String) (s : String) :
    (texts.map Key.ofText).contains (Key.ofText s) = true ↔ Value.text s ∈ texts.map Value.text := by
  simp

theorem rankOf_text (s : String) : Severity.rankOf (.text s) = .ok (Severity.rank s) := by
  unfold Severity.rankOf
  split
  · rename_i empty
    have none : s = "" := by simpa [Value.isEmpty] using empty
    subst none
    rfl
  · rfl

theorem isSevere_holding (h : a.severity.IsText) : ∃ b, (c.holding m).isSevere a = .ok b ∧
    (b = true ↔ c.minSeverity = "" ∨ Severity.rank c.minSeverity ≤ Severity.rank a.severity.toText) := by
  obtain ⟨severity, hseverity⟩ := h
  unfold isSevere Setup.holding
  by_cases empty : c.minSeverity = ""
  · exact ⟨true, by simp [empty, Value.isEmpty]; rfl, by simp [empty]⟩
  · refine ⟨decide (Severity.rank c.minSeverity ≤ Severity.rank severity), ?_, ?_⟩
    · simp only [hseverity, rankOf_text]
      simp [empty, Value.isEmpty]
      rfl
    · simp [empty, hseverity, Value.toText, Value.toText?]

theorem admits_holding (h : a.IsWorded) : ∃ b, (c.holding m).admits a = .ok b ∧ (b = true ↔ c.Suits a) := by
  obtain ⟨rule, hrule⟩ := h.ruleId
  obtain ⟨severe, hsevere, severe_iff⟩ := isSevere_holding (c := c) (m := m) h.severity
  have key : a.ruleId.toKey = .ok (Key.ofText rule) := by
    rw [hrule]
    rfl
  have denied : (c.holding m).deny.contains (Key.ofText rule) = true ↔ a.ruleId ∈ c.deny.map Value.text := by
    rw [hrule]
    exact contains_ofText c.deny rule
  have left : (!(c.holding m).allow.isEmpty && !(c.holding m).allow.contains (Key.ofText rule)) = true ↔
      ¬ (c.allow = [] ∨ a.ruleId ∈ c.allow.map Value.text) := by
    rw [hrule, ← contains_ofText c.allow rule]
    simp only [Setup.holding, Bool.and_eq_true, Bool.not_eq_true', List.isEmpty_map,
      List.isEmpty_eq_false_iff, not_or, Bool.not_eq_true, ne_eq]
  unfold admits
  rw [key]
  simp only [bind, Except.bind]
  by_cases hdeny : (c.holding m).deny.contains (Key.ofText rule) = true
  · refine ⟨false, by rw [if_pos hdeny]; rfl, ?_⟩
    simp only [Bool.false_eq_true, false_iff]
    exact fun suits => suits.notDenied (denied.1 hdeny)
  · rw [if_neg hdeny]
    by_cases hallow : (!(c.holding m).allow.isEmpty && !(c.holding m).allow.contains (Key.ofText rule)) = true
    · refine ⟨false, by rw [if_pos hallow]; rfl, ?_⟩
      simp only [Bool.false_eq_true, false_iff]
      exact fun suits => left.1 hallow suits.allowed
    · refine ⟨severe, by rw [if_neg hallow, hsevere], ?_⟩
      rw [severe_iff]
      constructor
      · exact fun high => ⟨mt denied.2 hdeny, not_not.1 (mt left.2 hallow), high⟩
      · exact Setup.Suits.severe

variable [Clock τ] [LinearOrder τ] [Zero τ] {now : τ} {p p' : Policy τ} {r : Request τ}

theorem eq_of_rejected (h : p.decision now a = .ok (false, p')) : p' = p := by
  unfold decision at h
  obtain ⟨admitted, -, h⟩ := ok_of_bind h
  split at h
  · cases h
    rfl
  · obtain ⟨cooldown, -, h⟩ := ok_of_bind h
    split at h
    · cases h
    · obtain ⟨key, -, h⟩ := ok_of_bind h
      split at h
      · cases h
        rfl
      · obtain ⟨next, -, h⟩ := ok_of_bind h
        cases h

theorem ask_rejected (h : (p.ask r).1 = .ok false) : (p.ask r).2 = p := by
  unfold ask at h ⊢
  split at h
  · rename_i accepted p' decided
    obtain rfl := Except.ok.inj h
    exact eq_of_rejected decided
  · cases h

end Request

/-! ### Runs -/

section Runs
variable {τ : Type} [Clock τ] [LinearOrder τ] [Zero τ] {p : Policy τ}
  {full thin : List (Request τ × Bool)}

theorem run_cons (r : Request τ) (rest : List (Request τ)) : p.run (r :: rest) =
    ((p.ask r).1 :: ((p.ask r).2.run rest).1, ((p.ask r).2.run rest).2) := rfl

theorem answers_prefix (before after : List (Request τ × Bool))
    (h : (p.run ((before ++ after).map Prod.fst)).1 = (before ++ after).map fun x => .ok x.2) :
    (p.run (before.map Prod.fst)).1 = before.map fun x => .ok x.2 := by
  induction before generalizing p with
  | nil => rfl
  | cons x before ih =>
    rw [List.cons_append, List.map_cons, List.map_cons, run_cons] at h
    obtain ⟨first, rest⟩ := List.cons.inj h
    rw [List.map_cons, List.map_cons, run_cons, first, ih rest]

theorem run_thinned (h : Thinned full thin) (answers : (p.run (full.map Prod.fst)).1 = full.map fun x => .ok x.2) :
    p.run (thin.map Prod.fst) = (thin.map fun x => .ok x.2, (p.run (full.map Prod.fst)).2) := by
  induction h generalizing p with
  | nil => rfl
  | keep rest ih =>
    rw [List.map_cons, List.map_cons, run_cons] at answers
    obtain ⟨first, answers⟩ := List.cons.inj answers
    rw [List.map_cons, List.map_cons, List.map_cons, run_cons, run_cons, ih answers, first]
  | drop rest ih =>
    rw [List.map_cons, List.map_cons, run_cons] at answers
    obtain ⟨first, answers⟩ := List.cons.inj answers
    rw [ask_rejected first] at answers
    rw [List.map_cons, run_cons, ask_rejected first, ih answers]

end Runs

/-! ### What the map holds -/

section Holding
variable {τ : Type} [LinearOrder τ] [Add τ] [Zero τ] {c : Setup τ} {m : OrderedMap Key τ}
  {before : List (Request τ × Bool)} {r : Request τ}

/-- With a cooldown, the map says for each key when it ends. -/
def Setup.Holds (c : Setup τ) (m : OrderedMap Key τ) (history : List (Request τ × Bool)) : Prop :=
  0 < c.cooldown → ∀ k, OrderedMap.get? m k = (lastAccepted k history).map (· + c.cooldown)

theorem Setup.Holds.rejected (h : c.Holds m before) : c.Holds m (before ++ [(r, false)]) := by
  intro positive k
  rw [lastAccepted_concat, h positive k]
  rfl

theorem Setup.Holds.cooling_iff (h : c.Holds m before) (positive : 0 < c.cooldown) {k : Key} :
    (c.holding m).cooling r.time k = true ↔
      ∃ t, lastAccepted k before = some t ∧ r.time < t + c.cooldown := by
  unfold cooling Setup.holding
  rw [h positive k]
  cases lastAccepted k before with
  | none => simp
  | some t => simp

theorem Setup.Holds.accepted (h : c.Holds m before) {k : Key} (hk : r.alert.key.toKey = .ok k) :
    c.Holds (OrderedMap.set m k (r.time + c.cooldown)) (before ++ [(r, true)]) := by
  intro positive l
  rw [lastAccepted_concat, OrderedMap.get?_set, Alert.hasKey_eq hk, h positive l]
  by_cases hkl : k == l
  · simp [hkl]
  · simp [hkl]

variable [Clock τ]

theorem ask_holds (clock : Clock.IsExact τ) (worded : r.alert.IsWorded) (h : c.Holds m before) :
    ∃ accepted m', (c.holding m).ask r = (.ok accepted, c.holding m') ∧
      (accepted = true ↔ c.Admits before r) ∧ c.Holds m' (before ++ [(r, accepted)]) := by
  obtain ⟨suited, admitted, suits⟩ := admits_holding (c := c) (m := m) worded
  obtain ⟨k, hk⟩ : ∃ k, r.alert.key.toKey = .ok k :=
    ((Value.isText_text r.alert.dedupKey).orElse worded.ruleId).toKey
  have limit : (c.holding m).cooldown = .ok c.cooldown := rfl
  unfold ask decision
  rw [admitted]
  cases suited with
  | false =>
    refine ⟨false, m, rfl, ?_, h.rejected⟩
    simp only [Bool.false_eq_true, false_iff] at suits ⊢
    exact fun admits => suits admits.toSuits
  | true =>
    have suits := suits.1 rfl
    by_cases positive : 0 < c.cooldown
    · cases cools : (c.holding m).cooling r.time k with
      | true =>
        refine ⟨false, m, ?_, ?_, h.rejected⟩
        · simp [bind, Except.bind, pure, Except.pure, limit, positive, hk, cools]
        · simp only [Bool.false_eq_true, false_iff]
          intro admits
          obtain ⟨t, last, early⟩ := (h.cooling_iff positive).1 cools
          exact absurd early (not_lt.2 (admits.cooled positive k hk t last))
      | false =>
        refine ⟨true, OrderedMap.set m k (r.time + c.cooldown), ?_, ?_, h.accepted hk⟩
        · simp [bind, Except.bind, pure, Except.pure, limit, positive, hk, cools, clock r.time c.cooldown]
          rfl
        · simp only [true_iff]
          refine ⟨suits, fun _ l hl t last => ?_⟩
          obtain rfl := Except.ok.inj (hk.symm.trans hl)
          refine not_lt.1 fun early => ?_
          rw [(h.cooling_iff positive).2 ⟨t, last, early⟩] at cools
          cases cools
    · refine ⟨true, m, ?_, ?_, fun positive' => absurd positive' positive⟩
      · simp [bind, Except.bind, pure, Except.pure, limit, positive]
      · simp only [true_iff]
        exact ⟨suits, fun positive' => absurd positive' positive⟩

theorem run_holds (clock : Clock.IsExact τ) {requests : List (Request τ)}
    (worded : ∀ r ∈ requests, r.alert.IsWorded) (h : c.Holds m before) :
    ∃ more m', more.map Prod.fst = requests ∧
      (c.holding m).run requests = (more.map fun x => .ok x.2, c.holding m') ∧
      ∀ earlier r accepted later, more = earlier ++ (r, accepted) :: later →
        (accepted = true ↔ c.Admits (before ++ earlier) r) := by
  induction requests generalizing m before with
  | nil => exact ⟨[], m, rfl, rfl, by simp⟩
  | cons r requests ih =>
    obtain ⟨one, worded⟩ := List.forall_mem_cons.1 worded
    obtain ⟨accepted, m', answer, admitted, h⟩ := ask_holds clock one h
    obtain ⟨more, m'', asked, answers, lawful⟩ := ih worded h
    refine ⟨(r, accepted) :: more, m'', ?_, ?_, ?_⟩
    · rw [List.map_cons, asked]
    · rw [run_cons, answer, answers, List.map_cons]
    · intro earlier r' accepted' later parts
      cases earlier with
      | nil =>
        cases parts
        rwa [List.append_nil]
      | cons x earlier =>
        obtain ⟨rfl, rest⟩ := List.cons.inj parts
        have := lawful earlier r' accepted' later rest
        rwa [List.append_assoc] at this

/-- The law of admission, for every run of a new policy on an exact clock, whichever way the clock goes. -/
theorem run_admissionLaw (clock : Clock.IsExact τ) (c : Setup τ) (requests : List (Request τ))
    (worded : ∀ r ∈ requests, r.alert.IsWorded) : ∃ history, AdmissionLaw c requests history := by
  have start : c.Holds [] [] := fun _ _ => rfl
  obtain ⟨history, m, rfl, answers, lawful⟩ := run_holds clock worded start
  have answered : ((c.holding []).run (history.map Prod.fst)).1 = history.map fun x => .ok x.2 := by
    rw [answers]
  refine ⟨history, rfl, answered, lawful, ?_, ?_⟩
  · intro before r after parts
    have whole : before ++ [(r, false)] ++ after = history := by
      rw [parts, List.append_assoc, List.singleton_append]
    have reached := answers_prefix (before ++ [(r, false)]) after (whole ▸ answered)
    have thinned := run_thinned (.concat before r) reached
    rw [List.map_append] at thinned
    exact (congrArg Prod.snd thinned).symm
  · intro thin thinned
    exact run_thinned thinned answered

end Holding

/-- A repetition that is cooling down, a rule that is denied, and a clock that goes back. -/
theorem run_admissionLaw_back :
    let c : Setup Int := { minSeverity := "medium", allow := ["a", "d"], deny := ["d"], cooldown := 10 }
    let alert (rule : String) : Alert :=
      { ruleId := .text rule, severity := .text "HIGH", dedupKey := "k" }
    let requests : List (Request Int) :=
      [⟨0, alert "a"⟩, ⟨9, alert "a"⟩, ⟨10, alert "d"⟩, ⟨10, alert "a"⟩, ⟨5, alert "a"⟩]
    (Clock.IsExact Int ∧ ∀ r ∈ requests, r.alert.IsWorded) ∧
      ∃ history, AdmissionLaw c requests history ∧
        history.map Prod.snd = [true, false, false, true, false] := by
  intro c alert requests
  have clock : Clock.IsExact Int := fun _ _ => rfl
  have worded : ∀ r ∈ requests, r.alert.IsWorded := by
    have text (rule : String) : (alert rule).IsWorded := ⟨⟨_, rfl⟩, ⟨_, rfl⟩⟩
    simp [requests, text]
  obtain ⟨history, law⟩ := run_admissionLaw clock c requests worded
  refine ⟨⟨clock, worded⟩, history, law, ?_⟩
  have answers : ((c.holding []).run requests).1.map Except.toOption =
      [true, false, false, true, false].map some := by decide +kernel
  rw [law.answers, List.map_map] at answers
  refine List.map_injective_iff.2 (fun _ _ => Option.some.inj) ?_
  rw [List.map_map]
  exact answers

end Policy

end HostWatch
