import HostWatch.Alert
import Mathlib.Data.List.Induction

/-!
# Arrivals

What comes to a filter over time: batches of alerts, each at a reading of an exact clock. The history
of a run names for every alert when it came and whether it passed.
-/

namespace HostWatch

namespace Alert

/-- Whether an alert is counted under a key. -/
def hasKey (a : Alert) (k : Key) : Bool :=
  match a.key.toKey with
  | .ok key => key == k
  | .error _ => false

/-- Whether the key of an alert is that of another. -/
def SameKey (a b : Alert) : Prop := ∃ k, b.key.toKey = .ok k ∧ a.hasKey k

variable {a b : Alert} {k l : Key}

theorem hasKey_eq (h : a.key.toKey = .ok k) : a.hasKey l = (k == l) := by
  simp [hasKey, h]

theorem sameKey_iff (h : b.key.toKey = .ok k) : a.SameKey b ↔ a.hasKey k := by
  simp [SameKey, h]

end Alert

theorem exists_left_of_forall₂ {α β : Type} {R : α → β → Prop} {as : List α} {bs : List β}
    (h : List.Forall₂ R as bs) {b : β} (hb : b ∈ bs) : ∃ a ∈ as, R a b := by
  induction h with
  | nil => cases hb
  | @cons a _ _ _ one _ ih =>
    rcases List.mem_cons.1 hb with rfl | hb
    · exact ⟨a, .head _, one⟩
    · obtain ⟨a, ha, hab⟩ := ih hb
      exact ⟨a, .tail _ ha, hab⟩

/-- What has come last is what is looked at, or it has come after it. -/
theorem concat_eq_append_cons {α : Type} {history before after : List α} {x y : α}
    (h : history ++ [x] = before ++ y :: after) :
    (history = before ∧ x = y) ∨ ∃ after', history = before ++ y :: after' := by
  rcases List.eq_nil_or_concat after with rfl | ⟨after', z, rfl⟩
  · obtain ⟨same, last⟩ := List.append_inj' h rfl
    exact .inl ⟨same, List.singleton_inj.1 last⟩
  · rw [List.concat_eq_append, ← List.cons_append, ← List.append_assoc] at h
    exact .inr ⟨after', (List.append_inj' h rfl).1⟩

/-- Alerts that come to a filter at the same time. -/
structure Batch where
  now : Int
  alerts : List Alert

/-- The clock never goes back from one batch to a later one. -/
def Batch.InOrder (batches : List Batch) : Prop := batches.Pairwise fun b c => b.now ≤ c.now

/-- Every alert has a key that it can be counted under. -/
def Batch.HaveKeys (batches : List Batch) : Prop :=
  ∀ b ∈ batches, ∀ a ∈ b.alerts, ∃ k, a.key.toKey = .ok k

/-- An alert that has come to a filter. -/
structure Arrival where
  time : Int
  alert : Alert
  passes : Bool

namespace Arrival

/-- The alerts that pass, in their order. -/
def passing (arrivals : List Arrival) : List Alert := (arrivals.filter passes).map alert

/-- The arrivals are the alerts of a batch. -/
def OfBatch (b : Batch) (arrivals : List Arrival) : Prop :=
  arrivals.map alert = b.alerts ∧ ∀ a ∈ arrivals, a.time = b.now

/-- When an alert with a key passed last. -/
def lastPass (k : Key) (history : List Arrival) : Option Int :=
  (history.filter fun a => a.passes && a.alert.hasKey k).getLast?.map time

variable {history : List Arrival} {a : Arrival} {k : Key}

theorem lastPass_concat : lastPass k (history ++ [a]) =
    if a.passes && a.alert.hasKey k then some a.time else lastPass k history := by
  unfold lastPass
  rw [List.filter_append]
  by_cases h : a.passes && a.alert.hasKey k
  · simp [h]
  · simp [h]

/-- Nothing passes later than what passes last. -/
theorem exists_pass_iff (sorted : history.Pairwise fun a b => a.time ≤ b.time) (t : Int) :
    (∃ b ∈ history, b.passes ∧ b.alert.hasKey k ∧ t < b.time) ↔
      ∃ u, lastPass k history = some u ∧ t < u := by
  induction history using List.reverseRecOn with
  | nil => simp [lastPass]
  | append_singleton history a ih =>
    obtain ⟨sorted, -, le⟩ := List.pairwise_append.1 sorted
    rw [lastPass_concat]
    simp only [List.mem_append, List.mem_singleton, or_and_right, exists_or, exists_eq_left, ih sorted]
    by_cases h : a.passes && a.alert.hasKey k
    · rw [if_pos h]
      rw [Bool.and_eq_true] at h
      constructor
      · rintro (hu | ⟨-, -, ht⟩)
        · obtain ⟨b, hb, -, -, ht⟩ := (ih sorted).2 hu
          have := le b hb a (by simp)
          exact ⟨_, rfl, by omega⟩
        · exact ⟨_, rfl, ht⟩
      · rintro ⟨u, hu, ht⟩
        exact .inr ⟨h.1, h.2, Option.some.inj hu ▸ ht⟩
    · rw [if_neg h]
      rw [Bool.and_eq_true] at h
      exact ⟨fun hu => hu.elim id fun ⟨hp, hk, _⟩ => absurd ⟨hp, hk⟩ h, .inl⟩

end Arrival

end HostWatch
