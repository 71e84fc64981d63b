import HostWatch.Fault

/-!
# Series of captures

A capturer captures again and again, and some of the captures fail. What it compares with is what it read at
the last capture that did not (`Series.kept_eq`).
-/

namespace HostWatch.Capture

variable {σ τ β : Type} {capture : τ → σ → σ × Option Fault} {start s : σ} {ts : List τ} {t : τ}

/-- Where captures lead. The list has what the successful ones looked at. -/
inductive Series (capture : τ → σ → σ × Option Fault) (start : σ) : List τ → σ → Prop
  | nil : Series capture start [] start
  | succeeded {ts : List τ} {t : τ} {s s' : σ} (run : Series capture start ts s)
      (ok : capture t s = (s', none)) : Series capture start (ts ++ [t]) s'
  | failed {ts : List τ} {t : τ} {s s' : σ} {e : Fault} (run : Series capture start ts s)
      (ko : capture t s = (s', some e)) : Series capture start ts s'

/-- What is kept to compare with: what a successful capture reads, and else what there was before. -/
def KeepsReading (capture : τ → σ → σ × Option Fault) (inv : σ → Prop) (kept : σ → Option β)
    (read : τ → Except Fault β) : Prop :=
  ∀ t s, inv s → (∃ s' e, capture t s = (s', some e) ∧ inv s' ∧ kept s' = kept s) ∨
    ∃ s' b, capture t s = (s', none) ∧ inv s' ∧ read t = .ok b ∧ kept s' = some b

namespace Series
variable {inv : σ → Prop} {kept : σ → Option β} {read : τ → Except Fault β}

theorem single (ok : capture t start = (s, none)) : Series capture start [t] s := .succeeded .nil ok

theorem kept_eq (run : Series capture start ts s) (law : KeepsReading capture inv kept read)
    (hinv : inv start) (cold : kept start = none) :
    inv s ∧ (kept s).map Except.ok = ts.getLast?.map read := by
  induction run with
  | nil => exact ⟨hinv, by rw [cold]; rfl⟩
  | @succeeded ts t s s' _ ok ih =>
    rcases law t s ih.1 with ⟨_, e, ko, -⟩ | ⟨s'', b, ok', h, hread, hkept⟩
    · cases ko.symm.trans ok
    · obtain rfl : s' = s'' := congrArg Prod.fst (ok.symm.trans ok')
      refine ⟨h, ?_⟩
      rw [hkept, List.getLast?_concat, Option.map_some, Option.map_some, hread]
  | @failed ts t s s' e _ ko ih =>
    rcases law t s ih.1 with ⟨s'', _, ko', h, same⟩ | ⟨_, b, ok, -⟩
    · obtain rfl : s' = s'' := congrArg Prod.fst (ko.symm.trans ko')
      exact ⟨h, same ▸ ih.2⟩
    · cases ok.symm.trans ko

theorem kept_of_nil (run : Series capture start ts s) (law : KeepsReading capture inv kept read)
    (hinv : inv start) (cold : kept start = none) (h : ts = []) : kept s = none := by
  subst h
  exact Option.map_eq_none_iff.1 (run.kept_eq law hinv cold).2

theorem isSome_kept (run : Series capture start ts s) (law : KeepsReading capture inv kept read)
    (hinv : inv start) (cold : kept start = none) : (kept s).isSome ↔ ts ≠ [] := by
  have same := congrArg Option.isSome (run.kept_eq law hinv cold).2
  rw [Option.isSome_map, Option.isSome_map] at same
  rw [same, List.getLast?_isSome]

theorem kept_of_last (run : Series capture start ts s) (law : KeepsReading capture inv kept read)
    (hinv : inv start) (cold : kept start = none) (h : ts.getLast? = some t) :
    ∃ b, read t = .ok b ∧ kept s = some b := by
  have same := (run.kept_eq law hinv cold).2
  rw [h, Option.map_some] at same
  obtain ⟨b, hkept, hread⟩ := Option.map_eq_some_iff.1 same
  exact ⟨b, hread.symm, hkept⟩

end Series

end HostWatch.Capture
