import HostWatch.Proofs.Detection.Filling

/-!
# Which metadata prevails

Metadata are filled in layers, the gaps of one from the next (`Metadata.merge`). `Metadata.Fills` says what
comes of it: in each field the first content of all layers. The order of filling does not matter for this, only that
of the layers (`Fills.merge`), and a layer that has been filled in before changes nothing (`Fills.merge_last`).
-/

namespace HostWatch

/-- The first value that is not empty, or the last if all are. -/
def Value.firstFull (vs : List Value) : Value := (vs.find? fun v => !v.isEmpty).getD (vs.getLastD .null)

/-- The value that stands for a time, if there is one. -/
def Value.momentOf (t : Option Timestamp) : Value := (t.map .moment).getD .null

namespace Value
variable {v : Value} {vs : List Value}

theorem firstFull_singleton (v : Value) : firstFull [v] = v := by
  unfold firstFull
  by_cases hv : v.isEmpty <;> simp [hv]

theorem firstFull_cons (v : Value) (h : vs ≠ []) : firstFull (v :: vs) = v.orElse (firstFull vs) := by
  obtain ⟨w, ws, rfl⟩ := List.exists_cons_of_ne_nil h
  by_cases hv : v.isEmpty
  · rw [orElse_of_isEmpty hv]
    simp [firstFull, hv]
  · rw [orElse_of_not_isEmpty hv]
    simp [firstFull, hv]

theorem firstFull_pair (v w : Value) : firstFull [v, w] = v.orElse w := by
  rw [firstFull_cons v (List.cons_ne_nil w []), firstFull_singleton]

theorem not_isEmpty_firstFull (hv : ¬ v.isEmpty) (mem : v ∈ vs) : ¬ (firstFull vs).isEmpty := by
  have some : (vs.find? fun v => !v.isEmpty).isSome := by
    rw [List.find?_isSome]
    exact ⟨v, mem, by simpa using hv⟩
  obtain ⟨w, found⟩ := Option.isSome_iff_exists.1 some
  have full := List.find?_some found
  rw [firstFull, found]
  simpa using full

theorem momentOf_inj {t t' : Option Timestamp} (h : momentOf t = momentOf t') : t = t' := by
  cases t <;> cases t' <;> simp_all [momentOf]

theorem text_firstText (s t : String) : text (firstText s t) = (text s).orElse (text t) := by
  unfold firstText orElse
  by_cases hs : s = "" <;> simp [isEmpty, hs]

end Value

namespace Metadata

/-- The fields of metadata. -/
inductive Field where
  | host
  | agentVersion
  | agentBuild
  | session
  | timezone
  | capturedAt
  | os
  | arch
  | capturer
  | interval
  | maxFiles
  deriving DecidableEq, Repr

/-- What stands in a field. -/
def get (m : Metadata) : Field → Value
  | .host => .text m.host
  | .agentVersion => .text m.agentVersion
  | .agentBuild => .text m.agentBuild
  | .session => .text m.session
  | .timezone => .text m.timezone
  | .capturedAt => .momentOf m.capturedAt
  | .os => .text m.os
  | .arch => .text m.arch
  | .capturer => .text m.capturer
  | .interval => m.interval
  | .maxFiles => m.maxFiles

/-- In every field stands the first content that a layer has there. -/
def Fills (layers : List Metadata) (m : Metadata) : Prop := ∀ f, m.get f = Value.firstFull (layers.map (·.get f))

variable {m m' own base base' : Metadata} {layers : List Metadata} {f : Field}

theorem ext_get (h : ∀ f, m.get f = m'.get f) : m = m' := by
  have capturedAt : m.capturedAt = m'.capturedAt := Value.momentOf_inj (h .capturedAt)
  cases m
  cases m'
  rw [mk.injEq]
  exact ⟨Value.text.inj (h .host), Value.text.inj (h .agentVersion), Value.text.inj (h .agentBuild),
    Value.text.inj (h .session), Value.text.inj (h .timezone), capturedAt, Value.text.inj (h .os),
    Value.text.inj (h .arch), Value.text.inj (h .capturer), h .interval, h .maxFiles⟩

theorem get_merge (own base : Metadata) (f : Field) : (own.merge base).get f = (own.get f).orElse (base.get f) := by
  cases f with
  | capturedAt =>
    show Value.momentOf (own.capturedAt <|> base.capturedAt) =
      (Value.momentOf own.capturedAt).orElse (Value.momentOf base.capturedAt)
    cases own.capturedAt <;> rfl
  | interval | maxFiles => rfl
  | _ => exact Value.text_firstText _ _

theorem fills_self (m : Metadata) : m.Fills [m] := fun f => (Value.firstFull_singleton (m.get f)).symm

/-- A layer in front. -/
theorem Fills.merge (h : base.Fills layers) (ne : layers ≠ []) (own : Metadata) :
    (own.merge base).Fills (own :: layers) := by
  intro f
  have rest : layers.map (·.get f) ≠ [] := by simpa using ne
  rw [get_merge, List.map_cons, Value.firstFull_cons _ rest, h f]

theorem fills_merge (own base : Metadata) : (own.merge base).Fills [own, base] :=
  (fills_self base).merge (List.cons_ne_nil base []) own

theorem Fills.not_isEmpty (h : m.Fills layers) (mem : base ∈ layers) (full : ¬ (base.get f).isEmpty) :
    ¬ (m.get f).isEmpty := by
  rw [h f]
  exact Value.not_isEmpty_firstFull full (List.mem_map_of_mem mem)

theorem Fills.capturer_ne (h : m.Fills layers) (mem : base ∈ layers) (named : base.capturer ≠ "") :
    m.capturer ≠ "" := by
  have full : ¬ (m.get .capturer).isEmpty := h.not_isEmpty mem (Value.not_isEmpty_text named)
  intro none
  simp [get, none, Value.isEmpty] at full

theorem merge_eq_left (h : ∀ f, (m.get f).isEmpty → base.get f = m.get f) : m.merge base = m := by
  apply ext_get
  intro f
  rw [get_merge]
  by_cases empty : (m.get f).isEmpty
  · rw [Value.orElse_of_isEmpty empty, h f empty]
  · exact Value.orElse_of_not_isEmpty empty

/-- The last layer changes nothing any more, nor does one that says the same of all but the time, if a time is
there. -/
theorem Fills.merge_last (h : m.Fills [own, base]) (timed : base.capturedAt.isSome)
    (same : ∀ f ≠ .capturedAt, base'.get f = base.get f) : m.merge base' = m := by
  apply merge_eq_left
  intro f empty
  have other : f ≠ .capturedAt := by
    rintro rfl
    have full : ¬ (base.get .capturedAt).isEmpty := by
      obtain ⟨t, ht⟩ := Option.isSome_iff_exists.1 timed
      simp [get, ht, Value.momentOf, Value.isEmpty]
    exact h.not_isEmpty (List.mem_cons_of_mem own (List.mem_singleton_self base)) full empty
  have filled : m.get f = (own.get f).orElse (base.get f) := by
    rw [h f]
    exact Value.firstFull_pair _ _
  rw [same f other, filled]
  by_cases gap : (own.get f).isEmpty
  · rw [Value.orElse_of_isEmpty gap]
  · rw [filled, Value.orElse_of_not_isEmpty gap] at empty
    exact absurd empty gap

end Metadata

end HostWatch
