import HostWatch.OrderedMap

/-!
# Maps without repeated keys

`OrderedMap.Distinct`: no key stands twice. Setting and leaving out keep it so, and then leaving out
entries does to a lookup what it does to the map (`OrderedMap.get?_filter`).
-/

namespace HostWatch.OrderedMap

variable {κ α : Type} [BEq κ]

/-- No two keys of the map are equal. -/
def Distinct (m : OrderedMap κ α) : Prop := (keys m).Pairwise fun k l => (k == l) = false

instance (m : OrderedMap κ α) : Decidable (Distinct m) :=
  inferInstanceAs (Decidable ((keys m).Pairwise fun k l => (k == l) = false))

theorem distinct_nil : Distinct ([] : OrderedMap κ α) := .nil

theorem distinct_cons {e : κ × α} {m : OrderedMap κ α} :
    Distinct (e :: m) ↔ (∀ f ∈ m, (e.1 == f.1) = false) ∧ Distinct m := by
  simp [Distinct, keys, List.pairwise_cons]

theorem keys_set (m : OrderedMap κ α) (key : κ) (b : α) :
    keys (set m key b) = if contains m key then keys m else keys m ++ [key] := by
  induction m with
  | nil => rfl
  | cons e m ih =>
    unfold set contains get?
    by_cases h : e.1 == key
    · simp [h, keys]
    · simp only [h, Bool.false_eq_true, if_false]
      unfold keys contains at ih
      simp only [keys, List.map_cons, ih]
      split <;> rfl

theorem not_contains_iff {m : OrderedMap κ α} {key : κ} :
    contains m key = false ↔ ∀ k ∈ keys m, (k == key) = false := by
  induction m with
  | nil => simp [contains, keys]
  | cons e m ih =>
    simp only [contains, keys, List.map_cons, List.forall_mem_cons, get?] at ih ⊢
    by_cases h : e.1 == key
    · simp [h]
    · simp [h, ih]

theorem Distinct.set {m : OrderedMap κ α} (h : Distinct m) (key : κ) (b : α) :
    Distinct (set m key b) := by
  unfold Distinct
  rw [keys_set]
  split
  · exact h
  · rename_i hc
    have absent := not_contains_iff.1 (Bool.not_eq_true _ ▸ hc)
    exact List.pairwise_append.2 ⟨h, List.pairwise_singleton _ _, fun k hk l hl =>
      List.mem_singleton.1 hl ▸ absent k hk⟩

theorem Distinct.filter {m : OrderedMap κ α} (h : Distinct m) (p : κ × α → Bool) :
    Distinct (m.filter p) :=
  List.Pairwise.sublist (List.filter_sublist.map Prod.fst) h

theorem length_set_le (m : OrderedMap κ α) (key : κ) (b : α) : (OrderedMap.set m key b).length ≤ m.length + 1 := by
  have same (m : OrderedMap κ α) : m.length = (keys m).length := (List.length_map ..).symm
  rw [same, same, keys_set]
  split <;> simp

theorem get?_eq_none_of_forall {m : OrderedMap κ α} {key : κ} (h : ∀ e ∈ m, (e.1 == key) = false) :
    get? m key = none := by
  induction m with
  | nil => rfl
  | cons e m ih =>
    obtain ⟨he, hm⟩ := List.forall_mem_cons.1 h
    simp [get?, he, ih hm]

theorem get?_congr [PartialEquivBEq κ] (m : OrderedMap κ α) {k l : κ} (h : k == l) :
    get? m k = get? m l := by
  induction m with
  | nil => rfl
  | cons e m ih =>
    have same : (e.1 == k) = (e.1 == l) := BEq.congr_right h
    simp only [get?, same, ih]

theorem mem_of_get? [LawfulBEq κ] {m : OrderedMap κ α} {key : κ} {a : α} (h : get? m key = some a) :
    (key, a) ∈ m := by
  induction m with
  | nil => cases h
  | cons e m ih =>
    unfold get? at h
    split at h
    · rename_i heq
      obtain rfl := eq_of_beq heq
      obtain rfl := Option.some.inj h
      exact List.mem_cons_self ..
    · exact List.mem_cons_of_mem _ (ih h)

theorem exists_get?_of_mem_keys [ReflBEq κ] {m : OrderedMap κ α} {key : κ} (h : key ∈ keys m) :
    ∃ a, get? m key = some a := by
  rcases ha : get? m key with _ | a
  · have absent : contains m key = false := by rw [contains, ha]; rfl
    have differs := not_contains_iff.1 absent key h
    rw [BEq.rfl] at differs
    cases differs
  · exact ⟨a, rfl⟩

theorem get?_map_values {β : Type} (f : α → β) (m : OrderedMap κ α) (key : κ) :
    get? (m.map fun e => (e.1, f e.2)) key = (get? m key).map f := by
  induction m with
  | nil => rfl
  | cons e m ih =>
    simp only [List.map_cons, get?, ih]
    split <;> rfl

theorem get?_append (m n : OrderedMap κ α) (key : κ) :
    get? (m ++ n) key = (get? m key).or (get? n key) := by
  induction m with
  | nil => rfl
  | cons e m ih =>
    rw [List.cons_append, get?, get?, ih]
    split <;> rfl

theorem set_append_of_none {m : OrderedMap κ α} {key : κ} (h : get? m key = none) (n : OrderedMap κ α)
    (a : α) : set (m ++ n) key a = m ++ set n key a := by
  induction m with
  | nil => rfl
  | cons e m ih =>
    rw [get?] at h
    split at h
    · cases h
    · rename_i hk
      rw [List.cons_append, set, if_neg hk, ih h]
      rfl

theorem of_mem_set {m : OrderedMap κ α} {key : κ} {b : α} {e : κ × α} (h : e ∈ set m key b) :
    e ∈ m ∨ e.2 = b := by
  induction m with
  | nil => exact .inr (congrArg Prod.snd (List.mem_singleton.1 h))
  | cons x m ih =>
    unfold set at h
    split at h
    · rcases List.mem_cons.1 h with rfl | h
      · exact .inr rfl
      · exact .inl (List.mem_cons_of_mem _ h)
    · rcases List.mem_cons.1 h with rfl | h
      · exact .inl (List.mem_cons_self ..)
      · exact (ih h).imp_left (List.mem_cons_of_mem _)

theorem set_map {β : Type} (f : α → β) (m : OrderedMap κ α) (key : κ) (a : α) :
    set (m.map fun e => (e.1, f e.2)) key (f a) = (set m key a).map fun e => (e.1, f e.2) := by
  induction m with
  | nil => rfl
  | cons e m ih =>
    simp only [List.map_cons, set]
    split
    · rfl
    · rw [ih]
      rfl

theorem get?_filter [PartialEquivBEq κ] {m : OrderedMap κ α} (h : Distinct m) (p : α → Bool) (key : κ) :
    get? (m.filter fun e => p e.2) key = (get? m key).filter p := by
  induction m with
  | nil => rfl
  | cons e m ih =>
    obtain ⟨he, hm⟩ := distinct_cons.1 h
    by_cases hk : e.1 == key
    · have absent : get? (m.filter fun e => p e.2) key = none :=
        get?_eq_none_of_forall fun f hf => by
          have := he f (List.mem_filter.1 hf).1
          rw [Bool.eq_false_iff] at this ⊢
          exact fun hfk => this (BEq.trans hk (BEq.symm hfk))
      by_cases hp : p e.2
      · simp [hp, get?, hk, Option.filter]
      · simp [hp, get?, hk, absent, Option.filter]
    · by_cases hp : p e.2
      · simp [hp, get?, hk, ih hm]
      · simp [hp, get?, hk, ih hm]

/-- Pairs with distinct keys are a map as they stand. -/
theorem ofPairs_of_distinct {m : OrderedMap κ α} (h : Distinct m) : ofPairs m = m := by
  suffices add : ∀ n : OrderedMap κ α, Distinct (n ++ m) → m.foldl (fun m e => set m e.1 e.2) n = n ++ m from
    add [] h
  clear h
  induction m with
  | nil => exact fun n _ => (List.append_nil n).symm
  | cons e m ih =>
    intro n distinct
    have absent : get? n e.1 = none := get?_eq_none_of_forall fun f hf => by
      rw [Distinct, keys, List.map_append, List.pairwise_append] at distinct
      exact distinct.2.2 f.1 (List.mem_map_of_mem hf) e.1 (List.mem_cons_self ..)
    have added : set n e.1 e.2 = n ++ [e] := by
      have last := set_append_of_none absent [] e.2
      rwa [List.append_nil] at last
    rw [List.foldl_cons, added, ih _ (by simpa using distinct), List.append_assoc]
    rfl

theorem Distinct.update {m : OrderedMap κ α} (h : Distinct m) (n : OrderedMap κ α) : Distinct (update m n) := by
  unfold OrderedMap.update
  induction n generalizing m with
  | nil => exact h
  | cons e n ih => exact ih (h.set e.1 e.2)

theorem distinct_ofPairs (pairs : List (κ × α)) : Distinct (ofPairs pairs) := distinct_nil.update pairs

/-! ### Keys that are equal only to themselves -/

section
variable [LawfulBEq κ] {m : OrderedMap κ α} {key : κ} {a : α}

theorem distinct_iff_nodup : Distinct m ↔ (keys m).Nodup := by
  simp only [Distinct, List.Nodup, beq_eq_false_iff_ne]

theorem isSome_get? : (get? m key).isSome ↔ key ∈ keys m := by
  refine ⟨fun h => ?_, fun h => ?_⟩
  · obtain ⟨a, ha⟩ := Option.isSome_iff_exists.1 h
    exact List.mem_map_of_mem (mem_of_get? ha)
  · obtain ⟨a, ha⟩ := exists_get?_of_mem_keys h
    exact Option.isSome_iff_exists.2 ⟨a, ha⟩

theorem contains_iff : contains m key = true ↔ key ∈ keys m := isSome_get?

theorem get?_eq_none_iff : get? m key = none ↔ key ∉ keys m := by
  rw [← isSome_get?, Bool.not_eq_true, Option.isSome_eq_false_iff, Option.isNone_iff_eq_none]

theorem mem_keys_of_get? (h : get? m key = some a) : key ∈ keys m := List.mem_map_of_mem (mem_of_get? h)

theorem get?_filter_keys (p : κ → Bool) (m : OrderedMap κ α) (key : κ) :
    get? (m.filter fun e => p e.1) key = if p key then get? m key else none := by
  induction m with
  | nil => exact (ite_self _).symm
  | cons e m ih =>
    rw [List.filter_cons]
    by_cases same : e.1 = key
    · subst same
      by_cases hp : p e.1
      · simp [hp, get?]
      · simp [hp, ih]
    · by_cases hp : p e.1
      · simp [hp, get?, same, ih]
      · simp [hp, get?, same, ih]

/-- What is set last is found. -/
theorem get?_update (m : OrderedMap κ α) {n : OrderedMap κ α} (distinct : Distinct n) (key : κ) :
    get? (OrderedMap.update m n) key = (get? n key).or (get? m key) := by
  unfold OrderedMap.update
  induction n generalizing m with
  | nil => rfl
  | cons e n ih =>
    obtain ⟨he, hn⟩ := distinct_cons.1 distinct
    rw [List.foldl_cons, ih _ hn, get?_set, get?]
    split
    · rename_i same
      have absent : get? n key = none := get?_eq_none_of_forall fun f hf => by
        rw [← eq_of_beq same, BEq.comm]
        exact he f hf
      rw [absent]
      rfl
    · rfl

theorem mem_keys_update {m n : OrderedMap κ α} : key ∈ keys (OrderedMap.update m n) ↔ key ∈ keys m ∨ key ∈ keys n := by
  unfold OrderedMap.update
  induction n generalizing m with
  | nil => simp [keys]
  | cons e n ih =>
    rw [List.foldl_cons, ih, mem_keys_set]
    unfold keys
    rw [List.map_cons, List.mem_cons]
    grind

theorem mem_keys_ofPairs {pairs : List (κ × α)} : key ∈ keys (ofPairs pairs) ↔ key ∈ pairs.map Prod.fst := by
  have set : key ∈ keys (OrderedMap.update [] pairs) ↔ _ := mem_keys_update
  exact set.trans ⟨fun h => h.resolve_left List.not_mem_nil, .inr⟩

theorem of_get?_update {m n : OrderedMap κ α} (h : get? (OrderedMap.update m n) key = some a) :
    get? m key = some a ∨ (key, a) ∈ n := by
  unfold OrderedMap.update at h
  induction n generalizing m with
  | nil => exact .inl h
  | cons e n ih =>
    rcases ih h with hm | hn
    · rw [get?_set] at hm
      split at hm
      · rename_i same
        obtain rfl := eq_of_beq same
        obtain rfl := Option.some.inj hm
        exact .inr (List.mem_cons_self ..)
      · exact .inl hm
    · exact .inr (List.mem_cons_of_mem _ hn)

theorem mem_of_get?_ofPairs {pairs : List (κ × α)} (h : get? (ofPairs pairs) key = some a) : (key, a) ∈ pairs :=
  (of_get?_update h).resolve_left fun none => by cases none

theorem Distinct.get?_iff (h : Distinct m) : get? m key = some a ↔ (key, a) ∈ m := by
  refine ⟨mem_of_get?, fun mem => ?_⟩
  induction m with
  | nil => cases mem
  | cons e m ih =>
    obtain ⟨he, hm⟩ := distinct_cons.1 h
    rcases List.mem_cons.1 mem with rfl | mem
    · rw [get?, if_pos BEq.rfl]
    · rw [get?, if_neg (by rw [he _ mem]; exact Bool.false_ne_true), ih hm mem]

end

end HostWatch.OrderedMap
