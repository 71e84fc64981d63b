import HostWatch.Proofs.Json.Scanning
import HostWatch.Proofs.OrderedMap

/-!
# What is written is read back

The text of a value that JSON has a form for is read as that value, however it is laid out, by every reader
within whose limits the value lies (`Json.parse_textOf`). Such a value is written exactly if it lies within the
limits of the writer (`Json.IsJson.render_eq_ok_iff`), so that a reader with the same limits takes all that is
written (`Json.parse_render`). The induction is on the value; what it carries is `Json.Reads`, that the text of
the value is read as far as it goes, whatever ends it.
-/

namespace HostWatch.Json

/-- A finite double whose printed form is read as the same double. -/
structure ReadsBack (x : Float) : Prop where
  finite : ∃ negative mantissa exponent, Binary64.parts x = .finite negative mantissa exponent
  same : parse (textOf .plain (.double x)) = .ok (.double x)

/-- A value that JSON has a form for. No object has two entries of one name. -/
inductive IsJson : Value → Prop where
  | null : IsJson .null
  | bool (b : Bool) : IsJson (.bool b)
  | int (n : Int) : IsJson (.int n)
  | double {x : Float} (back : ReadsBack x) : IsJson (.double x)
  | text (s : String) : IsJson (.text s)
  | list {items : List Value} (all : ∀ v ∈ items, IsJson v) : IsJson (.list items)
  | object {fields : List (String × Value)} (distinct : OrderedMap.Distinct fields)
      (all : ∀ e ∈ fields, IsJson e.2) : IsJson (.object fields)

/-! ### Limits -/

instance : LE Limits := ⟨fun a b => a.digits ≤ b.digits ∧ a.depth ≤ b.depth⟩

instance : DecidableLE Limits := fun a b =>
  inferInstanceAs (Decidable (a.digits ≤ b.digits ∧ a.depth ≤ b.depth))

instance : Max Limits := ⟨fun a b => ⟨max a.digits b.digits, max a.depth b.depth⟩⟩

mutual

/-- The least limits within which a value lies. -/
def extent : Value → Limits
  | .number (.int n) => ⟨(Nat.toDigits 10 n.natAbs).length, 0⟩
  | .list items => ⟨(extentItems items).digits, (extentItems items).depth + 1⟩
  | .object fields => ⟨(extentFields fields).digits, (extentFields fields).depth + 1⟩
  | _ => ⟨0, 0⟩

def extentItems : List Value → Limits
  | [] => ⟨0, 0⟩
  | v :: rest => max (extent v) (extentItems rest)

def extentFields : List (String × Value) → Limits
  | [] => ⟨0, 0⟩
  | (_, v) :: rest => max (extent v) (extentFields rest)

end

namespace Limits
variable {a b c : Limits}

theorem le_def : a ≤ b ↔ a.digits ≤ b.digits ∧ a.depth ≤ b.depth := Iff.rfl

theorem le_trans (h : a ≤ b) (h' : b ≤ c) : a ≤ c := ⟨h.1.trans h'.1, h.2.trans h'.2⟩

theorem max_le : max a b ≤ c ↔ a ≤ c ∧ b ≤ c := by
  have digits : (max a b).digits = max a.digits b.digits := rfl
  have depth : (max a b).depth = max a.depth b.depth := rfl
  simp only [le_def, digits, depth]
  omega

end Limits

theorem extentItems_le {items : List Value} {limits : Limits} :
    extentItems items ≤ limits ↔ ∀ v ∈ items, extent v ≤ limits := by
  induction items with
  | nil => simp [extentItems, Limits.le_def]
  | cons v rest ih => rw [extentItems, Limits.max_le, ih, List.forall_mem_cons]

theorem extentFields_le {fields : List (String × Value)} {limits : Limits} :
    extentFields fields ≤ limits ↔ ∀ e ∈ fields, extent e.2 ≤ limits := by
  induction fields with
  | nil => simp [extentFields, Limits.le_def]
  | cons e rest ih => rw [extentFields, Limits.max_le, ih, List.forall_mem_cons]

/-- What is in an object lies within the limits of the object. -/
theorem extent_le_of_mem {fields : List (String × Value)} {limits : Limits} {e : String × Value}
    (within : extent (.object fields) ≤ limits) (mem : e ∈ fields) : extent e.2 ≤ limits := by
  rw [extent] at within
  exact extentFields_le.1 ⟨within.1, Nat.le_of_succ_le within.2⟩ e mem

/-! ### What is written at all -/

section Obstacles
variable {manner : Manner} {digits room : Nat} {items : List Value} {fields : List (String × Value)} {v : Value}
  {obstacle : Obstacle}

theorem obstacleInItems?_eq : obstacleInItems? manner digits room items =
    items.findSome? (obstacle? manner digits room) := by
  induction items with
  | nil => rfl
  | cons v rest ih =>
    rw [obstacleInItems?, ih, List.findSome?_cons]
    cases obstacle? manner digits room v <;> rfl

theorem obstacleInFields?_eq : obstacleInFields? manner digits room fields =
    fields.findSome? fun e => obstacle? manner digits room e.2 := by
  induction fields with
  | nil => rfl
  | cons e rest ih =>
    rw [obstacleInFields?, ih, List.findSome?_cons]
    cases obstacle? manner digits room e.2 <;> rfl

/-- By induction on the value; each list or object takes one level of the room. -/
theorem IsJson.obstacle?_eq_none_iff (json : IsJson v) :
    obstacle? manner digits room v = none ↔ extent v ≤ ⟨digits, room⟩ := by
  have within (room depth : Nat) : depth + 1 ≤ room ↔ room ≠ 0 ∧ depth ≤ room - 1 := by omega
  induction json generalizing room with
  | null | bool | double | text => simp [obstacle?, extent, Limits.le_def]
  | int n => simp [obstacle?, extent, Limits.le_def]
  | @list items _ ih =>
    have inside : (∀ v ∈ items, obstacle? manner digits (room - 1) v = none) ↔
        extentItems items ≤ ⟨digits, room - 1⟩ :=
      Iff.trans (forall₂_congr fun v hv => ih v hv) extentItems_le.symm
    simp only [obstacle?, extent, Limits.le_def, within] at inside ⊢
    split
    · simp [*]
    · rename_i positive
      rw [obstacleInItems?_eq, List.findSome?_eq_none_iff, inside]
      exact and_congr_right fun _ => (and_iff_right positive).symm
  | @object fields _ _ ih =>
    have inside : (∀ e ∈ fields, obstacle? manner digits (room - 1) e.2 = none) ↔
        extentFields fields ≤ ⟨digits, room - 1⟩ :=
      Iff.trans (forall₂_congr fun e he => ih e he) extentFields_le.symm
    simp only [obstacle?, extent, Limits.le_def, within] at inside ⊢
    split
    · simp [*]
    · rename_i positive
      rw [obstacleInFields?_eq, List.findSome?_eq_none_iff, inside]
      exact and_congr_right fun _ => (and_iff_right positive).symm

/-- Nothing but its size keeps a value that JSON has a form for from being written. -/
theorem IsJson.obstacle?_eq_some (json : IsJson v) (found : obstacle? manner digits room v = some obstacle) :
    obstacle = .tooLong digits ∨ obstacle = manner.tooDeep := by
  induction json generalizing room with
  | null | bool | double | text => simp [obstacle?] at found
  | int n =>
    simp only [obstacle?, Option.ite_none_right_eq_some, Option.some.injEq] at found
    exact .inl found.2.symm
  | list _ ih =>
    rw [obstacle?] at found
    split at found
    · exact .inr (Option.some.inj found).symm
    · rw [obstacleInItems?_eq] at found
      obtain ⟨v, hv, inside⟩ := List.exists_of_findSome?_eq_some found
      exact ih v hv inside
  | object _ _ ih =>
    rw [obstacle?] at found
    split at found
    · exact .inr (Option.some.inj found).symm
    · rw [obstacleInFields?_eq] at found
      obtain ⟨e, he, inside⟩ := List.exists_of_findSome?_eq_some found
      exact ih e he inside

/-- A value that JSON has a form for is written exactly if it lies within the limits. -/
theorem IsJson.render_eq_ok_iff {layout : Layout} {limits : Limits} {s : String} (json : IsJson v) :
    render layout v limits = .ok s ↔ extent v ≤ limits ∧ s = textOf layout v := by
  unfold render
  split
  · rename_i obstacle found
    have beyond : ¬ extent v ≤ limits := fun within => by
      rw [json.obstacle?_eq_none_iff.2 within] at found
      cases found
    simp [beyond]
  · rename_i free
    have within : extent v ≤ limits := json.obstacle?_eq_none_iff.1 free
    simp [within, eq_comm]

end Obstacles

/-! ### Blanks -/

section Blanks
variable {layout : Layout} {c : Char} {l : List Char}

theorem skipSpace_cons (h : isSpace c = false) : skipSpace (c :: l) = c :: l := by simp [skipSpace, h]

theorem skipSpace_space : skipSpace (' ' :: l) = skipSpace l := by simp [skipSpace, isSpace]

theorem skipSpace_lineBreak (depth : Nat) : skipSpace (lineBreak layout depth ++ l) = skipSpace l := by
  have blanks (n : Nat) : skipSpace (List.replicate n ' ' ++ l) = skipSpace l := by
    induction n with
    | zero => rfl
    | succ n ih => rw [List.replicate_succ, List.cons_append, skipSpace_space, ih]
  unfold lineBreak
  split
  · rfl
  · rename_i width _
    have lineFeed : skipSpace ('\n' :: (List.replicate (width * depth) ' ' ++ l)) =
        skipSpace (List.replicate (width * depth) ' ' ++ l) := by simp [skipSpace, isSpace]
    rw [List.cons_append, lineFeed, blanks]

theorem separator_eq (layout : Layout) (depth : Nat) : ∃ blank, separator layout depth = ',' :: blank ∧
    ∀ l, skipSpace (blank ++ l) = skipSpace l := by
  unfold separator
  split
  · exact ⟨[' '], rfl, fun _ => skipSpace_space⟩
  · exact ⟨_, rfl, fun _ => skipSpace_lineBreak depth⟩

/-- What closes a list or an object ends a number before it. -/
theorem ends_lineBreak (depth : Nat) (h : isNumeral c = false) : Ends (lineBreak layout depth ++ c :: l) := by
  unfold lineBreak
  split
  · exact ends_cons.2 h
  · exact ends_cons.2 (by decide)

end Blanks

/-! ### How the text of a value begins -/

/-- The text begins with a character that neither is a blank nor closes a list. -/
def Begins (l : List Char) : Prop := ∃ c m, l = c :: m ∧ isSpace c = false ∧ c ≠ ']'

section Begins
variable {layout : Layout} {l m : List Char} {v : Value} {x : Float}

theorem Begins.append (h : Begins l) (m : List Char) : Begins (l ++ m) := by
  obtain ⟨c, l, rfl, space, bracket⟩ := h
  exact ⟨c, l ++ m, rfl, space, bracket⟩

theorem Begins.skipSpace (h : Begins l) : skipSpace l = l := by
  obtain ⟨c, l, rfl, space, -⟩ := h
  exact skipSpace_cons space

theorem Begins.pos (h : Begins l) : 0 < l.length := by
  obtain ⟨c, l, rfl, -⟩ := h
  exact Nat.succ_pos _

theorem not_isSpace_of_isNumeral {c : Char} (h : isNumeral c = true) : isSpace c = false := by
  rw [Bool.eq_false_iff]
  intro space
  simp only [isSpace, Bool.or_eq_true, beq_iff_eq] at space
  rcases space with ((rfl | rfl) | rfl) | rfl <;> exact absurd h (by decide)

theorem Numeral.begins (h : Numeral l) (filled : l ≠ []) : Begins l := by
  rcases l with _ | ⟨c, l⟩
  · exact absurd rfl filled
  · have first := (numeral_cons.1 h).1
    refine ⟨c, l, rfl, not_isSpace_of_isNumeral first, ?_⟩
    rintro rfl
    exact absurd first (by decide)

theorem numeral_int (n : Int) : Numeral (toString n).toList := by
  rw [toList_toString_int]
  have minus : isNumeral '-' = true := by decide
  split <;> simp [minus, numeral_toDigits]

theorem begins_int (n : Int) : Begins (toString n).toList := by
  refine (numeral_int n).begins ?_
  rw [toList_toString_int]
  simp

/-- What begins with neither a quote nor a bracket is a word or a number. -/
theorem value_of_head {digits fuel room : Nat} {cs : List Char}
    (h : ∀ c ∈ cs.head?, c ≠ '"' ∧ c ≠ '[' ∧ c ≠ '\x7b') :
    value digits (fuel + 1) room cs = required (scalar? digits cs) := by
  rcases cs with _ | ⟨c, cs⟩
  · simp [value]
  · obtain ⟨quote, bracket, brace⟩ := h c rfl
    rw [value]
    · simp [quote]
    · simp [bracket]
    · simp [brace]
    · simp [bracket]
    · simp [brace]

/-- The numeral of a double that is read back is read to its end, whatever the reader takes otherwise. -/
theorem ReadsBack.scalar? (back : ReadsBack x) (digits : Nat) :
    Json.scalar? digits (number (.double x)) = some (.double x, []) := by
  obtain ⟨_, _, _, finite⟩ := back.finite
  have numeral := numeral_double finite
  have blanks {l : List Char} (h : Numeral l) : Json.skipSpace l = l := by
    rcases l with _ | ⟨c, l⟩
    · rfl
    · exact skipSpace_cons (not_isSpace_of_isNumeral (numeral_cons.1 h).1)
  have head : ∀ c ∈ (number (.double x)).head?, c ≠ '"' ∧ c ≠ '[' ∧ c ≠ '\x7b' := by
    intro c hc
    have first := numeral c (List.mem_of_mem_head? hc)
    refine ⟨?_, ?_, ?_⟩ <;> (rintro rfl; exact absurd first (by decide))
  have same := back.same
  have chars : (textOf .plain (.double x)).toList = number (.double x) := String.toList_ofList
  simp only [parse, chars, blanks numeral, value_of_head head] at same
  rcases found : Json.scalar? maxIntegerDigits (number (.double x)) with _ | ⟨v, t⟩
  · simp [found, required, bind, Except.bind] at same
  · have left := blanks fun c hc => numeral c ((scalar?_suffix found).subset hc)
    simp only [found, required, bind, Except.bind, left] at same
    split at same
    · rename_i ended
      obtain rfl := Except.ok.inj same
      obtain rfl := List.isEmpty_iff.1 ended
      exact scalar?_double found
    · cases same

theorem begins_renderAt (layout : Layout) (json : IsJson v) (depth : Nat) : Begins (renderAt layout depth v) := by
  cases json with
  | null => exact ⟨'n', _, rfl, rfl, by decide⟩
  | bool b => cases b <;> exact ⟨_, _, rfl, rfl, by decide⟩
  | int n => exact begins_int n
  | @double x back =>
    obtain ⟨_, _, _, finite⟩ := back.finite
    have filled : number (.double x) ≠ [] := by
      intro none
      have read := back.scalar? 0
      rw [none] at read
      cases read
    exact (numeral_double finite).begins filled
  | text s => exact ⟨'"', _, rfl, rfl, by decide⟩
  | @list items _ =>
    rcases items with _ | ⟨v, rest⟩
    · exact ⟨'[', _, by rw [renderAt], rfl, by decide⟩
    · rw [renderAt]
      exact ⟨'[', _, rfl, rfl, by decide⟩
  | @object fields _ _ =>
    rcases fields with _ | ⟨⟨k, v⟩, rest⟩
    · exact ⟨'\x7b', _, by rw [renderAt], rfl, by decide⟩
    · rw [renderAt]
      exact ⟨'\x7b', _, rfl, rfl, by decide⟩

end Begins

/-! ### Values -/

/-- The text of a value is read as the value, whatever ends it. -/
def Reads (layout : Layout) (digits : Nat) (v : Value) : Prop :=
  ∀ depth fuel room rest, 2 * (renderAt layout depth v).length ≤ fuel + 1 → (extent v).depth ≤ room →
    Ends rest → value digits fuel room (renderAt layout depth v ++ rest) = .ok (v, rest)

section Values
variable {layout : Layout} {digits fuel room depth outer : Nat} {v : Value} {cs rest : List Char}

theorem value_of_scalar? {t : List Char} (h : scalar? digits cs = some (v, t)) :
    value digits (fuel + 1) room cs = .ok (v, t) := by
  rw [value_of_head, h]
  · rfl
  · intro c hc
    rcases cs with _ | ⟨d, cs⟩
    · cases hc
    · obtain rfl : d = c := Option.some.inj hc
      refine ⟨?_, ?_, ?_⟩ <;> (rintro rfl; simp [scalar?, number?, wholePart] at h)

theorem reads_of_scalar? (h : ∀ depth, scalar? digits (renderAt layout depth v) = some (v, [])) :
    Reads layout digits v := by
  intro depth fuel room rest enough _ ends
  have read := ends.scalar?_append (h depth)
  have filled : 0 < (renderAt layout depth v).length := by
    rw [List.length_pos_iff]
    intro none
    have nothing := h depth
    rw [none] at nothing
    cases nothing
  obtain ⟨fuel, rfl⟩ : ∃ k, fuel = k + 1 := ⟨fuel - 1, by omega⟩
  exact value_of_scalar? read

theorem length_le_flatMap_escapeChar (ascii : Bool) (s : List Char) :
    s.length ≤ (s.flatMap (escapeChar ascii)).length := by
  have one (c : Char) : escapeChar ascii c ≠ [] := by
    unfold escapeChar
    iterate 7 (split; · exact List.cons_ne_nil _ _)
    split
    · exact List.cons_ne_nil _ _
    split
    · split <;> exact List.cons_ne_nil _ _
    · exact List.cons_ne_nil _ _
  induction s with
  | nil => simp
  | cons c s ih =>
    have := List.length_pos_iff.2 (one c)
    rw [List.flatMap_cons, List.length_append, List.length_cons]
    omega

/-- A quoted text is read after its opening quote. -/
theorem stringBody?_quote (ascii : Bool) {s : List Char} (enough : (quote ascii s).length ≤ fuel + 1)
    (rest : List Char) : ∃ body, quote ascii s ++ rest = '"' :: body ∧
      stringBody? fuel [] body = some (s, rest) := by
  have count := length_le_flatMap_escapeChar ascii s
  simp only [quote, List.cons_append, List.length_cons, List.length_append, List.length_nil] at enough
  refine ⟨s.flatMap (escapeChar ascii) ++ '"' :: rest, by simp [quote], ?_⟩
  rw [stringBody?_quoted ascii (by omega)]
  rfl

theorem reads_text (s : String) : Reads layout digits (.text s) := by
  intro depth fuel room rest enough _ _
  have text : renderAt layout depth (.text s) = quote layout.ascii s.toList := by rw [renderAt]
  rw [text] at enough ⊢
  have filled : 2 ≤ (quote layout.ascii s.toList).length := by simp [quote]
  obtain ⟨fuel, rfl⟩ : ∃ k, fuel = k + 1 := ⟨fuel - 1, by omega⟩
  have short : (quote layout.ascii s.toList).length ≤ fuel + 1 + 1 := by omega
  obtain ⟨body, opened, read⟩ := stringBody?_quote layout.ascii short rest
  rw [opened]
  simp [value, read, required]

/-- A list that is not empty goes on to its items. -/
theorem value_list {body : List Char} (begins : Begins body) :
    value digits (fuel + 1) (room + 1) ('[' :: (lineBreak layout depth ++ body)) = (do
      let (items, rest) ← items digits fuel room body
      return (.list items, rest)) := by
  have opened : skipSpace (lineBreak layout depth ++ body) = body :=
    (skipSpace_lineBreak depth).trans begins.skipSpace
  obtain ⟨c, m, rfl, -, bracket⟩ := begins
  rw [value, opened]
  simp [bracket]

/-- An object that is not empty goes on to its fields. -/
theorem value_object (ascii : Bool) (s : List Char) :
    value digits (fuel + 1) (room + 1) ('\x7b' :: (lineBreak layout depth ++ (quote ascii s ++ cs))) = (do
      let (fields, rest) ← fields digits fuel room (quote ascii s ++ cs)
      return (.object (OrderedMap.ofPairs fields), rest)) := by
  have opened : skipSpace (lineBreak layout depth ++ (quote ascii s ++ cs)) = quote ascii s ++ cs :=
    (skipSpace_lineBreak depth).trans (skipSpace_cons rfl)
  rw [value, opened]
  simp [quote]

/-- The first item of a list, and what is made of what follows it. -/
theorem items_value {after : List Char} (json : IsJson v) (reads : Reads layout digits v)
    (shallow : (extent v).depth ≤ room) (enough : 2 * (renderAt layout depth v).length ≤ fuel)
    (ends : Ends after) : 0 < fuel ∧ items digits fuel room (renderAt layout depth v ++ after) =
      match skipSpace after with
      | ']' :: rest => .ok ([v], rest)
      | ',' :: rest => do
        let (more, rest) ← items digits (fuel - 1) room (skipSpace rest)
        return (v :: more, rest)
      | _ => throw .malformed := by
  have pos := (begins_renderAt layout json depth).pos
  -- every character is worth two units of fuel, and the item has at least one character
  obtain ⟨fuel, rfl⟩ : ∃ k, fuel = k + 1 := ⟨fuel - 1, by omega⟩
  have one := reads depth fuel room after (by omega) shallow ends
  rw [items, one]
  exact ⟨Nat.succ_pos _, rfl⟩

/-- The name of a field is read, and then its value. -/
theorem fields_step {ascii : Bool} {k : String} {text : List Char} (begins : Begins text)
    (short : (quote ascii k.toList).length ≤ fuel + 1 + 1) :
    fields digits (fuel + 1) room (quote ascii k.toList ++ ':' :: ' ' :: text) = (do
      let (v, rest) ← value digits fuel room text
      match skipSpace rest with
      | '\x7d' :: rest => return ([(k, v)], rest)
      | ',' :: rest => do
        let (more, rest) ← fields digits fuel room (skipSpace rest)
        return ((k, v) :: more, rest)
      | _ => throw .malformed) := by
  obtain ⟨body, opened, key⟩ := stringBody?_quote ascii short (':' :: ' ' :: text)
  have colon : skipSpace (':' :: ' ' :: text) = ':' :: ' ' :: text := skipSpace_cons rfl
  have blank : skipSpace (' ' :: text) = text := skipSpace_space.trans begins.skipSpace
  have step := congrArg (fields digits (fuel + 1) room) opened
  simp only [fields, key, required, bind, Except.bind, colon, blank, String.ofList_toList] at step
  exact step

/-- The first field of an object, and what is made of what follows it. -/
theorem fields_value {k : String} {after : List Char} (json : IsJson v) (reads : Reads layout digits v)
    (shallow : (extent v).depth ≤ room)
    (enough : 2 * ((quote layout.ascii k.toList).length + (renderAt layout depth v).length) ≤ fuel)
    (ends : Ends after) : 0 < fuel ∧ fields digits fuel room
      (quote layout.ascii k.toList ++ ':' :: ' ' :: (renderAt layout depth v ++ after)) =
        match skipSpace after with
        | '\x7d' :: rest => .ok ([(k, v)], rest)
        | ',' :: rest => do
          let (more, rest) ← fields digits (fuel - 1) room (skipSpace rest)
          return ((k, v) :: more, rest)
        | _ => throw .malformed := by
  have begins := begins_renderAt layout json depth
  have pos := begins.pos
  obtain ⟨fuel, rfl⟩ : ∃ k, fuel = k + 1 := ⟨fuel - 1, by omega⟩
  have one := reads depth fuel room after (by omega) shallow ends
  have short : (quote layout.ascii k.toList).length ≤ fuel + 1 + 1 := by omega
  rw [fields_step (begins.append _) short, one]
  exact ⟨Nat.succ_pos _, rfl⟩

/-- The items of a list that is not empty are read up to its bracket. -/
theorem items_renderItems {vs : List Value} (json : ∀ u ∈ v :: vs, IsJson u)
    (reads : ∀ u ∈ v :: vs, Reads layout digits u) (shallow : ∀ u ∈ v :: vs, (extent u).depth ≤ room)
    (enough : 2 * ((renderAt layout depth v).length + (renderItems layout depth vs).length) ≤ fuel) :
    items digits fuel room (renderAt layout depth v ++ (renderItems layout depth vs ++
      (lineBreak layout outer ++ ']' :: rest))) = .ok (v :: vs, rest) := by
  induction vs generalizing v fuel with
  | nil =>
    have ends : Ends (lineBreak layout outer ++ ']' :: rest) := ends_lineBreak outer (by decide)
    have close : skipSpace (']' :: rest) = ']' :: rest := skipSpace_cons rfl
    have own : 2 * (renderAt layout depth v).length ≤ fuel := by omega
    obtain ⟨-, one⟩ := items_value (json v (List.mem_cons_self ..)) (reads v (List.mem_cons_self ..))
      (shallow v (List.mem_cons_self ..)) own ends
    rw [renderItems, List.nil_append, one, skipSpace_lineBreak, close]
    rfl
  | cons u vs ih =>
    obtain ⟨first, json⟩ := List.forall_mem_cons.1 json
    obtain ⟨readsFirst, reads⟩ := List.forall_mem_cons.1 reads
    obtain ⟨shallowFirst, shallow⟩ := List.forall_mem_cons.1 shallow
    have next := begins_renderAt layout (json u (List.mem_cons_self ..)) depth
    obtain ⟨blank, comma, skip⟩ := separator_eq layout depth
    let after := renderAt layout depth u ++ (renderItems layout depth vs ++ (lineBreak layout outer ++ ']' :: rest))
    have text : renderItems layout depth (u :: vs) ++ (lineBreak layout outer ++ ']' :: rest) =
        ',' :: (blank ++ after) := by simp [renderItems, comma, after]
    have size := congrArg List.length text
    simp only [after, List.length_append, List.length_cons] at size
    have ends : Ends (',' :: (blank ++ after)) := ends_cons.2 (by decide)
    have close : skipSpace (',' :: (blank ++ after)) = ',' :: (blank ++ after) := skipSpace_cons rfl
    have skipped : skipSpace (blank ++ after) = after := (skip after).trans (next.append _).skipSpace
    have own : 2 * (renderAt layout depth v).length ≤ fuel := by omega
    obtain ⟨pos, one⟩ := items_value first readsFirst shallowFirst own ends
    have less : 2 * ((renderAt layout depth u).length + (renderItems layout depth vs).length) ≤ fuel - 1 := by
      omega
    have others := ih json reads shallow less
    rw [text, one, close]
    simp only [skipped, after, others]
    rfl

/-- The fields of an object that is not empty are read up to its brace. -/
theorem fields_renderFields {k : String} {es : List (String × Value)}
    (json : ∀ e ∈ (k, v) :: es, IsJson e.2) (reads : ∀ e ∈ (k, v) :: es, Reads layout digits e.2)
    (shallow : ∀ e ∈ (k, v) :: es, (extent e.2).depth ≤ room)
    (enough : 2 * ((quote layout.ascii k.toList).length + (renderAt layout depth v).length +
      (renderFields layout depth es).length) ≤ fuel) :
    fields digits fuel room (quote layout.ascii k.toList ++ (':' :: ' ' :: (renderAt layout depth v ++
      (renderFields layout depth es ++ (lineBreak layout outer ++ '\x7d' :: rest))))) =
        .ok ((k, v) :: es, rest) := by
  induction es generalizing k v fuel with
  | nil =>
    have ends : Ends (lineBreak layout outer ++ '\x7d' :: rest) := ends_lineBreak outer (by decide)
    have close : skipSpace ('\x7d' :: rest) = '\x7d' :: rest := skipSpace_cons rfl
    have own : 2 * ((quote layout.ascii k.toList).length + (renderAt layout depth v).length) ≤ fuel := by omega
    obtain ⟨-, one⟩ := fields_value (json _ (List.mem_cons_self ..)) (reads _ (List.mem_cons_self ..))
      (shallow _ (List.mem_cons_self ..)) own ends
    rw [renderFields, List.nil_append, one, skipSpace_lineBreak, close]
    rfl
  | cons e es ih =>
    obtain ⟨l, u⟩ := e
    obtain ⟨first, json⟩ := List.forall_mem_cons.1 json
    obtain ⟨readsFirst, reads⟩ := List.forall_mem_cons.1 reads
    obtain ⟨shallowFirst, shallow⟩ := List.forall_mem_cons.1 shallow
    obtain ⟨blank, comma, skip⟩ := separator_eq layout depth
    let after := quote layout.ascii l.toList ++ (':' :: ' ' :: (renderAt layout depth u ++
      (renderFields layout depth es ++ (lineBreak layout outer ++ '\x7d' :: rest))))
    have text : renderFields layout depth ((l, u) :: es) ++ (lineBreak layout outer ++ '\x7d' :: rest) =
        ',' :: (blank ++ after) := by simp [renderFields, comma, after]
    have size := congrArg List.length text
    simp only [after, List.length_append, List.length_cons] at size
    have ends : Ends (',' :: (blank ++ after)) := ends_cons.2 (by decide)
    have close : skipSpace (',' :: (blank ++ after)) = ',' :: (blank ++ after) := skipSpace_cons rfl
    have skipped : skipSpace (blank ++ after) = after := (skip after).trans (skipSpace_cons rfl)
    have own : 2 * ((quote layout.ascii k.toList).length + (renderAt layout depth v).length) ≤ fuel := by omega
    obtain ⟨pos, one⟩ := fields_value first readsFirst shallowFirst own ends
    have less : 2 * ((quote layout.ascii l.toList).length + (renderAt layout depth u).length +
        (renderFields layout depth es).length) ≤ fuel - 1 := by omega
    have others := ih json reads shallow less
    rw [text, one, close]
    simp only [skipped, after, others]
    rfl

theorem reads_list {items : List Value} (json : ∀ v ∈ items, IsJson v)
    (reads : ∀ v ∈ items, Reads layout digits v) : Reads layout digits (.list items) := by
  intro depth fuel room rest enough shallow _
  obtain ⟨room, rfl⟩ : ∃ k, room = k + 1 := ⟨room - 1, by simp only [extent] at shallow; omega⟩
  rcases items with _ | ⟨v, vs⟩
  · simp only [renderAt, List.length_cons, List.length_nil] at enough
    obtain ⟨fuel, rfl⟩ : ∃ k, fuel = k + 1 := ⟨fuel - 1, by omega⟩
    have close : skipSpace (']' :: rest) = ']' :: rest := skipSpace_cons rfl
    simp [renderAt, value, close]
  have begins := begins_renderAt layout (json v (List.mem_cons_self ..)) (depth + 1)
  let body := renderAt layout (depth + 1) v ++ (renderItems layout (depth + 1) vs ++
    (lineBreak layout depth ++ ']' :: rest))
  have text : renderAt layout depth (.list (v :: vs)) ++ rest = '[' :: (lineBreak layout (depth + 1) ++ body) := by
    simp [renderAt, body]
  have size := congrArg List.length text
  simp only [body, List.length_append, List.length_cons] at size
  obtain ⟨fuel, rfl⟩ : ∃ k, fuel = k + 1 := ⟨fuel - 1, by omega⟩
  have inside : 2 * ((renderAt layout (depth + 1) v).length + (renderItems layout (depth + 1) vs).length) ≤ fuel := by
    omega
  have deep : ∀ u ∈ v :: vs, (extent u).depth ≤ room := by
    have all : extentItems (v :: vs) ≤ ⟨(extentItems (v :: vs)).digits, room⟩ := by
      simp only [extent] at shallow
      exact ⟨Nat.le_refl _, by simpa using shallow⟩
    exact fun u hu => (extentItems_le.1 all u hu).2
  have read : Json.items digits fuel room body = .ok (v :: vs, rest) := items_renderItems json reads deep inside
  rw [text, value_list (begins.append _), read]
  rfl

theorem reads_object {fields : List (String × Value)} (distinct : OrderedMap.Distinct fields)
    (json : ∀ e ∈ fields, IsJson e.2) (reads : ∀ e ∈ fields, Reads layout digits e.2) :
    Reads layout digits (.object fields) := by
  intro depth fuel room rest enough shallow _
  obtain ⟨room, rfl⟩ : ∃ k, room = k + 1 := ⟨room - 1, by simp only [extent] at shallow; omega⟩
  rcases fields with _ | ⟨⟨k, v⟩, es⟩
  · simp only [renderAt, List.length_cons, List.length_nil] at enough
    obtain ⟨fuel, rfl⟩ : ∃ k, fuel = k + 1 := ⟨fuel - 1, by omega⟩
    have close : skipSpace ('\x7d' :: rest) = '\x7d' :: rest := skipSpace_cons rfl
    simp [renderAt, value, close]
  let body := quote layout.ascii k.toList ++ (':' :: ' ' :: (renderAt layout (depth + 1) v ++
    (renderFields layout (depth + 1) es ++ (lineBreak layout depth ++ '\x7d' :: rest))))
  have text : renderAt layout depth (.object ((k, v) :: es)) ++ rest =
      '\x7b' :: (lineBreak layout (depth + 1) ++ body) := by simp [renderAt, body]
  have size := congrArg List.length text
  simp only [body, List.length_append, List.length_cons] at size
  obtain ⟨fuel, rfl⟩ : ∃ k, fuel = k + 1 := ⟨fuel - 1, by omega⟩
  have inside : 2 * ((quote layout.ascii k.toList).length + (renderAt layout (depth + 1) v).length +
      (renderFields layout (depth + 1) es).length) ≤ fuel := by omega
  have deep : ∀ e ∈ (k, v) :: es, (extent e.2).depth ≤ room := by
    have all : extentFields ((k, v) :: es) ≤ ⟨(extentFields ((k, v) :: es)).digits, room⟩ := by
      simp only [extent] at shallow
      exact ⟨Nat.le_refl _, by simpa using shallow⟩
    exact fun e he => (extentFields_le.1 all e he).2
  have read : Json.fields digits fuel room body = .ok ((k, v) :: es, rest) :=
    fields_renderFields json reads deep inside
  rw [text, value_object, read]
  simp only [bind, Except.bind, OrderedMap.ofPairs_of_distinct distinct]
  rfl

/-- By induction on the value. -/
theorem IsJson.reads (json : IsJson v) (short : (extent v).digits ≤ digits) : Reads layout digits v := by
  induction json with
  | null => exact reads_of_scalar? fun _ => by rw [renderAt]; rfl
  | bool b => exact reads_of_scalar? fun _ => by cases b <;> (rw [renderAt]; rfl)
  | int n => exact reads_of_scalar? fun _ => by rw [renderAt]; exact scalar?_int short
  | double back => exact reads_of_scalar? fun _ => by rw [renderAt]; exact back.scalar? digits
  | text s => exact reads_text s
  | @list items json ih =>
    have all : extentItems items ≤ ⟨digits, (extentItems items).depth⟩ := ⟨short, Nat.le_refl _⟩
    exact reads_list json fun v hv => ih v hv (extentItems_le.1 all v hv).1
  | @object fields distinct json ih =>
    have all : extentFields fields ≤ ⟨digits, (extentFields fields).depth⟩ := ⟨short, Nat.le_refl _⟩
    exact reads_object distinct json fun e he => ih e he (extentFields_le.1 all e he).1

/-- The text of a value is read as that value, however it is laid out. -/
theorem parse_textOf {limits : Limits} (layout : Layout) (json : IsJson v) (within : extent v ≤ limits) :
    parse (textOf layout v) limits = .ok v := by
  have begins := begins_renderAt layout json 0
  have chars : (textOf layout v).toList = renderAt layout 0 v := String.toList_ofList
  have reads : Reads layout limits.digits v := json.reads within.1
  have read := reads 0 (2 * (renderAt layout 0 v).length + 2) limits.depth [] (by omega) within.2 ends_nil
  rw [List.append_nil] at read
  simp only [parse, chars, begins.skipSpace, read, bind, Except.bind]
  rfl

/-- What is written is read back by every reader with the limits of the writer. -/
theorem parse_render {limits : Limits} {s : String} (json : IsJson v) (written : render layout v limits = .ok s) :
    parse s limits = .ok v := by
  obtain ⟨within, rfl⟩ := json.render_eq_ok_iff.1 written
  exact parse_textOf layout json within

end Values

end HostWatch.Json
