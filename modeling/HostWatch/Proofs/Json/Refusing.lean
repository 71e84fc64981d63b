import HostWatch.Proofs.Json.Reading

/-!
# What a reader does not take

An integer with more digits than a reader takes is refused (`Json.refuses_long`), and so are lists that lie too
deep in each other (`Json.refuses_nested`). An object is unreadable as a whole if its first field is
(`Json.parse_object_of_refuses`).
-/

namespace HostWatch.Json

variable {layout : Layout} {limits : Limits} {digits fuel room depth n : Nat} {k : String} {v : Value}
  {es : List (String × Value)} {rest : List Char} {refusal : Refusal}

/-- The text of a value is refused, whatever ends it. -/
def Refuses (layout : Layout) (digits room : Nat) (v : Value) (refusal : Refusal) : Prop :=
  ∀ depth fuel rest, 2 * (renderAt layout depth v).length ≤ fuel + 1 → Ends rest →
    value digits fuel room (renderAt layout depth v ++ rest) = .error refusal

/-! ### Integers -/

theorem number?_long {negative : Bool} (long : digits < (Nat.toDigits 10 n).length) :
    number? digits negative (Nat.toDigits 10 n) = none := by
  have filled : (Nat.toDigits 10 n).isEmpty = false := by simp
  rw [number?_eq, wholePart_toDigits, filled, List.drop_length]
  simp [finish, takeFraction, takeExponent, long]

theorem refuses_long (long : digits < (Nat.toDigits 10 n).length) :
    Refuses layout digits room (.int n) .malformed := by
  intro depth fuel rest enough ends
  have text : renderAt layout depth (.int n) = Nat.toDigits 10 n := by
    rw [renderAt, number, toList_toString_int]
    simp
  obtain ⟨c, l, head, digit⟩ := exists_digit_cons n
  have read : number? digits false (Nat.toDigits 10 n ++ rest) = none := by
    rw [ends.number?_append, number?_long long]
    rfl
  rw [text] at enough ⊢
  rw [head, List.length_cons] at enough
  obtain ⟨fuel, rfl⟩ : ∃ k, fuel = k + 1 := ⟨fuel - 1, by omega⟩
  rw [value_of_head, scalar?_toDigits, read]
  · rfl
  · rw [head]
    rintro c' hc
    obtain rfl : c = c' := Option.some.inj hc
    refine ⟨?_, ?_, ?_⟩ <;> (rintro rfl; exact absurd digit (by decide))

theorem not_extent_le_of_long (long : limits.digits < (Nat.toDigits 10 n).length) : ¬ extent (.int n) ≤ limits :=
  fun within => absurd within.1 (Nat.not_le.2 long)

theorem lt_length_toDigits_pow (n : Nat) (positive : 0 < n) : n < (Nat.toDigits 10 (Nat.pow 10 n)).length := by
  rw [← Nat.not_le, Nat.length_toDigits_le_iff (by decide) positive]
  exact Nat.lt_irrefl _

/-! ### Lists and objects -/

theorem Refuses.singleton (refuses : Refuses layout digits room v refusal) (json : IsJson v) :
    Refuses layout digits (room + 1) (.list [v]) refusal := by
  intro depth fuel rest enough _
  have begins := begins_renderAt layout json (depth + 1)
  let body := renderAt layout (depth + 1) v ++ (lineBreak layout depth ++ ']' :: rest)
  have text : renderAt layout depth (.list [v]) ++ rest = '[' :: (lineBreak layout (depth + 1) ++ body) := by
    simp [renderAt, renderItems, body]
  have size := congrArg List.length text
  simp only [body, List.length_append, List.length_cons] at size
  obtain ⟨fuel, rfl⟩ : ∃ k, fuel = k + 1 + 1 := ⟨fuel - 2, by omega⟩
  have read : value digits fuel room body = .error refusal :=
    refuses (depth + 1) fuel _ (by omega) (ends_lineBreak depth (by decide))
  rw [text, value_list (begins.append _), items, read]
  rfl

theorem Refuses.object (refuses : Refuses layout digits room v refusal) (json : IsJson v) (k : String)
    (es : List (String × Value)) : Refuses layout digits (room + 1) (.object ((k, v) :: es)) refusal := by
  intro depth fuel rest enough _
  have begins := begins_renderAt layout json (depth + 1)
  let after := renderFields layout (depth + 1) es ++ (lineBreak layout depth ++ '\x7d' :: rest)
  let body := quote layout.ascii k.toList ++ (':' :: ' ' :: (renderAt layout (depth + 1) v ++ after))
  have text : renderAt layout depth (.object ((k, v) :: es)) ++ rest =
      '\x7b' :: (lineBreak layout (depth + 1) ++ body) := by simp [renderAt, body, after]
  have size := congrArg List.length text
  simp only [body, after, List.length_append, List.length_cons] at size
  obtain ⟨fuel, rfl⟩ : ∃ k, fuel = k + 1 + 1 := ⟨fuel - 2, by omega⟩
  have ends : Ends after := by
    rcases es with _ | ⟨⟨l, u⟩, es⟩
    · simpa [after, renderFields] using ends_lineBreak depth (by decide)
    · obtain ⟨blank, comma, -⟩ := separator_eq layout (depth + 1)
      simp only [after, renderFields, comma, List.cons_append]
      exact ends_cons.2 (by decide)
  have short : (quote layout.ascii k.toList).length ≤ fuel + 1 + 1 := by omega
  have read : fields digits (fuel + 1) room body = .error refusal := by
    rw [fields_step (begins.append _) short, refuses (depth + 1) fuel after (by omega) ends]
    rfl
  rw [text, value_object, read]
  rfl

theorem Refuses.parse_textOf (refuses : Refuses layout limits.digits limits.depth v refusal) (json : IsJson v) :
    parse (textOf layout v) limits = .error refusal := by
  have begins := begins_renderAt layout json 0
  have text : (textOf layout v).toList = renderAt layout 0 v := String.toList_ofList
  have read := refuses 0 (2 * (renderAt layout 0 v).length + 2) [] (by omega) ends_nil
  rw [List.append_nil] at read
  simp only [parse, text, begins.skipSpace, read, bind, Except.bind]

/-! ### Depth -/

/-- An empty list inside others. -/
def nested : Nat → Value
  | 0 => .list []
  | n + 1 => .list [nested n]

theorem isJson_nested (n : Nat) : IsJson (nested n) := by
  induction n with
  | zero => exact .list fun v hv => absurd hv List.not_mem_nil
  | succ n ih => exact .list fun v hv => List.mem_singleton.1 hv ▸ ih

theorem refuses_list_zero (items : List Value) : Refuses layout digits 0 (.list items) .tooDeep := by
  intro depth fuel rest enough _
  obtain ⟨l, text⟩ : ∃ l, renderAt layout depth (.list items) = '[' :: l := by
    rcases items with _ | ⟨v, items⟩
    · exact ⟨[']'], by rw [renderAt]⟩
    · exact ⟨_, by rw [renderAt]; rfl⟩
  rw [text, List.length_cons] at enough
  obtain ⟨fuel, rfl⟩ : ∃ k, fuel = k + 1 := ⟨fuel - 1, by omega⟩
  rw [text]
  simp [value]

theorem refuses_nested (deep : room ≤ n) : Refuses layout digits room (nested n) .tooDeep := by
  induction n generalizing room with
  | zero =>
    obtain rfl : room = 0 := by omega
    exact refuses_list_zero _
  | succ n ih =>
    rcases room with _ | room
    · exact refuses_list_zero _
    · exact (ih (by omega)).singleton (isJson_nested n)

/-! ### What makes an object unreadable -/

/-- A reader that does not take the first field of an object does not take the object. -/
theorem parse_object_of_refuses (refuses : Refuses layout limits.digits (limits.depth - 1) v refusal)
    (positive : 0 < limits.depth) (json : IsJson v) (all : IsJson (.object ((k, v) :: es))) :
    parse (textOf layout (.object ((k, v) :: es))) limits = .error refusal := by
  have whole := refuses.object json k es
  rw [Nat.sub_add_cancel positive] at whole
  exact whole.parse_textOf all

end HostWatch.Json
