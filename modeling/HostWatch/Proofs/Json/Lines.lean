import HostWatch.Json.Writer

/-!
# One value on one line

`Text.linesOf` cuts a text at its line breaks. A JSON text laid out on one line holds none
(`Json.unbroken_render`), so lines written one after another are found again (`Text.linesOf_written`).
-/

namespace HostWatch.Text

/-- There is no line break in the text. -/
def Unbroken (l : List Char) : Prop := '\n' ∉ l

/-- Cuts a text at every line break; `current` is what stands before it on the first line, backwards.
The last line needs no line break. -/
def cutLines (current : List Char) : List Char → List (List Char)
  | [] => if current = [] then [] else [current.reverse]
  | c :: rest =>
    if c = '\n' then current.reverse :: cutLines [] rest else cutLines (c :: current) rest

/-- The lines of a text without their line breaks. -/
def linesOf (s : String) : List String := (cutLines [] s.toList).map String.ofList

/-- Lines one after another, each with its line break. -/
def written (lines : List String) : String := String.join (lines.map (· ++ "\n"))

section Unbroken
variable {l m : List Char} {c : Char}

@[simp] theorem unbroken_nil : Unbroken [] := List.not_mem_nil

@[simp] theorem unbroken_cons : Unbroken (c :: l) ↔ c ≠ '\n' ∧ Unbroken l := by
  simp [Unbroken, eq_comm]

@[simp] theorem unbroken_append : Unbroken (l ++ m) ↔ Unbroken l ∧ Unbroken m := by
  simp [Unbroken]

theorem unbroken_flatMap {α : Type} {xs : List α} {f : α → List Char} (h : ∀ x ∈ xs, Unbroken (f x)) :
    Unbroken (xs.flatMap f) := by
  intro hm
  obtain ⟨x, hx, hfx⟩ := List.mem_flatMap.1 hm
  exact h x hx hfx

end Unbroken

theorem cutLines_append {line : List Char} (h : Unbroken line) (current rest : List Char) :
    cutLines current (line ++ '\n' :: rest) = (current.reverse ++ line) :: cutLines [] rest := by
  induction line generalizing current with
  | nil => simp [cutLines]
  | cons c line ih =>
    obtain ⟨hc, h⟩ := unbroken_cons.1 h
    rw [List.cons_append, cutLines, if_neg hc, ih h, List.reverse_cons, List.append_assoc]
    rfl

theorem written_cons (line : String) (lines : List String) :
    written (line :: lines) = line ++ "\n" ++ written lines := String.join_cons

theorem written_concat (lines : List String) (line : String) :
    written (lines ++ [line]) = written lines ++ (line ++ "\n") := by
  rw [written, List.map_append, String.join_append]
  simp [written]

/-- What is written line by line is found line by line. -/
theorem linesOf_written {lines : List String} (h : ∀ s ∈ lines, Unbroken s.toList) :
    linesOf (written lines) = lines := by
  induction lines with
  | nil => rfl
  | cons line lines ih =>
    obtain ⟨hline, h⟩ := List.forall_mem_cons.1 h
    have cut : (written (line :: lines)).toList = line.toList ++ '\n' :: (written lines).toList := by
      rw [written_cons, String.toList_append, String.toList_append, List.append_assoc]
      rfl
    unfold linesOf at ih ⊢
    rw [cut, cutLines_append hline, List.map_cons, ih h, List.reverse_nil, List.nil_append,
      String.ofList_toList]

end HostWatch.Text

namespace HostWatch.Json
open Text

theorem unbroken_toDigits_hex (n : Nat) : Unbroken (Nat.toDigits 16 n) := by
  induction n using Nat.strongRecOn with
  | ind n ih =>
    by_cases small : n < 16
    · simp [Nat.toDigits_of_lt_base small]
    · rw [Nat.toDigits_of_base_le (by decide) (by omega), unbroken_append]
      exact ⟨ih _ (by omega), by simp⟩

theorem unbroken_escapeUnit (n : Nat) : Unbroken (escapeUnit n) := by
  have zeros (k : Nat) : Unbroken (List.replicate k '0') := fun h =>
    absurd (List.eq_of_mem_replicate h) (by decide)
  simp [escapeUnit, Text.hex, zeros, unbroken_toDigits_hex]

theorem unbroken_escapeChar (ascii : Bool) (c : Char) : Unbroken (escapeChar ascii c) := by
  by_cases hc : c = '\n'
  · subst hc
    simp [escapeChar]
  -- what has an escape of its own, a control character, what is not in ASCII, and any other
  simp only [escapeChar, hc, if_false]
  iterate 6 (split; · simp)
  split
  · exact unbroken_escapeUnit _
  split
  · split
    · exact unbroken_escapeUnit _
    · exact unbroken_append.2 ⟨unbroken_escapeUnit _, unbroken_escapeUnit _⟩
  · simpa using hc

theorem unbroken_quote (ascii : Bool) (s : List Char) : Unbroken (quote ascii s) := by
  have inner : Unbroken (s.flatMap (escapeChar ascii)) :=
    unbroken_flatMap fun c _ => unbroken_escapeChar ascii c
  simp [quote, inner]

/-! ### Numbers -/

/-- What a number is written with. -/
def isNumeral (c : Char) : Bool :=
  c.isDigit || c == '.' || c == 'e' || c == 'E' || c == '+' || c == '-'

/-- Nothing but a number stands in the text. -/
def Numeral (l : List Char) : Prop := ∀ c ∈ l, isNumeral c = true

section Numeral
variable {l m : List Char} {c : Char}

@[simp] theorem numeral_nil : Numeral [] := fun _ h => absurd h List.not_mem_nil

@[simp] theorem numeral_cons : Numeral (c :: l) ↔ isNumeral c = true ∧ Numeral l := by simp [Numeral]

@[simp] theorem numeral_append : Numeral (l ++ m) ↔ Numeral l ∧ Numeral m := by
  simp [Numeral, or_imp, forall_and]

theorem numeral_zeros (n : Nat) : Numeral (List.replicate n '0') := by
  intro c hc
  rw [List.eq_of_mem_replicate hc]
  decide

theorem Numeral.sublist (h : Numeral m) (hs : l.Sublist m) : Numeral l := fun c hc => h c (hs.subset hc)

theorem Numeral.unbroken (h : Numeral l) : Unbroken l := fun hm => absurd (h _ hm) (by decide)

theorem numeral_toDigits (n : Nat) : Numeral (Nat.toDigits 10 n) := by
  intro c hc
  have digit : c.isDigit = true := Nat.isDigit_of_mem_toDigits (by decide) (by decide) hc
  simp [isNumeral, digit]

end Numeral

theorem numeral_exponentText (exponent : Int) : Numeral (Decimal.exponentText exponent) := by
  have sign : isNumeral (if exponent < 0 then '-' else '+') = true := by split <;> decide
  have letter : isNumeral 'e' = true := by decide
  simp [Decimal.exponentText, letter, sign, numeral_toDigits, numeral_zeros]

theorem numeral_write (style : Decimal.Style) (x : Decimal) : Numeral (Decimal.write style x) := by
  have digits := numeral_toDigits x.digits
  have exponent := numeral_exponentText
  have point : isNumeral '.' = true := by decide
  have zero : isNumeral '0' = true := by decide
  simp only [Decimal.write]
  generalize Nat.toDigits 10 x.digits = l at digits ⊢
  split
  · split
    · simp [point, zero, digits, numeral_zeros]
    · split
      · have fraction : Numeral (if style.wholeFraction then ['.', '0'] else []) := by
          split <;> simp [point, zero]
        simp [digits, fraction, numeral_zeros]
      · simp [point, digits.sublist (List.take_sublist _ _), digits.sublist (List.drop_sublist _ _)]
  · split
    · simp
    · simp only [numeral_cons] at digits ⊢
      exact ⟨digits.1, exponent _⟩
    · simp only [numeral_cons, numeral_append] at digits ⊢
      exact ⟨digits.1, point, digits.2, exponent _⟩

/-- A finite double is written as a number. -/
theorem numeral_double {x : Float} {negative : Bool} {mantissa : Nat} {exponent : Int}
    (finite : Binary64.parts x = .finite negative mantissa exponent) : Numeral (number (.double x)) := by
  have minus : isNumeral '-' = true := by decide
  simp only [number, Binary64.display, Binary64.signed, finite, String.toList_ofList, numeral_append]
  refine ⟨by split <;> simp [minus], ?_⟩
  split
  · exact numeral_write _ _
  · exact numeral_write _ _

theorem toList_toString_int (n : Int) : (toString n).toList =
    (if n < 0 then ['-'] else []) ++ Nat.toDigits 10 n.natAbs := by
  cases n with
  | ofNat n =>
    have pos : ¬ Int.ofNat n < 0 := by simp
    rw [if_neg pos]
    exact Nat.toList_repr
  | negSucc n =>
    show ("-" ++ Nat.repr (n + 1)).toList = _
    rw [String.toList_append, Nat.toList_repr, if_pos (Int.negSucc_lt_zero n)]
    rfl

theorem unbroken_number (n : Number) : Unbroken (number n) := by
  cases n with
  | int n =>
    show Unbroken (toString n).toList
    rw [toList_toString_int]
    split <;> simp [(numeral_toDigits _).unbroken]
  | truth b => cases b <;> simp [number, Unbroken]
  | double x =>
    rcases finite : Binary64.parts x with _ | negative | _
    · simp [number, finite, Unbroken]
    · cases negative <;> simp [number, finite, Unbroken]
    · exact (numeral_double finite).unbroken

/-! ### Values -/

section OneLine
variable {layout : Layout} (one : layout.indent = none)
include one

theorem lineBreak_of_none (depth : Nat) : lineBreak layout depth = [] := by rw [lineBreak, one]

theorem separator_of_none (depth : Nat) : separator layout depth = [',', ' '] := by rw [separator, one]

mutual

theorem unbroken_renderAt (depth : Nat) (v : Value) : Unbroken (renderAt layout depth v) := by
  cases v with
  | null => simp [renderAt, Unbroken]
  | number n => exact unbroken_number n
  | text s => exact unbroken_quote _ _
  | list items =>
    cases items with
    | nil => simp [renderAt]
    | cons v rest =>
      have first := unbroken_renderAt (depth + 1) v
      have others := unbroken_renderItems (depth + 1) rest
      simp [renderAt, lineBreak_of_none one, first, others]
  | object fields =>
    cases fields with
    | nil => simp [renderAt]
    | cons field rest =>
      obtain ⟨k, v⟩ := field
      have key := unbroken_quote layout.ascii k.toList
      have first := unbroken_renderAt (depth + 1) v
      have others := unbroken_renderFields (depth + 1) rest
      simp [renderAt, lineBreak_of_none one, key, first, others]
  | moment t => exact unbroken_quote _ _
  | record parts => exact unbroken_quote _ _

theorem unbroken_renderItems (depth : Nat) (items : List Value) :
    Unbroken (renderItems layout depth items) := by
  cases items with
  | nil => simp [renderItems]
  | cons v rest =>
    have first := unbroken_renderAt depth v
    have others := unbroken_renderItems depth rest
    simp [renderItems, separator_of_none one, first, others]

theorem unbroken_renderFields (depth : Nat) (fields : List (String × Value)) :
    Unbroken (renderFields layout depth fields) := by
  cases fields with
  | nil => simp [renderFields]
  | cons field rest =>
    obtain ⟨k, v⟩ := field
    have key := unbroken_quote layout.ascii k.toList
    have first := unbroken_renderAt depth v
    have others := unbroken_renderFields depth rest
    simp [renderFields, separator_of_none one, key, first, others]

end

theorem unbroken_textOf (v : Value) : Unbroken (textOf layout v).toList := by
  rw [textOf, String.toList_ofList]
  exact unbroken_renderAt one 0 v

end OneLine

/-- What is written of a value is its text. -/
theorem eq_textOf_of_render {layout : Layout} {v : Value} {limits : Limits} {s : String}
    (written : render layout v limits = .ok s) : s = textOf layout v := by
  unfold render at written
  split at written
  · cases written
  · exact (Except.ok.inj written).symm

end HostWatch.Json
