import HostWatch.Json.Reader
import HostWatch.Proofs.Json.Lines
import Mathlib.Data.List.TakeWhile

/-!
# Reading words, numbers and strings

What is written for a word, a number or a string is read as far as it goes, whatever follows
(`Json.scalar?_append`, `Json.stringBody?_quoted`). A number has to be followed by something that cannot be
a part of it: `Json.Ends`.
-/

namespace HostWatch.Json

/-- A number ends before this text. -/
def Ends (rest : List Char) : Prop := ∀ c ∈ rest.head?, isNumeral c = false

theorem ends_nil : Ends [] := by simp [Ends]

theorem ends_cons {c : Char} {l : List Char} : Ends (c :: l) ↔ isNumeral c = false := by simp [Ends]

section Ends
variable {rest : List Char}

theorem Ends.cases (h : Ends rest) : rest = [] ∨ ∃ c l, rest = c :: l ∧ isNumeral c = false := by
  rcases rest with _ | ⟨c, l⟩
  · exact .inl rfl
  · exact .inr ⟨c, l, rfl, ends_cons.1 h⟩

theorem Ends.takeWhile_isDigit (h : Ends rest) : rest.takeWhile Char.isDigit = [] := by
  rcases h.cases with rfl | ⟨c, l, rfl, hc⟩
  · rfl
  · simp only [isNumeral, Bool.or_eq_false_iff] at hc
    simp [hc]

theorem Ends.dropWhile_isDigit (h : Ends rest) : rest.dropWhile Char.isDigit = rest := by
  rcases h.cases with rfl | ⟨c, l, rfl, hc⟩
  · rfl
  · simp only [isNumeral, Bool.or_eq_false_iff] at hc
    simp [hc]

theorem Ends.takeWhile_append (h : Ends rest) (cs : List Char) :
    (cs ++ rest).takeWhile Char.isDigit = cs.takeWhile Char.isDigit := by
  induction cs with
  | nil => exact h.takeWhile_isDigit
  | cons c cs ih => simp only [List.cons_append, List.takeWhile_cons, ih]

theorem Ends.dropWhile_append (h : Ends rest) (cs : List Char) :
    (cs ++ rest).dropWhile Char.isDigit = cs.dropWhile Char.isDigit ++ rest := by
  induction cs with
  | nil => exact h.dropWhile_isDigit
  | cons c cs ih =>
    simp only [List.cons_append, List.dropWhile_cons, ih]
    split <;> rfl

/-! ### Fractions and exponents -/

theorem takeFraction_of_ne {cs : List Char} (h : ∀ l, cs ≠ '.' :: l) : takeFraction cs = ([], cs) := by
  unfold takeFraction
  split
  · rename_i l
    exact absurd rfl (h l)
  · rfl

theorem Ends.takeFraction_append (h : Ends rest) (cs : List Char) :
    takeFraction (cs ++ rest) = ((takeFraction cs).1, (takeFraction cs).2 ++ rest) := by
  rcases cs with _ | ⟨c, cs⟩
  · refine takeFraction_of_ne ?_
    rintro l rfl
    exact absurd (ends_cons.1 h) (by decide)
  by_cases point : c = '.'
  · subst point
    simp only [List.cons_append, takeFraction, h.takeWhile_append, h.dropWhile_append]
    split <;> rfl
  · have other (l : List Char) : takeFraction (c :: l) = ([], c :: l) :=
      takeFraction_of_ne fun l' same => point (List.cons.inj same).1
    rw [List.cons_append, other, other]
    rfl

theorem Ends.takeSign_append (h : Ends rest) (cs : List Char) :
    Decimal.takeSign (cs ++ rest) = ((Decimal.takeSign cs).1, (Decimal.takeSign cs).2 ++ rest) := by
  rcases cs with _ | ⟨c, cs⟩
  · rcases h.cases with rfl | ⟨c, l, rfl, hc⟩
    · rfl
    · have minus : c ≠ '-' := by
        rintro rfl
        exact absurd hc (by decide)
      have plus : c ≠ '+' := by
        rintro rfl
        exact absurd hc (by decide)
      simp [Decimal.takeSign, minus, plus]
  · by_cases minus : c = '-'
    · subst minus
      rfl
    by_cases plus : c = '+'
    · subst plus
      rfl
    simp [Decimal.takeSign, minus, plus]

theorem Ends.takeExponent_append (h : Ends rest) (cs : List Char) :
    takeExponent (cs ++ rest) = ((takeExponent cs).1, (takeExponent cs).2 ++ rest) := by
  rcases cs with _ | ⟨c, cs⟩
  · rcases h.cases with rfl | ⟨c, l, rfl, hc⟩
    · rfl
    · have noExponent : ¬ (c = 'e' ∨ c = 'E') := by
        rintro (rfl | rfl) <;> exact absurd hc (by decide)
      simp [takeExponent, noExponent]
  · simp only [List.cons_append, takeExponent, h.takeSign_append, h.takeWhile_append, h.dropWhile_append]
    split
    · split <;> rfl
    · rfl

end Ends

/-! ### Numbers -/

section Number
variable {cs rest t : List Char} {negative : Bool} {digits digits' : Nat} {n : Number} {x : Float}

theorem wholePart_of_ne (h : ∀ l, cs ≠ '0' :: l) : wholePart cs = cs.takeWhile Char.isDigit := by
  unfold wholePart
  split
  · rename_i l
    exact absurd rfl (h l)
  · rfl

theorem wholePart_cons {c : Char} (h : c ≠ '0') : wholePart (c :: cs) = (c :: cs).takeWhile Char.isDigit :=
  wholePart_of_ne fun _ same => h (List.cons.inj same).1

theorem length_wholePart_le (cs : List Char) : (wholePart cs).length ≤ cs.length := by
  unfold wholePart
  split
  · simp
  · exact (List.takeWhile_sublist _).length_le

theorem Ends.wholePart_append (h : Ends rest) (cs : List Char) : wholePart (cs ++ rest) = wholePart cs := by
  rcases cs with _ | ⟨c, cs⟩
  · have zero : ∀ l, rest ≠ '0' :: l := by
      rintro l rfl
      exact absurd (ends_cons.1 h) (by decide)
    rw [List.nil_append, wholePart_of_ne zero, h.takeWhile_isDigit]
    rfl
  by_cases zero : c = '0'
  · subst zero
    rfl
  · rw [List.cons_append, wholePart_cons zero, wholePart_cons zero, ← List.cons_append, h.takeWhile_append]

/-- What a fraction and an exponent after the digits `whole` make of them. -/
def finish (digits : Nat) (negative : Bool) (whole part : List Char) (exponent : Option Int) :
    Option Number :=
  if part.isEmpty && exponent.isNone then
    if digits < whole.length then none
    else some (.int (if negative then -(digitsValue whole : Int) else digitsValue whole))
  else
    some (.double (Decimal.toFloat negative (digitsValue (whole ++ part)) (exponent.getD 0 - part.length)))

theorem number?_eq : number? digits negative cs =
    if (wholePart cs).isEmpty then none
    else
      (finish digits negative (wholePart cs) (takeFraction (cs.drop (wholePart cs).length)).1
        (takeExponent (takeFraction (cs.drop (wholePart cs).length)).2).1).map
          fun n => (n, (takeExponent (takeFraction (cs.drop (wholePart cs).length)).2).2) := by
  simp only [number?, finish]
  split
  · rfl
  · split
    · split <;> rfl
    · rfl

/-- What follows a number does not change how it is read. -/
theorem Ends.number?_append (h : Ends rest) (cs : List Char) : number? digits negative (cs ++ rest) =
    (number? digits negative cs).map fun (n, t) => (n, t ++ rest) := by
  have split : (cs ++ rest).drop (wholePart cs).length = cs.drop (wholePart cs).length ++ rest :=
    List.drop_append_of_le_length (length_wholePart_le cs)
  rw [number?_eq, number?_eq, h.wholePart_append, split, h.takeFraction_append, h.takeExponent_append]
  rcases (wholePart cs).isEmpty
  · simp only [Bool.false_eq_true, if_false, Option.map_map]
    rfl
  · rfl

/-- The count of digits does not matter for doubles. -/
theorem number?_double (h : number? digits negative cs = some (.double x, t)) :
    number? digits' negative cs = some (.double x, t) := by
  rw [number?_eq] at h ⊢
  unfold finish at h ⊢
  rcases hw : (wholePart cs).isEmpty
  · rw [hw] at h
    simp only [Bool.false_eq_true, if_false] at h ⊢
    split at h
    · split at h <;> simp at h
    · rename_i double
      rw [if_neg double]
      exact h
  · simp [hw] at h

/-- What is left of a number is the end of the text. -/
theorem number?_suffix (h : number? digits negative cs = some (n, t)) : t <:+ cs := by
  have fraction (l : List Char) : (takeFraction l).2 <:+ l := by
    unfold takeFraction
    split
    · split
      · exact List.suffix_rfl
      · exact (List.dropWhile_suffix _).trans (List.suffix_cons _ _)
    · exact List.suffix_rfl
  have sign (l : List Char) : (Decimal.takeSign l).2 <:+ l := by
    unfold Decimal.takeSign
    split
    · exact List.suffix_cons _ _
    · exact List.suffix_cons _ _
    · exact List.suffix_rfl
  have exponent (l : List Char) : (takeExponent l).2 <:+ l := by
    unfold takeExponent
    split
    · split
      · dsimp only
        split
        · exact List.suffix_rfl
        · exact ((List.dropWhile_suffix _).trans (sign _)).trans (List.suffix_cons _ _)
      · exact List.suffix_rfl
    · exact List.suffix_rfl
  rw [number?_eq] at h
  split at h
  · cases h
  · obtain ⟨m, -, same⟩ := Option.map_eq_some_iff.1 h
    obtain ⟨-, rfl⟩ := Prod.mk.inj same
    exact ((exponent _).trans (fraction _)).trans (List.drop_suffix _ _)

/-! ### Integers -/

theorem toDigits_ne_zero_cons {n : Nat} (positive : 0 < n) : ∀ l, Nat.toDigits 10 n ≠ '0' :: l := by
  induction n using Nat.strongRecOn with
  | ind n ih =>
    intro l same
    by_cases small : n < 10
    · rw [Nat.toDigits_of_lt_base small] at same
      have zero : n = 0 := Nat.digitChar_eq_zero.1 (List.cons.inj same).1
      omega
    · rw [Nat.toDigits_of_base_le (by decide) (by omega)] at same
      rcases first : Nat.toDigits 10 (n / 10) with _ | ⟨c, cs⟩
      · exact Nat.toDigits_ne_nil first
      · rw [first] at same
        have zero : c = '0' := (List.cons.inj same).1
        exact ih (n / 10) (by omega) (by omega) cs (by rw [first, zero])

theorem wholePart_toDigits (n : Nat) : wholePart (Nat.toDigits 10 n) = Nat.toDigits 10 n := by
  rcases Nat.eq_zero_or_pos n with rfl | positive
  · rfl
  · rw [wholePart_of_ne (toDigits_ne_zero_cons positive), List.takeWhile_eq_self_iff]
    exact fun c hc => Nat.isDigit_of_mem_toDigits (by decide) (by decide) hc

theorem digitsValue_toDigits (n : Nat) : digitsValue (Nat.toDigits 10 n) = n := by
  have value := Nat.ofDigitChars_ten_toDigits (n := n)
  rwa [Nat.ofDigitChars_eq_foldl] at value

theorem number?_toDigits {n : Nat} (short : (Nat.toDigits 10 n).length ≤ digits) :
    number? digits negative (Nat.toDigits 10 n) = some (.int (if negative then -n else n), []) := by
  have filled : (Nat.toDigits 10 n).isEmpty = false := by simp
  rw [number?_eq, wholePart_toDigits, filled, List.drop_length]
  simp [finish, takeFraction, takeExponent, digitsValue_toDigits, Nat.not_lt.2 short]

end Number

/-! ### Words and numbers -/

section Scalar
variable {cs rest t p : List Char} {digits digits' : Nat} {v : Value} {x : Float}

theorem after?_append (h : after? p cs = some t) (rest : List Char) :
    after? p (cs ++ rest) = some (t ++ rest) := by
  induction p generalizing cs with
  | nil =>
    obtain rfl := Option.some.inj h
    rfl
  | cons c p ih =>
    rcases cs with _ | ⟨d, cs⟩
    · cases h
    · simp only [after?, List.cons_append] at h ⊢
      split at h
      · rename_i same
        rw [if_pos same]
        exact ih h
      · cases h

theorem after?_suffix (h : after? p cs = some t) : t <:+ cs := by
  induction p generalizing cs with
  | nil =>
    obtain rfl := Option.some.inj h
    exact List.suffix_rfl
  | cons c p ih =>
    rcases cs with _ | ⟨d, cs⟩
    · cases h
    · simp only [after?] at h
      split at h
      · exact (ih h).trans (List.suffix_cons _ _)
      · cases h

/-- What a word starts with, and the sign of a number. -/
def wordStarts : List Char := ['n', 't', 'f', 'N', 'I', '-']

theorem scalar?_cons {c : Char} (h : c ∉ wordStarts) : scalar? digits (c :: cs) =
    (number? digits false (c :: cs)).map fun (n, rest) => (.number n, rest) := by
  simp only [wordStarts, List.mem_cons, List.not_mem_nil, or_false, not_or] at h
  simp [scalar?, h]

theorem scalar?_minus {c : Char} (h : c ≠ 'I') : scalar? digits ('-' :: c :: cs) =
    (number? digits true (c :: cs)).map fun (n, rest) => (.number n, rest) := by
  simp [scalar?, h]

/-- What follows a word or a number does not change how it is read. -/
theorem Ends.scalar?_append (ends : Ends rest) (h : scalar? digits cs = some (v, t)) :
    scalar? digits (cs ++ rest) = some (v, t ++ rest) := by
  have word {w : List Char} {u : Value} (h : (after? w cs).map (fun rest => (u, rest)) = some (v, t)) :
      (after? w (cs ++ rest)).map (fun rest => (u, rest)) = some (v, t ++ rest) := by
    obtain ⟨t', found, same⟩ := Option.map_eq_some_iff.1 h
    obtain ⟨rfl, rfl⟩ := Prod.mk.inj same
    rw [after?_append found]
    rfl
  have numeral {negative : Bool} {l : List Char}
      (h : (number? digits negative l).map (fun (n, t) => (Value.number n, t)) = some (v, t)) :
      (number? digits negative (l ++ rest)).map (fun (n, t) => (Value.number n, t)) = some (v, t ++ rest) := by
    obtain ⟨⟨n, t'⟩, found, same⟩ := Option.map_eq_some_iff.1 h
    obtain ⟨rfl, rfl⟩ := Prod.mk.inj same
    rw [ends.number?_append, found]
    rfl
  unfold scalar? at h
  split at h
  · exact word h
  · exact word h
  · exact word h
  · exact word h
  · exact word h
  · exact word h
  · rename_i l notWord
    -- a sign alone is nothing, so it is known already whether a word or a number follows it
    rcases l with _ | ⟨c, l⟩
    · simp [number?, wholePart] at h
    · have other : c ≠ 'I' := fun same => notWord l (by rw [same])
      rw [List.cons_append, List.cons_append, scalar?_minus other]
      exact numeral h
  · rename_i hn ht hf hN hI _ minus
    rcases cs with _ | ⟨c, l⟩
    · simp [number?, wholePart] at h
    · have other : c ∉ wordStarts := by
        intro hc
        simp only [wordStarts, List.mem_cons, List.not_mem_nil, or_false] at hc
        rcases hc with rfl | rfl | rfl | rfl | rfl | rfl
        exacts [hn l rfl, ht l rfl, hf l rfl, hN l rfl, hI l rfl, minus l rfl]
      rw [List.cons_append, scalar?_cons other]
      exact numeral h

/-- What is left of a word or a number is the end of the text. -/
theorem scalar?_suffix (h : scalar? digits cs = some (v, t)) : t <:+ cs := by
  have word {w l : List Char} {u : Value} (h : (after? w l).map (fun rest => (u, rest)) = some (v, t)) :
      t <:+ l := by
    obtain ⟨t', found, same⟩ := Option.map_eq_some_iff.1 h
    obtain ⟨-, rfl⟩ := Prod.mk.inj same
    exact after?_suffix found
  have numeral {negative : Bool} {l : List Char}
      (h : (number? digits negative l).map (fun (n, t) => (Value.number n, t)) = some (v, t)) : t <:+ l := by
    obtain ⟨⟨n, t'⟩, found, same⟩ := Option.map_eq_some_iff.1 h
    obtain ⟨-, rfl⟩ := Prod.mk.inj same
    exact number?_suffix found
  unfold scalar? at h
  split at h
  · exact word h
  · exact word h
  · exact word h
  · exact word h
  · exact word h
  · exact word h
  · exact (numeral h).trans (List.suffix_cons _ _)
  · exact numeral h

/-- The count of digits does not matter for doubles. -/
theorem scalar?_double (h : scalar? digits cs = some (.double x, t)) :
    scalar? digits' cs = some (.double x, t) := by
  have numeral {negative : Bool} {l : List Char}
      (h : (number? digits negative l).map (fun (n, t) => (Value.number n, t)) = some (.double x, t)) :
      (number? digits' negative l).map (fun (n, t) => (Value.number n, t)) = some (.double x, t) := by
    obtain ⟨⟨n, t'⟩, found, same⟩ := Option.map_eq_some_iff.1 h
    simp only [Prod.mk.injEq, Value.number.injEq] at same
    obtain ⟨rfl, rfl⟩ := same
    rw [number?_double found]
    rfl
  unfold scalar? at h ⊢
  split at h
  all_goals first | exact h | exact numeral h

theorem exists_digit_cons (n : Nat) : ∃ c l, Nat.toDigits 10 n = c :: l ∧ c.isDigit = true := by
  rcases hd : Nat.toDigits 10 n with _ | ⟨c, l⟩
  · exact absurd hd Nat.toDigits_ne_nil
  · have member : c ∈ Nat.toDigits 10 n := by simp [hd]
    exact ⟨c, l, rfl, Nat.isDigit_of_mem_toDigits (by decide) (by decide) member⟩

/-- A number that begins with a digit has no sign. -/
theorem scalar?_toDigits (digits n : Nat) (rest : List Char) : scalar? digits (Nat.toDigits 10 n ++ rest) =
    (number? digits false (Nat.toDigits 10 n ++ rest)).map fun (n, rest) => (.number n, rest) := by
  obtain ⟨c, l, text, digit⟩ := exists_digit_cons n
  have other : c ∉ wordStarts := by
    intro hc
    simp only [wordStarts, List.mem_cons, List.not_mem_nil, or_false] at hc
    rcases hc with rfl | rfl | rfl | rfl | rfl | rfl <;> exact absurd digit (by decide)
  rw [text, List.cons_append, scalar?_cons other]

theorem scalar?_int {n : Int} (short : (Nat.toDigits 10 n.natAbs).length ≤ digits) :
    scalar? digits (toString n).toList = some (.int n, []) := by
  have read (negative : Bool) : number? digits negative (Nat.toDigits 10 n.natAbs) =
      some (.int (if negative then -n.natAbs else n.natAbs), []) := number?_toDigits short
  rw [toList_toString_int]
  by_cases negative : n < 0
  · obtain ⟨c, l, text, digit⟩ := exists_digit_cons n.natAbs
    have other : c ≠ 'I' := by
      rintro rfl
      exact absurd digit (by decide)
    have worth : -(n.natAbs : Int) = n := by omega
    rw [text] at read ⊢
    rw [if_pos negative, List.singleton_append, scalar?_minus other, read, if_pos rfl, worth]
    rfl
  · have worth : (n.natAbs : Int) = n := by omega
    have unsigned := scalar?_toDigits digits n.natAbs []
    rw [List.append_nil] at unsigned
    rw [if_neg negative, List.nil_append, unsigned, read]
    simp [worth]

end Scalar

/-! ### Strings -/

theorem hexValue?_digitChar : ∀ d < 16, hexValue? (Nat.digitChar d) = some d := by decide

theorem hex_one {n : Nat} (h : n < 16) : Text.hex 1 n = [Nat.digitChar n] := by
  simp [Text.hex, Nat.toDigits_of_lt_base h]

theorem hex_succ {width n : Nat} (positive : 0 < width) :
    Text.hex (width + 1) n = Text.hex width (n / 16) ++ [Nat.digitChar (n % 16)] := by
  by_cases small : n < 16
  · have none : n / 16 = 0 := by omega
    have pad : List.replicate (width - 1) '0' ++ ['0'] = List.replicate width '0' := by
      rw [← List.replicate_succ', Nat.sub_add_cancel positive]
    simp [Text.hex, none, Nat.toDigits_of_lt_base small, Nat.mod_eq_of_lt small, pad]
  · simp [Text.hex, Nat.toDigits_of_base_le (by decide : 1 < 16) (by omega : 16 ≤ n)]

theorem unit?_hex {n : Nat} (h : n < 0x10000) (rest : List Char) :
    unit? (Text.hex 4 n ++ rest) = some (n, rest) := by
  have digit (d : Nat) : hexValue? (Nat.digitChar (d % 16)) = some (d % 16) :=
    hexValue?_digitChar _ (Nat.mod_lt _ (by decide))
  have first : n / 16 / 16 / 16 < 16 := by omega
  rw [hex_succ (by decide), hex_succ (by decide), hex_succ (by decide), hex_one first]
  simp only [List.cons_append, List.nil_append, unit?, digit, hexValue?_digitChar _ first,
    Option.bind_eq_bind, Option.bind_some]
  congr 2
  omega

section String
variable {read more : List Char} {fuel n : Nat}

theorem stringBody?_unit (h : n < 0x10000) : stringBody? (fuel + 1) read (escapeUnit n ++ more) =
    stringBody? fuel ((pairUp n more).1 :: read) (pairUp n more).2 := by
  simp [escapeUnit, stringBody?, unit?_hex h]

theorem pairUp_of_scalar (h : n < 0xd800 ∨ 0xdfff < n) : pairUp n more = (Char.ofNat n, more) := by
  have high : ¬ (0xd800 ≤ n ∧ n < 0xdc00) := by omega
  have low : ¬ (0xdc00 ≤ n ∧ n < 0xe000) := by omega
  simp only [pairUp, high, low, if_false]

/-- A character beyond the first plane is written as two units and found again. -/
theorem pairUp_pair (h : n < 0x100000) : pairUp (0xd800 + n / 0x400) (escapeUnit (0xdc00 + n % 0x400) ++ more) =
    (Char.ofNat (0x10000 + n), more) := by
  have high : 0xd800 ≤ 0xd800 + n / 0x400 ∧ 0xd800 + n / 0x400 < 0xdc00 := by omega
  have low : 0xdc00 ≤ 0xdc00 + n % 0x400 ∧ 0xdc00 + n % 0x400 < 0xe000 := by omega
  have unit := unit?_hex (by omega : 0xdc00 + n % 0x400 < 0x10000) more
  have code : 0x10000 + (0xd800 + n / 0x400 - 0xd800) * 0x400 + (0xdc00 + n % 0x400 - 0xdc00) = 0x10000 + n := by
    omega
  simp only [pairUp, high, and_self, if_true, escapeUnit, List.cons_append, unit, low, code]

theorem toNat_scalar (c : Char) : c.toNat < 0xd800 ∨ 0xdfff < c.toNat ∧ c.toNat < 0x110000 := c.valid

/-- Every character is found again behind its escape. -/
theorem stringBody?_escapeChar (ascii : Bool) (c : Char) :
    stringBody? (fuel + 1) read (escapeChar ascii c ++ more) = stringBody? fuel (c :: read) more := by
  have valid := toNat_scalar c
  unfold escapeChar
  -- the characters that have an escape of their own
  iterate 7 (split; · subst_vars; simp [stringBody?, simpleEscape?])
  split
  · rename_i control
    rw [stringBody?_unit (by omega), pairUp_of_scalar (by omega), Char.ofNat_toNat]
  split
  · split
    · rename_i unit
      rw [stringBody?_unit unit, pairUp_of_scalar (by omega), Char.ofNat_toNat]
    · rename_i pair
      have code : 0x10000 + (c.toNat - 0x10000) = c.toNat := by omega
      dsimp only
      rw [List.append_assoc, stringBody?_unit (by omega), pairUp_pair (by omega), code, Char.ofNat_toNat]
  · rename_i _ backslash _ _ _ _ _ control _
    rw [List.singleton_append, stringBody?.eq_def]
    simp [backslash, control]

theorem stringBody?_quoted (ascii : Bool) {s : List Char} (enough : s.length < fuel) (rest : List Char) :
    stringBody? fuel read (s.flatMap (escapeChar ascii) ++ '"' :: rest) = some (read.reverse ++ s, rest) := by
  induction s generalizing fuel read with
  | nil =>
    obtain ⟨fuel, rfl⟩ : ∃ k, fuel = k + 1 := ⟨fuel - 1, by simp at enough; omega⟩
    simp [stringBody?]
  | cons c s ih =>
    obtain ⟨fuel, rfl⟩ : ∃ k, fuel = k + 1 := ⟨fuel - 1, by omega⟩
    rw [List.flatMap_cons, List.append_assoc, stringBody?_escapeChar, ih (by simpa using enough)]
    simp

end String

end HostWatch.Json
