/-!
# Search

Whether one text stands inside another.
-/

namespace HostWatch.Text

/-- Whether `part` stands somewhere in the characters. -/
def occursAmong (part : List Char) : List Char → Bool
  | [] => part.isEmpty
  | c :: rest => part.isPrefixOf (c :: rest) || occursAmong part rest

/-- Whether `part` occurs in `whole`; the empty text occurs everywhere. -/
def occurs (part whole : String) : Bool := occursAmong part.toList whole.toList

theorem occursAmong_iff {part whole : List Char} :
    occursAmong part whole = true ↔ part <:+: whole := by
  induction whole with
  | nil => simp [occursAmong]
  | cons c rest ih =>
    simp only [occursAmong, Bool.or_eq_true, List.isPrefixOf_iff_prefix, ih, List.infix_cons_iff]

end HostWatch.Text
