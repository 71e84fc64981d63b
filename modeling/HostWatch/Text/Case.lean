import HostWatch.Text.CaseTable

/-!
# Upper and lower case

Full Unicode case mapping of whole texts. Two rules go beyond a table of single letters: `İ` becomes
`i` with a dot above, and a capital sigma becomes the final form `ς` at the end of a word.
-/

namespace HostWatch.Text

def inRanges (ranges : List (Nat × Nat)) (c : Char) : Bool :=
  ranges.any fun (first, last) => decide (first ≤ c.toNat) && decide (c.toNat ≤ last)

/-- Letters with case. -/
def isCased (c : Char) : Bool := inRanges casedRanges c

/-- Characters that case looks through. -/
def isCaseIgnorable (c : Char) : Bool := inRanges ignorableRanges c

/-- Applies the first run that holds the character. -/
def mapByRuns (runs : List (Nat × Nat × Nat × Int)) (c : Char) : Char :=
  match runs.find? fun (first, last, step, _) =>
      decide (first ≤ c.toNat) && decide (c.toNat ≤ last) && (c.toNat - first) % step == 0 with
  | some (_, _, _, offset) => Char.ofNat (c.toNat + offset).toNat
  | none => c

/-- Lower case of a character by itself. -/
def lowerChar (c : Char) : List Char :=
  if c.toNat < 128 then [c.toLower]
  else if c = 'İ' then ['i', '\u0307']
  else [mapByRuns lowerRuns c]

/-- Whether the first character that case does not look through is a letter with case. -/
def startsCased (cs : List Char) : Bool :=
  match cs.dropWhile isCaseIgnorable with
  | [] => false
  | c :: _ => isCased c

/-- Lower case, given whether the text so far ends in a cased letter. -/
def lowerAfter : Bool → List Char → List Char
  | _, [] => []
  | inWord, c :: rest =>
    let inWord' := if isCaseIgnorable c then inWord else isCased c
    let here :=
      if c = 'Σ' then (if inWord && !startsCased rest then ['ς'] else ['σ']) else lowerChar c
    here ++ lowerAfter inWord' rest

/-- Lower case of a text. -/
def lower (s : String) : String := String.ofList (lowerAfter false s.toList)

/-- Upper case of a character. -/
def upperChar (c : Char) : List Char :=
  if c.toNat < 128 then [c.toUpper]
  else
    match upperExpansions.lookup c.toNat with
    | some forms => forms.map Char.ofNat
    | none => [mapByRuns upperRuns c]

/-- Upper case of a text. -/
def upper (s : String) : String := String.ofList (s.toList.flatMap upperChar)

end HostWatch.Text
