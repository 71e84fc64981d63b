/-!
# Blanks

`trim` removes blanks from both ends of a text. Blanks are the Unicode white-space characters and
the four information separators; zero-width characters are not blank.
-/

namespace HostWatch.Text

/-- White space and the information separators. -/
def isBlank (c : Char) : Bool :=
  let n := c.toNat
  (decide (0x9 ≤ n) && decide (n ≤ 0xd)) || (decide (0x1c ≤ n) && decide (n ≤ 0x20)) ||
    n == 0x85 || n == 0xa0 || n == 0x1680 || (decide (0x2000 ≤ n) && decide (n ≤ 0x200a)) ||
    n == 0x2028 || n == 0x2029 || n == 0x202f || n == 0x205f || n == 0x3000

/-- Drops the characters with property `p` from both ends. -/
def trimBoth (p : Char → Bool) (cs : List Char) : List Char :=
  ((cs.dropWhile p).reverse.dropWhile p).reverse

/-- Drops blanks from both ends. -/
def trim (s : String) : String := String.ofList (trimBoth isBlank s.toList)

end HostWatch.Text
