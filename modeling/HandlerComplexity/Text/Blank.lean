/-!
# Blank characters

The separators and layout controls that are trimmed from the ends of a text and skipped between the
parts of an annotation.
-/

namespace HandlerComplexity.Text

/-- Tabs and line ends, the four information separators, and every kind of space. -/
def isBlank (c : Char) : Bool :=
  let n := c.toNat
  (9 ≤ n && n ≤ 13) || (0x1c ≤ n && n ≤ 0x20) || n == 0x85 || n == 0xa0 || n == 0x1680 ||
    (0x2000 ≤ n && n ≤ 0x200a) || n == 0x2028 || n == 0x2029 || n == 0x202f || n == 0x205f ||
    n == 0x3000

/-- Drop the characters at both ends that fulfil a condition. -/
def trimBy (p : Char → Bool) (cs : List Char) : List Char :=
  ((cs.dropWhile p).reverse.dropWhile p).reverse

/-- Drop the blanks at both ends. -/
def trimList (cs : List Char) : List Char := trimBy isBlank cs

/-- Drop the blanks at both ends. -/
def trim (s : String) : String :=
  String.ofList (trimList s.toList)

end HandlerComplexity.Text
