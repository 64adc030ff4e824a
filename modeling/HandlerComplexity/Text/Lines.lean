/-!
# Lines

A line ends at a line feed, a carriage return, both together, a tab to the next line or page, one of
three information separators, a next-line mark, or one of the two separators of Unicode.
-/

namespace HandlerComplexity.Text

def endsLine (c : Char) : Bool :=
  let n := c.toNat
  (0xa ≤ n && n ≤ 0xd) || (0x1c ≤ n && n ≤ 0x1e) || n == 0x85 || n == 0x2028 || n == 0x2029

/-- The last line of a text, which may be empty, without its end. A line end at the very end begins no
further line. -/
def lastLine (s : String) : String :=
  let body := match s.toList.reverse with
    | '\n' :: '\r' :: cs => cs
    | c :: cs => if endsLine c then cs else c :: cs
    | [] => []
  String.ofList (body.takeWhile (!endsLine ·)).reverse

end HandlerComplexity.Text
