/-!
# Searching in a text
-/

namespace HandlerComplexity.Text

/-- Whether `p` holds of some end part of the list, the empty one included. -/
def anySuffix (p : List α → Bool) : List α → Bool
  | [] => p []
  | c :: cs => p (c :: cs) || anySuffix p cs

/-- Whether `needle` occurs in `hay`. -/
def occursIn (needle hay : List Char) : Bool :=
  anySuffix needle.isPrefixOf hay

/-- The part after the last `sep`, or all of the text if there is none. -/
def afterLast (sep : Char) (cs : List Char) : List Char :=
  (cs.reverse.takeWhile (· != sep)).reverse

/-- The parts between the separators: one more than there are separators. -/
def splitAt (sep : Char) : List Char → List (List Char)
  | [] => [[]]
  | c :: cs =>
    if c == sep then [] :: splitAt sep cs
    else match splitAt sep cs with
      | [] => [[c]]
      | part :: parts => (c :: part) :: parts

end HandlerComplexity.Text
