/-!
# Digits

Numbers written in decimal or another base, and the length that a decimal integer may have.
-/

namespace HandlerComplexity.Digits

/-- The value of a digit of base sixteen. -/
def hexValue? (c : Char) : Option Nat :=
  if '0' ≤ c ∧ c ≤ '9' then some (c.toNat - '0'.toNat)
  else if 'a' ≤ c ∧ c ≤ 'f' then some (c.toNat - 'a'.toNat + 10)
  else if 'A' ≤ c ∧ c ≤ 'F' then some (c.toNat - 'A'.toNat + 10)
  else none

/-- The number that digits of a base make, most significant first; other characters count as zero. -/
def toNat (base : Nat) (cs : List Char) : Nat :=
  cs.foldl (fun n c => n * base + (hexValue? c).getD 0) 0

def decimal (cs : List Char) : Nat := toNat 10 cs

/-- The digits at the front of a text, and the rest. -/
def span (cs : List Char) : List Char × List Char :=
  (cs.takeWhile Char.isDigit, cs.dropWhile Char.isDigit)

/-- The most digits that a decimal integer may have. -/
def limit : Nat := 4300

/-- What is said of a decimal integer that is too long. -/
def tooLongMessage (count : Nat) : String :=
  "Exceeds the limit (" ++ toString limit ++ " digits) for integer string conversion: value has " ++
    toString count ++ " digits; use sys.set_int_max_str_digits() to increase the limit"

/-- Whether an integer has too many digits to be shown. -/
def isTooLong (i : Int) : Bool := Nat.pow 10 limit ≤ i.natAbs

/-- What is said of an integer that is too long to be shown. -/
def tooLongToShowMessage : String :=
  "Exceeds the limit (" ++ toString limit ++ " digits) for integer string conversion; " ++
    "use sys.set_int_max_str_digits() to increase the limit"

end HandlerComplexity.Digits
