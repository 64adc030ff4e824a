/-!
# Code points

An escape in a text can stand for one half of a surrogate pair. A half is a code point but no
character, so a text that holds one is a list of code points and not a string.
-/

namespace HandlerComplexity.Text

inductive Point
  | char (c : Char)
  /-- The half with a given number, counted from the first one. -/
  | half (n : Fin 0x800)
deriving DecidableEq, Repr

namespace Point

def toNat : Point → Nat
  | char c => c.toNat
  | half n => 0xd800 + n

/-- The code point of a number. -/
def ofNat (n : Nat) : Point :=
  if h : 0xd800 ≤ n ∧ n < 0xe000 then .half ⟨n - 0xd800, by omega⟩ else .char (Char.ofNat n)

def char? : Point → Option Char
  | char c => some c
  | half _ => none

end Point

abbrev Points := List Point

/-- The code points of characters. -/
def pointsOf (cs : List Char) : Points := cs.map .char

/-- The characters of a text that holds nothing else. -/
def chars? (ps : Points) : Option (List Char) := ps.mapM Point.char?

end HandlerComplexity.Text
