/-!
# Base 64

Bytes in groups of four characters for three bytes. Characters outside the alphabet are passed over,
and reading ends at the padding that completes a group.
-/

namespace HandlerComplexity.Base64

/-- The six bits that a character stands for. -/
def value? (c : Char) : Option Nat :=
  if 'A' ≤ c ∧ c ≤ 'Z' then some (c.toNat - 'A'.toNat)
  else if 'a' ≤ c ∧ c ≤ 'z' then some (c.toNat - 'a'.toNat + 26)
  else if '0' ≤ c ∧ c ≤ '9' then some (c.toNat - '0'.toNat + 52)
  else if c = '+' then some 62
  else if c = '/' then some 63
  else none

/-- The byte that six more bits complete, if they do, and the bits that are left then. `position` is
the number of characters of the group before. -/
def complete (position left bits : Nat) : List UInt8 × Nat :=
  match position with
  | 0 => ([], bits)
  | 1 => ([UInt8.ofNat (left * 4 + bits / 16)], bits % 16)
  | 2 => ([UInt8.ofNat (left * 16 + bits / 4)], bits % 4)
  | _ => ([UInt8.ofNat (left * 64 + bits)], 0)

/-- The bytes of a text from inside a group on; `padding` counts the paddings just before. The last
group must be complete. -/
def decodeFrom (position left padding : Nat) : List Char → Option (List UInt8)
  | [] => if position = 0 then some [] else none
  | c :: cs =>
    if c = '=' then
      if position < 2 then decodeFrom position left padding cs
      else if 4 ≤ position + padding + 1 then some []
      else decodeFrom position left (padding + 1) cs
    else
      match value? c with
      | none => decodeFrom position left padding cs
      | some bits =>
        let (done, left) := complete position left bits
        (decodeFrom ((position + 1) % 4) left 0 cs).map (done ++ ·)

/-- The bytes of a text. -/
def decode? (cs : List Char) : Option (List UInt8) := decodeFrom 0 0 0 cs

end HandlerComplexity.Base64
