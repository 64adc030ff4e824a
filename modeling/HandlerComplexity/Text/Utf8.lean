/-!
# Decoding UTF-8

Bytes are cut into pieces: a well-formed sequence is one character, and a maximal part of a sequence
that cannot be completed is one ill-formed piece. Reading strictly refuses ill-formed pieces, reading
leniently puts the replacement character in the place of each.
-/

namespace HandlerComplexity.Text.Utf8

/-- What a first byte promises. -/
inductive Lead
  | single (code : Nat)
  /-- `count` bytes follow, the first of them between `low` and `high`. -/
  | more (count bits low high : Nat)
  | invalid

/-- Overlong forms, surrogates and code points past the last are refused at the second byte. -/
def lead (b : UInt8) : Lead :=
  let n := b.toNat
  if n < 0x80 then .single n
  else if n < 0xc2 then .invalid
  else if n < 0xe0 then .more 1 (n - 0xc0) 0x80 0xbf
  else if n == 0xe0 then .more 2 0 0xa0 0xbf
  else if n == 0xed then .more 2 13 0x80 0x9f
  else if n < 0xf0 then .more 2 (n - 0xe0) 0x80 0xbf
  else if n == 0xf0 then .more 3 0 0x90 0xbf
  else if n < 0xf4 then .more 3 (n - 0xf0) 0x80 0xbf
  else if n == 0xf4 then .more 3 4 0x80 0x8f
  else .invalid

/-- Read the following bytes of a sequence. A byte out of its range is left where it is. -/
def follow : (count bits low high : Nat) → List UInt8 → Option Nat × List UInt8
  | 0, bits, _, _, rest => (some bits, rest)
  | _ + 1, _, _, _, [] => (none, [])
  | count + 1, bits, low, high, b :: rest =>
    if low ≤ b.toNat ∧ b.toNat ≤ high then
      follow count (bits * 64 + (b.toNat - 0x80)) 0x80 0xbf rest
    else (none, b :: rest)

theorem length_follow_le (count bits low high : Nat) (bs : List UInt8) :
    (follow count bits low high bs).2.length ≤ bs.length := by
  induction count generalizing bits low high bs with
  | zero => simp [follow]
  | succ n ih =>
    cases bs with
    | nil => simp [follow]
    | cons b rest =>
      rw [follow]
      split
      · exact Nat.le_succ_of_le (ih ..)
      · exact Nat.le_refl _

/-- The pieces of a byte sequence; `none` is an ill-formed one. -/
def pieces : List UInt8 → List (Option Char)
  | [] => []
  | b :: rest =>
    match lead b with
    | .single n => some (Char.ofNat n) :: pieces rest
    | .invalid => none :: pieces rest
    | .more count bits low high =>
      let piece := follow count bits low high rest
      piece.1.map Char.ofNat :: pieces piece.2
termination_by bs => bs.length
decreasing_by
  · simp
  · simp
  · exact Nat.lt_succ_of_le (length_follow_le ..)

/-- The text of the bytes with a replacement character for each ill-formed piece. -/
def decodeLenient (bs : List UInt8) : List Char :=
  (pieces bs).map (·.getD '\ufffd')

/-- The text of the bytes, if they are well-formed. -/
def decode? (bs : List UInt8) : Option (List Char) :=
  (pieces bs).mapM id

end HandlerComplexity.Text.Utf8
