import HandlerComplexity.Number.Binary64
import HandlerComplexity.Number.Digits
import HandlerComplexity.Text.Blank
import HandlerComplexity.Text.DecimalDigit

/-!
# Numerals in text

Integers and real numbers as people write them: blanks around them, a sign, decimal digits of any
script, and underscores between digits.
-/

namespace HandlerComplexity.Numeral

/-- A numeral that is none. -/
inductive Fault
  | invalid
  /-- A decimal integer of more digits than are allowed. -/
  | tooLong (digits : Nat)
deriving DecidableEq, Repr

/-- Whether a character may stand around a numeral: a blank other than an information separator. -/
def isBlank (c : Char) : Bool := Text.isBlank c && !(0x1c ≤ c.toNat && c.toNat ≤ 0x1f)

def trim (cs : List Char) : List Char := Text.trimBy isBlank cs

/-- The value of a digit: a decimal digit of any script, or a letter. -/
def digit? (c : Char) : Option Nat :=
  match Text.digitValue? c with
  | some d => some d
  | none => Digits.hexValue? c

/-- Digits of a base with single underscores between them. -/
def digits? (base : Nat) : List Char → Option (List Nat)
  | [] => none
  | c :: cs =>
    match digit? c with
    | none => none
    | some d =>
      if d < base then
        match cs with
        | [] => some [d]
        | '_' :: more => (digits? base more).map (d :: ·)
        | more => (digits? base more).map (d :: ·)
      else none

/-- A sign at the front, and the rest. -/
def sign : List Char → Bool × List Char
  | '-' :: cs => (true, cs)
  | '+' :: cs => (false, cs)
  | cs => (false, cs)

/-- The letter that marks digits of a base, behind a zero. -/
def baseMark? : Nat → Option Char
  | 2 => some 'b'
  | 8 => some 'o'
  | 16 => some 'x'
  | _ => none

/-- Without the mark of a base and an underscore behind it. -/
def dropMark (base : Nat) : List Char → List Char
  | '0' :: m :: '_' :: cs => if baseMark? base = some m.toLower then cs else '0' :: m :: '_' :: cs
  | '0' :: m :: cs => if baseMark? base = some m.toLower then cs else '0' :: m :: cs
  | cs => cs

/-- The integer that a text is in a base. Only decimal integers are limited in length. -/
def integer (base : Nat) (cs : List Char) : Except Fault Int :=
  let (negative, body) := sign (trim cs)
  match digits? base (dropMark base body) with
  | none => .error .invalid
  | some ds =>
    if base = 10 ∧ Digits.limit < ds.length then .error (.tooLong ds.length)
    else
      let n : Int := (ds.foldl (fun n d => n * base + d) 0 : Nat)
      .ok (if negative then -n else n)

/-! ## Real numbers -/

/-- The decimal digits at the front, underscores between them dropped, and the rest. -/
def run : List Char → List Nat × List Char
  | [] => ([], [])
  | c :: cs =>
    match Text.digitValue? c with
    | none => ([], c :: cs)
    | some d =>
      let (ds, rest) := match cs with
        | '_' :: e :: more => if (Text.digitValue? e).isSome then run (e :: more) else ([], cs)
        | cs => run cs
      (d :: ds, rest)

/-- An exponent that ends the text. -/
def exponent? : List Char → Option Int
  | [] => some 0
  | e :: cs =>
    if e == 'e' || e == 'E' then
      let (negative, body) := sign cs
      match run body with
      | (d :: ds, []) =>
        let n : Int := ((d :: ds).foldl (fun n d => n * 10 + d) 0 : Nat)
        some (if negative then -n else n)
      | _ => none
    else none

/-- The real number that a text is; the names of the numbers that are not finite count. -/
def real? (cs : List Char) : Option Binary64 :=
  let (negative, body) := sign (trim cs)
  let name := body.map Char.toLower
  if name = "inf".toList ∨ name = "infinity".toList then some (.infinity negative)
  else if name = "nan".toList then some .nan
  else
    let (whole, rest) := run body
    let (fraction, rest) := match rest with
      | '.' :: more => run more
      | rest => ([], rest)
    if whole.isEmpty ∧ fraction.isEmpty then none
    else
      (exponent? rest).map fun e =>
        .ofDecimal negative ((whole ++ fraction).foldl (fun n d => n * 10 + d) 0)
          (e - fraction.length)

end HandlerComplexity.Numeral
