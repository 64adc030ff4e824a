/-!
# Binary64 numbers

Floating-point numbers as exact dyadic fractions: a finite number is `± mantissa * 2 ^ exponent`.
Every operation computes the exact result and rounds it once, to the nearest number and, from a
midpoint, to the even mantissa.

* `roundRatio`: the number nearest to a fraction.
* `ofDecimal`: the number nearest to `digits * 10 ^ exponent`.
* `isWhole`, `toInt`: whole numbers among them.
-/

namespace HandlerComplexity

/-- A binary64 number. In a finite one the mantissa is below `2 ^ 53`, the exponent is at least
`-1074`, and the mantissa is at least `2 ^ 52` unless the exponent is `-1074`. -/
inductive Binary64
  | nan
  | infinity (negative : Bool)
  | finite (negative : Bool) (mantissa : Nat) (exponent : Int)
deriving DecidableEq, Repr

/-- The whole number nearest to `n / d`, from a midpoint the even one. -/
def roundHalfEven (n d : Nat) : Nat :=
  let q := n / d
  let r := n % d
  if 2 * r < d then q
  else if d < 2 * r then q + 1
  else if q % 2 = 0 then q else q + 1

/-- The fraction `n / d * b ^ k`. -/
def scaleRatio (b : Nat) (n d : Nat) (k : Int) : Nat × Nat :=
  if 0 ≤ k then (n * b.pow k.toNat, d) else (n, d * b.pow (-k).toNat)

namespace Binary64

def zero (negative : Bool) : Binary64 := .finite negative 0 (-1074)

/-- The mantissa may be `2 ^ 53` after rounding up; it is then halved. Past the largest number is
infinity. -/
def normalize (negative : Bool) (mantissa : Nat) (exponent : Int) : Binary64 :=
  let (m, e) := if mantissa = Nat.pow 2 53 then (Nat.pow 2 52, exponent + 1) else (mantissa, exponent)
  if 971 < e then .infinity negative else .finite negative m e

/-- The exponent at which the mantissa of `n / d` has 53 bits, or the least exponent. -/
def exponentOf (n d : Nat) : Int :=
  let guess : Int := (Nat.log2 n : Int) - Nat.log2 d - 53
  let (num, den) := scaleRatio 2 n d (-guess)
  max (-1074) (if num / den < Nat.pow 2 53 then guess else guess + 1)

/-- The number nearest to `± n / d`. -/
def roundRatio (negative : Bool) (n d : Nat) : Binary64 :=
  if n = 0 then zero negative
  else
    let e := exponentOf n d
    let (num, den) := scaleRatio 2 n d (-e)
    normalize negative (roundHalfEven num den) e

def ofNat (n : Nat) : Binary64 := roundRatio false n 1

def ofInt (i : Int) : Binary64 := roundRatio (decide (i < 0)) i.natAbs 1

/-- The number nearest to `± digits * 10 ^ exponent`. Exponents far outside the range of the format
are settled without computing the power. -/
def ofDecimal (negative : Bool) (digits : Nat) (exponent : Int) : Binary64 :=
  let magnitude : Int := (toString digits).length + exponent
  if digits = 0 then zero negative
  else if 400 < magnitude then .infinity negative
  else if magnitude < -400 then zero negative
  else
    let (num, den) := scaleRatio 10 digits 1 exponent
    roundRatio negative num den

/-- The absolute value of a finite number as a fraction. -/
def ratio (mantissa : Nat) (exponent : Int) : Nat × Nat := scaleRatio 2 mantissa 1 exponent

def isWhole : Binary64 → Bool
  | .finite _ m e => let (num, den) := ratio m e; num % den = 0
  | _ => false

/-- The whole part, toward zero. -/
def toInt : Binary64 → Int
  | .finite negative m e =>
    let (num, den) := ratio m e
    if negative then -((num / den : Nat) : Int) else (num / den : Nat)
  | _ => 0

/-- Whether the number is less than zero. -/
def isNegative : Binary64 → Bool
  | .nan => false
  | .infinity negative => negative
  | .finite negative m _ => negative && m ≠ 0

/-- Whether the number equals zero. -/
def isZero : Binary64 → Bool
  | .finite _ m _ => m = 0
  | _ => false

/-- Whether the number equals an integer. -/
def sameInt (x : Binary64) (i : Int) : Bool := x.isWhole && x.toInt = i

/-- The signed numerator and the denominator of a finite number. -/
def signedRatio (negative : Bool) (m : Nat) (e : Int) : Int × Nat :=
  let (num, den) := ratio m e
  (if negative then -(num : Int) else num, den)

/-- Equality of numbers by their values: the zeros are equal and a NaN equals nothing. -/
def same : Binary64 → Binary64 → Bool
  | .infinity a, .infinity b => a = b
  | .finite a m e, .finite b n f =>
    let (p, q) := signedRatio a m e
    let (r, s) := signedRatio b n f
    p * s = r * q
  | _, _ => false

def add : Binary64 → Binary64 → Binary64
  | .nan, _ | _, .nan => .nan
  | .infinity a, .infinity b => if a = b then .infinity a else .nan
  | .infinity a, _ | _, .infinity a => .infinity a
  | .finite a m e, .finite b n f =>
    let (p, q) := signedRatio a m e
    let (r, s) := signedRatio b n f
    let sum := p * s + r * q
    if sum = 0 then zero (a && b) else roundRatio (decide (sum < 0)) sum.natAbs (q * s)

def mul : Binary64 → Binary64 → Binary64
  | .nan, _ | _, .nan => .nan
  | .infinity a, .infinity b => .infinity (a != b)
  | .infinity a, .finite b n _ | .finite b n _, .infinity a => if n = 0 then .nan else .infinity (a != b)
  | .finite a m e, .finite b n f =>
    let (p, q) := ratio m e
    let (r, s) := ratio n f
    roundRatio (a != b) (p * r) (q * s)

def neg : Binary64 → Binary64
  | .nan => .nan
  | .infinity a => .infinity (!a)
  | .finite a m e => .finite (!a) m e

end Binary64

end HandlerComplexity
