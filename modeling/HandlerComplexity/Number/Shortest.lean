import HandlerComplexity.Number.Binary64

/-!
# The shortest decimal text of a number

A number is written with the fewest digits that read back as the same number and, among those, the
digits nearest to it, the even ones of two that are equally near. Whole numbers below `10 ^ 16` are
written in full with `.0` behind them, numbers from `10 ^ -4` up with a decimal point, and all others
with an exponent of at least two digits.
-/

namespace HandlerComplexity.Binary64

/-- The reals that round to `mantissa * 2 ^ exponent`, in units of `2 ^ (exponent - 2)`: their lower
end, the number itself, their upper end. Below a power of two the gap is half as wide. -/
def roundingInterval (mantissa : Nat) (exponent : Int) : Nat × Nat × Nat :=
  let low := if mantissa = Nat.pow 2 52 ∧ -1074 < exponent then 4 * mantissa - 1 else 4 * mantissa - 2
  (low, 4 * mantissa, 4 * mantissa + 2)

/-- Whether `candidate * 10 ^ k` rounds to the number; the ends of the interval count when the
mantissa is even. -/
def readsBack (mantissa : Nat) (exponent : Int) (candidate : Nat) (k : Int) : Bool :=
  let (low, _, high) := roundingInterval mantissa exponent
  let (c, d) := scaleRatio 10 candidate 1 k
  let (t, u) := scaleRatio 2 1 1 (exponent - 2)
  if mantissa % 2 = 0 then low * t * d ≤ c * u && c * u ≤ high * t * d
  else low * t * d < c * u && c * u < high * t * d

/-- The decimal magnitude: the least `p` among the guesses with the number below `10 ^ p`. -/
def magnitude (mantissa : Nat) (exponent : Int) : Int :=
  let (num, den) := ratio mantissa exponent
  let guess : Int := Int.fdiv (((Nat.log2 mantissa : Int) + exponent) * 30103) 100000
  let below (p : Int) : Bool :=
    let (c, d) := scaleRatio 10 1 1 p
    num * d < c * den
  ([guess - 1, guess, guess + 1, guess + 2].find? below).getD (guess + 2)

/-- The digits with `n` places: the nearer of the two neighbours that read back, and the even one if
both are equally near. -/
def digitsAt (mantissa : Nat) (exponent : Int) (p : Int) (n : Nat) : Option (Nat × Int) :=
  let k := p - n
  let (num, den) := ratio mantissa exponent
  let (a, b) := scaleRatio 10 num den (-k)
  let c := a / b
  let up := readsBack mantissa exponent (c + 1) k
  if readsBack mantissa exponent c k then
    if up && c < roundHalfEven a b then some (c + 1, k) else some (c, k)
  else if up then some (c + 1, k)
  else none

/-- Trailing zeros moved into the exponent. -/
def stripZeros : Nat → Nat × Int → Nat × Int
  | 0, d => d
  | fuel + 1, (c, k) => if c % 10 = 0 ∧ c ≠ 0 then stripZeros fuel (c / 10, k + 1) else (c, k)

/-- The fewest digits that read back: `digits * 10 ^ exponent`. -/
def shortestDigits (mantissa : Nat) (exponent : Int) : Nat × Int :=
  let p := magnitude mantissa exponent
  match (List.range' 1 17).findSome? (digitsAt mantissa exponent p) with
  | some d => stripZeros 20 d
  | none => (mantissa, exponent)

/-- An exponent with its sign and at least two digits. -/
def exponentText (x : Int) : String :=
  let digits := toString x.natAbs
  (if x < 0 then "e-" else "e+") ++ (if digits.length < 2 then "0" ++ digits else digits)

/-- Digits with the decimal point after the first `point` of them. -/
def positional (digits : List Char) (point : Int) : List Char :=
  if point ≤ 0 then '0' :: '.' :: List.replicate (-point).toNat '0' ++ digits
  else if digits.length ≤ point then
    digits ++ List.replicate (point.toNat - digits.length) '0' ++ ['.', '0']
  else digits.take point.toNat ++ '.' :: digits.drop point.toNat

/-- One digit, a point before the others if there are any, and an exponent. -/
def scientific (digits : List Char) (point : Int) : String :=
  String.ofList (match digits with
    | [] => []
    | [d] => [d]
    | d :: ds => d :: '.' :: ds) ++ exponentText (point - 1)

/-- The text of a positive finite number. -/
def magnitudeText (mantissa : Nat) (exponent : Int) : String :=
  let (num, den) := ratio mantissa exponent
  if num % den = 0 ∧ num / den < Nat.pow 10 16 then toString (num / den) ++ ".0"
  else
    let (c, k) := shortestDigits mantissa exponent
    let digits := (toString c).toList
    let point := k + digits.length
    if -4 < point ∧ point ≤ 16 then String.ofList (positional digits point)
    else scientific digits point

/-- The shortest text that reads back as the number. -/
def text : Binary64 → String
  | .nan => "nan"
  | .infinity negative => if negative then "-inf" else "inf"
  | .finite negative m e => (if negative then "-" else "") ++ magnitudeText m e

end HandlerComplexity.Binary64
