import HandlerComplexity.Number.Binary64

/-!
# Numbers with two decimal places
-/

namespace HandlerComplexity.Binary64

/-- The nearest multiple of a hundredth with two digits after the point; an exact half goes to the
even digit, and the sign of the number is kept. -/
def twoPlaces : Binary64 → String
  | .nan => "nan"
  | .infinity negative => if negative then "-inf" else "inf"
  | .finite negative m e =>
    let (num, den) := ratio m e
    let hundredths := roundHalfEven (num * 100) den
    let tail := hundredths % 100
    (if negative then "-" else "") ++ toString (hundredths / 100) ++ "." ++
      (if tail < 10 then "0" else "") ++ toString tail

end HandlerComplexity.Binary64
