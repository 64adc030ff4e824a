import HandlerComplexity.Document
import Mathlib.Data.Nat.Cast.Field
import Mathlib.Data.Rat.Cast.Order

/-!
# When keys are the same

Keys of different forms can be the same: `1`, `1.0` and `true` are one number, and a moment is one moment in every time
zone. What a key stands for is a `KeyValue`, and keys are the same iff they stand for the same one.

* `Scalar.keyValue`: what a key stands for.
* `Scalar.same_iff`: sameness is equality of what keys stand for, so it is an equivalence.
-/

namespace HandlerComplexity

/-! ## Numbers -/

namespace Binary64

/-- The value of a finite number. -/
def value (negative : Bool) (m : Nat) (e : Int) : ℚ := (signedRatio negative m e).1 / (signedRatio negative m e).2

theorem ratio_den_pos (m : Nat) (e : Int) : 0 < (ratio m e).2 := by
  unfold ratio scaleRatio
  split_ifs with he
  · exact Nat.one_pos
  · rw [Nat.one_mul]
    exact Nat.pow_pos (by omega)

theorem same_finite_iff {a b : Bool} {m n : Nat} {e f : Int} :
    (finite a m e).same (finite b n f) = true ↔ value a m e = value b n f := by
  have hq : ((signedRatio a m e).2 : ℚ) ≠ 0 := Nat.cast_ne_zero.mpr (ratio_den_pos m e).ne'
  have hs : ((signedRatio b n f).2 : ℚ) ≠ 0 := Nat.cast_ne_zero.mpr (ratio_den_pos n f).ne'
  rw [same, decide_eq_true_iff, value, value, div_eq_div_iff hq hs]
  exact_mod_cast Iff.rfl

/-- A fraction is an integer iff nothing remains of the division. -/
theorem cast_div_eq_iff {n d : Nat} (hd : 0 < d) {i : Int} :
    (n : ℚ) / d = i ↔ n % d = 0 ∧ ((n / d : Nat) : Int) = i := by
  have hne : (d : ℚ) ≠ 0 := Nat.cast_ne_zero.mpr hd.ne'
  constructor
  · intro h
    have hmul : (n : Int) = i * d := by exact_mod_cast (div_eq_iff hne).mp h
    have hmod : (n : Int) % d = 0 := by rw [hmul, Int.mul_emod_left]
    have hdiv : (n : Int) / d = i := by rw [hmul, Int.mul_ediv_cancel _ (by omega)]
    exact ⟨by exact_mod_cast hmod, by exact_mod_cast hdiv⟩
  · rintro ⟨hmod, rfl⟩
    rw [Int.cast_natCast, Nat.cast_div (Nat.dvd_of_mod_eq_zero hmod) hne]

/-- A finite number is an integer iff its value is. -/
theorem sameInt_finite_iff {a : Bool} {m : Nat} {e : Int} {i : Int} :
    (finite a m e).sameInt i = true ↔ value a m e = i := by
  have hden := ratio_den_pos m e
  cases a with
  | false =>
    have hvalue : value false m e = ((ratio m e).1 : ℚ) / (ratio m e).2 := by simp [value, signedRatio]
    rw [hvalue, cast_div_eq_iff hden]
    simp [sameInt, isWhole, toInt]
  | true =>
    have hvalue : value true m e = i ↔ ((ratio m e).1 : ℚ) / (ratio m e).2 = (-i : Int) := by
      simp only [value, signedRatio, if_true]
      push_cast
      rw [neg_div, neg_eq_iff_eq_neg]
    rw [hvalue, cast_div_eq_iff hden]
    simp only [sameInt, isWhole, toInt, if_true, Bool.and_eq_true, decide_eq_true_eq]
    exact and_congr_right fun _ => by omega

/-- What a number stands for: its value, or an infinity with its sign. -/
def number? : Binary64 → Option (ℚ ⊕ Bool)
  | .nan => none
  | .infinity negative => some (.inr negative)
  | .finite negative m e => some (.inl (value negative m e))

theorem same_iff {x y : Binary64} : x.same y = true ↔ x.number?.isSome = true ∧ x.number? = y.number? := by
  cases x with
  | nan => simp [same, number?]
  | infinity a => cases y <;> simp [same, number?]
  | finite a m e =>
    cases y with
    | nan => simp [same, number?]
    | infinity b => simp [same, number?]
    | finite b n f => simp [same_finite_iff, number?]

theorem sameInt_iff {x : Binary64} {i : Int} : x.sameInt i = true ↔ x.number? = some (.inl (i : ℚ)) := by
  cases x with
  | nan => simp [sameInt, isWhole, number?]
  | infinity a => simp [sameInt, isWhole, number?]
  | finite a m e => simp [sameInt_finite_iff, number?]

end Binary64

/-! ## Moments -/

/-- When a moment is: in universal time if the distance from it is known, else by the clock. -/
def Moment.instant (m : Moment) : Int := m.clock - m.ahead.getD 0 * 60000000

theorem Moment.same_iff {m n : Moment} :
    m.same n = true ↔ m.ahead.isSome = n.ahead.isSome ∧ m.instant = n.instant := by
  unfold same instant
  cases m.ahead <;> cases n.ahead <;> simp

/-! ## Keys -/

/-- What a key stands for. -/
inductive KeyValue
  | null
  /-- A number by its value; without one it is the number that is none, written by its name. -/
  | number (v : Option (ℚ ⊕ Bool))
  | nan (mark : Nat)
  | text (s : String)
  | broken (ps : Text.Points)
  | date (d : Date)
  | moment (zoned : Bool) (microseconds : Int)
  | bytes (bs : List UInt8)

namespace Scalar

def keyValue : Scalar → KeyValue
  | null => .null
  | bool b => .number (some (.inl ((if b then 1 else 0 : Int) : ℚ)))
  | int i => .number (some (.inl (i : ℚ)))
  | real x => .number x.number?
  | nan mark => .nan mark
  | text s => .text s
  | broken ps => .broken ps
  | date d => .date d
  | moment m => .moment m.ahead.isSome m.instant
  | bytes bs => .bytes bs

theorem same_real_iff {x y : Binary64} : (real x).same (real y) = true ↔ x.number? = y.number? := by
  cases x with
  | nan => cases y <;> simp [same, Binary64.same, Binary64.number?]
  | _ => simp [same, Binary64.same_iff, Binary64.number?]

/-- **Keys are the same iff they stand for the same.** -/
theorem same_iff {a b : Scalar} : a.same b = true ↔ a.keyValue = b.keyValue := by
  cases a <;> cases b
  case real.real => rw [same_real_iff, keyValue, keyValue, KeyValue.number.injEq]
  case bool.real | int.real =>
    rw [keyValue, keyValue, KeyValue.number.injEq]
    exact Binary64.sameInt_iff.trans eq_comm
  all_goals simp [same, keyValue, toInt?, Binary64.sameInt_iff, Moment.same_iff, -Int.cast_ite]

theorem same_self (a : Scalar) : a.same a = true := same_iff.mpr rfl

theorem same_comm (a b : Scalar) : a.same b = b.same a := by
  rw [Bool.eq_iff_iff, same_iff, same_iff, eq_comm]

theorem same_trans {a b c : Scalar} (h : a.same b = true) (h' : b.same c = true) : a.same c = true :=
  same_iff.mpr ((same_iff.mp h).trans (same_iff.mp h'))

/-- Keys that are the same are the same as the same keys. -/
theorem same_congr {a b : Scalar} (h : a.same b = true) (c : Scalar) : a.same c = b.same c := by
  rw [Bool.eq_iff_iff, same_iff, same_iff, same_iff.mp h]

end Scalar

end HandlerComplexity
