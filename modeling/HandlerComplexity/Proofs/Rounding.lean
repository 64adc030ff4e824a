import HandlerComplexity.Proofs.Keys
import HandlerComplexity.Number.Shortest
import Mathlib.Algebra.Order.Field.Power
import Mathlib.Tactic.Linarith

/-!
# Numbers that need no rounding

A fraction that is a binary64 number is rounded to that number. The fraction lies in some binade, `2 ^ (t + 52)` up to
`2 ^ (t + 53)`, and the exponent that rounding chooses is that of the binade or, below the normal numbers, the least
one. The mantissa is then a whole number, and rounding leaves it alone.

* `Binary64.IsCanonical`: what makes a mantissa and an exponent a binary64 number.
* `Binary64.exists_binade`: the exponent that is chosen.
* `Binary64.roundRatio_eq`: a fraction that is a number is rounded to itself.
* `Binary64.ofDecimal_whole`: a whole number is read back from its digits with a zero behind the point.
-/

namespace HandlerComplexity

/-! ## Scaled fractions -/

theorem scaleRatio_den_pos {b d : Nat} (hb : 0 < b) (hd : 0 < d) (n : Nat) (k : Int) : 0 < (scaleRatio b n d k).2 := by
  unfold scaleRatio
  split_ifs
  · exact hd
  · exact Nat.mul_pos hd (Nat.pow_pos hb)

theorem scaleRatio_value (b n d : Nat) (k : Int) :
    ((scaleRatio b n d k).1 : ℚ) / (scaleRatio b n d k).2 = n / d * (b : ℚ) ^ k := by
  unfold scaleRatio
  split_ifs with hk
  · obtain ⟨j, rfl⟩ := Int.eq_ofNat_of_zero_le hk
    simp [mul_div_right_comm]
  · obtain ⟨j, hj⟩ := Int.eq_ofNat_of_zero_le (show 0 ≤ -k by omega)
    obtain rfl : k = -(j : Int) := by omega
    simp [div_eq_mul_inv, mul_left_comm, mul_comm]

/-- A fraction that is a whole number is rounded to it. -/
theorem roundHalfEven_mul {d : Nat} (hd : 0 < d) (m : Nat) : roundHalfEven (m * d) d = m := by
  simp [roundHalfEven, Nat.mul_div_cancel _ hd, hd]

namespace Binary64

/-! ## The exponent -/

/-- Whether a number is one of the format: the mantissa has at most 53 bits, and exactly 53 unless the exponent is the
least one. -/
def IsCanonical : Binary64 → Prop
  | .finite _ m e => m < 2 ^ 53 ∧ -1074 ≤ e ∧ e ≤ 971 ∧ (2 ^ 52 ≤ m ∨ e = -1074)
  | _ => True

instance : DecidablePred IsCanonical
  | .nan => .isTrue trivial
  | .infinity _ => .isTrue trivial
  | .finite _ _ _ => inferInstanceAs (Decidable (_ ∧ _ ∧ _ ∧ _))

theorem two_zpow_log2_le {n : Nat} (hn : n ≠ 0) : (2 : ℚ) ^ (Nat.log2 n : Int) ≤ n := by
  rw [zpow_natCast]
  exact_mod_cast Nat.log2_self_le hn

theorem lt_two_zpow_log2 (n : Nat) : (n : ℚ) < 2 ^ ((Nat.log2 n : Int) + 1) := by
  have h : (n : ℚ) < ((2 ^ (Nat.log2 n + 1) : Nat) : ℚ) := Nat.cast_lt.mpr Nat.lt_log2_self
  exact_mod_cast h

/-- **The chosen exponent** is that of the binade of the fraction, unless it is below the least one. -/
theorem exists_binade {n d : Nat} (hn : n ≠ 0) (hd : d ≠ 0) :
    ∃ t : Int, exponentOf n d = max (-1074) t ∧ (2 : ℚ) ^ (t + 52) ≤ n / d ∧ (n : ℚ) / d < 2 ^ (t + 53) := by
  have htwo : (2 : ℚ) ≠ 0 := by norm_num
  have hdpos : (0 : ℚ) < d := Nat.cast_pos.mpr (Nat.pos_of_ne_zero hd)
  obtain ⟨guess, hguess⟩ : ∃ g : Int, g = (Nat.log2 n : Int) - Nat.log2 d - 53 := ⟨_, rfl⟩
  -- The guess is the exponent or one less, from the lengths of the numerator and the denominator.
  have hlow : (2 : ℚ) ^ (guess + 52) ≤ n / d := by
    rw [le_div_iff₀ hdpos]
    calc (2 : ℚ) ^ (guess + 52) * d ≤ 2 ^ (guess + 52) * 2 ^ ((Nat.log2 d : Int) + 1) :=
          mul_le_mul_of_nonneg_left (lt_two_zpow_log2 d).le (zpow_nonneg (by norm_num) _)
      _ = 2 ^ (Nat.log2 n : Int) := by
          rw [← zpow_add₀ htwo]
          congr 1
          omega
      _ ≤ n := two_zpow_log2_le hn
  have hhigh : (n : ℚ) / d < 2 ^ (guess + 54) := by
    rw [div_lt_iff₀ hdpos]
    calc (n : ℚ) < 2 ^ ((Nat.log2 n : Int) + 1) := lt_two_zpow_log2 n
      _ = 2 ^ (guess + 54) * 2 ^ (Nat.log2 d : Int) := by
          rw [← zpow_add₀ htwo]
          congr 1
          omega
      _ ≤ 2 ^ (guess + 54) * d :=
          mul_le_mul_of_nonneg_left (two_zpow_log2_le hd) (zpow_nonneg (by norm_num) _)
  have hdecide : (scaleRatio 2 n d (-guess)).1 / (scaleRatio 2 n d (-guess)).2 < Nat.pow 2 53 ↔
      (n : ℚ) / d < 2 ^ (guess + 53) := by
    have hden := scaleRatio_den_pos Nat.two_pos (Nat.pos_of_ne_zero hd) n (-guess)
    have hvalue := scaleRatio_value 2 n d (-guess)
    have hcast : ((Nat.pow 2 53 * (scaleRatio 2 n d (-guess)).2 : Nat) : ℚ) =
        2 ^ 53 * (scaleRatio 2 n d (-guess)).2 := by
      push_cast
      norm_num
    rw [Nat.div_lt_iff_lt_mul hden, ← Nat.cast_lt (α := ℚ), hcast, ← div_lt_iff₀ (Nat.cast_pos.mpr hden), hvalue,
      zpow_neg, Nat.cast_ofNat, ← div_eq_mul_inv, div_lt_iff₀ (zpow_pos (by norm_num) _), add_comm guess,
      zpow_add₀ htwo]
    rfl
  unfold exponentOf
  rw [← hguess]
  by_cases hsmall : (n : ℚ) / d < 2 ^ (guess + 53)
  · exact ⟨guess, by simp only [hdecide.mpr hsmall, if_true], hlow, hsmall⟩
  · refine ⟨guess + 1, by simp only [mt hdecide.mp hsmall, if_false], ?_, ?_⟩
    · rw [add_assoc]
      exact not_lt.mp hsmall
    · rw [add_assoc]
      exact hhigh

theorem num_ne_zero {n d m : Nat} {e : Int} (hm : m ≠ 0) (hvalue : (n : ℚ) / d = m * 2 ^ e) : n ≠ 0 := by
  rintro rfl
  have hpos : (0 : ℚ) < m * 2 ^ e :=
    mul_pos (Nat.cast_pos.mpr (Nat.pos_of_ne_zero hm)) (zpow_pos (by norm_num) _)
  rw [← hvalue] at hpos
  simp at hpos

/-- The exponent that is chosen for a number is its own. -/
theorem exponentOf_eq {n d m : Nat} {e : Int} (hd : d ≠ 0) (hm : m ≠ 0) (hcanonical : (finite false m e).IsCanonical)
    (hvalue : (n : ℚ) / d = m * 2 ^ e) : exponentOf n d = e := by
  have htwo : (2 : ℚ) ≠ 0 := by norm_num
  have hpos : (0 : ℚ) < 2 ^ e := zpow_pos (by norm_num) _
  obtain ⟨hbits, hleast, -, hnormal⟩ := hcanonical
  have hn : n ≠ 0 := num_ne_zero hm hvalue
  obtain ⟨t, ht, hlow, hhigh⟩ := exists_binade hn hd
  rw [hvalue] at hlow hhigh
  have hbelow : (m : ℚ) * 2 ^ e < 2 ^ (e + 53) := by
    rw [add_comm e, zpow_add₀ htwo]
    exact mul_lt_mul_of_pos_right (by exact_mod_cast hbits) hpos
  have hle : t ≤ e := by
    have := (zpow_lt_zpow_iff_right₀ (by norm_num : (1 : ℚ) < 2)).mp (hlow.trans_lt hbelow)
    omega
  rw [ht]
  cases hnormal with
  | inl hnormal =>
    have habove : (2 : ℚ) ^ (e + 52) ≤ m * 2 ^ e := by
      rw [add_comm e, zpow_add₀ htwo]
      exact mul_le_mul_of_nonneg_right (by exact_mod_cast hnormal) hpos.le
    have := (zpow_lt_zpow_iff_right₀ (by norm_num : (1 : ℚ) < 2)).mp (habove.trans_lt hhigh)
    omega
  | inr hnormal => omega

/-! ## Rounding -/

/-- **A fraction that is a number is rounded to it.** -/
theorem roundRatio_eq {n d m : Nat} {e : Int} (negative : Bool) (hd : d ≠ 0) (hm : m ≠ 0)
    (hcanonical : (finite negative m e).IsCanonical) (hvalue : (n : ℚ) / d = m * 2 ^ e) :
    roundRatio negative n d = .finite negative m e := by
  have hexponent : exponentOf n d = e := exponentOf_eq hd hm hcanonical hvalue
  obtain ⟨hbits, -, hmost, -⟩ := hcanonical
  have hn : n ≠ 0 := num_ne_zero hm hvalue
  have hden := scaleRatio_den_pos Nat.two_pos (Nat.pos_of_ne_zero hd) n (-e)
  have hmantissa : (scaleRatio 2 n d (-e)).1 = m * (scaleRatio 2 n d (-e)).2 := by
    have hscaled := scaleRatio_value 2 n d (-e)
    rw [hvalue, Nat.cast_ofNat, mul_assoc, ← zpow_add₀ (by norm_num), add_neg_cancel, zpow_zero, mul_one,
      div_eq_iff (Nat.cast_ne_zero.mpr hden.ne')] at hscaled
    exact_mod_cast hscaled
  rw [roundRatio, if_neg hn, hexponent]
  simp only [hmantissa, roundHalfEven_mul hden]
  have hfull : m ≠ Nat.pow 2 53 := by simpa using hbits.ne
  simp [normalize, hfull, not_lt.mpr hmost]

/-! ## Whole numbers -/

theorem ratio_value (m : Nat) (e : Int) : ((ratio m e).1 : ℚ) / (ratio m e).2 = m * 2 ^ e := by
  rw [ratio, scaleRatio_value]
  simp

/-- The value of a whole number without its sign. -/
theorem value_of_isWhole {negative : Bool} {m : Nat} {e : Int} (h : (finite negative m e).isWhole = true) :
    ((ratio m e).1 / (ratio m e).2 : Nat) = (m : ℚ) * 2 ^ e := by
  have hden := ratio_den_pos m e
  rw [isWhole, decide_eq_true_iff] at h
  rw [Nat.cast_div (Nat.dvd_of_mod_eq_zero h) (Nat.cast_ne_zero.mpr hden.ne'), ratio_value]

/-- **A whole number is read back** from its digits with a zero behind the point. -/
theorem ofDecimal_whole {negative : Bool} {m : Nat} {e : Int} (hcanonical : (finite negative m e).IsCanonical)
    (hwhole : (finite negative m e).isWhole = true) (hsmall : (ratio m e).1 / (ratio m e).2 < 10 ^ 16) :
    ofDecimal negative ((ratio m e).1 / (ratio m e).2 * 10) (-1) = .finite negative m e := by
  have hvalue := value_of_isWhole hwhole
  generalize (ratio m e).1 / (ratio m e).2 = n at hvalue hsmall
  by_cases hm : m = 0
  · subst hm
    obtain rfl : n = 0 := by simpa using hvalue
    obtain rfl : e = -1074 := hcanonical.2.2.2.resolve_left (by decide)
    rfl
  · have hfraction : ((n * 10 : Nat) : ℚ) / (10 : Nat) = m * 2 ^ e := by
      rw [← hvalue]
      simp
    have hn : n * 10 ≠ 0 := num_ne_zero hm hfraction
    have hlength : (toString (n * 10)).length ≤ 17 := (Nat.length_repr_le_iff (by decide)).mpr (by omega)
    rw [ofDecimal, if_neg hn, if_neg (by omega), if_neg (by omega)]
    exact roundRatio_eq negative (by decide) hm hcanonical hfraction

end Binary64

end HandlerComplexity
