import HandlerComplexity.Json.Read
import HandlerComplexity.Json.Write
import HandlerComplexity.Proofs.Rounding
import Mathlib.Data.List.Basic

/-!
# Strings and numbers read back

What is written for a string or a number, with anything behind it that does not go on with it, is read back as that
string or number, and reading stops where it ends.

* `Json.stringBody_escape`, `Json.stringBody_text`: a character and a text, whatever their code points.
* `Json.number_int`, `Json.number_real`: an integer, and a real number that is whole.
-/

namespace HandlerComplexity

/-! ## Strings -/

namespace Json

theorem hexValue?_digitChar : ∀ n < 16, Digits.hexValue? (Nat.digitChar n) = some n := by
  decide

/-- Four digits of base sixteen are read back as the number they were written for. -/
theorem exists_hex {n : Nat} (h : n < 0x10000) : ∃ a b c d, Text.hex 4 n = [a, b, c, d] ∧ unit? a b c d = some n := by
  refine ⟨_, _, _, _, rfl, ?_⟩
  have hdigit : ∀ k, Digits.hexValue? (Nat.digitChar (k % 16)) = some (k % 16) :=
    fun k => hexValue?_digitChar _ (Nat.mod_lt _ (by decide))
  simp only [unit?, hdigit, Option.bind_eq_bind, Option.bind_some, Option.pure_def, Option.some.injEq]
  omega

section Body

variable (opening : Nat) {rest : List Char}

theorem stringBody_unescape {c e : Char} (hc : c ≠ 'u') (h : unescape? c = some e) :
    stringBody opening ('\\' :: c :: rest) = (stringBody opening rest).map fun r => (.char e :: r.1, r.2) := by
  rw [stringBody, h]
  · exact fun a b c d more hu => absurd hu hc
  · exact hc

theorem stringBody_plain {c : Char} (hquote : c ≠ '"') (hbackslash : c ≠ '\\') (hprintable : ' ' ≤ c) :
    stringBody opening (c :: rest) = (stringBody opening rest).map fun r => (.char c :: r.1, r.2) := by
  have hcontrol : ¬c.toNat ≤ 0x1f := by
    have : ' '.toNat ≤ c.toNat := hprintable
    have : ' '.toNat = 32 := rfl
    omega
  rw [stringBody]
  · simp [hquote, hcontrol]
  all_goals intros; contradiction

/-- A code unit that is no half is a character of its own. -/
theorem stringBody_escapeUnit {n : Nat} (hn : n < 0x10000) (hhigh : isHighHalf n = false) (hrest : rest ≠ []) :
    stringBody opening (escapeUnit n ++ rest) = (stringBody opening rest).map fun r => (.ofNat n :: r.1, r.2) := by
  obtain ⟨a, b, c, d, hhex, hunit⟩ := exists_hex hn
  rw [escapeUnit, hhex]
  simp only [List.cons_append, List.nil_append]
  rw [stringBody, hunit]
  simp [hrest, hhigh]

/-- Two halves in their order are one character. -/
theorem stringBody_escapeUnits {high low : Nat} (hhigh : isHighHalf high = true) (hlow : isLowHalf low = true)
    (hrest : rest ≠ []) :
    stringBody opening (escapeUnit high ++ escapeUnit low ++ rest) =
      (stringBody opening rest).map fun r => (ofHalves high low :: r.1, r.2) := by
  have hbound : high < 0x10000 ∧ low < 0x10000 := by
    simp only [isHighHalf, isLowHalf, Bool.and_eq_true, decide_eq_true_eq] at hhigh hlow
    omega
  obtain ⟨a, b, c, d, hhex, hunit⟩ := exists_hex hbound.1
  obtain ⟨e, f, g, i, hhex', hunit'⟩ := exists_hex hbound.2
  obtain ⟨x, more, rfl⟩ := List.exists_cons_of_ne_nil hrest
  rw [escapeUnit, escapeUnit, hhex, hhex']
  simp only [List.cons_append, List.nil_append]
  rw [stringBody, hunit]
  simp [hhigh, hunit', hlow]

end Body

theorem toNat_bounds (c : Char) : ¬(0xd800 ≤ c.toNat ∧ c.toNat < 0xe000) ∧ c.toNat < 0x110000 := by
  have hvalid := c.valid
  unfold UInt32.isValidChar Nat.isValidChar at hvalid
  rw [Char.toNat_val] at hvalid
  omega

theorem ofNat_toNat (c : Char) : Text.Point.ofNat c.toNat = .char c := by
  rw [Text.Point.ofNat, dif_neg (toNat_bounds c).1, Char.ofNat_toNat]

/-- The characters with an escape of two characters. -/
def shortEscapes : List Char := ['"', '\\', '\n', '\r', '\t', '\x0c', '\x08']

theorem exists_short_escape {c : Char} (h : c ∈ shortEscapes) :
    ∃ x, escape c = ['\\', x] ∧ x ≠ 'u' ∧ unescape? x = some c := by
  simp only [shortEscapes, List.mem_cons, List.not_mem_nil, or_false] at h
  rcases h with rfl | rfl | rfl | rfl | rfl | rfl | rfl <;> exact ⟨_, rfl, by decide, rfl⟩

theorem escape_of_not_short {c : Char} (h : c ∉ shortEscapes) :
    escape c =
      if ' ' ≤ c ∧ c ≤ '~' then [c]
      else if c.toNat < 0x10000 then escapeUnit c.toNat
      else escapeUnit (0xd800 + (c.toNat - 0x10000) / 0x400) ++ escapeUnit (0xdc00 + (c.toNat - 0x10000) % 0x400) := by
  simp only [shortEscapes, List.mem_cons, List.not_mem_nil, or_false, not_or] at h
  obtain ⟨hquote, hbackslash, hnewline, hreturn, htab, hfeed, hback⟩ := h
  simp only [escape, beq_iff_eq, hquote, hbackslash, hnewline, hreturn, htab, hfeed, hback, if_false]

/-- **Each character is read back** from what is written for it. -/
theorem stringBody_escape (opening : Nat) (c : Char) {rest : List Char} (hrest : rest ≠ []) :
    stringBody opening (escape c ++ rest) = (stringBody opening rest).map fun r => (.char c :: r.1, r.2) := by
  obtain ⟨hhalf, hlast⟩ := toNat_bounds c
  by_cases hshort : c ∈ shortEscapes
  · obtain ⟨x, hescape, hx, hback⟩ := exists_short_escape hshort
    rw [hescape]
    exact stringBody_unescape opening hx hback
  rw [escape_of_not_short hshort]
  split_ifs with hprintable hsmall
  · have hquote : c ≠ '"' := fun hc => hshort (hc ▸ by decide)
    have hbackslash : c ≠ '\\' := fun hc => hshort (hc ▸ by decide)
    exact stringBody_plain opening hquote hbackslash hprintable.1
  · have hhigh : isHighHalf c.toNat = false := by
      simp only [isHighHalf, Bool.and_eq_false_iff, decide_eq_false_iff_not]
      omega
    rw [stringBody_escapeUnit opening hsmall hhigh hrest, ofNat_toNat]
  · -- A character beyond the first `2 ^ 16` is written as two halves of ten bits each.
    have hhigh : isHighHalf (0xd800 + (c.toNat - 0x10000) / 0x400) = true := by
      simp only [isHighHalf, Bool.and_eq_true, decide_eq_true_eq]
      omega
    have hlow : isLowHalf (0xdc00 + (c.toNat - 0x10000) % 0x400) = true := by
      simp only [isLowHalf, Bool.and_eq_true, decide_eq_true_eq]
      omega
    have hjoined :
        ofHalves (0xd800 + (c.toNat - 0x10000) / 0x400) (0xdc00 + (c.toNat - 0x10000) % 0x400) = .char c := by
      rw [← ofNat_toNat c]
      exact congrArg Text.Point.ofNat (by omega)
    exact (stringBody_escapeUnits opening hhigh hlow hrest).trans (by rw [hjoined])

/-- **A text is read back** up to its closing quote. -/
theorem stringBody_text (opening : Nat) (cs rest : List Char) :
    stringBody opening (cs.flatMap escape ++ '"' :: rest) = .ok (Text.pointsOf cs, rest) := by
  induction cs with
  | nil => simp [stringBody, Text.pointsOf]
  | cons c cs ih =>
    rw [List.flatMap_cons, List.append_assoc, stringBody_escape opening c (by simp), ih]
    rfl

theorem ofPoints_pointsOf (s : String) : Scalar.ofPoints (Text.pointsOf s.toList) = .text s := by
  have hchars : Text.chars? (Text.pointsOf s.toList) = some s.toList := by
    rw [Text.chars?, Text.pointsOf, List.mapM_map]
    induction s.toList with
    | nil => rfl
    | cons c cs ih => rw [List.mapM_cons, ih]; rfl
  rw [Scalar.ofPoints, hchars]
  exact congrArg _ String.ofList_toList

/-! ## Numbers -/

/-- What may stand behind a value: its end, a comma or a new line. -/
def Follows (rest : List Char) : Prop := ∀ c ∈ rest.head?, c = ',' ∨ c = '\n'

theorem span_append {ds rest : List Char} (hds : ∀ c ∈ ds, c.isDigit = true)
    (hrest : ∀ c ∈ rest.head?, c.isDigit = false) : Digits.span (ds ++ rest) = (ds, rest) := by
  have hnone : rest.takeWhile Char.isDigit = [] ∧ rest.dropWhile Char.isDigit = rest := by
    cases rest with
    | nil => exact ⟨rfl, rfl⟩
    | cons c cs => simp [hrest c rfl]
  rw [Digits.span, List.takeWhile_append_of_pos hds, List.dropWhile_append_of_pos hds, hnone.1, hnone.2,
    List.append_nil]

theorem decimal_append (ds : List Char) (c : Char) :
    Digits.decimal (ds ++ [c]) = Digits.decimal ds * 10 + (Digits.hexValue? c).getD 0 := by
  simp [Digits.decimal, Digits.toNat]

theorem decimal_toDigits (n : Nat) : Digits.decimal (Nat.toDigits 10 n) = n := by
  induction n using Nat.strongRecOn with
  | ind n ih =>
    by_cases hn : n < 10
    · rw [Nat.toDigits_of_lt_base hn]
      simp [Digits.decimal, Digits.toNat, hexValue?_digitChar n (by omega)]
    · rw [Nat.toDigits_of_base_le (by decide) (by omega), decimal_append, ih (n / 10) (by omega),
        hexValue?_digitChar _ (by omega)]
      simp only [Option.getD_some]
      omega

theorem head?_toDigits {n : Nat} (hn : n ≠ 0) : (Nat.toDigits 10 n).head? ≠ some '0' := by
  induction n using Nat.strongRecOn with
  | ind n ih =>
    by_cases hlt : n < 10
    · rw [Nat.toDigits_of_lt_base hlt]
      have hdigits : ∀ m < 10, m ≠ 0 → [Nat.digitChar m].head? ≠ some '0' := by decide
      exact hdigits n hlt hn
    · rw [Nat.toDigits_of_base_le (by decide) (by omega), List.head?_append_of_ne_nil _ Nat.toDigits_ne_nil]
      exact ih (n / 10) (by omega) (by omega)

theorem Follows.not_digit {rest : List Char} (h : Follows rest) : ∀ c ∈ rest.head?, c.isDigit = false := by
  intro c hc
  rcases h c hc with rfl | rfl <;> decide

theorem wholePart_toDigits (n : Nat) {rest : List Char} (hrest : ∀ c ∈ rest.head?, c.isDigit = false) :
    wholePart (Nat.toDigits 10 n ++ rest) = (Nat.toDigits 10 n, rest) := by
  have hspan : Digits.span (Nat.toDigits 10 n ++ rest) = (Nat.toDigits 10 n, rest) :=
    span_append (fun c hc => Nat.isDigit_of_mem_toDigits (by decide) (by decide) hc) hrest
  unfold wholePart
  split
  · next more heq =>
    by_cases hn : n = 0
    · subst hn
      cases heq
      rfl
    · have hhead := congrArg List.head? heq
      rw [List.head?_append_of_ne_nil _ Nat.toDigits_ne_nil] at hhead
      exact absurd hhead (head?_toDigits hn)
  · exact hspan

theorem fractionPart_of_follows {rest : List Char} (h : Follows rest) : fractionPart rest = ([], rest) := by
  unfold fractionPart
  split
  · exact absurd (h '.' rfl) (by decide)
  · rfl

theorem exponentPart_of_follows {rest : List Char} (h : Follows rest) : exponentPart rest = (none, rest) := by
  cases rest with
  | nil => rfl
  | cons c cs => rcases h c rfl with rfl | rfl <;> rfl

/-- The sign of a number that is written with its digits. -/
def signText (negative : Bool) : List Char := if negative then ['-'] else []

theorem minusSign_signText (negative : Bool) (n : Nat) (rest : List Char) :
    minusSign (signText negative ++ (Nat.toDigits 10 n ++ rest)) = (negative, Nat.toDigits 10 n ++ rest) := by
  cases negative with
  | true => rfl
  | false =>
    have hhead : ∀ more, Nat.toDigits 10 n ++ rest ≠ '-' :: more := by
      intro more heq
      have hhead := congrArg List.head? heq
      rw [List.head?_append_of_ne_nil _ Nat.toDigits_ne_nil] at hhead
      have := Nat.isDigit_of_mem_toDigits (b := 10) (by decide) (by decide) (List.mem_of_mem_head? hhead)
      exact absurd this (by decide)
    unfold minusSign
    split
    · next heq => exact absurd heq (hhead _)
    · rfl

theorem toList_toString_int (i : Int) :
    (toString i).toList = signText (decide (i < 0)) ++ Nat.toDigits 10 i.natAbs := by
  cases i with
  | ofNat n => exact Nat.toList_repr
  | negSucc n =>
    have htext : toString (Int.negSucc n) = "-" ++ toString (n + 1) := rfl
    rw [htext, String.toList_append, Nat.toString_eq_repr, Nat.toList_repr, decide_eq_true (Int.negSucc_lt_zero n)]
    rfl

/-- What is read of a number depends on what stands behind its whole part. -/
theorem number_signText (negative : Bool) (n : Nat) {rest : List Char} (hrest : ∀ c ∈ rest.head?, c.isDigit = false) :
    number {} (signText negative ++ (Nat.toDigits 10 n ++ rest)) =
      let (fraction, more) := fractionPart rest
      let (exponent, more) := exponentPart more
      if fraction.isEmpty ∧ exponent = none then .ok (.ofInt (if negative then -(n : Int) else n), more)
      else .ok (.scalar (.real (.ofDecimal negative (Digits.decimal (Nat.toDigits 10 n ++ fraction))
        (exponent.getD 0 - fraction.length))), more) := by
  have hvalue := decimal_toDigits n
  obtain ⟨d, ds, hdigits⟩ := List.exists_cons_of_ne_nil (Nat.toDigits_ne_nil (b := 10) (n := n))
  rw [number, minusSign_signText]
  simp only [wholePart_toDigits n hrest]
  rw [hdigits] at hvalue ⊢
  simp only [hvalue, Option.any_none, Bool.false_eq_true, if_false]

theorem number_int (i : Int) {rest : List Char} (hrest : Follows rest) :
    number {} ((toString i).toList ++ rest) = .ok (.ofInt i, rest) := by
  rw [toList_toString_int, List.append_assoc, number_signText _ _ hrest.not_digit, fractionPart_of_follows hrest]
  simp only [exponentPart_of_follows hrest, List.isEmpty_nil, and_self, if_true, decide_eq_true_eq]
  split_ifs with hneg
  · rw [Int.ofNat_natAbs_of_nonpos hneg.le, Int.neg_neg]
  · rw [Int.natAbs_of_nonneg (Int.not_lt.mp hneg)]

theorem natAbs_toInt (negative : Bool) (m : Nat) (e : Int) :
    (Binary64.finite negative m e).toInt.natAbs = (Binary64.ratio m e).1 / (Binary64.ratio m e).2 := by
  cases negative with
  | false => exact Int.natAbs_natCast _
  | true => exact (Int.natAbs_neg _).trans (Int.natAbs_natCast _)

/-- A whole number is written with a zero behind the point. -/
theorem toList_text_whole {negative : Bool} {m : Nat} {e : Int} (hwhole : (Binary64.finite negative m e).isWhole = true)
    (hsmall : (Binary64.ratio m e).1 / (Binary64.ratio m e).2 < 10 ^ 16) :
    (Binary64.finite negative m e).text.toList =
      signText negative ++ (Nat.toDigits 10 ((Binary64.ratio m e).1 / (Binary64.ratio m e).2) ++ ['.', '0']) := by
  have hmod : (Binary64.ratio m e).1 % (Binary64.ratio m e).2 = 0 := of_decide_eq_true hwhole
  have hsign : (if negative then "-" else "").toList = signText negative := by cases negative <;> rfl
  have hmagnitude : Binary64.magnitudeText m e =
      toString ((Binary64.ratio m e).1 / (Binary64.ratio m e).2) ++ ".0" := if_pos ⟨hmod, hsmall⟩
  rw [Binary64.text, hmagnitude, String.toList_append, String.toList_append, hsign, Nat.toString_eq_repr,
    Nat.toList_repr]
  rfl

theorem number_real {x : Binary64} (hcanonical : x.IsCanonical) (hwhole : x.isWhole = true)
    (hsmall : x.toInt.natAbs < 10 ^ 16) {rest : List Char} (hrest : Follows rest) :
    number {} (x.text.toList ++ rest) = .ok (.scalar (.real x), rest) := by
  cases x with
  | nan => cases hwhole
  | infinity negative => cases hwhole
  | finite negative m e =>
    rw [natAbs_toInt] at hsmall
    have hvalue := Binary64.ofDecimal_whole hcanonical hwhole hsmall
    have hfraction : fractionPart ('.' :: '0' :: rest) = (['0'], rest) := by
      have hspan : Digits.span (['0'] ++ rest) = (['0'], rest) := span_append (by simp) hrest.not_digit
      rw [fractionPart, ← List.singleton_append, hspan]
    have hpoint : ∀ c ∈ ('.' :: '0' :: rest).head?, c.isDigit = false := by simp
    rw [toList_text_whole hwhole hsmall, List.append_assoc, List.append_assoc]
    refine (number_signText negative _ hpoint).trans ?_
    rw [hfraction]
    simp only [exponentPart_of_follows hrest, decimal_append, decimal_toDigits]
    exact congrArg (fun y => Except.ok (Document.scalar (.real y), rest)) hvalue

end Json

end HandlerComplexity
