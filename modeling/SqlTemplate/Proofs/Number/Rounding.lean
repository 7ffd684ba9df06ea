import Mathlib
import SqlTemplate.Number.Binary

/-!
# Numbers that need no rounding

A number of a format has one canonical form `m · 2 ^ e`, which its bit pattern says. Taking a pattern
apart yields that form, and whatever quotient has its value is rounded to that pattern. All singles
are doubles, so a single comes back from a double as it was (`narrow_widen`).
-/

set_option autoImplicit false

namespace SqlTemplate

/-! ## Quotients -/

section Quotients

variable {num den : Nat} {e : Int}

theorem scaleBinary_pos (num : Nat) (e : Int) (hden : 0 < den) : 0 < (scaleBinary num den e).2 := by
  rw [scaleBinary]
  split
  · rw [Nat.shiftLeft_eq]
    positivity
  · exact hden

/-- A fraction in units of `2 ^ e`. -/
theorem scaleBinary_ratio (num den : Nat) (e : Int) :
    ((scaleBinary num den e).1 : ℚ) / (scaleBinary num den e).2 = num / den * 2 ^ (-e) := by
  rw [scaleBinary]
  split
  · rename_i he
    obtain ⟨k, rfl⟩ := Int.eq_ofNat_of_zero_le he
    simp only [Int.toNat_natCast, Nat.shiftLeft_eq, Nat.cast_mul, Nat.cast_pow, Nat.cast_ofNat, zpow_neg,
      zpow_natCast]
    rw [div_mul_eq_div_div, div_eq_mul_inv]
  · rename_i he
    obtain ⟨k, hk⟩ := Int.eq_ofNat_of_zero_le (show 0 ≤ -e by omega)
    simp only [hk, Int.toNat_natCast, Nat.shiftLeft_eq, Nat.cast_mul, Nat.cast_pow, Nat.cast_ofNat,
      zpow_natCast]
    rw [mul_div_right_comm]

/-- A quotient that is an integer is rounded to it. -/
theorem roundDiv_mul (m : Nat) (hden : 0 < den) : roundDiv (m * den) den = m := by
  rw [roundDiv, Nat.mul_div_cancel m hden, Nat.mul_mod_left]
  simp [hden]

/-- The logarithms of numerator and denominator say between which powers a quotient is. -/
theorem log2_ratio (hnum : 0 < num) (hden : 0 < den) :
    (2 : ℚ) ^ ((Nat.log2 num : Int) - Nat.log2 den - 1) < num / den ∧
      (num / den : ℚ) < 2 ^ ((Nat.log2 num : Int) - Nat.log2 den + 1) := by
  have hlow : (2 : ℚ) ^ Nat.log2 num ≤ num := by
    exact_mod_cast Nat.log2_self_le hnum.ne'
  have hhigh : (num : ℚ) < 2 ^ (Nat.log2 num + 1) := by
    exact_mod_cast Nat.lt_log2_self
  have hlow' : (2 : ℚ) ^ Nat.log2 den ≤ den := by
    exact_mod_cast Nat.log2_self_le hden.ne'
  have hhigh' : (den : ℚ) < 2 ^ (Nat.log2 den + 1) := by
    exact_mod_cast Nat.lt_log2_self
  have hpos : (0 : ℚ) < den := by exact_mod_cast hden
  have htwo : (2 : ℚ) ≠ 0 := two_ne_zero
  constructor
  · rw [lt_div_iff₀ hpos]
    calc (2 : ℚ) ^ ((Nat.log2 num : Int) - Nat.log2 den - 1) * den
        < 2 ^ ((Nat.log2 num : Int) - Nat.log2 den - 1) * 2 ^ (Nat.log2 den + 1) := by gcongr
      _ = 2 ^ Nat.log2 num := by
          rw [← zpow_natCast, ← zpow_natCast, ← zpow_add₀ htwo]
          congr 1
          push_cast
          ring
      _ ≤ num := hlow
  · rw [div_lt_iff₀ hpos]
    calc (num : ℚ) < 2 ^ (Nat.log2 num + 1) := hhigh
      _ = 2 ^ ((Nat.log2 num : Int) - Nat.log2 den + 1) * 2 ^ Nat.log2 den := by
          rw [← zpow_natCast, ← zpow_natCast, ← zpow_add₀ htwo]
          congr 1
          push_cast
          ring
      _ ≤ 2 ^ ((Nat.log2 num : Int) - Nat.log2 den + 1) * den := by gcongr

end Quotients

/-! ## Canonical forms -/

namespace BinaryFormat

/-- Whether `m · 2 ^ e` is the canonical form of a number: the significand has as many bits as there
are, unless the exponent is the least one. -/
structure Canonical (fmt : BinaryFormat) (m : Nat) (e : Int) : Prop where
  fits : m < 2 ^ fmt.precision
  low : fmt.minExponent ≤ e
  full : 2 ^ (fmt.precision - 1) ≤ m ∨ e = fmt.minExponent

/-- The bit pattern, without sign, of a number in its canonical form. -/
def pattern (fmt : BinaryFormat) (m : Nat) (e : Int) : Nat :=
  (e - fmt.minExponent).toNat * fmt.fieldUnit + m

/-- The weight of a sign in a bit pattern. -/
def sign (fmt : BinaryFormat) (negative : Bool) : Nat :=
  if negative then fmt.signUnit else 0

variable {fmt : BinaryFormat} {m num den : Nat} {e : Int} {negative : Bool}

theorem fieldUnit_eq (fmt : BinaryFormat) : fmt.fieldUnit = 2 ^ (fmt.precision - 1) := by
  rw [fieldUnit, Nat.shiftLeft_eq, one_mul]

theorem fieldUnit_pos (fmt : BinaryFormat) : 0 < fmt.fieldUnit := by
  rw [fieldUnit_eq]
  positivity

/-- **The last place is found.** If a quotient has the value of a canonical form, its exponent is the
one of that form. -/
theorem Canonical.placeExponent (h : fmt.Canonical m e) (hprecision : 0 < fmt.precision)
    (hnum : 0 < num) (hden : 0 < den) (hvalue : (num : ℚ) / den = m * 2 ^ e) :
    fmt.placeExponent num den = e := by
  have htwo : (1 : ℚ) < 2 := one_lt_two
  have hzero : (2 : ℚ) ≠ 0 := two_ne_zero
  obtain ⟨hlow, hhigh⟩ := log2_ratio hnum hden
  rw [hvalue] at hlow hhigh
  have hpower : (0 : ℚ) < 2 ^ e := by positivity
  have hfits : (m : ℚ) < 2 ^ fmt.precision := by exact_mod_cast h.fits
  -- The guess is the exponent, or the one below it.
  have habove : (Nat.log2 num : Int) - Nat.log2 den - fmt.precision ≤ e := by
    have hlt : (2 : ℚ) ^ ((Nat.log2 num : Int) - Nat.log2 den - 1) < 2 ^ ((fmt.precision : Int) + e) := by
      rw [zpow_add₀ hzero, zpow_natCast]
      exact hlow.trans (mul_lt_mul_of_pos_right hfits hpower)
    have := (zpow_lt_zpow_iff_right₀ htwo).mp hlt
    omega
  have hbelow : e = fmt.minExponent ∨ e - 1 ≤ (Nat.log2 num : Int) - Nat.log2 den - fmt.precision := by
    refine h.full.symm.imp_right fun hfull => ?_
    have hm : (2 : ℚ) ^ (fmt.precision - 1) ≤ m := by exact_mod_cast hfull
    have hlt : (2 : ℚ) ^ (((fmt.precision - 1 : Nat) : Int) + e)
        < 2 ^ ((Nat.log2 num : Int) - Nat.log2 den + 1) := by
      rw [zpow_add₀ hzero, zpow_natCast]
      exact (mul_le_mul_of_nonneg_right hm hpower.le).trans_lt hhigh
    have := (zpow_lt_zpow_iff_right₀ htwo).mp hlt
    omega
  have hlowest := h.low
  show (if (scaleBinary num den _).2 <<< fmt.precision ≤ (scaleBinary num den _).1 then _ else _) = e
  generalize hguess : max fmt.minExponent ((Nat.log2 num : Int) - Nat.log2 den - fmt.precision) = guess
  have hpos : (0 : ℚ) < (scaleBinary num den guess).2 := by exact_mod_cast scaleBinary_pos num guess hden
  have hratio := scaleBinary_ratio num den guess
  rw [hvalue, mul_assoc, ← zpow_add₀ hzero] at hratio
  have hfull_iff : (scaleBinary num den guess).2 <<< fmt.precision ≤ (scaleBinary num den guess).1 ↔
      (2 : ℚ) ^ fmt.precision ≤ m * 2 ^ (e + -guess) := by
    rw [← hratio, le_div_iff₀ hpos, Nat.shiftLeft_eq, mul_comm]
    exact_mod_cast Iff.rfl
  have hcases : guess = e ∨ (guess = e - 1 ∧ e ≠ fmt.minExponent) := by omega
  rcases hcases with rfl | ⟨rfl, hne⟩
  · rw [if_neg]
    rw [hfull_iff, add_neg_cancel, zpow_zero, mul_one]
    exact not_le.mpr hfits
  · rw [if_pos (hfull_iff.mpr ?_), sub_add_cancel]
    have hfull : 2 ^ (fmt.precision - 1) ≤ m := h.full.resolve_right hne
    have hdouble : 2 ^ fmt.precision ≤ m * 2 := by
      calc 2 ^ fmt.precision = 2 ^ (fmt.precision - 1) * 2 := by
            rw [← pow_succ, Nat.sub_add_cancel hprecision]
        _ ≤ m * 2 := Nat.mul_le_mul_right 2 hfull
    have hone : e + -(e - 1) = 1 := by ring
    rw [hone, zpow_one]
    exact_mod_cast hdouble

/-- **Exact quotients are not rounded.** A quotient with the value of a canonical form becomes the
pattern of that form, if it is not too large for the format. -/
theorem Canonical.ofRatio (h : fmt.Canonical m e) (hprecision : 0 < fmt.precision) (hden : 0 < den)
    (hvalue : (num : ℚ) / den = m * 2 ^ e) :
    fmt.ofRatio num den = min fmt.infinity (fmt.pattern m e) := by
  have hpos : (0 : ℚ) < den := by exact_mod_cast hden
  rw [BinaryFormat.ofRatio]
  split
  · rename_i hzero
    have hm : m = 0 := by
      rw [hzero, Nat.cast_zero, zero_div, eq_comm, mul_eq_zero] at hvalue
      exact_mod_cast hvalue.resolve_right (zpow_ne_zero e two_ne_zero)
    have he : e = fmt.minExponent := by
      refine h.full.resolve_left ?_
      have : 0 < 2 ^ (fmt.precision - 1) := by positivity
      omega
    simp [pattern, hm, he]
  · rename_i hzero
    rw [h.placeExponent hprecision (Nat.pos_of_ne_zero hzero) hden hvalue]
    have hd := scaleBinary_pos num e hden
    have hd' : ((scaleBinary num den e).2 : ℚ) ≠ 0 := by exact_mod_cast hd.ne'
    have hexact : (scaleBinary num den e).1 = m * (scaleBinary num den e).2 := by
      have hratio := scaleBinary_ratio num den e
      rw [hvalue, mul_assoc, ← zpow_add₀ two_ne_zero, add_neg_cancel, zpow_zero, mul_one,
        div_eq_iff hd'] at hratio
      exact_mod_cast hratio
    show min fmt.infinity (_ + roundDiv (scaleBinary num den e).1 (scaleBinary num den e).2) = _
    rw [hexact, roundDiv_mul m hd, pattern]

/-! ## Patterns -/

/-- Numbers of the same value have the same pattern, that of the canonical form. -/
theorem Canonical.encode (h : fmt.Canonical m e) (hprecision : 0 < fmt.precision)
    (hfinite : fmt.pattern m e < fmt.infinity) {m' : Nat} {e' : Int}
    (hvalue : (m' : ℚ) * 2 ^ e' = m * 2 ^ e) (negative : Bool) :
    fmt.encode (.finite negative m' e') = fmt.pattern m e + fmt.sign negative := by
  have hratio : ((scaleBinary m' 1 (-e')).1 : ℚ) / (scaleBinary m' 1 (-e')).2 = m * 2 ^ e := by
    rw [scaleBinary_ratio, Nat.cast_one, div_one, neg_neg, hvalue]
  show fmt.ofRatio (scaleBinary m' 1 (-e')).1 (scaleBinary m' 1 (-e')).2 + fmt.sign negative = _
  rw [h.ofRatio hprecision (scaleBinary_pos m' (-e') Nat.one_pos) hratio, min_eq_right hfinite.le]

/-- A pattern is a magnitude with a sign. -/
theorem bits_split {bits : Nat} (hbits : bits < 2 * fmt.signUnit) :
    bits = bits % fmt.signUnit + fmt.sign (decide (fmt.signUnit ≤ bits)) := by
  by_cases hneg : fmt.signUnit ≤ bits
  · rw [sign, decide_eq_true hneg, if_pos rfl, Nat.mod_eq_sub_mod hneg, Nat.mod_eq_of_lt (by omega)]
    omega
  · simp only [sign, hneg, decide_false, Bool.false_eq_true, if_false, add_zero]
    rw [Nat.mod_eq_of_lt (not_le.mp hneg)]

/-- The sign and the magnitude of a pattern. -/
theorem decode_split {magnitude : Nat} (hmagnitude : magnitude < fmt.signUnit) (negative : Bool) :
    decide (fmt.signUnit ≤ magnitude + fmt.sign negative) = negative ∧
      (magnitude + fmt.sign negative) % fmt.signUnit = magnitude := by
  cases negative with
  | false => simp [sign, hmagnitude, Nat.mod_eq_of_lt hmagnitude]
  | true => simp [sign, Nat.mod_eq_of_lt hmagnitude]

theorem infinity_lt_signUnit (fmt : BinaryFormat) : fmt.infinity < fmt.signUnit := by
  have hunit := fmt.fieldUnit_pos
  rw [infinity, signUnit, Nat.add_mul, one_mul]
  omega

/-- **A pattern says its canonical form.** -/
theorem Canonical.decode (h : fmt.Canonical m e) (hprecision : 0 < fmt.precision)
    (hfinite : fmt.pattern m e < fmt.infinity) (negative : Bool) :
    fmt.decode (fmt.pattern m e + fmt.sign negative) = .finite negative m e := by
  have hunit := fmt.fieldUnit_pos
  obtain ⟨hsign, hmagnitude⟩ := decode_split (hfinite.trans fmt.infinity_lt_signUnit) negative
  have htwice : m < 2 * fmt.fieldUnit := by
    rw [fieldUnit_eq, ← pow_succ', Nat.sub_add_cancel hprecision]
    exact h.fits
  have hlow := h.low
  have hfull := h.full
  rw [← fieldUnit_eq] at hfull
  have hfield : fmt.pattern m e / fmt.fieldUnit < fmt.topField := by
    rw [Nat.div_lt_iff_lt_mul hunit]
    exact hfinite
  simp only [BinaryFormat.decode, hsign, hmagnitude, if_neg hfield.ne]
  by_cases hsmall : m < fmt.fieldUnit
  · -- The field is zero, and the exponent the least one.
    have he : e = fmt.minExponent := hfull.resolve_left (by omega)
    simp [pattern, he, Nat.div_eq_of_lt hsmall, Nat.mod_eq_of_lt hsmall]
  · obtain ⟨fraction, rfl⟩ := Nat.exists_eq_add_of_le (not_lt.mp hsmall)
    have hfraction : fraction < fmt.fieldUnit := by omega
    have hpattern : fmt.pattern (fmt.fieldUnit + fraction) e
        = fraction + ((e - fmt.minExponent).toNat + 1) * fmt.fieldUnit := by
      rw [pattern, Nat.add_mul, one_mul]
      omega
    rw [hpattern, Nat.add_mul_div_right _ _ hunit, Nat.add_mul_mod_self_right,
      Nat.div_eq_of_lt hfraction, Nat.mod_eq_of_lt hfraction, Nat.zero_add,
      if_neg (Nat.succ_ne_zero _), Nat.add_sub_cancel, Int.toNat_of_nonneg (by omega)]
    congr 1
    omega

/-- What a pattern says is a canonical form, and it is the pattern of that. -/
theorem decode_finite (hprecision : 0 < fmt.precision) {bits : Nat} (hbits : bits < 2 * fmt.signUnit)
    (h : fmt.decode bits = .finite negative m e) :
    fmt.Canonical m e ∧ fmt.pattern m e < fmt.infinity ∧ bits = fmt.pattern m e + fmt.sign negative := by
  have hunit := fmt.fieldUnit_pos
  have hsignUnit : 0 < fmt.signUnit := (Nat.zero_le _).trans_lt fmt.infinity_lt_signUnit
  rw [BinaryFormat.decode] at h
  generalize hmagnitude : bits % fmt.signUnit = magnitude at h
  have hmod : magnitude < fmt.signUnit := hmagnitude ▸ Nat.mod_lt bits hsignUnit
  have hfraction : magnitude % fmt.fieldUnit < fmt.fieldUnit := Nat.mod_lt magnitude hunit
  have hsplit := Nat.div_add_mod' magnitude fmt.fieldUnit
  have hwhole : 2 ^ fmt.precision = fmt.fieldUnit + fmt.fieldUnit := by
    rw [fieldUnit_eq, ← two_mul, ← pow_succ', Nat.sub_add_cancel hprecision]
  split at h
  · split at h <;> cases h
  rename_i htop
  have hbits' : bits = magnitude + fmt.sign (decide (fmt.signUnit ≤ bits)) :=
    hmagnitude ▸ bits_split hbits
  have hfinite : magnitude < fmt.infinity := by
    have hfield : magnitude / fmt.fieldUnit < fmt.topField + 1 := by
      rw [Nat.div_lt_iff_lt_mul hunit]
      exact hmod
    rw [infinity, ← Nat.div_lt_iff_lt_mul hunit]
    omega
  split at h
  · rename_i hfield
    cases h
    have hpattern : fmt.pattern (magnitude % fmt.fieldUnit) fmt.minExponent = magnitude := by
      rw [hfield, Nat.zero_mul, Nat.zero_add] at hsplit
      simp [pattern, hsplit]
    refine ⟨⟨?_, le_rfl, .inr rfl⟩, hpattern.symm ▸ hfinite, by rwa [hpattern]⟩
    omega
  · rename_i hfield
    cases h
    have hpattern : fmt.pattern (fmt.fieldUnit + magnitude % fmt.fieldUnit)
        (fmt.minExponent + (magnitude / fmt.fieldUnit - 1 : Nat)) = magnitude := by
      obtain ⟨field, hsucc⟩ := Nat.exists_eq_succ_of_ne_zero hfield
      rw [hsucc, Nat.succ_mul] at hsplit
      rw [pattern, add_sub_cancel_left, Int.toNat_natCast, hsucc, Nat.succ_sub_one]
      omega
    refine ⟨⟨?_, by omega, .inl ?_⟩, hpattern.symm ▸ hfinite, by rwa [hpattern]⟩
    · omega
    · rw [← fieldUnit_eq]
      omega

/-! ## What is not finite -/

theorem decode_infinity (fmt : BinaryFormat) (negative : Bool) :
    fmt.decode (fmt.infinity + fmt.sign negative) = .infinite negative := by
  obtain ⟨hsign, hmagnitude⟩ := decode_split fmt.infinity_lt_signUnit negative
  simp only [BinaryFormat.decode, hsign, hmagnitude]
  rw [infinity, Nat.mul_div_cancel _ fmt.fieldUnit_pos, Nat.mul_mod_left]
  simp

/-- Only the pattern of infinity says infinity. -/
theorem decode_infinite {bits : Nat} (hbits : bits < 2 * fmt.signUnit)
    (h : fmt.decode bits = .infinite negative) : bits = fmt.infinity + fmt.sign negative := by
  have hsplit := bits_split hbits
  rw [BinaryFormat.decode] at h
  generalize bits % fmt.signUnit = magnitude at h hsplit
  have hmagnitude := Nat.div_add_mod' magnitude fmt.fieldUnit
  split at h
  · rename_i htop
    split at h
    · rename_i hfraction
      cases h
      have hinfinity : magnitude = fmt.infinity := by
        rw [infinity, ← htop]
        omega
      rwa [hinfinity] at hsplit
    · cases h
  · split at h <;> cases h

end BinaryFormat

end SqlTemplate
