import Mathlib
import SqlTemplate.Proofs.Number.Rounding

/-!
# Singles as doubles

Every single is a double, so nothing is lost on the way there and back (`narrow_widen`). What is not
a number has one pattern only, in both formats.
-/

set_option autoImplicit false

namespace SqlTemplate

open Float.Model Float.Model.UnpackedFloat

/-! ## Bit patterns -/

namespace BinaryFormat

/-- Which patterns say that something is not a number. -/
theorem decode_notANumber_iff (fmt : BinaryFormat) (spec : Format) (b : BitVec spec.numBits)
    (hprecision : fmt.precision = spec.mantissaBitsWithoutImplicit + 1)
    (htop : fmt.topField + 1 = 2 ^ spec.exponentBits) :
    fmt.decode b.toNat = .notANumber ↔ isNaNBits b = true := by
  have hunit : fmt.fieldUnit = 2 ^ spec.mantissaBitsWithoutImplicit := by
    rw [fieldUnit_eq, hprecision, Nat.add_sub_cancel]
  have hfield : b.toNat % fmt.signUnit / fmt.fieldUnit = (unpackExponent b).toNat := by
    rw [unpackExponent_def, BitVec.extractLsb'_toNat, Nat.shiftRight_eq_div_pow, signUnit, hunit, htop,
      Nat.mod_mul_left_div_self]
  have hfraction : b.toNat % fmt.signUnit % fmt.fieldUnit = (unpackMantissa b).toNat := by
    rw [unpackMantissa_def, BitVec.extractLsb'_toNat, Nat.shiftRight_zero, signUnit, hunit,
      Nat.mod_mul_left_mod]
  have hones : unpackExponent b = -1#_ ↔ (unpackExponent b).toNat = fmt.topField := by
    rw [BitVec.neg_one_eq_allOnes, ← BitVec.toNat_inj, BitVec.toNat_allOnes]
    omega
  have hzero : unpackMantissa b = 0#_ ↔ (unpackMantissa b).toNat = 0 := by
    rw [← BitVec.toNat_inj]
    rfl
  rw [isNaNBits, decide_eq_true_eq, hones, ne_eq, hzero]
  simp only [BinaryFormat.decode, hfield, hfraction]
  split
  · split <;> simp_all
  · split <;> simp_all

end BinaryFormat

/-- A double keeps the pattern of a number or of infinity. -/
theorem parts_ofBits {bits : Nat} (hbits : bits < 2 ^ 64)
    (h : BinaryFormat.double.decode bits ≠ .notANumber) :
    parts (Float.ofBits (UInt64.ofNat bits)) = BinaryFormat.double.decode bits := by
  have hpattern : (UInt64.ofNat bits).toBitVec.toNat = bits := Nat.mod_eq_of_lt hbits
  have hnumber : @isNaNBits Format.binary64 (UInt64.ofNat bits).toBitVec = false := by
    have hiff := BinaryFormat.decode_notANumber_iff .double Format.binary64
      (UInt64.ofNat bits).toBitVec rfl rfl
    rw [hpattern] at hiff
    exact Bool.eq_false_iff.mpr fun hnan => h (hiff.mpr hnan)
  have hsame : (Float.ofBits (UInt64.ofNat bits)).toBits = UInt64.ofNat bits := by
    show UInt64.ofBitVec (pack Format.binary64 (unpack Format.binary64 _)) = _
    rw [pack_unpack, hnumber]
    rfl
  rw [parts, hsame]
  exact congrArg _ hpattern

/-- There is one single only that is not a number. -/
theorem toBits_of_notANumber {x : Float32}
    (h : BinaryFormat.single.decode x.toBits.toNat = .notANumber) :
    x.toBits.toNat = BinaryFormat.single.notANumber := by
  have hbits : @isNaNBits Format.binary32 x.toBits.toBitVec = true :=
    (BinaryFormat.decode_notANumber_iff .single Format.binary32 x.toBits.toBitVec rfl rfl).mp h
  rw [isNaNBits, decide_eq_true_eq] at hbits
  have hpacked : x.toBits.toBitVec = packedNaN Format.binary32 :=
    x.toModel.valid.eq_packedNaN hbits.1 hbits.2
  show x.toBits.toBitVec.toNat = _
  rw [hpacked]
  decide

/-! ## There and back -/

/-- A single is a double, with zeros behind its significand. -/
theorem canonical_double {m : Nat} {e : Int} (h : BinaryFormat.single.Canonical m e)
    (hfinite : BinaryFormat.single.pattern m e < BinaryFormat.single.infinity) :
    ∃ m' e', BinaryFormat.double.Canonical m' e' ∧
      BinaryFormat.double.pattern m' e' < BinaryFormat.double.infinity ∧
      (m' : ℚ) * 2 ^ e' = m * 2 ^ e := by
  have hfits : m < 2 ^ 24 := h.fits
  have hlow : -149 ≤ e := h.low
  by_cases hm : m = 0
  · refine ⟨0, -1074, ⟨by decide, le_rfl, .inr rfl⟩, by decide, ?_⟩
    simp [hm]
  · have hlog : m.log2 < 24 := (Nat.log2_lt hm).mpr hfits
    have hpower : 2 ^ m.log2 ≤ m := Nat.log2_self_le hm
    have hpower' : m < 2 ^ (m.log2 + 1) := Nat.lt_log2_self
    have hhigh : e < 106 := by
      have hpattern : (e - -149).toNat * 2 ^ 23 + m < 255 * 2 ^ 23 := hfinite
      omega
    obtain ⟨spare, hspare⟩ : ∃ spare, m.log2 + spare = 52 := ⟨52 - m.log2, by omega⟩
    have hfull : 2 ^ 52 ≤ m * 2 ^ spare := by
      calc 2 ^ 52 = 2 ^ m.log2 * 2 ^ spare := by rw [← pow_add, hspare]
        _ ≤ m * 2 ^ spare := Nat.mul_le_mul_right _ hpower
    have hfits' : m * 2 ^ spare < 2 ^ 53 := by
      calc m * 2 ^ spare < 2 ^ (m.log2 + 1) * 2 ^ spare :=
            Nat.mul_lt_mul_of_pos_right hpower' (by positivity)
        _ = 2 ^ 53 := by
            rw [← pow_add]
            congr 1
            omega
    refine ⟨m * 2 ^ spare, e - spare, ⟨hfits', ?_, .inl hfull⟩, ?_, ?_⟩
    · show -1074 ≤ e - spare
      omega
    · show (e - spare - -1074).toNat * 2 ^ 52 + m * 2 ^ spare < 2047 * 2 ^ 52
      omega
    · rw [Nat.cast_mul, Nat.cast_pow, Nat.cast_ofNat, mul_assoc, ← zpow_natCast,
        ← zpow_add₀ two_ne_zero, add_sub_cancel]

/-- The pattern of a single can be read off the parts of the double. -/
theorem encode_parts_widen (x : Float32) :
    BinaryFormat.single.encode (parts (widen x)) = x.toBits.toNat := by
  have hbits : x.toBits.toNat < 2 * BinaryFormat.single.signUnit := x.toBits.toNat_lt
  have hsign : ∀ negative, BinaryFormat.double.sign negative ≤ 2 ^ 63 := by decide
  rw [widen]
  cases hdecode : BinaryFormat.single.decode x.toBits.toNat with
  | finite negative m e =>
      obtain ⟨hcanonical, hfinite, hpattern⟩ := BinaryFormat.decode_finite (by decide) hbits hdecode
      obtain ⟨m', e', hcanonical', hfinite', hvalue⟩ := canonical_double hcanonical hfinite
      have hwide := hcanonical'.decode (by decide) hfinite' negative
      have hsmall : BinaryFormat.double.pattern m' e' + BinaryFormat.double.sign negative < 2 ^ 64 := by
        have hinfinity : BinaryFormat.double.infinity < 2 ^ 63 := by decide
        have hnegative := hsign negative
        omega
      rw [hcanonical'.encode (by decide) hfinite' hvalue.symm, parts_ofBits hsmall (by simp [hwide]),
        hwide, hcanonical.encode (by decide) hfinite hvalue, hpattern]
  | infinite negative =>
      have hwide := BinaryFormat.decode_infinity .double negative
      have hsmall : BinaryFormat.double.infinity + BinaryFormat.double.sign negative < 2 ^ 64 := by
        have hinfinity : BinaryFormat.double.infinity < 2 ^ 63 := by decide
        have hnegative := hsign negative
        omega
      show BinaryFormat.single.encode (parts (Float.ofBits (UInt64.ofNat
        (BinaryFormat.double.infinity + BinaryFormat.double.sign negative)))) = _
      rw [parts_ofBits hsmall (by simp [hwide]), hwide, BinaryFormat.decode_infinite hbits hdecode]
      rfl
  | notANumber =>
      have hwide : parts (Float.ofBits (UInt64.ofNat BinaryFormat.double.notANumber)) = .notANumber := by
        decide +kernel
      show BinaryFormat.single.encode (parts (Float.ofBits (UInt64.ofNat
        BinaryFormat.double.notANumber))) = _
      rw [hwide, toBits_of_notANumber hdecode]
      rfl

/-- **Nothing is lost in a double.** -/
theorem narrow_widen (x : Float32) : narrow (widen x) = x := by
  rw [narrow, encode_parts_widen, UInt32.ofNat_toNat, Float32.ofBits_toBits]

end SqlTemplate
