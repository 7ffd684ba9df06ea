import Mathlib
import SqlTemplate.Number.Octets
import SqlTemplate.Proofs.Cache.Encoding

/-!
# Octets are read back

What is written in a number of octets, the highest first, is read back if it fits in them: natural
numbers (`ofBigOctets_bigOctets`), integers in two's complement (`intOfBigOctets_bigOctets`) and
texts (`utf8?_utf8`).
-/

set_option autoImplicit false

namespace SqlTemplate

@[simp] theorem bigOctets_length (count n : Nat) : (bigOctets count n).length = count := by
  rw [bigOctets, List.length_reverse, littleOctets_length]

theorem ofBigOctets_bigOctets {count n : Nat} (h : n < 256 ^ count) :
    ofBigOctets (bigOctets count n) = n := by
  rw [ofBigOctets, bigOctets, List.foldl_reverse]
  induction count generalizing n with
  | zero => simp [littleOctets]; omega
  | succ count ih =>
      rw [Nat.pow_succ] at h
      have hhigh := ih (n := n / 256) (by omega)
      simp only [littleOctets, List.foldr_cons, hhigh, UInt8.toNat_ofNat']
      omega

/-- An integer comes back from its complement if it lies in the middle of the range. -/
theorem intOfBigOctets_bigOctets {count : Nat} {n : Int} (hlow : -(256 ^ count : Nat) ≤ 2 * n)
    (hhigh : 2 * n < (256 ^ count : Nat)) :
    intOfBigOctets (bigOctets count (complement count n)) = n := by
  have hpow : (1 <<< (8 * count) : Nat) = 256 ^ count := by rw [Nat.one_shiftLeft, Nat.pow_mul]
  have hlt := complement_lt count n
  rw [intOfBigOctets, ofBigOctets_bigOctets hlt, bigOctets_length, hpow]
  by_cases hn : 0 ≤ n
  · have hmod : n % (256 ^ count : Nat) = n := Int.emod_eq_of_lt hn (by omega)
    have hcomplement : (complement count n : Int) = n := by
      rw [complement, hpow, hmod]
      omega
    rw [if_pos (by omega), hcomplement]
  · have hmod : n % (256 ^ count : Nat) = n + (256 ^ count : Nat) := by
      rw [← Int.add_emod_right]
      exact Int.emod_eq_of_lt (by omega) (by omega)
    have hcomplement : (complement count n : Int) = n + (256 ^ count : Nat) := by
      rw [complement, hpow, hmod]
      omega
    rw [if_neg (by omega), hcomplement]
    omega

theorem utf8?_utf8 (s : String) : utf8? (utf8 s) = some s := by
  have hbytes : (⟨(utf8 s).toArray⟩ : ByteArray) = s.toByteArray := rfl
  rw [utf8?, hbytes, String.fromUTF8?, dif_pos s.isValidUTF8]
  rfl

end SqlTemplate
