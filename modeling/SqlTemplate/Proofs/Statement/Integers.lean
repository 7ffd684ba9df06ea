import Mathlib
import SqlTemplate.Proofs.Json.Printed
import SqlTemplate.Statement.Conversion

/-!
# Integers in columns of text

A driver may give an integer as such or as a text. A conversion to integers makes the same of both,
whatever white space stands around the text (`Mapper.apply_decimal`): the decimal form of a 64-bit
integer is read back (`readInt64_toString`), and so the bounds of the conversion decide about the
same number.
-/

set_option autoImplicit false

namespace SqlTemplate

/-! ## White space around a text -/

section Trim

variable {p : Char → Bool}

theorem trimFront_pad {front : List Char} (hfront : ∀ c ∈ front, p c = true) (s : List Char) :
    trimFront p (front ++ s) = trimFront p s :=
  List.dropWhile_append_of_pos hfront

theorem trimBack_pad {back : List Char} (hback : ∀ c ∈ back, p c = true) (s : List Char) :
    trimBack p (s ++ back) = trimBack p s := by
  have hreverse : ∀ c ∈ back.reverse, p c = true := by simpa using hback
  rw [trimBack, List.reverse_append]
  exact congrArg List.reverse (trimFront_pad hreverse s.reverse)

/-- What is trimmed does not depend on what stands around it. -/
theorem trim_pad {front back : List Char} (hfront : ∀ c ∈ front, p c = true)
    (hback : ∀ c ∈ back, p c = true) (s : List Char) :
    trim p (front ++ s ++ back) = trim p s := by
  rw [trim, trim, List.append_assoc, trimFront_pad hfront]
  by_cases hs : trimFront p s = []
  · have hall : ∀ c ∈ s, p c = true := List.dropWhile_eq_nil_iff.mp hs
    have hblank : trimFront p back = [] := List.dropWhile_eq_nil_iff.mpr hback
    rw [trimFront_pad hall, hs, hblank]
  · have happend : trimFront p (s ++ back) = trimFront p s ++ back := by
      unfold trimFront at hs ⊢
      rw [List.dropWhile_append, if_neg (by simpa using hs)]
    rw [happend, trimBack_pad hback]

theorem trim_eq_self {s : List Char} (h : ∀ c ∈ s, p c = false) : trim p s = s := by
  have hkeep : ∀ s : List Char, (∀ c ∈ s, p c = false) → s.dropWhile p = s := by
    intro s hs
    cases s with
    | nil => rfl
    | cons c s => exact List.dropWhile_cons_of_neg (by simp [hs c List.mem_cons_self])
  rw [trim, trimFront, hkeep s h, trimBack, hkeep s.reverse (by simpa using h),
    List.reverse_reverse]

end Trim

/-- A text in white space is scanned like the text alone. -/
theorem trimmed_pad {front back : String} (hfront : ∀ c ∈ front.toList, isWhite c = true)
    (hback : ∀ c ∈ back.toList, isWhite c = true) (s : String) :
    trimmed (front ++ s ++ back) = trimmed s := by
  rw [trimmed, String.toList_append, String.toList_append]
  exact trim_pad hfront hback s.toList

/-! ## Decimal forms -/

theorem le_ofDigitChars (n : Nat) (digits : List Char) : n ≤ Nat.ofDigitChars 10 digits n := by
  calc n = 1 * n := (Nat.one_mul n).symm
    _ ≤ 10 ^ digits.length * n := Nat.mul_le_mul_right n (Nat.one_le_pow' _ _)
    _ ≤ 10 ^ digits.length * n + Nat.ofDigitChars 10 digits 0 := Nat.le_add_right _ _
    _ = Nat.ofDigitChars 10 digits n := Nat.ofDigitChars_eq_ofDigitChars_zero.symm

/-- Digits make the number that they write if it is within the limit. The limit is looked at after
every digit, which comes to the same, since more digits never make the number smaller. -/
theorem readDigits_eq {limit : Nat} (overflow : IntegerFault) {n : Nat} (hn : n ≤ limit)
    {digits : List Char} (hdigits : ∀ c ∈ digits, c.isDigit = true) :
    readDigits limit overflow n digits =
      if limit < Nat.ofDigitChars 10 digits n then .error overflow
      else .ok (Nat.ofDigitChars 10 digits n) := by
  induction digits generalizing n with
  | nil =>
      rw [readDigits, Nat.ofDigitChars_nil, if_neg (by omega)]
  | cons c digits ih =>
      obtain ⟨hc, hrest⟩ := List.forall_mem_cons.mp hdigits
      rw [readDigits, if_pos hc, Nat.ofDigitChars_cons]
      by_cases hover : limit < 10 * n + (c.toNat - '0'.toNat)
      · have hgrows := le_ofDigitChars (10 * n + (c.toNat - '0'.toNat)) digits
        rw [if_pos hover, if_pos (by omega)]
      · rw [if_neg hover]
        exact ih (by omega) hrest

theorem readNumber_toDigits (limit : Nat) (overflow : IntegerFault) (n : Nat) :
    readNumber limit overflow (Nat.toDigits 10 n) =
      if limit < n then .error overflow else .ok n := by
  have hdigits : ∀ c ∈ Nat.toDigits 10 n, c.isDigit = true := fun c hc =>
    Nat.isDigit_of_mem_toDigits (by decide) (by decide) hc
  rw [readNumber]
  · rw [readDigits_eq overflow (Nat.zero_le limit) hdigits, Nat.ofDigitChars_ten_toDigits]
  · exact Nat.toDigits_ne_nil

/-- **A decimal form is read back** if the integer has 64 bits; the least one is read as well,
although there is no positive integer of its size. -/
theorem readInteger_toString (n : Int) :
    readInteger (toString n).toList =
      if n < -2 ^ 63 then .error .tooSmall
      else if 2 ^ 63 ≤ n then .error .tooLarge
      else .ok n := by
  rw [Json.toString_toList]
  by_cases hsign : n < 0
  · rw [if_pos hsign, List.singleton_append, readInteger, readNumber_toDigits]
    by_cases hsmall : n < -2 ^ 63
    · have hfloor : int64Floor < n.natAbs := by simp only [int64Floor]; omega
      rw [if_pos hsmall, if_pos hfloor]
      rfl
    · have hfloor : ¬ int64Floor < n.natAbs := by simp only [int64Floor]; omega
      rw [if_neg hfloor, if_neg hsmall, if_neg (by omega : ¬ 2 ^ 63 ≤ n)]
      show Except.ok (-(n.natAbs : Int)) = .ok n
      rw [Int.ofNat_natAbs_of_nonpos hsign.le, neg_neg]
  · obtain ⟨c, digits, hdigits, hc⟩ := Json.toDigits_cons n.natAbs
    have hminus : c ≠ '-' := by
      rintro rfl
      cases hc
    have hplus : c ≠ '+' := by
      rintro rfl
      cases hc
    rw [if_neg hsign, List.nil_append, if_neg (by omega : ¬ n < -2 ^ 63)]
    rw [hdigits, readInteger, ← hdigits, readNumber_toDigits]
    · by_cases hlarge : 2 ^ 63 ≤ n
      · have hceiling : int64Ceiling < n.natAbs := by simp only [int64Ceiling]; omega
        rw [if_pos hlarge, if_pos hceiling]
        rfl
      · have hceiling : ¬ int64Ceiling < n.natAbs := by simp only [int64Ceiling]; omega
        rw [if_neg hlarge, if_neg hceiling]
        show Except.ok (n.natAbs : Int) = .ok n
        rw [Int.natAbs_of_nonneg (by omega)]
    · nofun
    · exact fun _ h => hminus (List.cons.inj h).1
    · exact fun _ h => hplus (List.cons.inj h).1

theorem readInt64_toString (n : Int64) : readInt64 (toString n.toInt).toList = .ok n := by
  have hlow := n.minValue_le_toInt
  have hhigh := n.toInt_lt
  rw [Int64.toInt_minValue] at hlow
  rw [readInt64, readInteger_toString, if_neg (by omega), if_neg (by omega)]
  exact congrArg Except.ok (Int64.ofInt_toInt n)

theorem isWhite_of_isDigit {c : Char} (h : c.isDigit = true) : isWhite c = false := by
  have hrange : 48 ≤ c.toNat ∧ c.toNat ≤ 57 := by
    simpa [Char.isDigit, UInt32.le_iff_toNat_le] using h
  simp only [isWhite, Bool.or_eq_false_iff, Bool.and_eq_false_iff, decide_eq_false_iff_not]
  omega

/-- There is no white space in a decimal form. -/
theorem trimmed_toString (n : Int) : trimmed (toString n) = (toString n).toList := by
  refine trim_eq_self fun c hc => ?_
  have hform : c = '-' ∨ c.isDigit = true := by
    rw [Json.toString_toList, List.mem_append] at hc
    rcases hc with hc | hc
    · split at hc
      · exact .inl (List.mem_singleton.mp hc)
      · cases hc
    · exact .inr (Nat.isDigit_of_mem_toDigits (by decide) (by decide) hc)
  rcases hform with rfl | hdigit
  · rfl
  · exact isWhite_of_isDigit hdigit

/-! ## Conversions to integers -/

namespace ScanKind

/-- The integers of a kind of integers, by the width of its type; unsigned ones have the width of
the values that hold them, less the sign. -/
def integers? : ScanKind → Option (Set Int)
  | .int | .int64 => some (Set.Ico (-2 ^ 63) (2 ^ 63))
  | .int8 => some (Set.Ico (-2 ^ 7) (2 ^ 7))
  | .int16 => some (Set.Ico (-2 ^ 15) (2 ^ 15))
  | .int32 => some (Set.Ico (-2 ^ 31) (2 ^ 31))
  | .uint => some (Set.Ico 0 (2 ^ 63))
  | _ => none

theorem bounds?_of_integers? {kind : ScanKind} {range : Set Int} (h : kind.integers? = some range) :
    ∃ low high, kind.bounds? = some (low, high) ∧ ∀ n, n ∈ range ↔ low ≤ n ∧ n ≤ high := by
  cases kind <;> cases h <;> refine ⟨_, _, rfl, fun n => ?_⟩ <;> rw [Set.mem_Ico] <;> omega

/-- A conversion to integers takes the integers of its kind and refuses the others. -/
theorem bounded_eq (kind : ScanKind) {range : Set Int} {low high : Int} {n : Int64}
    (h : n.toInt ∈ range ↔ low ≤ n.toInt ∧ n.toInt ≤ high) :
    (n.toInt ∈ range → kind.bounded low high n = .ok (.int n)) ∧
      (n.toInt ∉ range →
        kind.bounded low high n = .error (.column (.outOfRange n.toInt kind))) := by
  constructor
  · intro hin
    rw [bounded, if_neg (by have := h.mp hin; omega)]
  · intro hout
    rw [bounded, if_pos (by have := mt h.mpr hout; omega)]

/-- A text of an integer in white space is converted like the integer. -/
theorem toInteger_decimal (kind : ScanKind) (low high : Int) (n : Int64) {front back : String}
    (hfront : ∀ c ∈ front.toList, isWhite c = true) (hback : ∀ c ∈ back.toList, isWhite c = true) :
    kind.toInteger low high (.text (front ++ toString n.toInt ++ back)) =
      kind.toInteger low high (.int n) := by
  have hread : readInt64 (trimmed (front ++ toString n.toInt ++ back)) = .ok n := by
    rw [trimmed_pad hfront hback, trimmed_toString, readInt64_toString]
  simp only [toInteger, hread]

end ScanKind

/-- **Text and integer columns scan alike.** A mapper of a kind of integers, whether it is nullable
or not, makes the same of the decimal form of a 64-bit integer in any white space as of the integer
itself: the integer if it is one of the kind, and else the message that it is out of range. -/
theorem Mapper.apply_decimal (transforms : Transforms) {kind : ScanKind} {range : Set Int}
    (hkind : kind.integers? = some range) (nullable : Bool) (fallback : Value) (n : Int64)
    {front back : String} (hfront : ∀ c ∈ front.toList, isWhite c = true)
    (hback : ∀ c ∈ back.toList, isWhite c = true) :
    let mapper := Mapper.scan kind nullable fallback
    let result := mapper.apply transforms (.int n)
    mapper.apply transforms (.text (front ++ toString n.toInt ++ back)) = result ∧
      (n.toInt ∈ range → result = .ok (.int n)) ∧
      (n.toInt ∉ range → ∃ cause, result = .error cause ∧
        cause.message? = some (toString n.toInt ++ " out of range for " ++ kind.label)) := by
  intro mapper result
  obtain ⟨low, high, hbounds, hrange⟩ := ScanKind.bounds?_of_integers? hkind
  have happly : ∀ v : Value, v.isNil = false →
      mapper.apply transforms v = kind.toInteger low high v := by
    intro v hv
    simp only [mapper, Mapper.apply, hv, ScanKind.convert, hbounds]
    rfl
  have hresult : result = kind.bounded low high n := happly (.int n) rfl
  obtain ⟨htake, hrefuse⟩ := ScanKind.bounded_eq kind (hrange n.toInt)
  refine ⟨?_, ?_, ?_⟩
  · calc mapper.apply transforms (.text (front ++ toString n.toInt ++ back))
        = kind.toInteger low high (.text (front ++ toString n.toInt ++ back)) := happly _ rfl
      _ = kind.toInteger low high (.int n) := kind.toInteger_decimal low high n hfront hback
      _ = result := (happly (.int n) rfl).symm
  · intro hin
    rw [hresult, htake hin]
  · intro hout
    exact ⟨_, hresult.trans (hrefuse hout), rfl⟩

/-- The least integer of 64 bits, with a tab and a space that does not break around it. -/
theorem Mapper.apply_decimal_least :
    let transforms : Transforms := fun _ v => .ok v
    let text : Value := .text ("\t\u00a0" ++ "-9223372036854775808" ++ " \r\n")
    (Mapper.scan .int64 false .nil).apply transforms text = .ok (.int Int64.minValue) ∧
      ∃ cause, (Mapper.scan .uint true (.int 0)).apply transforms text = .error cause ∧
        cause.message? = some "-9223372036854775808 out of range for Uint" := by
  intro transforms text
  have hfront : ∀ c ∈ "\t\u00a0".toList, isWhite c = true := List.all_eq_true.mp rfl
  have hback : ∀ c ∈ " \r\n".toList, isWhite c = true := List.all_eq_true.mp rfl
  have hin : Int64.minValue.toInt ∈ Set.Ico (-2 ^ 63) (2 ^ 63) := ⟨by decide, by decide⟩
  have hout : Int64.minValue.toInt ∉ Set.Ico 0 (2 ^ 63) := fun h => absurd h.1 (by decide)
  have hlong : ScanKind.int64.integers? = some (Set.Ico (-2 ^ 63) (2 ^ 63)) := rfl
  have hunsigned : ScanKind.uint.integers? = some (Set.Ico 0 (2 ^ 63)) := rfl
  obtain ⟨htaken, htake, -⟩ :=
    apply_decimal transforms hlong false .nil Int64.minValue hfront hback
  obtain ⟨hrefused, -, hrefuse⟩ :=
    apply_decimal transforms hunsigned true (.int 0) Int64.minValue hfront hback
  obtain ⟨cause, hcause, hmessage⟩ := hrefuse hout
  exact ⟨htaken.trans (htake hin), cause, hrefused.trans hcause, hmessage⟩

end SqlTemplate
