import Mathlib.Data.List.DropRight
import Mathlib.Tactic.Ring
import NamingAdvice.Number.Decimal
import NamingAdvice.Proofs.Text.Segment

/-! The digits of numbers. A natural number has no zero in front of its digits, and its last digit is
its remainder by ten; zeros in front of digits do not change their value, and zeros behind them are
powers of ten. So a decimal that is made from digits is in its one canonical form.
-/

namespace NamingAdvice

namespace Text

/-- A run of decimal digits. -/
def IsDigits (digits : Text) : Prop :=
  ∀ unit ∈ digits, unit.isDecimalDigit = true

theorem isDecimalDigit_iff (unit : CodeUnit)
    : unit.isDecimalDigit = true ↔ 0x30 ≤ unit.toNat ∧ unit.toNat ≤ 0x39 := by
  simp [CodeUnit.isDecimalDigit, UInt16.le_iff_toNat_le]

theorem isDigits_append_iff {left right : Text}
    : IsDigits (left ++ right) ↔ IsDigits left ∧ IsDigits right :=
  List.forall_mem_append

theorem isDigits_replicate (count : Nat) : IsDigits (List.replicate count 0x30) := by
  intro unit hm
  rw [List.eq_of_mem_replicate hm]
  rfl

theorem isDigits_ofNat (value : Nat) : IsDigits (ofNat value) := by
  intro unit hm
  obtain ⟨digit, hd, rfl⟩ := List.mem_map.mp hm
  rw [isDecimalDigit_iff, toNat_unit_of_mem_toDigits hd]
  exact isDigit_of_mem_toDigits hd

theorem not_mem_ofNat {unit : CodeUnit} (h : unit.isDecimalDigit = false) (value : Nat)
    : unit ∉ ofNat value := by
  intro mem
  rw [isDigits_ofNat value unit mem] at h
  contradiction

-----------------------------------------------------------------------------------------
-- The digits of a natural number
-----------------------------------------------------------------------------------------

theorem ofNat_ne_nil (value : Nat) : ofNat value ≠ [] := by
  simp [ofNat, Nat.toDigits_ne_nil]

theorem ofNat_of_lt {value : Nat} (h : value < 10)
    : ofNat value = [UInt16.ofNat (0x30 + value)] := by
  have cases : ∀ value < 10, ofNat value = [UInt16.ofNat (0x30 + value)] := by decide
  exact cases value h

theorem ofNat_of_le {value : Nat} (h : 10 ≤ value)
    : ofNat value = ofNat (value / 10) ++ ofNat (value % 10) := by
  have last : value % 10 < 10 := Nat.mod_lt _ (by decide)
  simp [ofNat, Nat.toDigits_of_base_le (by decide) h, Nat.toDigits_of_lt_base last]

/-- Only zero has a zero in front. -/
theorem head?_ofNat_ne {value : Nat} (h : value ≠ 0) : (ofNat value).head? ≠ some 0x30 := by
  induction value using Nat.strongRecOn with
  | ind value ih =>
      by_cases small : value < 10
      · have cases : ∀ value < 10, value ≠ 0 → (ofNat value).head? ≠ some 0x30 := by decide
        exact cases value small h
      · have front := ih (value / 10) (by omega) (by omega)
        rwa [ofNat_of_le (by omega), List.head?_append_of_ne_nil _ (ofNat_ne_nil _)]

theorem getLast?_ofNat (value : Nat)
    : (ofNat value).getLast? = some (UInt16.ofNat (0x30 + value % 10)) := by
  by_cases small : value < 10
  · rw [ofNat_of_lt small, Nat.mod_eq_of_lt small]
    rfl
  · rw [ofNat_of_le (by omega), ofNat_of_lt (Nat.mod_lt _ (by decide)), List.getLast?_concat]

theorem getLast?_ofNat_ne {value : Nat} (h : value % 10 ≠ 0)
    : (ofNat value).getLast? ≠ some 0x30 := by
  have cases : ∀ digit < 10, digit ≠ 0 → UInt16.ofNat (0x30 + digit) ≠ 0x30 := by decide
  rw [getLast?_ofNat]
  intro same
  exact cases _ (Nat.mod_lt _ (by decide)) h (Option.some.inj same)

-----------------------------------------------------------------------------------------
-- Zeros around digits
-----------------------------------------------------------------------------------------

theorem decimalValue_concat (digits : Text) (unit : CodeUnit)
    : decimalValue (digits ++ [unit]) = 10 * decimalValue digits + (unit.toNat - 0x30) := by
  simp [decimalValue]

theorem decimalValue_zeros_append (count : Nat) (digits : Text)
    : decimalValue (List.replicate count 0x30 ++ digits) = decimalValue digits := by
  induction count with
  | zero => rfl
  | succ count ih => exact ih

theorem decimalValue_append_zeros (digits : Text) (count : Nat)
    : decimalValue (digits ++ List.replicate count 0x30) = decimalValue digits * 10 ^ count := by
  induction count with
  | zero => simp
  | succ count ih =>
      rw [List.replicate_succ', ← List.append_assoc, decimalValue_concat, ih]
      simp only [UInt16.reduceToNat]
      ring

end Text

namespace Decimal

theorem trimZeros_eq (digits : Text) : trimZeros digits = digits.rdropWhile (· == 0x30) :=
  rfl

theorem trimZeros_append_zeros {kept : Text} (h : kept.getLast? ≠ some 0x30) (count : Nat)
    : trimZeros (kept ++ List.replicate count 0x30) = kept := by
  rw [trimZeros_eq]
  induction count with
  | zero =>
      rw [List.replicate_zero, List.append_nil, List.rdropWhile_eq_self_iff]
      intro present zero
      apply h
      rw [List.getLast?_eq_some_getLast present, eq_of_beq zero]
  | succ count ih =>
      rw [List.replicate_succ', ← List.append_assoc, List.rdropWhile_concat_pos _ _ _ (by rfl), ih]

/-- Digits are what is kept of them and zeros behind it. -/
theorem exists_trimZeros (digits : Text)
    : ∃ count, digits = trimZeros digits ++ List.replicate count 0x30
        ∧ (trimZeros digits).getLast? ≠ some 0x30 := by
  simp only [trimZeros_eq]
  refine ⟨(digits.rtakeWhile (· == 0x30)).length, ?_, ?_⟩
  · have zeros : digits.rtakeWhile (· == 0x30)
        = List.replicate (digits.rtakeWhile (· == 0x30)).length 0x30 :=
      List.eq_replicate_of_mem (fun unit hm => by simpa using List.mem_rtakeWhile_imp hm)
    rw [← zeros, List.rdropWhile_append_rtakeWhile]
  · intro ends
    have present : digits.rdropWhile (· == 0x30) ≠ [] := by
      intro none
      rw [none] at ends
      contradiction
    have last := List.rdropWhile_last_not _ _ present
    rw [List.getLast?_eq_some_getLast present, Option.some.injEq] at ends
    simp [ends] at last

/-- Digits with zeros behind them count those zeros in the power of ten. -/
theorem ofDigits_append_zeros (negative : Bool) {kept : Text} (present : kept ≠ [])
    (ends : kept.getLast? ≠ some 0x30) (count : Nat) (power : Int)
    : ofDigits negative (kept ++ List.replicate count 0x30) power
      = ⟨if negative then -(Text.decimalValue kept : Int) else Text.decimalValue kept,
          power + count⟩ := by
  simp [ofDigits, trimZeros_append_zeros ends, present]

theorem ofDigits_zeros (negative : Bool) (count : Nat) (power : Int)
    : ofDigits negative (List.replicate count 0x30) power = ⟨0, 0⟩ := by
  have none : trimZeros ([] ++ List.replicate count 0x30) = [] :=
    trimZeros_append_zeros (by simp) count
  rw [List.nil_append] at none
  simp [ofDigits, none]

/-- Wherever the point stands among digits and zeros around them, they are the same number. -/
theorem ofParts_padded (negative : Bool) {whole fraction digits : Text} {front back : Nat}
    {power exponent : Int} (present : digits ≠ []) (ends : digits.getLast? ≠ some 0x30)
    (written : whole ++ fraction
      = List.replicate front 0x30 ++ digits ++ List.replicate back 0x30)
    (shift : power - fraction.length + back = exponent)
    : ofParts negative whole fraction power
      = ⟨if negative then -(Text.decimalValue digits : Int) else Text.decimalValue digits,
          exponent⟩ := by
  have last : (List.replicate front 0x30 ++ digits).getLast? ≠ some 0x30 := by
    rwa [List.getLast?_append_of_ne_nil _ present]
  rw [ofParts, written, ofDigits_append_zeros negative (by simp [present]) last, shift,
    Text.decimalValue_zeros_append]

/-- The one form of a decimal: it is nought, or no zero is left at the end of its digits. -/
def Canonical (value : Decimal) : Prop :=
  value = ⟨0, 0⟩ ∨ value.mantissa.natAbs % 10 ≠ 0

theorem canonical_ofDigits (negative : Bool) {digits : Text} (h : Text.IsDigits digits)
    (power : Int)
    : (ofDigits negative digits power).Canonical := by
  obtain ⟨count, whole, ends⟩ := exists_trimZeros digits
  generalize trimZeros digits = kept at whole ends
  subst whole
  cases kept using List.reverseRecOn with
  | nil => exact .inl (ofDigits_zeros negative count power)
  | append_singleton before last =>
      have digit := (Text.isDecimalDigit_iff last).mp (h last (by simp))
      have differs : last.toNat ≠ 0x30 := by
        intro same
        apply ends
        rw [List.getLast?_concat, ← UInt16.ofNat_toNat (x := last), same]
        rfl
      right
      rw [ofDigits_append_zeros negative (by simp) ends, Text.decimalValue_concat]
      cases negative <;> simp <;> omega

theorem canonical_ofInt (value : Int) : (ofInt value).Canonical :=
  canonical_ofDigits _ (Text.isDigits_ofNat _) 0

/-- A whole number keeps its value as a decimal. -/
theorem ofInt_value (value : Int)
    : 0 ≤ (ofInt value).exponent
      ∧ (ofInt value).mantissa * 10 ^ (ofInt value).exponent.toNat = value := by
  have total := Text.decimalValue_ofNat value.natAbs
  rw [ofInt]
  obtain ⟨count, whole, ends⟩ := exists_trimZeros (Text.ofNat value.natAbs)
  generalize trimZeros (Text.ofNat value.natAbs) = kept at whole ends
  rw [whole, Text.decimalValue_append_zeros] at total
  rw [whole]
  by_cases none : kept = []
  · subst none
    rw [List.nil_append, ofDigits_zeros]
    simp [Text.decimalValue] at total
    simp
    omega
  · rw [ofDigits_append_zeros _ none ends]
    refine ⟨by simp, ?_⟩
    have size : (Text.decimalValue kept : Int) * 10 ^ count = value.natAbs := by
      exact_mod_cast total
    by_cases below : value < 0
    · have magnitude : (value.natAbs : Int) = -value := by omega
      rw [magnitude] at size
      simp [below, size]
    · have magnitude : (value.natAbs : Int) = value := by omega
      rw [magnitude] at size
      simp [below, size]

theorem ofInt_injective {left right : Int} (h : ofInt left = ofInt right) : left = right := by
  rw [← (ofInt_value left).2, h, (ofInt_value right).2]

end Decimal

end NamingAdvice
