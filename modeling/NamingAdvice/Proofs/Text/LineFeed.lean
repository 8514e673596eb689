import NamingAdvice.Proofs.Number.Digits
import NamingAdvice.Proofs.Text.Encoding

/-! Line feeds in texts and in their octets. The octet of a line feed codes nothing else, so a text
without line feeds has octets without them; and a text falls into one part more than it has line
feeds.
-/

namespace NamingAdvice

namespace Utf8

/-- An octet below 128 stands for itself only. -/
theorem eq_of_mem_encodeScalar {byte : UInt8} {scalar : Nat} (low : byte.toNat < 0x80)
    (size : scalar < 0x110000) (h : byte ∈ encodeScalar scalar)
    : scalar = byte.toNat := by
  have other {value : Nat} (high : 0x80 ≤ value) (small : value < 0x100)
      : byte ≠ UInt8.ofNat value := by
    intro same
    have value_eq : (UInt8.ofNat value).toNat = value := UInt8.toNat_ofNat_of_lt small
    rw [same, value_eq] at low
    omega
  unfold encodeScalar at h
  split at h
  · next small =>
      have value_eq : (UInt8.ofNat scalar).toNat = scalar :=
        UInt8.toNat_ofNat_of_lt (Nat.lt_trans small (by decide))
      rw [List.mem_singleton.mp h, value_eq]
  -- All octets of a longer sequence are 128 or above.
  split at h
  · simp only [List.mem_cons, List.not_mem_nil, or_false] at h
    rcases h with h | h <;> exact absurd h (other (by omega) (by omega))
  split at h
  · simp only [List.mem_cons, List.not_mem_nil, or_false] at h
    rcases h with h | h | h <;> exact absurd h (other (by omega) (by omega))
  · simp only [List.mem_cons, List.not_mem_nil, or_false] at h
    rcases h with h | h | h | h <;> exact absurd h (other (by omega) (by omega))

/-- The octet of a line feed stands for a line feed wherever it comes up. -/
theorem lineFeed_mem_of_mem_encode {source : Text} (h : 0x0A ∈ encode source) : 0x0A ∈ source := by
  have own {scalar : Nat} (size : scalar < 0x110000) (h : 0x0A ∈ encodeScalar scalar)
      : scalar = 0x0A :=
    eq_of_mem_encodeScalar (by decide) size h
  have single {unit : CodeUnit} (h : 0x0A ∈ encodePoint (.single unit)) : unit = 0x0A := by
    simp only [encodePoint] at h
    split at h
    · exact absurd (own (by decide) h) (by decide)
    · have size := unit.toNat_lt
      have low : unit.toNat = 0x0A := own (by omega) h
      exact UInt16.toNat_inj.mp low
  unfold encode at h
  fun_induction Text.codePoints source with
  | case1 => exact absurd h List.not_mem_nil
  | case2 unit =>
      rw [List.flatMap_singleton] at h
      exact List.mem_singleton.mpr (single h).symm
  | case3 first second rest paired ih =>
      simp only [Bool.and_eq_true] at paired
      have upper := CodeUnit.toNat_of_isHighSurrogate paired.1
      have lower := CodeUnit.toNat_of_isLowSurrogate paired.2
      rcases List.mem_append.mp h with here | later
      · have value : (CodePoint.pair first second).value
            = 0x10000 + (first.toNat - 0xD800) * 0x400 + (second.toNat - 0xDC00) := rfl
        have low : (CodePoint.pair first second).value = 0x0A := own (by omega) here
        omega
      · simp [ih later]
  | case4 first second rest _ ih =>
      rcases List.mem_append.mp h with here | later
      · rw [single here]
        exact List.mem_cons_self
      · exact List.mem_cons_of_mem _ (ih later)

end Utf8

namespace Text

/-- The number of line feeds in a text. -/
def breaks (line : Text) : Nat :=
  line.count 0x0A

theorem breaks_eq_zero_iff {line : Text} : line.breaks = 0 ↔ 0x0A ∉ line :=
  List.count_eq_zero

@[simp]
theorem breaks_append (left right : Text) : (left ++ right).breaks = left.breaks + right.breaks :=
  List.count_append

theorem breaks_ofNat (value : Nat) : (ofNat value).breaks = 0 := by
  rw [breaks_eq_zero_iff]
  exact not_mem_ofNat (by decide) value

theorem breaks_slashed {segments : List Text} (h : ∀ segment ∈ segments, segment.breaks = 0)
    : (slashed segments).breaks = 0 := by
  rw [breaks_eq_zero_iff]
  refine not_mem_slashed (by decide) ?_
  intro segment listed
  exact breaks_eq_zero_iff.mp (h segment listed)

/-- A text falls into one part more than it has line feeds. -/
theorem length_parts (line : Text) : (parts 0x0A line).length = line.breaks + 1 := by
  induction line with
  | nil => rfl
  | cons unit rest ih =>
      by_cases feed : unit = 0x0A
      · simp [parts, feed, ih, breaks]
      · have kept : breaks (unit :: rest) = breaks rest := by simp [breaks, feed]
        obtain ⟨part, more, cut⟩ := List.exists_cons_of_ne_nil (parts_ne_nil 0x0A rest)
        rw [cut] at ih
        simpa [parts, feed, cut, kept] using ih

end Text

end NamingAdvice
