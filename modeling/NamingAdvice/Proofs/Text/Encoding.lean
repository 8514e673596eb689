import Mathlib.Tactic.IntervalCases
import NamingAdvice.Proofs.Text.MaximalMunch
import NamingAdvice.Text.Utf8

/-! Texts that survive UTF-8. Where every surrogate belongs to a pair, decoding gives back what was
encoded. A text may be encoded piece by piece if it is cut in front of anything but the second half
of a pair. What a line starts with can be told from its octets.
-/

namespace NamingAdvice

namespace CodeUnit

/-- A unit that is no half of a surrogate pair. -/
def IsPlain (unit : CodeUnit) : Prop :=
  unit.isHighSurrogate = false ∧ unit.isLowSurrogate = false

instance (unit : CodeUnit) : Decidable unit.IsPlain :=
  inferInstanceAs (Decidable (_ ∧ _))

theorem isPlain_iff (unit : CodeUnit)
    : unit.IsPlain ↔ unit.toNat < 0xD800 ∨ 0xDFFF < unit.toNat := by
  simp only [IsPlain, isHighSurrogate, isLowSurrogate, Bool.and_eq_false_iff,
    decide_eq_false_iff_not, UInt16.le_iff_toNat_le, UInt16.reduceToNat]
  omega

theorem isPlain_of_lt {unit : CodeUnit} (h : unit.toNat < 0xD800) : unit.IsPlain :=
  (isPlain_iff unit).mpr (.inl h)

end CodeUnit

namespace Text

/-- A text in which every surrogate belongs to a pair. -/
inductive Paired : Text → Prop where
  | nil : Paired []
  | plain {unit : CodeUnit} {rest : Text} (own : unit.IsPlain) (more : Paired rest)
      : Paired (unit :: rest)
  | pair {high low : CodeUnit} {rest : Text} (first : high.isHighSurrogate)
      (second : low.isLowSurrogate) (more : Paired rest)
      : Paired (high :: low :: rest)

theorem Paired.append {left right : Text} (hl : Paired left) (hr : Paired right)
    : Paired (left ++ right) := by
  induction hl with
  | nil => exact hr
  | plain own _ ih => exact .plain own ih
  | pair first second _ ih => exact .pair first second ih

theorem paired_of_forall {source : Text} (h : ∀ unit ∈ source, unit.IsPlain) : Paired source := by
  induction source with
  | nil => exact .nil
  | cons unit rest ih =>
      exact .plain (h unit List.mem_cons_self)
        (ih (fun other ho => h other (List.mem_cons_of_mem _ ho)))

theorem paired_of_all {source : Text} (h : source.all (fun unit => decide unit.IsPlain) = true)
    : Paired source :=
  paired_of_forall (by simpa using h)

-----------------------------------------------------------------------------------------
-- Code points of texts in a row
-----------------------------------------------------------------------------------------

theorem codePoints_cons_of_not_high {unit : CodeUnit} (h : unit.isHighSurrogate = false)
    (rest : Text)
    : codePoints (unit :: rest) = .single unit :: codePoints rest := by
  cases rest with
  | nil => rfl
  | cons second rest => simp [codePoints, h]

/-- No pair reaches across the place in front of a unit that is no second half. -/
theorem codePoints_append_cons {unit : CodeUnit} (h : unit.isLowSurrogate = false)
    (left right : Text)
    : codePoints (left ++ unit :: right) = codePoints left ++ codePoints (unit :: right) := by
  apply (codePoints_append_iff left (unit :: right)).mpr
  intro across
  obtain ⟨high, low, -, head, -, lower⟩ := across
  obtain rfl : unit = low := by simpa using head
  rw [h] at lower
  contradiction

theorem Paired.codePoints_append {left : Text} (h : Paired left) (right : Text)
    : codePoints (left ++ right) = codePoints left ++ codePoints right := by
  induction h with
  | nil => rfl
  | plain own _ ih =>
      simpa [codePoints_cons_of_not_high own.1] using ih
  | pair first second _ ih => simpa [codePoints_pair first second] using ih

end Text

namespace Utf8

theorem encode_append_cons {unit : CodeUnit} (h : unit.isLowSurrogate = false) (left right : Text)
    : encode (left ++ unit :: right) = encode left ++ encode (unit :: right) := by
  simp [encode, Text.codePoints_append_cons h]

theorem encode_append {left : Text} (h : left.Paired) (right : Text)
    : encode (left ++ right) = encode left ++ encode right := by
  simp [encode, h.codePoints_append]

-----------------------------------------------------------------------------------------
-- Decoding one scalar value
-----------------------------------------------------------------------------------------

/-- A number that UTF-8 can code: no surrogate, and not beyond the last plane. -/
def IsScalar (scalar : Nat) : Prop :=
  scalar < 0xD800 ∨ 0xE000 ≤ scalar ∧ scalar < 0x110000

theorem toNat_tail {digit : Nat} (h : digit < 0x40)
    : (UInt8.ofNat (0x80 + digit)).toNat = 0x80 + digit :=
  UInt8.toNat_ofNat_of_lt ((Nat.add_lt_add_left h 0x80).trans (by decide))

theorem decodeFrom_lead {byte : UInt8} {pending : Pending}
    (h : Lead.ofByte byte = .pending pending) (bytes : Bytes)
    : decodeFrom none (byte :: bytes) = decodeFrom (some pending) bytes := by
  simp [decodeFrom, advance, openSequence, h]

/-- An octet within the bounds ends a sequence that lacks no other. -/
theorem decodeFrom_last {least greatest byte : UInt8} {value digit : Nat}
    (octet : byte.toNat = 0x80 + digit) (hl : least.toNat ≤ 0x80 + digit)
    (hg : 0x80 + digit ≤ greatest.toNat) (bytes : Bytes)
    : decodeFrom (some ⟨1, least, greatest, value⟩) (byte :: bytes)
      = Text.ofScalar (value * 0x40 + digit) ++ decodeFrom none bytes := by
  simp [decodeFrom, advance, UInt8.le_iff_toNat_le, octet, hl, hg]

/-- An octet within the bounds takes a longer sequence one step further. -/
theorem decodeFrom_next {missing : Nat} {least greatest byte : UInt8} {value digit : Nat}
    (octet : byte.toNat = 0x80 + digit) (hl : least.toNat ≤ 0x80 + digit)
    (hg : 0x80 + digit ≤ greatest.toNat) (bytes : Bytes)
    : decodeFrom (some ⟨missing + 2, least, greatest, value⟩) (byte :: bytes)
      = decodeFrom (some ⟨missing + 1, 0x80, 0xBF, value * 0x40 + digit⟩) bytes := by
  simp [decodeFrom, advance, UInt8.le_iff_toNat_le, octet, hl, hg]

theorem decodeFrom_one {value : Nat} (h : value < 0x80) (bytes : Bytes)
    : decodeFrom none (UInt8.ofNat value :: bytes)
      = Text.ofScalar value ++ decodeFrom none bytes := by
  have octet : (UInt8.ofNat value).toNat = value :=
    UInt8.toNat_ofNat_of_lt (h.trans (by decide))
  have lead : Lead.ofByte (UInt8.ofNat value) = .complete value := by
    simp [Lead.ofByte, UInt8.lt_iff_toNat_lt, octet, h]
  simp [decodeFrom, advance, openSequence, lead]

theorem decodeFrom_two {first last : Nat} (least : 2 ≤ first) (greatest : first < 0x20)
    (hl : last < 0x40) (bytes : Bytes)
    : decodeFrom none (UInt8.ofNat (0xC0 + first) :: UInt8.ofNat (0x80 + last) :: bytes)
      = Text.ofScalar (first * 0x40 + last) ++ decodeFrom none bytes := by
  have lead : Lead.ofByte (UInt8.ofNat (0xC0 + first)) = .pending ⟨1, 0x80, 0xBF, first⟩ := by
    interval_cases first <;> rfl
  rw [decodeFrom_lead lead]
  exact decodeFrom_last (toNat_tail hl) (by simp) (by simp; omega) bytes

theorem decodeFrom_three {first second last : Nat} (hf : first < 0x10) (hs : second < 0x40)
    (hl : last < 0x40) (short : first = 0 → 0x20 ≤ second)
    (surrogate : first = 0xD → second < 0x20) (bytes : Bytes)
    : decodeFrom none
        (UInt8.ofNat (0xE0 + first) :: UInt8.ofNat (0x80 + second)
          :: UInt8.ofNat (0x80 + last) :: bytes)
      = Text.ofScalar ((first * 0x40 + second) * 0x40 + last) ++ decodeFrom none bytes := by
  have lead : Lead.ofByte (UInt8.ofNat (0xE0 + first))
      = .pending
          ⟨2, if first = 0 then 0xA0 else 0x80, if first = 0xD then 0x9F else 0xBF, first⟩ := by
    interval_cases first <;> rfl
  rw [decodeFrom_lead lead,
    decodeFrom_next (toNat_tail hs) (by split <;> simp; omega) (by split <;> simp <;> omega)]
  exact decodeFrom_last (toNat_tail hl) (by simp) (by simp; omega) bytes

theorem decodeFrom_four {first second third last : Nat} (hf : first < 5) (hs : second < 0x40)
    (ht : third < 0x40) (hl : last < 0x40) (short : first = 0 → 0x10 ≤ second)
    (beyond : first = 4 → second < 0x10) (bytes : Bytes)
    : decodeFrom none
        (UInt8.ofNat (0xF0 + first) :: UInt8.ofNat (0x80 + second)
          :: UInt8.ofNat (0x80 + third) :: UInt8.ofNat (0x80 + last) :: bytes)
      = Text.ofScalar (((first * 0x40 + second) * 0x40 + third) * 0x40 + last)
        ++ decodeFrom none bytes := by
  have lead : Lead.ofByte (UInt8.ofNat (0xF0 + first))
      = .pending
          ⟨3, if first = 0 then 0x90 else 0x80, if first = 4 then 0x8F else 0xBF, first⟩ := by
    interval_cases first <;> rfl
  rw [decodeFrom_lead lead,
    decodeFrom_next (toNat_tail hs) (by split <;> simp; omega) (by split <;> simp <;> omega),
    decodeFrom_next (toNat_tail ht) (by simp) (by simp; omega)]
  exact decodeFrom_last (toNat_tail hl) (by simp) (by simp; omega) bytes

/-- The octets of a scalar value are decoded to it, whatever follows. The bounds behind a first
octet rule out surrogates and values with a shorter form, and no scalar value is coded so.
-/
theorem decodeFrom_encodeScalar {scalar : Nat} (h : IsScalar scalar) (bytes : Bytes)
    : decodeFrom none (encodeScalar scalar ++ bytes)
      = Text.ofScalar scalar ++ decodeFrom none bytes := by
  have bounds : scalar < 0xD800 ∨ 0xE000 ≤ scalar ∧ scalar < 0x110000 := h
  unfold encodeScalar
  split
  · next one => exact decodeFrom_one one bytes
  split
  · next two =>
      refine (decodeFrom_two (by omega) (by omega) (by omega) bytes).trans ?_
      congr 2
      omega
  split
  · next three =>
      refine (decodeFrom_three (by omega) (by omega) (by omega) (by omega) (by omega) bytes).trans ?_
      congr 2
      omega
  · refine
      (decodeFrom_four (by omega) (by omega) (by omega) (by omega) (by omega) (by omega)
        bytes).trans ?_
    congr 2
    omega

-----------------------------------------------------------------------------------------
-- Whole texts
-----------------------------------------------------------------------------------------

theorem isScalar_of_isPlain {unit : CodeUnit} (h : unit.IsPlain) : IsScalar unit.toNat := by
  have bounds := (CodeUnit.isPlain_iff unit).mp h
  have size := unit.toNat_lt
  simp only [IsScalar]
  omega

theorem ofScalar_toNat (unit : CodeUnit) : Text.ofScalar unit.toNat = [unit] := by
  have size := unit.toNat_lt
  rw [Text.ofScalar, if_pos (by omega), UInt16.ofNat_toNat]

/-- The scalar value of a pair lies beyond the basic plane and is written as the same pair. -/
theorem scalar_of_pair {high low : CodeUnit} (first : high.isHighSurrogate)
    (second : low.isLowSurrogate)
    : IsScalar (CodePoint.pair high low).value
      ∧ Text.ofScalar (CodePoint.pair high low).value = [high, low] := by
  have hf := CodeUnit.toNat_of_isHighSurrogate first
  have hs := CodeUnit.toNat_of_isLowSurrogate second
  have value : (CodePoint.pair high low).value
      = 0x10000 + (high.toNat - 0xD800) * 0x400 + (low.toNat - 0xDC00) := rfl
  have upper : 0xD800 + ((CodePoint.pair high low).value - 0x10000) / 0x400 = high.toNat := by
    omega
  have lower : 0xDC00 + ((CodePoint.pair high low).value - 0x10000) % 0x400 = low.toNat := by
    omega
  refine ⟨.inr (by omega), ?_⟩
  rw [Text.ofScalar, if_neg (by omega), upper, lower, UInt16.ofNat_toNat, UInt16.ofNat_toNat]

theorem paired_ofScalar {scalar : Nat} (h : IsScalar scalar) : (Text.ofScalar scalar).Paired := by
  have bounds : scalar < 0xD800 ∨ 0xE000 ≤ scalar ∧ scalar < 0x110000 := h
  rw [Text.ofScalar]
  split
  · next basic =>
      have unit : (UInt16.ofNat scalar).toNat = scalar := UInt16.toNat_ofNat_of_lt basic
      exact .plain ((CodeUnit.isPlain_iff _).mpr (by omega)) .nil
  · have high : (UInt16.ofNat (0xD800 + (scalar - 0x10000) / 0x400)).toNat
        = 0xD800 + (scalar - 0x10000) / 0x400 :=
      UInt16.toNat_ofNat_of_lt (by simp only [UInt16.size]; omega)
    have low : (UInt16.ofNat (0xDC00 + (scalar - 0x10000) % 0x400)).toNat
        = 0xDC00 + (scalar - 0x10000) % 0x400 :=
      UInt16.toNat_ofNat_of_lt (by simp only [UInt16.size]; omega)
    refine .pair ?_ ?_ .nil
    · simp only [CodeUnit.isHighSurrogate, Bool.and_eq_true, decide_eq_true_eq,
        UInt16.le_iff_toNat_le, high, UInt16.reduceToNat]
      omega
    · simp only [CodeUnit.isLowSurrogate, Bool.and_eq_true, decide_eq_true_eq,
        UInt16.le_iff_toNat_le, low, UInt16.reduceToNat]
      omega

/-- The units of a string are paired, since its characters are scalar values. -/
theorem paired_text (string : String) : (text string).Paired := by
  rw [text]
  induction string.toList with
  | nil => exact .nil
  | cons char rest ih =>
      have scalar : IsScalar char.toNat := by
        have valid : char.toNat < 0xD800 ∨ 0xDFFF < char.toNat ∧ char.toNat < 0x110000 :=
          char.valid
        simp only [IsScalar]
        omega
      exact (paired_ofScalar scalar).append ih

theorem encode_plain {unit : CodeUnit} (h : unit.IsPlain) (rest : Text)
    : encode (unit :: rest) = encodeScalar unit.toNat ++ encode rest := by
  simp [encode, Text.codePoints_cons_of_not_high h.1, encodePoint, h.1, h.2]

theorem encode_pair {high low : CodeUnit} (first : high.isHighSurrogate)
    (second : low.isLowSurrogate) (rest : Text)
    : encode (high :: low :: rest)
      = encodeScalar (CodePoint.pair high low).value ++ encode rest := by
  simp [encode, Text.codePoints_pair first second, encodePoint]

/-- A text whose surrogates are all paired comes back from its octets. -/
theorem decode_encode {source : Text} (h : source.Paired) : decode (encode source) = source := by
  induction h with
  | nil => rfl
  | @plain unit rest own _ ih =>
      rw [decode, encode_plain own, decodeFrom_encodeScalar (isScalar_of_isPlain own),
        ofScalar_toNat]
      exact congrArg (unit :: ·) ih
  | @pair high low rest first second _ ih =>
      obtain ⟨scalar, units⟩ := scalar_of_pair first second
      rw [decode, encode_pair first second, decodeFrom_encodeScalar scalar, units]
      exact congrArg ([high, low] ++ ·) ih

-----------------------------------------------------------------------------------------
-- What a line starts with
-----------------------------------------------------------------------------------------

theorem head?_decode_encodeScalar {scalar : Nat} (h : IsScalar scalar) (bytes : Bytes)
    : (decode (encodeScalar scalar ++ bytes)).head? = (Text.ofScalar scalar).head? := by
  have something : Text.ofScalar scalar ≠ [] := by
    unfold Text.ofScalar
    split <;> simp
  rw [decode, decodeFrom_encodeScalar h, List.head?_append_of_ne_nil _ something]

/-- The octets of a text that is not empty start with those of a scalar value: its first code point
or, for a lone surrogate, the replacement character.
-/
theorem exists_encode_cons (unit : CodeUnit) (rest : Text)
    : ∃ scalar more,
        IsScalar scalar
        ∧ encode (unit :: rest) = encodeScalar scalar ++ more
        ∧ ((Text.ofScalar scalar).head? = some unit
          ∨ (Text.ofScalar scalar).head? = some 0xFFFD) := by
  by_cases across : Text.Straddled [unit] rest
  · obtain ⟨high, low, last, head, first, second⟩ := across
    obtain rfl : unit = high := by simpa using last
    obtain ⟨more, rfl⟩ := List.head?_eq_some_iff.mp head
    obtain ⟨scalar, units⟩ := scalar_of_pair first second
    exact ⟨_, _, scalar, encode_pair first second more, .inl (by rw [units]; rfl)⟩
  · by_cases own : unit.IsPlain
    · exact ⟨_, _, isScalar_of_isPlain own, encode_plain own rest,
        .inl (by rw [ofScalar_toNat]; rfl)⟩
    · have surrogate : encodePoint (.single unit) = encodeScalar replacement := by
        unfold CodeUnit.IsPlain at own
        simp only [encodePoint, ite_eq_left_iff, Bool.not_eq_true, Bool.or_eq_false_iff]
        exact fun plain => absurd plain own
      refine ⟨replacement, encode rest, .inr (by decide), ?_, .inr rfl⟩
      simp [encode, Text.codePoints_cons_of_not_straddled across, surrogate]

/-- The octets of a line start with those of a text exactly if the line starts with the text, where
the text holds no surrogates, replacement characters or line feeds.
-/
theorem encode_prefix_iff {start : Text}
    (own : ∀ unit ∈ start, unit.IsPlain ∧ unit ≠ 0xFFFD ∧ unit ≠ 0x0A) (line : Text)
    (rest : Bytes)
    : encode start <+: encode line ++ 0x0A :: rest ↔ start <+: line := by
  constructor
  · intro starts
    induction start generalizing line with
    | nil => exact List.nil_prefix
    | cons unit start ih =>
        obtain ⟨⟨plain, kept, within⟩, others⟩ := List.forall_mem_cons.mp own
        obtain ⟨after, same⟩ := starts
        rw [encode_plain plain, List.append_assoc] at same
        have first : (decode (encode line ++ 0x0A :: rest)).head? = some unit := by
          rw [← same, head?_decode_encodeScalar (isScalar_of_isPlain plain), ofScalar_toNat]
          rfl
        cases line with
        | nil =>
            have ended : (decode (encodeScalar 0x0A ++ rest)).head? = some 0x0A :=
              head?_decode_encodeScalar (.inl (by decide)) rest
            exact absurd (Option.some.inj (first.symm.trans ended)) within
        | cons head line =>
            obtain ⟨scalar, more, valid, octets, known⟩ := exists_encode_cons head line
            rw [octets, List.append_assoc, head?_decode_encodeScalar valid] at first
            rcases known with known | known
            · obtain rfl : head = unit := Option.some.inj (known.symm.trans first)
              rw [encode_plain plain, List.append_assoc] at same
              exact (List.prefix_cons_inj head).mpr
                (ih others line ⟨after, List.append_cancel_left same⟩)
            · exact absurd (Option.some.inj (known.symm.trans first)).symm kept
  · intro starts
    obtain ⟨more, rfl⟩ := starts
    rw [encode_append (Text.paired_of_forall (fun unit mem => (own unit mem).1)),
      List.append_assoc]
    exact List.prefix_append _ _

end Utf8

end NamingAdvice
