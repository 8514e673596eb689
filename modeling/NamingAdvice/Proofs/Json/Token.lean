import NamingAdvice.Json.Token
import NamingAdvice.Json.Writer
import NamingAdvice.Proofs.Number.Digits
import NamingAdvice.Proofs.Text.Encoding

/-! Tokens read back. What is written for a string, a number or a word is read as that token, in
front of any text that does not go on with it; and it leaves no surrogate without a partner.
-/

namespace NamingAdvice.Json.Token

/-- A text that starts with a token and goes on with another text. -/
def Starts (source : Text) (token : Token) (rest : Text) : Prop :=
  ∃ unit tail, source = unit :: tail ∧ isBlank unit = false ∧ next? unit tail = some (token, rest)

theorem starts_mark {unit : CodeUnit} {token : Token} (h : ofMark? unit = some token)
    (rest : Text)
    : Starts (unit :: rest) token rest := by
  refine ⟨unit, rest, rfl, ?_, by simp [next?, h]⟩
  cases blank : isBlank unit with
  | false => rfl
  | true =>
      simp only [isBlank, Bool.or_eq_true, beq_iff_eq] at blank
      rcases blank with ((rfl | rfl) | rfl) | rfl <;> contradiction

-----------------------------------------------------------------------------------------
-- Strings
-----------------------------------------------------------------------------------------

theorem digit?_hexDigit {value : Nat} (h : value < 0x10)
    : (hexDigit value).digit? 16 = some value := by
  have each : ∀ value < 0x10, (hexDigit value).digit? 16 = some value := by decide
  exact each value h

theorem readString?_escape {source rest : Text} {unit : CodeUnit}
    (h : readEscape? source = some (unit, rest))
    : readString? (0x5C :: source)
      = (readString? rest).map (fun (content, after) => (unit :: content, after)) := by
  rw [readString?, if_neg (by decide), if_pos (by decide)]
  split
  · next he => simp [h] at he
  · next escaped after he =>
      obtain ⟨rfl, rfl⟩ := Prod.mk.inj (Option.some.inj (h.symm.trans he))
      rfl

theorem readString?_plain {unit : CodeUnit} (quote : unit ≠ 0x22) (backslash : unit ≠ 0x5C)
    (control : ¬ unit < 0x20) (rest : Text)
    : readString? (unit :: rest)
      = (readString? rest).map (fun (content, after) => (unit :: content, after)) := by
  rw [readString?]
  simp [quote, backslash, control]

theorem readString?_escapeHex (unit : CodeUnit) (rest : Text)
    : readString? (escapeHex unit ++ rest)
      = (readString? rest).map (fun (content, after) => (unit :: content, after)) := by
  have size := unit.toNat_lt
  have value : 16 * (16 * (16 * (unit.toNat / 0x1000) + unit.toNat / 0x100 % 0x10)
      + unit.toNat / 0x10 % 0x10) + unit.toNat % 0x10 = unit.toNat := by omega
  apply readString?_escape
  simp [readEscape?, Text.valueIn?, digit?_hexDigit, Nat.mod_lt, value,
    show unit.toNat / 0x1000 < 0x10 by omega]

theorem readString?_escapeUnit (unit : CodeUnit) (rest : Text)
    : readString? (escapeUnit unit ++ rest)
      = (readString? rest).map (fun (content, after) => (unit :: content, after)) := by
  fun_cases escapeUnit unit with
  | case1 h =>
      apply readString?_escape
      simp only [Bool.or_eq_true, beq_iff_eq] at h
      rcases h with rfl | rfl <;> rfl
  | case2 _ h | case3 _ _ h | case4 _ _ _ h | case5 _ _ _ _ h | case6 _ _ _ _ _ h =>
      apply readString?_escape
      obtain rfl := eq_of_beq h
      rfl
  | case7 => exact readString?_escapeHex unit rest
  | case8 marked _ _ _ _ _ bare =>
      simp only [Bool.or_eq_true, not_or, beq_iff_eq, decide_eq_true_eq] at marked bare
      exact readString?_plain marked.1 marked.2 bare.1.1 rest

/-- A pair of surrogates stands for itself in a string. -/
theorem readString?_pair {high low : CodeUnit} (first : high.isHighSurrogate)
    (second : low.isLowSurrogate) (rest : Text)
    : readString? (high :: low :: rest)
      = (readString? rest).map (fun (content, after) => (high :: low :: content, after)) := by
  have upper := CodeUnit.toNat_of_isHighSurrogate first
  have lower := CodeUnit.toNat_of_isLowSurrogate second
  have bare {unit : CodeUnit} (h : 0xD800 ≤ unit.toNat) (rest : Text)
      : readString? (unit :: rest)
        = (readString? rest).map (fun (content, after) => (unit :: content, after)) := by
    apply readString?_plain
    · intro same
      simp [same] at h
    · intro same
      simp [same] at h
    · simp only [UInt16.lt_iff_toNat_lt, UInt16.reduceToNat]
      omega
  rw [bare upper.1, bare (by omega), Option.map_map]
  rfl

theorem readString?_quoted (content rest : Text)
    : readString? (content.codePoints.flatMap escapePoint ++ 0x22 :: rest)
      = some (content, rest) := by
  fun_induction Text.codePoints content with
  | case1 => simp [readString?]
  | case2 unit => simp [escapePoint, readString?_escapeUnit, readString?]
  | case3 first second tail paired ih =>
      simp only [Bool.and_eq_true] at paired
      simp [escapePoint, readString?_pair paired.1 paired.2, ih]
  | case4 first second tail _ ih =>
      simp [escapePoint, readString?_escapeUnit, ih]

theorem paired_escapeUnit (unit : CodeUnit) : Text.Paired (escapeUnit unit) := by
  fun_cases escapeUnit unit with
  | case1 h =>
      simp only [Bool.or_eq_true, beq_iff_eq] at h
      rcases h with rfl | rfl <;> exact Text.paired_of_all (by decide)
  | case2 _ h | case3 _ _ h | case4 _ _ _ h | case5 _ _ _ _ h | case6 _ _ _ _ _ h =>
      exact Text.paired_of_all (by decide)
  | case7 =>
      have digit : ∀ value < 0x10, (hexDigit value).IsPlain := by decide
      have size := unit.toNat_lt
      apply Text.paired_of_forall
      simp only [escapeHex, List.forall_mem_cons]
      refine ⟨by decide, by decide, digit _ (by omega), digit _ (by omega), digit _ (by omega),
        digit _ (by omega), by simp⟩
  | case8 _ _ _ _ _ _ bare =>
      simp only [Bool.or_eq_true, not_or, Bool.not_eq_true] at bare
      exact .plain ⟨bare.1.2, bare.2⟩ .nil

theorem paired_quote (content : Text) : Text.Paired (quote content) := by
  have body : Text.Paired (content.codePoints.flatMap escapePoint) := by
    fun_induction Text.codePoints content with
    | case1 => exact .nil
    | case2 unit => simpa [escapePoint] using paired_escapeUnit unit
    | case3 first second rest paired ih =>
        simp only [Bool.and_eq_true] at paired
        exact .pair paired.1 paired.2 ih
    | case4 first second rest _ ih => exact (paired_escapeUnit first).append ih
  exact .plain (by decide) (body.append (.plain (by decide) .nil))

theorem starts_quote (content rest : Text)
    : Starts (quote content ++ rest) (.string content) rest := by
  refine ⟨0x22, content.codePoints.flatMap escapePoint ++ 0x22 :: rest, by simp [quote], rfl, ?_⟩
  have mark : ofMark? 0x22 = none := rfl
  simp [next?, mark, readString?_quoted]

-----------------------------------------------------------------------------------------
-- Numbers
-----------------------------------------------------------------------------------------

/-- A text that does not start with a digit. -/
def EndsDigits (rest : Text) : Prop :=
  ∀ unit ∈ rest.head?, unit.isDecimalDigit = false

/-- A text that does not start with anything that could go on with a number. -/
def EndsNumber (rest : Text) : Prop :=
  ∀ unit ∈ rest.head?,
    unit.isDecimalDigit = false ∧ unit ≠ 0x2E ∧ unit ≠ 0x65 ∧ unit ≠ 0x45

theorem spanDigits_append {digits rest : Text} (hd : Text.IsDigits digits)
    (hr : EndsDigits rest)
    : Text.spanDigits (digits ++ rest) = (digits, rest) := by
  have stops : rest.takeWhile CodeUnit.isDecimalDigit = []
      ∧ rest.dropWhile CodeUnit.isDecimalDigit = rest := by
    cases rest with
    | nil => exact ⟨rfl, rfl⟩
    | cons unit tail => simp [hr unit rfl]
  simp [Text.spanDigits, List.takeWhile_append_of_pos hd, List.dropWhile_append_of_pos hd, stops]

/-- The parts of a number that is written without its sign. -/
structure NumberText where
  whole : Text
  fraction : Text
  power : Option Int

namespace NumberText

/-- The fraction, with its point if there is any. -/
def fractionText (parts : NumberText) : Text :=
  if parts.fraction = [] then [] else 0x2E :: parts.fraction

def powerText (parts : NumberText) : Text :=
  match parts.power with
  | none => []
  | some power => (if power < 0 then text "e-" else text "e+") ++ Text.ofNat power.natAbs

def text (parts : NumberText) : Text :=
  parts.whole ++ parts.fractionText ++ parts.powerText

/-- The parts are digits, without a needless zero in front. -/
structure WellFormed (parts : NumberText) : Prop where
  whole : Text.IsDigits parts.whole
  fraction : Text.IsDigits parts.fraction
  present : parts.whole ≠ []
  lead : parts.whole.head? = some 0x30 → parts.whole.length = 1

theorem powerText_some (parts : NumberText) {power : Int} (h : parts.power = some power)
    : parts.powerText
      = 0x65 :: (if power < 0 then 0x2D else 0x2B) :: Text.ofNat power.natAbs := by
  have minus : NamingAdvice.text "e-" = [0x65, 0x2D] := by decide
  have plus : NamingAdvice.text "e+" = [0x65, 0x2B] := by decide
  by_cases below : power < 0 <;> simp [powerText, h, below, minus, plus]

theorem readPower?_powerText (parts : NumberText) {rest : Text} (hr : EndsNumber rest)
    : Decimal.readPower? (parts.powerText ++ rest) = some (parts.power.getD 0, rest) := by
  cases h : parts.power with
  | none =>
      cases rest with
      | nil => simp [powerText, h, Decimal.readPower?]
      | cons unit tail => simp [powerText, h, Decimal.readPower?, (hr unit rfl).2.2]
  | some power =>
      have digits := spanDigits_append (Text.isDigits_ofNat power.natAbs)
        (fun unit first => (hr unit first).1)
      have value := Text.decimalValue_ofNat power.natAbs
      rw [powerText_some parts h]
      by_cases below : power < 0
      · simp [Decimal.readPower?, Decimal.readSign, below, digits, Text.ofNat_ne_nil, value,
          abs_of_neg]
      · simp [Decimal.readPower?, Decimal.readSign, below, digits, Text.ofNat_ne_nil, value,
          abs_of_nonneg (not_lt.mp below)]

theorem endsDigits_powerText (parts : NumberText) {rest : Text} (hr : EndsNumber rest)
    : ∀ unit ∈ (parts.powerText ++ rest).head?, unit.isDecimalDigit = false ∧ unit ≠ 0x2E := by
  intro unit first
  cases h : parts.power with
  | none =>
      simp only [powerText, h, List.nil_append] at first
      exact ⟨(hr unit first).1, (hr unit first).2.1⟩
  | some power =>
      rw [powerText_some parts h] at first
      obtain rfl := Option.some.inj first
      decide

theorem readFraction?_fractionText (parts : NumberText) (hd : Text.IsDigits parts.fraction)
    {rest : Text} (hr : EndsNumber rest)
    : readFraction? (parts.fractionText ++ (parts.powerText ++ rest))
      = some (parts.fraction, parts.powerText ++ rest) := by
  have stops := parts.endsDigits_powerText hr
  by_cases none : parts.fraction = []
  · rw [fractionText, if_pos none, List.nil_append, none]
    cases h : parts.powerText ++ rest with
    | nil => rfl
    | cons unit tail =>
        rw [h] at stops
        simp [readFraction?, (stops unit rfl).2]
  · have digits := spanDigits_append hd (fun unit first => (stops unit first).1)
    simp [fractionText, none, readFraction?, digits]

/-- A number is read from its sign and its parts. -/
theorem readNumber?_text (negative : Bool) {parts : NumberText} (h : parts.WellFormed)
    {rest : Text} (hr : EndsNumber rest)
    : readNumber? ((if negative then [0x2D] else []) ++ (parts.text ++ rest))
      = some
          (Decimal.ofParts negative parts.whole parts.fraction (parts.power.getD 0), rest) := by
  have minus : readMinus ((if negative then [0x2D] else []) ++ (parts.text ++ rest))
      = (negative, parts.whole ++ (parts.fractionText ++ (parts.powerText ++ rest))) := by
    cases negative with
    | true => simp [readMinus, text]
    | false =>
        obtain ⟨unit, tail, front⟩ := List.exists_cons_of_ne_nil h.present
        have differs : unit ≠ 0x2D := by
          intro same
          have digit := h.whole unit (by simp [front])
          rw [same] at digit
          contradiction
        simp [readMinus, text, front, differs]
  have stops : EndsDigits (parts.fractionText ++ (parts.powerText ++ rest)) := by
    intro unit first
    by_cases none : parts.fraction = []
    · simp only [fractionText, none, if_true, List.nil_append] at first
      exact (parts.endsDigits_powerText hr unit first).1
    · simp only [fractionText, none, if_false, List.cons_append, List.head?_cons] at first
      obtain rfl := Option.some.inj first
      rfl
  have accepted
      : (parts.whole.isEmpty
          || (parts.whole.head? == some 0x30 && decide (parts.whole.length > 1))) = false := by
    by_cases zero : parts.whole.head? = some 0x30
    · simp [h.present, h.lead zero]
    · simp [h.present, zero]
  simp [readNumber?, minus, spanDigits_append h.whole stops, accepted,
    parts.readFraction?_fractionText h.fraction hr, parts.readPower?_powerText hr]

/-- The parts hold given digits with nothing but zeros around them, and the power makes up for
the place of the point.
-/
structure Spells (parts : NumberText) (digits : Text) (exponent : Int) : Prop
    extends parts.WellFormed where
  padded
    : ∃ front back : Nat,
        parts.whole ++ parts.fraction
          = List.replicate front 0x30 ++ digits ++ List.replicate back 0x30
        ∧ parts.power.getD 0 - parts.fraction.length + back = exponent

theorem Spells.readNumber? {parts : NumberText} {digits : Text} {exponent : Int}
    (h : parts.Spells digits exponent) (present : digits ≠ [])
    (ends : digits.getLast? ≠ some 0x30) (negative : Bool) {rest : Text} (hr : EndsNumber rest)
    : readNumber? ((if negative then [0x2D] else []) ++ (parts.text ++ rest))
      = some
          (⟨if negative then -(Text.decimalValue digits : Int) else Text.decimalValue digits,
            exponent⟩, rest) := by
  obtain ⟨front, back, written, shift⟩ := h.padded
  rw [readNumber?_text negative h.toWellFormed hr,
    Decimal.ofParts_padded negative present ends written shift]

section Layouts

variable {digits : Text} (hd : Text.IsDigits digits) (present : digits ≠ [])
  (lead : digits.head? ≠ some 0x30)

include hd present lead

theorem spells_zeros {count : Nat} {exponent : Int} (shift : count = exponent)
    : Spells ⟨digits ++ List.replicate count 0x30, [], none⟩ digits exponent where
  whole := Text.isDigits_append_iff.mpr ⟨hd, Text.isDigits_replicate count⟩
  fraction := by simp [Text.IsDigits]
  present := by simp [present]
  lead := by
    intro zero
    rw [List.head?_append_of_ne_nil _ present] at zero
    exact absurd zero lead
  padded := ⟨0, count, by simp, by simpa using shift⟩

theorem spells_cut {place : Nat} {power : Option Int} {exponent : Int}
    (shift : power.getD 0 - (digits.length - (place + 1) : Nat) = exponent)
    : Spells ⟨digits.take (place + 1), digits.drop (place + 1), power⟩ digits exponent where
  whole := fun unit hm => hd unit (List.mem_of_mem_take hm)
  fraction := fun unit hm => hd unit (List.mem_of_mem_drop hm)
  present := by simp [present]
  lead := by
    intro zero
    rw [List.head?_take, if_neg (by omega)] at zero
    exact absurd zero lead
  padded := ⟨0, 0, by simp, by simpa using shift⟩

omit present lead in
theorem spells_small {count : Nat} {exponent : Int}
    (shift : -(count + digits.length : Nat) = exponent)
    : Spells ⟨[0x30], List.replicate count 0x30 ++ digits, none⟩ digits exponent where
  whole := Text.isDigits_replicate 1
  fraction := Text.isDigits_append_iff.mpr ⟨Text.isDigits_replicate count, hd⟩
  present := by simp
  lead := fun _ => rfl
  padded := ⟨count + 1, 0, by simp [List.replicate_succ], by simpa using shift⟩

/-- Every layout spells the digits, by its four cases. -/
theorem exists_spells_layout (point : Int)
    : ∃ parts : NumberText,
        Decimal.layout digits point = parts.text
        ∧ parts.Spells digits (point - digits.length) := by
  have count : 0 < digits.length := List.length_pos_iff.mpr present
  simp only [Decimal.layout, Bool.and_eq_true, decide_eq_true_eq]
  split
  · next whole =>
      refine ⟨⟨digits ++ List.replicate (point - digits.length).toNat 0x30, [], none⟩, ?_,
        spells_zeros hd present lead (by omega)⟩
      simp [text, fractionText, powerText]
  split
  · next inside =>
      obtain ⟨place, rfl⟩ : ∃ place : Nat, point = place + 1 := ⟨(point - 1).toNat, by omega⟩
      refine ⟨⟨digits.take (place + 1), digits.drop (place + 1), none⟩, ?_,
        spells_cut hd present lead (by simp only [Option.getD_none]; omega)⟩
      have behind : digits.drop (place + 1) ≠ [] := by
        rw [Ne, List.drop_eq_nil_iff]
        omega
      simp [text, fractionText, powerText, behind]
  split
  · next small =>
      refine ⟨⟨[0x30], List.replicate (-point).toNat 0x30 ++ digits, none⟩, ?_,
        spells_small hd (by omega)⟩
      have zero : NamingAdvice.text "0." = [0x30, 0x2E] := by decide
      simp [text, fractionText, powerText, present, zero]
  · refine ⟨⟨digits.take 1, digits.drop 1, some (point - 1)⟩, ?_,
      spells_cut hd present lead (by simp only [Option.getD_some]; omega)⟩
    have single : (digits.length : Int) = 1 ↔ digits.drop 1 = [] := by
      rw [List.drop_eq_nil_iff]
      omega
    simp only [text, fractionText, powerText, single, List.append_assoc]

end Layouts

end NumberText

/-- A decimal in its canonical form is read back from its text. -/
theorem readNumber?_toText {value : Decimal} (h : value.Canonical) {rest : Text}
    (hr : EndsNumber rest)
    : readNumber? (value.toText ++ rest) = some (value, rest) := by
  rcases h with rfl | last
  · have nought : NumberText.WellFormed ⟨[0x30], [], none⟩ :=
      ⟨Text.isDigits_replicate 1, by simp [Text.IsDigits], by simp, fun _ => rfl⟩
    exact NumberText.readNumber?_text false nought hr
  · have lead : (Text.ofNat value.mantissa.natAbs).head? ≠ some 0x30 :=
      Text.head?_ofNat_ne (by omega)
    obtain ⟨parts, written, spells⟩ :=
      NumberText.exists_spells_layout (Text.isDigits_ofNat _) (Text.ofNat_ne_nil _) lead
        ((Text.ofNat value.mantissa.natAbs).length + value.exponent)
    have sign : value.sign = if decide (value.mantissa < 0) then [0x2D] else [] := by
      simp [Decimal.sign]
    have mantissa : (if decide (value.mantissa < 0) then -(value.mantissa.natAbs : Int)
        else value.mantissa.natAbs) = value.mantissa := by
      simp only [decide_eq_true_eq]
      split <;> omega
    rw [Decimal.toText, sign, written, List.append_assoc,
      spells.readNumber? (Text.ofNat_ne_nil _) (Text.getLast?_ofNat_ne last) _ hr,
      Text.decimalValue_ofNat, mantissa, add_sub_cancel_left]

/-- A number is written with digits, signs, a point and a power mark. -/
theorem mem_toText {value : Decimal} {unit : CodeUnit} (h : unit ∈ value.toText)
    : unit.isDecimalDigit = true ∨ unit = 0x2D ∨ unit = 0x2B ∨ unit = 0x2E ∨ unit = 0x65 := by
  have marks
      : text "e-" = [0x65, 0x2D] ∧ text "e+" = [0x65, 0x2B] ∧ text "0." = [0x30, 0x2E] := by
    decide
  have zero : CodeUnit.isDecimalDigit 0x30 = true := rfl
  have digit {number : Nat} (mem : unit ∈ Text.ofNat number) : unit.isDecimalDigit = true :=
    Text.isDigits_ofNat number unit mem
  simp only [Decimal.toText, Decimal.sign, Decimal.layout] at h
  grind [List.mem_of_mem_take, List.mem_of_mem_drop]

theorem paired_toText (value : Decimal) : Text.Paired value.toText := by
  apply Text.paired_of_forall
  intro unit mem
  rcases mem_toText mem with digit | rfl | rfl | rfl | rfl
  · have range := (Text.isDecimalDigit_iff unit).mp digit
    exact CodeUnit.isPlain_of_lt (by omega)
  all_goals decide

/-- What can be read as a number starts with a minus sign or a digit. -/
theorem exists_of_readNumber? {source rest : Text} {value : Decimal}
    (h : readNumber? source = some (value, rest))
    : ∃ unit tail, source = unit :: tail ∧ (unit = 0x2D ∨ unit.isDecimalDigit = true) := by
  cases source with
  | nil => contradiction
  | cons unit tail =>
      refine ⟨unit, tail, rfl, ?_⟩
      by_contra other
      simp only [not_or, Bool.not_eq_true] at other
      simp [readNumber?, readMinus, other.1, Text.spanDigits, other.2] at h

theorem starts_number {value : Decimal} (h : value.Canonical) {rest : Text}
    (hr : EndsNumber rest)
    : Starts (value.toText ++ rest) (.number value) rest := by
  have read := readNumber?_toText h hr
  obtain ⟨unit, tail, front, first⟩ := exists_of_readNumber? read
  have range : unit.toNat = 0x2D ∨ 0x30 ≤ unit.toNat ∧ unit.toNat ≤ 0x39 := by
    rcases first with rfl | digit
    · exact .inl rfl
    · exact .inr ((Text.isDecimalDigit_iff unit).mp digit)
  have differs {other : CodeUnit} (h : other.toNat < 0x2D ∨ 0x39 < other.toNat) : unit ≠ other := by
    intro same
    rw [same] at range
    omega
  refine ⟨unit, tail, front, by simp [isBlank, differs], ?_⟩
  rw [front] at read
  have mark : ofMark? unit = none := by simp [ofMark?, differs]
  simp [next?, mark, differs, first, read]

-----------------------------------------------------------------------------------------
-- Words
-----------------------------------------------------------------------------------------

theorem starts_null (rest : Text) : Starts (text "null" ++ rest) .null rest :=
  ⟨0x6E, _, rfl, rfl, rfl⟩

theorem starts_bool (value : Bool) (rest : Text)
    : Starts ((if value then text "true" else text "false") ++ rest) (.bool value) rest := by
  cases value with
  | true => exact ⟨0x74, _, rfl, rfl, rfl⟩
  | false => exact ⟨0x66, _, rfl, rfl, rfl⟩

end NamingAdvice.Json.Token
