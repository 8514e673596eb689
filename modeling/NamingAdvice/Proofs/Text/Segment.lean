import NamingAdvice.Number.Digits

/-! Texts made of segments, each behind a slash. Segments without slashes can be told apart
again by cutting at the slashes; decimal numbers are such segments, and different numbers are
different segments.
-/

namespace NamingAdvice.Text

/-- The unit that stands in front of every segment. -/
def slash : CodeUnit := 0x2F

/-- Segments in a row, each behind a slash. -/
def slashed (segments : List Text) : Text :=
  segments.flatMap (slash :: ·)

theorem text_slash : text "/" = [slash] := by
  decide

-----------------------------------------------------------------------------------------
-- Cutting at the slashes
-----------------------------------------------------------------------------------------

theorem parts_of_not_mem {separator : CodeUnit} {part : Text} (h : separator ∉ part)
    : parts separator part = [part] := by
  induction part with
  | nil => rfl
  | cons unit rest ih =>
      simp only [List.mem_cons, not_or] at h
      simp [parts, ih h.2, Ne.symm h.1]

theorem parts_ne_nil (separator : CodeUnit) (rest : Text) : parts separator rest ≠ [] := by
  cases rest with
  | nil => simp [parts]
  | cons unit rest =>
      rw [parts]
      split
      · simp
      · split <;> simp

/-- A separator cuts whatever stands on both sides of it. -/
theorem parts_append_separator (separator : CodeUnit) (left right : Text)
    : parts separator (left ++ separator :: right)
      = parts separator left ++ parts separator right := by
  induction left with
  | nil => simp [parts]
  | cons unit rest ih =>
      rw [List.cons_append, parts, parts, ih]
      split
      · rfl
      · cases hp : parts separator rest with
        | nil => exact absurd hp (parts_ne_nil separator rest)
        | cons part more => rfl

/-- Cutting a row of segments behind a first part gives the parts back, by induction on the
segments.
-/
theorem parts_append_slashed {part : Text} {segments : List Text} (hp : slash ∉ part)
    (hs : ∀ segment ∈ segments, slash ∉ segment)
    : parts slash (part ++ slashed segments) = part :: segments := by
  induction segments generalizing part with
  | nil => simpa [slashed] using parts_of_not_mem hp
  | cons segment rest ih =>
      have hrest := ih (hs segment (by simp)) (fun other ho => hs other (by simp [ho]))
      calc parts slash (part ++ slashed (segment :: rest))
          = parts slash (part ++ slash :: (segment ++ slashed rest)) := by simp [slashed]
        _ = part :: parts slash (segment ++ slashed rest) := by
          rw [parts_append_separator, parts_of_not_mem hp, List.singleton_append]
        _ = part :: segment :: rest := by rw [hrest]

/-- Rows of segments without slashes are equal only if their segments are. -/
theorem slashed_injective {left right : List Text}
    (hl : ∀ segment ∈ left, slash ∉ segment) (hr : ∀ segment ∈ right, slash ∉ segment)
    (h : slashed left = slashed right)
    : left = right := by
  have cut := congrArg (parts slash) h
  have pl := parts_append_slashed (List.not_mem_nil (a := slash)) hl
  have pr := parts_append_slashed (List.not_mem_nil (a := slash)) hr
  rw [List.nil_append] at pl pr
  rw [pl, pr] at cut
  exact (List.cons.inj cut).2

theorem slashed_append (left right : List Text)
    : slashed (left ++ right) = slashed left ++ slashed right :=
  List.flatMap_append

theorem not_mem_slashed {unit : CodeUnit} {segments : List Text} (hu : unit ≠ slash)
    (hs : ∀ segment ∈ segments, unit ∉ segment)
    : unit ∉ slashed segments := by
  intro h
  obtain ⟨segment, listed, h⟩ := List.mem_flatMap.mp h
  rcases List.mem_cons.mp h with h | h
  · exact hu h
  · exact hs segment listed h

/-- Texts joined by slashes are a row of segments without the first slash. -/
theorem slash_join (first : Text) (rest : List Text)
    : text "/" ++ join (text "/") (first :: rest) = slashed (first :: rest) := by
  rw [text_slash]
  induction rest generalizing first with
  | nil => simp [join, slashed]
  | cons second rest ih => simpa [join, slashed] using ih second

/-- The parts of a text in a row are the text again, behind a slash. -/
theorem slashed_parts (rest : Text) : slashed (parts slash rest) = slash :: rest := by
  induction rest with
  | nil => rfl
  | cons unit rest ih =>
      by_cases hu : unit = slash
      · simpa [parts, hu, slashed] using ih
      · cases hp : parts slash rest with
        | nil => exact absurd hp (parts_ne_nil slash rest)
        | cons part more => simpa [parts, hu, hp, slashed] using ih

theorem not_mem_of_mem_parts {separator : CodeUnit} {rest part : Text}
    (h : part ∈ parts separator rest)
    : separator ∉ part := by
  induction rest generalizing part with
  | nil =>
      rw [List.mem_singleton.mp h]
      exact List.not_mem_nil
  | cons unit rest ih =>
      rw [parts] at h
      split at h
      · rcases List.mem_cons.mp h with rfl | h
        · exact List.not_mem_nil
        · exact ih h
      · next hu =>
          have differ : separator ≠ unit := fun he => hu (by simp [he])
          split at h
          · rw [List.mem_singleton.mp h]
            simpa using differ
          · next first more hp =>
              rw [hp] at ih
              rcases List.mem_cons.mp h with rfl | h
              · simpa [differ] using ih List.mem_cons_self
              · exact ih (List.mem_cons_of_mem _ h)

/-- A path is a given one, or goes on from it by whole segments. -/
def Within (start path : Text) : Prop :=
  path = start ∨ ∃ rest, path = start ++ slash :: rest

/-- A row of segments lies within another exactly if it has the same segments in front. -/
theorem within_slashed_iff {base : Text} {left right : List Text}
    (hl : ∀ segment ∈ left, slash ∉ segment) (hr : ∀ segment ∈ right, slash ∉ segment)
    : Within (base ++ slashed left) (base ++ slashed right) ↔ left <+: right := by
  apply Iff.intro
  · intro h
    rcases h with same | ⟨rest, longer⟩
    · have equal := slashed_injective hr hl (List.append_cancel_left same)
      exact equal ▸ List.prefix_refl right
    · rw [← slashed_parts rest, List.append_assoc, ← slashed_append] at longer
      have joined := slashed_injective hr ?_ (List.append_cancel_left longer)
      · exact ⟨parts slash rest, joined.symm⟩
      · intro segment hs
        rcases List.mem_append.mp hs with hs | hs
        · exact hl segment hs
        · exact not_mem_of_mem_parts hs
  · intro h
    obtain ⟨more, rfl⟩ := h
    rw [slashed_append, ← List.append_assoc]
    cases more with
    | nil => exact .inl (List.append_nil _)
    | cons segment rest => exact .inr ⟨segment ++ slashed rest, by simp [slashed]⟩

-----------------------------------------------------------------------------------------
-- Decimal numbers as segments
-----------------------------------------------------------------------------------------

theorem isDigit_of_mem_toDigits {value : Nat} {digit : Char}
    (h : digit ∈ Nat.toDigits 10 value)
    : 0x30 ≤ digit.toNat ∧ digit.toNat ≤ 0x39 := by
  have hd := Nat.isDigit_of_mem_toDigits (by decide) (by decide) h
  simpa [Char.isDigit, UInt32.le_iff_toNat_le] using hd

theorem toNat_unit_of_mem_toDigits {value : Nat} {digit : Char}
    (h : digit ∈ Nat.toDigits 10 value)
    : (UInt16.ofNat digit.toNat).toNat = digit.toNat := by
  have bounds := isDigit_of_mem_toDigits h
  exact UInt16.toNat_ofNat_of_lt (Nat.lt_of_le_of_lt bounds.2 (by decide))

/-- The digits of a number have that number as their value. -/
theorem decimalValue_ofNat (value : Nat) : decimalValue (ofNat value) = value := by
  have fold (digits : List Char) (start : Nat)
      (h : ∀ digit ∈ digits, (UInt16.ofNat digit.toNat).toNat = digit.toNat)
      : (digits.map (fun digit => UInt16.ofNat digit.toNat)).foldl
          (fun value unit => 10 * value + (unit.toNat - 0x30)) start
        = Nat.ofDigitChars 10 digits start := by
    induction digits generalizing start with
    | nil => rfl
    | cons digit rest ih =>
        rw [Nat.ofDigitChars_cons, ← ih _ (fun other ho => h other (by simp [ho]))]
        simp only [List.map_cons, List.foldl_cons, h digit (by simp)]
        rfl
  rw [decimalValue, ofNat, fold _ 0 (fun _ h => toNat_unit_of_mem_toDigits h)]
  exact Nat.ofDigitChars_ten_toDigits

theorem ofNat_injective {left right : Nat} (h : ofNat left = ofNat right) : left = right := by
  rw [← decimalValue_ofNat left, h, decimalValue_ofNat]

theorem slash_not_mem_ofNat (value : Nat) : slash ∉ ofNat value := by
  intro h
  obtain ⟨digit, hd, he⟩ := List.mem_map.mp h
  have bounds := isDigit_of_mem_toDigits hd
  have hv := congrArg UInt16.toNat he
  rw [toNat_unit_of_mem_toDigits hd] at hv
  have hs : slash.toNat = 0x2F := rfl
  omega

end NamingAdvice.Text
