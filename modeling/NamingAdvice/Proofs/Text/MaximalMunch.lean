import Mathlib.Data.List.Chain
import NamingAdvice.Text.CodePoint

/-! The code points of a text are its only segmentation into single units and surrogate pairs that
leaves no pair torn apart. The condition looks at neighbours only and mentions no direction of
reading. So two texts in a row have the code points of both, unless a pair reaches across the place
where they meet.
-/

namespace NamingAdvice

namespace CodeUnit

theorem toNat_of_isHighSurrogate {unit : CodeUnit} (h : unit.isHighSurrogate)
    : 0xD800 ≤ unit.toNat ∧ unit.toNat ≤ 0xDBFF := by
  simpa [isHighSurrogate, UInt16.le_iff_toNat_le] using h

theorem toNat_of_isLowSurrogate {unit : CodeUnit} (h : unit.isLowSurrogate)
    : 0xDC00 ≤ unit.toNat ∧ unit.toNat ≤ 0xDFFF := by
  simpa [isLowSurrogate, UInt16.le_iff_toNat_le] using h

theorem isLowSurrogate_eq_false_of_isHighSurrogate {unit : CodeUnit}
    (h : unit.isHighSurrogate = true)
    : unit.isLowSurrogate = false := by
  rw [Bool.eq_false_iff]
  intro low
  have upper := toNat_of_isHighSurrogate h
  have lower := toNat_of_isLowSurrogate low
  omega

end CodeUnit

theorem CodePoint.units_injective : Function.Injective CodePoint.units := by
  intro left right h
  cases left <;> cases right <;> simp_all [CodePoint.units]

namespace Text

/-- A segment that stands for a code point: a single unit, or the two halves of a pair. -/
def IsElement (segment : Text) : Prop :=
  (∃ unit, segment = [unit])
  ∨ ∃ high low, segment = [high, low] ∧ high.isHighSurrogate = true ∧ low.isLowSurrogate = true

/-- Single units side by side that are the two halves of a pair. -/
def Torn (first second : Text) : Prop :=
  ∃ high low,
    first = [high] ∧ second = [low]
    ∧ high.isHighSurrogate = true ∧ low.isLowSurrogate = true

/-- A text that ends in a high surrogate, in front of one that begins with a low surrogate. -/
def Straddled (left right : Text) : Prop :=
  ∃ high low,
    left.getLast? = some high ∧ right.head? = some low
    ∧ high.isHighSurrogate = true ∧ low.isLowSurrogate = true

/-- Segments that make up a text, each for one code point, and none of them torn from the next. -/
structure IsSegmentation (whole : Text) (segments : List Text) : Prop where
  flatten_eq : segments.flatten = whole
  elements : ∀ segment ∈ segments, IsElement segment
  untorn : segments.IsChain (fun first second => ¬ Torn first second)

-----------------------------------------------------------------------------------------
-- Segments side by side
-----------------------------------------------------------------------------------------

theorem IsElement.ne_nil {segment : Text} (h : IsElement segment) : segment ≠ [] := by
  rcases h with ⟨unit, rfl⟩ | ⟨high, low, rfl, -⟩ <;> simp

theorem IsElement.isSegmentation {segment : Text} (h : IsElement segment)
    : IsSegmentation segment [segment] where
  flatten_eq := List.flatten_singleton
  elements := List.forall_mem_singleton.mpr h
  untorn := .singleton segment

/-- A pair ends in its low half and begins with its high half, so what reaches across two segments
is torn.
-/
theorem straddled_iff_torn {first second : Text} (hf : IsElement first) (hs : IsElement second)
    : Straddled first second ↔ Torn first second := by
  constructor
  · intro h
    obtain ⟨high, low, last, head, upper, lower⟩ := h
    rcases hf with ⟨unit, rfl⟩ | ⟨other, final, rfl, -, wrong⟩
    · rcases hs with ⟨start, rfl⟩ | ⟨start, other, rfl, wrong, -⟩
      · obtain rfl : unit = high := by simpa using last
        obtain rfl : start = low := by simpa using head
        exact ⟨unit, start, rfl, rfl, upper, lower⟩
      · obtain rfl : start = low := by simpa using head
        rw [CodeUnit.isLowSurrogate_eq_false_of_isHighSurrogate wrong] at lower
        contradiction
    · obtain rfl : final = high := by simpa using last
      rw [CodeUnit.isLowSurrogate_eq_false_of_isHighSurrogate upper] at wrong
      contradiction
  · intro h
    obtain ⟨high, low, rfl, rfl, upper, lower⟩ := h
    exact ⟨high, low, rfl, rfl, upper, lower⟩

/-- Where two rows of segments meet, the last one of the first row stands in front of the first one
of the second.
-/
theorem straddled_flatten_iff {left right : List Text} (hl : ∀ segment ∈ left, IsElement segment)
    (hr : ∀ segment ∈ right, IsElement segment)
    : Straddled left.flatten right.flatten
      ↔ ∃ first ∈ left.getLast?, ∃ second ∈ right.head?, Torn first second := by
  rcases List.eq_nil_or_concat' left with rfl | ⟨front, first, rfl⟩
  · simp [Straddled]
  cases right with
  | nil => simp [Straddled]
  | cons second rest =>
      have own := hl first (by simp)
      have next := hr second (by simp)
      have last : (front ++ [first]).flatten.getLast? = first.getLast? := by
        rw [List.flatten_append, List.flatten_singleton,
          List.getLast?_append_of_ne_nil _ own.ne_nil]
      have head : (second :: rest).flatten.head? = second.head? := by
        rw [List.flatten_cons, List.head?_append_of_ne_nil _ next.ne_nil]
      have same : Straddled (front ++ [first]).flatten (second :: rest).flatten
          ↔ Straddled first second := by
        simp only [Straddled, last, head]
      rw [same, straddled_iff_torn own next]
      simp

/-- Segmentations in a row segment the texts in a row, unless a pair reaches across. -/
theorem IsSegmentation.append_iff {left right : Text} {first second : List Text}
    (hl : IsSegmentation left first) (hr : IsSegmentation right second)
    : IsSegmentation (left ++ right) (first ++ second) ↔ ¬ Straddled left right := by
  obtain ⟨rfl, le, lc⟩ := hl
  obtain ⟨rfl, re, rc⟩ := hr
  rw [straddled_flatten_iff le re]
  constructor
  · intro h across
    obtain ⟨last, hm, head, hh, torn⟩ := across
    exact (List.isChain_append.mp h.untorn).2.2 last hm head hh torn
  · intro h
    refine ⟨List.flatten_append, ?_, List.isChain_append.mpr ⟨lc, rc, ?_⟩⟩
    · exact List.forall_mem_append.mpr ⟨le, re⟩
    · intro last hm head hh torn
      exact h ⟨last, hm, head, hh, torn⟩

-----------------------------------------------------------------------------------------
-- The code points are the only segmentation
-----------------------------------------------------------------------------------------

theorem codePoints_pair {high low : CodeUnit} (first : high.isHighSurrogate)
    (second : low.isLowSurrogate) (rest : Text)
    : codePoints (high :: low :: rest) = .pair high low :: codePoints rest := by
  simp [codePoints, first, second]

/-- A unit that is no first half of a pair is a code point of its own. -/
theorem codePoints_cons_of_not_straddled {unit : CodeUnit} {rest : Text}
    (h : ¬ Straddled [unit] rest)
    : codePoints (unit :: rest) = .single unit :: codePoints rest := by
  cases rest with
  | nil => rfl
  | cons second rest =>
      have apart : (unit.isHighSurrogate && second.isLowSurrogate) = false := by
        rw [Bool.eq_false_iff, ne_eq, Bool.and_eq_true]
        intro paired
        exact h ⟨unit, second, rfl, rfl, paired.1, paired.2⟩
      simp [codePoints, apart]

/-- Any segmentation consists of the code points, by induction on its segments: a single unit is
not torn from the segment behind it, so reading from the left cuts there too.
-/
theorem IsSegmentation.eq_codePoints {whole : Text} {segments : List Text}
    (h : IsSegmentation whole segments)
    : segments = whole.codePoints.map CodePoint.units := by
  obtain ⟨rfl, elements, untorn⟩ := h
  induction segments with
  | nil => rfl
  | cons segment rest ih =>
      obtain ⟨own, others⟩ := List.forall_mem_cons.mp elements
      obtain ⟨next, later⟩ := List.isChain_cons.mp untorn
      have tail := ih others later
      rcases own with ⟨unit, rfl⟩ | ⟨high, low, rfl, upper, lower⟩
      · have apart : ¬ Straddled [unit] rest.flatten := by
          intro across
          have row : Straddled [[unit]].flatten rest.flatten := across
          obtain ⟨first, hf, second, hs, torn⟩ :=
            (straddled_flatten_iff (by simp [IsElement]) others).mp row
          obtain rfl : [unit] = first := by simpa using hf
          exact next second hs torn
        rw [List.flatten_cons, List.singleton_append, codePoints_cons_of_not_straddled apart,
          List.map_cons, ← tail]
        rfl
      · rw [List.flatten_cons, List.cons_append, List.cons_append, List.nil_append,
          codePoints_pair upper lower, List.map_cons, ← tail]
        rfl

/-- The code points are a segmentation, by induction along the reading. Each step puts a segment in
front of those of the rest.
-/
theorem isSegmentation_codePoints (whole : Text)
    : IsSegmentation whole (whole.codePoints.map CodePoint.units) := by
  have single (unit : CodeUnit) : IsElement [unit] := .inl ⟨unit, rfl⟩
  fun_induction codePoints whole with
  | case1 => exact ⟨rfl, List.forall_mem_nil _, .nil⟩
  | case2 unit => exact (single unit).isSegmentation
  | case3 high low rest paired ih =>
      rw [Bool.and_eq_true] at paired
      have pair : IsElement [high, low] := .inr ⟨high, low, rfl, paired⟩
      refine (pair.isSegmentation.append_iff ih).mpr ?_
      intro across
      obtain ⟨last, -, end_eq, -, upper, -⟩ := across
      obtain rfl : low = last := by simpa using end_eq
      rw [CodeUnit.isLowSurrogate_eq_false_of_isHighSurrogate upper] at paired
      exact Bool.false_ne_true paired.2
  | case4 unit second rest alone ih =>
      refine ((single unit).isSegmentation.append_iff ih).mpr ?_
      intro across
      obtain ⟨high, low, end_eq, start_eq, upper, lower⟩ := across
      obtain rfl : unit = high := by simpa using end_eq
      obtain rfl : second = low := by simpa using start_eq
      exact alone (by simp [upper, lower])

theorem isSegmentation_iff (whole : Text) (segments : List Text)
    : IsSegmentation whole segments ↔ segments = whole.codePoints.map CodePoint.units := by
  constructor
  · exact IsSegmentation.eq_codePoints
  · intro h
    rw [h]
    exact isSegmentation_codePoints whole

/-- A code point of a text, written on its own, is read as that code point. -/
theorem codePoints_units_of_mem {whole : Text} {point : CodePoint} (h : point ∈ whole.codePoints)
    : point.units.codePoints = [point] := by
  have element : IsElement point.units :=
    (isSegmentation_codePoints whole).elements _ (List.mem_map_of_mem h)
  have alone := element.isSegmentation.eq_codePoints
  rw [← List.map_singleton, (List.map_injective_iff.mpr CodePoint.units_injective).eq_iff] at alone
  exact alone.symm

theorem codePoints_append_iff (left right : Text)
    : (left ++ right).codePoints = left.codePoints ++ right.codePoints
      ↔ ¬ Straddled left right := by
  rw [← (isSegmentation_codePoints left).append_iff (isSegmentation_codePoints right),
    isSegmentation_iff, ← List.map_append,
    (List.map_injective_iff.mpr CodePoint.units_injective).eq_iff, eq_comm]

/-- Every text has exactly one segmentation into single units and surrogate pairs that leaves no
pair torn apart, and that is the one into its code points. So the code points of two texts in a row
are those of both, except exactly where the first text ends in a high surrogate and the second
begins with a low one.
-/
theorem codePoints_only_segmentation
    : (∀ whole segments,
        IsSegmentation whole segments ↔ segments = whole.codePoints.map CodePoint.units)
      ∧ ∀ left right : Text,
          (left ++ right).codePoints = left.codePoints ++ right.codePoints
          ↔ ¬ Straddled left right :=
  ⟨isSegmentation_iff, codePoints_append_iff⟩

/-- Of two high surrogates in front of a low one, the second makes the pair. -/
example
    : codePoints [0xD835, 0xD835, 0xDC00] = [.single 0xD835, .pair 0xD835 0xDC00] := by
  decide

end Text

end NamingAdvice
