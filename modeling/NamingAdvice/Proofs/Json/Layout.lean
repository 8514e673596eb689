import NamingAdvice.Proofs.Json.ReadBack

/-! The layout of JSON text. What a value is written as with any indent is what it is written as
with none, once the blanks outside of strings are taken out; the blanks inside of strings stay.
-/

namespace NamingAdvice.Json

/-- Where a unit of JSON text stands: outside of strings, in a string, or behind a backslash in a
string.
-/
inductive Place where
  | outside
  | inside
  | escaped
deriving DecidableEq, Repr

/-- Where the unit behind a given one stands. -/
def Place.next : Place → CodeUnit → Place
  | .outside, unit => if unit == 0x22 then .inside else .outside
  | .inside, unit =>
      if unit == 0x22 then .outside else if unit == 0x5C then .escaped else .inside
  | .escaped, _ => .inside

/-- Takes out the blanks that stand outside of strings. -/
def unspacedFrom (place : Place) : Text → Text
  | [] => []
  | unit :: rest =>
      if place == .outside && Token.isBlank unit then unspacedFrom place rest
      else unit :: unspacedFrom (place.next unit) rest

def unspaced (source : Text) : Text :=
  unspacedFrom .outside source

/-- A text that is left as another one in front of anything that follows, outside of strings. -/
def Squeezes (spaced dense : Text) : Prop :=
  ∀ rest, unspaced (spaced ++ rest) = dense ++ unspaced rest

namespace Squeezes

theorem nil : Squeezes [] [] :=
  fun _ => rfl

theorem append {spaced more dense denseMore : Text} (first : Squeezes spaced dense)
    (second : Squeezes more denseMore)
    : Squeezes (spaced ++ more) (dense ++ denseMore) := by
  intro rest
  rw [List.append_assoc, first, second, List.append_assoc]

theorem blank {unit : CodeUnit} (h : Token.isBlank unit = true) {spaced dense : Text}
    (tail : Squeezes spaced dense)
    : Squeezes (unit :: spaced) dense := by
  intro rest
  simpa [unspaced, unspacedFrom, h] using tail rest

/-- What is neither a blank nor a quote stays. -/
theorem mark {unit : CodeUnit} (h : Token.isBlank unit = false ∧ unit ≠ 0x22)
    {spaced dense : Text} (tail : Squeezes spaced dense)
    : Squeezes (unit :: spaced) (unit :: dense) := by
  intro rest
  simpa [unspaced, unspacedFrom, Place.next, h] using tail rest

theorem marks {marks : Text} (h : ∀ unit ∈ marks, Token.isBlank unit = false ∧ unit ≠ 0x22)
    : Squeezes marks marks := by
  induction marks with
  | nil => exact nil
  | cons unit marks ih =>
      obtain ⟨first, others⟩ := List.forall_mem_cons.mp h
      exact mark first (ih others)

theorem words (words : Text)
    (h : words.all (fun unit => !Token.isBlank unit && unit != 0x22) = true)
    : Squeezes words words :=
  marks (by simpa using h)

theorem blanks {blanks : Text} (h : ∀ unit ∈ blanks, Token.isBlank unit = true)
    : Squeezes blanks [] := by
  induction blanks with
  | nil => exact nil
  | cons unit blanks ih =>
      obtain ⟨first, others⟩ := List.forall_mem_cons.mp h
      exact blank first (ih others)

end Squeezes

-----------------------------------------------------------------------------------------
-- Strings
-----------------------------------------------------------------------------------------

theorem unspacedFrom_inside {unit : CodeUnit} (quote : unit ≠ 0x22) (backslash : unit ≠ 0x5C)
    (rest : Text)
    : unspacedFrom .inside (unit :: rest) = unit :: unspacedFrom .inside rest := by
  simp [unspacedFrom, Place.next, quote, backslash]

theorem unspacedFrom_escape (unit : CodeUnit) (rest : Text)
    : unspacedFrom .inside (0x5C :: unit :: rest) = 0x5C :: unit :: unspacedFrom .inside rest := by
  simp [unspacedFrom, Place.next]

theorem unspacedFrom_escapeUnit (unit : CodeUnit) (rest : Text)
    : unspacedFrom .inside (escapeUnit unit ++ rest)
      = escapeUnit unit ++ unspacedFrom .inside rest := by
  fun_cases escapeUnit unit with
  | case1 | case2 | case3 | case4 | case5 | case6 => exact unspacedFrom_escape _ rest
  | case7 =>
      have digit : ∀ value < 0x10, hexDigit value ≠ 0x22 ∧ hexDigit value ≠ 0x5C := by decide
      have plain {value : Nat} (h : value < 0x10) (rest : Text)
          : unspacedFrom .inside (hexDigit value :: rest)
            = hexDigit value :: unspacedFrom .inside rest :=
        unspacedFrom_inside (digit value h).1 (digit value h).2 rest
      have size := unit.toNat_lt
      simp only [escapeHex, List.cons_append, List.nil_append, unspacedFrom_escape]
      rw [plain (by omega), plain (by omega), plain (by omega), plain (by omega)]
  | case8 marked =>
      simp only [Bool.or_eq_true, not_or, beq_iff_eq] at marked
      exact unspacedFrom_inside marked.1 marked.2 rest

/-- A quoted text stays as it is, with all its blanks. -/
theorem squeezes_quote (content : Text) : Squeezes (quote content) (quote content) := by
  have surrogate {unit : CodeUnit} (h : 0xD800 ≤ unit.toNat) (rest : Text)
      : unspacedFrom .inside (unit :: rest) = unit :: unspacedFrom .inside rest := by
    apply unspacedFrom_inside
    · intro same
      simp [same] at h
    · intro same
      simp [same] at h
  have body (rest : Text)
      : unspacedFrom .inside (content.codePoints.flatMap escapePoint ++ rest)
        = content.codePoints.flatMap escapePoint ++ unspacedFrom .inside rest := by
    fun_induction Text.codePoints content with
    | case1 => rfl
    | case2 unit => simp [escapePoint, unspacedFrom_escapeUnit]
    | case3 first second tail paired ih =>
        simp only [Bool.and_eq_true] at paired
        have upper := CodeUnit.toNat_of_isHighSurrogate paired.1
        have lower := CodeUnit.toNat_of_isLowSurrogate paired.2
        simp only [List.flatMap_cons, escapePoint, List.cons_append, List.nil_append]
        rw [surrogate upper.1, surrogate (by omega), ih]
    | case4 first second tail _ ih =>
        simp [escapePoint, unspacedFrom_escapeUnit, ih]
  intro rest
  have close : unspacedFrom .inside (0x22 :: rest) = 0x22 :: unspaced rest := rfl
  have start (source : Text)
      : unspaced (0x22 :: source) = 0x22 :: unspacedFrom .inside source := rfl
  simp [quote, start, body, close]

-----------------------------------------------------------------------------------------
-- Values
-----------------------------------------------------------------------------------------

theorem squeezes_toText (value : Decimal) : Squeezes value.toText value.toText := by
  refine Squeezes.marks ?_
  intro unit mem
  rcases Token.mem_toText mem with digit | rfl | rfl | rfl | rfl
  · have range := (Text.isDecimalDigit_iff unit).mp digit
    have differs {other : CodeUnit} (h : other.toNat < 0x30) : unit ≠ other := by
      intro same
      rw [same] at range
      omega
    simp [Token.isBlank, differs]
  all_goals decide

theorem squeezes_lineBreak (indent depth : Nat)
    : Squeezes (lineBreak indent depth) (lineBreak 0 depth) :=
  Squeezes.blanks (fun _ hm => isBlank_of_mem_lineBreak hm)

theorem squeezes_keyMark (indent : Nat) : Squeezes (keyMark indent) (keyMark 0) := by
  unfold keyMark
  split
  · exact .mark (by decide) .nil
  · exact .mark (by decide) (.blank (by decide) .nil)

mutual

theorem squeezes_writeAt (indent depth : Nat) (value : Json)
    : Squeezes (value.writeAt indent depth) (value.writeAt 0 depth) := by
  match value with
  | .null => exact .words (text "null") (by decide)
  | .bool true => exact .words (text "true") (by decide)
  | .bool false => exact .words (text "false") (by decide)
  | .number value => exact squeezes_toText value
  | .string value => exact squeezes_quote value
  | .array [] => exact .words (text "[]") (by decide)
  | .array (item :: items) =>
      rw [writeAt, writeAt]
      exact .mark (by decide)
        ((((squeezes_lineBreak indent _).append (squeezes_writeAt indent _ item)).append
          (squeezes_writeItems indent _ items)).append (squeezes_lineBreak indent _)
          |>.append (.mark (by decide) .nil))
  | .object [] => exact .words (text "\x7b\x7d") (by decide)
  | .object ((key, value) :: members) =>
      rw [writeAt, writeAt]
      exact .mark (by decide)
        ((((((squeezes_lineBreak indent _).append (squeezes_quote key)).append
          (squeezes_keyMark indent)).append (squeezes_writeAt indent _ value)).append
          (squeezes_writeMembers indent _ members)).append (squeezes_lineBreak indent _)
          |>.append (.mark (by decide) .nil))

theorem squeezes_writeItems (indent depth : Nat) (items : List Json)
    : Squeezes (writeItems indent depth items) (writeItems 0 depth items) := by
  match items with
  | [] => exact .nil
  | item :: items =>
      rw [writeItems, writeItems]
      exact .mark (by decide)
        (((squeezes_lineBreak indent depth).append (squeezes_writeAt indent depth item)).append
          (squeezes_writeItems indent depth items))

theorem squeezes_writeMembers (indent depth : Nat) (members : List (Text × Json))
    : Squeezes (writeMembers indent depth members) (writeMembers 0 depth members) := by
  match members with
  | [] => exact .nil
  | (key, value) :: members =>
      rw [writeMembers, writeMembers]
      exact .mark (by decide)
        (((((squeezes_lineBreak indent depth).append (squeezes_quote key)).append
          (squeezes_keyMark indent)).append (squeezes_writeAt indent depth value)).append
          (squeezes_writeMembers indent depth members))

end

/-- Whatever the indent, without its blanks the text of a value is the one with no indent. -/
theorem unspaced_write (indent : Nat) (value : Json) {blanks : Text}
    (h : ∀ unit ∈ blanks, Token.isBlank unit = true)
    : unspaced (value.write indent ++ blanks) = value.write 0 := by
  have bare : unspaced blanks = [] := by simpa [unspaced, unspacedFrom] using Squeezes.blanks h []
  rw [write, squeezes_writeAt, bare, List.append_nil, write]

end NamingAdvice.Json
