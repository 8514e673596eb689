import Mathlib.Data.List.Forall2
import NamingAdvice.Proofs.Declaration.Accumulation

/-! What the readers of fields make out. Each reader has one lemma that says which values it
takes for what; a field that may be left out reads as if its default were written there. The
reader of a node is put together from these, children included.
-/

namespace NamingAdvice

-----------------------------------------------------------------------------------------
-- Labels
-----------------------------------------------------------------------------------------

/-- A list of labels and a search in it agree with the labels of a type. -/
structure Labelling {α : Type} (labels : List Text) (ofLabel? : Text → Option α)
    (label : α → Text)
    : Prop where
  found : ∀ given value, ofLabel? given = some value ↔ given = label value
  listed : ∀ given, given ∈ labels ↔ ∃ value, given = label value

/-- A search by label finds everything if it finds every value by its own label. -/
theorem Labelling.of_find? {α : Type} (all : List α) (label : α → Text)
    (h : ∀ value, all.find? (label · == label value) = some value)
    : Labelling (all.map label) (fun given => all.find? (label · == given)) label where
  found given value := by
    constructor
    · intro hf
      have same := List.find?_some hf
      exact (beq_iff_eq.mp same).symm
    · rintro rfl
      exact h value
  listed given := by
    rw [List.mem_map]
    constructor
    · intro hg
      obtain ⟨value, -, rfl⟩ := hg
      exact ⟨value, rfl⟩
    · intro hg
      obtain ⟨value, rfl⟩ := hg
      exact ⟨value, List.mem_of_find?_eq_some (h value), rfl⟩

theorem Labelling.injective {α : Type} {labels : List Text} {ofLabel? : Text → Option α}
    {label : α → Text} (h : Labelling labels ofLabel? label)
    : Function.Injective label := by
  intro first second he
  have found := (h.found (label first) first).mpr rfl
  rw [(h.found (label first) second).mpr he] at found
  exact (Option.some.inj found).symm

theorem Kind.labelling : Labelling (Kind.all.map Kind.label) Kind.ofLabel? Kind.label :=
  .of_find? Kind.all Kind.label (by intro kind; cases kind <;> decide)

theorem Modifier.labelling
    : Labelling (Modifier.all.map Modifier.label) Modifier.ofLabel? Modifier.label :=
  .of_find? Modifier.all Modifier.label (by intro modifier; cases modifier <;> decide)

namespace Declaration

-----------------------------------------------------------------------------------------
-- Single values and lists
-----------------------------------------------------------------------------------------

theorem value?_readText_eq_some_iff {value : Json} {found : Text}
    : (readText value).value? = some found ↔ value = .string found := by
  cases value <;> simp [readText]

theorem value?_readBool_eq_some_iff {value : Json} {found : Bool}
    : (readBool value).value? = some found ↔ value = .bool found := by
  cases value <;> simp [readBool]

theorem value?_readLabel_eq_some_iff {α : Type} {labels : List Text}
    {ofLabel? : Text → Option α} {label : α → Text} (h : Labelling labels ofLabel? label)
    {value : Json} {found : α}
    : (readLabel labels ofLabel? value).value? = some found
      ↔ value = .string (label found) := by
  cases value with
  | string given =>
      simp only [readLabel, Json.string.injEq, ← h.found]
      cases ofLabel? given <;> simp
  | _ => simp [readLabel]

theorem value?_readKind_eq_some_iff {value : Json} {kind : Kind}
    : (readKind value).value? = some kind ↔ value = .string kind.label :=
  value?_readLabel_eq_some_iff Kind.labelling

theorem value?_readModifier_eq_some_iff {value : Json} {modifier : Modifier}
    : (readModifier value).value? = some modifier ↔ value = .string modifier.label :=
  value?_readLabel_eq_some_iff Modifier.labelling

/-- A list is made out item by item. -/
theorem value?_readEach_eq_some_iff {α : Type} {read : Json → Validated α} (index : Nat)
    {items : List Json} {values : List α}
    : (readEach read index items).value? = some values
      ↔ List.Forall₂ (fun item value => (read item).value? = some value) items values := by
  induction items generalizing index values with
  | nil => cases values <;> simp [readEach]
  | cons item items ih =>
      cases values with
      | nil =>
          cases hv : (read item).value? <;> simp [readEach, hv]
      | cons value values =>
          rw [List.forall₂_cons, ← ih (index + 1)]
          cases hv : (read item).value? <;> simp [readEach, hv, and_comm]

theorem value?_readModifiers_eq_some_iff {value : Json} {modifiers : List Modifier}
    : (readModifiers value).value? = some modifiers
      ↔ value = .array (modifiers.map (fun modifier => .string modifier.label)) := by
  cases value with
  | array items =>
      rw [readModifiers, value?_readEach_eq_some_iff]
      simp only [value?_readModifier_eq_some_iff, Json.array.injEq]
      rw [← List.forall₂_map_right_iff, List.forall₂_eq_eq_eq]
  | _ => simp [readModifiers]

-----------------------------------------------------------------------------------------
-- Members
-----------------------------------------------------------------------------------------

theorem value?_required_eq_some_iff {α : Type} {key : Text} {read : Json → Validated α}
    {members : List (Text × Json)} {encode : α → Json}
    (h : ∀ {value found}, (read value).value? = some found ↔ value = encode found) {found : α}
    : (required key read members).value? = some found
      ↔ members.lookup key = some (encode found) := by
  cases hl : members.lookup key <;> simp [required, hl, h]

/-- A member that may be left out is absent or holds what was made out. -/
theorem value?_optional_eq_some_iff {α : Type} {key : Text} {read : Json → Validated α}
    {members : List (Text × Json)} {encode : α → Json}
    (h : ∀ {value found}, (read value).value? = some found ↔ value = encode found)
    {found : Option α}
    : (optional key read members).value? = some found
      ↔ members.lookup key = found.map encode := by
  cases hl : members.lookup key <;> cases found <;> simp [optional, hl, h]

/-- A member with a default reads as if the default were written where it is left out. -/
theorem value?_optional_getD {α : Type} {key : Text} {read : Json → Validated α}
    {members : List (Text × Json)} {default : α} (missing : Json)
    (h : (read missing).value? = some default)
    : ((Option.getD · default) <$> optional key read members).value?
      = (read ((members.lookup key).getD missing)).value? := by
  cases hl : members.lookup key <;> simp [optional, hl, h, Function.comp_def]

end Declaration

/-- The members of an object hold a header: what it says is written there, and what may be left
out is its default where it is.
-/
structure Header.HeldBy (header : Header) (members : List (Text × Json)) : Prop where
  kind : members.lookup Key.kind = some (.string header.kind.label)
  name : members.lookup Key.name = some (.string header.name)
  modifiers
    : (members.lookup Key.modifiers).getD (.array [])
      = .array (header.modifiers.map (fun modifier => .string modifier.label))
  enclosingKind
    : members.lookup Key.enclosingKind
      = header.enclosingKind.map (fun kind => .string kind.label)
  enclosingName : members.lookup Key.enclosingName = header.enclosingName.map .string
  constantValueKnown
    : (members.lookup Key.constantValueKnown).getD (.bool false)
      = .bool header.constantValueKnown

namespace Declaration

/-- A header is made out exactly if the members hold it. -/
theorem value?_readHeader_eq_some_iff {members : List (Text × Json)} {header : Header}
    : (readHeader members).value? = some header ↔ header.HeldBy members := by
  have fields : (readHeader members).value? = some header
      ↔ (required Key.kind readKind members).value? = some header.kind
        ∧ (required Key.name readText members).value? = some header.name
        ∧ ((Option.getD · []) <$> optional Key.modifiers readModifiers members).value?
            = some header.modifiers
        ∧ (optional Key.enclosingKind readKind members).value? = some header.enclosingKind
        ∧ (optional Key.enclosingName readText members).value? = some header.enclosingName
        ∧ ((Option.getD · false) <$> optional Key.constantValueKnown readBool members).value?
            = some header.constantValueKnown := by
    rcases header with ⟨kind, name, modifiers, enclosingKind, enclosingName, known⟩
    simp only [readHeader, Validated.value?_seq, Validated.value?_map]
    -- A part that is lacking leaves both sides false; the last step compares field by field.
    rcases (required Key.kind readKind members).value? with _ | _
    · simp
    rcases (required Key.name readText members).value? with _ | _
    · simp
    rcases (optional Key.modifiers readModifiers members).value? with _ | _
    · simp
    rcases (optional Key.enclosingKind readKind members).value? with _ | _
    · simp
    rcases (optional Key.enclosingName readText members).value? with _ | _
    · simp
    rcases (optional Key.constantValueKnown readBool members).value? with _ | _
    · simp
    simp
  rw [fields, value?_required_eq_some_iff value?_readKind_eq_some_iff,
    value?_required_eq_some_iff value?_readText_eq_some_iff,
    value?_optional_eq_some_iff value?_readKind_eq_some_iff,
    value?_optional_eq_some_iff value?_readText_eq_some_iff,
    value?_optional_getD (.array []) rfl, value?_readModifiers_eq_some_iff,
    value?_optional_getD (.bool false) rfl, value?_readBool_eq_some_iff]
  constructor
  · intro h
    obtain ⟨hk, hn, hm, he, ht, hc⟩ := h
    exact ⟨hk, hn, hm, he, ht, hc⟩
  · intro h
    obtain ⟨hk, hn, hm, he, ht, hc⟩ := h
    exact ⟨hk, hn, hm, he, ht, hc⟩

end Declaration

end NamingAdvice
