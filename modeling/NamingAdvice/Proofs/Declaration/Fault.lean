import NamingAdvice.Proofs.Declaration.Node

/-! What is wrong with a single node, as a relation between a place in it and a cause. Each
reader lists exactly the faults of what it reads; the faults further down in the children are
those of other nodes.
-/

namespace NamingAdvice

/-- A value of another shape than the wanted one. -/
def ShapeFault (expected : Expectation) (wanted : Json.Shape) (value : Json)
    (cause : Issue.Cause)
    : Prop :=
  value.shape ≠ wanted ∧ cause = .wrongShape expected value.shape

/-- A value that is none of a list of labels. -/
inductive LabelFault (labels : List Text) : Json → Issue.Cause → Prop
  | shape {value cause} (h : ShapeFault (.oneOf labels) .string value cause)
    : LabelFault labels value cause
  | unknown {label} (h : label ∉ labels)
    : LabelFault labels (.string label) (.unknownLabel labels label)

/-- What is wrong with the header among the members of an object. -/
inductive HeaderFault (members : List (Text × Json)) : List Step → Issue.Cause → Prop
  | missing {key} (needed : key ∈ [Key.kind, Key.name]) (absent : members.lookup key = none)
    : HeaderFault members [.key key] .missing
  | kind {key value cause} (named : key ∈ [Key.kind, Key.enclosingKind])
    (present : members.lookup key = some value)
    (wrong : LabelFault (Kind.all.map Kind.label) value cause)
    : HeaderFault members [.key key] cause
  | text {key value cause} (named : key ∈ [Key.name, Key.enclosingName])
    (present : members.lookup key = some value)
    (wrong : ShapeFault .string .string value cause)
    : HeaderFault members [.key key] cause
  | flag {value cause} (present : members.lookup Key.constantValueKnown = some value)
    (wrong : ShapeFault .boolean .boolean value cause)
    : HeaderFault members [.key Key.constantValueKnown] cause
  | modifiers {value cause} (present : members.lookup Key.modifiers = some value)
    (wrong : ShapeFault .array .array value cause)
    : HeaderFault members [.key Key.modifiers] cause
  | modifier {items index value cause}
    (present : members.lookup Key.modifiers = some (.array items))
    (element : items[index]? = some value)
    (wrong : LabelFault (Modifier.all.map Modifier.label) value cause)
    : HeaderFault members [.key Key.modifiers, .index index] cause

/-- What is wrong with a node, apart from the nodes in its list of children. -/
inductive NodeFault : Json → List Step → Issue.Cause → Prop
  | shape {value cause} (wrong : ShapeFault .object .object value cause)
    : NodeFault value [] cause
  | header {members place cause} (wrong : HeaderFault members place cause)
    : NodeFault (.object members) place cause
  | children {members value cause} (present : members.lookup Key.children = some value)
    (wrong : ShapeFault .array .array value cause)
    : NodeFault (.object members) [.key Key.children] cause

theorem ShapeFault.isRepeat {expected : Expectation} {wanted : Json.Shape} {value : Json}
    {cause : Issue.Cause} (h : ShapeFault expected wanted value cause)
    : cause.isRepeat = false := by
  rw [h.2]
  rfl

theorem LabelFault.isRepeat {labels : List Text} {value : Json} {cause : Issue.Cause}
    (h : LabelFault labels value cause)
    : cause.isRepeat = false := by
  cases h with
  | shape h => exact h.isRepeat
  | unknown h => rfl

theorem HeaderFault.isRepeat {members : List (Text × Json)} {place : List Step}
    {cause : Issue.Cause} (h : HeaderFault members place cause)
    : cause.isRepeat = false := by
  cases h with
  | missing needed absent => rfl
  | kind named present wrong => exact wrong.isRepeat
  | text named present wrong => exact wrong.isRepeat
  | flag present wrong => exact wrong.isRepeat
  | modifiers present wrong => exact wrong.isRepeat
  | modifier present element wrong => exact wrong.isRepeat

theorem NodeFault.isRepeat {value : Json} {place : List Step} {cause : Issue.Cause}
    (h : NodeFault value place cause)
    : cause.isRepeat = false := by
  cases h with
  | shape wrong => exact wrong.isRepeat
  | header wrong => exact wrong.isRepeat
  | children present wrong => exact wrong.isRepeat

namespace Declaration

-----------------------------------------------------------------------------------------
-- Single values and lists
-----------------------------------------------------------------------------------------

theorem mem_issues_readText_iff {value : Json} {cause : Issue.Cause} {place : List Step}
    : ⟨cause, place⟩ ∈ (readText value).issues
      ↔ place = [] ∧ ShapeFault .string .string value cause := by
  cases value <;> simp [readText, ShapeFault, Json.shape, and_comm]

theorem mem_issues_readBool_iff {value : Json} {cause : Issue.Cause} {place : List Step}
    : ⟨cause, place⟩ ∈ (readBool value).issues
      ↔ place = [] ∧ ShapeFault .boolean .boolean value cause := by
  cases value <;> simp [readBool, ShapeFault, Json.shape, and_comm]

theorem mem_issues_readLabel_iff {α : Type} {labels : List Text}
    {ofLabel? : Text → Option α} {label : α → Text} (h : Labelling labels ofLabel? label)
    {value : Json} {cause : Issue.Cause} {place : List Step}
    : ⟨cause, place⟩ ∈ (readLabel labels ofLabel? value).issues
      ↔ place = [] ∧ LabelFault labels value cause := by
  have lacking : ∀ label, ofLabel? label = none ↔ label ∉ labels := by
    intro label
    rw [h.listed, Option.eq_none_iff_forall_ne_some]
    simp only [ne_eq, h.found, not_exists]
  cases value with
  | string label =>
      have faults : LabelFault labels (.string label) cause
          ↔ label ∉ labels ∧ cause = .unknownLabel labels label := by
        constructor
        · intro given
          rcases given with ⟨hs, -⟩ | hn
          · exact absurd rfl hs
          · exact ⟨hn, rfl⟩
        · intro given
          obtain ⟨hn, rfl⟩ := given
          exact .unknown hn
      rw [faults, ← lacking, readLabel]
      cases ofLabel? label <;> simp [and_comm]
  | _ =>
      have faults : ∀ {other : Json}, other.shape ≠ .string
          → (LabelFault labels other cause
            ↔ cause = .wrongShape (.oneOf labels) other.shape) := by
        intro other hs
        constructor
        · intro given
          rcases given with ⟨-, hc⟩ | hn
          · exact hc
          · exact absurd rfl hs
        · exact fun hc => .shape ⟨hs, hc⟩
      rw [faults (by simp [Json.shape])]
      simp [readLabel, and_comm]

/-- The issues of a list are those of its items, each seen from its index. -/
theorem mem_issues_readEach_iff {α : Type} {read : Json → Validated α} (index : Nat)
    {items : List Json} {cause : Issue.Cause} {place : List Step}
    : ⟨cause, place⟩ ∈ (readEach read index items).issues
      ↔ ∃ offset item rest,
          items[offset]? = some item
          ∧ place = .index (index + offset) :: rest
          ∧ ⟨cause, rest⟩ ∈ (read item).issues := by
  induction items generalizing index with
  | nil => simp [readEach]
  | cons item items ih =>
      rw [readEach, Validated.issues_seq, Validated.issues_map, List.mem_append,
        Validated.mem_issues_under_iff, ih]
      constructor
      · intro h
        rcases h with ⟨rest, rfl, hm⟩ | ⟨offset, other, rest, ho, rfl, hm⟩
        · exact ⟨0, item, rest, rfl, rfl, hm⟩
        · refine ⟨offset + 1, other, rest, ho, ?_, hm⟩
          rw [Nat.add_assoc, Nat.add_comm 1]
      · intro h
        obtain ⟨offset, other, rest, ho, rfl, hm⟩ := h
        cases offset with
        | zero =>
            obtain rfl : item = other := by simpa using ho
            exact Or.inl ⟨rest, rfl, hm⟩
        | succ offset =>
            refine Or.inr ⟨offset, other, rest, by simpa using ho, ?_, hm⟩
            rw [Nat.add_assoc, Nat.add_comm 1]

/-- A reader of lists refuses what is no list, and otherwise passes on the issues of the items. -/
theorem mem_issues_list_iff {α : Type} {list : Json → Validated (List α)}
    {read : Json → Validated α}
    (array : ∀ items, list (.array items) = readEach read 0 items)
    (other
      : ∀ {value : Json}, value.shape ≠ .array
          → list value = .refuse (.wrongShape .array value.shape))
    {value : Json} {cause : Issue.Cause} {place : List Step}
    : ⟨cause, place⟩ ∈ (list value).issues
      ↔ place = [] ∧ ShapeFault .array .array value cause
        ∨ ∃ items index item rest,
            value = .array items
            ∧ items[index]? = some item
            ∧ place = .index index :: rest
            ∧ ⟨cause, rest⟩ ∈ (read item).issues := by
  by_cases hs : value.shape = .array
  · obtain ⟨items, rfl⟩ : ∃ items, value = .array items := by
      cases value <;> simp_all [Json.shape]
    rw [array, mem_issues_readEach_iff]
    simp [ShapeFault, Json.shape]
  · rw [other hs]
    have none : ∀ items, value ≠ .array items := by
      rintro items rfl
      exact hs rfl
    simp [ShapeFault, hs, none, and_comm]

-----------------------------------------------------------------------------------------
-- Members
-----------------------------------------------------------------------------------------

theorem mem_issues_required_iff {α : Type} {key : Text} {read : Json → Validated α}
    {members : List (Text × Json)} {cause : Issue.Cause} {place : List Step}
    : ⟨cause, place⟩ ∈ (required key read members).issues
      ↔ members.lookup key = none ∧ place = [.key key] ∧ cause = .missing
        ∨ ∃ value rest,
            members.lookup key = some value
            ∧ place = .key key :: rest
            ∧ ⟨cause, rest⟩ ∈ (read value).issues := by
  rw [required, Validated.mem_issues_under_iff]
  cases members.lookup key with
  | none => simp [and_comm]
  | some value => simp

theorem mem_issues_optional_iff {α : Type} {key : Text} {read : Json → Validated α}
    {members : List (Text × Json)} {cause : Issue.Cause} {place : List Step}
    : ⟨cause, place⟩ ∈ (optional key read members).issues
      ↔ ∃ value rest,
          members.lookup key = some value
          ∧ place = .key key :: rest
          ∧ ⟨cause, rest⟩ ∈ (read value).issues := by
  rw [optional]
  cases members.lookup key with
  | none => simp
  | some value =>
      rw [Validated.mem_issues_under_iff]
      simp

/-- The issues of a header come field by field. -/
theorem issues_readHeader (members : List (Text × Json))
    : (readHeader members).issues
      = [(required Key.kind readKind members).issues,
          (required Key.name readText members).issues,
          (optional Key.modifiers readModifiers members).issues,
          (optional Key.enclosingKind readKind members).issues,
          (optional Key.enclosingName readText members).issues,
          (optional Key.constantValueKnown readBool members).issues].flatten := by
  simp [readHeader]

theorem mem_issues_readKind_iff {value : Json} {cause : Issue.Cause} {place : List Step}
    : ⟨cause, place⟩ ∈ (readKind value).issues
      ↔ place = [] ∧ LabelFault (Kind.all.map Kind.label) value cause :=
  mem_issues_readLabel_iff Kind.labelling

theorem mem_issues_readModifiers_iff {value : Json} {cause : Issue.Cause}
    {place : List Step}
    : ⟨cause, place⟩ ∈ (readModifiers value).issues
      ↔ place = [] ∧ ShapeFault .array .array value cause
        ∨ ∃ items index item,
            value = .array items
            ∧ items[index]? = some item
            ∧ place = [.index index]
            ∧ LabelFault (Modifier.all.map Modifier.label) item cause := by
  have other : ∀ {value : Json}, value.shape ≠ .array
      → readModifiers value = .refuse (.wrongShape .array value.shape) := by
    intro value h
    cases value <;> simp_all [readModifiers, Json.shape]
  rw [mem_issues_list_iff (fun _ => rfl) other]
  simp [readModifier, mem_issues_readLabel_iff Modifier.labelling]

/-- Every issue of a header is one of its faults: which one follows from the field. -/
theorem headerFault_of_mem {members : List (Text × Json)} {cause : Issue.Cause}
    {place : List Step} (h : ⟨cause, place⟩ ∈ (readHeader members).issues)
    : HeaderFault members place cause := by
  obtain ⟨issues, hi, hm⟩ := List.mem_flatten.mp (issues_readHeader members ▸ h)
  simp only [List.mem_cons, List.not_mem_nil, or_false] at hi
  rcases hi with rfl | rfl | rfl | rfl | rfl | rfl
  · rcases mem_issues_required_iff.mp hm with ⟨absent, rfl, rfl⟩ | ⟨_, _, present, rfl, hr⟩
    · exact .missing (by simp) absent
    · obtain ⟨rfl, wrong⟩ := mem_issues_readKind_iff.mp hr
      exact .kind (by simp) present wrong
  · rcases mem_issues_required_iff.mp hm with ⟨absent, rfl, rfl⟩ | ⟨_, _, present, rfl, hr⟩
    · exact .missing (by simp) absent
    · obtain ⟨rfl, wrong⟩ := mem_issues_readText_iff.mp hr
      exact .text (by simp) present wrong
  · obtain ⟨_, _, present, rfl, hr⟩ := mem_issues_optional_iff.mp hm
    rcases mem_issues_readModifiers_iff.mp hr with ⟨rfl, wrong⟩ | hl
    · exact .modifiers present wrong
    · obtain ⟨items, index, item, rfl, element, rfl, wrong⟩ := hl
      exact .modifier present element wrong
  · obtain ⟨_, _, present, rfl, hr⟩ := mem_issues_optional_iff.mp hm
    obtain ⟨rfl, wrong⟩ := mem_issues_readKind_iff.mp hr
    exact .kind (by simp) present wrong
  · obtain ⟨_, _, present, rfl, hr⟩ := mem_issues_optional_iff.mp hm
    obtain ⟨rfl, wrong⟩ := mem_issues_readText_iff.mp hr
    exact .text (by simp) present wrong
  · obtain ⟨_, _, present, rfl, hr⟩ := mem_issues_optional_iff.mp hm
    obtain ⟨rfl, wrong⟩ := mem_issues_readBool_iff.mp hr
    exact .flag present wrong

/-- Every fault of a header is among its issues, in the field that it is about. -/
theorem mem_of_headerFault {members : List (Text × Json)} {cause : Issue.Cause}
    {place : List Step} (h : HeaderFault members place cause)
    : ⟨cause, place⟩ ∈ (readHeader members).issues := by
  rw [issues_readHeader, List.mem_flatten]
  cases h with
  | missing needed absent =>
      rcases List.mem_pair.mp needed with rfl | rfl
      · refine ⟨(required Key.kind readKind members).issues, by simp, ?_⟩
        exact mem_issues_required_iff.mpr (.inl ⟨absent, rfl, rfl⟩)
      · refine ⟨(required Key.name readText members).issues, by simp, ?_⟩
        exact mem_issues_required_iff.mpr (.inl ⟨absent, rfl, rfl⟩)
  | kind named present wrong =>
      have hr := mem_issues_readKind_iff.mpr ⟨rfl, wrong⟩
      rcases List.mem_pair.mp named with rfl | rfl
      · refine ⟨(required Key.kind readKind members).issues, by simp, ?_⟩
        exact mem_issues_required_iff.mpr (.inr ⟨_, _, present, rfl, hr⟩)
      · refine ⟨(optional Key.enclosingKind readKind members).issues, by simp, ?_⟩
        exact mem_issues_optional_iff.mpr ⟨_, _, present, rfl, hr⟩
  | text named present wrong =>
      have hr := mem_issues_readText_iff.mpr ⟨rfl, wrong⟩
      rcases List.mem_pair.mp named with rfl | rfl
      · refine ⟨(required Key.name readText members).issues, by simp, ?_⟩
        exact mem_issues_required_iff.mpr (.inr ⟨_, _, present, rfl, hr⟩)
      · refine ⟨(optional Key.enclosingName readText members).issues, by simp, ?_⟩
        exact mem_issues_optional_iff.mpr ⟨_, _, present, rfl, hr⟩
  | flag present wrong =>
      have hr := mem_issues_readBool_iff.mpr ⟨rfl, wrong⟩
      refine ⟨(optional Key.constantValueKnown readBool members).issues, by simp, ?_⟩
      exact mem_issues_optional_iff.mpr ⟨_, _, present, rfl, hr⟩
  | modifiers present wrong =>
      have hr := mem_issues_readModifiers_iff.mpr (.inl ⟨rfl, wrong⟩)
      refine ⟨(optional Key.modifiers readModifiers members).issues, by simp, ?_⟩
      exact mem_issues_optional_iff.mpr ⟨_, _, present, rfl, hr⟩
  | modifier present element wrong =>
      have hr := mem_issues_readModifiers_iff.mpr
        (.inr ⟨_, _, _, rfl, element, rfl, wrong⟩)
      refine ⟨(optional Key.modifiers readModifiers members).issues, by simp, ?_⟩
      exact mem_issues_optional_iff.mpr ⟨_, _, present, rfl, hr⟩

theorem mem_issues_readHeader_iff {members : List (Text × Json)} {cause : Issue.Cause}
    {place : List Step}
    : ⟨cause, place⟩ ∈ (readHeader members).issues ↔ HeaderFault members place cause :=
  ⟨headerFault_of_mem, mem_of_headerFault⟩

end Declaration

end NamingAdvice
