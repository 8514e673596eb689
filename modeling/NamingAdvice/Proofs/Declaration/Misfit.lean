import NamingAdvice.Proofs.Declaration.NormalForm

/-! Where the issues of a node come from. Every node within it contributes its own faults; a
node with no fault in it or below it contributes the modifiers that it repeats. Both are stated
of the node they are about, told from the outermost one by the place of the node in it.
-/

namespace NamingAdvice

/-- A node that stands within another, reached through lists of children. -/
inductive Json.NodeWithin : Json → List Step → Json → Prop
  | here {value} : Json.NodeWithin value [] value
  | child {members items index item place node}
    (listed : members.lookup Key.children = some (.array items))
    (element : items[index]? = some item) (within : Json.NodeWithin item place node)
    : Json.NodeWithin (.object members) (.key Key.children :: .index index :: place) node

/-- What is the matter at a place is the matter with some node within. -/
def Json.Somewhere (trouble : Json → List Step → Issue.Cause → Prop) (value : Json)
    (place : List Step) (cause : Issue.Cause)
    : Prop :=
  ∃ above rest node, place = above ++ rest ∧ value.NodeWithin above node
    ∧ trouble node rest cause

/-- A node has no fault, and neither has any node below it. -/
def Json.Sound (value : Json) : Prop :=
  ∀ place cause, ¬ value.Somewhere NodeFault place cause

/-- A modifier of a sound node that stands earlier in its list already. -/
inductive NodeRepeat : Json → List Step → Issue.Cause → Prop
  | modifier {members items index earlier} {modifier : Modifier}
    (present : members.lookup Key.modifiers = some (.array items))
    (element : items[index]? = some (.string modifier.label)) (before : earlier < index)
    (same : items[earlier]? = some (.string modifier.label))
    (sound : Json.Sound (.object members))
    : NodeRepeat (.object members) [.key Key.modifiers, .index index]
        (.repeatedModifier modifier)

namespace Json

variable {trouble : Json → List Step → Issue.Cause → Prop} {place : List Step}
  {cause : Issue.Cause}

/-- What is the matter with an object is the matter with it or with one of its children. -/
theorem somewhere_object_iff {members : List (Text × Json)}
    : (Json.object members).Somewhere trouble place cause
      ↔ trouble (.object members) place cause
        ∨ ∃ items index item rest,
            members.lookup Key.children = some (.array items)
            ∧ items[index]? = some item
            ∧ place = .key Key.children :: .index index :: rest
            ∧ item.Somewhere trouble rest cause := by
  constructor
  · intro h
    rcases h with ⟨_, rest, node, rfl, _ | ⟨listed, element, within⟩, ht⟩
    · exact .inl ht
    · exact .inr ⟨_, _, _, _, listed, element, rfl, _, rest, node, rfl, within, ht⟩
  · intro h
    rcases h with ht | ⟨items, index, item, _, listed, element, rfl, hs⟩
    · exact ⟨[], place, _, rfl, .here, ht⟩
    · obtain ⟨above, rest, node, rfl, within, ht⟩ := hs
      exact ⟨_, rest, node, rfl, .child listed element within, ht⟩

theorem somewhere_iff_of_shape_ne {value : Json} (h : value.shape ≠ .object)
    : value.Somewhere trouble place cause ↔ trouble value place cause := by
  constructor
  · intro given
    rcases given with ⟨_, rest, node, rfl, _ | ⟨listed, element, within⟩, ht⟩
    · exact ht
    · exact absurd rfl h
  · exact fun ht => ⟨[], place, value, rfl, .here, ht⟩

/-- To look at some troubles only is to look at some troubles of every node. -/
theorem somewhere_and_iff {other : Json → List Step → Issue.Cause → Prop} {P : Prop}
    {value : Json} (h : ∀ node rest, trouble node rest cause ∧ P ↔ other node rest cause)
    : value.Somewhere trouble place cause ∧ P ↔ value.Somewhere other place cause := by
  constructor
  · intro given
    obtain ⟨⟨above, rest, node, hp, within, ht⟩, hc⟩ := given
    exact ⟨above, rest, node, hp, within, (h node rest).mp ⟨ht, hc⟩⟩
  · intro given
    obtain ⟨above, rest, node, hp, within, ho⟩ := given
    obtain ⟨ht, hc⟩ := (h node rest).mpr ho
    exact ⟨⟨above, rest, node, hp, within, ht⟩, hc⟩

/-- No fault of a node lies in its list of children. -/
theorem not_nodeFault_children {value : Json} {index : Nat}
    : ¬ NodeFault value (.key Key.children :: .index index :: place) cause := by
  have differ : Key.children ≠ Key.modifiers := by decide
  intro h
  cases h with
  | header wrong =>
      generalize hp : Step.key Key.children :: .index index :: place = found at wrong
      cases wrong with
      | modifier _ _ _ => simp [differ] at hp
      | _ => simp at hp

/-- Seen from a node within, the faults at and below its place are its own. -/
theorem NodeWithin.somewhere_nodeFault_iff {value node : Json} {above : List Step}
    (h : value.NodeWithin above node)
    : value.Somewhere NodeFault (above ++ place) cause
      ↔ node.Somewhere NodeFault place cause := by
  induction h with
  | here => rfl
  | child listed element within ih =>
      rw [List.cons_append, List.cons_append, somewhere_object_iff, ← ih]
      constructor
      · intro given
        rcases given with hf | ⟨items, index, item, rest, hl, he, hp, hs⟩
        · exact absurd hf not_nodeFault_children
        -- Lists and items are determined by the place, so the child is the same one.
        · simp only [List.cons.injEq, Step.index.injEq, true_and] at hp
          obtain ⟨rfl, rfl⟩ := hp
          obtain rfl := Json.array.inj (Option.some.inj (listed.symm.trans hl))
          obtain rfl := Option.some.inj (element.symm.trans he)
          exact hs
      · exact fun hs => .inr ⟨_, _, _, _, listed, element, rfl, hs⟩

end Json

namespace Declaration

-----------------------------------------------------------------------------------------
-- Every node contributes its own issues
-----------------------------------------------------------------------------------------

/-- What a node contributes to the issues: its faults, and the modifiers that it repeats if it
could be made out.
-/
def OwnIssue (value : Json) (place : List Step) (cause : Issue.Cause) : Prop :=
  NodeFault value place cause
  ∨ ∃ declaration,
      (readNode value).value? = some declaration
      ∧ ⟨cause, place⟩ ∈ repeatedModifiers [] 0 declaration.modifiers

/-- The issues of an object are its own and those of its children. -/
theorem mem_issues_object_iff {members : List (Text × Json)} {cause : Issue.Cause}
    {place : List Step}
    : ⟨cause, place⟩ ∈ (readNode (.object members)).issues
      ↔ OwnIssue (.object members) place cause
        ∨ ∃ items index item rest,
            members.lookup Key.children = some (.array items)
            ∧ items[index]? = some item
            ∧ place = .key Key.children :: .index index :: rest
            ∧ ⟨cause, rest⟩ ∈ (readNode item).issues := by
  have repeats
      : ⟨cause, place⟩ ∈ ((readNode (.object members)).value?.map
          (fun declaration => repeatedModifiers [] 0 declaration.modifiers)).getD []
        ↔ ∃ declaration,
            (readNode (.object members)).value? = some declaration
            ∧ ⟨cause, place⟩ ∈ repeatedModifiers [] 0 declaration.modifiers := by
    cases (readNode (.object members)).value? <;> simp
  rw [issues_readNode_object, List.mem_append, List.mem_append, repeats, OwnIssue,
    or_right_comm (a := NodeFault (.object members) place cause)]
  refine or_congr_left ?_
  rw [mem_issues_readHeader_iff, mem_issues_optional_iff]
  simp only [mem_issues_list_iff readForest_array readForest_of_shape_ne]
  constructor
  · intro h
    rcases h with hh | ⟨value, _, present, rfl, ⟨rfl, wrong⟩ | hi⟩
    · exact .inl (.header hh)
    · exact .inl (.children present wrong)
    · obtain ⟨items, index, item, rest, rfl, element, rfl, hm⟩ := hi
      exact .inr ⟨items, index, item, rest, present, element, rfl, hm⟩
  · intro h
    rcases h with hf | ⟨items, index, item, rest, present, element, rfl, hm⟩
    · cases hf with
      | shape wrong => exact absurd rfl wrong.1
      | header wrong => exact .inl wrong
      | children present wrong => exact .inr ⟨_, _, present, rfl, .inl ⟨rfl, wrong⟩⟩
    · exact .inr ⟨_, _, present, rfl, .inr ⟨items, index, item, rest, rfl, element, rfl, hm⟩⟩

theorem mem_issues_iff_of_shape_ne {value : Json} (h : value.shape ≠ .object)
    {cause : Issue.Cause} {place : List Step}
    : ⟨cause, place⟩ ∈ (readNode value).issues ↔ OwnIssue value place cause := by
  rw [OwnIssue, readNode_of_shape_ne h, Validated.issues_refuse, List.mem_singleton]
  constructor
  · intro he
    obtain ⟨rfl, rfl⟩ := Issue.mk.inj he
    exact .inl (.shape ⟨h, rfl⟩)
  · intro ho
    rcases ho with hf | ⟨declaration, hv, -⟩
    · cases hf with
      | shape wrong => rw [wrong.2]
      | header wrong => exact absurd rfl h
      | children present wrong => exact absurd rfl h
    · contradiction

/-- The issues of a node are those that the nodes within it contribute, by induction over what
stands below it.
-/
theorem mem_issues_readNode_iff {value : Json} {cause : Issue.Cause} {place : List Step}
    : ⟨cause, place⟩ ∈ (readNode value).issues ↔ value.Somewhere OwnIssue place cause := by
  induction value using Json.nodeInduction generalizing place with
  | object members ih =>
      rw [mem_issues_object_iff, Json.somewhere_object_iff]
      refine or_congr_right ?_
      constructor
      · intro h
        obtain ⟨items, index, item, rest, listed, element, hp, hm⟩ := h
        have below := (ih items listed item (List.mem_of_getElem? element)).mp hm
        exact ⟨items, index, item, rest, listed, element, hp, below⟩
      · intro h
        obtain ⟨items, index, item, rest, listed, element, hp, hs⟩ := h
        have below := (ih items listed item (List.mem_of_getElem? element)).mpr hs
        exact ⟨items, index, item, rest, listed, element, hp, below⟩
  | other value h => rw [mem_issues_iff_of_shape_ne h, Json.somewhere_iff_of_shape_ne h]

-----------------------------------------------------------------------------------------
-- Faults
-----------------------------------------------------------------------------------------

/-- Apart from repeated modifiers, the issues of a node are the faults in it. -/
theorem mem_issues_readNode_iff_fault {value : Json} {cause : Issue.Cause}
    {place : List Step}
    : ⟨cause, place⟩ ∈ (readNode value).issues ∧ cause.isRepeat = false
      ↔ value.Somewhere NodeFault place cause := by
  rw [mem_issues_readNode_iff]
  refine Json.somewhere_and_iff (fun node rest => ?_)
  constructor
  · intro h
    obtain ⟨hf | ⟨declaration, -, hm⟩, hc⟩ := h
    · exact hf
    · have hr := isRepeat_of_mem_repeatedModifiers hm
      exact absurd (hr.symm.trans hc) (by decide)
  · exact fun hf => ⟨.inl hf, hf.isRepeat⟩

/-- A node could be made out exactly if it is sound. -/
theorem sound_iff_value? {value : Json}
    : value.Sound ↔ ∃ declaration, (readNode value).value? = some declaration := by
  have lacking : (readNode value).value? = none
      ↔ ∃ issue ∈ (readNode value).issues, issue.cause.isRepeat = false :=
    honest_readNode value
  rw [← Option.ne_none_iff_exists', ne_eq, lacking, Json.Sound]
  simp only [← mem_issues_readNode_iff_fault]
  constructor
  · intro h given
    obtain ⟨⟨cause, place⟩, hm, hc⟩ := given
    exact h place cause ⟨hm, hc⟩
  · exact fun h place cause hm => h ⟨⟨cause, place⟩, hm.1, hm.2⟩

-----------------------------------------------------------------------------------------
-- Repeated modifiers
-----------------------------------------------------------------------------------------

/-- An issue for a modifier says that it stands earlier in the list or has been seen before,
by induction on the list.
-/
theorem mem_repeatedModifiers_iff {seen modifiers : List Modifier} (index : Nat)
    {cause : Issue.Cause} {place : List Step}
    : ⟨cause, place⟩ ∈ repeatedModifiers seen index modifiers
      ↔ ∃ offset modifier,
          modifiers[offset]? = some modifier
          ∧ (modifier ∈ seen ∨ modifier ∈ modifiers.take offset)
          ∧ cause = .repeatedModifier modifier
          ∧ place = [.key Key.modifiers, .index (index + offset)] := by
  induction modifiers generalizing seen index with
  | nil => simp [repeatedModifiers]
  | cons first rest ih =>
      have own : (⟨cause, place⟩ : Issue)
            ∈ (if seen.contains first then
                [⟨.repeatedModifier first, [.key Key.modifiers, .index index]⟩] else [])
          ↔ first ∈ seen ∧ cause = .repeatedModifier first
            ∧ place = [.key Key.modifiers, .index index] := by
        by_cases hs : first ∈ seen <;> simp [hs]
      rw [repeatedModifiers, List.mem_append, own, ih]
      constructor
      · intro h
        rcases h with ⟨hs, rfl, rfl⟩ | ⟨offset, modifier, hm, hr, rfl, rfl⟩
        · exact ⟨0, first, rfl, .inl hs, rfl, rfl⟩
        · refine ⟨offset + 1, modifier, hm, ?_, rfl, by rw [Nat.add_assoc, Nat.add_comm 1]⟩
          rw [List.take_succ_cons, List.mem_cons]
          rw [List.mem_cons] at hr
          tauto
      · intro h
        rcases h with ⟨_ | offset, modifier, hm, hr, rfl, rfl⟩
        · obtain rfl : first = modifier := by simpa using hm
          exact .inl ⟨by simpa using hr, rfl, rfl⟩
        · refine .inr ⟨offset, modifier, by simpa using hm, ?_, rfl,
            by rw [Nat.add_assoc, Nat.add_comm 1]⟩
          rw [List.take_succ_cons, List.mem_cons] at hr
          rw [List.mem_cons]
          tauto

end Declaration

/-- Where members list modifiers, they list those of the header they hold. -/
theorem Header.HeldBy.items_eq {header : Header} {members : List (Text × Json)}
    (held : header.HeldBy members) {items : List Json}
    (present : members.lookup Key.modifiers = some (.array items))
    : items = header.modifiers.map (fun modifier => .string modifier.label) := by
  have hm := held.modifiers
  rw [present, Option.getD_some] at hm
  exact Json.array.inj hm

theorem Header.HeldBy.getElem?_items {header : Header} {members : List (Text × Json)}
    (held : header.HeldBy members) {items : List Json}
    (present : members.lookup Key.modifiers = some (.array items)) {index : Nat}
    {modifier : Modifier}
    : items[index]? = some (.string modifier.label)
      ↔ header.modifiers[index]? = some modifier := by
  rw [held.items_eq present, List.getElem?_map, Option.map_eq_some_iff]
  constructor
  · intro h
    obtain ⟨found, hf, he⟩ := h
    obtain rfl := Modifier.labelling.injective (Json.string.inj he)
    exact hf
  · exact fun hf => ⟨modifier, hf, rfl⟩

/-- A header with a modifier is held by members that list modifiers. -/
theorem Header.HeldBy.exists_items {header : Header} {members : List (Text × Json)}
    (held : header.HeldBy members) {modifier : Modifier} (h : modifier ∈ header.modifiers)
    : ∃ items, members.lookup Key.modifiers = some (.array items) := by
  have hm := held.modifiers
  cases hl : members.lookup Key.modifiers with
  | none =>
      have empty : header.modifiers = [] := by simpa [hl] using hm
      simp [empty] at h
  | some value => exact ⟨_, by simpa [hl] using hm⟩

namespace Declaration

/-- The modifiers that a node repeats, if it could be made out. -/
theorem nodeRepeat_iff {value : Json} {cause : Issue.Cause} {place : List Step}
    : NodeRepeat value place cause
      ↔ ∃ declaration,
          (readNode value).value? = some declaration
          ∧ ⟨cause, place⟩ ∈ repeatedModifiers [] 0 declaration.modifiers := by
  simp only [mem_repeatedModifiers_iff, List.not_mem_nil, false_or, Nat.zero_add]
  constructor
  · intro h
    cases h with
    | @modifier _ items index earlier modifier present element before same sound =>
        obtain ⟨⟨header, children⟩, hv⟩ := sound_iff_value?.mp sound
        have held := (value?_readNode_object.mp hv).1
        have found := (held.getElem?_items present).mp element
        have standing := (held.getElem?_items present).mp same
        refine ⟨_, hv, index, modifier, found, ?_, rfl, rfl⟩
        refine List.mem_of_getElem? (i := earlier) ?_
        rwa [List.getElem?_take_of_lt before]
  · intro h
    obtain ⟨declaration, hv, index, modifier, element, hr, rfl, rfl⟩ := h
    have sound := sound_iff_value?.mpr ⟨declaration, hv⟩
    cases value?_readNode_eq_some_iff.mp hv with
    | object held listed each =>
        obtain ⟨items, present⟩ := held.exists_items (List.mem_of_getElem? element)
        obtain ⟨earlier, he⟩ := List.mem_iff_getElem?.mp hr
        have before : earlier < index := by
          have bound := (List.getElem?_eq_some_iff.mp he).1
          rw [List.length_take] at bound
          omega
        rw [List.getElem?_take_of_lt before] at he
        exact .modifier present ((held.getElem?_items present).mpr element) before
          ((held.getElem?_items present).mpr he) sound

/-- The repeated modifiers among the issues of a node are those of the sound nodes in it. -/
theorem mem_issues_readNode_iff_repeat {value : Json} {cause : Issue.Cause}
    {place : List Step}
    : ⟨cause, place⟩ ∈ (readNode value).issues ∧ cause.isRepeat = true
      ↔ value.Somewhere NodeRepeat place cause := by
  rw [mem_issues_readNode_iff]
  refine Json.somewhere_and_iff (fun node rest => ?_)
  rw [nodeRepeat_iff]
  constructor
  · intro h
    obtain ⟨hf | hr, hc⟩ := h
    · exact absurd (hf.isRepeat.symm.trans hc) (by decide)
    · exact hr
  · intro hr
    have ⟨_, _, hm⟩ := hr
    exact ⟨.inr hr, isRepeat_of_mem_repeatedModifiers hm⟩

end Declaration

end NamingAdvice
