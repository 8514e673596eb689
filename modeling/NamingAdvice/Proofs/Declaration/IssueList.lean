import NamingAdvice.Proofs.Declaration.IssueOrder

/-! The list of issues of an input, exactly. The input may be missing or no list; otherwise every
node in it, at any depth, has its own faults listed, and every node without a fault in it or
below it has the modifiers listed that it repeats.
-/

namespace NamingAdvice

/-- A node of the input: an item of the outermost list, or a node within one. -/
def NodeAt (input : Option Json) (place : List Step) (node : Json) : Prop :=
  ∃ items index item rest,
    input = some (.array items)
    ∧ items[index]? = some item
    ∧ place = .index index :: rest
    ∧ item.NodeWithin rest node

/-- What does not fit at a place of the input. -/
inductive Misfit : Option Json → List Step → Issue.Cause → Prop
  | missing : Misfit none [] .missing
  | root {value cause} (wrong : ShapeFault .array .array value cause)
    : Misfit (some value) [] cause
  | node {input place node rest cause} (reached : NodeAt input place node)
    (fault : NodeFault node rest cause)
    : Misfit input (place ++ rest) cause

/-- An element that stands earlier in a list of modifiers already, in a node that fits with all
below it.
-/
inductive Repeated (input : Option Json) : List Step → Json → Prop
  | modifier {place members items index earlier element}
    (reached : NodeAt input place (.object members))
    (present : members.lookup Key.modifiers = some (.array items))
    (found : items[index]? = some element) (before : earlier < index)
    (same : items[earlier]? = some element)
    (fits : ∀ rest cause, ¬ Misfit input (place ++ rest) cause)
    : Repeated input (place ++ [.key Key.modifiers, .index index]) element

/-- An input that is there misfits at its root or somewhere in one of its items. -/
theorem misfit_some_iff {value : Json} {place : List Step} {cause : Issue.Cause}
    : Misfit (some value) place cause
      ↔ place = [] ∧ ShapeFault .array .array value cause
        ∨ ∃ items index item rest,
            value = .array items
            ∧ items[index]? = some item
            ∧ place = .index index :: rest
            ∧ item.Somewhere NodeFault rest cause := by
  constructor
  · intro h
    cases h with
    | root wrong => exact .inl ⟨rfl, wrong⟩
    | node reached fault =>
        obtain ⟨items, index, item, above, he, element, rfl, within⟩ := reached
        exact .inr ⟨items, index, item, _, Option.some.inj he, element, rfl,
          above, _, _, rfl, within, fault⟩
  · intro given
    rcases given with ⟨rfl, wrong⟩ | ⟨items, index, item, _, rfl, element, rfl, hs⟩
    · exact .root wrong
    · obtain ⟨above, rest, node, rfl, within, fault⟩ := hs
      have reached : NodeAt (some (.array items)) (.index index :: above) node :=
        ⟨items, index, item, above, rfl, element, rfl, within⟩
      exact .node reached fault

/-- A node of the input is sound exactly if nothing misfits at its place or below. -/
theorem NodeAt.sound_iff {input : Option Json} {place : List Step} {node : Json}
    (h : NodeAt input place node)
    : node.Sound ↔ ∀ rest cause, ¬ Misfit input (place ++ rest) cause := by
  obtain ⟨items, index, item, above, rfl, element, rfl, within⟩ := h
  refine forall_congr' (fun rest => forall_congr' (fun cause => not_congr ?_))
  rw [misfit_some_iff, ← within.somewhere_nodeFault_iff]
  constructor
  · exact fun hs => .inr ⟨items, index, item, above ++ rest, rfl, element, rfl, hs⟩
  · intro given
    rcases given with ⟨he, -⟩ | ⟨others, position, other, _, hi, ho, hp, hs⟩
    · simp at he
    · simp only [List.cons_append, List.cons.injEq, Step.index.injEq] at hp
      obtain ⟨rfl, rfl⟩ := hp
      obtain rfl := Json.array.inj hi
      obtain rfl := Option.some.inj (element.symm.trans ho)
      exact hs

/-- What is repeated is a modifier, since the node fits. -/
theorem Repeated.exists_modifier {input : Option Json} {place : List Step} {element : Json}
    (h : Repeated input place element)
    : ∃ modifier : Modifier, element = .string modifier.label := by
  rcases h with ⟨reached, present, found, before, same, fits⟩
  have sound := reached.sound_iff.mpr fits
  obtain ⟨⟨header, children⟩, hv⟩ := Declaration.sound_iff_value?.mp sound
  have held := (Declaration.value?_readNode_object.mp hv).1
  rw [held.items_eq present, List.getElem?_map, Option.map_eq_some_iff] at found
  obtain ⟨modifier, -, rfl⟩ := found
  exact ⟨modifier, rfl⟩

/-- What is repeated fits by itself. -/
theorem Repeated.not_misfit {input : Option Json} {place : List Step} {element : Json}
    {cause : Issue.Cause} (h : Repeated input place element)
    : ¬ Misfit input place cause := by
  cases h with
  | modifier reached present found before same fits => exact fits _ cause

namespace Declaration

/-- The issues that reading an input ends with. -/
def issues (input : Option Json) : List Issue :=
  match read input with
  | .ok _ => []
  | .error issues => issues

theorem issues_of_read {input : Option Json} {result : Validated (List Declaration)}
    (h : read input = result.toExcept)
    : issues input = result.issues := by
  rw [issues, h]
  split
  · next forest ho => exact (Validated.toExcept_eq_ok_iff.mp ho).2.symm
  · next found he => exact (Validated.toExcept_eq_error_iff.mp he).1.symm

theorem issues_some (value : Json) : issues (some value) = (readForest value).issues :=
  issues_of_read rfl

/-- The issues of an input that is there: it is no list, or the issues of its items. -/
theorem mem_issues_some_iff {value : Json} {cause : Issue.Cause} {place : List Step}
    : ⟨cause, place⟩ ∈ issues (some value)
      ↔ place = [] ∧ ShapeFault .array .array value cause
        ∨ ∃ items index item rest,
            value = .array items
            ∧ items[index]? = some item
            ∧ place = .index index :: rest
            ∧ ⟨cause, rest⟩ ∈ (readNode item).issues := by
  rw [issues_some, mem_issues_list_iff readForest_array readForest_of_shape_ne]

theorem mem_issues_none_iff {issue : Issue} : issue ∈ issues none ↔ issue = ⟨.missing, []⟩ :=
  List.mem_singleton

/-- Apart from repeated modifiers, the issues of an input are its misfits. -/
theorem mem_issues_iff_misfit {input : Option Json} {cause : Issue.Cause}
    {place : List Step}
    : ⟨cause, place⟩ ∈ issues input ∧ cause.isRepeat = false ↔ Misfit input place cause := by
  cases input with
  | none =>
      rw [mem_issues_none_iff]
      constructor
      · intro given
        obtain ⟨he, -⟩ := given
        obtain ⟨rfl, rfl⟩ := Issue.mk.inj he
        exact .missing
      · intro h
        cases h with
        | missing => exact ⟨rfl, rfl⟩
        | node reached fault =>
            obtain ⟨_, _, _, _, he, -⟩ := reached
            contradiction
  | some value =>
      rw [mem_issues_some_iff, misfit_some_iff]
      simp only [← mem_issues_readNode_iff_fault]
      constructor
      · intro given
        rcases given with ⟨⟨rfl, wrong⟩ | ⟨items, index, item, rest, rfl, element, rfl, hm⟩, hc⟩
        · exact .inl ⟨rfl, wrong⟩
        · exact .inr ⟨items, index, item, rest, rfl, element, rfl, hm, hc⟩
      · intro given
        rcases given with ⟨rfl, wrong⟩ | ⟨items, index, item, rest, rfl, element, rfl, hm, hc⟩
        · exact ⟨.inl ⟨rfl, wrong⟩, wrong.isRepeat⟩
        · exact ⟨.inr ⟨items, index, item, rest, rfl, element, rfl, hm⟩, hc⟩

/-- A modifier is listed as repeated exactly where the input repeats it. -/
theorem mem_issues_iff_repeated {input : Option Json} {modifier : Modifier}
    {place : List Step}
    : ⟨.repeatedModifier modifier, place⟩ ∈ issues input
      ↔ Repeated input place (.string modifier.label) := by
  constructor
  · intro h
    cases input with
    | none => cases mem_issues_none_iff.mp h
    | some value =>
        rcases mem_issues_some_iff.mp h with ⟨-, wrong⟩ | hi
        · cases wrong.2
        · obtain ⟨items, index, item, _, rfl, element, rfl, hm⟩ := hi
          obtain ⟨above, _, _, rfl, within, own⟩ := mem_issues_readNode_iff_repeat.mp ⟨hm, rfl⟩
          cases own with
          | modifier present found before same sound =>
              have reached : NodeAt (some (.array items)) (.index index :: above) (.object _) :=
                ⟨items, index, item, above, rfl, element, rfl, within⟩
              exact .modifier reached present found before same (reached.sound_iff.mp sound)
  · intro h
    cases h with
    | modifier reached present found before same fits =>
        have sound := reached.sound_iff.mpr fits
        obtain ⟨items, index, item, above, rfl, element, rfl, within⟩ := reached
        have own := NodeRepeat.modifier present found before same sound
        have hm := mem_issues_readNode_iff_repeat.mpr ⟨above, _, _, rfl, within, own⟩
        exact mem_issues_some_iff.mpr (.inr ⟨items, index, item, _, rfl, element, rfl, hm.1⟩)

/-- Every issue is a misfit or a repeated modifier. -/
theorem misfit_or_repeated {input : Option Json} {issue : Issue} (h : issue ∈ issues input)
    : Misfit input issue.place issue.cause
      ∨ ∃ modifier,
          issue.cause = .repeatedModifier modifier
          ∧ Repeated input issue.place (.string modifier.label) := by
  rcases issue with ⟨cause, place⟩
  cases cause with
  | repeatedModifier modifier => exact .inr ⟨modifier, rfl, mem_issues_iff_repeated.mp h⟩
  | _ => exact .inl (mem_issues_iff_misfit.mp ⟨h, rfl⟩)

theorem ordered_issues (input : Option Json) : (issues input).Pairwise Issue.Before := by
  cases input with
  | none => exact List.pairwise_singleton _ _
  | some value =>
      rw [issues_some]
      exact ordered_readForest (fun _ _ item _ => ordered_readNode item)

/-- No place is listed twice: issues of one sort are told apart by their ranks, and a repeated
modifier is not listed where something misfits.
-/
theorem nodup_places (input : Option Json) : ((issues input).map Issue.place).Nodup := by
  refine List.pairwise_map.mpr ((ordered_issues input).imp_of_mem ?_)
  intro first second hf hs before same
  rcases misfit_or_repeated hf with misfit | ⟨modifier, hc, repeated⟩
  · rcases misfit_or_repeated hs with other | ⟨modifier, -, repeated⟩
    · have sort := (mem_issues_iff_misfit.mpr misfit).2
      exact before.place_ne (sort.trans (mem_issues_iff_misfit.mpr other).2.symm) same
    · exact (same ▸ repeated).not_misfit misfit
  · rcases misfit_or_repeated hs with other | ⟨recurring, ho, -⟩
    · exact repeated.not_misfit (same ▸ other)
    · exact before.place_ne (by rw [hc, ho]; rfl) same

theorem nodup_issues (input : Option Json) : (issues input).Nodup :=
  (List.pairwise_map.mp (nodup_places input)).imp
    (fun differ same => differ (congrArg Issue.place same))

/-- Reading fails exactly with the issues of the input, of which there is then at least one. -/
theorem read_eq_error_iff {input : Option Json} {found : List Issue}
    : read input = .error found ↔ found = issues input ∧ issues input ≠ [] := by
  cases input with
  | none => exact (Validated.honest_refuse rfl).toExcept_eq_error_iff
  | some value =>
      rw [issues_some]
      exact (honest_readForest (fun _ _ item _ => honest_readNode item)).toExcept_eq_error_iff

end Declaration

namespace Issue.Cause

theorem label_mem_iff {cause : Issue.Cause}
    : cause.label ∈ [text "invalid_type", text "invalid_enum_value"]
      ↔ cause.isRepeat = false := by
  have differ : text "custom" ∉ [text "invalid_type", text "invalid_enum_value"] := by decide
  cases cause with
  | missing => exact iff_of_true List.mem_cons_self rfl
  | wrongShape expected received => exact iff_of_true List.mem_cons_self rfl
  | unknownLabel labels received =>
      exact iff_of_true (List.mem_cons_of_mem _ List.mem_cons_self) rfl
  | repeatedModifier modifier => exact iff_of_false differ (by simp [isRepeat])

theorem label_eq_custom_iff {cause : Issue.Cause}
    : cause.label = text "custom" ↔ ∃ modifier, cause = .repeatedModifier modifier := by
  have shape : text "invalid_type" ≠ text "custom" := by decide
  have unknown : text "invalid_enum_value" ≠ text "custom" := by decide
  cases cause <;> simp [label, shape, unknown]

end Issue.Cause

namespace Declaration

/-- The list of issues is exact. Reading fails if there are any; those of an invalid type or an
invalid label are the misfits of the input; those of the other sort are for the elements of a
list of modifiers that stand earlier in it already, wherever the node fits with all below it;
and the list is in order.
-/
theorem issues_exact (input : Option Json)
    : (∀ found, read input = .error found ↔ found = issues input ∧ issues input ≠ [])
      ∧ (∀ issue,
          issue ∈ issues input
            ∧ issue.cause.label ∈ [text "invalid_type", text "invalid_enum_value"]
          ↔ Misfit input issue.place issue.cause)
      ∧ (∀ place element,
          (∃ issue ∈ issues input, ∃ label,
            issue.place = place
            ∧ issue.cause.label = text "custom"
            ∧ issue.cause.message = text "duplicate modifier '" ++ label ++ text "'"
            ∧ element = .string label)
          ↔ Repeated input place element)
      ∧ (issues input).Pairwise Issue.Before := by
  refine ⟨fun _ => read_eq_error_iff, ?_, ?_, ordered_issues input⟩
  · intro issue
    obtain ⟨cause, place⟩ := issue
    rw [Issue.Cause.label_mem_iff]
    exact mem_issues_iff_misfit
  · intro place element
    constructor
    · intro given
      obtain ⟨⟨cause, _⟩, hm, label, rfl, hc, hg, rfl⟩ := given
      obtain ⟨modifier, rfl⟩ := Issue.Cause.label_eq_custom_iff.mp hc
      obtain rfl : modifier.label = label :=
        List.append_cancel_left (List.append_cancel_right hg)
      exact mem_issues_iff_repeated.mp hm
    · intro h
      obtain ⟨modifier, rfl⟩ := h.exists_modifier
      exact ⟨_, mem_issues_iff_repeated.mpr h, modifier.label, rfl, rfl, rfl, rfl⟩

end Declaration

end NamingAdvice
