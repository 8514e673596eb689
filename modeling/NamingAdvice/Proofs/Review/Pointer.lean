import NamingAdvice.Proofs.Declaration.IssueList
import NamingAdvice.Proofs.Review.Delivery

/-! The paths of advisories as pointers into the input. A path is cut at its slashes and followed
through the JSON value as it was given, defaults and unknown keys not touched; it ends at the
node that the declaration was read from, and no two nodes have the same path.
-/

namespace NamingAdvice

/-- The number that a segment writes in base ten, without leading zeros. -/
def Text.numeral? (segment : Text) : Option Nat :=
  if Text.ofNat segment.decimalValue = segment then some segment.decimalValue else none

@[simp]
theorem Text.numeral?_ofNat (value : Nat) : (Text.ofNat value).numeral? = some value := by
  rw [Text.numeral?, Text.decimalValue_ofNat, if_pos rfl]

namespace Json

/-- One step into a value: a numeral selects an item of a list, a key a member of an object. -/
def select? : Json → Text → Option Json
  | .array items, segment => segment.numeral?.bind (items[·]?)
  | .object members, segment => members.lookup segment
  | _, _ => none

/-- The value at the end of a walk along segments. -/
def walk? (value : Json) : List Text → Option Json
  | [] => some value
  | segment :: rest => (value.select? segment).bind (·.walk? rest)

/-- The value that a path points to: nothing stands before its first slash, and every segment
behind a slash is one step.
-/
def pointee? (value : Json) (path : Text) : Option Json :=
  match path.parts Text.slash with
  | [] :: segments => value.walk? segments
  | _ => none

end Json

namespace Survey

/-- The steps to a position below a node. -/
def placeBelow (position : List Nat) : List Step :=
  position.flatMap (fun index => [.key Key.children, .index index])

/-- The steps to a position of a forest in the value that it was read from. -/
def placeOf : List Nat → List Step
  | [] => []
  | index :: rest => .index index :: placeBelow rest

/-- The advisories about a forest, each with the position of the declaration that it was given
about.
-/
def attributed (base : Text) (forest : List Declaration) : List (List Nat × Advisory) :=
  (listing forest).flatMap
    (fun placed => (placed.advisories (pathOf base)).map (placed.position, ·))

theorem map_attributed (base : Text) (forest : List Declaration)
    : (attributed base forest).map Prod.snd = advisories base forest := by
  simp [attributed, advisories, List.map_flatMap, Function.comp_def]

theorem locate_of_mem_attributed {base : Text} {forest : List Declaration}
    {position : List Nat} {advisory : Advisory}
    (h : (position, advisory) ∈ attributed base forest)
    : advisory.path = pathOf base position
      ∧ ∃ parent, locate forest position = some (parent, advisory.declaration) := by
  obtain ⟨placed, hp, hm⟩ := List.mem_flatMap.mp h
  obtain ⟨found, hf, he⟩ := List.mem_map.mp hm
  obtain ⟨rfl, rfl⟩ := Prod.mk.inj he
  obtain ⟨code, -, rfl⟩ := List.mem_map.mp hf
  exact ⟨rfl, placed.parent, (mem_listing_iff forest placed).mp hp⟩

/-- The segments of a position are the steps to it in words. -/
theorem segments_eq_map_label (position : List Nat)
    : segments position = (placeOf position).map Step.label := by
  have below (position : List Nat)
      : segmentsBelow position = (placeBelow position).map Step.label := by
    rw [segmentsBelow, placeBelow, List.map_flatMap]
    rfl
  cases position with
  | nil => rfl
  | cons index rest =>
      rw [segments, below, placeOf, List.map_cons]
      rfl

theorem placeOf_injective {left right : List Nat} (h : placeOf left = placeOf right)
    : left = right := by
  apply segments_injective
  rw [segments_eq_map_label, segments_eq_map_label, h]

/-- A path without a base points along the segments of its position. -/
theorem pointee?_pathOf (value : Json) (position : List Nat)
    : value.pointee? (pathOf [] position) = value.walk? (segments position) := by
  have cut := Text.parts_append_slashed (List.not_mem_nil (a := Text.slash))
    (slash_not_mem_segments position)
  rw [Json.pointee?, pathOf_eq, cut]

end Survey

-----------------------------------------------------------------------------------------
-- The forest and the value are walked alike
-----------------------------------------------------------------------------------------

/-- Lists that are related item by item have related items at every index. -/
theorem forall₂_getElem? {α β : Type} {R : α → β → Prop} {items : List α} {values : List β}
    (each : List.Forall₂ R items values) {index : Nat} {value : β}
    (h : values[index]? = some value)
    : ∃ item, items[index]? = some item ∧ R item value := by
  induction each generalizing index with
  | nil => cases h
  | cons first rest ih =>
      cases index with
      | zero =>
          obtain rfl := Option.some.inj h
          exact ⟨_, rfl, first⟩
      | succ index => exact ih h

namespace Json

/-- A child of what a node depicts stands in the list of children of the node. -/
theorem Depicts.child {value : Json} {declaration child : Declaration} {index : Nat}
    (h : value.Depicts declaration) (hc : declaration.children[index]? = some child)
    : ∃ members items item,
        value = .object members
        ∧ members.lookup Key.children = some (.array items)
        ∧ items[index]? = some item
        ∧ item.Depicts child := by
  cases h with
  | @object members header items children held listed each =>
      obtain ⟨item, hi, depicted⟩ := forall₂_getElem? each hc
      refine ⟨members, items, item, rfl, ?_, hi, depicted⟩
      -- The default list is empty, so a list with an item in it is written out.
      cases hl : members.lookup Key.children with
      | none =>
          obtain rfl : items = [] := by simpa [hl] using listed.symm
          cases hi
      | some found => rw [← listed, hl, Option.getD_some]

/-- Walking down from a node goes along with looking up below the declaration that it depicts,
by induction on the position.
-/
theorem Depicts.walk?_of_locate {value : Json} {declaration found : Declaration}
    {parent above : Option Header} {position : List Nat} (h : value.Depicts declaration)
    (hl : declaration.locate parent position = some (above, found))
    : ∃ node,
        value.walk? (Survey.segmentsBelow position) = some node
        ∧ value.NodeWithin (Survey.placeBelow position) node
        ∧ node.Depicts found := by
  induction position generalizing value declaration parent with
  | nil =>
      obtain ⟨-, rfl⟩ := Prod.mk.inj (Option.some.inj hl)
      exact ⟨value, rfl, .here, h⟩
  | cons index rest ih =>
      obtain ⟨child, hc, hf⟩ := Option.bind_eq_some_iff.mp hl
      obtain ⟨members, items, item, rfl, listed, element, depicted⟩ := h.child hc
      obtain ⟨node, hw, within, hn⟩ := ih depicted hf
      refine ⟨node, ?_, .child listed element within, hn⟩
      have key : text "children" = Key.children := rfl
      simpa [Survey.segmentsBelow, walk?, select?, key, listed, element] using hw

/-- The same for a whole forest, whose positions start with an item of the outermost list. -/
theorem DepictsForest.walk?_of_locate {value : Json} {forest : List Declaration}
    {found : Declaration} {above : Option Header} {position : List Nat}
    (h : value.DepictsForest forest)
    (hl : Survey.locate forest position = some (above, found))
    : ∃ node,
        value.walk? (Survey.segments position) = some node
        ∧ NodeAt (some value) (Survey.placeOf position) node
        ∧ node.Depicts found := by
  obtain ⟨items, rfl, each⟩ := h
  cases position with
  | nil => cases hl
  | cons index rest =>
      obtain ⟨root, hr, hf⟩ := Option.bind_eq_some_iff.mp hl
      obtain ⟨item, element, depicted⟩ := forall₂_getElem? each hr
      obtain ⟨node, hw, within, hn⟩ := depicted.walk?_of_locate hf
      refine ⟨node, ?_, ⟨items, index, item, _, rfl, element, rfl, within⟩, hn⟩
      simpa [Survey.segments, walk?, select?, element] using hw

/-- Every node within a node depicts what stands at its position below the declaration that the
outer node depicts, by induction on the way to it.
-/
theorem Depicts.locate_of_nodeWithin {value node : Json} {declaration : Declaration}
    {place : List Step} (h : value.Depicts declaration) (within : value.NodeWithin place node)
    (parent : Option Header)
    : ∃ position above found,
        place = Survey.placeBelow position
        ∧ declaration.locate parent position = some (above, found)
        ∧ node.Depicts found := by
  induction within generalizing declaration parent with
  | here => exact ⟨[], parent, declaration, rfl, rfl, h⟩
  | @child members items index item place node listed element within ih =>
      cases h with
      | @object _ header written children held stated each =>
          obtain rfl : items = written := by simpa [listed] using stated
          obtain ⟨child, hc, depicted⟩ := forall₂_getElem? each.flip element
          obtain ⟨position, above, found, rfl, hl, hn⟩ := ih depicted (some header)
          exact ⟨index :: position, above, found, rfl,
            Option.bind_eq_some_iff.mpr ⟨child, hc, hl⟩, hn⟩

theorem DepictsForest.locate_of_nodeAt {value node : Json} {forest : List Declaration}
    {place : List Step} (h : value.DepictsForest forest) (reached : NodeAt (some value) place node)
    : ∃ position parent found,
        place = Survey.placeOf position
        ∧ Survey.locate forest position = some (parent, found)
        ∧ node.Depicts found := by
  obtain ⟨written, rfl, each⟩ := h
  obtain ⟨items, index, item, rest, he, element, rfl, within⟩ := reached
  obtain rfl := Json.array.inj (Option.some.inj he)
  obtain ⟨root, hr, depicted⟩ := forall₂_getElem? each.flip element
  obtain ⟨position, parent, found, rfl, hl, hn⟩ := depicted.locate_of_nodeWithin within none
  exact ⟨index :: position, parent, found, rfl,
    Option.bind_eq_some_iff.mpr ⟨root, hr, hl⟩, hn⟩

end Json

namespace Declaration

/-- What stands below a declaration without repeated modifiers has none either. -/
theorem Distinct.of_locate {declaration found : Declaration} {parent above : Option Header}
    {position : List Nat} (h : declaration.Distinct)
    (hl : declaration.locate parent position = some (above, found))
    : found.Distinct := by
  induction position generalizing declaration parent with
  | nil =>
      obtain ⟨-, rfl⟩ := Prod.mk.inj (Option.some.inj hl)
      exact h
  | cons index rest ih =>
      obtain ⟨child, hc, hf⟩ := Option.bind_eq_some_iff.mp hl
      obtain ⟨own, below⟩ := h
      exact ih (below child (List.mem_of_getElem? hc)) hf

/-- A node that was read as part of a forest is read the same on its own. -/
theorem read_singleton {value : Json} {forest : List Declaration} {found : Declaration}
    {above : Option Header} {position : List Nat} {node : Json}
    (h : read (some value) = .ok forest)
    (hl : Survey.locate forest position = some (above, found)) (hn : node.Depicts found)
    : read (some (.array [node])) = .ok [found] := by
  obtain ⟨-, distinct⟩ := read_eq_ok_iff.mp h
  apply read_eq_ok_iff.mpr
  refine ⟨⟨[node], rfl, .cons hn .nil⟩, ?_⟩
  intro declaration hm
  obtain rfl := List.mem_singleton.mp hm
  cases position with
  | nil => cases hl
  | cons index rest =>
      obtain ⟨root, hr, hf⟩ := Option.bind_eq_some_iff.mp hl
      exact (distinct root (List.mem_of_getElem? hr)).of_locate hf

end Declaration

namespace Review

/-- The paths of a review are unambiguous pointers into its input. The path of every advisory
leads from the value as it was given to the object at the position of the declaration that the
advisory is about; that object has the kind and the name of the declaration, and on its own it
is read as exactly this declaration. Two advisories have the same path if and only if they are
about the same position.
-/
theorem paths_point_into_input (clock : Clock) (value : Json)
    (accepted : (quietReview clock (some value)).ok = true)
    : ∃ forest,
        Declaration.read (some value) = .ok forest
        ∧ (quietReview clock (some value)).advisories
          = (Survey.attributed [] forest).map Prod.snd
        ∧ (∀ position advisory,
            (position, advisory) ∈ Survey.attributed [] forest
            → ∃ members,
                value.pointee? advisory.path = some (.object members)
                ∧ NodeAt (some value) (Survey.placeOf position) (.object members)
                ∧ members.lookup Key.kind = some (.string advisory.declaration.kind.label)
                ∧ members.lookup Key.name = some (.string advisory.declaration.name)
                ∧ Declaration.read (some (.array [.object members]))
                  = .ok [advisory.declaration])
        ∧ ∀ first ∈ Survey.attributed [] forest, ∀ second ∈ Survey.attributed [] forest,
            first.2.path = second.2.path ↔ first.1 = second.1 := by
  cases h : Declaration.read (some value) with
  | error issues =>
      rw [quietReview_of_error clock h] at accepted
      contradiction
  | ok forest =>
      refine ⟨forest, rfl, ?_, ?_, ?_⟩
      · rw [quietReview_of_ok clock h, Survey.map_attributed]
      · intro position advisory hm
        obtain ⟨hp, parent, hl⟩ := Survey.locate_of_mem_attributed hm
        have depicted := (Declaration.read_eq_ok_iff.mp h).1
        obtain ⟨node, hw, reached, hn⟩ := depicted.walk?_of_locate hl
        have alone := Declaration.read_singleton h hl hn
        rw [hp, Survey.pointee?_pathOf]
        cases hd : advisory.declaration with
        | mk header children =>
            rw [hd] at hn alone
            obtain ⟨held, -, -⟩ := hn
            exact ⟨_, hw, reached, held.kind, held.name, alone⟩
      · intro first hf second hs
        obtain ⟨pf, -⟩ := Survey.locate_of_mem_attributed hf
        obtain ⟨ps, -⟩ := Survey.locate_of_mem_attributed hs
        rw [pf, ps]
        constructor
        · exact Survey.pathOf_injective
        · intro same
          rw [same]

/-- A class with eleven fields in capitals, with a key that means nothing and members in
another order than they are read in.
-/
def gridInput : Json :=
  .array [.object [
    (text "line", .null),
    (Key.children,
      .array (List.replicate 11 (.object [
        (Key.name, .string (text "CELL")), (Key.kind, .string (text "field"))]))),
    (Key.name, .string (text "Grid")),
    (Key.kind, .string (text "class"))]]

/-- The path of the last field leads to the eleventh item and not to the second. -/
theorem gridInput_path_points
    : (quietReview ⟨0, []⟩ (some gridInput)).ok = true
      ∧ ∃ advisory ∈ (quietReview ⟨0, []⟩ (some gridInput)).advisories,
          advisory.path = text "/0/children/10"
          ∧ ∃ members,
              gridInput.pointee? (text "/0/children/10") = some (.object members)
              ∧ members.lookup Key.name = some (.string advisory.declaration.name)
              ∧ Declaration.read (some (.array [.object members]))
                = .ok [advisory.declaration] := by
  have accepted : (quietReview ⟨0, []⟩ (some gridInput)).ok = true := by decide +kernel
  have listed : text "/0/children/10"
      ∈ (quietReview ⟨0, []⟩ (some gridInput)).advisories.map (·.path) := by decide +kernel
  refine ⟨accepted, ?_⟩
  obtain ⟨forest, -, given, points, -⟩ := paths_point_into_input ⟨0, []⟩ gridInput accepted
  obtain ⟨advisory, hm, hp⟩ := List.mem_map.mp listed
  have placed := hm
  rw [given] at placed
  obtain ⟨entry, he, rfl⟩ := List.mem_map.mp placed
  obtain ⟨members, reached, -, -, name, alone⟩ := points entry.1 entry.2 he
  exact ⟨entry.2, hm, hp, members, hp ▸ reached, name, alone⟩

end Review

end NamingAdvice
