import NamingAdvice.Proofs.Survey.EmissionOrder

/-! How far the context of a declaration reaches. A declaration takes the kind and the name that
enclose it from its own header or from the one right above, so a forest can be cut anywhere:
once these facts are written into the headers, the declarations may stand side by side, and what
is below a declaration may be surveyed on its own.
-/

namespace NamingAdvice

namespace Header

/-- A header with what it leaves out about its surroundings taken from the header right above:
the kind in any case, the name only if a type stands there.
-/
def within (above header : Header) : Header :=
  { header with
    enclosingKind := some (header.enclosingKind.getD above.kind)
    enclosingName :=
      if above.kind ∈ Kind.types then some (header.enclosingName.getD above.name)
      else header.enclosingName }

/-- A header with its surroundings filled in from its parent; a root keeps its own. -/
def settled (header : Header) : Option Header → Header
  | none => header
  | some above => within above header

end Header

/-- A declaration with its own surroundings filled in from a header right above. -/
def Declaration.within (above : Header) (declaration : Declaration) : Declaration :=
  ⟨Header.within above declaration.toHeader, declaration.children⟩

mutual

/-- A declaration and everything below it side by side, parent first, each with its surroundings
filled in and without its children.
-/
def Declaration.flatten (parent : Option Header) : Declaration → List Declaration
  | ⟨header, children⟩ =>
      ⟨header.settled parent, []⟩ :: Survey.flattenEach (some header) children

/-- Declarations side by side, each followed by everything below it. -/
def Survey.flattenEach (parent : Option Header) : List Declaration → List Declaration
  | [] => []
  | declaration :: rest => declaration.flatten parent ++ Survey.flattenEach parent rest

end

/-- A whole forest side by side. -/
def Survey.flatten (forest : List Declaration) : List Declaration :=
  Survey.flattenEach none forest

/-- What an advisory says, its path apart: its code and message, and the kind and the name of
the declaration.
-/
def Advisory.content (advisory : Advisory) : Advisory.Code × Text × Kind × Text :=
  (advisory.code, advisory.message, advisory.declaration.kind, advisory.declaration.name)

-----------------------------------------------------------------------------------------
-- The surroundings of a declaration
-----------------------------------------------------------------------------------------

namespace Header

theorem resolvedKind_settled (header : Header) (parent : Option Header)
    : (header.settled parent).resolvedKind none = header.resolvedKind parent := by
  cases parent with
  | none => rfl
  | some above => cases hk : header.enclosingKind <;> simp [settled, within, resolvedKind, hk]

theorem resolvedName_settled (header : Header) (parent : Option Header)
    : (header.settled parent).resolvedName none = header.resolvedName parent := by
  cases parent with
  | none => rfl
  | some above =>
      by_cases ht : above.kind ∈ Kind.types <;> cases hn : header.enclosingName <;>
        simp [settled, within, resolvedName, Kind.category_eq_type_iff, Option.filter_some,
          ht, hn]

theorem kind_settled (header : Header) (parent : Option Header)
    : (header.settled parent).kind = header.kind := by
  cases parent <;> rfl

theorem name_settled (header : Header) (parent : Option Header)
    : (header.settled parent).name = header.name := by
  cases parent <;> rfl

/-- With its surroundings filled in, a header is advised as before without looking above. -/
theorem advice_settled (header : Header) (parent : Option Header)
    : (header.settled parent).advice none = header.advice parent := by
  have like : (header.settled parent).namedLikeType none = header.namedLikeType parent := by
    rw [namedLikeType, namedLikeType, kind_settled, name_settled, resolvedName_settled]
  have standing : (header.settled parent).standing none = header.standing parent := by
    rw [Header.standing, Header.standing, kind_settled, resolvedKind_settled]
    cases parent <;> rfl
  rw [advice, advice, like, standing, name_settled]

/-- Headers of the same kind above a declaration leave its advice as it is, if types among them
have the same name.
-/
theorem advice_congr_above (header : Header) {above beyond : Header}
    (hk : above.kind = beyond.kind) (hn : beyond.kind ∈ Kind.types → above.name = beyond.name)
    : header.advice (some above) = header.advice (some beyond) := by
  have kind : header.resolvedKind (some above) = header.resolvedKind (some beyond) :=
    resolvedKind_congr rfl hk
  have name : header.resolvedName (some above) = header.resolvedName (some beyond) :=
    resolvedName_congr rfl hk hn
  rw [advice, advice, namedLikeType, namedLikeType, standing, standing, kind, name]

/-- What is said about a declaration with a header below a parent, paths apart. -/
def contents (header : Header) (parent : Option Header)
    : List (Advisory.Code × Text × Kind × Text) :=
  (header.advice parent).map
    (fun code => (code, code.message header.name, header.kind, header.name))

theorem contents_settled (header : Header) (parent : Option Header)
    : (header.settled parent).contents none = header.contents parent := by
  rw [contents, contents, advice_settled, name_settled, kind_settled]

theorem contents_congr_above (header : Header) {above beyond : Header}
    (hk : above.kind = beyond.kind) (hn : beyond.kind ∈ Kind.types → above.name = beyond.name)
    : header.contents (some above) = header.contents (some beyond) := by
  rw [contents, contents, header.advice_congr_above hk hn]

end Header

-----------------------------------------------------------------------------------------
-- The whole forest side by side
-----------------------------------------------------------------------------------------

namespace Survey

theorem map_content_advisories (base : Text) (forest : List Declaration)
    : (advisories base forest).map Advisory.content
      = (listing forest).flatMap (fun placed =>
          placed.declaration.toHeader.contents placed.parent) := by
  rw [advisories, List.map_flatMap]
  apply List.flatMap_congr
  intro placed _
  rw [Placed.advisories, List.map_map]
  rfl

end Survey

mutual

/-- Flattening goes along with the listing. -/
theorem Declaration.flatten_eq_map (parent : Option Header) (declaration : Declaration)
    : declaration.flatten parent
      = (declaration.listing parent).map (fun placed =>
          ⟨placed.declaration.toHeader.settled placed.parent, []⟩) := by
  rcases declaration with ⟨header, children⟩
  rw [Declaration.flatten, Declaration.listing, List.map_cons,
    Survey.flattenEach_eq_map (some header) 0 children]

theorem Survey.flattenEach_eq_map (parent : Option Header) (index : Nat)
    (declarations : List Declaration)
    : Survey.flattenEach parent declarations
      = (Survey.listingFrom parent index declarations).map (fun placed =>
          ⟨placed.declaration.toHeader.settled placed.parent, []⟩) := by
  cases declarations with
  | nil => rfl
  | cons declaration rest =>
      rw [Survey.flattenEach, Survey.listingFrom, List.map_append, List.map_map,
        Declaration.flatten_eq_map parent declaration,
        Survey.flattenEach_eq_map parent (index + 1) rest]
      rfl

end

namespace Survey

/-- Declarations without children are listed as they stand. -/
theorem flatMap_contents_childless (index : Nat) (headers : List Header)
    : (listingFrom none index (headers.map (⟨·, []⟩))).flatMap
        (fun placed => placed.declaration.toHeader.contents placed.parent)
      = headers.flatMap (·.contents none) := by
  induction headers generalizing index with
  | nil => rfl
  | cons header rest ih =>
      rw [List.map_cons, listingFrom, List.flatMap_append, List.flatMap_cons, ih,
        Declaration.listing, listingFrom]
      simp [Placed.under]

theorem map_content_flatten (base other : Text) (forest : List Declaration)
    : (advisories base forest).map Advisory.content
      = (advisories other (flatten forest)).map Advisory.content := by
  have side : flatten forest
      = ((listing forest).map (fun placed =>
          placed.declaration.toHeader.settled placed.parent)).map (⟨·, []⟩) := by
    rw [flatten, flattenEach_eq_map none 0 forest, List.map_map]
    rfl
  have alone := flatMap_contents_childless 0 ((listing forest).map (fun placed =>
    placed.declaration.toHeader.settled placed.parent))
  rw [List.flatMap_map] at alone
  simp only [Header.contents_settled] at alone
  rw [map_content_advisories, map_content_advisories, side]
  exact alone.symm

-----------------------------------------------------------------------------------------
-- What is below a declaration
-----------------------------------------------------------------------------------------

/-- An advisory has the path of a position below a given one. -/
def Below (base : Text) (position : List Nat) (advisory : Advisory) : Prop :=
  ∃ index rest, advisory.path = pathOf base (position ++ index :: rest)

/-- What is said about a placed declaration, with the path that its position has. -/
def tellings (path : List Nat → Text) (placed : Placed)
    : List (Text × Advisory.Code × Text × Kind × Text) :=
  (placed.declaration.toHeader.contents placed.parent).map (path placed.position, ·)

theorem map_advisories_eq_tellings (path : List Nat → Text) (placed : List Placed)
    : (placed.flatMap (Placed.advisories path)).map
        (fun advisory => (advisory.path, advisory.content))
      = placed.flatMap (tellings path) := by
  rw [List.map_flatMap]
  apply List.flatMap_congr
  intro one _
  rw [Placed.advisories, tellings, Header.contents, List.map_map, List.map_map]
  rfl

theorem pathBelow_append (path : Text) (position below : List Nat)
    : pathBelow path (position ++ below) = pathBelow (pathBelow path position) below := by
  induction position generalizing path with
  | nil => rfl
  | cons index rest ih => exact ih _

/-- The paths below a position start with its path and the step to its children. -/
theorem pathOf_append {position : List Nat} (h : position ≠ []) (base : Text) (index : Nat)
    (rest : List Nat)
    : pathOf base (position ++ index :: rest)
      = pathOf (childBase (pathOf base position)) (index :: rest) := by
  cases position with
  | nil => contradiction
  | cons root above => exact pathBelow_append _ above (index :: rest)

/-- Siblings are told about one by one, each before everything below it. -/
theorem flatMap_tellings_cons (parent : Option Header) (path : List Nat → Text) (index : Nat)
    (declaration : Declaration) (rest : List Declaration)
    : (listingFrom parent index (declaration :: rest)).flatMap (tellings path)
      = (declaration.toHeader.contents parent).map (path [index], ·)
        ++ (listingFrom (some declaration.toHeader) 0 declaration.children).flatMap
            (tellings (fun position => path (index :: position)))
        ++ (listingFrom parent (index + 1) rest).flatMap (tellings path) := by
  rcases declaration with ⟨header, children⟩
  rw [listingFrom, List.flatMap_append, Declaration.listing, List.flatMap_map,
    List.flatMap_cons]
  rfl

/-- Siblings below headers of the same kind are told about alike, if types among the headers have
the same name.
-/
theorem flatMap_tellings_above {above beyond : Header} (hk : above.kind = beyond.kind)
    (hn : beyond.kind ∈ Kind.types → above.name = beyond.name) (path : List Nat → Text)
    (index : Nat) (declarations : List Declaration)
    : (listingFrom (some above) index declarations).flatMap (tellings path)
      = (listingFrom (some beyond) index declarations).flatMap (tellings path) := by
  induction declarations generalizing index with
  | nil => rfl
  | cons declaration rest ih =>
      rw [flatMap_tellings_cons, flatMap_tellings_cons, ih,
        declaration.contents_congr_above hk hn]

/-- Siblings with their surroundings filled in are told about alike without the header above:
it matters to them alone, and to those below only their own kinds and names do.
-/
theorem flatMap_tellings_within (above : Header) (path : List Nat → Text) (index : Nat)
    (declarations : List Declaration)
    : (listingFrom (some above) index declarations).flatMap (tellings path)
      = (listingFrom none index (declarations.map (Declaration.within above))).flatMap
          (tellings path) := by
  induction declarations generalizing index with
  | nil => rfl
  | cons declaration rest ih =>
      have own := declaration.contents_settled (some above)
      have kind : declaration.kind = (declaration.within above).kind := rfl
      have name : declaration.name = (declaration.within above).name := rfl
      have below := flatMap_tellings_above kind (fun _ => name)
        (fun position => path (index :: position)) 0 declaration.children
      rw [List.map_cons, flatMap_tellings_cons, flatMap_tellings_cons, ih, ← own, below]
      rfl

/-- The advisories below a declaration stand in one piece, behind those about the declaration
itself.
-/
theorem advisories_split_below (base : Text) {forest : List Declaration}
    {position : List Nat} {parent : Option Header} {declaration : Declaration}
    (h : locate forest position = some (parent, declaration))
    : ∃ before after,
        advisories base forest
          = before
            ++ ((listingFrom (some declaration.toHeader) 0 declaration.children).map
                (·.below position)).flatMap (Placed.advisories (pathOf base))
            ++ after
        ∧ ∀ advisory ∈ before ++ after, ¬ Below base position advisory := by
  obtain ⟨before, after, he, hn⟩ := listing_block h
  rcases declaration with ⟨header, children⟩
  let own : Placed := ⟨position, parent, ⟨header, children⟩⟩
  refine ⟨(before ++ [own]).flatMap (Placed.advisories (pathOf base)),
    after.flatMap (Placed.advisories (pathOf base)), ?_, ?_⟩
  · rw [advisories, he, Declaration.listing]
    simp [own, Placed.below]
  · intro advisory hm below
    obtain ⟨index, rest, hp⟩ := below
    rw [← List.flatMap_append] at hm
    obtain ⟨placed, hpl, ha⟩ := List.mem_flatMap.mp hm
    obtain ⟨code, -, rfl⟩ := List.mem_map.mp ha
    have same : placed.position = position ++ index :: rest := pathOf_injective hp
    have outside : placed ∈ before ++ after ∨ placed = own := by
      simp only [List.mem_append, List.mem_singleton] at hpl ⊢
      rcases hpl with (hb | ho) | haft
      · exact Or.inl (Or.inl hb)
      · exact Or.inr ho
      · exact Or.inl (Or.inr haft)
    rcases outside with hb | rfl
    · exact hn placed hb ⟨index :: rest, same.symm⟩
    · simp [own] at same

/-- A declaration reaches no further than its own children, so a survey can be cut anywhere. The
forest side by side, with the surroundings of every declaration filled in from the one right
above, gives the same codes and messages about the same kinds and names, in the same order. What
is emitted for everything below a declaration is one piece of the survey, and the same as from a
survey of its children on their own, paths included, with their surroundings filled in.
-/
theorem received_flatten {σ : Type} (sink : Advisory → StateM σ Unit) (state : σ)
    (forest : List Declaration)
    : (∀ base other,
        (received sink base forest state).map Advisory.content
          = (received sink other (flatten forest) state).map Advisory.content)
      ∧ ∀ base position parent declaration,
          locate forest position = some (parent, declaration)
          → ∃ before part after,
              received sink base forest state = before ++ part ++ after
              ∧ (∀ advisory ∈ part, Below base position advisory)
              ∧ (∀ advisory ∈ before ++ after, ¬ Below base position advisory)
              ∧ part.map (fun advisory => (advisory.path, advisory.content))
                = (received sink (childBase (pathOf base position))
                    (declaration.children.map (Declaration.within declaration.toHeader))
                    state).map
                  (fun advisory => (advisory.path, advisory.content)) := by
  simp only [received_eq]
  refine ⟨fun base other => map_content_flatten base other forest, ?_⟩
  intro base position parent declaration h
  obtain ⟨before, after, he, outside⟩ := advisories_split_below base h
  refine ⟨before, _, after, he, ?_, outside, ?_⟩
  · intro advisory hm
    obtain ⟨placed, hp, ha⟩ := List.mem_flatMap.mp hm
    obtain ⟨inner, hi, rfl⟩ := List.mem_map.mp hp
    obtain ⟨code, -, rfl⟩ := List.mem_map.mp ha
    obtain ⟨index, rest, -, hpos, -⟩ := position_of_mem_listingFrom hi
    exact ⟨0 + index, rest, by rw [← hpos]; rfl⟩
  · have nonempty : position ≠ [] := by
      intro empty
      rw [empty] at h
      cases h
    rw [map_advisories_eq_tellings, advisories, map_advisories_eq_tellings, listing,
      ← flatMap_tellings_within, List.flatMap_map]
    apply List.flatMap_congr
    intro placed hm
    obtain ⟨index, rest, -, hpos, -⟩ := position_of_mem_listingFrom hm
    simp only [tellings, Placed.below, hpos, pathOf_append nonempty]

/-- An interface with a method of its own name and a field; the method has a parameter. -/
def limitsInterface : Declaration :=
  ⟨⟨.interfaceType, text "Limits", [], none, none, false⟩,
    [⟨⟨.method, text "Limits", [], none, none, false⟩,
        [⟨⟨.parameter, text "Bound", [], none, none, false⟩, []⟩]⟩,
      ⟨⟨.field, text "maxItems", [], none, none, false⟩, []⟩]⟩

/-- The method and the field are told about as before when they stand without the interface. -/
theorem limitsInterface_cut
    : locate [limitsInterface] [0] = some (none, limitsInterface)
      ∧ ∃ before part after,
          received (fun _ => pure ()) (text "/base") [limitsInterface] ()
            = before ++ part ++ after
          ∧ (∀ advisory ∈ part, Below (text "/base") [0] advisory)
          ∧ (∀ advisory ∈ before ++ after, ¬ Below (text "/base") [0] advisory)
          ∧ part.map (fun advisory => (advisory.path, advisory.content))
            = (received (fun _ => pure ()) (childBase (pathOf (text "/base") [0]))
                (limitsInterface.children.map
                  (Declaration.within limitsInterface.toHeader)) ()).map
              (fun advisory => (advisory.path, advisory.content)) :=
  ⟨rfl, (received_flatten (fun _ => pure ()) () [limitsInterface]).2 (text "/base") [0] _ _ rfl⟩

end Survey

end NamingAdvice
