import Mathlib.Data.List.Forall2
import NamingAdvice.Proofs.Advisory.Grounds
import NamingAdvice.Proofs.Survey.Listing

/-! What modifiers and known values have to do with advisories. Two forests of the same shape that
differ in nothing else are surveyed side by side: their advisories are the same exactly if the
same variables count as constants in both. A variable that counts as a constant in one of them
only is never passed over, since no name is both in all caps and in lower camel case.
-/

namespace NamingAdvice

-----------------------------------------------------------------------------------------
-- Forests that differ in modifiers and known values
-----------------------------------------------------------------------------------------

/-- Headers that say the same, modifiers and known values apart. -/
structure Header.Akin (left right : Header) : Prop where
  kind : left.kind = right.kind
  name : left.name = right.name
  enclosingKind : left.enclosingKind = right.enclosingKind
  enclosingName : left.enclosingName = right.enclosingName

/-- Declarations of the same shape, with headers that say the same node by node, modifiers and
known values apart.
-/
inductive Declaration.Akin : Declaration → Declaration → Prop
  | node {left right : Header} {lefts rights} (own : left.Akin right)
    (below : List.Forall₂ Declaration.Akin lefts rights)
    : Declaration.Akin ⟨left, lefts⟩ ⟨right, rights⟩

/-- A header makes its declaration a constant: by a known value, or by the modifiers of a
constant field.
-/
def Header.DeclaredConstant (header : Header) : Prop :=
  header.constantValueKnown = true
  ∨ header.kind = .field
    ∧ .isPublic ∈ header.modifiers
    ∧ .isStatic ∈ header.modifiers
    ∧ .isFinal ∈ header.modifiers

/-- Two headers below a parent make constants of their declarations alike, where that is left to
them: in a variable that does not stand in an interface.
-/
def Header.AgreeOnConstant (parent : Option Header) (left right : Header) : Prop :=
  left.kind ∈ Kind.variables
  → ¬ left.EnclosedBy parent .interfaceType
  → (left.DeclaredConstant ↔ right.DeclaredConstant)

/-- Placed declarations that stand at the same position, with headers and parents that say the
same, modifiers and known values apart.
-/
structure Placed.Akin (left right : Placed) : Prop where
  position : left.position = right.position
  parent : Option.Rel Header.Akin left.parent right.parent
  header : left.declaration.toHeader.Akin right.declaration.toHeader

theorem Header.Akin.symm {left right : Header} (h : left.Akin right) : right.Akin left :=
  ⟨h.kind.symm, h.name.symm, h.enclosingKind.symm, h.enclosingName.symm⟩

theorem Placed.Akin.symm {left right : Placed} (h : left.Akin right) : right.Akin left := by
  obtain ⟨_, above, _⟩ := left
  obtain ⟨_, beyond, _⟩ := right
  obtain ⟨position, parent, header⟩ := h
  refine ⟨position.symm, ?_, header.symm⟩
  cases parent with
  | none => exact .none
  | some akin => exact .some akin.symm

/-- Everything in a list has something that it is related to in the other. -/
theorem forall₂_exists_of_mem {α β : Type} {R : α → β → Prop} {lefts : List α}
    {rights : List β} (h : List.Forall₂ R lefts rights) {left : α} (hm : left ∈ lefts)
    : ∃ right ∈ rights, R left right := by
  induction h with
  | nil => cases hm
  | cons first rest ih =>
      rcases List.mem_cons.mp hm with rfl | hm
      · exact ⟨_, List.mem_cons_self, first⟩
      · obtain ⟨right, hr, related⟩ := ih hm
        exact ⟨right, List.mem_cons_of_mem _ hr, related⟩

mutual

theorem Declaration.listing_akin (left right : Declaration) (h : left.Akin right)
    {above beyond : Option Header} (hp : Option.Rel Header.Akin above beyond)
    : List.Forall₂ Placed.Akin (left.listing above) (right.listing beyond) := by
  rcases left with ⟨left, lefts⟩
  cases h with
  | @node _ right _ rights own below =>
      rw [Declaration.listing, Declaration.listing]
      exact .cons ⟨rfl, hp, own⟩ (Survey.listingFrom_akin lefts rights below (.some own) 0)

theorem Survey.listingFrom_akin (lefts rights : List Declaration)
    (h : List.Forall₂ Declaration.Akin lefts rights) {above beyond : Option Header}
    (hp : Option.Rel Header.Akin above beyond) (index : Nat)
    : List.Forall₂ Placed.Akin (Survey.listingFrom above index lefts)
        (Survey.listingFrom beyond index rights) := by
  rcases lefts with _ | ⟨left, lefts⟩
  · cases h
    rw [Survey.listingFrom, Survey.listingFrom]
    exact .nil
  · cases h with
    | @cons _ right _ rights first rest =>
        rw [Survey.listingFrom, Survey.listingFrom]
        refine List.rel_append ?_ (Survey.listingFrom_akin lefts rights rest hp (index + 1))
        refine List.rel_map ?_ (Declaration.listing_akin left right first hp)
        intro one other akin
        obtain ⟨same, parent, header⟩ := akin
        exact ⟨congrArg (index :: ·) same, parent, header⟩

end

/-- What is looked up at the same position of such forests says the same, parents included. -/
theorem Survey.akin_of_locate {left right : List Declaration}
    (h : List.Forall₂ Declaration.Akin left right) {position : List Nat}
    {above beyond : Option Header} {first second : Declaration}
    (hl : Survey.locate left position = some (above, first))
    (hr : Survey.locate right position = some (beyond, second))
    : Placed.Akin ⟨position, above, first⟩ ⟨position, beyond, second⟩ := by
  have listed := (Survey.mem_listing_iff left ⟨position, above, first⟩).mpr hl
  obtain ⟨other, ho, akin⟩ := forall₂_exists_of_mem
    (Survey.listingFrom_akin left right h .none 0) listed
  obtain ⟨place, parent, declaration⟩ := other
  obtain rfl : position = place := akin.position
  have found := (Survey.mem_listing_iff right ⟨position, parent, declaration⟩).mp ho
  obtain ⟨rfl, rfl⟩ := Prod.mk.inj (Option.some.inj (hr.symm.trans found))
  exact akin

-----------------------------------------------------------------------------------------
-- Constants and advice
-----------------------------------------------------------------------------------------

namespace Header

theorem Akin.resolvedKind_eq {left right : Header} (h : left.Akin right)
    {above beyond : Option Header} (hp : Option.Rel Akin above beyond)
    : left.resolvedKind above = right.resolvedKind beyond := by
  cases hp with
  | none => rw [resolvedKind, resolvedKind, h.enclosingKind]
  | some parent => exact resolvedKind_congr h.enclosingKind parent.kind

theorem Akin.resolvedName_eq {left right : Header} (h : left.Akin right)
    {above beyond : Option Header} (hp : Option.Rel Akin above beyond)
    : left.resolvedName above = right.resolvedName beyond := by
  cases hp with
  | none => rw [resolvedName, resolvedName, h.enclosingName]
  | some parent => exact resolvedName_congr h.enclosingName parent.kind (fun _ => parent.name)

theorem Akin.enclosedBy_iff {left right : Header} (h : left.Akin right)
    {above beyond : Option Header} (hp : Option.Rel Akin above beyond) (kind : Kind)
    : left.EnclosedBy above kind ↔ right.EnclosedBy beyond kind := by
  rw [← resolvedKind_eq_some_iff, ← resolvedKind_eq_some_iff, h.resolvedKind_eq hp]

theorem constantByContext_iff (header : Header) (parent : Option Header)
    : header.ConstantByContext parent
      ↔ header.EnclosedBy parent .interfaceType ∨ header.DeclaredConstant := by
  rw [ConstantByContext, DeclaredConstant, or_comm (a := header.constantValueKnown = true)]

/-- Headers that agree on constants count as constants alike in any variable. -/
theorem Akin.constantByContext_iff {left right : Header} (h : left.Akin right)
    {above beyond : Option Header} (hp : Option.Rel Akin above beyond)
    (agree : AgreeOnConstant above left right) (hk : left.kind ∈ Kind.variables)
    : left.ConstantByContext above ↔ right.ConstantByContext beyond := by
  rw [Header.constantByContext_iff, Header.constantByContext_iff, ← h.enclosedBy_iff hp]
  by_cases inside : left.EnclosedBy above .interfaceType
  · simp [inside]
  · rw [agree hk inside]

/-- Headers that agree on constants follow the same conventions. -/
theorem Akin.follows_iff {left right : Header} (h : left.Akin right)
    {above beyond : Option Header} (hp : Option.Rel Akin above beyond)
    (agree : AgreeOnConstant above left right) (convention : Convention)
    : left.Follows above convention ↔ right.Follows beyond convention := by
  have constants := h.constantByContext_iff hp agree
  cases convention with
  | upperCamelCase => rw [Follows, Follows, h.kind]
  | lowerCamelCase =>
      rw [Follows, Follows, IsLowerCamel, IsLowerCamel, ← h.kind]
      exact or_congr Iff.rfl (and_congr_right (fun hk => not_congr (constants hk)))
  | allCapsUnderscore =>
      rw [Follows, Follows, IsConstant, IsConstant, ← h.kind]
      exact or_congr Iff.rfl (and_congr_right constants)

/-- Headers that agree on constants are advised alike. -/
theorem Akin.advice_eq {left right : Header} (h : left.Akin right)
    {above beyond : Option Header} (hp : Option.Rel Akin above beyond)
    (agree : AgreeOnConstant above left right)
    : left.advice above = right.advice beyond := by
  have liken : left.namedLikeType above = right.namedLikeType beyond := by
    rw [namedLikeType, namedLikeType, h.kind, h.name, h.resolvedName_eq hp]
  have conventions : (left.standing above).convention? = (right.standing beyond).convention? := by
    apply Option.ext
    intro convention
    rw [convention?_eq_some_iff, convention?_eq_some_iff]
    exact h.follows_iff hp agree convention
  rw [advice, advice, liken, conventions, h.name]

/-- A constant whose counterpart is advised alike has a constant for its counterpart. Otherwise
a name in all caps would be advised to start in lower case on one side only, and any other name
to be in all caps on the other side only.
-/
theorem Akin.declaredConstant_of_advice {left right : Header} (h : left.Akin right)
    {above beyond : Option Header} (hp : Option.Rel Akin above beyond)
    (same : ∀ code, code ∈ left.advice above ↔ code ∈ right.advice beyond)
    (hk : left.kind ∈ Kind.variables) (outside : ¬ left.EnclosedBy above .interfaceType)
    (constant : left.DeclaredConstant)
    : right.DeclaredConstant := by
  by_contra undeclared
  have constantLeft : left.ConstantByContext above :=
    (Header.constantByContext_iff left above).mpr (Or.inr constant)
  have variableRight : ¬ right.ConstantByContext beyond := by
    rw [Header.constantByContext_iff, ← h.enclosedBy_iff hp]
    exact not_or.mpr ⟨outside, undeclared⟩
  by_cases caps : Name.InCaps left.name
  · have lower : Advisory.Code.initialLower ∈ right.advice beyond :=
      (mem_advice_iff right beyond _).mpr
        ⟨Or.inr ⟨h.kind ▸ hk, variableRight⟩, h.name ▸ caps.starts⟩
    obtain ⟨method | ⟨-, context⟩, -⟩ := (mem_advice_iff left above _).mp ((same _).mpr lower)
    · rw [method] at hk
      exact absurd hk (by decide)
    · exact context constantLeft
  · have upper : Advisory.Code.allCaps ∈ left.advice above :=
      (mem_advice_iff left above _).mpr ⟨Or.inr ⟨hk, constantLeft⟩, caps⟩
    obtain ⟨enum | ⟨-, context⟩, -⟩ := (mem_advice_iff right beyond _).mp ((same _).mp upper)
    · rw [h.kind, enum] at hk
      exact absurd hk (by decide)
    · exact variableRight context

end Header

-----------------------------------------------------------------------------------------
-- The surveys side by side
-----------------------------------------------------------------------------------------

/-- What an advisory says: its code, its path and its message. -/
def Advisory.saying (advisory : Advisory) : Advisory.Code × Text × Text :=
  (advisory.code, advisory.path, advisory.message)

/-- Related lists are mapped to the same list if related members are. -/
theorem flatMap_eq_of_forall₂ {α β γ : Type} {R : α → β → Prop} {f : α → List γ}
    {g : β → List γ} {lefts : List α} {rights : List β} (h : List.Forall₂ R lefts rights)
    (each : ∀ left ∈ lefts, ∀ right ∈ rights, R left right → f left = g right)
    : lefts.flatMap f = rights.flatMap g := by
  induction h with
  | nil => rfl
  | cons first rest ih =>
      rw [List.flatMap_cons, List.flatMap_cons,
        each _ List.mem_cons_self _ List.mem_cons_self first]
      rw [ih (fun left hl right hr =>
        each left (List.mem_cons_of_mem _ hl) right (List.mem_cons_of_mem _ hr))]

theorem Placed.Akin.map_saying_eq {left right : Placed} (h : left.Akin right)
    (agree : Header.AgreeOnConstant left.parent left.declaration.toHeader
      right.declaration.toHeader)
    (path : List Nat → Text)
    : (left.advisories path).map Advisory.saying
      = (right.advisories path).map Advisory.saying := by
  rw [Placed.advisories, Placed.advisories, List.map_map, List.map_map,
    h.header.advice_eq h.parent agree, h.position]
  apply List.map_congr_left
  intro code _
  simp only [Function.comp_apply, Advisory.saying, Advisory.message, h.header.name]

namespace Survey

/-- Forests that agree on constants at every position have the same advisories, by going through
both listings side by side.
-/
theorem map_saying_eq_of_agree {left right : List Declaration}
    (h : List.Forall₂ Declaration.Akin left right)
    (agree
      : ∀ position above first beyond second,
          locate left position = some (above, first)
          → locate right position = some (beyond, second)
          → Header.AgreeOnConstant above first.toHeader second.toHeader)
    (base : Text)
    : (advisories base left).map Advisory.saying
      = (advisories base right).map Advisory.saying := by
  rw [advisories, advisories, List.map_flatMap, List.map_flatMap]
  apply flatMap_eq_of_forall₂ (listingFrom_akin left right h .none 0)
  intro one hl other hr akin
  have hl := (mem_listing_iff left one).mp hl
  have hr := (mem_listing_iff right other).mp hr
  rw [← akin.position] at hr
  exact akin.map_saying_eq (agree _ _ _ _ _ hl hr) (pathOf base)

/-- From the advisories of a forest alone one can tell what is advised at a position. -/
theorem mem_advice_congr {left right : List Declaration} {base : Text}
    (h : (advisories base left).map Advisory.saying
      = (advisories base right).map Advisory.saying)
    {position : List Nat} {above beyond : Option Header} {first second : Declaration}
    (hl : locate left position = some (above, first))
    (hr : locate right position = some (beyond, second)) (code : Advisory.Code)
    : code ∈ first.advice above ↔ code ∈ second.advice beyond := by
  have said (forest : List Declaration)
      : (∃ advisory ∈ advisories base forest,
          advisory.path = pathOf base position ∧ advisory.code = code)
        ↔ ∃ saying ∈ (advisories base forest).map Advisory.saying,
            saying.2.1 = pathOf base position ∧ saying.1 = code := by
    simp [Advisory.saying]
  rw [mem_advice_iff_emitted base hl, mem_advice_iff_emitted base hr, said left, said right, h]

/-- Modifiers and known values count only by making constants of variables, and then always.
For forests of the same shape that differ in nothing else, a sink is given the same codes, paths
and messages exactly if at every position both make a constant of the declaration or neither
does, where this is left to them. So nothing changes with the order or the repetition of
modifiers, nor with any modifiers of what is no field.
-/
theorem received_eq_iff_agree {σ : Type} (sink : Advisory → StateM σ Unit) (state : σ)
    (base : Text) (left right : List Declaration)
    (h : List.Forall₂ Declaration.Akin left right)
    : ((received sink base left state).map Advisory.saying
          = (received sink base right state).map Advisory.saying
        ↔ ∀ position above first beyond second,
            locate left position = some (above, first)
            → locate right position = some (beyond, second)
            → Header.AgreeOnConstant above first.toHeader second.toHeader)
      ∧ ((∀ position above first beyond second,
            locate left position = some (above, first)
            → locate right position = some (beyond, second)
            → first.constantValueKnown = second.constantValueKnown
              ∧ (first.kind = .field
                → ∀ modifier, modifier ∈ first.modifiers ↔ modifier ∈ second.modifiers))
          → (received sink base left state).map Advisory.saying
            = (received sink base right state).map Advisory.saying) := by
  rw [received_eq, received_eq]
  refine ⟨⟨?_, fun agree => map_saying_eq_of_agree h agree base⟩, ?_⟩
  · intro same position above first beyond second hl hr hk outside
    have akin := akin_of_locate h hl hr
    have advised := mem_advice_congr same hl hr
    constructor
    · exact akin.header.declaredConstant_of_advice akin.parent advised hk outside
    · have kept : second.kind ∈ Kind.variables := akin.header.kind ▸ hk
      have outsideToo := mt (akin.header.enclosedBy_iff akin.parent _).mpr outside
      exact akin.symm.header.declaredConstant_of_advice akin.symm.parent
        (fun code => (advised code).symm) kept outsideToo
  · intro alike
    apply map_saying_eq_of_agree h
    intro position above first beyond second hl hr _ _
    obtain ⟨known, modifiers⟩ := alike position above first beyond second hl hr
    have kind := (akin_of_locate h hl hr).header.kind
    rw [Header.DeclaredConstant, Header.DeclaredConstant, known, ← kind]
    apply or_congr Iff.rfl
    apply and_congr_right
    intro field
    rw [modifiers field, modifiers field, modifiers field]

/-- A field in capitals that has given modifiers and stands in a class. -/
def fieldWith (modifiers : List Modifier) : List Declaration :=
  [⟨⟨.field, text "MAX_SIZE", modifiers, some .classType, none, false⟩, []⟩]

theorem fieldWith_akin (left right : List Modifier)
    : List.Forall₂ Declaration.Akin (fieldWith left) (fieldWith right) :=
  .cons (.node ⟨rfl, rfl, rfl, rfl⟩ .nil) .nil

theorem locate_fieldWith {modifiers : List Modifier} {position : List Nat}
    {above : Option Header} {found : Declaration}
    (h : locate (fieldWith modifiers) position = some (above, found))
    : found = ⟨⟨.field, text "MAX_SIZE", modifiers, some .classType, none, false⟩, []⟩ := by
  have listed := (mem_listing_iff _ ⟨position, above, found⟩).mpr h
  simp only [listing, listingFrom, Declaration.listing, fieldWith, List.map_cons, List.map_nil,
    List.append_nil, List.mem_singleton, Placed.under, Placed.mk.injEq] at listed
  exact listed.2.2

/-- The modifiers of a constant may stand in any order and more than once; without one of them
the field is no constant, and its name is advised against.
-/
theorem fieldWith_received
    : (List.Forall₂ Declaration.Akin (fieldWith [.isPublic, .isStatic, .isFinal])
          (fieldWith [.isFinal, .isPublic, .isStatic, .isPublic])
        ∧ (received (fun _ => pure ()) [] (fieldWith [.isPublic, .isStatic, .isFinal]) ()).map
            Advisory.saying
          = (received (fun _ => pure ()) []
              (fieldWith [.isFinal, .isPublic, .isStatic, .isPublic]) ()).map Advisory.saying)
      ∧ List.Forall₂ Declaration.Akin (fieldWith [.isPublic, .isStatic, .isFinal])
          (fieldWith [.isStatic, .isFinal])
      ∧ (received (fun _ => pure ()) [] (fieldWith [.isPublic, .isStatic, .isFinal]) ()).map
          Advisory.saying
        ≠ (received (fun _ => pure ()) [] (fieldWith [.isStatic, .isFinal]) ()).map
            Advisory.saying := by
  refine ⟨⟨fieldWith_akin _ _, ?_⟩, fieldWith_akin _ _, ?_⟩
  · apply (received_eq_iff_agree _ () [] _ _ (fieldWith_akin _ _)).2
    intro position above first beyond second hl hr
    obtain rfl := locate_fieldWith hl
    obtain rfl := locate_fieldWith hr
    refine ⟨rfl, ?_⟩
    intro _ modifier
    cases modifier <;> decide
  · intro same
    have agree := (received_eq_iff_agree _ () [] _ _ (fieldWith_akin _ _)).1.mp same
      [0] _ _ _ _ rfl rfl (by decide) (by simp [Header.EnclosedBy])
    simp [Header.DeclaredConstant] at agree

end Survey

end NamingAdvice
