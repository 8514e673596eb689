import NamingAdvice.Advisory
import NamingAdvice.Proofs.Name.Verdict

/-! The grounds of each advice, as a condition on a declaration and the header right above it.
A declaration is advised about something exactly if there are grounds for it: the convention
that applies and the order of the checks are not part of the condition.
-/

namespace NamingAdvice

/-- The kinds that introduce a type. -/
def Kind.types : List Kind :=
  [.classType, .interfaceType, .enumType, .annotationType, .recordType]

/-- The kinds that introduce a variable, constants of enums apart. -/
def Kind.variables : List Kind :=
  [.field, .parameter, .localVariable, .exceptionParameter, .resourceVariable]

namespace Header

/-- The kind that encloses a declaration: the stated one, or else the kind right above. -/
def EnclosedBy (header : Header) (parent : Option Header) (kind : Kind) : Prop :=
  header.enclosingKind = some kind
  ∨ header.enclosingKind = none ∧ ∃ above, parent = some above ∧ above.kind = kind

/-- The name of the enclosing type: the stated one, or else the name right above if a type
stands there.
-/
def InTypeNamed (header : Header) (parent : Option Header) (name : Text) : Prop :=
  header.enclosingName = some name
  ∨ header.enclosingName = none
    ∧ ∃ above, parent = some above ∧ above.kind ∈ Kind.types ∧ above.name = name

/-- What makes a constant of a variable: an interface around it, the modifiers of a constant
field, or a known value.
-/
def ConstantByContext (header : Header) (parent : Option Header) : Prop :=
  header.EnclosedBy parent .interfaceType
  ∨ header.kind = .field
    ∧ .isPublic ∈ header.modifiers
    ∧ .isStatic ∈ header.modifiers
    ∧ .isFinal ∈ header.modifiers
  ∨ header.constantValueKnown = true

def IsConstant (header : Header) (parent : Option Header) : Prop :=
  header.kind = .enumConstant
  ∨ header.kind ∈ Kind.variables ∧ header.ConstantByContext parent

/-- Methods and variables that are no constants start in lower case. -/
def IsLowerCamel (header : Header) (parent : Option Header) : Prop :=
  header.kind = .method
  ∨ header.kind ∈ Kind.variables ∧ ¬ header.ConstantByContext parent

end Header

/-- The grounds for an advice about a declaration below a parent. -/
def Advisory.Code.Grounds (header : Header) (parent : Option Header) : Advisory.Code → Prop
  | .methodNamedLikeType => header.kind = .method ∧ header.InTypeNamed parent header.name
  | .initialUpper => header.kind ∈ Kind.types ∧ Name.Starts CodePoint.isLower header.name
  | .initialLower => header.IsLowerCamel parent ∧ Name.Starts CodePoint.isUpper header.name
  | .camelCase =>
      (header.kind ∈ Kind.types ∨ header.IsLowerCamel parent)
      ∧ (header.name = []
        ∨ Name.StartsUncased header.name
        ∨ (header.kind ∈ Kind.types ∧ Name.Starts CodePoint.isUpper header.name
            ∨ header.IsLowerCamel parent ∧ Name.Starts CodePoint.isLower header.name)
          ∧ Name.Adjacent CodePoint.isUpper header.name.codePoints)
  | .allCaps => header.IsConstant parent ∧ ¬ Name.InCaps header.name

-----------------------------------------------------------------------------------------
-- The context of a declaration
-----------------------------------------------------------------------------------------

theorem Kind.category_eq_type_iff (kind : Kind) : kind.category = .type ↔ kind ∈ Kind.types := by
  cases kind <;> decide

namespace Header

theorem resolvedKind_eq_some_iff (header : Header) (parent : Option Header) (kind : Kind)
    : header.resolvedKind parent = some kind ↔ header.EnclosedBy parent kind := by
  cases hk : header.enclosingKind <;>
    simp [resolvedKind, EnclosedBy, hk, Option.map_eq_some_iff]

theorem resolvedName_eq_some_iff (header : Header) (parent : Option Header) (name : Text)
    : header.resolvedName parent = some name ↔ header.InTypeNamed parent name := by
  cases hn : header.enclosingName with
  | some stated => simp [resolvedName, InTypeNamed, hn]
  | none =>
      cases parent <;>
        simp [resolvedName, InTypeNamed, hn, Kind.category_eq_type_iff, Option.filter_some]

theorem resolvedKind_congr {left right above beyond : Header}
    (own : left.enclosingKind = right.enclosingKind) (hk : above.kind = beyond.kind)
    : left.resolvedKind (some above) = right.resolvedKind (some beyond) := by
  rw [resolvedKind, resolvedKind, Option.map_some, Option.map_some, own, hk]

/-- Of a parent, only its kind and the name of a type matter. -/
theorem resolvedName_congr {left right above beyond : Header}
    (own : left.enclosingName = right.enclosingName) (hk : above.kind = beyond.kind)
    (hn : beyond.kind ∈ Kind.types → above.name = beyond.name)
    : left.resolvedName (some above) = right.resolvedName (some beyond) := by
  simp only [resolvedName, Option.filter_some, own, hk, Kind.category_eq_type_iff]
  by_cases ht : beyond.kind ∈ Kind.types
  · simp [ht, hn ht]
  · simp [ht]

theorem namedLikeType_eq_true_iff (header : Header) (parent : Option Header)
    : header.namedLikeType parent = true
      ↔ header.kind = .method ∧ header.InTypeNamed parent header.name := by
  rw [namedLikeType, Bool.and_eq_true, beq_iff_eq, beq_iff_eq, ← resolvedName_eq_some_iff,
    eq_comm (a := some header.name)]

theorem standing_isConstant_eq_true_iff (header : Header) (parent : Option Header)
    : (header.standing parent).isConstant = true ↔ header.ConstantByContext parent := by
  simp [Standing.isConstant, standing, ConstantByContext, ← resolvedKind_eq_some_iff,
    or_assoc]

-----------------------------------------------------------------------------------------
-- The convention that applies
-----------------------------------------------------------------------------------------

/-- The declarations that a convention applies to. -/
def Follows (header : Header) (parent : Option Header) : Convention → Prop
  | .upperCamelCase => header.kind ∈ Kind.types
  | .lowerCamelCase => header.IsLowerCamel parent
  | .allCapsUnderscore => header.IsConstant parent

theorem convention?_eq_some_iff (header : Header) (parent : Option Header)
    (convention : Convention)
    : (header.standing parent).convention? = some convention
      ↔ header.Follows parent convention := by
  have constant := standing_isConstant_eq_true_iff header parent
  have kind : (header.standing parent).kind = header.kind := rfl
  by_cases hc : header.ConstantByContext parent <;> cases hk : header.kind <;>
    cases convention <;>
    simp_all [Standing.convention?, Kind.category, Follows, IsLowerCamel, IsConstant,
      Kind.types, Kind.variables]

/-- The advice of a convention that applies, and the one about the name of a type. -/
theorem mem_advice_iff_follows (header : Header) (parent : Option Header)
    (code : Advisory.Code)
    : code ∈ header.advice parent
      ↔ code = .methodNamedLikeType ∧ header.namedLikeType parent = true
        ∨ ∃ convention : Convention,
            header.Follows parent convention ∧ convention.advice? header.name = some code := by
  rw [advice, List.mem_append, Option.mem_toList, Option.bind_eq_some_iff]
  simp only [convention?_eq_some_iff]
  refine or_congr ?_ Iff.rfl
  cases header.namedLikeType parent <;> simp

/-- A declaration is advised about exactly what there are grounds for. -/
theorem mem_advice_iff (header : Header) (parent : Option Header) (code : Advisory.Code)
    : code ∈ header.advice parent ↔ code.Grounds header parent := by
  rw [mem_advice_iff_follows, namedLikeType_eq_true_iff]
  -- Each convention gives the codes of its own faults only.
  have upper : Convention.upperCamelCase.advice? header.name = some code
      ↔ Name.CamelFault .upper header.name code := Name.camelCase_eq_some_iff ..
  have lower : Convention.lowerCamelCase.advice? header.name = some code
      ↔ Name.CamelFault .lower header.name code := Name.camelCase_eq_some_iff ..
  have caps : Convention.allCapsUnderscore.advice? header.name = some code
      ↔ code = .allCaps ∧ ¬ Name.InCaps header.name := Name.allCaps_eq_some_iff ..
  have split : (∃ convention : Convention,
        header.Follows parent convention ∧ convention.advice? header.name = some code)
      ↔ header.kind ∈ Kind.types ∧ Name.CamelFault .upper header.name code
        ∨ header.IsLowerCamel parent ∧ Name.CamelFault .lower header.name code
        ∨ header.IsConstant parent ∧ code = .allCaps ∧ ¬ Name.InCaps header.name := by
    rw [← upper, ← lower, ← caps]
    constructor
    · intro h
      rcases h with ⟨_ | _ | _, hf, ha⟩
      · exact Or.inl ⟨hf, ha⟩
      · exact Or.inr (Or.inl ⟨hf, ha⟩)
      · exact Or.inr (Or.inr ⟨hf, ha⟩)
    · intro h
      rcases h with ⟨hf, ha⟩ | ⟨hf, ha⟩ | ⟨hf, ha⟩
      · exact ⟨.upperCamelCase, hf, ha⟩
      · exact ⟨.lowerCamelCase, hf, ha⟩
      · exact ⟨.allCapsUnderscore, hf, ha⟩
  rw [split]
  cases code with
  | methodNamedLikeType => simp [Advisory.Code.Grounds, Name.CamelFault]
  | initialUpper => simp [Advisory.Code.Grounds, Name.CamelFault]
  | initialLower => simp [Advisory.Code.Grounds, Name.CamelFault]
  | allCaps => simp [Advisory.Code.Grounds, Name.CamelFault]
  | camelCase =>
      simp only [Advisory.Code.Grounds, Name.CamelFault, true_and, false_and, or_false,
        false_or, reduceCtorEq, and_false]
      constructor
      · intro h
        rcases h with ⟨ht, hf⟩ | ⟨hl, hf⟩
        · exact ⟨Or.inl ht, hf.imp_right (Or.imp_right (And.imp_left (Or.inl ⟨ht, ·⟩)))⟩
        · exact ⟨Or.inr hl, hf.imp_right (Or.imp_right (And.imp_left (Or.inr ⟨hl, ·⟩)))⟩
      · intro h
        rcases h with ⟨hk, he | hu | ⟨⟨ht, hs⟩ | ⟨hl, hs⟩, ha⟩⟩
        · exact hk.imp (⟨·, Or.inl he⟩) (⟨·, Or.inl he⟩)
        · exact hk.imp (⟨·, Or.inr (Or.inl hu)⟩) (⟨·, Or.inr (Or.inl hu)⟩)
        · exact Or.inl ⟨ht, Or.inr (Or.inr ⟨hs, ha⟩)⟩
        · exact Or.inr ⟨hl, Or.inr (Or.inr ⟨hs, ha⟩)⟩

end Header

end NamingAdvice
