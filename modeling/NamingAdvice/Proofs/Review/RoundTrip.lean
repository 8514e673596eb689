import Mathlib.Data.List.Nodup
import Mathlib.Data.Set.List
import NamingAdvice.Proofs.Review.Pointer

/-! Writing a forest and reading it back. What is written depicts the forest it was written from, so
a forest without repeated modifiers comes back as it was. Any other forest is refused, and then the
issues are the modifiers that stand earlier in their list already, each listed once.
-/

namespace NamingAdvice

/-- A modifier in the list of the declaration at a position of a forest. -/
structure Occurrence where
  position : List Nat
  index : Nat
  modifier : Modifier

namespace Occurrence

/-- The modifier stands in the list, and at an earlier index too. -/
def IsLater (occurrence : Occurrence) (forest : List Declaration) : Prop :=
  ∃ parent declaration,
    Survey.locate forest occurrence.position = some (parent, declaration)
    ∧ declaration.modifiers[occurrence.index]? = some occurrence.modifier
    ∧ ∃ earlier < occurrence.index,
        declaration.modifiers[earlier]? = some occurrence.modifier

/-- The issue that a later occurrence gives rise to. -/
def issue (occurrence : Occurrence) : Issue where
  cause := .repeatedModifier occurrence.modifier
  place :=
    Survey.placeOf occurrence.position ++ [.key Key.modifiers, .index occurrence.index]

theorem issue_injective {left right : Occurrence} (h : left.issue = right.issue)
    : left = right := by
  rcases left with ⟨position, index, modifier⟩
  rcases right with ⟨other, offset, recurring⟩
  obtain ⟨hc, hp⟩ := Issue.mk.inj h
  obtain ⟨places, steps⟩ := List.append_inj' hp rfl
  obtain rfl : position = other := Survey.placeOf_injective places
  obtain rfl : index = offset := by simpa using steps
  obtain rfl : modifier = recurring := by simpa using hc
  rfl

end Occurrence

-----------------------------------------------------------------------------------------
-- What is written
-----------------------------------------------------------------------------------------

namespace Header

/-- The members that a header is written as hold it, with children behind them. -/
theorem heldBy_members (header : Header) (children : Json)
    : header.HeldBy (header.members ++ [(Key.children, children)]) := by
  rcases header with ⟨kind, name, modifiers, _ | enclosingKind, _ | enclosingName, known⟩ <;>
    exact ⟨rfl, rfl, rfl, rfl, rfl, rfl⟩

theorem lookup_children_members (header : Header) (children : Json)
    : (header.members ++ [(Key.children, children)]).lookup Key.children = some children := by
  rcases header with ⟨kind, name, modifiers, _ | enclosingKind, _ | enclosingName, known⟩ <;> rfl

end Header

namespace Declaration

mutual

theorem depicts_toJson (declaration : Declaration) : declaration.toJson.Depicts declaration := by
  rcases declaration with ⟨header, children⟩
  rw [toJson]
  refine .object (header.heldBy_members _) ?_ (depicts_toJsonList children)
  rw [header.lookup_children_members, Option.getD_some]

theorem depicts_toJsonList (declarations : List Declaration)
    : List.Forall₂ Json.Depicts (toJsonList declarations) declarations := by
  cases declarations with
  | nil => exact .nil
  | cons declaration rest => exact .cons (depicts_toJson declaration) (depicts_toJsonList rest)

end

theorem depictsForest_forestToJson (forest : List Declaration)
    : (forestToJson forest).DepictsForest forest :=
  ⟨toJsonList forest, rfl, depicts_toJsonList forest⟩

-----------------------------------------------------------------------------------------
-- The issues of a value that depicts a forest
-----------------------------------------------------------------------------------------

theorem value?_readForest_of_depictsForest {value : Json} {forest : List Declaration}
    (h : value.DepictsForest forest)
    : (readForest value).value? = some forest := by
  obtain ⟨items, rfl, each⟩ := h
  exact value?_readForest_eq_some_iff.mpr
    ⟨items, rfl, each.imp (fun _ _ depicted => value?_readNode_eq_some_iff.mpr depicted)⟩

/-- A value that depicts a forest has no misfit, since all of it can be made out. -/
theorem not_misfit_of_depictsForest {value : Json} {forest : List Declaration}
    (h : value.DepictsForest forest) {place : List Step} {cause : Issue.Cause}
    : ¬ Misfit (some value) place cause := by
  intro misfit
  obtain ⟨hm, hc⟩ := mem_issues_iff_misfit.mpr misfit
  rw [issues_some] at hm
  have honest : Validated.Honest (readForest value) :=
    honest_readForest (fun _ _ item _ => honest_readNode item)
  have lacking := honest.mpr ⟨⟨cause, place⟩, hm, hc⟩
  rw [value?_readForest_of_depictsForest h] at lacking
  contradiction

/-- The issues of a value that depicts a forest are those of the later occurrences in it. -/
theorem mem_issues_iff_isLater {value : Json} {forest : List Declaration}
    (h : value.DepictsForest forest) {issue : Issue}
    : issue ∈ issues (some value)
      ↔ ∃ occurrence : Occurrence, occurrence.IsLater forest ∧ occurrence.issue = issue := by
  obtain ⟨cause, place⟩ := issue
  apply Iff.intro
  · intro hm
    rcases misfit_or_repeated hm with misfit | ⟨modifier, he, repeated⟩
    · exact absurd misfit (not_misfit_of_depictsForest h)
    · obtain rfl : cause = .repeatedModifier modifier := he
      cases repeated with
      | @modifier _ members items index earlier _ reached present found before same fits =>
          obtain ⟨position, parent, declaration, rfl, hl, hd⟩ := h.locate_of_nodeAt reached
          cases hd with
          | object held listed each =>
              have standing := (held.getElem?_items present).mp found
              have already := (held.getElem?_items present).mp same
              exact ⟨⟨position, index, modifier⟩,
                ⟨parent, _, hl, standing, earlier, before, already⟩, rfl⟩
  · intro given
    obtain ⟨⟨position, index, modifier⟩, later, he⟩ := given
    obtain ⟨parent, declaration, hl, standing, earlier, before, already⟩ := later
    obtain ⟨rfl, rfl⟩ := Issue.mk.inj he
    obtain ⟨node, -, reached, hd⟩ := h.walk?_of_locate hl
    cases hd with
    | object held listed each =>
        obtain ⟨items, present⟩ := held.exists_items (List.mem_of_getElem? standing)
        apply mem_issues_iff_repeated.mpr
        exact .modifier reached present ((held.getElem?_items present).mpr standing) before
          ((held.getElem?_items present).mpr already)
          (fun _ _ => not_misfit_of_depictsForest h)

/-- These issues are a list of the later occurrences, each once. -/
theorem exists_occurrences {value : Json} {forest : List Declaration}
    (h : value.DepictsForest forest)
    : ∃ occurrences : List Occurrence,
        issues (some value) = occurrences.map Occurrence.issue
        ∧ occurrences.Nodup
        ∧ ∀ occurrence, occurrence ∈ occurrences ↔ occurrence.IsLater forest := by
  have origin : issues (some value) ∈ Set.range (List.map Occurrence.issue) := by
    rw [Set.range_list_map]
    intro issue hm
    obtain ⟨occurrence, -, he⟩ := (mem_issues_iff_isLater h).mp hm
    exact ⟨occurrence, he⟩
  obtain ⟨occurrences, he⟩ := origin
  have unique := nodup_issues (some value)
  rw [← he] at unique
  refine ⟨occurrences, he.symm, List.Nodup.of_map _ unique, ?_⟩
  intro occurrence
  have listed : occurrence ∈ occurrences ↔ occurrence.issue ∈ issues (some value) := by
    rw [← he, List.mem_map_of_injective (fun _ _ => Occurrence.issue_injective)]
  rw [listed, mem_issues_iff_isLater h]
  apply Iff.intro
  · intro given
    obtain ⟨other, later, same⟩ := given
    exact Occurrence.issue_injective same ▸ later
  · intro later
    exact ⟨occurrence, later, rfl⟩

-----------------------------------------------------------------------------------------
-- Reading what was written
-----------------------------------------------------------------------------------------

theorem read_forestToJson {forest : List Declaration}
    (h : ∀ declaration ∈ forest, declaration.Distinct)
    : read (some (forestToJson forest)) = .ok forest :=
  read_eq_ok_iff.mpr ⟨depictsForest_forestToJson forest, h⟩

theorem read_forestToJson_of_not_distinct {forest : List Declaration}
    (h : ¬ ∀ declaration ∈ forest, declaration.Distinct)
    : read (some (forestToJson forest)) = .error (issues (some (forestToJson forest))) := by
  cases hr : read (some (forestToJson forest)) with
  | error found => rw [(read_eq_error_iff.mp hr).1]
  | ok found =>
      have made := (Validated.toExcept_eq_ok_iff.mp hr).1
      rw [value?_readForest_of_depictsForest (depictsForest_forestToJson forest)] at made
      obtain rfl := Option.some.inj made
      exact absurd (read_eq_ok_iff.mp hr).2 h

end Declaration

namespace Review

/-- Writing and reading are a round trip. A forest without repeated modifiers is written as a value
that is read as this forest; so what was read from any value comes back from its written form, and
reviews of the two are the same, whatever the sink. A forest that repeats a modifier anywhere is
refused once it is written, with an issue of the custom sort for each occurrence that is not the
first in its list, and no other issue.
-/
theorem round_trip {m : Type → Type} [Monad m] (sink : Advisory → m Unit) (clock : Clock)
    : (∀ forest,
        (∀ declaration ∈ forest, declaration.Distinct)
        → Declaration.read (some (Declaration.forestToJson forest)) = .ok forest)
      ∧ (∀ value forest,
          Declaration.read (some value) = .ok forest
          → Declaration.read (some (Declaration.forestToJson forest)) = .ok forest
            ∧ review sink clock (some (Declaration.forestToJson forest))
              = review sink clock (some value))
      ∧ ∀ forest,
          (¬ ∀ declaration ∈ forest, declaration.Distinct)
          → ∃ occurrences : List Occurrence,
              Declaration.read (some (Declaration.forestToJson forest))
                = .error (occurrences.map Occurrence.issue)
              ∧ occurrences ≠ []
              ∧ occurrences.Nodup
              ∧ (∀ occurrence, occurrence ∈ occurrences ↔ occurrence.IsLater forest)
              ∧ ∀ occurrence ∈ occurrences, occurrence.issue.cause.label = text "custom" := by
  refine ⟨fun forest => Declaration.read_forestToJson, ?_, ?_⟩
  · intro value forest h
    have again := Declaration.read_forestToJson (Declaration.read_eq_ok_iff.mp h).2
    exact ⟨again, review_congr sink clock (again.trans h.symm)⟩
  · intro forest h
    have refused := Declaration.read_forestToJson_of_not_distinct h
    obtain ⟨occurrences, listed, unique, each⟩ :=
      Declaration.exists_occurrences (Declaration.depictsForest_forestToJson forest)
    have reported := (Declaration.read_eq_error_iff.mp refused).2
    rw [listed] at refused reported
    refine ⟨occurrences, refused, ?_, unique, each, fun _ _ => rfl⟩
    intro none
    exact reported (by rw [none, List.map_nil])

/-- A class whose name starts with half a surrogate pair, with a field that states what encloses
it.
-/
def strayClass : List Declaration :=
  [⟨⟨.classType, [0xD800, 0x41], [.isPublic, .isFinal], none, some (text "Outer"), false⟩,
    [⟨⟨.field, text "limit", [.isStatic], some .interfaceType, none, true⟩, []⟩]⟩]

/-- A class that has a modifier three times, with a field that has another one twice. -/
def repeatingClass : List Declaration :=
  [⟨⟨.classType, text "Cache", [.isFinal, .isPublic, .isFinal, .isFinal], none, none, false⟩,
    [⟨⟨.field, text "size", [.isStatic, .isStatic], none, none, false⟩, []⟩]⟩]

/-- A class in lower case that says no more than it has to, with a key that means nothing. -/
def sparseInput : Json :=
  .array [.object [
    (text "note", .null), (Key.name, .string (text "cache")), (Key.kind, .string (text "class"))]]

/-- The stray class comes back as it was; the sparse input is reviewed like the written form of what
it is read as; and of the repeating class the third and the fourth modifier are refused and the
second one of its field.
-/
theorem strayClass_round_trip
    : ((∀ declaration ∈ strayClass, declaration.Distinct)
        ∧ Declaration.read (some (Declaration.forestToJson strayClass)) = .ok strayClass)
      ∧ (∃ forest,
          Declaration.read (some sparseInput) = .ok forest
          ∧ quietReview ⟨0, []⟩ (some (Declaration.forestToJson forest))
            = quietReview ⟨0, []⟩ (some sparseInput))
      ∧ (¬ ∀ declaration ∈ repeatingClass, declaration.Distinct)
      ∧ ∃ occurrences : List Occurrence,
          Declaration.read (some (Declaration.forestToJson repeatingClass))
            = .error (occurrences.map Occurrence.issue)
          ∧ ⟨[0], 2, .isFinal⟩ ∈ occurrences
          ∧ ⟨[0], 3, .isFinal⟩ ∈ occurrences
          ∧ ⟨[0, 0], 1, .isStatic⟩ ∈ occurrences := by
  obtain ⟨returned, reviewed, refused⟩ := round_trip (m := Id) (fun _ => pure ()) ⟨0, []⟩
  have distinct : ∀ declaration ∈ strayClass, declaration.Distinct := by
    simp only [strayClass, List.mem_singleton, forall_eq]
    refine .node (by decide) ?_
    simp only [List.mem_singleton, forall_eq]
    exact .node (by decide) (by simp)
  have repeating : ¬ ∀ declaration ∈ repeatingClass, declaration.Distinct := by
    intro h
    obtain ⟨own, -⟩ := h _ List.mem_cons_self
    exact absurd own (by decide)
  refine ⟨⟨distinct, returned strayClass distinct⟩, ?_, repeating, ?_⟩
  · have accepted : (Declaration.read (some sparseInput)).isOk := by decide +kernel
    cases h : Declaration.read (some sparseInput) with
    | ok forest => exact ⟨forest, rfl, (reviewed sparseInput forest h).2⟩
    | error issues =>
        rw [h] at accepted
        contradiction
  · obtain ⟨occurrences, failed, -, -, each, -⟩ := refused repeatingClass repeating
    refine ⟨occurrences, failed, ?_, ?_, ?_⟩
    · exact (each _).mpr ⟨none, _, rfl, rfl, 0, by decide, rfl⟩
    · exact (each _).mpr ⟨none, _, rfl, rfl, 0, by decide, rfl⟩
    · exact (each _).mpr ⟨_, _, rfl, rfl, 0, by decide, rfl⟩

end Review

end NamingAdvice
