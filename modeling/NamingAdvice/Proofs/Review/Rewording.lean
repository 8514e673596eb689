import Mathlib.Data.List.Perm.Basic
import Mathlib.Logic.Relation
import NamingAdvice.Proofs.Declaration.IssueOrder
import NamingAdvice.Proofs.Review.Delivery

/-! What the wording of an input does not change. The members of a node may stand in any order, keys
that mean nothing may come and go, and defaults may be spelled out or left out, in any node at any
depth, well formed or not. Inputs that differ in nothing else are read alike, down to the list of
issues, and reviewed alike.
-/

namespace NamingAdvice

/-- The keys that may be left out without loss, with what they then stand for. -/
def Key.defaults : List (Text × Json) :=
  [(modifiers, .array []), (constantValueKnown, .bool false), (children, .array [])]

theorem Key.lookup_defaults_of_mem {key : Text} {value : Json}
    (h : (key, value) ∈ Key.defaults)
    : Key.defaults.lookup key = some value := by
  simp only [Key.defaults, List.mem_cons, Prod.mk.injEq, List.not_mem_nil, or_false] at h
  rcases h with ⟨rfl, rfl⟩ | ⟨rfl, rfl⟩ | ⟨rfl, rfl⟩ <;> rfl

namespace Json

/-- An edit among the members of a node that says nothing new: another order of its keys, no two of
which are the same, a key that means nothing, or a default that was left out.
-/
inductive MembersEdit : List (Text × Json) → List (Text × Json) → Prop
  | reorder {left right} (distinct : (left.map Prod.fst).Nodup) (order : left.Perm right)
    : MembersEdit left right
  | unknown {before after key} (value : Json) (meaningless : key ∉ Key.inOrder)
    : MembersEdit (before ++ after) (before ++ (key, value) :: after)
  | spell {before after key value} (known : (key, value) ∈ Key.defaults)
    (absent : (before ++ after).lookup key = none)
    : MembersEdit (before ++ after) (before ++ (key, value) :: after)

/-- Such an edit in a node or in a node below it. -/
inductive NodeEdit : Json → Json → Prop
  | here {left right} (edit : MembersEdit left right) : NodeEdit (.object left) (.object right)
  | child {before after earlier later item other} (edit : NodeEdit item other)
    : NodeEdit
        (.object (before ++ (Key.children, .array (earlier ++ item :: later)) :: after))
        (.object (before ++ (Key.children, .array (earlier ++ other :: later)) :: after))

/-- Such an edit in a node of a list of nodes. -/
inductive ForestEdit : Json → Json → Prop
  | item {earlier later item other} (edit : NodeEdit item other)
    : ForestEdit (.array (earlier ++ item :: later)) (.array (earlier ++ other :: later))

/-- Values that are related by any number of such edits, each made or taken back. -/
def Reworded : Json → Json → Prop :=
  Relation.EqvGen ForestEdit

/-- What members say under a key, with the default if they say nothing. -/
def stated (members : List (Text × Json)) (key : Text) : Option Json :=
  (members.lookup key).or (Key.defaults.lookup key)

-----------------------------------------------------------------------------------------
-- An edit leaves what is stated
-----------------------------------------------------------------------------------------

/-- A member under another key is passed over. -/
theorem lookup_insert_of_ne {key other : Text} (h : key ≠ other) (value : Json)
    (before after : List (Text × Json))
    : (before ++ (other, value) :: after).lookup key = (before ++ after).lookup key := by
  have differ : (key == other) = false := beq_false_of_ne h
  rw [List.lookup_append, List.lookup_append, List.lookup_cons, differ]

/-- Keys that are all different are found whatever their order. -/
theorem lookup_eq_of_perm {left right : List (Text × Json)} (order : left.Perm right)
    (distinct : (left.map Prod.fst).Nodup) (key : Text)
    : left.lookup key = right.lookup key := by
  induction order with
  | nil => rfl
  | cons member rest ih =>
      rw [List.lookup_cons, List.lookup_cons, ih (List.nodup_cons.mp distinct).2]
  | swap first second rest =>
      rcases first with ⟨one, held⟩
      rcases second with ⟨other, value⟩
      have differ : other ≠ one := fun same => (List.nodup_cons.mp distinct).1 (by simp [same])
      by_cases found : key = other
      · have passed : (key == one) = false := beq_false_of_ne (found ▸ differ)
        simp [List.lookup_cons, passed]
      · have passed : (key == other) = false := beq_false_of_ne found
        simp [List.lookup_cons, passed]
  | trans first second ihf ihs =>
      rw [ihf distinct, ihs ((first.map Prod.fst).nodup_iff.mp distinct)]

theorem MembersEdit.stated_eq {left right : List (Text × Json)} (edit : MembersEdit left right)
    {key : Text} (h : key ∈ Key.inOrder)
    : stated left key = stated right key := by
  cases edit with
  | reorder distinct order => rw [stated, stated, lookup_eq_of_perm order distinct]
  | @unknown before after other value meaningless =>
      have differ : key ≠ other := fun same => meaningless (same ▸ h)
      rw [stated, stated, lookup_insert_of_ne differ]
  | @spell before after other value known absent =>
      by_cases same : key = other
      · subst same
        have default := Key.lookup_defaults_of_mem known
        have unsaid := (Option.or_eq_none_iff.mp (List.lookup_append.symm.trans absent)).1
        rw [stated, stated, absent, default, List.lookup_append, unsaid]
        simp
      · rw [stated, stated, lookup_insert_of_ne same]

end Json

namespace Declaration

open Json (stated)

-----------------------------------------------------------------------------------------
-- Reading goes by what is stated
-----------------------------------------------------------------------------------------

theorem readEach_congr {α : Type} {read : Json → Validated α} (index : Nat)
    {items others : List Json} (h : items.map read = others.map read)
    : readEach read index items = readEach read index others := by
  induction items generalizing index others with
  | nil =>
      obtain rfl : others = [] := by simpa using h
      rfl
  | cons item items ih =>
      cases others with
      | nil => simp at h
      | cons other others =>
          obtain ⟨first, rest⟩ := List.cons.inj h
          rw [readEach, readEach, first, ih (index + 1) rest]

/-- A key without a default is read as it is stated. -/
theorem lookup_eq_of_stated_eq {key : Text} (bare : Key.defaults.lookup key = none)
    {left right : List (Text × Json)} (h : stated left key = stated right key)
    : left.lookup key = right.lookup key := by
  simpa only [stated, bare, Option.or_none] using h

theorem stated_eq_some {key : Text} {missing : Json}
    (known : Key.defaults.lookup key = some missing) (members : List (Text × Json))
    : stated members key = some ((members.lookup key).getD missing) := by
  rw [stated, known]
  cases members.lookup key <;> rfl

/-- A key with a default is read as it is stated, if the default is read without issues. -/
theorem optional_getD_congr {α : Type} {key : Text} {read : Json → Validated α}
    {missing : Json} {default : α} (known : Key.defaults.lookup key = some missing)
    (plain : read missing = pure default) {left right : List (Text × Json)}
    (h : (stated left key).map read = (stated right key).map read)
    : (Option.getD · default) <$> optional key read left
      = (Option.getD · default) <$> optional key read right := by
  have reading (members : List (Text × Json))
      : (Option.getD · default) <$> optional key read members
        = (read ((members.lookup key).getD missing)).under (.key key) := by
    rw [optional]
    cases members.lookup key with
    | none =>
        rw [Option.getD_none, plain]
        rfl
    | some value => exact Validated.map_getD_under default _ _
  simp only [stated_eq_some known, Option.map_some, Option.some.injEq] at h
  rw [reading, reading, h]

theorem readHeader_congr {left right : List (Text × Json)}
    (h : ∀ key ∈ Key.inOrder, key ≠ Key.children → stated left key = stated right key)
    : readHeader left = readHeader right := by
  have same (key : Text) (named : key ∈ Key.inOrder) (own : key ≠ Key.children)
      (bare : Key.defaults.lookup key = none)
      : left.lookup key = right.lookup key :=
    lookup_eq_of_stated_eq bare (h key named own)
  have kind := same Key.kind (by decide) (by decide) rfl
  have name := same Key.name (by decide) (by decide) rfl
  have enclosingKind := same Key.enclosingKind (by decide) (by decide) rfl
  have enclosingName := same Key.enclosingName (by decide) (by decide) rfl
  have empty : readModifiers (.array []) = pure [] := rfl
  have modifiers := optional_getD_congr rfl empty
    (congrArg (Option.map readModifiers) (h Key.modifiers (by decide) (by decide)))
  have unset : readBool (.bool false) = pure false := rfl
  have known := optional_getD_congr rfl unset
    (congrArg (Option.map readBool) (h Key.constantValueKnown (by decide) (by decide)))
  rw [readHeader, readHeader, modifiers, known]
  simp only [required, optional, kind, name, enclosingKind, enclosingName]

theorem readNode_congr {left right : List (Text × Json)}
    (h : ∀ key ∈ Key.inOrder, key ≠ Key.children → stated left key = stated right key)
    (children
      : (stated left Key.children).map readForest = (stated right Key.children).map readForest)
    : readNode (.object left) = readNode (.object right) := by
  have empty : readForest (.array []) = pure [] := by
    rw [readForest_array]
    rfl
  rw [readNode_object, readNode_object, readHeader_congr h,
    optional_getD_congr rfl empty children]

-----------------------------------------------------------------------------------------
-- Edits are read alike
-----------------------------------------------------------------------------------------

/-- A list of nodes is read alike if one of them is. -/
theorem readForest_congr {earlier later : List Json} {item other : Json}
    (h : readNode item = readNode other)
    : readForest (.array (earlier ++ item :: later))
      = readForest (.array (earlier ++ other :: later)) := by
  rw [readForest_array, readForest_array]
  apply readEach_congr
  rw [List.map_append, List.map_append, List.map_cons, List.map_cons, h]

/-- One edit of a node is read alike, by induction on how far down it is made. -/
theorem readNode_eq_of_edit {left right : Json} (edit : Json.NodeEdit left right)
    : readNode left = readNode right := by
  induction edit with
  | here edit =>
      apply readNode_congr
      · intro key named _
        exact edit.stated_eq named
      · rw [edit.stated_eq (by decide)]
  | @child before after earlier later item other edit ih =>
      apply readNode_congr
      · intro key _ own
        rw [stated, stated, Json.lookup_insert_of_ne own, Json.lookup_insert_of_ne own]
      · -- An earlier member under the same key hides the list of children in both.
        rw [stated, stated, List.lookup_append, List.lookup_append]
        cases before.lookup Key.children with
        | some value => rfl
        | none => simp [readForest_congr ih]

/-- Any number of edits is read alike. -/
theorem read_eq_of_reworded {left right : Json} (h : left.Reworded right)
    : read (some left) = read (some right) := by
  induction h with
  | rel left right edit =>
      cases edit with
      | item edit => rw [read, read, readForest_congr (readNode_eq_of_edit edit)]
  | refl value => rfl
  | symm left right _ ih => exact ih.symm
  | trans left middle right _ _ first second => exact first.trans second

end Declaration

namespace Review

/-- The wording of an input does not matter. If two values are related by any number of edits, in
nodes at any depth, that reorder keys, add or remove keys that mean nothing, or spell defaults out or
leave them out, then both are read as the same forest or refused with the same issues in the same
order, and reviews of the two are the same, whatever the sink.
-/
theorem reworded_alike {m : Type → Type} [Monad m] (sink : Advisory → m Unit) (clock : Clock)
    (left right : Json) (h : left.Reworded right)
    : Declaration.read (some left) = Declaration.read (some right)
      ∧ review sink clock (some left) = review sink clock (some right) := by
  have same := Declaration.read_eq_of_reworded h
  exact ⟨same, review_congr sink clock same⟩

/-- A class with a child of no known kind. -/
def tersePanel : Json :=
  .array [.object [
    (Key.kind, .string (text "class")),
    (Key.name, .string (text "panel")),
    (Key.children, .array [.object [(Key.kind, .string (text "widget"))]])]]

/-- The same class back to front, with its modifiers spelled out and a key in the child that means
nothing.
-/
def wordyPanel : Json :=
  .array [.object [
    (Key.children, .array [.object [(text "line", .null), (Key.kind, .string (text "widget"))]]),
    (Key.modifiers, .array []),
    (Key.name, .string (text "panel")),
    (Key.kind, .string (text "class"))]]

/-- Both are refused for the same two faults of the child. -/
theorem panel_alike
    : tersePanel.Reworded wordyPanel
      ∧ Declaration.read (some tersePanel) = Declaration.read (some wordyPanel)
      ∧ quietReview ⟨0, []⟩ (some tersePanel) = quietReview ⟨0, []⟩ (some wordyPanel)
      ∧ (quietReview ⟨0, []⟩ (some wordyPanel)).errors.length = 2 := by
  have root {left right : Json} (edit : Json.NodeEdit left right)
      : (Json.array [left]).Reworded (.array [right]) :=
    .rel _ _ (@Json.ForestEdit.item [] [] _ _ edit)
  have reworded : tersePanel.Reworded wordyPanel := by
    -- First the key in the child, then the modifiers, then the order of the members.
    refine .trans _ _ _ (root (@Json.NodeEdit.child [(Key.kind, _), (Key.name, _)] [] [] [] _ _
      (.here (@Json.MembersEdit.unknown [] _ (text "line") .null (by decide))))) ?_
    refine .trans _ _ _ (root (.here (@Json.MembersEdit.spell [(Key.kind, _), (Key.name, _)] _
      Key.modifiers (.array []) (by simp [Key.defaults]) rfl))) ?_
    exact root (.here (.reorder (by decide) (List.reverse_perm _).symm))
  obtain ⟨same, alike⟩ := reworded_alike (m := Id) (fun _ => pure ()) ⟨0, []⟩ _ _ reworded
  exact ⟨reworded, same, alike, by decide +kernel⟩

end Review

end NamingAdvice
