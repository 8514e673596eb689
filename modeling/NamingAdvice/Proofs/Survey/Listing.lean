import Mathlib.Data.List.Basic
import NamingAdvice.Proofs.Survey.Position
import NamingAdvice.Review

/-! The survey as a list. A forest is listed parent first, each declaration with its position
and the header right above it; what a survey does is to hand the advisories of the listed
declarations to its sink, one after the other. Every property of what a sink is given follows
from the listing, whatever the effects of the sink.
-/

namespace NamingAdvice

/-- A declaration of a forest with its position and the header right above it. -/
structure Placed where
  position : List Nat
  parent : Option Header
  declaration : Declaration

namespace Placed

/-- The same declaration, its position told from one level further up. -/
def under (index : Nat) (placed : Placed) : Placed :=
  { placed with position := index :: placed.position }

/-- The advisories about a placed declaration, with the path that its position has. -/
def advisories (path : List Nat → Text) (placed : Placed) : List Advisory :=
  (placed.declaration.advice placed.parent).map
    (fun code => ⟨placed.declaration, path placed.position, code⟩)

end Placed

mutual

/-- A declaration and everything below it, parent first. -/
def Declaration.listing (parent : Option Header) : Declaration → List Placed
  | declaration@⟨header, children⟩ =>
      ⟨[], parent, declaration⟩ :: Survey.listingFrom (some header) 0 children

/-- Declarations side by side, counted from an index on, each with everything below it. -/
def Survey.listingFrom (parent : Option Header) (index : Nat) : List Declaration → List Placed
  | [] => []
  | declaration :: rest =>
      (declaration.listing parent).map (·.under index)
        ++ Survey.listingFrom parent (index + 1) rest

end

namespace Survey

/-- A whole forest, parent first. -/
def listing (forest : List Declaration) : List Placed :=
  listingFrom none 0 forest

/-- The advisories about a forest in the order of the listing. -/
def advisories (base : Text) (forest : List Declaration) : List Advisory :=
  (listing forest).flatMap (Placed.advisories (pathOf base))

/-- What a sink without failures is given by a survey, in order. -/
def received {σ : Type} (sink : Advisory → StateM σ Unit) (base : Text)
    (forest : List Declaration) (state : σ)
    : List Advisory :=
  (((survey (Review.collect sink) base forest).run []).run state).1.2.reverse

-----------------------------------------------------------------------------------------
-- What is listed
-----------------------------------------------------------------------------------------

/-- A list of siblings lists nothing without an index. -/
theorem position_of_mem_listingFrom {parent : Option Header} {index : Nat}
    {declarations : List Declaration} {placed : Placed}
    (h : placed ∈ listingFrom parent index declarations)
    : ∃ offset rest declaration,
        placed.position = (index + offset) :: rest
        ∧ declarations[offset]? = some declaration
        ∧ ⟨rest, placed.parent, placed.declaration⟩ ∈ declaration.listing parent := by
  induction declarations generalizing index with
  | nil => simp [listingFrom] at h
  | cons declaration rest ih =>
      rw [listingFrom, List.mem_append, List.mem_map] at h
      rcases h with ⟨inner, hm, rfl⟩ | h
      · exact ⟨0, inner.position, declaration, rfl, rfl, hm⟩
      · obtain ⟨offset, below, found, hp, hf, hm⟩ := ih h
        refine ⟨offset + 1, below, found, ?_, hf, hm⟩
        rw [hp, Nat.add_assoc, Nat.add_comm 1]

/-- Whatever is put at an index, the other siblings are listed around it as before, and nothing of
theirs has that index.
-/
theorem listingFrom_set (parent : Option Header) (index : Nat) {offset : Nat}
    {declarations : List Declaration} (h : offset < declarations.length)
    : ∃ before after,
        (∀ new,
          listingFrom parent index (declarations.set offset new)
            = before ++ (new.listing parent).map (·.under (index + offset)) ++ after)
        ∧ ∀ placed ∈ before ++ after, placed.position.head? ≠ some (index + offset) := by
  induction declarations generalizing index offset with
  | nil => simp at h
  | cons first rest ih =>
      cases offset with
      | zero =>
          refine ⟨[], listingFrom parent (index + 1) rest, fun new => by simp [listingFrom], ?_⟩
          intro placed hm
          obtain ⟨offset, below, found, hp, -⟩ := position_of_mem_listingFrom hm
          simp only [hp, List.head?_cons, ne_eq, Option.some.injEq]
          omega
      | succ offset =>
          obtain ⟨before, after, he, ha⟩ := ih (index + 1) (by simpa using h)
          rw [Nat.add_assoc, Nat.add_comm 1] at he ha
          refine ⟨(first.listing parent).map (·.under index) ++ before, after, ?_, ?_⟩
          · intro new
            rw [List.set_cons_succ, listingFrom, he]
            simp only [List.append_assoc]
          · intro placed hm
            rw [List.append_assoc, List.mem_append, List.mem_map] at hm
            rcases hm with ⟨inner, -, rfl⟩ | hm
            · simp [Placed.under]
            · exact ha placed hm

/-- A sibling and everything below it stand in one block, and nothing else has its index. -/
theorem listingFrom_split (parent : Option Header) (index : Nat) {offset : Nat}
    {declarations : List Declaration} {declaration : Declaration}
    (h : declarations[offset]? = some declaration)
    : ∃ before after,
        listingFrom parent index declarations
          = before ++ (declaration.listing parent).map (·.under (index + offset)) ++ after
        ∧ ∀ placed ∈ before ++ after, placed.position.head? ≠ some (index + offset) := by
  obtain ⟨inside, rfl⟩ := List.getElem?_eq_some_iff.mp h
  obtain ⟨before, after, he, ha⟩ := listingFrom_set parent index inside
  have whole := he declarations[offset]
  rw [List.set_getElem_self] at whole
  exact ⟨before, after, whole, ha⟩

theorem mem_listingFrom_of_getElem? {parent : Option Header} (index : Nat) {offset : Nat}
    {declarations : List Declaration} {declaration : Declaration} {placed : Placed}
    (hd : declarations[offset]? = some declaration) (h : placed ∈ declaration.listing parent)
    : placed.under (index + offset) ∈ listingFrom parent index declarations := by
  obtain ⟨before, after, he, -⟩ := listingFrom_split parent index hd
  rw [he]
  exact List.mem_append_left _ (List.mem_append_right _ (List.mem_map.mpr ⟨placed, h, rfl⟩))

end Survey

/-- The listing of a declaration holds what can be looked up below it, by induction on the
position.
-/
theorem Declaration.mem_listing_iff (parent : Option Header) (declaration : Declaration)
    (placed : Placed)
    : placed ∈ declaration.listing parent
      ↔ declaration.locate parent placed.position
        = some (placed.parent, placed.declaration) := by
  obtain ⟨position, above, found⟩ := placed
  induction position generalizing parent declaration with
  | nil =>
      rcases declaration with ⟨header, children⟩
      constructor
      · intro h
        rcases List.mem_cons.mp h with h | h
        · cases h
          rfl
        · obtain ⟨offset, rest, child, hp, -⟩ := Survey.position_of_mem_listingFrom h
          simp at hp
      · intro h
        obtain ⟨rfl, rfl⟩ : parent = above ∧ ⟨header, children⟩ = found := by
          simpa [Declaration.locate] using h
        exact List.mem_cons_self
  | cons index rest ih =>
      rcases declaration with ⟨header, children⟩
      simp only [Declaration.locate, Option.bind_eq_some_iff]
      constructor
      · intro h
        rcases List.mem_cons.mp h with h | h
        · cases h
        · obtain ⟨offset, below, child, hp, hc, hm⟩ := Survey.position_of_mem_listingFrom h
          obtain ⟨rfl, rfl⟩ : index = offset ∧ rest = below := by simpa using hp
          exact ⟨child, hc, (ih (some header) child).mp hm⟩
      · intro given
        obtain ⟨child, hc, hl⟩ := given
        have hm := Survey.mem_listingFrom_of_getElem? 0 hc
          ((ih (some header) child).mpr hl)
        rw [Nat.zero_add] at hm
        exact List.mem_cons_of_mem _ hm

namespace Survey

/-- The listing of a forest holds what can be looked up in it. -/
theorem mem_listing_iff (forest : List Declaration) (placed : Placed)
    : placed ∈ listing forest
      ↔ locate forest placed.position = some (placed.parent, placed.declaration) := by
  constructor
  · intro h
    obtain ⟨offset, rest, declaration, hp, hd, hm⟩ := position_of_mem_listingFrom h
    rw [Nat.zero_add] at hp
    rw [hp, locate, hd, Option.bind_some]
    exact (declaration.mem_listing_iff none _).mp hm
  · intro h
    obtain ⟨position, above, found⟩ := placed
    cases position with
    | nil => cases h
    | cons index rest =>
        obtain ⟨declaration, hd, hl⟩ := Option.bind_eq_some_iff.mp h
        have hm := mem_listingFrom_of_getElem? 0 hd
          ((declaration.mem_listing_iff none ⟨rest, above, found⟩).mpr hl)
        rwa [Nat.zero_add] at hm

-----------------------------------------------------------------------------------------
-- The survey goes through the listing
-----------------------------------------------------------------------------------------

/-- Below siblings, the paths of a child base are those of the declaration above. -/
theorem advisories_children (parent : Option Header) (path : Text) (index : Nat)
    (children : List Declaration)
    : (listingFrom parent index children).flatMap (Placed.advisories (pathBelow path))
      = (listingFrom parent index children).flatMap
          (Placed.advisories (pathOf (childBase path))) := by
  refine List.flatMap_congr (fun placed hm => ?_)
  obtain ⟨offset, rest, declaration, hp, -⟩ := position_of_mem_listingFrom hm
  simp only [Placed.advisories, hp]
  rfl

/-- One level further up, the position of a declaration starts with its index. -/
theorem advisories_under (base : Text) (index : Nat) (placed : List Placed)
    : (placed.map (Placed.under index)).flatMap (Placed.advisories (pathOf base))
      = placed.flatMap (Placed.advisories (pathBelow (pathAt base index))) := by
  rw [List.flatMap_map]
  rfl

end Survey

mutual

/-- A declaration hands on its own advisories, then those of its children. -/
theorem Declaration.survey_eq_forM {m : Type → Type} [Monad m] [LawfulMonad m]
    (sink : Advisory → m Unit) (parent : Option Header) (path : Text)
    (declaration : Declaration)
    : declaration.survey sink parent path
      = forM
          ((declaration.listing parent).flatMap (Placed.advisories (Survey.pathBelow path)))
          sink := by
  rcases declaration with ⟨header, children⟩
  rw [Declaration.survey, Declaration.listing, List.flatMap_cons, List.forM_append,
    Survey.advisories_children, ← Survey.siblings_eq_forM sink (some header)]
  simp only [Placed.advisories, Survey.pathBelow, List.forM_map, List.forM_eq_forM]

/-- Siblings are surveyed one after the other. -/
theorem Survey.siblings_eq_forM {m : Type → Type} [Monad m] [LawfulMonad m]
    (sink : Advisory → m Unit) (parent : Option Header) (base : Text) (index : Nat)
    (declarations : List Declaration)
    : Survey.siblings sink parent base index declarations
      = forM
          ((Survey.listingFrom parent index declarations).flatMap
            (Placed.advisories (Survey.pathOf base)))
          sink := by
  cases declarations with
  | nil => rfl
  | cons declaration rest =>
      rw [Survey.siblings, Survey.listingFrom, List.flatMap_append, List.forM_append,
        Survey.advisories_under, ← declaration.survey_eq_forM sink parent,
        ← Survey.siblings_eq_forM sink parent base (index + 1) rest]

end

namespace Survey

/-- A survey hands the advisories of the listing to its sink, in order and each once, whatever
the sink does with them.
-/
theorem survey_eq_forM {m : Type → Type} [Monad m] [LawfulMonad m] (sink : Advisory → m Unit)
    (base : Text) (forest : List Declaration)
    : survey sink base forest = forM (advisories base forest) sink :=
  siblings_eq_forM sink none base 0 forest

/-- Collecting hands everything on and keeps it in reverse, by induction on what is handed
on.
-/
theorem run_forM_collect {m : Type → Type} [Monad m] [LawfulMonad m]
    (sink : Advisory → m Unit) (found earlier : List Advisory)
    : (forM found (Review.collect sink)).run earlier
      = forM found sink >>= fun _ => pure ((), found.reverse ++ earlier) := by
  induction found generalizing earlier with
  | nil => simp
  | cons advisory rest ih =>
      rw [List.forM_cons, List.forM_cons, StateT.run_bind]
      simp [Review.collect, ih]

/-- A sink without failures is given exactly the advisories of the listing. -/
theorem received_eq {σ : Type} (sink : Advisory → StateM σ Unit) (base : Text)
    (forest : List Declaration) (state : σ)
    : received sink base forest state = advisories base forest := by
  rw [received, survey_eq_forM, run_forM_collect, List.append_nil]
  exact List.reverse_reverse _

/-- The advisories of a forest are those of the declarations that can be looked up in it. -/
theorem mem_advisories_iff (base : Text) (forest : List Declaration) (advisory : Advisory)
    : advisory ∈ advisories base forest
      ↔ ∃ position parent,
          locate forest position = some (parent, advisory.declaration)
          ∧ advisory.path = pathOf base position
          ∧ advisory.code ∈ advisory.declaration.advice parent := by
  rw [advisories, List.mem_flatMap]
  constructor
  · intro h
    obtain ⟨placed, hp, ha⟩ := h
    obtain ⟨code, hc, rfl⟩ := List.mem_map.mp ha
    exact ⟨placed.position, placed.parent, (mem_listing_iff forest placed).mp hp, rfl, hc⟩
  · intro h
    obtain ⟨position, parent, hl, hp, hc⟩ := h
    refine ⟨⟨position, parent, advisory.declaration⟩, (mem_listing_iff forest _).mpr hl, ?_⟩
    refine List.mem_map.mpr ⟨advisory.code, hc, ?_⟩
    rw [← hp]

/-- An advisory at the path of a declaration is about that declaration, since paths tell
positions apart.
-/
theorem advice_of_path_eq {base : Text} {forest : List Declaration} {position : List Nat}
    {parent : Option Header} {declaration : Declaration} {advisory : Advisory}
    (hl : locate forest position = some (parent, declaration))
    (hm : advisory ∈ advisories base forest) (hp : advisory.path = pathOf base position)
    : advisory.declaration = declaration ∧ advisory.code ∈ declaration.advice parent := by
  obtain ⟨other, above, ho, hpo, hc⟩ := (mem_advisories_iff base forest advisory).mp hm
  have same : other = position := pathOf_injective (hpo.symm.trans hp)
  rw [same, hl] at ho
  obtain ⟨rfl, rfl⟩ := Prod.mk.inj (Option.some.inj ho)
  exact ⟨rfl, hc⟩

/-- The advice about a declaration is what is emitted at its path. -/
theorem mem_advice_iff_emitted (base : Text) {forest : List Declaration}
    {position : List Nat} {parent : Option Header} {declaration : Declaration}
    (hl : locate forest position = some (parent, declaration)) (code : Advisory.Code)
    : code ∈ declaration.advice parent
      ↔ ∃ advisory ∈ advisories base forest,
          advisory.path = pathOf base position ∧ advisory.code = code := by
  constructor
  · intro hc
    exact ⟨⟨declaration, pathOf base position, code⟩,
      (mem_advisories_iff base forest _).mpr ⟨position, parent, hl, rfl, hc⟩, rfl, rfl⟩
  · intro h
    obtain ⟨advisory, hm, hp, rfl⟩ := h
    exact (advice_of_path_eq hl hm hp).2

end Survey

end NamingAdvice
