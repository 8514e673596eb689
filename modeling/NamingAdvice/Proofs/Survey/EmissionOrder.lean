import Mathlib.Data.List.Nodup
import NamingAdvice.Proofs.Advisory.Grounds
import NamingAdvice.Proofs.Survey.Listing

/-! The order in which a sink is given advisories. Positions are compared as lists of numbers,
so a declaration comes before everything below it and the tenth child after the second one,
whatever their paths look like as texts. At one position the advice about the name of a type
comes first.
-/

namespace NamingAdvice

-----------------------------------------------------------------------------------------
-- Positions grow along the listing
-----------------------------------------------------------------------------------------

/-- A position comes before those below it, and before those of later siblings. -/
def Placed.Before (left right : Placed) : Prop :=
  List.Lex (· < ·) left.position right.position

mutual

theorem Declaration.listing_pairwise (parent : Option Header) (declaration : Declaration)
    : (declaration.listing parent).Pairwise Placed.Before := by
  rcases declaration with ⟨header, children⟩
  rw [Declaration.listing, List.pairwise_cons]
  refine ⟨?_, Survey.listingFrom_pairwise (some header) 0 children⟩
  intro placed hm
  obtain ⟨offset, rest, child, hp, -⟩ := Survey.position_of_mem_listingFrom hm
  rw [Placed.Before, hp]
  exact .nil

theorem Survey.listingFrom_pairwise (parent : Option Header) (index : Nat)
    (declarations : List Declaration)
    : (Survey.listingFrom parent index declarations).Pairwise Placed.Before := by
  cases declarations with
  | nil => exact .nil
  | cons declaration rest =>
      rw [Survey.listingFrom, List.pairwise_append, List.pairwise_map]
      refine ⟨?_, Survey.listingFrom_pairwise parent (index + 1) rest, ?_⟩
      · exact (declaration.listing_pairwise parent).imp (fun h => .cons h)
      · intro left hl right hr
        obtain ⟨inner, -, rfl⟩ := List.mem_map.mp hl
        obtain ⟨offset, below, found, hp, -⟩ := Survey.position_of_mem_listingFrom hr
        rw [Placed.Before, hp]
        exact .rel (by omega)

end

-----------------------------------------------------------------------------------------
-- A declaration with everything below it is one block
-----------------------------------------------------------------------------------------

/-- The same declaration, its position told from further up. -/
def Placed.below (position : List Nat) (placed : Placed) : Placed :=
  { placed with position := position ++ placed.position }

/-- A part of a listing is all that the listing holds at or below a position, and it stands in
one piece.
-/
def Placed.Block (whole : List Placed) (position : List Nat) (part : List Placed) : Prop :=
  ∃ before after,
    whole = before ++ part.map (·.below position) ++ after
    ∧ ∀ placed ∈ before ++ after, ¬ position <+: placed.position

/-- What surrounds a piece of a piece surrounds the inner one or the outer one. -/
theorem mem_around_iff {α : Type} {item : α} {left before after right : List α}
    : item ∈ left ++ before ++ (after ++ right)
      ↔ item ∈ left ++ right ∨ item ∈ before ++ after := by
  simp only [List.mem_append]
  tauto

/-- A block in the listing of a sibling is a block of the siblings, one level further up. -/
theorem Survey.listingFrom_block {parent : Option Header} {declarations : List Declaration}
    {declaration : Declaration} {index : Nat} {rest : List Nat} {part : List Placed}
    (hd : declarations[index]? = some declaration)
    (h : Placed.Block (declaration.listing parent) rest part)
    : Placed.Block (Survey.listingFrom parent 0 declarations) (index :: rest) part := by
  obtain ⟨before, after, he, ha⟩ := h
  obtain ⟨left, right, hs, hn⟩ := Survey.listingFrom_split parent 0 hd
  rw [Nat.zero_add] at hs hn
  refine ⟨left ++ before.map (·.under index), after.map (·.under index) ++ right, ?_, ?_⟩
  · rw [hs, he]
    simp [Placed.under, Placed.below, Function.comp_def]
  · intro placed hm hp
    obtain ⟨below, hb⟩ := hp
    rw [mem_around_iff, ← List.map_append, List.mem_map] at hm
    rcases hm with hm | ⟨inner, hi, rfl⟩
    · exact hn placed hm (by simp [← hb])
    · exact ha inner hi ⟨below, (List.cons.inj hb).2⟩

/-- What is listed at or below a position forms one block, by induction on the position: the
block of a child lies inside the block of the declaration above it.
-/
theorem Declaration.listing_block {parent above : Option Header}
    {declaration found : Declaration} {position : List Nat}
    (h : declaration.locate parent position = some (above, found))
    : Placed.Block (declaration.listing parent) position (found.listing above) := by
  induction position generalizing parent declaration with
  | nil =>
      obtain ⟨rfl, rfl⟩ : parent = above ∧ declaration = found := by
        simpa [Declaration.locate] using h
      exact ⟨[], [], by simp [Placed.below], by simp⟩
  | cons index rest ih =>
      rcases declaration with ⟨header, children⟩
      obtain ⟨child, hc, hl⟩ := Option.bind_eq_some_iff.mp h
      obtain ⟨before, after, he, ha⟩ := Survey.listingFrom_block hc (ih hl)
      refine ⟨⟨[], parent, ⟨header, children⟩⟩ :: before, after, ?_, ?_⟩
      · rw [Declaration.listing, he]
        rfl
      · intro placed hm
        rcases List.mem_cons.mp hm with rfl | hm
        · simp
        · exact ha placed hm

theorem Survey.listing_block {forest : List Declaration} {parent : Option Header}
    {declaration : Declaration} {position : List Nat}
    (h : Survey.locate forest position = some (parent, declaration))
    : Placed.Block (Survey.listing forest) position (declaration.listing parent) := by
  cases position with
  | nil => cases h
  | cons index rest =>
      obtain ⟨root, hr, hl⟩ := Option.bind_eq_some_iff.mp h
      exact Survey.listingFrom_block hr (Declaration.listing_block hl)

-----------------------------------------------------------------------------------------
-- The advice about one declaration
-----------------------------------------------------------------------------------------

namespace Header

/-- No convention advises against the name of a type. -/
theorem advice?_ne_methodNamedLikeType (convention : Convention) (name : Text)
    : convention.advice? name ≠ some .methodNamedLikeType := by
  intro h
  cases convention with
  | upperCamelCase => exact (Name.camelCase_eq_some_iff ..).mp h
  | lowerCamelCase => exact (Name.camelCase_eq_some_iff ..).mp h
  | allCapsUnderscore => cases ((Name.allCaps_eq_some_iff ..).mp h).1

/-- The advice about the name of a type stands before any other, and there is no third. -/
theorem advice_pairwise (header : Header) (parent : Option Header)
    : (header.advice parent).Pairwise
        (fun first second =>
          first = .methodNamedLikeType ∧ second ≠ .methodNamedLikeType) := by
  have naming (code : Advisory.Code)
      (h : (header.standing parent).convention?.bind (·.advice? header.name) = some code)
      : code ≠ .methodNamedLikeType := by
    obtain ⟨convention, -, ha⟩ := Option.bind_eq_some_iff.mp h
    rintro rfl
    exact advice?_ne_methodNamedLikeType convention header.name ha
  rw [advice, List.pairwise_append]
  refine ⟨?_, ?_, ?_⟩
  · split <;> simp
  · cases (header.standing parent).convention?.bind (·.advice? header.name) <;> simp
  · intro first hf second hs
    split at hf
    · exact ⟨List.mem_singleton.mp hf, naming second (by simpa using hs)⟩
    · cases hf

/-- Two pieces of advice at most, and the first of them for methods only. -/
theorem length_advice_le (header : Header) (parent : Option Header)
    : (header.advice parent).length ≤ if header.kind = .method then 2 else 1 := by
  have naming := Option.length_toList_le
    (o := (header.standing parent).convention?.bind (·.advice? header.name))
  rw [advice, List.length_append]
  by_cases hk : header.kind = .method
  · rw [if_pos hk]
    split <;> simp only [List.length_cons, List.length_nil] <;> omega
  · have unlike : header.namedLikeType parent = false := by simp [namedLikeType, hk]
    rw [if_neg hk, unlike, if_neg (by simp), List.length_nil, Nat.zero_add]
    exact naming

end Header

namespace Survey

/-- An advisory is about the declaration at a position of a forest. -/
def StandsAt (base : Text) (forest : List Declaration) (position : List Nat)
    (advisory : Advisory)
    : Prop :=
  advisory.path = pathOf base position
  ∧ ∃ parent, locate forest position = some (parent, advisory.declaration)

/-- Parents come before their children and siblings in the order of their indices; at one
declaration the advice about the name of a type comes before the one about a convention.
-/
def Precedes (base : Text) (forest : List Declaration) (first second : Advisory) : Prop :=
  ∃ left right,
    StandsAt base forest left first
    ∧ StandsAt base forest right second
    ∧ (List.Lex (· < ·) left right
      ∨ left = right
        ∧ first.code = .methodNamedLikeType
        ∧ second.code ≠ .methodNamedLikeType)

/-- An advisory has the path of a position or of one below it. -/
def AtOrBelow (base : Text) (position : List Nat) (advisory : Advisory) : Prop :=
  ∃ below, advisory.path = pathOf base (position ++ below)

theorem standsAt_of_mem_placed {base : Text} {forest : List Declaration} {placed : Placed}
    {advisory : Advisory} (hp : placed ∈ listing forest)
    (h : advisory ∈ placed.advisories (pathOf base))
    : StandsAt base forest placed.position advisory := by
  obtain ⟨code, -, rfl⟩ := List.mem_map.mp h
  exact ⟨rfl, placed.parent, (mem_listing_iff forest placed).mp hp⟩

/-- The order of the listing and the order of the advice about one declaration together. -/
theorem advisories_pairwise (base : Text) (forest : List Declaration)
    : (advisories base forest).Pairwise (Precedes base forest) := by
  rw [advisories, List.pairwise_flatMap]
  refine ⟨?_, ?_⟩
  · intro placed hp
    rw [Placed.advisories, List.pairwise_map]
    refine (Header.advice_pairwise _ _).imp_of_mem (fun hf hs order => ?_)
    exact ⟨placed.position, placed.position,
      standsAt_of_mem_placed hp (List.mem_map.mpr ⟨_, hf, rfl⟩),
      standsAt_of_mem_placed hp (List.mem_map.mpr ⟨_, hs, rfl⟩), Or.inr ⟨rfl, order⟩⟩
  · refine (listingFrom_pairwise none 0 forest).imp_of_mem (fun hl hr order => ?_)
    intro first hf second hs
    exact ⟨_, _, standsAt_of_mem_placed hl hf, standsAt_of_mem_placed hr hs, Or.inl order⟩

theorem Precedes.ne {base : Text} {forest : List Declaration} {first second : Advisory}
    (h : Precedes base forest first second)
    : (first.path, first.code) ≠ (second.path, second.code) := by
  obtain ⟨left, right, hl, hr, order⟩ := h
  intro he
  obtain ⟨hp, hc⟩ := Prod.mk.inj he
  have same : left = right := pathOf_injective (hl.1.symm.trans (hp.trans hr.1))
  rcases order with order | ⟨-, hf, hs⟩
  · rw [same] at order
    exact List.lex_irrefl (fun value => Nat.lt_irrefl value) right order
  · exact hs (hc ▸ hf)

theorem advisories_nodup (base : Text) (forest : List Declaration)
    : ((advisories base forest).map (fun advisory => (advisory.path, advisory.code))).Nodup :=
  List.pairwise_map.mpr ((advisories_pairwise base forest).imp Precedes.ne)

/-- As many advisories stand at a declaration as there is advice about it, at most: they differ
in their codes.
-/
theorem length_advisories_at_le {base : Text} {forest : List Declaration}
    {position : List Nat} {parent : Option Header} {declaration : Declaration}
    (h : locate forest position = some (parent, declaration))
    : ((advisories base forest).filter (·.path = pathOf base position)).length
      ≤ (declaration.advice parent).length := by
  have unique : (((advisories base forest).filter (·.path = pathOf base position)).map
      (·.code)).Nodup := by
    have pairs := (advisories_nodup base forest).sublist
      (List.filter_sublist (p := (·.path = pathOf base position)).map _)
    refine List.pairwise_map.mpr ((List.pairwise_map.mp pairs).imp_of_mem ?_)
    intro first second hf hs hne same
    have hf := of_decide_eq_true (List.mem_filter.mp hf).2
    have hs := of_decide_eq_true (List.mem_filter.mp hs).2
    exact hne (by rw [hf, hs, same])
  have known : ((advisories base forest).filter (·.path = pathOf base position)).map (·.code)
      ⊆ declaration.advice parent := by
    intro code hc
    obtain ⟨advisory, ha, rfl⟩ := List.mem_map.mp hc
    obtain ⟨hm, hp⟩ := List.mem_filter.mp ha
    exact (advice_of_path_eq h hm (of_decide_eq_true hp)).2
  simpa using unique.length_le_of_subset known

/-- The advisories at or below a declaration stand in one piece. -/
theorem advisories_block {base : Text} {forest : List Declaration} {position : List Nat}
    {parent : Option Header} {declaration : Declaration}
    (h : locate forest position = some (parent, declaration))
    : ∃ before block after,
        advisories base forest = before ++ block ++ after
        ∧ (∀ advisory ∈ block, AtOrBelow base position advisory)
        ∧ ∀ advisory ∈ before ++ after, ¬ AtOrBelow base position advisory := by
  obtain ⟨before, after, he, hn⟩ := listing_block h
  refine ⟨before.flatMap (Placed.advisories (pathOf base)),
    ((declaration.listing parent).map (·.below position)).flatMap
      (Placed.advisories (pathOf base)),
    after.flatMap (Placed.advisories (pathOf base)), ?_, ?_, ?_⟩
  · rw [advisories, he, List.flatMap_append, List.flatMap_append]
  · intro advisory hm
    obtain ⟨placed, hp, ha⟩ := List.mem_flatMap.mp hm
    obtain ⟨inner, -, rfl⟩ := List.mem_map.mp hp
    obtain ⟨code, -, rfl⟩ := List.mem_map.mp ha
    exact ⟨inner.position, rfl⟩
  · intro advisory hm given
    obtain ⟨below, hb⟩ := given
    rw [← List.flatMap_append] at hm
    obtain ⟨placed, hp, ha⟩ := List.mem_flatMap.mp hm
    obtain ⟨code, -, rfl⟩ := List.mem_map.mp ha
    exact hn placed hp ⟨below, (pathOf_injective hb).symm⟩

/-- A sink without failures is given advisories in strict order: never the same code twice at
one path, at most two about a method and one about anything else, and in one piece what is
about a declaration or anything below it.
-/
theorem received_in_order {σ : Type} (sink : Advisory → StateM σ Unit) (base : Text)
    (forest : List Declaration) (state : σ)
    : (received sink base forest state).Pairwise (Precedes base forest)
      ∧ ((received sink base forest state).map
          (fun advisory => (advisory.path, advisory.code))).Nodup
      ∧ ∀ position parent declaration,
          locate forest position = some (parent, declaration)
          → ((received sink base forest state).filter
                (·.path = pathOf base position)).length
              ≤ (if declaration.kind = .method then 2 else 1)
            ∧ ∃ before block after,
                received sink base forest state = before ++ block ++ after
                ∧ (∀ advisory ∈ block, AtOrBelow base position advisory)
                ∧ ∀ advisory ∈ before ++ after, ¬ AtOrBelow base position advisory := by
  rw [received_eq]
  refine ⟨advisories_pairwise base forest, advisories_nodup base forest, ?_⟩
  intro position parent declaration h
  exact ⟨Nat.le_trans (length_advisories_at_le h) (Header.length_advice_le _ _),
    advisories_block h⟩

/-- A class with eleven fields in capitals, none of them a constant. -/
def elevenFields : List Declaration :=
  [⟨⟨.classType, text "Grid", [], none, none, false⟩,
    List.replicate 11 ⟨⟨.field, text "CELL", [], none, none, false⟩, []⟩⟩]

/-- The last of the fields has one advisory, in one piece, and it comes after that of the third
one though its path is the smaller text.
-/
theorem elevenFields_in_order
    : locate elevenFields [0, 10]
        = some
            (some ⟨.classType, text "Grid", [], none, none, false⟩,
              ⟨⟨.field, text "CELL", [], none, none, false⟩, []⟩)
      ∧ (received (fun _ => pure ()) [] elevenFields ()).Pairwise (Precedes [] elevenFields)
      ∧ ((received (fun _ => pure ()) [] elevenFields ()).filter
          (·.path = pathOf [] [0, 10])).length ≤ 1
      ∧ ∃ before block after,
          received (fun _ => pure ()) [] elevenFields () = before ++ block ++ after
          ∧ (∀ advisory ∈ block, AtOrBelow [] [0, 10] advisory)
          ∧ ∀ advisory ∈ before ++ after, ¬ AtOrBelow [] [0, 10] advisory :=
  have order := received_in_order (fun _ => pure ()) [] elevenFields ()
  ⟨rfl, order.1, order.2.2 [0, 10] _ _ rfl⟩

end Survey

end NamingAdvice
