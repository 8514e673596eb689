import Mathlib.Data.List.Basic
import NamingAdvice.Proofs.Survey.Flattening

/-! How far an edit of a forest reaches. Putting another declaration at a position changes what is
told at that position and below it, in one piece of the survey, and nothing else. If the children
stay and their surroundings too, it changes only what is told about the declaration itself.
-/

namespace NamingAdvice

/-- A declaration with another one put at a position below it. A position that leads nowhere
changes nothing.
-/
def Declaration.replaceAt : Declaration → List Nat → Declaration → Declaration
  | _, [], new => new
  | ⟨header, children⟩, index :: rest, new =>
      ⟨header, children.modify index (·.replaceAt rest new)⟩

/-- A forest with another declaration put at a position. -/
def Survey.replaceAt (forest : List Declaration) : List Nat → Declaration → List Declaration
  | [], _ => forest
  | index :: rest, new => forest.modify index (·.replaceAt rest new)

/-- A placed declaration without what stands below it. -/
def Placed.bare (placed : Placed) : Placed :=
  { placed with declaration := ⟨placed.declaration.toHeader, []⟩ }

/-- In a listing that depends on the declaration put at a position, nothing else depends on it than
what is listed at or below that position: this stands in one piece, and it is the declaration as it
is listed below the header `above`.
-/
def Placed.Framed (whole : Declaration → List Placed) (position : List Nat)
    (above : Option Header)
    : Prop :=
  ∃ before after,
    (∀ new,
      (whole new).map Placed.bare
        = before ++ ((new.listing above).map (·.below position)).map Placed.bare ++ after)
    ∧ ∀ placed ∈ before ++ after, ¬ position <+: placed.position

-----------------------------------------------------------------------------------------
-- What stands where after a replacement
-----------------------------------------------------------------------------------------

theorem modify_eq_set_of_getElem? {α : Type} {items : List α} {index : Nat} {item : α}
    (h : items[index]? = some item) (f : α → α)
    : items.modify index f = items.set index (f item) := by
  rw [List.modify_eq_set_getElem?, h]
  rfl

namespace Declaration

/-- The new declaration stands at its position, below the same header as the old one. -/
theorem locate_replaceAt {parent above : Option Header} {declaration found : Declaration}
    {position : List Nat} (h : declaration.locate parent position = some (above, found))
    (new : Declaration)
    : (declaration.replaceAt position new).locate parent position = some (above, new) := by
  induction position generalizing parent declaration with
  | nil =>
      obtain ⟨rfl, -⟩ := Prod.mk.inj (Option.some.inj h)
      rfl
  | cons index rest ih =>
      rcases declaration with ⟨header, children⟩
      obtain ⟨child, hc, hl⟩ := Option.bind_eq_some_iff.mp h
      refine Option.bind_eq_some_iff.mpr ⟨child.replaceAt rest new, ?_, ih hl⟩
      rw [replaceAt, List.getElem?_modify_eq, hc]
      rfl

/-- Putting back what stands at a position changes nothing. -/
theorem replaceAt_self {parent above : Option Header} {declaration found : Declaration}
    {position : List Nat} (h : declaration.locate parent position = some (above, found))
    : declaration.replaceAt position found = declaration := by
  induction position generalizing parent declaration with
  | nil => exact (Prod.mk.inj (Option.some.inj h)).2.symm
  | cons index rest ih =>
      rcases declaration with ⟨header, children⟩
      obtain ⟨child, hc, hl⟩ := Option.bind_eq_some_iff.mp h
      obtain ⟨inside, rfl⟩ := List.getElem?_eq_some_iff.mp hc
      rw [replaceAt, modify_eq_set_of_getElem? hc, ih hl, List.set_getElem_self]

end Declaration

namespace Survey

theorem locate_replaceAt {forest : List Declaration} {position : List Nat}
    {parent : Option Header} {old : Declaration}
    (h : locate forest position = some (parent, old)) (new : Declaration)
    : locate (replaceAt forest position new) position = some (parent, new) := by
  cases position with
  | nil => cases h
  | cons index rest =>
      obtain ⟨root, hr, hl⟩ := Option.bind_eq_some_iff.mp h
      refine Option.bind_eq_some_iff.mpr
        ⟨root.replaceAt rest new, ?_, Declaration.locate_replaceAt hl new⟩
      rw [replaceAt, List.getElem?_modify_eq, hr]
      rfl

theorem replaceAt_self {forest : List Declaration} {position : List Nat}
    {parent : Option Header} {old : Declaration}
    (h : locate forest position = some (parent, old))
    : replaceAt forest position old = forest := by
  cases position with
  | nil => cases h
  | cons index rest =>
      obtain ⟨root, hr, hl⟩ := Option.bind_eq_some_iff.mp h
      obtain ⟨inside, rfl⟩ := List.getElem?_eq_some_iff.mp hr
      rw [replaceAt, modify_eq_set_of_getElem? hr, Declaration.replaceAt_self hl,
        List.set_getElem_self]

-----------------------------------------------------------------------------------------
-- The rest of the listing stays
-----------------------------------------------------------------------------------------

/-- What one sibling leaves unchanged is left unchanged by all of them, one level further up. -/
theorem framed_listingFrom {parent above : Option Header} {declarations : List Declaration}
    {index : Nat} {rest : List Nat} {whole : Declaration → Declaration}
    (inside : index < declarations.length)
    (h : Placed.Framed (fun new => (whole new).listing parent) rest above)
    : Placed.Framed (fun new => listingFrom parent 0 (declarations.set index (whole new)))
        (index :: rest) above := by
  obtain ⟨before, after, he, hn⟩ := h
  obtain ⟨left, right, hs, apart⟩ := listingFrom_set parent 0 inside
  rw [Nat.zero_add] at hs apart
  refine ⟨left.map Placed.bare ++ before.map (·.under index),
    after.map (·.under index) ++ right.map Placed.bare, ?_, ?_⟩
  · intro new
    have own : ((whole new).listing parent).map (Placed.bare ∘ Placed.under index)
        = (((whole new).listing parent).map Placed.bare).map (·.under index) := by
      rw [List.map_map]
      rfl
    rw [he new] at own
    simp only [hs, List.map_append, List.map_map, own]
    simp [Placed.under, Placed.below, Placed.bare, Function.comp_def]
  · intro placed hm below
    obtain ⟨deeper, hd⟩ := below
    rw [mem_around_iff, ← List.map_append, ← List.map_append, List.mem_map, List.mem_map] at hm
    rcases hm with ⟨other, ho, rfl⟩ | ⟨inner, hi, rfl⟩
    · exact apart other ho (congrArg List.head? hd).symm
    · exact hn inner hi ⟨deeper, (List.cons.inj hd).2⟩

end Survey

/-- What is put at a position below a declaration leaves the rest of its listing as it is, by
induction on the position.
-/
theorem Declaration.framed_listing {parent above : Option Header}
    {declaration found : Declaration} {position : List Nat}
    (h : declaration.locate parent position = some (above, found))
    : Placed.Framed (fun new => (declaration.replaceAt position new).listing parent) position
        above := by
  induction position generalizing parent declaration with
  | nil =>
      obtain ⟨rfl, -⟩ := Prod.mk.inj (Option.some.inj h)
      refine ⟨[], [], ?_, by simp⟩
      intro new
      simp [replaceAt, Placed.below]
  | cons index rest ih =>
      rcases declaration with ⟨header, children⟩
      obtain ⟨child, hc, hl⟩ := Option.bind_eq_some_iff.mp h
      have inside := (List.getElem?_eq_some_iff.mp hc).1
      obtain ⟨before, after, he, hn⟩ := Survey.framed_listingFrom inside (ih hl)
      refine ⟨⟨[], parent, ⟨header, []⟩⟩ :: before, after, ?_, ?_⟩
      · intro new
        simp only [replaceAt, modify_eq_set_of_getElem? hc, Declaration.listing, List.map_cons,
          he new]
        rfl
      · intro placed hm
        rcases List.mem_cons.mp hm with rfl | hm
        · simp
        · exact hn placed hm

namespace Survey

theorem framed_listing {forest : List Declaration} {position : List Nat}
    {parent : Option Header} {old : Declaration}
    (h : locate forest position = some (parent, old))
    : Placed.Framed (fun new => listing (replaceAt forest position new)) position parent := by
  cases position with
  | nil => cases h
  | cons index rest =>
      obtain ⟨root, hr, hl⟩ := Option.bind_eq_some_iff.mp h
      have inside := (List.getElem?_eq_some_iff.mp hr).1
      have framed := framed_listingFrom inside (Declaration.framed_listing hl)
      simpa only [listing, replaceAt, modify_eq_set_of_getElem? hr] using framed

-----------------------------------------------------------------------------------------
-- What is told at a position and below it
-----------------------------------------------------------------------------------------

/-- What is told about a declaration at a position and everything below it. -/
def tellingsAt (base : Text) (position : List Nat) (above : Option Header)
    (declaration : Declaration)
    : List (Text × Advisory.Code × Text × Kind × Text) :=
  ((declaration.listing above).map (·.below position)).flatMap (tellings (pathOf base))

theorem flatMap_tellings_bare (path : List Nat → Text) (placed : List Placed)
    : (placed.map Placed.bare).flatMap (tellings path) = placed.flatMap (tellings path) := by
  rw [List.flatMap_map]
  rfl

theorem path_of_mem_tellings {path : List Nat → Text} {placed : List Placed}
    {telling : Text × Advisory.Code × Text × Kind × Text}
    (h : telling ∈ placed.flatMap (tellings path))
    : ∃ one ∈ placed, telling.1 = path one.position := by
  obtain ⟨one, hm, ht⟩ := List.mem_flatMap.mp h
  obtain ⟨content, -, rfl⟩ := List.mem_map.mp ht
  exact ⟨one, hm, rfl⟩

/-- A declaration is told about first, then what stands below it. -/
theorem tellingsAt_eq (base : Text) (position : List Nat) (above : Option Header)
    (declaration : Declaration)
    : tellingsAt base position above declaration
      = (declaration.toHeader.contents above).map (pathOf base position, ·)
        ++ (listingFrom (some declaration.toHeader) 0 declaration.children).flatMap
            (tellings (fun below => pathOf base (position ++ below))) := by
  rcases declaration with ⟨header, children⟩
  rw [tellingsAt, Declaration.listing, List.map_cons, List.flatMap_cons, List.flatMap_map]
  simp only [tellings, Placed.below, List.append_nil]
  rfl

theorem within_of_mem_tellingsAt {base : Text} {position : List Nat} {above : Option Header}
    {declaration : Declaration} {telling : Text × Advisory.Code × Text × Kind × Text}
    (h : telling ∈ tellingsAt base position above declaration)
    : Text.Within (pathOf base position) telling.1 := by
  obtain ⟨placed, hm, hp⟩ := path_of_mem_tellings h
  obtain ⟨inner, -, rfl⟩ := List.mem_map.mp hm
  rw [hp, within_pathOf_iff]
  exact List.prefix_append position inner.position

/-- Whatever is put at a position, the rest of the survey stays, and none of it is within the path
of the position.
-/
theorem map_advisories_replaceAt (base : Text) {forest : List Declaration}
    {position : List Nat} {parent : Option Header} {old : Declaration}
    (h : locate forest position = some (parent, old))
    : ∃ before after,
        (∀ new,
          (advisories base (replaceAt forest position new)).map
              (fun advisory => (advisory.path, advisory.content))
            = before ++ tellingsAt base position parent new ++ after)
        ∧ ∀ telling ∈ before ++ after, ¬ Text.Within (pathOf base position) telling.1 := by
  obtain ⟨before, after, he, hn⟩ := framed_listing h
  refine ⟨before.flatMap (tellings (pathOf base)), after.flatMap (tellings (pathOf base)), ?_, ?_⟩
  · intro new
    rw [advisories, map_advisories_eq_tellings, ← flatMap_tellings_bare, he new,
      List.flatMap_append, List.flatMap_append, flatMap_tellings_bare, tellingsAt]
  · intro telling hm
    rw [← List.flatMap_append] at hm
    obtain ⟨placed, hp, same⟩ := path_of_mem_tellings hm
    rw [same, within_pathOf_iff]
    exact hn placed hp

/-- A declaration with the children of another one, under a header of the same kind and with the
same name if it is a type, has the same told about what stands below it.
-/
theorem tellingsAt_same_children (base : Text) {position : List Nat} (above : Option Header)
    {old new : Declaration} (children : new.children = old.children)
    (kind : new.kind = old.kind) (name : old.kind ∈ Kind.types → new.name = old.name)
    : ∃ own own' below,
        tellingsAt base position above old = own ++ below
        ∧ tellingsAt base position above new = own' ++ below
        ∧ (∀ telling ∈ own ++ own', telling.1 = pathOf base position)
        ∧ ∀ telling ∈ below, telling.1 ≠ pathOf base position := by
  have same := flatMap_tellings_above kind name
    (fun below => pathOf base (position ++ below)) 0 old.children
  refine ⟨(old.toHeader.contents above).map (pathOf base position, ·),
    (new.toHeader.contents above).map (pathOf base position, ·), _,
    tellingsAt_eq base position above old, ?_, ?_, ?_⟩
  · rw [tellingsAt_eq, children, same]
  · intro telling hm
    rw [← List.map_append] at hm
    obtain ⟨content, -, rfl⟩ := List.mem_map.mp hm
    rfl
  · intro telling hm atPosition
    obtain ⟨placed, hp, path⟩ := path_of_mem_tellings hm
    obtain ⟨offset, rest, child, hr, -⟩ := position_of_mem_listingFrom hp
    have stays := pathOf_injective (path.symm.trans atPosition)
    rw [hr] at stays
    simp at stays

/-- An edit of a forest is local. With another declaration put at a position, a sink is told the
same before and after one piece of the survey, which is what is told at the path of the position or
at paths that go on from it by whole segments. If the declaration keeps its children and its kind,
and its name if it is a type, the piece differs only in what is told at the very path of the
position.
-/
theorem received_replaceAt {σ : Type} (sink : Advisory → StateM σ Unit) (state : σ)
    (base : Text) (forest : List Declaration) (position : List Nat) (parent : Option Header)
    (old new : Declaration) (h : locate forest position = some (parent, old))
    : locate (replaceAt forest position new) position = some (parent, new)
      ∧ ∃ before left right after,
          (received sink base forest state).map
              (fun advisory => (advisory.path, advisory.content))
            = before ++ left ++ after
          ∧ (received sink base (replaceAt forest position new) state).map
              (fun advisory => (advisory.path, advisory.content))
            = before ++ right ++ after
          ∧ (∀ telling ∈ left ++ right, Text.Within (pathOf base position) telling.1)
          ∧ (∀ telling ∈ before ++ after, ¬ Text.Within (pathOf base position) telling.1)
          ∧ (new.children = old.children
              → new.kind = old.kind
              → (old.kind ∈ Kind.types → new.name = old.name)
              → ∃ own own' below,
                  left = own ++ below
                  ∧ right = own' ++ below
                  ∧ (∀ telling ∈ own ++ own', telling.1 = pathOf base position)
                  ∧ ∀ telling ∈ below, telling.1 ≠ pathOf base position) := by
  refine ⟨locate_replaceAt h new, ?_⟩
  obtain ⟨before, after, he, outside⟩ := map_advisories_replaceAt base h
  have unchanged := he old
  rw [replaceAt_self h] at unchanged
  refine ⟨before, tellingsAt base position parent old, tellingsAt base position parent new, after,
    ?_, ?_, ?_, outside, ?_⟩
  · rw [received_eq, unchanged]
  · rw [received_eq, he new]
  · intro telling hm
    rcases List.mem_append.mp hm with hm | hm
    · exact within_of_mem_tellingsAt hm
    · exact within_of_mem_tellingsAt hm
  · intro children kind name
    exact tellingsAt_same_children base parent children kind name

/-- A method with a parameter, both in upper case. -/
def methodNamed (name : Text) : Declaration :=
  ⟨⟨.method, name, [], none, none, false⟩,
    [⟨⟨.parameter, text "Size", [], none, none, false⟩, []⟩]⟩

/-- A class with eleven such methods. -/
def elevenMethods : List Declaration :=
  [⟨⟨.classType, text "Grid", [], none, none, false⟩,
    List.replicate 11 (methodNamed (text "Resize"))⟩]

/-- Giving the second method the name of the class changes what is told about this method and
nothing else: not about its parameter, and not about the eleventh method, though its path starts
with the same letters.
-/
theorem elevenMethods_replaceAt
    : locate elevenMethods [0, 1]
        = some
            (some ⟨.classType, text "Grid", [], none, none, false⟩, methodNamed (text "Resize"))
      ∧ ∃ before own own' below after,
          (received (fun _ => pure ()) [] elevenMethods ()).map
              (fun advisory => (advisory.path, advisory.content))
            = before ++ (own ++ below) ++ after
          ∧ (received (fun _ => pure ()) []
                (replaceAt elevenMethods [0, 1] (methodNamed (text "Grid"))) ()).map
              (fun advisory => (advisory.path, advisory.content))
            = before ++ (own' ++ below) ++ after
          ∧ (∀ telling ∈ own ++ own', telling.1 = text "/0/children/1")
          ∧ ∀ telling ∈ before ++ after, ¬ Text.Within (text "/0/children/1") telling.1 := by
  have path : pathOf [] [0, 1] = text "/0/children/1" := by decide +kernel
  have located : locate elevenMethods [0, 1]
      = some
          (some ⟨.classType, text "Grid", [], none, none, false⟩,
            methodNamed (text "Resize")) := rfl
  obtain ⟨-, before, left, right, after, hl, hr, -, outside, same⟩ :=
    received_replaceAt (fun _ => pure ()) () [] elevenMethods [0, 1] _ _
      (methodNamed (text "Grid")) located
  obtain ⟨own, own', below, rfl, rfl, stays, -⟩ := same rfl rfl (by decide)
  rw [path] at outside stays
  exact ⟨located, before, own, own', below, after, hl, hr, stays, outside⟩

end Survey

end NamingAdvice
