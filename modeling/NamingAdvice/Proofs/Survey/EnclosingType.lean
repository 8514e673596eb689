import NamingAdvice.Proofs.Advisory.Grounds
import NamingAdvice.Proofs.Survey.Listing

/-! Methods outside of types. The kind and the name of what encloses a declaration are found
apart from each other, and only a name that is inherited has to be the name of a type. A method
that is not enclosed by a type is compared all the same with a name that it states, and with the
type right above it where it states another kind.
-/

namespace NamingAdvice

/-- Where no type encloses a declaration, the name of its type can still be stated; it is
inherited only past a kind that is stated, since an inherited kind is that of the same parent.
-/
theorem Header.inTypeNamed_iff_of_not_type {header : Header} {parent : Option Header}
    {kind : Kind} (enclosed : header.EnclosedBy parent kind) (outside : kind ∉ Kind.types)
    (name : Text)
    : header.InTypeNamed parent name
      ↔ header.enclosingName = some name
        ∨ header.enclosingName = none
          ∧ header.enclosingKind = some kind
          ∧ ∃ above, parent = some above ∧ above.kind ∈ Kind.types ∧ above.name = name := by
  refine or_congr Iff.rfl (and_congr_right ?_)
  intro _
  constructor
  · intro inherited
    refine ⟨?_, inherited⟩
    rcases enclosed with stated | ⟨-, above, hp, hk⟩
    · exact stated
    · obtain ⟨other, ho, ht, -⟩ := inherited
      obtain rfl : above = other := Option.some.inj (hp.symm.trans ho)
      exact absurd (hk ▸ ht) outside
  · intro h
    exact h.2

namespace Survey

/-- A method that no type encloses gets no advice about the name of its type exactly if it does
not state its own name as the enclosing one, and does not leave out that name and state the kind
below a type of its name.
-/
theorem received_outside_types {σ : Type} (sink : Advisory → StateM σ Unit) (base : Text)
    (forest : List Declaration) (state : σ) {position : List Nat} {parent : Option Header}
    {declaration : Declaration} (kind : Kind)
    (located : locate forest position = some (parent, declaration))
    (method : declaration.kind = .method) (enclosed : declaration.EnclosedBy parent kind)
    (outside : kind ∉ Kind.types)
    : (∀ advisory ∈ received sink base forest state,
        advisory.path = pathOf base position → advisory.code ≠ .methodNamedLikeType)
      ↔ declaration.enclosingName ≠ some declaration.name
        ∧ ¬ (declaration.enclosingName = none
            ∧ declaration.enclosingKind = some kind
            ∧ ∃ above,
                parent = some above
                ∧ above.kind ∈ Kind.types
                ∧ above.name = declaration.name) := by
  have grounds := Header.mem_advice_iff declaration.toHeader parent .methodNamedLikeType
  rw [mem_advice_iff_emitted base located, Advisory.Code.Grounds, and_iff_right method,
    Header.inTypeNamed_iff_of_not_type enclosed outside] at grounds
  rw [received_eq, ← not_or, ← grounds]
  simp only [not_exists, not_and, ne_eq]

/-- Four methods that no type encloses. The first states the kind and the name of a method, the
second a kind below a class, the third a name below a method, and the last states nothing.
-/
def nestedMethods : List Declaration :=
  [⟨⟨.method, text "run", [], some .method, some (text "run"), false⟩, []⟩,
    ⟨⟨.classType, text "run", [], none, none, false⟩,
      [⟨⟨.method, text "run", [], some .staticInitializer, none, false⟩, []⟩]⟩,
    ⟨⟨.method, text "start", [], none, none, false⟩,
      [⟨⟨.method, text "run", [], none, some (text "run"), false⟩, []⟩]⟩,
    ⟨⟨.method, text "run", [], none, none, false⟩,
      [⟨⟨.method, text "run", [], none, none, false⟩, []⟩]⟩]

/-- Not every method is compared with the name of an enclosing type only: one inside of a method
is compared with the name of that method, if it states it.
-/
theorem compared_outside_types
    : ¬ ∀ (σ : Type) (sink : Advisory → StateM σ Unit) (base : Text)
        (forest : List Declaration) (state : σ) (position : List Nat) (parent : Option Header)
        (declaration : Declaration) (kind : Kind),
        locate forest position = some (parent, declaration)
        → declaration.kind = .method
        → declaration.EnclosedBy parent kind
        → kind ∉ Kind.types
        → ∀ advisory ∈ received sink base forest state,
            advisory.path = pathOf base position → advisory.code ≠ .methodNamedLikeType := by
  intro never
  have located : locate nestedMethods [0]
      = some (none, ⟨⟨.method, text "run", [], some .method, some (text "run"), false⟩, []⟩) :=
    rfl
  obtain ⟨advisory, given, path, code⟩ :=
    (mem_advice_iff_emitted [] located .methodNamedLikeType).mp (by decide +kernel)
  rw [← received_eq (fun _ => pure ()) [] nestedMethods ()] at given
  exact never Unit _ [] nestedMethods () [0] _ _ .method located rfl (Or.inl rfl) (by decide)
    advisory given path code

/-- The three of them that state something are compared with the name `run`, the last is not. -/
theorem nestedMethods_received
    : let silent (position : List Nat) : Prop :=
        ∀ advisory ∈ received (fun _ => pure ()) [] nestedMethods (),
          advisory.path = pathOf [] position → advisory.code ≠ .methodNamedLikeType
      ¬ silent [0] ∧ ¬ silent [1, 0] ∧ ¬ silent [2, 0] ∧ silent [3, 0] := by
  have compared {position : List Nat} {parent : Option Header} {declaration : Declaration}
      (kind : Kind) (located : locate nestedMethods position = some (parent, declaration)) :=
    received_outside_types (fun _ => pure ()) [] nestedMethods () kind located
  refine ⟨?_, ?_, ?_, ?_⟩
  · intro silent
    have given := (compared .method rfl rfl (Or.inl rfl) (by decide)).mp silent
    exact given.1 rfl
  · intro silent
    have given := (compared .staticInitializer rfl rfl (Or.inl rfl) (by decide)).mp silent
    exact given.2 ⟨rfl, rfl, _, rfl, by decide, rfl⟩
  · intro silent
    have given := (compared .method rfl rfl (Or.inr ⟨rfl, _, rfl, rfl⟩) (by decide)).mp silent
    exact given.1 rfl
  · refine (compared .method rfl rfl (Or.inr ⟨rfl, _, rfl, rfl⟩) (by decide)).mpr ⟨?_, ?_⟩
    · simp
    · simp

end Survey

end NamingAdvice
