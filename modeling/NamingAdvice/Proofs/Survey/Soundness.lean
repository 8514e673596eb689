import NamingAdvice.Proofs.Advisory.Grounds
import NamingAdvice.Proofs.Survey.Listing

/-! A survey is sound and complete: at every position of a forest it gives an advice exactly if
there are grounds for it, and it gives none anywhere else. The header right above is all that
a declaration inherits, however deep it stands.
-/

namespace NamingAdvice.Survey

/-- For every declaration of a forest, a sink is given an advisory with a code at the path of
the declaration exactly if there are grounds for it; what it is given there is about that very
declaration, and everything it is given is at the path of some declaration.
-/
theorem received_iff_grounds {σ : Type} (sink : Advisory → StateM σ Unit) (base : Text)
    (forest : List Declaration) (state : σ)
    : (∀ position parent declaration,
        locate forest position = some (parent, declaration)
        → (∀ code : Advisory.Code,
            (∃ advisory ∈ received sink base forest state,
                advisory.path = pathOf base position ∧ advisory.code = code)
              ↔ code.Grounds declaration.toHeader parent)
          ∧ ∀ advisory ∈ received sink base forest state,
              advisory.path = pathOf base position → advisory.declaration = declaration)
      ∧ ∀ advisory ∈ received sink base forest state,
          ∃ position parent,
            locate forest position = some (parent, advisory.declaration)
            ∧ advisory.path = pathOf base position := by
  rw [received_eq]
  refine ⟨?_, ?_⟩
  · intro position parent declaration hl
    refine ⟨fun code => ⟨?_, ?_⟩, fun advisory hm hp => (advice_of_path_eq hl hm hp).1⟩
    · intro h
      obtain ⟨advisory, hm, hp, rfl⟩ := h
      exact (Header.mem_advice_iff _ _ _).mp (advice_of_path_eq hl hm hp).2
    · intro hg
      have hc := (Header.mem_advice_iff _ _ _).mpr hg
      exact ⟨⟨declaration, pathOf base position, code⟩,
        (mem_advisories_iff base forest _).mpr ⟨position, parent, hl, rfl, hc⟩, rfl, rfl⟩
  · intro advisory hm
    obtain ⟨position, parent, hl, hp, -⟩ := (mem_advisories_iff base forest advisory).mp hm
    exact ⟨position, parent, hl, hp⟩

/-- An interface whose method has its name and takes a parameter. -/
def shapeInterface : List Declaration :=
  [⟨⟨.interfaceType, text "Shape", [], none, none, false⟩,
    [⟨⟨.method, text "Shape", [], none, none, false⟩,
      [⟨⟨.parameter, text "Side", [], none, none, false⟩, []⟩]⟩]⟩]

/-- The parameter stands in the method and not in the interface, so it is no constant. -/
theorem shapeInterface_parameter_received
    : locate shapeInterface [0, 0, 0]
        = some
            (some ⟨.method, text "Shape", [], none, none, false⟩,
              ⟨⟨.parameter, text "Side", [], none, none, false⟩, []⟩)
      ∧ ∃ advisory ∈ received (fun _ => pure ()) (text "/base") shapeInterface (),
          advisory.path = pathOf (text "/base") [0, 0, 0] ∧ advisory.code = .initialLower :=
  ⟨rfl,
    ((received_iff_grounds (fun _ => pure ()) (text "/base") shapeInterface ()).1
        [0, 0, 0] _ _ rfl).1 .initialLower
      |>.mpr ((Header.mem_advice_iff _ _ _).mp (by decide +kernel))⟩

end NamingAdvice.Survey
