import NamingAdvice.Proofs.Review.Pointer

/-! The paths of input errors. The path of an error can be read back as the place that it was
written from, so it leads to what the error is about: a value that is there and does not fit, or
an object without the member that is called for. No two errors are about the same place.
-/

namespace NamingAdvice

/-- The step that a segment of a path stands for: a numeral is an index, anything else a key. -/
def Step.ofSegment (segment : Text) : Step :=
  match segment.numeral? with
  | some position => .index position
  | none => .key segment

/-- The steps that a path is made of, one behind each slash; nothing stands before the first. -/
def Text.steps? (path : Text) : Option (List Step) :=
  match path.parts Text.slash with
  | [] :: segments => some (segments.map Step.ofSegment)
  | _ => none

/-- The shape of the values among which the expected ones are. -/
def Expectation.shape : Expectation → Json.Shape
  | .array => .array
  | .object => .object
  | .string | .oneOf _ => .string
  | .boolean => .boolean

namespace Json

/-- The part of a value that a step leads to: an index into a list, or a key of an object. -/
def part? : Json → Step → Option Json
  | .array items, .index position => items[position]?
  | .object members, .key name => members.lookup name
  | _, _ => none

/-- The value at the end of a walk. -/
def follow? (value : Json) : List Step → Option Json
  | [] => some value
  | step :: rest => (value.part? step).bind (·.follow? rest)

/-- A walk leads to a value that a cause is about. -/
inductive Offends (value : Json) : List Step → Issue.Cause → Prop
  | shape {place found expected} (reached : value.follow? place = some found)
    (differ : found.shape ≠ expected.shape)
    : Offends value place (.wrongShape expected found.shape)
  | label {place label labels} (reached : value.follow? place = some (.string label))
    (unlisted : label ∉ labels)
    : Offends value place (.unknownLabel labels label)
  | modifier {place index earlier} {modifier : Modifier}
    (reached : value.follow? (place ++ [.index index]) = some (.string modifier.label))
    (before : earlier < index)
    (same : value.follow? (place ++ [.index earlier]) = some (.string modifier.label))
    : Offends value (place ++ [.index index]) (.repeatedModifier modifier)

/-- A walk leads to an object up to its last step, and the object lacks the last key. -/
def Lacks (value : Json) (place : List Step) : Prop :=
  ∃ above key members,
    place = above ++ [.key key]
    ∧ value.follow? above = some (.object members)
    ∧ members.lookup key = none

/-- A cause is about the value at a place, or about a member that is missing there. -/
def Explains (value : Json) (place : List Step) (cause : Issue.Cause) : Prop :=
  value.Offends place cause ∨ value.Lacks place ∧ cause = .missing

end Json

-----------------------------------------------------------------------------------------
-- Paths are read back
-----------------------------------------------------------------------------------------

/-- A step into a list, or to one of the keys that a node is read from. -/
def Step.Known : Step → Prop
  | .key name => name ∈ Key.inOrder
  | .index _ => True

namespace Step

theorem Known.ofSegment_label {step : Step} (h : step.Known) : ofSegment step.label = step := by
  have worded : ∀ key ∈ Key.inOrder, Text.numeral? key = none := by decide +kernel
  cases step with
  | key name => rw [label, ofSegment, worded name h]
  | index position => rw [label, ofSegment, Text.numeral?_ofNat]

theorem Known.slash_not_mem_label {step : Step} (h : step.Known) : Text.slash ∉ step.label := by
  have plain : ∀ key ∈ Key.inOrder, Text.slash ∉ key := by decide
  cases step with
  | key name => exact plain name h
  | index position => exact Text.slash_not_mem_ofNat position

end Step

namespace Issue

/-- Apart from the root, the path of an issue has the steps of its place. -/
theorem steps?_path {issue : Issue} (known : ∀ step ∈ issue.place, step.Known)
    (inner : issue.place ≠ [])
    : issue.path.steps? = some issue.place := by
  have row : issue.path = Text.slashed (issue.place.map Step.label) := by
    rw [path]
    cases hp : issue.place with
    | nil => exact absurd hp inner
    | cons step rest => exact Text.slash_join step.label (rest.map Step.label)
  have plain : ∀ segment ∈ issue.place.map Step.label, Text.slash ∉ segment := by
    intro segment hm
    obtain ⟨step, hs, rfl⟩ := List.mem_map.mp hm
    exact (known step hs).slash_not_mem_label
  have cut := Text.parts_append_slashed (List.not_mem_nil (a := Text.slash)) plain
  rw [List.nil_append] at cut
  have back : (issue.place.map Step.label).map Step.ofSegment = issue.place := by
    calc (issue.place.map Step.label).map Step.ofSegment
        = issue.place.map (Step.ofSegment ∘ Step.label) := List.map_map
      _ = issue.place.map id :=
          List.map_congr_left (fun step hs => (known step hs).ofSegment_label)
      _ = issue.place := List.map_id _
  rw [Text.steps?, row, cut]
  exact congrArg some back

theorem path_eq_slash_iff {issue : Issue} (known : ∀ step ∈ issue.place, step.Known)
    : issue.path = text "/" ↔ issue.place = [] := by
  apply Iff.intro
  · intro root
    by_contra inner
    -- The lone slash reads as an empty key, which no node is read from.
    have lone : (text "/").steps? = some [.key []] := by decide +kernel
    have absent : [] ∉ Key.inOrder := by decide
    have read := steps?_path known inner
    rw [root, lone] at read
    exact absent (known (.key []) (Option.some.inj read ▸ List.mem_singleton_self _))
  · intro root
    rw [path, root]
    rfl

/-- Different places have different paths. -/
theorem place_eq_of_path_eq {left right : Issue} (hl : ∀ step ∈ left.place, step.Known)
    (hr : ∀ step ∈ right.place, step.Known) (same : left.path = right.path)
    : left.place = right.place := by
  by_cases root : left.place = []
  · have slash := (path_eq_slash_iff hl).mpr root
    rw [root, (path_eq_slash_iff hr).mp (same ▸ slash)]
  · have inner : right.place ≠ [] := by
      intro hp
      have slash := (path_eq_slash_iff hr).mpr hp
      exact root ((path_eq_slash_iff hl).mp (same ▸ slash))
    have steps := steps?_path hl root
    rw [same, steps?_path hr inner] at steps
    exact (Option.some.inj steps).symm

end Issue

-----------------------------------------------------------------------------------------
-- Places lead to what an issue is about
-----------------------------------------------------------------------------------------

namespace Json

theorem follow?_append (value : Json) (first rest : List Step)
    : value.follow? (first ++ rest) = (value.follow? first).bind (·.follow? rest) := by
  induction first generalizing value with
  | nil => rfl
  | cons step more ih =>
      rw [List.cons_append, follow?, follow?, Option.bind_assoc]
      simp only [ih]

theorem follow?_append_of_eq_some {value node : Json} {place : List Step}
    (reached : value.follow? place = some node) (rest : List Step)
    : value.follow? (place ++ rest) = node.follow? rest := by
  rw [follow?_append, reached, Option.bind_some]

theorem follow?_member {members : List (Text × Json)} {key : Text} {value : Json}
    (present : members.lookup key = some value)
    : (Json.object members).follow? [.key key] = some value := by
  simp [follow?, part?, present]

theorem follow?_item {members : List (Text × Json)} {key : Text} {items : List Json}
    {index : Nat} {item : Json} (present : members.lookup key = some (.array items))
    (element : items[index]? = some item)
    : (Json.object members).follow? [.key key, .index index] = some item := by
  simp [follow?, part?, present, element]

theorem Lacks.follow?_eq_none {value : Json} {place : List Step} (h : value.Lacks place)
    : value.follow? place = none := by
  obtain ⟨above, key, members, rfl, reached, absent⟩ := h
  rw [follow?_append_of_eq_some reached]
  simp [follow?, part?, absent]

theorem Offends.exists_follow? {value : Json} {place : List Step} {cause : Issue.Cause}
    (h : value.Offends place cause)
    : ∃ found, value.follow? place = some found := by
  cases h with
  | shape reached differ => exact ⟨_, reached⟩
  | label reached unlisted => exact ⟨_, reached⟩
  | modifier reached before same => exact ⟨_, reached⟩

/-- What is about a node is about the value that the node stands in, further out. -/
theorem Explains.of_follow? {value node : Json} {place rest : List Step} {cause : Issue.Cause}
    (h : node.Explains rest cause) (reached : value.follow? place = some node)
    : value.Explains (place ++ rest) cause := by
  have walk := follow?_append_of_eq_some reached
  rcases h with offence | ⟨⟨above, key, members, rfl, found, absent⟩, missing⟩
  · cases offence with
    | shape found differ => exact .inl (.shape ((walk _).trans found) differ)
    | label found unlisted => exact .inl (.label ((walk _).trans found) unlisted)
    | modifier found before same =>
        rw [← walk, ← List.append_assoc] at found same
        rw [← List.append_assoc]
        exact .inl (.modifier found before same)
  · refine .inr ⟨⟨place ++ above, key, members, ?_, (walk above).trans found, absent⟩, missing⟩
    rw [List.append_assoc]

theorem NodeWithin.follow?_eq {value node : Json} {place : List Step}
    (h : value.NodeWithin place node)
    : value.follow? place = some node := by
  induction h with
  | here => rfl
  | child listed element within ih => simpa [follow?, part?, listed, element] using ih

theorem NodeWithin.known {value node : Json} {place : List Step}
    (h : value.NodeWithin place node)
    : ∀ step ∈ place, step.Known := by
  have key : Key.children ∈ Key.inOrder := by decide
  induction h with
  | here => simp
  | child listed element within ih => simpa [Step.Known, key] using ih

end Json

theorem NodeAt.follow?_eq {value node : Json} {place : List Step}
    (h : NodeAt (some value) place node)
    : value.follow? place = some node := by
  obtain ⟨items, index, item, rest, he, element, rfl, within⟩ := h
  obtain rfl := Option.some.inj he
  simpa [Json.follow?, Json.part?, element] using within.follow?_eq

theorem NodeAt.known {input : Option Json} {node : Json} {place : List Step}
    (h : NodeAt input place node)
    : ∀ step ∈ place, step.Known := by
  obtain ⟨items, index, item, rest, -, -, rfl, within⟩ := h
  simpa [Step.Known] using within.known

theorem ShapeFault.offends {expected : Expectation} {value found : Json} {place : List Step}
    {cause : Issue.Cause} (h : ShapeFault expected expected.shape found cause)
    (reached : value.follow? place = some found)
    : value.Offends place cause := by
  obtain ⟨differ, rfl⟩ := h
  exact .shape reached differ

theorem LabelFault.offends {labels : List Text} {value found : Json} {place : List Step}
    {cause : Issue.Cause} (h : LabelFault labels found cause)
    (reached : value.follow? place = some found)
    : value.Offends place cause := by
  cases h with
  | shape wrong => exact wrong.offends reached
  | unknown unlisted => exact .label reached unlisted

theorem HeaderFault.explains {members : List (Text × Json)} {place : List Step}
    {cause : Issue.Cause} (h : HeaderFault members place cause)
    : (Json.object members).Explains place cause := by
  cases h with
  | missing needed absent => exact .inr ⟨⟨[], _, members, rfl, rfl, absent⟩, rfl⟩
  | kind named present wrong => exact .inl (wrong.offends (Json.follow?_member present))
  | text named present wrong => exact .inl (wrong.offends (Json.follow?_member present))
  | flag present wrong => exact .inl (wrong.offends (Json.follow?_member present))
  | modifiers present wrong => exact .inl (wrong.offends (Json.follow?_member present))
  | modifier present element wrong =>
      exact .inl (wrong.offends (Json.follow?_item present element))

theorem NodeFault.explains {value : Json} {place : List Step} {cause : Issue.Cause}
    (h : NodeFault value place cause)
    : value.Explains place cause := by
  cases h with
  | shape wrong => exact .inl (wrong.offends rfl)
  | header wrong => exact wrong.explains
  | children present wrong => exact .inl (wrong.offends (Json.follow?_member present))

theorem NodeFault.known {value : Json} {place : List Step} {cause : Issue.Cause}
    (h : NodeFault value place cause)
    : ∀ step ∈ place, step.Known := by
  have required : [Key.kind, Key.name] ⊆ Key.inOrder := by decide
  have kinds : [Key.kind, Key.enclosingKind] ⊆ Key.inOrder := by decide
  have names : [Key.name, Key.enclosingName] ⊆ Key.inOrder := by decide
  have others : [Key.constantValueKnown, Key.modifiers, Key.children] ⊆ Key.inOrder := by
    decide
  cases h with
  | shape wrong => simp
  | header wrong =>
      cases wrong with
      | missing needed absent => simpa [Step.Known] using required needed
      | kind named present wrong => simpa [Step.Known] using kinds named
      | text named present wrong => simpa [Step.Known] using names named
      | flag present wrong => simpa [Step.Known] using others (by simp)
      | modifiers present wrong => simpa [Step.Known] using others (by simp)
      | modifier present element wrong => simpa [Step.Known] using others (by simp)
  | children present wrong => simpa [Step.Known] using others (by simp)

theorem Repeated.explains {value : Json} {place : List Step} {modifier : Modifier}
    (h : Repeated (some value) place (.string modifier.label))
    : value.Explains place (.repeatedModifier modifier) := by
  cases h with
  | @modifier above members items index earlier _ reached present found before same fits =>
      have own : (Json.object members).Explains ([.key Key.modifiers] ++ [.index index])
          (.repeatedModifier modifier) :=
        .inl (.modifier (Json.follow?_item present found) before
          (Json.follow?_item present same))
      exact own.of_follow? reached.follow?_eq

theorem Repeated.known {input : Option Json} {place : List Step} {element : Json}
    (h : Repeated input place element)
    : ∀ step ∈ place, step.Known := by
  have key : Key.modifiers ∈ Key.inOrder := by decide
  cases h with
  | modifier reached present found before same fits =>
      refine List.forall_mem_append.mpr ⟨reached.known, ?_⟩
      simpa [Step.Known] using key

namespace Declaration

/-- Every issue of a value is about what stands at its place. -/
theorem explains_of_mem_issues {value : Json} {issue : Issue} (h : issue ∈ issues (some value))
    : value.Explains issue.place issue.cause := by
  rcases issue with ⟨cause, place⟩
  rcases misfit_or_repeated h with misfit | ⟨modifier, hc, repeated⟩
  · cases misfit with
    | root wrong => exact .inl (wrong.offends rfl)
    | node reached fault => exact fault.explains.of_follow? reached.follow?_eq
  · obtain rfl : cause = .repeatedModifier modifier := hc
    exact repeated.explains

theorem known_of_mem_issues {input : Option Json} {issue : Issue} (h : issue ∈ issues input)
    : ∀ step ∈ issue.place, step.Known := by
  rcases issue with ⟨cause, place⟩
  rcases misfit_or_repeated h with misfit | ⟨modifier, -, repeated⟩
  · cases misfit with
    | missing => simp
    | root wrong => simp
    | node reached fault => exact List.forall_mem_append.mpr ⟨reached.known, fault.known⟩
  · exact repeated.known

theorem nodup_paths (input : Option Json) : ((issues input).map Issue.path).Nodup := by
  refine List.pairwise_map.mpr ((List.pairwise_map.mp (nodup_places input)).imp_of_mem ?_)
  intro first second hf hs differ same
  exact differ (Issue.place_eq_of_path_eq (known_of_mem_issues hf) (known_of_mem_issues hs) same)

/-- An issue at the root is the only one. -/
theorem issues_eq_singleton {value : Json} {issue : Issue} (h : issue ∈ issues (some value))
    (root : issue.place = [])
    : issues (some value) = [issue] := by
  rcases issue with ⟨cause, place⟩
  obtain rfl : place = [] := root
  rcases mem_issues_some_iff.mp h with ⟨-, differ, rfl⟩ | ⟨_, _, _, _, -, -, longer, -⟩
  · rw [issues_some, readForest_of_shape_ne differ]
    rfl
  · contradiction

end Declaration

-----------------------------------------------------------------------------------------
-- Errors
-----------------------------------------------------------------------------------------

namespace Issue.Cause

theorem append_ne_of_head?_ne {start rest other : Text} (filled : start ≠ [])
    (h : start.head? ≠ other.head?)
    : start ++ rest ≠ other := by
  intro same
  cases start with
  | nil => exact filled rfl
  | cons unit more => exact h (by rw [← same, List.cons_append, List.head?_cons, List.head?_cons])

theorem message_eq_required_iff {cause : Issue.Cause}
    : cause.message = text "Required" ↔ cause = .missing := by
  cases cause with
  | missing => exact iff_of_true rfl rfl
  | _ =>
      refine iff_of_false ?_ nofun
      simp only [message, List.append_assoc]
      exact append_ne_of_head?_ne (by decide) (by decide)

end Issue.Cause

namespace Json

/-- Of what a cause can be about, the missing member is the one that is called for. -/
theorem Explains.lacks_iff {value : Json} {place : List Step} {cause : Issue.Cause}
    (h : value.Explains place cause)
    : value.Lacks place ↔ cause = .missing := by
  apply Iff.intro
  · intro lacks
    rcases h with offence | ⟨-, missing⟩
    · obtain ⟨found, reached⟩ := offence.exists_follow?
      rw [lacks.follow?_eq_none] at reached
      contradiction
    · exact missing
  · intro missing
    rcases h with offence | ⟨lacks, -⟩
    · subst missing
      contradiction
    · exact lacks

end Json

namespace Review

/-- The errors of a review are locatable. A review is in order if and only if it has none; if
not, it has no advisories, its errors are the issues of its input one by one, and no two of them
have the same path. A path other than the lone slash leads to the value that the error is about,
or else up to an object that lacks its last key, and the latter if and only if the error says
that something is required. The lone slash is the path of the only error.
-/
theorem errors_locatable (clock : Clock) (value : Json)
    : ((quietReview clock (some value)).ok = true
        ↔ (quietReview clock (some value)).errors = [])
      ∧ ((quietReview clock (some value)).ok = false
          → (quietReview clock (some value)).advisories = []
            ∧ (∃ issues,
                Declaration.read (some value) = .error issues
                ∧ (quietReview clock (some value)).errors = issues.map InputError.ofIssue
                ∧ ∀ issue ∈ issues,
                    issue.path ≠ text "/"
                    → ∃ place,
                        issue.path.steps? = some place
                        ∧ (value.Offends place issue.cause ∨ value.Lacks place)
                        ∧ (value.Lacks place ↔ issue.cause.message = text "Required"))
            ∧ ((quietReview clock (some value)).errors.map (·.path)).Nodup
            ∧ ∀ error ∈ (quietReview clock (some value)).errors,
                error.path = text "/"
                → (quietReview clock (some value)).errors = [error]) := by
  cases h : Declaration.read (some value) with
  | ok forest => simp [quietReview_of_ok clock h]
  | error found =>
      obtain ⟨rfl, filled⟩ := Declaration.read_eq_error_iff.mp h
      rw [quietReview_of_error clock h]
      refine ⟨by simpa using filled, fun _ => ⟨rfl, ⟨_, rfl, rfl, ?_⟩, ?_, ?_⟩⟩
      · intro issue hm inner
        have known := Declaration.known_of_mem_issues hm
        have explained := Declaration.explains_of_mem_issues hm
        have steps := Issue.steps?_path known (mt (Issue.path_eq_slash_iff known).mpr inner)
        rw [Issue.Cause.message_eq_required_iff]
        exact ⟨issue.place, steps, explained.imp_right And.left, explained.lacks_iff⟩
      · rw [List.map_map]
        exact Declaration.nodup_paths (some value)
      · intro error hm slash
        obtain ⟨issue, hi, rfl⟩ := List.mem_map.mp hm
        have known := Declaration.known_of_mem_issues hi
        rw [Declaration.issues_eq_singleton hi ((Issue.path_eq_slash_iff known).mp slash)]
        rfl

/-- A class without a name, a field that is static twice, and a class that is final twice and
has a modifier that nobody knows.
-/
def faultyInput : Json :=
  .array [
    .object [(Key.kind, .string (text "class"))],
    .object [(Key.kind, .string (text "field")), (Key.name, .string (text "size")),
      (Key.modifiers, .array [.string (text "static"), .string (text "static")])],
    .object [(Key.kind, .string (text "class")), (Key.name, .string (text "Pool")),
      (Key.modifiers, .array [.string (text "final"), .string (text "final"),
        .string (text "lazy")])]]

/-- The name is looked for where it is missing; the static field is found where it is static for
the second time; the class has one error, since a modifier that is unknown keeps the others from
being compared.
-/
theorem faultyInput_locatable
    : (quietReview ⟨0, []⟩ (some faultyInput)).ok = false
      ∧ (quietReview ⟨0, []⟩ (some faultyInput)).errors.map (·.path)
        = [text "/0/simple_name", text "/1/modifiers/1", text "/2/modifiers/2"]
      ∧ [text "/0/simple_name", text "/1/modifiers/1", text "/2/modifiers/2"].Nodup
      ∧ (∃ place,
          (text "/0/simple_name").steps? = some place
          ∧ faultyInput.Lacks place)
      ∧ ∃ place,
          (text "/1/modifiers/1").steps? = some place
          ∧ faultyInput.Offends place (.repeatedModifier .isStatic) := by
  have refused : (quietReview ⟨0, []⟩ (some faultyInput)).ok = false := by decide +kernel
  have paths : (quietReview ⟨0, []⟩ (some faultyInput)).errors.map (·.path)
      = [text "/0/simple_name", text "/1/modifiers/1", text "/2/modifiers/2"] := by
    decide +kernel
  obtain ⟨-, ⟨issues, read, -, located⟩, distinct, -⟩ :=
    (errors_locatable ⟨0, []⟩ faultyInput).2 refused
  obtain ⟨rfl, -⟩ := Declaration.read_eq_error_iff.mp read
  obtain ⟨gap, steps, -, required⟩ := located ⟨.missing, [.index 0, .key Key.name]⟩
    (by decide +kernel) (by decide +kernel)
  obtain ⟨spot, reading, about, lacking⟩ := located
    ⟨.repeatedModifier .isStatic, [.index 1, .key Key.modifiers, .index 1]⟩
    (by decide +kernel) (by decide +kernel)
  refine ⟨refused, paths, paths ▸ distinct, ⟨gap, steps, required.mpr rfl⟩, spot, reading, ?_⟩
  -- A repeated modifier is not said to be required, so nothing is lacking there.
  exact about.resolve_right (fun lacks => absurd (lacking.mp lacks) (by decide +kernel))

end Review

end NamingAdvice
