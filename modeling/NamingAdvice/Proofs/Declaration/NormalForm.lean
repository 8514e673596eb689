import NamingAdvice.Proofs.Declaration.Fault

/-! The values that are read without an issue, and what they are read as. A value depicts a
declaration if it says the same node by node, with defaults where it says nothing; reading a
value gives what it depicts, as long as no node in it repeats a modifier.
-/

namespace NamingAdvice

-----------------------------------------------------------------------------------------
-- The grammar
-----------------------------------------------------------------------------------------

/-- Members that hold a header: a kind and a name, and whatever else is known of it is either
absent or well formed. A list of modifiers has none of them twice.
-/
structure Json.IsHeader (members : List (Text × Json)) : Prop where
  kind : ∃ kind : Kind, members.lookup Key.kind = some (.string kind.label)
  name : ∃ name, members.lookup Key.name = some (.string name)
  modifiers
    : ∀ value, members.lookup Key.modifiers = some value
        → ∃ modifiers : List Modifier,
            modifiers.Nodup
            ∧ value = .array (modifiers.map (fun modifier => .string modifier.label))
  enclosingKind
    : ∀ value, members.lookup Key.enclosingKind = some value
        → ∃ kind : Kind, value = .string kind.label
  enclosingName
    : ∀ value, members.lookup Key.enclosingName = some value → ∃ name, value = .string name
  constantValueKnown
    : ∀ value, members.lookup Key.constantValueKnown = some value
        → ∃ known, value = .bool known

mutual

/-- An object that holds a header, with children that are nodes if there are any. -/
inductive Json.IsNode : Json → Prop
  | object {members} (header : Json.IsHeader members)
    (children : ∀ value, members.lookup Key.children = some value → Json.IsForest value)
    : Json.IsNode (.object members)

/-- A list of nodes. -/
inductive Json.IsForest : Json → Prop
  | array {items} (each : ∀ item ∈ items, Json.IsNode item) : Json.IsForest (.array items)

end

/-- A value says the same as a declaration, node by node. -/
inductive Json.Depicts : Json → Declaration → Prop
  | object {members header items children} (held : Header.HeldBy header members)
    (listed : (members.lookup Key.children).getD (.array []) = .array items)
    (each : List.Forall₂ Json.Depicts items children)
    : Json.Depicts (.object members) ⟨header, children⟩

/-- A value says the same as a forest, node by node and in the same order. -/
def Json.DepictsForest (value : Json) (forest : List Declaration) : Prop :=
  ∃ items, value = .array items ∧ List.Forall₂ Json.Depicts items forest

/-- No node at any depth has a modifier twice. -/
inductive Declaration.Distinct : Declaration → Prop
  | node {header : Header} {children} (own : header.modifiers.Nodup)
    (below : ∀ child ∈ children, Declaration.Distinct child)
    : Declaration.Distinct ⟨header, children⟩

-----------------------------------------------------------------------------------------
-- Lists that are related item by item
-----------------------------------------------------------------------------------------

theorem forall₂_congr_of_mem {α β : Type} {R S : α → β → Prop} {items : List α}
    {values : List β} (h : ∀ item ∈ items, ∀ {value}, R item value ↔ S item value)
    : List.Forall₂ R items values ↔ List.Forall₂ S items values := by
  rw [List.forall₂_iff_zip, List.forall₂_iff_zip]
  refine and_congr_right (fun _ => ?_)
  constructor
  · exact fun hr _ _ hm => (h _ (List.of_mem_zip hm).1).mp (hr hm)
  · exact fun hs _ _ hm => (h _ (List.of_mem_zip hm).1).mpr (hs hm)

/-- Statements about related items are about all of one list if about all of the other. -/
theorem forall_mem_iff_of_forall₂ {α β : Type} {R : α → β → Prop} {P : α → Prop}
    {Q : β → Prop} {items : List α} {values : List β} (each : List.Forall₂ R items values)
    (h : ∀ item ∈ items, ∀ value, R item value → (P item ↔ Q value))
    : (∀ item ∈ items, P item) ↔ ∀ value ∈ values, Q value := by
  induction each with
  | nil => simp
  | cons first rest ih =>
      rw [List.forall_mem_cons, List.forall_mem_cons, h _ (by simp) _ first,
        ih (fun item hm => h item (by simp [hm]))]

/-- Lists can be related item by item if every item has something to be related to. -/
theorem exists_forall₂_iff {α β : Type} {R : α → β → Prop} {Q : β → Prop} {items : List α}
    : (∃ values, List.Forall₂ R items values ∧ ∀ value ∈ values, Q value)
      ↔ ∀ item ∈ items, ∃ value, R item value ∧ Q value := by
  induction items with
  | nil => simp
  | cons item items ih =>
      rw [List.forall_mem_cons, ← ih]
      constructor
      · intro h
        rcases h with ⟨_, _ | ⟨first, rest⟩, hq⟩
        obtain ⟨hf, hr⟩ := List.forall_mem_cons.mp hq
        exact ⟨⟨_, first, hf⟩, _, rest, hr⟩
      · intro h
        obtain ⟨⟨value, first, hf⟩, values, rest, hr⟩ := h
        exact ⟨value :: values, .cons first rest, List.forall_mem_cons.mpr ⟨hf, hr⟩⟩

/-- A statement about the items of a list of children holds for the default as well. -/
theorem Json.forall_listed {members : List (Text × Json)} {P : Json → Prop}
    (h : ∀ items, members.lookup Key.children = some (.array items) → ∀ item ∈ items, P item)
    {items : List Json}
    (hl : (members.lookup Key.children).getD (.array []) = .array items)
    : ∀ item ∈ items, P item := by
  cases hc : members.lookup Key.children with
  | none =>
      obtain rfl : items = [] := by simpa [hc] using hl.symm
      simp
  | some value =>
      obtain rfl : value = .array items := by simpa [hc] using hl
      exact h items hc

namespace Declaration

-----------------------------------------------------------------------------------------
-- What is made out
-----------------------------------------------------------------------------------------

theorem value?_readForest_eq_some_iff {value : Json} {forest : List Declaration}
    : (readForest value).value? = some forest
      ↔ ∃ items,
          value = .array items
          ∧ List.Forall₂ (fun item node => (readNode item).value? = some node) items forest := by
  cases value with
  | array items =>
      rw [readForest_array, value?_readEach_eq_some_iff]
      simp
  | _ =>
      rw [readForest_of_shape_ne (by simp [Json.shape])]
      simp

/-- A node is made out from its header and from what it lists as children, if anything. -/
theorem value?_readNode_object {members : List (Text × Json)} {header : Header}
    {children : List Declaration}
    : (readNode (.object members)).value? = some ⟨header, children⟩
      ↔ header.HeldBy members
        ∧ (readForest ((members.lookup Key.children).getD (.array []))).value?
          = some children := by
  have empty : (readForest (.array [])).value? = some [] := by
    rw [readForest_array]
    rfl
  rw [readNode_object, Validated.value?_also, Validated.value?_seq, Validated.value?_map,
    value?_optional_getD (.array []) empty, ← value?_readHeader_eq_some_iff]
  cases (readHeader members).value? with
  | none => simp
  | some found => simp [and_comm]

/-- A node is made out exactly as the declaration that it depicts. -/
theorem value?_readNode_eq_some_iff {value : Json} {declaration : Declaration}
    : (readNode value).value? = some declaration ↔ value.Depicts declaration := by
  induction value using Json.nodeInduction generalizing declaration with
  | object members ih =>
      rcases declaration with ⟨header, children⟩
      -- A node without a list of children reads as one whose list is empty.
      have same {items : List Json}
          (hl : (members.lookup Key.children).getD (.array []) = .array items)
          : List.Forall₂ (fun item node => (readNode item).value? = some node) items children
            ↔ List.Forall₂ Json.Depicts items children :=
        forall₂_congr_of_mem (fun item hm _ => Json.forall_listed ih hl item hm)
      rw [value?_readNode_object, value?_readForest_eq_some_iff]
      constructor
      · intro given
        obtain ⟨held, items, hl, each⟩ := given
        exact .object held hl ((same hl).mp each)
      · intro given
        obtain ⟨held, hl, each⟩ := given
        exact ⟨held, _, hl, (same hl).mpr each⟩
  | other value h =>
      rw [readNode_of_shape_ne h]
      constructor
      · simp
      · intro given
        cases given
        exact absurd rfl h

-----------------------------------------------------------------------------------------
-- What comes without an issue
-----------------------------------------------------------------------------------------

/-- Nothing is reported exactly if no modifier comes twice or has been seen before. -/
theorem repeatedModifiers_eq_nil_iff {seen modifiers : List Modifier} (index : Nat)
    : repeatedModifiers seen index modifiers = []
      ↔ modifiers.Nodup ∧ ∀ modifier ∈ modifiers, modifier ∉ seen := by
  induction modifiers generalizing seen index with
  | nil => simp [repeatedModifiers]
  | cons modifier rest ih =>
      rw [repeatedModifiers, List.append_eq_nil_iff, ih, List.nodup_cons]
      by_cases hs : modifier ∈ seen
      · simp [hs]
      · simp only [List.contains_eq_mem, hs, decide_false, Bool.false_eq_true, if_false,
          true_and, List.mem_cons, not_or, forall_eq_or_imp, not_false_eq_true]
        constructor
        · intro h
          obtain ⟨hd, hn⟩ := h
          exact ⟨⟨fun hm => (hn modifier hm).1 rfl, hd⟩, fun other ho => (hn other ho).2⟩
        · intro h
          obtain ⟨⟨hn, hd⟩, hr⟩ := h
          exact ⟨hd, fun other ho => ⟨fun he => hn (he ▸ ho), hr other ho⟩⟩

theorem issues_readEach_eq_nil_iff {α : Type} {read : Json → Validated α} (index : Nat)
    {items : List Json}
    : (readEach read index items).issues = [] ↔ ∀ item ∈ items, (read item).issues = [] := by
  induction items generalizing index with
  | nil => simp [readEach]
  | cons item items ih => simp [readEach, ih]

/-- A header that is made out comes without an issue. -/
theorem issues_readHeader_eq_nil {members : List (Text × Json)} {header : Header}
    (h : (readHeader members).value? = some header)
    : (readHeader members).issues = [] := by
  rw [List.eq_nil_iff_forall_not_mem]
  intro issue hm
  have fault := mem_issues_readHeader_iff.mp hm
  have lacking := (honest_readHeader members).mpr ⟨issue, hm, fault.isRepeat⟩
  rw [h] at lacking
  contradiction

theorem issues_children_eq_nil_iff {members : List (Text × Json)} {items : List Json}
    (hl : (members.lookup Key.children).getD (.array []) = .array items)
    : (optional Key.children readForest members).issues = []
      ↔ ∀ item ∈ items, (readNode item).issues = [] := by
  cases hc : members.lookup Key.children with
  | none =>
      obtain rfl : items = [] := by simpa [hc] using hl.symm
      simp [optional, hc]
  | some value =>
      obtain rfl : value = .array items := by simpa [hc] using hl
      simp [optional, hc, readForest_array, issues_readEach_eq_nil_iff]

/-- A node that is made out comes without an issue exactly if no modifier comes twice. -/
theorem issues_readNode_eq_nil_iff {value : Json} {declaration : Declaration}
    (h : (readNode value).value? = some declaration)
    : (readNode value).issues = [] ↔ declaration.Distinct := by
  induction value using Json.nodeInduction generalizing declaration with
  | object members ih =>
      rcases declaration with ⟨header, children⟩
      obtain ⟨held, hc⟩ := value?_readNode_object.mp h
      obtain ⟨items, hl, each⟩ := value?_readForest_eq_some_iff.mp hc
      have own : (readHeader members).issues = [] :=
        issues_readHeader_eq_nil (value?_readHeader_eq_some_iff.mpr held)
      have below : (optional Key.children readForest members).issues = []
          ↔ ∀ child ∈ children, child.Distinct := by
        rw [issues_children_eq_nil_iff hl]
        exact forall_mem_iff_of_forall₂ each
          (fun item hm _ hv => Json.forall_listed ih hl item hm hv)
      have distinct : (Declaration.mk header children).Distinct
          ↔ (∀ child ∈ children, child.Distinct) ∧ header.modifiers.Nodup := by
        constructor
        · intro given
          obtain ⟨hd, hb⟩ := given
          exact ⟨hb, hd⟩
        · intro given
          obtain ⟨hb, hd⟩ := given
          exact .node hd hb
      -- The header is silent, so what is left is the children and the check at the end.
      rw [distinct, ← below, issues_readNode_object, own, h]
      simp [repeatedModifiers_eq_nil_iff]
  | other value hs =>
      rw [readNode_of_shape_ne hs] at h
      contradiction

end Declaration

-----------------------------------------------------------------------------------------
-- Acceptance
-----------------------------------------------------------------------------------------

namespace Json

/-- What is well formed if present is what an optional value stands for. -/
theorem present_iff_map {α : Type} {encode : α → Json} {found : Option Json}
    : (∀ value, found = some value → ∃ read, value = encode read)
      ↔ ∃ read? : Option α, found = read?.map encode := by
  constructor
  · intro h
    cases found with
    | none => exact ⟨none, rfl⟩
    | some value =>
        obtain ⟨read, rfl⟩ := h value rfl
        exact ⟨some read, rfl⟩
  · intro given value hv
    obtain ⟨read?, rfl⟩ := given
    obtain ⟨read, -, he⟩ := Option.map_eq_some_iff.mp hv
    exact ⟨read, he.symm⟩

/-- What is well formed if present is well formed with a default in its place otherwise. -/
theorem present_iff_getD {α : Type} {encode : α → Json} {P : α → Prop} (default : α)
    (h : P default) {found : Option Json}
    : (∀ value, found = some value → ∃ read, P read ∧ value = encode read)
      ↔ ∃ read, P read ∧ found.getD (encode default) = encode read := by
  cases found with
  | none => simpa using ⟨default, h, rfl⟩
  | some value => simp

theorem isHeader_iff {members : List (Text × Json)}
    : IsHeader members
      ↔ ∃ header : Header, header.HeldBy members ∧ header.modifiers.Nodup := by
  have flag
      : (∀ value, members.lookup Key.constantValueKnown = some value
            → ∃ known, value = .bool known)
        ↔ ∃ known, (members.lookup Key.constantValueKnown).getD (.bool false) = .bool known := by
    simpa using present_iff_getD (P := fun _ => True) false trivial
  constructor
  · intro h
    obtain ⟨⟨kind, hk⟩, ⟨name, hn⟩, hm, he, ht, hc⟩ := h
    obtain ⟨modifiers, distinct, hm⟩ := (present_iff_getD [] List.nodup_nil).mp hm
    obtain ⟨enclosingKind, he⟩ := present_iff_map.mp he
    obtain ⟨enclosingName, ht⟩ := present_iff_map.mp ht
    obtain ⟨known, hc⟩ := flag.mp hc
    exact ⟨⟨kind, name, modifiers, enclosingKind, enclosingName, known⟩,
      ⟨hk, hn, hm, he, ht, hc⟩, distinct⟩
  · intro h
    obtain ⟨header, ⟨hk, hn, hm, he, ht, hc⟩, distinct⟩ := h
    refine ⟨⟨_, hk⟩, ⟨_, hn⟩, ?_, ?_, ?_, ?_⟩
    · exact (present_iff_getD [] List.nodup_nil).mpr ⟨_, distinct, hm⟩
    · exact present_iff_map.mpr ⟨_, he⟩
    · exact present_iff_map.mpr ⟨_, ht⟩
    · exact flag.mpr ⟨_, hc⟩

theorem isForest_iff {value : Json}
    : value.IsForest ↔ ∃ items, (∀ item ∈ items, IsNode item) ∧ value = .array items := by
  constructor
  · intro h
    obtain ⟨each⟩ := h
    exact ⟨_, each, rfl⟩
  · intro h
    obtain ⟨items, each, rfl⟩ := h
    exact .array each

/-- The nodes of the grammar are those that depict a declaration without repeated modifiers. -/
theorem isNode_iff {value : Json}
    : value.IsNode ↔ ∃ declaration, value.Depicts declaration ∧ declaration.Distinct := by
  induction value using nodeInduction with
  | object members ih =>
      have children
          : (∀ value, members.lookup Key.children = some value → IsForest value)
            ↔ ∃ items,
                (∀ item ∈ items, IsNode item)
                ∧ (members.lookup Key.children).getD (.array []) = .array items := by
        simp only [isForest_iff]
        exact present_iff_getD [] (by simp)
      constructor
      · intro given
        obtain ⟨hh, hc⟩ := given
        obtain ⟨header, held, own⟩ := isHeader_iff.mp hh
        obtain ⟨items, hn, hl⟩ := children.mp hc
        have depicted := fun item hm => (forall_listed ih hl item hm).mp (hn item hm)
        obtain ⟨declarations, each, below⟩ := exists_forall₂_iff.mpr depicted
        exact ⟨⟨header, declarations⟩, .object held hl each, .node own below⟩
      · intro given
        obtain ⟨_, ⟨held, hl, each⟩, ⟨own, below⟩⟩ := given
        have depicted := exists_forall₂_iff.mp ⟨_, each, below⟩
        refine .object (isHeader_iff.mpr ⟨_, held, own⟩) (children.mpr ⟨_, ?_, hl⟩)
        exact fun item hm => (forall_listed ih hl item hm).mpr (depicted item hm)
  | other value h =>
      constructor
      · intro given
        cases given
        exact absurd rfl h
      · intro given
        obtain ⟨_, ⟨⟩, _⟩ := given
        exact absurd rfl h

end Json

namespace Declaration

/-- A forest is read exactly if it is what the value depicts and no node repeats a modifier. -/
theorem read_eq_ok_iff {value : Json} {forest : List Declaration}
    : read (some value) = .ok forest
      ↔ value.DepictsForest forest ∧ ∀ declaration ∈ forest, declaration.Distinct := by
  rw [read, Validated.toExcept_eq_ok_iff, value?_readForest_eq_some_iff]
  constructor
  · intro h
    obtain ⟨⟨items, rfl, each⟩, silent⟩ := h
    rw [readForest_array, issues_readEach_eq_nil_iff] at silent
    refine ⟨⟨items, rfl, each.imp (fun _ _ hv => value?_readNode_eq_some_iff.mp hv)⟩, ?_⟩
    exact (forall_mem_iff_of_forall₂ each
      (fun _ _ _ hv => issues_readNode_eq_nil_iff hv)).mp silent
  · intro h
    obtain ⟨⟨items, rfl, depicted⟩, distinct⟩ := h
    have each := depicted.imp (fun _ _ hd => value?_readNode_eq_some_iff.mpr hd)
    refine ⟨⟨items, rfl, each⟩, ?_⟩
    rw [readForest_array, issues_readEach_eq_nil_iff]
    exact (forall_mem_iff_of_forall₂ each
      (fun _ _ _ hv => issues_readNode_eq_nil_iff hv)).mpr distinct

/-- Reading accepts the forests of the grammar and no other value, and gives the forest that
the value depicts, in which no node at any depth has a modifier twice.
-/
theorem read_accepts_grammar (value : Json)
    : ((∃ forest, read (some value) = .ok forest) ↔ value.IsForest)
      ∧ ∀ forest, read (some value) = .ok forest
          ↔ value.DepictsForest forest ∧ ∀ declaration ∈ forest, declaration.Distinct := by
  refine ⟨?_, fun forest => read_eq_ok_iff⟩
  simp only [read_eq_ok_iff, Json.isForest_iff, Json.isNode_iff, Json.DepictsForest]
  constructor
  · intro h
    obtain ⟨forest, ⟨items, rfl, each⟩, distinct⟩ := h
    exact ⟨items, exists_forall₂_iff.mp ⟨forest, each, distinct⟩, rfl⟩
  · intro h
    obtain ⟨items, depicted, rfl⟩ := h
    obtain ⟨forest, each, distinct⟩ := exists_forall₂_iff.mpr depicted
    exact ⟨forest, ⟨items, rfl, each⟩, distinct⟩

end Declaration

end NamingAdvice
