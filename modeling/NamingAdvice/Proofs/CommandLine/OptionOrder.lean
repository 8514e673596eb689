import Mathlib.Data.List.Nodup
import NamingAdvice.CommandLine

/-! The order of arguments. Options and the file may come in any order, and the same is asked
for. The one exception is a layout option without a number in front of the file: it takes the
file for its number, so that no file is left.
-/

namespace NamingAdvice.CommandLine

/-- The ways to ask for a layout. -/
inductive PrettyGroup where
  | bare
  | joined (given : Text)
  | apart (given : Text)
deriving DecidableEq, Repr

/-- The ways to ask for a report file. -/
inductive OutGroup where
  | short (target : Text)
  | long (target : Text)
  | joined (target : Text)
deriving DecidableEq, Repr

/-- Arguments that belong together. -/
inductive Group where
  | file (name : Text)
  | json
  | pretty (group : PrettyGroup)
  | out (group : OutGroup)
deriving DecidableEq, Repr

def PrettyGroup.layout : PrettyGroup → Pretty
  | .bare => .bare
  | .joined given | .apart given => .width given

def OutGroup.target : OutGroup → Text
  | .short target | .long target | .joined target => target

namespace Group

def arguments : Group → List Text
  | .file name => [name]
  | .json => [text "--json"]
  | .pretty .bare => [text "--pretty"]
  | .pretty (.joined given) => [text "--pretty=" ++ given]
  | .pretty (.apart given) => [text "--pretty", given]
  | .out (.short target) => [text "-o", target]
  | .out (.long target) => [text "--out", target]
  | .out (.joined target) => [text "--out=" ++ target]

/-- A group that can be meant as such: a file does not start with a dash, and a number apart from
its option does not look like another option.
-/
def Proper : Group → Prop
  | .file name => name.head? ≠ some 0x2D
  | .pretty (.apart given) => looksLikeOption given = false
  | _ => True

/-- What a group is about. -/
inductive Topic where
  | file
  | json
  | pretty
  | out
deriving DecidableEq

def topic : Group → Topic
  | .file _ => .file
  | .json => .json
  | .pretty _ => .pretty
  | .out _ => .out

end Group

-----------------------------------------------------------------------------------------
-- Taking one group after the other
-----------------------------------------------------------------------------------------

theorem after?_eq_none {start given : Text} (dash : start.head? = some 0x2D)
    (plain : given.head? ≠ some 0x2D)
    : after? start given = none := by
  cases start with
  | nil => cases dash
  | cons first start =>
      obtain rfl := Option.some.inj dash
      cases given with
      | nil => rfl
      | cons unit given =>
          have differ : unit ≠ 0x2D := fun same => plain (congrArg some same)
          simp [after?, differ]

theorem looksLikeOption_eq_false {given : Text} (plain : given.head? ≠ some 0x2D)
    : looksLikeOption given = false := by
  simp [looksLikeOption, plain]

/-- What does not start with a dash is no option. -/
theorem ofText_eq_operand {given : Text} (plain : given.head? ≠ some 0x2D)
    : Argument.ofText given = .operand := by
  have differs {start : Text} (dash : start.head? = some 0x2D) : given ≠ start := by
    intro same
    exact plain (same ▸ dash)
  have absent {start : Text} (dash : start.head? = some 0x2D) : after? start given = none :=
    after?_eq_none dash plain
  simp (disch := decide) [Argument.ofText, differs, absent, looksLikeOption_eq_false plain]

/-- What is gathered of a group that is taken as it is meant. -/
def Gathered.take (gathered : Gathered) : Group → Gathered
  | .file name => gathered.addOperands [name]
  | .json => gathered.setJson
  | .pretty group => gathered.setPretty group.layout
  | .out group => gathered.setOut group.target

theorem interpretFrom_pretty (gathered : Gathered) (next : Text) (rest : List Text)
    : interpretFrom gathered (text "--pretty" :: next :: rest)
      = if looksLikeOption next then interpretFrom (gathered.setPretty .bare) (next :: rest)
        else interpretFrom (gathered.setPretty (.width next)) rest :=
  rfl

/-- A group is taken as it is meant, whatever was gathered before and whatever follows, but for a
bare layout option in front of something that is no option.
-/
theorem interpretFrom_group (gathered : Gathered) {group : Group} (proper : group.Proper)
    (rest : List Text)
    (free : group = .pretty .bare → ∀ next ∈ rest.head?, looksLikeOption next = true)
    : interpretFrom gathered (group.arguments ++ rest)
      = interpretFrom (gathered.take group) rest := by
  match group with
  | .file name =>
      have differ : (name == text "--") = false := by
        refine beq_false_of_ne ?_
        intro same
        exact proper (by rw [same]; rfl)
      simp [Group.arguments, interpretFrom, differ, ofText_eq_operand proper, Gathered.take]
  | .json => rfl
  | .pretty .bare =>
      cases rest with
      | nil => rfl
      | cons next rest =>
          have option : looksLikeOption next = true := free rfl next rfl
          exact (interpretFrom_pretty gathered next rest).trans (if_pos option)
  | .pretty (.joined given) => rfl
  | .pretty (.apart given) =>
      have number : ¬ looksLikeOption given = true := Bool.eq_false_iff.mp proper
      exact (interpretFrom_pretty gathered given rest).trans (if_neg number)
  | .out (.short target) => rfl
  | .out (.long target) => rfl
  | .out (.joined target) => rfl

theorem Group.arguments_ne_nil (group : Group) : group.arguments ≠ [] := by
  fun_cases Group.arguments group <;> simp

/-- Every group but a file starts with an option. -/
theorem looksLikeOption_of_head {group : Group} (option : group.topic ≠ .file) {first : Text}
    (h : first ∈ group.arguments.head?)
    : looksLikeOption first = true := by
  match group with
  | .file name => exact absurd rfl option
  | .json | .pretty .bare | .pretty (.joined _) | .pretty (.apart _)
  | .out (.short _) | .out (.long _) | .out (.joined _) =>
      obtain rfl := Option.some.inj h
      rfl

/-- Groups are all taken as they are meant if no bare layout option stands in front of a file. -/
theorem interpretFrom_groups (gathered : Gathered) {order : List Group}
    (proper : ∀ group ∈ order, group.Proper)
    (free : ∀ name, ¬ [.pretty .bare, .file name] <:+: order)
    : interpretFrom gathered (order.flatMap Group.arguments)
      = (order.foldl Gathered.take gathered).request := by
  induction order generalizing gathered with
  | nil => rfl
  | cons group order ih =>
      obtain ⟨own, others⟩ := List.forall_mem_cons.mp proper
      have later (name : Text) : ¬ [.pretty .bare, .file name] <:+: order :=
        fun within => free name (within.trans (List.suffix_cons group order).isInfix)
      rw [List.flatMap_cons, interpretFrom_group gathered own, ih _ others later, List.foldl_cons]
      intro bare next first
      cases order with
      | nil => cases first
      | cons second order =>
          have option : second.topic ≠ .file := by
            cases second with
            | file name =>
                exact absurd ⟨[], order, by simp [bare]⟩ (free name)
            | json | pretty | out => simp [Group.topic]
          rw [List.flatMap_cons, List.head?_append_of_ne_nil _ second.arguments_ne_nil] at first
          exact looksLikeOption_of_head option first

-----------------------------------------------------------------------------------------
-- Groups in any order
-----------------------------------------------------------------------------------------

/-- Groups about different things may be taken in either order. -/
theorem Gathered.take_comm {left right : Group} (differ : left.topic ≠ right.topic)
    (gathered : Gathered)
    : (gathered.take left).take right = (gathered.take right).take left := by
  match left, right with
  | .file _, .file _ | .json, .json | .pretty _, .pretty _ | .out _, .out _ =>
      exact absurd rfl differ
  | .json, .pretty _ | .json, .out _ | .pretty _, .json | .pretty _, .out _
  | .out _, .json | .out _, .pretty _ => rfl
  -- Where an operand goes depends on whether an option was unknown, which no group changes.
  | .file _, .json | .file _, .pretty _ | .file _, .out _
  | .json, .file _ | .pretty _, .file _ | .out _, .file _ =>
      by_cases known : gathered.unknown.isEmpty <;>
        simp [take, addOperands, setJson, setPretty, setOut, known]

theorem foldl_take_eq_of_perm {left right : List Group} (h : left.Perm right)
    (distinct : (right.map Group.topic).Nodup) (gathered : Gathered)
    : left.foldl Gathered.take gathered = right.foldl Gathered.take gathered := by
  refine h.foldl_eq' ?_ gathered
  intro first first_mem second second_mem gathered
  by_cases same : first.topic = second.topic
  · rw [List.inj_on_of_nodup_map distinct (h.subset first_mem) (h.subset second_mem) same]
  · exact gathered.take_comm same

/-- A choice of options, each with the way to ask for it. -/
structure Choice where
  json : Bool
  pretty : Option PrettyGroup
  out : Option OutGroup
deriving DecidableEq, Repr

namespace Choice

def options (choice : Choice) : Options :=
  ⟨choice.json, choice.pretty.map PrettyGroup.layout, choice.out.map OutGroup.target⟩

/-- The groups that ask for a choice of options. -/
def groups (choice : Choice) : List Group :=
  (if choice.json then [.json] else []) ++ choice.pretty.toList.map .pretty
    ++ choice.out.toList.map .out

section

variable (choice : Choice)

theorem nodup_topics (file : Text)
    : ((Group.file file :: choice.groups).map Group.topic).Nodup := by
  obtain ⟨json, pretty, out⟩ := choice
  cases json <;> cases pretty <;> cases out <;> simp [groups, Group.topic]

theorem foldl_take_groups (operands : List Text)
    : choice.groups.foldl Gathered.take ⟨.plain, operands, []⟩
      = ⟨choice.options, operands, []⟩ := by
  obtain ⟨json, pretty, out⟩ := choice
  cases json <;> cases pretty <;> cases out <;> rfl

theorem pretty_mem_groups {group : PrettyGroup}
    : Group.pretty group ∈ choice.groups ↔ choice.pretty = some group := by
  cases h : choice.json <;> simp [groups, h, eq_comm]

theorem file_notMem_groups (name : Text) : Group.file name ∉ choice.groups := by
  cases h : choice.json <;> simp [groups, h]

/-- The layout option may be put in front. -/
theorem groups_perm {group : PrettyGroup} (h : choice.pretty = some group)
    : choice.groups.Perm (.pretty group :: { choice with pretty := none }.groups) := by
  cases json : choice.json with
  | false => simp [groups, h, json]
  | true =>
      simpa [groups, h, json] using List.Perm.swap (Group.pretty group) .json _

end

end Choice

section

variable {choice : Choice} {file : Text} {order : List Group}

theorem proper_of_perm (h : order.Perm (.file file :: choice.groups))
    (plain : file.head? ≠ some 0x2D)
    (number : ∀ given, choice.pretty = some (.apart given) → looksLikeOption given = false)
    : ∀ group ∈ order, group.Proper := by
  intro group mem
  have mem : group ∈ Group.file file :: choice.groups := h.subset mem
  match group with
  | .file name =>
      have named : name = file := by simpa [choice.file_notMem_groups name] using mem
      exact named ▸ plain
  | .pretty (.apart given) =>
      have asked : choice.pretty = some (.apart given) := by
        simpa [choice.pretty_mem_groups] using mem
      exact number given asked
  | .json | .pretty .bare | .pretty (.joined _) | .out _ => trivial

/-- The options are those of the choice, and the file is the operand. -/
theorem interpret_of_free (h : order.Perm (.file file :: choice.groups))
    (proper : ∀ group ∈ order, group.Proper)
    (free : ¬ [.pretty .bare, .file file] <:+: order)
    : interpret (order.flatMap Group.arguments) = .check file choice.options := by
  have free (name : Text) : ¬ [.pretty .bare, .file name] <:+: order := by
    intro within
    have mem : Group.file name ∈ Group.file file :: choice.groups :=
      h.subset (within.subset (by simp))
    have named : name = file := by simpa [choice.file_notMem_groups name] using mem
    exact free (named ▸ within)
  rw [interpret, interpretFrom_groups .empty proper free,
    foldl_take_eq_of_perm h (choice.nodup_topics file), List.foldl_cons]
  exact congrArg Gathered.request (choice.foldl_take_groups [file])

/-- Without a file there is a complaint. -/
theorem interpret_of_no_file (h : order.Perm choice.groups)
    (proper : ∀ group ∈ order, group.Proper)
    : interpret (order.flatMap Group.arguments) = .notice (.complaint .missingFile) := by
  have free (name : Text) : ¬ [.pretty .bare, .file name] <:+: order := by
    intro within
    exact choice.file_notMem_groups name (h.subset (within.subset (by simp)))
  rw [interpret, interpretFrom_groups .empty proper free,
    foldl_take_eq_of_perm h (choice.nodup_topics []).of_cons]
  exact congrArg Gathered.request (choice.foldl_take_groups [])

/-- A file that is taken for a number leaves the groups of a choice with that number. -/
theorem perm_groups_of_taken {before after : List Group}
    (h : (before ++ .pretty .bare :: .file file :: after).Perm (.file file :: choice.groups))
    : (before ++ .pretty (.apart file) :: after).Perm
        { choice with pretty := some (.apart file) }.groups := by
  have bare : choice.pretty = some .bare := by
    have mem : Group.pretty .bare ∈ Group.file file :: choice.groups := h.subset (by simp)
    simpa [choice.pretty_mem_groups] using mem
  have others : (before ++ after).Perm { choice with pretty := none }.groups := by
    have front : (before ++ .pretty .bare :: .file file :: after).Perm
        (.file file :: .pretty .bare :: (before ++ after)) :=
      (List.perm_middle.trans (List.perm_middle.cons _)).trans (.swap _ _ _)
    have both := front.symm.trans (h.trans ((choice.groups_perm bare).cons _))
    exact both.cons_inv.cons_inv
  exact (List.perm_middle.trans (others.cons _)).trans
    (Choice.groups_perm { choice with pretty := some (.apart file) } rfl).symm

theorem interpret_of_taken (h : order.Perm (.file file :: choice.groups))
    (proper : ∀ group ∈ order, group.Proper)
    (taken : [.pretty .bare, .file file] <:+: order)
    : interpret (order.flatMap Group.arguments) = .notice (.complaint .missingFile) := by
  obtain ⟨before, after, rfl⟩ := taken
  have own : (Group.file file).Proper := proper _ (by simp)
  have proper' : ∀ group ∈ before ++ .pretty (.apart file) :: after, group.Proper := by
    intro group mem
    rcases List.mem_append.mp mem with mem | mem
    · exact proper group (by simp [mem])
    rcases List.mem_cons.mp mem with rfl | mem
    · exact looksLikeOption_eq_false own
    · exact proper group (by simp [mem])
  rw [← interpret_of_no_file (perm_groups_of_taken (by simpa using h)) proper']
  simp [Group.arguments]

end

/-- The order of arguments. The file and at most one group for each option may come in any order
and start the same session. Only where a bare layout option stands right in front of the file
there is no session: the file is taken for the number of the option, and a complaint ends the
command.
-/
theorem run_of_order (files : FileSystem) (directory : FileSystem.Path) (clock : Clock)
    (choice : Choice) (file : Text) (order : List Group)
    (h : order.Perm (.file file :: choice.groups))
    (plain : file.head? ≠ some 0x2D)
    (number : ∀ given, choice.pretty = some (.apart given) → looksLikeOption given = false)
    : let arguments := order.flatMap Group.arguments
      (¬ [.pretty .bare, .file file] <:+: order
        → interpret arguments = .check file choice.options
          ∧ run files directory clock arguments
            = Session.run files directory clock file choice.options)
      ∧ ([.pretty .bare, .file file] <:+: order
        → interpret arguments = .notice (.complaint .missingFile)
          ∧ run files directory clock arguments
            = (⟨1, [], Session.printed [text "error: missing required argument 'file'"]⟩,
              files)) := by
  have proper : ∀ group ∈ order, group.Proper := proper_of_perm h plain number
  refine ⟨?_, ?_⟩
  · intro free
    have asked := interpret_of_free h proper free
    exact ⟨asked, by rw [run, asked]⟩
  · intro taken
    have asked := interpret_of_taken h proper taken
    exact ⟨asked, by rw [run, asked]; rfl⟩

/-- A target that reads like an option, with the bare layout option in front of it and in front
of the file.
-/
theorem run_of_two_orders
    : run ⟨[]⟩ [] ⟨0, []⟩
        [text "--pretty", text "-o", text "--pretty", text "in.json", text "--json"]
      = Session.run ⟨[]⟩ [] ⟨0, []⟩ (text "in.json") ⟨true, some .bare, some (text "--pretty")⟩
      ∧ run ⟨[]⟩ [] ⟨0, []⟩
          [text "--json", text "--pretty", text "in.json", text "-o", text "--pretty"]
        = (⟨1, [], Session.printed [text "error: missing required argument 'file'"]⟩, ⟨[]⟩) := by
  let choice : Choice := ⟨true, some .bare, some (.short (text "--pretty"))⟩
  have number : ∀ given, choice.pretty = some (.apart given) → looksLikeOption given = false := by
    simp [choice]
  refine ⟨?_, ?_⟩
  · exact ((run_of_order ⟨[]⟩ [] ⟨0, []⟩ choice (text "in.json")
      [.pretty .bare, .out (.short (text "--pretty")), .file (text "in.json"), .json]
      (by decide) (by decide) number).1 (by decide)).2
  · exact ((run_of_order ⟨[]⟩ [] ⟨0, []⟩ choice (text "in.json")
      [.json, .pretty .bare, .file (text "in.json"), .out (.short (text "--pretty"))]
      (by decide) (by decide) number).2 (by decide)).2

end NamingAdvice.CommandLine
