import Mathlib.Data.List.DropRight
import NamingAdvice.Proofs.Number.Digits
import NamingAdvice.Proofs.Review.Delivery
import NamingAdvice.Report

/-! The line for an advisory can be read back. No label holds the mark that ends it and no path holds
a space, so the first colon, the first bracket and the first space behind it end the severity, the
code and the path, whatever the message holds; and the code tells how many units of the message stand
around the name.
-/

namespace NamingAdvice

-----------------------------------------------------------------------------------------
-- Reading a line
-----------------------------------------------------------------------------------------

/-- What stands in front of the first occurrence of a unit, and what behind it. -/
def Text.cut (mark : CodeUnit) (line : Text) : Text × Text :=
  (line.takeWhile (· != mark), (line.dropWhile (· != mark)).drop 1)

/-- The severity with a given label. -/
def Severity.ofLabel? (label : Text) : Option Severity :=
  [info, warning].find? (·.label == label)

/-- The code with a given label. -/
def Advisory.Code.ofLabel? (label : Text) : Option Advisory.Code :=
  [camelCase, initialLower, initialUpper, allCaps, methodNamedLikeType].find? (·.label == label)

/-- The name that a message with a given code quotes. -/
def Advisory.Code.quoted (code : Code) (message : Text) : Text :=
  (message.drop code.wording.1.length).rdrop code.wording.2.length

/-- The advisory that a line reports. -/
def Report.Entry.ofLine? (line : Text) : Option Report.Entry := do
  let (grade, rest) := Text.cut 0x3A line
  let (label, rest) := Text.cut 0x5D (rest.drop 2)
  let (path, rest) := Text.cut 0x20 (rest.drop 1)
  let message := rest.drop 2
  let severity ← Severity.ofLabel? grade
  let code ← Advisory.Code.ofLabel? label
  pure ⟨severity, label, path, code.quoted message, message⟩

theorem Text.cut_append {mark : CodeUnit} {front : Text} (h : mark ∉ front) (rest : Text)
    : cut mark (front ++ mark :: rest) = (front, rest) := by
  have before : ∀ unit ∈ front, (unit != mark) = true := by
    intro unit member
    exact bne_iff_ne.mpr (ne_of_mem_of_not_mem member h)
  rw [cut, List.takeWhile_append_of_pos before, List.dropWhile_append_of_pos before]
  simp

theorem Severity.ofLabel?_label (severity : Severity)
    : ofLabel? severity.label = some severity := by
  cases severity <;> decide

theorem Advisory.Code.ofLabel?_label (code : Code) : ofLabel? code.label = some code := by
  cases code <;> decide

theorem Advisory.Code.label_injective : Function.Injective Code.label := by
  intro left right h
  have found := left.ofLabel?_label
  rw [h, right.ofLabel?_label] at found
  exact (Option.some.inj found).symm

/-- The words around a name are known from the code, so the name is what is left. -/
theorem Advisory.Code.quoted_message (code : Code) (name : Text)
    : code.quoted (code.message name) = name := by
  rw [quoted, message, List.append_assoc, List.drop_left, List.rdrop, List.length_append,
    Nat.add_sub_cancel, List.take_left]

/-- An entry about a name, with the label and the message of its code, at a path without spaces. -/
def Report.Entry.Legible (entry : Report.Entry) : Prop :=
  ∃ code : Advisory.Code,
    entry.code = code.label ∧ entry.message = code.message entry.name ∧ 0x20 ∉ entry.path

/-- Reading a line gives back the entry that it was written for, by cutting at the marks one after
the other.
-/
theorem Report.Entry.ofLine?_line {entry : Report.Entry} (h : entry.Legible)
    : ofLine? entry.line = some entry := by
  obtain ⟨code, labelled, said, spaceless⟩ := h
  have colon : 0x3A ∉ entry.severity.label := by cases entry.severity <;> decide
  have bracket : 0x5D ∉ entry.code := by
    rw [labelled]
    cases code <;> decide
  have marks : text ": [" = [0x3A, 0x20, 0x5B] ∧ text "] " = [0x5D, 0x20]
      ∧ text " : " = [0x20, 0x3A, 0x20] := by
    decide
  -- Each mark stands behind a field that does not hold it; what the message holds comes too late.
  have line : entry.line
      = entry.severity.label ++ 0x3A :: 0x20 :: 0x5B
          :: (entry.code ++ 0x5D :: 0x20 :: (entry.path ++ 0x20 :: 0x3A :: 0x20 :: entry.message))
      := by
    simp [Report.Entry.line, marks]
  have found : Advisory.Code.ofLabel? entry.code = some code := by
    rw [labelled, code.ofLabel?_label]
  have name : code.quoted entry.message = entry.name := by
    rw [said, code.quoted_message]
  simp only [line, ofLine?, Text.cut_append colon, List.drop_succ_cons, List.drop_zero,
    Text.cut_append bracket, Text.cut_append spaceless, Severity.ofLabel?_label, found,
    Option.bind_eq_bind, Option.bind_some, name]
  rfl

-----------------------------------------------------------------------------------------
-- The lines for what a review emits
-----------------------------------------------------------------------------------------

theorem Survey.space_not_mem_pathOf (position : List Nat) : 0x20 ∉ pathOf [] position := by
  have key : 0x20 ∉ text "children" := by decide
  rw [pathOf_eq, List.nil_append]
  refine Text.not_mem_slashed (by decide) ?_
  intro segment listed
  rcases eq_key_or_number_of_mem_segments listed with rfl | ⟨index, rfl⟩
  · exact key
  · exact Text.not_mem_ofNat (by decide) index

theorem Review.Emitted.legible {input : Option Json} {advisory : Advisory}
    (h : Review.Emitted input advisory)
    : advisory.entry.Legible := by
  obtain ⟨forest, -, listed⟩ := h.exists_forest
  obtain ⟨position, -, -, path, -⟩ := (Survey.mem_advisories_iff [] forest advisory).mp listed
  have spaceless : 0x20 ∉ advisory.path := path ▸ Survey.space_not_mem_pathOf position
  exact ⟨advisory.code, rfl, rfl, spaceless⟩

namespace Review

/-- The lines for advisories are unambiguous. From the line for anything that a review emits, all
that a report says about it can be read back: severity, code, path, name and message. So advisories
with the same line, though they come from different inputs, agree in all of these, whatever spaces,
brackets, quotes or line feeds their names hold.
-/
theorem lines_unambiguous {first second : Option Json} {left right : Advisory}
    (hl : Emitted first left) (hr : Emitted second right)
    : Report.Entry.ofLine? left.entry.line = some left.entry
      ∧ (left.entry.line = right.entry.line
          → left.severity = right.severity
            ∧ left.code = right.code
            ∧ left.path = right.path
            ∧ left.message = right.message
            ∧ left.declaration.name = right.declaration.name) := by
  have readLeft := Report.Entry.ofLine?_line hl.legible
  have readRight := Report.Entry.ofLine?_line hr.legible
  refine ⟨readLeft, ?_⟩
  intro same
  rw [same, readRight] at readLeft
  obtain ⟨severity, label, path, name, message⟩ :=
    Report.Entry.mk.inj (Option.some.inj readLeft).symm
  exact ⟨severity, Advisory.Code.label_injective label, path, message, name⟩

/-- A name that holds all the marks of a line and a line feed. -/
def markedName : Text := text "a' : [ALL_CAPS] /1 : '\nb"

/-- A class of this name with given children. -/
def markedInput (children : List Json) : Json :=
  .array [.object [
    (Key.kind, .string (text "class")),
    (Key.name, .string markedName),
    (Key.children, .array children)]]

/-- A child for such a class, with nothing to say about it. -/
def plainChild : Json :=
  .object [(Key.kind, .string (text "record")), (Key.name, .string (text "B"))]

/-- The line for such a class. -/
def markedLine : Text :=
  text "warning: [CAMEL_CASE_INITIAL_UPPER] /0 : Name '" ++ markedName
    ++ text "' should start uppercase"

/-- Such a class gives its line with a child, to a sink that throws at once, and without one, as a
result; from the line alone its own path and name are read and not those inside the name.
-/
theorem markedInput_unambiguous
    : ∃ left right,
        (Emitted (some (markedInput [plainChild])) left
          ∧ Emitted (some (markedInput [])) right
          ∧ left.entry.line = markedLine
          ∧ right.entry.line = markedLine
          ∧ left.declaration.children.length = 1
          ∧ right.declaration.children.length = 0)
        ∧ Report.Entry.ofLine? markedLine = some left.entry
        ∧ left.severity = right.severity
        ∧ left.code = right.code
        ∧ left.path = right.path
        ∧ left.message = right.message
        ∧ left.declaration.name = right.declaration.name := by
  have heard : (markedLine, 1)
      ∈ (Sink.observe (Survey.recorder (some 1))
          (review · ⟨0, []⟩ (some (markedInput [plainChild]))) []).2.1.map
          (fun advisory => (advisory.entry.line, advisory.declaration.children.length)) := by
    decide +kernel
  have returned : (markedLine, 0)
      ∈ (quietReview ⟨0, []⟩ (some (markedInput []))).advisories.map
          (fun advisory => (advisory.entry.line, advisory.declaration.children.length)) := by
    decide +kernel
  obtain ⟨left, hl, shownLeft⟩ := List.mem_map.mp heard
  obtain ⟨right, hr, shownRight⟩ := List.mem_map.mp returned
  obtain ⟨lineLeft, childrenLeft⟩ := Prod.mk.inj shownLeft
  obtain ⟨lineRight, childrenRight⟩ := Prod.mk.inj shownRight
  have emittedLeft : Emitted (some (markedInput [plainChild])) left := .inr ⟨_, _, _, _, _, hl⟩
  have emittedRight : Emitted (some (markedInput [])) right := .inl ⟨_, hr⟩
  obtain ⟨read, agree⟩ := lines_unambiguous emittedLeft emittedRight
  exact ⟨left, right,
    ⟨emittedLeft, emittedRight, lineLeft, lineRight, childrenLeft, childrenRight⟩,
    lineLeft ▸ read, agree (lineLeft.trans lineRight.symm)⟩

end Review

end NamingAdvice
