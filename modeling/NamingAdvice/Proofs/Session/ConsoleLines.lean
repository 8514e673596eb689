import NamingAdvice.Proofs.Review.ErrorPath
import NamingAdvice.Proofs.Session.Ending
import NamingAdvice.Proofs.Text.LineFeed

/-! The lines that a console shows. A line feed in what is printed ends a line there. All words of
this library are without line feeds, but names and labels are quoted as they are; so a finding takes
one line and one more for every line feed in what it quotes.
-/

namespace NamingAdvice

-----------------------------------------------------------------------------------------
-- Lines of octets
-----------------------------------------------------------------------------------------

namespace Session

/-- The lines that octets make on a console, each without the line feed that ends it. -/
def consoleLines (octets : Bytes) : List Bytes :=
  (octets.splitOn 0x0A).dropLast

theorem consoleLines_cons {line : Bytes} (h : 0x0A ∉ line) (rest : Bytes)
    : consoleLines (line ++ 0x0A :: rest) = line :: consoleLines rest := by
  rw [consoleLines, List.splitOn_append_cons_self_of_not_mem h,
    List.dropLast_cons_of_ne_nil (List.splitOn_ne_nil _ _), consoleLines]

/-- What a console makes of a line: a line for each part between line feeds. -/
theorem consoleLines_line (line : Text) (rest : Bytes)
    : consoleLines (Utf8.encode line ++ 0x0A :: rest)
      = (Text.parts 0x0A line).map Utf8.encode ++ consoleLines rest := by
  induction count : line.length using Nat.strongRecOn generalizing line with
  | ind length ih =>
      by_cases broken : 0x0A ∈ line
      · obtain ⟨before, after, rfl, free⟩ := List.eq_append_cons_of_mem broken
        have cut : Utf8.encode (before ++ 0x0A :: after)
            = Utf8.encode before ++ 0x0A :: Utf8.encode after := by
          rw [Utf8.encode_append_cons (by decide), Utf8.encode_plain (by decide)]
          rfl
        have later := ih after.length (by simp [← count]; omega) after rfl
        rw [cut, List.append_assoc, List.cons_append,
          consoleLines_cons (fun mem => free (Utf8.lineFeed_mem_of_mem_encode mem)), later,
          Text.parts_append_separator, Text.parts_of_not_mem free]
        rfl
      · rw [consoleLines_cons (fun mem => broken (Utf8.lineFeed_mem_of_mem_encode mem)),
          Text.parts_of_not_mem broken]
        rfl

theorem consoleLines_printed (lines : List Text)
    : consoleLines (printed lines)
      = lines.flatMap (fun line => (Text.parts 0x0A line).map Utf8.encode) := by
  induction lines with
  | nil => rfl
  | cons line lines ih => rw [printed_cons, consoleLines_line, ih, List.flatMap_cons]

theorem length_consoleLines_printed (lines : List Text)
    : (consoleLines (printed lines)).length = lines.length + (lines.map Text.breaks).sum := by
  rw [consoleLines_printed]
  induction lines with
  | nil => rfl
  | cons line lines ih =>
      simp only [List.flatMap_cons, List.length_append, List.length_map, Text.length_parts, ih,
        List.length_cons, List.map_cons, List.sum_cons]
      omega

/-- Lines are shown as they are exactly if there is no line feed in them. -/
theorem consoleLines_printed_eq_iff (lines : List Text)
    : consoleLines (printed lines) = lines.map Utf8.encode ↔ (lines.map Text.breaks).sum = 0 := by
  constructor
  · intro whole
    have count := congrArg List.length whole
    rw [length_consoleLines_printed, List.length_map] at count
    omega
  · intro unbroken
    rw [consoleLines_printed]
    induction lines with
    | nil => rfl
    | cons line lines ih =>
        obtain ⟨first, others⟩ := Nat.add_eq_zero_iff.mp unbroken
        rw [List.flatMap_cons, Text.parts_of_not_mem (Text.breaks_eq_zero_iff.mp first), ih others]
        rfl

/-- What a console shows of lines that quote some texts: the parts of the lines between line
feeds, so one line more for every line feed in what is quoted, and the lines themselves only if
there is none.
-/
structure ShownAs (octets : Bytes) (lines quotes : List Text) : Prop where
  parts_eq
    : consoleLines octets = lines.flatMap (fun line => (Text.parts 0x0A line).map Utf8.encode)
  length_eq : (consoleLines octets).length = lines.length + (quotes.map Text.breaks).sum
  whole_iff : consoleLines octets = lines.map Utf8.encode ↔ ∀ quote ∈ quotes, 0x0A ∉ quote

theorem shownAs_printed {lines quotes : List Text}
    (h : (lines.map Text.breaks).sum = (quotes.map Text.breaks).sum)
    : ShownAs (printed lines) lines quotes where
  parts_eq := consoleLines_printed lines
  length_eq := by rw [length_consoleLines_printed, h]
  whole_iff := by
    rw [consoleLines_printed_eq_iff, h, List.sum_eq_zero_iff_forall_eq_nat]
    simp only [List.forall_mem_map, Text.breaks_eq_zero_iff]

end Session

-----------------------------------------------------------------------------------------
-- What findings quote
-----------------------------------------------------------------------------------------

theorem Advisory.Code.breaks_message (code : Code) (name : Text)
    : (code.message name).breaks = name.breaks := by
  have words : code.wording.1.breaks = 0 ∧ code.wording.2.breaks = 0 := by
    cases code <;> decide
  simp [message, words]

theorem Survey.breaks_pathOf (position : List Nat) : (pathOf [] position).breaks = 0 := by
  have key : (text "children").breaks = 0 := by decide
  rw [pathOf_eq, List.nil_append]
  refine Text.breaks_slashed ?_
  intro segment listed
  rcases eq_key_or_number_of_mem_segments listed with rfl | ⟨index, rfl⟩
  · exact key
  · exact Text.breaks_ofNat index

/-- In the line for an advisory, only the name can hold a line feed. -/
theorem breaks_advisoryLine {forest : List Declaration} {advisory : Advisory}
    (h : advisory ∈ Survey.advisories [] forest)
    : advisory.entry.line.breaks = advisory.entry.name.breaks := by
  obtain ⟨position, -, -, path, -⟩ := (Survey.mem_advisories_iff [] forest advisory).mp h
  have label : advisory.code.label.breaks = 0 := by cases advisory.code <;> decide
  have grade : advisory.severity.label.breaks = 0 := rfl
  have words : (text ": [").breaks = 0 ∧ (text "] ").breaks = 0 ∧ (text " : ").breaks = 0 := by
    decide
  simp [Report.Entry.line, Advisory.entry, label, grade, words, path, Survey.breaks_pathOf,
    Advisory.message, Advisory.Code.breaks_message]

theorem Report.breaks_summaryOf (count : Nat) : (summaryOf count).breaks = 0 := by
  have words : (text " naming advisories").breaks = 0 := by decide
  match count with
  | 0 | 1 => decide
  | count + 2 => simp [summaryOf, Text.breaks_ofNat, words]

/-- What an issue quotes from the input. -/
def Issue.Cause.quoted : Issue.Cause → Text
  | .unknownLabel _ received => received
  | _ => []

/-- The lists of labels that a value can be held against. -/
def Expectation.labelLists : List (List Text) :=
  [Kind.all.map Kind.label, Modifier.all.map Modifier.label]

/-- The labels that an issue lists are those of all kinds or of all modifiers. -/
def Issue.Cause.Listed : Issue.Cause → Prop
  | .wrongShape (.oneOf labels) _ | .unknownLabel labels _ => labels ∈ Expectation.labelLists
  | _ => True

theorem LabelFault.listed {labels : List Text} {value : Json} {cause : Issue.Cause}
    (h : LabelFault labels value cause) (own : labels ∈ Expectation.labelLists)
    : cause.Listed := by
  cases h with
  | shape wrong =>
      rw [wrong.2]
      exact own
  | unknown lacking => exact own

theorem HeaderFault.listed {members : List (Text × Json)} {place : List Step}
    {cause : Issue.Cause} (h : HeaderFault members place cause)
    : cause.Listed := by
  cases h with
  | missing needed absent => trivial
  | kind named present wrong => exact wrong.listed (by simp [Expectation.labelLists])
  | text named present wrong | flag present wrong | modifiers present wrong =>
      rw [wrong.2]
      trivial
  | modifier present element wrong => exact wrong.listed (by simp [Expectation.labelLists])

theorem Declaration.listed_of_mem_issues {input : Option Json} {issue : Issue}
    (h : issue ∈ issues input)
    : issue.cause.Listed := by
  rcases issue with ⟨cause, place⟩
  rcases misfit_or_repeated h with misfit | ⟨modifier, rfl, -⟩
  · cases misfit with
    | missing => trivial
    | root wrong =>
        rw [wrong.2]
        trivial
    | node reached fault =>
        cases fault with
        | shape wrong | children present wrong =>
            rw [wrong.2]
            trivial
        | header wrong => exact wrong.listed
  · trivial

theorem Expectation.breaks_listing {labels : List Text} (h : labels ∈ labelLists)
    : (listing labels).breaks = 0 := by
  simp only [labelLists, List.mem_cons, List.not_mem_nil, or_false] at h
  rcases h with rfl | rfl <;> decide +kernel

/-- In the message of an issue, only what it quotes can hold a line feed. -/
theorem Issue.Cause.breaks_message {cause : Issue.Cause} (listed : cause.Listed)
    : cause.message.breaks = cause.quoted.breaks := by
  have nothing : Text.breaks [] = 0 := rfl
  have expected : (text "Expected ").breaks = 0 ∧ (text ", received ").breaks = 0 := by decide
  have unknown
      : (text "Invalid enum value. Expected ").breaks = 0 ∧ (text ", received '").breaks = 0 := by
    decide
  have repeated : (text "duplicate modifier '").breaks = 0 := by decide
  have mark : (text "'").breaks = 0 := by decide
  cases cause with
  | missing => decide
  | wrongShape wanted received =>
      have found : received.label.breaks = 0 := by cases received <;> decide
      have named : wanted.label.breaks = 0 := by
        cases wanted with
        | oneOf labels => exact Expectation.breaks_listing listed
        | array | object | string | boolean => decide
      simp [message, quoted, expected, named, found, nothing]
  | unknownLabel labels received =>
      simp [message, quoted, unknown, mark, Expectation.breaks_listing listed]
  | repeatedModifier modifier =>
      have label : modifier.label.breaks = 0 := by cases modifier <;> decide
      simp [message, quoted, repeated, mark, label, nothing]

theorem Issue.breaks_path {issue : Issue} (known : ∀ step ∈ issue.place, step.Known)
    : issue.path.breaks = 0 := by
  have keys : ∀ key ∈ Key.inOrder, key.breaks = 0 := by decide
  have labels : ∀ segment ∈ issue.place.map Step.label, segment.breaks = 0 := by
    refine List.forall_mem_map.mpr ?_
    intro step mem
    have known := known step mem
    cases step with
    | key name => exact keys name known
    | index position => exact Text.breaks_ofNat position
  rw [path]
  cases place : issue.place.map Step.label with
  | nil => decide
  | cons first rest =>
      rw [Text.slash_join, ← place]
      exact Text.breaks_slashed labels

-----------------------------------------------------------------------------------------
-- What sessions print
-----------------------------------------------------------------------------------------

namespace Session

open CommandLine (Options)
open FileSystem (Path)

theorem sum_breaks_lines (clock : Clock) {value : Json} {forest : List Declaration}
    (read : Declaration.read (some value) = .ok forest)
    : let report := (quietReview clock (some value)).report
      (report.lines.map Text.breaks).sum
        = ((report.advisories.map Report.Entry.name).map Text.breaks).sum := by
  have each
      : ((Survey.advisories [] forest).map (fun advisory => advisory.entry.line.breaks))
        = (Survey.advisories [] forest).map (fun advisory => advisory.entry.name.breaks) :=
    List.map_congr_left (fun _ mem => breaks_advisoryLine mem)
  simp [quietReview_of_ok clock read, Review.report, Report.lines, Report.summary,
    Report.breaks_summaryOf, Function.comp_def, each]

theorem sum_breaks_rejection {input : Option Json} {issues : List Issue}
    (read : Declaration.read input = .error issues)
    : ((rejection (issues.map InputError.ofIssue)).map Text.breaks).sum
      = ((issues.map (·.cause.quoted)).map Text.breaks).sum := by
  obtain ⟨rfl, -⟩ := Declaration.read_eq_error_iff.mp read
  have words
      : (text "  - [").breaks = 0
        ∧ (text "SCHEMA_ERROR").breaks = 0
        ∧ (text "] ").breaks = 0
        ∧ (text " : ").breaks = 0 := by
    decide
  have front
      : (text "❌ Invalid declaration tree, ").breaks = 0 ∧ (text " error(s):").breaks = 0 := by
    decide
  have each : ∀ issue ∈ Declaration.issues input,
      issue.path.breaks + issue.cause.message.breaks = issue.cause.quoted.breaks := by
    intro issue mem
    rw [Issue.breaks_path (Declaration.known_of_mem_issues mem),
      Issue.Cause.breaks_message (Declaration.listed_of_mem_issues mem), Nat.zero_add]
  simp [rejection, InputError.ofIssue, front, words, Text.breaks_ofNat, Function.comp_def,
    List.map_congr_left each]

section

variable {files : FileSystem} {directory : Path} {file : Text} {options : Options} {value : Json}

theorem shownAs_stdout (clock : Clock)
    (accepted : Accepted files (Path.resolve directory file) value)
    (plain : options.json = false)
    : let report := (quietReview clock (some value)).report
      ShownAs (run files directory clock file options).1.stdout
        (report.advisories.map Report.Entry.line ++ [report.summary])
        (report.advisories.map Report.Entry.name) := by
  rw [stdout_of_accepted accepted, shown, shownLines, plain]
  obtain ⟨bytes, forest, -, -, read⟩ := accepted
  exact shownAs_printed (sum_breaks_lines clock read)

theorem shownAs_stderr (clock : Clock) {bytes : Bytes} {issues : List Issue}
    (content : files.read (Path.resolve directory file) = .ok bytes)
    (parsed : Json.read (Utf8.decode bytes) = .ok value)
    (read : Declaration.read (some value) = .error issues)
    : ShownAs (run files directory clock file options).1.stderr
        (rejection (issues.map InputError.ofIssue)) (issues.map (·.cause.quoted)) := by
  rw [run_of_refusal (.rejected content parsed read) clock options]
  exact shownAs_printed (sum_breaks_rejection read)

end

/-- The lines on a console. Of an accepted input it shows the lines for the advisories and the
summary, with one line more for every line feed in an advised name; of a rejected one the
announcement and the lines for the errors, with one line more for every line feed in a label that
is quoted. So findings take one line each exactly if no such name or label holds a line feed.
-/
theorem run_console_lines (files : FileSystem) (directory : Path) (clock : Clock) (file : Text)
    (options : Options)
    : let input := Path.resolve directory file
      let ended := run files directory clock file options
      (∀ value, Accepted files input value → options.json = false
        → let report := (quietReview clock (some value)).report
          ShownAs ended.1.stdout (report.advisories.map Report.Entry.line ++ [report.summary])
            (report.advisories.map Report.Entry.name))
      ∧ (∀ bytes value issues,
          files.read input = .ok bytes
          → Json.read (Utf8.decode bytes) = .ok value
          → Declaration.read (some value) = .error issues
          → ShownAs ended.1.stderr (rejection (issues.map InputError.ofIssue))
              (issues.map (·.cause.quoted))) := by
  refine ⟨?_, ?_⟩
  · intro value accepted plain
    exact shownAs_stdout clock accepted plain
  · intro bytes value issues content parsed read
    exact shownAs_stderr clock content parsed read

/-- An input with one node of a given kind and name. -/
def oneNode (kind name : Text) : Json :=
  .array [.object [(text "kind", .string kind), (text "simple_name", .string name)]]

theorem canonical_oneNode (kind name : Text) : (oneNode kind name).Canonical :=
  .array (List.forall_mem_singleton.mpr
    (.object
      (by decide : [text "kind", text "simple_name"].Nodup)
      (by simp [Json.Canonical.string])))

/-- A file system with two inputs. The name in one and the kind in the other hold a line feed. -/
def brokenDesk : FileSystem :=
  ⟨[(Utf8.encode (text "name.json"),
      .file (Utf8.encode ((oneNode (text "class") (text "a\nb")).write 0))),
    (Utf8.encode (text "kind.json"),
      .file (Utf8.encode ((oneNode (text "a\nb") (text "A")).write 0)))]⟩

theorem brokenDesk_accepted
    : Accepted brokenDesk (Path.resolve [] (text "name.json"))
        (oneNode (text "class") (text "a\nb")) := by
  cases read : Declaration.read (some (oneNode (text "class") (text "a\nb"))) with
  | ok forest =>
      exact ⟨_, forest, by decide +kernel,
        Json.read_decode_encode_write (canonical_oneNode _ _) 0, read⟩
  | error issues =>
      obtain ⟨rfl, wrong⟩ := Declaration.read_eq_error_iff.mp read
      exact absurd (by decide +kernel) wrong

theorem brokenDesk_rejected
    : let input := oneNode (text "a\nb") (text "A")
      ∃ bytes,
        brokenDesk.read (Path.resolve [] (text "kind.json")) = .ok bytes
        ∧ Json.read (Utf8.decode bytes) = .ok input
        ∧ Declaration.read (some input) = .error (Declaration.issues (some input)) :=
  ⟨_, by decide +kernel, Json.read_decode_encode_write (canonical_oneNode _ _) 0,
    Declaration.read_eq_error_iff.mpr ⟨rfl, by decide +kernel⟩⟩

/-- Not every finding takes one line: a name or a label of the input can add another. -/
theorem findings_not_one_line
    : (¬ ∀ (files : FileSystem) (directory : Path) (clock : Clock) (file : Text)
          (options : Options) (value : Json),
          Accepted files (Path.resolve directory file) value
          → options.json = false
          → (consoleLines (run files directory clock file options).1.stdout).length
            = (quietReview clock (some value)).report.advisories.length + 1)
      ∧ ¬ ∀ (files : FileSystem) (directory : Path) (clock : Clock) (file : Text)
          (options : Options) (bytes : Bytes) (value : Json) (issues : List Issue),
          files.read (Path.resolve directory file) = .ok bytes
          → Json.read (Utf8.decode bytes) = .ok value
          → Declaration.read (some value) = .error issues
          → (consoleLines (run files directory clock file options).1.stderr).length
            = issues.length + 1 := by
  refine ⟨?_, ?_⟩
  · intro one
    have lines := one brokenDesk [] ⟨0, []⟩ (text "name.json") Options.plain _
      brokenDesk_accepted rfl
    rw [(shownAs_stdout ⟨0, []⟩ brokenDesk_accepted rfl).length_eq] at lines
    revert lines
    decide +kernel
  · intro one
    obtain ⟨bytes, content, parsed, read⟩ := brokenDesk_rejected
    have lines := one brokenDesk [] ⟨0, []⟩ (text "kind.json") Options.plain bytes _ _
      content parsed read
    rw [(shownAs_stderr ⟨0, []⟩ content parsed read).length_eq] at lines
    revert lines
    decide +kernel

/-- What a console shows of the two inputs: the second line of each finding starts with what stands
behind the line feed.
-/
theorem brokenDesk_console_lines
    : consoleLines (run brokenDesk [] ⟨0, []⟩ (text "name.json") Options.plain).1.stdout
      = [Utf8.encode (text "warning: [CAMEL_CASE_INITIAL_UPPER] /0 : Name 'a"),
          Utf8.encode (text "b' should start uppercase"),
          Utf8.encode (text "1 naming advisory")]
      ∧ (consoleLines (run brokenDesk [] ⟨0, []⟩ (text "kind.json") Options.plain).1.stderr).length
        = 3 := by
  obtain ⟨bytes, content, parsed, read⟩ := brokenDesk_rejected
  have shows := (run_console_lines brokenDesk [] ⟨0, []⟩ (text "name.json") Options.plain).1
    _ brokenDesk_accepted rfl
  have complains := (run_console_lines brokenDesk [] ⟨0, []⟩ (text "kind.json") Options.plain).2
    bytes _ _ content parsed read
  exact ⟨shows.parts_eq.trans (by decide +kernel), complains.length_eq.trans (by decide +kernel)⟩

end Session

end NamingAdvice
