import NamingAdvice.Proofs.Session.Ending

/-! What a session leaves behind: octets on its output and in the report file. Both hold the same
JSON report, from which the whole report can be read back, and the lines shown without JSON are
those that the JSON report gives.
-/

namespace NamingAdvice

/-- The text under a key of an object. -/
def Json.textAt? (key : Text) : Json → Option Text
  | .object members =>
      match members.lookup key with
      | some (.string value) => some value
      | _ => none
  | _ => none

/-- The line that an advisory in JSON stands for. -/
def Json.advisoryLine? (advisory : Json) : Option Text := do
  let severity ← advisory.textAt? (text "severity")
  let code ← advisory.textAt? (text "code")
  let path ← advisory.textAt? (text "path")
  let message ← advisory.textAt? (text "message")
  pure (severity ++ text ": [" ++ code ++ text "] " ++ path ++ text " : " ++ message)

/-- The lines that a report in JSON stands for: one for each advisory in order, and a summary of
how many there are.
-/
def Json.reportLines? : Json → Option (List Text)
  | .object members =>
      match members.lookup (text "advisories") with
      | some (.array advisories) => do
          let lines ← advisories.mapM Json.advisoryLine?
          pure (lines ++ [Report.summaryOf advisories.length])
      | _ => none
  | _ => none

theorem Report.Entry.advisoryLine?_toJson (entry : Report.Entry)
    : entry.toJson.advisoryLine? = some entry.line :=
  rfl

theorem Report.reportLines?_toJson (report : Report)
    : report.toJson.reportLines? = some report.lines := by
  have each
      : (report.advisories.map Report.Entry.toJson).mapM Json.advisoryLine?
        = some (report.advisories.map Report.Entry.line) := by
    induction report.advisories with
    | nil => rfl
    | cons entry entries ih => simp [List.mapM_cons, entry.advisoryLine?_toJson, ih]
  have listed
      : report.toJson.reportLines?
        = (do
            let lines ← (report.advisories.map Report.Entry.toJson).mapM Json.advisoryLine?
            pure (lines ++ [Report.summaryOf (report.advisories.map Report.Entry.toJson).length])) :=
    rfl
  simp [listed, each, Report.lines, Report.summary]

namespace Session

open CommandLine (Options Pretty)
open FileSystem (Path Fault)

theorem printed_eq_encode (lines : List Text)
    : printed lines = Utf8.encode (lines.flatMap (· ++ text "\n")) := by
  induction lines with
  | nil => rfl
  | cons line lines ih =>
      let rest := lines.flatMap (· ++ text "\n")
      calc
        printed (line :: lines) = Utf8.encode line ++ (Utf8.encode (text "\n") ++ printed lines) :=
          printed_cons line lines
        _ = Utf8.encode line ++ (Utf8.encode (text "\n") ++ Utf8.encode rest) := by rw [ih]
        _ = Utf8.encode line ++ Utf8.encode (text "\n" ++ rest) := by
          rw [Utf8.encode_append (Utf8.paired_text "\n")]
        _ = Utf8.encode (line ++ (text "\n" ++ rest)) :=
          (Utf8.encode_append_cons (by decide) line rest).symm
        _ = Utf8.encode ((line :: lines).flatMap (· ++ text "\n")) := by simp [rest]

section

variable {files : FileSystem} {directory : Path} {clock : Clock} {file : Text}
  {options : Options}

/-- How a session goes that stores its report. -/
theorem run_of_stored {value : Json} {out : Text} {after : FileSystem}
    (accepted : Accepted files (Path.resolve directory file) value)
    (asked : options.out = some out) (named : out ≠ [])
    (stored : files.store (Path.resolve directory out) (reportContent clock options value)
      = (after, .ok ()))
    : run files directory clock file options
      = (⟨0, shown clock options value,
          printed [text "Report written to: " ++ (Path.resolve directory out).text]⟩, after) := by
  have ran := run_of_accepted accepted clock asked named
  simp only [stored] at ran
  exact ran

end

/-- The ways to put out one review agree. Where the report is stored, with JSON or without it, the
report file holds what is printed with JSON; the file system is the same without JSON; and what is
printed without JSON are the lines that the JSON report stands for.
-/
theorem modes_agree (files : FileSystem) (directory : Path) (clock : Clock) (file : Text)
    (pretty : Option Pretty) {out : Text} (named : out ≠ []) (json : Bool)
    (success : (run files directory clock file ⟨json, pretty, some out⟩).1.exitCode = 0)
    : let asJson := run files directory clock file ⟨true, pretty, some out⟩
      let asText := run files directory clock file ⟨false, pretty, some out⟩
      asJson.2.read (Path.resolve directory out) = .ok asJson.1.stdout
      ∧ asText.2 = asJson.2
      ∧ ∃ report lines,
          Json.read (Utf8.decode asJson.1.stdout) = .ok report
          ∧ report.reportLines? = some lines
          ∧ asText.1.stdout = Utf8.encode (lines.flatMap (· ++ text "\n")) := by
  obtain ⟨value, accepted, stored⟩ :=
    (ending files directory clock file ⟨json, pretty, some out⟩).exists_stored rfl named success
  generalize (perform files directory clock file ⟨json, pretty, some out⟩).2 = after at stored
  -- The content of the report file depends on the layout, and not on what is shown.
  have delivered (shows : Bool)
      : run files directory clock file ⟨shows, pretty, some out⟩
        = (⟨0, shown clock ⟨shows, pretty, some out⟩ value,
            printed [text "Report written to: " ++ (Path.resolve directory out).text]⟩, after) :=
    run_of_stored accepted rfl named stored
  have content
      : shown clock ⟨true, pretty, some out⟩ value
        = reportContent clock ⟨json, pretty, some out⟩ value :=
    shown_of_json clock rfl value
  simp only [delivered, content]
  exact ⟨FileSystem.read_of_store stored, trivial, _, _, read_decode_fileContent _ _,
    Report.reportLines?_toJson _, printed_eq_encode _⟩

/-- A session on the desk, with an indent of four, that shows JSON and one that shows lines. -/
theorem desk_modes_agree
    : let asJson := run desk [] ⟨0, [7]⟩ (text "in.json")
        ⟨true, some (.width (text "4")), some (text "out/report")⟩
      let asText := run desk [] ⟨0, [7]⟩ (text "in.json")
        ⟨false, some (.width (text "4")), some (text "out/report")⟩
      asText.1.exitCode = 0
      ∧ asJson.2.read (Path.resolve [] (text "out/report")) = .ok asJson.1.stdout
      ∧ asText.2 = asJson.2
      ∧ ∃ report lines,
          Json.read (Utf8.decode asJson.1.stdout) = .ok report
          ∧ report.reportLines? = some lines
          ∧ asText.1.stdout = Utf8.encode (lines.flatMap (· ++ text "\n")) := by
  have success
      : (run desk [] ⟨0, [7]⟩ (text "in.json")
          ⟨false, some (.width (text "4")), some (text "out/report")⟩).1.exitCode = 0 := by
    decide +kernel
  exact ⟨success, modes_agree desk [] ⟨0, [7]⟩ (text "in.json") _ (by decide) false success⟩

/-- A report survives its way through text and file. For every value that is accepted, the report
can be read from its text, from every file that the text is stored in, and from what a session prints
about an input that holds the value.
-/
theorem report_survives {value : Json} {forest : List Declaration}
    (accepted : Declaration.read (some value) = .ok forest) (clock : Clock) (options : Options)
    : let review := quietReview clock (some value)
      review.report
        = ⟨true, [], (Survey.advisories [] forest).map Advisory.entry, clock.elapsed⟩
      ∧ review.report.ReadFrom (reportText options review)
      ∧ (∀ (files after : FileSystem) (target : Path),
          files.store target (fileContent (reportText options review)) = (after, .ok ())
          → ∃ content,
              after.read target = .ok content ∧ review.report.ReadFrom (Utf8.decode content))
      ∧ (∀ (files : FileSystem) (directory : Path) (file : Text),
          Accepted files (Path.resolve directory file) value
          → options.json = true
          → Utf8.decode (run files directory clock file options).1.stdout
              = reportText options review ++ text "\n"
            ∧ review.report.ReadFrom
                (Utf8.decode (run files directory clock file options).1.stdout)) := by
  intro review
  have read_file := Report.readFrom_of_read (read_decode_fileContent options review)
  refine ⟨?_, ?_, ?_, ?_⟩
  · simp [review, quietReview_of_ok clock accepted, Review.report]
  · exact Report.readFrom_of_read (read_reportText_alone options review)
  · intro files after target stored
    exact ⟨_, FileSystem.read_of_store stored, read_file⟩
  · intro files directory file held json
    have stdout
        : (run files directory clock file options).1.stdout
          = fileContent (reportText options review) :=
      (stdout_of_accepted held clock options).trans (shown_of_json clock json value)
    rw [stdout]
    exact ⟨decode_fileContent options review, read_file⟩

/-- A class with an odd name: a lone surrogate, a quote, a backslash, a line feed, a line separator
and a pair.
-/
def oddInput : Json :=
  .array [.object [
    (text "kind", .string (text "class")),
    (text "simple_name", .string [0xD800, 0x22, 0x5C, 0x0A, 0x2028, 0xD83D, 0xDE00])
  ]]

/-- A file system that holds the odd input. -/
def oddDesk : FileSystem :=
  ⟨[(Utf8.encode (text "odd.json"), .file (Utf8.encode (oddInput.write 0)))]⟩

theorem oddDesk_accepted : Accepted oddDesk (Path.resolve [] (text "odd.json")) oddInput := by
  have canonical : oddInput.Canonical :=
    .array (List.forall_mem_singleton.mpr
      (.object (by decide) (by simp [Json.Canonical.string])))
  have parsed := Json.read_decode_encode_write canonical 0
  have valid : (Declaration.read (some oddInput)).isOk := by decide +kernel
  cases read : Declaration.read (some oddInput) with
  | error issues =>
      rw [read] at valid
      contradiction
  | ok forest => exact ⟨_, forest, rfl, parsed, read⟩

/-- The odd name, and a time that is negative, come out of text, file and print as they are. -/
theorem oddInput_survives
    : let review := quietReview ⟨9, [2]⟩ (some oddInput)
      let options : Options := ⟨true, none, none⟩
      review.report.elapsed = -7
      ∧ review.report.advisories.map (·.name)
        = [[0xD800, 0x22, 0x5C, 0x0A, 0x2028, 0xD83D, 0xDE00]]
      ∧ review.report.ReadFrom (reportText options review)
      ∧ (∃ after content,
          oddDesk.store [[0x61], [0x62]] (fileContent (reportText options review))
            = (after, .ok ())
          ∧ after.read [[0x61], [0x62]] = .ok content
          ∧ review.report.ReadFrom (Utf8.decode content))
      ∧ review.report.ReadFrom
          (Utf8.decode (run oddDesk [] ⟨9, [2]⟩ (text "odd.json") options).1.stdout) := by
  intro review options
  obtain ⟨bytes, forest, content, parsed, read⟩ := oddDesk_accepted
  obtain ⟨-, from_text, from_file, from_print⟩ := report_survives read ⟨9, [2]⟩ options
  have stored
      : oddDesk.store [[0x61], [0x62]] (fileContent (reportText options review))
        = ((oddDesk.store [[0x61], [0x62]] (fileContent (reportText options review))).1,
          .ok ()) := by
    refine Prod.ext rfl ?_
    decide +kernel
  obtain ⟨content', read', held⟩ := from_file _ _ _ stored
  exact ⟨by decide +kernel, by decide +kernel, from_text, ⟨_, content', stored, read', held⟩,
    (from_print _ _ _ oddDesk_accepted rfl).2⟩

end Session

end NamingAdvice
