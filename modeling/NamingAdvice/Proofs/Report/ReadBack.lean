import NamingAdvice.Session
import NamingAdvice.Proofs.Json.ReadBack

/-! A report is not lost on its way through text and octets. Its JSON value says all of it, the text
of that value is read as the value again, and so is the content of a file that holds the text.
-/

namespace NamingAdvice

-----------------------------------------------------------------------------------------
-- The JSON value of a report
-----------------------------------------------------------------------------------------

theorem Severity.label_injective : Function.Injective Severity.label := by
  intro left right h
  cases left <;> cases right <;> first | rfl | exact absurd h (by decide)

theorem InputError.toJson_injective : Function.Injective InputError.toJson := by
  intro left right h
  obtain ⟨code, path, message, hint⟩ := left
  obtain ⟨code', path', message', hint'⟩ := right
  cases hint with
  | none =>
      cases hint' with
      | none => simpa [InputError.toJson] using h
      | some given => simp [InputError.toJson] at h
  | some hint =>
      cases hint' with
      | none => simp [InputError.toJson] at h
      | some given => simpa [InputError.toJson, and_assoc] using h

theorem Report.Entry.toJson_injective : Function.Injective Report.Entry.toJson := by
  intro left right h
  obtain ⟨severity, code, path, name, message⟩ := left
  obtain ⟨severity', code', path', name', message'⟩ := right
  obtain ⟨label, rest⟩
      : severity.label = severity'.label
        ∧ code = code' ∧ path = path' ∧ name = name' ∧ message = message' := by
    simpa [Report.Entry.toJson] using h
  obtain rfl := Severity.label_injective label
  simpa using rest

theorem Report.toJson_injective : Function.Injective Report.toJson := by
  intro left right h
  obtain ⟨ok, errors, advisories, elapsed⟩ := left
  obtain ⟨ok', errors', advisories', elapsed'⟩ := right
  obtain ⟨same, wrong, advised, time⟩
      : ok = ok'
        ∧ errors.map InputError.toJson = errors'.map InputError.toJson
        ∧ advisories.map Report.Entry.toJson = advisories'.map Report.Entry.toJson
        ∧ Decimal.ofInt elapsed = Decimal.ofInt elapsed' := by
    simpa [Report.toJson] using h
  obtain rfl := List.map_injective_iff.mpr InputError.toJson_injective wrong
  obtain rfl := List.map_injective_iff.mpr Report.Entry.toJson_injective advised
  obtain rfl := Decimal.ofInt_injective time
  rw [same]

/-- A text is read as the JSON value of this report, and of no other. -/
def Report.ReadFrom (report : Report) (source : Text) : Prop :=
  ∀ other : Report, Json.read source = .ok other.toJson ↔ other = report

theorem Report.readFrom_of_read {report : Report} {source : Text}
    (h : Json.read source = .ok report.toJson)
    : report.ReadFrom source := by
  intro other
  rw [h, Except.ok.injEq]
  exact ⟨fun same => (Report.toJson_injective same).symm, fun same => congrArg _ same.symm⟩

theorem InputError.canonical_toJson (error : InputError) : error.toJson.Canonical := by
  obtain ⟨code, path, message, hint⟩ := error
  refine .object ?_ ?_
  · cases hint with
    | none => exact (by decide : [text "code", text "path", text "message"].Nodup)
    | some hint =>
        exact (by decide : [text "code", text "path", text "message", text "hint"].Nodup)
  · cases hint <;> simp [Json.Canonical.string]

theorem Report.Entry.canonical_toJson (entry : Report.Entry) : entry.toJson.Canonical := by
  refine .object ?_ ?_
  · exact (by decide
      : [text "severity", text "code", text "path", text "name", text "message"].Nodup)
  · simp [Json.Canonical.string]

/-- The JSON value of a report is one that is read as it was written. -/
theorem Report.canonical_toJson (report : Report) : report.toJson.Canonical := by
  refine .object ?_ ?_
  · exact (by decide : [text "ok", text "errors", text "advisories", text "time_ms"].Nodup)
  · have errors : (Json.array (report.errors.map InputError.toJson)).Canonical :=
      .array (List.forall_mem_map.mpr (fun error _ => error.canonical_toJson))
    have advisories : (Json.array (report.advisories.map Report.Entry.toJson)).Canonical :=
      .array (List.forall_mem_map.mpr (fun entry _ => entry.canonical_toJson))
    simp [Json.Canonical.bool, errors, advisories,
      Json.Canonical.number (Decimal.canonical_ofInt report.elapsed)]

-----------------------------------------------------------------------------------------
-- The text of a report
-----------------------------------------------------------------------------------------

theorem Json.getLast?_write_object (indent : Nat) (members : List (Text × Json))
    : ((Json.object members).write indent).getLast? = some 0x7D := by
  cases members with
  | nil => rfl
  | cons member members => simp [Json.write, Json.writeAt, List.getLast?_cons]

namespace Session

open CommandLine (Options)

theorem paired_reportText (options : Options) (review : Review)
    : (reportText options review).Paired :=
  Json.paired_writeAt options.indent 0 _

/-- The text of a report, with blanks behind it or not, is read as the value of the report. -/
theorem read_reportText (options : Options) (review : Review) {blanks : Text}
    (h : ∀ unit ∈ blanks, Json.Token.isBlank unit = true)
    : Json.read (reportText options review ++ blanks) = .ok review.report.toJson :=
  Json.read_write review.report.canonical_toJson options.indent h

theorem read_reportText_alone (options : Options) (review : Review)
    : Json.read (reportText options review) = .ok review.report.toJson := by
  have read := read_reportText options review (List.forall_mem_nil _)
  rwa [List.append_nil] at read

theorem getLast?_reportText (options : Options) (review : Review)
    : (reportText options review).getLast? = some 0x7D :=
  Json.getLast?_write_object options.indent _

/-- A report does not end its last line, so the file ends it. -/
theorem fileContent_reportText (options : Options) (review : Review)
    : fileContent (reportText options review)
      = Utf8.encode (reportText options review ++ text "\n") := by
  simp [fileContent, getLast?_reportText]

/-- What is printed of a report in JSON is the content of a report file. -/
theorem printed_reportText (options : Options) (review : Review)
    : printed [reportText options review] = fileContent (reportText options review) := by
  simp [printed, fileContent_reportText]

theorem encode_line (line : Text) : Utf8.encode (line ++ text "\n") = Utf8.encode line ++ [0x0A] :=
  Utf8.encode_append_cons (by decide) line []

/-- A report file loses nothing of the text. -/
theorem decode_fileContent (options : Options) (review : Review)
    : Utf8.decode (fileContent (reportText options review))
      = reportText options review ++ text "\n" := by
  rw [fileContent_reportText]
  exact Utf8.decode_encode ((paired_reportText options review).append (Utf8.paired_text "\n"))

/-- The content of a report file is read as the value of the report. -/
theorem read_decode_fileContent (options : Options) (review : Review)
    : Json.read (Utf8.decode (fileContent (reportText options review)))
      = .ok review.report.toJson := by
  rw [decode_fileContent]
  exact read_reportText options review (List.all_eq_true.mp (by decide))

end Session

end NamingAdvice
