import NamingAdvice.Proofs.Json.Layout
import NamingAdvice.Proofs.Session.Ending

/-! What the layout of a report and the clock have to do with the end of a session: nothing but the
blanks of the report and the time in it.
-/

namespace NamingAdvice

/-- Two objects with the same members in the same order, but for the values under one key. -/
def Json.SameBut (key : Text) (left right : Json) : Prop :=
  ∃ before after mine yours,
    left = .object (before ++ (key, mine) :: after)
    ∧ right = .object (before ++ (key, yours) :: after)

/-- Reports at different times differ in the member for the time. -/
theorem Report.sameBut_toJson (report : Report) (elapsed : Int)
    : Json.SameBut (text "time_ms") report.toJson { report with elapsed }.toJson :=
  ⟨[(text "ok", .bool report.ok),
      (text "errors", .array (report.errors.map InputError.toJson)),
      (text "advisories", .array (report.advisories.map Report.Entry.toJson))],
    [], .number (.ofInt report.elapsed), .number (.ofInt elapsed), rfl, rfl⟩

namespace Session

open CommandLine (Options Pretty)
open FileSystem (Path Fault)

/-- Octets that are read as a value and hold its text, with up to ten spaces for each level. -/
def LaidOut (value : Json) (octets : Bytes) : Prop :=
  Json.read (Utf8.decode octets) = .ok value
  ∧ ∃ unit ≤ 10, Utf8.decode octets = value.write unit ++ text "\n"

/-- Two reports that may differ in their blanks and in their time. -/
structure Relaid (clock clock' : Clock) (left right : Bytes) : Prop where
  values
    : ∃ value value',
        LaidOut value left
        ∧ LaidOut value' right
        ∧ Json.SameBut (text "time_ms") value value'
  texts
    : clock.elapsed = clock'.elapsed
      → Json.unspaced (Utf8.decode left) = Json.unspaced (Utf8.decode right)

-----------------------------------------------------------------------------------------
-- One report
-----------------------------------------------------------------------------------------

theorem indent_le (options : Options) : options.indent ≤ 10 := by
  unfold Options.indent
  split
  · exact Nat.min_le_left _ _
  · decide

theorem laidOut_reportContent (clock : Clock) (options : Options) (value : Json)
    : LaidOut (quietReview clock (some value)).report.toJson
        (reportContent clock options value) :=
  ⟨read_decode_fileContent options _, options.indent, indent_le options,
    decode_fileContent options _⟩

theorem LaidOut.unspaced_eq {value : Json} {octets : Bytes} (h : LaidOut value octets)
    : Json.unspaced (Utf8.decode octets) = value.write 0 := by
  obtain ⟨-, unit, -, written⟩ := h
  rw [written]
  exact Json.unspaced_write unit value (List.all_eq_true.mp (by decide))

theorem Accepted.relaid {files : FileSystem} {input : Path} {value : Json}
    (accepted : Accepted files input value) (clock clock' : Clock) (options options' : Options)
    : Relaid clock clock' (reportContent clock options value)
        (reportContent clock' options' value) := by
  obtain ⟨bytes, forest, -, -, read⟩ := accepted
  have mine := laidOut_reportContent clock options value
  have yours := laidOut_reportContent clock' options' value
  refine ⟨⟨_, _, mine, yours, ?_⟩, ?_⟩
  · rw [quietReview_of_ok clock read, quietReview_of_ok clock' read]
    exact Report.sameBut_toJson _ clock'.elapsed
  · intro same
    rw [mine.unspaced_eq, yours.unspaced_eq, quietReview_of_ok clock read,
      quietReview_of_ok clock' read, same]

-----------------------------------------------------------------------------------------
-- Two sessions
-----------------------------------------------------------------------------------------

/-- Two ends of a session that differ in what is shown and in the content of one file, if at all. -/
structure Alike (target : Option Path) (left right : Outcome × FileSystem) : Prop where
  exitCode_eq : left.1.exitCode = right.1.exitCode
  stderr_eq : left.1.stderr = right.1.stderr
  files_eq : left.1.exitCode ≠ 0 → left.2 = right.2
  nodeAt?_eq : ∀ path, target ≠ some path → left.2.nodeAt? path = right.2.nodeAt? path

theorem alike_of_same {target : Option Path} (files : FileSystem) (exitCode : Nat)
    (stdout stdout' stderr : Bytes)
    : Alike target (⟨exitCode, stdout, stderr⟩, files) (⟨exitCode, stdout', stderr⟩, files) :=
  ⟨rfl, rfl, fun _ => rfl, fun _ _ => rfl⟩

theorem alike_of_storedAlike {target : Path} {left right : FileSystem × Except Fault Unit}
    (stored : FileSystem.StoredAlike target left right) (input : Path)
    (names lines lines' : List Text)
    : Alike (some target) ((delivered input target names lines left.2).outcome, left.1)
        ((delivered input target names lines' right.2).outcome, right.1) := by
  cases stored with
  | failed after fault => exact alike_of_same after 1 _ _ _
  | written elsewhere =>
      exact ⟨rfl, rfl, fun failed => absurd rfl failed,
        fun path differ => elsewhere path (fun same => differ (congrArg some same.symm))⟩

theorem alike_run (files : FileSystem) (directory : Path) (file : Text) (json : Bool)
    (out : Option Text) (pretty pretty' : Option Pretty) (clock clock' : Clock)
    : Alike (out.map (Path.resolve directory))
        (run files directory clock file ⟨json, pretty, out⟩)
        (run files directory clock' file ⟨json, pretty', out⟩) := by
  rcases refusal_or_accepted files directory file with ⟨lines, refusal⟩ | ⟨value, accepted⟩
  · rw [run_of_refusal refusal, run_of_refusal refusal]
    exact alike_of_same files 1 [] [] _
  · by_cases unasked : out = none ∨ out = some []
    · rw [run_of_unasked accepted clock unasked, run_of_unasked accepted clock' unasked]
      exact alike_of_same files 0 _ _ []
    · obtain ⟨target, rfl, named⟩ := exists_target unasked
      rw [run_of_accepted accepted clock rfl named, run_of_accepted accepted clock' rfl named]
      exact alike_of_storedAlike (FileSystem.storedAlike files _ _ _) _ _ _ _

theorem stdout_eq_of_lines (files : FileSystem) (directory : Path) (file : Text)
    (out : Option Text) (pretty pretty' : Option Pretty) (clock clock' : Clock)
    : (run files directory clock file ⟨false, pretty, out⟩).1.stdout
      = (run files directory clock' file ⟨false, pretty', out⟩).1.stdout := by
  rcases refusal_or_accepted files directory file with ⟨lines, refusal⟩ | ⟨value, accepted⟩
  · rw [run_of_refusal refusal, run_of_refusal refusal]
  · rw [stdout_of_accepted accepted clock, stdout_of_accepted accepted clock']
    obtain ⟨bytes, forest, -, -, read⟩ := accepted
    simp only [shown, shownLines, quietReview_of_ok clock read, quietReview_of_ok clock' read]
    rfl

/-- Layout and clock. For two layouts and two clocks a session ends with the same exit code, says
the same, shows the same lines and leaves the same behind, but for the content of the report. The
report, shown as JSON or written, is the same in everything but the time; where the clocks tell
the same time its texts are the same without their blanks; and each level has at most ten spaces.
-/
theorem run_layout (files : FileSystem) (directory : Path) (file : Text) (json : Bool)
    (out : Option Text) (pretty pretty' : Option Pretty) (clock clock' : Clock)
    : let ended := run files directory clock file ⟨json, pretty, out⟩
      let ended' := run files directory clock' file ⟨json, pretty', out⟩
      Alike (out.map (Path.resolve directory)) ended ended'
      ∧ (json = false → ended.1.stdout = ended'.1.stdout)
      ∧ (json = true
        → ended.1.stdout = [] ∧ ended'.1.stdout = []
          ∨ Relaid clock clock' ended.1.stdout ended'.1.stdout)
      ∧ (∀ target, out = some target → target ≠ [] → ended.1.exitCode = 0
        → ∃ content content',
            ended.2.read (Path.resolve directory target) = .ok content
            ∧ ended'.2.read (Path.resolve directory target) = .ok content'
            ∧ Relaid clock clock' content content') := by
  intro ended ended'
  have alike : Alike (out.map (Path.resolve directory)) ended ended' :=
    alike_run files directory file json out pretty pretty' clock clock'
  refine ⟨alike, ?_, ?_, ?_⟩
  · intro lines
    subst lines
    exact stdout_eq_of_lines files directory file out pretty pretty' clock clock'
  · intro shows
    rcases refusal_or_accepted files directory file with ⟨lines, refusal⟩ | ⟨value, accepted⟩
    · left
      simp only [ended, ended', run_of_refusal refusal, and_self]
    · right
      have mine : ended.1.stdout = reportContent clock ⟨json, pretty, out⟩ value :=
        (stdout_of_accepted accepted clock _).trans (shown_of_json clock shows value)
      have yours : ended'.1.stdout = reportContent clock' ⟨json, pretty', out⟩ value :=
        (stdout_of_accepted accepted clock' _).trans (shown_of_json clock' shows value)
      rw [mine, yours]
      exact accepted.relaid clock clock' _ _
  · intro target asked named success
    have success' : ended'.1.exitCode = 0 := alike.exitCode_eq ▸ success
    obtain ⟨value, accepted, stored⟩ :=
      (ending files directory clock file ⟨json, pretty, out⟩).exists_stored asked named success
    obtain ⟨value', accepted', stored'⟩ :=
      (ending files directory clock' file ⟨json, pretty', out⟩).exists_stored asked named success'
    obtain rfl := accepted.unique accepted'
    exact ⟨_, _, FileSystem.read_of_store stored, FileSystem.read_of_store stored',
      accepted.relaid clock clock' _ _⟩

/-- The desk with no indent and with the usual one, by a clock that goes on and by one that
stands.
-/
theorem desk_layout
    : let ended := run desk [] ⟨0, [7]⟩ (text "in.json")
        ⟨true, some (.width (text "0")), some (text "out/report")⟩
      let ended' := run desk [] ⟨3, []⟩ (text "in.json")
        ⟨true, none, some (text "out/report")⟩
      ended.1.exitCode = 0
      ∧ ended.1.stdout ≠ ended'.1.stdout
      ∧ Alike (some (Path.resolve [] (text "out/report"))) ended ended'
      ∧ Relaid ⟨0, [7]⟩ ⟨3, []⟩ ended.1.stdout ended'.1.stdout
      ∧ ∃ content content',
          ended.2.read (Path.resolve [] (text "out/report")) = .ok content
          ∧ ended'.2.read (Path.resolve [] (text "out/report")) = .ok content'
          ∧ Relaid ⟨0, [7]⟩ ⟨3, []⟩ content content' := by
  obtain ⟨alike, -, shows, written⟩ :=
    run_layout desk [] (text "in.json") true (some (text "out/report"))
      (some (.width (text "0"))) none ⟨0, [7]⟩ ⟨3, []⟩
  have success
      : (run desk [] ⟨0, [7]⟩ (text "in.json")
          ⟨true, some (.width (text "0")), some (text "out/report")⟩).1.exitCode = 0 := by
    decide +kernel
  have differ
      : (run desk [] ⟨0, [7]⟩ (text "in.json")
            ⟨true, some (.width (text "0")), some (text "out/report")⟩).1.stdout
        ≠ (run desk [] ⟨3, []⟩ (text "in.json")
            ⟨true, none, some (text "out/report")⟩).1.stdout := by
    decide +kernel
  refine ⟨success, differ, alike, ?_, written _ rfl (by decide) success⟩
  exact (shows rfl).resolve_left (fun none => differ (none.1.trans none.2.symm))

end Session

end NamingAdvice
