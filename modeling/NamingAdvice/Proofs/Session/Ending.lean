import NamingAdvice.Proofs.FileSystem.Store
import NamingAdvice.Proofs.Report.ReadBack
import NamingAdvice.Proofs.Review.Delivery

/-! How a session can end: its input is refused, or the review of it is shown, and then a report
is not asked for, is written, or cannot be written. The exit code and what is printed tell these
ends apart, and only an input that is not there is called missing.
-/

namespace NamingAdvice.Session

open CommandLine (Options)
open FileSystem (Path Fault)

/-- The input can be read, is JSON and is a forest. -/
def Accepted (files : FileSystem) (input : Path) (value : Json) : Prop :=
  ∃ bytes forest,
    files.read input = .ok bytes
    ∧ Json.read (Utf8.decode bytes) = .ok value
    ∧ Declaration.read (some value) = .ok forest

/-- The input is not accepted, and these lines say why. -/
inductive Refusal (files : FileSystem) (directory : Path) (file : Text) : List Text → Prop where
  | unread {fault : Fault} (failed : files.read (Path.resolve directory file) = .error fault)
      : Refusal files directory file
          [faultLine (Path.resolve directory file) (Path.written directory file) fault]
  | unparsed {bytes : Bytes} {mistake : Json.Mistake}
      (content : files.read (Path.resolve directory file) = .ok bytes)
      (failed : Json.read (Utf8.decode bytes) = .error mistake)
      : Refusal files directory file
          [unreadable (Path.resolve directory file) ++ mistake.message]
  | rejected {bytes : Bytes} {value : Json} {issues : List Issue}
      (content : files.read (Path.resolve directory file) = .ok bytes)
      (parsed : Json.read (Utf8.decode bytes) = .ok value)
      (failed : Declaration.read (some value) = .error issues)
      : Refusal files directory file (rejection (issues.map InputError.ofIssue))

/-- What is shown of an accepted value. -/
def shown (clock : Clock) (options : Options) (value : Json) : Bytes :=
  printed (shownLines options (quietReview clock (some value)))

/-- The content of the report file on an accepted value. -/
def reportContent (clock : Clock) (options : Options) (value : Json) : Bytes :=
  fileContent (reportText options (quietReview clock (some value)))

/-- All ends of a session. -/
inductive Ending (files : FileSystem) (directory : Path) (clock : Clock) (file : Text)
    (options : Options)
    : Transcript × FileSystem → Prop where
  | refused {lines : List Text} (refusal : Refusal files directory file lines)
      : Ending files directory clock file options (⟨1, [], lines⟩, files)
  | presented {value : Json} (accepted : Accepted files (Path.resolve directory file) value)
      (unasked : options.out = none ∨ options.out = some [])
      : Ending files directory clock file options
          (⟨0, shownLines options (quietReview clock (some value)), []⟩, files)
  | delivered {value : Json} {out : Text} {after : FileSystem}
      (accepted : Accepted files (Path.resolve directory file) value)
      (asked : options.out = some out) (named : out ≠ [])
      (stored : files.store (Path.resolve directory out) (reportContent clock options value)
        = (after, .ok ()))
      : Ending files directory clock file options
          (⟨0, shownLines options (quietReview clock (some value)),
            [text "Report written to: " ++ (Path.resolve directory out).text]⟩, after)
  | undelivered {value : Json} {out : Text} {after : FileSystem} {fault : Fault}
      (accepted : Accepted files (Path.resolve directory file) value)
      (asked : options.out = some out) (named : out ≠ [])
      (failed : files.store (Path.resolve directory out) (reportContent clock options value)
        = (after, .error fault))
      : Ending files directory clock file options
          (⟨1, shownLines options (quietReview clock (some value)),
            [faultLine (Path.resolve directory file) (Path.written directory out) fault]⟩, after)

-----------------------------------------------------------------------------------------
-- How a session goes
-----------------------------------------------------------------------------------------

theorem refusal_or_accepted (files : FileSystem) (directory : Path) (file : Text)
    : (∃ lines, Refusal files directory file lines)
      ∨ ∃ value, Accepted files (Path.resolve directory file) value := by
  cases content : files.read (Path.resolve directory file) with
  | error fault => exact .inl ⟨_, .unread content⟩
  | ok bytes =>
      cases parsed : Json.read (Utf8.decode bytes) with
      | error mistake => exact .inl ⟨_, .unparsed content parsed⟩
      | ok value =>
          cases read : Declaration.read (some value) with
          | error issues => exact .inl ⟨_, .rejected content parsed read⟩
          | ok forest => exact .inr ⟨value, bytes, forest, content, parsed, read⟩

section

variable {files : FileSystem} {directory : Path} {file : Text} {value : Json}

/-- An input is refused whatever the options and the clock. -/
theorem perform_of_refusal {lines : List Text} (refusal : Refusal files directory file lines)
    (clock : Clock) (options : Options)
    : perform files directory clock file options = (⟨1, [], lines⟩, files) := by
  cases refusal with
  | unread failed => simp [perform, inputValue, failed, Session.refused]
  | unparsed content failed =>
      simp [perform, inputValue, content, failed, Except.mapError, Session.refused]
  | rejected content parsed failed =>
      simp [perform, inputValue, content, parsed, Except.mapError,
        quietReview_of_error clock failed, plan, Plan.run, Session.refused]

theorem perform_of_unasked (accepted : Accepted files (Path.resolve directory file) value)
    (clock : Clock) {options : Options} (unasked : options.out = none ∨ options.out = some [])
    : perform files directory clock file options
      = (⟨0, shownLines options (quietReview clock (some value)), []⟩, files) := by
  obtain ⟨bytes, forest, content, parsed, read⟩ := accepted
  have target : options.target? = none := by
    rcases unasked with none | empty
    · simp [Options.target?, none]
    · simp [Options.target?, empty]
  simp [perform, inputValue, content, parsed, Except.mapError, quietReview_of_ok clock read, plan,
    target, Plan.run, Session.presented]

/-- How a session goes that has a report to store, whether it can be stored or not. -/
theorem perform_of_accepted (accepted : Accepted files (Path.resolve directory file) value)
    (clock : Clock) {options : Options} {out : Text} (asked : options.out = some out)
    (named : out ≠ [])
    : let stored := files.store (Path.resolve directory out) (reportContent clock options value)
      perform files directory clock file options
        = (Session.delivered (Path.resolve directory file) (Path.resolve directory out)
            (Path.written directory out) (shownLines options (quietReview clock (some value)))
            stored.2, stored.1) := by
  obtain ⟨bytes, forest, content, parsed, read⟩ := accepted
  have ok : (quietReview clock (some value)).ok = true := by rw [quietReview_of_ok clock read]
  have target : options.target? = some out := by simp [Options.target?, asked, named]
  simp only [perform, inputValue, content, parsed, Except.mapError, plan, ok, if_true, target,
    Plan.run]
  rfl

theorem run_of_refusal {lines : List Text} (refusal : Refusal files directory file lines)
    (clock : Clock) (options : Options)
    : run files directory clock file options = (⟨1, [], printed lines⟩, files) := by
  rw [run, perform_of_refusal refusal]
  rfl

theorem run_of_unasked (accepted : Accepted files (Path.resolve directory file) value)
    (clock : Clock) {options : Options} (unasked : options.out = none ∨ options.out = some [])
    : run files directory clock file options = (⟨0, shown clock options value, []⟩, files) := by
  rw [run, perform_of_unasked accepted clock unasked]
  rfl

theorem run_of_accepted (accepted : Accepted files (Path.resolve directory file) value)
    (clock : Clock) {options : Options} {out : Text} (asked : options.out = some out)
    (named : out ≠ [])
    : let stored := files.store (Path.resolve directory out) (reportContent clock options value)
      run files directory clock file options
        = ((Session.delivered (Path.resolve directory file) (Path.resolve directory out)
            (Path.written directory out) (shownLines options (quietReview clock (some value)))
            stored.2).outcome, stored.1) := by
  rw [run, perform_of_accepted accepted clock asked named]

end

theorem exists_target {out : Option Text} (asked : ¬ (out = none ∨ out = some []))
    : ∃ target, out = some target ∧ target ≠ [] := by
  obtain ⟨something, named⟩ := not_or.mp asked
  obtain ⟨target, given⟩ := Option.ne_none_iff_exists'.mp something
  exact ⟨target, given, fun empty => named (by rw [given, empty])⟩

/-- Every session comes to one of the ends. -/
theorem ending (files : FileSystem) (directory : Path) (clock : Clock) (file : Text)
    (options : Options)
    : Ending files directory clock file options
        (perform files directory clock file options) := by
  rcases refusal_or_accepted files directory file with ⟨lines, refusal⟩ | ⟨value, accepted⟩
  · rw [perform_of_refusal refusal]
    exact .refused refusal
  · by_cases unasked : options.out = none ∨ options.out = some []
    · rw [perform_of_unasked accepted clock unasked]
      exact .presented accepted unasked
    · obtain ⟨out, asked, named⟩ := exists_target unasked
      rw [perform_of_accepted accepted clock asked named]
      cases stored : files.store (Path.resolve directory out)
          (reportContent clock options value) with
      | mk after result =>
          cases result with
          | ok done => exact .delivered accepted asked named stored
          | error fault => exact .undelivered accepted asked named stored

-----------------------------------------------------------------------------------------
-- What is printed
-----------------------------------------------------------------------------------------

theorem printed_cons (line : Text) (lines : List Text)
    : printed (line :: lines) = Utf8.encode line ++ 0x0A :: printed lines := by
  simp [printed, encode_line]

theorem printed_eq_nil_iff {lines : List Text} : printed lines = [] ↔ lines = [] := by
  cases lines with
  | nil => simp [printed]
  | cons line lines => simp [printed_cons]

theorem shownLines_ne_nil (options : Options) (review : Review)
    : shownLines options review ≠ [] := by
  unfold shownLines
  split <;> simp [Report.lines]

/-- Two starts of which neither goes on as the other are not starts of one list. -/
theorem not_prefix_append {α : Type} {start front : List α}
    (apart : ¬ start <+: front ∧ ¬ front <+: start) (rest : List α)
    : ¬ start <+: front ++ rest := by
  intro starts
  rcases List.prefix_or_prefix_of_prefix starts (List.prefix_append front rest) with h | h
  · exact apart.1 h
  · exact apart.2 h

/-- The words that call an input missing are at the start of what is printed exactly if they are at
the start of the first line.
-/
theorem not_found_printed_iff (lines : List Text)
    : Utf8.encode (text "❌ Not found") <+: printed lines
      ↔ ∃ line ∈ lines.head?, text "❌ Not found" <+: line := by
  cases lines with
  | nil =>
      simp only [List.head?_nil, Option.not_mem_none, false_and, exists_false, iff_false]
      decide
  | cons line lines =>
      have own
          : (text "❌ Not found").all
              (fun unit => decide (unit.IsPlain ∧ unit ≠ 0xFFFD ∧ unit ≠ 0x0A)) = true := by
        decide
      rw [printed_cons,
        Utf8.encode_prefix_iff (fun unit mem => by simpa using List.all_eq_true.mp own unit mem)]
      simp

theorem not_found_prefix (rest : Text)
    : text "❌ Not found" <+: text "❌ Not found: " ++ rest := by
  have start : text "❌ Not found" <+: text "❌ Not found: " := by decide
  exact start.trans (List.prefix_append _ _)

theorem not_found_faultLine_iff (input : Path) (names : List Text) (fault : Fault)
    : text "❌ Not found" <+: faultLine input names fault ↔ fault.cause = .noEntry := by
  by_cases missing : fault.cause = .noEntry
  · simp only [faultLine, missing, if_true, iff_true]
    exact not_found_prefix _
  · simp only [faultLine, missing, if_false, iff_false]
    exact not_prefix_append (by decide) _

theorem not_found_not_summary (count : Nat)
    : ¬ text "❌ Not found" <+: Report.summaryOf count := by
  unfold Report.summaryOf
  split
  · decide
  · decide
  · intro starts
    have mark : 0x274C ∈ Text.ofNat count ++ text " naming advisories" :=
      starts.subset (by decide)
    rcases List.mem_append.mp mark with number | words
    · exact Text.not_mem_ofNat (by decide) count number
    · exact absurd words (by decide)

/-- A line about an accepted input starts with a brace, a severity or the words of the summary. -/
theorem not_found_not_shown (options : Options) (review : Review)
    : ∀ line ∈ shownLines options review, ¬ text "❌ Not found" <+: line := by
  intro line mem
  unfold shownLines at mem
  split at mem
  · obtain rfl := List.mem_singleton.mp mem
    exact not_prefix_append
      (by decide : ¬ text "❌ Not found" <+: [0x7B] ∧ ¬ [0x7B] <+: text "❌ Not found") _
  · rcases List.mem_append.mp mem with advised | last
    · obtain ⟨entry, -, rfl⟩ := List.mem_map.mp advised
      simp only [Report.Entry.line, List.append_assoc]
      cases entry.severity <;> exact not_prefix_append (by decide) _
    · obtain rfl := List.mem_singleton.mp last
      exact not_found_not_summary _

-----------------------------------------------------------------------------------------
-- What the ends have in common
-----------------------------------------------------------------------------------------

/-- The input is not there to be read. -/
def InputMissing (files : FileSystem) (input : Path) : Prop :=
  ∃ fault, files.read input = .error fault ∧ fault.cause = .noEntry

/-- Octets that hold a JSON report of success. -/
def ReportsSuccess (report : Bytes) : Prop :=
  ∃ members,
    Json.read (Utf8.decode report) = .ok (.object members)
    ∧ members.lookup (text "ok") = some (.bool true)
    ∧ members.lookup (text "errors") = some (.array [])

section

variable {files : FileSystem} {directory : Path} {clock : Clock} {file : Text}
  {options : Options} {ended : Transcript × FileSystem}

theorem Accepted.unique {input : Path} {value other : Json}
    (accepted : Accepted files input value) (h : Accepted files input other)
    : value = other := by
  obtain ⟨bytes, forest, content, parsed, -⟩ := accepted
  obtain ⟨bytes', forest', content', parsed', -⟩ := h
  obtain rfl : bytes = bytes' := by simpa [content] using content'
  simpa [parsed] using parsed'

theorem not_missing_of_read {input : Path} {bytes : Bytes}
    (content : files.read input = .ok bytes)
    : ¬ InputMissing files input := by
  intro missing
  obtain ⟨fault, failed, -⟩ := missing
  simp [content] at failed

theorem Accepted.not_missing {input : Path} {value : Json}
    (accepted : Accepted files input value)
    : ¬ InputMissing files input := by
  obtain ⟨bytes, forest, content, -⟩ := accepted
  exact not_missing_of_read content

theorem Refusal.not_accepted {lines : List Text} (refusal : Refusal files directory file lines)
    (value : Json)
    : ¬ Accepted files (Path.resolve directory file) value := by
  intro accepted
  obtain ⟨bytes, forest, content, parsed, read⟩ := accepted
  cases refusal with
  | unread failed => simp [content] at failed
  | unparsed content' failed =>
      obtain rfl := Except.ok.inj (content.symm.trans content')
      simp [parsed] at failed
  | rejected content' parsed' failed =>
      obtain rfl := Except.ok.inj (content.symm.trans content')
      obtain rfl := Except.ok.inj (parsed.symm.trans parsed')
      simp [read] at failed

theorem Refusal.lines_ne_nil {lines : List Text} (refusal : Refusal files directory file lines)
    : lines ≠ [] := by
  cases refusal <;> simp [rejection]

theorem Refusal.not_found_iff {lines : List Text} (refusal : Refusal files directory file lines)
    : (∃ line ∈ lines, text "❌ Not found" <+: line)
      ↔ InputMissing files (Path.resolve directory file) := by
  cases refusal with
  | unread failed => simp [not_found_faultLine_iff, InputMissing, failed]
  | unparsed content failed =>
      simp only [not_missing_of_read content, iff_false, unreadable, List.append_assoc,
        List.mem_singleton, exists_eq_left]
      exact not_prefix_append (by decide) _
  | rejected content parsed failed =>
      simp only [not_missing_of_read content, iff_false, rejection, List.append_assoc]
      intro found
      obtain ⟨line, mem, starts⟩ := found
      rcases List.mem_cons.mp mem with rfl | mem
      · exact not_prefix_append (by decide) _ starts
      · obtain ⟨error, -, rfl⟩ := List.mem_map.mp mem
        exact not_prefix_append (by decide) _ starts

theorem Refusal.lines_of_missing {lines : List Text}
    (refusal : Refusal files directory file lines)
    (missing : InputMissing files (Path.resolve directory file))
    : lines = [text "❌ Not found: " ++ (Path.resolve directory file).text] := by
  cases refusal with
  | unread failed =>
      obtain ⟨fault, failed', cause⟩ := missing
      obtain rfl := Except.error.inj (failed.symm.trans failed')
      simp [faultLine, cause]
  | unparsed content failed => exact absurd missing (not_missing_of_read content)
  | rejected content parsed failed => exact absurd missing (not_missing_of_read content)

theorem shown_of_json (clock : Clock) (json : options.json = true) (value : Json)
    : shown clock options value = reportContent clock options value := by
  simp [shown, shownLines, json, printed_reportText, reportContent]

theorem reportsSuccess_reportContent {input : Path} {value : Json}
    (accepted : Accepted files input value) (clock : Clock) (options : Options)
    : ReportsSuccess (reportContent clock options value) := by
  obtain ⟨bytes, forest, -, -, read⟩ := accepted
  refine ⟨_, read_decode_fileContent options _, ?_, ?_⟩
  · simp [quietReview_of_ok clock read, Review.report]
  · have differ : (text "errors" == text "ok") = false := by decide
    simp [List.lookup_cons, differ, quietReview_of_ok clock read, Review.report]

theorem Ending.exitCode_eq_zero_iff (h : Ending files directory clock file options ended)
    : ended.1.exitCode = 0
      ↔ ∃ value,
          Accepted files (Path.resolve directory file) value
          ∧ (options.out = none
            ∨ options.out = some []
            ∨ ∃ out,
                options.out = some out
                ∧ (files.store (Path.resolve directory out)
                    (reportContent clock options value)).2 = .ok ()) := by
  cases h with
  | refused refusal => simp [refusal.not_accepted]
  | presented accepted unasked =>
      simp only [true_iff]
      exact ⟨_, accepted, unasked.imp_right Or.inl⟩
  | delivered accepted asked named stored =>
      simp only [true_iff]
      exact ⟨_, accepted, Or.inr (Or.inr ⟨_, asked, by rw [stored]⟩)⟩
  | undelivered accepted asked named failed =>
      simp only [Nat.one_ne_zero, false_iff]
      intro success
      obtain ⟨value, accepted', unasked⟩ := success
      obtain rfl := accepted.unique accepted'
      simp [asked, named, failed] at unasked

theorem Ending.exitCode_eq_one (h : Ending files directory clock file options ended)
    (failed : ended.1.exitCode ≠ 0)
    : ended.1.exitCode = 1 := by
  cases h <;> first | rfl | exact absurd rfl failed

theorem Ending.shown_ne_nil_iff (h : Ending files directory clock file options ended)
    : ended.1.shown ≠ [] ↔ ∃ value, Accepted files (Path.resolve directory file) value := by
  cases h with
  | refused refusal => simpa using refusal.not_accepted
  | presented accepted unasked => simpa [shownLines_ne_nil] using ⟨_, accepted⟩
  | delivered accepted asked named stored => simpa [shownLines_ne_nil] using ⟨_, accepted⟩
  | undelivered accepted asked named failed => simpa [shownLines_ne_nil] using ⟨_, accepted⟩

theorem Ending.said_eq_nil_iff (h : Ending files directory clock file options ended)
    : ended.1.said = []
      ↔ ended.1.exitCode = 0 ∧ (options.out = none ∨ options.out = some []) := by
  cases h with
  | refused refusal => simp [refusal.lines_ne_nil]
  | presented accepted unasked => simpa using unasked
  | delivered accepted asked named stored => simp [asked, named]
  | undelivered accepted asked named failed => simp

/-- Of all lines that are handed to the console, only the one about an input that is not there
starts with those words.
-/
theorem Ending.not_found_iff (h : Ending files directory clock file options ended)
    : (∃ line ∈ ended.1.shown ++ ended.1.said, text "❌ Not found" <+: line)
      ↔ InputMissing files (Path.resolve directory file) := by
  have shows (review : Review) (said : List Text)
      : (∃ line ∈ shownLines options review ++ said, text "❌ Not found" <+: line)
        ↔ ∃ line ∈ said, text "❌ Not found" <+: line := by
    simp only [List.mem_append, or_and_right, exists_or, or_iff_right_iff_imp]
    intro found
    obtain ⟨line, mem, starts⟩ := found
    exact absurd starts (not_found_not_shown options review line mem)
  cases h with
  | refused refusal => exact refusal.not_found_iff
  | presented accepted unasked =>
      simp only [shows, accepted.not_missing, List.not_mem_nil, false_and, exists_false]
  | delivered accepted asked named stored =>
      simp only [shows, accepted.not_missing, iff_false, List.mem_singleton, exists_eq_left]
      exact not_prefix_append (by decide) _
  | undelivered accepted asked named failed =>
      simp only [shows, accepted.not_missing, iff_false, List.mem_singleton, exists_eq_left,
        not_found_faultLine_iff]
      exact FileSystem.cause_of_store failed

/-- What is shown of an input does not depend on what becomes of the report. -/
theorem Ending.shown_of_accepted (h : Ending files directory clock file options ended)
    {value : Json} (accepted : Accepted files (Path.resolve directory file) value)
    : ended.1.shown = shownLines options (quietReview clock (some value)) := by
  cases h with
  | refused refusal => exact absurd accepted (refusal.not_accepted value)
  | presented accepted' unasked => rw [accepted.unique accepted']
  | delivered accepted' asked named stored => rw [accepted.unique accepted']
  | undelivered accepted' asked named failed => rw [accepted.unique accepted']

theorem stdout_of_accepted {value : Json}
    (accepted : Accepted files (Path.resolve directory file) value) (clock : Clock)
    (options : Options)
    : (run files directory clock file options).1.stdout = shown clock options value :=
  congrArg printed ((ending files directory clock file options).shown_of_accepted accepted)

/-- A session that is asked for a report and ends well has stored it. -/
theorem Ending.exists_stored (h : Ending files directory clock file options ended) {out : Text}
    (asked : options.out = some out) (named : out ≠ []) (success : ended.1.exitCode = 0)
    : ∃ value,
        Accepted files (Path.resolve directory file) value
        ∧ files.store (Path.resolve directory out) (reportContent clock options value)
          = (ended.2, .ok ()) := by
  cases h with
  | refused refusal => cases success
  | presented accepted unasked => simp [asked, named] at unasked
  | delivered accepted asked' named' stored =>
      obtain rfl := Option.some.inj (asked.symm.trans asked')
      exact ⟨_, accepted, stored⟩
  | undelivered accepted asked' named' failed => cases success

/-- What is said when the report cannot be written. -/
theorem Ending.said_of_accepted (h : Ending files directory clock file options ended)
    {value : Json} (accepted : Accepted files (Path.resolve directory file) value)
    (failed : ended.1.exitCode ≠ 0)
    : ∃ (out : Text) (fault : Fault),
        options.out = some out
        ∧ (files.store (Path.resolve directory out) (reportContent clock options value)).2
          = .error fault
        ∧ fault.cause ≠ .noEntry
        ∧ ended.1.said
          = [text "💥 Unexpected error: " ++ fault.message (Path.written directory out)] := by
  cases h with
  | refused refusal => exact absurd accepted (refusal.not_accepted value)
  | presented accepted' unasked => exact absurd rfl failed
  | delivered accepted' asked named stored => exact absurd rfl failed
  | undelivered accepted' asked named refused =>
      obtain rfl := accepted.unique accepted'
      have known := FileSystem.cause_of_store refused
      exact ⟨_, _, asked, congrArg Prod.snd refused, known, by simp [faultLine, known]⟩

theorem Ending.said_of_missing (h : Ending files directory clock file options ended)
    (missing : InputMissing files (Path.resolve directory file))
    : ended.1.said = [text "❌ Not found: " ++ (Path.resolve directory file).text] := by
  cases h with
  | refused refusal => exact refusal.lines_of_missing missing
  | presented accepted unasked => exact absurd missing accepted.not_missing
  | delivered accepted asked named stored => exact absurd missing accepted.not_missing
  | undelivered accepted asked named failed => exact absurd missing accepted.not_missing

theorem Ending.not_found_printed_iff (h : Ending files directory clock file options ended)
    : Utf8.encode (text "❌ Not found") <+: printed ended.1.said
      ↔ InputMissing files (Path.resolve directory file) := by
  rw [Session.not_found_printed_iff]
  constructor
  · intro found
    obtain ⟨line, first, starts⟩ := found
    have handed : line ∈ ended.1.shown ++ ended.1.said :=
      List.mem_append_right _ (List.mem_of_mem_head? first)
    exact h.not_found_iff.mp ⟨line, handed, starts⟩
  · intro missing
    rw [h.said_of_missing missing]
    exact ⟨_, rfl, not_found_prefix _⟩

theorem Ending.reportsSuccess_shown (h : Ending files directory clock file options ended)
    (json : options.json = true) (something : ended.1.shown ≠ [])
    : ReportsSuccess (printed ended.1.shown) := by
  obtain ⟨value, accepted⟩ := h.shown_ne_nil_iff.mp something
  have stdout : printed ended.1.shown = shown clock options value :=
    congrArg printed (h.shown_of_accepted accepted)
  rw [stdout, shown_of_json clock json]
  exact reportsSuccess_reportContent accepted clock options

theorem Ending.reportsSuccess_file (h : Ending files directory clock file options ended)
    {out : Text} (asked : options.out = some out) (named : out ≠ [])
    (success : ended.1.exitCode = 0)
    : ∃ content,
        ended.2.read (Path.resolve directory out) = .ok content ∧ ReportsSuccess content := by
  obtain ⟨value, accepted, stored⟩ := h.exists_stored asked named success
  exact ⟨_, FileSystem.read_of_store stored, reportsSuccess_reportContent accepted clock options⟩

end

/-- How a session ends, from its input, its options and the file system: the exit code is zero
exactly if the input is accepted and the report, if one is asked for, can be written; something is
shown of every accepted input; whoever reads a report reads of success; and only an input that is
not there is called missing, at the start of what is said as in any line that is handed to the
console.
-/
theorem run_outcome (files : FileSystem) (directory : Path) (clock : Clock) (file : Text)
    (options : Options)
    : let input := Path.resolve directory file
      let ended := run files directory clock file options
      (ended.1.exitCode = 0
        ↔ ∃ value,
            Accepted files input value
            ∧ (options.out = none
              ∨ options.out = some []
              ∨ ∃ out,
                  options.out = some out
                  ∧ (files.store (Path.resolve directory out)
                      (reportContent clock options value)).2 = .ok ()))
      ∧ (ended.1.exitCode ≠ 0 → ended.1.exitCode = 1)
      ∧ (ended.1.stdout ≠ [] ↔ ∃ value, Accepted files input value)
      ∧ (options.json = true → ended.1.stdout ≠ [] → ReportsSuccess ended.1.stdout)
      ∧ (∀ out, options.out = some out → out ≠ [] → ended.1.exitCode = 0
        → ∃ content,
            ended.2.read (Path.resolve directory out) = .ok content ∧ ReportsSuccess content)
      ∧ (ended.1.stderr = []
        ↔ ended.1.exitCode = 0 ∧ (options.out = none ∨ options.out = some []))
      ∧ (Utf8.encode (text "❌ Not found") <+: ended.1.stderr ↔ InputMissing files input)
      ∧ (InputMissing files input
        → ended.1.stderr = printed [text "❌ Not found: " ++ input.text])
      ∧ (InputMissing files input ↔ input.refusal? = none ∧ files.Lacks input)
      ∧ (∀ value, Accepted files input value → ended.1.exitCode ≠ 0
        → ∃ (out : Text) (fault : Fault),
            options.out = some out
            ∧ (files.store (Path.resolve directory out) (reportContent clock options value)).2
              = .error fault
            ∧ fault.cause ≠ .noEntry
            ∧ ended.1.stderr
              = printed
                [text "💥 Unexpected error: " ++ fault.message (Path.written directory out)])
      ∧ (let handed := (perform files directory clock file options).1
         ended.1 = handed.outcome
         ∧ ((∃ line ∈ handed.shown ++ handed.said, text "❌ Not found" <+: line)
           ↔ InputMissing files input)) := by
  intro input ended
  have h := ending files directory clock file options
  have shows : ended.1.stdout ≠ [] ↔ (perform files directory clock file options).1.shown ≠ [] :=
    printed_eq_nil_iff.not
  refine ⟨h.exitCode_eq_zero_iff, h.exitCode_eq_one, shows.trans h.shown_ne_nil_iff, ?_,
    fun out => h.reportsSuccess_file, printed_eq_nil_iff.trans h.said_eq_nil_iff,
    h.not_found_printed_iff, ?_, FileSystem.read_eq_noEntry_iff, ?_, rfl, h.not_found_iff⟩
  · intro json something
    exact h.reportsSuccess_shown json (shows.mp something)
  · intro missing
    exact congrArg printed (h.said_of_missing missing)
  · intro value accepted failed
    obtain ⟨out, fault, asked, refused, known, said⟩ := h.said_of_accepted accepted failed
    exact ⟨out, fault, asked, refused, known, congrArg printed said⟩

/-- A file system with one input: a class whose name is a lone surrogate before a quote. -/
def desk : FileSystem :=
  ⟨[(Utf8.encode (text "in.json"),
    .file (Utf8.encode
      (text "[\x7b\"kind\":\"class\",\"simple_name\":\"\\uD800\\\"\"\x7d]")))]⟩

/-- The input gives a report, printed and in a new directory; another name is not found; and a
report that would lie below the input itself is not written, but the input is not called missing.
-/
theorem desk_outcome
    : (∃ content,
        let ended := run desk [] ⟨0, [7]⟩ (text "in.json") ⟨true, none, some (text "out/report")⟩
        ended.1.exitCode = 0
        ∧ ReportsSuccess ended.1.stdout
        ∧ ended.2.read (Path.resolve [] (text "out/report")) = .ok content
        ∧ ReportsSuccess content)
      ∧ (run desk [] ⟨0, []⟩ (text "gone.json") Options.plain).1.stderr
        = printed [text "❌ Not found: /gone.json"]
      ∧ ∃ fault : Fault,
          let ended := run desk [] ⟨0, []⟩ (text "in.json") ⟨false, none, some (text "in.json/r")⟩
          ended.1.exitCode = 1
          ∧ fault.cause ≠ .noEntry
          ∧ ended.1.stderr
            = printed
              [text "💥 Unexpected error: "
                ++ fault.message (Path.written [] (text "in.json/r"))] := by
  refine ⟨?_, ?_, ?_⟩
  · obtain ⟨-, -, -, reported, written, -⟩ :=
      run_outcome desk [] ⟨0, [7]⟩ (text "in.json") ⟨true, none, some (text "out/report")⟩
    have success
        : (run desk [] ⟨0, [7]⟩ (text "in.json")
            ⟨true, none, some (text "out/report")⟩).1.exitCode = 0 := by
      decide +kernel
    obtain ⟨content, read, reports⟩ := written _ rfl (by decide) success
    exact ⟨content, success, reported rfl (by decide +kernel), read, reports⟩
  · obtain ⟨-, -, -, -, -, -, found, said, -⟩ :=
      run_outcome desk [] ⟨0, []⟩ (text "gone.json") Options.plain
    exact (said (found.mp (by decide +kernel))).trans (by decide +kernel)
  · obtain ⟨-, failure, reviewed, -, -, -, -, -, -, undelivered, -⟩ :=
      run_outcome desk [] ⟨0, []⟩ (text "in.json") ⟨false, none, some (text "in.json/r")⟩
    have failed
        : (run desk [] ⟨0, []⟩ (text "in.json")
            ⟨false, none, some (text "in.json/r")⟩).1.exitCode ≠ 0 := by
      decide +kernel
    obtain ⟨value, accepted⟩ := reviewed.mp (by decide +kernel)
    obtain ⟨out, fault, asked, -, known, stderr⟩ := undelivered value accepted failed
    obtain rfl := Option.some.inj asked
    exact ⟨fault, failure failed, known, stderr⟩

end NamingAdvice.Session
