import NamingAdvice.Proofs.FileSystem.Repetition
import NamingAdvice.Proofs.Session.Frame

/-! A session that is run a second time. What the first run did does not touch the input, so the
second one shows the same; it leaves the file system alone, and it ends in the same way. In one case
the words of its complaint differ: directories that the first run made before it failed are there
when the second one fails.
-/

namespace NamingAdvice.Session

open CommandLine (Options)
open FileSystem (Path Fault Name CutShort)

/-- The complaint that a directory cannot be made since a name in its path is too long. -/
def tooLongNotice (path : Path) : Bytes :=
  printed
    [text "💥 Unexpected error: ENAMETOOLONG: name too long, mkdir '" ++ path.text ++ text "'"]

/-- A report on an accepted input is asked for in a folder whose making is cut short before its
last name.
-/
def ReportCutShort (files : FileSystem) (directory : Path) (file : Text) (options : Options)
    (folder way : Path) (long : Name)
    : Prop :=
  ∃ value out next rest,
    Accepted files (Path.resolve directory file) value
    ∧ options.out = some out
    ∧ out ≠ []
    ∧ folder = (Path.resolve directory out).dropLast
    ∧ CutShort files folder way long (next :: rest)

theorem faultLine_tooLong (input path : Path) (names : List Text)
    : printed [faultLine input names ⟨.nameTooLong, .makeDirectory, path⟩]
      = tooLongNotice path := by
  have words
      : text "💥 Unexpected error: "
          ++ (text "ENAMETOOLONG" ++ (text ": " ++ (text "name too long" ++ (text ", "
            ++ text "mkdir '"))))
        = text "💥 Unexpected error: ENAMETOOLONG: name too long, mkdir '" := by
    decide
  simp [faultLine, Fault.message, Fault.attempt, FileSystem.Cause.label,
    FileSystem.Cause.description, tooLongNotice, ← words]

section

variable {files : FileSystem} {directory : Path} {clock : Clock} {file : Text}
  {options : Options} {value : Json} {out : Text}

/-- Storing a report elsewhere leaves the input as it is. -/
theorem Accepted.of_stored {after : FileSystem} {target : Path} {content : Bytes}
    {result : Except Fault Unit} {input : Path} (accepted : Accepted files input value)
    (apart : target ≠ input) (stored : files.store target content = (after, result))
    : Accepted after input value := by
  obtain ⟨bytes, forest, held, parsed, read⟩ := accepted
  obtain ⟨admitted, short, there⟩ := FileSystem.read_eq_ok_iff.mp held
  have kept := (FileSystem.stored_of_eq stored).framed.kept there (Or.inl (Ne.symm apart))
  exact ⟨bytes, forest, FileSystem.read_eq_ok_iff.mpr ⟨admitted, short, kept⟩, parsed, read⟩

/-- Unless the folder of the report is cut short, the second run is the first one over again. -/
theorem run_again_of_calm
    (apart : ∀ out, options.out = some out → out ≠ []
      → Path.resolve directory out ≠ Path.resolve directory file)
    (calm : ∀ folder way long,
      ¬ ReportCutShort files directory file options folder way long)
    : run (run files directory clock file options).2 directory clock file options
      = run files directory clock file options := by
  by_cases idle
      : (¬ ∃ value, Accepted files (Path.resolve directory file) value)
        ∨ options.out = none ∨ options.out = some []
  · have kept : (run files directory clock file options).2 = files :=
      (ending files directory clock file options).unchanged idle
    rw [kept]
  · obtain ⟨refuted, unasked⟩ := not_or.mp idle
    obtain ⟨value, accepted⟩ := not_not.mp refuted
    obtain ⟨out, asked, named⟩ := exists_target unasked
    cases stored : files.store (Path.resolve directory out) (reportContent clock options value) with
    | mk after result =>
        have again := FileSystem.store_again
          (fun way long next rest cut => calm _ way long
            ⟨value, out, next, rest, accepted, asked, named, rfl, cut⟩) stored
        have held := accepted.of_stored (apart out asked named) stored
        have first := run_of_accepted accepted clock asked named
        have second := run_of_accepted held clock asked named
        simp only [stored] at first
        simp only [again] at second
        rw [first, second]

/-- Where the folder of the report is cut short, the two runs differ in the directory that their
complaints name, and in nothing else.
-/
theorem run_again_of_cutShort {folder way : Path} {long : Name}
    (apart : ∀ out, options.out = some out → out ≠ []
      → Path.resolve directory out ≠ Path.resolve directory file)
    (cut : ReportCutShort files directory file options folder way long)
    : ∃ stdout after,
        run files directory clock file options
          = (⟨1, stdout, tooLongNotice (way ++ [long])⟩, after)
        ∧ run (run files directory clock file options).2 directory clock file options
          = (⟨1, stdout, tooLongNotice folder⟩, after) := by
  obtain ⟨value, out, next, rest, accepted, asked, named, rfl, cut⟩ := cut
  obtain ⟨after, stored, again⟩ := cut.exists_store (reportContent clock options value)
  have held := accepted.of_stored (apart out asked named) stored
  have first := run_of_accepted accepted clock asked named
  have second := run_of_accepted held clock asked named
  simp only [stored, delivered, Transcript.outcome, faultLine_tooLong] at first
  simp only [again, delivered, Transcript.outcome, faultLine_tooLong] at second
  exact ⟨_, after, first, by rw [first, second]⟩

end

/-- A session that is run again, where its report does not replace its input. The second run leaves
the file system as the first one left it, ends with the same exit code and shows the same. It also
says the same, unless the folder of the report is cut short before its last name: then both runs
complain of the long name, the first one about the path down to it and the second one about the
whole folder.
-/
theorem run_again (files : FileSystem) (directory : Path) (clock : Clock) (file : Text)
    (options : Options)
    (apart : ∀ out, options.out = some out → out ≠ []
      → Path.resolve directory out ≠ Path.resolve directory file)
    : let first := run files directory clock file options
      let second := run first.2 directory clock file options
      second.2 = first.2
      ∧ second.1.exitCode = first.1.exitCode
      ∧ second.1.stdout = first.1.stdout
      ∧ ((∀ folder way long, ¬ ReportCutShort files directory file options folder way long)
        → second.1.stderr = first.1.stderr)
      ∧ (∀ folder way long, ReportCutShort files directory file options folder way long
        → first.1.exitCode = 1
          ∧ first.1.stderr = tooLongNotice (way ++ [long])
          ∧ second.1.stderr = tooLongNotice folder) := by
  intro first second
  by_cases calm : ∀ folder way long, ¬ ReportCutShort files directory file options folder way long
  · have same : second = first := run_again_of_calm apart calm
    rw [same]
    exact ⟨rfl, rfl, rfl, fun _ => rfl,
      fun folder way long cut => absurd cut (calm folder way long)⟩
  · have told {folder way : Path} {long : Name}
        (cut : ReportCutShort files directory file options folder way long)
        : ∃ stdout after,
            first = (⟨1, stdout, tooLongNotice (way ++ [long])⟩, after)
            ∧ second = (⟨1, stdout, tooLongNotice folder⟩, after) :=
      run_again_of_cutShort apart cut
    obtain ⟨folder, way, long, cut⟩
        : ∃ folder way long, ReportCutShort files directory file options folder way long := by
      simpa using calm
    obtain ⟨stdout, after, ran, reran⟩ := told cut
    refine ⟨by rw [ran, reran], by rw [ran, reran], by rw [ran, reran],
      fun other => absurd other calm, ?_⟩
    intro folder way long cut
    obtain ⟨stdout, after, ran, reran⟩ := told cut
    exact ⟨by rw [ran], by rw [ran], by rw [reran]⟩

/-- A report that is asked for on the desk, below a missing directory and a name of 256 octets. -/
def deepOut : Text :=
  text "x/" ++ List.replicate 256 0x61 ++ text "/y/report"

/-- A session does not always say the same when it is run again. Here the first run makes the
directory `x` and names the one below it; the second one names the folder of the report.
-/
theorem run_again_not_same
    : ¬ ∀ (files : FileSystem) (directory : Path) (clock : Clock) (file : Text) (options : Options),
        (∀ out, options.out = some out → out ≠ []
          → Path.resolve directory out ≠ Path.resolve directory file)
        → run (run files directory clock file options).2 directory clock file options
          = run files directory clock file options := by
  intro same
  have apart (out : Text) (asked : some deepOut = some out) (_ : out ≠ [])
      : Path.resolve [] out ≠ Path.resolve [] (text "in.json") := by
    obtain rfl := Option.some.inj asked
    decide +kernel
  have said := congrArg (·.1.stderr)
    (same desk [] ⟨0, []⟩ (text "in.json") ⟨false, none, some deepOut⟩ apart)
  revert said
  decide +kernel

/-- The folder of that report is cut short behind `x`. -/
theorem desk_cutShort
    : ReportCutShort desk [] (text "in.json") ⟨false, none, some deepOut⟩
        (Path.resolve [] deepOut).dropLast [Utf8.encode (text "x")]
        (List.replicate 256 0x61) := by
  obtain ⟨value, accepted⟩ : ∃ value, Accepted desk (Path.resolve [] (text "in.json")) value :=
    (ending desk [] ⟨0, []⟩ (text "in.json") Options.plain).shown_ne_nil_iff.mp
      (by decide +kernel)
  have short : Path.Short [Utf8.encode (text "x")] :=
    List.forall_mem_singleton.mpr (by decide +kernel)
  have missing : desk.Lacks [Utf8.encode (text "x")] :=
    ⟨[], Utf8.encode (text "x"), [], rfl, short, rfl, by decide +kernel⟩
  exact ⟨value, deepOut, Utf8.encode (text "y"), [], accepted, rfl, by decide, rfl,
    by decide +kernel, missing, short, by decide +kernel, by decide +kernel⟩

/-- The desk, with a report that can be written and with one whose folder is cut short. -/
theorem desk_again
    : (let options : Options := ⟨true, none, some (text "out/report")⟩
       let first := run desk [] ⟨0, [7]⟩ (text "in.json") options
       let second := run first.2 [] ⟨0, [7]⟩ (text "in.json") options
       first.1.exitCode = 0
       ∧ first.2.nodeAt? (Path.resolve [] (text "out")) = some .directory
       ∧ second.2 = first.2
       ∧ second.1.stdout = first.1.stdout)
      ∧ (let options : Options := ⟨false, none, some deepOut⟩
         let first := run desk [] ⟨0, [7]⟩ (text "in.json") options
         let second := run first.2 [] ⟨0, [7]⟩ (text "in.json") options
         second.2 = first.2
         ∧ first.1.stderr = tooLongNotice [Utf8.encode (text "x"), List.replicate 256 0x61]
         ∧ second.1.stderr = tooLongNotice (Path.resolve [] deepOut).dropLast) := by
  refine ⟨?_, ?_⟩
  · obtain ⟨kept, -, shown, -⟩ :=
      run_again desk [] ⟨0, [7]⟩ (text "in.json") ⟨true, none, some (text "out/report")⟩
        (fun out asked _ => by
          obtain rfl := Option.some.inj asked
          decide +kernel)
    exact ⟨by decide +kernel, by decide +kernel, kept, shown⟩
  · obtain ⟨kept, -, -, -, told⟩ :=
      run_again desk [] ⟨0, [7]⟩ (text "in.json") ⟨false, none, some deepOut⟩
        (fun out asked _ => by
          obtain rfl := Option.some.inj asked
          decide +kernel)
    obtain ⟨-, first, second⟩ := told _ _ _ desk_cutShort
    exact ⟨kept, first, second⟩

end NamingAdvice.Session
