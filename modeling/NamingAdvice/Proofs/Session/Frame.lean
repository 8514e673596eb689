import NamingAdvice.Proofs.Session.Ending

/-! What a session does to the file system. It touches one file, the one that the report is asked
for in, and makes directories on the way to it; where there is no report to write it touches
nothing.
-/

namespace NamingAdvice.Session

open CommandLine (Options)
open FileSystem (Path Framed Grown Stored)

section

variable {files : FileSystem} {directory : Path} {clock : Clock} {file : Text}
  {options : Options} {ended : Transcript × FileSystem}

theorem Ending.unchanged (h : Ending files directory clock file options ended)
    (idle : (¬ ∃ value, Accepted files (Path.resolve directory file) value)
      ∨ options.out = none ∨ options.out = some [])
    : ended.2 = files := by
  have stops {value : Json} {out : Text}
      (accepted : Accepted files (Path.resolve directory file) value)
      (asked : options.out = some out) (named : out ≠ [])
      : False := by
    rcases idle with refused | unasked | unnamed
    · exact refused ⟨value, accepted⟩
    · simp [asked] at unasked
    · simp [asked, named] at unnamed
  cases h with
  | refused refusal => rfl
  | presented accepted unasked => rfl
  | delivered accepted asked named stored => exact (stops accepted asked named).elim
  | undelivered accepted asked named failed => exact (stops accepted asked named).elim

theorem Ending.framed (h : Ending files directory clock file options ended) {out : Text}
    (asked : options.out = some out)
    : Framed files ended.2 (Path.resolve directory out) := by
  cases h with
  | refused refusal => exact .refl files _
  | presented accepted unasked => exact .refl files _
  | delivered accepted asked' named stored =>
      obtain rfl := Option.some.inj (asked.symm.trans asked')
      exact (FileSystem.stored_of_eq stored).framed
  | undelivered accepted asked' named failed =>
      obtain rfl := Option.some.inj (asked.symm.trans asked')
      exact (FileSystem.stored_of_eq failed).framed

/-- Where only the report could not be written, directories on the way to it may be new. -/
theorem Ending.grown_of_failure (h : Ending files directory clock file options ended)
    {value : Json} (accepted : Accepted files (Path.resolve directory file) value)
    (failure : ended.1.exitCode = 1)
    : ∃ out,
        options.out = some out
        ∧ Grown files ended.2 (Path.resolve directory out).dropLast := by
  cases h with
  | refused refusal => exact absurd accepted (refusal.not_accepted value)
  | presented accepted' unasked => cases failure
  | delivered accepted' asked named stored => cases failure
  | undelivered accepted' asked named failed =>
      exact ⟨_, asked, (FileSystem.stored_of_eq failed).grown_of_error⟩

end

/-- What a session does to the file system. Unless a report on an accepted input is asked for, it
does nothing. Where one is asked for, everything stays but the content of that file, and what is
new is that file or a directory above it. If the report cannot be written no file is new or
changed. If it is written everything above it is a directory, and it holds the text of the report
and one line feed.
-/
theorem run_frame (files : FileSystem) (directory : Path) (clock : Clock) (file : Text)
    (options : Options)
    : let input := Path.resolve directory file
      let ended := run files directory clock file options
      ((¬ ∃ value, Accepted files input value) ∨ options.out = none ∨ options.out = some []
        → ended.2 = files)
      ∧ (∀ out, options.out = some out → Framed files ended.2 (Path.resolve directory out))
      ∧ (∀ value, Accepted files input value → ended.1.exitCode = 1
        → ∃ out,
            options.out = some out
            ∧ (∀ path content,
                ended.2.nodeAt? path = some (.file content)
                ↔ files.nodeAt? path = some (.file content))
            ∧ (∀ path node, files.nodeAt? path = none → ended.2.nodeAt? path = some node
              → path.Above (Path.resolve directory out) ∧ node = .directory))
      ∧ (∀ value out, Accepted files input value → options.out = some out → out ≠ []
        → ended.1.exitCode = 0
        → let report := reportText options (quietReview clock (some value))
          (∀ path, path.Above (Path.resolve directory out)
            → ended.2.nodeAt? path = some .directory)
          ∧ ended.2.nodeAt? (Path.resolve directory out)
            = some (.file (Utf8.encode report ++ [0x0A]))
          ∧ report.getLast? ≠ some 0x0A) := by
  intro input ended
  have h := ending files directory clock file options
  refine ⟨h.unchanged, fun out => h.framed, ?_, ?_⟩
  · intro value accepted failure
    obtain ⟨out, asked, grown⟩ := h.grown_of_failure accepted failure
    exact ⟨out, asked, grown.file_iff, fun path node => grown.above⟩
  · intro value out accepted asked named success report
    obtain ⟨value', accepted', stored⟩ := h.exists_stored asked named success
    obtain rfl := accepted.unique accepted'
    have there
        : ended.2.nodeAt? (Path.resolve directory out)
          = some (.file (reportContent clock options value)) :=
      (FileSystem.stored_of_eq stored).nodeAt?_target
    refine ⟨?_, ?_, ?_⟩
    · intro path above
      exact above.nodeAt?_eq (by simp [there])
    · rw [there, reportContent, fileContent_reportText, encode_line]
    · simp [report, getLast?_reportText]

/-- A report in a new directory; a report that cannot be written since a name on its way is too long,
when a directory has been made already; and no report.
-/
theorem desk_frame
    : (let ended := run desk [] ⟨0, []⟩ (text "in.json") ⟨true, none, some (text "new/report")⟩
       ended.1.exitCode = 0
       ∧ Framed desk ended.2 (Path.resolve [] (text "new/report"))
       ∧ ended.2.nodeAt? (Path.resolve [] (text "new")) = some .directory)
      ∧ (let ended := run desk [] ⟨0, []⟩ (text "in.json")
          ⟨true, none, some (text "new/" ++ List.replicate 256 0x61 ++ text "/report")⟩
         ended.1.exitCode = 1
         ∧ ended.2.nodeAt? (Path.resolve [] (text "new")) = some .directory
         ∧ ∀ path content,
            ended.2.nodeAt? path = some (.file content)
            ↔ desk.nodeAt? path = some (.file content))
      ∧ (run desk [] ⟨0, []⟩ (text "in.json") Options.plain).2 = desk := by
  obtain ⟨value, accepted⟩ : ∃ value, Accepted desk (Path.resolve [] (text "in.json")) value :=
    (ending desk [] ⟨0, []⟩ (text "in.json") Options.plain).shown_ne_nil_iff.mp
      (by decide +kernel)
  refine ⟨?_, ?_, ?_⟩
  · obtain ⟨-, framed, -, written⟩ :=
      run_frame desk [] ⟨0, []⟩ (text "in.json") ⟨true, none, some (text "new/report")⟩
    have success
        : (run desk [] ⟨0, []⟩ (text "in.json")
            ⟨true, none, some (text "new/report")⟩).1.exitCode = 0 := by
      decide +kernel
    obtain ⟨above, -⟩ := written value _ accepted rfl (by decide) success
    exact ⟨success, framed _ rfl, above _ ⟨Utf8.encode (text "report"), [], by decide +kernel⟩⟩
  · obtain ⟨-, -, unwritten, -⟩ := run_frame desk [] ⟨0, []⟩ (text "in.json")
      ⟨true, none, some (text "new/" ++ List.replicate 256 0x61 ++ text "/report")⟩
    have failure
        : (run desk [] ⟨0, []⟩ (text "in.json")
            ⟨true, none, some (text "new/" ++ List.replicate 256 0x61 ++ text "/report")⟩).1.exitCode
          = 1 := by
      decide +kernel
    obtain ⟨out, -, untouched, -⟩ := unwritten value accepted failure
    exact ⟨failure, by decide +kernel, untouched⟩
  · exact (run_frame desk [] ⟨0, []⟩ (text "in.json") Options.plain).1 (Or.inr (Or.inl rfl))

end NamingAdvice.Session
