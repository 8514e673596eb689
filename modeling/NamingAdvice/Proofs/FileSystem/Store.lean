import NamingAdvice.Proofs.FileSystem.View

/-! What storing a file does to the rest of the file system. Directories on the way to the file
may be made, also when the file cannot be written in the end; everything that was there before
stays, and the file is the only one that is new or changed. What its content is makes no difference
to anything else.
-/

namespace NamingAdvice.FileSystem

/-- Names lead from a path on to another one. -/
def Path.Above (path target : Path) : Prop :=
  ∃ name rest, target = path ++ name :: rest

/-- A file system in which some directories on the way to a path are new. -/
structure Grown (before after : FileSystem) (limit : Path) : Prop where
  kept {path : Path} {node : Node}
    : before.nodeAt? path = some node → after.nodeAt? path = some node
  added {path : Path} {node : Node}
    : before.nodeAt? path = none → after.nodeAt? path = some node
      → node = .directory ∧ path <+: limit

/-- Two file systems in which nothing is lost but the content of one file, and nothing is new but
that file and directories above it.
-/
structure Framed (before after : FileSystem) (target : Path) : Prop where
  kept {path : Path} {node : Node}
    : before.nodeAt? path = some node → path ≠ target ∨ node = .directory
      → after.nodeAt? path = some node
  remains {path : Path} : before.nodeAt? path ≠ none → after.nodeAt? path ≠ none
  added {path : Path} {node : Node}
    : before.nodeAt? path = none → after.nodeAt? path = some node
      → path = target ∧ (∃ content, node = .file content)
        ∨ path.Above target ∧ node = .directory

theorem Framed.refl (files : FileSystem) (target : Path) : Framed files files target where
  kept there _ := there
  remains there := there
  added missing there := by simp [missing] at there

-----------------------------------------------------------------------------------------
-- Making directories
-----------------------------------------------------------------------------------------

theorem Grown.refl (files : FileSystem) (limit : Path) : Grown files files limit where
  kept there := there
  added missing there := by simp [missing] at there

theorem Grown.trans {before middle after : FileSystem} {limit : Path}
    (first : Grown before middle limit) (second : Grown middle after limit)
    : Grown before after limit where
  kept there := second.kept (first.kept there)
  added {path} {node} missing there := by
    cases between : middle.nodeAt? path with
    | none => exact second.added between there
    | some early =>
        obtain rfl : early = node := by simpa [second.kept between] using there
        exact first.added missing between

/-- New directories leave every file as it was, and make none. -/
theorem Grown.file_iff {before after : FileSystem} {limit : Path}
    (grown : Grown before after limit) (path : Path) (content : Bytes)
    : after.nodeAt? path = some (.file content) ↔ before.nodeAt? path = some (.file content) := by
  refine ⟨?_, grown.kept⟩
  intro there
  cases early : before.nodeAt? path with
  | none => cases (grown.added early there).1
  | some node => simpa [grown.kept early] using there

theorem Put.grown {before after : FileSystem} {path limit : Path}
    (put : Put before after path .directory) (missing : before.nodeAt? path = none)
    (inside : path <+: limit)
    : Grown before after limit where
  kept {other} {node} there := by
    have differ : other ≠ path := by
      intro same
      simp [same, missing] at there
    simpa [put.nodeAt?_eq, differ] using there
  added {other} {node} before_missing there := by
    by_cases same : other = path
    · subst same
      exact ⟨by simpa [put.nodeAt?_eq, eq_comm] using there, inside⟩
    · simp [put.nodeAt?_eq, same, before_missing] at there

/-- What comes of making the directories down to a path: if nothing is said, something is there,
and what is said is never that something is missing.
-/
structure Made (before : FileSystem) (path : Path) (result : FileSystem × Except Fault Unit)
    : Prop where
  grown : Grown before result.1 path
  there : result.2 = .ok () → result.1.nodeAt? path ≠ none
  cause_ne {fault : Fault} : result.2 = .error fault → fault.cause ≠ .noEntry

theorem occupied_eq_none {found : Option Node} (h : occupied found = none) : found = none := by
  cases found with
  | none => rfl
  | some node => cases h

theorem ne_none_of_occupied {found : Option Node} {cause : Cause} (h : occupied found = some cause)
    : found ≠ none := by
  intro free
  simp [occupied, free] at h

theorem occupied_ne_noEntry {found : Option Node} : occupied found ≠ some .noEntry := by
  cases found <;> simp [occupied]

/-- From a base that is there, no directory on the way is ever found to be missing. -/
theorem made_makeBelow (files : FileSystem) (base path : Path) (h : files.nodeAt? base ≠ none)
    : Made files (base ++ path) (files.makeBelow base path) := by
  induction path generalizing files base with
  | nil =>
      refine ⟨.refl _ _, ?_, ?_⟩
      · simpa [makeBelow] using h
      · simp [makeBelow]
  | cons name path ih =>
      have step := changed_makeDirectory files (base ++ [name])
      have on_way : base ++ [name] <+: base ++ name :: path := by simp
      have whole : base ++ [name] ++ path = base ++ name :: path := by simp
      simp only [makeBelow]
      split
      case h_1 after made =>
          rw [made] at step
          cases step with
          | put put free =>
              have rest := ih after (base ++ [name]) (by simp [put.nodeAt?_eq])
              rw [whole] at rest
              exact {
                rest with
                grown := (put.grown (occupied_eq_none free) on_way).trans rest.grown
              }
      case h_2 made =>
          rw [made] at step
          cases step with
          | refused met =>
              have rest := ih files (base ++ [name]) (ne_none_of_occupied met)
              rwa [whole] at rest
      case h_3 cause other made =>
          refine ⟨.refl _ _, by simp, ?_⟩
          intro fault said
          obtain rfl : ⟨cause, .makeDirectory, base ++ [name]⟩ = fault := by simpa using said
          rw [made] at step
          exact step.cause_ne (by simpa using h) occupied_ne_noEntry

theorem made_makeDirectories (files : FileSystem) (path : Path)
    : Made files path (files.makeDirectories path) := by
  have step := changed_makeDirectory files path
  unfold makeDirectories
  split
  case h_1 after made =>
      rw [made] at step
      cases step with
      | put put free =>
          refine ⟨put.grown (occupied_eq_none free) (List.prefix_refl path), ?_, by simp⟩
          simp [put.nodeAt?_eq]
  case h_2 made =>
      exact made_makeBelow files [] path (by simp [nodeAt?_nil])
  case h_3 made =>
      rw [made] at step
      cases step with
      | refused met =>
          split
          · exact ⟨.refl _ _, fun _ => ne_none_of_occupied met, by simp⟩
          · refine ⟨.refl _ _, by simp, ?_⟩
            intro fault said
            simp [← Except.error.inj said]
  case h_4 cause nothing_missing other made =>
      refine ⟨.refl _ _, by simp, ?_⟩
      intro fault said
      simpa [← Except.error.inj said] using nothing_missing

-----------------------------------------------------------------------------------------
-- Storing a file
-----------------------------------------------------------------------------------------

theorem directoryThere_eq_none {found : Option Node} (h : directoryThere found = none)
    : found ≠ some .directory := by
  intro directory
  simp [directoryThere, directory] at h

theorem directoryThere_ne_noEntry {found : Option Node}
    : directoryThere found ≠ some .noEntry := by
  unfold directoryThere
  split <;> simp

/-- All that can come of storing a file. -/
inductive Stored (before : FileSystem) (target : Path) (content : Bytes)
    : FileSystem × Except Fault Unit → Prop where
  | written {middle after : FileSystem} (grown : Grown before middle target.dropLast)
      (admitted : target.refusal? = none) (put : Put middle after target (.file content))
      (free : middle.nodeAt? target ≠ some .directory)
      : Stored before target content (after, .ok ())
  | failed {after : FileSystem} {fault : Fault} (grown : Grown before after target.dropLast)
      (cause_ne : fault.cause ≠ .noEntry)
      : Stored before target content (after, .error fault)

theorem stored (files : FileSystem) (target : Path) (content : Bytes)
    : Stored files target content (files.store target content) := by
  have made := made_makeDirectories files target.dropLast
  unfold store
  split
  case h_1 middle fault said =>
      rw [said] at made
      exact .failed made.grown (made.cause_ne rfl)
  case h_2 middle said =>
      rw [said] at made
      have step := changed_setFile middle target content
      simp only [writeFile]
      cases written : middle.change (Entries.setFile content) .isDirectory target with
      | ok after =>
          rw [written] at step
          cases step with
          | put put free =>
              exact .written made.grown (refusal?_of_change written) put
                (directoryThere_eq_none free)
      | error cause =>
          rw [written] at step
          exact .failed made.grown (step.cause_ne (made.there rfl) directoryThere_ne_noEntry)

section

variable {files after : FileSystem} {target : Path} {content : Bytes}
  {result : Except Fault Unit}

theorem stored_of_eq (h : files.store target content = (after, result))
    : Stored files target content (after, result) :=
  h ▸ stored files target content

/-- A file that was stored can be read. -/
theorem read_of_store (h : files.store target content = (after, .ok ()))
    : after.read target = .ok content := by
  cases stored_of_eq h with
  | written grown admitted put free =>
      exact read_eq_ok_iff.mpr ⟨admitted, put.short, by simp [put.nodeAt?_eq]⟩

/-- No failure to store a file is a complaint that something is missing. -/
theorem cause_of_store {fault : Fault} (h : files.store target content = (after, .error fault))
    : fault.cause ≠ .noEntry := by
  cases stored_of_eq h with
  | failed grown cause_ne => exact cause_ne

/-- New directories lie above the file. -/
theorem Grown.above (grown : Grown files after target.dropLast) {path : Path} {node : Node}
    (missing : files.nodeAt? path = none) (there : after.nodeAt? path = some node)
    : path.Above target ∧ node = .directory := by
  obtain ⟨directory, rest, split⟩ := grown.added missing there
  refine ⟨?_, directory⟩
  rcases List.eq_nil_or_concat target with rfl | ⟨start, last, rfl⟩
  · -- The root is never new.
    obtain ⟨rfl, -⟩ : path = [] ∧ rest = [] := by simpa using split
    simp [nodeAt?_nil] at missing
  · obtain rfl : path ++ rest = start := by simpa using split
    cases rest with
    | nil => exact ⟨last, [], by simp⟩
    | cons name rest => exact ⟨name, rest ++ [last], by simp⟩

theorem Grown.framed (grown : Grown files after target.dropLast) : Framed files after target where
  kept there _ := grown.kept there
  remains there := by
    obtain ⟨node, there⟩ := Option.ne_none_iff_exists'.mp there
    simp [grown.kept there]
  added missing there := Or.inr (grown.above missing there)

/-- A file may be put where no directory stands. -/
theorem Framed.put {middle : FileSystem} (framed : Framed files middle target)
    (put : Put middle after target (.file content))
    (free : middle.nodeAt? target ≠ some .directory)
    : Framed files after target where
  kept {path} {node} there spared := by
    have between := framed.kept there spared
    have differ : path ≠ target := by
      rcases spared with differ | rfl
      · exact differ
      · intro same
        exact free (same ▸ between)
    simpa [put.nodeAt?_eq, differ] using between
  remains {path} there := by
    by_cases same : path = target
    · simp [put.nodeAt?_eq, same]
    · simpa [put.nodeAt?_eq, same] using framed.remains there
  added {path} {node} missing there := by
    by_cases same : path = target
    · exact Or.inl ⟨same, content, by simpa [put.nodeAt?_eq, same, eq_comm] using there⟩
    · exact framed.added missing (by simpa [put.nodeAt?_eq, same] using there)

theorem Stored.framed (h : Stored files target content (after, result))
    : Framed files after target := by
  cases h with
  | failed grown cause_ne => exact grown.framed
  | written grown admitted put free => exact grown.framed.put put free

theorem Stored.grown_of_error {fault : Fault}
    (h : Stored files target content (after, .error fault))
    : Grown files after target.dropLast := by
  cases h with
  | failed grown cause_ne => exact grown

theorem Stored.nodeAt?_target (h : Stored files target content (after, .ok ()))
    : after.nodeAt? target = some (.file content) := by
  cases h with
  | written grown admitted put free => simp [put.nodeAt?_eq]

/-- Where something stands, everything above is a directory. -/
theorem Path.Above.nodeAt?_eq {path : Path} (above : path.Above target)
    (there : files.nodeAt? target ≠ none)
    : files.nodeAt? path = some .directory := by
  obtain ⟨name, rest, rfl⟩ := above
  exact nodeAt?_of_below there

end

-----------------------------------------------------------------------------------------
-- One file with one content or another
-----------------------------------------------------------------------------------------

/-- What comes of an attempt, apart from what it leaves: that it succeeds, or the cause. -/
def fate {α : Type} (result : Except Cause α) : Except Cause Unit :=
  result.map (fun _ => ())

theorem fate_map {α β : Type} (step : α → β) (result : Except Cause α)
    : fate (result.map step) = fate result := by
  cases result <;> rfl

theorem Entries.fate_change {edit other : Name → Entries → Except Cause Entries}
    (same : ∀ name entries, fate (edit name entries) = fate (other name entries))
    (entries : Entries) (name : Name) (path : Path)
    : fate (Entries.change edit entries name path)
      = fate (Entries.change other entries name path) := by
  induction path generalizing entries name with
  | nil =>
      simp only [Entries.change]
      split
      · rfl
      · exact same name entries
  | cons next path ih =>
      simp only [Entries.change]
      split
      · rfl
      · split
        · rfl
        · rfl
        · simp only [fate_map]
          exact ih _ next

theorem fate_setFile (content other : Bytes) (name : Name) (entries : Entries)
    : fate (Entries.setFile content name entries) = fate (Entries.setFile other name entries) := by
  unfold Entries.setFile
  split <;> rfl

theorem fate_change {edit other : Name → Entries → Except Cause Entries}
    (same : ∀ name entries, fate (edit name entries) = fate (other name entries))
    (files : FileSystem) (atRoot : Cause) (path : Path)
    : fate (files.change edit atRoot path) = fate (files.change other atRoot path) := by
  unfold FileSystem.change
  split
  · rfl
  · rfl
  · simp only [fate_map]
    exact Entries.fate_change same _ _ _

/-- The two things that can come of storing one content or another at a path: they fail in the same
way, or they are stored and all the rest is the same.
-/
inductive StoredAlike (target : Path)
    : FileSystem × Except Fault Unit → FileSystem × Except Fault Unit → Prop where
  | failed (after : FileSystem) (fault : Fault)
      : StoredAlike target (after, .error fault) (after, .error fault)
  | written {after other : FileSystem}
      (elsewhere : ∀ path, path ≠ target → after.nodeAt? path = other.nodeAt? path)
      : StoredAlike target (after, .ok ()) (other, .ok ())

theorem storedAlike (files : FileSystem) (target : Path) (content other : Bytes)
    : StoredAlike target (files.store target content) (files.store target other) := by
  unfold store
  split
  case h_1 middle fault said => exact .failed middle fault
  case h_2 middle said =>
      have alike := fate_change (fate_setFile content other) middle .isDirectory target
      have step := changed_setFile middle target content
      have step' := changed_setFile middle target other
      simp only [writeFile]
      cases written : middle.change (Entries.setFile content) .isDirectory target with
      | ok after =>
          cases written' : middle.change (Entries.setFile other) .isDirectory target with
          | error cause => simp [written, written', fate, Except.map] at alike
          | ok after' =>
              rw [written] at step
              rw [written'] at step'
              cases step with
              | put put free =>
                  cases step' with
                  | put put' free' =>
                      refine .written ?_
                      intro path elsewhere
                      simp [put.nodeAt?_eq, put'.nodeAt?_eq, elsewhere]
      | error cause =>
          cases written' : middle.change (Entries.setFile other) .isDirectory target with
          | ok after' => simp [written, written', fate, Except.map] at alike
          | error cause' =>
              obtain rfl : cause = cause' := by
                simpa [written, written', fate, Except.map] using alike
              exact .failed _ _

end NamingAdvice.FileSystem
