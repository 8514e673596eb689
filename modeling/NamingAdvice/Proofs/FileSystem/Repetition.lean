import Mathlib.Data.List.Flatten
import NamingAdvice.Proofs.FileSystem.Store

/-! Storing a file once more. Where a first attempt has written the file, or has failed at one call,
a second one does the same and changes nothing. Only an attempt that made some directories and then
came upon a name that is too long is told of differently the second time: the directories are there
by then, so the call that fails is the first one, for the whole path.
-/

namespace NamingAdvice.FileSystem

-----------------------------------------------------------------------------------------
-- Parts of a path
-----------------------------------------------------------------------------------------

theorem Path.refusal?_eq_none_iff {path : Path}
    : path.refusal? = none ↔ 0 ∉ path.bytes ∧ path.bytes.length ≤ longestPath := by
  unfold Path.refusal?
  grind

/-- A path is not refused for what it is if it is a part of one that is not. -/
theorem Path.refusal?_of_sublist {path whole : Path} (part : path.Sublist whole)
    (admitted : whole.refusal? = none)
    : path.refusal? = none := by
  cases path with
  | nil => decide
  | cons name path =>
      have fewer : (Path.bytes (name :: path)).Sublist whole.bytes := by
        cases whole with
        | nil => cases part
        | cons first whole => exact part.flatMap _
      obtain ⟨zero, length⟩ := Path.refusal?_eq_none_iff.mp admitted
      exact Path.refusal?_eq_none_iff.mpr
        ⟨fun mem => zero (fewer.subset mem), Nat.le_trans fewer.length_le length⟩

/-- A path that is not short has a first name that is too long. -/
theorem Path.exists_long {path : Path} (h : ¬ path.Short)
    : ∃ way long rest,
        path = way ++ long :: rest ∧ Path.Short way ∧ longestName < long.length := by
  induction path with
  | nil => exact absurd (List.forall_mem_nil _) h
  | cons name path ih =>
      by_cases short : name.length ≤ longestName
      · obtain ⟨way, long, rest, rfl, shorts, tooLong⟩ :=
          ih (fun shorts => h (List.forall_mem_cons.mpr ⟨short, shorts⟩))
        exact ⟨name :: way, long, rest, rfl, List.forall_mem_cons.mpr ⟨short, shorts⟩, tooLong⟩
      · exact ⟨[], name, path, rfl, List.forall_mem_nil _, Nat.lt_of_not_le short⟩

-----------------------------------------------------------------------------------------
-- A directory apart from what is around it
-----------------------------------------------------------------------------------------

theorem Entries.set_of_lookup {entries : Entries} {name : Name} {entry : Entry}
    (held : entries.lookup name = some entry)
    : Entries.set name entry entries = entries := by
  induction entries with
  | nil => simp at held
  | cons first entries ih =>
      obtain ⟨other, old⟩ := first
      rw [Entries.lookup_cons] at held
      by_cases same : name = other
      · rw [if_pos same] at held
        simp [Entries.set, same, Option.some.inj held]
      · rw [if_neg same] at held
        simp [Entries.set, Ne.symm same, ih held]

/-- The entries of the directory at a path, and the file system around them: what is done below
the path is done in these entries.
-/
structure Inside (files : FileSystem) (way : Path) (inner : Entries)
    (around : Entries → FileSystem)
    : Prop where
  whole : around inner = files
  nodeAt?_eq : ∀ path, nodeAt? ⟨inner⟩ path = files.nodeAt? (way ++ path)
  change_eq : ∀ edit atRoot name rest, Path.refusal? (way ++ name :: rest) = none
    → files.change edit atRoot (way ++ name :: rest)
      = (Entries.change edit inner name rest).map around

theorem change_cons (files : FileSystem) (edit : Name → Entries → Except Cause Entries)
    (atRoot : Cause) {name : Name} {rest : Path} (admitted : Path.refusal? (name :: rest) = none)
    : files.change edit atRoot (name :: rest)
      = (Entries.change edit files.entries name rest).map FileSystem.mk := by
  simp [FileSystem.change, admitted]

/-- A change below a directory of the root is a change in that directory. -/
theorem change_inner {files : FileSystem} {entries : Entries} {first : Name}
    (held : files.entries.lookup first = some (.directory entries))
    (fits : first.length ≤ longestName) (edit : Name → Entries → Except Cause Entries)
    (atRoot : Cause) (path : Path) (deeper : path ≠ [])
    (admitted : Path.refusal? (first :: path) = none)
    : files.change edit atRoot (first :: path)
      = (FileSystem.change ⟨entries⟩ edit atRoot path).map (fun changed =>
          ⟨Entries.set first (.directory changed.entries) files.entries⟩) := by
  obtain ⟨name, rest, rfl⟩ := List.exists_cons_of_ne_nil deeper
  rw [change_cons files edit atRoot admitted,
    change_cons _ edit atRoot (Path.refusal?_of_sublist (List.sublist_cons_self _ _) admitted)]
  simp only [Entries.change, Nat.not_lt.mpr fits, if_false, held]
  cases Entries.change edit entries name rest <;> rfl

theorem exists_inside {files : FileSystem} {way : Path} (short : way.Short)
    (there : files.nodeAt? way = some .directory)
    : ∃ inner around, Inside files way inner around := by
  induction way generalizing files with
  | nil =>
      exact ⟨files.entries, FileSystem.mk, rfl, fun _ => rfl, fun edit atRoot name rest =>
        change_cons files edit atRoot⟩
  | cons first way ih =>
      obtain ⟨fits, shorts⟩ := List.forall_mem_cons.mp short
      obtain ⟨entries, held, below⟩
          : ∃ entries,
              files.entries.lookup first = some (.directory entries)
              ∧ nodeAt? ⟨entries⟩ way = some .directory := by
        obtain ⟨entry, held, below⟩ := Option.bind_eq_some_iff.mp there
        cases entry with
        | directory entries => exact ⟨entries, held, below⟩
        | file content => cases way <;> simp [Entry.nodeAt?, Entry.node] at below
      obtain ⟨inner, around, inside⟩ := ih shorts below
      refine ⟨inner, fun entries =>
        ⟨Entries.set first (.directory (around entries).entries) files.entries⟩, ?_, ?_, ?_⟩
      · simp [inside.whole, Entries.set_of_lookup held]
      · intro path
        rw [inside.nodeAt?_eq, List.cons_append, ← nodeAt?_inner held]
      · intro edit atRoot name rest admitted
        have deeper := inside.change_eq edit atRoot name rest
          (Path.refusal?_of_sublist (List.sublist_cons_self _ _) admitted)
        have step := change_inner held fits edit atRoot (way ++ name :: rest) (by simp) admitted
        rw [List.cons_append, step, deeper]
        cases Entries.change edit inner name rest <;> rfl

-----------------------------------------------------------------------------------------
-- Calls that get as far as a directory
-----------------------------------------------------------------------------------------

section

variable {edit : Name → Entries → Except Cause Entries} {entry : Entry}
  {objection : Option Node → Option Cause} {files : FileSystem} {way : Path} {name : Name}

theorem Inside.lookup_eq {inner : Entries} {around : Entries → FileSystem}
    (inside : Inside files way inner around) (name : Name)
    : (inner.lookup name).map Entry.node = files.nodeAt? (way ++ [name]) := by
  rw [← inside.nodeAt?_eq]
  cases found : inner.lookup name <;> simp [nodeAt?, Entry.nodeAt?, found]

theorem change_of_long {rest : Path} (atRoot : Cause) (there : files.nodeAt? way = some .directory)
    (short : way.Short) (long : longestName < name.length)
    (admitted : Path.refusal? (way ++ name :: rest) = none)
    : files.change edit atRoot (way ++ name :: rest) = .error .nameTooLong := by
  obtain ⟨inner, around, inside⟩ := exists_inside short there
  rw [inside.change_eq _ _ _ _ admitted]
  cases rest <;> simp [Entries.change, long, Except.map]

theorem change_of_missing {next : Name} {rest : Path} (atRoot : Cause)
    (there : files.nodeAt? way = some .directory) (short : Path.Short (way ++ [name]))
    (missing : files.nodeAt? (way ++ [name]) = none)
    (admitted : Path.refusal? (way ++ name :: next :: rest) = none)
    : files.change edit atRoot (way ++ name :: next :: rest) = .error .noEntry := by
  obtain ⟨shorts, fits⟩ := List.forall_mem_append.mp short
  obtain ⟨inner, around, inside⟩ := exists_inside shorts there
  have nothing : inner.lookup name = none := by
    rw [← inside.lookup_eq] at missing
    exact Option.map_eq_none_iff.mp missing
  rw [inside.change_eq _ _ _ _ admitted]
  simp [Entries.change, Nat.not_lt.mpr (fits name (by simp)), nothing, Except.map]

/-- In a directory that is there a change is refused for what is said against it only. -/
theorem change_of_objection (puts : Puts edit entry objection) {atRoot cause : Cause}
    (there : files.nodeAt? way = some .directory) (short : Path.Short (way ++ [name]))
    (admitted : Path.refusal? (way ++ [name]) = none)
    (met : objection (files.nodeAt? (way ++ [name])) = some cause)
    : files.change edit atRoot (way ++ [name]) = .error cause := by
  obtain ⟨shorts, fits⟩ := List.forall_mem_append.mp short
  obtain ⟨inner, around, inside⟩ := exists_inside shorts there
  rw [inside.change_eq _ _ _ _ admitted]
  simp [Entries.change, Nat.not_lt.mpr (fits name (by simp)), puts.edit_eq, inside.lookup_eq, met,
    Except.map]

theorem exists_change (puts : Puts edit entry objection) {atRoot : Cause}
    (root : objection (some .directory) = some atRoot)
    (there : files.nodeAt? way = some .directory) (short : Path.Short (way ++ [name]))
    (admitted : Path.refusal? (way ++ [name]) = none)
    (free : objection (files.nodeAt? (way ++ [name])) = none)
    : ∃ after,
        files.change edit atRoot (way ++ [name]) = .ok after
        ∧ Put files after (way ++ [name]) entry.node := by
  obtain ⟨shorts, fits⟩ := List.forall_mem_append.mp short
  obtain ⟨inner, around, inside⟩ := exists_inside shorts there
  have done
      : files.change edit atRoot (way ++ [name])
        = .ok (around (Entries.set name entry inner)) := by
    rw [inside.change_eq _ _ _ _ admitted]
    simp [Entries.change, Nat.not_lt.mpr (fits name (by simp)), puts.edit_eq, inside.lookup_eq,
      free, Except.map]
  have step := changed puts root files (way ++ [name])
  rw [done] at step
  cases step with
  | put put _ => exact ⟨_, done, put⟩

/-- Writing into a file what it holds changes nothing. -/
theorem writeFile_of_written {target : Path} {content : Bytes}
    (admitted : target.refusal? = none) (short : target.Short)
    (written : files.nodeAt? target = some (.file content))
    : files.writeFile target content = .ok files := by
  rcases List.eq_nil_or_concat target with rfl | ⟨way, name, rfl⟩
  · simp [nodeAt?_nil] at written
  · rw [List.concat_eq_append] at *
    obtain ⟨shorts, fits⟩ := List.forall_mem_append.mp short
    have something : files.nodeAt? (way ++ [name]) ≠ none := by simp [written]
    obtain ⟨inner, around, inside⟩ := exists_inside shorts (nodeAt?_of_below something)
    have held : inner.lookup name = some (.file content) := by
      rw [← inside.lookup_eq] at written
      obtain ⟨entry, held, node⟩ := Option.map_eq_some_iff.mp written
      cases entry with
      | directory entries => simp [Entry.node] at node
      | file old => simpa [Entry.node, held] using node
    rw [writeFile, inside.change_eq _ _ _ _ admitted]
    simp [Entries.change, Nat.not_lt.mpr (fits name (by simp)), Entries.setFile, held,
      Entries.set_of_lookup held, Except.map, Except.mapError, inside.whole]

end

-----------------------------------------------------------------------------------------
-- A directory that is there
-----------------------------------------------------------------------------------------

section

variable {files after : FileSystem} {path : Path}

theorem makeDirectory_of_there (admitted : path.refusal? = none) (short : path.Short)
    {node : Node} (there : files.nodeAt? path = some node)
    : files.makeDirectory path = .error .alreadyExists := by
  rcases List.eq_nil_or_concat path with rfl | ⟨way, name, rfl⟩
  · rfl
  · rw [List.concat_eq_append] at *
    have way_there : files.nodeAt? way = some .directory :=
      nodeAt?_of_below (by simp [there] : files.nodeAt? (way ++ [name]) ≠ none)
    exact change_of_objection puts_addDirectory way_there short admitted (by simp [there, occupied])

theorem makeDirectories_of_there (admitted : path.refusal? = none) (short : path.Short)
    (there : files.nodeAt? path = some .directory)
    : files.makeDirectories path = (files, .ok ()) := by
  obtain ⟨entry, found, node⟩
      : ∃ entry, files.find path = .ok entry ∧ entry.node = .directory := by
    simp only [FileSystem.find, admitted]
    exact Entry.find_eq_ok_iff.mpr ⟨short, there⟩
  have held := makeDirectory_of_there admitted short there
  cases entry with
  | file content => cases node
  | directory entries => simp [makeDirectories, held, found]

theorem there_of_find {entries : Entries} (found : files.find path = .ok (.directory entries))
    : path.refusal? = none ∧ path.Short ∧ files.nodeAt? path = some .directory := by
  cases refusal : path.refusal? with
  | some cause => simp [FileSystem.find, refusal] at found
  | none =>
      simp only [FileSystem.find, refusal] at found
      exact ⟨rfl, Entry.find_eq_ok_iff.mp ⟨_, found, rfl⟩⟩

-----------------------------------------------------------------------------------------
-- Names that are missing
-----------------------------------------------------------------------------------------

/-- Along a path that leads somewhere there are directories only. -/
theorem directory_of_prefix {other : Path} {node : Node} (on_way : other <+: path)
    (there : files.nodeAt? path = some node)
    : other = path ∨ files.nodeAt? other = some .directory := by
  obtain ⟨rest, rfl⟩ := on_way
  cases rest with
  | nil => exact Or.inl (by simp)
  | cons name rest =>
      exact Or.inr
        (nodeAt?_of_below (by simp [there] : files.nodeAt? (other ++ name :: rest) ≠ none))

/-- Along a path that leads to a missing name there is no file. -/
theorem Lacks.not_file (lacks : files.Lacks path) {other : Path} (on_way : other <+: path)
    (content : Bytes)
    : files.nodeAt? other ≠ some (.file content) := by
  obtain ⟨base, name, rest, rfl, -, directory, nothing⟩ := lacks
  have directory : files.nodeAt? base = some .directory := directory
  have nothing : files.nodeAt? (base ++ [name]) = none := nothing
  intro file
  rcases List.prefix_or_prefix_of_prefix on_way (by simp : base ++ [name] <+: base ++ name :: rest)
    with inside | beyond
  · rcases List.prefix_concat_iff.mp inside with rfl | above
    · simp [file] at nothing
    · rcases directory_of_prefix above directory with rfl | other_directory
      · simp [file] at directory
      · simp [file] at other_directory
  · rcases directory_of_prefix beyond file with rfl | there
    · simp [file] at nothing
    · simp [nothing] at there

theorem Lacks.append (lacks : files.Lacks path) (more : Path) : files.Lacks (path ++ more) := by
  obtain ⟨base, name, rest, rfl, found⟩ := lacks
  exact ⟨base, name, rest ++ more, by simp, found⟩

/-- The missing name comes before any name that is too long. -/
theorem Lacks.before_long {way : Path} {long : Name} {rest : Path}
    (lacks : files.Lacks (way ++ long :: rest)) (tooLong : longestName < long.length)
    : files.Lacks way := by
  obtain ⟨base, name, more, split, short, found⟩ := lacks
  have split : way ++ long :: rest = (base ++ [name]) ++ more := by simp [split]
  rcases List.append_eq_append_iff.mp split with ⟨between, whole, tail⟩ | ⟨between, rfl, -⟩
  · cases between with
    | nil => exact ⟨base, name, [], by simpa using whole.symm, short, found⟩
    | cons first between =>
        obtain rfl : long = first := (List.cons.inj tail).1
        exact absurd (short long (by simp [whole])) (Nat.not_le_of_lt tooLong)
  · exact ⟨base, name, between, by simp, short, found⟩

theorem Entries.lacks_of_change {edit : Name → Entries → Except Cause Entries}
    (known : ∀ name entries, edit name entries ≠ .error .noEntry) {entries : Entries}
    {name : Name} {path : Path} (h : Entries.change edit entries name path = .error .noEntry)
    : (Entry.directory entries).Lacks (name :: path).dropLast := by
  induction path generalizing entries name with
  | nil =>
      simp only [Entries.change] at h
      split at h
      · cases h
      · exact absurd h (known name entries)
  | cons next path ih =>
      by_cases long : longestName < name.length
      · simp [Entries.change, long] at h
      · rw [List.dropLast_cons_cons]
        cases held : entries.lookup name with
        | none =>
            exact ⟨[], name, _, rfl, by simpa [Path.Short] using Nat.le_of_not_lt long, rfl,
              by simp [Entry.nodeAt?, held]⟩
        | some inner =>
            rw [Entry.lacks_cons_iff held (Nat.le_of_not_lt long)]
            cases inner with
            | file content => simp [Entries.change, long, held] at h
            | directory inner =>
                refine ih ?_
                cases deeper : Entries.change edit inner next path with
                | ok changed => simp [Entries.change, long, held, deeper, Except.map] at h
                | error cause => simpa [Entries.change, long, held, deeper, Except.map] using h

theorem lacks_of_makeDirectory (h : files.makeDirectory path = .error .noEntry)
    : path.refusal? = none ∧ files.Lacks path.dropLast := by
  have known (name : Name) (entries : Entries)
      : Entries.addDirectory name entries ≠ .error .noEntry := by
    cases held : entries.lookup name <;> simp [Entries.addDirectory, held]
  simp only [makeDirectory, FileSystem.change] at h
  split at h
  case h_1 cause refusal =>
      rcases Path.cause_of_refusal? refusal with rfl | rfl <;> cases h
  case h_2 => cases h
  case h_3 name rest refusal =>
      refine ⟨refusal, Entries.lacks_of_change known ?_⟩
      cases made : Entries.change Entries.addDirectory files.entries name rest with
      | ok changed => simp [made, Except.map] at h
      | error cause => simpa [made, Except.map] using h

-----------------------------------------------------------------------------------------
-- Making directories from the top
-----------------------------------------------------------------------------------------

/-- Directories are made along a path without files on it, however many of them are missing, and
then the names behind it have their turn.
-/
theorem exists_makeBelow {files : FileSystem} (base : Path) {way : Path}
    (admitted : Path.refusal? (base ++ way) = none) (short : Path.Short (base ++ way))
    (there : files.nodeAt? base = some .directory)
    (clear : ∀ other content, other <+: base ++ way → files.nodeAt? other ≠ some (.file content))
    (rest : Path)
    : ∃ after : FileSystem,
        files.makeBelow base (way ++ rest) = after.makeBelow (base ++ way) rest
        ∧ after.nodeAt? (base ++ way) = some .directory := by
  induction way generalizing files base with
  | nil => exact ⟨files, by simp, by simpa using there⟩
  | cons name way ih =>
      have whole : base ++ [name] ++ way = base ++ name :: way := by simp
      have here_admitted : Path.refusal? (base ++ [name]) = none :=
        Path.refusal?_of_sublist (List.IsPrefix.sublist (by simp)) admitted
      have here_short : Path.Short (base ++ [name]) :=
        fun other mem => short other (List.IsPrefix.subset (by simp) mem)
      rw [← whole] at admitted short clear
      rw [← whole, List.cons_append, makeBelow]
      cases found : files.nodeAt? (base ++ [name]) with
      | none =>
          obtain ⟨made, done, put⟩ := exists_change puts_addDirectory rfl there here_short
            here_admitted (by simp [found, occupied])
          have done : files.makeDirectory (base ++ [name]) = .ok made := done
          simp only [done]
          refine ih (base ++ [name]) admitted short (by simp [put.nodeAt?_eq, Entry.node]) ?_
          intro other content on_way
          rw [put.nodeAt?_eq]
          split
          · simp [Entry.node]
          · exact clear other content on_way
      | some node =>
          have held := makeDirectory_of_there here_admitted here_short found
          cases node with
          | file content =>
              exact absurd found (clear _ content (List.prefix_append _ _))
          | directory =>
              simp only [held]
              exact ih (base ++ [name]) admitted short found clear

/-- A path whose directories cannot be made to the end. On the way to a name that is too long some
directory is missing, so it is made before the long name is come upon.
-/
structure CutShort (files : FileSystem) (path way : Path) (long : Name) (rest : Path)
    : Prop where
  split : path = way ++ long :: rest
  missing : files.Lacks way
  short : way.Short
  tooLong : longestName < long.length
  admitted : path.refusal? = none

theorem makeDirectory_of_lacks {way : Path} {next : Name} {rest : Path} (lacks : files.Lacks way)
    (admitted : Path.refusal? (way ++ next :: rest) = none)
    : files.makeDirectory (way ++ next :: rest) = .error .noEntry := by
  obtain ⟨base, name, more, rfl, short, directory, nothing⟩ := lacks
  obtain ⟨second, tail, split⟩ : ∃ second tail, more ++ next :: rest = second :: tail :=
    List.exists_cons_of_ne_nil (by simp)
  have whole : base ++ name :: more ++ next :: rest = base ++ name :: second :: tail := by
    simp [← split]
  rw [whole] at admitted ⊢
  exact change_of_missing _ directory short nothing admitted

/-- What becomes of a path that is cut short: the directories before the long name are there, and
the complaint is about the path down to the long name.
-/
theorem CutShort.exists_makeDirectories {way : Path} {long : Name} {rest : Path}
    (cut : CutShort files path way long rest)
    : ∃ after : FileSystem,
        files.makeDirectories path
          = (after, .error ⟨.nameTooLong, .makeDirectory, way ++ [long]⟩)
        ∧ after.nodeAt? way = some .directory := by
  obtain ⟨rfl, lacks, short, tooLong, admitted⟩ := cut
  have way_admitted : way.refusal? = none :=
    Path.refusal?_of_sublist (List.sublist_append_left _ _) admitted
  have long_admitted : Path.refusal? (way ++ [long]) = none :=
    Path.refusal?_of_sublist (List.IsPrefix.sublist (by simp)) admitted
  obtain ⟨after, made, there⟩ := exists_makeBelow [] way_admitted short
    files.nodeAt?_nil (fun other content on_way => lacks.not_file on_way content) (long :: rest)
  have stops : after.makeDirectory (way ++ [long]) = .error .nameTooLong :=
    change_of_long _ there short tooLong long_admitted
  refine ⟨after, ?_, there⟩
  rw [makeDirectories, makeDirectory_of_lacks lacks admitted]
  simp only [List.nil_append] at made
  simp only [made, makeBelow, stops]

/-- Once the directories before the long name are there, the complaint is about the whole path. -/
theorem CutShort.makeDirectories_again {way : Path} {long : Name} {rest : Path}
    (cut : CutShort files path way long rest) (there : after.nodeAt? way = some .directory)
    : after.makeDirectories path = (after, .error ⟨.nameTooLong, .makeDirectory, path⟩) := by
  obtain ⟨rfl, -, short, tooLong, admitted⟩ := cut
  have stops : after.makeDirectory (way ++ long :: rest) = .error .nameTooLong :=
    change_of_long _ there short tooLong admitted
  simp only [makeDirectories, stops]

/-- All that can come of making sure of a directory. -/
inductive Secured (files : FileSystem) (path : Path) : FileSystem × Except Fault Unit → Prop where
  | there {after : FileSystem} (admitted : path.refusal? = none) (short : path.Short)
      (directory : after.nodeAt? path = some .directory)
      : Secured files path (after, .ok ())
  | refused (fault : Fault) : Secured files path (files, .error fault)
  | cutShort {after : FileSystem} {way : Path} {long : Name} {rest : Path}
      (cut : CutShort files path way long rest) (directory : after.nodeAt? way = some .directory)
      : Secured files path (after, .error ⟨.nameTooLong, .makeDirectory, way ++ [long]⟩)

theorem secured_of_missing (h : files.makeDirectory path = .error .noEntry)
    : Secured files path (files.makeDirectories path) := by
  obtain ⟨admitted, lacks⟩ := lacks_of_makeDirectory h
  have lacks : files.Lacks path := by
    obtain ⟨more, split⟩ := path.dropLast_prefix
    exact split ▸ lacks.append more
  by_cases short : path.Short
  · obtain ⟨after, made, there⟩ := exists_makeBelow [] admitted short
      files.nodeAt?_nil (fun other content on_way => lacks.not_file on_way content) []
    have done : files.makeDirectories path = (after, .ok ()) := by
      simpa [makeDirectories, h, makeBelow] using made
    rw [done]
    exact .there admitted short there
  · obtain ⟨way, long, rest, rfl, shorts, tooLong⟩ := Path.exists_long short
    have cut : CutShort files (way ++ long :: rest) way long rest :=
      ⟨rfl, lacks.before_long tooLong, shorts, tooLong, admitted⟩
    obtain ⟨after, made, there⟩ := cut.exists_makeDirectories
    rw [made]
    exact .cutShort cut there

theorem secured_makeDirectories (files : FileSystem) (path : Path)
    : Secured files path (files.makeDirectories path) := by
  have step := changed_makeDirectory files path
  cases called : files.makeDirectory path with
  | ok after =>
      rw [called] at step
      cases step with
      | put put free =>
          rw [makeDirectories, called]
          exact .there (refusal?_of_change called) put.short (by simp [put.nodeAt?_eq])
  | error cause =>
      cases cause with
      | noEntry => exact secured_of_missing called
      | alreadyExists =>
          simp only [makeDirectories, called]
          split
          · next entries found =>
              obtain ⟨admitted, short, there⟩ := there_of_find found
              exact .there admitted short there
          · exact .refused _
      | notDirectory | isDirectory | nameTooLong | zeroOctet =>
          rw [makeDirectories, called]
          exact .refused _

-----------------------------------------------------------------------------------------
-- Storing again
-----------------------------------------------------------------------------------------

variable {target : Path} {content : Bytes}

theorem CutShort.exists_store {way : Path} {long : Name} {rest : Path}
    (cut : CutShort files target.dropLast way long rest) (content : Bytes)
    : ∃ after : FileSystem,
        files.store target content
          = (after, .error ⟨.nameTooLong, .makeDirectory, way ++ [long]⟩)
        ∧ after.store target content
          = (after, .error ⟨.nameTooLong, .makeDirectory, target.dropLast⟩) := by
  obtain ⟨after, made, there⟩ := cut.exists_makeDirectories
  have again := cut.makeDirectories_again there
  exact ⟨after, by simp only [store, made], by simp only [store, again]⟩

/-- A file that was stored is stored again, and nothing changes. -/
theorem store_of_stored (h : files.store target content = (after, .ok ()))
    : after.store target content = (after, .ok ()) := by
  cases stored_of_eq h with
  | written grown admitted put free =>
      have written : after.nodeAt? target = some (.file content) := by simp [put.nodeAt?_eq]
      have above : Path.Above target.dropLast target := by
        rcases List.eq_nil_or_concat target with rfl | ⟨way, name, rfl⟩
        · simp [nodeAt?_nil] at written
        · exact ⟨name, [], by simp⟩
      have part : target.dropLast.Sublist target := List.dropLast_sublist target
      have secured := makeDirectories_of_there (Path.refusal?_of_sublist part admitted)
        (fun name mem => put.short name (part.subset mem))
        (above.nodeAt?_eq (by simp [written] : after.nodeAt? target ≠ none))
      simp only [store, secured, writeFile_of_written admitted put.short written]

/-- Storing once more does what storing did and changes nothing, unless the directories on the way
are cut short before the last of them.
-/
theorem store_again (calm : ∀ way long next rest,
      ¬ CutShort files target.dropLast way long (next :: rest))
    {result : Except Fault Unit} (h : files.store target content = (after, result))
    : after.store target content = (after, result) := by
  cases result with
  | ok done => exact store_of_stored h
  | error fault =>
      have secured := secured_makeDirectories files target.dropLast
      cases made : files.makeDirectories target.dropLast with
      | mk middle said =>
          rw [made] at secured
          simp only [store, made] at h
          cases secured with
          | there admitted short directory =>
              have again := makeDirectories_of_there admitted short directory
              cases written : middle.writeFile target content with
              | ok done => simp [written] at h
              | error refusal =>
                  obtain ⟨rfl, rfl⟩ : middle = after ∧ refusal = fault := by
                    simpa [written] using h
                  simp only [store, again, written]
          | refused said =>
              obtain ⟨rfl, rfl⟩ : files = after ∧ said = fault := by simpa using h
              simp only [store, made]
          | @cutShort _ way long rest cut directory =>
              obtain ⟨rfl, rfl⟩ : middle = after ∧ _ = fault := by simpa using h
              have again := cut.makeDirectories_again directory
              cases rest with
              | nil =>
                  simp only [store, again]
                  rw [cut.split]
              | cons next rest => exact absurd cut (calm way long next rest)

end

end NamingAdvice.FileSystem
