import NamingAdvice.FileSystem

/-! A file system by its paths. A path leads to a file with its content, to a directory or to
nothing. A call that succeeds puts one node at one path and leaves every other path as it was,
and a call that misses something misses the directory it would have worked in.
-/

namespace NamingAdvice.FileSystem

/-- What stands at a path; of a directory, only that it is one. -/
inductive Node where
  | file (content : Bytes)
  | directory
deriving DecidableEq, Repr

def Entry.node : Entry → Node
  | .file content => .file content
  | .directory _ => .directory

/-- The node at the end of a path from an entry, however long the names are. -/
def Entry.nodeAt? : Entry → Path → Option Node
  | entry, [] => some entry.node
  | .file _, _ :: _ => none
  | .directory entries, name :: path => (entries.lookup name).bind (·.nodeAt? path)

/-- The node at a path. -/
def nodeAt? (files : FileSystem) (path : Path) : Option Node :=
  (Entry.directory files.entries).nodeAt? path

/-- The names of a path are no longer than names can be. -/
def Path.Short (path : Path) : Prop :=
  ∀ name ∈ path, name.length ≤ longestName

-----------------------------------------------------------------------------------------
-- Looking up
-----------------------------------------------------------------------------------------

theorem nodeAt?_nil (files : FileSystem) : files.nodeAt? [] = some .directory :=
  rfl

/-- Only in a directory does anything stand below a path. -/
theorem Entry.nodeAt?_of_below {entry : Entry} {path : Path} {name : Name} {rest : Path}
    (h : entry.nodeAt? (path ++ name :: rest) ≠ none)
    : entry.nodeAt? path = some .directory := by
  induction path generalizing entry with
  | nil =>
      cases entry with
      | file content => exact absurd rfl h
      | directory entries => rfl
  | cons first path ih =>
      cases entry with
      | file content => exact absurd rfl h
      | directory entries =>
          cases found : entries.lookup first with
          | none => simp [Entry.nodeAt?, found] at h
          | some inner =>
              simp only [List.cons_append, Entry.nodeAt?, found, Option.bind_some] at h ⊢
              exact ih h

theorem nodeAt?_of_below {files : FileSystem} {path : Path} {name : Name} {rest : Path}
    (h : files.nodeAt? (path ++ name :: rest) ≠ none)
    : files.nodeAt? path = some .directory :=
  Entry.nodeAt?_of_below h

theorem Entry.find_eq_ok_iff {entry : Entry} {path : Path} {node : Node}
    : (∃ found, entry.find path = .ok found ∧ found.node = node)
      ↔ path.Short ∧ entry.nodeAt? path = some node := by
  induction path generalizing entry with
  | nil => simp [Entry.find, Entry.nodeAt?, Path.Short]
  | cons name path ih =>
      cases entry with
      | file content => simp [Entry.find, Entry.nodeAt?]
      | directory entries =>
          by_cases long : longestName < name.length
          · simp [Entry.find, Path.Short, long, Nat.not_le_of_lt long]
          · cases found : entries.lookup name with
            | none => simp [Entry.find, Entry.nodeAt?, long, found]
            | some inner =>
                simpa [Entry.find, Entry.nodeAt?, Path.Short, long, found, Nat.le_of_not_lt long]
                  using ih

theorem read_eq_ok_iff {files : FileSystem} {path : Path} {content : Bytes}
    : files.read path = .ok content
      ↔ path.refusal? = none ∧ path.Short ∧ files.nodeAt? path = some (.file content) := by
  have walked
      : files.read path = .ok content
        ↔ ∃ found, files.find path = .ok found ∧ found.node = .file content := by
    cases found : files.find path with
    | error cause => simp [FileSystem.read, found]
    | ok entry => cases entry <;> simp [FileSystem.read, found, Entry.node]
  cases refusal : path.refusal? with
  | some cause => simp [walked, FileSystem.find, refusal]
  | none =>
      simp only [walked, FileSystem.find, refusal, true_and]
      exact Entry.find_eq_ok_iff

/-- On the way along a path comes a directory that does not have the next name. -/
def Entry.Lacks (entry : Entry) (path : Path) : Prop :=
  ∃ base name rest,
    path = base ++ name :: rest
    ∧ Path.Short (base ++ [name])
    ∧ entry.nodeAt? base = some .directory
    ∧ entry.nodeAt? (base ++ [name]) = none

/-- A path of a file system leads to a missing name. -/
def Lacks (files : FileSystem) (path : Path) : Prop :=
  (Entry.directory files.entries).Lacks path

theorem Entry.lacks_cons_iff {entries : Entries} {name : Name} {inner : Entry}
    (held : entries.lookup name = some inner) (short : name.length ≤ longestName) (path : Path)
    : (Entry.directory entries).Lacks (name :: path) ↔ inner.Lacks path := by
  constructor
  · intro lacks
    obtain ⟨base, next, rest, split, shorts, directory, nothing⟩ := lacks
    cases base with
    | nil =>
        obtain ⟨rfl, -⟩ : name = next ∧ path = rest := by simpa using split
        simp [Entry.nodeAt?, held] at nothing
    | cons first base =>
        obtain ⟨rfl, rfl⟩ : name = first ∧ path = base ++ next :: rest := by simpa using split
        refine ⟨base, next, rest, rfl, (List.forall_mem_cons.mp shorts).2, ?_, ?_⟩
        · simpa [Entry.nodeAt?, held] using directory
        · simpa [Entry.nodeAt?, held] using nothing
  · intro lacks
    obtain ⟨base, next, rest, rfl, shorts, directory, nothing⟩ := lacks
    refine ⟨name :: base, next, rest, rfl, List.forall_mem_cons.mpr ⟨short, shorts⟩, ?_, ?_⟩
    · simpa [Entry.nodeAt?, held] using directory
    · simpa [Entry.nodeAt?, held] using nothing

theorem Entry.not_lacks_of_file (content : Bytes) (path : Path)
    : ¬ (Entry.file content).Lacks path := by
  intro lacks
  obtain ⟨base, next, rest, -, -, directory, -⟩ := lacks
  cases base <;> simp [Entry.nodeAt?, Entry.node] at directory

theorem Entry.not_lacks_of_long {entry : Entry} {name : Name}
    (long : longestName < name.length) (path : Path)
    : ¬ entry.Lacks (name :: path) := by
  intro lacks
  obtain ⟨base, next, rest, split, shorts, -, -⟩ := lacks
  refine Nat.not_le_of_lt long (shorts name ?_)
  cases base with
  | nil => simp [(List.cons.inj split).1]
  | cons first base => simp [(List.cons.inj split).1]

theorem Entry.find_eq_noEntry_iff {entry : Entry} {path : Path}
    : entry.find path = .error .noEntry ↔ entry.Lacks path := by
  induction path generalizing entry with
  | nil => simp [Entry.find, Entry.Lacks]
  | cons name path ih =>
      cases entry with
      | file content => simp [Entry.find, not_lacks_of_file]
      | directory entries =>
          by_cases long : longestName < name.length
          · simp [Entry.find, long, not_lacks_of_long long]
          · cases held : entries.lookup name with
            | none =>
                simp only [Entry.find, long, held, if_false, true_iff]
                exact ⟨[], name, path, rfl, by simpa [Path.Short] using Nat.le_of_not_lt long, rfl,
                  by simp [Entry.nodeAt?, held]⟩
            | some inner =>
                simpa [Entry.find, long, held, lacks_cons_iff held (Nat.le_of_not_lt long)]
                  using ih

theorem Path.cause_of_refusal? {path : Path} {cause : Cause} (h : path.refusal? = some cause)
    : cause = .zeroOctet ∨ cause = .nameTooLong := by
  unfold Path.refusal? at h
  grind

/-- A file is not found exactly if its path is not refused and leads to a missing name. -/
theorem read_eq_noEntry_iff {files : FileSystem} {path : Path}
    : (∃ fault, files.read path = .error fault ∧ fault.cause = .noEntry)
      ↔ path.refusal? = none ∧ files.Lacks path := by
  have walked
      : (∃ fault, files.read path = .error fault ∧ fault.cause = .noEntry)
        ↔ files.find path = .error .noEntry := by
    cases found : files.find path with
    | error cause => simp [FileSystem.read, found]
    | ok entry => cases entry <;> simp [FileSystem.read, found]
  rw [walked]
  cases refusal : path.refusal? with
  | some cause =>
      rcases Path.cause_of_refusal? refusal with rfl | rfl <;> simp [FileSystem.find, refusal]
  | none =>
      simp only [FileSystem.find, refusal, true_and]
      exact Entry.find_eq_noEntry_iff

-----------------------------------------------------------------------------------------
-- Changing
-----------------------------------------------------------------------------------------

theorem Entries.lookup_cons (held other : Name) (entry : Entry) (entries : Entries)
    : List.lookup other ((held, entry) :: entries)
      = if other = held then some entry else entries.lookup other := by
  by_cases same : other = held
  · simp [same]
  · have differ : (other == held) = false := beq_false_of_ne same
    simp [List.lookup_cons, differ, same]

theorem Entries.lookup_set (name other : Name) (entry : Entry) (entries : Entries)
    : (Entries.set name entry entries).lookup other
      = if other = name then some entry else entries.lookup other := by
  induction entries with
  | nil => exact Entries.lookup_cons name other entry []
  | cons first entries ih =>
      obtain ⟨held, old⟩ := first
      by_cases there : held = name
      · by_cases same : other = name <;> simp [Entries.set, Entries.lookup_cons, there, same]
      · by_cases same : other = held <;> simp [Entries.set, Entries.lookup_cons, there, same, ih]

/-- An edit that puts an entry with nothing below it under a name, unless something is to be
said against what stands there.
-/
structure Puts (edit : Name → Entries → Except Cause Entries) (entry : Entry)
    (objection : Option Node → Option Cause)
    : Prop where
  edit_eq : ∀ name entries,
    edit name entries
    = match objection ((entries.lookup name).map Entry.node) with
      | some cause => .error cause
      | none => .ok (Entries.set name entry entries)
  bare : ∀ name path, entry.nodeAt? (name :: path) = none
  keeps : objection (some .directory) ≠ none

/-- A file system in which a node was put at a path, and that is all. -/
structure Put (before after : FileSystem) (path : Path) (node : Node) : Prop where
  short : path.Short
  nodeAt?_eq : ∀ other,
    after.nodeAt? other = if other = path then some node else before.nodeAt? other

/-- All that can come of a change. -/
inductive Changed (before : FileSystem) (path : Path) (node : Node)
    (objection : Option Node → Option Cause)
    : Except Cause FileSystem → Prop where
  | put {after : FileSystem} (made : Put before after path node)
      (free : objection (before.nodeAt? path) = none)
      : Changed before path node objection (.ok after)
  | refused {cause : Cause} (met : objection (before.nodeAt? path) = some cause)
      : Changed before path node objection (.error cause)
  | missing (nothing : before.nodeAt? path.dropLast = none)
      : Changed before path node objection (.error .noEntry)
  | notDirectory : Changed before path node objection (.error .notDirectory)
  | tooLong : Changed before path node objection (.error .nameTooLong)
  | zeroOctet : Changed before path node objection (.error .zeroOctet)

section

variable {edit : Name → Entries → Except Cause Entries} {entry : Entry}
  {objection : Option Node → Option Cause}

/-- If the directory to work in is there, nothing is said to be missing. -/
theorem Changed.cause_ne {before : FileSystem} {path : Path} {node : Node} {cause : Cause}
    (h : Changed before path node objection (.error cause))
    (there : before.nodeAt? path.dropLast ≠ none)
    (unsaid : objection (before.nodeAt? path) ≠ some .noEntry)
    : cause ≠ .noEntry := by
  intro same
  subst same
  cases h with
  | refused met => exact unsaid met
  | missing nothing => exact there nothing

/-- The entries of a directory are a file system of their own. -/
theorem nodeAt?_inner {entries inner : Entries} {name : Name}
    (h : entries.lookup name = some (.directory inner)) (path : Path)
    : nodeAt? ⟨entries⟩ (name :: path) = nodeAt? ⟨inner⟩ path := by
  simp only [nodeAt?, Entry.nodeAt?, h, Option.bind_some]

theorem nodeAt?_set (entries : Entries) (name first : Name) (entry : Entry) (rest : Path)
    : nodeAt? ⟨Entries.set name entry entries⟩ (first :: rest)
      = if first = name then entry.nodeAt? rest else nodeAt? ⟨entries⟩ (first :: rest) := by
  by_cases same : first = name <;> simp [nodeAt?, Entry.nodeAt?, Entries.lookup_set, same]

theorem Put.single {entries : Entries} {name : Name} (puts : Puts edit entry objection)
    (short : name.length ≤ longestName)
    (free : objection (nodeAt? ⟨entries⟩ [name]) = none)
    : Put ⟨entries⟩ ⟨Entries.set name entry entries⟩ [name] entry.node := by
  refine ⟨by simpa [Path.Short] using short, ?_⟩
  intro other
  rcases other with _ | ⟨first, _ | ⟨next, rest⟩⟩
  · rfl
  · by_cases same : first = name <;> simp [nodeAt?_set, same, Entry.nodeAt?]
  · by_cases same : first = name
    · subst same
      -- Nothing stood below, or the edit would have met a directory.
      have nothing : nodeAt? ⟨entries⟩ (first :: next :: rest) = none := by
        refine Decidable.byContradiction (fun something => ?_)
        have stood : nodeAt? ⟨entries⟩ [first] = some .directory := nodeAt?_of_below something
        exact puts.keeps (stood ▸ free)
      simp [nodeAt?_set, puts.bare, nothing]
    · simp [nodeAt?_set, same]

/-- What happens to a name in the directory that is edited. -/
theorem Puts.changed_single (puts : Puts edit entry objection) (entries : Entries) {name : Name}
    (short : name.length ≤ longestName)
    : Changed ⟨entries⟩ [name] entry.node objection ((edit name entries).map FileSystem.mk) := by
  have held : nodeAt? ⟨entries⟩ [name] = (entries.lookup name).map Entry.node := by
    cases found : entries.lookup name <;> simp [nodeAt?, Entry.nodeAt?, found]
  simp only [puts.edit_eq, ← held]
  cases met : objection (nodeAt? ⟨entries⟩ [name]) with
  | some cause => exact .refused met
  | none => exact .put (.single puts short met) met

/-- A node put into an inner directory is put into the directory that holds it. -/
theorem Put.outer {entries inner changed : Entries} {name next : Name} {path : Path}
    {node : Node} (put : Put ⟨inner⟩ ⟨changed⟩ (next :: path) node)
    (held : entries.lookup name = some (.directory inner)) (short : name.length ≤ longestName)
    : Put ⟨entries⟩ ⟨Entries.set name (.directory changed) entries⟩ (name :: next :: path)
        node := by
  refine ⟨List.forall_mem_cons.mpr ⟨short, put.short⟩, ?_⟩
  intro other
  cases other with
  | nil => rfl
  | cons first rest =>
      by_cases same : first = name
      · subst same
        have holds
            : (Entries.set first (.directory changed) entries).lookup first
              = some (.directory changed) := by
          simp [Entries.lookup_set]
        simpa [nodeAt?_inner holds, nodeAt?_inner held] using put.nodeAt?_eq rest
      · simp [nodeAt?_set, same]

/-- What comes of a change in an inner directory. -/
theorem Changed.outer {entries inner : Entries} {name next : Name} {path : Path} {node : Node}
    {result : Except Cause Entries}
    (h : Changed ⟨inner⟩ (next :: path) node objection (result.map FileSystem.mk))
    (held : entries.lookup name = some (.directory inner)) (short : name.length ≤ longestName)
    : Changed ⟨entries⟩ (name :: next :: path) node objection
        ((result.map (fun inner => Entries.set name (.directory inner) entries)).map
          FileSystem.mk) := by
  cases result with
  | ok changed =>
      cases h with
      | put made free => exact .put (made.outer held short) (by rwa [nodeAt?_inner held])
  | error cause =>
      cases h with
      | refused met => exact .refused (by rwa [nodeAt?_inner held])
      | missing nothing =>
          exact .missing (by simpa [nodeAt?_inner held] using nothing)
      | notDirectory => exact .notDirectory
      | tooLong => exact .tooLong
      | zeroOctet => exact .zeroOctet

/-- What comes of a change in a directory, at any depth below it. -/
theorem Entries.changed (puts : Puts edit entry objection) (entries : Entries) (name : Name)
    (path : Path)
    : Changed ⟨entries⟩ (name :: path) entry.node objection
        ((Entries.change edit entries name path).map FileSystem.mk) := by
  induction path generalizing entries name with
  | nil =>
      by_cases long : longestName < name.length
      · simpa [Entries.change, long] using .tooLong
      · simpa [Entries.change, long] using puts.changed_single entries (Nat.le_of_not_lt long)
  | cons next path ih =>
      by_cases long : longestName < name.length
      · simpa [Entries.change, long] using .tooLong
      · simp only [Entries.change, long, if_false]
        split
        case h_1 nothing =>
            exact .missing (by simp [nodeAt?, Entry.nodeAt?, nothing])
        case h_2 => exact .notDirectory
        case h_3 inner held => exact (ih inner next).outer held (Nat.le_of_not_lt long)

/-- What comes of a change, where the root is refused as every directory is. -/
theorem changed (puts : Puts edit entry objection) {atRoot : Cause}
    (root : objection (some .directory) = some atRoot) (files : FileSystem) (path : Path)
    : Changed files path entry.node objection (files.change edit atRoot path) := by
  unfold FileSystem.change
  split
  case h_1 cause refusal =>
      rcases Path.cause_of_refusal? refusal with rfl | rfl
      · exact .zeroOctet
      · exact .tooLong
  case h_2 => exact .refused root
  case h_3 name rest refusal => exact Entries.changed puts files.entries name rest

end

theorem refusal?_of_change {edit : Name → Entries → Except Cause Entries} {atRoot : Cause}
    {files after : FileSystem} {path : Path} (h : files.change edit atRoot path = .ok after)
    : path.refusal? = none := by
  cases refusal : path.refusal? with
  | none => rfl
  | some cause => simp [FileSystem.change, refusal] at h

/-- What is said against a new directory: the name is not free. -/
def occupied : Option Node → Option Cause
  | none => none
  | some _ => some .alreadyExists

/-- What is said against writing a file: a directory stands there. -/
def directoryThere : Option Node → Option Cause
  | some .directory => some .isDirectory
  | _ => none

theorem puts_addDirectory : Puts Entries.addDirectory (.directory []) occupied where
  edit_eq name entries := by
    cases found : entries.lookup name <;> simp [Entries.addDirectory, occupied, found]
  bare _ _ := rfl
  keeps := by simp [occupied]

theorem puts_setFile (content : Bytes)
    : Puts (Entries.setFile content) (.file content) directoryThere where
  edit_eq name entries := by
    cases found : entries.lookup name with
    | none => simp [Entries.setFile, directoryThere, found]
    | some entry => cases entry <;> simp [Entries.setFile, directoryThere, found, Entry.node]
  bare _ _ := rfl
  keeps := by simp [directoryThere]

theorem changed_makeDirectory (files : FileSystem) (path : Path)
    : Changed files path .directory occupied (files.makeDirectory path) :=
  changed puts_addDirectory rfl files path

theorem changed_setFile (files : FileSystem) (path : Path) (content : Bytes)
    : Changed files path (.file content) directoryThere
        (files.change (Entries.setFile content) .isDirectory path) :=
  changed (puts_setFile content) rfl files path

end NamingAdvice.FileSystem
