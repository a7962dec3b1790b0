import MyLite.Directory.Layout

namespace MyLite.Directory

open MyLite.Api MyLite.Lib MyLite.Lib.FileSystem MyLite.Sql

/-!
# One open as file-system calls

What `mylite_open` does to the database directory, cut at every call into the file system, so
that other processes can run between any two of them: `prepare_database_directory`, the database
lock, and `mylite_close`.  The caller has a process of its own, the calls succeed unless the file
system is in the way, and the embedded server starts.

* `Stage`, `turn` — where an open is, and its next call.
* `Fact` — what an open has seen or made, and what stays true whatever others do (`Fact.mono`).
* `turn_spec` — what one call can change.
* `turn_code` — what an open with `MYLITE_OPEN_CREATE` can answer.
* `ends_prepareDatabaseDirectory` — alone, an open does what `prepareDatabaseDirectory` does.
-/

/-! ### Stages -/

/-- `k_lock_filename`. -/
def lockFilename : Text := ascii "mylite.lock"

/-- The directories of the layout. -/
inductive LayoutDirectory
  | datadir
  | tmp
  deriving DecidableEq, Repr

/-- Their names. -/
def LayoutDirectory.name : LayoutDirectory → Text
  | .datadir => datadirName
  | .tmp => tmpdirName

/-- The arguments of `create_directories`. -/
inductive Goal
  | database
  | layout (directory : LayoutDirectory)
  deriving DecidableEq, Repr

/-- The place of such a directory. -/
def Goal.location (loc : Location Text) : Goal → Location Text
  | .database => loc
  | .layout directory => directory.name :: loc

/-- Where an open is. -/
inductive Stage
  /-- Outside the library, with no handle. -/
  | idle
  /-- The path exists; `is_directory` is next. -/
  | found
  /-- It is a directory; `exists` on the metadata is next. -/
  | directory
  /-- The metadata does not exist; the test for emptiness is next. -/
  | withoutMetadata
  /-- The metadata exists; `is_regular_file` is next. -/
  | withMetadata
  /-- The metadata is a file; it is read next. -/
  | regular
  /-- `exists` on a directory of the layout is next. -/
  | checking (directory : LayoutDirectory)
  /-- It exists; `is_directory` is next. -/
  | checked (directory : LayoutDirectory)
  /-- `create_directories` is called. -/
  | creating (goal : Goal)
  /-- The places in `missing` do not exist; `status` of the parent is next. -/
  | climbing (goal : Goal) (missing : List (Location Text)) (parent : Location Text)
  /-- The directories in `missing` are to be made, the outermost first. -/
  | making (goal : Goal) (missing : List (Location Text))
  /-- The directories are made; `exists` on the metadata is next. -/
  | laidOut
  /-- The metadata exists already; `is_regular_file` is next. -/
  | adopting
  /-- It does not exist; it is opened for writing next. -/
  | writing
  /-- It is open and empty; it is written next. -/
  | truncated
  /-- `prepare_database_directory` has passed; the lock file is opened next. -/
  | prepared
  /-- The lock file is open; `flock` is next. -/
  | lockOpened
  /-- The lock is taken; the server starts and `mylite_open` returns. -/
  | locked
  /-- The handle is open; `mylite_close` is next. -/
  | opened
  deriving DecidableEq, Repr

/-- What follows `create_directories`. -/
def Goal.made : Goal → Stage
  | .database => .creating (.layout .datadir)
  | .layout .datadir => .creating (.layout .tmp)
  | .layout .tmp => .laidOut

/-- What follows the check of a directory of the layout. -/
def LayoutDirectory.passed : LayoutDirectory → Stage
  | .datadir => .checking .tmp
  | .tmp => .prepared

/-- The file system behind a call, the next stage, and what `mylite_open` returns if it does. -/
structure Turn where
  fs : Files
  stage : Stage
  code : Option Result := none

/-- The next call of an open; `lockFree` is what `flock` finds.  While the lock is taken the open
    may also go on polling, which changes nothing. -/
def turn (loc : Location Text) (flags : UInt32) (fs : Files) (lockFree : Bool) : Stage → Turn
  | .idle =>
    if fs.existsAt loc then
      if hasFlag flags openExclusive then ⟨fs, .idle, some .error⟩ else ⟨fs, .found, none⟩
    else if hasFlag flags openCreate then ⟨fs, .creating .database, none⟩
    else ⟨fs, .idle, some .notfound⟩
  | .found =>
    if fs.isDirectory loc then ⟨fs, .directory, none⟩ else ⟨fs, .idle, some .ioerr⟩
  | .directory =>
    if fs.existsAt (metaFilename :: loc) then ⟨fs, .withMetadata, none⟩
    else ⟨fs, .withoutMetadata, none⟩
  | .withoutMetadata =>
    if fs.isEmpty loc then
      if hasFlag flags openCreate then ⟨fs, .creating (.layout .datadir), none⟩
      else ⟨fs, .idle, some .notfound⟩
    else ⟨fs, .idle, some .corrupt⟩
  | .withMetadata =>
    if fs.isRegularFile (metaFilename :: loc) then ⟨fs, .regular, none⟩
    else ⟨fs, .idle, some .corrupt⟩
  | .regular =>
    match fs.lookup (metaFilename :: loc) with
    | some (.file content) =>
      if validateDatabaseMetadata content = .ok then ⟨fs, .checking .datadir, none⟩
      else ⟨fs, .idle, some (validateDatabaseMetadata content)⟩
    | _ => ⟨fs, .idle, some .ioerr⟩
  | .checking directory =>
    if fs.existsAt (directory.name :: loc) then ⟨fs, .checked directory, none⟩
    else ⟨fs, .idle, some .corrupt⟩
  | .checked directory =>
    if fs.isDirectory (directory.name :: loc) then ⟨fs, directory.passed, none⟩
    else ⟨fs, .idle, some .corrupt⟩
  | .creating goal =>
    match fs.lookup (goal.location loc) with
    | some .directory => ⟨fs, goal.made, none⟩
    | none | some .dangling =>
      ⟨fs, .climbing goal [goal.location loc] (goal.location loc).tail, none⟩
    | some _ => ⟨fs, .idle, some .ioerr⟩
  | .climbing goal missing parent =>
    match fs.lookup parent with
    | some .directory => ⟨fs, .making goal missing, none⟩
    | none | some .dangling => ⟨fs, .climbing goal (parent :: missing) parent.tail, none⟩
    | some _ => ⟨fs, .idle, some .ioerr⟩
  | .making goal [] => ⟨fs, goal.made, none⟩
  | .making goal (place :: missing) =>
    match fs.createDirectory place with
    | some made => ⟨made, .making goal missing, none⟩
    | none => ⟨fs, .idle, some .ioerr⟩
  | .laidOut =>
    if fs.existsAt (metaFilename :: loc) then ⟨fs, .adopting, none⟩ else ⟨fs, .writing, none⟩
  | .adopting =>
    if fs.isRegularFile (metaFilename :: loc) then ⟨fs, .prepared, none⟩
    else ⟨fs, .idle, some .ioerr⟩
  | .writing =>
    match fs.writeFile [] (metaFilename :: loc) with
    | some opened => ⟨opened, .truncated, none⟩
    | none => ⟨fs, .idle, some .ioerr⟩
  -- the stream is flushed when it is closed, and a failure there is not looked at
  | .truncated => ⟨(fs.writeFile metadataText (metaFilename :: loc)).getD fs, .prepared, none⟩
  | .prepared =>
    match fs.createFile [] (lockFilename :: loc) with
    | some opened => ⟨opened, .lockOpened, none⟩
    | none => ⟨fs, .idle, some .ioerr⟩
  | .lockOpened => if lockFree then ⟨fs, .locked, none⟩ else ⟨fs, .idle, some .busy⟩
  | .locked => ⟨fs, .opened, some .ok⟩
  | .opened => ⟨fs, .idle, none⟩

/-- The open is looking at a directory it has found. -/
def Stage.examining : Stage → Bool
  | .found | .directory | .withoutMetadata | .withMetadata | .regular | .checking _
  | .checked _ => true
  | _ => false

/-- The open is in `initialize_database_layout`. -/
def Stage.initializing : Stage → Bool
  | .creating (.layout _) | .climbing (.layout _) _ _ | .making (.layout _) _ | .laidOut
  | .adopting | .writing | .truncated => true
  | _ => false

/-! ### What an open knows -/

section Knowledge

variable (loc : Location Text) (fs : Files)

/-- The metadata is a file, whatever is in it. -/
def HasMetadata : Prop := ∃ content, fs.lookup (metaFilename :: loc) = some (.file content)

/-- Both directories of the layout are there. -/
def LaidOut : Prop := ∀ directory : LayoutDirectory,
  fs.lookup (directory.name :: loc) = some .directory

/-- Directories and metadata are there. -/
def Settled : Prop := LaidOut loc fs ∧ HasMetadata loc fs

/-- The places under the database path and in it hold nothing that is in the way: directories,
    files where files belong, and no metadata without the directories. -/
structure Kinds : Prop where
  above : Creatable fs loc
  layout : ∀ directory : LayoutDirectory, fs.lookup (directory.name :: loc) = none ∨
    fs.lookup (directory.name :: loc) = some .directory
  metadata : fs.lookup (metaFilename :: loc) = none ∨ Settled loc fs
  lockFile : fs.isRegularFile (lockFilename :: loc) = true ∨ fs.lookup (lockFilename :: loc) = none

/-- What has been made before a directory is created. -/
def Goal.Ready : Goal → Prop
  | .database => True
  | .layout .datadir => fs.lookup loc = some .directory
  | .layout .tmp => fs.lookup (datadirName :: loc) = some .directory

/-- The places between `parent` and `goal`, each in the one before it. -/
def Stacked (goal : Location Text) : Location Text → List (Location Text) → Prop
  | parent, [] => parent = goal
  | parent, place :: missing => place ≠ [] ∧ place.tail = parent ∧ Stacked goal place missing

/-- What an open has seen or made. -/
def Fact : Stage → Prop
  | .idle => True
  | .found | .directory | .withoutMetadata => fs.lookup loc = some .directory
  | .withMetadata | .regular | .checking _ | .checked _ => Settled loc fs
  | .creating goal => goal.Ready loc fs
  | .climbing goal missing parent =>
    goal.Ready loc fs ∧ Stacked (goal.location loc) parent missing
  | .making goal missing => goal.Ready loc fs ∧
    ∃ parent, Stacked (goal.location loc) parent missing ∧ fs.lookup parent = some .directory
  | .laidOut | .writing => LaidOut loc fs
  | .adopting | .truncated | .prepared | .lockOpened | .locked | .opened => Settled loc fs

/-- A place that an open creates a directory in. -/
def IsPlace (l : Location Text) : Prop :=
  l <:+ loc ∨ ∃ directory : LayoutDirectory, l = directory.name :: loc

/-- What every process leaves in place. -/
structure Kept (fs fs' : Files) : Prop where
  directories : ∀ l, IsPlace loc l → fs.lookup l = some .directory →
    fs'.lookup l = some .directory
  metadata : HasMetadata loc fs → HasMetadata loc fs'

end Knowledge

variable {loc : Location Text} {fs fs' : Files} {flags : UInt32} {lockFree : Bool}

variable {goal : Goal} {missing : List (Location Text)} {stage : Stage}

variable {l parent : Location Text}

theorem Kept.refl (loc : Location Text) (fs : Files) : Kept loc fs fs := ⟨fun _ _ h => h, id⟩

theorem Kept.of_extends (h : fs.Extends fs') : Kept loc fs fs' :=
  ⟨fun l _ hl => h l _ hl, fun ⟨content, hcontent⟩ => ⟨content, h _ _ hcontent⟩⟩

theorem IsPlace.of_suffix_goal (h : l <:+ goal.location loc) : IsPlace loc l := by
  cases goal with
  | database => exact .inl h
  | layout directory =>
    rcases List.suffix_cons_iff.mp h with heq | hl
    · exact .inr ⟨directory, heq⟩
    · exact .inl hl

theorem Kept.laidOut (h : Kept loc fs fs') (hl : LaidOut loc fs) : LaidOut loc fs' :=
  fun directory => h.directories _ (.inr ⟨directory, rfl⟩) (hl directory)

theorem Kept.settled (h : Kept loc fs fs') (hs : Settled loc fs) : Settled loc fs' :=
  ⟨h.laidOut hs.1, h.metadata hs.2⟩

/-- A settled directory is not empty. -/
theorem Settled.not_vacant (h : Settled loc fs) : ¬Vacant fs loc := by
  intro hvacant
  have hdatadir := h.1 .datadir
  rw [hvacant] at hdatadir
  cases hdatadir

theorem Kept.ready (h : Kept loc fs fs') (hg : goal.Ready loc fs) : goal.Ready loc fs' := by
  match goal with
  | .database => trivial
  | .layout .datadir => exact h.directories loc (.inl (List.suffix_refl loc)) hg
  | .layout .tmp => exact h.directories _ (.inr ⟨.datadir, rfl⟩) hg

theorem Stacked.suffix {goal : Location Text} (h : Stacked goal parent missing) :
    parent <:+ goal := by
  induction missing generalizing parent with
  | nil => rw [show parent = goal from h]
  | cons place missing ih =>
    obtain ⟨-, rfl, hrest⟩ := h
    exact (List.tail_suffix place).trans (ih hrest)

/-- **What an open knows stays true.** -/
theorem Fact.mono (hkept : Kept loc fs fs') (h : Fact loc fs stage) : Fact loc fs' stage := by
  have hdir : fs.lookup loc = some .directory → fs'.lookup loc = some .directory :=
    hkept.directories loc (.inl (List.suffix_refl loc))
  match stage with
  | .idle => trivial
  | .found | .directory | .withoutMetadata => exact hdir h
  | .withMetadata | .regular | .checking _ | .checked _ => exact hkept.settled h
  | .creating _ => exact hkept.ready h
  | .climbing _ _ _ => exact ⟨hkept.ready h.1, h.2⟩
  | .making _ _ =>
    obtain ⟨hready, parent, hstacked, hparent⟩ := h
    exact ⟨hkept.ready hready, parent, hstacked,
      hkept.directories parent (.of_suffix_goal hstacked.suffix) hparent⟩
  | .laidOut | .writing => exact hkept.laidOut h
  | .adopting | .truncated | .prepared | .lockOpened | .locked | .opened =>
    exact hkept.settled h

/-! ### What a call changes -/

variable {place : Location Text}

variable {made : Files}

theorem not_isPlace_of_name {name : Text}
    (h : ∀ directory : LayoutDirectory, name ≠ directory.name) :
    ¬IsPlace loc (name :: loc) := by
  rintro (hs | ⟨directory, heq⟩)
  · exact absurd hs.length_le (by simp)
  · exact h directory (List.cons.inj heq).1

theorem not_isPlace_metadata : ¬IsPlace loc (metaFilename :: loc) :=
  not_isPlace_of_name fun directory => by cases directory <;> decide

theorem not_isPlace_lockFile : ¬IsPlace loc (lockFilename :: loc) :=
  not_isPlace_of_name fun directory => by cases directory <;> decide

theorem metadata_ne_lockFile : metaFilename :: loc ≠ lockFilename :: loc := fun heq =>
  absurd (List.cons.inj heq).1 (by decide)

/-- A place that can be a directory and is made one. -/
theorem Kinds.createDirectory (h : Kinds loc fs) (hplace : IsPlace loc place)
    (hmade : fs.createDirectory place = some made) : Kinds loc made := by
  obtain ⟨hdir, hext, hsame⟩ := createDirectory_eq_some hmade
  have hkind : ∀ l, fs.lookup l = none ∨ fs.lookup l = some .directory →
      made.lookup l = none ∨ made.lookup l = some .directory := by
    intro l hl
    by_cases heq : l = place
    · exact .inr (heq ▸ hdir)
    · rwa [hsame l heq]
  have hmeta : metaFilename :: loc ≠ place := fun heq => not_isPlace_metadata (heq ▸ hplace)
  have hlock : lockFilename :: loc ≠ place := fun heq => not_isPlace_lockFile (heq ▸ hplace)
  refine ⟨fun l hl => hkind l (h.above l hl), fun directory => hkind _ (h.layout directory), ?_, ?_⟩
  · rw [hsame _ hmeta]
    exact h.metadata.imp_right (Kept.of_extends hext).settled
  · rw [FileSystem.isRegularFile, hsame _ hlock]
    exact h.lockFile

/-- Metadata is written into a directory that is laid out. -/
theorem Kinds.writeMetadata {content : Text} {written : Files} (h : Kinds loc fs)
    (hlaid : LaidOut loc fs)
    (hwritten : fs.writeFile content (metaFilename :: loc) = some written) :
    Kept loc fs written ∧ Kinds loc written ∧ Settled loc written ∧
      written.lookup (metaFilename :: loc) = some (.file content) := by
  obtain ⟨hfile, hsame⟩ := writeFile_eq_some hwritten
  have hplace : ∀ l, IsPlace loc l → written.lookup l = fs.lookup l :=
    fun l hl => hsame l fun heq => not_isPlace_metadata (heq ▸ hl)
  have hkept : Kept loc fs written :=
    ⟨fun l hl hdir => (hplace l hl).trans hdir, fun _ => ⟨content, hfile⟩⟩
  have hsettled : Settled loc written := ⟨hkept.laidOut hlaid, content, hfile⟩
  refine ⟨hkept, ⟨fun l hl => ?_, fun directory => ?_, .inr hsettled, ?_⟩, hsettled, hfile⟩
  · rw [hplace l (.inl hl)]
    exact h.above l hl
  · rw [hplace _ (.inr ⟨directory, rfl⟩)]
    exact h.layout directory
  · rw [FileSystem.isRegularFile, hsame _ metadata_ne_lockFile.symm]
    exact h.lockFile

/-- The lock file is opened. -/
theorem Kinds.openLockFile {created : Files} (h : Kinds loc fs) (hsettled : Settled loc fs)
    (hcreated : fs.createFile [] (lockFilename :: loc) = some created) :
    Kept loc fs created ∧ Kinds loc created ∧
      created.lookup (metaFilename :: loc) = fs.lookup (metaFilename :: loc) := by
  obtain ⟨hfile, hext, hsame⟩ := createFile_eq_some hcreated
  have hplace : ∀ l, IsPlace loc l → created.lookup l = fs.lookup l :=
    fun l hl => hsame l fun heq => not_isPlace_lockFile (heq ▸ hl)
  have hkept : Kept loc fs created := .of_extends hext
  refine ⟨hkept, ⟨fun l hl => ?_, fun directory => ?_, .inr (hkept.settled hsettled), .inl hfile⟩,
    hsame _ metadata_ne_lockFile⟩
  · rw [hplace l (.inl hl)]
    exact h.above l hl
  · rw [hplace _ (.inr ⟨directory, rfl⟩)]
    exact h.layout directory

/-- What one call can do to the directory. -/
structure TurnSpec (loc : Location Text) (fs : Files) (stage : Stage) (t : Turn) : Prop where
  kept : Kept loc fs t.fs
  kinds : Kinds loc t.fs
  fact : Fact loc t.fs t.stage
  /-- Metadata without its lines is about to be written by the open that emptied it. -/
  written : ∀ content, t.fs.lookup (metaFilename :: loc) = some (.file content) →
    ¬ValidMetadata content → t.stage = .truncated ∨
      fs.lookup (metaFilename :: loc) = some (.file content) ∧ stage ≠ .truncated
  /-- Only an open that initializes the layout puts the first entry into the directory. -/
  vacant : stage.initializing = false → Vacant fs loc → Vacant t.fs loc
  /-- It goes on until the directory is complete. -/
  begun : stage.initializing = true → t.stage.initializing = true ∨ Settled loc t.fs

/-- A call that changes nothing. -/
theorem TurnSpec.same {next : Stage} {code : Option Result} (hkinds : Kinds loc fs)
    (hfact : Fact loc fs next) (htruncated : stage ≠ .truncated)
    (hinit : stage.initializing = true → next.initializing = true ∨ Settled loc fs) :
    TurnSpec loc fs stage ⟨fs, next, code⟩ where
  kept := .refl loc fs
  kinds := hkinds
  fact := hfact
  written _ hfile _ := .inr ⟨hfile, htruncated⟩
  vacant _ h := h
  begun := hinit

section

variable (h : Kinds loc fs)

include h

/-- Where the metadata exists the layout is complete. -/
theorem Kinds.settled_of_exists (hexists : fs.existsAt (metaFilename :: loc) = true) :
    Settled loc fs := by
  obtain ⟨node, hnode, -⟩ := existsAt_iff.mp hexists
  refine h.metadata.resolve_left fun hnone => ?_
  rw [hnone] at hnode
  cases hnode

/-- What exists at the database path is a directory. -/
theorem Kinds.directory_of_exists (hexists : fs.existsAt loc = true) :
    fs.lookup loc = some .directory := by
  obtain ⟨node, hnode, -⟩ := existsAt_iff.mp hexists
  refine (h.above loc (List.suffix_refl loc)).resolve_left fun hnone => ?_
  rw [hnone] at hnode
  cases hnode

/-- The places of a goal are nothing or directories. -/
theorem Kinds.of_isPlace (hl : IsPlace loc l) :
    fs.lookup l = none ∨ fs.lookup l = some .directory := by
  rcases hl with hs | ⟨directory, rfl⟩
  · exact h.above l hs
  · exact h.layout directory

/-- Nothing is in the way of a directory that is to be made. -/
theorem Kinds.exists_createDirectory (hne : place ≠ [])
    (hrest : Stacked (goal.location loc) place missing)
    (hparent : fs.lookup place.tail = some .directory) :
    ∃ made, fs.createDirectory place = some made := by
  obtain ⟨name, above, rfl⟩ := List.exists_cons_of_ne_nil hne
  exact createDirectory_isSome hparent (h.of_isPlace (.of_suffix_goal hrest.suffix))

/-- Nothing is in the way of the metadata. -/
theorem Kinds.exists_writeFile (hlaid : LaidOut loc fs) (content : Text) :
    ∃ written, fs.writeFile content (metaFilename :: loc) = some written :=
  writeFile_isSome (lookup_parent (hlaid .datadir))
    (h.metadata.symm.imp_left fun hsettled => isRegularFile_iff.mpr hsettled.2)

/-- Nothing is in the way of the lock file. -/
theorem Kinds.exists_createFile (hlaid : LaidOut loc fs) :
    ∃ created, fs.createFile [] (lockFilename :: loc) = some created :=
  createFile_isSome (lookup_parent (hlaid .datadir)) h.lockFile

end

theorem Goal.made_initializing (goal : Goal) : goal.made.initializing = true := by
  match goal with
  | .database | .layout .datadir | .layout .tmp => rfl

/-- A goal that is reached has what comes next ready. -/
theorem Goal.fact_made (hready : goal.Ready loc fs)
    (hdir : fs.lookup (goal.location loc) = some .directory) : Fact loc fs goal.made := by
  match goal with
  | .database | .layout .datadir => exact hdir
  | .layout .tmp =>
    intro directory
    cases directory with
    | datadir => exact hready
    | tmp => exact hdir

/-- Nothing is in a directory that has just been made. -/
theorem vacant_of_createDirectory (hplace : place <:+ loc)
    (hmade : fs.createDirectory place = some made) (hvacant : Vacant fs loc) : Vacant made loc := by
  intro name
  rw [(createDirectory_eq_some hmade).2.2 _ ?_, hvacant name]
  rintro rfl
  exact absurd hplace.length_le (by simp)

/-- The places of a goal are climbed and made with its own stages. -/
theorem Stage.initializing_of_goal (goal : Goal) (missing : List (Location Text))
    (parent : Location Text) :
    (Stage.climbing goal missing parent).initializing = (Stage.creating goal).initializing ∧
      (Stage.making goal missing).initializing = (Stage.creating goal).initializing := by
  cases goal <;> exact ⟨rfl, rfl⟩

theorem turn_spec_creating (hkinds : Kinds loc fs) (hfact : Fact loc fs (.creating goal)) :
    TurnSpec loc fs (.creating goal) (turn loc flags fs lockFree (.creating goal)) := by
  have hclimb : fs.lookup (goal.location loc) = none →
      TurnSpec loc fs (.creating goal)
        ⟨fs, .climbing goal [goal.location loc] (goal.location loc).tail, none⟩ := by
    intro hnone
    have hne : goal.location loc ≠ [] := by
      intro heq
      rw [heq] at hnone
      cases hnone
    refine TurnSpec.same hkinds ⟨hfact, hne, rfl, rfl⟩ nofun ?_
    rw [(Stage.initializing_of_goal goal _ _).1]
    exact .inl
  dsimp only [turn]
  rcases hkinds.of_isPlace (.of_suffix_goal (List.suffix_refl (goal.location loc))) with
    hnone | hdir
  · rw [hnone]
    exact hclimb hnone
  · rw [hdir]
    exact .same hkinds (Goal.fact_made hfact hdir) nofun
      (fun _ => .inl goal.made_initializing)

theorem turn_spec_climbing (hkinds : Kinds loc fs)
    (hfact : Fact loc fs (.climbing goal missing parent)) :
    TurnSpec loc fs (.climbing goal missing parent)
      (turn loc flags fs lockFree (.climbing goal missing parent)) := by
  have hinit : ∀ stage : Stage, stage.initializing = (Stage.creating goal).initializing →
      (Stage.climbing goal missing parent).initializing = true →
      stage.initializing = true ∨ Settled loc fs := by
    intro stage hstage
    rw [hstage, (Stage.initializing_of_goal goal missing parent).1]
    exact .inl
  dsimp only [turn]
  rcases hkinds.of_isPlace (.of_suffix_goal hfact.2.suffix) with hnone | hdir
  · have hne : parent ≠ [] := by
      rintro rfl
      cases hnone
    rw [hnone]
    exact .same hkinds ⟨hfact.1, hne, rfl, hfact.2⟩ nofun
      (hinit _ (Stage.initializing_of_goal goal _ _).1)
  · rw [hdir]
    exact .same hkinds ⟨hfact.1, parent, hfact.2, hdir⟩ nofun
      (hinit _ (Stage.initializing_of_goal goal _ parent).2)

theorem turn_spec_making (hkinds : Kinds loc fs) (hfact : Fact loc fs (.making goal missing)) :
    TurnSpec loc fs (.making goal missing) (turn loc flags fs lockFree (.making goal missing)) := by
  obtain ⟨hready, parent, hstacked, hparent⟩ := hfact
  cases missing with
  | nil =>
    have hgoal : fs.lookup (goal.location loc) = some .directory := by
      rw [← show parent = goal.location loc from hstacked]
      exact hparent
    exact .same hkinds (Goal.fact_made hready hgoal) nofun
      (fun _ => .inl goal.made_initializing)
  | cons place missing =>
    obtain ⟨hne, rfl, hrest⟩ := hstacked
    have hplace : IsPlace loc place := .of_suffix_goal hrest.suffix
    obtain ⟨made, hmade⟩ := hkinds.exists_createDirectory hne hrest hparent
    obtain ⟨hdir, hext, hsame⟩ := createDirectory_eq_some hmade
    have hkept : Kept loc fs made := .of_extends hext
    dsimp only [turn]
    rw [hmade]
    refine ⟨hkept, hkinds.createDirectory hplace hmade,
      ⟨hkept.ready hready, place, hrest, hdir⟩, fun content hfile _ => ?_,
      fun hout => ?_, fun hinit => .inl ?_⟩
    · rw [← hsame _ fun heq => not_isPlace_metadata (heq ▸ hplace)]
      exact .inr ⟨hfile, nofun⟩
    · cases goal with
      | database => exact vacant_of_createDirectory hrest.suffix hmade
      | layout directory => cases hout
    · rw [(Stage.initializing_of_goal goal missing place).2,
        ← (Stage.initializing_of_goal goal (place :: missing) place).2]
      exact hinit

/-- **One call.** -/
theorem turn_spec (hkinds : Kinds loc fs) (hfact : Fact loc fs stage) :
    TurnSpec loc fs stage (turn loc flags fs lockFree stage) := by
  have hidle : ∀ {stage : Stage} {code : Option Result}, stage.initializing = false →
      TurnSpec loc fs stage ⟨fs, .idle, code⟩ := by
    intro stage code hout
    refine .same hkinds trivial ?_ fun hinit => ?_
    · rintro rfl
      cases hout
    · rw [hout] at hinit
      cases hinit
  cases stage
  case creating => exact turn_spec_creating hkinds hfact
  case climbing => exact turn_spec_climbing hkinds hfact
  case making => exact turn_spec_making hkinds hfact
  all_goals dsimp only [turn]
  case idle =>
    split_ifs with hexists
    · exact hidle rfl
    · exact .same hkinds (hkinds.directory_of_exists hexists) nofun nofun
    · exact .same hkinds trivial nofun nofun
    · exact hidle rfl
  case found | withMetadata | checking | lockOpened =>
    split_ifs
    · exact .same hkinds hfact nofun nofun
    · exact hidle rfl
  case directory =>
    split_ifs with hexists
    · exact .same hkinds (hkinds.settled_of_exists hexists) nofun nofun
    · exact .same hkinds hfact nofun nofun
  case withoutMetadata =>
    split_ifs
    · exact .same hkinds hfact nofun nofun
    · exact hidle rfl
    · exact hidle rfl
  case regular =>
    split
    · split_ifs
      · exact .same hkinds hfact nofun nofun
      · exact hidle rfl
    · exact hidle rfl
  case checked directory =>
    have hpassed : Fact loc fs directory.passed := by cases directory <;> exact hfact
    split_ifs
    · exact .same hkinds hpassed nofun nofun
    · exact hidle rfl
  case laidOut =>
    split_ifs with hexists
    · exact .same hkinds (hkinds.settled_of_exists hexists) nofun (fun _ => .inl rfl)
    · exact .same hkinds hfact nofun (fun _ => .inl rfl)
  case adopting =>
    rw [if_pos (isRegularFile_iff.mpr hfact.2)]
    exact .same hkinds hfact nofun (fun _ => .inr hfact)
  case writing =>
    obtain ⟨written, hwritten⟩ := hkinds.exists_writeFile hfact []
    obtain ⟨hkept, hkinds', hsettled, -⟩ := hkinds.writeMetadata hfact hwritten
    rw [hwritten]
    exact ⟨hkept, hkinds', hsettled, fun _ _ _ => .inl rfl, nofun, fun _ => .inl rfl⟩
  case truncated =>
    obtain ⟨written, hwritten⟩ := hkinds.exists_writeFile hfact.1 metadataText
    obtain ⟨hkept, hkinds', hsettled, hfile⟩ := hkinds.writeMetadata hfact.1 hwritten
    rw [hwritten]
    refine ⟨hkept, hkinds', hsettled, fun content hcontent hinvalid => ?_, nofun,
      fun _ => .inr hsettled⟩
    rw [Option.getD_some, hfile] at hcontent
    cases hcontent
    exact absurd validMetadata_metadataText hinvalid
  case prepared =>
    obtain ⟨created, hcreated⟩ := hkinds.exists_createFile hfact.1
    obtain ⟨hkept, hkinds', hmeta⟩ := hkinds.openLockFile hfact hcreated
    have hsettled := hkept.settled hfact
    rw [hcreated]
    refine ⟨hkept, hkinds', hsettled, fun content hcontent _ => ?_, fun _ hvacant => ?_,
      nofun⟩
    · rw [hmeta] at hcontent
      exact .inr ⟨hcontent, nofun⟩
    · exact absurd hvacant hfact.not_vacant
  case locked => exact .same hkinds hfact nofun nofun
  case opened => exact hidle rfl

/-- Who has just found no metadata was in a directory, and has changed nothing. -/
theorem turn_withoutMetadata (h : (turn loc flags fs lockFree stage).stage = .withoutMetadata) :
    stage = .directory ∧ fs.existsAt (metaFilename :: loc) = false ∧
      (turn loc flags fs lockFree stage).fs = fs := by
  have hmade : ∀ goal : Goal, goal.made ≠ .withoutMetadata := by
    intro goal
    match goal with
    | .database | .layout .datadir | .layout .tmp => exact nofun
  match stage with
  | .directory =>
    dsimp only [turn] at h ⊢
    split_ifs at h with hexists
    rw [if_neg hexists]
    exact ⟨rfl, Bool.eq_false_iff.mpr hexists, rfl⟩
  | .checked .datadir | .checked .tmp =>
    dsimp only [turn] at h
    split_ifs at h
    cases h
  | .creating goal | .climbing goal _ _ =>
    dsimp only [turn] at h
    split at h
    all_goals first | cases h | exact absurd h (hmade goal)
  | .making goal [] => exact absurd h (hmade goal)
  | .making _ (_ :: _) | .regular | .writing | .prepared =>
    dsimp only [turn] at h
    split at h
    all_goals try split_ifs at h
    all_goals cases h
  | .idle | .found | .withoutMetadata | .withMetadata | .checking _ | .laidOut | .adopting
  | .lockOpened =>
    dsimp only [turn] at h
    split_ifs at h
  | .truncated | .locked | .opened => cases h

/-! ### What an open answers -/

/-- An open that creates what is missing and finds nothing in its way succeeds or is locked out,
    unless it finds entries and no metadata, or metadata without its lines. -/
theorem turn_code {code : Result} (hkinds : Kinds loc fs) (hfact : Fact loc fs stage)
    (hcreate : hasFlag flags openCreate = true) (hexclusive : hasFlag flags openExclusive = false)
    (h : (turn loc flags fs lockFree stage).code = some code) :
    code = .ok ∨ code = .busy ∨
      code = .corrupt ∧ (stage = .withoutMetadata ∧ ¬Vacant fs loc ∨
        stage = .regular ∧ ¬Wellformed fs loc) := by
  have hplace : ∀ {l : Location Text}, IsPlace loc l →
      fs.lookup l = none ∨ fs.lookup l = some .directory := hkinds.of_isPlace
  cases stage
  all_goals try dsimp only [turn] at h
  case idle =>
    rw [hcreate, hexclusive, if_neg Bool.false_ne_true, if_pos rfl] at h
    split_ifs at h
  case found =>
    rw [if_pos (isDirectory_iff.mpr hfact)] at h
    cases h
  case directory | laidOut => split_ifs at h
  case withoutMetadata =>
    split_ifs at h with hempty
    cases h
    exact .inr (.inr ⟨rfl, .inl ⟨rfl, fun hvacant => hempty (FileSystem.isEmpty_iff.mpr hvacant)⟩⟩)
  case withMetadata | adopting =>
    rw [if_pos (isRegularFile_iff.mpr hfact.2)] at h
    cases h
  case regular =>
    obtain ⟨content, hfile⟩ := hfact.2
    rw [hfile] at h
    dsimp only at h
    split_ifs at h with hvalid
    cases h
    refine .inr (.inr ⟨(validateDatabaseMetadata_cases content).resolve_left hvalid,
      .inr ⟨rfl, ?_⟩⟩)
    rintro ⟨⟨content', hfile', hvalid'⟩, -, -⟩
    rw [hfile] at hfile'
    cases hfile'
    exact hvalid ((validateDatabaseMetadata_eq_ok_iff content).mpr hvalid')
  case checking directory =>
    rw [if_pos (existsAt_of_lookup (hfact.1 directory) (by decide))] at h
    cases h
  case checked directory =>
    rw [if_pos (isDirectory_iff.mpr (hfact.1 directory))] at h
    cases h
  case creating goal =>
    rcases hplace (.of_suffix_goal (List.suffix_refl (goal.location loc))) with hl | hl
    all_goals
      rw [hl] at h
      cases h
  case climbing goal missing parent =>
    rcases hplace (.of_suffix_goal hfact.2.suffix) with hl | hl
    all_goals
      rw [hl] at h
      cases h
  case making goal missing =>
    cases missing with
    | nil => cases h
    | cons place missing =>
      obtain ⟨-, parent, ⟨hne, rfl, hrest⟩, hparent⟩ := hfact
      obtain ⟨made, hmade⟩ := hkinds.exists_createDirectory hne hrest hparent
      dsimp only [turn] at h
      rw [hmade] at h
      cases h
  case writing =>
    obtain ⟨written, hwritten⟩ := hkinds.exists_writeFile hfact []
    rw [hwritten] at h
    cases h
  case prepared =>
    obtain ⟨created, hcreated⟩ := hkinds.exists_createFile hfact.1
    rw [hcreated] at h
    cases h
  case lockOpened =>
    split_ifs at h
    cases h
    exact .inr (.inl rfl)
  case locked =>
    cases h
    exact .inl rfl
  case truncated | opened => cases h

/-! ### An open that is alone -/

/-- Where `prepare_database_directory` ends if no other process runs: with the code of
    `mylite_open`, or passed, on a file system that holds the same. -/
inductive Ends (loc : Location Text) (flags : UInt32) : Turn → Result × Files → Prop
  | answers {fs : Files} {stage : Stage} {code : Result} :
    Ends loc flags ⟨fs, stage, some code⟩ (code, fs)
  | prepared {fs made : Files} (h : ∀ l, fs.lookup l = made.lookup l) :
    Ends loc flags ⟨fs, .prepared, none⟩ (.ok, made)
  | goes {fs : Files} {stage : Stage} {answer : Result × Files}
    (hstage : (stage == .prepared) = false)
    (h : Ends loc flags (turn loc flags fs true stage) answer) :
    Ends loc flags ⟨fs, stage, none⟩ answer

section Alone

variable {answer : Result × Files}

/-- The places that are missing are made once the ones above them are. -/
theorem ends_climbing
    (hmade : ∀ made, fs.createDirectories parent = some made →
      Ends loc flags ⟨made, .making goal missing, none⟩ answer)
    (hfails : fs.createDirectories parent = none → answer = (.ioerr, fs)) :
    Ends loc flags (turn loc flags fs true (.climbing goal missing parent)) answer := by
  induction parent generalizing missing with
  | nil => exact hmade fs rfl
  | cons name parent ih =>
    rw [createDirectories] at hmade hfails
    dsimp only [turn]
    rcases hnode : fs.lookup (name :: parent) with _ | _ | _ | _ | _
    all_goals rw [hnode] at hmade hfails
    · refine .goes rfl (ih (fun above habove => .goes rfl ?_) fun hnone => ?_)
      · obtain ⟨hdir, -, hframe⟩ := createDirectories_eq_some habove
        have hnew : above.lookup (name :: parent) = none := by
          rw [hframe _ fun hs => absurd hs.length_le (by simp), hnode]
        obtain ⟨made, hmk⟩ := createDirectory_isSome hdir (.inl hnew)
        rw [habove] at hmade
        dsimp only [turn]
        rw [hmk]
        exact hmade made hmk
      · rw [hnone] at hfails
        exact hfails rfl
    · rw [hfails rfl]
      exact .answers
    · exact hmade fs rfl
    · rw [hfails rfl]
      exact .answers
    · -- A link to nothing is climbed over, and is in the way of the directory.
      have hdir := lookup_parent hnode
      refine .goes rfl (ih (fun above habove => .goes rfl ?_) fun hnone => ?_)
      · rw [createDirectories_of_directory hdir] at habove
        cases habove
        dsimp only [turn]
        have hthere : fs.lookup (name :: parent) ≠ none := by
          rw [hnode]
          exact Option.some_ne_none _
        rw [createDirectory, if_neg (by rw [hnode]; decide), dif_neg fun h => hthere h.2,
          hfails rfl]
        exact .answers
      · rw [createDirectories_of_directory hdir] at hnone
        cases hnone

theorem ends_creating
    (hmade : ∀ made, fs.createDirectories (goal.location loc) = some made →
      Ends loc flags ⟨made, goal.made, none⟩ answer)
    (hfails : fs.createDirectories (goal.location loc) = none → answer = (.ioerr, fs)) :
    Ends loc flags ⟨fs, .creating goal, none⟩ answer := by
  have hclimb : Ends loc flags
      (turn loc flags fs true (.climbing goal [] (goal.location loc))) answer :=
    ends_climbing (fun made h => .goes rfl (hmade made h)) hfails
  refine .goes rfl ?_
  dsimp only [turn] at hclimb ⊢
  rcases hnode : fs.lookup (goal.location loc) with _ | _ | _ | _ | _
  case some.directory => exact hmade fs (createDirectories_of_directory hnode)
  all_goals
    rw [hnode] at hclimb
    exact hclimb

/-- The metadata is opened, and then written. -/
theorem ends_writing : Ends loc flags ⟨fs, .writing, none⟩
    (caught (writeDatabaseMetadata fs (metaFilename :: loc))) := by
  refine .goes rfl ?_
  dsimp only [turn]
  rw [writeDatabaseMetadata]
  cases hopened : fs.writeFile [] (metaFilename :: loc) with
  | none =>
    rw [writeFile] at hopened ⊢
    split_ifs at hopened with h
    rw [dif_neg h]
    exact .answers
  | some opened =>
    obtain ⟨hfile, hsame⟩ := writeFile_eq_some hopened
    rw [writeFile] at hopened
    split_ifs at hopened with h
    obtain ⟨made, hmade⟩ : ∃ made, fs.writeFile metadataText (metaFilename :: loc) = some made :=
      writeFile_isSome (isDirectory_iff.mp h.1) h.2
    obtain ⟨written, hwritten⟩ :
        ∃ written, opened.writeFile metadataText (metaFilename :: loc) = some written :=
      writeFile_isSome (lookup_parent hfile) (.inl (isRegularFile_iff.mpr ⟨[], hfile⟩))
    obtain ⟨hmeta, hkept⟩ := writeFile_eq_some hmade
    obtain ⟨hmeta', hkept'⟩ := writeFile_eq_some hwritten
    rw [hmade]
    refine .goes rfl ?_
    dsimp only [turn]
    rw [hwritten]
    refine .prepared fun l => ?_
    by_cases hl : l = metaFilename :: loc
    · rw [hl, Option.getD_some, hmeta, hmeta']
    · rw [Option.getD_some, hkept' l hl, hsame l hl, hkept l hl]

/-- A directory of the layout is made, or the exception ends the open. -/
theorem ends_layout {directory : LayoutDirectory} {rest : Files → Except Files Files}
    (h : ∀ made, Ends loc flags ⟨made, (Goal.layout directory).made, none⟩
      (caught (rest made))) :
    Ends loc flags ⟨fs, .creating (.layout directory), none⟩
      (caught (createLayoutDirectory fs (directory.name :: loc) >>= rest)) := by
  refine ends_creating (fun made hmade => ?_) fun hnone => ?_
  · rw [createLayoutDirectory, show fs.createDirectories (directory.name :: loc) = _ from hmade]
    exact h made
  · rw [createLayoutDirectory, show fs.createDirectories (directory.name :: loc) = _ from hnone]
    rfl

theorem ends_laidOut : Ends loc flags ⟨fs, .laidOut, none⟩
    (caught (if fs.existsAt (metaFilename :: loc) then
      if fs.isRegularFile (metaFilename :: loc) then pure fs else throw fs
    else writeDatabaseMetadata fs (metaFilename :: loc))) := by
  refine .goes rfl ?_
  dsimp only [turn]
  cases hexists : fs.existsAt (metaFilename :: loc) with
  | false => exact ends_writing
  | true =>
    refine .goes rfl ?_
    dsimp only [turn]
    cases hfile : fs.isRegularFile (metaFilename :: loc) with
    | false => exact .answers
    | true => exact .prepared fun _ => rfl

theorem ends_initializing : Ends loc flags ⟨fs, .creating (.layout .datadir), none⟩
    (caught (initializeDatabaseLayout fs loc)) :=
  ends_layout fun _ => ends_layout fun _ => ends_laidOut

theorem ends_checking {directory : LayoutDirectory}
    (h : validateLayoutDirectory fs (directory.name :: loc) = .ok →
      Ends loc flags ⟨fs, directory.passed, none⟩ answer)
    (hfails : validateLayoutDirectory fs (directory.name :: loc) = .corrupt →
      answer = (.corrupt, fs)) :
    Ends loc flags ⟨fs, .checking directory, none⟩ answer := by
  rw [validateLayoutDirectory] at h hfails
  refine .goes rfl ?_
  dsimp only [turn]
  cases hexists : fs.existsAt (directory.name :: loc) with
  | false =>
    rw [hexists] at hfails
    rw [hfails rfl]
    exact .answers
  | true =>
    rw [hexists] at h hfails
    refine .goes rfl ?_
    dsimp only [turn]
    cases hdir : fs.isDirectory (directory.name :: loc) with
    | false =>
      rw [hdir] at hfails
      rw [hfails rfl]
      exact .answers
    | true =>
      rw [hdir] at h
      exact h rfl

theorem ends_validating (hexists : fs.existsAt (metaFilename :: loc) = true) :
    Ends loc flags ⟨fs, .withMetadata, none⟩ (validateDatabaseLayout fs loc, fs) := by
  obtain ⟨node, hnode, hlink⟩ := existsAt_iff.mp hexists
  refine .goes rfl ?_
  dsimp only [turn]
  rw [validateDatabaseLayout, FileSystem.isRegularFile, hnode]
  cases node with
  | file content =>
    refine .goes rfl ?_
    dsimp only [turn]
    rw [hnode]
    dsimp only
    rcases validateDatabaseMetadata_cases content with hmeta | hmeta
    · rw [if_pos hmeta, hmeta]
      refine ends_checking (fun hdata => ?_) fun hdata => ?_
      all_goals rw [show validateLayoutDirectory fs (datadirName :: loc) = _ from hdata]
      refine ends_checking (fun htmp => ?_) fun htmp => ?_
      all_goals rw [show validateLayoutDirectory fs (tmpdirName :: loc) = _ from htmp]
      exact .prepared fun _ => rfl
    · rw [if_neg (by rw [hmeta]; decide), hmeta]
      exact .answers
  | directory | special => exact .answers
  | dangling => exact absurd rfl hlink

/-- **An open that is alone** prepares the directory as `prepare_database_directory` does. -/
theorem ends_prepareDatabaseDirectory : Ends loc flags ⟨fs, .idle, none⟩
    (prepareDatabaseDirectory fs (.durable loc) flags) := by
  refine .goes rfl ?_
  dsimp only [turn, prepareDatabaseDirectory]
  cases hexists : fs.existsAt loc with
  | false =>
    cases hcreate : hasFlag flags openCreate with
    | false =>
      rw [Bool.and_false]
      exact .answers
    | true =>
      rw [Bool.and_false]
      refine ends_creating (fun made hmade => ?_) fun hnone => ?_
      · rw [show fs.createDirectories loc = _ from hmade]
        exact ends_initializing
      · rw [show fs.createDirectories loc = _ from hnone]
        rfl
  | true =>
    cases hexclusive : hasFlag flags openExclusive with
    | true => exact .answers
    | false =>
      refine .goes rfl ?_
      dsimp only [turn]
      cases hdir : fs.isDirectory loc with
      | false => exact .answers
      | true =>
        refine .goes rfl ?_
        dsimp only [turn, prepareExistingDatabaseDirectory]
        cases hmeta : fs.existsAt (metaFilename :: loc) with
        | true => exact ends_validating hmeta
        | false =>
          refine .goes rfl ?_
          dsimp only [turn]
          cases hempty : fs.isEmpty loc with
          | false => exact .answers
          | true =>
            cases hcreate : hasFlag flags openCreate with
            | false => exact .answers
            | true => exact ends_initializing

end Alone

end MyLite.Directory
