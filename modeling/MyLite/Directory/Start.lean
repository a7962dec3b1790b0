import MyLite.Directory.Creation
import MyLite.Directory.WriteFaults

namespace MyLite.Directory

open MyLite.Api MyLite.Lib MyLite.Lib.FileSystem MyLite.Sql List

/-!
# Starting the runtime

`start_runtime` on the file system: the database lock, the directories of the runtime, the server
arguments, and `mysql_server_init`.  Every one of them may fail, by a return code or by an
exception, and the ways out differ: a failed `mysql_server_init` removes the runtime directory, the
handler for exceptions does not know it.

* `RuntimeRecord` — `g_runtime`, with the places it names.
* `StartInput` — what the caller has configured, and what fails.
* `startRuntime` — the code.
* `leavesNothing_iff` — which failures leave nothing behind.
-/

/-! ### Layouts -/

/-- `k_rundir_name`. -/
def rundirName : Text := ascii "run"

/-- `k_plugin_directory_name`. -/
def pluginDirectoryName : Text := ascii "plugins"

/-- `k_runtime_directory_attempts`. -/
def runtimeDirectoryAttempts : ℕ := 100

/-- `RuntimeLayout`. -/
structure RuntimeLayout where
  cleanupDirectory : Location Text
  persistentTmpDirectory : Option (Location Text)
  dataDirectory : Location Text
  tmpDirectory : Location Text
  pluginDirectory : Location Text

/-- The layout of a durable database. -/
def persistentLayout (loc : Location Text) : RuntimeLayout where
  cleanupDirectory := rundirName :: loc
  persistentTmpDirectory := some (tmpdirName :: loc)
  dataDirectory := datadirName :: loc
  tmpDirectory := tmpdirName :: loc
  pluginDirectory := pluginDirectoryName :: rundirName :: loc

/-- The layout in a transient directory. -/
def memoryLayout (candidate : Location Text) : RuntimeLayout where
  cleanupDirectory := candidate
  persistentTmpDirectory := none
  dataDirectory := ascii "data" :: candidate
  tmpDirectory := ascii "tmp" :: candidate
  pluginDirectory := ascii "plugins" :: candidate

/-- The directories in which the server works. -/
def RuntimeLayout.scratch (layout : RuntimeLayout) : List (Location Text) :=
  [layout.dataDirectory, layout.tmpDirectory, layout.cleanupDirectory]

/-- What the build has fixed. -/
structure Build where
  /-- `MYLITE_MARIADB_MESSAGES_DIR`. -/
  messagesDir : Text := []
  /-- `MYLITE_MARIADB_CHARSETS_DIR`. -/
  charsetsDir : Text := []
  /-- `WITH_PERFSCHEMA_STORAGE_ENGINE`. -/
  performanceSchema : Bool := false

/-- `runtime_arguments`. -/
def runtimeArguments (build : Build) (layout : RuntimeLayout) : List Text :=
  let data := pathText layout.dataDirectory
  let tmp := pathText layout.tmpDirectory
  [ascii "mylite", ascii "--no-defaults", ascii "--datadir=" ++ data, ascii "--tmpdir=" ++ tmp,
    ascii "--plugin-dir=" ++ pathText layout.pluginDirectory, ascii "--aria-log-dir-path=" ++ data,
    ascii "--innodb-data-home-dir=" ++ data, ascii "--innodb-log-group-home-dir=" ++ data,
    ascii "--innodb-undo-directory=" ++ data, ascii "--innodb-tmpdir=" ++ tmp,
    ascii "--innodb-temp-data-file-path=ibtmp1:12M:autoextend",
    ascii "--innodb-flush-log-at-trx-commit=1", ascii "--innodb-fast-shutdown=1",
    ascii "--log-output=NONE", ascii "--max-digest-length=0", ascii "--use-stat-tables=never",
    ascii "--histogram-size=0", ascii "--skip-log-bin", ascii "--skip-slave-start",
    ascii "--skip-grant-tables", ascii "--skip-networking"] ++
  (if build.performanceSchema then [ascii "--performance-schema=OFF"] else []) ++
  [ascii "--lc-messages-dir=" ++ build.messagesDir,
    ascii "--character-sets-dir=" ++ build.charsetsDir]

/-! ### State and input -/

/-- `g_runtime` without its mutex; an empty path or string is `none`, and so is the descriptor
    `-1`. -/
structure RuntimeRecord (Path : Type) where
  refCount : ℕ := 0
  databasePath : Option Path := none
  arguments : List Text := []
  argv : List Text := []
  cleanupDirectory : Option (Location Text) := none
  persistentTmpDirectory : Option (Location Text) := none
  /-- The directory whose lock file is open. -/
  lockFd : Option (Location Text) := none

variable {Path : Type}

namespace RuntimeRecord

/-- The fields that are cleared on every way out of the runtime. -/
def cleared (r : RuntimeRecord Path) : RuntimeRecord Path :=
  { r with
    databasePath := none
    arguments := []
    argv := []
    cleanupDirectory := none
    persistentTmpDirectory := none }

/-- The assignments of `start_runtime`, in their order; only the first `count` of them are made. -/
def assign (build : Build) (layout : RuntimeLayout) (path : Path) (count : ℕ)
    (r : RuntimeRecord Path) : RuntimeRecord Path :=
  ([fun r => { r with arguments := runtimeArguments build layout },
    fun r => { r with argv := r.arguments },
    fun r => { r with cleanupDirectory := some layout.cleanupDirectory },
    fun r => { r with persistentTmpDirectory := layout.persistentTmpDirectory },
    fun r => { r with databasePath := some path }].take count).foldl (fun r f => f r) r

/-- Without a reference, the fields are clear. -/
def Settled (r : RuntimeRecord Path) : Prop := r.refCount = 0 → r.cleared = r

end RuntimeRecord

/-- What `acquire_database_lock` meets. -/
inductive LockOutcome
  | taken
  /-- The lock file cannot be opened. -/
  | noFile
  /-- Another process holds the lock until the time-out. -/
  | busy
  /-- `flock` fails otherwise. -/
  | error
  deriving DecidableEq, Repr

/-- How `mysql_server_init` ends; behind a return code, `set_error` may run out of memory. -/
inductive InitOutcome
  | ok
  | fails (textThrows : Bool)
  | throws
  deriving DecidableEq, Repr

/-- How `remove_all` ends, whose errors are ignored: `some parts` if it stops before the directory
    itself, with these parts of it removed. -/
abbrev Removal := Option (List (Location Text))

/-- What a call of `start_runtime` is given and meets. -/
structure StartInput where
  /-- `runtime_root`. -/
  root : Location Text := []
  /-- `unique_runtime_name`, for each attempt. -/
  uniqueRuntimeName : ℕ → Text := fun _ => []
  lock : LockOutcome := .taken
  /-- The removal of an old `run/`. -/
  staleRemoval : Removal := none
  /-- `create_directories` on the root of transient directories. -/
  createRoot : Option ℕ := none
  /-- `create_directory` fails at an attempt. -/
  createCandidate : ℕ → Bool := fun _ => false
  /-- `create_directories` on `run/`. -/
  createRun : Option ℕ := none
  /-- `create_directories` on the directories behind it. -/
  createSubdirectory : ℕ → Option ℕ := fun _ => none
  /-- An exception in the construction of the arguments or behind some of the assignments. -/
  arguments : Option ℕ := none
  init : InitOutcome := .ok
  /-- What the server does in its directories until `mysql_server_init` ends. -/
  edits : List (ℕ × FileSystem.Edit Text Text) := []
  /-- The removal of the runtime directory behind a failed `mysql_server_init`. -/
  removal : Removal := none

/-! ### The code -/

/-- `remove_directory_if_present`. -/
def removeDirectoryIfPresent (fs : Files) (directory : Option (Location Text)) (removal : Removal) :
    Files :=
  match directory, removal with
  | none, _ => fs
  | some loc, none => fs.removeAll loc
  | some loc, some parts => fs.work (parts.map fun rel => (loc, .remove rel))

/-- `create_runtime_subdirectory`. -/
def createRuntimeSubdirectory (fs : Files) (fault : Option ℕ) (directory : Location Text) :
    Except Files Files := createLayoutDirectoryUnder fs fault directory

/-- `create_runtime_subdirectory` on one directory after the other. -/
def createSubdirectories (faults : ℕ → Option ℕ) : ℕ → List (Location Text) → Files →
    Except Files Files
  | _, [], fs => .ok fs
  | k, directory :: directories, fs =>
    match createRuntimeSubdirectory fs (faults k) directory with
    | .ok fs => createSubdirectories faults (k + 1) directories fs
    | .error left => .error left

/-- A runtime directory, and whether it was made just now. -/
structure RuntimeDirectory where
  fs : Files
  loc : Location Text
  made : Bool

namespace StartInput

variable (i : StartInput)

/-- The attempts of `create_memory_runtime_layout`. -/
def createCandidateDirectory (fs : Files) : ℕ → ℕ → Except Files RuntimeDirectory
  | 0, _ => .error fs
  | attempts + 1, attempt =>
    let candidate := i.uniqueRuntimeName attempt :: i.root
    if i.createCandidate attempt then .error fs
    else match fs.lookup candidate with
      -- It returns false without an error.
      | some .directory => createCandidateDirectory fs attempts (attempt + 1)
      | some _ => .error fs
      | none =>
        match fs.createDirectory candidate with
        | some made => .ok ⟨made, candidate, true⟩
        | none => .error fs

/-- The runtime directory of a layout, up to the directories in it. -/
def createRuntimeDirectory (fs : Files) : DatabasePath → Except Files RuntimeDirectory
  | .memory =>
    match fs.tryCreateDirectories i.root i.createRoot with
    | (true, fs) => i.createCandidateDirectory fs runtimeDirectoryAttempts 0
    | (false, left) => .error left
  | .durable loc =>
    let fs := removeDirectoryIfPresent fs (some (rundirName :: loc)) i.staleRemoval
    match createRuntimeSubdirectory fs i.createRun (rundirName :: loc) with
    | .ok made => .ok ⟨made, rundirName :: loc, !fs.isDirectory (rundirName :: loc)⟩
    | .error left => .error left

/-- The layout with its runtime directory at `loc`. -/
def layoutAt : DatabasePath → Location Text → RuntimeLayout
  | .memory, loc => memoryLayout loc
  | .durable loc, _ => persistentLayout loc

/-- The directories that are made behind the runtime directory. -/
def subdirectories (layout : RuntimeLayout) : DatabasePath → List (Location Text)
  | .memory => [layout.dataDirectory, layout.tmpDirectory, layout.pluginDirectory]
  | .durable _ => [layout.tmpDirectory, layout.pluginDirectory]

/-- `create_runtime_layout`, behind the runtime directory: `create_memory_runtime_layout` or
    `create_persistent_runtime_layout`. -/
def createRuntimeLayout (place : DatabasePath) (d : RuntimeDirectory) :
    Except Files (RuntimeLayout × Files) :=
  let layout := layoutAt place d.loc
  match createSubdirectories i.createSubdirectory 0 (subdirectories layout place) d.fs with
  | .ok fs => .ok (layout, fs)
  | .error left => .error left

end StartInput

/-- The process, as far as the runtime and the files go; `locks` are the directories whose lock it
    holds. -/
structure RuntimeWorld (Path : Type) where
  runtime : RuntimeRecord Path := {}
  fs : Files
  locks : List (Location Text) := []

/-- How a call ends. -/
inductive StartOutcome
  | returned (code : Result)
  | threw
  deriving DecidableEq, Repr

/-- What a call of `start_runtime` leaves, and the runtime directory it has made, if any. -/
structure StartResult (Path : Type) where
  outcome : StartOutcome
  world : RuntimeWorld Path
  made : Option (Location Text) := none

/-- `release_database_lock`. -/
def releaseDatabaseLock (locks : List (Location Text)) : Option (Location Text) →
    List (Location Text)
  | none => locks
  | some loc => locks.erase loc

/-- `acquire_database_lock`: the descriptor, or the code of the error. -/
def acquireDatabaseLock (i : StartInput) (w : RuntimeWorld Path) (loc : Location Text) :
    Except Result (Location Text) × RuntimeWorld Path :=
  if i.lock = .noFile then (.error .ioerr, w)
  else match w.fs.createFile [] (lockFilename :: loc) with
    | none => (.error .ioerr, w)
    | some fs =>
      match i.lock with
      | .taken => (.ok loc, { w with fs := fs, locks := loc :: w.locks })
      | .busy => (.error .busy, { w with fs := fs })
      | _ => (.error .ioerr, { w with fs := fs })

section Code

variable (build : Build) (i : StartInput)

/-- The handler for exceptions. -/
def handleException (w : RuntimeWorld Path) (fd : Option (Location Text)) (fs : Files)
    (made : Option (Location Text)) : StartResult Path :=
  ⟨.threw, ⟨w.runtime.cleared, fs, releaseDatabaseLock w.locks fd⟩, made⟩

/-- `start_runtime` from `mysql_server_init` on. -/
def initializeServer (w : RuntimeWorld Path) (fd : Option (Location Text)) (layout : RuntimeLayout)
    (made : Option (Location Text)) : StartResult Path :=
  let fs := w.fs.work (i.edits.filterMap fun e => layout.scratch[e.1]?.map fun base => (base, e.2))
  match i.init with
  | .ok => ⟨.returned .ok, ⟨{ w.runtime with refCount := 1, lockFd := fd }, fs, w.locks⟩, made⟩
  | .fails textThrows =>
    ⟨if textThrows then .threw else .returned .error,
      ⟨w.runtime.cleared, removeDirectoryIfPresent fs (some layout.cleanupDirectory) i.removal,
        releaseDatabaseLock w.locks fd⟩, made⟩
  | .throws => handleException w fd fs made

/-- `start_runtime` behind the lock. -/
def startLocked (place : DatabasePath) (w : RuntimeWorld Path) (path : Path)
    (fd : Option (Location Text)) : StartResult Path :=
  match i.createRuntimeDirectory w.fs place with
  | .error left => handleException w fd left none
  | .ok d =>
    let made := if d.made then some d.loc else none
    match i.createRuntimeLayout place d with
    | .error left => handleException w fd left made
    | .ok (layout, fs) =>
      match i.arguments with
      | some count =>
        handleException { w with runtime := w.runtime.assign build layout path count } fd fs made
      | none =>
        initializeServer i { w with runtime := w.runtime.assign build layout path 5, fs := fs } fd
          layout made

/-- `start_runtime`. -/
def startRuntime [DecidableEq Path] (place : Path → DatabasePath) (w : RuntimeWorld Path)
    (path : Path) : StartResult Path :=
  if 0 < w.runtime.refCount then
    if w.runtime.databasePath ≠ some path then ⟨.returned .busy, w, none⟩
    else
      let refCount := (w.runtime.refCount + 1) % Runtime.unsignedRange
      ⟨.returned .ok, { w with runtime.refCount := refCount }, none⟩
  else
    match place path with
    | .memory => startLocked build i .memory w path none
    | .durable loc =>
      match acquireDatabaseLock i w loc with
      | (.error code, w) => ⟨.returned code, w, none⟩
      | (.ok fd, w) => startLocked build i (.durable loc) w path (some fd)

end Code

/-! ### What a failed call leaves -/

/-- A failed call has left nothing behind. -/
structure LeavesNothing (w : RuntimeWorld Path) (r : StartResult Path) : Prop where
  runtime : r.world.runtime = w.runtime
  locks : r.world.locks = w.locks
  directory : ∀ c, r.made = some c → r.world.fs.lookup c = none

/-- The call gets as far as a runtime directory of its own. -/
def MakesDirectory (i : StartInput) (w : RuntimeWorld Path) : DatabasePath → Prop
  | .memory => w.runtime.refCount = 0 ∧ ∃ d, i.createRuntimeDirectory w.fs .memory = .ok d
  | .durable loc => w.runtime.refCount = 0 ∧ i.lock = .taken ∧
    ∃ fs d, w.fs.createFile [] (lockFilename :: loc) = some fs ∧
      i.createRuntimeDirectory fs (.durable loc) = .ok d ∧ d.made = true

/-- Behind the runtime directory nothing fails but `mysql_server_init`, which does not throw, and
    the directory can be removed. -/
structure OnlyInitFails (i : StartInput) (fs : Files) (place : DatabasePath) : Prop where
  subdirectories : ∀ k < (StartInput.subdirectories (StartInput.layoutAt place []) place).length,
    i.createSubdirectory k = none
  tmp : ∀ loc, place = .durable loc → fs.lookup (tmpdirName :: loc) = none ∨
    fs.lookup (tmpdirName :: loc) = some .directory
  arguments : i.arguments = none
  init : i.init ≠ .throws
  removal : i.removal = none

/-! ### The fields and the lock -/

open StartInput

variable {place : DatabasePath} {w : RuntimeWorld Path} {path : Path} {fd : Option (Location Text)}

theorem RuntimeRecord.cleared_assign (build : Build) (layout : RuntimeLayout) (path : Path)
    (count : ℕ) (r : RuntimeRecord Path) :
    (r.assign build layout path count).cleared = r.cleared := by
  match count with
  | 0 | 1 | 2 | 3 | 4 => rfl
  | count + 5 =>
    unfold assign
    rw [take_of_length_le (by simp)]
    rfl

theorem startLocked_restores {build : Build} {i : StartInput}
    (hfails : (startLocked build i place w path fd).outcome ≠ .returned .ok) :
    (startLocked build i place w path fd).world.runtime = w.runtime.cleared ∧
      (startLocked build i place w path fd).world.locks = releaseDatabaseLock w.locks fd := by
  unfold startLocked at hfails ⊢
  split at hfails
  · exact ⟨rfl, rfl⟩
  · dsimp only at hfails ⊢
    split at hfails
    · exact ⟨rfl, rfl⟩
    · split at hfails
      · exact ⟨RuntimeRecord.cleared_assign .., rfl⟩
      · unfold initializeServer at hfails ⊢
        dsimp only at hfails ⊢
        split at hfails
        · exact absurd rfl hfails
        · exact ⟨RuntimeRecord.cleared_assign .., rfl⟩
        · exact ⟨RuntimeRecord.cleared_assign .., rfl⟩

/-- A start that succeeds has made all assignments. -/
theorem startLocked_assigns {build : Build} {i : StartInput}
    (hok : (startLocked build i place w path fd).outcome = .returned .ok) :
    ∃ loc, (startLocked build i place w path fd).world.runtime =
      { w.runtime.assign build (layoutAt place loc) path 5 with refCount := 1, lockFd := fd } := by
  revert hok
  unfold startLocked
  cases i.createRuntimeDirectory w.fs place with
  | error left => exact nofun
  | ok d =>
    dsimp only [StartInput.createRuntimeLayout]
    cases createSubdirectories i.createSubdirectory 0
        (subdirectories (layoutAt place d.loc) place) d.fs with
    | error left => exact nofun
    | ok fs =>
      cases i.arguments with
      | some count => exact nofun
      | none =>
        dsimp only [initializeServer]
        cases i.init with
        | ok => exact fun _ => ⟨d.loc, rfl⟩
        | fails textThrows => cases textThrows <;> exact nofun
        | throws => exact nofun

/-! ### The runtime directory -/

variable {fs : Files} {loc : Location Text}

/-- A runtime directory that is made just now is there, and is empty. -/
structure Fresh (d : RuntimeDirectory) : Prop where
  loc_ne : d.loc ≠ []
  directory : d.fs.lookup d.loc = some .directory
  vacant : Vacant d.fs d.loc

/-- Nothing is beneath a place where nothing is. -/
theorem vacant_of_lookup_none (h : fs.lookup loc = none) : Vacant fs loc := by
  intro name
  by_contra hne
  obtain ⟨node, hnode⟩ := Option.ne_none_iff_exists'.mp hne
  rw [lookup_parent hnode] at h
  cases h

variable {d : RuntimeDirectory}

variable {attempts attempt : ℕ} {name : Text}

/-- The first free name is taken, and nothing else is made. -/
theorem createCandidateDirectory_eq_ok {i : StartInput}
    (h : i.createCandidateDirectory fs attempts attempt = .ok d) :
    (∃ k, d.loc = i.uniqueRuntimeName k :: i.root) ∧ d.made = true ∧ fs.lookup d.loc = none ∧
      d.fs.lookup d.loc = some .directory ∧ fs.Extends d.fs ∧
      FileSystem.SameExcept d.loc fs d.fs := by
  induction attempts generalizing attempt with
  | zero => cases h
  | succ attempts ih =>
    unfold createCandidateDirectory at h
    dsimp only at h
    split at h
    · cases h
    · split at h
      · exact ih h
      · cases h
      · next hnone =>
        split at h
        · next made hmade =>
          obtain rfl := Except.ok.inj h
          obtain ⟨hdir, hext, hsame⟩ := createDirectory_eq_some hmade
          exact ⟨⟨attempt, rfl⟩, rfl, hnone, hdir, hext, hsame⟩
        · cases h

theorem fresh_of_createCandidateDirectory {i : StartInput}
    (h : i.createCandidateDirectory fs attempts attempt = .ok d) : Fresh d ∧ d.made = true := by
  obtain ⟨⟨k, hloc⟩, hmade, hnone, hdir, -, hsame⟩ := createCandidateDirectory_eq_ok h
  refine ⟨⟨by rw [hloc]; exact cons_ne_nil _ _, hdir, fun name => ?_⟩, hmade⟩
  rw [hsame _ (cons_ne_self _ _)]
  exact vacant_of_lookup_none hnone name

/-- Removing `run/`, wholly or in part, does not touch what is beside it. -/
theorem lookup_removeDirectoryIfPresent {l : Location Text} (removal : Removal) (hl : ¬loc <:+ l) :
    (removeDirectoryIfPresent fs (some loc) removal).lookup l = fs.lookup l := by
  cases removal with
  | none => exact lookup_removeAll hl
  | some parts =>
    refine lookup_work fun e he hbeneath => hl ?_
    obtain ⟨rel, -, rfl⟩ := mem_map.mp he
    exact hbeneath.1

theorem not_suffix_beside {other : Text} (h : name ≠ other) :
    ¬name :: loc <:+ other :: loc := fun hs => h (List.cons.inj (hs.eq_of_length rfl)).1

theorem fresh_of_createRun {i : StartInput}
    (h : i.createRuntimeDirectory fs (.durable loc) = .ok d) :
    d.loc = rundirName :: loc ∧ d.fs.lookup d.loc = some .directory ∧
      d.fs.lookup (tmpdirName :: loc) = fs.lookup (tmpdirName :: loc) ∧
      (d.made = true → Fresh d) := by
  unfold createRuntimeDirectory at h
  dsimp only at h
  split at h
  · next made hmade =>
    obtain rfl := Except.ok.inj h
    obtain ⟨hdir, -, hframe⟩ := createLayoutDirectoryUnder_eq_ok hmade
    refine ⟨rfl, hdir, ?_, fun hnew => ⟨cons_ne_nil _ _, hdir, fun name => ?_⟩⟩
    · rw [hframe _ (by decide)]
      exact lookup_removeDirectoryIfPresent i.staleRemoval (not_suffix_beside (by decide))
    · -- `run/` was not there, so nothing was in it.
      have hmade := createDirectories_of_createLayoutDirectoryUnder hmade
      rw [(createDirectories_eq_some hmade).2.2 _ fun hs =>
        absurd hs.length_le (by simp)]
      by_contra hne
      obtain ⟨node, hnode⟩ := Option.ne_none_iff_exists'.mp hne
      rw [isDirectory_iff.mpr (lookup_parent hnode)] at hnew
      cases hnew
  · cases h

/-- **The directory** that a call has made, behind the lock. -/
theorem fresh_of_createRuntimeDirectory {i : StartInput}
    (h : i.createRuntimeDirectory fs place = .ok d) (hmade : d.made = true) : Fresh d := by
  cases place with
  | memory =>
    unfold createRuntimeDirectory at h
    dsimp only at h
    split at h
    · exact (fresh_of_createCandidateDirectory h).1
    · cases h
  | durable loc => exact (fresh_of_createRun h).2.2.2 hmade

theorem cleanupDirectory_layoutAt {i : StartInput}
    (h : i.createRuntimeDirectory fs place = .ok d) :
    (layoutAt place d.loc).cleanupDirectory = d.loc := by
  cases place with
  | memory => rfl
  | durable loc => exact (fresh_of_createRun h).1.symm

/-! ### Directories in it -/

variable {faults : ℕ → Option ℕ} {k : ℕ} {directories : List (Location Text)}

/-- Whatever fails, the directories that were there stay. -/
theorem extends_of_createSubdirectories {left : Files}
    (h : createSubdirectories faults k directories fs = .ok left ∨
      createSubdirectories faults k directories fs = .error left) : fs.Extends left := by
  induction directories generalizing k fs with
  | nil =>
    rcases h with h | h
    · obtain rfl := Except.ok.inj h
      exact FileSystem.Extends.refl fs
    · cases h
  | cons directory directories ih =>
    unfold createSubdirectories at h
    cases hone : createRuntimeSubdirectory fs (faults k) directory with
    | ok made =>
      rw [hone] at h
      have hmade := createDirectories_of_createLayoutDirectoryUnder hone
      exact (createDirectories_eq_some hmade).2.1.trans (ih h)
    | error stopped =>
      rw [hone] at h
      rcases h with h | h
      · cases h
      · obtain rfl : stopped = left := Except.error.inj h
        exact extends_of_createLayoutDirectoryUnder_error hone

/-- A directory can be made in another one where nothing or a directory is. -/
theorem createRuntimeSubdirectory_eq_ok_iff {fault : Option ℕ}
    (hloc : fs.lookup loc = some .directory) :
    (∃ made, createRuntimeSubdirectory fs fault (name :: loc) = .ok made) ↔
      fault = none ∧
        (fs.lookup (name :: loc) = none ∨ fs.lookup (name :: loc) = some .directory) := by
  have hsome : (fs.createDirectories (name :: loc)).isSome ↔
      (fs.lookup (name :: loc) = none ∨ fs.lookup (name :: loc) = some .directory) := by
    rw [createDirectories_isSome_iff]
    constructor
    · exact fun h => h _ (suffix_refl _)
    · intro h l hl
      rcases suffix_cons_iff.mp hl with rfl | hl
      · exact h
      · exact .inr (lookup_of_suffix hloc hl)
  rw [← hsome]
  unfold createRuntimeSubdirectory createLayoutDirectoryUnder FileSystem.tryCreateDirectories
  cases fault with
  | none => cases fs.createDirectories (name :: loc) <;> simp
  | some depth => simp

/-- Places that are free, or directories already, become directories one after the other. -/
theorem createSubdirectories_eq_ok_iff (hpair : directories.Pairwise fun d d' => ¬d' <:+ d)
    (hparent : ∀ d ∈ directories, d ≠ [] ∧ fs.lookup d.tail = some .directory) :
    (∃ made, createSubdirectories faults k directories fs = .ok made) ↔
      (∀ j < directories.length, faults (k + j) = none) ∧
        ∀ d ∈ directories, fs.lookup d = none ∨ fs.lookup d = some .directory := by
  induction directories generalizing k fs with
  | nil => exact ⟨fun _ => ⟨nofun, forall_mem_nil _⟩, fun _ => ⟨fs, rfl⟩⟩
  | cons d directories ih =>
    obtain ⟨⟨hne, hloc⟩, hparents⟩ := forall_mem_cons.mp hparent
    obtain ⟨name, loc, rfl⟩ := exists_cons_of_ne_nil hne
    obtain ⟨hd, hpair'⟩ := pairwise_cons.mp hpair
    have hone : (∃ made, createRuntimeSubdirectory fs (faults k) (name :: loc) = .ok made) ↔ _ :=
      createRuntimeSubdirectory_eq_ok_iff hloc
    have hfaults : (∀ j < directories.length + 1, faults (k + j) = none) ↔
        faults k = none ∧ ∀ j < directories.length, faults (k + 1 + j) = none := by
      rw [Nat.forall_lt_succ_left]
      simp only [Nat.add_zero, Nat.add_assoc, Nat.add_comm 1]
    rw [length_cons, hfaults, forall_mem_cons, createSubdirectories]
    cases hmade : createRuntimeSubdirectory fs (faults k) (name :: loc) with
    | error left =>
      have hnone : ¬∃ made, createRuntimeSubdirectory fs (faults k) (name :: loc) = .ok made := by
        rw [hmade]
        exact fun ⟨made, h⟩ => nomatch h
      rw [hone] at hnone
      exact ⟨fun ⟨made, h⟩ => (nomatch h), fun h => absurd ⟨h.1.1, h.2.1⟩ hnone⟩
    | ok made =>
      obtain ⟨hfault, hplace⟩ := hone.mp ⟨made, hmade⟩
      obtain ⟨-, hext, hframe⟩ := createDirectories_eq_some
        (createDirectories_of_createLayoutDirectoryUnder hmade)
      -- The places behind this one are as they were.
      have hsame : ∀ d' ∈ directories, made.lookup d' = fs.lookup d' :=
        fun d' hd' => hframe d' (hd d' hd')
      dsimp only
      rw [ih hpair' fun d' hd' => ⟨(hparents d' hd').1, hext _ _ (hparents d' hd').2⟩]
      constructor
      · rintro ⟨hrest, hplaces⟩
        exact ⟨⟨hfault, hrest⟩, hplace, fun d' hd' => hsame d' hd' ▸ hplaces d' hd'⟩
      · rintro ⟨⟨-, hrest⟩, -, hplaces⟩
        exact ⟨hrest, fun d' hd' => (hsame d' hd').symm ▸ hplaces d' hd'⟩

theorem mem_subdirectories {i : StartInput} {l : Location Text}
    (hd : i.createRuntimeDirectory fs place = .ok d)
    (hl : l ∈ subdirectories (layoutAt place d.loc) place) :
    (∃ name, l = name :: d.loc) ∨ ∃ loc, place = .durable loc ∧ l = tmpdirName :: loc := by
  cases place with
  | memory =>
    simp only [subdirectories, layoutAt, memoryLayout, mem_cons, not_mem_nil, or_false] at hl
    rcases hl with rfl | rfl | rfl
    · exact .inl ⟨_, rfl⟩
    · exact .inl ⟨_, rfl⟩
    · exact .inl ⟨_, rfl⟩
  | durable loc =>
    simp only [subdirectories, layoutAt, persistentLayout, mem_cons, not_mem_nil, or_false] at hl
    rcases hl with rfl | rfl
    · exact .inr ⟨loc, rfl, rfl⟩
    · exact .inl ⟨_, by rw [(fresh_of_createRun hd).1]⟩

theorem parent_subdirectories {i : StartInput} (hd : i.createRuntimeDirectory fs place = .ok d)
    (hfresh : Fresh d) : ∀ l ∈ subdirectories (layoutAt place d.loc) place,
      l ≠ [] ∧ d.fs.lookup l.tail = some .directory := by
  intro l hl
  rcases mem_subdirectories hd hl with ⟨name, rfl⟩ | ⟨loc, rfl, rfl⟩
  · exact ⟨cons_ne_nil _ _, hfresh.directory⟩
  · have hrun := hfresh.directory
    rw [(fresh_of_createRun hd).1] at hrun
    exact ⟨cons_ne_nil _ _, lookup_parent hrun⟩

/-- **The layout** behind a new runtime directory is made exactly if no call fails and `tmp/` is not
    in the way. -/
theorem createRuntimeLayout_eq_ok_iff {i : StartInput}
    (hd : i.createRuntimeDirectory fs place = .ok d) (hmade : d.made = true) :
    (∃ made, createSubdirectories i.createSubdirectory 0
        (subdirectories (layoutAt place d.loc) place) d.fs = .ok made) ↔
      (∀ k < (subdirectories (layoutAt place []) place).length,
        i.createSubdirectory k = none) ∧
      ∀ loc, place = .durable loc → fs.lookup (tmpdirName :: loc) = none ∨
        fs.lookup (tmpdirName :: loc) = some .directory := by
  have hfresh := fresh_of_createRuntimeDirectory hd hmade
  rw [createSubdirectories_eq_ok_iff ?_ (parent_subdirectories hd hfresh)]
  · simp only [Nat.zero_add]
    refine and_congr (by cases place <;> rfl) ⟨?_, fun h l hl => ?_⟩
    · rintro h loc rfl
      rw [← (fresh_of_createRun hd).2.2.1]
      exact h _ (mem_cons_self ..)
    · rcases mem_subdirectories hd hl with ⟨name, rfl⟩ | ⟨loc, rfl, rfl⟩
      · exact .inl (hfresh.vacant name)
      · rw [(fresh_of_createRun hd).2.2.1]
        exact h loc rfl
  · cases place with
    | memory =>
      simp only [subdirectories, layoutAt, memoryLayout, pairwise_cons,
        mem_cons, not_mem_nil, or_false, forall_eq_or_imp, forall_eq]
      exact ⟨⟨not_suffix_beside (by decide), not_suffix_beside (by decide)⟩,
        not_suffix_beside (by decide), nofun, List.Pairwise.nil⟩
    | durable loc =>
      simp only [subdirectories, layoutAt, persistentLayout,
        pairwise_cons, mem_cons, not_mem_nil, or_false, forall_eq]
      refine ⟨fun hs => ?_, nofun, List.Pairwise.nil⟩
      exact absurd hs.length_le (by simp)

/-! ### The way out -/

/-- The server's work does not remove its runtime directory. -/
theorem lookup_work_cleanupDirectory {layout : RuntimeLayout} (fs : Files)
    (edits : List (ℕ × FileSystem.Edit Text Text))
    (hscratch : ∀ base ∈ layout.scratch, ¬Beneath base layout.cleanupDirectory) :
    (fs.work (edits.filterMap fun e => layout.scratch[e.1]?.map fun base => (base, e.2))).lookup
      layout.cleanupDirectory = fs.lookup layout.cleanupDirectory := by
  refine lookup_work fun e he => ?_
  obtain ⟨e', -, heq⟩ := mem_filterMap.mp he
  obtain ⟨base, hbase, rfl⟩ := Option.map_eq_some_iff.mp heq
  exact hscratch base (mem_of_getElem? hbase)

theorem not_beneath_cleanupDirectory (place : DatabasePath) (loc : Location Text) :
    ∀ base ∈ (layoutAt place loc).scratch,
      ¬Beneath base (layoutAt place loc).cleanupDirectory := by
  intro base hbase hbeneath
  have hlength := hbeneath.1.length_le
  cases place with
  | memory =>
    simp only [layoutAt, memoryLayout, RuntimeLayout.scratch, mem_cons,
      not_mem_nil, or_false] at hbase hbeneath hlength
    rcases hbase with rfl | rfl | rfl
    · exact absurd hlength (by simp)
    · exact absurd hlength (by simp)
    · exact hbeneath.2 rfl
  | durable db =>
    simp only [layoutAt, persistentLayout, RuntimeLayout.scratch, mem_cons,
      not_mem_nil, or_false] at hbase hbeneath
    rcases hbase with rfl | rfl | rfl
    · exact not_suffix_beside (by decide) hbeneath.1
    · exact not_suffix_beside (by decide) hbeneath.1
    · exact hbeneath.2 rfl

/-- A removal that stops leaves the directory itself. -/
theorem lookup_removeDirectoryIfPresent_iff {removal : Removal} (hloc : loc ≠ [])
    (hdir : fs.lookup loc = some .directory) :
    (removeDirectoryIfPresent fs (some loc) removal).lookup loc = none ↔ removal = none := by
  cases removal with
  | none => exact ⟨fun _ => rfl, fun _ => lookup_removeAll_of_suffix hloc (suffix_refl _)⟩
  | some parts =>
    have hkept : (removeDirectoryIfPresent fs (some loc) (some parts)).lookup loc =
        fs.lookup loc := by
      refine lookup_work fun e he hbeneath => ?_
      obtain ⟨rel, -, rfl⟩ := mem_map.mp he
      exact hbeneath.2 rfl
    rw [hkept, hdir]
    exact ⟨nofun, nofun⟩

/-- **The way out** of a call that has made its runtime directory. -/
theorem startLocked_lookup_iff {build : Build} {i : StartInput}
    (hd : i.createRuntimeDirectory w.fs place = .ok d) (hmade : d.made = true)
    (hfails : (startLocked build i place w path fd).outcome ≠ .returned .ok) :
    (startLocked build i place w path fd).world.fs.lookup d.loc = none ↔
      OnlyInitFails i w.fs place := by
  have hfresh := fresh_of_createRuntimeDirectory hd hmade
  have hstays : ∀ {left : Files}, d.fs.Extends left → ¬left.lookup d.loc = none := by
    intro left hext
    rw [hext _ _ hfresh.directory]
    exact nofun
  have hlayout := createRuntimeLayout_eq_ok_iff hd hmade
  unfold startLocked createRuntimeLayout at hfails ⊢
  rw [hd] at hfails ⊢
  dsimp only at hfails ⊢
  cases hmk : createSubdirectories i.createSubdirectory 0
      (subdirectories (layoutAt place d.loc) place) d.fs with
  | error left =>
    rw [hmk] at hlayout
    refine ⟨fun h => absurd h (hstays (extends_of_createSubdirectories (.inr hmk))), fun h => ?_⟩
    obtain ⟨layout, hok⟩ := hlayout.mpr ⟨h.subdirectories, h.tmp⟩
    cases hok
  | ok fs =>
    rw [hmk] at hfails
    obtain ⟨hsub, htmp⟩ := hlayout.mp ⟨_, hmk⟩
    have hext := extends_of_createSubdirectories (.inl hmk)
    have hcleanup := cleanupDirectory_layoutAt hd
    have hwork := lookup_work_cleanupDirectory fs i.edits (not_beneath_cleanupDirectory place d.loc)
    rw [hcleanup, hext _ _ hfresh.directory] at hwork
    dsimp only at hfails ⊢
    cases harguments : i.arguments with
    | some count =>
      refine ⟨fun h => absurd h (hstays hext), fun h => ?_⟩
      cases harguments.symm.trans h.arguments
    | none =>
      rw [harguments] at hfails
      dsimp only at hfails ⊢
      unfold initializeServer at hfails ⊢
      dsimp only at hfails ⊢
      cases hinit : i.init with
      | ok =>
        rw [hinit] at hfails
        exact absurd rfl hfails
      | fails textThrows =>
        dsimp only
        rw [hcleanup, lookup_removeDirectoryIfPresent_iff hfresh.loc_ne hwork]
        refine ⟨fun h => ⟨hsub, htmp, harguments, ?_, h⟩, fun h => h.removal⟩
        rw [hinit]
        exact nofun
      | throws =>
        refine ⟨fun h => ?_, fun h => absurd hinit h.init⟩
        cases hwork.symm.trans h

theorem startLocked_made_eq {build : Build} {i : StartInput}
    (hd : i.createRuntimeDirectory w.fs place = .ok d) :
    (startLocked build i place w path fd).made = if d.made then some d.loc else none := by
  unfold startLocked
  rw [hd]
  dsimp only
  split
  · rfl
  · split
    · rfl
    · unfold initializeServer
      dsimp only
      split <;> rfl

/-- Which directory a call behind the lock has made. -/
theorem startLocked_made {build : Build} {i : StartInput} {c : Location Text} :
    (startLocked build i place w path fd).made = some c ↔
      ∃ d, i.createRuntimeDirectory w.fs place = .ok d ∧ d.made = true ∧ d.loc = c := by
  cases hd : i.createRuntimeDirectory w.fs place with
  | error left =>
    rw [startLocked, hd]
    exact ⟨nofun, fun ⟨_, h, _⟩ => (nomatch h)⟩
  | ok d =>
    rw [startLocked_made_eq hd]
    constructor
    · intro h
      split_ifs at h with hnew
      exact ⟨d, rfl, hnew, Option.some.inj h⟩
    · rintro ⟨d', heq, hnew, rfl⟩
      obtain rfl := Except.ok.inj heq
      rw [if_pos hnew]

/-- A failed call behind the lock. -/
theorem leavesNothing_startLocked_iff {build : Build} {i : StartInput} {w₁ : RuntimeWorld Path}
    (hruntime : w₁.runtime.cleared = w.runtime) (hlocks : releaseDatabaseLock w₁.locks fd = w.locks)
    (hfails : (startLocked build i place w₁ path fd).outcome ≠ .returned .ok) :
    LeavesNothing w (startLocked build i place w₁ path fd) ↔
      ((∃ d, i.createRuntimeDirectory w₁.fs place = .ok d ∧ d.made = true) →
        OnlyInitFails i w₁.fs place) := by
  obtain ⟨hruntime', hlocks'⟩ := startLocked_restores hfails
  constructor
  · rintro h ⟨d, hd, hmade⟩
    exact (startLocked_lookup_iff hd hmade hfails).mp
      (h.directory _ (startLocked_made.mpr ⟨d, hd, hmade, rfl⟩))
  · intro h
    refine ⟨hruntime'.trans hruntime, hlocks'.trans hlocks, fun c hc => ?_⟩
    obtain ⟨d, hd, hmade, rfl⟩ := startLocked_made.mp hc
    exact (startLocked_lookup_iff hd hmade hfails).mpr (h ⟨d, hd, hmade⟩)

/-- Without the lock, a call does not get to a runtime directory, and leaves the rest as it was. -/
theorem acquireDatabaseLock_cases (i : StartInput) (w : RuntimeWorld Path) (loc : Location Text) :
    (∃ code w', acquireDatabaseLock i w loc = (.error code, w') ∧ code ≠ .ok ∧
      w'.runtime = w.runtime ∧ w'.locks = w.locks ∧
      ¬(i.lock = .taken ∧ ∃ fs, w.fs.createFile [] (lockFilename :: loc) = some fs)) ∨
    ∃ fs, i.lock = .taken ∧ w.fs.createFile [] (lockFilename :: loc) = some fs ∧
      acquireDatabaseLock i w loc = (.ok loc, { w with fs := fs, locks := loc :: w.locks }) := by
  unfold acquireDatabaseLock
  by_cases hfile : i.lock = .noFile
  · rw [if_pos hfile, hfile]
    exact .inl ⟨_, _, rfl, nofun, rfl, rfl, fun h => (nomatch h.1)⟩
  · rw [if_neg hfile]
    cases hcreate : w.fs.createFile [] (lockFilename :: loc) with
    | none => exact .inl ⟨_, _, rfl, nofun, rfl, rfl, fun ⟨_, fs, hfs⟩ => (nomatch hfs)⟩
    | some fs =>
      cases hlock : i.lock with
      | taken => exact .inr ⟨fs, rfl, rfl, rfl⟩
      | noFile => exact absurd hlock hfile
      | busy | error => exact .inl ⟨_, _, rfl, nofun, rfl, rfl, fun h => (nomatch h.1)⟩

/-- **Failed starts.** Whatever fails in `start_runtime`, the fields of `g_runtime` are as before
    and the lock is released; and no runtime directory of the call stays exactly if the call did not
    get as far as making one, or if nothing but `mysql_server_init` has failed behind that, by its
    return code, and the directory could be removed. -/
theorem leavesNothing_iff [DecidableEq Path] {build : Build} {i : StartInput}
    {place : Path → DatabasePath} {w : RuntimeWorld Path} {path : Path}
    (hsettled : w.runtime.Settled)
    (hfails : (startRuntime build i place w path).outcome ≠ .returned .ok) :
    LeavesNothing w (startRuntime build i place w path) ↔
      (MakesDirectory i w (place path) → OnlyInitFails i w.fs (place path)) := by
  unfold startRuntime at hfails ⊢
  by_cases hcount : 0 < w.runtime.refCount
  · -- The runtime is up, and belongs to another path.
    rw [if_pos hcount] at hfails ⊢
    by_cases hpath : w.runtime.databasePath ≠ some path
    · rw [if_pos hpath]
      refine ⟨fun _ hmakes => ?_, fun _ => ⟨rfl, rfl, nofun⟩⟩
      cases hplace : place path with
      | memory | durable loc =>
        rw [hplace] at hmakes
        exact absurd hmakes.1 (by omega)
    · rw [if_neg hpath] at hfails
      exact absurd rfl hfails
  · rw [if_neg hcount] at hfails ⊢
    have hzero : w.runtime.refCount = 0 := by omega
    have hclear := hsettled hzero
    cases hplace : place path with
    | memory =>
      rw [hplace] at hfails
      rw [leavesNothing_startLocked_iff hclear rfl hfails]
      refine imp_congr ⟨fun ⟨d, hd, _⟩ => ⟨hzero, d, hd⟩, fun ⟨_, d, hd⟩ => ⟨d, hd, ?_⟩⟩ Iff.rfl
      unfold createRuntimeDirectory at hd
      dsimp only at hd
      split at hd
      · exact (fresh_of_createCandidateDirectory hd).2
      · cases hd
    | durable loc =>
      rw [hplace] at hfails
      dsimp only at hfails ⊢
      rcases acquireDatabaseLock_cases i w loc with
        ⟨code, w', heq, -, hruntime, hlocks, hnone⟩ | ⟨fs, hlock, hcreate, heq⟩
      · rw [heq]
        refine ⟨fun _ ⟨_, hlock, fs, d, hcreate, _⟩ => absurd ⟨hlock, fs, hcreate⟩ hnone,
          fun _ => ?_⟩
        exact ⟨hruntime, hlocks, nofun⟩
      · rw [heq] at hfails ⊢
        have hrelease : releaseDatabaseLock (loc :: w.locks) (some loc) = w.locks :=
          erase_cons_head loc w.locks
        dsimp only at hfails ⊢
        refine Iff.trans (leavesNothing_startLocked_iff (by exact hclear)
          (by exact hrelease) hfails) ?_
        refine imp_congr ⟨fun ⟨d, hd, hmade⟩ => ⟨hzero, hlock, fs, d, hcreate, hd, hmade⟩,
          fun ⟨_, _, fs', d, hcreate', hd, hmade⟩ => ?_⟩ ?_
        · obtain rfl : fs' = fs := Option.some.inj (hcreate'.symm.trans hcreate)
          exact ⟨d, hd, hmade⟩
        · -- The lock file is not in the way of `tmp/`.
          have htmp : ∀ l, DatabasePath.durable loc = .durable l →
              fs.lookup (tmpdirName :: l) = w.fs.lookup (tmpdirName :: l) := by
            rintro _ ⟨⟩
            exact (createFile_eq_some hcreate).2.2 _ fun heq =>
              absurd (List.cons.inj heq).1 (by decide)
          exact ⟨fun h => ⟨h.1, fun l hl => htmp l hl ▸ h.2 l hl, h.3, h.4, h.5⟩,
            fun h => ⟨h.1, fun l hl => (htmp l hl).symm ▸ h.2 l hl, h.3, h.4, h.5⟩⟩

/-- A durable database with its layout. -/
def laidOutDatabase : Files :=
  (prepareDatabaseDirectory .empty (.durable dbLocation) openCreate).2

/-- The one path of an example. -/
def onePath : Unit → DatabasePath := fun _ => .durable dbLocation

/-- A failed `mysql_server_init`. -/
theorem leavesNothing_of_failedInit :
    (startRuntime {} { init := .fails false } onePath { fs := laidOutDatabase } ()).outcome ≠
        .returned .ok ∧
      LeavesNothing { fs := laidOutDatabase }
        (startRuntime {} { init := .fails false } onePath { fs := laidOutDatabase } ()) := by
  have hfails : (startRuntime {} { init := .fails false } onePath { fs := laidOutDatabase }
    ()).outcome
      ≠ .returned .ok := by decide
  refine ⟨hfails, (leavesNothing_iff (fun _ => rfl) hfails).mpr fun _ => ?_⟩
  exact ⟨fun _ _ => rfl, fun l hl => .inr (by cases hl; decide), rfl, nofun, rfl⟩

/-- `run/plugins` cannot be made: `start_runtime` throws, and `run/` stays. -/
theorem runDirectory_of_failedPlugins :
    let r := startRuntime {} { createSubdirectory := fun k => if k = 1 then some 0 else none }
      onePath
      { fs := laidOutDatabase } ()
    r.outcome = .threw ∧ laidOutDatabase.existsAt (rundirName :: dbLocation) = false ∧
      r.made = some (rundirName :: dbLocation) ∧
      r.world.fs.existsAt (rundirName :: dbLocation) = true := by decide

end MyLite.Directory
