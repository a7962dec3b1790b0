import MyLite.Directory.Start

namespace MyLite.Directory

open MyLite.Api MyLite.Lib MyLite.Lib.FileSystem MyLite.Sql List StartInput

/-!
# What a runtime may change on disk

`release_runtime`, and the places at which preparing a directory, starting the runtime, the server's
work and the last release change the file system when no file-system call fails.

* `serve`, `releaseRuntime` — the code.
* `Territory` — the places that belong to a server; `Spares` is "the layout of a database is
  untouched", and `Up` what `g_runtime` says while the runtime is up.
* `lookup_releaseRuntime`, `spares_prepareDatabaseDirectory`, `startRuntime_durable`,
  `startRuntime_memory` — the frame of each part.
-/

/-! ### Closing -/

/-- `remove_directory_contents_if_present`. -/
def removeDirectoryContentsIfPresent (fs : Files) : Option (Location Text) → Files
  | none => fs
  | some loc => if fs.isDirectory loc then fs.removeContents loc else fs

/-- What the server does, each change in one of its directories. -/
abbrev ServerWork := List (ℕ × FileSystem.Edit Text Text)

/-- The work of a server that has the directories `bases`. -/
def workIn (bases : List (Location Text)) (edits : ServerWork) (fs : Files) : Files :=
  fs.work (edits.filterMap fun e => bases[e.1]?.map fun base => (base, e.2))

variable {Path : Type}

/-- The directories of the server that is up. -/
def RuntimeRecord.scratch (place : Path → DatabasePath) (r : RuntimeRecord Path) :
    List (Location Text) :=
  match r.databasePath, r.cleanupDirectory with
  | some path, some loc => (layoutAt (place path) loc).scratch
  | _, _ => []

/-- The server at work between two calls. -/
def serve (place : Path → DatabasePath) (edits : ServerWork) (w : RuntimeWorld Path) :
    RuntimeWorld Path :=
  { w with fs := workIn (w.runtime.scratch place) edits w.fs }

/-- `release_runtime`; `edits` is what the server does until `mysql_server_end` has ended. -/
def releaseRuntime (place : Path → DatabasePath) (edits : ServerWork) (w : RuntimeWorld Path) :
    RuntimeWorld Path :=
  if w.runtime.refCount = 0 then w
  else if 0 < w.runtime.refCount - 1 then
    { w with runtime.refCount := w.runtime.refCount - 1 }
  else
    let fs := (serve place edits w).fs
    let fs := removeDirectoryIfPresent fs w.runtime.cleanupDirectory none
    let fs := removeDirectoryContentsIfPresent fs w.runtime.persistentTmpDirectory
    ⟨{ w.runtime.cleared with refCount := 0, lockFd := none }, fs,
      releaseDatabaseLock w.locks w.runtime.lockFd⟩

/-! ### Input -/

/-- What a call of `mylite_open` is given and meets, when no file-system call fails. -/
structure OpenInput where
  flags : UInt32 := 0
  /-- `runtime_root`. -/
  root : Location Text := []
  /-- The clock and the counter in `unique_runtime_name`. -/
  stamp : ℕ → Text := fun _ => []
  /-- Somebody else holds the lock. -/
  lockBusy : Bool := false
  initFails : Bool := false
  /-- `connect_runtime` succeeds. -/
  connects : Bool := true
  /-- `ensure_core_system_tables` succeeds. -/
  systemTables : Bool := true
  /-- The server's work until `mysql_server_init` has ended. -/
  edits : ServerWork := []
  /-- Its work until `mysql_server_end` has ended, if the open fails behind it. -/
  lastEdits : ServerWork := []

/-- `unique_runtime_name`. -/
def uniqueRuntimeName (stamp : Text) : Text := ascii "mylite-runtime-" ++ stamp

/-- The part of it that `start_runtime` meets. -/
def OpenInput.start (i : OpenInput) : StartInput where
  root := i.root
  uniqueRuntimeName := fun attempt => uniqueRuntimeName (i.stamp attempt)
  lock := if i.lockBusy then .busy else .taken
  init := if i.initFails then .fails false else .ok
  edits := i.edits

/-! ### Places -/

/-- Neither database lies in a directory in which the other one's server works. -/
def Apart (loc loc' : Location Text) : Prop :=
  ∀ name ∈ [rundirName, tmpdirName, datadirName], ¬name :: loc <:+ loc' ∧ ¬name :: loc' <:+ loc

instance (loc loc' : Location Text) : Decidable (Apart loc loc') :=
  inferInstanceAs (Decidable (∀ _ ∈ _, _))

/-- The names of a database directory that the life cycle is about. -/
def layoutNames : List Text := [metaFilename, datadirName, tmpdirName, rundirName]

/-- Where a server may change something whose runtime directory is at `c`. -/
def Territory (c : Location Text) : DatabasePath → Location Text → Prop
  | .memory, l => c <:+ l
  | .durable loc, l => l = lockFilename :: loc ∨ rundirName :: loc <:+ l ∨
    Beneath (datadirName :: loc) l ∨ Beneath (tmpdirName :: loc) l

/-- The layout of a database lies elsewhere. -/
def Remote (c : Location Text) (place : DatabasePath) (loc : Location Text) : Prop :=
  ∀ name ∈ layoutNames, ¬Territory c place (name :: loc)

/-- The layout of a database is untouched. -/
def Spares (loc : Location Text) (fs fs' : Files) : Prop :=
  ∀ name ∈ layoutNames, fs'.lookup (name :: loc) = fs.lookup (name :: loc)

variable {loc : Location Text} {fs fs' : Files}

variable {base : Location Text} {name : Text}

theorem Spares.trans {fs'' : Files} (h : Spares loc fs fs') (h' : Spares loc fs' fs'') :
    Spares loc fs fs'' :=
  fun name hname => (h' name hname).trans (h name hname)

theorem Wellformed.of_lookup (hwell : Wellformed fs loc)
    (h : ∀ name ∈ [metaFilename, datadirName, tmpdirName],
      fs'.lookup (name :: loc) = fs.lookup (name :: loc)) : Wellformed fs' loc := by
  obtain ⟨⟨content, hmeta, hvalid⟩, hdata, htmp⟩ := hwell
  refine ⟨⟨content, ?_, hvalid⟩, ?_, ?_⟩
  · rw [h metaFilename (by simp), hmeta]
  · rw [h datadirName (by simp), hdata]
  · rw [h tmpdirName (by simp), htmp]

theorem Wellformed.of_spares (hwell : Wellformed fs loc) (h : Spares loc fs fs') :
    Wellformed fs' loc := by
  refine hwell.of_lookup fun name hname => h name ?_
  simp only [mem_cons, not_mem_nil, or_false] at hname
  rcases hname with rfl | rfl | rfl <;> simp [layoutNames]

theorem suffix_of_beneath_cons (h : Beneath base (name :: loc)) : base <:+ loc := by
  rcases suffix_cons_iff.mp h.1 with heq | hs
  · exact absurd heq.symm h.2
  · exact hs

theorem not_cons_suffix_self (name : Text) (loc : Location Text) : ¬name :: loc <:+ loc :=
  fun h => absurd h.length_le (by simp)

variable {loc' : Location Text}

/-- **Databases apart.** The server of one database does not touch the layout of another. -/
theorem remote_of_apart {c : Location Text} (hne : loc' ≠ loc) (h : Apart loc loc') :
    Remote c (.durable loc) loc' := by
  rintro name hname (heq | hrun | hdata | htmp)
  · have hlock : name = lockFilename := (List.cons.inj heq).1
    rw [hlock] at hname
    exact absurd hname (by decide)
  · rcases suffix_cons_iff.mp hrun with heq | hs
    · exact hne (List.cons.inj heq).2.symm
    · exact (h rundirName (by simp)).1 hs
  · exact (h datadirName (by simp)).1 (suffix_of_beneath_cons hdata)
  · exact (h tmpdirName (by simp)).1 (suffix_of_beneath_cons htmp)

/-- The server of a database does not touch its own layout but for `run/`. -/
theorem not_territory_own {c : Location Text}
    (hname : name ∈ [metaFilename, datadirName, tmpdirName]) :
    ¬Territory c (.durable loc) (name :: loc) := by
  rintro (heq | hrun | hdata | htmp)
  · have hlock : name = lockFilename := (List.cons.inj heq).1
    rw [hlock] at hname
    exact absurd hname (by decide)
  · have heq : rundirName = name := (List.cons.inj (hrun.eq_of_length rfl)).1
    rw [← heq] at hname
    exact absurd hname (by decide)
  · exact not_cons_suffix_self _ _ (suffix_of_beneath_cons hdata)
  · exact not_cons_suffix_self _ _ (suffix_of_beneath_cons htmp)

theorem spares_of_remote {c : Location Text} {place : DatabasePath} (hremote : Remote c place loc)
    (hframe : ∀ l, ¬Territory c place l → fs'.lookup l = fs.lookup l) : Spares loc fs fs' :=
  fun name hname => hframe _ (hremote name hname)

/-! ### What the server and the last close change -/

variable {l : Location Text}

variable {edits : ServerWork}

theorem lookup_workIn {bases : List (Location Text)} (h : ∀ base ∈ bases, ¬Beneath base l) :
    (workIn bases edits fs).lookup l = fs.lookup l := by
  refine lookup_work fun e he => ?_
  obtain ⟨e', -, heq⟩ := mem_filterMap.mp he
  obtain ⟨base, hbase, rfl⟩ := Option.map_eq_some_iff.mp heq
  exact h base (mem_of_getElem? hbase)

/-- The directories of a server lie in its territory. -/
theorem territory_of_beneath {c : Location Text} {place : DatabasePath}
    (hbase : base ∈ (layoutAt place c).scratch) (h : Beneath base l) : Territory c place l := by
  cases place with
  | memory =>
    simp only [layoutAt, memoryLayout, RuntimeLayout.scratch, mem_cons,
      not_mem_nil, or_false] at hbase
    rcases hbase with rfl | rfl | rfl
    · exact (suffix_cons _ _).trans h.1
    · exact (suffix_cons _ _).trans h.1
    · exact h.1
  | durable loc =>
    simp only [layoutAt, persistentLayout, RuntimeLayout.scratch, mem_cons,
      not_mem_nil, or_false] at hbase
    rcases hbase with rfl | rfl | rfl
    · exact .inr (.inr (.inl h))
    · exact .inr (.inr (.inr h))
    · exact .inr (.inl h.1)

theorem lookup_workIn_layoutAt {c : Location Text} {place : DatabasePath}
    (h : ¬Territory c place l) :
    (workIn (layoutAt place c).scratch edits fs).lookup l = fs.lookup l :=
  lookup_workIn fun _ hbase hbeneath => h (territory_of_beneath hbase hbeneath)

/-- The runtime is up on `path`, with its directory at `c`. -/
structure Up (place : Path → DatabasePath) (w : RuntimeWorld Path) (path : Path)
    (c : Location Text) : Prop where
  count : 0 < w.runtime.refCount
  databasePath : w.runtime.databasePath = some path
  cleanup : w.runtime.cleanupDirectory = some c
  tmp : w.runtime.persistentTmpDirectory =
    (layoutAt (place path) c).persistentTmpDirectory
  cleanup_eq : c = (layoutAt (place path) c).cleanupDirectory
  ne_nil : c ≠ []
  directory : w.fs.lookup c = some .directory

section Up

variable {place : Path → DatabasePath} {w : RuntimeWorld Path} {path : Path} {c : Location Text}

theorem Up.scratch_eq (hup : Up place w path c) :
    w.runtime.scratch place = (layoutAt (place path) c).scratch := by
  rw [RuntimeRecord.scratch, hup.databasePath, hup.cleanup]

theorem Up.cleanup_durable (hup : Up place w path c) (hplace : place path = .durable loc) :
    c = rundirName :: loc := by
  have hcleanup := hup.cleanup_eq
  rw [hplace] at hcleanup
  exact hcleanup

/-- A server at work keeps to its territory, and its directory stays. -/
theorem Up.lookup_serve (hup : Up place w path c) (edits : ServerWork)
    (h : ¬Territory c (place path) l) : (serve place edits w).fs.lookup l = w.fs.lookup l := by
  rw [serve, hup.scratch_eq]
  exact lookup_workIn_layoutAt h

theorem Up.serve_directory (hup : Up place w path c) (edits : ServerWork) :
    (serve place edits w).fs.lookup c = some .directory := by
  have hkept := lookup_work_cleanupDirectory w.fs edits
    (not_beneath_cleanupDirectory (place path) c)
  rw [← hup.cleanup_eq, hup.directory] at hkept
  rw [serve, hup.scratch_eq]
  exact hkept

theorem Up.serve (hup : Up place w path c) (edits : ServerWork) :
    Up place (serve place edits w) path c :=
  ⟨hup.count, hup.databasePath, hup.cleanup, hup.tmp, hup.cleanup_eq, hup.ne_nil,
    hup.serve_directory edits⟩

theorem Up.recount (hup : Up place w path c) {count : ℕ} (hcount : 0 < count) :
    Up place { w with runtime.refCount := count } path c :=
  ⟨hcount, hup.databasePath, hup.cleanup, hup.tmp, hup.cleanup_eq, hup.ne_nil, hup.directory⟩

/-! ### The last release -/

variable {directory : Option (Location Text)}

theorem removeDirectoryContentsIfPresent_of_directory (h : fs.lookup loc = some .directory) :
    removeDirectoryContentsIfPresent fs (some loc) = fs.removeContents loc := by
  rw [removeDirectoryContentsIfPresent, if_pos (isDirectory_iff.mpr h)]

theorem lookup_removeDirectoryContentsIfPresent (h : ∀ loc, directory = some loc → ¬Beneath loc l) :
    (removeDirectoryContentsIfPresent fs directory).lookup l = fs.lookup l := by
  cases directory with
  | none => rfl
  | some loc =>
    rw [removeDirectoryContentsIfPresent]
    split
    · exact lookup_removeContents (h loc rfl)
    · rfl

/-- A place from which something was removed stays empty. -/
theorem lookup_removeDirectoryContentsIfPresent_of_none (h : fs.lookup l = none) :
    (removeDirectoryContentsIfPresent fs directory).lookup l = none := by
  cases directory with
  | none => exact h
  | some loc =>
    rw [removeDirectoryContentsIfPresent]
    split
    · by_cases hbeneath : Beneath loc l
      · exact lookup_removeContents_of_beneath hbeneath
      · rw [lookup_removeContents hbeneath, h]
    · exact h

/-- The files behind the last release. -/
theorem releaseRuntime_last (hup : Up place w path c) (edits : ServerWork)
    (hlast : w.runtime.refCount = 1) :
    (releaseRuntime place edits w).fs = removeDirectoryContentsIfPresent
      ((serve place edits w).fs.removeAll c) w.runtime.persistentTmpDirectory := by
  rw [releaseRuntime, if_neg (by omega), if_neg (by omega), hup.cleanup]
  rfl

/-- **The last release** keeps to the territory of the server. -/
theorem lookup_releaseRuntime (hup : Up place w path c) (edits : ServerWork)
    (hlast : w.runtime.refCount = 1) (h : ¬Territory c (place path) l) :
    (releaseRuntime place edits w).fs.lookup l = w.fs.lookup l := by
  have hcleanup : ¬c <:+ l := by
    intro hs
    cases hplace : place path with
    | memory =>
      rw [hplace] at h
      exact h hs
    | durable loc =>
      rw [hplace] at h
      rw [hup.cleanup_durable hplace] at hs
      exact h (.inr (.inl hs))
  have htmp : ∀ tmp, w.runtime.persistentTmpDirectory = some tmp → ¬Beneath tmp l := by
    intro tmp heq hbeneath
    rw [hup.tmp] at heq
    cases hplace : place path with
    | memory =>
      rw [hplace] at heq
      cases heq
    | durable loc =>
      rw [hplace] at h heq
      obtain rfl := Option.some.inj heq
      exact h (.inr (.inr (.inr hbeneath)))
  rw [releaseRuntime_last hup edits hlast, lookup_removeDirectoryContentsIfPresent htmp,
    lookup_removeAll hcleanup, hup.lookup_serve edits h]

/-- The runtime directory has gone. -/
theorem lookup_releaseRuntime_cleanup (hup : Up place w path c) (edits : ServerWork)
    (hlast : w.runtime.refCount = 1) : (releaseRuntime place edits w).fs.lookup c = none := by
  rw [releaseRuntime_last hup edits hlast]
  exact lookup_removeDirectoryContentsIfPresent_of_none
    (lookup_removeAll_of_suffix hup.ne_nil (suffix_refl c))

/-- `tmp/` is there and is empty. -/
theorem releaseRuntime_tmp (hup : Up place w path c) (edits : ServerWork)
    (hlast : w.runtime.refCount = 1) (hplace : place path = .durable loc)
    (htmp : w.fs.lookup (tmpdirName :: loc) = some .directory) :
    (releaseRuntime place edits w).fs.lookup (tmpdirName :: loc) = some .directory ∧
      Vacant (releaseRuntime place edits w).fs (tmpdirName :: loc) := by
  have howned : ¬Territory c (place path) (tmpdirName :: loc) := by
    rw [hplace]
    exact not_territory_own (by simp)
  have hrecord : w.runtime.persistentTmpDirectory = some (tmpdirName :: loc) := by
    rw [hup.tmp, hplace]
    rfl
  have hdir : ((serve place edits w).fs.removeAll c).lookup (tmpdirName :: loc) =
      some .directory := by
    rw [hup.cleanup_durable hplace, lookup_removeAll (not_suffix_beside (by decide)),
      hup.lookup_serve edits howned, htmp]
  rw [lookup_releaseRuntime hup edits hlast howned, releaseRuntime_last hup edits hlast, hrecord,
    removeDirectoryContentsIfPresent_of_directory hdir]
  exact ⟨htmp, fun name => lookup_removeContents_of_beneath
    ⟨suffix_cons name _, cons_ne_self name _⟩⟩

theorem releaseRuntime_runtime_last (edits : ServerWork) (hlast : w.runtime.refCount = 1) :
    (releaseRuntime place edits w).runtime.refCount = 0 ∧
      (releaseRuntime place edits w).runtime.Settled := by
  rw [releaseRuntime, if_neg (by omega), if_neg (by omega)]
  exact ⟨rfl, fun _ => rfl⟩

/-- Any other release counts down. -/
theorem releaseRuntime_of_lt (edits : ServerWork) (hcount : 1 < w.runtime.refCount) :
    releaseRuntime place edits w = { w with runtime.refCount := w.runtime.refCount - 1 } := by
  rw [releaseRuntime, if_neg (by omega), if_pos (by omega)]

end Up

/-! ### Preparing a directory -/

variable {flags : UInt32}

theorem lookup_createLayoutDirectory {directory : Location Text}
    (h : createLayoutDirectory fs directory = .ok fs' ∨
      createLayoutDirectory fs directory = .error fs') (hl : ¬l <:+ directory) :
    fs'.lookup l = fs.lookup l := by
  rw [createLayoutDirectory] at h
  cases hmade : fs.createDirectories directory with
  | none =>
    rw [hmade] at h
    rcases h with h | h
    · cases h
    · rw [Except.error.inj h]
  | some made =>
    rw [hmade] at h
    rcases h with h | h
    · rw [← Except.ok.inj h]
      exact (createDirectories_eq_some hmade).2.2 l hl
    · cases h

/-- The places that initializing a directory may fill. -/
def Prepared (loc l : Location Text) : Prop :=
  l <:+ loc ∨ ∃ name ∈ [metaFilename, datadirName, tmpdirName], l = name :: loc

theorem not_suffix_of_not_prepared (h : ¬Prepared loc l) (name : Text)
    (hname : name ∈ [metaFilename, datadirName, tmpdirName]) : ¬l <:+ name :: loc := by
  intro hs
  rcases suffix_cons_iff.mp hs with heq | hs
  · exact h (.inr ⟨name, hname, heq⟩)
  · exact h (.inl hs)

/-- **Frame.** Initializing a directory fills its own places only. -/
theorem lookup_initializeDatabaseLayout (hl : ¬Prepared loc l) :
    (caught (initializeDatabaseLayout fs loc)).2.lookup l = fs.lookup l := by
  have hdatadir := not_suffix_of_not_prepared hl datadirName (by simp)
  have htmp := not_suffix_of_not_prepared hl tmpdirName (by simp)
  have hmeta : l ≠ metaFilename :: loc := fun heq => hl (.inr ⟨_, by simp, heq⟩)
  unfold initializeDatabaseLayout
  cases h₁ : createLayoutDirectory fs (datadirName :: loc) with
  | error left => exact lookup_createLayoutDirectory (.inr h₁) hdatadir
  | ok fs₁ =>
    have hsame₁ := lookup_createLayoutDirectory (.inl h₁) hdatadir
    cases h₂ : createLayoutDirectory fs₁ (tmpdirName :: loc) with
    | error left =>
      have hsame₂ := lookup_createLayoutDirectory (.inr h₂) htmp
      show (caught (createLayoutDirectory fs₁ (tmpdirName :: loc) >>= _)).2.lookup l = fs.lookup l
      rw [h₂]
      exact hsame₂.trans hsame₁
    | ok fs₂ =>
      have hsame₂ := (lookup_createLayoutDirectory (.inl h₂) htmp).trans hsame₁
      show (caught (createLayoutDirectory fs₁ (tmpdirName :: loc) >>= _)).2.lookup l = fs.lookup l
      rw [h₂]
      show (caught (if fs₂.existsAt (metaFilename :: loc) then
          if fs₂.isRegularFile (metaFilename :: loc) then pure fs₂ else throw fs₂
        else writeDatabaseMetadata fs₂ (metaFilename :: loc))).2.lookup l = fs.lookup l
      split_ifs
      · exact hsame₂
      · exact hsame₂
      · rw [writeDatabaseMetadata]
        cases hwritten : fs₂.writeFile metadataText (metaFilename :: loc) with
        | none => exact hsame₂
        | some written => exact ((writeFile_eq_some hwritten).2 l hmeta).trans hsame₂

theorem lookup_prepareDatabaseDirectory (hl : ¬Prepared loc l) :
    (prepareDatabaseDirectory fs (.durable loc) flags).2.lookup l = fs.lookup l := by
  unfold prepareDatabaseDirectory
  dsimp only
  split_ifs
  · rfl
  · rfl
  · unfold prepareExistingDatabaseDirectory
    split_ifs
    · exact lookup_initializeDatabaseLayout hl
    · rfl
    · rfl
    · rfl
  · rfl
  · cases hmade : fs.createDirectories loc with
    | none => rfl
    | some made =>
      have hsame := (createDirectories_eq_some hmade).2.2 l fun hs => hl (.inl hs)
      exact (lookup_initializeDatabaseLayout hl).trans hsame

/-- The database at `loc'` is not prepared with the one at `loc`, and its `run/` is not made. -/
theorem not_prepared_run (h : loc' ≠ loc → Apart loc loc') :
    ¬Prepared loc (rundirName :: loc') := by
  rintro (hs | ⟨name, hname, heq⟩)
  · by_cases hne : loc' = loc
    · rw [hne] at hs
      exact not_cons_suffix_self _ _ hs
    · exact (h hne rundirName (by simp)).2 hs
  · rw [← (List.cons.inj heq).1] at hname
    exact absurd hname (by decide)

/-- What keeps everything spares a database that is laid out, if its `run/` does not appear. -/
theorem spares_of_extends (hwell : Wellformed fs loc) (hext : fs.Extends fs')
    (hrun : fs'.lookup (rundirName :: loc) = fs.lookup (rundirName :: loc)) :
    Spares loc fs fs' := by
  obtain ⟨⟨content, hmeta, -⟩, hdata, htmp⟩ := hwell
  intro name hname
  simp only [layoutNames, mem_cons, not_mem_nil, or_false] at hname
  rcases hname with rfl | rfl | rfl | rfl
  · rw [hmeta, hext _ _ hmeta]
  · rw [hdata, hext _ _ hdata]
  · rw [htmp, hext _ _ htmp]
  · exact hrun

/-- **Preparing** a database spares every other one, and its own layout if it has one. -/
theorem spares_prepareDatabaseDirectory (hapart : loc' ≠ loc → Apart loc loc')
    (hwell : Wellformed fs loc') :
    Spares loc' fs (prepareDatabaseDirectory fs (.durable loc) flags).2 :=
  spares_of_extends hwell (prepareDatabaseDirectory_follows fs loc flags).kept
    (lookup_prepareDatabaseDirectory (not_prepared_run hapart))

/-- A well-formed database is opened as it is. -/
theorem prepareDatabaseDirectory_files_of_wellformed (hwell : Wellformed fs loc) :
    (prepareDatabaseDirectory fs (.durable loc) flags).2 = fs := by
  have hloc : fs.lookup loc = some .directory := lookup_parent hwell.datadir
  obtain ⟨content, hmeta, -⟩ := hwell.metadata
  have hexists : fs.existsAt loc = true := existsAt_of_lookup hloc (by decide)
  have hmetadata : fs.existsAt (metaFilename :: loc) = true :=
    existsAt_of_lookup hmeta nofun
  simp [prepareDatabaseDirectory, prepareExistingDatabaseDirectory, hexists, hmetadata,
    isDirectory_iff.mpr hloc]
  split_ifs <;> rfl

/-! ### Starting -/

theorem lookup_createSubdirectories {faults : ℕ → Option ℕ} {k : ℕ}
    {directories : List (Location Text)}
    (h : createSubdirectories faults k directories fs = .ok fs')
    (hparent : ∀ d ∈ directories, d ≠ [] ∧ fs.lookup d.tail = some .directory)
    (hl : l ∉ directories) : fs'.lookup l = fs.lookup l := by
  induction directories generalizing k fs with
  | nil => rw [Except.ok.inj h]
  | cons d directories ih =>
    obtain ⟨⟨hne, hloc⟩, hparents⟩ := forall_mem_cons.mp hparent
    obtain ⟨hld, hrest⟩ := ne_and_not_mem_of_not_mem_cons hl
    obtain ⟨name, loc, rfl⟩ := exists_cons_of_ne_nil hne
    rw [createSubdirectories] at h
    split at h
    · next made hmade =>
      have hcreate := createDirectories_of_createLayoutDirectoryUnder hmade
      have hext := (createDirectories_eq_some hcreate).2.1
      rw [ih h (fun d' hd' => ⟨(hparents d' hd').1, hext _ _ (hparents d' hd').2⟩) hrest]
      exact sameExcept_createDirectories hloc hcreate l hld
    · cases h

theorem createCandidateDirectory_eq_error {i : StartInput} {left : Files} {attempts attempt : ℕ}
    (h : i.createCandidateDirectory fs attempts attempt = .error left) : left = fs := by
  induction attempts generalizing attempt with
  | zero => exact (Except.error.inj h).symm
  | succ attempts ih =>
    unfold createCandidateDirectory at h
    dsimp only at h
    split at h
    · exact (Except.error.inj h).symm
    · split at h
      · exact ih h
      · exact (Except.error.inj h).symm
      · split at h
        · cases h
        · exact (Except.error.inj h).symm

section Start

variable {build : Build} {i : OpenInput} {w : RuntimeWorld Path} {path : Path}
  {fd : Option (Location Text)}

variable {d : RuntimeDirectory}

/-- What a start that has got to `mysql_server_init` leaves, with its directory at `c`. -/
inductive Initialized (i : OpenInput) (place : Path → DatabasePath) (w : RuntimeWorld Path)
    (path : Path) (c : Location Text) (fs : Files) : StartResult Path → Prop
  | up {r : StartResult Path} (hok : r.outcome = .returned .ok) (hmade : r.made = some c)
    (hcount : r.world.runtime.refCount = 1) (hup : Up place r.world path c)
    (hfs : r.world.fs = workIn (layoutAt (place path) c).scratch i.edits fs) :
    Initialized i place w path c fs r
  | failed {r : StartResult Path} (hok : r.outcome = .returned .error) (hmade : r.made = some c)
    (hruntime : r.world.runtime = w.runtime.cleared)
    (hfs : r.world.fs =
      (workIn (layoutAt (place path) c).scratch i.edits fs).removeAll c) :
    Initialized i place w path c fs r

theorem initialized_initializeServer {place : Path → DatabasePath} {c : Location Text}
    (hcleanup : c = (layoutAt (place path) c).cleanupDirectory) (hne : c ≠ [])
    (hdir : fs.lookup c = some .directory) :
    Initialized i place w path c fs (initializeServer i.start
      { w with
        runtime := w.runtime.assign build (layoutAt (place path) c) path 5
        fs := fs } fd (layoutAt (place path) c) (some c)) := by
  cases hinit : i.initFails with
  | false =>
    have hok : i.start.init = .ok := by rw [OpenInput.start, hinit]; rfl
    rw [initializeServer, hok]
    refine .up rfl rfl rfl
      ⟨Nat.one_pos, rfl, congrArg some hcleanup.symm, rfl, hcleanup, hne, ?_⟩ rfl
    have hkept := lookup_work_cleanupDirectory fs i.edits
      (not_beneath_cleanupDirectory (place path) c)
    rw [← hcleanup, hdir] at hkept
    exact hkept
  | true =>
    have hfails : i.start.init = .fails false := by rw [OpenInput.start, hinit]; rfl
    rw [initializeServer, hfails]
    refine .failed rfl rfl (RuntimeRecord.cleared_assign ..) ?_
    show removeDirectoryIfPresent _ (some (layoutAt (place path) c).cleanupDirectory)
      none = _
    rw [← hcleanup]
    rfl

/-- Behind its runtime directory, a start gets to `mysql_server_init`. -/
theorem initialized_startLocked {place : Path → DatabasePath}
    (hd : i.start.createRuntimeDirectory w.fs (place path) = .ok d) (hmade : d.made = true)
    (htmp : ∀ loc, place path = .durable loc → w.fs.lookup (tmpdirName :: loc) = some .directory) :
    ∃ fs, createSubdirectories (fun _ => none) 0
        (subdirectories (layoutAt (place path) d.loc) (place path)) d.fs =
          .ok fs ∧
      Initialized i place w path d.loc fs (startLocked build i.start (place path) w path fd) := by
  have hfresh := fresh_of_createRuntimeDirectory hd hmade
  obtain ⟨made, hsub⟩ := (createRuntimeLayout_eq_ok_iff hd hmade).mpr
    ⟨fun _ _ => rfl, fun loc hplace => .inr (htmp loc hplace)⟩
  have hext : d.fs.Extends made := extends_of_createSubdirectories (.inl hsub)
  unfold startLocked createRuntimeLayout
  rw [hd]
  dsimp only
  rw [hsub, hmade]
  exact ⟨made, hsub, initialized_initializeServer (cleanupDirectory_layoutAt hd).symm
    hfresh.loc_ne (hext _ _ hfresh.directory)⟩

/-- The directories behind the runtime directory lie in it, but for `tmp/`. -/
theorem lookup_subdirectories {i : StartInput} {place : DatabasePath}
    (hd : i.createRuntimeDirectory fs place = .ok d) (hfresh : Fresh d) {faults : ℕ → Option ℕ}
    (hsub : createSubdirectories faults 0 (subdirectories (layoutAt place d.loc) place) d.fs =
      .ok fs') (hl : ¬d.loc <:+ l) (htmp : ∀ loc, place = .durable loc → l ≠ tmpdirName :: loc) :
    fs'.lookup l = d.fs.lookup l := by
  refine lookup_createSubdirectories hsub (parent_subdirectories hd hfresh) fun hmem => ?_
  rcases mem_subdirectories hd hmem with ⟨name, rfl⟩ | ⟨loc, hplace, rfl⟩
  · exact hl (suffix_cons _ _)
  · exact htmp loc hplace rfl

/-! ### Starting on a durable database -/

/-- What a start on the database at `loc` leaves. -/
inductive DurableStart (place : Path → DatabasePath) (w : RuntimeWorld Path) (path : Path)
    (loc : Location Text) : StartResult Path → Prop
  | up {r : StartResult Path} (hok : r.outcome = .returned .ok)
    (hcount : r.world.runtime.refCount = 1) (hup : Up place r.world path (rundirName :: loc)) :
    DurableStart place w path loc r
  | failed {r : StartResult Path} (hok : r.outcome ≠ .returned .ok)
    (hruntime : r.world.runtime = w.runtime.cleared)
    (hrun : w.fs.lookup (rundirName :: loc) = none → r.world.fs.lookup (rundirName :: loc) = none) :
    DurableStart place w path loc r

theorem createRuntimeDirectory_durable (hloc : fs.lookup loc = some .directory) :
    ∃ d, i.start.createRuntimeDirectory fs (.durable loc) = .ok d ∧ d.made = true ∧
      ∀ l, ¬rundirName :: loc <:+ l → d.fs.lookup l = fs.lookup l := by
  -- The old `run/` has gone.
  have hgone : (fs.removeAll (rundirName :: loc)).lookup (rundirName :: loc) = none :=
    lookup_removeAll_of_suffix (cons_ne_nil _ _) (suffix_refl _)
  have hloc' : (fs.removeAll (rundirName :: loc)).lookup loc = some .directory := by
    rw [lookup_removeAll (not_cons_suffix_self _ _), hloc]
  obtain ⟨made, hmade⟩ : ∃ made, createRuntimeSubdirectory (fs.removeAll (rundirName :: loc)) none
      (rundirName :: loc) = .ok made :=
    (createRuntimeSubdirectory_eq_ok_iff hloc').mpr ⟨rfl, .inl hgone⟩
  refine ⟨⟨made, rundirName :: loc, !(fs.removeAll (rundirName :: loc)).isDirectory
    (rundirName :: loc)⟩, ?_, ?_, fun l hl => ?_⟩
  · have hcreated : createRuntimeSubdirectory (removeDirectoryIfPresent fs
        (some (rundirName :: loc)) i.start.staleRemoval) i.start.createRun (rundirName :: loc) =
        .ok made := hmade
    simp only [createRuntimeDirectory, hcreated]
    rfl
  · show (!(fs.removeAll (rundirName :: loc)).isDirectory (rundirName :: loc)) = true
    rw [Bool.not_eq_true', Bool.eq_false_iff, Ne, isDirectory_iff, hgone]
    exact (Option.some_ne_none _).symm
  · have hcreate := createDirectories_of_createLayoutDirectoryUnder hmade
    have hne : l ≠ rundirName :: loc := fun heq => hl (heq ▸ suffix_refl _)
    exact (sameExcept_createDirectories hloc' hcreate l hne).trans
      (lookup_removeAll hl)

/-- **A start on a durable database** keeps to the territory of its server; it leaves the runtime up
    with `run/`, or the runtime as it was without `run/`. -/
theorem startLocked_durable (build : Build) (i : OpenInput) (w : RuntimeWorld Path)
    (fd : Option (Location Text)) {place : Path → DatabasePath} (hplace : place path = .durable loc)
    (hwell : Wellformed w.fs loc) :
    DurableStart place w path loc (startLocked build i.start (place path) w path fd) ∧
      ∀ l, ¬Territory (rundirName :: loc) (.durable loc) l →
        (startLocked build i.start (place path) w path fd).world.fs.lookup l = w.fs.lookup l := by
  have hloc : w.fs.lookup loc = some .directory := lookup_parent hwell.datadir
  obtain ⟨d, hd, hmade, hframe⟩ := createRuntimeDirectory_durable hloc
  obtain ⟨hdloc, -, -, hfresh⟩ := fresh_of_createRun hd
  have htmp : ∀ loc', place path = .durable loc' →
      w.fs.lookup (tmpdirName :: loc') = some .directory := by
    intro loc' heq
    obtain rfl := DatabasePath.durable.inj (hplace.symm.trans heq)
    exact hwell.tmp
  obtain ⟨fs, hsub, hinit⟩ := initialized_startLocked (by rw [hplace]; exact hd) hmade htmp
  have hext : d.fs.Extends fs := extends_of_createSubdirectories (.inl hsub)
  rw [hdloc] at hinit
  rw [hplace] at hsub
  -- Before `mysql_server_init`, only `run/` is new.
  have hbefore : ∀ l, ¬rundirName :: loc <:+ l → fs.lookup l = w.fs.lookup l := by
    intro l hl
    by_cases htmpdir : l = tmpdirName :: loc
    · have hkept : d.fs.lookup (tmpdirName :: loc) = some .directory := by
        rw [hframe _ (not_suffix_beside (by decide)), hwell.tmp]
      rw [htmpdir, hwell.tmp, hext _ _ hkept]
    · rw [← hframe l hl]
      refine lookup_subdirectories hd (hfresh hmade) hsub (by rwa [hdloc]) ?_
      rintro _ ⟨⟩
      exact htmpdir
  have hwork : ∀ l, ¬Territory (rundirName :: loc) (.durable loc) l →
      (workIn (layoutAt (place path) (rundirName :: loc)).scratch i.edits fs).lookup l =
        w.fs.lookup l := by
    intro l hl
    rw [hplace, lookup_workIn_layoutAt hl, hbefore l fun hs => hl (.inr (.inl hs))]
  cases hinit with
  | up hok _ hcount hup hfs => exact ⟨.up hok hcount hup, fun l hl => by rw [hfs, hwork l hl]⟩
  | failed hok _ hruntime hfs =>
    refine ⟨.failed (by rw [hok]; decide) hruntime fun _ => ?_, fun l hl => ?_⟩
    · rw [hfs, lookup_removeAll_of_suffix (cons_ne_nil _ _) (suffix_refl _)]
    · rw [hfs, lookup_removeAll fun hs => hl (.inr (.inl hs)), hwork l hl]

/-- **A start without a reference** on a durable database, from the lock on. -/
theorem startRuntime_durable [DecidableEq Path] (build : Build) (i : OpenInput)
    (w : RuntimeWorld Path) {place : Path → DatabasePath} (hplace : place path = .durable loc)
    (hwell : Wellformed w.fs loc) (hidle : w.runtime.refCount = 0) (hsettled : w.runtime.Settled) :
    DurableStart place w path loc (startRuntime build i.start place w path) ∧
      ∀ l, ¬Territory (rundirName :: loc) (.durable loc) l →
        (startRuntime build i.start place w path).world.fs.lookup l = w.fs.lookup l := by
  have hfile : i.start.lock ≠ .noFile := by
    cases hbusy : i.lockBusy <;> simp [OpenInput.start, hbusy]
  rw [startRuntime, if_neg (by omega), hplace]
  dsimp only
  rw [acquireDatabaseLock, if_neg hfile]
  cases hcreate : w.fs.createFile [] (lockFilename :: loc) with
  | none => exact ⟨.failed nofun (hsettled hidle).symm id, fun _ _ => rfl⟩
  | some fs =>
    -- The lock file belongs to the territory.
    have hsame := (createFile_eq_some hcreate).2.2
    have hlock : ∀ l, ¬Territory (rundirName :: loc) (.durable loc) l →
        fs.lookup l = w.fs.lookup l := fun l hl => hsame l fun heq => hl (.inl heq)
    have hrun : fs.lookup (rundirName :: loc) = w.fs.lookup (rundirName :: loc) :=
      hsame _ fun heq => absurd (List.cons.inj heq).1 (by decide)
    cases hbusy : i.lockBusy with
    | true =>
      have hlockBusy : i.start.lock = .busy := by rw [OpenInput.start, hbusy]; rfl
      rw [hlockBusy]
      exact ⟨.failed nofun (hsettled hidle).symm fun h => hrun.trans h, hlock⟩
    | false =>
      have htaken : i.start.lock = .taken := by rw [OpenInput.start, hbusy]; rfl
      have hwell' : Wellformed fs loc :=
        hwell.of_lookup fun name hname => hlock _ (not_territory_own hname)
      have hstart := startLocked_durable build i { w with fs := fs, locks := loc :: w.locks }
        (some loc) hplace hwell'
      rw [hplace] at hstart
      rw [htaken]
      dsimp only
      refine ⟨?_, fun l hl => (hstart.2 l hl).trans (hlock l hl)⟩
      cases hstart.1 with
      | up hok hcount hup => exact .up hok hcount hup
      | failed hok hruntime hnone => exact .failed hok hruntime fun h => hnone (hrun.trans h)

/-! ### Starting in a transient directory -/

/-- What a start for `:memory:` leaves. -/
inductive MemoryStart (place : Path → DatabasePath) (i : OpenInput) (w : RuntimeWorld Path)
    (path : Path) : StartResult Path → Prop
  | up {r : StartResult Path} {c : Location Text} {stamp : Text} (hok : r.outcome = .returned .ok)
    (hcount : r.world.runtime.refCount = 1) (hup : Up place r.world path c)
    (hmade : r.made = some c) (hname : c = uniqueRuntimeName stamp :: i.root)
    (hnew : w.fs.lookup c = none)
    (hframe : ∀ l, ¬c <:+ l → ¬l <:+ i.root → r.world.fs.lookup l = w.fs.lookup l) :
    MemoryStart place i w path r
  | failed {r : StartResult Path} (hok : r.outcome ≠ .returned .ok)
    (hruntime : r.world.runtime = w.runtime.cleared)
    (hgone : ∀ c, r.made = some c → r.world.fs.lookup c = none)
    (hframe : ∀ l, ¬l <:+ i.root → r.world.fs.lookup l = w.fs.lookup l) :
    MemoryStart place i w path r

/-- What was there does not lie where nothing was. -/
theorem not_suffix_of_lookup_none {c : Location Text} {node : Node Text} (hc : fs.lookup c = none)
    (hl : fs.lookup l = some node) : ¬c <:+ l := by
  intro hs
  cases l with
  | nil =>
    rw [suffix_nil.mp hs] at hc
    cases hc
  | cons name loc =>
    rcases suffix_cons_iff.mp hs with rfl | hs
    · rw [hl] at hc
      cases hc
    · rw [lookup_of_suffix (lookup_parent hl) hs] at hc
      cases hc

theorem lookup_none_of_suffix {c : Location Text} (hc : fs.lookup c = none) (hs : c <:+ l) :
    fs.lookup l = none := by
  cases hl : fs.lookup l with
  | none => rfl
  | some node => exact absurd hs (not_suffix_of_lookup_none hc hl)

/-- The runtime directory of a start for `:memory:` is new. -/
theorem createRuntimeDirectory_memory (hd : i.start.createRuntimeDirectory fs .memory = .ok d) :
    d.made = true ∧ (∃ stamp, d.loc = uniqueRuntimeName stamp :: i.root) ∧
      fs.lookup d.loc = none ∧ fs.Extends d.fs ∧
      ∀ l, l ≠ d.loc → ¬l <:+ i.root → d.fs.lookup l = fs.lookup l := by
  rw [createRuntimeDirectory] at hd
  split at hd
  · next rooted hroot =>
    obtain ⟨-, hext, hframe⟩ := createDirectories_eq_some
      (createDirectories_of_try hroot)
    obtain ⟨⟨k, hname⟩, hmade, hnone, -, hext', hsame⟩ := createCandidateDirectory_eq_ok hd
    refine ⟨hmade, ⟨i.stamp k, hname⟩, ?_, hext.trans hext',
      fun l hl hs => (hsame l hl).trans (hframe l hs)⟩
    rw [← hframe d.loc (by rw [hname]; exact not_cons_suffix_self _ _), hnone]
  · cases hd

theorem createRuntimeDirectory_memory_error {left : Files}
    (h : i.start.createRuntimeDirectory fs .memory = .error left) :
    fs.Extends left ∧ ∀ l, ¬l <:+ i.root → left.lookup l = fs.lookup l := by
  rw [createRuntimeDirectory] at h
  split at h
  · next rooted hroot =>
    obtain ⟨-, hext, hframe⟩ := createDirectories_eq_some
      (createDirectories_of_try hroot)
    rw [createCandidateDirectory_eq_error h]
    exact ⟨hext, hframe⟩
  · next left' hroot =>
    obtain rfl := Except.error.inj h
    have hsame : left' = fs := by
      have hnone : i.start.createRoot = none := rfl
      rw [hnone, FileSystem.tryCreateDirectories] at hroot
      split at hroot
      · cases hroot
      · exact (Prod.mk.inj hroot).2.symm
    rw [hsame]
    exact ⟨FileSystem.Extends.refl fs, fun _ _ => rfl⟩

/-- **A start for `:memory:`** keeps everything that was there, and a failed one leaves no
    directory of its own. -/
theorem startRuntime_memory [DecidableEq Path] (build : Build) (i : OpenInput)
    (w : RuntimeWorld Path) {place : Path → DatabasePath} (hplace : place path = .memory)
    (hidle : w.runtime.refCount = 0) :
    MemoryStart place i w path (startRuntime build i.start place w path) ∧
      w.fs.Extends (startRuntime build i.start place w path).world.fs := by
  have hstart : startRuntime build i.start place w path =
      startLocked build i.start (place path) w path none := by
    rw [startRuntime, if_neg (by omega), hplace]
  rw [hstart]
  cases hd : i.start.createRuntimeDirectory w.fs (place path) with
  | error left =>
    have herror : startLocked build i.start (place path) w path none =
        handleException w none left none := by rw [startLocked, hd]
    rw [hplace] at hd
    obtain ⟨hext, hframe⟩ := createRuntimeDirectory_memory_error hd
    rw [herror]
    refine ⟨.failed (fun hok => ?_) rfl (fun c hc => ?_) hframe, hext⟩
    · cases hok
    · cases hc
  | ok d =>
    have hd' := hd
    rw [hplace] at hd'
    obtain ⟨hmade, ⟨stamp, hname⟩, hnew, hext, hframe⟩ := createRuntimeDirectory_memory hd'
    have hfresh := fresh_of_createRuntimeDirectory hd hmade
    obtain ⟨fs, hsub, hinit⟩ := initialized_startLocked hd hmade fun loc hdurable => by
      rw [hplace] at hdurable
      cases hdurable
    rw [hplace] at hsub
    -- Only the runtime directory and its ancestors are new.
    have hwork : ∀ l, ¬d.loc <:+ l →
        (workIn (layoutAt (place path) d.loc).scratch i.edits fs).lookup l =
          d.fs.lookup l := by
      intro l hl
      have hfree : ¬Territory d.loc .memory l := hl
      rw [hplace, lookup_workIn_layoutAt hfree]
      exact lookup_subdirectories hd' hfresh hsub hl fun loc hdurable => by cases hdurable
    cases hinit with
    | up hok hmade' hcount hup hfs =>
      refine ⟨.up hok hcount hup hmade' hname hnew fun l hl hs => ?_, fun l node hl => ?_⟩
      · rw [hfs, hwork l hl, hframe l (fun heq => hl (heq ▸ suffix_refl _)) hs]
      · rw [hfs, hwork l (not_suffix_of_lookup_none hnew hl)]
        exact hext l node hl
    | failed hok hmade' hruntime hfs =>
      have hgone : ∀ l, d.loc <:+ l →
          (startLocked build i.start (place path) w path none).world.fs.lookup l = none := by
        intro l hl
        rw [hfs, lookup_removeAll_of_suffix hfresh.loc_ne hl]
      have hkept : ∀ l, ¬d.loc <:+ l →
          (startLocked build i.start (place path) w path none).world.fs.lookup l =
            d.fs.lookup l := by
        intro l hl
        rw [hfs, lookup_removeAll hl, hwork l hl]
      refine ⟨.failed (fun hreturned => ?_) hruntime (fun c hc => ?_) (fun l hs => ?_),
        fun l node hl => ?_⟩
      · cases hok.symm.trans hreturned
      · rw [hmade'] at hc
        obtain rfl := Option.some.inj hc
        exact hgone _ (suffix_refl _)
      · by_cases hl : d.loc <:+ l
        · rw [hgone l hl, lookup_none_of_suffix hnew hl]
        · rw [hkept l hl, hframe l (fun heq => hl (heq ▸ suffix_refl _)) hs]
      · rw [hkept l (not_suffix_of_lookup_none hnew hl)]
        exact hext l node hl

end Start

/-! ### One caller of the process -/

section Process

open MyLite.Runtime

/-- `g_runtime` as the callers of the process share it. -/
def RuntimeRecord.state (r : RuntimeRecord Path) : RuntimeState Path (Location Text) where
  refCount := r.refCount
  databasePath := r.databasePath
  arguments := if r.arguments = [] then none else r.databasePath
  cleanupDirectory := r.cleanupDirectory.bind fun _ => r.databasePath
  persistentTmpDirectory := r.persistentTmpDirectory.bind fun _ => r.databasePath
  lockFd := r.lockFd

/-- The directory that is locked. -/
def DatabasePath.directory : DatabasePath → Option (Location Text)
  | .memory => none
  | .durable loc => some loc

variable {build : Build} {i : StartInput} {p : DatabasePath} {fd : Option (Location Text)}

variable {ι : Type} [DecidableEq ι] [DecidableEq Path] {directory : Path → Option (Location Text)}
  {s : Process ι Path (Location Text)} {caller : ι} {path : Path} {w : RuntimeWorld Path}
  {place : Path → DatabasePath} {r : RuntimeRecord Path} {pc : Pc Path (Location Text)}

/-- On its own, a caller leaves the function it is in for `pc`, with `g_runtime` at `r`. -/
def Leaves (directory : Path → Option (Location Text)) (s : Process ι Path (Location Text))
    (caller : ι) (r : RuntimeRecord Path) (pc : Pc Path (Location Text)) : Prop :=
  ∃ moves s', (∀ m ∈ moves, m.caller = caller) ∧
    Run (ofOption (Process.next directory)) s moves s' ∧
    s'.runtime = r.state ∧ s'.mutex = none ∧ s'.pc caller = pc

theorem Leaves.of_leave (hruntime : s.runtime = r.state) :
    Leaves directory (s.leave caller pc) caller r pc :=
  ⟨[], _, nofun, .nil _, hruntime, rfl, Function.update_self ..⟩

theorem Leaves.step {s' : Process ι Path (Location Text)} (path : Path) (ok : Bool)
    (hnext : s.next directory ⟨caller, path, ok⟩ = some s') (h : Leaves directory s' caller r pc) :
    Leaves directory s caller r pc := by
  obtain ⟨moves, t, hmoves, hrun, hend⟩ := h
  exact ⟨_ :: moves, t, forall_mem_cons.mpr ⟨rfl, hmoves⟩, .cons hnext hrun, hend⟩

/-- **Releasing.** Alone in `release_runtime`, a caller leaves what the function leaves. -/
theorem leaves_releaseRuntime (hpc : s.pc caller = .releasing path)
    (hruntime : s.runtime = w.runtime.state) (edits : ServerWork) :
    Leaves directory s caller (releaseRuntime place edits w).runtime .idle := by
  have hcount : s.runtime.refCount = w.runtime.refCount := by rw [hruntime, RuntimeRecord.state]
  refine .step path true (by rw [Process.next, Process.step, hpc]; rfl) ?_
  rw [Process.dropReference, releaseRuntime, hcount]
  split_ifs with hzero hmore
  · exact .of_leave hruntime
  · exact .of_leave (by rw [hruntime]; rfl)
  · -- The server ends, two directories go, and so do the lock and the fields.
    iterate 5
      refine .step path true (by
        simp only [Process.next, Process.step, Process.goto, Function.update_self]
        rfl) ?_
    refine .of_leave ?_
    have hlast : w.runtime.refCount - 1 = 0 := by omega
    simp only [hlast]
    rfl

theorem leaves_startLocked (hruntime : s.runtime = w.runtime.state)
    (hdir : directory path = p.directory) :
    Leaves directory (s.goto caller (.locked path fd)) caller
      (startLocked build i p w path fd).world.runtime
      (if (startLocked build i p w path fd).outcome = .returned .ok then .started path
        else .idle) := by
  split_ifs with hok
  · obtain ⟨loc, hloc⟩ := startLocked_assigns hok
    rw [hloc]
    iterate 3
      refine .step path true (by
        simp only [Process.next, Process.step, Process.createRuntimeLayout,
          Process.mysqlServerInit, Process.goto, Function.update_self, if_true]
        rfl) ?_
    refine .of_leave ?_
    rw [RuntimeState.assign, hdir]
    cases p with
    | memory | durable => rfl
  · rw [(startLocked_restores hok).1]
    iterate 2
      refine .step path false (by
        simp only [Process.next, Process.step, Process.createRuntimeLayout, Process.goto,
          Function.update_self, Bool.false_eq_true, if_false]
        rfl) ?_
    exact .of_leave (by rw [hruntime]; rfl)

/-- **Starting.** Alone in `start_runtime`, a caller leaves what the function leaves, and has got
    through it exactly if the function returns `MYLITE_OK`. -/
theorem leaves_startRuntime (hpc : s.pc caller = .starting path)
    (hruntime : s.runtime = w.runtime.state) :
    Leaves (fun path => (place path).directory) s caller
      (startRuntime build i place w path).world.runtime
      (if (startRuntime build i place w path).outcome = .returned .ok then .started path
        else .idle) := by
  have hnext (ok : Bool) : s.next (fun path => (place path).directory) ⟨caller, path, ok⟩ =
      some (s.enterRuntime (fun path => (place path).directory) caller path ok).2 := by
    rw [Process.next, Process.step, hpc]
    rfl
  unfold Process.enterRuntime at hnext
  rw [hruntime] at hnext
  by_cases hcount : 0 < w.runtime.refCount
  · have hup : 0 < w.runtime.state.refCount := hcount
    refine .step path true (hnext true) ?_
    rw [if_pos hup, startRuntime, if_pos hcount]
    by_cases hpath : w.runtime.databasePath ≠ some path
    · rw [if_pos hpath, if_pos (by exact hpath)]
      exact .of_leave hruntime
    · rw [if_neg hpath, if_neg (by exact hpath)]
      exact .of_leave rfl
  · have hidle : ¬0 < w.runtime.state.refCount := hcount
    simp only [if_neg hidle] at hnext
    cases hplace : place path with
    | memory =>
      have hstart :
          startRuntime build i place w path = startLocked build i .memory w path none := by
        rw [startRuntime, if_neg hcount, hplace]
      rw [hplace] at hnext
      rw [hstart]
      exact .step path true (hnext true) (leaves_startLocked hruntime (by rw [hplace]))
    | durable loc =>
      rw [hplace] at hnext
      rcases acquireDatabaseLock_cases i w loc with
        ⟨code, w', heq, hcode, hsame, -⟩ | ⟨fs, -, -, heq⟩
      · have hstart : startRuntime build i place w path = ⟨.returned code, w', none⟩ := by
          rw [startRuntime, if_neg hcount, hplace]
          simp only [heq]
        rw [hstart, if_neg (fun h => hcode (StartOutcome.returned.inj h))]
        exact .step path false (hnext false) (.of_leave (by rw [hruntime, hsame]))
      · have hstart : startRuntime build i place w path = startLocked build i (.durable loc)
            { w with fs := fs, locks := loc :: w.locks } path (some loc) := by
          rw [startRuntime, if_neg hcount, hplace]
          simp only [heq]
        rw [hstart]
        exact .step path true (hnext true) (leaves_startLocked hruntime (by rw [hplace]))

end Process

end MyLite.Directory
