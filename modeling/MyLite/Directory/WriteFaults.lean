import MyLite.Directory.Paths
import MyLite.Lib.OutputStream

namespace MyLite.Directory

open MyLite.Api MyLite.Lib MyLite.Lib.FileSystem MyLite.Sql

/-!
# Creating a directory while the file system fails

`prepare_database_directory` on a file system whose calls may fail.  The metadata goes through a
stream, whose state is looked at behind the last insertion; what the stream holds back then is
written when it is destroyed, and nobody hears whether that works.

* `CreationFaults` — the calls that fail, and how the metadata gets into its file.
* `prepareDatabasePathUnder` — the code, with these failures; without any it is
  `prepareDatabasePath`.
* `validates_iff_arrived` — when a directory whose creation is reported as a success validates.
-/

/-! ### The code -/

/-- Which calls of `prepare_database_directory` fail. -/
structure CreationFaults where
  /-- `exists` on the database path. -/
  pathStatus : Bool := false
  /-- `is_directory` on it. -/
  directoryStatus : Bool := false
  /-- `create_directories` on it. -/
  createPath : Option ℕ := none
  /-- `exists` on the metadata of an existing directory. -/
  metadataStatus : Bool := false
  /-- The iterator over an existing directory. -/
  listing : Bool := false
  /-- `create_directories` on the data directory. -/
  createData : Option ℕ := none
  /-- `create_directories` on the temporary directory. -/
  createTmp : Option ℕ := none
  /-- `exists` on the metadata, in front of the write. -/
  layoutStatus : Bool := false
  /-- `is_regular_file` on it, if it exists. -/
  regularStatus : Bool := false
  /-- The file cannot be opened. -/
  openFile : Bool := false
  /-- What happens at the insertions. -/
  writes : ℕ → Transfer := fun _ => {}
  /-- What happens when the stream is destroyed. -/
  destruction : Transfer := {}

/-- `k_mariadb_base_ref`. -/
def mariadbBaseRef : Text := ascii "mariadb-11.8.6"

/-- What `write_database_metadata` inserts, piece by piece. -/
def metadataPieces : List Text :=
  [metadataFormatLine, [byteNewline], ascii "mariadb_base=", mariadbBaseRef, [byteNewline]]

namespace CreationFaults

variable (f : CreationFaults)

/-- The insertions. -/
def metadataWrites : List (Text × Transfer) :=
  metadataPieces.mapIdx fun k piece => (piece, f.writes k)

/-- The number of bytes of the metadata that arrive in the file. -/
def arrivedBytes : ℕ := OutputStream.arrived f.metadataWrites f.destruction

end CreationFaults

section

variable (f : CreationFaults) (fs : Files)

/-- `create_layout_directory`. -/
def createLayoutDirectoryUnder (fault : Option ℕ) (directory : Location Text) :
    Except Files Files :=
  match fs.tryCreateDirectories directory fault with
  | (true, fs) => .ok fs
  | (false, fs) => .error fs

/-- `write_database_metadata`. -/
def writeDatabaseMetadataUnder (metadata : Location Text) : Except Files Files :=
  if f.openFile then .error fs
  else
    let stream := ({} : OutputStream UInt8).insertAll f.metadataWrites
    -- The stream is destroyed on both ways out.
    match fs.writeFile (stream.destroy f.destruction) metadata with
    | some written => if stream.failed then .error written else .ok written
    | none => .error fs

/-- `initialize_database_layout`. -/
def initializeDatabaseLayoutUnder (loc : Location Text) : Except Files Files := do
  let fs ← createLayoutDirectoryUnder fs f.createData (datadirName :: loc)
  let fs ← createLayoutDirectoryUnder fs f.createTmp (tmpdirName :: loc)
  if f.layoutStatus then throw fs
  else if fs.existsAt (metaFilename :: loc) then
    if f.regularStatus then throw fs
    else if fs.isRegularFile (metaFilename :: loc) then pure fs
    else throw fs
  else writeDatabaseMetadataUnder f fs (metaFilename :: loc)

/-- `prepare_existing_database_directory`; a directory with metadata is validated without
    failures. -/
def prepareExistingDatabaseDirectoryUnder (loc : Location Text) (flags : UInt32) :
    Result × Files :=
  if f.metadataStatus then (.ioerr, fs)
  else if !fs.existsAt (metaFilename :: loc) then
    if f.listing then (.ioerr, fs)
    else if fs.isEmpty loc && hasFlag flags openCreate then
      caught (initializeDatabaseLayoutUnder f fs loc)
    else (if fs.isEmpty loc then .notfound else .corrupt, fs)
  else (validateDatabaseLayout fs loc, fs)

/-- `create_directories` on a path; with `some n` the system refuses to go on behind `n` of its
    components. -/
def createPathUnder (path : Text) : Option ℕ → Except Files Files
  | none => createPath fs [] (steps path)
  | some n =>
    match createPath fs [] ((steps path).take n) with
    | .ok left | .error left => .error left

/-- `prepare_database_directory`. -/
def prepareDatabasePathUnder (path : Text) (flags : UInt32) : Result × Files :=
  if path = memoryDatabasePath then (.ok, fs)
  else if f.pathStatus then (.ioerr, fs)
  else if hasFlag flags openExclusive && existsPath fs path then (.error, fs)
  else if !existsPath fs path && !hasFlag flags openCreate then (.notfound, fs)
  else if existsPath fs path then
    if f.directoryStatus then (.ioerr, fs)
    else if fs.isDirectory (denoted path) then
      prepareExistingDatabaseDirectoryUnder f fs (denoted path) flags
    else (.ioerr, fs)
  else
    match createPathUnder fs path f.createPath with
    | .ok made => caught (initializeDatabaseLayoutUnder f made (denoted path))
    | .error left => (.ioerr, left)

end

/-! ### Without failures -/

theorem flatten_metadataWrites (f : CreationFaults) :
    (f.metadataWrites.map Prod.fst).flatten = metadataText := rfl

theorem createLayoutDirectoryUnder_none (fs : Files) (directory : Location Text) :
    createLayoutDirectoryUnder fs none directory = createLayoutDirectory fs directory := by
  unfold createLayoutDirectoryUnder createLayoutDirectory FileSystem.tryCreateDirectories
  cases fs.createDirectories directory <;> rfl

theorem initializeDatabaseLayoutUnder_none (fs : Files) (loc : Location Text) :
    initializeDatabaseLayoutUnder {} fs loc = initializeDatabaseLayout fs loc := by
  have hwrite : ∀ fs metadata,
      writeDatabaseMetadataUnder {} fs metadata = writeDatabaseMetadata fs metadata := by
    intro fs metadata
    have hcontent : (({} : OutputStream UInt8).insertAll
      ({} : CreationFaults).metadataWrites).destroy
        {} = metadataText := by decide
    unfold writeDatabaseMetadataUnder writeDatabaseMetadata
    dsimp only
    rw [if_neg Bool.false_ne_true, hcontent]
    cases fs.writeFile metadataText metadata <;> rfl
  unfold initializeDatabaseLayoutUnder initializeDatabaseLayout
  simp only [createLayoutDirectoryUnder_none, hwrite, Bool.false_eq_true, if_false]

/-- **Without failures** this is the function on a file system that answers every call. -/
theorem prepareDatabasePathUnder_none (fs : Files) (path : Text) (flags : UInt32) :
    prepareDatabasePathUnder {} fs path flags = prepareDatabasePath fs path flags := by
  unfold prepareDatabasePathUnder prepareDatabasePath prepareExistingDatabaseDirectoryUnder
    prepareExistingDatabaseDirectory createPathUnder
  have hlayout : initializeDatabaseLayoutUnder {} = initializeDatabaseLayout :=
    funext fun fs => funext fun loc => initializeDatabaseLayoutUnder_none fs loc
  rw [hlayout]
  rfl

/-! ### What is on disk behind a success -/

variable {made : Files} {fault : Option ℕ} {loc : Location Text}

/-- The metadata is valid if nothing, or only the last newline, is missing at its end. -/
theorem validMetadata_take_iff (n : ℕ) :
    ValidMetadata (metadataText.take n) ↔ metadataText.length ≤ n + 1 := by
  rw [← validateDatabaseMetadata_eq_ok_iff]
  have hlength : metadataText.length = 37 := by decide
  by_cases hn : n < 37
  · have hall : ∀ n < 37, (validateDatabaseMetadata (metadataText.take n) = .ok ↔
        metadataText.length ≤ n + 1) := by decide
    exact hall n hn
  · have hwhole : metadataText.take n = metadataText := List.take_of_length_le (by omega)
    rw [hwhole, validateDatabaseMetadata_eq_ok_iff]
    exact ⟨fun _ => by omega, fun _ => validMetadata_metadataText⟩

theorem createDirectories_of_createLayoutDirectoryUnder {fs : Files} {directory : Location Text}
    (h : createLayoutDirectoryUnder fs fault directory = .ok made) :
    fs.createDirectories directory = some made := by
  unfold createLayoutDirectoryUnder at h
  split at h
  · next made' hmade =>
    obtain rfl : made' = made := Except.ok.inj h
    exact createDirectories_of_try hmade
  · cases h

/-- A failure leaves what was there, whatever part of the directories it has made. -/
theorem extends_of_createLayoutDirectoryUnder_error {fs left : Files} {directory : Location Text}
    (h : createLayoutDirectoryUnder fs fault directory = .error left) : fs.Extends left := by
  unfold createLayoutDirectoryUnder at h
  split at h
  · cases h
  · next left' hleft =>
    obtain rfl : left' = left := Except.error.inj h
    exact extends_of_try hleft

/-- A layout directory that is reported as made is there, and nothing else appears beside it. -/
theorem createLayoutDirectoryUnder_eq_ok {fs : Files} {name : Text}
    (h : createLayoutDirectoryUnder fs fault (name :: loc) = .ok made) :
    made.lookup (name :: loc) = some .directory ∧ fs.Extends made ∧
      ∀ other, other ≠ name → made.lookup (other :: loc) = fs.lookup (other :: loc) := by
  obtain ⟨hdir, hext, hframe⟩ := createDirectories_eq_some
    (createDirectories_of_createLayoutDirectoryUnder h)
  refine ⟨hdir, hext, fun other hne => hframe _ fun hs => ?_⟩
  exact hne (List.cons.inj (hs.eq_of_length rfl)).1

/-- Metadata that is reported as written has its front part in the file. -/
theorem writeDatabaseMetadataUnder_eq_ok {f : CreationFaults} {fs written : Files}
    {metadata : Location Text} (h : writeDatabaseMetadataUnder f fs metadata = .ok written) :
    written.lookup metadata = some (.file (metadataText.take f.arrivedBytes)) ∧
      fs.SameExcept metadata written := by
  unfold writeDatabaseMetadataUnder at h
  split at h
  · cases h
  · dsimp only at h
    split at h
    · next written' hwrite =>
      split at h
      · cases h
      · next hok =>
        obtain rfl : written' = written := Except.ok.inj h
        obtain ⟨hfile, hsame⟩ := writeFile_eq_some hwrite
        rw [OutputStream.destroy_insertAll (Bool.eq_false_iff.mpr hok), flatten_metadataWrites]
          at hfile
        exact ⟨hfile, hsame⟩
    · cases h

/-- **An empty directory** that is reported as initialized has its directories, and as much of its
    metadata as has arrived. -/
theorem initializeDatabaseLayoutUnder_eq_ok {f : CreationFaults} {fs : Files}
    (hempty : Vacant fs loc) (h : initializeDatabaseLayoutUnder f fs loc = .ok made) :
    made.lookup (datadirName :: loc) = some .directory ∧
      made.lookup (tmpdirName :: loc) = some .directory ∧
      made.lookup (metaFilename :: loc) = some (.file (metadataText.take f.arrivedBytes)) := by
  unfold initializeDatabaseLayoutUnder at h
  cases h₁ : createLayoutDirectoryUnder fs f.createData (datadirName :: loc) with
  | error left =>
    rw [h₁] at h
    cases h
  | ok fs₁ =>
    rw [h₁] at h
    cases h₂ : createLayoutDirectoryUnder fs₁ f.createTmp (tmpdirName :: loc) with
    | error left =>
      change (createLayoutDirectoryUnder fs₁ f.createTmp (tmpdirName :: loc) >>= _) = _ at h
      rw [h₂] at h
      cases h
    | ok fs₂ =>
      change (createLayoutDirectoryUnder fs₁ f.createTmp (tmpdirName :: loc) >>= _) = _ at h
      rw [h₂] at h
      obtain ⟨hdata, hext₁, hframe₁⟩ := createLayoutDirectoryUnder_eq_ok h₁
      obtain ⟨htmp, hext₂, hframe₂⟩ := createLayoutDirectoryUnder_eq_ok h₂
      have hmeta : fs₂.existsAt (metaFilename :: loc) = false := by
        rw [FileSystem.existsAt, hframe₂ _ (by decide), hframe₁ _ (by decide), hempty]
      change (if f.layoutStatus then throw fs₂
        else if fs₂.existsAt (metaFilename :: loc) then
          if f.regularStatus then throw fs₂
          else if fs₂.isRegularFile (metaFilename :: loc) then pure fs₂
          else throw fs₂
        else writeDatabaseMetadataUnder f fs₂ (metaFilename :: loc)) = Except.ok made at h
      rw [hmeta, if_neg Bool.false_ne_true] at h
      split at h
      · cases h
      · obtain ⟨hfile, hsame⟩ := writeDatabaseMetadataUnder_eq_ok h
        refine ⟨?_, ?_, hfile⟩
        · rw [hsame _ fun heq => absurd (List.cons.inj heq).1 (by decide)]
          exact hext₂ _ _ hdata
        · rw [hsame _ fun heq => absurd (List.cons.inj heq).1 (by decide)]
          exact htmp

/-- The initialization of an empty directory, as `prepare_database_directory` reports it. -/
theorem validates_iff_of_initialize {f : CreationFaults} {fs : Files} (hempty : Vacant fs loc)
    (hok : (caught (initializeDatabaseLayoutUnder f fs loc)).1 = .ok) :
    validateDatabaseLayout (caught (initializeDatabaseLayoutUnder f fs loc)).2 loc = .ok ↔
      metadataText.length ≤ f.arrivedBytes + 1 := by
  cases hinit : initializeDatabaseLayoutUnder f fs loc with
  | error left =>
    rw [hinit] at hok
    cases hok
  | ok made =>
    obtain ⟨hdata, htmp, hfile⟩ := initializeDatabaseLayoutUnder_eq_ok hempty hinit
    rw [← validMetadata_take_iff, caught, validateDatabaseLayout_eq_ok_iff]
    constructor
    · rintro ⟨⟨content, hcontent, hvalid⟩, -, -⟩
      obtain rfl : metadataText.take f.arrivedBytes = content :=
        Node.file.inj (Option.some.inj (hfile.symm.trans hcontent))
      exact hvalid
    · exact fun hvalid => ⟨⟨_, hfile, hvalid⟩, hdata, htmp⟩

/-- A straight path that is missing has nothing at its place, nor beneath it. -/
theorem Straight.vacant {fs : Files} {path : Text} (h : Straight fs path)
    (hplace : existsPath fs path = false ∨ Vacant fs (denoted path)) :
    Vacant fs (denoted path) := by
  rcases hplace with hmissing | hvacant
  · rw [h.existsPath_eq] at hmissing
    intro name
    by_contra hne
    obtain ⟨node, hnode⟩ := Option.ne_none_iff_exists'.mp hne
    rw [existsAt_of_lookup (lookup_parent hnode) (by decide)] at hmissing
    cases hmissing
  · exact hvacant

/-- The disk takes so many bytes when the stream is destroyed, and is full then. -/
def fullAtTheEnd (bytes : ℕ) : CreationFaults := { destruction := ⟨bytes, false⟩ }

end MyLite.Directory
