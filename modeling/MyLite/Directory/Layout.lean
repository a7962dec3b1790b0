import MyLite.Api.Diagnostics
import MyLite.Lib.FileSystem

namespace MyLite.Directory

open MyLite.Api MyLite.Lib MyLite.Lib.FileSystem MyLite.Sql

/-!
# Creating and adopting a database directory

`prepare_database_directory` of `database.cc` and the functions below it, on a file system that
no other process changes and that answers every call, and the policy they follow.

* `prepareDatabaseDirectory`, `validateDatabaseLayout` — the code.
* `Wellformed`, `documentedResult` — the directory contract of the lifecycle policy.
* `validateDatabaseLayout_eq_ok_iff` — validation is well-formedness.
* `initializeDatabaseLayout_of_empty` — an empty directory becomes a well-formed one.
-/

/-- A file system: names and contents are bytes. -/
abbrev Files := FileSystem Text Text

/-! ### Constants -/

/-- `k_meta_filename`. -/
def metaFilename : Text := ascii "mylite.meta"

/-- `k_datadir_name`. -/
def datadirName : Text := ascii "datadir"

/-- `k_tmpdir_name`. -/
def tmpdirName : Text := ascii "tmp"

/-- `k_metadata_format_line`. -/
def metadataFormatLine : Text := ascii "format=1"

/-- `mariadb_base=` and `k_mariadb_base_ref`. -/
def mariadbBaseLine : Text := ascii "mariadb_base=mariadb-11.8.6"

/-- `MYLITE_OPEN_CREATE`. -/
def openCreate : UInt32 := 0x04

/-- `MYLITE_OPEN_EXCLUSIVE`. -/
def openExclusive : UInt32 := 0x08

/-- A flag of `mylite_open` is set. -/
def hasFlag (flags bit : UInt32) : Bool := flags &&& bit != 0

/-- A normalised path: `:memory:` or a place in the file system. -/
inductive DatabasePath
  | memory
  | durable (loc : Location Text)
  deriving DecidableEq, Repr

/-! ### Validation -/

/-- The lines `std::getline` takes from a stream, one after another. -/
def lines : Text → List Text
  | [] => []
  | c :: cs =>
    if c = byteNewline then [] :: lines cs
    else
      match lines cs with
      | [] => [[c]]
      | line :: rest => (c :: line) :: rest

/-- One turn of the loop over the lines, on `has_format` and `has_mariadb_base`. -/
def noteLine (seen : Bool × Bool) (line : Text) : Bool × Bool :=
  if line = metadataFormatLine then (true, seen.2)
  else if line = mariadbBaseLine then (seen.1, true)
  else seen

variable (content : Text)

/-- `validate_database_metadata`, on the content of the file. -/
def validateDatabaseMetadata : Result :=
  let seen := (lines content).foldl noteLine (false, false)
  if seen.1 && seen.2 then .ok else .corrupt

/-- `validate_layout_directory`. -/
def validateLayoutDirectory (fs : Files) (directory : Location Text) : Result :=
  if !fs.existsAt directory then .corrupt
  else if fs.isDirectory directory then .ok
  else .corrupt

/-- `validate_database_layout`; `is_regular_file` reports it as an error if nothing is there. -/
def validateDatabaseLayout (fs : Files) (loc : Location Text) : Result :=
  match fs.lookup (metaFilename :: loc) with
  | none | some .dangling => .ioerr
  | some (.file content) =>
    match validateDatabaseMetadata content with
    | .ok =>
      match validateLayoutDirectory fs (datadirName :: loc) with
      | .ok => validateLayoutDirectory fs (tmpdirName :: loc)
      | code => code
    | code => code
  | _ => .corrupt

/-! ### Creation

A function that may throw `filesystem_error` returns the file system as it is then. -/

/-- `create_layout_directory`. -/
def createLayoutDirectory (fs : Files) (directory : Location Text) : Except Files Files :=
  match fs.createDirectories directory with
  | some fs => .ok fs
  | none => .error fs

/-- What `write_database_metadata` writes. -/
def metadataText : Text :=
  metadataFormatLine ++ [byteNewline] ++ mariadbBaseLine ++ [byteNewline]

/-- `write_database_metadata`. -/
def writeDatabaseMetadata (fs : Files) (metadata : Location Text) : Except Files Files :=
  match fs.writeFile metadataText metadata with
  | some fs => .ok fs
  | none => .error fs

/-- `initialize_database_layout`. -/
def initializeDatabaseLayout (fs : Files) (loc : Location Text) : Except Files Files := do
  let fs ← createLayoutDirectory fs (datadirName :: loc)
  let fs ← createLayoutDirectory fs (tmpdirName :: loc)
  if fs.existsAt (metaFilename :: loc) then
    if fs.isRegularFile (metaFilename :: loc) then pure fs else throw fs
  else writeDatabaseMetadata fs (metaFilename :: loc)

/-- The code of a call that initializes the layout: `open_impl` turns the exception into
    `MYLITE_IOERR`. -/
def caught : Except Files Files → Result × Files
  | .ok fs => (.ok, fs)
  | .error fs => (.ioerr, fs)

/-- `prepare_existing_database_directory`. -/
def prepareExistingDatabaseDirectory (fs : Files) (loc : Location Text) (flags : UInt32) :
    Result × Files :=
  if !fs.existsAt (metaFilename :: loc) then
    if fs.isEmpty loc && hasFlag flags openCreate then caught (initializeDatabaseLayout fs loc)
    else (if fs.isEmpty loc then .notfound else .corrupt, fs)
  else (validateDatabaseLayout fs loc, fs)

/-- `prepare_database_directory`. -/
def prepareDatabaseDirectory (fs : Files) (path : DatabasePath) (flags : UInt32) :
    Result × Files :=
  match path with
  | .memory => (.ok, fs)
  | .durable loc =>
    if hasFlag flags openExclusive && fs.existsAt loc then (.error, fs)
    else if !fs.existsAt loc && !hasFlag flags openCreate then (.notfound, fs)
    else if fs.existsAt loc then
      if fs.isDirectory loc then prepareExistingDatabaseDirectory fs loc flags else (.ioerr, fs)
    else
      match fs.createDirectories loc with
      | some made => caught (initializeDatabaseLayout made loc)
      | none => (.ioerr, fs)

/-! ### The documented policy -/

/-- The metadata has both lines of format 1. -/
def ValidMetadata : Prop :=
  metadataFormatLine ∈ content.splitOn byteNewline ∧ mariadbBaseLine ∈ content.splitOn byteNewline

/-- The durable layout of format 1. -/
structure Wellformed (fs : Files) (loc : Location Text) : Prop where
  metadata : ∃ content, fs.lookup (metaFilename :: loc) = some (.file content) ∧
    ValidMetadata content
  datadir : fs.lookup (datadirName :: loc) = some .directory
  tmp : fs.lookup (tmpdirName :: loc) = some .directory

/-- Nothing but directories is in the way of creating the place. -/
def Creatable (fs : Files) (loc : Location Text) : Prop :=
  ∀ l, l <:+ loc → fs.lookup l = none ∨ fs.lookup l = some .directory

/-- Something is at the place, with links followed. -/
def Occupied (fs : Files) (loc : Location Text) : Prop :=
  ∃ node, fs.lookup loc = some node ∧ node ≠ .dangling

/-- A directory with no entries. -/
def Vacant (fs : Files) (loc : Location Text) : Prop := ∀ name, fs.lookup (name :: loc) = none

open scoped Classical in
/-- The result of the lifecycle policy: missing and empty places are created on request only, an
    exclusive open wants nothing there, and anything else has to be a well-formed directory. -/
noncomputable def documentedResult (fs : Files) (loc : Location Text) (create exclusive : Bool) :
    Result :=
  if ¬Occupied fs loc then
    if create then if Creatable fs loc then .ok else .ioerr
    else .notfound
  else if exclusive then .error
  else if fs.lookup loc ≠ some .directory then .ioerr
  else if Vacant fs loc then if create then .ok else .notfound
  else if Wellformed fs loc then .ok
  else .corrupt

/-! ### Metadata -/

/-- `std::getline` splits at newlines and takes no empty line from the end of the stream. -/
theorem splitOn_eq_lines :
    content.splitOn byteNewline = lines content ∨
      content.splitOn byteNewline = lines content ++ [[]] := by
  induction content with
  | nil => exact .inr rfl
  | cons c cs ih =>
    rw [List.splitOn, List.splitOnP_cons_eq_if_modifyHead, ← List.splitOn, lines]
    by_cases hc : c = byteNewline
    · rw [if_pos (beq_iff_eq.mpr hc), if_pos hc]
      rcases ih with ih | ih
      · exact .inl (congrArg _ ih)
      · exact .inr (congrArg _ ih)
    · rw [if_neg (fun h => hc (beq_iff_eq.mp h)), if_neg hc]
      cases hlines : lines cs with
      | nil =>
        rw [hlines] at ih
        rcases ih with ih | ih
        · exact absurd ih (List.splitOnP_ne_nil _ cs)
        · rw [ih]
          exact .inl rfl
      | cons line rest =>
        rw [hlines] at ih
        rcases ih with ih | ih
        · rw [ih]
          exact .inl rfl
        · rw [ih]
          exact .inr rfl

theorem mem_splitOn_iff {content line : Text} (hne : line ≠ []) :
    line ∈ content.splitOn byteNewline ↔ line ∈ lines content := by
  rcases splitOn_eq_lines content with h | h
  · rw [h]
  · rw [h, List.mem_append, List.mem_singleton, or_iff_left hne]

/-- The loop remembers which of the two lines it has met. -/
theorem foldl_noteLine (ls : List Text) (seen : Bool × Bool) :
    ls.foldl noteLine seen = (seen.1 || decide (metadataFormatLine ∈ ls),
      seen.2 || decide (mariadbBaseLine ∈ ls)) := by
  have hne : mariadbBaseLine ≠ metadataFormatLine := by decide
  induction ls generalizing seen with
  | nil => simp
  | cons line ls ih =>
    rw [List.foldl_cons, ih, noteLine]
    by_cases hformat : line = metadataFormatLine
    · rw [if_pos hformat, hformat]
      simp [hne]
    · rw [if_neg hformat]
      by_cases hbase : line = mariadbBaseLine
      · rw [if_pos hbase, hbase]
        simp [hne.symm]
      · rw [if_neg hbase]
        simp [Ne.symm hformat, Ne.symm hbase]

theorem validateDatabaseMetadata_eq_ok_iff :
    validateDatabaseMetadata content = .ok ↔ ValidMetadata content := by
  rw [validateDatabaseMetadata, foldl_noteLine, ValidMetadata, mem_splitOn_iff (by decide),
    mem_splitOn_iff (by decide)]
  by_cases h : metadataFormatLine ∈ lines content <;>
    by_cases h' : mariadbBaseLine ∈ lines content <;> simp [h, h']

theorem validateDatabaseMetadata_cases :
    validateDatabaseMetadata content = .ok ∨ validateDatabaseMetadata content = .corrupt := by
  rw [validateDatabaseMetadata]
  split
  · exact .inl rfl
  · exact .inr rfl

/-- What is written is read as valid. -/
theorem validMetadata_metadataText : ValidMetadata metadataText := by
  rw [← validateDatabaseMetadata_eq_ok_iff]
  decide

/-! ### Layout -/

theorem validateLayoutDirectory_eq_ok_iff (fs : Files) (directory : Location Text) :
    validateLayoutDirectory fs directory = .ok ↔ fs.lookup directory = some .directory := by
  rw [validateLayoutDirectory]
  constructor
  · intro h
    split_ifs at h with _ hdir
    exact isDirectory_iff.mp hdir
  · intro h
    rw [if_neg (by rw [existsAt_of_lookup h (by decide)]; decide),
      if_pos (isDirectory_iff.mpr h)]

theorem validateLayoutDirectory_cases (fs : Files) (directory : Location Text) :
    validateLayoutDirectory fs directory = .ok ∨
      validateLayoutDirectory fs directory = .corrupt := by
  rw [validateLayoutDirectory]
  split_ifs <;> simp

/-- **Validation is well-formedness.** -/
theorem validateDatabaseLayout_eq_ok_iff (fs : Files) (loc : Location Text) :
    validateDatabaseLayout fs loc = .ok ↔ Wellformed fs loc := by
  constructor
  · intro h
    rw [validateDatabaseLayout] at h
    split at h
    · cases h
    · cases h
    · next content hfile =>
      rcases validateDatabaseMetadata_cases content with hmeta | hmeta
      · rcases validateLayoutDirectory_cases fs (datadirName :: loc) with hdata | hdata
        · rw [hmeta, hdata] at h
          exact ⟨⟨content, hfile, (validateDatabaseMetadata_eq_ok_iff content).mp hmeta⟩,
            (validateLayoutDirectory_eq_ok_iff fs _).mp hdata,
            (validateLayoutDirectory_eq_ok_iff fs _).mp h⟩
        · rw [hmeta, hdata] at h
          cases h
      · rw [hmeta] at h
        cases h
    · cases h
  · rintro ⟨⟨content, hfile, hmeta⟩, hdata, htmp⟩
    rw [validateDatabaseLayout, hfile]
    rw [← validateDatabaseMetadata_eq_ok_iff] at hmeta
    rw [← validateLayoutDirectory_eq_ok_iff] at hdata htmp
    simp only [hmeta, hdata, htmp]

/-- Validation finds a directory with metadata well-formed or corrupt. -/
theorem validateDatabaseLayout_cases {fs : Files} {loc : Location Text} {node : Node Text}
    (hnode : fs.lookup (metaFilename :: loc) = some node) (hlink : node ≠ .dangling) :
    validateDatabaseLayout fs loc = .ok ∨ validateDatabaseLayout fs loc = .corrupt := by
  rw [validateDatabaseLayout, hnode]
  split
  · next h => cases h
  · next h => exact absurd (Option.some.inj h) hlink
  · next content _ =>
    rcases validateDatabaseMetadata_cases content with hmeta | hmeta
    · rcases validateLayoutDirectory_cases fs (datadirName :: loc) with hdata | hdata
      · simp only [hmeta, hdata]
        exact validateLayoutDirectory_cases fs (tmpdirName :: loc)
      · simp [hmeta, hdata]
    · simp [hmeta]
  · exact .inr rfl

/-! ### Initialization -/

variable {fs : Files} {loc : Location Text}

/-- A layout directory is made in its place; nothing else appears beside it. -/
theorem createLayoutDirectory_eq_ok {name : Text} (hloc : fs.lookup loc = some .directory)
    (hnew : fs.lookup (name :: loc) = none) :
    ∃ made, createLayoutDirectory fs (name :: loc) = .ok made ∧
      made.lookup (name :: loc) = some .directory ∧ fs.Extends made ∧
      ∀ other, other ≠ name → made.lookup (other :: loc) = fs.lookup (other :: loc) := by
  have hsome : (fs.createDirectories (name :: loc)).isSome := by
    rw [createDirectories_isSome_iff]
    intro l hl
    rcases List.suffix_cons_iff.mp hl with rfl | hl
    · exact .inl hnew
    · exact .inr (lookup_of_suffix hloc hl)
  obtain ⟨made, hmade⟩ := Option.isSome_iff_exists.mp hsome
  obtain ⟨hdir, hext, hframe⟩ := createDirectories_eq_some hmade
  refine ⟨made, by rw [createLayoutDirectory, hmade], hdir, hext, fun other hne => hframe _ ?_⟩
  intro hs
  have heq := hs.eq_of_length rfl
  exact hne (List.cons.inj heq).1

/-- **An empty directory is initialized.** It becomes well-formed and nothing that was there
    changes. -/
theorem initializeDatabaseLayout_of_empty (hloc : fs.lookup loc = some .directory)
    (hempty : Vacant fs loc) :
    ∃ made, initializeDatabaseLayout fs loc = .ok made ∧ fs.Extends made ∧
      Wellformed made loc := by
  obtain ⟨fs₁, h₁, hdata₁, hext₁, hframe₁⟩ :=
    createLayoutDirectory_eq_ok hloc (hempty datadirName)
  have htmp₁ : fs₁.lookup (tmpdirName :: loc) = none := by
    rw [hframe₁ _ (by decide), hempty]
  have hloc₁ := hext₁ loc _ hloc
  obtain ⟨fs₂, h₂, htmp₂, hext₂, hframe₂⟩ := createLayoutDirectory_eq_ok hloc₁ htmp₁
  have hmeta₂ : fs₂.lookup (metaFilename :: loc) = none := by
    rw [hframe₂ _ (by decide), hframe₁ _ (by decide), hempty]
  obtain ⟨fs₃, h₃⟩ : ∃ fs₃, fs₂.writeFile metadataText (metaFilename :: loc) = some fs₃ :=
    writeFile_isSome (hext₂ loc _ hloc₁) (.inr hmeta₂)
  obtain ⟨hmeta₃, hsame₃⟩ := writeFile_eq_some h₃
  have hext₃ := hsame₃.extends hmeta₂
  have hexists : fs₂.existsAt (metaFilename :: loc) = false := by
    rw [FileSystem.existsAt, hmeta₂]
  refine ⟨fs₃, ?_, (hext₁.trans hext₂).trans hext₃, ⟨metadataText, hmeta₃,
    validMetadata_metadataText⟩, hext₃ _ _ (hext₂ _ _ hdata₁), hext₃ _ _ htmp₂⟩
  rw [initializeDatabaseLayout, h₁]
  show (do
    let fs ← createLayoutDirectory fs₁ (tmpdirName :: loc)
    if fs.existsAt (metaFilename :: loc) then
      if fs.isRegularFile (metaFilename :: loc) then pure fs else throw fs
    else writeDatabaseMetadata fs (metaFilename :: loc)) = Except.ok fs₃
  rw [h₂]
  show (if fs₂.existsAt (metaFilename :: loc) then
      if fs₂.isRegularFile (metaFilename :: loc) then pure fs₂ else throw fs₂
    else writeDatabaseMetadata fs₂ (metaFilename :: loc)) = Except.ok fs₃
  rw [hexists, if_neg Bool.false_ne_true, writeDatabaseMetadata, h₃]

/-! ### The code follows the policy -/

/-- What a call answers and leaves behind. -/
structure Follows (fs : Files) (loc : Location Text) (expected : Result)
    (answer : Result × Files) : Prop where
  code : answer.1 = expected
  unchanged : answer.1 ≠ .ok → answer.2 = fs
  validates : answer.1 = .ok → validateDatabaseLayout answer.2 loc = .ok
  kept : fs.Extends answer.2

/-- A call that changes nothing and does not succeed. -/
theorem follows_of_ne_ok {code : Result} (h : code ≠ .ok) : Follows fs loc code (code, fs) :=
  ⟨rfl, fun _ => rfl, fun heq => absurd heq h, FileSystem.Extends.refl fs⟩

/-- A call that initializes an empty directory, possibly a new one. -/
theorem follows_of_initialize {made : Files} (hext : fs.Extends made)
    (hloc : made.lookup loc = some .directory) (hempty : Vacant made loc) :
    Follows fs loc .ok (caught (initializeDatabaseLayout made loc)) := by
  obtain ⟨fs', hinit, hext', hwell⟩ := initializeDatabaseLayout_of_empty hloc hempty
  rw [hinit, caught]
  exact ⟨rfl, fun h => absurd rfl h, fun _ => (validateDatabaseLayout_eq_ok_iff fs' loc).mpr hwell,
    hext.trans hext'⟩

theorem existsAt_iff_occupied :
    fs.existsAt loc = true ↔ Occupied fs loc := existsAt_iff

/-- A directory that is made where nothing was has nothing beneath it. -/
theorem vacant_of_createDirectories {made : Files} (hmissing : ¬Occupied fs loc)
    (hmade : fs.createDirectories loc = some made) : Vacant made loc := by
  intro name
  rw [(createDirectories_eq_some hmade).2.2 _ fun hs => absurd hs.length_le (by simp)]
  by_contra hne
  obtain ⟨node, hnode⟩ := Option.ne_none_iff_exists'.mp hne
  exact hmissing ⟨.directory, lookup_parent hnode, by decide⟩

/-- A missing place is created down to its parent directories and then initialized. -/
theorem follows_of_missing {flags : UInt32} (hmissing : ¬Occupied fs loc) :
    Follows fs loc (documentedResult fs loc (hasFlag flags openCreate)
      (hasFlag flags openExclusive))
      (prepareDatabaseDirectory fs (.durable loc) flags) := by
  have hexists : fs.existsAt loc = false := by
    rw [Bool.eq_false_iff, Ne, existsAt_iff_occupied]
    exact hmissing
  rw [documentedResult, if_pos hmissing, prepareDatabaseDirectory, hexists]
  simp only [Bool.and_false, Bool.false_eq_true, if_false, Bool.not_false, Bool.true_and]
  cases hcreate : hasFlag flags openCreate with
  | false =>
    show Follows fs loc .notfound (.notfound, fs)
    exact follows_of_ne_ok (by decide)
  | true =>
    simp only [Bool.not_true, Bool.false_eq_true, if_false, if_true]
    by_cases hcreatable : Creatable fs loc
    · rw [if_pos hcreatable]
      obtain ⟨made, hmade⟩ := Option.isSome_iff_exists.mp
        (createDirectories_isSome_iff.mpr hcreatable)
      obtain ⟨hdir, hext, -⟩ := createDirectories_eq_some hmade
      rw [hmade]
      exact follows_of_initialize hext hdir (vacant_of_createDirectories hmissing hmade)
    · rw [if_neg hcreatable]
      have hnone : fs.createDirectories loc = none := by
        rw [← Option.not_isSome_iff_eq_none, createDirectories_isSome_iff]
        exact hcreatable
      rw [hnone]
      exact follows_of_ne_ok (by decide)

/-- An existing directory is initialized if it is empty, and validated otherwise. -/
theorem follows_of_directory {flags : UInt32} (hloc : fs.lookup loc = some .directory)
    (hexclusive : hasFlag flags openExclusive = false) :
    Follows fs loc (documentedResult fs loc (hasFlag flags openCreate)
      (hasFlag flags openExclusive))
      (prepareDatabaseDirectory fs (.durable loc) flags) := by
  have hoccupied : Occupied fs loc := ⟨.directory, hloc, by decide⟩
  rw [documentedResult, if_neg (not_not.mpr hoccupied), prepareDatabaseDirectory,
    existsAt_iff_occupied.mpr hoccupied, isDirectory_iff.mpr hloc, hexclusive]
  simp only [Bool.false_and, Bool.false_eq_true, if_false, Bool.not_true, if_true,
    prepareExistingDatabaseDirectory, hloc, ne_eq, not_true_eq_false]
  by_cases hmeta : fs.existsAt (metaFilename :: loc) = true
  · obtain ⟨node, hnode, hlink⟩ := existsAt_iff.mp hmeta
    have hvacant : ¬Vacant fs loc := by
      intro h
      rw [h metaFilename] at hnode
      cases hnode
    rw [hmeta, if_neg hvacant]
    simp only [Bool.not_true, Bool.false_eq_true, if_false]
    by_cases hwell : Wellformed fs loc
    · rw [if_pos hwell, (validateDatabaseLayout_eq_ok_iff fs loc).mpr hwell]
      exact ⟨rfl, fun h => absurd rfl h,
        fun _ => (validateDatabaseLayout_eq_ok_iff fs loc).mpr hwell, FileSystem.Extends.refl fs⟩
    · have hcorrupt := (validateDatabaseLayout_cases hnode hlink).resolve_left
        fun h => hwell ((validateDatabaseLayout_eq_ok_iff fs loc).mp h)
      rw [if_neg hwell, hcorrupt]
      exact follows_of_ne_ok (by decide)
  · rw [Bool.not_eq_true] at hmeta
    rw [hmeta]
    simp only [Bool.not_false, if_true]
    by_cases hvacant : Vacant fs loc
    · rw [if_pos hvacant, FileSystem.isEmpty_iff.mpr hvacant]
      cases hcreate : hasFlag flags openCreate with
      | false => exact follows_of_ne_ok (by decide)
      | true => exact follows_of_initialize (FileSystem.Extends.refl fs) hloc hvacant
    · have hwell : ¬Wellformed fs loc := by
        rintro ⟨⟨content, hfile, -⟩, -, -⟩
        rw [existsAt_of_lookup hfile nofun] at hmeta
        cases hmeta
      have hnonempty : fs.isEmpty loc = false := by
        rw [Bool.eq_false_iff, Ne, FileSystem.isEmpty_iff]
        exact hvacant
      rw [if_neg hvacant, if_neg hwell, hnonempty]
      exact follows_of_ne_ok (by decide)

/-- **Directory adoption.** The code answers what the policy says; a refused open leaves the file
    system as it was, an accepted one leaves a directory that validates, and no existing entry
    changes. -/
theorem prepareDatabaseDirectory_follows (fs : Files) (loc : Location Text) (flags : UInt32) :
    Follows fs loc (documentedResult fs loc (hasFlag flags openCreate)
      (hasFlag flags openExclusive))
      (prepareDatabaseDirectory fs (.durable loc) flags) := by
  by_cases hoccupied : Occupied fs loc
  · cases hexclusive : hasFlag flags openExclusive with
    | true =>
      rw [documentedResult, if_neg (not_not.mpr hoccupied), prepareDatabaseDirectory,
        existsAt_iff_occupied.mpr hoccupied, hexclusive]
      show Follows fs loc .error (.error, fs)
      exact follows_of_ne_ok (by decide)
    | false =>
      by_cases hloc : fs.lookup loc = some .directory
      · rw [← hexclusive]
        exact follows_of_directory hloc hexclusive
      · have hdir : fs.isDirectory loc = false := by
          rw [Bool.eq_false_iff, Ne, isDirectory_iff]
          exact hloc
        rw [documentedResult, if_neg (not_not.mpr hoccupied), prepareDatabaseDirectory,
          existsAt_iff_occupied.mpr hoccupied, hexclusive, hdir]
        simp only [Bool.false_eq_true, if_false, Bool.false_and, Bool.not_true, if_true, ne_eq,
          hloc, not_false_eq_true]
        exact follows_of_ne_ok (by decide)
  · exact follows_of_missing hoccupied

end MyLite.Directory
