import MyLite.Directory.Layout
import MyLite.Runtime.References

namespace MyLite.Directory

open MyLite.Api MyLite.Lib MyLite.Runtime MyLite.Sql List

/-!
# Spellings of a database path

`mylite_open` makes the path absolute and compares it, byte for byte, with the path the runtime
was started with.  The file system reads a path component by component, so one directory has many
spellings.

* `walk`, `denotedDirectory` — what a path denotes.
* `normalizeDatabasePath` — what `mylite_open` makes of it.
* `normalizeDatabasePath_eq_iff` — which paths are made equal.
* `prepareDatabasePath` — `prepare_database_directory` on the text of a path, whose components may
  lead through directories that are made on the way.
* `prepareDatabasePath_follows` — a path that is `Straight` is prepared as the policy says.
* `joins_iff` — which spellings of a live database share its runtime.
-/

/-! ### Reading a path -/

/-- A path that starts at the root. -/
def isAbsolute (path : Text) : Bool := path.head? == some byteSlash

/-- The components of a path; repeated and trailing slashes make no difference. -/
def components (path : Text) : List Text :=
  (path.splitOn byteSlash).filter fun component => !component.isEmpty

/-- The place a component leads to. -/
def enter (loc : Location Text) (component : Text) : Location Text :=
  if component = ascii "." then loc
  else if component = ascii ".." then loc.tail
  else component :: loc

/-- The directory the components lead to; every place on the way has to be a directory. -/
def walk (fs : Files) : Location Text → List Text → Option (Location Text)
  | loc, [] => if fs.isDirectory loc then some loc else none
  | loc, component :: rest =>
    if fs.isDirectory loc then walk fs (enter loc component) rest else none

/-- A name that an entry of a directory can have. -/
structure ProperName (name : Text) : Prop where
  nonempty : name ≠ []
  noSlash : byteSlash ∉ name
  notDot : name ≠ ascii "."
  notDotDot : name ≠ ascii ".."

/-- The working directory of a process. -/
structure WorkingDirectory (fs : Files) where
  loc : Location Text
  isDirectory : fs.lookup loc = some .directory
  proper : ∀ name ∈ loc, ProperName name

/-- The names down to a location, each behind a slash. -/
def pathText : Location Text → Text
  | [] => []
  | name :: loc => pathText loc ++ byteSlash :: name

variable {fs : Files}

/-- `std::filesystem::current_path`. -/
def WorkingDirectory.currentPath (wd : WorkingDirectory fs) : Text :=
  if wd.loc = [] then [byteSlash] else pathText wd.loc

/-! ### What `mylite_open` does with a path -/

/-- `k_memory_database_path`. -/
def memoryDatabasePath : Text := ascii ":memory:"

/-- `path::operator/=` with a relative path. -/
def appendPath (base path : Text) : Text :=
  if base.getLast? = some byteSlash then base ++ path else base ++ byteSlash :: path

/-- `std::filesystem::absolute`. -/
def WorkingDirectory.absolute (wd : WorkingDirectory fs) (path : Text) : Text :=
  if isAbsolute path then path else appendPath wd.currentPath path

/-- `normalize_database_path`. -/
def normalizeDatabasePath (wd : WorkingDirectory fs) (path : Text) : Text :=
  if path = memoryDatabasePath then memoryDatabasePath else wd.absolute path

/-- The directory a path given to `mylite_open` denotes. -/
def denotedDirectory (wd : WorkingDirectory fs) (path : Text) : Option (Location Text) :=
  if path = [] ∨ path = memoryDatabasePath then none
  else walk fs (if isAbsolute path then [] else wd.loc) (components path)

/-- The directory of a normalised path. -/
def databaseDirectory (fs : Files) (path : Text) : Option (Location Text) :=
  if path = memoryDatabasePath then none else walk fs [] (components path)

/-! ### Walks -/

variable {loc : Location Text}

/-- A walk ends in a directory. -/
theorem lookup_of_walk {start : Location Text} {rest : List Text}
    (h : walk fs start rest = some loc) : fs.lookup loc = some .directory := by
  induction rest generalizing start with
  | nil =>
    rw [walk] at h
    split at h
    · next hdir =>
      cases h
      exact FileSystem.isDirectory_iff.mp hdir
    · cases h
  | cons component rest ih =>
    rw [walk] at h
    split at h
    · exact ih h
    · cases h

/-! ### Normal forms -/

variable (wd : WorkingDirectory fs)

variable {path : Text}

theorem getLast?_pathText_ne (h : ∀ name ∈ loc, ProperName name) :
    (pathText loc).getLast? ≠ some byteSlash := by
  cases loc with
  | nil => exact nofun
  | cons name loc =>
    have hname := h name mem_cons_self
    obtain ⟨b, bs, rfl⟩ := exists_cons_of_ne_nil hname.nonempty
    rw [pathText, List.getLast?_append_cons, List.getLast?_cons_cons]
    exact fun heq => hname.noSlash (mem_of_getLast? heq)

/-- A relative path is written behind the working directory and a slash. -/
theorem appendPath_currentPath (path : Text) :
    appendPath wd.currentPath path = pathText wd.loc ++ byteSlash :: path := by
  rw [WorkingDirectory.currentPath, appendPath]
  by_cases hloc : wd.loc = []
  · rw [if_pos hloc, hloc]
    rfl
  · rw [if_neg hloc, if_neg (getLast?_pathText_ne wd.proper)]

theorem isAbsolute_pathText_append (loc : Location Text) (path : Text) :
    isAbsolute (pathText loc ++ byteSlash :: path) = true := by
  induction loc generalizing path with
  | nil => rfl
  | cons name loc ih =>
    rw [pathText, append_assoc, cons_append]
    exact ih (name ++ byteSlash :: path)

theorem lookup_of_denotedDirectory (h : denotedDirectory wd path = some loc) :
    fs.lookup loc = some .directory := by
  rw [denotedDirectory] at h
  split at h
  · cases h
  · exact lookup_of_walk h

/-- The same text, or the relative and the absolute form of one text. -/
def SameSpelling (p q : Text) : Prop :=
  p = q ∨ isAbsolute p = false ∧ q = appendPath wd.currentPath p ∨
    isAbsolute q = false ∧ p = appendPath wd.currentPath q

/-- **Which paths are made equal.** -/
theorem normalizeDatabasePath_eq_iff {p q : Text} (hp : p ≠ memoryDatabasePath)
    (hq : q ≠ memoryDatabasePath) :
    normalizeDatabasePath wd p = normalizeDatabasePath wd q ↔ SameSpelling wd p q := by
  have happend : ∀ path, isAbsolute (appendPath wd.currentPath path) = true := by
    intro path
    rw [appendPath_currentPath]
    exact isAbsolute_pathText_append wd.loc path
  rw [normalizeDatabasePath, normalizeDatabasePath, if_neg hp, if_neg hq,
    WorkingDirectory.absolute, WorkingDirectory.absolute, SameSpelling]
  cases habsp : isAbsolute p <;> cases habsq : isAbsolute q
  · -- both are relative: the working directory cancels
    rw [if_neg Bool.false_ne_true, if_neg Bool.false_ne_true]
    constructor
    · intro h
      rw [appendPath_currentPath, appendPath_currentPath] at h
      exact .inl (List.cons.inj (append_cancel_left h)).2
    · rintro (rfl | ⟨-, rfl⟩ | ⟨-, rfl⟩)
      · rfl
      · rw [happend] at habsq
        cases habsq
      · rw [happend] at habsp
        cases habsp
  · rw [if_neg Bool.false_ne_true, if_pos rfl]
    constructor
    · exact fun h => .inr (.inl ⟨rfl, h.symm⟩)
    · rintro (rfl | ⟨-, rfl⟩ | ⟨h, -⟩)
      · rw [habsp] at habsq
        cases habsq
      · rfl
      · cases h
  · rw [if_pos rfl, if_neg Bool.false_ne_true]
    constructor
    · exact fun h => .inr (.inr ⟨rfl, h⟩)
    · rintro (rfl | ⟨h, -⟩ | ⟨-, rfl⟩)
      · rw [habsp] at habsq
        cases habsq
      · cases h
      · rfl
  · rw [if_pos rfl, if_pos rfl]
    constructor
    · exact .inl
    · rintro (h | ⟨h, -⟩ | ⟨h, -⟩)
      · exact h
      · cases h
      · cases h

theorem ne_memoryDatabasePath (h : denotedDirectory wd path = some loc) :
    path ≠ memoryDatabasePath := by
  rintro rfl
  rw [denotedDirectory, if_pos (.inr rfl)] at h
  cases h

/-! ### Preparing the directory of a path -/

/-- The components as the system walks through them: a slash at the end is one more `.`. -/
def steps (path : Text) : List Text :=
  components path ++ if path.getLast? = some byteSlash then [ascii "."] else []

/-- The place a path leads to, once everything on the way is there. -/
def denoted (path : Text) : Location Text := (steps path).foldl enter []

/-- A normalised path and its place. -/
def databasePlace (path : Text) : DatabasePath :=
  if path = memoryDatabasePath then .memory else .durable (denoted path)

/-- Every component is looked up in a directory. -/
def passes (fs : Files) : Location Text → List Text → Bool
  | _, [] => true
  | loc, component :: rest => fs.isDirectory loc && passes fs (enter loc component) rest

/-- `std::filesystem::exists`. -/
def existsPath (fs : Files) (path : Text) : Bool :=
  passes fs [] (steps path) && fs.existsAt (denoted path)

/-- `std::filesystem::create_directories`: from the first place that is missing, one after another
    is made; what was made stays if a later one cannot be. -/
def createPath (fs : Files) : Location Text → List Text → Except Files Files
  | _, [] => .ok fs
  | loc, component :: rest =>
    match fs.createDirectories (enter loc component) with
    | some made => createPath made (enter loc component) rest
    | none => .error fs

/-- `prepare_database_directory`, on the text of a normalised path. -/
def prepareDatabasePath (fs : Files) (path : Text) (flags : UInt32) : Result × Files :=
  if path = memoryDatabasePath then (.ok, fs)
  else if hasFlag flags openExclusive && existsPath fs path then (.error, fs)
  else if !existsPath fs path && !hasFlag flags openCreate then (.notfound, fs)
  else if existsPath fs path then
    if fs.isDirectory (denoted path) then
      prepareExistingDatabaseDirectory fs (denoted path) flags
    else (.ioerr, fs)
  else
    match createPath fs [] (steps path) with
    | .ok made => caught (initializeDatabaseLayout made (denoted path))
    | .error left => (.ioerr, left)

/-- Behind the directories that are there the path does not go up again, and it finds what is at its
    place. -/
structure Straight (fs : Files) (path : Text) : Prop where
  ahead : ∃ front back loc, steps path = front ++ back ∧ walk fs [] front = some loc ∧
    ascii ".." ∉ back
  found : fs.existsAt (denoted path) = true → passes fs [] (steps path) = true

theorem straight_of_notMem (hup : ascii ".." ∉ steps path)
    (hfound : fs.existsAt (denoted path) = true → passes fs [] (steps path) = true) :
    Straight fs path :=
  ⟨⟨[], steps path, [], rfl, rfl, hup⟩, hfound⟩

theorem Straight.existsPath_eq (h : Straight fs path) :
    existsPath fs path = fs.existsAt (denoted path) := by
  rw [existsPath]
  cases hexists : fs.existsAt (denoted path) with
  | false => exact Bool.and_false _
  | true => rw [h.found hexists, Bool.and_self]

/-- A walk through directories is where its components lead, and nothing is made on it. -/
theorem createPath_of_walk {start : Location Text} {front : List Text}
    (h : walk fs start front = some loc) (back : List Text) :
    front.foldl enter start = loc ∧
      createPath fs start (front ++ back) = createPath fs loc back := by
  induction front generalizing start with
  | nil =>
    rw [walk] at h
    split at h
    · exact ⟨Option.some.inj h, by rw [Option.some.inj h]; rfl⟩
    · cases h
  | cons component front ih =>
    rw [walk] at h
    split at h
    · obtain ⟨hloc, hpath⟩ := ih h
      have hnext : fs.lookup (enter start component) = some .directory := by
        cases front with
        | nil =>
          obtain rfl : enter start component = loc := hloc
          exact lookup_of_walk h
        | cons next front =>
          rw [walk] at h
          split at h
          · next hdir => exact FileSystem.isDirectory_iff.mp hdir
          · cases h
      refine ⟨hloc, ?_⟩
      rw [cons_append, createPath, FileSystem.createDirectories_of_directory hnext]
      exact hpath
    · cases h

/-- Without `..` a path leads down. -/
theorem suffix_foldl_enter {back : List Text} (hup : ascii ".." ∉ back) (loc : Location Text) :
    loc <:+ back.foldl enter loc := by
  induction back generalizing loc with
  | nil => exact suffix_refl loc
  | cons component back ih =>
    rw [mem_cons, not_or] at hup
    have hnext : loc <:+ enter loc component := by
      rw [enter, if_neg (Ne.symm hup.1)]
      split_ifs
      exacts [suffix_refl loc, suffix_cons component loc]
    exact hnext.trans (ih hup.2 _)

/-- **Going down.** The directories of a path without `..` are made as those of its place. -/
theorem createPath_of_notMem {back : List Text} (hup : ascii ".." ∉ back)
    (hloc : fs.lookup loc = some .directory) :
    createPath fs loc back = match fs.createDirectories (back.foldl enter loc) with
      | some made => .ok made
      | none => .error fs := by
  induction back generalizing fs loc with
  | nil => rw [foldl_nil, FileSystem.createDirectories_of_directory hloc, createPath]
  | cons component back ih =>
    rw [mem_cons, not_or] at hup
    have hsuffix := suffix_foldl_enter hup.2 (enter loc component)
    rw [createPath, foldl_cons]
    cases hmade : fs.createDirectories (enter loc component) with
    | none =>
      have hnone : fs.createDirectories (back.foldl enter (enter loc component)) = none := by
        rw [← Option.not_isSome_iff_eq_none, FileSystem.createDirectories_isSome_iff] at hmade ⊢
        exact fun h => hmade fun l hl => h l (hl.trans hsuffix)
      rw [hnone]
    | some made =>
      show createPath made (enter loc component) back = _
      rw [ih hup.2 (FileSystem.createDirectories_eq_some hmade).1,
        FileSystem.createDirectories_of_suffix hmade hsuffix]
      cases hend : fs.createDirectories (back.foldl enter (enter loc component)) with
      | none => rw [FileSystem.eq_of_createDirectories_none hmade hsuffix hend]
      | some made => rfl

theorem Straight.createPath_eq (h : Straight fs path) :
    createPath fs [] (steps path) = match fs.createDirectories (denoted path) with
      | some made => .ok made
      | none => .error fs := by
  obtain ⟨front, back, loc, hsteps, hwalk, hup⟩ := h.ahead
  obtain ⟨hloc, hpath⟩ := createPath_of_walk hwalk back
  rw [denoted, hsteps, hpath, createPath_of_notMem hup (lookup_of_walk hwalk), foldl_append, hloc]

/-- **A straight path** is prepared as its place. -/
theorem Straight.prepareDatabasePath_eq (h : Straight fs path) (flags : UInt32) :
    prepareDatabasePath fs path flags =
      prepareDatabaseDirectory fs (databasePlace path) flags := by
  rw [prepareDatabasePath, databasePlace, h.existsPath_eq, h.createPath_eq]
  by_cases hmemory : path = memoryDatabasePath
  · rw [if_pos hmemory, if_pos hmemory]
    rfl
  · rw [if_neg hmemory, if_neg hmemory, prepareDatabaseDirectory]
    cases fs.createDirectories (denoted path) <;> rfl

/-- A database `/db` whose metadata is no metadata. -/
def spoiledDatabase : Files :=
  ((FileSystem.empty.createDirectories [ascii "db"]).bind fun fs =>
    fs.writeFile (ascii "garbage") [metaFilename, ascii "db"]).getD .empty

/-! ### Opening a live database once more -/

section Opening

variable {ι : Type*} [DecidableEq ι]

variable {flags : UInt32}

/-- The steps of one open up to the end of `start_runtime`: the check of the path, the preparation
    of the directory, and `start_runtime` with its mutex. -/
def openMoves (caller : ι) (path : Text) (prepared : Bool) : List (Move ι Text) :=
  [⟨caller, path, true⟩, ⟨caller, path, prepared⟩, ⟨caller, path, true⟩, ⟨caller, path, true⟩]

/-- The process after an open that no other caller interrupts. -/
def openAlone (s : Process ι Text (Location Text)) (caller : ι) (wd : WorkingDirectory fs)
    (path : Text) (loc : Location Text) (flags : UInt32) :
    Option (Process ι Text (Location Text)) :=
  (openMoves caller (normalizeDatabasePath wd path)
    ((prepareDatabaseDirectory fs (.durable loc) flags).1 == .ok)).foldlM
      (Process.next (databaseDirectory fs)) s

/-- The open has passed `start_runtime` with one more reference to the same runtime. -/
def Joins (s : Process ι Text (Location Text)) (caller : ι) (wd : WorkingDirectory fs)
    (path : Text) (loc : Location Text) (flags : UInt32) : Prop :=
  ∃ s', openAlone s caller wd path loc flags = some s' ∧
    s'.pc caller = .started (normalizeDatabasePath wd path) ∧
    s'.runtime = { s.runtime with refCount := s.runtime.refCount + 1 }

/-- A well-formed directory is prepared, unless the open is exclusive. -/
theorem prepareDatabaseDirectory_of_wellformed (hloc : fs.lookup loc = some .directory)
    (hwell : Wellformed fs loc) (hexclusive : hasFlag flags openExclusive = false) :
    (prepareDatabaseDirectory fs (.durable loc) flags).1 = .ok := by
  rw [(follows_of_directory hloc hexclusive).code, documentedResult,
    if_neg (not_not.mpr ⟨.directory, hloc, by decide⟩), hexclusive, if_neg Bool.false_ne_true,
    if_neg (not_not.mpr hloc), if_neg ?_, if_pos hwell]
  intro hvacant
  have hdatadir := hwell.datadir
  rw [hvacant datadirName] at hdatadir
  cases hdatadir

variable {s : Process ι Text (Location Text)} {caller : ι}

/-- An open with the path of the runtime takes one more reference. -/
theorem openAlone_of_eq (hidle : s.pc caller = .idle) (hfree : s.mutex = none)
    (hlive : 0 < s.runtime.refCount)
    (hroom : s.runtime.refCount + 1 < unsignedRange)
    (hpath : s.runtime.databasePath = some (normalizeDatabasePath wd path))
    (hprepared : (prepareDatabaseDirectory fs (.durable loc) flags).1 = .ok) :
    Joins s caller wd path loc flags := by
  let text := normalizeDatabasePath wd path
  let validated := s.goto caller (.validated text)
  let prepared := validated.goto caller (.prepared text)
  let starting := { prepared with mutex := some caller }.goto caller (.starting text)
  let started := { starting with runtime.refCount := s.runtime.refCount + 1 }.leave caller
    (.started text)
  have hvalidated : s.next (databaseDirectory fs) ⟨caller, text, true⟩ = some validated := by
    rw [Process.next, Process.step, hidle]
    show Option.map Prod.snd (s.validateRuntimeDatabasePath caller text) = some validated
    rw [Process.validateRuntimeDatabasePath, hfree, Option.isSome_none, if_neg Bool.false_ne_true,
      if_neg fun h => h.2 hpath]
    rfl
  have hnext : validated.next (databaseDirectory fs) ⟨caller, text, true⟩ = some prepared := by
    have hpc : validated.pc caller = .validated text := Function.update_self ..
    rw [Process.next, Process.step, hpc]
    rfl
  have hstarting : prepared.next (databaseDirectory fs) ⟨caller, text, true⟩ = some starting := by
    have hpc : prepared.pc caller = .prepared text := Function.update_self ..
    rw [Process.next, Process.step, hpc]
    show Option.map Prod.snd (prepared.acquire caller (.starting text)) = some starting
    rw [Process.acquire, show prepared.mutex = none from hfree, Option.isSome_none,
      if_neg Bool.false_ne_true]
    rfl
  have hstarted : starting.next (databaseDirectory fs) ⟨caller, text, true⟩ = some started := by
    have hpc : starting.pc caller = .starting text := Function.update_self ..
    rw [Process.next, Process.step, hpc]
    show some (starting.enterRuntime (databaseDirectory fs) caller text true).2 = some started
    unfold Process.enterRuntime
    rw [if_pos (show 0 < starting.runtime.refCount from hlive),
      if_neg (show ¬starting.runtime.databasePath ≠ some text from not_not.mpr hpath)]
    simp only [show (starting.runtime.refCount + 1) % unsignedRange = s.runtime.refCount + 1 from
      Nat.mod_eq_of_lt hroom]
    rfl
  refine ⟨started, ?_, Function.update_self .., rfl⟩
  rw [openAlone, openMoves, hprepared, beq_self_eq_true]
  simp only [foldlM_cons, Option.bind_eq_bind]
  rw [hvalidated, Option.bind_some, hnext, Option.bind_some, hstarting, Option.bind_some, hstarted]
  rfl

/-- An open with any other path returns `MYLITE_BUSY` at its first check. -/
theorem openAlone_of_ne (hidle : s.pc caller = .idle) (hfree : s.mutex = none)
    (hlive : 0 < s.runtime.refCount)
    (hpath : s.runtime.databasePath ≠ some (normalizeDatabasePath wd path)) :
    openAlone s caller wd path loc flags = some s := by
  have hstep : ∀ ok, s.next (databaseDirectory fs) ⟨caller, normalizeDatabasePath wd path, ok⟩
      = some s := by
    intro ok
    rw [Process.next, Process.step, hidle]
    show Option.map Prod.snd (s.validateRuntimeDatabasePath caller _) = some s
    rw [Process.validateRuntimeDatabasePath, hfree, Option.isSome_none, if_neg Bool.false_ne_true,
      if_pos ⟨hlive, hpath⟩]
    rfl
  rw [openAlone, openMoves]
  simp only [foldlM_cons, hstep, Option.bind_eq_bind, Option.bind_some, foldlM_nil]
  rfl

/-- **Spellings.** While a handle opened through `p` is live, an open through `q`, which denotes
    the same directory, shares the runtime exactly if `p` and `q` are the same text or the
    relative and the absolute form of one text; otherwise it returns `MYLITE_BUSY`. -/
theorem joins_iff [Fintype ι] (hfew : Fintype.card ι < unsignedRange) {moves : List (Move ι Text)}
    (hrun : Run (ofOption (Process.next (databaseDirectory fs))) .initial moves s)
    {p q : Text} {loc : Location Text} {holder : ι} (hp : denotedDirectory wd p = some loc)
    (hq : denotedDirectory wd q = some loc) (hwell : Wellformed fs loc)
    (hholder : s.pc holder = .opened (normalizeDatabasePath wd p)) (hidle : s.pc caller = .idle)
    (hfree : s.mutex = none) {flags : UInt32} (hflags : hasFlag flags openExclusive = false) :
    Joins s caller wd q loc flags ↔ SameSpelling wd p q := by
  have hinv := Process.invariant_of_run hfew hrun
  have hpath := hinv.paths holder (normalizeDatabasePath wd p) (by rw [hholder]; rfl)
  have hlive : 0 < s.runtime.refCount := by
    rw [Nat.pos_iff_ne_zero]
    intro hzero
    have hnone := hinv.reference_eq_none hzero holder
    rw [hholder] at hnone
    cases hnone
  rw [← normalizeDatabasePath_eq_iff wd (ne_memoryDatabasePath wd hp) (ne_memoryDatabasePath wd hq)]
  constructor
  · rintro ⟨s', hs', hpc, -⟩
    by_contra hne
    rw [openAlone_of_ne wd hidle hfree hlive fun h => hne (Option.some.inj (hpath.symm.trans h))]
      at hs'
    obtain rfl := Option.some.inj hs'
    rw [hidle] at hpc
    cases hpc
  · intro heq
    exact openAlone_of_eq wd hidle hfree hlive (hinv.refCount_lt caller (by rw [hidle]; rfl))
      (heq ▸ hpath)
      (prepareDatabaseDirectory_of_wellformed (lookup_of_denotedDirectory wd hq) hwell hflags)

end Opening

/-! ### A directory with two spellings -/

/-- One database directory, `/db`. -/
def oneDatabase : Files :=
  (prepareDatabaseDirectory FileSystem.empty (.durable [ascii "db"]) openCreate).2

/-- The root as working directory. -/
def atRoot : WorkingDirectory oneDatabase := ⟨[], rfl, nofun⟩

theorem wellformed_oneDatabase : Wellformed oneDatabase [ascii "db"] := by
  rw [← validateDatabaseLayout_eq_ok_iff]
  decide

/-- The process in which caller `0` has opened the database as `db`. -/
def openedAsDb : Process (Fin 2) Text (Location Text) :=
  ((List.replicate 9 (⟨⟨0, Nat.zero_lt_two⟩, normalizeDatabasePath atRoot (ascii "db"), true⟩ :
    Move (Fin 2) Text)).foldlM (Process.next (databaseDirectory oneDatabase)) .initial).getD
      .initial

theorem run_openedAsDb :
    Run (ofOption (Process.next (databaseDirectory oneDatabase))) .initial
      (List.replicate 9 ⟨0, normalizeDatabasePath atRoot (ascii "db"), true⟩) openedAsDb := by
  apply run_of_foldlM
  rfl

/-- While `db` is open, an open of `/db` shares its runtime. -/
theorem joins_absolute :
    Joins openedAsDb 1 atRoot (ascii "/db") [ascii "db"] openCreate :=
  have hp : denotedDirectory atRoot (ascii "db") = some [ascii "db"] := by decide
  have hholder : openedAsDb.pc 0 = .opened (normalizeDatabasePath atRoot (ascii "db")) := rfl
  (joins_iff atRoot (by decide) run_openedAsDb hp (by decide) wellformed_oneDatabase hholder rfl rfl
    (by decide)).mpr (.inr (.inl (by decide)))

/-- While `db` is open, an open of `./db`, the same directory, returns `MYLITE_BUSY`. -/
theorem not_joins_dot :
    denotedDirectory atRoot (ascii "db") = some [ascii "db"] ∧
      denotedDirectory atRoot (ascii "./db") = some [ascii "db"] ∧
      openAlone openedAsDb 1 atRoot (ascii "./db") [ascii "db"] openCreate = some openedAsDb ∧
      ¬Joins openedAsDb 1 atRoot (ascii "./db") [ascii "db"] openCreate := by
  have hbusy : openAlone openedAsDb 1 atRoot (ascii "./db") [ascii "db"] openCreate
      = some openedAsDb :=
    openAlone_of_ne atRoot rfl rfl (by decide) (by decide)
  refine ⟨by decide, by decide, hbusy, ?_⟩
  rintro ⟨s', hs', hpc, -⟩
  rw [hbusy] at hs'
  obtain rfl := Option.some.inj hs'
  cases hpc

end MyLite.Directory
