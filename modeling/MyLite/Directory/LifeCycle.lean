import MyLite.Directory.Territory
import MyLite.Lib.Run

namespace MyLite.Directory

open MyLite.Api MyLite.Lib MyLite.Sql List

/-!
# The life cycle of database directories

The calls of one process that open and close databases, one after another, and what they leave on
disk between two calls.  The runtime is shared by all handles: the first open starts it, the last
close removes its directory and empties `tmp/` of the database it was on.

* `openImpl`, `closeImpl`, `Application.step` — the code, on the process and its files.
* `Between`, `Obeys` — what is on disk between two calls, and what a call has done.
* `Sound` — the invariant; `sound_step` is one call, `sound_of_run` any number of them.
* `lifeCycle_of_run` — what every run keeps in which no database lies inside a directory in which
  the server of another one works, no path goes up, and the references can be counted.
-/

variable {Path : Type}

/-! ### Calls -/

/-- A process that opens and closes databases. -/
structure Application (Path : Type) where
  world : RuntimeWorld Path
  /-- The path of every open handle. -/
  handles : List Path := []
  /-- The durable databases that some call has opened. -/
  opened : List (Location Text) := []
  /-- The transient directories of `:memory:` that were made and have been there since. -/
  transient : List (Location Text) := []

/-- A transient directory of the call, if it has made one. -/
def newTransient (place : DatabasePath) (made : Option (Location Text)) : List (Location Text) :=
  match place with
  | .memory => made.toList
  | .durable _ => []

/-- The database that a call has opened. -/
def newDatabase : DatabasePath → List (Location Text)
  | .memory => []
  | .durable loc => [loc]

/-- Transient directories that have gone are forgotten. -/
def Application.forgetGone (s : Application Path) : Application Path :=
  { s with transient := s.transient.filter fun c => (s.world.fs.lookup c).isSome }

section Calls

variable [DecidableEq Path] (build : Build) (place : Path → DatabasePath)

/-- `open_impl` behind a successful `start_runtime`. -/
def connect (i : OpenInput) (path : Path) (s : Application Path) : Result × Application Path :=
  if i.connects && i.systemTables then
    (.ok, { s with
      handles := s.handles ++ [path]
      opened := newDatabase (place path) ++ s.opened })
  else (.error, { s with world := releaseRuntime place i.lastEdits s.world })

/-- `open_impl` behind `prepare_database_directory`. -/
def startAndConnect (i : OpenInput) (path : Path) (s : Application Path) :
    Result × Application Path :=
  let r := startRuntime build i.start place s.world path
  let s' := { s with
    world := r.world, transient := newTransient (place path) r.made ++ s.transient }
  match r.outcome with
  | .returned .ok => connect place i path s'
  | .returned code => (code, s')
  | .threw => (.ioerr, s')

/-- `open_impl`, on a normalised path. -/
def openImpl (i : OpenInput) (path : Text) (s : Application Text) : Result × Application Text :=
  -- `validate_runtime_database_path`
  if 0 < s.world.runtime.refCount ∧ s.world.runtime.databasePath ≠ some path then (.busy, s)
  else
    match prepareDatabasePath s.world.fs path i.flags with
    | (.ok, fs) => startAndConnect build databasePlace i path { s with world.fs := fs }
    | (code, fs) => (code, { s with world.fs := fs })

/-- What the process does next. -/
inductive Call
  | openDatabase (path : Text) (i : OpenInput)
  /-- `mylite_close`, on a handle with or without active statements. -/
  | closeDatabase (handle : ℕ) (activeStatements : Bool) (edits : ServerWork)
  /-- The server works between two calls. -/
  | serverWork (edits : ServerWork)

/-- `mylite_close`. -/
def closeImpl (handle : ℕ) (activeStatements : Bool) (edits : ServerWork) (s : Application Path) :
    Application Path :=
  if activeStatements then s
  else { s with
    world := releaseRuntime place edits s.world
    handles := s.handles.eraseIdx handle }

/-- One call; only open handles are closed. -/
def Application.step (s : Application Text) : Call → Option (Application Text)
  | .openDatabase path i => some (openImpl build i path s).2.forgetGone
  | .closeDatabase handle activeStatements edits =>
    if handle < s.handles.length then
      some (closeImpl databasePlace handle activeStatements edits s).forgetGone
    else none
  | .serverWork edits => some { s with world := serve databasePlace edits s.world }.forgetGone

end Calls

/-! ### The property -/

/-- The runtime is active on the database at `loc`. -/
def ActiveOn (place : Path → DatabasePath) (r : RuntimeRecord Path) (loc : Location Text) : Prop :=
  0 < r.refCount ∧ ∃ path, r.databasePath = some path ∧ place path = .durable loc

/-- What is on disk between two calls. -/
structure Between (place : Path → DatabasePath) (s : Application Path) : Prop where
  layout : ∀ loc ∈ s.opened, validateDatabaseLayout s.world.fs loc = .ok
  run : ∀ loc ∈ s.opened,
    (s.world.fs.existsAt (rundirName :: loc) = true ↔ ActiveOn place s.world.runtime loc)
  memory : (∀ path ∈ s.handles, place path ≠ .memory) → s.transient = []

/-- What a call has done: the last close empties `tmp/`, and an open leaves a live `run/` alone. -/
structure Obeys (call : Call) (s s' : Application Text) : Prop where
  emptied : ∀ loc, ActiveOn databasePlace s.world.runtime loc → s'.world.runtime.refCount = 0 →
    s'.world.fs.lookup (tmpdirName :: loc) = some .directory ∧
      Vacant s'.world.fs (tmpdirName :: loc)
  live : ∀ path i, call = .openDatabase path i → ∀ loc,
    ActiveOn databasePlace s.world.runtime loc → ∀ l, rundirName :: loc <:+ l →
      s'.world.fs.lookup l = s.world.fs.lookup l

/-- A database lies apart from those opened before, and a transient directory is not made in the
    `run/` of one of them. -/
def LiesApart (opened : List (Location Text)) (root : Location Text) : DatabasePath → Prop
  | .durable loc => ∀ loc' ∈ opened, loc' ≠ loc → Apart loc loc'
  | .memory => ∀ loc ∈ opened, ¬rundirName :: loc <:+ root

instance (opened : List (Location Text)) (root : Location Text) :
    ∀ place, Decidable (LiesApart opened root place)
  | .durable _ => inferInstanceAs (Decidable (∀ _ ∈ _, _))
  | .memory => inferInstanceAs (Decidable (∀ _ ∈ _, _))

/-- The path has no `..` and finds what is at its place, and one more handle can be counted. -/
def Plain (s : Application Text) (path : Text) : Prop :=
  ascii ".." ∉ steps path ∧
    (s.world.fs.existsAt (denoted path) = true → passes s.world.fs [] (steps path) = true) ∧
    s.handles.length + 1 < Runtime.unsignedRange

theorem Plain.straight {s : Application Text} {path : Text} (h : Plain s path) :
    Straight s.world.fs path := straight_of_notMem h.1 h.2.1

instance (s : Application Text) (path : Text) : Decidable (Plain s path) :=
  inferInstanceAs (Decidable (_ ∧ _ ∧ _))

/-- What is opened lies apart, and by a plain path. -/
def Separate (s : Application Text) : Call → Prop
  | .openDatabase path i => LiesApart s.opened i.root (databasePlace path) ∧ Plain s path
  | .closeDatabase .. | .serverWork _ => True

instance (s : Application Text) : ∀ call, Decidable (Separate s call)
  | .openDatabase _ _ => inferInstanceAs (Decidable (LiesApart _ _ _ ∧ _))
  | .closeDatabase .. | .serverWork _ => inferInstanceAs (Decidable True)

/-! ### The invariant -/

/-- What holds between two calls. -/
structure Sound (place : Path → DatabasePath) (s : Application Path) : Prop where
  count : s.world.runtime.refCount = s.handles.length
  settled : s.world.runtime.Settled
  layout : ∀ loc ∈ s.opened, Wellformed s.world.fs loc
  run : ∀ loc ∈ s.opened, ¬ActiveOn place s.world.runtime loc →
    s.world.fs.lookup (rundirName :: loc) = none
  idle : s.world.runtime.refCount = 0 → s.transient = []
  up : 0 < s.world.runtime.refCount → ∃ path c, Up place s.world path c ∧
    (∀ h ∈ s.handles, h = path) ∧ (∀ c' ∈ s.transient, c' = c ∧ place path = .memory) ∧
    (∀ loc, place path = .durable loc → loc ∈ s.opened) ∧
    ∀ loc ∈ s.opened, place path ≠ .durable loc → Remote c (place path) loc

theorem ActiveOn.iff_of_up {place : Path → DatabasePath} {w : RuntimeWorld Path} {path : Path}
    {c loc : Location Text} (hup : Up place w path c) :
    ActiveOn place w.runtime loc ↔ place path = .durable loc := by
  constructor
  · rintro ⟨-, path', hpath', hplace⟩
    obtain rfl := Option.some.inj (hup.databasePath.symm.trans hpath')
    exact hplace
  · exact fun hplace => ⟨hup.count, path, hup.databasePath, hplace⟩

section Sound

variable {place : Path → DatabasePath} {s s' : Application Path}

variable {c loc : Location Text}

/-- The invariant is the property. -/
theorem Sound.between (h : Sound place s) : Between place s := by
  refine ⟨fun loc hloc => (validateDatabaseLayout_eq_ok_iff _ _).mpr (h.layout loc hloc),
    fun loc hloc => ⟨fun hexists => ?_, fun hactive => ?_⟩, fun hmemory => ?_⟩
  · by_contra hidle
    rw [FileSystem.existsAt, h.run loc hloc hidle] at hexists
    cases hexists
  · obtain ⟨path, c, hup, -⟩ := h.up hactive.1
    have hdir := hup.directory
    rw [hup.cleanup_durable ((ActiveOn.iff_of_up hup).mp hactive)] at hdir
    exact FileSystem.existsAt_of_lookup hdir (by decide)
  · by_cases hzero : s.world.runtime.refCount = 0
    · exact h.idle hzero
    · obtain ⟨path, c, -, hhandles, htransient, -⟩ := h.up (by omega)
      -- There is a handle, and it is of the path of the runtime.
      have hlength : 0 < s.handles.length := by
        rw [← h.count]
        omega
      obtain ⟨handle, hhandle⟩ := exists_mem_of_length_pos hlength
      refine eq_nil_iff_forall_not_mem.mpr fun c' hc' => hmemory handle hhandle ?_
      rw [hhandles handle hhandle]
      exact (htransient c' hc').2

/-- Between two calls without a runtime, nothing but other files changes. -/
theorem Sound.of_idle (h : Sound place s) (hidle : s.world.runtime.refCount = 0)
    (hruntime : s'.world.runtime = s.world.runtime) (hhandles : s'.handles = s.handles)
    (hopened : s'.opened = s.opened) (htransient : s'.transient = [])
    (hspares : ∀ loc ∈ s.opened, Spares loc s.world.fs s'.world.fs) : Sound place s' where
  count := by rw [hruntime, hhandles, h.count]
  settled := by
    rw [hruntime]
    exact h.settled
  layout := by
    rw [hopened]
    exact fun loc hloc => (h.layout loc hloc).of_spares (hspares loc hloc)
  run := by
    rw [hopened, hruntime]
    intro loc hloc hactive
    rw [hspares loc hloc rundirName (by simp [layoutNames])]
    exact h.run loc hloc hactive
  idle := fun _ => htransient
  up := by
    rw [hruntime]
    exact fun hpos => absurd hpos (by omega)

/-- A database that is spared without a runtime has its layout and no `run/`. -/
theorem Sound.of_spares (h : Sound place s) (hidle : s.world.runtime.refCount = 0)
    (hloc : loc ∈ s.opened) {fs : Files} (hspares : Spares loc s.world.fs fs) :
    Wellformed fs loc ∧ fs.lookup (rundirName :: loc) = none := by
  refine ⟨(h.layout loc hloc).of_spares hspares, ?_⟩
  rw [hspares rundirName (by simp [layoutNames])]
  exact h.run loc hloc fun hon => absurd hon.1 (by omega)

/-- The layout of a database stays when a server keeps to its territory. -/
theorem wellformed_of_frame {p : DatabasePath} {fs fs' : Files} (hwell : Wellformed fs loc)
    (hremote : p ≠ .durable loc → Remote c p loc)
    (hframe : ∀ l, ¬Territory c p l → fs'.lookup l = fs.lookup l) : Wellformed fs' loc := by
  by_cases hown : p = .durable loc
  · subst hown
    exact hwell.of_lookup fun name hname => hframe _ (not_territory_own hname)
  · exact hwell.of_spares (spares_of_remote (hremote hown) hframe)

/-- While the runtime stays up on its path, the invariant is kept by whatever the server does. -/
theorem Sound.of_up (h : Sound place s) {path : Path} (hup : Up place s.world path c)
    (hup' : Up place s'.world path c) (hcount : s'.world.runtime.refCount = s'.handles.length)
    (hhandles : ∀ handle ∈ s'.handles, handle ∈ s.handles ∨ handle = path)
    (hopened : ∀ loc, loc ∈ s'.opened ↔ loc ∈ s.opened)
    (htransient : ∀ c' ∈ s'.transient, c' ∈ s.transient)
    (hframe : ∀ l, ¬Territory c (place path) l → s'.world.fs.lookup l = s.world.fs.lookup l) :
    Sound place s' := by
  obtain ⟨path', c', hup₀, hall, htransients, hdurable, hremote⟩ := h.up hup.count
  obtain rfl : path' = path := Option.some.inj (hup₀.databasePath.symm.trans hup.databasePath)
  obtain rfl : c' = c := Option.some.inj (hup₀.cleanup.symm.trans hup.cleanup)
  refine ⟨hcount, fun hzero => absurd hup'.count (by omega), fun loc hloc => ?_,
    fun loc hloc hactive => ?_, fun hzero => absurd hup'.count (by omega), fun _ => ?_⟩
  · have hloc' := (hopened loc).mp hloc
    exact wellformed_of_frame (h.layout loc hloc') (hremote loc hloc') hframe
  · have hloc' := (hopened loc).mp hloc
    rw [ActiveOn.iff_of_up hup'] at hactive
    rw [hframe _ (hremote loc hloc' hactive rundirName (by simp [layoutNames]))]
    exact h.run loc hloc' (by rwa [ActiveOn.iff_of_up hup])
  · refine ⟨path', c', hup', fun handle hhandle => ?_,
      fun c'' hc'' => htransients c'' (htransient c'' hc''),
      fun loc hplace => (hopened loc).mpr (hdurable loc hplace),
      fun loc hloc => hremote loc ((hopened loc).mp hloc)⟩
    rcases hhandles handle hhandle with hold | hnew
    · exact hall handle hold
    · exact hnew

theorem mem_forgetGone (hc : c ∈ s.forgetGone.transient) :
    c ∈ s.transient ∧ s.world.fs.lookup c ≠ none := by
  obtain ⟨hmem, hsome⟩ := mem_filter.mp hc
  exact ⟨hmem, Option.isSome_iff_ne_none.mp hsome⟩

theorem forgetGone_eq_nil (h : ∀ c ∈ s.transient, s.world.fs.lookup c = none) :
    s.forgetGone.transient = [] :=
  eq_nil_iff_forall_not_mem.mpr fun c hc => (mem_forgetGone hc).2 (h c (mem_forgetGone hc).1)

/-- A call that changes nothing keeps the invariant. -/
theorem Sound.forgetGone (h : Sound place s) : Sound place s.forgetGone := by
  by_cases hzero : s.world.runtime.refCount = 0
  · refine h.of_idle hzero rfl rfl rfl ?_ fun _ _ _ _ => rfl
    rw [Application.forgetGone, h.idle hzero]
    rfl
  · obtain ⟨path, c, hup, -⟩ := h.up (by omega)
    exact h.of_up hup hup h.count (fun _ hmem => .inl hmem) (fun _ => Iff.rfl)
      (fun _ hc => (mem_forgetGone hc).1) fun _ _ => rfl

/-! ### Closing and working -/

variable {w : RuntimeWorld Path} {transient : List (Location Text)}

theorem Sound.serve (h : Sound place s) (edits : ServerWork) :
    Sound place { s with world := serve place edits s.world }.forgetGone := by
  by_cases hzero : s.world.runtime.refCount = 0
  · -- Without a runtime there is no server.
    have hscratch : s.world.runtime.scratch place = [] := by
      have hclear := h.settled hzero
      rw [← hclear]
      rfl
    have hfs : (Directory.serve place edits s.world).fs = s.world.fs := by
      rw [Directory.serve, hscratch, workIn]
      simp [FileSystem.work]
    refine h.of_idle hzero rfl rfl rfl ?_ fun loc _ name _ => ?_
    · rw [Application.forgetGone, h.idle hzero]
      rfl
    · show (Directory.serve place edits s.world).fs.lookup (name :: loc) = _
      rw [hfs]
  · obtain ⟨path, c, hup, -⟩ := h.up (by omega)
    exact h.of_up hup (hup.serve edits) h.count (fun _ hmem => .inl hmem) (fun _ => Iff.rfl)
      (fun _ hc => (mem_forgetGone hc).1) fun _ hl => hup.lookup_serve edits hl

/-- **Behind the last release** the invariant holds without a handle. -/
theorem sound_of_release {path : Path} {opened : List (Location Text)} (hup : Up place w path c)
    (hlast : w.runtime.refCount = 1) (edits : ServerWork)
    (hwell : ∀ loc ∈ opened, Wellformed w.fs loc)
    (hothers : ∀ loc ∈ opened, place path ≠ .durable loc →
      Remote c (place path) loc ∧ w.fs.lookup (rundirName :: loc) = none)
    (htransient : ∀ c' ∈ transient, c' = c) :
    Sound place (Application.mk (releaseRuntime place edits w) [] opened transient).forgetGone := by
  obtain ⟨hzero, hsettled⟩ : (releaseRuntime place edits w).runtime.refCount = 0 ∧ _ :=
    releaseRuntime_runtime_last edits hlast
  have hgone := lookup_releaseRuntime_cleanup hup edits hlast
  refine ⟨hzero, hsettled, fun loc hloc => ?_, fun loc hloc _ => ?_, fun _ => ?_, fun hpos => ?_⟩
  · exact wellformed_of_frame (hwell loc hloc) (fun hplace => (hothers loc hloc hplace).1)
      fun l hl => lookup_releaseRuntime hup edits hlast hl
  · show (releaseRuntime place edits w).fs.lookup (rundirName :: loc) = none
    by_cases hplace : place path = .durable loc
    · rw [← hup.cleanup_durable hplace, hgone]
    · obtain ⟨hremote, hrun⟩ := hothers loc hloc hplace
      rw [lookup_releaseRuntime hup edits hlast (hremote rundirName (by simp [layoutNames])), hrun]
  · refine forgetGone_eq_nil fun c' hc' => ?_
    rw [htransient c' hc']
    exact hgone
  · have hpos' : 0 < (releaseRuntime place edits w).runtime.refCount := hpos
    omega

theorem Sound.close (h : Sound place s) {handle : ℕ} (hhandle : handle < s.handles.length)
    (activeStatements : Bool) (edits : ServerWork) :
    Sound place (closeImpl place handle activeStatements edits s).forgetGone := by
  rw [closeImpl]
  split
  · exact h.forgetGone
  · have hcount := h.count
    by_cases hlast : s.world.runtime.refCount = 1
    · -- It is the last handle.
      have hnil : s.handles.eraseIdx handle = [] := by
        refine length_eq_zero_iff.mp ?_
        rw [length_eraseIdx_of_lt hhandle]
        omega
      obtain ⟨path, c, hup, -, htransients, -, hremote⟩ := h.up (by omega)
      rw [hnil]
      refine sound_of_release hup hlast edits h.layout (fun loc hloc hplace => ?_)
        fun c' hc' => (htransients c' hc').1
      exact ⟨hremote loc hloc hplace, h.run loc hloc (by rwa [ActiveOn.iff_of_up hup])⟩
    · obtain ⟨path, c, hup, -⟩ := h.up (by omega)
      rw [releaseRuntime_of_lt edits (by omega)]
      refine h.of_up hup (hup.recount (by omega)) ?_
        (fun _ hmem => .inl (mem_of_mem_eraseIdx hmem)) (fun _ => Iff.rfl)
        (fun _ hc => (mem_forgetGone hc).1) fun _ _ => rfl
      show s.world.runtime.refCount - 1 = (s.handles.eraseIdx handle).length
      rw [length_eraseIdx_of_lt hhandle, hcount]

/-- A close that leaves no reference was the last one, and has emptied `tmp/`. -/
theorem closeImpl_emptied (h : Sound place s) {handle : ℕ} {activeStatements : Bool}
    {edits : ServerWork} (hactive : ActiveOn place s.world.runtime loc)
    (hzero : (closeImpl place handle activeStatements edits s).world.runtime.refCount = 0) :
    (closeImpl place handle activeStatements edits s).world.fs.lookup (tmpdirName :: loc) =
        some .directory ∧
      Vacant (closeImpl place handle activeStatements edits s).world.fs (tmpdirName :: loc) := by
  have hpos := hactive.1
  obtain ⟨path, c, hup, -, -, hdurable, -⟩ := h.up hpos
  have hplace := (ActiveOn.iff_of_up hup).mp hactive
  rw [closeImpl] at hzero ⊢
  by_cases hstatements : activeStatements = true
  · rw [if_pos hstatements] at hzero
    omega
  · rw [if_neg hstatements] at hzero ⊢
    have hlast : s.world.runtime.refCount = 1 := by
      by_contra hmore
      have hcount : (releaseRuntime place edits s.world).runtime.refCount = 0 := hzero
      rw [releaseRuntime_of_lt edits (by omega)] at hcount
      have hless : s.world.runtime.refCount - 1 = 0 := hcount
      omega
    exact releaseRuntime_tmp hup edits hlast hplace (h.layout loc (hdurable loc hplace)).tmp

/-! ### Opening -/

/-- The runtime has been started for `path`, from a state without a runtime. -/
structure Launched (place : Path → DatabasePath) (s : Application Path) (path : Path)
    (w : RuntimeWorld Path) (c : Location Text) (transient : List (Location Text)) : Prop where
  up : Up place w path c
  count : w.runtime.refCount = 1
  own : ∀ loc, place path = .durable loc → Wellformed w.fs loc
  others : ∀ loc ∈ s.opened, place path ≠ .durable loc →
    Remote c (place path) loc ∧ Wellformed w.fs loc ∧ w.fs.lookup (rundirName :: loc) = none
  transient : ∀ c' ∈ transient, c' = c ∧ place path = .memory

theorem Launched.wellformed {path : Path} (hlaunched : Launched place s path w c transient)
    (hloc : place path ≠ .durable loc → loc ∈ s.opened) : Wellformed w.fs loc := by
  by_cases hplace : place path = .durable loc
  · exact hlaunched.own loc hplace
  · exact (hlaunched.others loc (hloc hplace) hplace).2.1

theorem mem_newDatabase {p : DatabasePath} : loc ∈ newDatabase p ↔ p = .durable loc := by
  cases p with
  | memory => simp [newDatabase]
  | durable loc' => simp [newDatabase, eq_comm]

/-- A successful open. -/
theorem Launched.sound {path : Path} (hlaunched : Launched place s path w c transient)
    (h : Sound place s) (hidle : s.world.runtime.refCount = 0) :
    Sound place (Application.mk w (s.handles ++ [path]) (newDatabase (place path) ++ s.opened)
      transient) := by
  have hup := hlaunched.up
  have hnone : s.handles = [] := length_eq_zero_iff.mp (by rw [← h.count, hidle])
  have hcases : ∀ loc ∈ newDatabase (place path) ++ s.opened, place path ≠ .durable loc →
      loc ∈ s.opened := by
    intro loc hloc hplace
    rcases mem_append.mp hloc with hnew | hold
    · exact absurd (mem_newDatabase.mp hnew) hplace
    · exact hold
  refine ⟨?_, fun hzero => absurd hup.count (by simpa using hzero),
    fun loc hloc => hlaunched.wellformed (hcases loc hloc), fun loc hloc hactive => ?_,
    fun hzero => absurd hup.count (by simpa using hzero), fun _ => ?_⟩
  · rw [hnone]
    exact hlaunched.count
  · rw [ActiveOn.iff_of_up hup] at hactive
    exact (hlaunched.others loc (hcases loc hloc hactive) hactive).2.2
  · refine ⟨path, c, hup, ?_, hlaunched.transient,
      fun loc hplace => mem_append_left _ (mem_newDatabase.mpr hplace),
      fun loc hloc hplace => (hlaunched.others loc (hcases loc hloc hplace) hplace).1⟩
    rw [hnone]
    exact fun handle hmem => mem_singleton.mp hmem

/-- An open that fails behind its start. -/
theorem Launched.release {path : Path} (hlaunched : Launched place s path w c transient)
    (h : Sound place s) (hidle : s.world.runtime.refCount = 0) (edits : ServerWork) :
    Sound place (Application.mk (releaseRuntime place edits w) s.handles s.opened
      transient).forgetGone := by
  have hnone : s.handles = [] := length_eq_zero_iff.mp (by rw [← h.count, hidle])
  rw [hnone]
  refine sound_of_release hlaunched.up hlaunched.count edits
    (fun loc hloc => hlaunched.wellformed fun _ => hloc) (fun loc hloc hplace => ?_)
    fun c' hc' => (hlaunched.transient c' hc').1
  obtain ⟨hremote, -, hrun⟩ := hlaunched.others loc hloc hplace
  exact ⟨hremote, hrun⟩

/-- A transient directory is no part of a layout. -/
theorem uniqueRuntimeName_not_mem (stamp : Text) : uniqueRuntimeName stamp ∉ layoutNames := by
  intro hmem
  have htake : (uniqueRuntimeName stamp).take 7 ∈ layoutNames.map (List.take 7) :=
    mem_map_of_mem hmem
  rw [uniqueRuntimeName, take_append_of_le_length (by decide)] at htake
  exact absurd htake (by decide)

theorem remote_of_new {fs : Files} {root : Location Text} {stamp : Text}
    (hname : c = uniqueRuntimeName stamp :: root) (hnew : fs.lookup c = none)
    (hwell : Wellformed fs loc) : Remote c .memory loc := by
  intro name hmem hs
  rcases suffix_cons_iff.mp hs with heq | hs
  · rw [hname] at heq
    rw [← (List.cons.inj heq).1] at hmem
    exact uniqueRuntimeName_not_mem stamp hmem
  · exact not_suffix_of_lookup_none hnew (FileSystem.lookup_parent hwell.datadir) hs

section Opening

variable [DecidableEq Path] {build : Build} {i : OpenInput} {path : Path} {fs : Files}

/-- What a start without a runtime has done to an application that is left with `r`: it has launched
    the runtime, or it has left what was opened before as it was. -/
def LaunchedOr (place : Path → DatabasePath) (s : Application Path) (path : Path)
    (r : StartResult Path) : Prop :=
  (r.outcome = .returned .ok ∧
    ∃ c, Launched place s path r.world c (newTransient (place path) r.made)) ∨
  (r.outcome ≠ .returned .ok ∧ r.world.runtime = s.world.runtime ∧
    (∀ c ∈ newTransient (place path) r.made, r.world.fs.lookup c = none) ∧
    ∀ loc ∈ s.opened, Spares loc s.world.fs r.world.fs)

theorem launchedOr_memory (h : Sound place s) (hidle : s.world.runtime.refCount = 0)
    (hplace : place path = .memory) (hapart : ∀ loc ∈ s.opened, ¬rundirName :: loc <:+ i.root)
    (hspares : ∀ loc ∈ s.opened, Spares loc s.world.fs fs) :
    LaunchedOr place s path (startRuntime build i.start place { s.world with fs := fs } path) := by
  obtain ⟨hstart, hext⟩ := startRuntime_memory build i { s.world with fs := fs } hplace hidle
  have hwell : ∀ loc ∈ s.opened, Wellformed fs loc :=
    fun loc hloc => (h.of_spares hidle hloc (hspares loc hloc)).1
  cases hstart with
  | @up c stamp hok hcount hup hmade hname hnew hframe =>
    refine .inl ⟨hok, c, hup, hcount, fun loc hdurable => ?_, fun loc hloc _ => ?_,
      fun c' hc' => ?_⟩
    · rw [hplace] at hdurable
      cases hdurable
    · have hremote : Remote c .memory loc := remote_of_new hname hnew (hwell loc hloc)
      rw [hplace]
      refine ⟨hremote, h.of_spares hidle hloc
        ((hspares loc hloc).trans (spares_of_extends (hwell loc hloc) hext ?_))⟩
      exact hframe _ (hremote rundirName (by simp [layoutNames])) (hapart loc hloc)
    · rw [hmade, hplace] at hc'
      exact ⟨mem_singleton.mp hc', hplace⟩
  | failed hok hruntime hgone hframe =>
    refine .inr ⟨hok, hruntime.trans (h.settled hidle), fun c hc => ?_, fun loc hloc => ?_⟩
    · rw [hplace] at hc
      exact hgone c (Option.mem_toList.mp hc)
    · exact (hspares loc hloc).trans (spares_of_extends (hwell loc hloc) hext
        (hframe _ (hapart loc hloc)))

theorem launchedOr_durable (h : Sound place s) (hidle : s.world.runtime.refCount = 0)
    (hplace : place path = .durable loc) (hapart : ∀ loc' ∈ s.opened, loc' ≠ loc → Apart loc loc')
    (hspares : ∀ loc' ∈ s.opened, Spares loc' s.world.fs fs) (hwell : Wellformed fs loc) :
    LaunchedOr place s path (startRuntime build i.start place { s.world with fs := fs } path) := by
  obtain ⟨hstart, hframe⟩ := startRuntime_durable build i
    { s.world with fs := fs } hplace hwell hidle
    h.settled
  have hremote : ∀ loc' ∈ s.opened, loc' ≠ loc → Remote (rundirName :: loc) (.durable loc) loc' :=
    fun loc' hloc' hne => remote_of_apart hne (hapart loc' hloc' hne)
  cases hstart with
  | up hok hcount hup =>
    refine .inl ⟨hok, _, hup, hcount, fun loc' hdurable => ?_, fun loc' hloc' hother => ?_,
      fun c' hc' => ?_⟩
    · obtain rfl := DatabasePath.durable.inj (hplace.symm.trans hdurable)
      exact hwell.of_lookup fun name hname => hframe _ (not_territory_own hname)
    · rw [hplace] at hother ⊢
      have hne : loc' ≠ loc := fun heq => hother (congrArg _ heq.symm)
      have hfar := hremote loc' hloc' hne
      exact ⟨hfar, h.of_spares hidle hloc'
        ((hspares loc' hloc').trans (spares_of_remote hfar hframe))⟩
    · rw [hplace] at hc'
      cases hc'
  | failed hok hruntime hrun =>
    refine .inr ⟨hok, hruntime.trans (h.settled hidle), fun c hc => ?_, fun loc' hloc' => ?_⟩
    · rw [hplace] at hc
      cases hc
    · refine (hspares loc' hloc').trans ?_
      by_cases hne : loc' = loc
      · -- Its own layout is as before, and its `run/` was not there.
        subst hne
        have hnone := (h.of_spares hidle hloc' (hspares loc' hloc')).2
        intro name hname
        by_cases hname' : name = rundirName
        · rw [hname', hnone, hrun hnone]
        · refine hframe _ (not_territory_own ?_)
          simp only [layoutNames, mem_cons, not_mem_nil, or_false, hname'] at hname ⊢
          exact hname
      · exact spares_of_remote (hremote loc' hloc' hne) hframe

/-- An open without a runtime, behind a prepared directory. -/
theorem sound_startAndConnect (h : Sound place s) (hidle : s.world.runtime.refCount = 0)
    (hapart : LiesApart s.opened i.root (place path))
    (hspares : ∀ loc ∈ s.opened, Spares loc s.world.fs fs)
    (hwell : ∀ loc, place path = .durable loc → Wellformed fs loc) :
    Sound place
      (startAndConnect build place i path { s with world.fs := fs }).2.forgetGone := by
  have htransient : s.transient = [] := h.idle hidle
  have hstart : LaunchedOr place s path
      (startRuntime build i.start place { s.world with fs := fs } path) := by
    cases hplace : place path with
    | memory =>
      rw [hplace] at hapart
      exact launchedOr_memory h hidle hplace hapart hspares
    | durable loc =>
      rw [hplace] at hapart
      exact launchedOr_durable h hidle hplace hapart hspares (hwell loc hplace)
  rw [startAndConnect]
  dsimp only
  generalize startRuntime build i.start place { s.world with fs := fs } path = r at hstart
  rw [htransient, append_nil]
  rcases hstart with ⟨hok, c, hlaunched⟩ | ⟨hok, hruntime, hgone, hkept⟩
  · rw [hok]
    dsimp only
    rw [connect]
    split
    · exact (hlaunched.sound h hidle).forgetGone
    · exact hlaunched.release h hidle i.lastEdits
  · have hfailed : Sound place (Application.mk r.world s.handles s.opened
        (newTransient (place path) r.made)).forgetGone :=
      h.of_idle hidle hruntime rfl rfl (forgetGone_eq_nil hgone) hkept
    split
    · next heq => exact absurd heq hok
    · exact hfailed
    · exact hfailed

end Opening

section Opens

variable {build : Build} {i : OpenInput} {path : Text} {s s' : Application Text}

/-- **An open while the runtime is up** is refused, or takes a reference: it changes no file. -/
theorem openImpl_live (build : Build) (i : OpenInput) (h : Sound databasePlace s)
    (hplain : Plain s path) (hpos : 0 < s.world.runtime.refCount) :
    ∃ code, openImpl build i path s = (code, s) ∨
      (∃ c, Up databasePlace s.world path c) ∧
        openImpl build i path s = (code, { s with
          world.runtime.refCount := s.world.runtime.refCount + 1
          handles := s.handles ++ [path]
          opened := newDatabase (databasePlace path) ++ s.opened }) := by
  obtain ⟨path', c, hup, -, -, hdurable, -⟩ := h.up hpos
  by_cases hpath : s.world.runtime.databasePath ≠ some path
  · exact ⟨.busy, .inl (by rw [openImpl, if_pos ⟨hpos, hpath⟩])⟩
  obtain rfl : path' = path := Option.some.inj (hup.databasePath.symm.trans (not_not.mp hpath))
  have hfiles : (prepareDatabaseDirectory s.world.fs (databasePlace path') i.flags).2 =
      s.world.fs := by
    cases hplace : databasePlace path' with
    | memory => rfl
    | durable loc =>
      exact prepareDatabaseDirectory_files_of_wellformed (h.layout loc (hdurable loc hplace))
  rw [openImpl, if_neg fun hbusy => hpath hbusy.2, hplain.straight.prepareDatabasePath_eq]
  generalize prepareDatabaseDirectory s.world.fs (databasePlace path') i.flags = answer at hfiles
  obtain ⟨code, fs⟩ := answer
  obtain rfl : fs = s.world.fs := hfiles
  split
  · next fs heq =>
    obtain rfl : s.world.fs = fs := (Prod.mk.inj heq).2
    have hroom : (s.world.runtime.refCount + 1) % Runtime.unsignedRange
        = s.world.runtime.refCount + 1 := by
      rw [h.count]
      exact Nat.mod_eq_of_lt hplain.2.2
    rw [startAndConnect, startRuntime, if_pos hpos, if_neg hpath]
    dsimp only
    rw [hroom]
    have hnone : newTransient (databasePlace path') none = [] := by
      cases databasePlace path' <;> rfl
    rw [connect, hnone, nil_append]
    split
    · exact ⟨.ok, .inr ⟨⟨c, hup⟩, rfl⟩⟩
    · -- The reference is given back.
      refine ⟨.error, .inl ?_⟩
      rw [releaseRuntime, if_neg (by exact Nat.succ_ne_zero _), if_pos (by exact hpos)]
      rfl
  · next code' fs _ heq =>
    obtain ⟨rfl, rfl⟩ := Prod.mk.inj heq
    exact ⟨code, .inl rfl⟩

theorem Sound.open (h : Sound databasePlace s)
    (hapart : LiesApart s.opened i.root (databasePlace path)) (hplain : Plain s path) :
    Sound databasePlace (openImpl build i path s).2.forgetGone := by
  by_cases hidle : s.world.runtime.refCount = 0
  · rw [openImpl, if_neg fun hbusy => absurd hbusy.1 (by omega),
      hplain.straight.prepareDatabasePath_eq]
    cases hplace : databasePlace path with
    | memory =>
      refine sound_startAndConnect h hidle hapart (fun _ _ _ _ => rfl) fun loc hdurable => ?_
      rw [hplace] at hdurable
      cases hdurable
    | durable loc =>
      have hfollows := prepareDatabaseDirectory_follows s.world.fs loc i.flags
      have hspares : ∀ loc' ∈ s.opened, Spares loc' s.world.fs
          (prepareDatabaseDirectory s.world.fs (.durable loc) i.flags).2 := by
        intro loc' hloc'
        rw [hplace] at hapart
        exact spares_prepareDatabaseDirectory (hapart loc' hloc') (h.layout loc' hloc')
      split
      · next fs heq =>
        have hvalid := hfollows.validates (by rw [heq])
        rw [heq] at hspares hvalid
        refine sound_startAndConnect h hidle hapart hspares fun loc' hdurable => ?_
        obtain rfl := DatabasePath.durable.inj (hplace.symm.trans hdurable)
        exact (validateDatabaseLayout_eq_ok_iff _ _).mp hvalid
      · next code fs hcode heq =>
        -- A refused open leaves the files as they were.
        have hsame := hfollows.unchanged (by rw [heq]; exact hcode)
        rw [heq] at hsame
        obtain rfl : fs = s.world.fs := hsame
        exact h.forgetGone
  · obtain ⟨code, hsame | ⟨⟨c, hup⟩, hjoined⟩⟩ := openImpl_live build i h hplain
      (by omega)
    · rw [hsame]
      exact h.forgetGone
    · rw [hjoined]
      obtain ⟨path', c', hup', -, -, hdurable, -⟩ := h.up (by omega)
      obtain rfl : path' = path := Option.some.inj (hup'.databasePath.symm.trans hup.databasePath)
      refine h.of_up hup (hup.recount (Nat.succ_pos _)) ?_ (fun handle hhandle => ?_)
        (fun loc => ?_)
        (fun _ hc => (mem_forgetGone hc).1) fun _ _ => rfl
      · show s.world.runtime.refCount + 1 = (s.handles ++ [path']).length
        rw [h.count, length_append]
        rfl
      · rcases mem_append.mp hhandle with hold | hnew
        · exact .inl hold
        · exact .inr (mem_singleton.mp hnew)
      · refine mem_append.trans ⟨fun hmem => ?_, .inr⟩
        rcases hmem with hnew | hold
        · exact hdurable loc (mem_newDatabase.mp hnew)
        · exact hold

/-! ### Runs -/

/-- **Step.** A call that opens apart keeps the invariant. -/
theorem sound_step {call : Call} (h : Sound databasePlace s) (hapart : Separate s call)
    (hstep : s.step build call = some s') : Sound databasePlace s' := by
  cases call with
  | openDatabase path i =>
    obtain rfl := Option.some.inj hstep
    exact h.open hapart.1 hapart.2
  | closeDatabase handle activeStatements edits =>
    rw [Application.step] at hstep
    split at hstep
    · next hhandle =>
      obtain rfl := Option.some.inj hstep
      exact h.close hhandle activeStatements edits
    · cases hstep
  | serverWork edits =>
    obtain rfl := Option.some.inj hstep
    exact h.serve edits

theorem openImpl_live_files (build : Build) (i : OpenInput) (h : Sound databasePlace s)
    (hplain : Plain s path) (hpos : 0 < s.world.runtime.refCount) :
    (openImpl build i path s).2.world.fs = s.world.fs ∧
      0 < (openImpl build i path s).2.world.runtime.refCount := by
  obtain ⟨code, hsame | ⟨-, hjoined⟩⟩ := openImpl_live build i h hplain hpos
  · rw [hsame]
    exact ⟨rfl, hpos⟩
  · rw [hjoined]
    exact ⟨rfl, Nat.succ_pos _⟩

/-- What a call has done to the files of the runtime. -/
theorem obeys_step {call : Call} (h : Sound databasePlace s) (hapart : Separate s call)
    (hstep : s.step build call = some s') : Obeys call s s' := by
  cases call with
  | openDatabase path i =>
    obtain rfl := Option.some.inj hstep
    refine ⟨fun loc hactive hzero => ?_, fun _ _ _ loc hactive l _ => ?_⟩
    · have hpos := (openImpl_live_files build i h hapart.2 hactive.1).2
      have hcount : (openImpl build i path s).2.world.runtime.refCount = 0 := hzero
      omega
    · show (openImpl build i path s).2.world.fs.lookup l = s.world.fs.lookup l
      rw [(openImpl_live_files build i h hapart.2 hactive.1).1]
  | closeDatabase handle activeStatements edits =>
    rw [Application.step] at hstep
    split at hstep
    · obtain rfl := Option.some.inj hstep
      exact ⟨fun loc hactive hzero => closeImpl_emptied h hactive hzero, nofun⟩
    · cases hstep
  | serverWork edits =>
    obtain rfl := Option.some.inj hstep
    exact ⟨fun loc hactive hzero => absurd hzero (Nat.ne_of_gt hactive.1), nofun⟩

end Opens

theorem sound_init (fs : Files) : Sound place (Application.mk { fs := fs } [] [] []) where
  count := rfl
  settled := fun _ => rfl
  layout := nofun
  run := nofun
  idle := fun _ => rfl
  up := fun hpos => absurd hpos (Nat.lt_irrefl 0)

end Sound

/-- **Run.** The invariant holds behind any calls that open apart. -/
theorem sound_of_run {build : Build} {fs : Files} {calls : List Call} {s : Application Text}
    (hrun : Run (Restrict Separate (ofOption (Application.step build)))
      (.mk { fs := fs } [] [] []) calls s) : Sound databasePlace s :=
  hrun.invariant (Sound databasePlace) (sound_init fs) fun h hstep => sound_step h hstep.1 hstep.2

/-- Two handles of a new database, work in its `tmp/`, and `:memory:` behind it. -/
def mixedCalls : List Call :=
  [.openDatabase (ascii "/db") { flags := openCreate }, .openDatabase (ascii "/db") {},
    .serverWork [(1, .file [ascii "t"] [])], .closeDatabase 0 false [], .closeDatabase 0 false [],
    .openDatabase memoryDatabasePath { root := [ascii "scratch"] }, .openDatabase (ascii "/db") {},
    .closeDatabase 0 false []]

/-- A database and another one in its `tmp/` are made and closed, and the outer one is opened and
    closed again. -/
def nestedCalls : List Call :=
  [.openDatabase (ascii "/db") { flags := openCreate }, .closeDatabase 0 false [],
    .openDatabase (ascii "/db/tmp") { flags := openCreate }, .closeDatabase 0 false [],
    .openDatabase (ascii "/db") {}, .closeDatabase 0 false []]

end MyLite.Directory
