import Mathlib.Algebra.Group.Nat.Defs
import Mathlib.Logic.Function.Basic
import Mathlib.Tactic.SplitIfs
import MyLite.Lib.Run

namespace MyLite.Runtime

open MyLite.Lib

/-!
# The embedded runtime of one process

`mylite_open` and `mylite_close` of `database.cc` as steps on the process-wide `g_runtime`.
Any number of callers run them at the same time.  A caller opens a handle and closes it later;
between two of its steps any other caller may move.  What is done under `g_runtime.mutex` is
still split into its operations, since other processes see those one by one.

* `Pc` — where a caller is; a constructor is named after what has just been done.
* `Process.step` — one operation of one caller.  Whether the operation succeeds, where it can
  fail, is part of the input.
* `Action` — what the operation does to the files of a database directory.

A path is any value; `directory` says which database directory it names, and is `none` at
`:memory:`, which has no lock file and a private scratch directory.
-/

variable {ι Path Dir : Type*}

/-! ### State -/

/-- The range of `unsigned`. -/
def unsignedRange : ℕ := 2 ^ 32

/-- `RuntimeState` without its mutex.  The clean-up directories and the server arguments are
    named by the database path they are made from; an empty string or vector and the descriptor
    `-1` are `none`.  `ref_count` is an `unsigned`. -/
structure RuntimeState (Path Dir : Type*) where
  refCount : ℕ
  databasePath : Option Path
  arguments : Option Path
  cleanupDirectory : Option Path
  persistentTmpDirectory : Option Path
  lockFd : Option Dir
  deriving DecidableEq

/-- `g_runtime` as the process starts. -/
def RuntimeState.initial : RuntimeState Path Dir := ⟨0, none, none, none, none, none⟩

/-- The fields `start_runtime` fills from the layout of `path`. -/
def RuntimeState.assign (directory : Path → Option Dir) (path : Path)
    (r : RuntimeState Path Dir) : RuntimeState Path Dir :=
  { r with
    databasePath := some path
    arguments := some path
    cleanupDirectory := some path
    persistentTmpDirectory := (directory path).map fun _ => path }

/-- The same fields cleared, on every way out of the runtime. -/
def RuntimeState.clear (r : RuntimeState Path Dir) : RuntimeState Path Dir :=
  { r with
    databasePath := none
    arguments := none
    cleanupDirectory := none
    persistentTmpDirectory := none }

/-- Where a caller is.  A descriptor the caller has opened and not yet stored is carried along. -/
inductive Pc (Path Dir : Type*)
  /-- Outside the library, with no handle. -/
  | idle
  /-- `validate_runtime_database_path` has passed. -/
  | validated (path : Path)
  /-- `prepare_database_directory` has passed. -/
  | prepared (path : Path)
  /-- In `start_runtime`, with the mutex. -/
  | starting (path : Path)
  /-- The database lock is taken, where there is one. -/
  | locked (path : Path) (fd : Option Dir)
  /-- The layout is made and its fields are assigned; `mysql_server_init` is next. -/
  | assigned (path : Path) (fd : Option Dir)
  /-- `mysql_server_init` has succeeded. -/
  | initialized (path : Path) (fd : Option Dir)
  /-- `mysql_server_init` has failed. -/
  | initFailed (path : Path) (fd : Option Dir)
  /-- The fields are cleared behind a failed init. -/
  | cleared (path : Path) (fd : Option Dir)
  /-- Nothing but the lock is left to give back. -/
  | undone (path : Path) (fd : Option Dir)
  /-- `start_runtime` has passed. -/
  | started (path : Path)
  /-- `connect_runtime` has passed. -/
  | connected (path : Path)
  /-- `mylite_open` has returned the handle. -/
  | opened (path : Path)
  /-- The connection is closed; `release_runtime` is next. -/
  | disconnected (path : Path)
  /-- In `release_runtime`, with the mutex. -/
  | releasing (path : Path)
  /-- The last reference is gone; `mysql_server_end` is next. -/
  | lastReleased (path : Path)
  /-- `mysql_server_end` has returned. -/
  | ended (path : Path)
  /-- `cleanup_directory` is removed. -/
  | runRemoved (path : Path)
  /-- `persistent_tmp_directory` is emptied. -/
  | tmpCleared (path : Path)
  /-- The database lock is released. -/
  | unlocked (path : Path)
  deriving DecidableEq

/-- One process: `g_runtime` and its mutex, its callers, and the embedded server with the number
    of its successful starts and of its ends. -/
structure Process (ι Path Dir : Type*) where
  runtime : RuntimeState Path Dir
  mutex : Option ι
  pc : ι → Pc Path Dir
  server : Bool
  inits : ℕ
  ends : ℕ

/-- A process before its first `mylite_open`. -/
def Process.initial : Process ι Path Dir := ⟨.initial, none, fun _ => .idle, false, 0, 0⟩

/-- What an operation does to the files of a database directory. -/
inductive Action (Dir : Type*)
  /-- Nothing that another process could see. -/
  | silent
  /-- `flock` with `LOCK_EX`, successfully. -/
  | lock (dir : Dir)
  /-- `flock` with `LOCK_UN` and `close`. -/
  | unlock (dir : Dir)
  /-- `remove_directory_if_present` on `run/`. -/
  | removeRun (dir : Dir)
  /-- `remove_directory_contents_if_present` on `tmp/`. -/
  | clearTmp (dir : Dir)
  deriving DecidableEq

/-- An action on a directory, if there is one. -/
def Action.on (act : Dir → Action Dir) : Option Dir → Action Dir
  | none => .silent
  | some dir => act dir

/-- Which caller moves, the path it opens if it starts an open, and whether the operation
    succeeds. -/
structure Move (ι Path : Type*) where
  caller : ι
  path : Path
  ok : Bool

/-- The places behind an operation, for the path that an open would be given and whether the
    operation succeeds. -/
def Pc.LeadsTo (path : Path) (ok : Bool) : Pc Path Dir → Pc Path Dir → Prop
  | .idle, next => next = .idle ∨ next = .validated path
  | .validated p, next => next = if ok then .prepared p else .idle
  | .prepared p, next => next = .starting p
  | .starting p, next => next = .idle ∨ next = .started p ∨ ∃ fd, next = .locked p fd
  | .locked p fd, next => next = .assigned p fd ∨ next = .undone p fd
  | .assigned p fd, next => next = .initialized p fd ∨ next = .initFailed p fd
  | .initialized p _, next => next = .started p
  | .initFailed p fd, next => next = .cleared p fd
  | .cleared p fd, next => next = .undone p fd
  | .undone .., next => next = .idle
  | .started p, next => next = if ok then .connected p else .disconnected p
  | .connected p, next => next = if ok then .opened p else .disconnected p
  | .opened p, next => next = if ok then .disconnected p else .opened p
  | .disconnected p, next => next = .releasing p
  | .releasing p, next => next = .idle ∨ next = .lastReleased p
  | .lastReleased p, next => next = .ended p
  | .ended p, next => next = .runRemoved p
  | .runRemoved p, next => next = .tmpCleared p
  | .tmpCleared p, next => next = .unlocked p
  | .unlocked _, next => next = .idle

/-! ### Steps -/

namespace Process

section

variable [DecidableEq ι] [DecidableEq Path] (directory : Path → Option Dir)
  (s : Process ι Path Dir)

variable (caller : ι)

/-- The caller goes on. -/
def goto (pc : Pc Path Dir) : Process ι Path Dir :=
  { s with pc := Function.update s.pc caller pc }

/-- The caller enters a function that takes the mutex. -/
def acquire (pc : Pc Path Dir) : Option (Action Dir × Process ι Path Dir) :=
  if s.mutex.isSome then none
  else some (.silent, { s with mutex := some caller }.goto caller pc)

/-- The caller leaves that function. -/
def leave (pc : Pc Path Dir) : Process ι Path Dir :=
  { s with mutex := none }.goto caller pc

variable (path : Path) (fd : Option Dir) (ok : Bool)

/-- `validate_runtime_database_path`: the check is made under the mutex and changes nothing. -/
def validateRuntimeDatabasePath : Option (Action Dir × Process ι Path Dir) :=
  if s.mutex.isSome then none
  else if 0 < s.runtime.refCount ∧ s.runtime.databasePath ≠ some path then some (.silent, s)
  else some (.silent, s.goto caller (.validated path))

/-- The head of `start_runtime`, up to the database lock. -/
def enterRuntime (ok : Bool) : Action Dir × Process ι Path Dir :=
  if 0 < s.runtime.refCount then
    if s.runtime.databasePath ≠ some path then (.silent, s.leave caller .idle)
    else
      let refCount := (s.runtime.refCount + 1) % unsignedRange
      (.silent, { s with runtime.refCount := refCount }.leave caller (.started path))
  else
    match directory path, ok with
    | none, _ => (.silent, s.goto caller (.locked path none))
    | some _, false => (.silent, s.leave caller .idle)
    | some dir, true => (.lock dir, s.goto caller (.locked path (some dir)))

/-- `create_runtime_layout`, which removes an old `run/` first, and the assignments behind it; an
    exception clears the fields and leaves the lock to be released. -/
def createRuntimeLayout : Process ι Path Dir :=
  if ok then { s with runtime := s.runtime.assign directory path }.goto caller (.assigned path fd)
  else { s with runtime := s.runtime.clear }.goto caller (.undone path fd)

/-- `mysql_server_init`. -/
def mysqlServerInit : Process ι Path Dir :=
  if ok then
    { s with server := true, inits := s.inits + 1 }.goto caller (.initialized path fd)
  else s.goto caller (.initFailed path fd)

/-- The count in `release_runtime`. -/
def dropReference : Process ι Path Dir :=
  if s.runtime.refCount = 0 then s.leave caller .idle
  else if 0 < s.runtime.refCount - 1 then
    { s with runtime.refCount := s.runtime.refCount - 1 }.leave caller .idle
  else
    { s with runtime.refCount := s.runtime.refCount - 1 }.goto caller (.lastReleased path)

/-- One operation of one caller; `none` while the caller waits for the mutex. -/
def step (m : Move ι Path) : Option (Action Dir × Process ι Path Dir) :=
  match s.pc m.caller with
  | .idle => s.validateRuntimeDatabasePath m.caller m.path
  | .validated path => some (.silent, s.goto m.caller (if m.ok then .prepared path else .idle))
  | .prepared path => s.acquire m.caller (.starting path)
  | .starting path => some (s.enterRuntime directory m.caller path m.ok)
  | .locked path fd => some (Action.on .removeRun (directory path),
      s.createRuntimeLayout directory m.caller path fd m.ok)
  | .assigned path fd => some (.silent, s.mysqlServerInit m.caller path fd m.ok)
  | .initialized path fd => some (.silent,
      { s with runtime.refCount := 1, runtime.lockFd := fd }.leave m.caller (.started path))
  | .initFailed path fd => some (.silent,
      { s with runtime := s.runtime.clear }.goto m.caller (.cleared path fd))
  | .cleared path fd => some (Action.on .removeRun (directory path),
      s.goto m.caller (.undone path fd))
  | .undone _ fd => some (Action.on .unlock fd, s.leave m.caller .idle)
  | .started path => some (.silent,
      s.goto m.caller (if m.ok then .connected path else .disconnected path))
  | .connected path => some (.silent,
      s.goto m.caller (if m.ok then .opened path else .disconnected path))
  -- mylite_close: with active statements it answers MYLITE_BUSY and does nothing
  | .opened path => some (.silent,
      s.goto m.caller (if m.ok then .disconnected path else .opened path))
  | .disconnected path => s.acquire m.caller (.releasing path)
  | .releasing path => some (.silent, s.dropReference m.caller path)
  | .lastReleased path => some (.silent,
      { s with server := false, ends := s.ends + 1 }.goto m.caller (.ended path))
  | .ended path => some (Action.on .removeRun (s.runtime.cleanupDirectory.bind directory),
      s.goto m.caller (.runRemoved path))
  | .runRemoved path => some (Action.on .clearTmp (s.runtime.persistentTmpDirectory.bind directory),
      s.goto m.caller (.tmpCleared path))
  | .tmpCleared path => some (Action.on .unlock s.runtime.lockFd,
      { s with runtime.lockFd := none }.goto m.caller (.unlocked path))
  | .unlocked _ => some (.silent, { s with runtime := s.runtime.clear }.leave m.caller .idle)

/-- The operation without what other processes see of it. -/
def next (m : Move ι Path) : Option (Process ι Path Dir) := (s.step directory m).map Prod.snd

variable {directory s} in
theorem next_eq_some {s' : Process ι Path Dir} {m : Move ι Path} :
    s.next directory m = some s' ↔ ∃ a, s.step directory m = some (a, s') := by
  rw [next, Option.map_eq_some_iff]
  constructor
  · rintro ⟨⟨a, t⟩, hstep, rfl⟩
    exact ⟨a, hstep⟩
  · rintro ⟨a, hstep⟩
    exact ⟨(a, s'), hstep, rfl⟩

variable {directory s caller path fd ok} {s' : Process ι Path Dir} {a : Action Dir}

omit [DecidableEq Path] in
theorem acquire_pc {pc : Pc Path Dir} (h : s.acquire caller pc = some (a, s')) :
    s'.pc = Function.update s.pc caller pc := by
  unfold acquire at h
  split_ifs at h
  cases h
  rfl

theorem validateRuntimeDatabasePath_pc
    (h : s.validateRuntimeDatabasePath caller path = some (a, s')) :
    s'.pc = s.pc ∨ s'.pc = Function.update s.pc caller (.validated path) := by
  unfold validateRuntimeDatabasePath at h
  split_ifs at h <;> cases h
  · exact .inl rfl
  · exact .inr rfl

theorem enterRuntime_pc : ∃ pc, (s.enterRuntime directory caller path ok).2.pc =
    Function.update s.pc caller pc ∧
      (pc = .idle ∨ pc = .started path ∨ ∃ fd, pc = .locked path fd) := by
  unfold enterRuntime
  split_ifs
  · exact ⟨_, rfl, .inl rfl⟩
  · exact ⟨_, rfl, .inr (.inl rfl)⟩
  · split
    · exact ⟨_, rfl, .inr (.inr ⟨_, rfl⟩)⟩
    · exact ⟨_, rfl, .inl rfl⟩
    · exact ⟨_, rfl, .inr (.inr ⟨_, rfl⟩)⟩

omit [DecidableEq Path] in
theorem createRuntimeLayout_pc : ∃ pc, (s.createRuntimeLayout directory caller path fd ok).pc =
    Function.update s.pc caller pc ∧ (pc = .assigned path fd ∨ pc = .undone path fd) := by
  unfold createRuntimeLayout
  split_ifs
  · exact ⟨_, rfl, .inl rfl⟩
  · exact ⟨_, rfl, .inr rfl⟩

omit [DecidableEq Path] in
theorem mysqlServerInit_pc : ∃ pc, (s.mysqlServerInit caller path fd ok).pc =
    Function.update s.pc caller pc ∧ (pc = .initialized path fd ∨ pc = .initFailed path fd) := by
  unfold mysqlServerInit
  split_ifs
  · exact ⟨_, rfl, .inl rfl⟩
  · exact ⟨_, rfl, .inr rfl⟩

omit [DecidableEq Path] in
theorem dropReference_pc : ∃ pc, (s.dropReference caller path).pc =
    Function.update s.pc caller pc ∧ (pc = .idle ∨ pc = .lastReleased path) := by
  unfold dropReference
  split_ifs
  · exact ⟨_, rfl, .inl rfl⟩
  · exact ⟨_, rfl, .inl rfl⟩
  · exact ⟨_, rfl, .inr rfl⟩

/-- An operation takes its caller to a place that follows, and no other caller anywhere. -/
theorem pc_step {m : Move ι Path} (hstep : s.step directory m = some (a, s')) :
    ∃ pc, s'.pc = Function.update s.pc m.caller pc ∧ (s.pc m.caller).LeadsTo m.path m.ok pc := by
  unfold step at hstep
  generalize hpc : s.pc m.caller = pc at hstep ⊢
  cases pc with
  | idle =>
    rcases validateRuntimeDatabasePath_pc hstep with h | h
    · exact ⟨.idle, by rw [h, ← hpc, Function.update_eq_self], .inl rfl⟩
    · exact ⟨_, h, .inr rfl⟩
  | prepared | disconnected =>
    exact ⟨_, acquire_pc hstep, rfl⟩
  | starting =>
    obtain rfl := congrArg Prod.snd (Option.some.inj hstep)
    exact enterRuntime_pc
  | locked =>
    obtain rfl := congrArg Prod.snd (Option.some.inj hstep)
    exact createRuntimeLayout_pc
  | assigned =>
    obtain rfl := congrArg Prod.snd (Option.some.inj hstep)
    exact mysqlServerInit_pc
  | releasing =>
    obtain rfl := congrArg Prod.snd (Option.some.inj hstep)
    exact dropReference_pc
  | validated | initialized | initFailed | cleared | undone | started | connected | opened
  | lastReleased | ended | runRemoved | tmpCleared | unlocked =>
    cases hstep
    exact ⟨_, rfl, rfl⟩

theorem pc_of_ne {m : Move ι Path} (hstep : s.step directory m = some (a, s')) {other : ι}
    (hne : other ≠ m.caller) : s'.pc other = s.pc other := by
  obtain ⟨pc, hpc, -⟩ := pc_step hstep
  rw [hpc, Function.update_of_ne hne]

/-- The caller's own place. -/
theorem leadsTo_step {m : Move ι Path} (hstep : s.step directory m = some (a, s')) :
    (s.pc m.caller).LeadsTo m.path m.ok (s'.pc m.caller) := by
  obtain ⟨pc, hpc, hleads⟩ := pc_step hstep
  rwa [hpc, Function.update_self]

end

end Process

end MyLite.Runtime
