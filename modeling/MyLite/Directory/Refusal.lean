import MyLite.Directory.Creation
import MyLite.Runtime.References

namespace MyLite.Directory

open MyLite.Api MyLite.Lib MyLite.Runtime MyLite.Sql Function

/-!
# An open that is refused

`open_impl` asks twice whether `g_runtime` belongs to another path, in
`validate_runtime_database_path` and in `start_runtime`.  The mutex is free in between, while
`prepare_database_directory` works: an open that has created its directory can still be refused.

* `OpenWorld.step` — one operation of one thread: those of `Process.step`, with
  `prepare_database_directory` cut at its file-system calls.
* `OpenWorld.KeepsApart` — while an open that has written is between the two tests, `g_runtime`
  belongs to nobody else.
* `calls_of_refusal` — in a run of such steps a refused open has changed nothing.
-/

/-! ### Opens and their calls -/

/-- The next call creates or writes something. -/
def Stage.writes : Stage → Bool
  | .making _ (_ :: _) | .writing | .truncated | .prepared => true
  | _ => false

theorem turn_fs_of_not_writes {loc : Location Text} {flags : UInt32} {fs : Files} {stage : Stage}
    (h : stage.writes = false) : (turn loc flags fs false stage).fs = fs := by
  match stage with
  | .regular =>
    dsimp only [turn]
    split
    · split_ifs <;> rfl
    · rfl
  | .creating _ | .climbing _ _ _ =>
    dsimp only [turn]
    split <;> rfl
  | .making _ [] | .lockOpened | .locked | .opened => rfl
  | .idle | .found | .directory | .withoutMetadata | .withMetadata | .checking _ | .checked _
  | .laidOut | .adopting =>
    dsimp only [turn]
    split_ifs <;> rfl
  | .making _ (_ :: _) | .writing | .truncated | .prepared => cases h

/-- A call of `prepare_database_directory`: what it is made with, and the files in front of it. -/
structure FileCall where
  loc : Location Text
  flags : UInt32
  stage : Stage
  before : Files

/-- What the call does. -/
def FileCall.turn (call : FileCall) : Turn :=
  Directory.turn call.loc call.flags call.before false call.stage

/-- The files behind the call. -/
def FileCall.after (call : FileCall) : Files := call.turn.fs

/-- An open: its flags, its next call, and the calls it has made, the last one first. -/
structure Attempt where
  flags : UInt32
  stage : Stage
  calls : List FileCall

/-- One of the calls was to create or write something. -/
def Attempt.wrote (a : Attempt) : Bool := a.calls.any fun call => call.stage.writes

/-- An open that has not written has changed nothing. -/
theorem Attempt.after_of_not_wrote {a : Attempt} (h : a.wrote ≠ true) :
    ∀ call ∈ a.calls, call.after = call.before := by
  intro call hcall
  refine turn_fs_of_not_writes (Bool.eq_false_iff.mpr fun hwrites => h ?_)
  exact List.any_eq_true.mpr ⟨call, hcall, hwrites⟩

variable {ι Path Dir : Type*}

/-- The path of an open between the two tests. -/
def opening : Pc Path Dir → Option Path
  | .validated path | .prepared path | .starting path => some path
  | _ => none

/-- `prepare_database_directory` is at work. -/
def preparing : Pc Path Dir → Option Path
  | .validated path => some path
  | _ => none

/-- `g_runtime` belongs to the path next. -/
def takingOver : Pc Path Dir → Option Path
  | .initialized path _ => some path
  | _ => none

/-- `g_runtime` belongs to another path. -/
def IsForeign (r : RuntimeState Path Dir) (path : Path) : Prop :=
  0 < r.refCount ∧ r.databasePath ≠ some path

instance [DecidableEq Path] (r : RuntimeState Path Dir) (path : Path) :
    Decidable (IsForeign r path) :=
  inferInstanceAs (Decidable (_ ∧ _))

/-- The process, the files, the open each thread is in, and the opens that have been refused, each
    with its path and its calls. -/
structure OpenWorld (ι Path : Type*) where
  process : Process ι Path (Location Text)
  fs : Files
  attempt : ι → Attempt
  refusals : List (Path × List FileCall)

/-- What a thread does next; `flags` are those of an open that starts, and `serve` is what else
    the operation, and the server, do to the files. -/
structure OpenMove (ι Path : Type*) where
  move : Move ι Path
  flags : UInt32
  serve : Files → Files

namespace OpenWorld

/-- No thread has opened anything. -/
def initial (fs : Files) : OpenWorld ι Path := ⟨.initial, fs, fun _ => ⟨0, .idle, []⟩, []⟩

section Step

variable [DecidableEq ι] [DecidableEq Path] (directory : Path → Option (Location Text))
  (w : OpenWorld ι Path)

/-- The next call of `prepare_database_directory`, and its return behind the last one. -/
def prepareDatabaseDirectory (caller : ι) (path : Path) (loc : Location Text) :
    OpenWorld ι Path :=
  let a := w.attempt caller
  let call : FileCall := ⟨loc, a.flags, a.stage, w.fs⟩
  { w with
    process := match call.turn.code, call.turn.stage with
      | some _, _ => w.process.goto caller .idle
      | none, .prepared => w.process.goto caller (.prepared path)
      | none, _ => w.process
    fs := call.after
    attempt := update w.attempt caller ⟨a.flags, call.turn.stage, call :: a.calls⟩ }

/-- One operation of one thread; `none` while it waits for the mutex. -/
def step (i : OpenMove ι Path) : Option (OpenWorld ι Path) :=
  match w.process.pc i.move.caller with
  | .idle => (w.process.next directory i.move).map fun process =>
    { w with
      process
      attempt := update w.attempt i.move.caller ⟨i.flags, .idle, []⟩
      refusals := if IsForeign w.process.runtime i.move.path then (i.move.path, []) :: w.refusals
        else w.refusals }
  | .validated path =>
    match directory path with
    | none => some { w with process := w.process.goto i.move.caller (.prepared path) }
    | some loc => some (w.prepareDatabaseDirectory i.move.caller path loc)
  | .starting path => (w.process.next directory i.move).map fun process =>
    if IsForeign w.process.runtime path then
      { w with process, refusals := (path, (w.attempt i.move.caller).calls) :: w.refusals }
    else { w with process, fs := i.serve w.fs }
  | _ => (w.process.next directory i.move).map fun process =>
    { w with process, fs := i.serve w.fs }

/-- An open creates and writes only while `g_runtime` does not belong to another path, and
    `g_runtime` comes to belong to a path only while no open of another one has written. -/
def KeepsApart (i : OpenMove ι Path) : Prop :=
  (∀ path ∈ preparing (w.process.pc i.move.caller),
    (w.attempt i.move.caller).stage.writes = true → ¬IsForeign w.process.runtime path) ∧
  ∀ path ∈ takingOver (w.process.pc i.move.caller), ∀ other,
    ∀ q ∈ opening (w.process.pc other), (w.attempt other).wrote = true → q = path

end Step

end OpenWorld

/-! ### One operation -/

/-- An open comes between the two tests by the first one. -/
theorem opening_of_leadsTo {pc next : Pc Path Dir} {path q : Path} {ok : Bool}
    (hleads : pc.LeadsTo q ok next) (h : opening next = some path) :
    pc = .idle ∨ opening pc = some path := by
  cases pc with
  | idle => exact .inl rfl
  | validated =>
    obtain rfl : next = _ := hleads
    cases ok with
    | true => exact .inr h
    | false => cases h
  | prepared =>
    obtain rfl : next = _ := hleads
    exact .inr h
  | starting => rcases hleads with rfl | rfl | ⟨fd, rfl⟩ <;> cases h
  | locked | assigned | releasing => rcases hleads with rfl | rfl <;> cases h
  | started | connected | opened =>
    obtain rfl : next = _ := hleads
    cases ok <;> cases h
  | initialized | initFailed | cleared | undone | disconnected | lastReleased | ended
  | runRemoved | tmpCleared | unlocked =>
    obtain rfl : next = _ := hleads
    cases h

section Process

variable {directory : Path → Option Dir} {s s' : Process ι Path Dir}
  {m : Move ι Path} {a : Action Dir} [DecidableEq ι] [DecidableEq Path]

/-- `g_runtime` comes to belong to a path behind `mysql_server_init`. -/
theorem isForeign_of_step [Fintype ι] (hs : s.Invariant directory)
    (hstep : s.step directory m = some (a, s')) {path : Path} (h : IsForeign s'.runtime path) :
    IsForeign s.runtime path ∨ ∃ q fd, s.pc m.caller = .initialized q fd ∧ q ≠ path := by
  have hmutex := (hs.mutex_iff m.caller).mp
  have hphase := hs.phase m.caller
  have hfree {r : RuntimeState Path Dir} (hr : s.runtime = r) (hzero : r.refCount = 0) :
      ¬0 < s.runtime.refCount := by
    rw [hr, hzero]
    exact Nat.lt_irrefl 0
  unfold Process.step at hstep
  cases hpc : s.pc m.caller with
  | idle =>
    simp only [hpc, Process.validateRuntimeDatabasePath] at hstep
    split_ifs at hstep <;> cases hstep <;> exact .inl h
  | prepared _ | disconnected _ =>
    simp only [hpc, Process.acquire] at hstep
    split_ifs at hstep
    cases hstep
    exact .inl h
  | starting q =>
    simp only [hpc, Process.enterRuntime] at hstep
    split_ifs at hstep with hcount hpath
    · cases hstep
      exact .inl h
    · cases hstep
      exact .inl ⟨hcount, h.2⟩
    · split at hstep <;> cases hstep <;> exact .inl h
  | locked q fd =>
    simp only [hpc] at hstep hmutex hphase
    cases hstep
    unfold Process.createRuntimeLayout at h
    split_ifs at h <;> exact absurd h.1 (hfree (hphase (hmutex rfl)).2.1 rfl)
  | assigned q fd =>
    simp only [hpc, Process.mysqlServerInit] at hstep
    cases hstep
    split_ifs at h <;> exact .inl h
  | initialized q fd =>
    simp only [hpc] at hstep hmutex hphase
    cases hstep
    refine .inr ⟨q, fd, rfl, fun heq => h.2 ?_⟩
    show s.runtime.databasePath = some path
    rw [(hphase (hmutex rfl)).2.1, ← heq]
    rfl
  | initFailed q fd =>
    simp only [hpc] at hstep hmutex hphase
    cases hstep
    exact absurd h.1 (hfree (hphase (hmutex rfl)).2.1 rfl)
  | unlocked q =>
    simp only [hpc] at hstep hmutex hphase
    cases hstep
    exact absurd h.1 (hfree (hphase (hmutex rfl)).1 rfl)
  | releasing q =>
    simp only [hpc, Process.dropReference] at hstep
    cases hstep
    split_ifs at h with hzero hmore
    · exact .inl h
    · exact .inl ⟨Nat.pos_of_ne_zero hzero, h.2⟩
    · exact absurd h.1 hmore
  | _ =>
    simp only [hpc] at hstep
    cases hstep
    exact .inl h

end Process

namespace OpenWorld

/-- The invariant: an open that has written and is between the two tests finds `g_runtime` its own
    or free. -/
structure Sound [Fintype ι] (directory : Path → Option (Location Text)) (w : OpenWorld ι Path) :
    Prop where
  process : w.process.Invariant directory
  own : ∀ caller, ∀ path ∈ opening (w.process.pc caller), (w.attempt caller).wrote = true →
    ¬IsForeign w.process.runtime path
  refusals : ∀ r ∈ w.refusals, ∀ call ∈ r.2, call.after = call.before

namespace Sound

variable [Fintype ι] {directory : Path → Option (Location Text)} {w w' : OpenWorld ι Path}

theorem init (hfew : Fintype.card ι < unsignedRange) (fs : Files) :
    (initial fs : OpenWorld ι Path).Sound directory where
  process := Process.invariant_initial hfew
  own _ := nofun
  refusals _ h := (nomatch h)

variable [DecidableEq ι] {i : OpenMove ι Path} {path : Path}
  {process : Process ι Path (Location Text)} {a : Action (Location Text)}

/-- A call of `prepare_database_directory`, wherever the open goes on. -/
theorem call (h : w.Sound directory) (hguard : w.KeepsApart i)
    (hpc : w.process.pc i.move.caller = .validated path) {v : Pc Path (Location Text)}
    (hv : v = .idle ∨ v = .prepared path ∨ v = .validated path)
    (hprocess : process = w.process.goto i.move.caller v) {call : FileCall}
    (hcall : call.stage = (w.attempt i.move.caller).stage) (flags : UInt32) (stage : Stage) :
    Sound directory { w with
      process
      fs := call.after
      attempt := update w.attempt i.move.caller
        ⟨flags, stage, call :: (w.attempt i.move.caller).calls⟩ } := by
  subst hprocess
  refine ⟨h.process.outside (by rw [hpc]; rfl) ?_ ?_, fun caller q hq hwrote => ?_, h.refusals⟩
  · rcases hv with rfl | rfl | rfl <;> rfl
  · rcases hv with rfl | rfl | rfl <;> rw [hpc] <;> rfl
  · by_cases heq : caller = i.move.caller
    · subst heq
      simp only [Process.goto, update_self] at hq hwrote
      obtain rfl : path = q := by
        rcases hv with rfl | rfl | rfl
        · cases hq
        all_goals exact Option.some.inj hq
      rcases Bool.or_eq_true_iff.mp hwrote with hnow | hbefore
      · exact hguard.1 path (by rw [hpc]; rfl) (hcall ▸ hnow)
      · exact h.own i.move.caller path (by rw [hpc]; rfl) hbefore
    · simp only [Process.goto, update_of_ne heq] at hq hwrote
      exact h.own caller q hq hwrote

theorem prepareDatabaseDirectory (h : w.Sound directory) (hguard : w.KeepsApart i)
    (hpc : w.process.pc i.move.caller = .validated path) (loc : Location Text) :
    (w.prepareDatabaseDirectory i.move.caller path loc).Sound directory := by
  unfold OpenWorld.prepareDatabaseDirectory
  dsimp only
  split
  · exact h.call hguard hpc (.inl rfl) rfl rfl _ _
  · exact h.call hguard hpc (.inr (.inl rfl)) rfl rfl _ _
  · refine h.call hguard hpc (.inr (.inr rfl)) ?_ rfl _ _
    rw [Process.goto, ← hpc, update_eq_self]

variable [DecidableEq Path]

/-- What an operation of `Process.step` leaves of an open that is under way. -/
theorem own_step (h : w.Sound directory) (hguard : w.KeepsApart i)
    (hstep : w.process.step directory i.move = some (a, process)) {caller : ι}
    (hcaller : caller = i.move.caller → w.process.pc caller ≠ .idle) :
    ∀ path ∈ opening (process.pc caller), (w.attempt caller).wrote = true →
      ¬IsForeign process.runtime path := by
  intro path hpath hwrote hforeign
  have hold : path ∈ opening (w.process.pc caller) := by
    by_cases heq : caller = i.move.caller
    · subst heq
      exact (opening_of_leadsTo (Process.leadsTo_step hstep) hpath).resolve_left (hcaller rfl)
    · rwa [Process.pc_of_ne hstep heq] at hpath
  rcases isForeign_of_step h.process hstep hforeign with hsame | ⟨q, fd, hpc, hne⟩
  · exact h.own caller path hold hwrote hsame
  · exact hne (hguard.2 q (by rw [hpc]; rfl) caller path hold hwrote).symm

/-- The first test starts an open. -/
theorem idle (h : w.Sound directory) (hguard : w.KeepsApart i)
    (hstep : w.process.step directory i.move = some (a, process)) :
    Sound directory { w with
      process
      attempt := update w.attempt i.move.caller ⟨i.flags, .idle, []⟩
      refusals := if IsForeign w.process.runtime i.move.path then (i.move.path, []) :: w.refusals
        else w.refusals } := by
  refine ⟨h.process.step hstep, fun caller path hpath hwrote => ?_, fun r hr => ?_⟩
  · by_cases heq : caller = i.move.caller
    · simp only [heq, update_self] at hwrote
      cases hwrote
    · simp only [update_of_ne heq] at hwrote
      exact h.own_step hguard hstep (fun h => absurd h heq) path hpath hwrote
  · dsimp only at hr
    split_ifs at hr
    · rcases List.mem_cons.mp hr with rfl | hold
      · exact nofun
      · exact h.refusals r hold
    · exact h.refusals r hr

/-- Any other operation of `Process.step`. -/
theorem other (h : w.Sound directory) (hguard : w.KeepsApart i)
    (hstep : w.process.step directory i.move = some (a, process))
    (hpc : w.process.pc i.move.caller ≠ .idle) (fs : Files) :
    Sound directory { w with process, fs } :=
  ⟨h.process.step hstep, fun _ => h.own_step hguard hstep fun heq => heq ▸ hpc, h.refusals⟩

/-- **Step lemma.** -/
theorem step (h : w.Sound directory) (hguard : w.KeepsApart i)
    (hstep : w.step directory i = some w') : w'.Sound directory := by
  unfold OpenWorld.step at hstep
  split at hstep
  · next hpc =>
    obtain ⟨process, hnext, rfl⟩ := Option.map_eq_some_iff.mp hstep
    obtain ⟨a, hprocess⟩ := Process.next_eq_some.mp hnext
    exact h.idle hguard hprocess
  · next path hpc =>
    split at hstep
    · cases hstep
      have hprepared : w.process.step directory { i.move with ok := true } =
          some (.silent, w.process.goto i.move.caller (.prepared path)) := by
        simp only [Process.step, hpc, if_true]
      exact h.other (i := { i with move.ok := true }) hguard hprepared (by simp [hpc]) w.fs
    · cases hstep
      exact h.prepareDatabaseDirectory hguard hpc _
  · next path hpc =>
    obtain ⟨process, hnext, rfl⟩ := Option.map_eq_some_iff.mp hstep
    obtain ⟨a, hprocess⟩ := Process.next_eq_some.mp hnext
    have hne : w.process.pc i.move.caller ≠ .idle := by simp [hpc]
    split_ifs with hforeign
    · -- the open that is refused has not written, so that its calls have changed nothing
      have hsound := h.other hguard hprocess hne w.fs
      refine ⟨hsound.process, hsound.own, fun r hr => ?_⟩
      rcases List.mem_cons.mp hr with rfl | hold
      · exact Attempt.after_of_not_wrote fun hwrote =>
          h.own i.move.caller path (by rw [hpc]; rfl) hwrote hforeign
      · exact h.refusals r hold
    · exact h.other hguard hprocess hne _
  · next hidle _ _ =>
    obtain ⟨process, hnext, rfl⟩ := Option.map_eq_some_iff.mp hstep
    obtain ⟨a, hprocess⟩ := Process.next_eq_some.mp hnext
    exact h.other hguard hprocess hidle _

end Sound

/-- **A refused open creates nothing.** In a run of fewer than `2 ^ 32` callers whose steps keep
    the opens apart, an open that is answered `MYLITE_BUSY` because `g_runtime` belongs to another
    path has made no call that changed a file or a directory. -/
theorem calls_of_refusal [Fintype ι] [DecidableEq ι] [DecidableEq Path]
    (hfew : Fintype.card ι < unsignedRange) {directory : Path → Option (Location Text)}
    {fs : Files} {inputs : List (OpenMove ι Path)} {w : OpenWorld ι Path}
    (h : Run (Restrict KeepsApart (ofOption (step directory))) (initial fs) inputs w) :
    ∀ r ∈ w.refusals, ∀ call ∈ r.2, call.after = call.before :=
  (h.invariant (Sound directory) (Sound.init hfew fs) fun hs hstep =>
    hs.step hstep.1 hstep.2).refusals

end OpenWorld

/-! ### Two threads -/

/-- The first path is a directory, the other one `:memory:`. -/
def twoPaths (path : Fin 2) : Option (Location Text) :=
  if path.val = 0 then some dbLocation else none

/-- The first thread opens the first path. -/
def firstMove : OpenMove (Fin 2) (Fin 2) :=
  ⟨⟨⟨0, Nat.zero_lt_two⟩, ⟨0, Nat.zero_lt_two⟩, true⟩, openCreate, id⟩

/-- The other thread opens the other one. -/
def secondMove : OpenMove (Fin 2) (Fin 2) :=
  ⟨⟨⟨1, Nat.one_lt_two⟩, ⟨1, Nat.one_lt_two⟩, true⟩, openCreate, id⟩

/-- The first thread creates its database, closes it and opens it again; it is overtaken by the
    other one before it has looked at the directory. -/
def reopened : List (OpenMove (Fin 2) (Fin 2)) :=
  List.replicate 33 firstMove ++ List.replicate 7 secondMove ++ List.replicate 11 firstMove

instance (w : OpenWorld (Fin 2) (Fin 2)) (i : OpenMove (Fin 2) (Fin 2)) :
    Decidable (w.KeepsApart i) :=
  inferInstanceAs (Decidable ((∀ path ∈ preparing _, _) ∧ ∀ path ∈ takingOver _, _))

/-- It is refused after nine calls that have changed nothing. -/
theorem calls_of_reopened : ∃ w : OpenWorld (Fin 2) (Fin 2),
    Run (Restrict OpenWorld.KeepsApart (ofOption (OpenWorld.step twoPaths)))
      (.initial FileSystem.empty) reopened w ∧
    w.refusals.map (fun r => (r.1, r.2.length)) = [(0, 9)] ∧
    ∀ r ∈ w.refusals, ∀ call ∈ r.2, call.after = call.before := by
  have hrun : Run (Restrict OpenWorld.KeepsApart (ofOption (OpenWorld.step twoPaths)))
      (.initial FileSystem.empty) reopened _ := run_restrict_of_foldlM _ _ rfl
  exact ⟨_, hrun, rfl, OpenWorld.calls_of_refusal (by decide) hrun⟩

/-- The first thread is overtaken when it has made its directory. -/
def overtaken : List (OpenMove (Fin 2) (Fin 2)) :=
  List.replicate 17 firstMove ++ List.replicate 7 secondMove ++ List.replicate 2 firstMove

/-- It is refused, and has created the directory at its path. -/
theorem created_of_overtaken : ∃ (w : OpenWorld (Fin 2) (Fin 2)) (calls : List FileCall),
    Run (ofOption (OpenWorld.step twoPaths)) (.initial FileSystem.empty) overtaken w ∧
    w.refusals = [(0, calls)] ∧ ∃ call ∈ calls,
      call.before.lookup dbLocation = none ∧ call.after.lookup dbLocation = some .directory :=
  ⟨_, _, run_of_foldlM _ rfl, rfl, _, List.mem_of_getElem? (i := 12) rfl, rfl, rfl⟩

end MyLite.Directory
