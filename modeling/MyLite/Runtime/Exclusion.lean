import MyLite.Lib.LockTable
import MyLite.Runtime.References

namespace MyLite.Runtime

open MyLite.Lib Function

/-!
# Exclusion between processes

Any number of processes, each with its own `g_runtime`, share the database directories.  A
process that starts a runtime first takes the `flock` of the directory, and keeps it until the
files are cleaned up; a process that dies loses it.  The descriptor a process has open on a lock
file is in `g_runtime.lock_fd` or still in a local variable of `start_runtime`; the lock table is
shown to agree with it, and every place between the start of a server and the end of the clean-up
to have it.

* `Process.descriptor`, `Invariant.descriptor_step` — the descriptor and what an operation does
  to it.
* `World` — the processes and the table of locks, with crashes.
* `exclusive_of_run` — one process at a time, and every removal under the lock.
-/

variable {ι Path Dir : Type*}

/-! ### The lock of one process -/

/-- The descriptor a process has open, seen from the place of the caller in a critical section:
    a local one if there is one, else the stored one. -/
def Pc.descriptor (stored : Option Dir) : Pc Path Dir → Option Dir
  | .locked _ fd | .assigned _ fd | .initialized _ fd | .initFailed _ fd | .cleared _ fd
  | .undone _ fd => fd
  | _ => stored

/-- The path whose files are in use from `mysql_server_init` to the end of the clean-up. -/
def Pc.serving : Pc Path Dir → Option Path
  | .assigned path _ | .initialized path _ | .initFailed path _ | .cleared path _
  | .started path | .connected path | .opened path | .disconnected path | .releasing path
  | .lastReleased path | .ended path | .runRemoved path | .tmpCleared path => some path
  | _ => none

namespace Process

/-- The lock file a process has open. -/
def descriptor (s : Process ι Path Dir) : Option Dir :=
  match s.mutex with
  | none => s.runtime.lockFd
  | some holder => (s.pc holder).descriptor s.runtime.lockFd

/-- The process is between a `mysql_server_init` and the end of the last clean-up on `dir`. -/
def Serving (directory : Path → Option Dir) (s : Process ι Path Dir) (dir : Dir) : Prop :=
  ∃ caller path, (s.pc caller).serving = some path ∧ directory path = some dir

/-- How an operation changes the descriptor. -/
def DescriptorStep (before after : Option Dir) : Action Dir → Prop
  | .silent => after = before
  | .lock dir => before = none ∧ after = some dir
  | .unlock dir => before = some dir ∧ after = none
  | .removeRun dir | .clearTmp dir => before = some dir ∧ after = some dir

/-- An operation on the directory whose lock is held, if any. -/
theorem descriptorStep_on {act : Dir → Action Dir} {before : Option Dir}
    (hact : ∀ dir, DescriptorStep (some dir) (some dir) (act dir)) :
    DescriptorStep before before (Action.on act before) := by
  cases before with
  | none => rfl
  | some dir => exact hact dir

/-- The release of the lock that is held, if any. -/
theorem descriptorStep_unlock (before : Option Dir) :
    DescriptorStep before none (Action.on .unlock before) := by
  cases before with
  | none => rfl
  | some dir => exact ⟨rfl, rfl⟩

section

variable {s : Process ι Path Dir} {caller : ι} {v : Pc Path Dir}

theorem descriptor_of_mutex (h : s.mutex = some caller) :
    s.descriptor = (s.pc caller).descriptor s.runtime.lockFd := by
  rw [descriptor, h]

theorem descriptor_of_free (h : s.mutex = none) : s.descriptor = s.runtime.lockFd := by
  rw [descriptor, h]

variable [DecidableEq ι]

theorem descriptor_goto (h : s.mutex = some caller) :
    (s.goto caller v).descriptor = v.descriptor s.runtime.lockFd := by
  have hgoto := descriptor_of_mutex (s := s.goto caller v) h
  rw [hgoto]
  show (update s.pc caller v caller).descriptor s.runtime.lockFd = _
  rw [update_self]

theorem descriptor_goto_of_ne (h : s.mutex ≠ some caller) :
    (s.goto caller v).descriptor = s.descriptor := by
  cases hmutex : s.mutex with
  | none => rw [descriptor_of_free hmutex, descriptor_of_free (s := s.goto caller v) hmutex]; rfl
  | some holder =>
    have hne : holder ≠ caller := fun heq => h (heq ▸ hmutex)
    rw [descriptor_of_mutex hmutex, descriptor_of_mutex (s := s.goto caller v) hmutex]
    show (update s.pc caller v holder).descriptor _ = _
    rw [update_of_ne hne]
    rfl

theorem descriptor_leave : (s.leave caller v).descriptor = s.runtime.lockFd := rfl

end

/-- The directory whose `tmp/` a filled `g_runtime` empties is the one it has locked. -/
theorem bind_persistentTmpDirectory (directory : Path → Option Dir) (path : Path) (n : ℕ)
    (fd : Option Dir) :
    (RuntimeState.filled directory path n fd).persistentTmpDirectory.bind directory
      = directory path := by
  show ((directory path).map fun _ => path).bind directory = directory path
  cases hdir : directory path with
  | none => rfl
  | some dir => exact hdir

namespace Invariant

variable {directory : Path → Option Dir} {s : Process ι Path Dir} {caller : ι} [Fintype ι]

variable {path : Path}

/-- While there are references, `g_runtime` is settled and holds the descriptor. -/
theorem settled_of_pos (h : s.Invariant directory) (hpos : 0 < s.runtime.refCount) :
    s.Settled directory ∧ s.descriptor = s.runtime.lockFd := by
  have hzero {r : RuntimeState Path Dir} (hr : s.runtime = r) : r.refCount ≠ 0 :=
    hr ▸ Nat.pos_iff_ne_zero.mp hpos
  cases hmutex : s.mutex with
  | none => exact ⟨h.settled hmutex, descriptor_of_free hmutex⟩
  | some holder =>
    have hphase := h.phase holder hmutex
    rw [descriptor_of_mutex hmutex]
    cases hpc : s.pc holder with
    | starting path | releasing path =>
      rw [hpc] at hphase
      exact ⟨hphase, rfl⟩
    | locked path fd | cleared path fd | undone path fd | assigned path fd | initFailed path fd
    | initialized path fd =>
      rw [hpc] at hphase
      exact absurd rfl (hzero hphase.2.1)
    | lastReleased path | ended path | runRemoved path | tmpCleared path | unlocked path =>
      rw [hpc] at hphase
      exact absurd rfl (hzero hphase.1)
    | _ =>
      rw [hpc] at hphase
      exact hphase.elim

/-- A reference to a database comes with its lock. -/
theorem descriptor_of_reference (h : s.Invariant directory)
    (href : (s.pc caller).reference = some path) : s.descriptor = directory path := by
  have hpos : 0 < s.runtime.refCount := by
    rw [Nat.pos_iff_ne_zero]
    intro hzero
    rw [h.reference_eq_none hzero caller] at href
    cases href
  obtain ⟨hsettled, hfd⟩ := h.settled_of_pos hpos
  have hpath := h.paths caller path href
  rcases hsettled with ⟨hinitial, -⟩ | ⟨p, -, -, hfilled⟩
  · rw [hinitial] at hpos
    exact absurd hpos (Nat.lt_irrefl 0)
  · rw [hfilled] at hpath
    obtain rfl : p = path := Option.some.inj hpath
    rw [hfd, hfilled]
    rfl

/-- A process that serves a directory has its lock. -/
theorem descriptor_of_serving (h : s.Invariant directory) {dir : Dir}
    (hserving : s.Serving directory dir) : s.descriptor = some dir := by
  obtain ⟨caller, path, hpath, hdir⟩ := hserving
  have hmutex := (h.mutex_iff caller).mp
  have hphase := h.phase caller
  cases hpc : s.pc caller with
  | started path' | connected path' | opened path' | disconnected path' | releasing path' =>
    rw [hpc] at hpath
    obtain rfl : path' = path := Option.some.inj hpath
    rw [h.descriptor_of_reference (by rw [hpc]; rfl), hdir]
  | assigned path' fd | initialized path' fd | initFailed path' fd | cleared path' fd =>
    rw [hpc] at hpath hmutex hphase
    obtain rfl : path' = path := Option.some.inj hpath
    rw [descriptor_of_mutex (hmutex rfl), hpc, ← hdir]
    exact (hphase (hmutex rfl)).1
  | lastReleased path' | ended path' | runRemoved path' | tmpCleared path' =>
    rw [hpc] at hpath hmutex hphase
    obtain rfl : path' = path := Option.some.inj hpath
    rw [descriptor_of_mutex (hmutex rfl), hpc, (hphase (hmutex rfl)).1, ← hdir]
    rfl
  | _ =>
    rw [hpc] at hpath
    cases hpath

variable [DecidableEq ι] [DecidableEq Path]

theorem descriptor_enterRuntime (ok : Bool) (h : s.Invariant directory)
    (hmutex : s.mutex = some caller) (hpc : s.pc caller = .starting path) :
    DescriptorStep s.descriptor (s.enterRuntime directory caller path ok).2.descriptor
      (s.enterRuntime directory caller path ok).1 := by
  have hbefore : s.descriptor = s.runtime.lockFd := by
    rw [descriptor_of_mutex hmutex, hpc]
    rfl
  have hsettled := h.phase caller hmutex
  rw [hpc] at hsettled
  unfold Process.enterRuntime
  split_ifs with hcount hpath
  · exact hbefore.symm
  · exact hbefore.symm
  · have hnone : s.descriptor = none := by
      rcases hsettled with ⟨hinitial, -⟩ | ⟨p, hpos, -⟩
      · rw [hbefore, hinitial]
        rfl
      · exact absurd hpos hcount
    split
    next => exact (descriptor_goto hmutex).trans hnone.symm
    next => exact hbefore.symm
    next => exact ⟨hnone, descriptor_goto hmutex⟩

/-- **Step lemma.** The lock is taken by a process that has none, and given back or worked under
    by the process that has it. -/
theorem descriptor_step {m : Move ι Path} {a : Action Dir} {s' : Process ι Path Dir}
    (h : s.Invariant directory) (hstep : s.step directory m = some (a, s')) :
    DescriptorStep s.descriptor s'.descriptor a := by
  have hmutex := (h.mutex_iff m.caller).mp
  have hphase := h.phase m.caller
  have hout : (s.pc m.caller).critical = false → s.mutex ≠ some m.caller := by
    intro hfalse hm
    rw [(h.mutex_iff m.caller).mpr hm] at hfalse
    cases hfalse
  unfold Process.step at hstep
  generalize hpc : s.pc m.caller = pc at hstep hmutex hphase hout
  cases pc with
  | idle =>
    simp only [Process.validateRuntimeDatabasePath] at hstep
    split_ifs at hstep with hbusy
    · cases hstep
      rfl
    · cases hstep
      exact descriptor_goto_of_ne (hout rfl)
  | validated path | started path | connected path | opened path =>
    cases hstep
    exact descriptor_goto_of_ne (hout rfl)
  | prepared path | disconnected path =>
    simp only [Process.acquire] at hstep
    split_ifs at hstep with hfree
    cases hstep
    rw [descriptor_of_free (Option.not_isSome_iff_eq_none.mp hfree)]
    exact descriptor_goto rfl
  | starting path =>
    have heq := Option.some.inj hstep
    have hs := h.descriptor_enterRuntime m.ok (hmutex rfl) hpc
    rwa [heq] at hs
  | locked path fd =>
    cases hstep
    obtain ⟨rfl, -⟩ := hphase (hmutex rfl)
    have hafter : (s.createRuntimeLayout directory m.caller path (directory path) m.ok).descriptor
        = directory path := by
      unfold Process.createRuntimeLayout
      split_ifs <;> exact descriptor_goto (hmutex rfl)
    rw [hafter, descriptor_of_mutex (hmutex rfl), hpc]
    exact descriptorStep_on fun _ => ⟨rfl, rfl⟩
  | assigned path fd =>
    cases hstep
    rw [descriptor_of_mutex (hmutex rfl), hpc]
    unfold Process.mysqlServerInit
    split_ifs <;> exact descriptor_goto (hmutex rfl)
  | initialized path _ | unlocked path =>
    cases hstep
    rw [descriptor_of_mutex (hmutex rfl), hpc]
    rfl
  | initFailed path _ | lastReleased path =>
    cases hstep
    rw [descriptor_of_mutex (hmutex rfl), hpc]
    exact descriptor_goto (hmutex rfl)
  | cleared path fd =>
    cases hstep
    obtain ⟨rfl, -⟩ := hphase (hmutex rfl)
    rw [descriptor_goto (hmutex rfl), descriptor_of_mutex (hmutex rfl), hpc]
    exact descriptorStep_on fun _ => ⟨rfl, rfl⟩
  | undone path fd =>
    cases hstep
    obtain ⟨-, hruntime, -⟩ := hphase (hmutex rfl)
    rw [descriptor_leave, descriptor_of_mutex (hmutex rfl), hpc, hruntime]
    exact descriptorStep_unlock fd
  | releasing path =>
    cases hstep
    rw [descriptor_of_mutex (hmutex rfl), hpc]
    unfold Process.dropReference
    split_ifs
    · rfl
    · rfl
    · exact descriptor_goto (hmutex rfl)
  | ended path =>
    cases hstep
    obtain ⟨hruntime, -⟩ := hphase (hmutex rfl)
    rw [descriptor_goto (hmutex rfl), descriptor_of_mutex (hmutex rfl), hpc, hruntime]
    exact descriptorStep_on fun _ => ⟨rfl, rfl⟩
  | runRemoved path =>
    cases hstep
    obtain ⟨hruntime, -⟩ := hphase (hmutex rfl)
    rw [descriptor_goto (hmutex rfl), descriptor_of_mutex (hmutex rfl), hpc, hruntime,
      bind_persistentTmpDirectory]
    exact descriptorStep_on fun _ => ⟨rfl, rfl⟩
  | tmpCleared path =>
    cases hstep
    rw [descriptor_of_mutex (hmutex rfl), hpc]
    have hafter := descriptor_goto (s := { s with runtime.lockFd := none })
      (v := .unlocked path) (hmutex rfl)
    rw [hafter]
    exact descriptorStep_unlock s.runtime.lockFd

end Invariant

end Process

/-! ### Many processes -/

/-- The processes, and the process that holds the `flock` of each directory. -/
structure World (π ι Path Dir : Type*) where
  process : π → Process ι Path Dir
  held : Dir → Option π

/-- A process moves or dies. -/
inductive Event (π ι Path : Type*)
  | move (p : π) (m : Move ι Path)
  | crash (p : π)

namespace World

variable {π : Type*}

/-- No process has started. -/
def initial : World π ι Path Dir := ⟨fun _ => .initial, fun _ => none⟩

section Steps

variable [DecidableEq π] [DecidableEq ι] [DecidableEq Path] [DecidableEq Dir]
  (directory : Path → Option Dir) (w : World π ι Path Dir)

/-- What an action does to the locks: `LOCK_EX` succeeds on a free lock only, and `LOCK_UN` frees
    the lock of the process that calls it. -/
def lockTable (p : π) : Action Dir → Option (Dir → Option π)
  | .lock dir => if w.held dir = none then some (update w.held dir (some p)) else none
  | .unlock dir =>
    some (if w.held dir = some p then update w.held dir none else w.held)
  | .silent | .removeRun _ | .clearTmp _ => some w.held

/-- One event.  The system closes the descriptors of a process that dies; what is started in its
    place begins anew. -/
def step : Event π ι Path → Option (World π ι Path Dir)
  | .move p m =>
    match (w.process p).step directory m with
    | none => none
    | some (a, s') =>
      (w.lockTable p a).map fun held => ⟨update w.process p s', held⟩
  | .crash p => some ⟨update w.process p .initial, dropLocks w.held p⟩

end Steps

variable {directory : Path → Option Dir} {w w' : World π ι Path Dir} [Fintype ι]

/-- Every process keeps its invariant, and the table agrees with the descriptors. -/
structure Invariant (directory : Path → Option Dir) (w : World π ι Path Dir) : Prop where
  process : ∀ p, (w.process p).Invariant directory
  tracks : Tracks w.held fun p => (w.process p).descriptor

theorem invariant_initial (hfew : Fintype.card ι < unsignedRange) :
    Invariant directory (initial : World π ι Path Dir) where
  process _ := Process.invariant_initial hfew
  tracks := tracks_empty

variable {p : π} {dir : Dir}

/-- Who serves a directory holds its lock. -/
theorem Invariant.held_of_serving (h : w.Invariant directory)
    (hserving : (w.process p).Serving directory dir) : w.held dir = some p :=
  (h.tracks p dir).mpr ((h.process p).descriptor_of_serving hserving)

variable [DecidableEq π]

variable {s' : Process ι Path Dir}

theorem Invariant.process_update (h : w.Invariant directory) (hs' : s'.Invariant directory)
    (q : π) :
    (update w.process p s' q).Invariant directory := by
  by_cases hq : q = p
  · subst hq
    rw [update_self]
    exact hs'
  · rw [update_of_ne hq]
    exact h.process q

omit [Fintype ι] in
/-- The descriptors after one process has changed. -/
theorem descriptor_update (process : π → Process ι Path Dir) (p : π) (s' : Process ι Path Dir) :
    (fun q => (update process p s' q).descriptor)
      = update (fun q => (process q).descriptor) p s'.descriptor := by
  funext q
  by_cases hq : q = p
  · subst hq
    rw [update_self, update_self]
  · rw [update_of_ne hq, update_of_ne hq]

variable [DecidableEq ι] [DecidableEq Path] [DecidableEq Dir]

variable {a : Action Dir}

omit [Fintype ι] [DecidableEq ι] [DecidableEq Path] in
/-- The table follows a change of the descriptor. -/
theorem tracks_lockTable {after : Option Dir} {held : Dir → Option π}
    (h : Tracks w.held fun q => (w.process q).descriptor)
    (hstep : Process.DescriptorStep (w.process p).descriptor after a)
    (hheld : w.lockTable p a = some held) :
    Tracks held (update (fun q => (w.process q).descriptor) p after) := by
  cases a with
  | silent =>
    cases hheld
    exact h.same hstep
  | lock dir =>
    rw [lockTable] at hheld
    split_ifs at hheld with hfree
    cases hheld
    obtain ⟨hnone, rfl⟩ := hstep
    exact h.lock hfree hnone
  | unlock dir =>
    obtain ⟨hown, rfl⟩ := hstep
    rw [lockTable, if_pos ((h p dir).mpr hown)] at hheld
    cases hheld
    exact h.unlock hown
  | removeRun dir | clearTmp dir =>
    cases hheld
    obtain ⟨hown, rfl⟩ := hstep
    exact h.same hown.symm

theorem Invariant.step (h : w.Invariant directory) {e : Event π ι Path}
    (hstep : w.step directory e = some w') : w'.Invariant directory := by
  cases e with
  | crash p =>
    cases hstep
    refine ⟨h.process_update (Process.invariant_initial (h.process p).few), ?_⟩
    rw [descriptor_update]
    exact h.tracks.drop
  | move p m =>
    rw [World.step] at hstep
    cases hmove : (w.process p).step directory m with
    | none =>
      rw [hmove] at hstep
      cases hstep
    | some moved =>
      obtain ⟨a, s'⟩ := moved
      rw [hmove] at hstep
      obtain ⟨held, hheld, rfl⟩ := Option.map_eq_some_iff.mp hstep
      refine ⟨h.process_update ((h.process p).step hmove), ?_⟩
      rw [descriptor_update]
      exact tracks_lockTable h.tracks ((h.process p).descriptor_step hmove) hheld

omit [DecidableEq π] [DecidableEq Dir] in
/-- A removal is made under the lock. -/
theorem Invariant.held_of_removal (h : w.Invariant directory) {m : Move ι Path}
    (hmove : (w.process p).step directory m = some (a, s'))
    (hremoval : a = .removeRun dir ∨ a = .clearTmp dir) : w.held dir = some p := by
  have hstep := (h.process p).descriptor_step hmove
  rcases hremoval with rfl | rfl
  · exact (h.tracks p dir).mpr hstep.1
  · exact (h.tracks p dir).mpr hstep.1

/-- **Exclusion.** Whatever the processes do, each with fewer than `2 ^ 32` callers, and wherever
    they die, at most one at a time is between its `mysql_server_init` and the end of its last
    clean-up on a directory, and `run/` and `tmp/` are removed and emptied by the process that
    holds the lock. -/
theorem exclusive_of_run (hfew : Fintype.card ι < unsignedRange) {events : List (Event π ι Path)}
    (h : Run (ofOption (step directory)) initial events w) :
    (∀ dir p q, (w.process p).Serving directory dir → (w.process q).Serving directory dir →
        p = q) ∧
      ∀ p m a s' dir, (w.process p).step directory m = some (a, s') →
        a = .removeRun dir ∨ a = .clearTmp dir → w.held dir = some p := by
  have hw : w.Invariant directory :=
    h.invariant (Invariant directory) (invariant_initial hfew) fun hs hstep => hs.step hstep
  refine ⟨?_, fun p m a s' dir hmove hremoval => hw.held_of_removal hmove hremoval⟩
  intro dir p q hp hq
  exact Option.some.inj ((hw.held_of_serving hp).symm.trans (hw.held_of_serving hq))

/-- One process opens the database and dies; another one then opens it. -/
def afterCrash : List (Event (Fin 2) Unit Unit) :=
  List.replicate 9 (.move ⟨0, Nat.zero_lt_two⟩ ⟨(), (), true⟩) ++ [.crash ⟨0, Nat.zero_lt_two⟩] ++
    List.replicate 9 (.move ⟨1, Nat.one_lt_two⟩ ⟨(), (), true⟩)

theorem exclusive_of_afterCrash :
    ∃ w : World (Fin 2) Unit Unit Unit, Run (ofOption (step some)) initial afterCrash w ∧
      (w.process 1).Serving some () ∧
      (∀ dir p q, (w.process p).Serving some dir → (w.process q).Serving some dir → p = q) ∧
      ∀ p m a s' dir, (w.process p).step some m = some (a, s') →
        a = .removeRun dir ∨ a = .clearTmp dir → w.held dir = some p :=
  have hrun : Run (ofOption (step some)) initial afterCrash _ := run_of_foldlM _ rfl
  ⟨_, hrun, ⟨(), (), rfl, rfl⟩, exclusive_of_run (by decide) hrun⟩

end World

end MyLite.Runtime
