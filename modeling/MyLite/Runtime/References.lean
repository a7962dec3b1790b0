import Mathlib.Data.Fintype.Basic
import MyLite.Lib.LockTable
import MyLite.Runtime.Process

namespace MyLite.Runtime

open MyLite.Lib Function

/-!
# References to the runtime

`g_runtime.ref_count` counts the opens that have passed `start_runtime` and have not been
released.  The proof is one inductive invariant over all interleavings.  Its core is a table,
`Phase`: for every place in a critical section, the contents of `g_runtime` and whether the
embedded server runs.  Outside critical sections `g_runtime` is `Settled`: untouched with no
reference, or filled for one path with a server running.

* `Invariant`, `Invariant.step` — the invariant and one operation of one caller.
* `ServerCalls` — when an operation may start and end the server.
* `references_of_run` — what follows for every run.
-/

variable {ι Path Dir : Type*}

/-! ### Places -/

/-- The places inside a critical section. -/
def Pc.critical : Pc Path Dir → Bool
  | .starting _ | .locked _ _ | .assigned _ _ | .initialized _ _ | .initFailed _ _
  | .cleared _ _ | .undone _ _ | .releasing _ | .lastReleased _ | .ended _ | .runRemoved _
  | .tmpCleared _ | .unlocked _ => true
  | _ => false

/-- The path of an open that has passed `start_runtime` and has not been released. -/
def Pc.reference : Pc Path Dir → Option Path
  | .started path | .connected path | .opened path | .disconnected path | .releasing path =>
    some path
  | _ => none

/-- Such an open. -/
def Pc.isReference (pc : Pc Path Dir) : Bool := pc.reference.isSome

/-- `mysql_server_init` is next. -/
def Pc.callsInit : Pc Path Dir → Bool
  | .assigned _ _ => true
  | _ => false

/-- `mysql_server_end` is next. -/
def Pc.callsEnd : Pc Path Dir → Bool
  | .lastReleased _ => true
  | _ => false

/-! ### The contents of `g_runtime` -/

variable (directory : Path → Option Dir)

/-- `g_runtime` filled for a path. -/
def RuntimeState.filled (path : Path) (refCount : ℕ) (fd : Option Dir) : RuntimeState Path Dir :=
  ⟨refCount, some path, some path, some path, (directory path).map fun _ => path, fd⟩

namespace Process

/-- `g_runtime` between two critical sections. -/
def Settled (s : Process ι Path Dir) : Prop :=
  (s.runtime = .initial ∧ s.server = false) ∨
    ∃ path, 0 < s.runtime.refCount ∧ s.server = true ∧
      s.runtime = .filled directory path s.runtime.refCount (directory path)

/-- `g_runtime` at each place of a critical section. -/
def Phase (s : Process ι Path Dir) : Pc Path Dir → Prop
  | .starting _ | .releasing _ => s.Settled directory
  | .locked path fd | .cleared path fd | .undone path fd =>
    fd = directory path ∧ s.runtime = .initial ∧ s.server = false
  | .assigned path fd | .initFailed path fd =>
    fd = directory path ∧ s.runtime = .filled directory path 0 none ∧ s.server = false
  | .initialized path fd =>
    fd = directory path ∧ s.runtime = .filled directory path 0 none ∧ s.server = true
  | .lastReleased path =>
    s.runtime = .filled directory path 0 (directory path) ∧ s.server = true
  | .ended path | .runRemoved path | .tmpCleared path =>
    s.runtime = .filled directory path 0 (directory path) ∧ s.server = false
  | .unlocked path => s.runtime = .filled directory path 0 none ∧ s.server = false
  | _ => False

/-! ### Calls of the server -/

section ServerCalls

variable {s : Process ι Path Dir} {m : Move ι Path} [DecidableEq ι]

/-- `mysql_server_init` and `mysql_server_end` around one operation: the first starts a server
    only while none runs, and the second is what the caller does next exactly if the operation
    has dropped the count to zero. -/
structure ServerCalls (s : Process ι Path Dir) (m : Move ι Path) (s' : Process ι Path Dir) :
    Prop where
  init_free : (s.pc m.caller).callsInit = true → s.server = false
  inits_eq : s'.inits = s.inits + ((s.pc m.caller).callsInit && m.ok).toNat
  ends_eq : s'.ends = s.ends + (s.pc m.caller).callsEnd.toNat
  end_iff : (s'.pc m.caller).callsEnd = true ↔ 0 < s.runtime.refCount ∧ s'.runtime.refCount = 0

/-- What is left to see of an operation of a caller that goes from `u` to `v`. -/
theorem serverCalls_goto {u v : Pc Path Dir} {r : RuntimeState Path Dir} {mutex : Option ι}
    {server : Bool} {inits ends : ℕ} (hpc : s.pc m.caller = u)
    (hfree : u.callsInit = true → s.server = false)
    (hinits : inits = s.inits + (u.callsInit && m.ok).toNat)
    (hends : ends = s.ends + u.callsEnd.toNat)
    (hend : v.callsEnd = true ↔ 0 < s.runtime.refCount ∧ r.refCount = 0) :
    ServerCalls s m ⟨r, mutex, update s.pc m.caller v, server, inits, ends⟩ := by
  subst hpc
  refine ⟨hfree, hinits, hends, ?_⟩
  show (update s.pc m.caller v m.caller).callsEnd = true ↔ _
  rwa [update_self]

/-- An operation that calls neither and drops no reference. -/
theorem serverCalls_of_quiet {u v : Pc Path Dir} {r : RuntimeState Path Dir} {mutex : Option ι}
    (hpc : s.pc m.caller = u) (hinit : u.callsInit = false) (hend : u.callsEnd = false)
    (hv : v.callsEnd = false) (hcount : s.runtime.refCount ≤ r.refCount) :
    ServerCalls s m ⟨r, mutex, update s.pc m.caller v, s.server, s.inits, s.ends⟩ := by
  refine serverCalls_goto hpc ?_ (by rw [hinit]; rfl) (by rw [hend]; rfl) ?_
  · rw [hinit]
    exact nofun
  · rw [hv]
    exact ⟨nofun, fun ⟨hpos, hzero⟩ => by omega⟩

variable {path : Path}

theorem serverCalls_of_dropReference (hpc : s.pc m.caller = .releasing path) :
    ServerCalls s m (s.dropReference m.caller path) := by
  unfold dropReference
  split_ifs with hzero hmore
  · exact serverCalls_of_quiet hpc rfl rfl rfl le_rfl
  · refine serverCalls_goto hpc nofun rfl rfl ⟨nofun, fun ⟨_, hlast⟩ => ?_⟩
    exact absurd hmore (Nat.not_lt.mpr (Nat.le_of_eq hlast))
  · refine serverCalls_goto hpc nofun rfl rfl ⟨fun _ => ⟨by omega, ?_⟩, fun _ => rfl⟩
    exact Nat.eq_zero_of_not_pos hmore

theorem serverCalls_of_mysqlServerInit {fd : Option Dir} (hpc : s.pc m.caller = .assigned path fd)
    (hserver : s.server = false) : ServerCalls s m (s.mysqlServerInit m.caller path fd m.ok) := by
  have hend : false = true ↔ 0 < s.runtime.refCount ∧ s.runtime.refCount = 0 :=
    ⟨nofun, fun ⟨hpos, hzero⟩ => absurd hzero (Nat.pos_iff_ne_zero.mp hpos)⟩
  unfold mysqlServerInit
  cases hok : m.ok with
  | false => exact serverCalls_goto hpc (fun _ => hserver) (by rw [hok]; rfl) rfl hend
  | true => exact serverCalls_goto hpc (fun _ => hserver) (by rw [hok]; rfl) rfl hend

theorem serverCalls_of_mysqlServerEnd (hpc : s.pc m.caller = .lastReleased path)
    (hzero : s.runtime.refCount = 0) :
    ServerCalls s m
      ({ s with server := false, ends := s.ends + 1 }.goto m.caller (.ended path)) := by
  refine serverCalls_goto hpc nofun rfl rfl ⟨nofun, fun ⟨hpos, _⟩ => ?_⟩
  rw [hzero] at hpos
  exact absurd hpos (Nat.lt_irrefl 0)

end ServerCalls

/-! ### The invariant -/

variable [Fintype ι]

/-- The inductive invariant.  With fewer than `2 ^ 32` callers the count cannot wrap. -/
structure Invariant (s : Process ι Path Dir) : Prop where
  few : Fintype.card ι < unsignedRange
  mutex_iff : ∀ caller, (s.pc caller).critical = true ↔ s.mutex = some caller
  count : s.runtime.refCount = countWhere Pc.isReference s.pc
  paths : ∀ caller path, (s.pc caller).reference = some path → s.runtime.databasePath = some path
  settled : s.mutex = none → s.Settled directory
  phase : ∀ caller, s.mutex = some caller → s.Phase directory (s.pc caller)
  inits : s.inits = s.ends + s.server.toNat

variable {directory}

theorem invariant_initial (hfew : Fintype.card ι < unsignedRange) :
    Invariant directory (initial : Process ι Path Dir) where
  few := hfew
  mutex_iff _ := ⟨nofun, nofun⟩
  count := (countWhere_const rfl).symm
  paths _ _ h := (nomatch h)
  settled _ := .inl ⟨rfl, rfl⟩
  phase _ h := (nomatch h)
  inits := rfl

namespace Invariant

variable {s : Process ι Path Dir} {caller : ι} {v : Pc Path Dir}

/-- With no reference counted no caller has one. -/
theorem reference_eq_none (h : s.Invariant directory) (hzero : s.runtime.refCount = 0)
    (other : ι) : (s.pc other).reference = none := by
  have hnone := countWhere_eq_zero.mp (h.count.symm.trans hzero) other
  exact Option.not_isSome_iff_eq_none.mp (Bool.eq_false_iff.mp hnone)

/-- The reference of a caller that has none yet can be counted. -/
theorem refCount_lt (h : s.Invariant directory) (caller : ι)
    (hown : (s.pc caller).isReference = false) : s.runtime.refCount + 1 < unsignedRange := by
  have hlt := countWhere_lt_card hown
  have hold := h.count
  have hfew := h.few
  omega

variable [DecidableEq ι]

variable {r : RuntimeState Path Dir} {a : Action Dir} {s' : Process ι Path Dir}

section

variable (h : s.Invariant directory)

include h

/-- What the callers other than the moving one need of the new `g_runtime`. -/
theorem paths_update (hothers : s.runtime.refCount = 0 ∨ r.databasePath = s.runtime.databasePath)
    (hown : ∀ path, v.reference = some path → r.databasePath = some path) :
    ∀ other path, (update s.pc caller v other).reference = some path →
      r.databasePath = some path := by
  intro other path hpath
  by_cases hne : other = caller
  · subst hne
    rw [update_self] at hpath
    exact hown path hpath
  rw [update_of_ne hne] at hpath
  rcases hothers with hzero | hsame
  · rw [h.reference_eq_none hzero other] at hpath
    cases hpath
  · exact hsame.trans (h.paths other path hpath)

theorem count_update (hcount : r.refCount + (s.pc caller).isReference.toNat
      = s.runtime.refCount + v.isReference.toNat) :
    r.refCount = countWhere Pc.isReference (update s.pc caller v) := by
  have hupdate := countWhere_update Pc.isReference s.pc caller v
  have hold := h.count
  omega

/-- Who is in a critical section after a caller has moved. -/
theorem mutex_update {mutex : Option ι} (hown : v.critical = true ↔ mutex = some caller)
    (hothers : ∀ other, other ≠ caller → (mutex = some other ↔ s.mutex = some other)) (other : ι) :
    (update s.pc caller v other).critical = true ↔ mutex = some other := by
  by_cases hne : other = caller
  · subst hne
    rw [update_self]
    exact hown
  · rw [update_of_ne hne, h.mutex_iff other, hothers other hne]

/-- A step outside critical sections. -/
theorem outside (hout : (s.pc caller).critical = false) (hv : v.critical = false)
    (href : v.reference = (s.pc caller).reference) : (s.goto caller v).Invariant directory := by
  have hmutex : s.mutex ≠ some caller := by
    rw [Ne, ← h.mutex_iff caller, hout]
    exact Bool.false_ne_true
  refine ⟨h.few, h.mutex_update ?_ fun _ _ => Iff.rfl, h.count_update ?_,
    h.paths_update (.inr rfl) ?_, h.settled, ?_, h.inits⟩
  · rw [hv]
    exact ⟨fun hf => absurd hf Bool.false_ne_true, fun hm => absurd hm hmutex⟩
  · rw [Pc.isReference, Pc.isReference, href]
    rfl
  · intro path hpath
    exact h.paths caller path (href ▸ hpath)
  · intro holder hholder
    have hne : holder ≠ caller := fun heq => hmutex (heq ▸ hholder)
    show s.Phase directory (update s.pc caller v holder)
    rw [update_of_ne hne]
    exact h.phase holder hholder

/-- A caller takes the mutex. -/
theorem acquire (hfree : s.mutex = none) (hv : v.critical = true)
    (href : v.reference = (s.pc caller).reference)
    (hphase : ∀ s' : Process ι Path Dir, s'.Settled directory → s'.Phase directory v) :
    ({ s with mutex := some caller }.goto caller v).Invariant directory := by
  refine ⟨h.few, h.mutex_update ?_ ?_, h.count_update ?_, h.paths_update (.inr rfl) ?_,
    nofun, ?_, h.inits⟩
  · exact ⟨fun _ => rfl, fun _ => hv⟩
  · intro other hne
    rw [hfree]
    exact ⟨fun heq => absurd (Option.some.inj heq).symm hne, nofun⟩
  · rw [Pc.isReference, Pc.isReference, href]
    rfl
  · intro path hpath
    exact h.paths caller path (href ▸ hpath)
  · intro holder hholder
    obtain rfl : caller = holder := Option.some.inj hholder
    show Phase directory _ (update s.pc caller v caller)
    rw [update_self]
    exact hphase _ (h.settled hfree)

/-- A step inside a critical section. -/
theorem inside (hmutex : s.mutex = some caller) (hv : v.critical = true) {server : Bool}
    {inits ends : ℕ} (hcount : r.refCount + (s.pc caller).isReference.toNat
      = s.runtime.refCount + v.isReference.toNat)
    (hothers : s.runtime.refCount = 0 ∨ r.databasePath = s.runtime.databasePath)
    (hown : ∀ path, v.reference = some path → r.databasePath = some path)
    (hphase : ∀ pc, Phase directory (⟨r, s.mutex, pc, server, inits, ends⟩ : Process ι Path Dir) v)
    (hinits : inits = ends + server.toNat) :
    Invariant directory ⟨r, s.mutex, update s.pc caller v, server, inits, ends⟩ := by
  refine ⟨h.few, h.mutex_update ⟨fun _ => hmutex, fun _ => hv⟩ fun _ _ => Iff.rfl,
    h.count_update hcount, h.paths_update hothers hown, ?_, ?_, hinits⟩
  · intro hnone
    rw [hmutex] at hnone
    cases hnone
  · intro holder hholder
    obtain rfl : caller = holder := Option.some.inj (hmutex.symm.trans hholder)
    show Phase directory _ (update s.pc caller v caller)
    rw [update_self]
    exact hphase _

/-- The end of a critical section. -/
theorem leave (hmutex : s.mutex = some caller) (hv : v.critical = false)
    (hcount : r.refCount + (s.pc caller).isReference.toNat
      = s.runtime.refCount + v.isReference.toNat)
    (hothers : s.runtime.refCount = 0 ∨ r.databasePath = s.runtime.databasePath)
    (hown : ∀ path, v.reference = some path → r.databasePath = some path)
    (hsettled : { s with runtime := r }.Settled directory) :
    Invariant directory ({ s with runtime := r }.leave caller v) := by
  refine ⟨h.few, h.mutex_update ?_ ?_, h.count_update hcount, h.paths_update hothers hown,
    fun _ => hsettled, nofun, h.inits⟩
  · rw [hv]
    exact ⟨fun hf => absurd hf Bool.false_ne_true, nofun⟩
  · intro other hne
    rw [hmutex]
    exact ⟨nofun, fun heq => absurd (Option.some.inj heq).symm hne⟩

/-- A caller that asks for the mutex. -/
theorem acquired (hstep : s.acquire caller v = some (a, s')) (hv : v.critical = true)
    (href : v.reference = (s.pc caller).reference)
    (hphase : ∀ s' : Process ι Path Dir, s'.Settled directory → s'.Phase directory v) :
    s'.Invariant directory := by
  unfold Process.acquire at hstep
  split_ifs at hstep with hfree
  cases hstep
  exact h.acquire (Option.not_isSome_iff_eq_none.mp hfree) hv href hphase

end

variable [DecidableEq Path]

variable {path : Path} {ok : Bool}

theorem validateRuntimeDatabasePath (h : s.Invariant directory) (hpc : s.pc caller = .idle)
    (hstep : s.validateRuntimeDatabasePath caller path = some (a, s')) :
    s'.Invariant directory := by
  unfold Process.validateRuntimeDatabasePath at hstep
  split_ifs at hstep with hbusy
  · cases hstep
    exact h
  · cases hstep
    exact h.outside (by rw [hpc]; rfl) rfl (by rw [hpc]; rfl)

theorem enterRuntime (h : s.Invariant directory) (hmutex : s.mutex = some caller)
    (hpc : s.pc caller = .starting path) :
    (s.enterRuntime directory caller path ok).2.Invariant directory := by
  have hsettled : s.Settled directory := by
    have hphase := h.phase caller hmutex
    rwa [hpc] at hphase
  unfold Process.enterRuntime
  split_ifs with hcount hpath
  · -- another database is open: nothing has changed
    exact h.leave hmutex rfl (by rw [hpc]; rfl) (.inr rfl) (nofun) hsettled
  · -- one more reference to the running server
    rw [not_not] at hpath
    simp only [Nat.mod_eq_of_lt (h.refCount_lt caller (by rw [hpc]; rfl))]
    refine h.leave hmutex rfl (by rw [hpc]; rfl) (.inr rfl) ?_ ?_
    · intro other href
      obtain rfl : path = other := Option.some.inj href
      exact hpath
    · rcases hsettled with ⟨hinitial, -⟩ | ⟨p, -, hserver, hfilled⟩
      · rw [hinitial] at hcount
        exact absurd hcount (Nat.lt_irrefl 0)
      · exact .inr ⟨p, Nat.succ_pos _, hserver, by rw [hfilled]; rfl⟩
  · have hinitial : s.runtime = .initial ∧ s.server = false := by
      rcases hsettled with hinitial | ⟨p, hpos, -⟩
      · exact hinitial
      · exact absurd hpos hcount
    split
    next hdir =>
      exact h.inside hmutex rfl (by rw [hpc]; rfl) (.inr rfl) (nofun)
        (fun _ => ⟨hdir.symm, hinitial⟩) h.inits
    next =>
      exact h.leave hmutex rfl (by rw [hpc]; rfl) (.inr rfl) (nofun)
        hsettled
    next hdir =>
      exact h.inside hmutex rfl (by rw [hpc]; rfl) (.inr rfl) (nofun)
        (fun _ => ⟨hdir.symm, hinitial⟩) h.inits

omit [DecidableEq Path] in
theorem createRuntimeLayout {fd : Option Dir} (h : s.Invariant directory)
    (hmutex : s.mutex = some caller) (hpc : s.pc caller = .locked path fd) :
    (s.createRuntimeLayout directory caller path fd ok).Invariant directory := by
  have hphase := h.phase caller hmutex
  rw [hpc] at hphase
  obtain ⟨hfd, hruntime, hserver⟩ := hphase
  have hzero : s.runtime.refCount = 0 := by rw [hruntime]; rfl
  unfold Process.createRuntimeLayout
  split_ifs
  · exact h.inside hmutex rfl (by rw [hpc]; rfl) (.inl hzero) (nofun)
      (fun _ => ⟨hfd, by rw [hruntime]; rfl, hserver⟩) h.inits
  · exact h.inside hmutex rfl (by rw [hpc]; rfl) (.inl hzero) (nofun)
      (fun _ => ⟨hfd, by rw [hruntime]; rfl, hserver⟩) h.inits

omit [DecidableEq Path] in
theorem mysqlServerInit {fd : Option Dir} (h : s.Invariant directory)
    (hmutex : s.mutex = some caller) (hpc : s.pc caller = .assigned path fd) :
    (s.mysqlServerInit caller path fd ok).Invariant directory := by
  have hphase := h.phase caller hmutex
  rw [hpc] at hphase
  obtain ⟨hfd, hruntime, hserver⟩ := hphase
  have hinits : s.inits = s.ends := by
    have hold := h.inits
    rwa [hserver] at hold
  unfold Process.mysqlServerInit
  split_ifs
  · exact h.inside hmutex rfl (by rw [hpc]; rfl) (.inr rfl) (nofun)
      (fun _ => ⟨hfd, hruntime, rfl⟩) (by rw [hinits]; rfl)
  · exact h.inside hmutex rfl (by rw [hpc]; rfl) (.inr rfl) (nofun)
      (fun _ => ⟨hfd, hruntime, hserver⟩) h.inits

omit [DecidableEq Path] in
theorem dropReference (h : s.Invariant directory) (hmutex : s.mutex = some caller)
    (hpc : s.pc caller = .releasing path) : (s.dropReference caller path).Invariant directory := by
  have hown : (s.pc caller).isReference = true := by rw [hpc]; rfl
  have hpos : 0 < s.runtime.refCount := by
    rw [Nat.pos_iff_ne_zero]
    intro hzero
    rw [Pc.isReference, h.reference_eq_none hzero caller] at hown
    cases hown
  have hsettled := h.phase caller hmutex
  rw [hpc] at hsettled
  have hpath : s.runtime.databasePath = some path := h.paths caller path (by rw [hpc]; rfl)
  obtain ⟨p, hserver, hfilled⟩ : ∃ p, s.server = true ∧
      s.runtime = .filled directory p s.runtime.refCount (directory p) := by
    rcases hsettled with ⟨hinitial, -⟩ | ⟨p, -, hserver, hfilled⟩
    · rw [hinitial] at hpos
      exact absurd hpos (Nat.lt_irrefl 0)
    · exact ⟨p, hserver, hfilled⟩
  obtain rfl : p = path := by
    rw [hfilled] at hpath
    exact Option.some.inj hpath
  have hcount : s.runtime.refCount - 1 + (s.pc caller).isReference.toNat = s.runtime.refCount := by
    rw [hown]
    exact Nat.sub_add_cancel hpos
  unfold Process.dropReference
  rw [if_neg (Nat.pos_iff_ne_zero.mp hpos)]
  split_ifs with hmore
  · -- other references remain
    refine h.leave hmutex rfl hcount (.inr rfl) (nofun) ?_
    exact .inr ⟨p, hmore, hserver, by rw [hfilled]; rfl⟩
  · -- the last reference
    have hlast : s.runtime.refCount - 1 = 0 := Nat.eq_zero_of_not_pos hmore
    refine h.inside hmutex rfl hcount (.inr rfl) (nofun) ?_ h.inits
    exact fun _ => ⟨by rw [hlast, hfilled]; rfl, hserver⟩

/-- **Step lemma.** Every operation of every caller keeps the invariant. -/
theorem step {m : Move ι Path} (h : s.Invariant directory)
    (hstep : s.step directory m = some (a, s')) : s'.Invariant directory := by
  have hmutex : (s.pc m.caller).critical = true → s.mutex = some m.caller :=
    (h.mutex_iff m.caller).mp
  have hphase := fun hc => h.phase m.caller (hmutex hc)
  unfold Process.step at hstep
  generalize hpc : s.pc m.caller = pc at hstep hmutex hphase
  cases pc with
  | idle =>
    exact h.validateRuntimeDatabasePath hpc hstep
  | validated path | started path | connected path | opened path =>
    cases hstep
    cases m.ok <;> exact h.outside (by rw [hpc]; rfl) rfl (by rw [hpc]; rfl)
  | prepared path | disconnected path =>
    exact h.acquired hstep rfl (by rw [hpc]; rfl) fun _ hs => hs
  | starting path =>
    have hs' : _ = s' := congrArg Prod.snd (Option.some.inj hstep)
    exact hs' ▸ h.enterRuntime (hmutex rfl) hpc
  | locked path fd =>
    cases hstep
    exact h.createRuntimeLayout (hmutex rfl) hpc
  | assigned path fd =>
    cases hstep
    exact h.mysqlServerInit (hmutex rfl) hpc
  | initialized path fd =>
    cases hstep
    obtain ⟨hfd, hruntime, hserver⟩ := hphase rfl
    refine h.leave (hmutex rfl) rfl (by rw [hpc, hruntime]; rfl) (.inr rfl) ?_ ?_
    · intro other href
      obtain rfl : path = other := Option.some.inj href
      rw [hruntime]
      rfl
    · exact .inr ⟨path, Nat.one_pos, hserver, by rw [hruntime, hfd]; rfl⟩
  | initFailed path fd =>
    cases hstep
    obtain ⟨hfd, hruntime, hserver⟩ := hphase rfl
    exact h.inside (hmutex rfl) rfl (by rw [hpc]; rfl) (.inl (by rw [hruntime]; rfl))
      (nofun) (fun _ => ⟨hfd, by rw [hruntime]; rfl, hserver⟩) h.inits
  | cleared path _ | ended path | runRemoved path =>
    cases hstep
    exact h.inside (hmutex rfl) rfl (by rw [hpc]; rfl) (.inr rfl) (nofun)
      (fun _ => hphase rfl) h.inits
  | undone path fd =>
    cases hstep
    exact h.leave (hmutex rfl) rfl (by rw [hpc]; rfl) (.inr rfl) (nofun)
      (.inl (hphase rfl).2)
  | releasing path =>
    cases hstep
    exact h.dropReference (hmutex rfl) hpc
  | lastReleased path =>
    cases hstep
    obtain ⟨hruntime, hserver⟩ := hphase rfl
    have hinits := h.inits
    rw [hserver] at hinits
    exact h.inside (hmutex rfl) rfl (by rw [hpc]; rfl) (.inr rfl) (nofun)
      (fun _ => ⟨hruntime, rfl⟩) hinits
  | tmpCleared path =>
    cases hstep
    obtain ⟨hruntime, hserver⟩ := hphase rfl
    exact h.inside (hmutex rfl) rfl (by rw [hpc]; rfl) (.inr rfl) (nofun)
      (fun _ => ⟨by rw [hruntime]; rfl, hserver⟩) h.inits
  | unlocked path =>
    cases hstep
    obtain ⟨hruntime, hserver⟩ := hphase rfl
    exact h.leave (hmutex rfl) rfl (by rw [hpc]; rfl) (.inl (by rw [hruntime]; rfl))
      (nofun) (.inl ⟨by rw [hruntime]; rfl, hserver⟩)

/-- Every operation calls the server as it should. -/
theorem serverCalls {m : Move ι Path} (h : s.Invariant directory)
    (hstep : s.step directory m = some (a, s')) : ServerCalls s m s' := by
  have hphase := fun hc => h.phase m.caller ((h.mutex_iff m.caller).mp hc)
  unfold Process.step at hstep
  generalize hpc : s.pc m.caller = pc at hstep hphase
  cases pc with
  | idle =>
    simp only [Process.validateRuntimeDatabasePath] at hstep
    split_ifs at hstep with hbusy
    · cases hstep
      have hs : ServerCalls s m ⟨s.runtime, s.mutex, update s.pc m.caller
          (s.pc m.caller), s.server, s.inits, s.ends⟩ :=
        serverCalls_of_quiet hpc rfl rfl (by rw [hpc]; rfl) le_rfl
      rwa [update_eq_self] at hs
    · cases hstep
      exact serverCalls_of_quiet hpc rfl rfl rfl le_rfl
  | prepared path | disconnected path =>
    simp only [Process.acquire] at hstep
    split_ifs at hstep with hfree
    cases hstep
    exact serverCalls_of_quiet hpc rfl rfl rfl le_rfl
  | starting path =>
    simp only [Process.enterRuntime] at hstep
    split_ifs at hstep with hpos hpath
    · cases hstep
      exact serverCalls_of_quiet hpc rfl rfl rfl le_rfl
    · rw [Nat.mod_eq_of_lt (h.refCount_lt m.caller (by rw [hpc]; rfl))] at hstep
      cases hstep
      exact serverCalls_of_quiet hpc rfl rfl rfl (Nat.le_succ _)
    · split at hstep <;> cases hstep <;>
        exact serverCalls_of_quiet hpc rfl rfl rfl le_rfl
  | locked path fd =>
    cases hstep
    unfold Process.createRuntimeLayout
    split_ifs <;> exact serverCalls_of_quiet hpc rfl rfl rfl le_rfl
  | assigned path fd =>
    cases hstep
    exact serverCalls_of_mysqlServerInit hpc (hphase rfl).2.2
  | initialized path fd =>
    cases hstep
    exact serverCalls_of_quiet hpc rfl rfl rfl
      (by rw [(hphase rfl).2.1]; exact Nat.zero_le _)
  | releasing path =>
    cases hstep
    exact serverCalls_of_dropReference hpc
  | lastReleased path =>
    cases hstep
    exact serverCalls_of_mysqlServerEnd hpc (by rw [(hphase rfl).1]; rfl)
  | validated path | started path | connected path | opened path =>
    cases hstep
    cases m.ok <;> exact serverCalls_of_quiet hpc rfl rfl rfl le_rfl
  | _ =>
    cases hstep
    exact serverCalls_of_quiet hpc rfl rfl rfl le_rfl

end Invariant

/-! ### Runs -/

/-- What the references amount to: they are counted, they are all to the database `g_runtime` is
    open for, every started server but a running one has been ended, and with no reference and
    no caller in a critical section `g_runtime` is as at the beginning. -/
structure Referenced (s : Process ι Path Dir) : Prop where
  count : s.runtime.refCount = countWhere Pc.isReference s.pc
  paths : ∀ caller path, (s.pc caller).reference = some path → s.runtime.databasePath = some path
  balance : s.inits = s.ends + s.server.toNat
  reset : s.mutex = none → s.runtime.refCount = 0 → s.runtime = .initial

theorem Invariant.referenced {s : Process ι Path Dir} (h : s.Invariant directory) :
    s.Referenced where
  count := h.count
  paths := h.paths
  balance := h.inits
  reset hfree hzero := by
    rcases h.settled hfree with ⟨hinitial, -⟩ | ⟨path, hpos, -⟩
    · exact hinitial
    · exact absurd hzero (Nat.pos_iff_ne_zero.mp hpos)

section Runs

variable [DecidableEq ι] [DecidableEq Path]

theorem invariant_of_run (hfew : Fintype.card ι < unsignedRange) {moves : List (Move ι Path)}
    {s : Process ι Path Dir} (h : Run (ofOption (next directory)) initial moves s) :
    s.Invariant directory := by
  refine h.invariant (Invariant directory) (invariant_initial hfew) ?_
  intro s m s' hs hnext
  obtain ⟨a, hstep⟩ := next_eq_some.mp hnext
  exact hs.step hstep

/-- **References.** However the opens and closes of fewer than `2 ^ 32` callers are interleaved and
    wherever an open fails, the references to the runtime are counted and the server is started
    and ended with the first and the last of them. -/
theorem references_of_run (hfew : Fintype.card ι < unsignedRange) {moves : List (Move ι Path)}
    {s : Process ι Path Dir} (h : Run (ofOption (next directory)) initial moves s) :
    s.Referenced ∧
      ∀ m a s', s.step directory m = some (a, s') → ServerCalls s m s' :=
  have hs := invariant_of_run hfew h
  ⟨hs.referenced, fun _ _ _ hstep => hs.serverCalls hstep⟩

end Runs

/-- Two callers: the first opens the database, the second opens it while the first closes its
    handle, and then closes its own. -/
def twoCallers : List (Move (Fin 2) Unit) :=
  List.replicate 9 ⟨0, (), true⟩ ++ List.replicate 4 ⟨1, (), true⟩ ++
    List.replicate 3 ⟨0, (), true⟩ ++ List.replicate 10 ⟨1, (), true⟩

theorem references_of_twoCallers :
    ∃ s : Process (Fin 2) Unit Unit,
      Run (ofOption (next some)) initial twoCallers s ∧ s.inits = 1 ∧ s.ends = 1 ∧
        s.Referenced ∧ ∀ m a s', s.step some m = some (a, s') → ServerCalls s m s' :=
  have hrun : Run (ofOption (next some)) initial twoCallers _ := run_of_foldlM _ rfl
  ⟨_, hrun, rfl, rfl, references_of_run (by decide) hrun⟩

end Process

end MyLite.Runtime
