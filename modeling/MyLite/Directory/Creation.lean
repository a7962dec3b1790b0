import MyLite.Directory.Turns
import MyLite.Lib.Run
import Mathlib.Logic.Function.Basic

namespace MyLite.Directory

open MyLite.Api MyLite.Lib MyLite.Sql

/-!
# Processes that open one database path

Any number of processes open and close one path, each with a single caller, and their calls into
the file system are interleaved in any order.  Nothing else touches the directory; who holds the
lock may change whatever is not part of the layout.

* `World`, `Event`, `World.step` — the processes, the shared file system and the lock.
* `World.Sound` — what holds in every run that starts from a missing or empty directory.
* `World.Calm` — no process looks at the directory while another one initializes it.
-/

/-- The file system, who has the lock, where every process is, and what the opens have returned,
    the last one first. -/
structure World (π : Type*) where
  fs : Files
  lock : Option π
  stage : π → Stage
  results : List (π × Result)

/-- A process makes its next call, or the process with the lock works in the directory. -/
inductive Event (π : Type*)
  | move (p : π)
  | serve (p : π) (fs : Files)

/-- The places the runtime leaves alone. -/
def places (loc : Location Text) : List (Location Text) :=
  loc.tails ++ [metaFilename :: loc, datadirName :: loc, tmpdirName :: loc, lockFilename :: loc]

/-- The runtime is up. -/
def Stage.serving : Stage → Bool
  | .locked | .opened => true
  | _ => false

namespace World

variable {π : Type*}

/-- No process has started. -/
def initial (fs : Files) : World π := ⟨fs, none, fun _ => .idle, []⟩

section Steps

variable [DecidableEq π] (loc : Location Text) (flags : UInt32) (s : World π)

/-- Who has the lock after a call of `p`. -/
def lockAfter (p : π) : Option π :=
  match s.stage p with
  | .lockOpened => if s.lock.isNone then some p else s.lock
  | .opened => none
  | _ => s.lock

/-- The next call of `p`. -/
def move (p : π) : World π :=
  let t := turn loc flags s.fs s.lock.isNone (s.stage p)
  { fs := t.fs
    lock := s.lockAfter p
    stage := Function.update s.stage p t.stage
    results := (t.code.map fun code => (p, code)).toList ++ s.results }

/-- One event. -/
def step : Event π → Option (World π)
  | .move p => some (s.move loc flags p)
  | .serve p fs =>
    if (s.stage p).serving = true ∧ ∀ l ∈ places loc, fs.lookup l = s.fs.lookup l then
      some { s with fs := fs }
    else none

end Steps

/-! ### In every run -/

variable {loc : Location Text} {flags : UInt32} {s s' : World π}

/-- What holds whatever the processes do. -/
structure Sound (loc : Location Text) (s : World π) : Prop where
  kinds : Kinds loc s.fs
  fact : ∀ p, Fact loc s.fs (s.stage p)
  /-- Metadata without its lines is about to be written. -/
  written : ∀ content, s.fs.lookup (metaFilename :: loc) = some (.file content) →
    ¬ValidMetadata content → ∃ p, s.stage p = .truncated
  /-- The directory is empty, or complete, or being initialized. -/
  begun : Vacant s.fs loc ∨ Settled loc s.fs ∨ ∃ p, (s.stage p).initializing = true

/-- A missing or an empty directory with nothing in the way. -/
theorem sound_initial {fs : Files} (hcreatable : Creatable fs loc) (hvacant : Vacant fs loc) :
    Sound loc (initial fs : World π) where
  kinds := ⟨hcreatable, fun _ => .inl (hvacant _), .inl (hvacant _), .inr (hvacant _)⟩
  fact _ := trivial
  written content hfile := by
    rw [initial, hvacant] at hfile
    cases hfile
  begun := .inl hvacant

variable {p : π}

theorem serving_settled (h : Sound loc s) (hserving : (s.stage p).serving = true) :
    Settled loc s.fs := by
  have hfact := h.fact p
  revert hserving hfact
  cases s.stage p <;> intro hserving hfact
  case locked | opened => exact hfact
  all_goals cases hserving

/-- The work of the runtime keeps the layout. -/
theorem Sound.serve (h : Sound loc s) {fs : Files} (hserving : (s.stage p).serving = true)
    (hplaces : ∀ l ∈ places loc, fs.lookup l = s.fs.lookup l) : Sound loc { s with fs := fs } := by
  have habove : ∀ l, l <:+ loc → fs.lookup l = s.fs.lookup l := fun l hl =>
    hplaces l (List.mem_append_left _ ((List.mem_tails l loc).mpr hl))
  have hlayout : ∀ directory : LayoutDirectory,
      fs.lookup (directory.name :: loc) = s.fs.lookup (directory.name :: loc) := by
    intro directory
    apply hplaces
    cases directory <;> simp [places, LayoutDirectory.name]
  have hmeta : fs.lookup (metaFilename :: loc) = s.fs.lookup (metaFilename :: loc) :=
    hplaces _ (by simp [places])
  have hlock : fs.lookup (lockFilename :: loc) = s.fs.lookup (lockFilename :: loc) :=
    hplaces _ (by simp [places])
  have hkept : Kept loc s.fs fs := by
    refine ⟨fun l hl hdir => ?_, fun ⟨content, hcontent⟩ => ⟨content, hmeta.trans hcontent⟩⟩
    rcases hl with hs | ⟨directory, rfl⟩
    · rw [habove l hs]
      exact hdir
    · rw [hlayout]
      exact hdir
  have hsettled := hkept.settled (serving_settled h hserving)
  refine ⟨⟨fun l hl => ?_, fun directory => ?_, .inr hsettled, ?_⟩, fun q => (h.fact q).mono hkept,
    fun content hcontent => ?_, .inr (.inl hsettled)⟩
  · rw [habove l hl]
    exact h.kinds.above l hl
  · rw [hlayout]
    exact h.kinds.layout directory
  · rw [FileSystem.isRegularFile, hlock]
    exact h.kinds.lockFile
  · rw [hmeta] at hcontent
    exact h.written content hcontent

variable [DecidableEq π]

variable {e : Event π}

theorem stage_move_self (p : π) : (s.move loc flags p).stage p
    = (turn loc flags s.fs s.lock.isNone (s.stage p)).stage := Function.update_self ..

theorem stage_move_of_ne {q : π} (h : q ≠ p) : (s.move loc flags p).stage q = s.stage q :=
  Function.update_of_ne h ..

theorem step_cases (h : s.step loc flags e = some s') :
    (∃ p, e = .move p ∧ s' = s.move loc flags p) ∨
      ∃ p fs, e = .serve p fs ∧ (s.stage p).serving = true ∧
        (∀ l ∈ places loc, fs.lookup l = s.fs.lookup l) ∧ s' = { s with fs := fs } := by
  cases e with
  | move p => exact .inl ⟨p, rfl, (Option.some.inj h).symm⟩
  | serve p fs =>
    rw [World.step] at h
    split at h
    · next hserve => exact .inr ⟨p, fs, rfl, hserve.1, hserve.2, (Option.some.inj h).symm⟩
    · cases h

/-- A call of one process. -/
theorem Sound.move (h : Sound loc s) (p : π) : Sound loc (s.move loc flags p) := by
  obtain ⟨hkept, hkinds, hfact, hwritten, hvacant, hbegun⟩ :
      TurnSpec loc s.fs (s.stage p) (turn loc flags s.fs s.lock.isNone (s.stage p)) :=
    turn_spec h.kinds (h.fact p)
  refine ⟨hkinds, fun q => ?_, fun content hfile hinvalid => ?_, ?_⟩
  · by_cases hq : q = p
    · rw [hq, stage_move_self]
      exact hfact
    · rw [stage_move_of_ne hq]
      exact (h.fact q).mono hkept
  · rcases hwritten content hfile hinvalid with hnew | ⟨hold, hne⟩
    · exact ⟨p, (stage_move_self p).trans hnew⟩
    · obtain ⟨q, hq⟩ := h.written content hold hinvalid
      have hqp : q ≠ p := by
        rintro rfl
        exact hne hq
      exact ⟨q, (stage_move_of_ne hqp).trans hq⟩
  · rcases h.begun with hempty | hsettled | ⟨q, hq⟩
    · cases hinit : (s.stage p).initializing with
      | false => exact .inl (hvacant hinit hempty)
      | true =>
        rcases hbegun hinit with hgoes | hsettled
        · exact .inr (.inr ⟨p, by rw [stage_move_self]; exact hgoes⟩)
        · exact .inr (.inl hsettled)
    · exact .inr (.inl (hkept.settled hsettled))
    · by_cases hqp : q = p
      · subst hqp
        rcases hbegun hq with hgoes | hsettled
        · exact .inr (.inr ⟨q, by rw [stage_move_self]; exact hgoes⟩)
        · exact .inr (.inl hsettled)
      · exact .inr (.inr ⟨q, by rw [stage_move_of_ne hqp]; exact hq⟩)

/-! ### Calm runs -/

/-- No process looks at the directory while another one initializes it. -/
def Calm (s : World π) : Prop :=
  ∀ p q, (s.stage p).examining = true → (s.stage q).initializing = false

/-- What holds besides as long as the run is calm: who has found no metadata is in an empty
    directory, and no open has failed. -/
structure Undisturbed (loc : Location Text) (s : World π) : Prop extends Sound loc s where
  empty : ∀ p, s.stage p = .withoutMetadata → Vacant s.fs loc
  answered : ∀ r ∈ s.results, r.2 = .ok ∨ r.2 = .busy

omit [DecidableEq π] in
/-- In a calm state a process that looks at the directory finds it empty or complete. -/
theorem Sound.vacant_or_wellformed (h : Sound loc s) (hcalm : s.Calm)
    (hp : (s.stage p).examining = true) : Vacant s.fs loc ∨ Wellformed s.fs loc := by
  rcases h.begun with hvacant | hsettled | ⟨q, hq⟩
  · exact .inl hvacant
  · obtain ⟨hlaid, content, hfile⟩ := hsettled
    refine .inr ⟨⟨content, hfile, ?_⟩, hlaid .datadir, hlaid .tmp⟩
    by_contra hinvalid
    obtain ⟨q, hq⟩ := h.written content hfile hinvalid
    have hinit := hcalm p q hp
    rw [hq] at hinit
    cases hinit
  · rw [hcalm p q hp] at hq
    cases hq

/-- A call adds what it returns. -/
theorem mem_results_move {r : π × Result} (hr : r ∈ (s.move loc flags p).results) :
    (turn loc flags s.fs s.lock.isNone (s.stage p)).code = some r.2 ∨ r ∈ s.results := by
  rcases List.mem_append.mp hr with hnew | hold
  · rw [Option.mem_toList] at hnew
    obtain ⟨code, hcode, rfl⟩ := Option.map_eq_some_iff.mp hnew
    exact .inl hcode
  · exact .inr hold

theorem Undisturbed.move (h : Undisturbed loc s) (hcalm : s.Calm)
    (hcreate : hasFlag flags openCreate = true) (hexclusive : hasFlag flags openExclusive = false)
    (p : π) : Undisturbed loc (s.move loc flags p) := by
  refine ⟨h.toSound.move p, fun q hq => ?_, fun r hr => ?_⟩
  · by_cases hqp : q = p
    · rw [hqp, stage_move_self] at hq
      obtain ⟨hstage, hexists, hfs⟩ := turn_withoutMetadata hq
      show Vacant (turn loc flags s.fs s.lock.isNone (s.stage p)).fs loc
      rw [hfs]
      refine (h.vacant_or_wellformed hcalm (by rw [hstage]; rfl)).resolve_right ?_
      rintro ⟨⟨content, hfile, -⟩, -, -⟩
      rw [FileSystem.existsAt_of_lookup hfile nofun] at hexists
      cases hexists
    · have hold : s.stage q = .withoutMetadata := by rwa [stage_move_of_ne hqp] at hq
      have hout : (s.stage p).initializing = false := hcalm q p (by rw [hold]; rfl)
      exact (turn_spec h.kinds (h.fact p)).vacant hout (h.empty q hold)
  · rcases mem_results_move hr with hcode | hold
    · rcases turn_code h.kinds (h.fact p) hcreate hexclusive hcode with hok | hbusy | ⟨-, hbad⟩
      · exact .inl hok
      · exact .inr hbusy
      · exfalso
        rcases hbad with ⟨hstage, hvacant⟩ | ⟨hstage, hwell⟩
        · exact hvacant (h.empty p hstage)
        · have hfact := h.fact p
          rw [hstage] at hfact
          rcases h.vacant_or_wellformed hcalm (p := p) (by rw [hstage]; rfl) with hvacant | hok
          · exact Settled.not_vacant hfact hvacant
          · exact hwell hok
    · exact h.answered r hold

theorem Undisturbed.step (h : Undisturbed loc s) (hcalm : s.Calm)
    (hcreate : hasFlag flags openCreate = true) (hexclusive : hasFlag flags openExclusive = false)
    (hstep : s.step loc flags e = some s') : Undisturbed loc s' := by
  obtain ⟨p, -, rfl⟩ | ⟨p, fs, -, hserving, hplaces, rfl⟩ := step_cases hstep
  · exact h.move hcalm hcreate hexclusive p
  · refine ⟨h.toSound.serve hserving hplaces, fun q hq => ?_, h.answered⟩
    exact absurd (h.empty q hq) (serving_settled h.toSound hserving).not_vacant

/-- **Concurrent creation.** From a missing or empty directory, opens with `MYLITE_OPEN_CREATE`
    succeed or are locked out in every run in which no process looks at the directory while
    another one initializes it. -/
theorem ok_or_busy_of_calm {fs : Files} (hcreatable : Creatable fs loc) (hvacant : Vacant fs loc)
    (hcreate : hasFlag flags openCreate = true) (hexclusive : hasFlag flags openExclusive = false)
    {events : List (Event π)}
    (hrun : Run (Restrict (fun s _ => s.Calm) (ofOption (step loc flags))) (initial fs) events s) :
    ∀ r ∈ s.results, r.2 = .ok ∨ r.2 = .busy := by
  have hinitial : Undisturbed loc (initial fs : World π) :=
    ⟨sound_initial hcreatable hvacant, nofun, nofun⟩
  have hfinal := hrun.invariant (Undisturbed loc) hinitial
    fun hs hstep => hs.step hstep.1 hcreate hexclusive hstep.2
  exact hfinal.answered

end World

/-! ### Two processes -/

/-- The place `/db`. -/
def dbLocation : Location Text := [ascii "db"]

theorem creatable_empty : Creatable FileSystem.empty dbLocation := by
  intro l _
  cases l with
  | nil => exact .inr rfl
  | cons name l => exact .inl rfl

theorem vacant_empty : Vacant FileSystem.empty dbLocation := fun _ => rfl

instance (s : World (Fin 2)) : Decidable s.Calm :=
  inferInstanceAs (Decidable (∀ _ _ : Fin 2, _ → _))

/-- A process opens the missing path, and then the other one finds the lock taken. -/
def oneAfterTheOther : List (Event (Fin 2)) :=
  List.replicate 19 (.move ⟨0, Nat.zero_lt_two⟩) ++ List.replicate 12 (.move ⟨1, Nat.one_lt_two⟩)

theorem ok_or_busy_of_oneAfterTheOther : ∃ s : World (Fin 2),
    Run (Restrict (fun s _ => s.Calm) (ofOption (World.step dbLocation openCreate)))
      (.initial FileSystem.empty) oneAfterTheOther s ∧
    s.results = [(1, .busy), (0, .ok)] ∧ ∀ r ∈ s.results, r.2 = .ok ∨ r.2 = .busy := by
  have hrun : Run (Restrict (fun s _ => s.Calm) (ofOption (World.step dbLocation openCreate)))
      (.initial FileSystem.empty) oneAfterTheOther _ :=
    run_restrict_of_foldlM _ _ rfl
  exact ⟨_, hrun, rfl,
    World.ok_or_busy_of_calm creatable_empty vacant_empty (by decide) (by decide) hrun⟩

/-- A process has made `datadir` in the missing path, and then the other one looks. -/
def halfMade : List (Event (Fin 2)) :=
  List.replicate 8 (.move ⟨0, Nat.zero_lt_two⟩) ++ List.replicate 4 (.move ⟨1, Nat.one_lt_two⟩)

/-- The other process finds the directory corrupt. -/
theorem corrupt_of_halfMade : ∃ s : World (Fin 2),
    Run (ofOption (World.step dbLocation openCreate)) (.initial FileSystem.empty) halfMade s ∧
    s.results = [(1, .corrupt)] :=
  ⟨_, run_of_foldlM _ rfl, rfl⟩

end MyLite.Directory
