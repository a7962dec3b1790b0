import MyLite.Directory.Creation

namespace MyLite.Directory

open MyLite.Api MyLite.Lib MyLite.Sql

/-!
# Exclusive creation

With `MYLITE_OPEN_EXCLUSIVE` an open fails if the path exists.  The test is made first and the
lock is taken last, so an open that has found the path missing can still succeed after another
one has created the directory, opened it and closed it again.

* `World.ClosesAlone` — a handle is closed when no other open is under way.
* `World.OneWinner` — the lock, the handle it belongs to, and the number of successful opens.
* `wins_le_one_of_closesAlone` — at most one open succeeds in a run in which handles are closed so.
-/

variable {loc : Location Text} {flags : UInt32} {fs : Files} {lockFree : Bool}

/-- The lock is taken by `flock` on a free lock, and an open succeeds only with the lock. -/
theorem turn_serving {stage : Stage} :
    ((turn loc flags fs lockFree stage).stage.serving = true →
      stage = .locked ∨ stage = .lockOpened ∧ lockFree = true) ∧
    ((turn loc flags fs lockFree stage).code = some .ok → stage = .locked) := by
  have hmade : ∀ goal : Goal, goal.made.serving = false := by
    intro goal
    match goal with
    | .database | .layout .datadir | .layout .tmp => rfl
  match stage with
  | .locked => exact ⟨fun _ => .inl rfl, fun _ => rfl⟩
  | .lockOpened =>
    cases lockFree with
    | true => exact ⟨fun _ => .inr ⟨rfl, rfl⟩, nofun⟩
    | false => exact ⟨nofun, nofun⟩
  | .regular =>
    dsimp only [turn]
    split
    · next content _ =>
      split_ifs with hvalid
      · exact ⟨nofun, nofun⟩
      · exact ⟨nofun, fun h => absurd (Option.some.inj h) hvalid⟩
    · exact ⟨nofun, nofun⟩
  | .creating goal | .climbing goal _ _ =>
    dsimp only [turn]
    split
    all_goals refine ⟨fun h => ?_, nofun⟩
    all_goals first | cases h | rw [hmade] at h; cases h
  | .making goal [] =>
    refine ⟨fun h => ?_, nofun⟩
    have hfalse := hmade goal
    rw [show goal.made.serving = true from h] at hfalse
    cases hfalse
  | .making _ (_ :: _) | .writing | .prepared =>
    dsimp only [turn]
    split <;> exact ⟨nofun, nofun⟩
  | .idle | .found | .directory | .withoutMetadata | .withMetadata | .checking _
  | .checked .datadir | .checked .tmp | .laidOut | .adopting =>
    dsimp only [turn]
    split_ifs <;> exact ⟨nofun, nofun⟩
  | .truncated | .opened => exact ⟨nofun, nofun⟩

namespace World

variable {π : Type*} {s s' : World π}

/-- The number of opens that have succeeded. -/
def wins (s : World π) : ℕ := s.results.countP fun r => r.2 == .ok

/-- A handle is closed only when every other process is outside `mylite_open`. -/
def ClosesAlone (s : World π) : Event π → Prop
  | .move p => s.stage p = .opened → ∀ q, q ≠ p → s.stage q = .idle
  | .serve _ _ => True

/-- Who has the lock is the only winner so far, or about to be; once the winner has closed, no
    open is under way and the path exists. -/
structure OneWinner (loc : Location Text) (s : World π) : Prop extends Sound loc s where
  holder : ∀ p, (s.stage p).serving = true ↔ s.lock = some p
  free : s.lock = none → s.wins = 0 ∨ s.wins = 1 ∧ Occupied s.fs loc ∧ ∀ p, s.stage p = .idle
  held : ∀ p, s.lock = some p → s.wins = if s.stage p = .opened then 1 else 0

theorem OneWinner.wins_le_one (h : OneWinner loc s) : s.wins ≤ 1 := by
  cases hlock : s.lock with
  | none =>
    rcases h.free hlock with hzero | ⟨hone, -⟩
    · omega
    · omega
  | some p =>
    rw [h.held p hlock]
    split <;> omega

variable [DecidableEq π]

variable {p : π}

theorem wins_move (p : π) : (s.move loc flags p).wins
    = s.wins +
      if (turn loc flags s.fs s.lock.isNone (s.stage p)).code = some .ok then 1 else 0 := by
  rw [wins, move, List.countP_append, wins, Nat.add_comm]
  congr 1
  cases (turn loc flags s.fs s.lock.isNone (s.stage p)).code with
  | none => rfl
  | some code => cases code <;> rfl

/-- What exists at the path stays there. -/
theorem Sound.occupied_move (h : Sound loc s) (p : π) (hoccupied : Occupied s.fs loc) :
    Occupied (s.move loc flags p).fs loc := by
  have hdir := h.kinds.directory_of_exists (existsAt_iff_occupied.mpr hoccupied)
  have hkept : Kept loc s.fs (s.move loc flags p).fs := (turn_spec h.kinds (h.fact p)).kept
  exact ⟨.directory, hkept.directories loc (.inl (List.suffix_refl loc)) hdir, by decide⟩

section

variable (h : OneWinner loc s)

include h

/-- A call that has nothing to do with the lock. -/
theorem OneWinner.quiet (hstage : (s.stage p).serving = false)
    (hnext : (turn loc flags s.fs s.lock.isNone (s.stage p)).stage.serving = false)
    (hcode : (turn loc flags s.fs s.lock.isNone (s.stage p)).code ≠ some .ok)
    (hlock : s.lockAfter p = s.lock) (hidle : s.stage p = .idle → Occupied s.fs loc →
      (turn loc flags s.fs s.lock.isNone (s.stage p)).stage = .idle) :
    OneWinner loc (s.move loc flags p) := by
  have hlock' : (s.move loc flags p).lock = s.lock := hlock
  have hwins : (s.move loc flags p).wins = s.wins := by rw [wins_move, if_neg hcode, Nat.add_zero]
  have hother : s.lock ≠ some p := by
    rw [Ne, ← h.holder p, hstage]
    exact Bool.false_ne_true
  refine ⟨h.toSound.move p, fun q => ?_, fun hfree => ?_, fun q hq => ?_⟩
  · by_cases hqp : q = p
    · rw [hqp, stage_move_self, hnext, hlock']
      exact ⟨nofun, fun heq => absurd heq hother⟩
    · rw [stage_move_of_ne hqp, hlock']
      exact h.holder q
  · rw [hwins]
    rw [hlock'] at hfree
    refine (h.free hfree).imp_right fun ⟨hone, hoccupied, hall⟩ =>
      ⟨hone, h.toSound.occupied_move p hoccupied, fun q => ?_⟩
    by_cases hqp : q = p
    · rw [hqp, stage_move_self]
      exact hidle (hall p) hoccupied
    · rw [stage_move_of_ne hqp]
      exact hall q
  · rw [hlock'] at hq
    have hqp : q ≠ p := by
      rintro rfl
      exact hother hq
    rw [hwins, stage_move_of_ne hqp]
    exact h.held q hq

/-- A call behind which the process has the lock, and no other one had it.  No open has succeeded
    before. -/
theorem OneWinner.owned {t : Turn} (hturn : turn loc flags s.fs s.lock.isNone (s.stage p) = t)
    (hlock : s.lockAfter p = some p) (hothers : ∀ q, q ≠ p → s.lock ≠ some q)
    (hserving : t.stage.serving = true) (hzero : s.wins = 0)
    (hcode : t.code = some .ok ↔ t.stage = .opened) : OneWinner loc (s.move loc flags p) := by
  have hlock : (s.move loc flags p).lock = some p := hlock
  have hstage : (s.move loc flags p).stage p = t.stage := by rw [stage_move_self, hturn]
  refine ⟨h.toSound.move p, fun q => ?_, fun hnone => ?_, fun q hq => ?_⟩
  · rw [hlock]
    by_cases hqp : q = p
    · rw [hqp, hstage, hserving]
      exact ⟨fun _ => rfl, fun _ => rfl⟩
    · rw [stage_move_of_ne hqp, h.holder q]
      exact ⟨fun heq => absurd heq (hothers q hqp),
        fun heq => absurd (Option.some.inj heq).symm hqp⟩
  · rw [hlock] at hnone
    cases hnone
  · rw [hlock] at hq
    obtain rfl := Option.some.inj hq
    simp only [wins_move, hturn, hzero, hstage, hcode, Nat.zero_add]

/-- The lock is taken: no open has succeeded yet. -/
theorem OneWinner.take (hstage : s.stage p = .lockOpened) (hfree : s.lock = none) :
    OneWinner loc (s.move loc flags p) := by
  refine h.owned (t := ⟨s.fs, .locked, none⟩) ?_ ?_ (fun q _ => by rw [hfree]; exact nofun) rfl ?_
    (iff_of_false nofun nofun)
  · rw [hstage, hfree]
    rfl
  · rw [lockAfter, hstage, hfree]
    rfl
  · refine (h.free hfree).resolve_right fun ⟨_, _, hall⟩ => ?_
    have hidle := hall p
    rw [hstage] at hidle
    cases hidle

/-- The process with the lock returns from its open. -/
theorem OneWinner.win (hstage : s.stage p = .locked) : OneWinner loc (s.move loc flags p) := by
  have hheld : s.lock = some p := (h.holder p).mp (by rw [hstage]; rfl)
  refine h.owned (t := ⟨s.fs, .opened, some .ok⟩) (by rw [hstage]; rfl) ?_ (fun q hqp heq => ?_)
    rfl ?_ (iff_of_true rfl rfl)
  · rw [lockAfter, hstage, hheld]
  · exact hqp (Option.some.inj (heq.symm.trans hheld))
  · rw [h.held p hheld, hstage]
    rfl

/-- The winner closes its handle while no open is under way. -/
theorem OneWinner.close (hstage : s.stage p = .opened) (hothers : ∀ q, q ≠ p → s.stage q = .idle) :
    OneWinner loc (s.move loc flags p) := by
  have hheld : s.lock = some p := (h.holder p).mp (by rw [hstage]; rfl)
  have hturn : turn loc flags s.fs s.lock.isNone (s.stage p) = ⟨s.fs, .idle, none⟩ := by
    rw [hstage]
    rfl
  have hlock : (s.move loc flags p).lock = none := by
    show s.lockAfter p = none
    rw [lockAfter, hstage]
  have hone : s.wins = 1 := by rw [h.held p hheld, hstage]; rfl
  have hwins : (s.move loc flags p).wins = 1 := by rw [wins_move, hturn, hone]; rfl
  have hidle : ∀ q, (s.move loc flags p).stage q = .idle := by
    intro q
    by_cases hqp : q = p
    · rw [hqp, stage_move_self, hturn]
    · rw [stage_move_of_ne hqp]
      exact hothers q hqp
  have hfact := h.fact p
  rw [hstage] at hfact
  have hoccupied : Occupied s.fs loc :=
    ⟨.directory, FileSystem.lookup_parent (hfact.1 .datadir), by decide⟩
  refine ⟨h.toSound.move p, fun q => ?_, fun _ => ?_, fun q hq => ?_⟩
  · rw [hlock, hidle]
    exact ⟨nofun, nofun⟩
  · exact .inr ⟨hwins, h.toSound.occupied_move p hoccupied, hidle⟩
  · rw [hlock] at hq
    cases hq

theorem OneWinner.move (hexclusive : hasFlag flags openExclusive = true)
    (hguard : s.ClosesAlone (.move p)) : OneWinner loc (s.move loc flags p) := by
  by_cases hlocked : s.stage p = .locked
  · exact h.win hlocked
  by_cases hopened : s.stage p = .opened
  · exact h.close hopened (hguard hopened)
  by_cases htake : s.stage p = .lockOpened ∧ s.lock = none
  · exact h.take htake.1 htake.2
  -- whatever else the process does, it neither has nor takes the lock
  refine h.quiet ?_ ?_ ?_ ?_ ?_
  · cases hstage : s.stage p <;>
      first | rfl | exact absurd hstage hlocked | exact absurd hstage hopened
  · rw [Bool.eq_false_iff]
    intro hserving
    rcases turn_serving.1 hserving with heq | ⟨heq, hfree⟩
    · exact hlocked heq
    · exact htake ⟨heq, Option.isNone_iff_eq_none.mp hfree⟩
  · exact fun hcode => hlocked (turn_serving.2 hcode)
  · rw [lockAfter]
    split
    · next hstage =>
      rw [if_neg fun hfree => htake ⟨hstage, Option.isNone_iff_eq_none.mp hfree⟩]
    · next hstage => exact absurd hstage hopened
    · rfl
  · intro hidle hoccupied
    rw [hidle]
    dsimp only [turn]
    rw [if_pos (existsAt_iff_occupied.mpr hoccupied), if_pos hexclusive]

theorem OneWinner.step (hexclusive : hasFlag flags openExclusive = true) {e : Event π}
    (hguard : s.ClosesAlone e) (hstep : s.step loc flags e = some s') : OneWinner loc s' := by
  obtain ⟨p, rfl, rfl⟩ | ⟨p, fs, -, hserving, hplaces, rfl⟩ := step_cases hstep
  · exact h.move hexclusive hguard
  · refine ⟨h.toSound.serve hserving hplaces, h.holder, fun hfree => ?_, h.held⟩
    rw [show s.lock = some p from (h.holder p).mp hserving] at hfree
    cases hfree

end

/-- **Exclusive creation.** From a missing path, at most one open with `MYLITE_OPEN_EXCLUSIVE`
    succeeds in a run in which a handle is closed only while no other open is under way. -/
theorem wins_le_one_of_closesAlone {fs : Files} (hcreatable : Creatable fs loc)
    (hmissing : ¬Occupied fs loc) (hexclusive : hasFlag flags openExclusive = true)
    {events : List (Event π)}
    (hrun : Run (Restrict ClosesAlone (ofOption (step loc flags))) (initial fs) events s) :
    s.wins ≤ 1 := by
  have hvacant : Vacant fs loc := by
    intro name
    by_contra hne
    obtain ⟨node, hnode⟩ := Option.ne_none_iff_exists'.mp hne
    exact hmissing ⟨.directory, FileSystem.lookup_parent hnode, by decide⟩
  have hinitial : OneWinner loc (initial fs : World π) :=
    ⟨sound_initial hcreatable hvacant, fun _ => ⟨nofun, nofun⟩,
      fun _ => .inl rfl, nofun⟩
  have hfinal := hrun.invariant (OneWinner loc) hinitial
    fun hs hstep => hs.step hexclusive hstep.1 hstep.2
  exact hfinal.wins_le_one

end World

/-! ### Two winners -/

/-- The flags of an exclusive creation. -/
def createExclusive : UInt32 := openCreate ||| openExclusive

theorem not_occupied_empty : ¬Occupied FileSystem.empty dbLocation := by
  rintro ⟨_, h, -⟩
  cases h

instance (s : World (Fin 2)) (e : Event (Fin 2)) : Decidable (s.ClosesAlone e) :=
  match e with
  | .move p => inferInstanceAs (Decidable (s.stage p = .opened → ∀ _ : Fin 2, _ → _))
  | .serve _ _ => inferInstanceAs (Decidable True)

/-- Both processes find the path missing; the other one is locked out before the winner closes. -/
def lockedOut : List (Event (Fin 2)) :=
  [.move ⟨1, Nat.one_lt_two⟩] ++ List.replicate 19 (.move ⟨0, Nat.zero_lt_two⟩) ++
    List.replicate 7 (.move ⟨1, Nat.one_lt_two⟩) ++ [.move ⟨0, Nat.zero_lt_two⟩]

theorem wins_le_one_of_lockedOut : ∃ s : World (Fin 2),
    Run (Restrict World.ClosesAlone (ofOption (World.step dbLocation createExclusive)))
      (.initial FileSystem.empty) lockedOut s ∧ s.wins = 1 ∧ s.wins ≤ 1 := by
  have hrun : Run (Restrict World.ClosesAlone (ofOption (World.step dbLocation createExclusive)))
      (.initial FileSystem.empty) lockedOut _ := run_restrict_of_foldlM _ _ rfl
  exact ⟨_, hrun, rfl,
    World.wins_le_one_of_closesAlone creatable_empty not_occupied_empty (by decide) hrun⟩

/-- Both processes find the path missing; the first one opens it and closes it again. -/
def openedTwice : List (Event (Fin 2)) :=
  [.move ⟨1, Nat.one_lt_two⟩] ++ List.replicate 20 (.move ⟨0, Nat.zero_lt_two⟩) ++
    List.replicate 8 (.move ⟨1, Nat.one_lt_two⟩)

/-- Then the other open succeeds as well. -/
theorem two_wins_of_openedTwice : ∃ s : World (Fin 2),
    Run (ofOption (World.step dbLocation createExclusive))
      (.initial FileSystem.empty) openedTwice s ∧
    s.results = [(1, .ok), (0, .ok)] ∧ s.wins = 2 :=
  ⟨_, run_of_foldlM _ rfl, rfl, rfl⟩

end MyLite.Directory
