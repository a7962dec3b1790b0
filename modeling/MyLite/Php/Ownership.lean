import MyLite.Lib.Run
import MyLite.Runtime.Shutdown

namespace MyLite.Php

open MyLite.Lib Function

/-!
# Who owns a database handle

A mysqli link keeps the `mylite_db` it has opened in `link->db`, and a mysqli statement keeps its
link alive.  `mylite_close` refuses a handle with statements: `close` then keeps the handle in the
link, while a second connect on the same link and the destruction of the link forget it either way.

* `Script` — the link and statement objects of a script, the open handles and the runtime.
* `ScriptCall`, `Script.next` — connecting, preparing, closing, and references that come and go.
* `Script.Owned` — every open handle is in exactly one link.
* `owned_iff` — the runs in which that stays so.

Objects and handles are known by their addresses.  The references to an object are those of the
script, counted in `held`, and those of the statements, of which the link has the set.
-/

/-! ### Objects and handles -/

/-- `php_mylite_mysqli_link` with the references to it. -/
structure LinkObject where
  held : ℕ := 1
  holders : Finset ℕ := ∅
  db : Option ℕ := none
  deriving DecidableEq

/-- `php_mylite_mysqli_stmt`: the references of the script, `link_object`, and the handle of its
    `mylite_stmt`. -/
structure StmtObject where
  held : ℕ := 1
  link : ℕ
  db : ℕ
  deriving DecidableEq

/-- The objects of a script, and what the library keeps: the open handles, their statements (whose
    number is `active_statement_count`), and the runtime. -/
structure Script (Path : Type) where
  links : ℕ → Option LinkObject := fun _ => none
  stmts : ℕ → Option StmtObject := fun _ => none
  dbs : Finset ℕ := ∅
  statements : ℕ → Finset ℕ := fun _ => ∅
  refCount : ℕ := 0
  databasePath : Option Path := none

namespace Script

variable {Path : Type} [DecidableEq Path] (s : Script Path)

/-- The link at an address is changed, made or freed. -/
def setLink (l : ℕ) (o : Option LinkObject) : Script Path :=
  { s with links := update s.links l o }

/-! ### The library -/

/-- `mylite_open`: refused while the runtime belongs to another path; otherwise the call fails for
    reasons of its own, or it returns a handle at a free address. -/
def myliteOpen (path : Path) (opens : Option ℕ) : Option ℕ × Script Path :=
  if 0 < s.refCount ∧ s.databasePath ≠ some path then (none, s)
  else match opens with
    | none => (none, s)
    | some d =>
      if d ∈ s.dbs then (none, s)
      else (some d, { s with
        dbs := insert d s.dbs
        statements := update s.statements d ∅
        refCount := s.refCount + 1
        databasePath := some path })

/-- `mylite_close`: `false` for `MYLITE_BUSY`. -/
def myliteClose (d : ℕ) : Bool × Script Path :=
  if 0 < (s.statements d).card then (false, s)
  else (true, { s with
    dbs := s.dbs.erase d
    refCount := s.refCount - 1
    databasePath := if s.refCount = 1 then none else s.databasePath })

/-! ### The extension -/

/-- `php_mylite_mysqli_open_link`, where the path is `none` if it is empty.  What `mylite_close`
    returns is not looked at. -/
def openLink (l : ℕ) (o : LinkObject) (path : Option Path) (opens : Option ℕ) :
    Bool × Script Path :=
  match path with
  | none => (false, s)
  | some path =>
    let s := match o.db with
      | some d => (s.myliteClose d).2.setLink l (some { o with db := none })
      | none => s
    match s.myliteOpen path opens with
    | (none, s) => (false, s)
    | (some d, s) => (true, s.setLink l (some { o with db := some d }))

/-- `php_mylite_mysqli_link_free`. -/
def linkFree (l : ℕ) (o : LinkObject) : Script Path :=
  match o.db with
  | some d => (s.myliteClose d).2.setLink l none
  | none => s.setLink l none

/-- A reference to a link has gone: the object is freed with the last one. -/
def releaseLink (l : ℕ) (o : LinkObject) : Script Path :=
  if o.held + o.holders.card = 0 then s.linkFree l o else s.setLink l (some o)

/-- `php_mylite_mysqli_connect_impl` and the `select_database` behind it: the new object is released
    if one of them fails. -/
def connectImpl (l : ℕ) (path : Option Path) (opens : Option ℕ) (selects : Bool) : Script Path :=
  match (s.setLink l (some {})).openLink l {} path opens with
  | (opened, s) =>
    if opened && selects then s
    else match s.links l with
      | some o => s.releaseLink l { o with held := o.held - 1 }
      | none => s

/-- `php_mylite_mysqli_prepare_impl`, where the statement gets the address `st`. -/
def prepareImpl (l : ℕ) (o : LinkObject) (st : ℕ) (accepted : Bool) : Script Path :=
  match o.db with
  | none => s
  | some d =>
    if !accepted then s
    else
      { s with
        statements := update s.statements d (insert st (s.statements d))
        stmts := update s.stmts st (some { link := l, db := d })
      }.setLink l (some { o with holders := insert st o.holders })

/-- `mysqli::close`. -/
def close (l : ℕ) (o : LinkObject) : Script Path :=
  match o.db with
  | none => s
  | some d =>
    match s.myliteClose d with
    | (false, s) => s
    | (true, s) => s.setLink l (some { o with db := none })

/-- `php_mylite_mysqli_stmt_free`: `mylite_finalize`, then the reference to the link goes. -/
def stmtFree (st : ℕ) (t : StmtObject) : Script Path :=
  let s := { s with
    statements := update s.statements t.db ((s.statements t.db).erase st)
    stmts := update s.stmts st none }
  match s.links t.link with
  | none => s
  | some o => s.releaseLink t.link { o with holders := o.holders.erase st }

end Script

/-! ### Calls of a script -/

/-- What a script can do with its objects. -/
inductive ScriptCall (Path : Type)
  /-- A link object without a connection, such as `mysqli_init` returns. -/
  | init (link : ℕ)
  /-- `real_connect`, or the constructor on an existing object. -/
  | connect (link : ℕ) (path : Option Path) (opens : Option ℕ)
  /-- `mysqli_connect`. -/
  | connectNew (link : ℕ) (path : Option Path) (opens : Option ℕ) (selects : Bool)
  | prepare (link stmt : ℕ) (accepted : Bool)
  | close (link : ℕ)
  | copyLink (link : ℕ)
  | copyStmt (stmt : ℕ)
  /-- A reference goes, and the object with the last one. -/
  | dropLink (link : ℕ)
  | dropStmt (stmt : ℕ)

namespace Script

variable {Path : Type} [DecidableEq Path]

/-- A call.  It does nothing where the script has no reference to the object, or the address of a
    new object is not free. -/
def next (s : Script Path) : ScriptCall Path → Script Path
  | .init l => if s.links l = none then s.setLink l (some {}) else s
  | .connect l path opens =>
    match s.links l with
    | some o => if 0 < o.held then (s.openLink l o path opens).2 else s
    | none => s
  | .connectNew l path opens selects =>
    if s.links l = none then s.connectImpl l path opens selects else s
  | .prepare l st accepted =>
    match s.links l with
    | some o => if 0 < o.held ∧ s.stmts st = none then s.prepareImpl l o st accepted else s
    | none => s
  | .close l =>
    match s.links l with
    | some o => if 0 < o.held then s.close l o else s
    | none => s
  | .copyLink l =>
    match s.links l with
    | some o => if 0 < o.held then s.setLink l (some { o with held := o.held + 1 }) else s
    | none => s
  | .copyStmt st =>
    match s.stmts st with
    | some t => { s with stmts := update s.stmts st (some { t with held := t.held + 1 }) }
    | none => s
  | .dropLink l =>
    match s.links l with
    | some o => if 0 < o.held then s.releaseLink l { o with held := o.held - 1 } else s
    | none => s
  | .dropStmt st =>
    match s.stmts st with
    | some t =>
      if t.held ≤ 1 then s.stmtFree st t
      else { s with stmts := update s.stmts st (some { t with held := t.held - 1 }) }
    | none => s

/-- Every open handle is in exactly one link, and when no object is left, every handle has been
    closed and the runtime has no references. -/
structure Owned (s : Script Path) : Prop where
  owner : ∀ d ∈ s.dbs, ∃! l, ∃ o, s.links l = some o ∧ o.db = some d
  released : (∀ l, s.links l = none) → (∀ st, s.stmts st = none) → s.dbs = ∅ ∧ s.refCount = 0

/-- A link that has a handle is connected again only while the handle has no statement. -/
def Reconnects (s : Script Path) : ScriptCall Path → Prop
  | .connect l (some _) _ => ∀ o d, s.links l = some o → 0 < o.held → o.db = some d →
      s.statements d = ∅
  | _ => True

/-! ### The invariant -/

omit [DecidableEq Path]

/-- The invariant of the runs.  The handle of a link is open and has the statements that hold the
    link; a link without a handle is held by none. -/
structure Sound (s : Script Path) : Prop where
  opened : ∀ {l o d}, s.links l = some o → o.db = some d → d ∈ s.dbs ∧ s.statements d = o.holders
  closed : ∀ {l o}, s.links l = some o → o.db = none → o.holders = ∅
  holder : ∀ {l o st}, s.links l = some o → st ∈ o.holders → ∃ t, s.stmts st = some t ∧ t.link = l
  stmt : ∀ {st t}, s.stmts st = some t →
    ∃ o, s.links t.link = some o ∧ st ∈ o.holders ∧ o.db = some t.db
  owner : ∀ {d}, d ∈ s.dbs → ∃ l o, s.links l = some o ∧ o.db = some d
  unique : ∀ {l l' o o' d}, s.links l = some o → s.links l' = some o' → o.db = some d →
    o'.db = some d → l = l'
  count : s.refCount = s.dbs.card

theorem sound_initial : Sound ({} : Script Path) where
  opened h := nomatch h
  closed h := nomatch h
  holder h := nomatch h
  stmt h := nomatch h
  owner hd := absurd hd (Finset.notMem_empty _)
  unique h := nomatch h
  count := rfl

variable {s : Script Path}

variable {l d st : ℕ} {o : LinkObject} {t : StmtObject}

theorem Sound.owned (hs : s.Sound) : s.Owned := by
  constructor
  · intro d hd
    obtain ⟨l, o, hl, ho⟩ := hs.owner hd
    refine ⟨l, ⟨o, hl, ho⟩, ?_⟩
    rintro l' ⟨o', hl', ho'⟩
    exact hs.unique hl' hl ho' ho
  · intro hlinks _
    have hempty : s.dbs = ∅ := by
      refine Finset.eq_empty_of_forall_notMem fun d hd => ?_
      obtain ⟨l, o, hl, -⟩ := hs.owner hd
      exact nomatch (hlinks l).symm.trans hl
    exact ⟨hempty, by rw [hs.count, hempty]; rfl⟩

@[grind =] theorem links_setLink (s : Script Path) (l : ℕ) (o : Option LinkObject) (l' : ℕ) :
    (s.setLink l o).links l' = if l' = l then o else s.links l' :=
  update_apply s.links l o l'

@[grind =] theorem stmts_setLink (s : Script Path) (l : ℕ) (o : Option LinkObject) (st : ℕ) :
    (s.setLink l o).stmts st = s.stmts st := rfl

@[grind =] theorem dbs_setLink (s : Script Path) (l : ℕ) (o : Option LinkObject) :
    (s.setLink l o).dbs = s.dbs := rfl

@[grind =] theorem statements_setLink (s : Script Path) (l : ℕ) (o : Option LinkObject) (d : ℕ) :
    (s.setLink l o).statements d = s.statements d := rfl

@[grind =] theorem refCount_setLink (s : Script Path) (l : ℕ) (o : Option LinkObject) :
    (s.setLink l o).refCount = s.refCount := rfl

/-- A handle keeps its owner if the changed link does not lose it. -/
theorem owner_setLink {x : Option LinkObject} (howner : ∃ l' o, s.links l' = some o ∧ o.db = some d)
    (hkeep : ∀ o, s.links l = some o → o.db = some d → ∃ o', x = some o' ∧ o'.db = some d) :
    ∃ l' o, (s.setLink l x).links l' = some o ∧ o.db = some d := by
  obtain ⟨l', o, hl', ho⟩ := howner
  by_cases hl : l' = l
  · subst hl
    obtain ⟨o', hx, ho'⟩ := hkeep o hl' ho
    exact ⟨l', o', by rw [links_setLink, if_pos rfl, hx], ho'⟩
  · exact ⟨l', o, by rw [links_setLink, if_neg hl, hl'], ho⟩

section

variable (hs : s.Sound)

include hs

theorem Sound.setHeld (hl : s.links l = some o) (n : ℕ) :
    Sound (s.setLink l (some { o with held := n })) := by
  have howner := @hs.owner
  cases hs
  constructor
  case owner => exact fun hd => owner_setLink (howner hd) (by grind)
  all_goals grind

theorem Sound.addLink (hl : s.links l = none) : Sound (s.setLink l (some {})) := by
  have howner := @hs.owner
  cases hs
  constructor
  case owner => exact fun hd => owner_setLink (howner hd) (by grind)
  all_goals grind

theorem Sound.removeLink (hl : s.links l = some o) (ho : o.db = none) :
    Sound (s.setLink l none) := by
  have howner := @hs.owner
  cases hs
  constructor
  case owner => exact fun hd => owner_setLink (howner hd) (by grind)
  all_goals grind

/-- The handle of a link goes. -/
theorem Sound.dropHandle (hl : s.links l = some o) (ho : o.db = some d) (hempty : o.holders = ∅)
    (path : Option Path) :
    Sound ({ s with dbs := s.dbs.erase d, refCount := s.refCount - 1, databasePath := path }.setLink
      l (some { o with db := none })) := by
  have howner := @hs.owner
  cases hs
  constructor
  case owner =>
    exact fun hd => owner_setLink (howner (Finset.mem_of_mem_erase hd))
      (by have := Finset.ne_of_mem_erase hd; grind)
  all_goals grind

/-- A link without a handle gets one. -/
theorem Sound.takeHandle (hl : s.links l = some o) (ho : o.db = none) (hd : d ∉ s.dbs)
    (path : Option Path) :
    Sound ({ s with
      dbs := insert d s.dbs
      statements := update s.statements d ∅
      refCount := s.refCount + 1
      databasePath := path }.setLink l (some { o with db := some d })) := by
  have howner := @hs.owner
  cases hs
  constructor
  case owner =>
    intro e he
    obtain rfl | he := Finset.mem_insert.mp he
    · exact ⟨l, _, by rw [links_setLink, if_pos rfl], rfl⟩
    · exact owner_setLink (howner he) (by grind)
  all_goals grind [update_apply]

/-- A link gets a statement. -/
theorem Sound.addStmt (hl : s.links l = some o) (ho : o.db = some d) (hst : s.stmts st = none) :
    Sound ({ s with
      statements := update s.statements d (insert st (s.statements d))
      stmts := update s.stmts st (some { link := l, db := d }) }.setLink
        l (some { o with holders := insert st o.holders })) := by
  have howner := @hs.owner
  cases hs
  constructor
  case owner => exact fun hd => owner_setLink (howner hd) (by grind)
  all_goals grind [update_apply]

/-- A statement goes, and its link stays. -/
theorem Sound.removeStmt (hst : s.stmts st = some t) (hl : s.links t.link = some o) :
    Sound ({ s with
      statements := update s.statements t.db ((s.statements t.db).erase st)
      stmts := update s.stmts st none }.setLink
        t.link (some { o with holders := o.holders.erase st })) := by
  have howner := @hs.owner
  cases hs
  constructor
  case owner => exact fun hd => owner_setLink (howner hd) (by grind)
  all_goals grind [update_apply]

theorem Sound.setStmtHeld (hst : s.stmts st = some t) (n : ℕ) :
    Sound { s with stmts := update s.stmts st (some { t with held := n }) } := by
  cases hs
  constructor <;> grind [update_apply]

end

theorem setLink_setLink (s : Script Path) (l : ℕ) (x y : Option LinkObject) :
    (s.setLink l x).setLink l y = s.setLink l y := by
  simp only [setLink, update_idem]

/-! ### The functions keep it -/

/-- A handle without statements is closed. -/
theorem myliteClose_of_empty (h : s.statements d = ∅) :
    s.myliteClose d = (true, { s with
      dbs := s.dbs.erase d
      refCount := s.refCount - 1
      databasePath := if s.refCount = 1 then none else s.databasePath }) := by
  rw [myliteClose, h]
  rfl

/-- A handle with statements is not. -/
theorem myliteClose_of_ne_empty (h : s.statements d ≠ ∅) : s.myliteClose d = (false, s) :=
  if_pos (Finset.card_pos.mpr (Finset.nonempty_iff_ne_empty.mpr h))

/-- A handle is closed as the one that counts these statements. -/
theorem myliteClose_eq_false_iff {h : Runtime.OpenHandle ℕ} (hc : h.Counted)
    (hstatements : h.statements = s.statements d) :
    (s.myliteClose d).1 = false ↔ h.myliteClose.1 = some .busy := by
  rw [hc.myliteClose_busy_iff, hstatements, myliteClose]
  split_ifs with hpos
  · exact iff_of_true rfl hpos
  · exact iff_of_false nofun hpos

/-- What a link is before does not matter to closing its handle. -/
theorem myliteClose_setLink (s : Script Path) (l d : ℕ) (x y : Option LinkObject) :
    ((s.setLink l x).myliteClose d).2.setLink l y = (s.myliteClose d).2.setLink l y := by
  by_cases hempty : s.statements d = ∅
  · have hempty' : (s.setLink l x).statements d = ∅ := hempty
    rw [myliteClose_of_empty hempty, myliteClose_of_empty hempty']
    simp only [setLink, update_idem]
    rfl
  · have hempty' : (s.setLink l x).statements d ≠ ∅ := hempty
    rw [myliteClose_of_ne_empty hempty, myliteClose_of_ne_empty hempty']
    exact setLink_setLink s l x y

/-- The handle of a link is closed, and the link forgets it. -/
theorem Sound.myliteClose (hs : s.Sound) (hl : s.links l = some o) (ho : o.db = some d)
    (hempty : s.statements d = ∅) :
    Sound ((s.myliteClose d).2.setLink l (some { o with db := none })) := by
  rw [myliteClose_of_empty hempty]
  exact hs.dropHandle hl ho ((hs.opened hl ho).2.symm.trans hempty) _

theorem Sound.releaseLink (hs : Sound (s.setLink l (some o))) : Sound (s.releaseLink l o) := by
  have hl : (s.setLink l (some o)).links l = some o := by rw [links_setLink, if_pos rfl]
  rw [Script.releaseLink]
  split_ifs with hfree
  · have hholders : o.holders = ∅ := Finset.card_eq_zero.mp (by omega)
    rw [linkFree]
    cases ho : o.db with
    | none => exact setLink_setLink s l _ _ ▸ hs.removeLink hl ho
    | some d =>
      -- no statement holds the link, so its handle has none and `mylite_close` does not refuse
      have hempty : (s.setLink l (some o)).statements d = ∅ :=
        (hs.opened hl ho).2.trans hholders
      have hclosed := hs.myliteClose hl ho hempty
      have hremoved := hclosed.removeLink (links_setLink .. |>.trans (if_pos rfl)) rfl
      rw [setLink_setLink, myliteClose_setLink] at hremoved
      exact hremoved
  · exact hs

theorem Sound.close (hs : s.Sound) (hl : s.links l = some o) : Sound (s.close l o) := by
  rw [Script.close]
  cases ho : o.db with
  | none => exact hs
  | some d =>
    by_cases hempty : s.statements d = ∅
    · have hclosed := hs.myliteClose hl ho hempty
      simpa only [myliteClose_of_empty hempty] using hclosed
    · simpa only [myliteClose_of_ne_empty hempty] using hs

theorem Sound.prepareImpl (hs : s.Sound) (hl : s.links l = some o) (hst : s.stmts st = none)
    (accepted : Bool) : Sound (s.prepareImpl l o st accepted) := by
  rw [Script.prepareImpl]
  cases ho : o.db with
  | none => exact hs
  | some d =>
    cases accepted with
    | false => exact hs
    | true =>
      have hadded := hs.addStmt hl ho hst
      rw [ho] at hadded
      exact hadded

theorem Sound.stmtFree (hs : s.Sound) (hst : s.stmts st = some t) : Sound (s.stmtFree st t) := by
  obtain ⟨o, hl, -, -⟩ := hs.stmt hst
  simp only [Script.stmtFree, hl]
  exact (hs.removeStmt hst hl).releaseLink

section Connect

variable [DecidableEq Path]

/-- `mylite_open` fails and changes nothing, or returns a handle that was not open. -/
theorem myliteOpen_cases (s : Script Path) (path : Path) (opens : Option ℕ) :
    s.myliteOpen path opens = (none, s) ∨ ∃ d, d ∉ s.dbs ∧
      s.myliteOpen path opens = (some d, { s with
        dbs := insert d s.dbs
        statements := update s.statements d ∅
        refCount := s.refCount + 1
        databasePath := some path }) := by
  unfold myliteOpen
  split_ifs with hother
  · exact .inl rfl
  · cases opens with
    | none => exact .inl rfl
    | some d =>
      by_cases hd : d ∈ s.dbs
      · exact .inl (if_pos hd)
      · exact .inr ⟨d, hd, if_neg hd⟩

/-- A link without a handle is connected. -/
theorem openLink_cases (ho : o.db = none) (l : ℕ) (path : Path) (opens : Option ℕ) :
    s.openLink l o (some path) opens = (false, s) ∨ ∃ d, d ∉ s.dbs ∧
      s.openLink l o (some path) opens = (true, { s with
        dbs := insert d s.dbs
        statements := update s.statements d ∅
        refCount := s.refCount + 1
        databasePath := some path }.setLink l (some { o with db := some d })) := by
  simp only [openLink, ho]
  obtain hfails | ⟨d, hd, hopens⟩ := s.myliteOpen_cases path opens
  · rw [hfails]
    exact .inl rfl
  · rw [hopens]
    exact .inr ⟨d, hd, rfl⟩

theorem Sound.open (hs : s.Sound) (hl : s.links l = some o) (ho : o.db = none) (path : Path)
    (opens : Option ℕ) : Sound (s.openLink l o (some path) opens).2 := by
  obtain hfails | ⟨d, hd, hopens⟩ := openLink_cases ho l path opens
  · rw [hfails]
    exact hs
  · rw [hopens]
    exact hs.takeHandle hl ho hd _

/-- The first half of connecting a link again. -/
theorem openLink_of_db (ho : o.db = some d) (path : Path) (opens : Option ℕ) :
    s.openLink l o (some path) opens =
      ((s.myliteClose d).2.setLink l (some { o with db := none })).openLink l { o with db := none }
        (some path) opens := by
  simp only [openLink, ho]

theorem Sound.openLink (hs : s.Sound) (hl : s.links l = some o) (path : Option Path)
    (opens : Option ℕ) (hempty : ∀ p d, path = some p → o.db = some d → s.statements d = ∅) :
    Sound (s.openLink l o path opens).2 := by
  cases path with
  | none => exact hs
  | some path =>
    cases ho : o.db with
    | none => exact hs.open hl ho path opens
    | some d =>
      rw [openLink_of_db ho]
      have hclosed := hs.myliteClose hl ho (hempty path d rfl ho)
      exact hclosed.open (links_setLink .. |>.trans (if_pos rfl)) rfl path opens

/-- The new object gets its handle and stays, or it is released again. -/
theorem Sound.connectImpl (hs : s.Sound) (hl : s.links l = none) (path : Option Path)
    (opens : Option ℕ) (selects : Bool) : Sound (s.connectImpl l path opens selects) := by
  have hopened := (hs.addLink hl).openLink (links_setLink .. |>.trans (if_pos rfl)) path opens
    nofun
  simp only [Script.connectImpl]
  split_ifs
  · exact hopened
  · split
    · next o ho => exact (hopened.setHeld ho _).releaseLink
    · exact hopened

/-! ### One call -/

/-- A call that meets the condition keeps the invariant. -/
theorem Sound.next (hs : s.Sound) {e : ScriptCall Path} (he : s.Reconnects e) :
    Sound (s.next e) := by
  cases e with
  | init l =>
    rw [Script.next]
    split_ifs with hl
    · exact hs.addLink hl
    · exact hs
  | connect l path opens =>
    rw [Script.next]
    cases hl : s.links l with
    | none => exact hs
    | some o =>
      simp only
      split_ifs with hheld
      · refine hs.openLink hl path opens ?_
        rintro p d rfl ho
        exact he o d hl hheld ho
      · exact hs
  | connectNew l path opens selects =>
    rw [Script.next]
    split_ifs with hl
    · exact hs.connectImpl hl path opens selects
    · exact hs
  | prepare l st accepted =>
    rw [Script.next]
    cases hl : s.links l with
    | none => exact hs
    | some o =>
      simp only
      split_ifs with hheld
      · exact hs.prepareImpl hl hheld.2 accepted
      · exact hs
  | close l =>
    rw [Script.next]
    cases hl : s.links l with
    | none => exact hs
    | some o =>
      simp only
      split_ifs
      · exact hs.close hl
      · exact hs
  | copyLink l =>
    rw [Script.next]
    cases hl : s.links l with
    | none => exact hs
    | some o =>
      simp only
      split_ifs
      · exact hs.setHeld hl _
      · exact hs
  | copyStmt st =>
    rw [Script.next]
    cases hst : s.stmts st with
    | none => exact hs
    | some t => exact hs.setStmtHeld hst _
  | dropLink l =>
    rw [Script.next]
    cases hl : s.links l with
    | none => exact hs
    | some o =>
      simp only
      split_ifs
      · exact (hs.setHeld hl _).releaseLink
      · exact hs
  | dropStmt st =>
    rw [Script.next]
    cases hst : s.stmts st with
    | none => exact hs
    | some t =>
      simp only
      split_ifs
      · exact hs.stmtFree hst
      · exact hs.setStmtHeld hst _

/-- A link connected again while its handle has statements loses the handle. -/
theorem Sound.not_owned_openLink (hs : s.Sound) (hl : s.links l = some o) (ho : o.db = some d)
    (hstmts : s.statements d ≠ ∅) (path : Path) (opens : Option ℕ) :
    ¬(s.openLink l o (some path) opens).2.Owned := by
  rw [openLink_of_db ho, myliteClose_of_ne_empty hstmts]
  intro howned
  have hd : d ∈ s.dbs := (hs.opened hl ho).1
  -- no other link has the handle, and this one has none or a new one now
  have hother : ∀ l' o', s.links l' = some o' → o'.db = some d → l' = l := by
    intro l' o' hl' ho'
    exact hs.unique hl' hl ho' ho
  have hforgot : { o with db := none }.db = none := rfl
  obtain hfails | ⟨d', hd', hopens⟩ :=
    openLink_cases (s := s.setLink l (some { o with db := none })) hforgot l path opens
  · rw [hfails] at howned
    obtain ⟨l', ⟨o', hl', ho'⟩, -⟩ := howned.owner d hd
    grind
  · rw [hopens] at howned
    obtain ⟨l', ⟨o', hl', ho'⟩, -⟩ := howned.owner d (Finset.mem_insert_of_mem hd)
    grind

theorem Sound.owned_next_iff (hs : s.Sound) (e : ScriptCall Path) :
    (s.next e).Owned ↔ s.Reconnects e := by
  refine ⟨fun howned => ?_, fun he => (hs.next he).owned⟩
  match e with
  | .connect l (some path) opens =>
    intro o d hl hheld ho
    by_contra hstmts
    refine hs.not_owned_openLink hl ho hstmts path opens ?_
    simpa only [Script.next, hl, if_pos hheld] using howned
  | .connect _ none _ | .init _ | .connectNew .. | .prepare .. | .close _ | .copyLink _
  | .copyStmt _ | .dropLink _ | .dropStmt _ => trivial

/-! ### Whole runs -/

/-- The runs in which every open handle is owned by exactly one link in every state reached. -/
theorem owned_iff (calls : List (ScriptCall Path)) :
    Along next (fun s e => (s.next e).Owned) {} calls ↔ Along next Reconnects {} calls :=
  along_congr_of_invariant Sound (fun hs => hs.owned_next_iff _) (fun hs he => hs.next he)
    sound_initial calls

end Connect

/-- A link with a statement is connected again, and every object goes: the first handle stays open
    and keeps the runtime. -/
theorem not_owned_reconnect :
    let calls : List (ScriptCall Bool) :=
      [.connectNew 0 (some true) (some 0) true, .prepare 0 0 true, .connect 0 (some true) (some 1),
        .dropStmt 0, .dropLink 0]
    ¬Along next (fun s e => (s.next e).Owned) {} calls ∧
      (calls.foldl next {}).dbs = {0} ∧ (calls.foldl next {}).refCount = 1 := by
  intro calls
  have hdbs : (calls.foldl next {}).dbs = {0} := by decide
  refine ⟨fun howned => ?_, hdbs, by decide⟩
  have hfinal : (calls.foldl next {}).Owned := howned.2.2.2.2.1
  obtain ⟨l, ⟨o, hl, -⟩, -⟩ := hfinal.owner 0 (by rw [hdbs]; exact Finset.mem_singleton_self 0)
  have hnone : (calls.foldl next {}).links l = none := by
    rcases l with _ | l
    · decide
    · rfl
  exact nomatch hnone.symm.trans hl

end Script

end MyLite.Php
