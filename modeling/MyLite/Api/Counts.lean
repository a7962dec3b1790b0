import MyLite.Api.Agreement

namespace MyLite.Api

open MyLite.Lib MyLite.Lib.Dialogue MyLite.Sql

/-!
# What a handle keeps of the last execution

`mylite_changes` and `mylite_last_insert_id` read two members of the handle, which `mylite_step`
and `mylite_exec` fill from what the client library answers.

* `counted_myliteStep`, `counted_myliteReset` — they are those of the answers, for statements.
* `answered_execImpl` — and for `mylite_exec`.
-/

/-! ### Statements -/

/-- The numbers of the handle are those of the answers, from `c` on. -/
def Counted {α : Type} (c : Counts) (d : Backend (α × MyliteStmt)) : Prop :=
  Under (fun c e => some (Counts.note c e)) c (fun r c' => r.2.db.counts = c') d

namespace MyliteStmt

variable {s : MyliteStmt} {c : Counts}

/-- **Steps.** -/
theorem counted_myliteStep (hs : s.db.counts = c) : Counted c s.myliteStep :=
  Under.imp (told_myliteStep hs) fun _ _ hr => hr.1

/-- **Resets.** -/
theorem counted_myliteReset (hs : s.db.counts = c) : Counted c s.myliteReset := by
  refine Under.imp (Silent.under s.silent_myliteReset c) fun r c' hr => ?_
  obtain ⟨⟨hchanges, hid, -⟩, rfl⟩ := hr
  rw [← hs, Db.counts, hchanges, hid]
  rfl

end MyliteStmt

/-! ### Direct execution -/

/-- The answers for an executed text: both numbers come first, then whether there is a result. -/
def answered : List ConnectionEvent → Option Counts
  | ⟨.query _, true⟩ :: ⟨.affectedRows, n⟩ :: ⟨.insertId, id⟩ :: ⟨.storeResult, stored⟩ :: _ =>
    some ⟨if stored.isSome then 0 else MyliteStmt.changesOf n, id⟩
  | _ => none

theorem ensures_tell (c : ConnectionCall) :
    Ensures (fun said r => ∀ a, r = some a → said = [⟨c, a⟩]) (tell c) := by
  refine .ask nofun ?_
  rintro r a ⟨rfl⟩
  rfl

/-- A text with an error is not answered by `MYLITE_OK`. -/
theorem ensures_copyErrorMessage {db : MyliteDb} (hdb : db.errcode ≠ .ok) (wanted : Bool) :
    Ensures (fun _ r => ∀ x : Executed, r = some x → x.code ≠ .ok)
      (copyErrorMessage db wanted) := by
  unfold copyErrorMessage
  split
  · refine .pure ?_
    rintro x ⟨rfl⟩
    exact hdb
  · refine .bind (ensures_tell (.malloc _)) nofun fun _ allocated _ => ?_
    split
    · refine .pure ?_
      rintro x ⟨rfl⟩
      exact hdb
    · refine .pure ?_
      rintro x ⟨rfl⟩
      exact nofun

/-- A flag that is returned whatever is said. -/
theorem ensures_flag {α : Type} (b : Bool) (d : Conversation α) :
    Ensures (fun _ r => ∀ x : Bool × α, r = some x → x.1 = b) (d >>= fun a => pure (b, a)) := by
  refine .bind (P := fun _ _ => True) (fun _ => trivial) nofun ?_
  refine fun _ a _ => .pure ?_
  rintro x ⟨rfl⟩
  rfl

/-- The first answer says whether there is a result. -/
theorem ensures_storeAndEmitResult (hasCallback : Bool) (db : MyliteDb) :
    Ensures (fun said r => ∀ x, r = some x → ∃ stored rest,
      said = ⟨.storeResult, stored⟩ :: rest ∧ x.1 = stored.isSome)
      (storeAndEmitResult hasCallback db) := by
  refine .bind (ensures_tell .storeResult) (fun _ _ _ h => nomatch h) fun said stored hsaid => ?_
  obtain rfl := hsaid stored rfl
  cases stored with
  | none =>
    have hnone : Ensures (fun _ r => ∀ x : Bool × Result × MyliteDb, r = some x → x.1 = false) (do
        let count ← mysqlFieldCount
        if count ≠ 0 then do
          let failed ← db.failWithMariadbError
          pure (false, failed)
        else do
          let drained ← drainRemainingQueryResults db
          pure (false, drained)) := by
      refine .bind (P := fun _ _ => True) (fun _ => trivial) (fun _ _ _ h => nomatch h) ?_
      intro _ count _
      split
      · exact ensures_flag false _
      · exact ensures_flag false _
    exact hnone.imp fun rest r hr x hx => ⟨none, rest, rfl, hr x hx⟩
  | some names =>
    exact (ensures_flag true _).imp fun rest r hr x hx => ⟨some names, rest, rfl, hr x hx⟩

/-- What is left of an error is not `MYLITE_OK`. -/
theorem Leaves.errcode_ne_ok {q : Surroundings} {r : Result × MyliteDb} (h : Leaves q r)
    (hr : r.1 ≠ .ok) : r.2.errcode ≠ .ok := by
  rcases h with ⟨hok, -⟩ | ⟨-, d, hcode, hdb⟩
  · exact absurd hok hr
  · rw [hdb]
    exact fun hd => hr (hcode.symm.trans hd)

/-- A failure of the part that reads the result is in the handle. -/
theorem errcode_of_storeAndEmitResult (hasCallback : Bool) (db : MyliteDb) :
    Ensures (fun _ r => ∀ x, r = some x → x.2.1 ≠ .ok → x.2.2.errcode ≠ .ok)
      (storeAndEmitResult hasCallback db) := by
  intro rs x hx hne
  have hleaves := observed_storeAndEmitResult (q := ⟨db, true⟩) hasCallback rs _
    (after_observe _ _ _) x hx
  exact hleaves.errcode_ne_ok hne

variable (db : MyliteDb) (sql : Text) (hasCallback wantsErrmsg : Bool)

theorem answered_runQuery :
    Ensures (fun said r => ∀ x, r = some x → x.code = .ok → answered said = some x.db.db.counts)
      (runQuery db sql hasCallback wantsErrmsg) := by
  refine .bind (ensures_tell (.query sql)) (fun _ _ _ h => nomatch h) fun said sent hsaid => ?_
  obtain rfl := hsaid sent rfl
  cases sent with
  | false =>
    refine .bind (P := fun _ r => ∀ x, r = some x → x.2.errcode ≠ .ok) ?_
      (fun _ _ _ h => nomatch h) fun _ failed hfailed => ?_
    · refine .bind (P := fun _ _ => True) (fun _ => trivial) (fun _ _ _ h => nomatch h) ?_
      refine fun _ e _ => .pure ?_
      rintro x ⟨rfl⟩
      exact nofun
    · refine (ensures_copyErrorMessage (hfailed failed rfl) wantsErrmsg).imp ?_
      exact fun _ r hr x hx hok => absurd hok (hr x hx)
  | true =>
    refine .bind (ensures_tell .affectedRows) (fun _ _ _ h => nomatch h) fun said n hsaid => ?_
    obtain rfl := hsaid n rfl
    refine .bind (ensures_tell .insertId) (fun _ _ _ h => nomatch h) fun said id hsaid => ?_
    obtain rfl := hsaid id rfl
    have hemit : Ensures (fun said r => ∀ x, r = some x →
        (∃ stored rest, said = ⟨.storeResult, stored⟩ :: rest ∧ x.1 = stored.isSome) ∧
          (x.2.1 ≠ .ok → x.2.2.errcode ≠ .ok)) (storeAndEmitResult hasCallback db) :=
      fun rs x hx => ⟨ensures_storeAndEmitResult hasCallback db rs x hx,
        errcode_of_storeAndEmitResult hasCallback db rs x hx⟩
    refine .bind hemit (fun _ _ _ h => nomatch h) fun said emitted h => ?_
    obtain ⟨⟨stored, rest, rfl, hstored⟩, hcode⟩ := h emitted rfl
    split
    · next hne =>
      refine (ensures_copyErrorMessage (hcode hne) wantsErrmsg).imp ?_
      exact fun _ r hr x hx hok => absurd hok (hr x hx)
    · refine .pure ?_
      rintro x ⟨rfl⟩ -
      rw [finishExec, hstored]
      rfl

/-- **Direct execution.** Behind a success the handle has the numbers that were answered. -/
theorem answered_execImpl :
    Ensures (fun said r => ∀ x, r = some x → x.code = .ok → answered said = some x.db.db.counts)
      (execImpl db sql hasCallback wantsErrmsg) := by
  unfold execImpl
  dsimp only
  split
  · next hfailed =>
    have hgate := @leaves_rejectUnsupportedSqlPolicy ⟨db.withDiagnostics setOk, true⟩ sql
    refine (ensures_copyErrorMessage (hgate.errcode_ne_ok hfailed) wantsErrmsg).imp ?_
    exact fun _ r hr x hx hok => absurd hok (hr x hx)
  · exact answered_runQuery _ sql hasCallback wantsErrmsg

end MyLite.Api
