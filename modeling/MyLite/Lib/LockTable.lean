import Mathlib.Algebra.BigOperators.Group.Finset.Basic
import Mathlib.Algebra.BigOperators.Group.Finset.Piecewise
import Mathlib.Data.Fintype.Card
import Mathlib.Tactic.SplitIfs

namespace MyLite.Lib

open Function

/-!
# Exclusive locks

A table says which party holds the exclusive lock of each resource.  A party has at most one lock
at a time, and `Tracks` relates the table to what the parties themselves believe to have.  A
party takes a lock that is free, gives its lock back, or vanishes and loses it.

* `Tracks.lock`, `Tracks.unlock`, `Tracks.drop` — the three changes keep the relation.
* `Tracks.eq_of_holds` — at most one party has a lock.
-/

variable {π δ : Type*} {held : δ → Option π} {has : π → Option δ} {p : π} {d : δ}

/-- The table agrees with what every party has. -/
def Tracks (held : δ → Option π) (has : π → Option δ) : Prop :=
  ∀ p d, held d = some p ↔ has p = some d

/-- The table without the locks of one party. -/
def dropLocks [DecidableEq π] (held : δ → Option π) (p : π) (d : δ) : Option π :=
  if held d = some p then none else held d

theorem tracks_empty : Tracks (fun _ : δ => (none : Option π)) fun _ => none := by
  intro p d
  constructor <;> intro h <;> cases h

variable [DecidableEq π]

/-- A party whose lock does not change. -/
theorem Tracks.same (h : Tracks held has) {has' : Option δ} (hsame : has' = has p) :
    Tracks held (update has p has') := by
  rw [hsame, update_eq_self]
  exact h

/-- A party without a lock takes a free one. -/
theorem Tracks.lock [DecidableEq δ] (h : Tracks held has) (hfree : held d = none)
    (hnone : has p = none) :
    Tracks (update held d (some p)) (update has p (some d)) := by
  intro q e
  by_cases he : e = d
  · subst he
    rw [update_self]
    by_cases hq : q = p
    · subst hq
      rw [update_self]
      exact ⟨fun _ => rfl, fun _ => rfl⟩
    · rw [update_of_ne hq, ← h q e, hfree]
      exact ⟨fun heq => absurd (Option.some.inj heq).symm hq, nofun⟩
  · rw [update_of_ne he, h q e]
    by_cases hq : q = p
    · subst hq
      rw [update_self, hnone]
      exact ⟨nofun, fun heq => absurd (Option.some.inj heq).symm he⟩
    · rw [update_of_ne hq]

/-- A party loses whatever lock it has. -/
theorem Tracks.drop (h : Tracks held has) :
    Tracks (dropLocks held p) (update has p none) := by
  intro q e
  rw [dropLocks]
  by_cases hq : q = p
  · subst hq
    rw [update_self]
    split_ifs with hheld
    · exact ⟨nofun, nofun⟩
    · exact ⟨fun heq => absurd heq hheld, nofun⟩
  · rw [update_of_ne hq, ← h q e]
    split_ifs with hheld
    · rw [hheld]
      exact ⟨nofun, fun heq => absurd (Option.some.inj heq).symm hq⟩
    · exact Iff.rfl

/-- A party gives its lock back. -/
theorem Tracks.unlock [DecidableEq δ] (h : Tracks held has) (hown : has p = some d) :
    Tracks (update held d none) (update has p none) := by
  have heq : update held d none = dropLocks held p := by
    funext e
    by_cases he : e = d
    · subst he
      rw [update_self, dropLocks, if_pos ((h p e).mpr hown)]
    · have hne : held e ≠ some p := by
        rw [Ne, h p e, hown]
        exact fun hs => he (Option.some.inj hs).symm
      rw [update_of_ne he, dropLocks, if_neg hne]
  rw [heq]
  exact h.drop

/-! ### Counting parties -/

section Counting

variable {ι α : Type*} [Fintype ι] (p : α → Bool) (f : ι → α)

/-- The number of indices whose member satisfies `p`. -/
def countWhere : ℕ :=
  (Finset.univ.filter fun i => p (f i) = true).card

theorem countWhere_eq_sum : countWhere p f = ∑ i, (p (f i)).toNat := by
  rw [countWhere, Finset.card_filter]
  exact Finset.sum_congr rfl fun i _ => by cases p (f i) <;> rfl

/-- Not everybody is counted where somebody lacks the property. -/
theorem countWhere_lt_card {p : α → Bool} {f : ι → α} {i : ι} (h : p (f i) = false) :
    countWhere p f < Fintype.card ι :=
  Finset.card_lt_univ_of_notMem (x := i) (by simp [h])

/-- Nobody is counted exactly if nobody has the property. -/
theorem countWhere_eq_zero {p : α → Bool} {f : ι → α} :
    countWhere p f = 0 ↔ ∀ i, p (f i) = false := by
  rw [countWhere, Finset.card_eq_zero, Finset.filter_eq_empty_iff]
  simp only [Finset.mem_univ, true_implies, Bool.not_eq_true]

theorem countWhere_const {p : α → Bool} {a : α} (h : p a = false) :
    countWhere p (fun _ : ι => a) = 0 :=
  countWhere_eq_zero.mpr fun _ => h

/-- **Update.** Exchanging one member changes the count by that member. -/
theorem countWhere_update [DecidableEq ι] (i : ι) (a : α) :
    countWhere p (Function.update f i a) + (p (f i)).toNat = countWhere p f + (p a).toNat := by
  have hupdate : (fun j => (p (Function.update f i a j)).toNat)
      = Function.update (fun j => (p (f j)).toNat) i (p a).toNat := by
    funext j
    by_cases hj : j = i
    · subst hj
      simp only [Function.update_self]
    · simp only [Function.update_of_ne hj]
  have hf := Finset.add_sum_erase Finset.univ (fun j => (p (f j)).toNat) (Finset.mem_univ i)
  rw [countWhere_eq_sum, countWhere_eq_sum, hupdate,
    Finset.sum_update_of_mem (Finset.mem_univ i), ← Finset.erase_eq, ← hf]
  omega

end Counting

end MyLite.Lib
