import Mathlib.Algebra.GroupWithZero.Nat
import Mathlib.Data.List.Basic

namespace MyLite.Lib

/-!
# Buffered output streams

What is inserted into a stream is held back until the stream hands it on to its file: at an
insertion, or when the stream is destroyed.  An insertion that fails marks the stream, which then
takes nothing more.  The destructor hands on what is still held and tells nobody whether that works.

* `OutputStream`, `insert`, `insertAll` — a stream and what is inserted; a `Transfer` says how much
  of what is held moves on, and whether that works.
* `destroy` — what the file has at the end.
* `arrived` — how much that is, from the transfers alone.
* `destroy_insertAll` — the file has so much of the front of what was inserted.
-/

variable {α : Type*}

/-- So many of the items that are held move on to the file, and whether there is no error. -/
structure Transfer where
  moved : ℕ := 0
  ok : Bool := true
  deriving DecidableEq, Repr

/-- A stream with its file. -/
structure OutputStream (α : Type*) where
  file : List α := []
  held : List α := []
  failed : Bool := false
  deriving DecidableEq, Repr

namespace OutputStream

/-- `operator<<`. -/
def insert (s : OutputStream α) (items : List α) (t : Transfer) : OutputStream α :=
  if s.failed then s
  else
    { file := s.file ++ (s.held ++ items).take t.moved
      held := (s.held ++ items).drop t.moved
      failed := !t.ok }

/-- Several insertions. -/
def insertAll (s : OutputStream α) (writes : List (List α × Transfer)) : OutputStream α :=
  writes.foldl (fun s write => s.insert write.1 write.2) s

/-- The content of the file behind the destructor. -/
def destroy (s : OutputStream α) (t : Transfer) : List α :=
  s.file ++ if t.ok then s.held else s.held.take t.moved

/-! ### How much arrives -/

/-- How many items have moved on behind some insertions, if `inserted` items were there before and
    `moved` of them had moved on. -/
def movedBy : ℕ → ℕ → List (List α × Transfer) → ℕ
  | _, moved, [] => moved
  | inserted, moved, write :: writes =>
    movedBy (inserted + write.1.length)
      (min (inserted + write.1.length) (moved + write.2.moved)) writes

/-- How many items of a new stream arrive in its file. -/
def arrived (writes : List (List α × Transfer)) (t : Transfer) : ℕ :=
  if t.ok then (writes.map fun write => write.1.length).sum else movedBy 0 0 writes + t.moved

variable {s : OutputStream α}

theorem failed_insertAll (writes : List (List α × Transfer)) (h : s.failed = true) :
    (s.insertAll writes).failed = true := by
  induction writes with
  | nil => exact h
  | cons write writes ih =>
    rw [insertAll, List.foldl_cons, insert, if_pos h]
    exact ih

/-- **Insertions that do not fail** keep every item, in order, in the file or back. -/
theorem insertAll_of_not_failed {writes : List (List α × Transfer)}
    (h : (s.insertAll writes).failed = false) :
    (s.insertAll writes).file ++ (s.insertAll writes).held
        = s.file ++ s.held ++ (writes.map Prod.fst).flatten ∧
      (s.insertAll writes).file.length
        = movedBy (s.file ++ s.held).length s.file.length writes := by
  induction writes generalizing s with
  | nil =>
    rw [List.map_nil, List.flatten_nil, List.append_nil]
    exact ⟨rfl, rfl⟩
  | cons write writes ih =>
    have hs : s.failed = false := by
      by_contra hfailed
      rw [failed_insertAll (write :: writes) ((Bool.not_eq_false _).mp hfailed)] at h
      cases h
    obtain ⟨hkept, hmoved⟩ := ih (s := s.insert write.1 write.2) h
    have hinsert : s.insert write.1 write.2 =
        { file := s.file ++ (s.held ++ write.1).take write.2.moved
          held := (s.held ++ write.1).drop write.2.moved
          failed := !write.2.ok } := by
      rw [insert, if_neg (by rw [hs]; exact Bool.false_ne_true)]
    have htext : (s.insert write.1 write.2).file ++ (s.insert write.1 write.2).held
        = s.file ++ s.held ++ write.1 := by
      rw [hinsert]
      dsimp only
      rw [List.append_assoc, List.take_append_drop, List.append_assoc]
    have hlength : (s.insert write.1 write.2).file.length =
        min ((s.file ++ s.held).length + write.1.length) (s.file.length + write.2.moved) := by
      rw [hinsert]
      dsimp only
      rw [List.length_append, List.length_take, List.length_append, List.length_append]
      omega
    refine ⟨?_, ?_⟩
    · rw [insertAll, List.foldl_cons, ← insertAll, hkept, htext, List.map_cons, List.flatten_cons,
        List.append_assoc]
    · rw [insertAll, List.foldl_cons, ← insertAll, hmoved, htext, hlength, movedBy,
        List.length_append]

/-- **The file at the end**, where no insertion has failed. -/
theorem destroy_insertAll {writes : List (List α × Transfer)}
    (h : (({} : OutputStream α).insertAll writes).failed = false) (t : Transfer) :
    (({} : OutputStream α).insertAll writes).destroy t
      = ((writes.map Prod.fst).flatten).take (arrived writes t) := by
  obtain ⟨hkept, hmoved⟩ := insertAll_of_not_failed h
  have hkept : _ = (writes.map Prod.fst).flatten := hkept
  rw [destroy, arrived]
  by_cases hok : t.ok = true
  · have hall : (writes.map fun write => write.1.length).sum
        = ((writes.map Prod.fst).flatten).length := by
      rw [List.length_flatten, List.map_map]
      rfl
    rw [if_pos hok, if_pos hok, hkept, hall, List.take_length]
  · rw [if_neg hok, if_neg hok, ← hkept, ← show _ = movedBy 0 0 writes from hmoved,
      List.take_length_add_append]

end OutputStream

end MyLite.Lib
