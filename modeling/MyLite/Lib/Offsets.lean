import Mathlib.Data.List.Basic
import Mathlib.Data.List.TakeDrop

namespace MyLite.Lib

/-!
# Offsets into a list

A program that scans an array keeps an index; a proof about it would rather keep what is left to
read.  `At s i t` says that the index `i` stands in front of `t`, and the lemmas here move between
the two views.

* `At` — the list `t` begins at the index `i` of `s`.
* `readsAll` — a chain of tests on consecutive elements, each read only after the ones before it
  passed; `none` is a read outside of the list.  `readsWithin` puts a bound in front of it.
* `advanceWhile` — the index loop that passes elements while they satisfy a test.

Reads are `s[i]?`, so a program that never answers `none` never reads outside of its list.
-/

variable {α : Type}

/-- The list `t` begins at the index `i` of `s`. -/
def At (s : List α) (i : ℕ) (t : List α) : Prop := i ≤ s.length ∧ s.drop i = t

namespace At

variable {s t u : List α} {i j : ℕ} {a : α}

theorem zero (s : List α) : At s 0 s := ⟨Nat.zero_le _, rfl⟩

theorem length_add (h : At s i t) : i + t.length = s.length := by
  obtain ⟨hi, rfl⟩ := h
  rw [List.length_drop]
  omega

theorem lt (h : At s i (a :: t)) : i < s.length := by
  have hlen := h.length_add
  rw [List.length_cons] at hlen
  omega

theorem eq_length (h : At s i []) : i = s.length := h.length_add

/-- The element at the index is read. -/
theorem read (h : At s i (a :: t)) : s[i]? = some a := by
  rw [← List.head?_drop, h.2]
  rfl

/-- The index moves behind what it stands in front of. -/
theorem append (h : At s i (u ++ t)) : At s (i + u.length) t := by
  have hlen := h.length_add
  rw [List.length_append] at hlen
  refine ⟨by omega, ?_⟩
  rw [← List.drop_drop, h.2, List.drop_left]

theorem succ (h : At s i (a :: t)) : At s (i + 1) t := append (show At s i ([a] ++ t) from h)

/-- The elements between two indices. -/
theorem between (h : At s i (u ++ t)) : (s.drop i).take u.length = u := by
  rw [h.2, List.take_left]

end At

/-! ### Tests on consecutive elements -/

/-- Tests on the elements from the index on: the element of a test is read only when the tests
    before it passed. -/
def readsAll (s : List α) : ℕ → List (α → Bool) → Option Bool
  | _, [] => some true
  | i, p :: ps => do
    let a ← s[i]?
    if p a then readsAll s (i + 1) ps else some false

/-- The same tests on the list that begins there; a list that is too short fails them. -/
def startsWith : List (α → Bool) → List α → Bool
  | [], _ => true
  | _ :: _, [] => false
  | p :: ps, a :: t => p a && startsWith ps t

variable {ps : List (α → Bool)}

theorem startsWith_eq_false_of_length_lt {t : List α} (h : t.length < ps.length) :
    startsWith ps t = false := by
  induction ps generalizing t with
  | nil => cases h
  | cons p ps ih =>
    cases t with
    | nil => rfl
    | cons a t => rw [startsWith, ih (Nat.lt_of_succ_lt_succ h), Bool.and_false]

/-- With enough elements left no test reads outside. -/
theorem readsAll_eq {s t : List α} {i : ℕ} (h : At s i t) (hlen : ps.length ≤ t.length) :
    readsAll s i ps = some (startsWith ps t) := by
  induction ps generalizing i t with
  | nil => rfl
  | cons p ps ih =>
    cases t with
    | nil => exact absurd hlen (Nat.not_succ_le_zero _)
    | cons a t =>
      rw [readsAll, h.read, startsWith]
      show (if p a then readsAll s (i + 1) ps else some false) = _
      cases p a with
      | false => rfl
      | true => exact ih h.succ (Nat.le_of_succ_le_succ hlen)

/-- `i + n < size && …`, with the tests behind the guard. -/
def readsWithin (s : List α) (i n : ℕ) (ps : List (α → Bool)) : Option Bool :=
  if i + n < s.length then readsAll s i ps else some false

/-- A guard that leaves room for one element a test keeps all reads inside. -/
theorem readsWithin_eq {s t : List α} {i n : ℕ} (h : At s i t) (hn : ps.length = n + 1) :
    readsWithin s i n ps = some (startsWith ps t) := by
  have hlen := h.length_add
  rw [readsWithin]
  split_ifs with hguard
  · exact readsAll_eq h (by omega)
  · rw [startsWith_eq_false_of_length_lt (by omega)]

/-- The index moves behind the elements that passed the tests. -/
theorem At.drop_of_startsWith {s t : List α} {i : ℕ} (h : At s i t)
    (hstarts : startsWith ps t = true) : At s (i + ps.length) (t.drop ps.length) := by
  have hlen : ps.length ≤ t.length := by
    by_contra hlt
    rw [startsWith_eq_false_of_length_lt (Nat.lt_of_not_le hlt)] at hstarts
    cases hstarts
  have hsplit : At s i (t.take ps.length ++ t.drop ps.length) := by
    rwa [List.take_append_drop]
  have hbehind := hsplit.append
  rwa [List.length_take, Nat.min_eq_left hlen] at hbehind

/-! ### Passing elements -/

/-- `while (i < size && p(s[i])) ++i`, for at most `turns` turns. -/
def advanceWhile (s : List α) (p : α → Bool) : ℕ → ℕ → Option ℕ
  | 0, _ => none
  | turns + 1, i =>
    if i < s.length then do
      let a ← s[i]?
      if p a then advanceWhile s p turns (i + 1) else some i
    else some i

/-- The loop ends in front of the first element that fails the test. -/
theorem advanceWhile_at {s t : List α} {i turns : ℕ} (h : At s i t) (hturns : t.length < turns)
    (p : α → Bool) : ∃ j, advanceWhile s p turns i = some j ∧ At s j (t.dropWhile p) := by
  induction turns generalizing i t with
  | zero => cases hturns
  | succ turns ih =>
    cases t with
    | nil =>
      refine ⟨i, ?_, h⟩
      rw [advanceWhile, if_neg (by rw [h.eq_length]; exact Nat.lt_irrefl _)]
    | cons a t =>
      rw [advanceWhile, if_pos h.lt, h.read]
      show ∃ j, (if p a then advanceWhile s p turns (i + 1) else some i) = some j ∧ _
      cases hp : p a with
      | false =>
        refine ⟨i, rfl, ?_⟩
        rwa [List.dropWhile_cons_of_neg (by simp [hp])]
      | true =>
        rw [List.dropWhile_cons_of_pos hp]
        exact ih h.succ (Nat.lt_of_succ_lt_succ hturns)

end MyLite.Lib
