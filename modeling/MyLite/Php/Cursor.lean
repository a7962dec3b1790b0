import MyLite.Lib.Run
import MyLite.Php.Rows

namespace MyLite.Php

open MyLite.Lib MyLite.Sql

/-!
# The cursor of a mysqli result

A `php_mylite_mysqli_result` keeps all rows and one position, which `fetch_assoc`, `fetch_array` and
`fetch_object` read at and move; `fetch_all` goes through the rows on its own and leaves the
position behind the last one.

* `FetchCall`, `MysqliResult.fetch` — the calls and what they return.
* `MysqliResult.taken` — the rows a call hands out; `fetch_shows` says that it shows these.
* `ReadOut` — an observer who notes the rows as they are handed out.
* `inOrder_iff` — when the rows come in order and only once.
-/

variable {V : Type}

/-- The calls that hand out rows. -/
inductive FetchCall
  | fetchAssoc
  | fetchArray (mode : ℕ)
  | fetchObject
  | fetchAll (mode : ℕ)
  deriving DecidableEq, Repr

/-- What a call returns: `NULL`, a row as an array or as an object, or a list of rows. -/
inductive Fetched (V : Type)
  | null
  | array (row : PhpArray V)
  | object (properties : OrderedMap Text V)
  | list (rows : PhpArray (PhpArray V))

/-- `php_mylite_mysqli_fetch_object_row`. -/
def fetchObjectRow (row : PhpArray V) : OrderedMap Text V :=
  row.elements.entries.foldl (fun o e =>
    match e.1 with
    | .str name => o.insert name e.2
    | .int _ => o) .empty

namespace MysqliResult

variable (r : MysqliResult V)

/-- `fetch_assoc`. -/
def fetchAssoc : Fetched V × MysqliResult V :=
  match r.rows[r.position]? with
  | some row => (.array row, { r with position := r.position + 1 })
  | none => (.null, r)

/-- `fetch_object`. -/
def fetchObject : Fetched V × MysqliResult V :=
  match r.rows[r.position]? with
  | some row => (.object (fetchObjectRow row), { r with position := r.position + 1 })
  | none => (.null, r)

/-- `php_mylite_mysqli_fetch_all_rows`. -/
def fetchAllRows (mode : ℕ) : Fetched V × MysqliResult V :=
  (.list (r.rows.foldl (fun a row => a.addNextIndex (fetchArrayRow r.fields row mode)) {}),
    { r with position := r.rows.length })

/-- A call: the value it returns and the result behind it. -/
def fetch : FetchCall → Fetched V × MysqliResult V
  | .fetchAssoc => r.fetchAssoc
  | .fetchArray mode =>
    match r.fetchArray mode with
    | (some row, r) => (.array row, r)
    | (none, r) => (.null, r)
  | .fetchObject => r.fetchObject
  | .fetchAll mode => r.fetchAllRows mode

/-- The rows a call hands out. -/
def taken : FetchCall → List (PhpArray V)
  | .fetchAll _ => r.rows
  | _ => r.rows[r.position]?.toList

end MysqliResult

/-- How a call shows the rows it hands out. -/
def FetchCall.shown (fields : List Text) : FetchCall → List (PhpArray V) → Fetched V
  | .fetchAssoc, [row] => .array row
  | .fetchArray mode, [row] => .array (fetchArrayRow fields row mode)
  | .fetchObject, [row] => .object (fetchObjectRow row)
  | .fetchAll mode, rows => .list (.ofList (rows.map (fetchArrayRow fields · mode)))
  | _, _ => .null

namespace MysqliResult

/-- What a call can do: hand out all rows, hand out the row at the position, or report the end. -/
inductive Outcome (r : MysqliResult V) :
    FetchCall → List (PhpArray V) → Fetched V × MysqliResult V → Prop
  | all (mode : ℕ) :
      Outcome r (.fetchAll mode) r.rows
        (FetchCall.shown r.fields (.fetchAll mode) r.rows, { r with position := r.rows.length })
  | row {call : FetchCall} {row : PhpArray V} : (∀ mode, call ≠ .fetchAll mode) →
      r.rows[r.position]? = some row → call.shown r.fields [row] ≠ .null →
      Outcome r call [row] (call.shown r.fields [row], { r with position := r.position + 1 })
  | ended {call : FetchCall} : (∀ mode, call ≠ .fetchAll mode) → r.rows.length ≤ r.position →
      Outcome r call [] (.null, r)

theorem fetch_outcome (r : MysqliResult V) (call : FetchCall) :
    r.Outcome call (r.taken call) (r.fetch call) := by
  cases call with
  | fetchAll mode =>
    have hfetch : r.fetch (.fetchAll mode)
        = (FetchCall.shown r.fields (.fetchAll mode) r.rows,
          { r with position := r.rows.length }) := by
      rw [fetch, fetchAllRows, FetchCall.shown, PhpArray.ofList, List.foldl_map]
    rw [hfetch]
    exact .all mode
  | fetchAssoc | fetchArray | fetchObject =>
    simp only [fetch, fetchAssoc, fetchArray, fetchObject, taken]
    cases hrow : r.rows[r.position]? with
    | none => exact .ended (fun _ => FetchCall.noConfusion) (List.getElem?_eq_none_iff.mp hrow)
    | some row => exact .row (fun _ => FetchCall.noConfusion) hrow fun h => by cases h

end MysqliResult

/-! ### What is handed out by a sequence of calls -/

/-- A result, with the rows that have been handed out so far. -/
structure ReadOut (V : Type) where
  result : MysqliResult V
  handed : List (PhpArray V) := []

namespace ReadOut

/-- `php_mylite_mysqli_result_from_rows`. -/
def start (rows : List (PhpArray V)) (fields : List Text) : ReadOut V := ⟨⟨rows, fields, 0⟩, []⟩

/-- A call, with the observer's note. -/
def next (s : ReadOut V) (call : FetchCall) : ReadOut V :=
  ⟨(s.result.fetch call).2, s.handed ++ s.result.taken call⟩

/-- A call returns the rows it hands out, and behind it the rows handed out are the first ones of
    the result, each once and in order; all of them if the call reports the end. -/
def InOrder (s : ReadOut V) (call : FetchCall) : Prop :=
  (s.result.fetch call).1 = call.shown s.result.fields (s.result.taken call) ∧
    (s.next call).handed <+: s.result.rows ∧
    ((s.result.fetch call).1 = .null → (s.next call).handed = s.result.rows)

/-- `fetch_all` is called before any row has been handed out. -/
def FromStart (s : ReadOut V) : FetchCall → Prop
  | .fetchAll _ => s.result.position = 0
  | _ => True

/-- The position counts the rows that have been handed out. -/
structure Counts (s : ReadOut V) : Prop where
  handed : s.handed = s.result.rows.take s.result.position
  inside : s.result.position ≤ s.result.rows.length

variable {s : ReadOut V}

variable {call : FetchCall}

theorem counts_start (rows : List (PhpArray V)) (fields : List Text) : (start rows fields).Counts :=
  ⟨rfl, Nat.zero_le _⟩

theorem fromStart_of_single (h : ∀ mode, call ≠ .fetchAll mode) : s.FromStart call := by
  cases call with
  | fetchAll mode => exact absurd rfl (h mode)
  | fetchAssoc | fetchArray | fetchObject => trivial

theorem shown_nil_of_single (h : ∀ mode, call ≠ .fetchAll mode) (fields : List Text) :
    call.shown fields [] = (.null : Fetched V) := by
  cases call with
  | fetchAll mode => exact absurd rfl (h mode)
  | fetchAssoc | fetchArray | fetchObject => rfl

/-- The rows behind the call that hands out the one at the position. -/
theorem take_append_row {rows : List (PhpArray V)} {position : ℕ} {row : PhpArray V}
    (h : rows[position]? = some row) : rows.take position ++ [row] = rows.take (position + 1) := by
  rw [List.take_add_one, h]
  rfl

/-- **Step lemma.** Where the position counts the rows, a call keeps them in order exactly if it
    does not hand out rows again. -/
theorem inOrder_iff_fromStart (hcounts : s.Counts) (call : FetchCall) :
    s.InOrder call ↔ s.FromStart call := by
  have houtcome := s.result.fetch_outcome call
  have hhanded : (s.next call).handed = s.result.rows.take s.result.position ++
      s.result.taken call :=
    congrArg (· ++ _) hcounts.handed
  rw [InOrder, hhanded]
  generalize s.result.fetch call = answer, s.result.taken call = taken at houtcome
  cases houtcome with
  | all mode =>
    constructor
    · rintro ⟨-, hordered, -⟩
      -- all rows come behind those that were handed out already
      have hle := hordered.length_le
      rw [List.length_append, List.length_take, Nat.min_eq_left hcounts.inside] at hle
      show s.result.position = 0
      omega
    · intro (hstart : s.result.position = 0)
      rw [hstart, List.take_zero, List.nil_append]
      exact ⟨rfl, List.prefix_refl _, nofun⟩
  | @row call row hsingle hrow hshown =>
    refine iff_of_true ⟨rfl, ?_, fun hnull => absurd hnull hshown⟩ (fromStart_of_single hsingle)
    rw [take_append_row hrow]
    exact List.take_prefix _ _
  | ended hsingle hend =>
    rw [List.append_nil, List.take_of_length_le hend]
    exact iff_of_true ⟨(shown_nil_of_single hsingle _).symm, List.prefix_refl _, fun _ => rfl⟩
      (fromStart_of_single hsingle)

theorem counts_next (hcounts : s.Counts) (hstart : s.FromStart call) : (s.next call).Counts := by
  have houtcome := s.result.fetch_outcome call
  have hhanded := hcounts.handed
  have hinside := hcounts.inside
  unfold next
  rw [hhanded]
  generalize s.result.fetch call = answer, s.result.taken call = taken at houtcome
  cases houtcome with
  | all mode =>
    rw [show s.result.position = 0 from hstart]
    exact ⟨List.take_length.symm, Nat.le_refl _⟩
  | row _ hrow => exact ⟨take_append_row hrow, (List.getElem?_eq_some_iff.mp hrow).1⟩
  | ended => exact ⟨List.append_nil _, hinside⟩

/-- **Rows in order.** Over any sequence of calls on a result, the rows are handed out in order and
    only once, and are all out when the end is reported, exactly if `fetch_all` is only called
    before the first row has been handed out. -/
theorem inOrder_iff (rows : List (PhpArray V)) (fields : List Text) (calls : List FetchCall) :
    Along next InOrder (start rows fields) calls ↔ Along next FromStart (start rows fields) calls :=
  along_congr_of_invariant Counts (fun hcounts => inOrder_iff_fromStart hcounts _)
    (fun hcounts hstart => counts_next hcounts hstart) (counts_start rows fields) calls

/-- One row is fetched, then `fetch_all` returns both rows: the first one a second time. -/
theorem not_inOrder_fetchAll :
    ∃ rows : List (PhpArray ℕ), rows.length = 2 ∧
      ¬Along next InOrder (start rows [ascii "a"]) [.fetchAssoc, .fetchAll mysqliNum] := by
  refine ⟨[addCurrentRow [(ascii "a", 1)], addCurrentRow [(ascii "a", 2)]], rfl, fun halong => ?_⟩
  obtain ⟨-, hordered, -⟩ := halong.2.1
  exact absurd hordered.length_le (by decide)

end ReadOut

end MyLite.Php
