import Mathlib.Data.List.Nodup
import Mathlib.Logic.Function.Basic

namespace MyLite.Lib

open List

/-!
# Maps that keep the order of insertion

A list of entries with different keys.  A new key goes to the end; a key that is there keeps its
place and gets the new value.

* `OrderedMap.insert`, `OrderedMap.find?` — the operations, and `find?_insert` for the two.
* `OrderedMap.insertAll` — many entries, one after the other; `find?_insertAll` says that the last
  one of a key counts, and `insertAll_empty_eq_iff` that nothing else does.
-/

/-- Entries with different keys, in the order in which the keys were inserted. -/
structure OrderedMap (K V : Type*) where
  entries : List (K × V)
  nodup : (entries.map Prod.fst).Nodup

namespace OrderedMap

variable {K V : Type*}

/-- The map without entries. -/
def empty : OrderedMap K V := ⟨[], nodup_nil⟩

variable (key : K) (value : V)

theorem lookup_cons_ite [BEq K] [LawfulBEq K] [DecidableEq K] (entries : List (K × V)) (k : K) :
    ((key, value) :: entries).lookup k = if k = key then some value else entries.lookup k := by
  rw [lookup_cons]
  by_cases hk : k = key
  · rw [if_pos hk, beq_iff_eq.mpr hk]
  · rw [if_neg hk, beq_eq_false_iff_ne.mpr hk]

variable [DecidableEq K]

/-- The entries with a value for a key. -/
def insertEntry (key : K) (value : V) : List (K × V) → List (K × V)
  | [] => [(key, value)]
  | (k, v) :: rest =>
    if k = key then (k, value) :: rest else (k, v) :: insertEntry key value rest

theorem keys_insertEntry (entries : List (K × V)) :
    (insertEntry key value entries).map Prod.fst =
      if key ∈ entries.map Prod.fst then entries.map Prod.fst
      else entries.map Prod.fst ++ [key] := by
  induction entries with
  | nil => rfl
  | cons e entries ih =>
    obtain ⟨k, v⟩ := e
    rw [insertEntry]
    by_cases hk : k = key
    · rw [if_pos hk, if_pos (by rw [hk]; exact mem_cons_self)]
      rfl
    · rw [if_neg hk, map_cons, ih, map_cons]
      have hmem : key ∈ k :: entries.map Prod.fst ↔ key ∈ entries.map Prod.fst :=
        mem_cons.trans (or_iff_right (Ne.symm hk))
      by_cases hin : key ∈ entries.map Prod.fst
      · rw [if_pos hin, if_pos (hmem.mpr hin)]
      · rw [if_neg hin, if_neg fun h => hin (hmem.mp h)]
        rfl

variable {entries : List (K × V)}

/-- A new key goes to the end. -/
theorem insertEntry_of_not_mem {key : K} (value : V) (h : key ∉ entries.map Prod.fst) :
    insertEntry key value entries = entries ++ [(key, value)] := by
  induction entries with
  | nil => rfl
  | cons e entries ih =>
    rw [map_cons, mem_cons, not_or] at h
    rw [insertEntry, if_neg (Ne.symm h.1), ih h.2]
    rfl

theorem lookup_insertEntry (entries : List (K × V)) (k : K) :
    (insertEntry key value entries).lookup k
      = if k = key then some value else entries.lookup k := by
  induction entries with
  | nil => exact lookup_cons_ite key value [] k
  | cons e entries ih =>
    obtain ⟨k', v⟩ := e
    rw [insertEntry]
    by_cases hk' : k' = key
    · rw [if_pos hk', hk', lookup_cons_ite, lookup_cons_ite]
      by_cases hk : k = key
      · rw [if_pos hk, if_pos hk]
      · rw [if_neg hk, if_neg hk, if_neg hk]
    · rw [if_neg hk', lookup_cons_ite, lookup_cons_ite, ih]
      by_cases hk : k = key
      · rw [if_pos hk, if_pos hk, if_neg fun h => hk' (h.symm.trans hk)]
      · rw [if_neg hk, if_neg hk]

variable (m : OrderedMap K V)

/-- Insertion. -/
def insert : OrderedMap K V where
  entries := insertEntry key value m.entries
  nodup := by
    rw [keys_insertEntry]
    split
    · exact m.nodup
    · next hnew => exact nodup_append.mpr ⟨m.nodup, nodup_singleton key, by
        rintro a ha b hb rfl
        exact hnew (mem_singleton.mp hb ▸ ha)⟩

/-- The value of a key. -/
def find? : Option V := m.entries.lookup key

theorem find?_insert (k : K) :
    (m.insert key value).find? k = if k = key then some value else m.find? k :=
  lookup_insertEntry key value m.entries k

/-- Many insertions, one after the other. -/
def insertAll (entries : List (K × V)) : OrderedMap K V :=
  entries.foldl (fun m e => m.insert e.1 e.2) m

theorem mem_keys_insertAll {m : OrderedMap K V} {key : K} :
    key ∈ (m.insertAll entries).entries.map Prod.fst ↔
      key ∈ m.entries.map Prod.fst ∨ key ∈ entries.map Prod.fst := by
  induction entries generalizing m with
  | nil => exact (or_iff_left not_mem_nil).symm
  | cons e entries ih =>
    have hkeys : key ∈ (m.insert e.1 e.2).entries.map Prod.fst ↔
        key ∈ m.entries.map Prod.fst ∨ key = e.1 := by
      show key ∈ (insertEntry e.1 e.2 m.entries).map Prod.fst ↔ _
      rw [keys_insertEntry]
      split
      · next hmem => exact ⟨.inl, fun h => h.elim id fun heq => heq ▸ hmem⟩
      · rw [mem_append, mem_singleton]
    rw [insertAll, foldl_cons, ← insertAll, ih, hkeys, map_cons, mem_cons, or_assoc]

/-- **The last entry of a key counts.** -/
theorem find?_insertAll (entries : List (K × V)) (key : K) :
    (m.insertAll entries).find? key = (entries.reverse.lookup key).or (m.find? key) := by
  induction entries generalizing m with
  | nil => rfl
  | cons e entries ih =>
    rw [insertAll, foldl_cons, ← insertAll, ih, reverse_cons, lookup_append,
      find?_insert, lookup_cons_ite, lookup_nil, Option.or_assoc]
    congr 1
    split <;> rfl

/-- Where every key occurs once, the order of the entries does not matter. -/
theorem lookup_reverse (h : (entries.map Prod.fst).Nodup) (key : K) :
    entries.reverse.lookup key = entries.lookup key := by
  induction entries with
  | nil => rfl
  | cons e entries ih =>
    obtain ⟨k, v⟩ := e
    rw [map_cons, nodup_cons] at h
    rw [reverse_cons, lookup_append, ih h.2, lookup_cons_ite, lookup_cons_ite,
      lookup_nil]
    by_cases hk : key = k
    · have hnone : entries.lookup key = none := by
        rw [lookup_eq_none_iff]
        intro p hp
        rw [bne_iff_ne]
        rintro rfl
        exact h.1 (mem_map.mpr ⟨p, hp, hk⟩)
      rw [if_pos hk, if_pos hk, hnone]
      rfl
    · rw [if_neg hk, if_neg hk]
      exact Option.or_none

/-! ### Equality -/

variable {entries' : List (K × V)}

/-- The keys of many insertions only depend on the keys that are inserted. -/
theorem keys_insertAll_congr (h : entries.map Prod.fst = entries'.map Prod.fst) :
    ∀ {m m' : OrderedMap K V}, m.entries.map Prod.fst = m'.entries.map Prod.fst →
      (m.insertAll entries).entries.map Prod.fst =
        (m'.insertAll entries').entries.map Prod.fst := by
  induction entries generalizing entries' with
  | nil =>
    intro m m' hm
    obtain rfl : entries' = [] := map_eq_nil_iff.mp h.symm
    exact hm
  | cons e entries ih =>
    intro m m' hm
    obtain ⟨e', rest, rfl, hkey, hrest⟩ := map_eq_cons_iff.mp h.symm
    refine ih hrest.symm ?_
    show (insertEntry e.1 e.2 m.entries).map Prod.fst =
      (insertEntry e'.1 e'.2 m'.entries).map Prod.fst
    rw [keys_insertEntry, keys_insertEntry, hm, hkey]

/-- Entries with the same different keys are the same if every key has the same value. -/
theorem entries_eq_of_lookup (hkeys : entries.map Prod.fst = entries'.map Prod.fst)
    (hnodup : (entries.map Prod.fst).Nodup)
    (hlookup : ∀ key, entries.lookup key = entries'.lookup key) : entries = entries' := by
  induction entries generalizing entries' with
  | nil => exact (map_eq_nil_iff.mp hkeys.symm).symm
  | cons e entries ih =>
    obtain ⟨e', rest, rfl, hkey, hrest⟩ := map_eq_cons_iff.mp hkeys.symm
    obtain ⟨key, value⟩ := e
    obtain ⟨key', value'⟩ := e'
    obtain rfl : key' = key := hkey
    rw [map_cons, nodup_cons] at hnodup
    have hhead := hlookup key'
    rw [lookup_cons_ite, lookup_cons_ite, if_pos rfl, if_pos rfl] at hhead
    obtain rfl := Option.some.inj hhead
    refine congrArg _ (ih hrest.symm hnodup.2 fun k => ?_)
    by_cases hk : k = key'
    · -- The key of the first entry does not occur behind it.
      have hnone : ∀ {l : List (K × V)}, key' ∉ l.map Prod.fst → l.lookup k = none := by
        intro l hl
        rw [lookup_eq_none_iff]
        intro p hp
        rw [bne_iff_ne]
        rintro rfl
        exact hl (mem_map.mpr ⟨p, hp, hk⟩)
      rw [hnone hnodup.1, hnone (hrest ▸ hnodup.1)]
    · have htail := hlookup k
      rwa [lookup_cons_ite, lookup_cons_ite, if_neg hk, if_neg hk] at htail

/-- **Insertions under the same keys** give the same map exactly if the last entry of every key is
    the same. -/
theorem insertAll_empty_eq_iff (hkeys : entries.map Prod.fst = entries'.map Prod.fst) :
    (empty : OrderedMap K V).insertAll entries = empty.insertAll entries' ↔
      ∀ key, entries.reverse.lookup key = entries'.reverse.lookup key := by
  have hfind : ∀ (l : List (K × V)) key,
      ((empty : OrderedMap K V).insertAll l).find? key = l.reverse.lookup key := by
    intro l key
    rw [find?_insertAll]
    exact Option.or_none
  constructor
  · intro h key
    rw [← hfind, ← hfind, h]
  · intro h
    have hentries : ((empty : OrderedMap K V).insertAll entries).entries =
        ((empty : OrderedMap K V).insertAll entries').entries := by
      refine entries_eq_of_lookup (keys_insertAll_congr hkeys rfl)
        (insertAll empty entries).nodup ?_
      intro key
      have hkey := h key
      rw [← hfind, ← hfind] at hkey
      exact hkey
    generalize (empty : OrderedMap K V).insertAll entries = m at hentries
    generalize (empty : OrderedMap K V).insertAll entries' = m' at hentries
    obtain ⟨l, hl⟩ := m
    obtain ⟨l', hl'⟩ := m'
    obtain rfl : l = l' := hentries
    rfl

end OrderedMap

/-! ### Memories

A memory gives every address its contents.  A list of writes, each to one address, is carried out
in order. -/

variable {κ α : Type*} [DecidableEq κ]

/-- The memory after a list of writes. -/
def applyWrites (writes : List (κ × (α → α))) (memory : κ → α) : κ → α :=
  writes.foldl (fun m w => Function.update m w.1 (w.2 (m w.1))) memory

theorem applyWrites_cons (w : κ × (α → α)) (writes : List (κ × (α → α))) (memory : κ → α) :
    applyWrites (w :: writes) memory
      = applyWrites writes (Function.update memory w.1 (w.2 (memory w.1))) := rfl

variable {writes : List (κ × (α → α))} {memory : κ → α} {k : κ}

/-- An address that is not written keeps its contents. -/
theorem applyWrites_of_notMem (h : k ∉ writes.map Prod.fst) :
    applyWrites writes memory k = memory k := by
  induction writes generalizing memory with
  | nil => rfl
  | cons w writes ih =>
    rw [List.map_cons, List.mem_cons, not_or] at h
    rw [applyWrites_cons, ih h.2, Function.update_of_ne h.1]

/-- **Separate writes.** With different addresses, each write acts on the old contents. -/
theorem applyWrites_of_mem {f : α → α} (hnodup : (writes.map Prod.fst).Nodup)
    (hmem : (k, f) ∈ writes) : applyWrites writes memory k = f (memory k) := by
  induction writes generalizing memory with
  | nil => cases hmem
  | cons w writes ih =>
    rw [List.map_cons, List.nodup_cons] at hnodup
    rw [applyWrites_cons]
    rcases List.mem_cons.mp hmem with rfl | hmem
    · rw [applyWrites_of_notMem hnodup.1, Function.update_self]
    · have hne : k ≠ w.1 := by
        intro heq
        exact hnodup.1 (heq ▸ List.mem_map_of_mem hmem)
      rw [ih hnodup.2 hmem, Function.update_of_ne hne]

/-- One write for each element of a list. -/
theorem applyWrites_mapIdx {β : Type*} {xs : List β} {f : ℕ → β → κ × (α → α)}
    (hnodup : ((xs.mapIdx f).map Prod.fst).Nodup) {n : ℕ} {x : β} (hx : xs[n]? = some x) :
    applyWrites (xs.mapIdx f) memory (f n x).1 = (f n x).2 (memory (f n x).1) := by
  have hmem : f n x ∈ xs.mapIdx f := by
    apply List.mem_of_getElem? (i := n)
    rw [List.getElem?_mapIdx, hx]
    rfl
  exact applyWrites_of_mem hnodup hmem

end MyLite.Lib
