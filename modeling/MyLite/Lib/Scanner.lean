import Mathlib.Data.List.Basic
import Mathlib.Data.List.TakeDrop

namespace MyLite.Lib

/-!
# Scanners

A *scanner* cuts a list into consecutive pieces from the left: at each position it either
stops or reads a nonempty piece, names its kind and moves behind it.  Tokenizers, lexers and
comment skippers are scanners; what is true of all of them is proved here once.

* `Scanner.scan` — the kinds of all pieces; `Scanner.run` — of the first `n`.
* `Scanner.Emits s ks t` — the scanner goes from `s` to `t` and reads pieces of kinds `ks`.
* `Scanner.marks` — the kind of the piece each single element lies in.

A scanner is a function of the rest of its input, so a run to a position splits every result there
(`Emits.scan_eq`, `Reaches.marks_eq`).
-/

/-- A scanner over `α` with piece kinds `κ`.  `next` gives the kind of the next piece and the
    input behind it; a piece has at least one element, so scanning ends. -/
structure Scanner (α κ : Type*) where
  next : List α → Option (κ × List α)
  consumes : ∀ {s k r}, next s = some (k, r) → ∃ w, w ≠ [] ∧ s = w ++ r

namespace Scanner

variable {α κ : Type*} (sc : Scanner α κ)

variable {s r : List α} {k : κ}

theorem next_length (h : sc.next s = some (k, r)) : r.length < s.length := by
  obtain ⟨w, hw, rfl⟩ := sc.consumes h
  have := List.length_pos_of_ne_nil hw
  rw [List.length_append]; omega

theorem next_nil : sc.next [] = none := by
  cases h : sc.next [] with
  | none => rfl
  | some kr => exact absurd (sc.next_length h) (Nat.not_lt_zero _)

/-! ### Running a scanner -/

/-- The kinds of the first `n` pieces. -/
def run : ℕ → List α → List κ
  | 0, _ => []
  | n + 1, s =>
    match sc.next s with
    | none => []
    | some (k, r) => k :: run n r

/-- The kinds of all pieces. -/
def scan (s : List α) : List κ := sc.run s.length s

theorem run_none (h : sc.next s = none) (n : ℕ) : sc.run n s = [] := by
  cases n <;> simp [run, h]

theorem run_some (h : sc.next s = some (k, r)) (n : ℕ) : sc.run (n + 1) s = k :: sc.run n r := by
  simp [run, h]

/-- Any fuel of at least the input's length gives the same run. -/
theorem run_fuel : ∀ (n m : ℕ) (s : List α), s.length ≤ n → s.length ≤ m →
    sc.run n s = sc.run m s := by
  intro n
  induction n with
  | zero =>
    intro m s hs _
    obtain rfl := List.length_eq_zero_iff.mp (Nat.le_zero.mp hs)
    rw [sc.run_none sc.next_nil, sc.run_none sc.next_nil]
  | succ n ih =>
    intro m s hs hm
    cases h : sc.next s with
    | none => rw [sc.run_none h, sc.run_none h]
    | some kr =>
      obtain ⟨k, r⟩ := kr
      have hlt := sc.next_length h
      obtain ⟨m, rfl⟩ : ∃ j, m = j + 1 := ⟨m - 1, by omega⟩
      rw [sc.run_some h, sc.run_some h, ih m r (by omega) (by omega)]

theorem run_eq_scan_of_le {n : ℕ} (h : s.length ≤ n) : sc.run n s = sc.scan s :=
  sc.run_fuel _ _ _ h (Nat.le_refl _)

theorem scan_none (h : sc.next s = none) : sc.scan s = [] := sc.run_none h _

theorem scan_some (h : sc.next s = some (k, r)) : sc.scan s = k :: sc.scan r := by
  have hlt := sc.next_length h
  rw [← sc.run_eq_scan_of_le (Nat.le_succ _), sc.run_some h, sc.run_eq_scan_of_le (by omega)]

@[simp] theorem scan_nil : sc.scan [] = [] := rfl

/-- A bounded run is the beginning of the whole scan. -/
theorem run_eq_take : ∀ (n : ℕ) (s : List α), sc.run n s = (sc.scan s).take n
  | 0, s => by simp [run]
  | n + 1, s => by
    cases h : sc.next s with
    | none => rw [sc.run_none h, sc.scan_none h, List.take_nil]
    | some kr => rw [sc.run_some h, sc.scan_some h, List.take_succ_cons, run_eq_take n]

/-- A scanner that reads mapped input piece by piece as another one reads the input. -/
theorem scan_map {β κ' : Type*} {sc' : Scanner β κ'} {f : α → β} {g : κ → κ'}
    (h : ∀ s, sc'.next (s.map f) = (sc.next s).map fun kr => (g kr.1, kr.2.map f)) (s : List α) :
    sc'.scan (s.map f) = (sc.scan s).map g := by
  induction hn : s.length using Nat.strongRecOn generalizing s with
  | _ n ih =>
    subst hn
    cases hnext : sc.next s with
    | none =>
      have hnone : sc'.next (s.map f) = none := by rw [h, hnext]; rfl
      rw [sc'.scan_none hnone, sc.scan_none hnext, List.map_nil]
    | some kr =>
      obtain ⟨k, r⟩ := kr
      have hsome : sc'.next (s.map f) = some (g k, r.map f) := by rw [h, hnext]; rfl
      rw [sc'.scan_some hsome, sc.scan_some hnext, List.map_cons,
        ih r.length (sc.next_length hnext) r rfl]

/-! ### Runs between two positions -/

/-- `sc.Emits s ks t`: from `s` the scanner reads pieces of kinds `ks` and is then at `t`. -/
inductive Emits : List α → List κ → List α → Prop
  | refl (s : List α) : Emits s [] s
  | step {s r t : List α} {k : κ} {ks : List κ} :
      sc.next s = some (k, r) → Emits r ks t → Emits s (k :: ks) t

/-- The scanner passes through `t` on its way from `s`. -/
def Reaches (s t : List α) : Prop := ∃ ks, sc.Emits s ks t

variable {sc}

variable {t u : List α} {ks : List κ}

theorem Emits.trans {ls : List κ} (h : sc.Emits s ks t) (h' : sc.Emits t ls u) :
    sc.Emits s (ks ++ ls) u := by
  induction h with
  | refl => exact h'
  | step hn _ ih => exact .step hn (ih h')

/-- Only the prefix between the two positions has been read. -/
theorem Emits.suffix (h : sc.Emits s ks t) : t <:+ s := by
  induction h with
  | refl => exact List.suffix_refl _
  | step hn _ ih =>
    obtain ⟨w, -, rfl⟩ := sc.consumes hn
    exact ih.trans (List.suffix_append _ _)

theorem Emits.scan_eq (h : sc.Emits s ks t) : sc.scan s = ks ++ sc.scan t := by
  induction h with
  | refl => rfl
  | step hn _ ih => rw [sc.scan_some hn, ih, List.cons_append]

theorem Reaches.refl (s : List α) : sc.Reaches s s := ⟨[], .refl s⟩

theorem Reaches.trans (h : sc.Reaches s t) (h' : sc.Reaches t u) : sc.Reaches s u := by
  obtain ⟨ks, h⟩ := h
  obtain ⟨ls, h'⟩ := h'
  exact ⟨ks ++ ls, h.trans h'⟩

theorem Reaches.step (h : sc.next s = some (k, r)) : sc.Reaches s r :=
  ⟨[k], .step h (.refl r)⟩

theorem Reaches.suffix (h : sc.Reaches s t) : t <:+ s := h.elim fun _ => Emits.suffix

/-! ### The piece an element lies in -/

variable (sc)

/-- The scanner that also says how long a piece is. -/
def sized : Scanner α (κ × ℕ) where
  next s := (sc.next s).map fun p => ((p.1, s.length - p.2.length), p.2)
  consumes h := by
    obtain ⟨⟨k, r⟩, hnext, heq⟩ := Option.map_eq_some_iff.mp h
    obtain rfl := (Prod.mk.inj heq).2
    exact sc.consumes hnext

/-- The kind of the piece each element lies in. -/
def marks (s : List α) : List κ := (sc.sized.scan s).flatMap fun p => List.replicate p.2 p.1

theorem marks_none (h : sc.next s = none) : sc.marks s = [] := by
  rw [marks, sc.sized.scan_none (congrArg (Option.map _) h)]
  rfl

theorem marks_some (h : sc.next s = some (k, r)) :
    sc.marks s = List.replicate (s.length - r.length) k ++ sc.marks r := by
  rw [marks, sc.sized.scan_some (congrArg (Option.map _) h)]
  rfl

/-- The elements of the first piece. -/
theorem marks_getElem?_of_next (h : sc.next s = some (k, r)) {i : ℕ}
    (hi : i < s.length - r.length) :
    (sc.marks s)[i]? = some k := by
  rw [sc.marks_some h, List.getElem?_append_left (by simpa using hi), List.getElem?_replicate,
    if_pos hi]

/-- The elements behind the first piece. -/
theorem marks_getElem?_behind (h : sc.next s = some (k, r)) (i : ℕ) :
    (sc.marks s)[s.length - r.length + i]? = (sc.marks r)[i]? := by
  rw [sc.marks_some h, List.getElem?_append_right (by simp)]
  simp

variable {sc}

/-- **Marks at a boundary.** Behind a position the scanner passes, an element has the mark it has
    when the scanner starts there. -/
theorem Reaches.marks_eq (h : sc.Reaches (u ++ t) t) (i : ℕ) :
    (sc.marks (u ++ t))[u.length + i]? = (sc.marks t)[i]? := by
  obtain ⟨ks, h⟩ := h
  generalize hs : u ++ t = s at h
  induction h generalizing u with
  | refl =>
    obtain rfl : u = [] := List.append_left_eq_self.mp hs
    simp
  | @step s r t k ks hn hr ih =>
    obtain ⟨w, hw, hwr⟩ := sc.consumes hn
    obtain ⟨v, rfl⟩ := hr.suffix
    have hu : u = w ++ v := List.append_cancel_right
      (by rw [hs, hwr, List.append_assoc] : u ++ t = w ++ v ++ t)
    have hlen : u.length + i = s.length - (v ++ t).length + (v.length + i) := by
      rw [hu, hwr]
      simp only [List.length_append]
      omega
    rw [hlen, sc.marks_getElem?_behind hn]
    exact ih rfl

/-- The piece that an element with a mark lies in. -/
theorem exists_piece_of_marks {i : ℕ} (h : (sc.marks s)[i]? = some k) :
    ∃ t r, sc.Reaches s t ∧ sc.next t = some (k, r) ∧ r.length < s.length - i ∧
      s.length - i ≤ t.length := by
  induction hn : s.length using Nat.strongRecOn generalizing s i with
  | _ n ih =>
    subst hn
    cases hnext : sc.next s with
    | none =>
      rw [sc.marks_none hnext] at h
      cases h
    | some kr =>
      obtain ⟨l, r⟩ := kr
      have hlt := sc.next_length hnext
      by_cases hi : i < s.length - r.length
      · rw [sc.marks_getElem?_of_next hnext hi] at h
        cases h
        exact ⟨s, r, .refl s, hnext, by omega, by omega⟩
      · obtain ⟨j, rfl⟩ : ∃ j, i = s.length - r.length + j := ⟨i - (s.length - r.length), by omega⟩
        rw [sc.marks_getElem?_behind hnext] at h
        obtain ⟨t, u, hreach, hu, hlo, hhi⟩ := ih r.length hlt h rfl
        exact ⟨t, u, (Reaches.step hnext).trans hreach, hu, by omega, by omega⟩

end Scanner

end MyLite.Lib
