import Mathlib.Data.List.Infix
import Mathlib.Data.Nat.Notation

namespace MyLite.Lib

open List

/-!
# Patterns that a longer list keeps

* `Persists` — a Boolean predicate that stays true when the list is made longer at its end, with
  the rules for `&&`, `||` and `if`.
* `Adjacent`, `Adjacent3` — two or three elements that stand next to each other and meet a
  predicate each; they can also be looked for by position.
* `Local` — a predicate that a bounded number of neighbours decides; it persists.
* `Separates` — an element that no hit of the predicate contains.
-/

variable {α : Type*}

/-! ### Persistent predicates -/

/-- What holds of a beginning of a list holds of the list. -/
def Persists (p : List α → Bool) : Prop := ∀ ⦃u l : List α⦄, u <+: l → p u = true → p l = true

theorem Persists.const (b : Bool) : Persists fun _ : List α => b := fun _ _ _ h => h

theorem Persists.and {p q : List α → Bool} (hp : Persists p) (hq : Persists q) :
    Persists fun l => p l && q l := by
  intro u l hl h
  rw [Bool.and_eq_true] at h ⊢
  exact ⟨hp hl h.1, hq hl h.2⟩

theorem Persists.or {p q : List α → Bool} (hp : Persists p) (hq : Persists q) :
    Persists fun l => p l || q l := by
  intro u l hl h
  rw [Bool.or_eq_true] at h ⊢
  exact h.imp (hp hl) (hq hl)

/-- A choice persists if its second part never holds together with the condition. -/
theorem Persists.ite {c p q : List α → Bool} (hc : Persists c) (hp : Persists p)
    (hq : Persists q) (hexclusive : ∀ l, c l = true → q l = false) :
    Persists fun l => if c l = true then p l else q l := by
  intro u l hl h
  change (if c u = true then p u else q u) = true at h
  show (if c l = true then p l else q l) = true
  by_cases hcu : c u = true
  · rw [if_pos hcu] at h
    rw [if_pos (hc hl hcu)]
    exact hp hl h
  · rw [if_neg hcu] at h
    have hql := hq hl h
    rw [if_neg fun hcl => Bool.false_ne_true ((hexclusive l hcl).symm.trans hql)]
    exact hql

/-! ### Neighbours -/

variable {β : Type*}

/-- Two neighbours, the first with `p` and the second with `q`. -/
def Adjacent (p q : α → Bool) (l : List α) : Prop :=
  ∃ a b, [a, b] <:+: l ∧ p a = true ∧ q b = true

/-- Three neighbours with `p`, `q` and `r`. -/
def Adjacent3 (p q r : α → Bool) (l : List α) : Prop :=
  ∃ a b c, [a, b, c] <:+: l ∧ p a = true ∧ q b = true ∧ r c = true

variable {p q : α → Bool} {l : List α}

theorem Adjacent.mono {l' : List α} (h : Adjacent p q l) (hl : l <:+: l') : Adjacent p q l' :=
  let ⟨a, b, hab, hp, hq⟩ := h
  ⟨a, b, hab.trans hl, hp, hq⟩

variable {r : α → Bool}

theorem Adjacent3.mono {l' : List α} (h : Adjacent3 p q r l) (hl : l <:+: l') :
    Adjacent3 p q r l' :=
  let ⟨a, b, c, habc, hp, hq, hr⟩ := h
  ⟨a, b, c, habc.trans hl, hp, hq, hr⟩

theorem adjacent_iff_getElem? :
    Adjacent p q l ↔ ∃ i a b, l[i]? = some a ∧ l[i + 1]? = some b ∧ p a = true ∧ q b = true := by
  constructor
  · rintro ⟨a, b, ⟨s, t, rfl⟩, hp, hq⟩
    exact ⟨s.length, a, b, by simp, by simp, hp, hq⟩
  · rintro ⟨i, a, b, ha, hb, hp, hq⟩
    obtain ⟨hi, rfl⟩ := List.getElem?_eq_some_iff.mp ha
    obtain ⟨hi', rfl⟩ := List.getElem?_eq_some_iff.mp hb
    refine ⟨_, _, ⟨l.take i, l.drop (i + 2), ?_⟩, hp, hq⟩
    rw [append_assoc, cons_append, singleton_append,
      ← drop_eq_getElem_cons hi', ← drop_eq_getElem_cons hi, take_append_drop]

theorem adjacent3_iff_getElem? :
    Adjacent3 p q r l ↔ ∃ i a b c, l[i]? = some a ∧ l[i + 1]? = some b ∧ l[i + 2]? = some c
      ∧ p a = true ∧ q b = true ∧ r c = true := by
  constructor
  · rintro ⟨a, b, c, ⟨s, t, rfl⟩, hp, hq, hr⟩
    exact ⟨s.length, a, b, c, by simp, by simp, by simp, hp, hq, hr⟩
  · rintro ⟨i, a, b, c, ha, hb, hc, hp, hq, hr⟩
    obtain ⟨hi, rfl⟩ := List.getElem?_eq_some_iff.mp ha
    obtain ⟨hi', rfl⟩ := List.getElem?_eq_some_iff.mp hb
    obtain ⟨hi'', rfl⟩ := List.getElem?_eq_some_iff.mp hc
    refine ⟨_, _, _, ⟨l.take i, l.drop (i + 3), ?_⟩, hp, hq, hr⟩
    rw [append_assoc, cons_append, cons_append, singleton_append,
      ← drop_eq_getElem_cons hi'', ← drop_eq_getElem_cons hi',
      ← drop_eq_getElem_cons hi, take_append_drop]

theorem not_adjacent_nil : ¬Adjacent p q [] := by
  rintro ⟨a, b, h, -⟩
  exact cons_ne_nil _ _ (infix_nil.mp h)

theorem not_adjacent3_nil : ¬Adjacent3 p q r [] := by
  rintro ⟨a, b, c, h, -⟩
  exact cons_ne_nil _ _ (infix_nil.mp h)

/-- Neighbours at the front, or behind it. -/
theorem adjacent_cons {a : α} :
    Adjacent p q (a :: l) ↔ (p a = true ∧ ∃ b, l.head? = some b ∧ q b = true) ∨ Adjacent p q l := by
  constructor
  · rintro ⟨x, y, hxy, hp, hq⟩
    rcases infix_cons_iff.mp hxy with h | h
    · obtain ⟨rfl, rest, rfl⟩ := cons_prefix_cons.mp h
      exact .inl ⟨hp, y, rfl, hq⟩
    · exact .inr ⟨x, y, h, hp, hq⟩
  · rintro (⟨hp, b, hb, hq⟩ | h)
    · obtain ⟨rest, rfl⟩ := List.head?_eq_some_iff.mp hb
      exact ⟨a, b, ⟨[], rest, rfl⟩, hp, hq⟩
    · exact h.mono (suffix_cons a l).isInfix

theorem adjacent3_cons {a : α} :
    Adjacent3 p q r (a :: l) ↔
      (p a = true ∧ ∃ b c, [b, c] <+: l ∧ q b = true ∧ r c = true) ∨ Adjacent3 p q r l := by
  constructor
  · rintro ⟨x, y, z, h, hp, hq, hr⟩
    rcases infix_cons_iff.mp h with h | h
    · obtain ⟨rfl, hyz⟩ := cons_prefix_cons.mp h
      exact .inl ⟨hp, y, z, hyz, hq, hr⟩
    · exact .inr ⟨x, y, z, h, hp, hq, hr⟩
  · rintro (⟨hp, b, c, ⟨rest, rfl⟩, hq, hr⟩ | h)
    · exact ⟨a, b, c, ⟨[], rest, rfl⟩, hp, hq, hr⟩
    · exact h.mono (suffix_cons a l).isInfix

theorem adjacent_map {f : β → α} {l : List β} :
    Adjacent p q (l.map f) ↔ Adjacent (p ∘ f) (q ∘ f) l := by
  induction l with
  | nil => exact iff_of_false not_adjacent_nil not_adjacent_nil
  | cons a l ih =>
    rw [map_cons, adjacent_cons, adjacent_cons, ih, List.head?_map]
    simp

/-- A choice for the first neighbour. -/
theorem adjacent_or_left {p' : α → Bool} :
    Adjacent (fun a => p a || p' a) q l ↔ Adjacent p q l ∨ Adjacent p' q l := by
  simp only [Adjacent, Bool.or_eq_true]
  constructor
  · rintro ⟨a, b, hab, hp | hp, hq⟩
    · exact .inl ⟨a, b, hab, hp, hq⟩
    · exact .inr ⟨a, b, hab, hp, hq⟩
  · rintro (⟨a, b, hab, hp, hq⟩ | ⟨a, b, hab, hp, hq⟩)
    · exact ⟨a, b, hab, .inl hp, hq⟩
    · exact ⟨a, b, hab, .inr hp, hq⟩

/-! ### Local predicates -/

/-- A predicate that some `k` neighbours decide. -/
def Local (k : ℕ) (f : List α → Bool) : Prop :=
  ∀ l, f l = true ↔ ∃ w, w.length ≤ k ∧ w <:+: l ∧ f w = true

variable {k : ℕ} {f : List α → Bool}

theorem Local.persists (hf : Local k f) : Persists f := by
  intro u l hl h
  obtain ⟨w, hk, hw, hfw⟩ := (hf u).mp h
  exact (hf l).mpr ⟨w, hk, hw.trans hl.isInfix, hfw⟩

theorem Local.of_adjacent (hf : ∀ {l}, f l = true ↔ Adjacent p q l) (hk : 2 ≤ k) : Local k f := by
  intro l
  constructor
  · intro h
    obtain ⟨a, b, hab, hp, hq⟩ := hf.mp h
    exact ⟨[a, b], hk, hab, hf.mpr ⟨a, b, infix_rfl, hp, hq⟩⟩
  · rintro ⟨w, -, hw, h⟩
    exact hf.mpr ((hf.mp h).mono hw)

theorem Local.of_adjacent3 (hf : ∀ {l}, f l = true ↔ Adjacent3 p q r l) (hk : 3 ≤ k) :
    Local k f := by
  intro l
  constructor
  · intro h
    obtain ⟨a, b, c, habc, hp, hq, hr⟩ := hf.mp h
    exact ⟨[a, b, c], hk, habc, hf.mpr ⟨a, b, c, infix_rfl, hp, hq, hr⟩⟩
  · rintro ⟨w, -, hw, h⟩
    exact hf.mpr ((hf.mp h).mono hw)

theorem Local.or {g : List α → Bool} (hf : Local k f) (hg : Local k g) :
    Local k fun l => f l || g l := by
  intro l
  simp only [Bool.or_eq_true, hf l, hg l]
  constructor
  · rintro (⟨w, hk, hw, h⟩ | ⟨w, hk, hw, h⟩)
    · exact ⟨w, hk, hw, .inl h⟩
    · exact ⟨w, hk, hw, .inr h⟩
  · rintro ⟨w, hk, hw, h | h⟩
    · exact .inl ⟨w, hk, hw, h⟩
    · exact .inr ⟨w, hk, hw, h⟩

theorem Local.const_and (b : Bool) (hf : Local k f) : Local k fun l => b && f l := by
  intro l
  cases b with
  | false => simp
  | true => simpa using hf l

theorem Local.any {f : β → List α → Bool} (hf : ∀ b, Local k (f b)) (bs : List β) :
    Local k fun l => bs.any fun b => f b l := by
  intro l
  simp only [any_eq_true]
  constructor
  · rintro ⟨b, hb, h⟩
    obtain ⟨w, hk, hw, hfw⟩ := (hf b l).mp h
    exact ⟨w, hk, hw, b, hb, hfw⟩
  · rintro ⟨w, hk, hw, b, hb, hfw⟩
    exact ⟨b, hb, (hf b l).mpr ⟨w, hk, hw, hfw⟩⟩

/-! ### Separators -/

/-- `f` holds of a list with `s` in it exactly if it holds on one of its sides. -/
def Separates (s : α) (f : List α → Bool) : Prop := ∀ x y, f (x ++ s :: y) = (f x || f y)

variable {s : α}

/-- Neighbours that `s` is none of stand on one side of it. -/
theorem adjacent_append_cons (hp : p s = false) (hq : q s = false) {x y : List α} :
    Adjacent p q (x ++ s :: y) ↔ Adjacent p q x ∨ Adjacent p q y := by
  induction x with
  | nil =>
    rw [nil_append, adjacent_cons, hp, or_iff_right not_adjacent_nil]
    exact or_iff_right fun h => Bool.false_ne_true h.1
  | cons a x ih =>
    rw [cons_append, adjacent_cons, adjacent_cons, ih, or_assoc]
    refine or_congr_left (and_congr_right fun _ => ?_)
    cases x with
    | nil => simp [hq]
    | cons => rfl

theorem adjacent3_append_cons (hp : p s = false) (hq : q s = false) (hr : r s = false)
    {x y : List α} : Adjacent3 p q r (x ++ s :: y) ↔ Adjacent3 p q r x ∨ Adjacent3 p q r y := by
  induction x with
  | nil =>
    rw [nil_append, adjacent3_cons, hp, or_iff_right not_adjacent3_nil]
    exact or_iff_right fun h => Bool.false_ne_true h.1
  | cons a x ih =>
    rw [cons_append, adjacent3_cons, adjacent3_cons, ih, or_assoc]
    refine or_congr_left (and_congr_right fun _ => ?_)
    match x with
    | [] => simp [hq, cons_prefix_cons]
    | [b] => simp [hr, cons_prefix_cons]
    | b :: c :: x => simp [cons_prefix_cons]

theorem Separates.of_adjacent (hf : ∀ {l}, f l = true ↔ Adjacent p q l) (hp : p s = false)
    (hq : q s = false) : Separates s f := by
  intro x y
  rw [Bool.eq_iff_iff, Bool.or_eq_true, hf, hf, hf, adjacent_append_cons hp hq]

theorem Separates.of_adjacent3 (hf : ∀ {l}, f l = true ↔ Adjacent3 p q r l) (hp : p s = false)
    (hq : q s = false) (hr : r s = false) : Separates s f := by
  intro x y
  rw [Bool.eq_iff_iff, Bool.or_eq_true, hf, hf, hf, adjacent3_append_cons hp hq hr]

theorem Separates.or {g : List α → Bool} (hf : Separates s f) (hg : Separates s g) :
    Separates s fun l => f l || g l := by
  intro x y
  show (f (x ++ s :: y) || g (x ++ s :: y)) = ((f x || g x) || (f y || g y))
  rw [hf, hg]
  ac_rfl

theorem Separates.const_and (b : Bool) (hf : Separates s f) : Separates s fun l => b && f l := by
  intro x y
  show (b && f (x ++ s :: y)) = (b && f x || b && f y)
  rw [hf, Bool.and_or_distrib_left]

theorem Separates.any {f : β → List α → Bool} {bs : List β} (hf : ∀ b ∈ bs, Separates s (f b)) :
    Separates s fun l => bs.any fun b => f b l := by
  intro x y
  show (bs.any fun b => f b (x ++ s :: y)) = ((bs.any fun b => f b x) || bs.any fun b => f b y)
  induction bs with
  | nil => rfl
  | cons b bs ih =>
    rw [any_cons, any_cons, any_cons, hf b mem_cons_self,
      ih fun c hc => hf c (mem_cons_of_mem b hc)]
    ac_rfl

end MyLite.Lib
