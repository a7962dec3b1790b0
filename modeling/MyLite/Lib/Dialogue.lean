import Mathlib.Data.List.Basic

namespace MyLite.Lib

/-!
# Dialogues with an environment

A program that calls into its environment and goes on with the answers.  The environment is given
by a list of responders, one for each call: a responder answers whatever call is made.  As long as
responders are left the program runs; what it has said so far, the calls with their answers, is
there also when they run out.

* `ask` — one call; `loop` — a loop that makes a call in every turn.
* `Ensures` — a rule for what a dialogue says and returns, with `Ensures.bind` for sequences.
* `Only` — a bound on the calls that are made, with what is returned.
* `Similar` — two dialogues make the same calls and, on the same answers, return related values;
  `Similar.bind` for sequences.
-/

variable {κ : Type} {ρ : κ → Type} {α β γ δ : Type}

/-- A program whose calls are `κ`, with answers `ρ`: for a list of responders, what is said and,
    unless they run out, what is returned and the responders left. -/
def Dialogue (ρ : κ → Type) (α : Type) : Type :=
  List (∀ c, ρ c) → List (Σ c, ρ c) × Option (α × List (∀ c, ρ c))

namespace Dialogue

variable {a : α}

instance : Monad (Dialogue ρ) where
  pure a := fun rs => ([], some (a, rs))
  bind d f := fun rs =>
    match d rs with
    | (said, none) => (said, none)
    | (said, some (a, rs)) => (said ++ (f a rs).1, (f a rs).2)

variable {d : Dialogue ρ α} {f : α → Dialogue ρ β}

variable {rs : List (∀ c, ρ c)} {said : List (Σ c, ρ c)}

theorem bind_cut (h : d rs = (said, none)) : (d >>= f) rs = (said, none) := by
  show (match d rs with
    | (said, none) => (said, none)
    | (said, some (a, rs)) => (said ++ (f a rs).1, (f a rs).2)) = _
  rw [h]

theorem bind_next {rs' : List (∀ c, ρ c)} (h : d rs = (said, some (a, rs'))) :
    (d >>= f) rs = (said ++ (f a rs').1, (f a rs').2) := by
  show (match d rs with
    | (said, none) => (said, none)
    | (said, some (a, rs)) => (said ++ (f a rs).1, (f a rs).2)) = _
  rw [h]

/-- One call. -/
def ask (c : κ) : Dialogue ρ (ρ c)
  | [] => ([], none)
  | r :: rs => ([⟨c, r c⟩], some (r c, rs))

/-- At most `turns` turns of a loop that ends where its body returns a value. -/
def loopUpTo (body : Dialogue ρ (Option α)) : ℕ → Dialogue ρ α
  | 0 => fun _ => ([], none)
  | turns + 1 => body >>= fun
    | none => loopUpTo body turns
    | some a => pure a

/-- `for (;;)`.  Every turn makes a call, so there are no more turns than responders. -/
def loop (body : Dialogue ρ (Option α)) : Dialogue ρ α := fun rs => loopUpTo body (rs.length + 1) rs

/-! ### What a dialogue says and returns -/

/-- `P` holds of what is said and what is returned, if anything is. -/
def Ensures (P : List (Σ c, ρ c) → Option α → Prop) (d : Dialogue ρ α) : Prop :=
  ∀ rs, P (d rs).1 ((d rs).2.map Prod.fst)

theorem Ensures.pure {P : List (Σ c, ρ c) → Option α → Prop} (h : P [] (some a)) :
    Ensures P (Pure.pure a : Dialogue ρ α) := fun _ => h

theorem Ensures.ask {c : κ} {P : List (Σ c, ρ c) → Option (ρ c) → Prop} (hcut : P [] none)
    (h : ∀ r, P [⟨c, r⟩] (some r)) : Ensures P (ask c) := by
  intro rs
  cases rs with
  | nil => exact hcut
  | cons r rs => exact h (r c)

theorem Ensures.imp {P Q : List (Σ c, ρ c) → Option α → Prop} (h : Ensures P d)
    (himp : ∀ said a, P said a → Q said a) : Ensures Q d := fun rs => himp _ _ (h rs)

/-- **Sequence.** -/
theorem Ensures.bind {P : List (Σ c, ρ c) → Option α → Prop} {Q : List (Σ c, ρ c) → Option β → Prop}
    (hd : Ensures P d) (hcut : ∀ said, P said none → Q said none)
    (hf : ∀ said a, P said (some a) → Ensures (fun said' => Q (said ++ said')) (f a)) :
    Ensures Q (d >>= f) := by
  intro rs
  have hP := hd rs
  rcases hrs : d rs with ⟨said, next⟩
  rw [hrs] at hP
  cases next with
  | none =>
    rw [bind_cut hrs]
    exact hcut said hP
  | some next =>
    rw [bind_next hrs]
    exact hf said next.1 hP next.2

/-- **Loop.** What every turn keeps, and its last turn turns into the result. -/
theorem Ensures.loop {P : List (Σ c, ρ c) → Prop} {Q : List (Σ c, ρ c) → Option α → Prop}
    {body : Dialogue ρ (Option α)} (hstart : P []) (hcut : ∀ said, P said → Q said none)
    (hbody : ∀ said, P said → Ensures (fun said' next => match next with
      | none => Q (said ++ said') none
      | some none => P (said ++ said')
      | some (some a) => Q (said ++ said') (some a)) body) :
    Ensures Q (loop body) := by
  have hturns : ∀ turns said, P said →
      Ensures (fun said' => Q (said ++ said')) (loopUpTo body turns) := by
    intro turns
    induction turns with
    | zero =>
      intro said hsaid rs
      show Q (said ++ []) none
      rw [List.append_nil]
      exact hcut said hsaid
    | succ turns ih =>
      intro said hsaid
      refine Ensures.bind (hbody said hsaid) (fun _ h => h) fun said' next h => ?_
      cases next with
      | none => exact (ih (said ++ said') h).imp fun _ _ hQ => by rwa [List.append_assoc] at hQ
      | some a => exact .pure (by rwa [List.append_nil])
  exact fun rs => hturns (rs.length + 1) [] hstart rs

/-! ### Which calls are made -/

/-- Only calls with `p` are made, and `P` holds of what is returned. -/
def Only (p : κ → Prop) (P : α → Prop) (d : Dialogue ρ α) : Prop :=
  Ensures (fun said returned => (∀ e ∈ said, p e.1) ∧ ∀ a, returned = some a → P a) d

namespace Only

variable {p p' : κ → Prop} {P P' : α → Prop} {Q : β → Prop}

theorem pure (h : P a) : Only p P (Pure.pure a : Dialogue ρ α) :=
  Ensures.pure ⟨List.forall_mem_nil _, fun _ heq => Option.some.inj heq ▸ h⟩

theorem ask {c : κ} (h : p c) : Only p (fun _ => True) (ask c : Dialogue ρ (ρ c)) := by
  refine Ensures.ask ⟨List.forall_mem_nil _, nofun⟩ fun r => ?_
  exact ⟨List.forall_mem_singleton.mpr h, fun _ _ => trivial⟩

theorem imp (h : Only p P d) (hp : ∀ c, p c → p' c) (hP : ∀ a, P a → P' a) : Only p' P' d :=
  Ensures.imp h fun _ _ hd =>
    ⟨fun e he => hp e.1 (hd.1 e he), fun a ha => hP a (hd.2 a ha)⟩

/-- **Sequence.** -/
theorem bind (hd : Only p P d) (hf : ∀ a, P a → Only p Q (f a)) : Only p Q (d >>= f) := by
  refine Ensures.bind hd (fun said h => ⟨h.1, nofun⟩) fun said a h => ?_
  refine Ensures.imp (hf a (h.2 a rfl)) fun said' b h' => ?_
  exact ⟨List.forall_mem_append.mpr ⟨h.1, h'.1⟩, h'.2⟩

theorem ite {b : Prop} [Decidable b] {e : Dialogue ρ α} (hd : b → Only p P d)
    (he : ¬b → Only p P e) :
    Only p P (if b then d else e) := by
  by_cases hb : b
  · rw [if_pos hb]
    exact hd hb
  · rw [if_neg hb]
    exact he hb

/-- **Loop.** -/
theorem loop {body : Dialogue ρ (Option α)} (h : Only p (fun _ => True) body) :
    Only p (fun _ => True) (loop body) := by
  refine Ensures.loop (P := fun said => ∀ e ∈ said, p e.1) (List.forall_mem_nil _)
    (fun said h => ⟨h, nofun⟩) ?_
  intro said hsaid
  refine Ensures.imp h fun said' next h' => ?_
  have hboth : ∀ e ∈ said ++ said', p e.1 := List.forall_mem_append.mpr ⟨hsaid, h'.1⟩
  match next with
  | none => exact ⟨hboth, nofun⟩
  | some none => exact hboth
  | some (some a) => exact ⟨hboth, fun _ _ => trivial⟩

end Only

/-! ### Dialogues that cannot be told apart -/

/-- The same calls and, on the same answers, values that are related. -/
def Similar (R : α → β → Prop) (d : Dialogue ρ α) (e : Dialogue ρ β) : Prop :=
  ∀ rs, (d rs).1 = (e rs).1 ∧
    Option.Rel (fun x y => R x.1 y.1 ∧ x.2 = y.2) (d rs).2 (e rs).2

variable {R : α → β → Prop}

variable {S : γ → δ → Prop} {e : Dialogue ρ β}

theorem Similar.pure {b : β} (h : R a b) :
    Similar R (Pure.pure a : Dialogue ρ α) (Pure.pure b) := fun _ => ⟨rfl, .some ⟨h, rfl⟩⟩

theorem Similar.refl {R : α → α → Prop} (h : ∀ a, R a a) (d : Dialogue ρ α) : Similar R d d := by
  intro rs
  refine ⟨rfl, ?_⟩
  cases (d rs).2 with
  | none => exact .none
  | some next => exact .some ⟨h _, rfl⟩

/-- **Sequence.** -/
theorem Similar.bind {f : α → Dialogue ρ γ} {g : β → Dialogue ρ δ} (hde : Similar R d e)
    (hfg : ∀ a b, R a b → Similar S (f a) (g b)) : Similar S (d >>= f) (e >>= g) := by
  intro rs
  obtain ⟨hsaid, hnext⟩ := hde rs
  rcases hd : d rs with ⟨said, next⟩
  rcases he : e rs with ⟨said', next'⟩
  rw [hd, he] at hsaid hnext
  obtain rfl : said = said' := hsaid
  cases next with
  | none =>
    cases next' with
    | none =>
      rw [bind_cut hd, bind_cut he]
      exact ⟨rfl, .none⟩
    | some next' => cases hnext
  | some next =>
    cases next' with
    | none => cases hnext
    | some next' =>
      rw [bind_next hd, bind_next he]
      obtain ⟨a, rs₁⟩ := next
      obtain ⟨b, rs₂⟩ := next'
      cases hnext with
      | some hab =>
        obtain ⟨hR, rfl⟩ := hab
        obtain ⟨hsaid', hnext'⟩ := hfg a b hR rs₁
        exact ⟨congrArg (said ++ ·) hsaid', hnext'⟩

/-- A common beginning. -/
theorem Similar.bind_same {f : α → Dialogue ρ γ} {g : α → Dialogue ρ δ}
    (h : ∀ a, Similar S (f a) (g a)) : Similar S (d >>= f) (d >>= g) := by
  refine Similar.bind (Similar.refl (fun _ => rfl) d) ?_
  rintro a _ rfl
  exact h a

theorem Similar.ite {b : Prop} [Decidable b] {d' : Dialogue ρ α} {e' : Dialogue ρ β}
    (h : Similar R d e) (h' : Similar R d' e') :
    Similar R (if b then d else d') (if b then e else e') := by
  by_cases hb : b
  · rw [if_pos hb, if_pos hb]
    exact h
  · rw [if_neg hb, if_neg hb]
    exact h'

end Dialogue

end MyLite.Lib
