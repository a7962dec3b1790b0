import MyLite.Lib.Dialogue

namespace MyLite.Lib.Dialogue

/-!
# Environments with a state

The answers of a dialogue are often not arbitrary: the environment has a state, and each call with
its answer is a step of it.  `next q e` is the state behind the event `e`, or `none` where the
environment does not answer so.

* `loopFrom` — a loop that hands a value from turn to turn.
* `Under` — as long as the answers are those of the environment, `Q` holds of what is returned and
  of the state then.
* `Total` — moreover at most `n` calls are made, so a dialogue with so many responders returns.
-/

variable {κ : Type} {ρ : κ → Type} {α β γ σ : Type}

/-- At most `turns` turns of a loop that hands a value from turn to turn. -/
def loopUpToFrom (body : β → Dialogue ρ (β ⊕ α)) : ℕ → β → Dialogue ρ α
  | 0, _ => fun _ => ([], none)
  | turns + 1, b => body b >>= fun
    | .inl b => loopUpToFrom body turns b
    | .inr a => pure a

/-- A loop that hands a value from turn to turn; every turn makes a call. -/
def loopFrom (body : β → Dialogue ρ (β ⊕ α)) (b : β) : Dialogue ρ α :=
  fun rs => loopUpToFrom body (rs.length + 1) b rs

/-- The state of the environment behind some events. -/
def after (next : σ → (Σ c, ρ c) → Option σ) : σ → List (Σ c, ρ c) → Option σ
  | q, [] => some q
  | q, e :: said => (next q e).bind fun q => after next q said

/-- The dialogue returns `a`, behind what is said. -/
def Returns (d : Dialogue ρ α) (rs : List (∀ c, ρ c)) (said : List (Σ c, ρ c)) (a : α) : Prop :=
  ∃ rs', d rs = (said, some (a, rs'))

theorem Ensures.of_returns {d : Dialogue ρ α} {P : List (Σ c, ρ c) → Option α → Prop}
    (h : Ensures P d) {rs : List (∀ c, ρ c)} {said : List (Σ c, ρ c)} {a : α}
    (hreturns : Returns d rs said a) : P said (some a) := by
  obtain ⟨rs', hrs⟩ := hreturns
  have hP := h rs
  rwa [hrs] at hP

variable {next : σ → (Σ c, ρ c) → Option σ}

theorem after_append (q : σ) (said said' : List (Σ c, ρ c)) :
    after next q (said ++ said') = (after next q said).bind fun q => after next q said' := by
  induction said generalizing q with
  | nil => rfl
  | cons e said ih =>
    rw [List.cons_append, after, after, Option.bind_assoc]
    exact congrArg _ (funext fun q => ih q)

/-- An environment that answers as it likes and only takes notes. -/
theorem after_observe (observe : σ → (Σ c, ρ c) → σ) (q : σ) (said : List (Σ c, ρ c)) :
    after (fun q e => some (observe q e)) q said = some (said.foldl observe q) := by
  induction said generalizing q with
  | nil => rfl
  | cons e said ih => exact ih (observe q e)

/-! ### What is returned -/

/-- `Q` holds of what is returned and of the environment then. -/
def Under (next : σ → (Σ c, ρ c) → Option σ) (q : σ) (Q : α → σ → Prop) (d : Dialogue ρ α) : Prop :=
  ∀ rs q', after next q (d rs).1 = some q' → ∀ a, (d rs).2.map Prod.fst = some a → Q a q'

namespace Under

variable {q : σ} {P Q : α → σ → Prop} {R : β → σ → Prop}

variable {d : Dialogue ρ α}

theorem of_returns (h : Under next q Q d) {rs : List (∀ c, ρ c)} {said : List (Σ c, ρ c)} {a : α}
    (hreturns : Returns d rs said a) {q' : σ} (hafter : after next q said = some q') : Q a q' := by
  obtain ⟨rs', hrs⟩ := hreturns
  exact h rs q' (by rw [hrs]; exact hafter) a (by rw [hrs]; rfl)

theorem pure {a : α} (h : Q a q) : Under next q Q (Pure.pure a : Dialogue ρ α) := by
  intro rs q' hafter b hb
  obtain rfl : q = q' := Option.some.inj hafter
  obtain rfl : a = b := Option.some.inj hb
  exact h

theorem ask {c : κ} {Q : ρ c → σ → Prop} (h : ∀ r q', next q ⟨c, r⟩ = some q' → Q r q') :
    Under next q Q (Dialogue.ask c) := by
  intro rs q' hafter a ha
  cases rs with
  | nil => cases ha
  | cons r rs =>
    obtain rfl : r c = a := Option.some.inj ha
    refine h _ _ ?_
    have hone : (next q ⟨c, r c⟩).bind (fun q => some q) = some q' := hafter
    rwa [Option.bind_fun_some] at hone

theorem imp (h : Under next q P d) (himp : ∀ a q', P a q' → Q a q') :
    Under next q Q d := fun rs q' hafter a ha => himp a q' (h rs q' hafter a ha)

/-- **Sequence.** -/
theorem bind {f : α → Dialogue ρ β} (hd : Under next q P d)
    (hf : ∀ a q', P a q' → Under next q' R (f a)) : Under next q R (d >>= f) := by
  intro rs q' hafter b hb
  rcases hrs : d rs with ⟨said, returned⟩
  cases returned with
  | none =>
    rw [bind_cut hrs] at hb
    cases hb
  | some returned =>
    obtain ⟨a, rs'⟩ := returned
    rw [bind_next hrs] at hafter hb
    rw [after_append, Option.bind_eq_some_iff] at hafter
    obtain ⟨q₁, hsaid, hrest⟩ := hafter
    have hP : P a q₁ := hd rs q₁ (by rw [hrs]; exact hsaid) a (by rw [hrs]; rfl)
    exact hf a q₁ hP rs' q' hrest b hb

theorem ite {b : Prop} [Decidable b] {e : Dialogue ρ α} (hd : b → Under next q Q d)
    (he : ¬b → Under next q Q e) : Under next q Q (if b then d else e) := by
  by_cases hb : b
  · rw [if_pos hb]
    exact hd hb
  · rw [if_neg hb]
    exact he hb

/-- **Loop.** What every turn keeps, and its last turn turns into the result. -/
theorem loopFrom {body : β → Dialogue ρ (β ⊕ α)} {I : β → σ → Prop} {b : β} (hstart : I b q)
    (hbody : ∀ b q, I b q → Under next q (fun r q' => match r with
      | .inl b => I b q'
      | .inr a => Q a q') (body b)) :
    Under next q Q (Dialogue.loopFrom body b) := by
  have hturns : ∀ turns b q, I b q → Under next q Q (loopUpToFrom body turns b) := by
    intro turns
    induction turns with
    | zero => exact fun b q _ rs q' _ a ha => nomatch ha
    | succ turns ih =>
      intro b q hI
      refine bind (hbody b q hI) fun r q' hr => ?_
      cases r with
      | inl b => exact ih b q' hr
      | inr a => exact pure hr
  exact fun rs => hturns (rs.length + 1) b q hstart rs

end Under

/-! ### How many calls are made -/

/-- At most `n` calls are made, and `Q` holds of what is returned and of the environment then. -/
def Total (next : σ → (Σ c, ρ c) → Option σ) (n : ℕ) (q : σ) (Q : α → σ → Prop)
    (d : Dialogue ρ α) : Prop :=
  ∀ rs q', after next q (d rs).1 = some q' →
    match (d rs).2 with
    | none => rs.length < n
    | some (a, rs') => rs.length ≤ rs'.length + n ∧ Q a q'

namespace Total

variable {q : σ} {n m : ℕ} {P Q : α → σ → Prop} {R : β → σ → Prop}

variable {d : Dialogue ρ α}

theorem pure {a : α} (h : Q a q) : Total next 0 q Q (Pure.pure a : Dialogue ρ α) := by
  intro rs q' hafter
  obtain rfl : q = q' := Option.some.inj hafter
  exact ⟨Nat.le_refl _, h⟩

theorem ask {c : κ} {Q : ρ c → σ → Prop} (h : ∀ r q', next q ⟨c, r⟩ = some q' → Q r q') :
    Total next 1 q Q (Dialogue.ask c) := by
  intro rs q' hafter
  cases rs with
  | nil => exact Nat.one_pos
  | cons r rs =>
    refine ⟨Nat.le_refl _, h _ _ ?_⟩
    have hone : (next q ⟨c, r c⟩).bind (fun q => some q) = some q' := hafter
    rwa [Option.bind_fun_some] at hone

theorem imp (h : Total next n q P d) (himp : ∀ a q', P a q' → Q a q') (hn : n ≤ m) :
    Total next m q Q d := by
  intro rs q' hafter
  have hd := h rs q' hafter
  generalize (d rs).2 = returned at hd ⊢
  cases returned with
  | none => exact Nat.lt_of_lt_of_le hd hn
  | some returned =>
    obtain ⟨hcalls, hP⟩ := hd
    exact ⟨by omega, himp _ q' hP⟩

theorem mono (h : Total next n q Q d) (hn : n ≤ m) : Total next m q Q d :=
  h.imp (fun _ _ hQ => hQ) hn

/-- **Sequence.** -/
theorem bind {f : α → Dialogue ρ β} (hd : Total next n q P d)
    (hf : ∀ a q', P a q' → Total next m q' R (f a)) : Total next (n + m) q R (d >>= f) := by
  intro rs q' hafter
  rcases hrs : d rs with ⟨said, returned⟩
  cases returned with
  | none =>
    rw [bind_cut hrs] at hafter ⊢
    have hcalls := hd rs q' (by rw [hrs]; exact hafter)
    rw [hrs] at hcalls
    exact Nat.lt_of_lt_of_le hcalls (Nat.le_add_right n m)
  | some returned =>
    obtain ⟨a, rs'⟩ := returned
    rw [bind_next hrs] at hafter ⊢
    rw [after_append, Option.bind_eq_some_iff] at hafter
    obtain ⟨q₁, hsaid, hrest⟩ := hafter
    have hfirst := hd rs q₁ (by rw [hrs]; exact hsaid)
    rw [hrs] at hfirst
    obtain ⟨hcalls, hP⟩ := hfirst
    have hsecond := hf a q₁ hP rs' q' hrest
    show match (f a rs').2 with
      | none => rs.length < n + m
      | some (b, rs'') => rs.length ≤ rs''.length + (n + m) ∧ R b q'
    generalize (f a rs').2 = returned at hsecond ⊢
    cases returned with
    | none =>
      have hless : rs'.length < m := hsecond
      show rs.length < n + m
      omega
    | some returned =>
      obtain ⟨hmore, hR⟩ := hsecond
      exact ⟨by omega, hR⟩

theorem ite {b : Prop} [Decidable b] {e : Dialogue ρ α} (hd : b → Total next n q Q d)
    (he : ¬b → Total next n q Q e) : Total next n q Q (if b then d else e) := by
  by_cases hb : b
  · rw [if_pos hb]
    exact hd hb
  · rw [if_neg hb]
    exact he hb

/-- A call, and what follows on the answer. -/
theorem asks {c : κ} {f : ρ c → Dialogue ρ β}
    (h : ∀ r q', next q ⟨c, r⟩ = some q' → Total next n q' R (f r)) :
    Total next (1 + n) q R (Dialogue.ask c >>= f) :=
  bind (ask h) fun _ _ hf => hf

/-- **Loop.** Every turn makes at most `n` calls and comes down by one in `v`, or it is the
    last one. -/
theorem loopFrom {body : β → Dialogue ρ (β ⊕ α)} {I : β → σ → Prop} {v : σ → ℕ} {b : β}
    (hn : 0 < n) (hstart : I b q)
    (hbody : ∀ b q, I b q → Total next n q (fun r q' => match r with
      | .inl b => I b q' ∧ v q' + 1 ≤ v q
      | .inr a => Q a q') (body b)) :
    Total next (n * (v q + 1)) q Q (Dialogue.loopFrom body b) := by
  -- Either the responders run out, or the turns do, of which there are too few then.
  have hturns : ∀ turns b q, I b q → ∀ rs q',
      after next q (loopUpToFrom body turns b rs).1 = some q' →
      match (loopUpToFrom body turns b rs).2 with
      | none => rs.length < n * (v q + 1) ∨ turns ≤ v q
      | some (a, rs') => rs.length ≤ rs'.length + n * (v q + 1) ∧ Q a q' := by
    intro turns
    induction turns with
    | zero => exact fun b q _ rs q' _ => .inr (Nat.zero_le _)
    | succ turns ih =>
      intro b q hI rs q' hafter
      have hmul : n ≤ n * (v q + 1) := Nat.le_mul_of_pos_right n (Nat.succ_pos _)
      rw [loopUpToFrom] at hafter ⊢
      rcases hrs : body b rs with ⟨said, returned⟩
      cases returned with
      | none =>
        rw [bind_cut hrs] at hafter ⊢
        have hcalls := hbody b q hI rs q' (by rw [hrs]; exact hafter)
        rw [hrs] at hcalls
        exact .inl (Nat.lt_of_lt_of_le hcalls hmul)
      | some returned =>
        obtain ⟨r, rs'⟩ := returned
        rw [bind_next hrs] at hafter ⊢
        rw [after_append, Option.bind_eq_some_iff] at hafter
        obtain ⟨q₁, hsaid, hrest⟩ := hafter
        have hfirst := hbody b q hI rs q₁ (by rw [hrs]; exact hsaid)
        rw [hrs] at hfirst
        obtain ⟨hcalls, hr⟩ := hfirst
        cases r with
        | inr a =>
          obtain rfl : q₁ = q' := Option.some.inj hrest
          exact ⟨by show rs.length ≤ rs'.length + _; omega, hr⟩
        | inl b' =>
          obtain ⟨hI', hless⟩ := hr
          have hstep : n * (v q₁ + 1) + n ≤ n * (v q + 1) := by
            rw [← Nat.mul_succ]
            exact Nat.mul_le_mul_left n (Nat.succ_le_succ hless)
          have hmore := ih b' q₁ hI' rs' q' hrest
          show match (loopUpToFrom body turns b' rs').2 with
            | none => rs.length < n * (v q + 1) ∨ turns + 1 ≤ v q
            | some (a, rs'') => rs.length ≤ rs''.length + n * (v q + 1) ∧ Q a q'
          generalize (loopUpToFrom body turns b' rs').2 = returned at hmore ⊢
          cases returned with
          | none =>
            rcases hmore with hmore | hmore
            · exact .inl (by omega)
            · exact .inr (by omega)
          | some returned =>
            obtain ⟨hmore, hQ⟩ := hmore
            exact ⟨by omega, hQ⟩
  intro rs q' hafter
  have h := hturns (rs.length + 1) b q hstart rs q' hafter
  show match (loopUpToFrom body (rs.length + 1) b rs).2 with
    | none => rs.length < n * (v q + 1)
    | some (a, rs') => rs.length ≤ rs'.length + n * (v q + 1) ∧ Q a q'
  generalize (loopUpToFrom body (rs.length + 1) b rs).2 = returned at h ⊢
  cases returned with
  | none =>
    have hmul : v q + 1 ≤ n * (v q + 1) := Nat.le_mul_of_pos_left _ hn
    rcases h with h | h
    · exact h
    · show rs.length < n * (v q + 1)
      omega
  | some returned => exact h

end Total

end MyLite.Lib.Dialogue
