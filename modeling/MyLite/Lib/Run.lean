import Mathlib.Logic.Basic

namespace MyLite.Lib

/-!
# Runs of a labelled system

A system is given by what one step may do: `R s i s'` when it goes from `s` to `s'` on the
input `i`.  Inputs stand for everything that is not decided by the state: which call is made,
which thread moves, whether the environment lets an operation succeed.

* `ofFun`, `ofOption` — a total and a guarded step function as a system.
* `Restrict` — the steps that meet a condition on the state and the input; `Into` — those that lead
  to a state with a property.
* `Run` — finitely many steps; `Run.invariant` is the induction over them, and `run_of_foldlM`
  and `run_restrict_of_foldlM` compute one.
* `Along` — what holds of every step of the one run a step function has.
-/

variable {σ ι : Type*}

/-- The steps of a total step function. -/
def ofFun (step : σ → ι → σ) (s : σ) (i : ι) (s' : σ) : Prop := step s i = s'

/-- The steps of a step function that is enabled where it is `some`. -/
def ofOption (step : σ → ι → Option σ) (s : σ) (i : ι) (s' : σ) : Prop := step s i = some s'

/-- The steps of `R` whose state and input meet `guard`. -/
def Restrict (guard : σ → ι → Prop) (R : σ → ι → σ → Prop) (s : σ) (i : ι) (s' : σ) : Prop :=
  guard s i ∧ R s i s'

/-- The steps of `R` that lead to a state with `P`. -/
def Into (P : σ → Prop) (R : σ → ι → σ → Prop) (s : σ) (i : ι) (s' : σ) : Prop :=
  P s' ∧ R s i s'

/-- `Run R s is s'`: the inputs `is` take the system from `s` to `s'`. -/
inductive Run (R : σ → ι → σ → Prop) : σ → List ι → σ → Prop
  | nil (s : σ) : Run R s [] s
  | cons {s s' s'' : σ} {i : ι} {is : List ι} : R s i s' → Run R s' is s'' → Run R s (i :: is) s''

variable {s s' : σ} {is : List ι}

/-- **Invariant rule.** What holds at the start and is kept by every step holds at the end. -/
theorem Run.invariant {R : σ → ι → σ → Prop} (Inv : σ → Prop) (h : Run R s is s') (hinit : Inv s)
    (hstep : ∀ {s i s'}, Inv s → R s i s' → Inv s') : Inv s' := by
  induction h with
  | nil => exact hinit
  | cons hi _ ih => exact ih (hstep hinit hi)

/-- If from a state with `P` the steps into such a state are those that meet a condition, the runs
    through such states are the runs whose steps all meet it. -/
theorem run_into_iff_restrict {R : σ → ι → σ → Prop} {P : σ → Prop} {guard : σ → ι → Prop}
    (hstep : ∀ {s i s'}, P s → R s i s' → (P s' ↔ guard s i)) (hs : P s) (is : List ι) :
    Run (Into P R) s is s' ↔ Run (Restrict guard R) s is s' := by
  constructor
  · intro h
    induction h with
    | nil => exact .nil _
    | cons hi _ ih => exact .cons ⟨(hstep hs hi.2).mp hi.1, hi.2⟩ (ih hi.1)
  · intro h
    induction h with
    | nil => exact .nil _
    | cons hi _ ih =>
      have hnext := (hstep hs hi.2).mpr hi.1
      exact .cons ⟨hnext, hi.2⟩ (ih hnext)

/-- `P` holds of every state and input along the run of a total step function. -/
def Along (step : σ → ι → σ) (P : σ → ι → Prop) : σ → List ι → Prop
  | _, [] => True
  | s, i :: is => P s i ∧ Along step P (step s i) is

variable {P Q : σ → ι → Prop} {step : σ → ι → σ}

/-- What holds of every state and input at the same time holds along the same runs. -/
theorem along_congr (h : ∀ s i, P s i ↔ Q s i) (s : σ) (is : List ι) :
    Along step P s is ↔ Along step Q s is := by
  induction is generalizing s with
  | nil => exact Iff.rfl
  | cons i is ih => exact and_congr (h s i) (ih (step s i))

/-- **Invariant rule.** What every step shows from an invariant that it keeps holds along a run. -/
theorem Along.imp_of_invariant (Inv : σ → Prop)
    (hstep : ∀ {s i}, Inv s → P s i → Q s i ∧ Inv (step s i)) (hinit : Inv s)
    (h : Along step P s is) : Along step Q s is := by
  induction is generalizing s with
  | nil => exact h
  | cons i is ih =>
    obtain ⟨hq, hinv⟩ := hstep hinit h.1
    exact ⟨hq, ih hinv h.2⟩

/-- What is the same of every step from an invariant, which one of the two keeps, holds along the
    same runs. -/
theorem along_congr_of_invariant (Inv : σ → Prop) (hiff : ∀ {s i}, Inv s → (P s i ↔ Q s i))
    (hkeep : ∀ {s i}, Inv s → Q s i → Inv (step s i)) (hinit : Inv s) (is : List ι) :
    Along step P s is ↔ Along step Q s is := by
  induction is generalizing s with
  | nil => exact Iff.rfl
  | cons i is ih =>
    constructor
    · intro h
      have hq := (hiff hinit).mp h.1
      exact ⟨hq, (ih (hkeep hinit hq)).mp h.2⟩
    · intro h
      exact ⟨(hiff hinit).mpr h.1, (ih (hkeep hinit h.1)).mpr h.2⟩

/-- A guarded step function that gets through a list of inputs has a run over it. -/
theorem run_of_foldlM (step : σ → ι → Option σ) (h : is.foldlM step s = some s') :
    Run (ofOption step) s is s' := by
  induction is generalizing s with
  | nil =>
    cases h
    exact .nil _
  | cons i is ih =>
    rw [List.foldlM_cons] at h
    cases hi : step s i with
    | none =>
      rw [hi] at h
      cases h
    | some t =>
      rw [hi] at h
      exact .cons hi (ih h)

/-- The same for the steps that meet a condition. -/
theorem run_restrict_of_foldlM (guard : σ → ι → Prop) [∀ s i, Decidable (guard s i)]
    (step : σ → ι → Option σ)
    (h : is.foldlM (fun s i => if guard s i then step s i else none) s = some s') :
    Run (Restrict guard (ofOption step)) s is s' := by
  have hrun := run_of_foldlM _ h
  clear h
  induction hrun with
  | nil => exact .nil _
  | @cons s t _ i _ hi _ ih =>
    rw [ofOption] at hi
    split at hi
    · next hguard => exact .cons ⟨hguard, hi⟩ ih
    · cases hi

end MyLite.Lib
