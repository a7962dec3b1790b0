import Mathlib.Logic.Function.Basic
import Mathlib.Data.List.Basic

namespace MyLite.Lib

/-!
# Clients that share one resource

Several clients, each with a state of its own, work on one resource.  An operation of a client
reads and changes the client's state and the resource, and returns something.  What a client
gets back can depend on the others only through the resource.

* `Sharing.Lawful` — the law of a resource that is used in turns: on an idle resource an
  operation cannot tell what happened to it before.
* `Sharing.Orderly` — nobody uses a broken resource, or one that is held for somebody else.
* `Sharing.outputs_eq_solo` — in an orderly run every client gets back what it gets back alone.
-/

/-- Clients `κ` with states `S`, a resource `R`, operations `I` and what they return, `O`. -/
structure Sharing (κ R S I O : Type*) where
  op : κ → R → S → I → O × R × S
  /-- Nothing of an earlier operation is left in the resource. -/
  idle : R → Prop
  /-- The operation looks at the resource. -/
  uses : κ → S → I → Prop
  /-- The operation is defined on the resource. -/
  intact : κ → R → S → I → Prop

namespace Sharing

variable {κ R S I O : Type*}

/-- The law of a resource that is used in turns. -/
structure Lawful (sh : Sharing κ R S I O) : Prop where
  /-- On idle resources an operation returns the same, and it leaves the resource alone, or all
      trace of the past is gone from it. -/
  idle_op : ∀ k s i,
    (∃ o s', ∀ r, sh.idle r → sh.op k r s i = (o, r, s')) ∨
    (∃ o r' s', ∀ r, sh.idle r → sh.op k r s i = (o, r', s'))
  /-- An operation that does not use the resource is the same on every resource. -/
  not_uses : ∀ k s i, ¬sh.uses k s i → ∃ o s', ∀ r, sh.op k r s i = (o, r, s')

/-- The resource, all clients, and the client that used the resource last. -/
structure State (κ R S : Type*) where
  resource : R
  client : κ → S
  holder : Option κ

variable [DecidableEq κ] (sh : Sharing κ R S I O)

variable [∀ k s i, Decidable (sh.uses k s i)]

/-- One operation of one client. -/
def next (st : State κ R S) (k : κ) (i : I) : State κ R S :=
  let (_, r, s) := sh.op k st.resource (st.client k) i
  ⟨r, Function.update st.client k s, if sh.uses k (st.client k) i then some k else st.holder⟩

/-- What the client `k` gets back in a run. -/
def outputs (k : κ) : State κ R S → List (κ × I) → List O
  | _, [] => []
  | st, (j, i) :: calls =>
    if j = k then (sh.op j st.resource (st.client j) i).1 :: outputs k (sh.next st j i) calls
    else outputs k (sh.next st j i) calls

/-- What the client `k` gets back when it has the resource for itself. -/
def solo (k : κ) : R → S → List I → List O
  | _, _, [] => []
  | r, s, i :: is =>
    let (o, r, s) := sh.op k r s i
    o :: solo k r s is

/-- The operations of one client. -/
def callsOf (k : κ) (calls : List (κ × I)) : List I :=
  calls.filterMap fun c => if c.1 = k then some c.2 else none

/-- Every operation is defined, and a client uses the resource only while it is idle or its
    own. -/
def Orderly : State κ R S → List (κ × I) → Prop
  | _, [] => True
  | st, (j, i) :: calls =>
    sh.intact j st.resource (st.client j) i ∧
      (sh.uses j (st.client j) i → sh.idle st.resource ∨ st.holder = some j) ∧
      Orderly (sh.next st j i) calls

variable {sh}

/-- The client `k` in the crowd and alone: the same state, and resources that `k` cannot tell apart
    if it was the last to use the one in the crowd; otherwise its own resource is idle. -/
structure Alike (sh : Sharing κ R S I O) (k : κ) (st : State κ R S) (r : R) (s : S) : Prop where
  client : st.client k = s
  held : st.holder = some k → st.resource = r ∨ sh.idle st.resource ∧ sh.idle r
  other : st.holder ≠ some k → sh.idle r

variable {st : State κ R S} {k j : κ} {r : R} {s : S} {i : I}

omit [DecidableEq κ] [∀ k s i, Decidable (sh.uses k s i)] in
/-- An operation that uses one of two resources its client cannot tell apart. -/
theorem Lawful.op_alike (hl : sh.Lawful) {r' : R} (h : r' = r ∨ sh.idle r' ∧ sh.idle r) :
    (sh.op k r' s i).1 = (sh.op k r s i).1 ∧ (sh.op k r' s i).2.2 = (sh.op k r s i).2.2 ∧
      ((sh.op k r' s i).2.1 = (sh.op k r s i).2.1 ∨
        sh.idle (sh.op k r' s i).2.1 ∧ sh.idle (sh.op k r s i).2.1) := by
  rcases h with rfl | ⟨hidle', hidle⟩
  · exact ⟨rfl, rfl, .inl rfl⟩
  · rcases hl.idle_op k s i with ⟨o, s', hop⟩ | ⟨o, r', s', hop⟩
    · rw [hop _ hidle', hop _ hidle]
      exact ⟨rfl, rfl, .inr ⟨hidle', hidle⟩⟩
    · rw [hop _ hidle', hop _ hidle]
      exact ⟨rfl, rfl, .inl rfl⟩

/-- **Own step.** An orderly operation of `k` returns the same in the crowd and alone. -/
theorem alike_own (hl : sh.Lawful) (ha : Alike sh k st r s)
    (ho : sh.uses k (st.client k) i → sh.idle st.resource ∨ st.holder = some k) :
    (sh.op k st.resource (st.client k) i).1 = (sh.op k r s i).1 ∧
      Alike sh k (sh.next st k i) (sh.op k r s i).2.1 (sh.op k r s i).2.2 := by
  obtain ⟨rfl, hheld, hother⟩ := ha
  by_cases hu : sh.uses k (st.client k) i
  · have hboth : st.resource = r ∨ sh.idle st.resource ∧ sh.idle r := by
      by_cases hk : st.holder = some k
      · exact hheld hk
      · exact .inr ⟨(ho hu).resolve_right hk, hother hk⟩
    obtain ⟨hout, hclient, hresource⟩ := hl.op_alike (k := k) (s := st.client k) (i := i) hboth
    exact ⟨hout, (Function.update_self ..).trans hclient, fun _ => hresource,
      fun hn => absurd (if_pos hu) hn⟩
  · obtain ⟨o, s', hop⟩ := hl.not_uses k (st.client k) i hu
    rw [next, if_neg hu, hop, hop]
    exact ⟨rfl, Function.update_self .., hheld, hother⟩

/-- **Foreign step.** An orderly operation of another client goes unnoticed. -/
theorem alike_other (hl : sh.Lawful) (ha : Alike sh k st r s) (hj : j ≠ k)
    (ho : sh.uses j (st.client j) i → sh.idle st.resource ∨ st.holder = some j) :
    Alike sh k (sh.next st j i) r s := by
  obtain ⟨rfl, hheld, hother⟩ := ha
  have hclient : (sh.next st j i).client k = st.client k :=
    Function.update_of_ne (Ne.symm hj) _ _
  by_cases hu : sh.uses j (st.client j) i
  · have hholder : (sh.next st j i).holder = some j := if_pos hu
    refine ⟨hclient, fun hk => absurd (Option.some.inj (hholder.symm.trans hk)) hj, fun _ => ?_⟩
    -- The resource is taken over from `k` while it is idle, or `k` has given it up before.
    by_cases hk : st.holder = some k
    · have hidle := (ho hu).resolve_right fun h => hj (Option.some.inj (h.symm.trans hk))
      rcases hheld hk with heq | hboth
      · exact heq ▸ hidle
      · exact hboth.2
    · exact hother hk
  · obtain ⟨o, s', hop⟩ := hl.not_uses j (st.client j) i hu
    have hresource : (sh.next st j i).resource = st.resource := by rw [next, hop]
    have hholder : (sh.next st j i).holder = st.holder := if_neg hu
    exact ⟨hclient, by rwa [hresource, hholder], by rwa [hholder]⟩

/-- **Isolation.** In an orderly run every client gets back what it gets back alone. -/
theorem outputs_eq_solo (hl : sh.Lawful) (k : κ) (calls : List (κ × I))
    (hidle : sh.idle st.resource) (ho : sh.Orderly st calls) :
    sh.outputs k st calls = sh.solo k st.resource (st.client k) (callsOf k calls) := by
  have key : ∀ (calls : List (κ × I)) (st : State κ R S) (r : R) (s : S), Alike sh k st r s →
      sh.Orderly st calls → sh.outputs k st calls = sh.solo k r s (callsOf k calls) := by
    intro calls
    induction calls with
    | nil => intro st r s _ _; rfl
    | cons c calls ih =>
      obtain ⟨j, i⟩ := c
      intro st r s ha ⟨_, hc, ho⟩
      by_cases hj : j = k
      · subst hj
        obtain ⟨hout, hnext⟩ := alike_own hl ha hc
        rw [outputs, if_pos rfl, hout, ih _ _ _ hnext ho]
        simp [callsOf, solo]
      · rw [outputs, if_neg hj, ih _ _ _ (alike_other hl ha hj hc) ho]
        simp [callsOf, hj]
  exact key calls st _ _ ⟨rfl, fun _ => .inl rfl, fun _ => hidle⟩ ho

end Sharing

end MyLite.Lib
