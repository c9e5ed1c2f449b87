import Mathlib.Data.List.Perm.Basic
import Mathlib.Algebra.BigOperators.Group.List.Basic
import Mathlib.Algebra.Order.BigOperators.Group.List
import Mathlib.Algebra.GroupWithZero.Nat

/-!
# Interleavings

Runs of a system that takes labelled steps, in any order, and the rules that carry a fact
about one step to a run : invariants (`Run.invariant`), simulations (`Run.simulate`) and
measures, which bound a run (`Run.length_add_le`) and lead it to a goal (`Run.reach`). A
condition on steps is a relation of its own (`Meeting`), so a run whose steps all meet it is a
run of that relation.

A state is made of components, and a step changes one of them : `cons_set_perm` and its
images say what that does to sums and lists over all components.
-/

namespace CppLinq

/-! ## Runs -/

section Runs

variable {σ τ α β : Type*} {step : σ → α → σ → Prop} {step' : τ → β → τ → Prop}

/-- The steps of a run, one after another. -/
inductive Run (step : σ → α → σ → Prop) : σ → List α → σ → Prop
  | nil {s : σ} : Run step s [] s
  | cons {s t u : σ} {a : α} {as : List α} (h : step s a t) (hrun : Run step t as u) :
    Run step s (a :: as) u

/-- The steps that meet a condition on the state before them and their label. -/
def Meeting (C : σ → α → Prop) (step : σ → α → σ → Prop) (s : σ) (a : α) (t : σ) : Prop :=
  C s a ∧ step s a t

theorem Run.append {s t u : σ} {as bs : List α} (h : Run step s as t) (h' : Run step t bs u) :
    Run step s (as ++ bs) u := by
  induction h with
  | nil => exact h'
  | cons ha _ ih => exact .cons ha (ih h')

/-- What every step keeps, a run keeps. -/
theorem Run.invariant {P : σ → Prop} (hstep : ∀ {s a t}, P s → step s a t → P t) {s t : σ}
    {as : List α} (h : Run step s as t) (hs : P s) : P t := by
  induction h with
  | nil => exact hs
  | cons ha _ ih => exact ih (hstep hs ha)

/-- Steps that are answered by runs. -/
theorem Run.simulate {f : σ → τ} (hstep : ∀ {s a t}, step s a t → ∃ bs, Run step' (f s) bs (f t))
    {s t : σ} {as : List α} (h : Run step s as t) : ∃ bs, Run step' (f s) bs (f t) := by
  induction h with
  | nil => exact ⟨[], .nil⟩
  | cons ha _ ih =>
    obtain ⟨bs, hbs⟩ := hstep ha
    obtain ⟨cs, hcs⟩ := ih
    exact ⟨bs ++ cs, hbs.append hcs⟩

/-- A run whose steps meet a condition is a run. -/
theorem Run.of_meeting {C : σ → α → Prop} {s t : σ} {as : List α}
    (h : Run (Meeting C step) s as t) : Run step s as t := by
  induction h with
  | nil => exact .nil
  | cons ha _ ih => exact .cons ha.2 ih

/-- Where every step lowers a measure, the measure bounds the length of a run. -/
theorem Run.length_add_le {P : σ → Prop} {μ : σ → ℕ}
    (hstep : ∀ {s a t}, P s → step s a t → P t ∧ μ t < μ s) {s t : σ} {as : List α}
    (h : Run step s as t) (hs : P s) : as.length + μ t ≤ μ s := by
  induction h with
  | nil => simp
  | cons ha _ ih =>
    obtain ⟨ht, hlt⟩ := hstep hs ha
    have hle := ih ht
    rw [List.length_cons]
    omega

/-- Where a step that lowers a measure is left until a goal is reached, a run reaches it. -/
theorem Run.reach {P Q : σ → Prop} {μ : σ → ℕ}
    (hstep : ∀ {s}, P s → Q s ∨ ∃ a t, step s a t ∧ P t ∧ μ t < μ s) {s : σ} (hs : P s) :
    ∃ as t, Run step s as t ∧ Q t := by
  induction hn : μ s using Nat.strong_induction_on generalizing s with
  | _ n ih =>
    rcases hstep hs with hq | ⟨a, t, ha, ht, hlt⟩
    · exact ⟨[], s, .nil, hq⟩
    · obtain ⟨as, u, hrun, hu⟩ := ih (μ t) (hn ▸ hlt) ht rfl
      exact ⟨a :: as, u, .cons ha hrun, hu⟩

end Runs

/-! ## Components -/

section Components

variable {ι β : Type*} {l : List ι} {i : ℕ} {x y : ι}

/-- Replacing a component exchanges the old one for the new one. -/
theorem cons_set_perm (h : l[i]? = some x) (y : ι) : (x :: l.set i y).Perm (y :: l) := by
  obtain ⟨hi, rfl⟩ := List.getElem?_eq_some_iff.mp h
  have hset := (List.set_perm_cons_eraseIdx hi y).cons l[i]
  exact hset.trans ((List.Perm.swap _ _ _).trans ((List.getElem_cons_eraseIdx_perm hi).cons y))

theorem sum_map_set (h : l[i]? = some x) (f : ι → ℕ) (y : ι) :
    f x + ((l.set i y).map f).sum = f y + (l.map f).sum := by
  have hperm := ((cons_set_perm h y).map f).sum_eq
  rwa [List.map_cons, List.map_cons, List.sum_cons, List.sum_cons] at hperm

theorem flatMap_set_perm (h : l[i]? = some x) (f : ι → List β) (y : ι) :
    (f x ++ (l.set i y).flatMap f).Perm (f y ++ l.flatMap f) := by
  have hperm := (cons_set_perm h y).flatMap_right f
  rwa [List.flatMap_cons, List.flatMap_cons] at hperm

theorem forall_mem_set {P : ι → Prop} (h : ∀ z ∈ l, P z) (hy : P y) : ∀ z ∈ l.set i y, P z := by
  intro z hz
  rcases List.mem_or_eq_of_mem_set hz with hz | rfl
  · exact h z hz
  · exact hy

end Components

end CppLinq
