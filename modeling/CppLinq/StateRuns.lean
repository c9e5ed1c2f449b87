import Mathlib.Data.List.Basic
import Mathlib.Logic.Basic

/-!
# Runs of a step function

A state machine given by a function `step`, and what holds throughout its runs : a property
of all states that a run passes (`Throughout`), and a condition on each of its steps in the
state before it (`AllSteps`). When a step keeps the property just when it meets the
condition, so does a run (`throughout_iff`).
-/

namespace CppLinq

variable {σ α : Type*} (step : σ → α → σ)

/-- The property holds of the first state of a run, and of the state after each step. -/
def Throughout (P : σ → Prop) (s : σ) : List α → Prop
  | [] => P s
  | a :: as => P s ∧ Throughout P (step s a) as

/-- Each step of a run meets a condition in the state before it. -/
def AllSteps (C : σ → α → Prop) (s : σ) : List α → Prop
  | [] => True
  | a :: as => C s a ∧ AllSteps C (step s a) as

variable {step}

theorem Throughout.start {P : σ → Prop} {s : σ} {as : List α} (h : Throughout step P s as) :
    P s := by
  cases as with
  | nil => exact h
  | cons a as => exact h.1

/-- When a step from an invariant keeps a property just when it meets a condition, the
property holds throughout a run just when all its steps meet the condition. -/
theorem throughout_iff {I P : σ → Prop} {C : σ → α → Prop}
    (hinv : ∀ {s}, I s → P s → ∀ a, I (step s a))
    (hstep : ∀ {s}, I s → P s → ∀ a, (P (step s a) ↔ C s a)) (as : List α) :
    ∀ {s : σ}, I s → P s → (Throughout step P s as ↔ AllSteps step C s as) := by
  induction as with
  | nil => intro s _ hs; exact iff_of_true hs trivial
  | cons a as ih =>
    intro s hI hs
    rw [Throughout, AllSteps, ← hstep hI hs a]
    constructor
    · rintro ⟨-, h⟩
      exact ⟨h.start, (ih (hinv hI hs a) h.start).mp h⟩
    · rintro ⟨ha, h⟩
      exact ⟨hs, (ih (hinv hI hs a) ha).mpr h⟩

end CppLinq
