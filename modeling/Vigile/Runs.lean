import Mathlib.Data.List.Basic

/-! Runs of a deterministic step: what holds of every step taken, and of every state reached. -/
namespace Runs

variable {σ α : Type} (step : σ → α → σ)

def last (s : σ) (actions : List α) : σ := actions.foldl step s

/-- Of every step of a run, with the state it begins in. -/
def Along (holds : σ → α → Prop) : σ → List α → Prop
  | _,[] => True
  | s,action :: rest => holds s action ∧ Along holds (step s action) rest

/-- Of every state of a run. -/
def Throughout (holds : σ → Prop) : σ → List α → Prop
  | s,[] => holds s
  | s,action :: rest => holds s ∧ Throughout holds (step s action) rest

variable {step} {allowed : σ → α → Prop} {invariant holds : σ → Prop}

variable {actions : List α} {s : σ} {always : σ → Prop}

theorem Throughout.start (throughout : Throughout step holds s actions) : holds s := by
  cases actions with
  | nil => exact throughout
  | cons => exact throughout.1

/-- What every allowed step keeps holds throughout a run of allowed steps. -/
theorem throughout_of_along (keeps : ∀ s action, invariant s → allowed s action → invariant (step s action))
    (actions : List α) (starts : invariant s) (along : Along step allowed s actions) : Throughout step invariant s actions := by
  induction actions generalizing s with
  | nil => exact starts
  | cons action rest later => exact ⟨starts,later (keeps s action starts along.1) along.2⟩

/-- What follows from an invariant for an allowed step holds of every step of a run of allowed steps. -/
theorem along_of_along {followed : σ → α → Prop} (keeps : ∀ s action, invariant s → allowed s action → invariant (step s action))
    (follows : ∀ s action, invariant s → allowed s action → followed s action) (actions : List α)
    (starts : invariant s) (along : Along step allowed s actions) : Along step followed s actions := by
  induction actions generalizing s with
  | nil => trivial
  | cons action rest later =>
    exact ⟨follows s action starts along.1,later (keeps s action starts along.1) along.2⟩

theorem Throughout.imp (weaker : ∀ s, invariant s → holds s)
    (throughout : Throughout step invariant s actions) : Throughout step holds s actions := by
  induction actions generalizing s with
  | nil => exact weaker s throughout
  | cons action rest later => exact ⟨weaker s throughout.1,later throughout.2⟩

theorem Throughout.last (throughout : Throughout step holds s actions) :
    holds (last step s actions) := by
  induction actions generalizing s with
  | nil => exact throughout
  | cons action rest later => exact later throughout.2

/-- What every step keeps exactly if it is allowed holds throughout exactly the runs of allowed steps. -/
theorem throughout_iff_along (kept : ∀ s action, always s → always (step s action))
    (exact_ : ∀ s action, always s → holds s → (holds (step s action) ↔ allowed s action)) (actions : List α)
    (starts : always s) (first : holds s) : Throughout step holds s actions ↔ Along step allowed s actions := by
  induction actions generalizing s with
  | nil => exact iff_of_true first trivial
  | cons action rest later =>
    have here := exact_ s action starts first
    constructor
    · rintro ⟨-,throughout⟩
      exact ⟨here.mp throughout.start,(later (kept s action starts) throughout.start).mp throughout⟩
    · rintro ⟨met,along⟩
      exact ⟨first,(later (kept s action starts) (here.mpr met)).mpr along⟩

/-- Properties of steps that agree where an invariant holds agree along every run. -/
theorem along_congr {first second : σ → α → Prop} (kept : ∀ s action, always s → always (step s action))
    (agree : ∀ s action, always s → (first s action ↔ second s action)) (actions : List α) (starts : always s) :
    Along step first s actions ↔ Along step second s actions := by
  induction actions generalizing s with
  | nil => exact Iff.rfl
  | cons action rest later => exact and_congr (agree s action starts) (later (kept s action starts))

end Runs
