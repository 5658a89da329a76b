import Mathlib.Logic.Basic

/-!
# Runs of a labelled step function

A system takes a step per label, and a step that is not enabled is `none`. A run is a
list of labels; it may be restricted to labels that are allowed in the state they are
taken in.
-/

namespace Rimsky

section Run

variable {σ α : Type} (step : σ → α → Option σ) (allowed : σ → α → Prop)

/-- `t` is reached from `s` by steps that are all allowed. -/
inductive Reaches : σ → σ → Prop where
  | refl (s : σ) : Reaches s s
  | tail {s t u : σ} (a : α) (run : Reaches s t) (may : allowed t a) (taken : step t a = some u) :
      Reaches s u

variable {step allowed} {s : σ} {t : σ}

theorem Reaches.invariant {I : σ → Prop} (keeps : ∀ s a t, I s → allowed s a →
    step s a = some t → I t) (run : Reaches step allowed s t) (start : I s) : I t := by
  induction run with
  | refl => exact start
  | tail a run may taken ih => exact keeps _ a _ ih may taken

/-- A list of labels taken one after the other, as long as they are allowed and enabled. -/
def runAll (step : σ → α → Option σ) (allowed : σ → α → Prop) [∀ s a, Decidable (allowed s a)] :
    List α → σ → Option σ
  | [], s => some s
  | a :: as, s => if allowed s a then (step s a).bind (runAll step allowed as) else none

theorem Reaches.trans {u : σ} (first : Reaches step allowed s t)
    (second : Reaches step allowed t u) :
    Reaches step allowed s u := by
  induction second with
  | refl => exact first
  | tail a _ may taken ih => exact .tail a ih may taken

theorem Reaches.mono {allowed' : σ → α → Prop} (weaker : ∀ s a, allowed s a → allowed' s a)
    (run : Reaches step allowed s t) : Reaches step allowed' s t := by
  induction run with
  | refl => exact .refl _
  | tail a _ may taken ih => exact .tail a ih (weaker _ a may) taken

theorem reaches_of_runAll [∀ s a, Decidable (allowed s a)] {as : List α}
    (run : runAll step allowed as s = some t) : Reaches step allowed s t := by
  induction as generalizing s with
  | nil =>
    cases run
    exact .refl _
  | cons a as ih =>
    rw [runAll] at run
    split at run
    case isTrue may =>
      rcases Option.bind_eq_some_iff.mp run with ⟨mid, taken, rest⟩
      exact (Reaches.tail a (.refl s) may taken).trans (ih rest)
    case isFalse => simp at run

theorem exists_reaches_of_runAll [∀ s a, Decidable (allowed s a)] {as : List α} {p : σ → Bool}
    (run : (runAll step allowed as s).any p) : ∃ t, Reaches step allowed s t ∧ p t := by
  cases reached : runAll step allowed as s with
  | none =>
    rw [reached] at run
    cases run
  | some t =>
    rw [reached] at run
    exact ⟨t, reaches_of_runAll reached, run⟩

end Run

end Rimsky
