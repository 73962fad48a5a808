import Mathlib.Logic.Function.Basic
import Mathlib.Logic.Relation

/-!
# First-in first-out channels

A family of channels that accept items and serve the oldest one they hold. Whatever the
steps are, what a channel has served, followed by what it holds, is what it has accepted:
nothing is lost, repeated or overtaken. A system has this property as soon as its steps
are chains of channel steps.
-/

namespace Reflex.Lib

/-- What each channel has accepted and served so far, and what it holds, oldest first. -/
structure Channels (κ α : Type*) where
  accepted : κ → List α
  served : κ → List α
  waiting : κ → List α

namespace Channels

variable {κ α : Type*} [DecidableEq κ]

inductive Step : Channels κ α → Channels κ α → Prop where
  | accept {c : Channels κ α} (k : κ) (x : α) : Step c
      { c with
        accepted := Function.update c.accepted k (c.accepted k ++ [x])
        waiting := Function.update c.waiting k (c.waiting k ++ [x]) }
  | serve {c : Channels κ α} {k : κ} {x : α} {rest : List α} (oldest : c.waiting k = x :: rest) : Step c
      { c with
        served := Function.update c.served k (c.served k ++ [x])
        waiting := Function.update c.waiting k rest }

abbrev Steps : Channels κ α → Channels κ α → Prop := Relation.ReflTransGen Step

def Faithful (c : Channels κ α) : Prop := ∀ k, c.served k ++ c.waiting k = c.accepted k

variable {c d : Channels κ α}

theorem Step.faithful (step : Step c d) (before : c.Faithful) : d.Faithful := by
  intro j
  have here := before j
  cases step with
  | accept k x =>
    rcases eq_or_ne j k with rfl | same
    · simp only [Function.update_self, ← List.append_assoc, here]
    · simp only [Function.update_of_ne same, here]
  | @serve k x rest oldest =>
    rcases eq_or_ne j k with rfl | same
    · rw [oldest] at here
      simp only [Function.update_self, List.append_assoc, List.singleton_append, here]
    · simp only [Function.update_of_ne same, here]

theorem Steps.faithful (steps : Steps c d) (before : c.Faithful) : d.Faithful := by
  induction steps with
  | refl => exact before
  | tail _ step ih => exact step.faithful ih

end Channels

end Reflex.Lib
