import Mathlib.Data.Nat.Count
import Mathlib.Dynamics.PeriodicPts.Defs

/-!
# Search along an orbit

A loop that replaces `x` by `f x` until `p` holds of it, bounded by a fuel. The search
fails exactly when `p` fails on as many iterates as there is fuel; on a periodic orbit a
search of one period that fails shows that the unbounded loop never ends.
-/

namespace Reflex.Lib

variable {α : Type*} {f : α → α} {p : α → Bool}

/-- The first of `f x, f (f x), ..` that satisfies `p`, looking `fuel` steps ahead. -/
def orbitFind (f : α → α) (p : α → Bool) : Nat → α → Option α
  | 0, _ => none
  | fuel + 1, x => if p (f x) then some (f x) else orbitFind f p fuel (f x)

theorem orbitFind_eq_none_iff {fuel x} :
    orbitFind f p fuel x = none ↔ ∀ k < fuel, p (f^[k + 1] x) = false := by
  induction fuel generalizing x with
  | zero => simp [orbitFind]
  | succ fuel ih =>
    rw [orbitFind]
    cases here : p (f x) with
    | true =>
      simp only [if_true, reduceCtorEq, false_iff]
      intro none
      have first := none 0 (Nat.succ_pos fuel)
      rw [Function.iterate_one, here] at first
      cases first
    | false =>
      simp only [Bool.false_eq_true, if_false, ih]
      constructor
      · intro later k bound
        cases k with
        | zero => exact here
        | succ k => exact later k (by omega)
      · intro all k bound
        exact all (k + 1) (by omega)

/-- What is found is the first that satisfies `p`. -/
theorem orbitFind_some {fuel x y} (found : orbitFind f p fuel x = some y) :
    p y = true ∧ ∃ k < fuel, y = f^[k + 1] x ∧ ∀ j < k, p (f^[j + 1] x) = false := by
  induction fuel generalizing x with
  | zero => cases found
  | succ fuel ih =>
    rw [orbitFind] at found
    split at found
    · rename_i here
      cases found
      exact ⟨here, 0, Nat.succ_pos fuel, rfl, fun j none => absurd none (Nat.not_lt_zero j)⟩
    · rename_i missed
      obtain ⟨here, k, bound, rfl, before⟩ := ih found
      refine ⟨here, k + 1, by omega, rfl, fun j earlier => ?_⟩
      cases j with
      | zero => simpa using missed
      | succ j => exact before j (by omega)

/-- One period without a find: no amount of fuel helps. -/
theorem orbitFind_of_period {n x} (pos : 0 < n) (period : f^[n] (f x) = f x)
    (missed : orbitFind f p n x = none) (fuel : Nat) : orbitFind f p fuel x = none := by
  rw [orbitFind_eq_none_iff] at missed ⊢
  intro k _
  have periodic : Function.IsPeriodicPt f n (f x) := period
  have here := missed (k % n) (Nat.mod_lt k pos)
  rwa [Function.iterate_succ_apply, periodic.iterate_mod_apply, ← Function.iterate_succ_apply] at here

/-- From one position to the next around a circle of `n`, the rank among the positions steps by one. -/
theorem count_next_around {p} [DecidablePred p] {n x k} (inside : x < n) (turn : k < n) (here : p x)
    (there : p ((x + (k + 1)) % n)) (between : ∀ j < k, ¬ p ((x + (j + 1)) % n)) :
    Nat.count p ((x + (k + 1)) % n) = (Nat.count p x + 1) % Nat.count p n := by
  have skip : ∀ a b, a ≤ b → (∀ i, a ≤ i → i < b → ¬ p i) → Nat.count p b = Nat.count p a := by
    intro a b le none
    obtain ⟨c, rfl⟩ := Nat.exists_eq_add_of_le le
    rw [Nat.count_add, Nat.count_of_forall_not fun i below => none (a + i) (by omega) (by omega), Nat.add_zero]
  have after : Nat.count p (x + 1) = Nat.count p x + 1 := by rw [Nat.count_succ, if_pos here]
  rcases Nat.lt_or_ge (x + (k + 1)) n with ahead | around
  · rw [Nat.mod_eq_of_lt ahead] at there ⊢
    have rank : Nat.count p (x + (k + 1)) = Nat.count p (x + 1) := by
      apply skip _ _ (by omega)
      intro i low high
      have missed := between (i - x - 1) (by omega)
      rwa [show x + (i - x - 1 + 1) = i by omega, Nat.mod_eq_of_lt (by omega)] at missed
    have below := Nat.count_strict_mono there ahead
    rw [Nat.mod_eq_of_lt (by omega)]
    omega
  · have place : (x + (k + 1)) % n = x + (k + 1) - n := by rw [Nat.mod_eq_sub_mod around, Nat.mod_eq_of_lt (by omega)]
    have last : Nat.count p n = Nat.count p (x + 1) := by
      apply skip _ _ inside
      intro i low high
      have missed := between (i - x - 1) (by omega)
      rwa [show x + (i - x - 1 + 1) = i by omega, Nat.mod_eq_of_lt high] at missed
    have first : Nat.count p (x + (k + 1) - n) = Nat.count p 0 := by
      apply skip _ _ (Nat.zero_le _)
      intro i _ high
      have missed := between (n - x - 1 + i) (by omega)
      rwa [show x + (n - x - 1 + i + 1) = i + n by omega, Nat.add_mod_right, Nat.mod_eq_of_lt (by omega)] at missed
    rw [place, first, Nat.count_zero, last, after, Nat.mod_self]

end Reflex.Lib
