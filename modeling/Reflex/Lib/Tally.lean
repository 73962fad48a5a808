import Mathlib.Algebra.BigOperators.Group.Finset.Basic
import Mathlib.Algebra.Order.BigOperators.Group.Finset
import Mathlib.Tactic.Abel

/-!
# Totals over a table

A table is a function from keys to entries of which finitely many keys count.
-/

namespace Reflex.Lib

open Finset

variable {κ M : Type*} [DecidableEq κ] [AddCommMonoid M] {s : Finset κ} {f g : κ → M} {k : κ}

/-- Rewriting entry `k` trades its old share for the new one. -/
theorem sum_replace (mem : k ∈ s) (others : ∀ i ∈ s, i ≠ k → g i = f i) :
    ∑ i ∈ s, g i + f k = ∑ i ∈ s, f i + g k := by
  rw [← add_sum_erase s g mem, ← add_sum_erase s f mem,
    sum_congr rfl fun i hi => others i (mem_of_mem_erase hi) (ne_of_mem_erase hi)]
  abel

/-- Entries that each stay below a bound total to at most the number of keys times it. -/
theorem sum_range_le_mul {n b : ℕ} {f : ℕ → ℕ} (each : ∀ i < n, f i ≤ b) : ∑ i ∈ range n, f i ≤ n * b := by
  have := sum_le_card_nsmul (range n) f b fun i hi => each i (mem_range.1 hi)
  simpa using this

end Reflex.Lib
