import Mathlib.Algebra.Order.BigOperators.Group.List
import Mathlib.Tactic.Ring
import Mathlib.Tactic.Linarith

/-!
# Queues served on credit

A queue whose requests cost credit. `serve` takes the oldest request as long as a condition on it and on the
credit holds: that the credit pays for it, or that a deficit is still tolerable.
-/

namespace Reflex.Lib

open List

/-- The requests that wait, oldest first, and the credit. -/
@[ext] structure CreditQueue (α : Type*) where
  waiting : List α
  credit : ℤ

/-- The same queue with less known of each request. -/
def CreditQueue.map {α β : Type*} (f : α → β) (q : CreditQueue α) : CreditQueue β := ⟨q.waiting.map f, q.credit⟩

section Serve

variable {α β : Type*} (cost : α → ℤ) (ok : α → ℤ → Prop) [∀ x c, Decidable (ok x c)]

def totalCost (served : List α) : ℤ := (served.map cost).sum

@[simp] theorem totalCost_nil : totalCost cost [] = 0 := rfl

@[simp] theorem totalCost_cons (x : α) (l : List α) : totalCost cost (x :: l) = cost x + totalCost cost l := by
  simp [totalCost]

@[simp] theorem totalCost_append (l l' : List α) : totalCost cost (l ++ l') = totalCost cost l + totalCost cost l' := by
  simp [totalCost]

theorem totalCost_nonneg {l} (nonneg : ∀ x ∈ l, 0 ≤ cost x) : 0 ≤ totalCost cost l := by
  apply sum_nonneg
  intro c mem
  obtain ⟨x, member, rfl⟩ := mem_map.1 mem
  exact nonneg x member

theorem totalCost_le {l bound} (each : ∀ x ∈ l, cost x ≤ bound) : totalCost cost l ≤ l.length * bound := by
  have sum := sum_le_card_nsmul (l.map cost) bound fun c mem => by
    obtain ⟨x, member, rfl⟩ := mem_map.1 mem
    exact each x member
  rwa [length_map, nsmul_eq_mul] at sum

/-- Serve the oldest request while the condition holds: what is served, and the queue after
that. -/
def serve : List α → ℤ → List α × CreditQueue α
  | [], credit => ([], ⟨[], credit⟩)
  | x :: rest, credit =>
    if ok x credit then (x :: (serve rest (credit - cost x)).1, (serve rest (credit - cost x)).2)
    else ([], ⟨x :: rest, credit⟩)

variable {cost ok}

theorem serve_of_ok {x rest credit} (enough : ok x credit) :
    serve cost ok (x :: rest) credit =
      (x :: (serve cost ok rest (credit - cost x)).1, (serve cost ok rest (credit - cost x)).2) := by
  rw [serve, if_pos enough]

theorem serve_of_not {x rest credit} (stop : ¬ ok x credit) :
    serve cost ok (x :: rest) credit = ([], ⟨x :: rest, credit⟩) := by
  rw [serve, if_neg stop]

theorem serve_waiting (l : List α) (credit : ℤ) :
    (serve cost ok l credit).1 ++ (serve cost ok l credit).2.waiting = l := by
  induction l generalizing credit with
  | nil => rfl
  | cons x rest ih =>
    rcases em (ok x credit) with enough | stop
    · rw [serve_of_ok enough, cons_append, ih]
    · rw [serve_of_not stop, nil_append]

theorem serve_credit (l : List α) (credit : ℤ) :
    (serve cost ok l credit).2.credit = credit - totalCost cost (serve cost ok l credit).1 := by
  induction l generalizing credit with
  | nil => simp [serve]
  | cons x rest ih =>
    rcases em (ok x credit) with enough | stop
    · rw [serve_of_ok enough, ih, totalCost_cons]
      ring
    · rw [serve_of_not stop, totalCost_nil, sub_zero]

/-- The service stops at the end of the queue or at a request that it refuses. -/
theorem serve_stops (cost : α → ℤ) (ok : α → ℤ → Prop) [∀ x c, Decidable (ok x c)] (l : List α) (credit : ℤ) :
    (serve cost ok l credit).2.waiting = [] ∨
      ∃ x rest, (serve cost ok l credit).2.waiting = x :: rest ∧ ¬ ok x (serve cost ok l credit).2.credit := by
  induction l generalizing credit with
  | nil => exact Or.inl rfl
  | cons x rest ih =>
    rcases em (ok x credit) with enough | stop
    · rw [serve_of_ok enough]
      exact ih _
    · rw [serve_of_not stop]
      exact Or.inr ⟨x, rest, rfl, stop⟩

theorem serve_before {l credit p x} (served : p ++ [x] <+: (serve cost ok l credit).1) :
    ok x (credit - totalCost cost p) := by
  induction l generalizing credit p with
  | nil => simp [serve] at served
  | cons y rest ih =>
    rcases em (ok y credit) with enough | stop
    · rw [serve_of_ok enough] at served
      cases p with
      | nil =>
        obtain ⟨rfl, -⟩ := cons_prefix_cons.1 served
        simpa using enough
      | cons z p =>
        obtain ⟨rfl, served⟩ := cons_prefix_cons.1 served
        have before := ih served
        rwa [totalCost_cons, ← sub_sub]
    · rw [serve_of_not stop] at served
      simp at served

/-- If each request is served on credit above `-limit`, the deficit stays below the limit
and one request. -/
theorem serve_deficit {limit} (above : ∀ x c, ok x c → -limit < c) {l credit most p}
    (served : p <+: (serve cost ok l credit).1) (start : -limit - most < credit) (bound : ∀ x ∈ p, cost x ≤ most) :
    -limit - most < credit - totalCost cost p := by
  rcases eq_nil_or_concat p with rfl | ⟨earlier, x, rfl⟩
  · simpa using start
  · rw [concat_eq_append] at served bound ⊢
    have before := above _ _ (serve_before served)
    have last := bound x (by simp)
    rw [totalCost_append, totalCost_cons, totalCost_nil]
    linarith

/-- The service sees no more of a request than its cost and the condition do. -/
theorem serve_map (f : β → α) (l : List β) (credit : ℤ) :
    serve cost ok (l.map f) credit =
      ((serve (cost ∘ f) (fun y c => ok (f y) c) l credit).1.map f, (serve (cost ∘ f) (fun y c => ok (f y) c) l credit).2.map f) := by
  induction l generalizing credit with
  | nil => rfl
  | cons x rest ih =>
    rw [map_cons]
    rcases em (ok (f x) credit) with enough | stop
    · have same : serve (cost ∘ f) (fun y c => ok (f y) c) (x :: rest) credit = _ := serve_of_ok enough
      rw [serve_of_ok enough, ih, same]
      rfl
    · have same : serve (cost ∘ f) (fun y c => ok (f y) c) (x :: rest) credit = _ := serve_of_not stop
      rw [serve_of_not stop, same]
      rfl

end Serve

end Reflex.Lib
