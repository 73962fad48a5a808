import Reflex.Lib.Run

/-!
# Runs that an observer cannot tell apart

`view` says what an observer sees of an action, if anything. A relation between states that
hidden steps keep on either side, and steps that look the same keep on both sides, is kept
by runs that look the same, however many hidden steps each has and wherever they are.
-/

namespace Reflex.Lib

open List

variable {σ α β : Type*} {step : σ → α → σ → Prop} {view : α → Option β} {R : σ → σ → Prop}

theorem Run.hidden (hide : ∀ s t b t', step t b t' → view b = none → R s t → R s t') {s t t' bs}
    (run : Run step t bs t') (hidden : bs.filterMap view = []) (start : R s t) : R s t' := by
  induction run with
  | nil => exact start
  | cons here _ ih =>
    obtain ⟨first, rest⟩ := filterMap_eq_nil_iff.1 hidden |> forall_mem_cons.1
    exact ih (filterMap_eq_nil_iff.2 rest) (hide _ _ _ _ here first start)

/-- A run up to and including its first visible step, and the rest. -/
theorem Run.first_visible {t t' bs v vs} (run : Run step t bs t')
    (visible : bs.filterMap view = v :: vs) :
    ∃ as b cs u u', Run step t as u ∧ as.filterMap view = [] ∧ step u b u' ∧ view b = some v ∧ Run step u' cs t' ∧
      cs.filterMap view = vs := by
  induction run with
  | nil => cases visible
  | @cons s u t' b bs here rest ih =>
    cases seen : view b with
    | none =>
      rw [filterMap_cons_none seen] at visible
      obtain ⟨as, b', cs, w, w', before, hidden, step, same, after, others⟩ := ih visible
      refine ⟨b :: as, b', cs, w, w', .cons here before, ?_, step, same, after, others⟩
      rw [filterMap_cons_none seen]
      exact hidden
    | some w =>
      rw [filterMap_cons_some seen, cons.injEq] at visible
      obtain ⟨rfl, others⟩ := visible
      exact ⟨[], b, bs, s, u, .nil s, rfl, here, seen, rest, others⟩

theorem Run.unwinding (left : ∀ s a s' t, step s a s' → view a = none → R s t → R s' t)
    (right : ∀ s t b t', step t b t' → view b = none → R s t → R s t')
    (both : ∀ s a s' t b t' v, step s a s' → step t b t' → view a = some v → view b = some v → R s t → R s' t')
    {s s' t t' as bs} (first : Run step s as s') (second : Run step t bs t')
    (same : as.filterMap view = bs.filterMap view) (start : R s t) : R s' t' := by
  induction first generalizing t bs with
  | nil => exact second.hidden right same.symm start
  | @cons s u s' a as here _ ih =>
    cases seen : view a with
    | none =>
      rw [filterMap_cons_none seen] at same
      exact ih second same (left _ _ _ _ here seen start)
    | some v =>
      rw [filterMap_cons_some seen] at same
      obtain ⟨before, b, after, w, w', hidden, silent, step, look, rest, others⟩ := second.first_visible same.symm
      apply ih rest others.symm
      exact both _ _ _ _ _ _ v here step seen look (hidden.hidden right silent start)

end Reflex.Lib
