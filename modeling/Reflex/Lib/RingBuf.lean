import Mathlib.Logic.Function.Basic
import Mathlib.Data.List.Range
import Mathlib.Data.Nat.ModEq

/-!
# Ring buffers as bounded queues

A ring of capacity `cap` inserts at `head`, removes at `tail` and keeps a separate
`count`. `RingBuf.contents` reads the occupied cells in removal order; under `RingBuf.Wf`
an insertion appends to that list and a removal drops its first element, also when the
indices have wrapped. Cells that are not occupied are unrestricted.
-/

namespace Reflex.Lib

open Function List

structure RingBuf (α : Type*) where
  buf : Nat → α
  count : Nat
  head : Nat
  tail : Nat

namespace RingBuf

variable {α : Type*} {cap : Nat} {r : RingBuf α}

/-- Insert at `head`. -/
def push (cap : Nat) (r : RingBuf α) (x : α) : RingBuf α :=
  { buf := Function.update r.buf r.head x, count := r.count + 1, head := (r.head + 1) % cap, tail := r.tail }

/-- Remove at `tail`. -/
def pop (cap : Nat) (r : RingBuf α) : RingBuf α :=
  { r with count := r.count - 1, tail := (r.tail + 1) % cap }

/-- The occupied cells, oldest first. -/
def contents (cap : Nat) (r : RingBuf α) : List α :=
  (List.range r.count).map fun k => r.buf ((r.tail + k) % cap)

/-- The indices of a ring of capacity `cap` agree with its count. -/
structure Wf (cap : Nat) (r : RingBuf α) : Prop where
  capacity : 0 < cap
  bound : r.count ≤ cap
  tailBound : r.tail < cap
  head : r.head = (r.tail + r.count) % cap

/-- Distinct offsets of less than one turn are distinct cells. -/
theorem offset_inj {t i j : Nat} (hi : i < cap) (hj : j < cap) (same : (t + i) % cap = (t + j) % cap) :
    i = j := by
  have cancelled : i % cap = j % cap := Nat.ModEq.add_left_cancel' t same
  rwa [Nat.mod_eq_of_lt hi, Nat.mod_eq_of_lt hj] at cancelled

theorem Wf.push (h : r.Wf cap) (space : r.count < cap) (x : α) : (r.push cap x).Wf cap where
  __ := h
  bound := space
  head := by
    simp only [RingBuf.push, h.head, Nat.mod_add_mod]
    congr 1

theorem Wf.pop (h : r.Wf cap) (some : 0 < r.count) : (r.pop cap).Wf cap where
  capacity := h.capacity
  bound := by have := h.bound; simp only [RingBuf.pop]; omega
  tailBound := Nat.mod_lt _ h.capacity
  head := by
    simp only [RingBuf.pop, h.head, Nat.mod_add_mod]
    congr 1
    omega

theorem Wf.contents_push (h : r.Wf cap) (space : r.count < cap) (x : α) :
    (r.push cap x).contents cap = r.contents cap ++ [x] := by
  simp only [contents, RingBuf.push, range_succ, map_append, map_cons, map_nil]
  congr 1
  · apply map_congr_left
    intro k hk
    have hk := mem_range.1 hk
    apply update_of_ne
    rw [h.head]
    intro same
    exact absurd (offset_inj (by omega) space same) (by omega)
  · rw [h.head, update_self]

theorem Wf.contents_pop (h : r.Wf cap) (some : 0 < r.count) :
    r.contents cap = r.buf r.tail :: (r.pop cap).contents cap := by
  obtain ⟨n, hn⟩ : ∃ n, r.count = n + 1 := ⟨r.count - 1, by omega⟩
  simp only [contents, RingBuf.pop, hn, range_succ_eq_map, map_cons, map_map, Nat.add_zero,
    Nat.mod_eq_of_lt h.tailBound, Nat.add_sub_cancel]
  congr 1
  apply map_congr_left
  intro k _
  simp only [comp, Nat.mod_add_mod]
  congr 2
  omega

theorem Wf.contents_edit (h : r.Wf cap) (some : 0 < r.count) (x : α) :
    RingBuf.contents cap { r with buf := update r.buf r.tail x } = x :: (r.pop cap).contents cap := by
  have edited : RingBuf.Wf cap { r with buf := update r.buf r.tail x } :=
    ⟨h.capacity, h.bound, h.tailBound, h.head⟩
  rw [edited.contents_pop some]
  refine congrArg₂ cons (update_self r.tail x r.buf) ?_
  apply map_congr_left
  intro k member
  have inside : k < r.count - 1 := mem_range.1 member
  apply update_of_ne
  -- the cell is one to `count - 1` places after the oldest
  intro same
  have bound := h.bound
  have place : (r.tail + (k + 1)) % cap = (r.tail + 0) % cap := by
    have shifted : r.tail + (k + 1) = r.tail + 1 + k := by omega
    have oldest : (r.tail + 0) % cap = r.tail := Nat.mod_eq_of_lt h.tailBound
    rw [shifted, ← Nat.mod_add_mod, oldest]
    exact same
  exact absurd (offset_inj (by omega) h.capacity place) (by omega)

end RingBuf

end Reflex.Lib
