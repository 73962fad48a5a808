import Reflex.Nvme.Registry

/-!
# The handle search

`set_nvme_flow_group_id` returns the first allocated handle that carries the flow's id
and thread; when there is none it returns the first free handle, and handle 0 when no
handle is free. The code's test for a full table compares with
`MAX_NVME_FLOW_GROUPS`, which the search never yields.
-/

namespace Reflex.Nvme
open Lib List

variable {i cpu : Nat} {r : Registry} {flowGroupId : Int64}

/-- Slot `i` is allocated to this flow of this thread. -/
def Registry.holds (r : Registry) (cpu : Nat) (flowGroupId : Int64) (i : Nat) : Bool :=
  r.nvmeFgsBitmap i && decide ((r.nvmeFgs i).flowGroupId.toInt64 = flowGroupId) && decide ((r.nvmeFgs i).tid = cpu)

theorem searchFlowGroup_eq (r : Registry) (cpu : Nat) (flowGroupId : Int64) (l : List Nat) (nonzero : ∀ i ∈ l, i ≠ 0) :
    ∀ n, searchFlowGroup r cpu flowGroupId l n =
      match l.find? (r.holds cpu flowGroupId) with
      | some i => .already i
      | none => .nextAvail (if n = 0 then (l.find? fun i => !r.nvmeFgsBitmap i).getD 0 else n) := by
  induction l with
  | nil => intro n; by_cases h : n = 0 <;> simp [searchFlowGroup, h]
  | cons i l ih =>
    intro n
    have here := nonzero i (by simp)
    have ih := ih fun j hj => nonzero j (by simp [hj])
    cases bit : r.nvmeFgsBitmap i with
    | true =>
      by_cases found : (r.nvmeFgs i).flowGroupId.toInt64 = flowGroupId ∧ (r.nvmeFgs i).tid = cpu
      · simp [searchFlowGroup, Registry.holds, bit, found]
      · have misses : r.holds cpu flowGroupId i = false := by simpa [Registry.holds, bit] using found
        simp only [searchFlowGroup, bit, if_true, found, if_false, ih, find?_cons, misses, Bool.not_true]
    | false =>
      have misses : r.holds cpu flowGroupId i = false := by simp [Registry.holds, bit]
      simp only [searchFlowGroup, bit, Bool.false_eq_true, if_false, ih, find?_cons, misses, Bool.not_false]
      by_cases h : n = 0 <;> simp [h, here]

theorem mem_searchHandles : i ∈ searchHandles ↔ 1 ≤ i ∧ i < maxNvmeFlowGroups := by
  simp only [searchHandles, mem_range'_1]
  unfold maxNvmeFlowGroups
  omega

theorem search_eq (r : Registry) (cpu : Nat) (flowGroupId : Int64) :
    r.search cpu flowGroupId =
      match searchHandles.find? (r.holds cpu flowGroupId) with
      | some i => .already i
      | none => .nextAvail ((searchHandles.find? fun i => !r.nvmeFgsBitmap i).getD 0) := by
  unfold Registry.search
  rw [searchFlowGroup_eq r cpu flowGroupId searchHandles fun i hi => by have := mem_searchHandles.1 hi; omega]
  simp

theorem holds_iff :
    r.holds cpu flowGroupId i = true ↔
      r.nvmeFgsBitmap i = true ∧ (r.nvmeFgs i).flowGroupId.toInt64 = flowGroupId ∧ (r.nvmeFgs i).tid = cpu := by
  simp [Registry.holds, and_assoc]

theorem search_already
    (h : r.search cpu flowGroupId = .already i) :
    1 ≤ i ∧ i < maxNvmeFlowGroups ∧ r.nvmeFgsBitmap i = true ∧ (r.nvmeFgs i).flowGroupId.toInt64 = flowGroupId ∧
      (r.nvmeFgs i).tid = cpu := by
  rw [search_eq] at h
  split at h
  · rename_i j found
    cases h
    have range := mem_searchHandles.1 (mem_of_find?_eq_some found)
    exact ⟨range.1, range.2, holds_iff.1 (find?_some found)⟩
  · cases h

section

variable (h : r.search cpu flowGroupId = .nextAvail i)
include h

theorem search_nextAvail :
    (1 ≤ i ∧ i < maxNvmeFlowGroups ∧ r.nvmeFgsBitmap i = false) ∨
      (i = 0 ∧ ∀ j, 1 ≤ j → j < maxNvmeFlowGroups → r.nvmeFgsBitmap j = true) := by
  rw [search_eq] at h
  split at h
  · cases h
  · cases h
    cases free : searchHandles.find? (fun i => !r.nvmeFgsBitmap i) with
    | some j =>
      have range := mem_searchHandles.1 (mem_of_find?_eq_some free)
      have bit := find?_some free
      exact Or.inl ⟨range.1, range.2, by simpa using bit⟩
    | none =>
      refine Or.inr ⟨rfl, fun j lower upper => ?_⟩
      have := find?_eq_none.1 free j (mem_searchHandles.2 ⟨lower, upper⟩)
      simpa using this

theorem search_nextAvail_first : ∀ j, 1 ≤ j → j < i → r.nvmeFgsBitmap j = true := by
  intro j lower before
  rw [search_eq] at h
  split at h
  · cases h
  · cases h
    cases free : searchHandles.find? (fun i => !r.nvmeFgsBitmap i) with
    | some k =>
      rw [free, Option.getD_some] at before
      have first := (find?_range'_eq_some.1 free).2.2 j lower before
      simpa using first
    | none => simp [free] at before

theorem search_nextAvail_new :
    ∀ j, 1 ≤ j → j < maxNvmeFlowGroups → r.holds cpu flowGroupId j = false := by
  rw [search_eq] at h
  split at h
  · cases h
  · rename_i none
    intro j lower upper
    have := find?_eq_none.1 none j (mem_searchHandles.2 ⟨lower, upper⟩)
    simpa using this

end

theorem find?_searchHandles {p : Nat → Bool} (lower : 1 ≤ i) (upper : i < maxNvmeFlowGroups)
    (here : p i = true) (first : ∀ j, 1 ≤ j → j < i → p j = false) : searchHandles.find? p = some i := by
  rw [find?_eq_some_iff_append]
  refine ⟨here, range' 1 (i - 1), range' (i + 1) (maxNvmeFlowGroups - 1 - i), ?_, ?_⟩
  · have cut : maxNvmeFlowGroups - 1 = (i - 1) + ((maxNvmeFlowGroups - 1 - i) + 1) := by omega
    rw [searchHandles, cut, ← range'_append_1, range'_succ, show 1 + (i - 1) = i by omega]
    congr 3
    omega
  · intro j hj
    have := mem_range'_1.1 hj
    simp [first j this.1 (by omega)]

theorem search_eq_nextAvail (lower : 1 ≤ i)
    (upper : i < maxNvmeFlowGroups) (free : r.nvmeFgsBitmap i = false)
    (first : ∀ j, 1 ≤ j → j < i → r.nvmeFgsBitmap j = true)
    (new : ∀ j, 1 ≤ j → j < maxNvmeFlowGroups → r.holds cpu flowGroupId j = false) :
    r.search cpu flowGroupId = .nextAvail i := by
  have absent : searchHandles.find? (r.holds cpu flowGroupId) = none :=
    find?_eq_none.2 fun j hj => by simp [new j (mem_searchHandles.1 hj).1 (mem_searchHandles.1 hj).2]
  rw [search_eq, absent, find?_searchHandles lower upper (by simp [free]) fun j hj hji => by simp [first j hj hji]]
  rfl

theorem search_init (cpu : Nat) (flowGroupId : Int64) : Registry.init.search cpu flowGroupId = .nextAvail 1 :=
  search_eq_nextAvail (le_refl 1) (by unfold maxNvmeFlowGroups; decide) rfl (by intro j _ _; omega) fun _ _ _ => rfl

theorem search_eq_already (lower : 1 ≤ i)
    (upper : i < maxNvmeFlowGroups) (here : r.holds cpu flowGroupId i = true)
    (first : ∀ j, 1 ≤ j → j < i → r.holds cpu flowGroupId j = false) : r.search cpu flowGroupId = .already i := by
  rw [search_eq, find?_searchHandles lower upper here first]

theorem search_of_clear {n : Nat} (lower : 1 ≤ n) (upper : n < maxNvmeFlowGroups)
    (clear : ∀ i, n ≤ i → r.nvmeFgsBitmap i = false) (cpu : Nat) (flowGroupId : Int64) :
    r.search cpu flowGroupId =
      match (range' 1 (n - 1)).find? (r.holds cpu flowGroupId) with
      | some i => .already i
      | none => .nextAvail (((range' 1 (n - 1)).find? fun i => !r.nvmeFgsBitmap i).getD n) := by
  have cut : searchHandles = range' 1 (n - 1) ++ n :: range' (n + 1) (maxNvmeFlowGroups - 1 - n) := by
    have sizes : maxNvmeFlowGroups - 1 = (n - 1) + ((maxNvmeFlowGroups - 1 - n) + 1) := by omega
    rw [searchHandles, sizes, ← range'_append_1, range'_succ, show 1 + (n - 1) = n by omega]
    congr 3
    omega
  have beyond : (n :: range' (n + 1) (maxNvmeFlowGroups - 1 - n)).find? (r.holds cpu flowGroupId) = none := by
    refine find?_eq_none.2 fun i mem => ?_
    have := clear i (by simp only [mem_cons, mem_range'_1] at mem; omega)
    simp [Registry.holds, this]
  rw [search_eq, cut, find?_append, find?_append, beyond]
  cases found : (range' 1 (n - 1)).find? (r.holds cpu flowGroupId) with
  | some i => simp
  | none =>
    simp only [Option.or_none, find?_cons, clear n (le_refl n), Bool.not_false]
    cases (range' 1 (n - 1)).find? fun i => !r.nvmeFgsBitmap i <;> rfl

theorem search_full
    (full : ∀ j, 1 ≤ j → j < maxNvmeFlowGroups → r.nvmeFgsBitmap j = true)
    (new : ∀ j, 1 ≤ j → j < maxNvmeFlowGroups → r.holds cpu flowGroupId j = false) :
    r.search cpu flowGroupId = .nextAvail 0 := by
  have absent : searchHandles.find? (r.holds cpu flowGroupId) = none :=
    find?_eq_none.2 fun j hj => by simp [new j (mem_searchHandles.1 hj).1 (mem_searchHandles.1 hj).2]
  have none : searchHandles.find? (fun i => !r.nvmeFgsBitmap i) = none :=
    find?_eq_none.2 fun j hj => by simp [full j (mem_searchHandles.1 hj).1 (mem_searchHandles.1 hj).2]
  rw [search_eq, absent, none]
  rfl

/-- The handle of a search, and the table it leaves. -/
def SlotSearch.handle : SlotSearch → Nat
  | .already i => i
  | .nextAvail i => i

theorem search_handle_lt (r : Registry) (cpu : Nat) (flowGroupId : Int64) :
    (r.search cpu flowGroupId).handle < maxNvmeFlowGroups := by
  cases h : r.search cpu flowGroupId with
  | already i => exact (search_already h).2.1
  | nextAvail i =>
    rcases search_nextAvail h with ⟨-, upper, -⟩ | ⟨rfl, -⟩
    · exact upper
    · unfold SlotSearch.handle maxNvmeFlowGroups
      decide

theorem setNvmeFlowGroupId_eq (r : Registry) (cpu : Nat) (flowGroupId : Int64) :
    setNvmeFlowGroupId r cpu flowGroupId =
      match r.search cpu flowGroupId with
      | .already i => (1, i, r)
      | .nextAvail i => (0, i, r.setBit i true) := by
  have bound := search_handle_lt r cpu flowGroupId
  unfold setNvmeFlowGroupId
  cases h : r.search cpu flowGroupId with
  | already i => rfl
  | nextAvail i =>
    rw [h, SlotSearch.handle] at bound
    simp only [Nat.ne_of_lt bound, if_false]

end Reflex.Nvme
