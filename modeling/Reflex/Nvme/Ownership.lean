import Reflex.Nvme.Table

/-!
# Who owns a handle

A ledger kept beside the state records which flow of which thread was told that it owns
which handle: a registration that returns success enters its flow, and an unregister call strikes
out one entry of its handle. The ledger is about the calls only; the table cannot say who owns what, because a slot names only
the flow that wrote it last and counts one connection for however many registrations.
-/

namespace Reflex.Nvme
open Lib

variable {cpu : Nat} {flowGroupId : Int64} {slo : SLO} {s : NvmeState}

structure Grant where
  flowGroupId : Int64
  tid : Nat
  handle : Nat
  deriving DecidableEq

/-- The registration returns success. -/
def Registry.Grants (cfg : Cfg) (r : Registry) (cpu : Nat) (flowGroupId : Int64) (cookie : UInt64) (slo : SLO)
    (swq : Option Nat) : Prop :=
  ¬ r.Refused cfg cpu flowGroupId cookie slo ∧ swq ≠ none

instance (cfg : Cfg) (r : Registry) (cpu : Nat) (flowGroupId : Int64) (cookie : UInt64) (slo : SLO) (swq : Option Nat) :
    Decidable (r.Grants cfg cpu flowGroupId cookie slo swq) := inferInstanceAs (Decidable (_ ∧ _))

theorem grants_iff (cfg : Cfg) (s : NvmeState) (cpu : Nat) (flowGroupId : Int64) (cookie : UInt64) (slo : SLO) (swq : Option Nat) :
    (bsysNvmeRegisterFlow cfg s cpu flowGroupId cookie slo swq).1 = retOk ↔ s.Grants cfg cpu flowGroupId cookie slo swq := by
  rw [register_eq, Registry.Grants]
  by_cases refused : s.Refused cfg cpu flowGroupId cookie slo
  · simp [refused, retOk, retCantmeetslo]
  · cases swq <;> simp [refused, retOk, retNomem]

def RegOp.enter (cfg : Cfg) (s : NvmeState) (ledger : List Grant) : RegOp → List Grant
  | .register cpu flowGroupId cookie slo swq =>
    if s.Grants cfg cpu flowGroupId cookie slo swq then ⟨flowGroupId, cpu, s.slotFor cpu flowGroupId⟩ :: ledger else ledger
  | .unregister _ h => ledger.eraseP fun g => g.handle = h
  | .nvmeOpen _ _ _ => ledger

/-- A call together with its entry in the ledger. -/
def OwnStep (cfg : Cfg) (s : NvmeState × List Grant) (op : RegOp) (t : NvmeState × List Grant) : Prop :=
  RegStep cfg s.1 op t.1 ∧ t.2 = op.enter cfg s.1 s.2

/-- The calls that keep ownership exclusive. A flow id fits the table's 32-bit field; a
flow for which no handle is free is not granted one; a connected flow does not change its
SLO; a handle that was granted more than once is not unregistered; and the namespace is opened before anyone owns a handle. -/
def RegOp.KeepsOwners (cfg : Cfg) (s : NvmeState × List Grant) : RegOp → Prop
  | .register cpu flowGroupId cookie slo swq =>
    flowGroupId.toInt32.toInt64 = flowGroupId ∧
      (s.1.Grants cfg cpu flowGroupId cookie slo swq → s.1.search cpu flowGroupId ≠ .nextAvail 0) ∧
        ∀ i, s.1.search cpu flowGroupId = .already i → s.1.Live i → (s.1.nvmeFgs i).slo = slo
  | .unregister _ h => (s.2.countP fun g => g.handle = h) ≤ 1
  | .nvmeOpen _ _ _ => s.2 = [] ∨ allocateNvmeIoq s.1 = none

/-- A ledger entry that the table bears out. -/
structure Grant.Held (r : Registry) (g : Grant) : Prop where
  allocated : r.nvmeFgsBitmap g.handle = true
  lower : 1 ≤ g.handle
  upper : g.handle < maxNvmeFlowGroups
  flow : (r.nvmeFgs g.handle).flowGroupId.toInt64 = g.flowGroupId
  thread : (r.nvmeFgs g.handle).tid = g.tid

namespace Grant.Held

variable {cfg : Cfg} {r : Registry} {g : Grant}

theorem disconnected (owner : g.Held r) (h : Nat) (kept : g.handle = h → (r.nvmeFgs h).connRefCount ≠ 1) :
    g.Held (r.disconnected cfg h) := by
  have same : ((r.disconnected cfg h).nvmeFgs g.handle).flowGroupId = (r.nvmeFgs g.handle).flowGroupId ∧
      ((r.disconnected cfg h).nvmeFgs g.handle).tid = (r.nvmeFgs g.handle).tid := by
    by_cases own : g.handle = h
    · obtain ⟨credit, entry⟩ := disconnected_fg_self cfg r h
      rw [own, entry]
      exact ⟨rfl, rfl⟩
    · obtain ⟨credit, entry⟩ := disconnected_fg_of_ne cfg r own
      rw [entry]
      exact ⟨rfl, rfl⟩
  refine ⟨?_, owner.lower, owner.upper, same.1 ▸ owner.flow, same.2 ▸ owner.thread⟩
  rw [disconnected_bitmap]
  by_cases last : (r.nvmeFgs h).connRefCount = 1
  · rw [if_pos last, Function.update_of_ne fun own => kept own last]
    exact owner.allocated
  · rw [if_neg last]
    exact owner.allocated

theorem registered_of_ne (owner : g.Held (r.prepared cfg cpu flowGroupId slo))
    (other : g.handle ≠ r.slotFor cpu flowGroupId) (cookie : UInt64) (swq : Option Nat) :
    g.Held (r.registered cfg cpu flowGroupId cookie slo swq) := by
  obtain ⟨credit, entry⟩ := registered_fg_of_ne cfg r cookie slo swq other
  obtain ⟨credit', before⟩ := prepared_fg_of_ne cfg r slo other
  have flow := owner.flow
  have thread := owner.thread
  rw [before] at flow thread
  refine ⟨?_, owner.lower, owner.upper, ?_, ?_⟩
  · rw [registered_bitmap]
    exact owner.allocated
  · rw [entry]
    exact flow
  · rw [entry]
    exact thread

theorem registered_self (fits : flowGroupId.toInt32.toInt64 = flowGroupId)
    (prepared : (r.prepared cfg cpu flowGroupId slo).nvmeFgsBitmap (r.slotFor cpu flowGroupId) = true)
    (lower : 1 ≤ r.slotFor cpu flowGroupId) (cookie : UInt64) (swq : Option Nat) :
    Grant.Held (r.registered cfg cpu flowGroupId cookie slo swq) ⟨flowGroupId, cpu, r.slotFor cpu flowGroupId⟩ := by
  obtain ⟨flow, thread⟩ := registered_owner cfg r cpu flowGroupId cookie slo swq
  refine ⟨?_, lower, search_handle_lt r cpu flowGroupId, ?_, thread⟩
  · rw [registered_bitmap]
    exact prepared
  · rw [flow]
    exact fits

end Grant.Held

theorem refCount_of_changed {r : Registry} {i} (found : r.search cpu flowGroupId = .already i) (other : (r.nvmeFgs i).slo ≠ slo)
    (keeps : ∀ i, r.search cpu flowGroupId = .already i → r.Live i → (r.nvmeFgs i).slo = slo) : (r.nvmeFgs i).connRefCount ≠ 1 := by
  have idle : ¬ r.Live i := fun live => other (keeps i found live)
  unfold Registry.Live at idle
  omega

/-- When a registration starts to write, the ledger is borne out, and the slot is this
flow's own where it has an owner. -/
theorem held_prepared (cfg : Cfg) {g : Grant} (owner : g.Held s.toRegistry)
    (keeps : ∀ i, s.search cpu flowGroupId = .already i → s.Live i → (s.nvmeFgs i).slo = slo) :
    g.Held (s.prepared cfg cpu flowGroupId slo) ∧
      (g.handle = s.slotFor cpu flowGroupId → g = ⟨flowGroupId, cpu, s.slotFor cpu flowGroupId⟩) := by
  cases found : s.search cpu flowGroupId with
  | already i =>
    obtain ⟨-, -, -, flow, thread⟩ := search_already found
    rw [slotFor_of_already found]
    have own : g.handle = i → g = ⟨flowGroupId, cpu, i⟩ := by
      rintro rfl
      rw [← flow, ← thread, owner.flow, owner.thread]
    by_cases same : (s.nvmeFgs i).slo = slo
    · rw [prepared_of_same found same]
      exact ⟨owner, own⟩
    · rw [prepared_of_changed found same]
      exact ⟨owner.disconnected i fun _ => refCount_of_changed found same keeps, own⟩
  | nextAvail i =>
    have other : g.handle ≠ i := by
      rintro rfl
      rcases search_nextAvail found with ⟨-, -, free⟩ | ⟨zero, -⟩
      · exact Bool.false_ne_true (free.symm.trans owner.allocated)
      · have := owner.lower
        omega
    rw [slotFor_of_new found, prepared_of_new found]
    refine ⟨⟨?_, owner.lower, owner.upper, owner.flow, owner.thread⟩, fun own => absurd own other⟩
    rw [setBit_bitmap, Function.update_of_ne other]
    exact owner.allocated

theorem prepared_slot_of_granted (cfg : Cfg) {r : Registry}
    (room : r.search cpu flowGroupId ≠ .nextAvail 0)
    (keeps : ∀ i, r.search cpu flowGroupId = .already i → r.Live i → (r.nvmeFgs i).slo = slo) :
    (r.prepared cfg cpu flowGroupId slo).nvmeFgsBitmap (r.slotFor cpu flowGroupId) = true ∧ 1 ≤ r.slotFor cpu flowGroupId := by
  cases found : r.search cpu flowGroupId with
  | already i =>
    obtain ⟨lower, -, bit, -, -⟩ := search_already found
    rw [slotFor_of_already found]
    by_cases same : (r.nvmeFgs i).slo = slo
    · rw [prepared_of_same found same]
      exact ⟨bit, lower⟩
    · rw [prepared_of_changed found same, disconnected_bitmap, if_neg (refCount_of_changed found same keeps)]
      exact ⟨bit, lower⟩
  | nextAvail i =>
    rw [slotFor_of_new found, prepared_of_new found]
    refine ⟨by simp, ?_⟩
    have nonzero : i ≠ 0 := fun zero => room (zero ▸ found)
    omega

/-- Of a handle with at most one entry none is left once that is struck out. -/
theorem unowned_of_struck {ledger : List Grant} {h : Nat} (few : (ledger.countP fun g => g.handle = h) ≤ 1) {g : Grant}
    (mem : g ∈ ledger.eraseP fun g => g.handle = h) : g.handle ≠ h := by
  intro own
  have counted : 0 < (ledger.eraseP fun g => g.handle = h).countP fun g => g.handle = h :=
    List.countP_pos_iff.2 ⟨g, mem, decide_eq_true own⟩
  rcases List.exists_or_eq_self_of_eraseP (fun g : Grant => decide (g.handle = h)) ledger with same | ⟨x, front, back, -, struck, split, erased⟩
  · have none := List.eraseP_eq_self_iff.1 same g (List.mem_of_mem_eraseP mem)
    exact none (decide_eq_true own)
  · rw [erased] at counted
    rw [split, List.countP_append, List.countP_cons_of_pos (p := fun g : Grant => decide (g.handle = h)) struck] at few
    rw [List.countP_append] at counted
    omega

theorem OwnStep.held {cfg s t op}
    (step : Guarded (OwnStep cfg) (RegOp.KeepsOwners cfg) s op t) (held : ∀ g ∈ s.2, g.Held s.1.toRegistry) :
    ∀ g ∈ t.2, g.Held t.1.toRegistry := by
  obtain ⟨⟨⟨-, next⟩, enter⟩, ok⟩ := step
  rw [next, enter]
  cases op with
  | register cpu flowGroupId cookie slo swq =>
    obtain ⟨fits, granted, keeps⟩ := ok
    have kept : ∀ g ∈ s.2, g.Held (s.1.registered cfg cpu flowGroupId cookie slo swq) := by
      intro g mem
      obtain ⟨owner, own⟩ := held_prepared cfg (held g mem) keeps
      by_cases slot : g.handle = s.1.slotFor cpu flowGroupId
      · have bit := owner.allocated
        have lower := owner.lower
        rw [slot] at bit lower
        rw [own slot]
        exact Grant.Held.registered_self fits bit lower cookie swq
      · exact Grant.Held.registered_of_ne owner slot cookie swq
    rw [next_register]
    simp only [RegOp.enter]
    split
    · rename_i grants
      obtain ⟨bit, lower⟩ := prepared_slot_of_granted cfg (granted grants) keeps
      intro g mem
      rcases List.mem_cons.1 mem with rfl | mem
      · exact Grant.Held.registered_self fits bit lower cookie swq
      · exact kept g mem
    · exact kept
  | unregister cpu h =>
    rw [next_unregister]
    intro g mem
    exact (held g (List.mem_of_mem_eraseP mem)).disconnected h fun own => absurd own (unowned_of_struck ok mem)
  | nvmeOpen cpu nsSize nsSectorSize =>
    simp only [RegOp.next, RegOp.run, RegOp.enter, bsysNvmeOpen]
    rcases ok with none | failed
    · rw [none]
      simp
    · rw [failed]
      exact held

/-- With every handle allocated, a new flow that passes the check is registered with
success on handle 0, which the search never looks at. -/
theorem full_table_grants_handle_zero {cfg cookie q} (full : ∀ j, 1 ≤ j → j < maxNvmeFlowGroups → s.nvmeFgsBitmap j = true)
    (new : ∀ j, 1 ≤ j → j < maxNvmeFlowGroups → s.holds cpu flowGroupId j = false)
    (admitted : ¬ s.Refused cfg cpu flowGroupId cookie slo) :
    (bsysNvmeRegisterFlow cfg s cpu flowGroupId cookie slo (some q)).1 = retOk ∧
      (bsysNvmeRegisterFlow cfg s cpu flowGroupId cookie slo (some q)).2.Live 0 := by
  have found := search_full full new
  refine ⟨(grants_iff _ _ _ _ _ _ _).2 ⟨admitted, Option.some_ne_none q⟩, ?_⟩
  rw [Registry.Live, register_toRegistry, registered_granted admitted, slotFor_of_new found, Registry.connected, setFg_self]
  exact Int.zero_lt_one

theorem crowded_table_grants : let s := { coldState with nvmeFgsBitmap := fun _ => true }
    (bsysNvmeRegisterFlow flatCfg s 0 1 0 bestEffortSLO (some 0)).1 = retOk ∧
      (bsysNvmeRegisterFlow flatCfg s 0 1 0 bestEffortSLO (some 0)).2.Live 0 :=
  full_table_grants_handle_zero (fun _ _ _ => rfl) (fun _ _ _ => rfl) fun refused => refused_critical refused rfl

end Reflex.Nvme
