import Reflex.Nvme.Steps

/-!
# Well-formed tables

Facts that every table keeps, whatever is called: a flow group has at most one counted
connection (a registration resets the count), connections lie inside the table, the
token limit and the latency-critical flag are those of the stored SLO, and the counters
are 64-bit words.
-/

namespace Reflex.Nvme
open Lib Registry Function RegOp

variable {cfg : Cfg} {cpu h j : Nat} {flowGroupId : Int64} {r : Registry} {s : NvmeState} {slo : SLO}

/-- The token limit that a registration stores for an SLO. -/
def SLO.limit (cfg : Cfg) (slo : SLO) : Nat := scaledIOPS cfg slo.iopsSLO slo.rwRatioSLO / 10 ^ 6

/-- The SLO asks for a latency. -/
def SLO.critical (slo : SLO) : Bool := decide (slo.latencyUsSLO ≠ 0)

structure FlowGroup.Wf (cfg : Cfg) (h : Nat) (fg : FlowGroup) : Prop where
  conns : fg.connRefCount ≤ 1
  inTable : 0 < fg.connRefCount → h < maxNvmeFlowGroups
  limit : fg.scaledIOPSLimit = fg.slo.limit cfg
  critical : fg.latencyCriticalFlag = fg.slo.critical

structure Registry.Wf (cfg : Cfg) (r : Registry) : Prop where
  entries : ∀ h, (r.nvmeFgs h).Wf cfg h
  sumFits : r.globalLCSumTokenRate < 2 ^ 64
  numLcFits : r.globalNumLcTenants < 2 ^ 64
  numBeFits : r.globalNumBestEffortTenants < 2 ^ 64

theorem SLO.limit_lt (cfg : Cfg) (slo : SLO) : slo.limit cfg < 2 ^ 45 := by
  have fits := scaledIOPS_lt cfg slo.iopsSLO slo.rwRatioSLO
  unfold SLO.limit
  omega

theorem scaledIOPS_zero (cfg : Cfg) (rwRatio100 : Int32) : scaledIOPS cfg 0 rwRatio100 = 0 := by
  simp only [scaledIOPS, UInt64.toNat_zero, Nat.cast_zero, zero_mul, zero_add, truncToNat]
  norm_num

theorem FlowGroup.zero_wf (cfg : Cfg) (h : Nat) : FlowGroup.zero.Wf cfg h where
  conns := by decide
  inTable := fun live => absurd live (by decide)
  limit := by simp [FlowGroup.zero, SLO.limit, scaledIOPS_zero]
  critical := by decide

theorem Registry.init_wf (cfg : Cfg) : init.Wf cfg where
  entries := FlowGroup.zero_wf cfg
  sumFits := by decide
  numLcFits := by decide
  numBeFits := by decide

section Fields

variable (cfg : Cfg) (fg : FlowGroup) (cpu : Nat) (flowGroupId : Int64) (cookie : UInt64) (slo : SLO)

theorem fillFlowGroup_limit : (fillFlowGroup cfg fg cpu flowGroupId cookie slo).scaledIOPSLimit = slo.limit cfg := by
  simp only [fillFlowGroup, SLO.limit]
  exact truncToNat_div (scaledIOPS_lt cfg slo.iopsSLO slo.rwRatioSLO)

theorem fillFlowGroup_critical :
    (fillFlowGroup cfg fg cpu flowGroupId cookie slo).latencyCriticalFlag = slo.critical := rfl

theorem fillFlowGroup_conns : (fillFlowGroup cfg fg cpu flowGroupId cookie slo).connRefCount = fg.connRefCount := rfl

theorem fillFlowGroup_slo : (fillFlowGroup cfg fg cpu flowGroupId cookie slo).slo = slo := rfl

end Fields

namespace FlowGroup.Wf

variable {fg : FlowGroup}

theorem fill (wf : fg.Wf cfg h) (cpu : Nat) (flowGroupId : Int64) (cookie : UInt64) (slo : SLO) :
    (fillFlowGroup cfg fg cpu flowGroupId cookie slo).Wf cfg h where
  __ := wf
  limit := fillFlowGroup_limit cfg fg cpu flowGroupId cookie slo
  critical := rfl

theorem drop (wf : fg.Wf cfg h) : ({ fg with connRefCount := fg.connRefCount - 1 } : FlowGroup).Wf cfg h where
  conns := by have := wf.conns; simp only; omega
  inTable := by intro more; exact wf.inTable (by simp only at more; omega)
  __ := wf

theorem connect (wf : fg.Wf cfg h) (bound : h < maxNvmeFlowGroups) (q : Nat) :
    ({ fg with nvmeSwq := some q, connRefCount := 1 } : FlowGroup).Wf cfg h where
  conns := le_refl _
  inTable := fun _ => bound
  __ := wf

end FlowGroup.Wf

namespace Registry.Wf

section

variable (wf : r.Wf cfg)
include wf

theorem setFg {fg : FlowGroup} (entry : fg.Wf cfg h) : (r.setFg h fg).Wf cfg where
  entries := by
    intro j
    by_cases same : j = h
    · subst same; simpa [setFg] using entry
    · simpa [setFg, same] using wf.entries j
  __ := wf

theorem setBit (h : Nat) (b : Bool) : (r.setBit h b).Wf cfg := ⟨wf.1, wf.2, wf.3, wf.4⟩

theorem publish : (publishRates r).Wf cfg where
  entries := by
    intro h
    rw [publishRates_fg]
    exact ⟨(wf.entries h).1, (wf.entries h).2, (wf.entries h).3, (wf.entries h).4⟩
  sumFits := by simpa using wf.sumFits
  numLcFits := by simpa using wf.numLcFits
  numBeFits := by simpa using wf.numBeFits

theorem counted (h : Nat) : (r.counted cfg h).Wf cfg := by
  unfold Registry.counted
  split
  · exact ⟨wf.entries, wadd_lt _ _ _, wadd_lt _ _ _, wf.numBeFits⟩
  · exact ⟨wf.entries, wf.sumFits, wf.numLcFits, wadd_lt _ _ _⟩

theorem uncounted (h : Nat) : (r.uncounted cfg h).Wf cfg := by
  unfold Registry.uncounted
  split
  · exact ⟨wf.entries, wsub_lt _ _ _, wsub_lt _ _ _, wf.numBeFits⟩
  · exact ⟨wf.entries, wf.sumFits, wf.numLcFits, wsub_lt _ _ _⟩

theorem dropConn (h : Nat) : (r.dropConn h).Wf cfg := wf.setFg (wf.entries h).drop

theorem disconnected (h : Nat) : (r.disconnected cfg h).Wf cfg := by
  unfold Registry.disconnected
  split
  · exact ((wf.dropConn h).uncounted h).publish.setBit h false
  · exact wf.dropConn h

theorem prepared (cpu : Nat) (flowGroupId : Int64) (slo : SLO) :
    (r.prepared cfg cpu flowGroupId slo).Wf cfg := by
  unfold Registry.prepared
  split
  · split
    · exact wf.disconnected _
    · exact wf
  · exact wf.setBit _ true

theorem candidate (cpu : Nat) (flowGroupId : Int64) (cookie : UInt64) (slo : SLO) :
    (r.candidate cfg cpu flowGroupId cookie slo).Wf cfg :=
  let prepared := wf.prepared cpu flowGroupId slo
  prepared.setFg ((prepared.entries _).fill cpu flowGroupId cookie slo)

theorem registered (cpu : Nat) (flowGroupId : Int64) (cookie : UInt64) (slo : SLO) (swq : Option Nat) :
    (r.registered cfg cpu flowGroupId cookie slo swq).Wf cfg := by
  have candidate := wf.candidate cpu flowGroupId cookie slo
  have published := (candidate.counted (r.slotFor cpu flowGroupId)).publish
  unfold Registry.registered
  simp only
  split
  · exact ⟨candidate.1, candidate.2, candidate.3, candidate.4⟩
  · split
    · exact published
    · exact published.setFg ((published.entries _).connect (search_handle_lt r cpu flowGroupId) _)

end

end Registry.Wf

/-! ## Slots that connecting and disconnecting leave as they are -/

theorem dropConn_slo (r : Registry) (h i : Nat) : ((r.dropConn h).nvmeFgs i).slo = (r.nvmeFgs i).slo := by
  by_cases same : i = h
  · subst same; simp [dropConn]
  · rw [dropConn_of_ne r same]

theorem dropConn_critical (r : Registry) (h i : Nat) :
    ((r.dropConn h).nvmeFgs i).latencyCriticalFlag = (r.nvmeFgs i).latencyCriticalFlag := by
  by_cases same : i = h
  · subst same; simp [dropConn]
  · rw [dropConn_of_ne r same]

theorem dropConn_lcSlot (r : Registry) (h i : Nat) : (r.dropConn h).lcSlot i = r.lcSlot i := by
  rw [lcSlot, lcSlot, dropConn_critical]
  rfl

theorem connected_slo (r : Registry) (h q i : Nat) : ((r.connected h q).nvmeFgs i).slo = (r.nvmeFgs i).slo := by
  by_cases same : i = h
  · subst same; simp [connected]
  · simp [connected, same]

theorem connected_lcSlot (r : Registry) (h q i : Nat) : (r.connected h q).lcSlot i = r.lcSlot i := by
  by_cases same : i = h
  · subst same; simp [lcSlot, connected]
  · simp [lcSlot, connected, same]

/-! ## The slot of a registration -/

/-- A flow that is not in the table is not given the slot of a connected one. -/
def Registry.SpareSlot (r : Registry) (cpu : Nat) (flowGroupId : Int64) : Prop :=
  ∀ i, r.search cpu flowGroupId = .nextAvail i → ¬ r.Live i

/-- The flow is connected with this SLO already. -/
def Registry.Reconnects (r : Registry) (cpu : Nat) (flowGroupId : Int64) (slo : SLO) : Prop :=
  ∃ i, r.search cpu flowGroupId = .already i ∧ r.Live i ∧ (r.nvmeFgs i).slo = slo

theorem disconnected_conns (cfg : Cfg) (r : Registry) (h : Nat) :
    ((r.disconnected cfg h).nvmeFgs h).connRefCount = (r.nvmeFgs h).connRefCount - 1 := by
  unfold disconnected released
  split <;> simp

theorem registered_bitmap (cfg : Cfg) (r : Registry) (cpu : Nat) (flowGroupId : Int64) (cookie : UInt64) (slo : SLO)
    (swq : Option Nat) :
    (r.registered cfg cpu flowGroupId cookie slo swq).nvmeFgsBitmap = (r.prepared cfg cpu flowGroupId slo).nvmeFgsBitmap := by
  unfold registered
  simp only
  split
  · rfl
  · split
    · rw [publishRates_bitmap, counted_bitmap, candidate, setFg_bitmap]
    · rw [connected, setFg_bitmap, publishRates_bitmap, counted_bitmap, candidate, setFg_bitmap]

theorem disconnected_bitmap (cfg : Cfg) (r : Registry) (h : Nat) :
    (r.disconnected cfg h).nvmeFgsBitmap =
      if (r.nvmeFgs h).connRefCount = 1 then update r.nvmeFgsBitmap h false else r.nvmeFgsBitmap := by
  unfold disconnected
  split
  · rw [released, setBit_bitmap, publishRates_bitmap, uncounted_bitmap]
    rfl
  · rfl

theorem disconnected_fg_of_ne (cfg : Cfg) (r : Registry) (other : j ≠ h) :
    ∃ credit, (r.disconnected cfg h).nvmeFgs j = { r.nvmeFgs j with scaledIOPuSLimit := credit } := by
  unfold disconnected
  split
  · refine ⟨((r.dropConn h).uncounted cfg h).creditDue j, ?_⟩
    rw [released, setBit_nvmeFgs, publishRates_fg, uncounted_nvmeFgs, dropConn_of_ne r other]
  · exact ⟨(r.nvmeFgs j).scaledIOPuSLimit, dropConn_of_ne r other⟩

theorem disconnected_fg_self (cfg : Cfg) (r : Registry) (h : Nat) :
    ∃ credit, (r.disconnected cfg h).nvmeFgs h =
      { r.nvmeFgs h with connRefCount := (r.nvmeFgs h).connRefCount - 1, scaledIOPuSLimit := credit } := by
  unfold disconnected
  split
  · refine ⟨((r.dropConn h).uncounted cfg h).creditDue h, ?_⟩
    rw [released, setBit_nvmeFgs, publishRates_fg, uncounted_nvmeFgs, dropConn, setFg_self]
  · refine ⟨(r.nvmeFgs h).scaledIOPuSLimit, ?_⟩
    rw [dropConn, setFg_self]

theorem disconnected_live (wf : r.Wf cfg) (i : Nat) :
    (r.disconnected cfg h).Live i ↔ i ≠ h ∧ r.Live i := by
  unfold Registry.Live
  rcases eq_or_ne i h with rfl | same
  · have conns := (wf.entries i).conns
    rw [disconnected_conns]
    constructor
    · intro live
      omega
    · rintro ⟨other, -⟩
      exact absurd rfl other
  · obtain ⟨credit, entry⟩ := disconnected_fg_of_ne cfg r same
    simp [entry, same]

theorem disconnected_critical (cfg : Cfg) (r : Registry) (h i : Nat) :
    ((r.disconnected cfg h).nvmeFgs i).latencyCriticalFlag = (r.nvmeFgs i).latencyCriticalFlag := by
  rcases eq_or_ne i h with rfl | same
  · obtain ⟨credit, entry⟩ := disconnected_fg_self cfg r i
    rw [entry]
  · obtain ⟨credit, entry⟩ := disconnected_fg_of_ne cfg r same
    rw [entry]

theorem prepared_fg_of_ne (cfg : Cfg) (r : Registry) (slo : SLO)
    (other : j ≠ r.slotFor cpu flowGroupId) :
    ∃ credit, (r.prepared cfg cpu flowGroupId slo).nvmeFgs j = { r.nvmeFgs j with scaledIOPuSLimit := credit } := by
  cases found : r.search cpu flowGroupId with
  | already i =>
    by_cases same : (r.nvmeFgs i).slo = slo
    · rw [prepared_of_same found same]
      exact ⟨_, rfl⟩
    · rw [prepared_of_changed found same]
      rw [slotFor_of_already found] at other
      exact disconnected_fg_of_ne cfg r other
  | nextAvail i =>
    rw [prepared_of_new found]
    exact ⟨_, rfl⟩

theorem registered_fg_of_ne (cfg : Cfg) (r : Registry) (cookie : UInt64) (slo : SLO)
    (swq : Option Nat) (other : j ≠ r.slotFor cpu flowGroupId) :
    ∃ credit, (r.registered cfg cpu flowGroupId cookie slo swq).nvmeFgs j = { r.nvmeFgs j with scaledIOPuSLimit := credit } := by
  obtain ⟨credit, before⟩ := prepared_fg_of_ne cfg r slo other
  have candidate : (r.candidate cfg cpu flowGroupId cookie slo).nvmeFgs j = { r.nvmeFgs j with scaledIOPuSLimit := credit } := by
    rw [candidate, setFg_of_ne _ _ other, before]
  unfold registered
  simp only
  split
  · exact ⟨credit, candidate⟩
  · split
    · exact ⟨_, by rw [publishRates_fg, counted_nvmeFgs, candidate]⟩
    · exact ⟨_, by rw [connected, setFg_of_ne _ _ other, publishRates_fg, counted_nvmeFgs, candidate]⟩

theorem registered_owner (cfg : Cfg) (r : Registry) (cpu : Nat) (flowGroupId : Int64) (cookie : UInt64) (slo : SLO)
    (swq : Option Nat) :
    ((r.registered cfg cpu flowGroupId cookie slo swq).nvmeFgs (r.slotFor cpu flowGroupId)).flowGroupId = flowGroupId.toInt32 ∧
      ((r.registered cfg cpu flowGroupId cookie slo swq).nvmeFgs (r.slotFor cpu flowGroupId)).tid = cpu := by
  unfold registered
  simp only
  split
  · simp [refusedFlag, candidate, fillFlowGroup]
  · split
    · simp [candidate, fillFlowGroup]
    · simp [connected, candidate, fillFlowGroup]

theorem registered_entry_of_failed {cookie swq} (failed : r.Refused cfg cpu flowGroupId cookie slo ∨ swq = none) :
    ∃ credit, (r.registered cfg cpu flowGroupId cookie slo swq).nvmeFgs (r.slotFor cpu flowGroupId) =
      { fillFlowGroup cfg ((r.prepared cfg cpu flowGroupId slo).nvmeFgs (r.slotFor cpu flowGroupId)) cpu flowGroupId cookie slo
        with scaledIOPuSLimit := credit } := by
  unfold registered
  by_cases refused : r.Refused cfg cpu flowGroupId cookie slo
  · refine ⟨((r.prepared cfg cpu flowGroupId slo).nvmeFgs (r.slotFor cpu flowGroupId)).scaledIOPuSLimit, ?_⟩
    simp only [refused, if_true, refusedFlag, candidate, setFg_self]
    rfl
  · obtain rfl := failed.resolve_left refused
    refine ⟨((r.candidate cfg cpu flowGroupId cookie slo).counted cfg (r.slotFor cpu flowGroupId)).creditDue
      (r.slotFor cpu flowGroupId), ?_⟩
    simp only [refused, if_false, publishRates_fg, counted_nvmeFgs, candidate, setFg_self]

theorem registered_entry_of_granted {cookie}
    (admitted : ¬ r.Refused cfg cpu flowGroupId cookie slo) (q : Nat) :
    ∃ credit, (r.registered cfg cpu flowGroupId cookie slo (some q)).nvmeFgs (r.slotFor cpu flowGroupId) =
      { fillFlowGroup cfg ((r.prepared cfg cpu flowGroupId slo).nvmeFgs (r.slotFor cpu flowGroupId)) cpu flowGroupId cookie slo
        with scaledIOPuSLimit := credit, nvmeSwq := some q, connRefCount := 1 } := by
  refine ⟨((r.candidate cfg cpu flowGroupId cookie slo).counted cfg (r.slotFor cpu flowGroupId)).creditDue
    (r.slotFor cpu flowGroupId), ?_⟩
  rw [registered_granted admitted, connected, setFg_self, publishRates_fg, counted_nvmeFgs, candidate,
    setFg_self]

theorem candidate_conns (cfg : Cfg) (r : Registry) (cpu : Nat) (flowGroupId : Int64) (cookie : UInt64) (slo : SLO) :
    ((r.candidate cfg cpu flowGroupId cookie slo).nvmeFgs (r.slotFor cpu flowGroupId)).connRefCount =
      ((r.prepared cfg cpu flowGroupId slo).nvmeFgs (r.slotFor cpu flowGroupId)).connRefCount := by
  rw [candidate, setFg_self, fillFlowGroup_conns]

theorem prepared_idle (wf : r.Wf cfg)
    (spare : r.SpareSlot cpu flowGroupId) (new : ¬ r.Reconnects cpu flowGroupId slo) :
    ((r.prepared cfg cpu flowGroupId slo).nvmeFgs (r.slotFor cpu flowGroupId)).connRefCount ≤ 0 := by
  unfold prepared slotFor
  cases found : r.search cpu flowGroupId with
  | already i =>
    by_cases same : (r.nvmeFgs i).slo = slo
    · have idle : ¬ r.Live i := fun live => new ⟨i, found, live, same⟩
      simpa [SlotSearch.handle, same, Registry.Live] using idle
    · have conns := (wf.entries i).conns
      simp only [SlotSearch.handle, ne_eq, same, not_false_eq_true, if_true, disconnected_conns]
      omega
  | nextAvail i => simpa [SlotSearch.handle, Registry.Live] using spare i found

theorem candidate_of_idle (cfg : Cfg)
    (slot : r.slotFor cpu flowGroupId = h) (idle : ¬ r.Live h) (cookie : UInt64) (slo : SLO) :
    ∃ n ≤ 0, r.candidate cfg cpu flowGroupId cookie slo = { r with
      nvmeFgs := update r.nvmeFgs h
        (fillFlowGroup cfg { r.nvmeFgs h with connRefCount := n } cpu flowGroupId cookie slo)
      nvmeFgsBitmap := update r.nvmeFgsBitmap h true } := by
  have conns : (r.nvmeFgs h).connRefCount ≤ 0 := not_lt.1 idle
  subst slot
  cases found : r.search cpu flowGroupId with
  | already i =>
    rw [slotFor_of_already found] at conns ⊢
    have bit : update r.nvmeFgsBitmap i true = r.nvmeFgsBitmap := by
      rw [← (search_already found).2.2.1, update_eq_self]
    by_cases same : (r.nvmeFgs i).slo = slo
    · refine ⟨_, conns, ?_⟩
      rw [candidate, prepared_of_same found same, slotFor_of_already found, bit]
      rfl
    · refine ⟨(r.nvmeFgs i).connRefCount - 1, by omega, ?_⟩
      rw [candidate, prepared_of_changed found same, slotFor_of_already found, disconnected, if_neg (by omega), bit]
      simp [dropConn, setFg]
  | nextAvail i =>
    rw [slotFor_of_new found] at conns ⊢
    exact ⟨_, conns, candidate_of_new found cookie slo⟩

theorem RegStep.wf {t op} (step : RegStep cfg s op t) (wf : s.Wf cfg) : t.Wf cfg := by
  obtain ⟨-, rfl⟩ := step
  cases op with
  | register cpu flowGroupId cookie slo swq =>
    rw [next_register]
    exact wf.registered cpu flowGroupId cookie slo swq
  | unregister cpu h =>
    rw [next_unregister]
    exact wf.disconnected h
  | nvmeOpen cpu nsSize nsSectorSize =>
    simp only [next, run, bsysNvmeOpen]
    split
    · exact wf
    · exact ⟨wf.1, wf.2, wf.3, wf.4⟩

theorem reachable_wf {now tsc ops}
    (run : Run (RegStep cfg) (NvmeState.init now tsc) ops s) : s.Wf cfg :=
  run.invariant (I := fun s => s.Wf cfg) (fun _ _ _ => RegStep.wf) (init_wf cfg)

/-! ## A first flow

Thread 0 registers flow 1 with no latency; the pool returns queue 0. The concrete runs of
the development start from here. -/

def coldState : NvmeState := .init (fun _ => 0) fun _ => 0

def bestEffortSLO : SLO := ⟨0, 0, 100⟩

def firstFlow : RegOp := .register 0 1 0 bestEffortSLO (some 0)

def oneFlowTable : Registry :=
  { Registry.init with
    nvmeFgs := Function.update Registry.init.nvmeFgs 1 ⟨1, 0, bestEffortSLO, 0, 0, false, some 0, 0, 1⟩
    nvmeFgsBitmap := Function.update Registry.init.nvmeFgsBitmap 1 true
    globalNumBestEffortTenants := 1
    globalReadonlyFlag := false
    globalBeTokenRatePerTenant := -1 }

structure OneFlow (s : NvmeState) : Prop where
  table : s.toRegistry = oneFlowTable
  manager : s.nvmeTenantManager 0 = ⟨[0], 1, 1⟩
  allocated : s.swqAllocated = Function.update (fun _ => false) 0 true
  queue : s.swqs 0 = nvmeSwQueueInit .zero 1

theorem registered_firstFlow : init.registered flatCfg 0 1 0 bestEffortSLO (some 0) = oneFlowTable := by
  have slot : init.slotFor 0 1 = 1 := by rw [slotFor, search_init]; rfl
  have limit : (fillFlowGroup flatCfg .zero 0 1 0 bestEffortSLO).scaledIOPSLimit = 0 := by
    rw [fillFlowGroup_limit, SLO.limit, bestEffortSLO, scaledIOPS_zero, Nat.zero_div]
  have entry : fillFlowGroup flatCfg .zero 0 1 0 bestEffortSLO = ⟨1, 0, bestEffortSLO, 0, 0, false, none, 0, 0⟩ := by
    rw [← limit]
    rfl
  rw [registered_bestEffort (prepared_of_new (search_init 0 1)) slot rfl rfl (by decide)]
  simp only [setBit_nvmeFgs, show init.nvmeFgs 1 = FlowGroup.zero from rfl, entry]
  rfl

theorem oneFlow_of_cold (table : s.toRegistry = .init) (manager : s.nvmeTenantManager 0 = .empty)
    (allocated : s.swqAllocated = fun _ => false) (queue : s.swqs 0 = .zero) :
    RegStep flatCfg s firstFlow (firstFlow.next flatCfg s) ∧ OneFlow (firstFlow.next flatCfg s) := by
  have found : s.search 0 1 = .nextAvail 1 := table ▸ search_init 0 1
  have admitted : ¬ s.Refused flatCfg 0 1 0 bestEffortSLO := fun refused => refused_critical refused rfl
  have granted := congrArg Prod.snd (register_granted admitted 0)
  rw [prepareFlow_of_new found, slotFor, found] at granted
  refine ⟨⟨fresh_of_free (by rw [allocated]), rfl⟩, ?_, ?_, ?_, ?_⟩
  · rw [firstFlow, next_register, table, registered_firstFlow]
  · rw [firstFlow, next, run, granted]
    simp [linkFlow, NvmeState.post, NvmeState.setManager, NvmeState.setSwq, manager, TenantMgmt.empty, bestEffortSLO]
  · rw [firstFlow, next, run, granted]
    simp [linkFlow, NvmeState.post, NvmeState.setManager, NvmeState.setSwq, allocated]
  · rw [firstFlow, next, run, granted]
    simp [linkFlow, NvmeState.post, NvmeState.setManager, NvmeState.setSwq, queue, SlotSearch.handle]

theorem exists_oneFlow : ∃ s, Run (RegStep flatCfg) coldState [firstFlow] s ∧ OneFlow s := by
  obtain ⟨step, one⟩ := oneFlow_of_cold (s := coldState) rfl rfl rfl rfl
  exact ⟨_, .single step, one⟩

theorem oneFlow_search (one : OneFlow s) : s.search 0 1 = .already 1 := by
  rw [one.table]
  exact search_eq_already (le_refl 1) (by unfold maxNvmeFlowGroups; decide) rfl fun j lower upper => by omega

theorem oneFlow_search_other (one : OneFlow s) : s.search 0 2 = .nextAvail 2 := by
  rw [one.table]
  refine search_eq_nextAvail (by decide) (by unfold maxNvmeFlowGroups; decide) rfl (fun j lower upper => ?_) fun j _ _ => ?_
  · obtain rfl : j = 1 := by omega
    rfl
  · rcases eq_or_ne j 1 with rfl | first
    · rfl
    · simp [holds, oneFlowTable, first, init]

end Reflex.Nvme
