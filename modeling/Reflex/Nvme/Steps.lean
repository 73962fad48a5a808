import Reflex.Lib.Run
import Reflex.Nvme.Rates

/-!
# What the registration calls do to the table

Each call's effect on the registry as one expression: `Registry.disconnected` for `bsys_nvme_unregister_flow`,
`Registry.registered` for `bsys_nvme_register_flow`. `RegOp` collects the calls and `RegStep` their runs, in
which the queue pool hands out an element only while it is free.
-/

namespace Reflex.Nvme
open Lib Registry Function

variable {cfg : Cfg} {cpu i h q : Nat} {flowGroupId : Int64} {slo : SLO} {r : Registry} {s : NvmeState}
  {cookie : UInt64}

/-- The table once slot `h` is released. -/
def Registry.released (cfg : Cfg) (r : Registry) (h : Nat) : Registry := (publishRates (r.uncounted cfg h)).setBit h false

def Registry.dropConn (r : Registry) (h : Nat) : Registry :=
  r.setFg h { r.nvmeFgs h with connRefCount := (r.nvmeFgs h).connRefCount - 1 }

@[simp] theorem dropConn_conns (r : Registry) (h : Nat) :
    ((r.dropConn h).nvmeFgs h).connRefCount = (r.nvmeFgs h).connRefCount - 1 := by
  simp [dropConn]

@[simp] theorem dropConn_of_ne (r : Registry) {j} (other : j ≠ h) : (r.dropConn h).nvmeFgs j = r.nvmeFgs j := by
  simp [dropConn, other]

def Registry.disconnected (cfg : Cfg) (r : Registry) (h : Nat) : Registry :=
  if (r.nvmeFgs h).connRefCount = 1 then (r.dropConn h).released cfg h else r.dropConn h

/-- The table when a registration starts to write its slot. -/
def Registry.prepared (cfg : Cfg) (r : Registry) (cpu : Nat) (flowGroupId : Int64) (slo : SLO) : Registry :=
  match r.search cpu flowGroupId with
  | .already i => if (r.nvmeFgs i).slo ≠ slo then r.disconnected cfg i else r
  | .nextAvail i => r.setBit i true

def Registry.slotFor (r : Registry) (cpu : Nat) (flowGroupId : Int64) : Nat := (r.search cpu flowGroupId).handle

/-- The table before the admission check. -/
def Registry.candidate (cfg : Cfg) (r : Registry) (cpu : Nat) (flowGroupId : Int64) (cookie : UInt64) (slo : SLO) : Registry :=
  (r.prepared cfg cpu flowGroupId slo).setFg (r.slotFor cpu flowGroupId)
    (fillFlowGroup cfg ((r.prepared cfg cpu flowGroupId slo).nvmeFgs (r.slotFor cpu flowGroupId)) cpu flowGroupId cookie slo)

/-- The admission check refuses this registration. -/
def Registry.Refused (cfg : Cfg) (r : Registry) (cpu : Nat) (flowGroupId : Int64) (cookie : UInt64) (slo : SLO) : Prop :=
  (r.candidate cfg cpu flowGroupId cookie slo).refuses cfg (r.slotFor cpu flowGroupId)

instance (cfg : Cfg) (r : Registry) (cpu : Nat) (flowGroupId : Int64) (cookie : UInt64) (slo : SLO) :
    Decidable (r.Refused cfg cpu flowGroupId cookie slo) := inferInstanceAs (Decidable (Registry.refuses _ _ _))

/-- The first connection of slot `h`, with queue `q`. -/
def Registry.connected (r : Registry) (h q : Nat) : Registry :=
  r.setFg h { r.nvmeFgs h with nvmeSwq := some q, connRefCount := 1 }

def Registry.registered (cfg : Cfg) (r : Registry) (cpu : Nat) (flowGroupId : Int64) (cookie : UInt64) (slo : SLO)
    (swq : Option Nat) : Registry :=
  let h := r.slotFor cpu flowGroupId
  let c := r.candidate cfg cpu flowGroupId cookie slo
  if r.Refused cfg cpu flowGroupId cookie slo then c.refusedFlag h
  else match swq with
    | none => publishRates (c.counted cfg h)
    | some q => (publishRates (c.counted cfg h)).connected h q

@[simp] theorem post_toRegistry (s : NvmeState) (cpu : Nat) (e : UsysEvent) : (s.post cpu e).toRegistry = s.toRegistry := rfl

@[simp] theorem setManager_toRegistry (s : NvmeState) (cpu : Nat) (m : TenantMgmt) :
    (s.setManager cpu m).toRegistry = s.toRegistry := rfl

@[simp] theorem dropQueue_toRegistry (s : NvmeState) (fg : FlowGroup) : (dropQueue s fg).toRegistry = s.toRegistry := by
  unfold dropQueue; split <;> rfl

theorem releaseFlow_toRegistry (cfg : Cfg) (s : NvmeState) (cpu h : Nat) :
    (releaseFlow cfg s cpu h).toRegistry = s.toRegistry.released cfg h := by
  simp only [releaseFlow, setManager_toRegistry, dropQueue_toRegistry, recalculateWeightsRemove_eq, released]

theorem unregister_toRegistry (cfg : Cfg) (s : NvmeState) (cpu h : Nat) :
    (bsysNvmeUnregisterFlow cfg s cpu h).2.toRegistry = s.toRegistry.disconnected cfg h := by
  unfold bsysNvmeUnregisterFlow disconnected
  by_cases last : (s.nvmeFgs h).connRefCount = 1
  · simp only [last, Int.sub_self, if_true, post_toRegistry, releaseFlow_toRegistry]
    simp only [dropConn, last, Int.sub_self]
  · have more : ¬ (s.nvmeFgs h).connRefCount - 1 = 0 := by omega
    simp only [last, more, if_false, post_toRegistry]
    rfl

theorem prepareFlow_fst (cfg : Cfg) (s : NvmeState) (cpu : Nat) (flowGroupId : Int64) (slo : SLO) :
    (prepareFlow cfg s cpu flowGroupId slo).1 = s.slotFor cpu flowGroupId := by
  unfold prepareFlow slotFor
  rw [setNvmeFlowGroupId_eq]
  cases s.search cpu flowGroupId with
  | already i => simp only [SlotSearch.handle]; split <;> rfl
  | nextAvail i => simp [SlotSearch.handle]

theorem prepareFlow_toRegistry (cfg : Cfg) (s : NvmeState) (cpu : Nat) (flowGroupId : Int64) (slo : SLO) :
    (prepareFlow cfg s cpu flowGroupId slo).2.toRegistry = s.toRegistry.prepared cfg cpu flowGroupId slo := by
  unfold prepareFlow prepared
  rw [setNvmeFlowGroupId_eq]
  cases s.search cpu flowGroupId with
  | already i =>
    by_cases same : (s.nvmeFgs i).slo = slo
    · simp [same]
    · simp [same, unregister_toRegistry]
  | nextAvail i => simp

theorem prepareFlow_of_new
    (found : s.search cpu flowGroupId = .nextAvail i) :
    prepareFlow cfg s cpu flowGroupId slo = (i, { s with toRegistry := s.setBit i true }) := by
  simp [prepareFlow, setNvmeFlowGroupId_eq, found]

theorem prepareFlow_of_same
    (found : s.search cpu flowGroupId = .already i) (same : (s.nvmeFgs i).slo = slo) :
    prepareFlow cfg s cpu flowGroupId slo = (i, s) := by
  simp [prepareFlow, setNvmeFlowGroupId_eq, found, same]

theorem prepareFlow_of_changed
    (found : s.search cpu flowGroupId = .already i) (other : (s.nvmeFgs i).slo ≠ slo) :
    prepareFlow cfg s cpu flowGroupId slo = (i, (bsysNvmeUnregisterFlow cfg s cpu i).2) := by
  simp [prepareFlow, setNvmeFlowGroupId_eq, found, other]

theorem register_eq (cfg : Cfg) (s : NvmeState) (cpu : Nat) (flowGroupId : Int64) (cookie : UInt64) (slo : SLO) (swq : Option Nat) :
    bsysNvmeRegisterFlow cfg s cpu flowGroupId cookie slo swq =
      let h := s.slotFor cpu flowGroupId
      let c := s.toRegistry.candidate cfg cpu flowGroupId cookie slo
      let s' := (prepareFlow cfg s cpu flowGroupId slo).2
      if s.Refused cfg cpu flowGroupId cookie slo then (-retCantmeetslo, { s' with toRegistry := c.refusedFlag h })
      else match swq with
        | none => (-retNomem, { s' with toRegistry := publishRates (c.counted cfg h) })
        | some q => (retOk, linkFlow { s' with toRegistry := publishRates (c.counted cfg h) } cpu h cookie slo q) := by
  have candidate : (prepareFlow cfg s cpu flowGroupId slo).2.setFg (s.slotFor cpu flowGroupId)
      (fillFlowGroup cfg ((prepareFlow cfg s cpu flowGroupId slo).2.nvmeFgs (s.slotFor cpu flowGroupId)) cpu flowGroupId cookie
        slo) = s.toRegistry.candidate cfg cpu flowGroupId cookie slo := by
    rw [candidate, ← prepareFlow_toRegistry]
  simp only [bsysNvmeRegisterFlow, prepareFlow_fst, candidate, recalculateWeightsAdd_eq, Registry.Refused]
  by_cases refused : (s.toRegistry.candidate cfg cpu flowGroupId cookie slo).refuses cfg (s.slotFor cpu flowGroupId)
  · simp [refused, retCantmeetslo]
  · simp only [refused, if_false]
    cases swq <;> simp [retOk]

theorem register_granted
    (admitted : ¬ s.Refused cfg cpu flowGroupId cookie slo) (q : Nat) :
    bsysNvmeRegisterFlow cfg s cpu flowGroupId cookie slo (some q) =
      (retOk, linkFlow { (prepareFlow cfg s cpu flowGroupId slo).2 with
        toRegistry := publishRates ((s.candidate cfg cpu flowGroupId cookie slo).counted cfg (s.slotFor cpu flowGroupId)) }
        cpu (s.slotFor cpu flowGroupId) cookie slo q) := by
  simp only [register_eq, admitted, if_false]

theorem register_toRegistry (cfg : Cfg) (s : NvmeState) (cpu : Nat) (flowGroupId : Int64) (cookie : UInt64) (slo : SLO)
    (swq : Option Nat) :
    (bsysNvmeRegisterFlow cfg s cpu flowGroupId cookie slo swq).2.toRegistry =
      s.toRegistry.registered cfg cpu flowGroupId cookie slo swq := by
  rw [register_eq]
  unfold registered
  by_cases refused : s.Refused cfg cpu flowGroupId cookie slo
  · simp only [refused, if_true]
  · simp only [refused, if_false]
    cases swq <;> rfl

/-! ## The table of a registration, by what the search finds -/

theorem prepared_of_new
    (found : r.search cpu flowGroupId = .nextAvail i) : r.prepared cfg cpu flowGroupId slo = r.setBit i true := by
  simp [prepared, found]

theorem prepared_of_same
    (found : r.search cpu flowGroupId = .already i) (same : (r.nvmeFgs i).slo = slo) :
    r.prepared cfg cpu flowGroupId slo = r := by
  simp [prepared, found, same]

theorem prepared_of_changed
    (found : r.search cpu flowGroupId = .already i) (other : (r.nvmeFgs i).slo ≠ slo) :
    r.prepared cfg cpu flowGroupId slo = r.disconnected cfg i := by
  simp [prepared, found, other]

theorem slotFor_of_new
    (found : r.search cpu flowGroupId = .nextAvail i) : r.slotFor cpu flowGroupId = i := by
  rw [slotFor, found, SlotSearch.handle]

theorem slotFor_of_already
    (found : r.search cpu flowGroupId = .already i) : r.slotFor cpu flowGroupId = i := by
  rw [slotFor, found, SlotSearch.handle]

theorem candidate_of_new
    (found : r.search cpu flowGroupId = .nextAvail i) (cookie : UInt64) (slo : SLO) :
    r.candidate cfg cpu flowGroupId cookie slo = { r with
      nvmeFgs := update r.nvmeFgs i (fillFlowGroup cfg (r.nvmeFgs i) cpu flowGroupId cookie slo)
      nvmeFgsBitmap := update r.nvmeFgsBitmap i true } := by
  rw [candidate, prepared_of_new found, slotFor_of_new found]
  rfl

theorem registered_granted
    (admitted : ¬ r.Refused cfg cpu flowGroupId cookie slo) (q : Nat) :
    r.registered cfg cpu flowGroupId cookie slo (some q) =
      (publishRates ((r.candidate cfg cpu flowGroupId cookie slo).counted cfg (r.slotFor cpu flowGroupId))).connected
        (r.slotFor cpu flowGroupId) q := by
  simp only [registered, admitted, if_false]

/-- The table once a new flow has been admitted in slot `i` and connected to queue `q`. -/
def Registry.arrived (cfg : Cfg) (r : Registry) (i cpu : Nat) (flowGroupId : Int64) (cookie : UInt64) (slo : SLO) (q : Nat) :
    Registry :=
  (Registry.counted cfg { r with
    nvmeFgs := Function.update r.nvmeFgs i (fillFlowGroup cfg (r.nvmeFgs i) cpu flowGroupId cookie slo)
    nvmeFgsBitmap := Function.update r.nvmeFgsBitmap i true } i).published.connected i q

theorem registered_new
    (found : r.search cpu flowGroupId = .nextAvail i) (admitted : ¬ r.Refused cfg cpu flowGroupId cookie slo) (q : Nat) :
    r.registered cfg cpu flowGroupId cookie slo (some q) = r.arrived cfg i cpu flowGroupId cookie slo q := by
  rw [registered_granted admitted, slotFor_of_new found, candidate_of_new found, publishRates_eq]
  rfl

@[simp] theorem arrived_bitmap (cfg : Cfg) (r : Registry) (i cpu : Nat) (flowGroupId : Int64) (cookie : UInt64) (slo : SLO)
    (q : Nat) : (r.arrived cfg i cpu flowGroupId cookie slo q).nvmeFgsBitmap = update r.nvmeFgsBitmap i true := by
  rw [arrived, ← publishRates_eq, connected, setFg_bitmap, publishRates_bitmap, counted_bitmap]

theorem refused_critical
    (refused : r.Refused cfg cpu flowGroupId cookie slo) : slo.latencyUsSLO ≠ 0 := by
  have critical := refused.1
  rw [candidate, setFg_self] at critical
  simpa [fillFlowGroup] using critical

/-! ## Best-effort flows while no boost is given

No readjust pass runs, so the table after the call is its slot and its counter. -/

/-- A best-effort registration that gets its queue, from the table `p` it prepared. -/
theorem registered_bestEffort {p}
    (prepared : r.prepared cfg cpu flowGroupId slo = p) (slot : r.slotFor cpu flowGroupId = h)
    (be : slo.latencyUsSLO = 0) (quiet : p.globalLcBoostNoBE = 0) (room : p.globalNumBestEffortTenants + 1 < 2 ^ 64)
    (cookie : UInt64) (q : Nat) :
    r.registered cfg cpu flowGroupId cookie slo (some q) = { p with
      nvmeFgs := update p.nvmeFgs h
        { fillFlowGroup cfg (p.nvmeFgs h) cpu flowGroupId cookie slo with nvmeSwq := some q, connRefCount := 1 }
      globalNumBestEffortTenants := p.globalNumBestEffortTenants + 1
      globalReadonlyFlag := false
      globalBeTokenRatePerTenant :=
        (beTokenRatePerTenant p.globalTokenRate p.globalLCSumTokenRate (p.globalNumBestEffortTenants + 1)).toInt32 } := by
  have admitted : ¬ r.Refused cfg cpu flowGroupId cookie slo := fun refused => refused_critical refused be
  have effort : ((p.setFg h (fillFlowGroup cfg (p.nvmeFgs h) cpu flowGroupId cookie slo)).nvmeFgs h).latencyCriticalFlag = false := by
    simp [fillFlowGroup, be]
  simp only [registered, admitted, if_false, candidate, prepared, slot, counted, effort,
    Bool.false_eq_true]
  rw [publishRates_of_same]
  · simp [connected, setFg, beRateDue, wadd_of_lt room]
  · rw [boostDue_of_be]
    · exact quiet.symm
    · simp [setFg, wadd_of_lt room]

/-- The registration calls. `swq` is what the queue pool returns to the call. -/
inductive RegOp where
  | register (cpu : Nat) (flowGroupId : Int64) (cookie : UInt64) (slo : SLO) (swq : Option Nat)
  | unregister (cpu : Nat) (fgHandle : Nat)
  | nvmeOpen (cpu : Nat) (nsSize nsSectorSize : Int)
  deriving DecidableEq

def RegOp.run (cfg : Cfg) (s : NvmeState) : RegOp → Int × NvmeState
  | .register cpu flowGroupId cookie slo swq => bsysNvmeRegisterFlow cfg s cpu flowGroupId cookie slo swq
  | .unregister cpu fgHandle => bsysNvmeUnregisterFlow cfg s cpu fgHandle
  | .nvmeOpen cpu nsSize nsSectorSize => bsysNvmeOpen s cpu nsSize nsSectorSize

/-- The pool hands out only elements that are free, at the time it is asked: the queue of
an SLO that has just been replaced may come back. -/
def RegOp.Fresh (cfg : Cfg) (s : NvmeState) : RegOp → Prop
  | .register cpu flowGroupId _ slo (some q) => (prepareFlow cfg s cpu flowGroupId slo).2.swqAllocated q = false
  | _ => True

def RegOp.next (cfg : Cfg) (s : NvmeState) (op : RegOp) : NvmeState := (op.run cfg s).2

def RegStep (cfg : Cfg) : NvmeState → RegOp → NvmeState → Prop := Applies (RegOp.next cfg) (RegOp.Fresh cfg)

theorem RegStep.guarded {cfg ok s} {op : RegOp} (fresh : op.Fresh cfg s)
    (meets : ok s op) : Guarded (RegStep cfg) ok s op (op.next cfg s) := ⟨⟨fresh, rfl⟩, meets⟩

theorem unregister_pool (free : s.swqAllocated q = false) :
    (bsysNvmeUnregisterFlow cfg s cpu h).2.swqAllocated q = false := by
  have dropped : ∀ u : NvmeState, u.swqAllocated = s.swqAllocated → ∀ fg, (dropQueue u fg).swqAllocated q = false := by
    intro u pool fg
    unfold dropQueue
    split
    · rename_i k _
      by_cases same : q = k
      · simp [same]
      · simp [same, pool, free]
    · rw [pool, free]
  simp only [bsysNvmeUnregisterFlow, NvmeState.post]
  split
  · simp only [releaseFlow, NvmeState.setManager]
    apply dropped
    rfl
  · exact free

theorem prepareFlow_pool
    (free : s.swqAllocated q = false) : (prepareFlow cfg s cpu flowGroupId slo).2.swqAllocated q = false := by
  unfold prepareFlow
  simp only
  split
  · exact unregister_pool free
  · exact free

theorem fresh_of_free
    (free : s.swqAllocated q = false) : (RegOp.register cpu flowGroupId cookie slo (some q)).Fresh cfg s := prepareFlow_pool free

theorem next_register (cfg : Cfg) (s : NvmeState) (cpu : Nat) (flowGroupId : Int64) (cookie : UInt64) (slo : SLO)
    (swq : Option Nat) :
    ((RegOp.register cpu flowGroupId cookie slo swq).next cfg s).toRegistry =
      s.toRegistry.registered cfg cpu flowGroupId cookie slo swq := register_toRegistry cfg s cpu flowGroupId cookie slo swq

theorem next_unregister (cfg : Cfg) (s : NvmeState) (cpu h : Nat) :
    ((RegOp.unregister cpu h).next cfg s).toRegistry = s.toRegistry.disconnected cfg h := unregister_toRegistry cfg s cpu h

theorem exists_arrival
    (found : s.search cpu flowGroupId = .nextAvail i) (cookie : UInt64)
    (admitted : ¬ s.Refused cfg cpu flowGroupId cookie slo) (free : s.swqAllocated q = false) :
    ∃ t, RegStep cfg s (.register cpu flowGroupId cookie slo (some q)) t ∧
      t.toRegistry = s.arrived cfg i cpu flowGroupId cookie slo q ∧ t.swqAllocated = update s.swqAllocated q true := by
  refine ⟨_, ⟨fresh_of_free free, rfl⟩, ?_, ?_⟩
  · rw [next_register, registered_new found admitted]
  · rw [RegOp.next, RegOp.run, register_granted admitted, prepareFlow_of_new found]
    rfl

end Reflex.Nvme
