import Reflex.Nvme.Rounds
import Reflex.Nvme.Threads

/-!
# Tenants and the thread lists

A connected flow group has one queue, linked into the list of the thread that registered it, and the lists
hold nothing else: `Linked`.
-/

namespace Reflex.Nvme
open Lib NvmeState Function List

variable {cfg : Cfg} {s t : NvmeState} {q : Nat} {ret : Int} {op : IoOp} {ctx : NvmeCtx}

structure Linked (s : NvmeState) : Prop where
  nodup : ∀ t, (s.nvmeTenantManager t).tenantSwq.Nodup
  owner : ∀ t q, q ∈ (s.nvmeTenantManager t).tenantSwq →
    s.Live (s.swqs q).fgHandle ∧ (s.nvmeFgs (s.swqs q).fgHandle).nvmeSwq = some q ∧
      (s.nvmeFgs (s.swqs q).fgHandle).tid = t ∧ s.swqAllocated q = true
  listed : ∀ h, s.Live h → ∃ q, (s.nvmeFgs h).nvmeSwq = some q ∧ (s.swqs q).fgHandle = h ∧
    q ∈ (s.nvmeTenantManager (s.nvmeFgs h).tid).tenantSwq
  numTenants : ∀ t, (s.nvmeTenantManager t).numTenants = (s.nvmeTenantManager t).tenantSwq.length
  numBestEffort : ∀ t, (s.nvmeTenantManager t).numBestEffortTenants =
    (s.nvmeTenantManager t).tenantSwq.countP fun q => !s.critical q

/-- The connected slots and what links them to the lists are the same. -/
structure SameLinks (r r' : Registry) : Prop where
  live : ∀ h, r'.Live h ↔ r.Live h
  queue : ∀ h, r.Live h → (r'.nvmeFgs h).nvmeSwq = (r.nvmeFgs h).nvmeSwq
  thread : ∀ h, r.Live h → (r'.nvmeFgs h).tid = (r.nvmeFgs h).tid
  critical : ∀ h, r.Live h → (r'.nvmeFgs h).latencyCriticalFlag = (r.nvmeFgs h).latencyCriticalFlag

theorem SameLinks.of_fgs {r r' : Registry} (same : r'.nvmeFgs = r.nvmeFgs) : SameLinks r r' := by
  refine ⟨fun h => ?_, fun h _ => ?_, fun h _ => ?_, fun h _ => ?_⟩
  · rw [Registry.Live, Registry.Live, same]
  · rw [same]
  · rw [same]
  · rw [same]

namespace Linked

theorem congr (linked : Linked s) (links : SameLinks s.toRegistry t.toRegistry)
    (managers : t.nvmeTenantManager = s.nvmeTenantManager) (pool : t.swqAllocated = s.swqAllocated)
    (handles : ∀ q, (t.swqs q).fgHandle = (s.swqs q).fgHandle) : Linked t := by
  refine ⟨?_, fun i q mem => ?_, fun h live => ?_, ?_, fun i => ?_⟩
  · rw [managers]
    exact linked.nodup
  · rw [managers] at mem
    obtain ⟨live, queue, thread, allocated⟩ := linked.owner i q mem
    rw [handles q, pool]
    exact ⟨(links.live _).2 live, (links.queue _ live).trans queue, (links.thread _ live).trans thread, allocated⟩
  · have live := (links.live h).1 live
    obtain ⟨q, queue, handle, mem⟩ := linked.listed h live
    refine ⟨q, (links.queue h live).trans queue, (handles q).trans handle, ?_⟩
    rw [managers, links.thread h live]
    exact mem
  · rw [managers]
    exact linked.numTenants
  · rw [managers, linked.numBestEffort i]
    congr 1
    apply countP_congr
    intro q mem
    have live := (linked.owner i q mem).1
    rw [critical, critical, handles q, links.critical _ live]

theorem sameTenants (linked : Linked s) (same : SameTenants s t) : Linked t :=
  linked.congr (.of_fgs (by rw [same.registry])) same.managers same.pool same.handles

theorem not_listed (linked : Linked s) (free : s.swqAllocated q = false) (i : Nat) :
    q ∉ (s.nvmeTenantManager i).tenantSwq := by
  intro mem
  have allocated := (linked.owner i q mem).2.2.2
  rw [free] at allocated
  cases allocated

end Linked

/-! ## Leaving -/

theorem sameLinks_of_kept (cfg : Cfg) {r : Registry} {h} (idle : ¬ r.Live h) : SameLinks r (r.disconnected cfg h) := by
  have fields : ∀ j, j ≠ h → ∃ credit, (r.disconnected cfg h).nvmeFgs j = { r.nvmeFgs j with scaledIOPuSLimit := credit } :=
    fun j other => disconnected_fg_of_ne cfg r other
  have away : ∀ j, r.Live j → j ≠ h := fun j live same => idle (same ▸ live)
  refine ⟨fun j => ?_, fun j live => ?_, fun j live => ?_, fun j live => ?_⟩
  · rcases eq_or_ne j h with rfl | same
    · have conns := disconnected_conns cfg r j
      unfold Registry.Live at idle ⊢
      rw [conns]
      omega
    · obtain ⟨credit, entry⟩ := fields j same
      rw [Registry.Live, Registry.Live, entry]
  · obtain ⟨credit, entry⟩ := fields j (away j live)
    rw [entry]
  · obtain ⟨credit, entry⟩ := fields j (away j live)
    rw [entry]
  · obtain ⟨credit, entry⟩ := fields j (away j live)
    rw [entry]

theorem leaveThread_list (managers : Nat → TenantMgmt) (cpu q : Nat) (critical : Bool) (t : Nat) :
    (leaveThread managers cpu q critical t).tenantSwq = (managers t).tenantSwq.erase q := by
  rcases eq_or_ne t cpu with rfl | own
  · simp [leaveThread]
  · simp [leaveThread, own, listDel]

theorem leaveThread_of_ne (managers : Nat → TenantMgmt) {cpu} (q : Nat) (critical : Bool) {t} (other : t ≠ cpu) :
    (leaveThread managers cpu q critical t).numTenants = (managers t).numTenants ∧
      (leaveThread managers cpu q critical t).numBestEffortTenants = (managers t).numBestEffortTenants := by
  simp [leaveThread, other, listDel]

theorem leaveThread_self (managers : Nat → TenantMgmt) (cpu q : Nat) (critical : Bool) :
    (leaveThread managers cpu q critical cpu).numTenants = (managers cpu).numTenants - 1 ∧
      (leaveThread managers cpu q critical cpu).numBestEffortTenants =
        (managers cpu).numBestEffortTenants - if critical then 0 else 1 := by
  cases critical <;> simp [leaveThread]

namespace Linked

variable {cpu h : Nat}

theorem released (linked : Linked s) (wf : s.Wf cfg) (live : s.Live h) (own : (s.nvmeFgs h).tid = cpu) :
    Linked (bsysNvmeUnregisterFlow cfg s cpu h).2 := by
  have last : (s.nvmeFgs h).connRefCount = 1 := le_antisymm (wf.entries h).conns live
  obtain ⟨q, queue, handle, member⟩ := linked.listed h live
  rw [own] at member
  have elsewhere : ∀ t, t ≠ cpu → q ∉ (s.nvmeTenantManager t).tenantSwq := by
    intro t other mem
    obtain ⟨-, -, thread, -⟩ := linked.owner t q mem
    rw [handle, own] at thread
    exact other thread.symm
  have critical : ∀ k, (bsysNvmeUnregisterFlow cfg s cpu h).2.critical k = s.critical k := by
    intro k
    rw [unregister_released cfg cpu last queue]
    exact disconnected_critical cfg s.toRegistry h _
  have counted := (perm_cons_erase member).countP_eq fun k => !s.critical k
  have length := (perm_cons_erase member).length_eq
  have kind : s.critical q = (s.nvmeFgs h).latencyCriticalFlag := by rw [NvmeState.critical, handle]
  rw [countP_cons, kind] at counted
  rw [length_cons] at length
  simp only [unregister_released cfg cpu last queue] at critical ⊢
  refine ⟨fun t => ?_, fun t k mem => ?_, fun j alive => ?_, fun t => ?_, fun t => ?_⟩
  · simp only [NvmeState.post, leaveThread_list]
    exact (linked.nodup t).erase q
  · simp only [NvmeState.post, leaveThread_list] at mem ⊢
    obtain ⟨other, mem⟩ := (linked.nodup t).mem_erase_iff.1 mem
    obtain ⟨alive, theirs, thread, allocated⟩ := linked.owner t k mem
    have away : (s.swqs k).fgHandle ≠ h := by
      intro same
      rw [same, queue] at theirs
      exact other (Option.some.inj theirs).symm
    obtain ⟨credit, entry⟩ := disconnected_fg_of_ne cfg s.toRegistry away
    refine ⟨(disconnected_live wf _).2 ⟨away, alive⟩, ?_, ?_, ?_⟩
    · rw [entry]
      exact theirs
    · rw [entry]
      exact thread
    · rw [update_of_ne other]
      exact allocated
  · obtain ⟨away, alive⟩ := (disconnected_live wf j).1 alive
    obtain ⟨k, theirs, place, mem⟩ := linked.listed j alive
    obtain ⟨credit, entry⟩ := disconnected_fg_of_ne cfg s.toRegistry away
    have other : k ≠ q := by
      rintro rfl
      exact away (place.symm.trans handle)
    simp only [NvmeState.post, leaveThread_list, entry]
    exact ⟨k, theirs, place, (linked.nodup _).mem_erase_iff.2 ⟨other, mem⟩⟩
  · simp only [NvmeState.post, leaveThread_list]
    have before := linked.numTenants t
    rcases eq_or_ne t cpu with rfl | same
    · rw [(leaveThread_self _ _ _ _).1]
      omega
    · rw [(leaveThread_of_ne _ q _ same).1, erase_of_not_mem (elsewhere t same), before]
  · rw [countP_congr fun k _ => by rw [critical k]]
    simp only [NvmeState.post, leaveThread_list]
    have before := linked.numBestEffort t
    rcases eq_or_ne t cpu with rfl | same
    · rw [(leaveThread_self _ _ _ _).2, before, counted]
      cases (s.nvmeFgs h).latencyCriticalFlag with
      | true => simp
      | false => simp
    · rw [(leaveThread_of_ne _ q _ same).2, erase_of_not_mem (elsewhere t same), before]

theorem unregistered (linked : Linked s) (wf : s.Wf cfg) (own : s.Live h → (s.nvmeFgs h).tid = cpu) :
    Linked (bsysNvmeUnregisterFlow cfg s cpu h).2 := by
  by_cases live : s.Live h
  · exact linked.released wf live (own live)
  · have more : (s.nvmeFgs h).connRefCount ≠ 1 := by
      intro one
      exact live (Int.one_pos.trans_eq one.symm)
    rw [unregister_kept cfg cpu more]
    exact linked.congr (sameLinks_of_kept cfg live) rfl rfl fun _ => rfl

theorem prepared (linked : Linked s) (wf : s.Wf cfg) (flowGroupId : Int64) (slo : SLO) :
    Linked (prepareFlow cfg s cpu flowGroupId slo).2 := by
  cases found : s.search cpu flowGroupId with
  | nextAvail i =>
    rw [prepareFlow_of_new found]
    exact linked.congr (.of_fgs rfl) rfl rfl fun _ => rfl
  | already i =>
    by_cases same : (s.nvmeFgs i).slo = slo
    · rw [prepareFlow_of_same found same]
      exact linked
    · rw [prepareFlow_of_changed found same]
      exact linked.unregistered wf fun _ => (search_already found).2.2.2.2

end Linked

/-! ## Joining -/

section Register

variable {r : Registry} {cpu : Nat} {flowGroupId : Int64} {cookie : UInt64} {slo : SLO}

theorem prepared_live (wf : r.Wf cfg) (spare : r.SpareSlot cpu flowGroupId)
    (live : (r.prepared cfg cpu flowGroupId slo).Live (r.slotFor cpu flowGroupId)) :
    ((r.prepared cfg cpu flowGroupId slo).nvmeFgs (r.slotFor cpu flowGroupId)).tid = cpu ∧
      ((r.prepared cfg cpu flowGroupId slo).nvmeFgs (r.slotFor cpu flowGroupId)).latencyCriticalFlag = slo.critical := by
  cases found : r.search cpu flowGroupId with
  | nextAvail i =>
    rw [prepared_of_new found, slotFor_of_new found] at live
    exact absurd live (spare i found)
  | already i =>
    by_cases same : (r.nvmeFgs i).slo = slo
    · rw [prepared_of_same found same, slotFor_of_already found]
      exact ⟨(search_already found).2.2.2.2, same ▸ (wf.entries i).critical⟩
    · rw [prepared_of_changed found same, slotFor_of_already found] at live
      exact absurd rfl ((disconnected_live wf i).1 live).1

theorem sameLinks_of_failed (wf : r.Wf cfg) (spare : r.SpareSlot cpu flowGroupId) {swq}
    (failed : r.Refused cfg cpu flowGroupId cookie slo ∨ swq = none) :
    SameLinks (r.prepared cfg cpu flowGroupId slo) (r.registered cfg cpu flowGroupId cookie slo swq) := by
  obtain ⟨credit, own⟩ := registered_entry_of_failed failed
  have others : ∀ j, j ≠ r.slotFor cpu flowGroupId → ∃ credit, (r.registered cfg cpu flowGroupId cookie slo swq).nvmeFgs j =
      { (r.prepared cfg cpu flowGroupId slo).nvmeFgs j with scaledIOPuSLimit := credit } := by
    intro j other
    obtain ⟨_, before⟩ := prepared_fg_of_ne cfg r slo other
    obtain ⟨credit, after⟩ := registered_fg_of_ne cfg r cookie slo swq other
    exact ⟨credit, by rw [after, before]⟩
  refine ⟨fun j => ?_, fun j live => ?_, fun j live => ?_, fun j live => ?_⟩
  all_goals
    by_cases slot : j = r.slotFor cpu flowGroupId
  · rw [slot, Registry.Live, Registry.Live, own]
    rfl
  · obtain ⟨_, entry⟩ := others j slot
    rw [Registry.Live, Registry.Live, entry]
  · rw [slot, own]
    rfl
  · obtain ⟨_, entry⟩ := others j slot
    rw [entry]
  · rw [slot] at live ⊢
    rw [own]
    exact (prepared_live wf spare live).1.symm
  · obtain ⟨_, entry⟩ := others j slot
    rw [entry]
  · rw [slot] at live ⊢
    rw [own]
    exact (prepared_live wf spare live).2.symm
  · obtain ⟨_, entry⟩ := others j slot
    rw [entry]

end Register

theorem joinThread_of_ne (managers : Nat → TenantMgmt) {cpu} (q : Nat) (slo : SLO) {t} (other : t ≠ cpu) :
    joinThread managers cpu q slo t = managers t := by
  simp [joinThread, other]

theorem joinThread_self (managers : Nat → TenantMgmt) (cpu q : Nat) (slo : SLO) :
    joinThread managers cpu q slo cpu = ⟨q :: (managers cpu).tenantSwq, (managers cpu).numTenants + 1,
      (managers cpu).numBestEffortTenants + if slo.critical then 0 else 1⟩ := by
  by_cases effort : slo.latencyUsSLO = 0 <;> simp [joinThread, SLO.critical, effort]

theorem mem_joinThread {managers cpu slo t k} :
    k ∈ (joinThread managers cpu q slo t).tenantSwq ↔ (t = cpu ∧ k = q) ∨ k ∈ (managers t).tenantSwq := by
  rcases eq_or_ne t cpu with rfl | own
  · simp [joinThread_self]
  · simp [joinThread_of_ne _ _ _ own, own]

namespace Linked

variable {cpu : Nat} {flowGroupId : Int64} {cookie : UInt64} {slo : SLO}

theorem failed (linked : Linked s) (wf : s.Wf cfg) (spare : s.SpareSlot cpu flowGroupId) {swq}
    (failed : s.Refused cfg cpu flowGroupId cookie slo ∨ swq = none) :
    Linked ((RegOp.register cpu flowGroupId cookie slo swq).next cfg s) := by
  rw [RegOp.next, RegOp.run, register_failed failed]
  refine (linked.prepared wf flowGroupId slo).congr ?_ rfl rfl fun _ => rfl
  rw [prepareFlow_toRegistry]
  exact sameLinks_of_failed wf spare failed

theorem joined (linked : Linked s) (wf : s.Wf cfg) (admitted : ¬ s.Refused cfg cpu flowGroupId cookie slo)
    (spare : s.SpareSlot cpu flowGroupId) (new : ¬ s.Reconnects cpu flowGroupId slo)
    (fresh : (RegOp.register cpu flowGroupId cookie slo (some q)).Fresh cfg s) :
    Linked ((RegOp.register cpu flowGroupId cookie slo (some q)).next cfg s) := by
  have before : Linked (prepareFlow cfg s cpu flowGroupId slo).2 := linked.prepared wf flowGroupId slo
  have table := prepareFlow_toRegistry cfg s cpu flowGroupId slo
  have idle : ¬ (s.prepared cfg cpu flowGroupId slo).Live (s.slotFor cpu flowGroupId) := not_lt.2 (prepared_idle wf spare new)
  obtain ⟨credit, own⟩ := registered_entry_of_granted admitted q
  have others : ∀ j, j ≠ s.slotFor cpu flowGroupId → ∃ credit, (s.registered cfg cpu flowGroupId cookie slo (some q)).nvmeFgs j =
      { (s.prepared cfg cpu flowGroupId slo).nvmeFgs j with scaledIOPuSLimit := credit } := by
    intro j other
    obtain ⟨_, prepared⟩ := prepared_fg_of_ne cfg s.toRegistry slo other
    obtain ⟨credit, after⟩ := registered_fg_of_ne cfg s.toRegistry cookie slo (some q) other
    exact ⟨credit, by rw [after, prepared]⟩
  rw [RegOp.next, RegOp.run, register_linked admitted q]
  rw [RegOp.Fresh] at fresh
  generalize (prepareFlow cfg s cpu flowGroupId slo).2 = p at before table fresh ⊢
  have absent := before.not_listed fresh
  -- the queues of the lists keep their owners, which are other slots
  have kept : ∀ t k, k ∈ (p.nvmeTenantManager t).tenantSwq → k ≠ q ∧ (p.swqs k).fgHandle ≠ s.slotFor cpu flowGroupId := by
    intro t k mem
    refine ⟨fun same => absent t (same ▸ mem), fun same => idle ?_⟩
    have live := (before.owner t k mem).1
    rwa [same, table] at live
  refine ⟨fun t => ?_, fun t k mem => ?_, fun j live => ?_, fun t => ?_, fun t => ?_⟩
  · rcases eq_or_ne t cpu with rfl | same
    · simp only [post, joinThread_self]
      exact nodup_cons.2 ⟨absent t, before.nodup t⟩
    · simp only [post, joinThread_of_ne _ _ _ same]
      exact before.nodup t
  · simp only [post] at mem ⊢
    rcases mem_joinThread.1 mem with ⟨rfl, rfl⟩ | mem
    · simp only [update_self, nvmeSwQueueInit, Registry.Live, own]
      exact ⟨Int.one_pos, trivial, rfl, trivial⟩
    · obtain ⟨other, away⟩ := kept t k mem
      obtain ⟨alive, theirs, thread, allocated⟩ := before.owner t k mem
      rw [table] at alive theirs thread
      obtain ⟨_, entry⟩ := others _ away
      simp only [update_of_ne other, Registry.Live, entry]
      exact ⟨alive, theirs, thread, allocated⟩
  · simp only [post] at live ⊢
    rcases eq_or_ne j (s.slotFor cpu flowGroupId) with rfl | slot
    · rw [own]
      exact ⟨q, rfl, by simp [nvmeSwQueueInit], mem_joinThread.2 (.inl ⟨rfl, rfl⟩)⟩
    · obtain ⟨_, entry⟩ := others j slot
      rw [Registry.Live, entry] at live
      obtain ⟨k, theirs, place, mem⟩ := before.listed j (by rw [table]; exact live)
      rw [table] at theirs mem
      rw [entry]
      refine ⟨k, theirs, ?_, mem_joinThread.2 (.inr mem)⟩
      rw [update_of_ne (kept _ k mem).1]
      exact place
  · have count := before.numTenants t
    rcases eq_or_ne t cpu with rfl | same
    · simp only [post, joinThread_self, length_cons]
      omega
    · simp only [post, joinThread_of_ne _ _ _ same]
      exact count
  · have count := before.numBestEffort t
    -- the entries of the queues that were there still have their kind
    have kind : ∀ k ∈ (p.nvmeTenantManager t).tenantSwq,
        ((s.registered cfg cpu flowGroupId cookie slo (some q)).nvmeFgs
          (update p.swqs q (nvmeSwQueueInit (p.swqs q) (s.slotFor cpu flowGroupId)) k).fgHandle).latencyCriticalFlag =
          p.critical k := by
      intro k mem
      obtain ⟨other, away⟩ := kept t k mem
      obtain ⟨_, entry⟩ := others _ away
      rw [update_of_ne other, entry, critical, table]
    have counted := countP_congr (p := fun k => !((s.registered cfg cpu flowGroupId cookie slo (some q)).nvmeFgs
      (update p.swqs q (nvmeSwQueueInit (p.swqs q) (s.slotFor cpu flowGroupId)) k).fgHandle).latencyCriticalFlag)
      (q := fun k => !p.critical k) fun k mem => by rw [kind k mem]
    rcases eq_or_ne t cpu with rfl | same
    · simp only [post, joinThread_self, critical, countP_cons, update_self, nvmeSwQueueInit, own,
        fillFlowGroup_critical] at counted ⊢
      rw [counted, count]
      cases slo.critical <;> simp [critical]
    · simp only [post, joinThread_of_ne _ _ _ same, critical] at counted ⊢
      rw [counted]
      exact count

end Linked

/-! ## Whole calls -/

/-- A registration takes no connected slot, and does not succeed for a flow that is
connected with this SLO. -/
def RegOp.LinksOnce (cfg : Cfg) (s : NvmeState) : RegOp → Prop
  | .register cpu flowGroupId cookie slo swq =>
    s.SpareSlot cpu flowGroupId ∧
      (¬ s.Refused cfg cpu flowGroupId cookie slo → swq ≠ none → ¬ s.Reconnects cpu flowGroupId slo)
  | _ => True

/-- A flow is unregistered on the thread that registered it. -/
def RegOp.OnOwnThread (s : NvmeState) : RegOp → Prop
  | .unregister cpu h => s.Live h → (s.nvmeFgs h).tid = cpu
  | _ => True

theorem RegStep.linked {op} (step : RegStep cfg s op t) (wf : s.Wf cfg)
    (once : op.LinksOnce cfg s) (own : op.OnOwnThread s) (linked : Linked s) : Linked t := by
  obtain ⟨fresh, rfl⟩ := step
  cases op with
  | register cpu flowGroupId cookie slo swq =>
    by_cases refused : s.Refused cfg cpu flowGroupId cookie slo
    · exact linked.failed wf once.1 (.inl refused)
    · cases swq with
      | none => exact linked.failed wf once.1 (.inr rfl)
      | some q => exact linked.joined wf refused once.1 (once.2 refused (Option.some_ne_none q)) fresh
  | unregister cpu h => exact linked.unregistered wf own
  | nvmeOpen cpu nsSize nsSectorSize =>
    simp only [RegOp.next, RegOp.run, bsysNvmeOpen]
    split
    · exact linked
    · exact linked.congr (.of_fgs rfl) rfl rfl fun _ => rfl

theorem init_linked (now tsc : Nat → Nat) : Linked (init now tsc) := by
  refine ⟨fun _ => nodup_nil, fun _ _ mem => ?_, fun h live => ?_, fun _ => rfl, fun _ => rfl⟩
  · exact absurd mem not_mem_nil
  · exact absurd live (lt_irrefl (0 : Int))

theorem firstFlow_linksOnce : firstFlow.LinksOnce flatCfg coldState :=
  ⟨fun _ _ live => absurd live (lt_irrefl (0 : Int)), fun _ _ ⟨_, _, live, _⟩ => absurd live (lt_irrefl (0 : Int))⟩

/-- The calls an application's thread makes. -/
inductive IoOp where
  | reg (op : RegOp)
  | write (cpu fgHandle : Nat) (vaddr lba : UInt64) (lbaCount : UInt32) (cookie : UInt64) (alloc : Option NvmeCtx)
  | read (cpu fgHandle : Nat) (vaddr lba : UInt64) (lbaCount : UInt32) (cookie : UInt64) (alloc : Option NvmeCtx)
  | writev (cpu fgHandle : Nat) (buf : UInt64) (numSgls : Int32) (lba : UInt64) (lbaCount : UInt32) (cookie : UInt64)
      (alloc : Option NvmeCtx)
  | readv (cpu fgHandle : Nat) (buf : UInt64) (numSgls : Int32) (lba : UInt64) (lbaCount : UInt32) (cookie : UInt64)
      (alloc : Option NvmeCtx)
  | sched (cpu now tsc : Nat)
  deriving DecidableEq

def IoOp.run (cfg : Cfg) (s : NvmeState) : IoOp → Option (Int × NvmeState)
  | .reg op => some (op.run cfg s)
  | .write cpu h vaddr lba lbaCount cookie alloc => bsysNvmeWrite cfg s cpu h vaddr lba lbaCount cookie alloc
  | .read cpu h vaddr lba lbaCount cookie alloc => bsysNvmeRead cfg s cpu h vaddr lba lbaCount cookie alloc
  | .writev cpu h buf numSgls lba lbaCount cookie alloc => bsysNvmeWritev cfg s cpu h buf numSgls lba lbaCount cookie alloc
  | .readv cpu h buf numSgls lba lbaCount cookie alloc => bsysNvmeReadv cfg s cpu h buf numSgls lba lbaCount cookie alloc
  | .sched cpu now tsc => (nvmeSched cfg s cpu now tsc).map fun t => (0, t)

def IoOp.cpu : IoOp → Nat
  | .reg (.register cpu _ _ _ _) | .reg (.unregister cpu _) | .reg (.nvmeOpen cpu _ _) => cpu
  | .write cpu _ _ _ _ _ _ | .read cpu _ _ _ _ _ _ | .writev cpu _ _ _ _ _ _ _ | .readv cpu _ _ _ _ _ _ _ => cpu
  | .sched cpu _ _ => cpu

/-- A call that returns `ret`. -/
def IoReturns (cfg : Cfg) (s : NvmeState) (op : IoOp) (ret : Int) (t : NvmeState) : Prop :=
  (∀ r, op = .reg r → r.Fresh cfg s) ∧ op.run cfg s = some (ret, t)

def IoStep (cfg : Cfg) (s : NvmeState) (op : IoOp) (t : NvmeState) : Prop := ∃ ret, IoReturns cfg s op ret t

theorem RegStep.io {op} (step : RegStep cfg s op t) : IoStep cfg s (.reg op) t := by
  obtain ⟨fresh, rfl⟩ := step
  refine ⟨(op.run cfg s).1, fun r same => ?_, rfl⟩
  cases same
  exact fresh

/-- The request that a submission builds, if it gets a context. -/
def requested (cfg : Cfg) (s : NvmeState) (cpu : Nat) (cmd : NvmeCmd) (fill : NvmeCtx → NvmeCtx) (fgHandle : Nat)
    (lba : UInt64) (lbaCount : UInt32) (cookie : UInt64) (alloc : Option NvmeCtx) : Option NvmeCtx :=
  alloc.map fun ctx => requestCtx cfg s cpu cmd fgHandle lba lbaCount (fill { ctx with cookie := cookie })

def IoOp.request (cfg : Cfg) (s : NvmeState) : IoOp → Option NvmeCtx
  | .write cpu h vaddr lba lbaCount cookie alloc => requested cfg s cpu .write (fillWrite cfg vaddr) h lba lbaCount cookie alloc
  | .read cpu h vaddr lba lbaCount cookie alloc => requested cfg s cpu .read (fillRead cfg vaddr) h lba lbaCount cookie alloc
  | .writev cpu h buf numSgls lba lbaCount cookie alloc =>
    requested cfg s cpu .write (fillSgl buf numSgls) h lba lbaCount cookie alloc
  | .readv cpu h buf numSgls lba lbaCount cookie alloc =>
    requested cfg s cpu .read (fillSgl buf numSgls) h lba lbaCount cookie alloc
  | _ => none

/-- What a submission does: nothing, a request in the slot's queue, or a request to the
device. -/
inductive Submits (cfg : Cfg) (s : NvmeState) (request : Option NvmeCtx) : Int → NvmeState → Prop where
  | refused : Submits cfg s request (-retNomem) s
  | queued {ctx q swq} (built : request = some ctx) (queue : (s.nvmeFgs ctx.fgHandle).nvmeSwq = some q)
      (push : nvmeSwQueuePushBack (s.swqs q) ctx = some swq) : Submits cfg s request retOk (s.setSwq q swq)
  | direct {ctx cmd lba lbaCount payload} (off : cfg.nvmeSchedFlag = false) :
      Submits cfg s request retOk (s.log (.direct ctx cmd lba lbaCount payload))

theorem submits_of_submitRequest {cpu cmd fill payload fgHandle lba lbaCount cookie alloc}
    (call : submitRequest cfg s cpu cmd fill payload fgHandle lba lbaCount cookie alloc = some (ret, t)) :
    Submits cfg s (requested cfg s cpu cmd fill fgHandle lba lbaCount cookie alloc) ret t := by
  unfold submitRequest at call
  split at call
  · cases call
    exact .refused
  · simp only at call
    split at call
    · split at call
      · cases call
      · rename_i q queue
        split at call
        · cases call
          exact .refused
        · rename_i swq push
          cases call
          exact .queued rfl queue push
    · rename_i off
      cases call
      exact .direct (by simpa using off)

def IoOp.target : IoOp → Option Nat
  | .write _ h _ _ _ _ _ | .read _ h _ _ _ _ _ | .writev _ h _ _ _ _ _ _ | .readv _ h _ _ _ _ _ _ => some h
  | .reg _ | .sched _ _ _ => none

theorem op_cases (op : IoOp) : (∃ r, op = .reg r) ∨ (∃ i now tsc, op = .sched i now tsc) ∨ ∃ j, op.target = some j := by
  cases op with
  | reg r => exact .inl ⟨r, rfl⟩
  | sched i now tsc => exact .inr (.inl ⟨i, now, tsc, rfl⟩)
  | _ => exact .inr (.inr ⟨_, rfl⟩)

theorem submitRequest_queued {cpu cmd fill fgHandle lba lbaCount cookie alloc swq}
    (scheduled : cfg.nvmeSchedFlag = true) (payload : Option UInt64)
    (built : requested cfg s cpu cmd fill fgHandle lba lbaCount cookie alloc = some ctx)
    (link : (s.nvmeFgs ctx.fgHandle).nvmeSwq = some q) (push : nvmeSwQueuePushBack (s.swqs q) ctx = some swq) :
    submitRequest cfg s cpu cmd fill payload fgHandle lba lbaCount cookie alloc = some (retOk, s.setSwq q swq) := by
  cases alloc with
  | none => cases built
  | some element =>
    cases built
    change (s.nvmeFgs fgHandle).nvmeSwq = some q at link
    simp only [submitRequest, scheduled, if_true, link, push]

theorem IoOp.run_queued {swq}
    (scheduled : cfg.nvmeSchedFlag = true) (built : op.request cfg s = some ctx) (link : (s.nvmeFgs ctx.fgHandle).nvmeSwq = some q)
    (push : nvmeSwQueuePushBack (s.swqs q) ctx = some swq) : op.run cfg s = some (retOk, s.setSwq q swq) := by
  cases op with
  | reg r => cases built
  | sched cpu now tsc => cases built
  | write => exact submitRequest_queued scheduled _ built link push
  | read =>
    rw [IoOp.run, bsysNvmeRead_scheduled scheduled]
    exact submitRequest_queued scheduled _ built link push
  | writev => exact submitRequest_queued scheduled _ built link push
  | readv => exact submitRequest_queued scheduled _ built link push

theorem IoOp.submission {h r} (target : op.target = some h)
    (call : op.run cfg s = some r) :
    ∃ cpu cmd fill payload lba lbaCount cookie alloc,
      submitRequest cfg s cpu cmd fill payload h lba lbaCount cookie alloc = some r ∧
        op.request cfg s = requested cfg s cpu cmd fill h lba lbaCount cookie alloc := by
  cases op with
  | reg r => cases target
  | sched cpu now tsc => cases target
  | write =>
    cases target
    exact ⟨_, _, _, _, _, _, _, _, call, rfl⟩
  | read =>
    cases target
    rw [IoOp.run, bsysNvmeRead] at call
    split at call
    · cases call
    · exact ⟨_, _, _, _, _, _, _, _, call, rfl⟩
  | writev =>
    cases target
    exact ⟨_, _, _, _, _, _, _, _, call, rfl⟩
  | readv =>
    cases target
    exact ⟨_, _, _, _, _, _, _, _, call, rfl⟩

theorem IoReturns.submits {j} (returns : IoReturns cfg s op ret t)
    (target : op.target = some j) : Submits cfg s (op.request cfg s) ret t := by
  obtain ⟨cpu, cmd, fill, payload, lba, lbaCount, cookie, alloc, submit, built⟩ := IoOp.submission target returns.2
  rw [built]
  exact submits_of_submitRequest submit

theorem IoReturns.registers {r} (returns : IoReturns cfg s (.reg r) ret t) : RegStep cfg s r t := by
  refine ⟨returns.1 r rfl, ?_⟩
  have call := returns.2
  rw [IoOp.run, Option.some.injEq] at call
  rw [RegOp.next, call]

theorem IoReturns.inv (step : IoReturns cfg s op ret t) :
    (∃ r, op = .reg r ∧ RegStep cfg s r t) ∨ Submits cfg s (op.request cfg s) ret t ∨
      ∃ cpu now tsc, op = .sched cpu now tsc ∧ nvmeSched cfg s cpu now tsc = some t := by
  rcases op_cases op with ⟨r, rfl⟩ | ⟨cpu, now, tsc, rfl⟩ | ⟨j, target⟩
  · exact .inl ⟨r, rfl, step.registers⟩
  · obtain ⟨u, round, same⟩ := Option.map_eq_some_iff.1 step.2
    cases same
    exact .inr (.inr ⟨cpu, now, tsc, rfl, round⟩)
  · exact .inr (.inl (step.submits target))

theorem IoStep.holds {R} (step : IoStep cfg s op t)
    (submitted : ∀ ctx, op.request cfg s = some ctx → R ctx) (all : ∀ k, (s.swqs k).Holds R) : ∀ k, (t.swqs k).Holds R := by
  obtain ⟨ret, returns⟩ := step
  rcases returns.inv with ⟨r, -, -, rfl⟩ | submits | ⟨cpu, now, tsc, -, round⟩
  · exact r.next_holds cfg all
  · cases submits with
    | refused => exact all
    | @queued ctx q swq built queue push => exact setSwq_all all ((all q).push (submitted ctx built) push)
    | direct off => exact all
  · exact (nvmeSched_acts round).invariant (I := fun c => ∀ k, (c.1.swqs k).Holds R) (fun _ _ act => act.holds) all

theorem pushBack_handle {q q'} (push : nvmeSwQueuePushBack q ctx = some q') :
    q'.fgHandle = q.fgHandle := by
  unfold nvmeSwQueuePushBack at push
  split at push
  · cases push
  · cases push
    rfl

theorem Submits.sameTenants {request}
    (submits : Submits cfg s request ret t) : SameTenants s t := by
  cases submits with
  | refused => exact .refl s
  | queued built queue push => exact .setSwq s (pushBack_handle push)
  | direct off => exact .log s _

theorem nvmeSched_sameTenants {cpu now tsc} (round : nvmeSched cfg s cpu now tsc = some t) :
    SameTenants s t := (nvmeSched_acts round).sameTenants

end Reflex.Nvme
