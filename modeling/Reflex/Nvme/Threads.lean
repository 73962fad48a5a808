import Reflex.Nvme.Table

/-!
# Thread lists and the queue pool

What the registration calls do outside the registry: the tenant lists and counters of the threads, the queues
and the pool they come from.
-/

namespace Reflex.Nvme
open Lib Function NvmeState

/-- The thread lists once queue `q` is unlinked and a tenant of thread `cpu` is gone. -/
def leaveThread (managers : Nat → TenantMgmt) (cpu q : Nat) (critical : Bool) : Nat → TenantMgmt :=
  Function.update (listDel managers q) cpu
    { tenantSwq := (managers cpu).tenantSwq.erase q
      numTenants := (managers cpu).numTenants - 1
      numBestEffortTenants :=
        if critical then (managers cpu).numBestEffortTenants else (managers cpu).numBestEffortTenants - 1 }

/-- The thread lists with queue `q` of a new tenant in front of thread `cpu`'s. -/
def joinThread (managers : Nat → TenantMgmt) (cpu q : Nat) (slo : SLO) : Nat → TenantMgmt :=
  Function.update managers cpu
    { tenantSwq := q :: (managers cpu).tenantSwq
      numTenants := (managers cpu).numTenants + 1
      numBestEffortTenants :=
        if slo.latencyUsSLO = 0 then (managers cpu).numBestEffortTenants + 1 else (managers cpu).numBestEffortTenants }

section Unregister

variable (cfg : Cfg) {s : NvmeState} (cpu : Nat) {h q : Nat}

theorem unregister_released (last : (s.nvmeFgs h).connRefCount = 1) (queue : (s.nvmeFgs h).nvmeSwq = some q) :
    (bsysNvmeUnregisterFlow cfg s cpu h).2 = post { s with
      toRegistry := s.disconnected cfg h
      nvmeTenantManager := leaveThread s.nvmeTenantManager cpu q (s.nvmeFgs h).latencyCriticalFlag
      swqAllocated := update s.swqAllocated q false } cpu (.nvmeUnregisteredFlow h retOk) := by
  have table := unregister_toRegistry cfg s cpu h
  unfold bsysNvmeUnregisterFlow at table ⊢
  simp only [last, Int.sub_self, if_true, post_toRegistry] at table ⊢
  rw [← table]
  simp only [releaseFlow, setFg_self, dropQueue, queue, setManager, listDel, leaveThread]
  congr 2
  funext t
  rcases eq_or_ne t cpu with rfl | own
  · simp
  · simp only [update_of_ne own, listDel]

theorem unregister_kept (more : (s.nvmeFgs h).connRefCount ≠ 1) :
    (bsysNvmeUnregisterFlow cfg s cpu h).2 =
      post { s with toRegistry := s.disconnected cfg h } cpu (.nvmeUnregisteredFlow h retOk) := by
  have others : ¬ (s.nvmeFgs h).connRefCount - 1 = 0 := by omega
  have table := unregister_toRegistry cfg s cpu h
  unfold bsysNvmeUnregisterFlow at table ⊢
  simp only [others, if_false, post_toRegistry] at table ⊢
  rw [← table]

end Unregister

section Register

variable {cfg : Cfg} {s : NvmeState} {cpu : Nat} {flowGroupId : Int64} {cookie : UInt64} {slo : SLO} {swq : Option Nat}

theorem register_failed (failed : s.Refused cfg cpu flowGroupId cookie slo ∨ swq = none) :
    (bsysNvmeRegisterFlow cfg s cpu flowGroupId cookie slo swq).2 =
      { (prepareFlow cfg s cpu flowGroupId slo).2 with
        toRegistry := s.registered cfg cpu flowGroupId cookie slo swq } := by
  rw [← register_toRegistry, register_eq]
  by_cases refused : s.Refused cfg cpu flowGroupId cookie slo
  · simp only [refused, if_true]
  · obtain rfl := failed.resolve_left refused
    simp only [refused, if_false]

theorem register_linked (admitted : ¬ s.Refused cfg cpu flowGroupId cookie slo) (q : Nat) :
    (bsysNvmeRegisterFlow cfg s cpu flowGroupId cookie slo (some q)).2 =
      let p := (prepareFlow cfg s cpu flowGroupId slo).2
      post { p with
        toRegistry := s.registered cfg cpu flowGroupId cookie slo (some q)
        nvmeTenantManager := joinThread p.nvmeTenantManager cpu q slo
        swqAllocated := update p.swqAllocated q true
        swqs := update p.swqs q (nvmeSwQueueInit (p.swqs q) (s.slotFor cpu flowGroupId))
        roundrobinStart := update p.roundrobinStart cpu 0 } cpu
          (.nvmeRegisteredFlow (s.slotFor cpu flowGroupId) cookie retOk) := by
  rw [register_granted admitted, registered_granted admitted]
  rfl

end Register

/-! ## Queues and events -/

theorem unregister_queues (cfg : Cfg) (s : NvmeState) (cpu h : Nat) :
    (bsysNvmeUnregisterFlow cfg s cpu h).2.swqs = s.swqs ∧ (bsysNvmeUnregisterFlow cfg s cpu h).2.trace = s.trace ∧
      (bsysNvmeUnregisterFlow cfg s cpu h).2.globalLeftoverTokens = s.globalLeftoverTokens := by
  have dropped : ∀ (u : NvmeState) fg, (dropQueue u fg).swqs = u.swqs ∧ (dropQueue u fg).trace = u.trace ∧
      (dropQueue u fg).globalLeftoverTokens = u.globalLeftoverTokens := by
    intro u fg
    unfold dropQueue
    split
    · exact ⟨rfl, rfl, rfl⟩
    · exact ⟨rfl, rfl, rfl⟩
  simp only [bsysNvmeUnregisterFlow, post]
  split
  · exact dropped _ _
  · exact ⟨rfl, rfl, rfl⟩

theorem prepareFlow_queues (cfg : Cfg) (s : NvmeState) (cpu : Nat) (flowGroupId : Int64) (slo : SLO) :
    (prepareFlow cfg s cpu flowGroupId slo).2.swqs = s.swqs ∧ (prepareFlow cfg s cpu flowGroupId slo).2.trace = s.trace ∧
      (prepareFlow cfg s cpu flowGroupId slo).2.globalLeftoverTokens = s.globalLeftoverTokens := by
  unfold prepareFlow
  simp only
  split
  · exact unregister_queues cfg _ cpu _
  · exact ⟨rfl, rfl, rfl⟩

/-- Registration calls write no event, leave the shared bucket and only ever empty a queue. -/
theorem RegOp.next_queues (cfg : Cfg) (s : NvmeState) (op : RegOp) :
    (op.next cfg s).trace = s.trace ∧ (op.next cfg s).globalLeftoverTokens = s.globalLeftoverTokens ∧
      ∀ q, (op.next cfg s).swqs q = s.swqs q ∨ ∃ k h, (op.next cfg s).swqs q = nvmeSwQueueInit k h := by
  cases op with
  | register cpu flowGroupId cookie slo swq =>
    obtain ⟨queues, trace, bucket⟩ := prepareFlow_queues cfg s cpu flowGroupId slo
    by_cases failed : s.Refused cfg cpu flowGroupId cookie slo ∨ swq = none
    · rw [RegOp.next, RegOp.run, register_failed failed]
      exact ⟨trace, bucket, fun q => .inl (congrFun queues q)⟩
    · rw [not_or] at failed
      obtain ⟨k, rfl⟩ := Option.ne_none_iff_exists'.1 failed.2
      rw [RegOp.next, RegOp.run, register_linked failed.1 k]
      refine ⟨trace, bucket, fun q => ?_⟩
      simp only [post, queues]
      rcases eq_or_ne q k with rfl | own
      · exact .inr ⟨s.swqs q, s.slotFor cpu flowGroupId, update_self _ _ _⟩
      · exact .inl (update_of_ne own _ _)
  | unregister cpu h =>
    obtain ⟨queues, trace, bucket⟩ := unregister_queues cfg s cpu h
    exact ⟨trace, bucket, fun q => .inl (congrFun queues q)⟩
  | nvmeOpen cpu nsSize nsSectorSize =>
    simp only [RegOp.next, RegOp.run, bsysNvmeOpen]
    split
    · exact ⟨rfl, rfl, fun _ => .inl rfl⟩
    · exact ⟨rfl, rfl, fun _ => .inl rfl⟩

theorem RegOp.next_holds {R : NvmeCtx → Prop} (cfg : Cfg) {s : NvmeState} (op : RegOp) (all : ∀ k, (s.swqs k).Holds R) (k : Nat) :
    ((op.next cfg s).swqs k).Holds R := by
  obtain ⟨-, -, queues⟩ := RegOp.next_queues cfg s op
  rcases queues k with same | ⟨q, h, empty⟩
  · rw [same]
    exact all k
  · rw [empty]
    exact .init R q h

end Reflex.Nvme
