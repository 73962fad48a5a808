import Mathlib.Data.Finset.Fold
import Reflex.Nvme.Commitment

/-!
# Rates as a function of who is registered

The abstract reading of the scheduling parameters: a finite set of tenants, each with its SLO, determines the
reserved sum, the mode and the rate of the device.
-/

namespace Reflex.Nvme
open Lib Finset

theorem latency_le_uintMax (slo : SLO) : slo.latencyUsSLO.toNat ≤ uintMax := by
  have fits := slo.latencyUsSLO.toNat_lt
  unfold uintMax
  omega

section Sets

variable {κ : Type*}

def lcTenants (T : Finset (κ × SLO)) : Finset (κ × SLO) := T.filter fun t => t.2.critical = true

def numBestEffort (T : Finset (κ × SLO)) : Nat := (T.filter fun t => t.2.critical = false).card

def strictest (T : Finset (κ × SLO)) : Nat := (lcTenants T).fold min uintMax fun t => t.2.latencyUsSLO.toNat

/-- Nobody writes: no best-effort tenant, and only readers among the others. -/
def readersOnly (T : Finset (κ × SLO)) : Bool :=
  decide (numBestEffort T = 0) && decide (∀ t ∈ lcTenants T, 100 ≤ t.2.rwRatioSLO.toInt)

/-- The rate the device gives these tenants. -/
def deviceRate (cfg : Cfg) (T : Finset (κ × SLO)) : Nat := lookupDeviceTokenRate cfg (readersOnly T) (strictest T)

variable {T : Finset (κ × SLO)} {t : κ × SLO}

theorem mem_lcTenants : t ∈ lcTenants T ↔ t ∈ T ∧ t.2.critical = true := mem_filter

theorem le_strictest_iff {b} : b ≤ strictest T ↔ b ≤ uintMax ∧ ∀ t ∈ lcTenants T, b ≤ t.2.latencyUsSLO.toNat :=
  le_fold_min b

theorem strictest_le_uintMax (T : Finset (κ × SLO)) : strictest T ≤ uintMax := (le_strictest_iff.1 (le_refl _)).1

theorem readersOnly_iff : readersOnly T = true ↔ numBestEffort T = 0 ∧ ∀ t ∈ lcTenants T, 100 ≤ t.2.rwRatioSLO.toInt := by
  simp [readersOnly]

theorem readersOnly_of_effort (effort : numBestEffort T ≠ 0) : readersOnly T = false := by simp [readersOnly, effort]

variable [DecidableEq κ]

theorem lcTenants_insert_critical (critical : t.2.critical = true) : lcTenants (insert t T) = insert t (lcTenants T) := by
  rw [lcTenants, filter_insert, if_pos critical, lcTenants]

theorem lcTenants_insert_effort (effort : t.2.critical = false) : lcTenants (insert t T) = lcTenants T := by
  rw [lcTenants, filter_insert, if_neg (by simp [effort]), lcTenants]

theorem numBestEffort_insert_critical (critical : t.2.critical = true) : numBestEffort (insert t T) = numBestEffort T := by
  rw [numBestEffort, filter_insert, if_neg (by simp [critical]), numBestEffort]

theorem numBestEffort_insert_effort (effort : t.2.critical = false) : numBestEffort (insert t T) ≠ 0 := by
  rw [numBestEffort, filter_insert, if_pos effort]
  simp

theorem strictest_insert (critical : t.2.critical = true) :
    strictest (insert t T) = min t.2.latencyUsSLO.toNat (strictest T) := by
  apply eq_of_forall_le_iff
  intro b
  rw [le_min_iff, le_strictest_iff, le_strictest_iff, lcTenants_insert_critical critical, forall_mem_insert]
  constructor
  · rintro ⟨bound, here, others⟩
    exact ⟨here, bound, others⟩
  · rintro ⟨here, bound, others⟩
    exact ⟨bound, here, others⟩

theorem readersOnly_insert_critical (critical : t.2.critical = true) :
    readersOnly (insert t T) = (decide (100 ≤ t.2.rwRatioSLO.toInt) && readersOnly T) := by
  rw [Bool.eq_iff_iff, Bool.and_eq_true, readersOnly_iff, readersOnly_iff, numBestEffort_insert_critical critical,
    lcTenants_insert_critical critical, forall_mem_insert, decide_eq_true_iff]
  constructor
  · rintro ⟨none, here, others⟩
    exact ⟨here, none, others⟩
  · rintro ⟨here, none, others⟩
    exact ⟨none, here, others⟩

theorem deviceRate_insert {cfg} (device : MonotoneDevice cfg) (critical : t.2.critical = true)
    (same : readersOnly (insert t T) = readersOnly T) :
    deviceRate cfg (insert t T) =
      min (deviceRate cfg T) (lookupDeviceTokenRate cfg (readersOnly T) t.2.latencyUsSLO.toNat) := by
  unfold deviceRate
  rw [same, strictest_insert critical]
  rcases le_total t.2.latencyUsSLO.toNat (strictest T) with less | more
  · rw [min_eq_left less, min_eq_right (lookupDeviceTokenRate_mono device id less (strictest_le_uintMax T))]
  · rw [min_eq_right more, min_eq_left (lookupDeviceTokenRate_mono device id more (latency_le_uintMax t.2))]

theorem deviceRate_insert_strictest {cfg} (critical : t.2.critical = true)
    (less : t.2.latencyUsSLO.toNat ≤ strictest T) :
    deviceRate cfg (insert t T) = lookupDeviceTokenRate cfg (readersOnly (insert t T)) t.2.latencyUsSLO.toNat := by
  unfold deviceRate
  rw [strictest_insert critical, min_eq_left less]

end Sets

/-! ## The tenants of a registry -/

/-- A tenant as the table has it: the flow id and the SLO. -/
def FlowGroup.tenant (fg : FlowGroup) : Int32 × SLO := (fg.flowGroupId, fg.slo)

def Registry.tenants (r : Registry) : Finset (Int32 × SLO) :=
  ((Finset.range maxNvmeFlowGroups).filter fun h => r.Live h).image fun h => (r.nvmeFgs h).tenant

/-- No two connected slots have the same flow id. -/
def Registry.Distinct (r : Registry) : Prop :=
  ∀ h h', r.Live h → r.Live h' → (r.nvmeFgs h).flowGroupId = (r.nvmeFgs h').flowGroupId → h = h'

section Registry

variable {cfg : Cfg} {r : Registry}

theorem mem_tenants (wf : r.Wf cfg) {t} : t ∈ r.tenants ↔ ∃ h, r.Live h ∧ (r.nvmeFgs h).tenant = t := by
  simp only [Registry.tenants, mem_image, mem_filter, mem_range]
  constructor
  · rintro ⟨h, ⟨-, live⟩, same⟩
    exact ⟨h, live, same⟩
  · rintro ⟨h, live, same⟩
    exact ⟨h, ⟨(wf.entries h).inTable live, live⟩, same⟩

theorem mem_lcTenants_iff (wf : r.Wf cfg) {t} :
    t ∈ lcTenants r.tenants ↔ ∃ h, r.Live h ∧ (r.nvmeFgs h).latencyCriticalFlag = true ∧ (r.nvmeFgs h).tenant = t := by
  rw [mem_lcTenants, mem_tenants wf]
  constructor
  · rintro ⟨⟨h, live, rfl⟩, critical⟩
    exact ⟨h, live, (wf.entries h).critical.trans critical, rfl⟩
  · rintro ⟨h, live, critical, rfl⟩
    exact ⟨⟨h, live, rfl⟩, (wf.entries h).critical.symm.trans critical⟩

theorem tenant_injOn (distinct : r.Distinct) {p : Nat → Prop} (live : ∀ h, p h → r.Live h) :
    Set.InjOn (fun h => (r.nvmeFgs h).tenant) { h | p h } := by
  intro h mem h' mem' same
  exact distinct h h' (live h mem) (live h' mem') (Prod.ext_iff.1 same).1

theorem lcTenants_eq (wf : r.Wf cfg) : lcTenants r.tenants = r.lcFlows.image fun h => (r.nvmeFgs h).tenant := by
  ext t
  rw [mem_lcTenants_iff wf]
  simp only [Registry.lcFlows, mem_image, mem_filter, mem_range]
  constructor
  · rintro ⟨h, live, critical, same⟩
    exact ⟨h, ⟨(wf.entries h).inTable live, live, critical⟩, same⟩
  · rintro ⟨h, ⟨-, live, critical⟩, same⟩
    exact ⟨h, live, critical, same⟩

theorem bestEffort_eq (wf : r.Wf cfg) :
    (r.tenants.filter fun t => t.2.critical = false) = r.beFlows.image fun h => (r.nvmeFgs h).tenant := by
  ext t
  rw [mem_filter, mem_tenants wf]
  simp only [Registry.beFlows, mem_image, mem_filter, mem_range]
  constructor
  · rintro ⟨⟨h, live, rfl⟩, effort⟩
    exact ⟨h, ⟨(wf.entries h).inTable live, live, (wf.entries h).critical.trans effort⟩, rfl⟩
  · rintro ⟨h, ⟨-, live, effort⟩, rfl⟩
    exact ⟨⟨h, live, rfl⟩, (wf.entries h).critical.symm.trans effort⟩

theorem counters_of_tenants (wf : r.Wf cfg) (accounted : r.Accounted) (distinct : r.Distinct) :
    r.globalLCSumTokenRate = ∑ t ∈ lcTenants r.tenants, t.2.limit cfg ∧
      r.globalNumLcTenants = (lcTenants r.tenants).card ∧ r.globalNumBestEffortTenants = numBestEffort r.tenants := by
  have lcInj : Set.InjOn (fun h => (r.nvmeFgs h).tenant) r.lcFlows := fun h mem h' mem' =>
    tenant_injOn distinct (p := fun h => r.Live h) (fun _ live => live) (mem_filter.1 mem).2.1 (mem_filter.1 mem').2.1
  have beInj : Set.InjOn (fun h => (r.nvmeFgs h).tenant) r.beFlows := fun h mem h' mem' =>
    tenant_injOn distinct (p := fun h => r.Live h) (fun _ live => live) (mem_filter.1 mem).2.1 (mem_filter.1 mem').2.1
  refine ⟨?_, ?_, ?_⟩
  · rw [accounted.sum, lcTenants_eq wf, sum_image lcInj]
    exact sum_congr rfl fun h _ => (wf.entries h).limit
  · rw [accounted.lc, lcTenants_eq wf, card_image_of_injOn lcInj]
  · rw [accounted.be, numBestEffort, bestEffort_eq wf, card_image_of_injOn beInj]

end Registry

end Reflex.Nvme
