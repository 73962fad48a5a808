import Reflex.Nvme.Table

/-!
# What a failed registration leaves behind

`bsys_nvme_register_flow` allocates its slot, writes it, may unregister the flow's old SLO and lowers the
read-only flag before the two points where it can fail, and undoes nothing.
-/

namespace Reflex.Nvme
open Lib Registry

/-- All that the registration tables, the thread's tenants and the scheduling rates show
is as before. -/
structure Unchanged (cpu : Nat) (s t : NvmeState) : Prop where
  bitmap : t.nvmeFgsBitmap = s.nvmeFgsBitmap
  entries : ∀ h, s.nvmeFgsBitmap h = true → t.nvmeFgs h = s.nvmeFgs h
  tenants : t.nvmeTenantManager cpu = s.nvmeTenantManager cpu
  readonly : t.globalReadonlyFlag = s.globalReadonlyFlag
  rate : t.globalTokenRate = s.globalTokenRate
  sum : t.globalLCSumTokenRate = s.globalLCSumTokenRate
  numBe : t.globalNumBestEffortTenants = s.globalNumBestEffortTenants
  numLc : t.globalNumLcTenants = s.globalNumLcTenants
  beRate : t.globalBeTokenRatePerTenant = s.globalBeTokenRatePerTenant
  boost : t.globalLcBoostNoBE = s.globalLcBoostNoBE
  leftover : t.globalLeftoverTokens = s.globalLeftoverTokens

/-- The slot that the search yields is allocated and holds this very registration. -/
structure Registry.Repeats (r : Registry) (cpu : Nat) (flowGroupId : Int64) (cookie : UInt64) (slo : SLO) : Prop where
  bit : r.nvmeFgsBitmap (r.slotFor cpu flowGroupId) = true
  flow : (r.nvmeFgs (r.slotFor cpu flowGroupId)).flowGroupId = flowGroupId.toInt32
  cookie : (r.nvmeFgs (r.slotFor cpu flowGroupId)).cookie = cookie
  slo : (r.nvmeFgs (r.slotFor cpu flowGroupId)).slo = slo
  thread : (r.nvmeFgs (r.slotFor cpu flowGroupId)).tid = cpu

/-! ## Mixed workloads clear the read-only flag -/

/-- Allocated latency-critical slots with writes, other than `h`, have cleared the read-only flag. -/
def Registry.NotedBut (r : Registry) (h : Nat) : Prop :=
  ∀ i < maxNvmeFlowGroups, i ≠ h → r.lcSlot i = true → (r.nvmeFgs i).slo.rwRatioSLO.toInt < 100 → r.globalReadonlyFlag = false

def Registry.Noted (r : Registry) : Prop :=
  ∀ i < maxNvmeFlowGroups, r.lcSlot i = true → (r.nvmeFgs i).slo.rwRatioSLO.toInt < 100 → r.globalReadonlyFlag = false

theorem readonlyWith_of_clear {r : Registry} (clear : r.globalReadonlyFlag = false) (slo : SLO) : r.readonlyWith slo = false := by
  simp [readonlyWith, clear]

namespace Registry.NotedBut

variable {r : Registry} {h : Nat}

/-- The admission check notes the flow in slot `h`. -/
theorem refusedFlag (noted : r.NotedBut h) : (r.refusedFlag h).Noted := by
  intro i bound slot writes
  rcases eq_or_ne i h with rfl | same
  · exact if_pos writes
  · exact readonlyWith_of_clear (noted i bound same slot writes) _

theorem counted (noted : r.NotedBut h) (cfg : Cfg) : (r.counted cfg h).Noted := by
  intro i bound slot writes
  rw [Registry.lcSlot, counted_bitmap, counted_nvmeFgs] at slot
  rw [counted_nvmeFgs] at writes
  unfold Registry.counted
  split
  · rcases eq_or_ne i h with rfl | same
    · exact if_pos writes
    · exact readonlyWith_of_clear (noted i bound same slot writes) _
  · rfl

end Registry.NotedBut

namespace Registry.Noted

variable {cfg : Cfg} {r : Registry}

theorem congr {r' : Registry} (noted : r.Noted) (slots : ∀ i, r'.lcSlot i = r.lcSlot i)
    (slos : ∀ i, (r'.nvmeFgs i).slo = (r.nvmeFgs i).slo) (flag : r'.globalReadonlyFlag = r.globalReadonlyFlag) : r'.Noted := by
  intro i bound slot writes
  rw [slots] at slot
  rw [slos] at writes
  rw [flag]
  exact noted i bound slot writes

section

variable (noted : r.Noted)
include noted

theorem publish : (publishRates r).Noted :=
  noted.congr (fun i => by simp [lcSlot]) (fun i => by simp) (by simp)

theorem dropConn (h : Nat) : (r.dropConn h).Noted :=
  noted.congr (dropConn_lcSlot r h) (dropConn_slo r h) rfl

theorem released (h : Nat) : (r.released cfg h).Noted := by
  intro i bound slot writes
  have other : i ≠ h := by
    rintro rfl
    simp [Registry.released, Registry.lcSlot] at slot
  simp only [Registry.released, Registry.lcSlot, setBit_bitmap, Function.update_of_ne other, setBit_nvmeFgs,
    publishRates_bitmap, publishRates_fg, uncounted_bitmap, uncounted_nvmeFgs] at slot writes
  have mixed : r.othersReadonly h = false := by
    rw [← Bool.not_eq_true, othersReadonly_iff]
    intro pure
    have reads := pure i bound (by simpa [Registry.otherLcSlot, other] using slot)
    omega
  have flag := noted i bound slot writes
  simp only [Registry.released, Registry.setBit, publishRates_readonly, Registry.uncounted]
  split <;> simp [mixed, flag]

theorem disconnected (h : Nat) : (r.disconnected cfg h).Noted := by
  unfold Registry.disconnected
  split
  · exact (noted.dropConn h).released h
  · exact noted.dropConn h

theorem candidate (cfg : Cfg) (cpu : Nat) (flowGroupId : Int64) (cookie : UInt64) (slo : SLO) :
    (r.candidate cfg cpu flowGroupId cookie slo).NotedBut (r.slotFor cpu flowGroupId) := by
  have prepared : (r.prepared cfg cpu flowGroupId slo).NotedBut (r.slotFor cpu flowGroupId) := by
    unfold Registry.prepared Registry.slotFor
    cases r.search cpu flowGroupId with
    | already i =>
      by_cases same : (r.nvmeFgs i).slo = slo
      · simp only [same, ne_eq, not_true_eq_false, if_false]
        exact fun j bound _ => noted j bound
      · simp only [ne_eq, same, not_false_eq_true, if_true]
        exact fun j bound _ => noted.disconnected i j bound
    | nextAvail i =>
      intro j bound other slot
      apply noted j bound
      have other : j ≠ i := other
      simpa [Registry.lcSlot, other] using slot
  intro j bound other slot writes
  refine prepared j bound other ?_ ?_
  · simpa [Registry.candidate, Registry.lcSlot, other] using slot
  · simpa [Registry.candidate, other] using writes

theorem registered (cpu : Nat) (flowGroupId : Int64) (cookie : UInt64) (slo : SLO) (swq : Option Nat) :
    (r.registered cfg cpu flowGroupId cookie slo swq).Noted := by
  have candidate := noted.candidate cfg cpu flowGroupId cookie slo
  unfold Registry.registered
  simp only
  split
  · exact candidate.refusedFlag
  · have published := (candidate.counted cfg).publish
    split
    · exact published
    · exact published.congr (connected_lcSlot _ _ _) (connected_slo _ _ _) rfl

end

end Registry.Noted

theorem RegStep.noted {cfg s t op} (step : RegStep cfg s op t) (noted : s.Noted) : t.Noted := by
  obtain ⟨-, rfl⟩ := step
  cases op with
  | register cpu flowGroupId cookie slo swq =>
    rw [next_register]
    exact noted.registered cpu flowGroupId cookie slo swq
  | unregister cpu h =>
    rw [next_unregister]
    exact noted.disconnected h
  | nvmeOpen cpu nsSize nsSectorSize =>
    simp only [RegOp.next, RegOp.run, bsysNvmeOpen]
    split
    · exact noted
    · intro i _ slot
      simp [lcSlot] at slot

theorem init_noted : init.Noted := by
  intro i _ slot
  simp [lcSlot, init] at slot

/-! ## A refused repetition -/

theorem candidate_of_repeats {cfg} {r : Registry} (wf : r.Wf cfg) {cpu flowGroupId cookie slo}
    (repeats : r.Repeats cpu flowGroupId cookie slo) :
    r.prepared cfg cpu flowGroupId slo = r ∧ r.candidate cfg cpu flowGroupId cookie slo = r := by
  have prepared : r.prepared cfg cpu flowGroupId slo = r := by
    cases found : r.search cpu flowGroupId with
    | already i =>
      have same := repeats.slo
      rw [slotFor_of_already found] at same
      exact prepared_of_same found same
    | nextAvail i =>
      have bit := repeats.bit
      rw [slotFor_of_new found] at bit
      rw [prepared_of_new found, setBit, ← bit, Function.update_eq_self]
  have entry : fillFlowGroup cfg (r.nvmeFgs (r.slotFor cpu flowGroupId)) cpu flowGroupId cookie slo =
      r.nvmeFgs (r.slotFor cpu flowGroupId) := by
    have wfEntry := wf.entries (r.slotFor cpu flowGroupId)
    apply FlowGroup.ext
    · exact repeats.flow.symm
    · exact repeats.cookie.symm
    · exact repeats.slo.symm
    · rw [fillFlowGroup_limit, wfEntry.limit, repeats.slo]
    · rfl
    · rw [fillFlowGroup_critical, wfEntry.critical, repeats.slo]
    · rfl
    · exact repeats.thread.symm
    · rfl
  refine ⟨prepared, ?_⟩
  rw [candidate, prepared, entry, setFg, Function.update_eq_self]

section Failure

variable {cfg : Cfg} {s : NvmeState} {cpu : Nat} {flowGroupId : Int64} {cookie : UInt64} {slo : SLO} {swq : Option Nat}

theorem failed_iff :
    (bsysNvmeRegisterFlow cfg s cpu flowGroupId cookie slo swq).1 ≠ retOk ↔
      s.Refused cfg cpu flowGroupId cookie slo ∨ swq = none := by
  rw [register_eq]
  by_cases refused : s.Refused cfg cpu flowGroupId cookie slo
  · simp [refused, retOk, retCantmeetslo]
  · cases swq <;> simp [refused, retOk, retNomem]

theorem repeats_of_unchanged (failed : s.Refused cfg cpu flowGroupId cookie slo ∨ swq = none)
    (unchanged : Unchanged cpu s (bsysNvmeRegisterFlow cfg s cpu flowGroupId cookie slo swq).2) :
    s.Repeats cpu flowGroupId cookie slo := by
  have bitmap := unchanged.bitmap
  have entries := unchanged.entries
  rw [register_toRegistry] at bitmap entries
  rw [registered_bitmap] at bitmap
  obtain ⟨credit, entry⟩ := registered_entry_of_failed failed
  have bit : s.nvmeFgsBitmap (s.slotFor cpu flowGroupId) = true := by
    cases found : s.search cpu flowGroupId with
    | already i =>
      rw [slotFor_of_already found]
      exact (search_already found).2.2.1
    | nextAvail i =>
      rw [slotFor_of_new found, ← bitmap, prepared_of_new found]
      simp
  have kept := (entries _ bit).symm.trans entry
  exact ⟨bit, by rw [kept]; rfl, by rw [kept]; rfl, by rw [kept]; rfl, by rw [kept]; rfl⟩

theorem wadd_one_ne (n : Nat) : wadd 64 n 1 ≠ n := by
  unfold wadd
  omega

theorem refuses_of_unchanged (wf : s.Wf cfg) (failed : s.Refused cfg cpu flowGroupId cookie slo ∨ swq = none)
    (unchanged : Unchanged cpu s (bsysNvmeRegisterFlow cfg s cpu flowGroupId cookie slo swq).2) :
    s.refuses cfg (s.slotFor cpu flowGroupId) := by
  have same := (candidate_of_repeats wf (repeats_of_unchanged failed unchanged)).2
  by_contra admitted
  have passes : ¬ s.Refused cfg cpu flowGroupId cookie slo := by
    rw [Registry.Refused, same]
    exact admitted
  obtain rfl := failed.resolve_left passes
  have numLc := unchanged.numLc
  have numBe := unchanged.numBe
  rw [register_toRegistry] at numLc numBe
  simp only [registered, passes, if_false, same, publishRates_numLc, publishRates_numBe, counted] at numLc numBe
  split at numLc
  · exact wadd_one_ne _ numLc
  · rename_i effort
    rw [if_neg effort] at numBe
    exact wadd_one_ne _ numBe

theorem unchanged_of_repeats (wf : s.Wf cfg) (noted : s.Noted) (repeats : s.Repeats cpu flowGroupId cookie slo)
    (refuses : s.refuses cfg (s.slotFor cpu flowGroupId)) :
    Unchanged cpu s (bsysNvmeRegisterFlow cfg s cpu flowGroupId cookie slo swq).2 := by
  obtain ⟨prepared, candidate⟩ := candidate_of_repeats wf repeats
  have refused : s.Refused cfg cpu flowGroupId cookie slo := by
    rw [Registry.Refused, candidate]
    exact refuses
  have flag : (s.refusedFlag (s.slotFor cpu flowGroupId)).globalReadonlyFlag = s.globalReadonlyFlag := by
    simp only [refusedFlag, readonlyWith]
    split
    · rename_i writes
      have slot : s.lcSlot (s.slotFor cpu flowGroupId) = true := by
        rw [lcSlot, repeats.bit, refuses.1]
        rfl
      exact (noted _ (search_handle_lt _ _ _) slot writes).symm
    · rfl
  have others : (prepareFlow cfg s cpu flowGroupId slo).2.nvmeTenantManager = s.nvmeTenantManager ∧
      (prepareFlow cfg s cpu flowGroupId slo).2.globalLeftoverTokens = s.globalLeftoverTokens := by
    cases found : s.search cpu flowGroupId with
    | already i =>
      have same := repeats.slo
      rw [slotFor_of_already found] at same
      rw [prepareFlow_of_same found same]
      exact ⟨rfl, rfl⟩
    | nextAvail i =>
      rw [prepareFlow_of_new found]
      exact ⟨rfl, rfl⟩
  rw [register_eq]
  simp only [refused, if_true, candidate]
  exact ⟨rfl, fun h _ => rfl, congrFun others.1 cpu, flag, rfl, rfl, rfl, rfl, rfl, rfl, others.2⟩

/-- From every reachable state, a registration that fails leaves everything as it was
exactly when its slot is allocated, holds these very arguments, and the check refuses it. -/
theorem failed_registration_unchanged_iff {now tsc : Nat → Nat} {ops : List RegOp}
    (run : Run (RegStep cfg) (NvmeState.init now tsc) ops s)
    (failed : (bsysNvmeRegisterFlow cfg s cpu flowGroupId cookie slo swq).1 ≠ retOk) :
    Unchanged cpu s (bsysNvmeRegisterFlow cfg s cpu flowGroupId cookie slo swq).2 ↔
      s.Repeats cpu flowGroupId cookie slo ∧ s.refuses cfg (s.slotFor cpu flowGroupId) := by
  have wf := reachable_wf run
  have noted : s.Noted := run.invariant (I := fun s => s.Noted) (fun _ _ _ => RegStep.noted) init_noted
  rw [failed_iff] at failed
  constructor
  · intro unchanged
    exact ⟨repeats_of_unchanged failed unchanged, refuses_of_unchanged wf failed unchanged⟩
  · rintro ⟨repeats, refuses⟩
    exact unchanged_of_repeats wf noted repeats refuses

end Failure

/-- A reservation far beyond what any device gives. -/
def greedySLO : SLO := ⟨1000, 100000000000000, 100⟩

theorem greedy_refused {s : NvmeState} (cold : s.toRegistry = .init) : s.Refused flatCfg 0 1 0 greedySLO := by
  have found : s.search 0 1 = .nextAvail 1 := cold ▸ search_init 0 1
  rw [Registry.Refused, candidate_of_new found, slotFor_of_new found, cold]
  decide +kernel

theorem greedy_unchanged_iff :
    ∃ s, Run (RegStep flatCfg) coldState [] s ∧
      (bsysNvmeRegisterFlow flatCfg s 0 1 0 greedySLO (some 0)).1 ≠ retOk ∧
      (Unchanged 0 s (bsysNvmeRegisterFlow flatCfg s 0 1 0 greedySLO (some 0)).2 ↔
        s.Repeats 0 1 0 greedySLO ∧ s.refuses flatCfg (s.slotFor 0 1)) := by
  have failed : (bsysNvmeRegisterFlow flatCfg coldState 0 1 0 greedySLO (some 0)).1 ≠ retOk :=
    failed_iff.2 (Or.inl (greedy_refused rfl))
  exact ⟨coldState, .nil _, failed, failed_registration_unchanged_iff (.nil _) failed⟩

/-- The first registration ever, refused: its slot stays allocated. -/
theorem refused_registration_keeps_slot :
    ∃ s, Run (RegStep flatCfg) coldState [] s ∧
      (bsysNvmeRegisterFlow flatCfg s 0 1 0 greedySLO (some 0)).1 = -retCantmeetslo ∧
      ¬ Unchanged 0 s (bsysNvmeRegisterFlow flatCfg s 0 1 0 greedySLO (some 0)).2 := by
  have refused := greedy_refused (s := coldState) rfl
  refine ⟨coldState, .nil _, ?_, fun unchanged => ?_⟩
  · rw [register_eq]
    simp only [refused, if_true]
  · have repeats := repeats_of_unchanged (Or.inl refused) unchanged
    have found : coldState.search 0 1 = .nextAvail 1 := search_init 0 1
    have bit := repeats.bit
    rw [slotFor_of_new found] at bit
    exact absurd bit Bool.false_ne_true

end Reflex.Nvme
