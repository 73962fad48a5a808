import Reflex.Nvme.Table

/-!
# The credit rate of latency-critical flows

`scaled_IOPuS_limit` is what the scheduler credits a latency-critical flow with. It is
written by the readjust pass only, from `scaled_IOPS_limit`, which a registration stores
in millions of tokens per second; the pass runs only when the boost changes and stops
after `global_num_lc_tenants` slots.
-/

namespace Reflex.Nvme
open Lib

/-- The token rate, in tokens per second, that the flow group's SLO costs. -/
def FlowGroup.reservation (cfg : Cfg) (fg : FlowGroup) : Nat := scaledIOPS cfg fg.slo.iopsSLO fg.slo.rwRatioSLO

/-- Every connected latency-critical flow is credited with its reservation plus the boost. -/
def Registry.Credited (cfg : Cfg) (r : Registry) : Prop :=
  ∀ h, r.Live h → (r.nvmeFgs h).latencyCriticalFlag = true →
    (r.nvmeFgs h).scaledIOPuSLimit * 10 ^ 6 = (r.nvmeFgs h).reservation cfg + r.globalLcBoostNoBE

/-- A readjust pass, if the new boost calls for one, gets to every connected latency-critical flow. -/
def Registry.ReadjustsAll (r : Registry) : Prop :=
  r.boostDue ≠ r.globalLcBoostNoBE → ∀ h, r.Live h → (r.nvmeFgs h).latencyCriticalFlag = true → r.Reached h

/-- Releasing slot `h`, if this is its last connection, readjusts every flow that stays. -/
def Registry.ReleaseCredits (cfg : Cfg) (r : Registry) (h : Nat) : Prop :=
  (r.nvmeFgs h).connRefCount = 1 → ((r.dropConn h).uncounted cfg h).ReadjustsAll

/-- The flow that is being connected in slot `h` reserves nothing, and the readjust pass
gets to it; without a pass, the slot holds the boost from earlier on. -/
def Registry.ConnectCredits (cfg : Cfg) (r : Registry) (h : Nat) : Prop :=
  (r.nvmeFgs h).latencyCriticalFlag = true →
    (r.nvmeFgs h).reservation cfg = 0 ∧ (r.boostDue ≠ r.globalLcBoostNoBE → r.Reached h) ∧
      (r.boostDue = r.globalLcBoostNoBE → (r.nvmeFgs h).scaledIOPuSLimit * 10 ^ 6 = r.globalLcBoostNoBE)

/-- The calls that keep the credit rates right. -/
def RegOp.Credits (cfg : Cfg) (s : NvmeState) : RegOp → Prop
  | .register cpu flowGroupId cookie slo swq =>
    s.SpareSlot cpu flowGroupId ∧
      (∀ i, s.search cpu flowGroupId = .already i → (s.nvmeFgs i).slo ≠ slo → s.ReleaseCredits cfg i) ∧
      (¬ s.Refused cfg cpu flowGroupId cookie slo →
        let counted := (s.candidate cfg cpu flowGroupId cookie slo).counted cfg (s.slotFor cpu flowGroupId)
        counted.ReadjustsAll ∧ (swq ≠ none → counted.ConnectCredits cfg (s.slotFor cpu flowGroupId)))
  | .unregister _ h => s.ReleaseCredits cfg h
  | .nvmeOpen _ _ _ => True

/-- The invariant of those calls: no connected latency-critical flow reserves anything,
and each is credited with the boost. -/
def Registry.CreditedFree (cfg : Cfg) (r : Registry) : Prop :=
  ∀ h, r.Live h → (r.nvmeFgs h).latencyCriticalFlag = true →
    (r.nvmeFgs h).reservation cfg = 0 ∧ (r.nvmeFgs h).scaledIOPuSLimit * 10 ^ 6 = r.globalLcBoostNoBE

theorem boostDue_lt (r : Registry) : r.boostDue < 2 ^ 64 := by
  have fits := wsub_lt 64 r.globalTokenRate r.globalLCSumTokenRate
  have share := Nat.div_le_self (wsub 64 r.globalTokenRate r.globalLCSumTokenRate) r.globalNumLcTenants
  unfold Registry.boostDue lcTokenRateBoostWhenNoBE
  split
  · decide
  · split
    · omega
    · decide

theorem creditDue_of_free {cfg} {r : Registry} (wf : r.Wf cfg) {h} (free : (r.nvmeFgs h).reservation cfg = 0)
    (reached : r.boostDue ≠ r.globalLcBoostNoBE → r.Reached h)
    (stale : r.boostDue = r.globalLcBoostNoBE → (r.nvmeFgs h).scaledIOPuSLimit * 10 ^ 6 = r.globalLcBoostNoBE) :
    r.creditDue h * 10 ^ 6 = r.boostDue := by
  unfold Registry.creditDue
  by_cases same : r.boostDue = r.globalLcBoostNoBE
  · simp only [same, ne_eq, not_true_eq_false, false_and, if_false]
    exact stale same
  · have limit : (r.nvmeFgs h).scaledIOPSLimit = 0 := by
      rw [(wf.entries h).limit, SLO.limit]
      rw [FlowGroup.reservation] at free
      rw [free, Nat.zero_div]
    have fits := boostDue_lt r
    rw [if_pos ⟨same, reached same⟩, limit, wadd_of_lt (by omega), Nat.zero_add]
    exact div_mul_cancel₀ _ (by norm_num)

namespace Registry.CreditedFree

variable {cfg : Cfg} {r : Registry}

theorem credited (free : r.CreditedFree cfg) : r.Credited cfg := by
  intro h live critical
  obtain ⟨reserves, credit⟩ := free h live critical
  rw [credit, reserves]
  simp

theorem publish (free : r.CreditedFree cfg) (wf : r.Wf cfg) (all : r.ReadjustsAll) : (publishRates r).CreditedFree cfg := by
  intro h live critical
  rw [publishRates_fg] at critical ⊢
  have live : r.Live h := by simpa [Registry.Live] using live
  obtain ⟨reserves, credit⟩ := free h live critical
  refine ⟨reserves, ?_⟩
  rw [publishRates_boost]
  exact creditDue_of_free wf reserves (fun changed => all changed h live critical) fun _ => credit

theorem dropConn (free : r.CreditedFree cfg) (h : Nat) : (r.dropConn h).CreditedFree cfg := by
  intro j live critical
  rcases eq_or_ne j h with rfl | same
  · have before : r.Live j := by
      have := dropConn_conns r j
      unfold Registry.Live at live ⊢
      omega
    have flag : (r.nvmeFgs j).latencyCriticalFlag = true := by simpa [Registry.dropConn] using critical
    simpa [Registry.dropConn, Registry.setFg, FlowGroup.reservation] using free j before flag
  · simp only [Registry.Live, dropConn_of_ne r same] at live critical ⊢
    exact free j live critical

theorem congr {r' : Registry} (free : r.CreditedFree cfg) (fgs : r'.nvmeFgs = r.nvmeFgs)
    (boost : r'.globalLcBoostNoBE = r.globalLcBoostNoBE) : r'.CreditedFree cfg := by
  intro h live critical
  rw [Registry.Live, fgs] at live
  rw [fgs] at critical ⊢
  rw [boost]
  exact free h live critical

section

variable (free : r.CreditedFree cfg)
include free

theorem disconnected (wf : r.Wf cfg) {h} (readjusts : r.ReleaseCredits cfg h) :
    (r.disconnected cfg h).CreditedFree cfg := by
  unfold Registry.disconnected
  by_cases last : (r.nvmeFgs h).connRefCount = 1
  · rw [if_pos last]
    have uncounted := (free.dropConn h).congr (uncounted_nvmeFgs cfg (r.dropConn h) h) (uncounted_boost cfg (r.dropConn h) h)
    exact (uncounted.publish ((wf.dropConn h).uncounted h) (readjusts last)).congr rfl rfl
  · rw [if_neg last]
    exact free.dropConn h

theorem prepared (wf : r.Wf cfg) {cpu flowGroupId slo}
    (readjusts : ∀ i, r.search cpu flowGroupId = .already i → (r.nvmeFgs i).slo ≠ slo → r.ReleaseCredits cfg i) :
    (r.prepared cfg cpu flowGroupId slo).CreditedFree cfg := by
  unfold Registry.prepared
  cases found : r.search cpu flowGroupId with
  | already i =>
    by_cases same : (r.nvmeFgs i).slo = slo
    · simpa [same] using free
    · simpa [same] using free.disconnected wf (readjusts i found same)
  | nextAvail i => exact free.congr rfl rfl

theorem candidate (wf : r.Wf cfg) {cpu flowGroupId slo}
    (spare : r.SpareSlot cpu flowGroupId)
    (readjusts : ∀ i, r.search cpu flowGroupId = .already i → (r.nvmeFgs i).slo ≠ slo → r.ReleaseCredits cfg i)
    (cookie : UInt64) : (r.candidate cfg cpu flowGroupId cookie slo).CreditedFree cfg := by
  intro j live critical
  rcases eq_or_ne j (r.slotFor cpu flowGroupId) with rfl | slot
  · rw [Registry.Live, candidate_conns] at live
    by_cases again : r.Reconnects cpu flowGroupId slo
    · obtain ⟨i, found, connected, same⟩ := again
      have slot : r.slotFor cpu flowGroupId = i := by rw [Registry.slotFor, found]; rfl
      have flag : (r.nvmeFgs i).latencyCriticalFlag = true := by
        rw [Registry.candidate, setFg_self, fillFlowGroup_critical] at critical
        rw [(wf.entries i).critical, same, critical]
      have before := free i connected flag
      rw [FlowGroup.reservation, same] at before
      rw [Registry.candidate, setFg_self, slot, prepared_of_same found same]
      exact before
    · exact absurd live (not_lt.2 (prepared_idle wf spare again))
  · rw [Registry.Live, Registry.candidate, setFg_of_ne _ _ slot] at live
    rw [Registry.candidate, setFg_of_ne _ _ slot] at critical ⊢
    exact free.prepared wf readjusts j live critical

theorem connected (wf : r.Wf cfg) {h} (all : r.ReadjustsAll)
    (connects : r.ConnectCredits cfg h) (q : Nat) : ((publishRates r).connected h q).CreditedFree cfg := by
  intro j live critical
  rcases eq_or_ne j h with rfl | same
  · rw [Registry.connected, setFg_self] at critical ⊢
    have flag : (r.nvmeFgs j).latencyCriticalFlag = true := by simpa using critical
    obtain ⟨reserves, reached, stale⟩ := connects flag
    refine ⟨by simpa [FlowGroup.reservation] using reserves, ?_⟩
    have due := creditDue_of_free wf reserves reached stale
    simpa [Registry.setFg] using due
  · rw [Registry.Live, Registry.connected, setFg_of_ne _ _ same] at live
    rw [Registry.connected, setFg_of_ne _ _ same] at critical ⊢
    exact free.publish wf all j live critical

end

end Registry.CreditedFree

theorem RegStep.creditedFree {cfg s t op}
    (step : Guarded (RegStep cfg) (RegOp.Credits cfg) s op t) (wf : s.Wf cfg) (free : s.CreditedFree cfg) :
    t.CreditedFree cfg := by
  obtain ⟨⟨-, rfl⟩, ok⟩ := step
  cases op with
  | register cpu flowGroupId cookie slo swq =>
    obtain ⟨spare, readjusts, admitted⟩ := ok
    have candidate := free.candidate wf spare readjusts cookie
    have countedWf := (wf.candidate cpu flowGroupId cookie slo).counted (s.slotFor cpu flowGroupId)
    have counted := candidate.congr (counted_nvmeFgs cfg _ (s.slotFor cpu flowGroupId))
      (counted_boost cfg _ (s.slotFor cpu flowGroupId))
    rw [next_register]
    unfold Registry.registered
    by_cases refused : s.Refused cfg cpu flowGroupId cookie slo
    · simp only [refused, if_true]
      exact candidate.congr rfl rfl
    · simp only [refused, if_false]
      obtain ⟨all, connects⟩ := admitted refused
      cases swq with
      | none => exact counted.publish countedWf all
      | some q => exact counted.connected countedWf all (connects (Option.some_ne_none q)) q
  | unregister cpu h =>
    rw [next_unregister]
    exact free.disconnected wf ok
  | nvmeOpen cpu nsSize nsSectorSize =>
    simp only [RegOp.next, RegOp.run, bsysNvmeOpen]
    split
    · exact free
    · exact free.congr rfl rfl

/-- In a run of such calls every connected latency-critical flow is credited with its
reservation plus the boost, and so never with less than its reservation. -/
theorem flows_credited {cfg : Cfg} {now tsc : Nat → Nat} {ops : List RegOp} {s : NvmeState}
    (run : Run (Guarded (RegStep cfg) (RegOp.Credits cfg)) (NvmeState.init now tsc) ops s) :
    s.Credited cfg ∧ ∀ h, s.Live h → (s.nvmeFgs h).latencyCriticalFlag = true →
      ((s.nvmeFgs h).reservation cfg : ℚ) ≤ (s.nvmeFgs h).scaledIOPuSLimit * 10 ^ 6 := by
  have start : (NvmeState.init now tsc).CreditedFree cfg := fun h live => absurd live (lt_irrefl (0 : Int))
  have keep : ∀ s op t, Guarded (RegStep cfg) (RegOp.Credits cfg) s op t →
      (s.Wf cfg ∧ s.CreditedFree cfg) → (t.Wf cfg ∧ t.CreditedFree cfg) := by
    rintro s op t step ⟨wf, free⟩
    exact ⟨step.1.wf wf, RegStep.creditedFree step wf free⟩
  have credited := (run.invariant keep ⟨Registry.init_wf cfg, start⟩).2.credited
  refine ⟨credited, fun h live critical => ?_⟩
  rw [credited h live critical]
  exact le_add_of_nonneg_right (Nat.cast_nonneg _)

/-- A latency-critical flow that reserves nothing, alone on the device. -/
def loneFlow : RegOp := .register 0 1 0 ⟨1000, 0, 100⟩ (some 0)

/-- The table in which `loneFlow` is counted. -/
def loneFlowTable : Registry :=
  let entry := fillFlowGroup flatCfg .zero 0 1 0 ⟨1000, 0, 100⟩
  Registry.counted flatCfg { Registry.init with
    nvmeFgs := Function.update Registry.init.nvmeFgs 1 entry
    nvmeFgsBitmap := Function.update Registry.init.nvmeFgsBitmap 1 true } 1

theorem loneFlow_credits : loneFlow.Credits flatCfg coldState := by
  have found : coldState.search 0 1 = .nextAvail 1 := search_init 0 1
  have counted : (coldState.candidate flatCfg 0 1 0 ⟨1000, 0, 100⟩).counted flatCfg 1 = loneFlowTable := by
    rw [candidate_of_new found]
    rfl
  have idle : ∀ h, ¬ loneFlowTable.Live h := by
    intro h
    rw [Registry.Live, loneFlowTable, counted_nvmeFgs]
    rcases eq_or_ne h 1 with rfl | first
    · exact lt_irrefl (0 : Int)
    · simp [first, Registry.init, FlowGroup.zero]
  refine ⟨fun i _ live => absurd live (lt_irrefl (0 : Int)), fun i already => ?_, fun _ => ?_⟩
  · rw [found] at already
    cases already
  · rw [slotFor_of_new found, counted]
    refine ⟨fun _ h live => absurd live (idle h), fun _ _ => ⟨?_, fun _ => ?_, fun same => ?_⟩⟩
    · decide +kernel
    · decide +kernel
    · exact absurd same (by decide +kernel)

theorem lone_flow_credited :
    ∃ s, Run (Guarded (RegStep flatCfg) (RegOp.Credits flatCfg)) coldState [loneFlow] s ∧ s.Credited flatCfg := by
  have run := Run.single (@RegStep.guarded flatCfg (RegOp.Credits flatCfg) coldState loneFlow (fresh_of_free rfl)
    loneFlow_credits)
  exact ⟨_, run, (flows_credited run).1⟩

/-- A latency-critical flow that arrives while a best-effort flow is connected: the boost
stays zero, no readjust pass runs, and the flow is credited with nothing. -/
theorem arrival_beside_best_effort_uncredited :
    ∃ s, Run (RegStep flatCfg) coldState [firstFlow, .register 0 2 0 ⟨1000, 1000, 100⟩ (some 1)] s ∧
      s.Live 2 ∧ (s.nvmeFgs 2).latencyCriticalFlag = true ∧ (s.nvmeFgs 2).reservation flatCfg = 100000 ∧
      (s.nvmeFgs 2).scaledIOPuSLimit = 0 ∧ ¬ s.Credited flatCfg := by
  obtain ⟨s, run, one⟩ := exists_oneFlow
  have found := oneFlow_search_other one
  have admitted : ¬ s.Refused flatCfg 0 2 0 ⟨1000, 1000, 100⟩ := by
    rw [Registry.Refused, candidate_of_new found, slotFor_of_new found, one.table]
    decide +kernel
  have table := (next_register flatCfg s 0 2 0 ⟨1000, 1000, 100⟩ (some 1)).trans (registered_granted admitted 1)
  have step : RegStep flatCfg s (.register 0 2 0 ⟨1000, 1000, 100⟩ (some 1)) _ := ⟨fresh_of_free (by simp [one.allocated]), rfl⟩
  generalize (RegOp.register 0 2 0 ⟨1000, 1000, 100⟩ (some 1)).next flatCfg s = t at table step
  rw [slotFor_of_new found, candidate_of_new found, one.table, Registry.connected, publishRates_fg] at table
  have entry := congrArg (fun r => r.nvmeFgs 2) table
  simp only [setFg_self] at entry
  have live : t.Live 2 := by
    rw [Registry.Live, entry]
    decide
  have critical : (t.nvmeFgs 2).latencyCriticalFlag = true := by
    rw [entry]
    decide +kernel
  have cost : (t.nvmeFgs 2).reservation flatCfg = 100000 := by
    rw [entry]
    decide +kernel
  have credit : (t.nvmeFgs 2).scaledIOPuSLimit = 0 := by
    rw [entry]
    decide +kernel
  refine ⟨t, run.append (.single step), live, critical, cost, credit, fun credited => ?_⟩
  have due := credited 2 live critical
  rw [credit, cost] at due
  have boost : (0 : ℚ) ≤ (t.globalLcBoostNoBE : ℚ) := Nat.cast_nonneg _
  norm_num at due
  linarith

end Reflex.Nvme
