import Reflex.Nvme.Accounting

/-!
# What is promised and what the device gives

`global_LC_sum_token_rate` is what the latency-critical flows have reserved and `global_token_rate` what the
device gives at the strictest latency.
-/

namespace Reflex.Nvme
open Lib Registry

/-- The rate the device gives at the strictest latency and the mode of the
latency-critical slots other than `idx`. -/
def Registry.supports (cfg : Cfg) (r : Registry) (idx : Nat) : Nat :=
  lookupDeviceTokenRate cfg (r.othersReadonly idx) (r.strictestLatency idx)

/-- The same over all latency-critical slots: the index past the table leaves none out. -/
def Registry.commitLimit (cfg : Cfg) (r : Registry) : Nat := r.supports cfg maxNvmeFlowGroups

theorem otherLcSlot_all (r : Registry) {i} (bound : i < maxNvmeFlowGroups) :
    r.otherLcSlot maxNvmeFlowGroups i = r.lcSlot i := by
  simp [otherLcSlot, lcSlot, Nat.ne_of_lt bound]

theorem supports_mono {cfg} (device : MonotoneDevice cfg) {r r' : Registry} {idx idx'}
    (fewer : ∀ i < maxNvmeFlowGroups, r'.otherLcSlot idx' i = true →
      r.otherLcSlot idx i = true ∧ (r'.nvmeFgs i).slo = (r.nvmeFgs i).slo) :
    r.supports cfg idx ≤ r'.supports cfg idx' := by
  refine lookupDeviceTokenRate_mono device (fun pure => ?_) ?_ (strictestLatency_le_uintMax r' idx')
  · apply othersReadonly_iff.2
    intro i bound slot
    obtain ⟨before, same⟩ := fewer i bound slot
    rw [same]
    exact othersReadonly_iff.1 pure i bound before
  · refine le_strictestLatency_iff.2 ⟨strictestLatency_le_uintMax r idx, fun i bound slot => ?_⟩
    obtain ⟨before, same⟩ := fewer i bound slot
    rw [same]
    exact (le_strictestLatency_iff.1 (le_refl (r.strictestLatency idx))).2 i bound before

theorem commitLimit_mono {cfg} (device : MonotoneDevice cfg) {r r' : Registry}
    (fewer : ∀ i, r'.lcSlot i = true → r.lcSlot i = true ∧ (r'.nvmeFgs i).slo = (r.nvmeFgs i).slo) :
    r.commitLimit cfg ≤ r'.commitLimit cfg := by
  apply supports_mono device
  intro i bound slot
  rw [otherLcSlot_all _ bound] at slot ⊢
  exact fewer i slot

theorem commitLimit_le_supports {cfg} (device : MonotoneDevice cfg) (r : Registry) (h : Nat) :
    r.commitLimit cfg ≤ r.supports cfg h := by
  refine supports_mono device fun i bound slot => ⟨?_, rfl⟩
  rw [otherLcSlot_all _ bound]
  simp only [otherLcSlot, Bool.and_eq_true] at slot
  simp [lcSlot, slot.1.1, slot.2]

/-- The published rates are those that the counters call for. -/
structure Registry.Published (r : Registry) : Prop where
  be : r.globalBeTokenRatePerTenant = r.beRateDue.toInt32
  boost : r.globalLcBoostNoBE = r.boostDue

theorem published_publishRates (r : Registry) : (publishRates r).Published where
  be := by simp [beRateDue]
  boost := by simp [boostDue]

structure Registry.Committed (cfg : Cfg) (r : Registry) : Prop where
  sum : r.globalLCSumTokenRate ≤ r.globalTokenRate
  limit : r.globalLCSumTokenRate ≤ r.commitLimit cfg
  rateFits : r.globalTokenRate ≤ uintMax
  books : ∃ lost, r.Books .sum lost
  published : r.Published

/-- What the counted reservations come to once the call has made its admission check. -/
def Registry.sumAfter (cfg : Cfg) (r : Registry) (cpu : Nat) (flowGroupId : Int64) (cookie : UInt64) (slo : SLO) : Nat :=
  if r.Refused cfg cpu flowGroupId cookie slo then r.globalLCSumTokenRate
  else ((r.candidate cfg cpu flowGroupId cookie slo).counted cfg (r.slotFor cpu flowGroupId)).globalLCSumTokenRate

/-- A registration takes a slot without connections, and what is reserved after the call
fits the rate of all latency-critical slots with the new one among them, admitted or not. -/
def RegOp.WithinLimit (cfg : Cfg) (s : NvmeState) : RegOp → Prop
  | .register cpu flowGroupId cookie slo _ =>
    ¬ s.Live (s.slotFor cpu flowGroupId) ∧
      (slo.latencyUsSLO ≠ 0 →
        s.sumAfter cfg cpu flowGroupId cookie slo ≤ (s.candidate cfg cpu flowGroupId cookie slo).commitLimit cfg)
  | _ => True

theorem counted_sum_le_rate {cfg} {r : Registry} {h} (admitted : ¬ r.refuses cfg h)
    (sum : r.globalLCSumTokenRate ≤ r.globalTokenRate) :
    (r.counted cfg h).globalLCSumTokenRate ≤ (r.counted cfg h).globalTokenRate := by
  unfold counted
  split
  · rename_i critical
    exact not_lt.1 fun exceeds => admitted ⟨critical, exceeds⟩
  · exact sum

theorem counted_rate_le (cfg : Cfg) (r : Registry) (h : Nat) : (r.counted cfg h).globalTokenRate ≤ r.globalTokenRate := by
  unfold counted
  split
  · unfold rateWith
    simp only
    split <;> omega
  · exact le_refl _

namespace Registry.Committed

variable {cfg : Cfg} {r : Registry}

/-- The counters after the last connection of slot `h` left, before they are published. -/
theorem uncounted (committed : r.Committed cfg) (wf : r.Wf cfg) (device : MonotoneDevice cfg) {h}
    (live : r.Live h) :
    ((r.dropConn h).uncounted cfg h).globalLCSumTokenRate ≤ r.globalLCSumTokenRate ∧
      ((r.dropConn h).uncounted cfg h).globalLCSumTokenRate ≤ ((r.dropConn h).uncounted cfg h).globalTokenRate ∧
      ((r.dropConn h).uncounted cfg h).globalTokenRate ≤ uintMax := by
  obtain ⟨lost, books⟩ := committed.books
  by_cases critical : (r.nvmeFgs h).latencyCriticalFlag = true
  · have limit : ((r.dropConn h).nvmeFgs h).scaledIOPSLimit ≤ r.globalLCSumTokenRate := by
      have share : Counter.sum.due (r.nvmeFgs h) ≤ r.total .sum :=
        Finset.single_le_sum (fun i _ => Nat.zero_le (Counter.sum.due (r.nvmeFgs i)))
          (Finset.mem_range.2 ((wf.entries h).inTable live))
      rw [due_of_connected live] at share
      simp only [Counter.share, critical, if_true] at share
      have count : r.globalLCSumTokenRate = r.total .sum + lost := books
      simp only [Registry.dropConn, setFg_self]
      omega
    have rate : r.commitLimit cfg ≤ (r.dropConn h).supports cfg h := by
      refine (commitLimit_mono device fun i slot => ?_).trans (commitLimit_le_supports device (r.dropConn h) h)
      rw [dropConn_lcSlot] at slot
      exact ⟨slot, dropConn_slo r h i⟩
    have flag := (dropConn_critical r h h).trans critical
    have sum : wsub 64 (r.dropConn h).globalLCSumTokenRate ((r.dropConn h).nvmeFgs h).scaledIOPSLimit ≤ r.globalLCSumTokenRate := by
      rw [show (r.dropConn h).globalLCSumTokenRate = r.globalLCSumTokenRate from rfl, wsub_of_le limit wf.sumFits]
      exact Nat.sub_le _ _
    simp only [Registry.uncounted, flag, if_true]
    exact ⟨sum, (sum.trans committed.limit).trans rate,
      lookupDeviceTokenRate_fits device _ (strictestLatency_le_uintMax _ _)⟩
  · have flag : ¬ ((r.dropConn h).nvmeFgs h).latencyCriticalFlag = true := by rwa [dropConn_critical]
    simp only [Registry.uncounted, flag, Bool.false_eq_true, if_false]
    exact ⟨le_refl _, committed.sum, committed.rateFits⟩

theorem disconnected (committed : r.Committed cfg) (wf : r.Wf cfg) (device : MonotoneDevice cfg) (h : Nat) :
    (r.disconnected cfg h).Committed cfg := by
  have books : ∃ lost, (r.disconnected cfg h).Books .sum lost := committed.books.imp fun _ books => books.disconnected wf h
  have slots : ∀ i, (r.disconnected cfg h).lcSlot i = true →
      r.lcSlot i = true ∧ ((r.disconnected cfg h).nvmeFgs i).slo = (r.nvmeFgs i).slo := by
    intro i slot
    unfold Registry.disconnected at slot ⊢
    split at slot
    · rename_i last
      rw [if_pos last]
      simp only [Registry.released, Registry.lcSlot, setBit_bitmap, setBit_nvmeFgs, publishRates_bitmap, publishRates_fg,
        uncounted_bitmap, uncounted_nvmeFgs, dropConn_critical, dropConn_slo, Bool.and_eq_true] at slot ⊢
      refine ⟨⟨?_, slot.2⟩, trivial⟩
      by_cases same : i = h
      · subst same; simp at slot
      · simpa [same, Registry.dropConn] using slot.1
    · rename_i more
      rw [if_neg more]
      rw [dropConn_lcSlot] at slot
      exact ⟨slot, dropConn_slo r h i⟩
  have limit := commitLimit_mono device slots
  by_cases last : (r.nvmeFgs h).connRefCount = 1
  · obtain ⟨less, sum, fits⟩ := committed.uncounted wf device (h := h) (by unfold Registry.Live; omega)
    have published := published_publishRates ((r.dropConn h).uncounted cfg h)
    rw [Registry.disconnected, if_pos last] at books limit ⊢
    refine ⟨?_, ?_, ?_, books, ⟨published.be, published.boost⟩⟩
    · simpa [Registry.released, Registry.setBit] using sum
    · refine le_trans ?_ (committed.limit.trans limit)
      simpa [Registry.released, Registry.setBit] using less
    · simpa [Registry.released, Registry.setBit] using fits
  · rw [Registry.disconnected, if_neg last] at books limit ⊢
    exact ⟨committed.sum, committed.limit.trans limit, committed.rateFits, books, ⟨committed.published.be, committed.published.boost⟩⟩

theorem candidate (committed : r.Committed cfg) (device : MonotoneDevice cfg) {cpu flowGroupId cookie} {slo : SLO}
    (idle : ¬ r.Live (r.slotFor cpu flowGroupId))
    (within : slo.latencyUsSLO ≠ 0 →
      r.sumAfter cfg cpu flowGroupId cookie slo ≤ (r.candidate cfg cpu flowGroupId cookie slo).commitLimit cfg) :
    r.sumAfter cfg cpu flowGroupId cookie slo ≤ (r.candidate cfg cpu flowGroupId cookie slo).commitLimit cfg := by
  by_cases be : slo.latencyUsSLO = 0
  · -- a best-effort flow reserves nothing and takes its slot out of the latency-critical ones
    have admitted : ¬ r.Refused cfg cpu flowGroupId cookie slo := fun refused => refused_critical refused be
    obtain ⟨n, -, written⟩ := candidate_of_idle cfg rfl idle cookie slo
    have flag : ((r.candidate cfg cpu flowGroupId cookie slo).nvmeFgs (r.slotFor cpu flowGroupId)).latencyCriticalFlag = false := by
      rw [Registry.candidate, setFg_self, fillFlowGroup_critical]
      simp [SLO.critical, be]
    have sum : r.sumAfter cfg cpu flowGroupId cookie slo = r.globalLCSumTokenRate := by
      simp only [Registry.sumAfter, admitted, if_false, Registry.counted, flag, Bool.false_eq_true]
      rw [written]
    rw [sum]
    refine committed.limit.trans (commitLimit_mono device fun i slot => ?_)
    rcases eq_or_ne i (r.slotFor cpu flowGroupId) with rfl | same
    · simp [Registry.lcSlot, flag] at slot
    · rw [written] at slot ⊢
      simpa [Registry.lcSlot, same] using slot
  · exact within be

theorem counted {c : Registry} (device : MonotoneDevice cfg) {h} (admitted : ¬ c.refuses cfg h)
    (sum : c.globalLCSumTokenRate ≤ c.globalTokenRate) (fits : c.globalTokenRate ≤ uintMax)
    (limit : (c.counted cfg h).globalLCSumTokenRate ≤ c.commitLimit cfg)
    (books : ∃ lost, (publishRates (c.counted cfg h)).Books .sum lost) :
    (publishRates (c.counted cfg h)).Committed cfg := by
  refine ⟨?_, ?_, ?_, books, published_publishRates _⟩
  · simpa using counted_sum_le_rate admitted sum
  · rw [publishRates_sum]
    exact limit.trans (commitLimit_mono device fun i slot => ⟨by simpa [lcSlot] using slot, by simp⟩)
  · simpa using (counted_rate_le cfg c h).trans fits

theorem connected (committed : r.Committed cfg) (device : MonotoneDevice cfg) {h q lost}
    (books : (r.connected h q).Books .sum lost) : (r.connected h q).Committed cfg := by
  refine ⟨committed.sum, ?_, committed.rateFits, ⟨lost, books⟩, ⟨committed.published.be, committed.published.boost⟩⟩
  exact committed.limit.trans (commitLimit_mono device fun i slot => ⟨connected_lcSlot r h q i ▸ slot, connected_slo r h q i⟩)

theorem registered (committed : r.Committed cfg) (wf : r.Wf cfg) (device : MonotoneDevice cfg) {cpu flowGroupId cookie}
    {slo : SLO} (idle : ¬ r.Live (r.slotFor cpu flowGroupId))
    (within : slo.latencyUsSLO ≠ 0 →
      r.sumAfter cfg cpu flowGroupId cookie slo ≤ (r.candidate cfg cpu flowGroupId cookie slo).commitLimit cfg)
    (swq : Option Nat) : (r.registered cfg cpu flowGroupId cookie slo swq).Committed cfg := by
  have limit := committed.candidate device idle within
  have wfCandidate := wf.candidate cpu flowGroupId cookie slo
  obtain ⟨lost, books⟩ := committed.books
  have spare : r.SpareSlot cpu flowGroupId := fun i found => by rwa [slotFor_of_new found] at idle
  replace books := books.candidate wf spare cookie slo
  obtain ⟨n, noConns, written⟩ := candidate_of_idle cfg rfl idle cookie slo
  have counters : (r.candidate cfg cpu flowGroupId cookie slo).globalLCSumTokenRate = r.globalLCSumTokenRate ∧
      (r.candidate cfg cpu flowGroupId cookie slo).globalTokenRate = r.globalTokenRate := by
    rw [written]
    exact ⟨rfl, rfl⟩
  have sum : (r.candidate cfg cpu flowGroupId cookie slo).globalLCSumTokenRate ≤
      (r.candidate cfg cpu flowGroupId cookie slo).globalTokenRate := by
    rw [counters.1, counters.2]
    exact committed.sum
  have fits := counters.2.trans_le committed.rateFits
  unfold Registry.sumAfter at limit
  unfold Registry.registered
  simp only
  by_cases refused : r.Refused cfg cpu flowGroupId cookie slo
  · rw [if_pos refused] at limit ⊢
    have published : (r.candidate cfg cpu flowGroupId cookie slo).Published := by
      rw [written]
      exact ⟨committed.published.be, committed.published.boost⟩
    refine ⟨sum, ?_, fits, ⟨lost, books.congr rfl fun _ => rfl⟩, ⟨published.be, published.boost⟩⟩
    exact (counters.1.trans_le limit).trans (commitLimit_mono device fun i slot => ⟨slot, rfl⟩)
  · rw [if_neg refused] at limit ⊢
    have room : Counter.sum.read (r.candidate cfg cpu flowGroupId cookie slo) +
        Counter.sum.share ((r.candidate cfg cpu flowGroupId cookie slo).nvmeFgs (r.slotFor cpu flowGroupId)) < 2 ^ 64 := by
      have share := share_le (wfCandidate.entries (r.slotFor cpu flowGroupId)) .sum
      have small := sum.trans fits
      unfold uintMax at small
      simp only [Counter.read]
      omega
    have committed := counted device refused sum fits limit ⟨_, books.uncollected wfCandidate room⟩
    cases swq with
    | none => exact committed
    | some q =>
      have conns : ((r.candidate cfg cpu flowGroupId cookie slo).nvmeFgs (r.slotFor cpu flowGroupId)).connRefCount ≤ 0 := by
        rw [written]
        simpa [fillFlowGroup] using noConns
      exact committed.connected device (books.granted wfCandidate (search_handle_lt r cpu flowGroupId) conns room q)

end Registry.Committed

theorem RegStep.committed {cfg} (device : MonotoneDevice cfg) {s t op}
    (step : Guarded (RegStep cfg) (RegOp.WithinLimit cfg) s op t) (wf : s.Wf cfg) (committed : s.Committed cfg) :
    t.Committed cfg := by
  obtain ⟨⟨-, rfl⟩, ok⟩ := step
  cases op with
  | register cpu flowGroupId cookie slo swq =>
    rw [next_register]
    exact committed.registered wf device ok.1 ok.2 swq
  | unregister cpu h =>
    rw [next_unregister]
    exact committed.disconnected wf device h
  | nvmeOpen cpu nsSize nsSectorSize =>
    simp only [RegOp.next, RegOp.run, bsysNvmeOpen]
    split
    · exact committed
    · refine ⟨committed.sum, ?_, committed.rateFits, committed.books, ⟨committed.published.be, committed.published.boost⟩⟩
      exact committed.limit.trans (commitLimit_mono device fun i slot => by simp [lcSlot] at slot)

/-- A device that gives a mixed workload a tenth of its rate at 500 us. -/
def steepCfg : Cfg := { flatCfg with nvmeDevModel := .flashDevModel, devModel := [⟨500, 10, 100⟩, ⟨1000, 100, 100⟩] }

theorem steepCfg_monotone : MonotoneDevice steepCfg := by
  intro _
  constructor
  · decide
  · decide
  · decide
  · decide
  · decide

def readsTable : Registry := Registry.init.arrived steepCfg 1 0 1 0 ⟨500, 500000, 100⟩ 0

theorem readsTable_clear : ∀ i, 2 ≤ i → readsTable.nvmeFgsBitmap i = false := by
  intro i above
  have : i ≠ 1 := by omega
  simp [readsTable, this, init]

theorem readsTable_search : readsTable.search 0 2 = .nextAvail 2 := by
  rw [search_of_clear (by decide) (by unfold maxNvmeFlowGroups; decide) readsTable_clear]
  decide +kernel

end Reflex.Nvme
