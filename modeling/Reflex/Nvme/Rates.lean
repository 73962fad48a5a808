import Reflex.Lib.Scan
import Reflex.Nvme.Search

/-!
# Recomputing the rates

What the three loops of the rate computation compute.
-/

namespace Reflex.Nvme
open Lib Registry List

def Registry.lcBefore (r : Registry) (h : Nat) : Nat := (List.range h).countP r.lcSlot

/-- The readjust pass gets to slot `h`: it is a latency-critical slot, and fewer than
`global_num_lc_tenants` such slots lie below it (a zero counter never stops the pass). -/
def Registry.Reached (r : Registry) (h : Nat) : Prop :=
  h < maxNvmeFlowGroups ∧ r.lcSlot h = true ∧ (r.globalNumLcTenants = 0 ∨ r.lcBefore h < r.globalNumLcTenants)

instance (r : Registry) (h : Nat) : Decidable (r.Reached h) := inferInstanceAs (Decidable (_ ∧ _))

/-- The readjust pass from counter `j`: slot `h` is rewritten when the pass does not stop
among the latency-critical slots before it. -/
theorem readjustLoop_apply (boost numLc : Nat) (bitmap : Nat → Bool) (l : List Nat) (nodup : l.Nodup) (h : Nat) :
    ∀ j fgs, readjustLoop boost numLc bitmap l j fgs h =
      if h ∈ l ∧ (bitmap h && (fgs h).latencyCriticalFlag) = true ∧ (numLc ≤ j ∨
          j + (l.takeWhile (fun i => decide (i ≠ h))).countP (fun i => bitmap i && (fgs i).latencyCriticalFlag) < numLc)
      then { fgs h with scaledIOPuSLimit := (wadd 64 (fgs h).scaledIOPSLimit boost : ℚ) / 10 ^ 6 }
      else fgs h := by
  induction l with
  | nil => intro j fgs; simp [readjustLoop]
  | cons i l ih =>
    intro j fgs
    have absent := (nodup_cons.1 nodup).1
    have ih := ih (nodup_cons.1 nodup).2
    cases slot : bitmap i && (fgs i).latencyCriticalFlag with
    | false =>
      simp only [readjustLoop, slot, Bool.false_eq_true, if_false, ih]
      rcases eq_or_ne h i with rfl | same
      · simp [slot]
      · simp [same, Ne.symm same, slot]
    | true =>
      -- the entry written is not looked at again: later slots differ from `i`, and the flag is kept
      have flags : ∀ v, (fun k => bitmap k && (Function.update fgs i { fgs i with scaledIOPuSLimit := v } k).latencyCriticalFlag) =
          fun k => bitmap k && (fgs k).latencyCriticalFlag := by
        intro v
        funext k
        by_cases hk : k = i
        · subst hk; simp
        · simp [hk]
      simp only [readjustLoop, slot, if_true]
      rcases eq_or_ne h i with rfl | same
      · by_cases stop : j + 1 = numLc
        · simp [stop, slot, show j < numLc by omega]
        · simp only [stop, if_false, ih, absent, false_and, Function.update_self]
          simp only [mem_cons, true_or, slot, true_and, takeWhile_cons, ne_eq, not_true_eq_false, decide_false,
            Bool.false_eq_true, if_false, countP_nil, Nat.add_zero]
          rw [if_pos]
          omega
      · by_cases stop : j + 1 = numLc
        · simp only [stop, if_true, Function.update_of_ne same]
          rw [if_neg]
          rintro ⟨-, -, bound⟩
          simp [Ne.symm same, slot] at bound
          omega
        · simp only [stop, if_false, ih, flags, Function.update_of_ne same, mem_cons, same, false_or]
          have counts : ((i :: l).takeWhile (fun k => decide (k ≠ h))).countP (fun k => bitmap k && (fgs k).latencyCriticalFlag) =
              (l.takeWhile (fun k => decide (k ≠ h))).countP (fun k => bitmap k && (fgs k).latencyCriticalFlag) + 1 := by
            simp [Ne.symm same, slot]
          rw [counts]
          congr 1
          apply propext
          constructor
          · rintro ⟨hm, hs, hb⟩; exact ⟨hm, hs, by omega⟩
          · rintro ⟨hm, hs, hb⟩; exact ⟨hm, hs, by omega⟩

/-- The credit rate of slot `h` once the rates have been published. -/
def Registry.creditDue (r : Registry) (h : Nat) : ℚ :=
  if r.boostDue ≠ r.globalLcBoostNoBE ∧ r.Reached h then (wadd 64 (r.nvmeFgs h).scaledIOPSLimit r.boostDue : ℚ) / 10 ^ 6
  else (r.nvmeFgs h).scaledIOPuSLimit

/-- The registry with the rates published, as one record. -/
def Registry.published (r : Registry) : Registry :=
  { r with
    globalBeTokenRatePerTenant := r.beRateDue.toInt32
    globalLcBoostNoBE := r.boostDue
    nvmeFgs := fun h => { r.nvmeFgs h with scaledIOPuSLimit := r.creditDue h } }

theorem publishRates_eq (r : Registry) : publishRates r = r.published := by
  unfold publishRates published
  by_cases same : r.boostDue = r.globalLcBoostNoBE
  · simp [same, creditDue]
  · simp only [ne_eq, same, not_false_eq_true, if_true, readjustLcTenantTokenLimits, mk.injEq, and_true]
    funext h
    rw [readjustLoop_apply _ _ _ _ nodup_range]
    simp only [creditDue, Registry.Reached, lcSlot, ne_eq, same, not_false_eq_true, true_and,
      mem_range, Nat.le_zero, Nat.zero_add]
    by_cases bound : h < maxNvmeFlowGroups
    · have count : (range h).countP (fun i => r.nvmeFgsBitmap i && (r.nvmeFgs i).latencyCriticalFlag) = r.lcBefore h := rfl
      simp only [takeWhile_range_ne bound, bound, true_and, count]
      split <;> rfl
    · simp [bound]

theorem publishRates_of_same {r : Registry} (same : r.boostDue = r.globalLcBoostNoBE) :
    publishRates r = { r with globalBeTokenRatePerTenant := r.beRateDue.toInt32 } := by
  simp [publishRates, same]

theorem boostDue_of_be {r : Registry} (be : r.globalNumBestEffortTenants ≠ 0) : r.boostDue = 0 := by
  simp [boostDue, lcTokenRateBoostWhenNoBE, be]

section Published

variable (r : Registry)

@[simp] theorem publishRates_fg (h : Nat) :
    (publishRates r).nvmeFgs h = { r.nvmeFgs h with scaledIOPuSLimit := r.creditDue h } := by rw [publishRates_eq]; rfl

@[simp] theorem publishRates_bitmap : (publishRates r).nvmeFgsBitmap = r.nvmeFgsBitmap := by rw [publishRates_eq]; rfl

@[simp] theorem publishRates_rate : (publishRates r).globalTokenRate = r.globalTokenRate := by rw [publishRates_eq]; rfl

@[simp] theorem publishRates_sum : (publishRates r).globalLCSumTokenRate = r.globalLCSumTokenRate := by
  rw [publishRates_eq]; rfl

@[simp] theorem publishRates_numBe : (publishRates r).globalNumBestEffortTenants = r.globalNumBestEffortTenants := by
  rw [publishRates_eq]; rfl

@[simp] theorem publishRates_numLc : (publishRates r).globalNumLcTenants = r.globalNumLcTenants := by rw [publishRates_eq]; rfl

@[simp] theorem publishRates_readonly : (publishRates r).globalReadonlyFlag = r.globalReadonlyFlag := by
  rw [publishRates_eq]; rfl

@[simp] theorem publishRates_be : (publishRates r).globalBeTokenRatePerTenant = r.beRateDue.toInt32 := by
  rw [publishRates_eq]; rfl

@[simp] theorem publishRates_boost : (publishRates r).globalLcBoostNoBE = r.boostDue := by rw [publishRates_eq]; rfl

end Published

/-! ## The scan of a removal -/

/-- The latency-critical slots other than `idx`. -/
def Registry.otherLcSlot (r : Registry) (idx i : Nat) : Bool :=
  r.nvmeFgsBitmap i && decide (i ≠ idx) && (r.nvmeFgs i).latencyCriticalFlag

/-- The strictest latency of the other latency-critical slots. -/
def Registry.strictestLatency (r : Registry) (idx : Nat) : Nat :=
  scanMin uintMax (fun i => (r.nvmeFgs i).slo.latencyUsSLO.toNat) (r.otherLcSlot idx) (List.range maxNvmeFlowGroups)

/-- Every other latency-critical slot is read only. -/
def Registry.othersReadonly (r : Registry) (idx : Nat) : Bool :=
  (List.range maxNvmeFlowGroups).all fun i => !(r.otherLcSlot idx i && decide ((r.nvmeFgs i).slo.rwRatioSLO.toInt < 100))

theorem remainingSLOs_eq (r : Registry) (idx : Nat) :
    remainingSLOs r idx = (r.strictestLatency idx, r.othersReadonly idx) := by
  have pair : ∀ acc i,
      (if r.nvmeFgsBitmap i && i ≠ idx && (r.nvmeFgs i).latencyCriticalFlag then
        let lat := (r.nvmeFgs i).slo.latencyUsSLO.toNat
        (if lat < acc.1 then lat else acc.1, if (r.nvmeFgs i).slo.rwRatioSLO.toInt < 100 then false else acc.2)
      else acc : Nat × Bool) =
      (if r.otherLcSlot idx i then
          (if (r.nvmeFgs i).slo.latencyUsSLO.toNat < acc.1 then (r.nvmeFgs i).slo.latencyUsSLO.toNat else acc.1) else acc.1,
        if r.otherLcSlot idx i then
          (if decide ((r.nvmeFgs i).slo.rwRatioSLO.toInt < 100) then false else acc.2) else acc.2) := by
    intro acc i
    unfold otherLcSlot
    split <;> simp
  have clear := foldl_clear (r.otherLcSlot idx) (fun i => decide ((r.nvmeFgs i).slo.rwRatioSLO.toInt < 100))
    (range maxNvmeFlowGroups) true
  rw [Bool.true_and] at clear
  unfold remainingSLOs strictestLatency othersReadonly
  rw [← clear]
  simp only [pair, scanMin]
  exact foldl_pair
    (fun m i => if r.otherLcSlot idx i then
      (if (r.nvmeFgs i).slo.latencyUsSLO.toNat < m then (r.nvmeFgs i).slo.latencyUsSLO.toNat else m) else m)
    (fun b i => if r.otherLcSlot idx i then (if decide ((r.nvmeFgs i).slo.rwRatioSLO.toInt < 100) then false else b) else b)
    _ _ _

theorem strictestLatency_le_uintMax (r : Registry) (idx : Nat) : r.strictestLatency idx ≤ uintMax := scanMin_le_start

theorem le_strictestLatency_iff {r : Registry} {idx b : Nat} :
    b ≤ r.strictestLatency idx ↔
      b ≤ uintMax ∧ ∀ i < maxNvmeFlowGroups, r.otherLcSlot idx i = true → b ≤ (r.nvmeFgs i).slo.latencyUsSLO.toNat := by
  simp [strictestLatency, le_scanMin_iff]

theorem othersReadonly_iff {r : Registry} {idx : Nat} :
    r.othersReadonly idx = true ↔
      ∀ i < maxNvmeFlowGroups, r.otherLcSlot idx i = true → 100 ≤ (r.nvmeFgs i).slo.rwRatioSLO.toInt := by
  simp only [othersReadonly, all_eq_true, mem_range, Bool.not_eq_true', Bool.and_eq_false_iff,
    decide_eq_false_iff_not, Int.not_lt]
  constructor
  · intro h i hi slot
    rcases h i hi with missed | pure
    · rw [slot] at missed; cases missed
    · exact pure
  · intro h i hi
    cases slot : r.otherLcSlot idx i with
    | false => exact Or.inl rfl
    | true => exact Or.inr (h i hi slot)

/-! ## The two recomputations -/

/-- The admission check refuses the flow group in slot `idx`. -/
def Registry.refuses (cfg : Cfg) (r : Registry) (idx : Nat) : Prop :=
  (r.nvmeFgs idx).latencyCriticalFlag = true ∧
    r.rateWith cfg (r.nvmeFgs idx).slo < wadd 64 r.globalLCSumTokenRate (r.nvmeFgs idx).scaledIOPSLimit

instance (cfg : Cfg) (r : Registry) (idx : Nat) : Decidable (r.refuses cfg idx) := inferInstanceAs (Decidable (_ ∧ _))

/-- The counters once the flow group in slot `idx` is counted. -/
def Registry.counted (cfg : Cfg) (r : Registry) (idx : Nat) : Registry :=
  if (r.nvmeFgs idx).latencyCriticalFlag then { r with
    globalReadonlyFlag := r.readonlyWith (r.nvmeFgs idx).slo
    globalTokenRate := r.rateWith cfg (r.nvmeFgs idx).slo
    globalLCSumTokenRate := wadd 64 r.globalLCSumTokenRate (r.nvmeFgs idx).scaledIOPSLimit
    globalNumLcTenants := wadd 64 r.globalNumLcTenants 1 }
  else { r with
    globalNumBestEffortTenants := wadd 64 r.globalNumBestEffortTenants 1
    globalReadonlyFlag := false }

@[simp] theorem counted_nvmeFgs (cfg : Cfg) (r : Registry) (idx : Nat) : (r.counted cfg idx).nvmeFgs = r.nvmeFgs := by
  unfold counted; split <;> rfl

@[simp] theorem counted_bitmap (cfg : Cfg) (r : Registry) (idx : Nat) :
    (r.counted cfg idx).nvmeFgsBitmap = r.nvmeFgsBitmap := by
  unfold counted; split <;> rfl

@[simp] theorem counted_boost (cfg : Cfg) (r : Registry) (idx : Nat) :
    (r.counted cfg idx).globalLcBoostNoBE = r.globalLcBoostNoBE := by
  unfold counted; split <;> rfl

/-- The read-only flag that a refused registration leaves. -/
def Registry.refusedFlag (r : Registry) (idx : Nat) : Registry :=
  { r with globalReadonlyFlag := r.readonlyWith (r.nvmeFgs idx).slo }

theorem recalculateWeightsAdd_eq (cfg : Cfg) (r : Registry) (idx : Nat) :
    recalculateWeightsAdd cfg r idx =
      if r.refuses cfg idx then (-retCantmeetslo, r.refusedFlag idx) else (1, publishRates (r.counted cfg idx)) := by
  unfold recalculateWeightsAdd refuses counted
  by_cases critical : (r.nvmeFgs idx).latencyCriticalFlag = true
  · simp only [critical, if_true, true_and]
    split <;> rfl
  · simp only [critical, Bool.false_eq_true, if_false, false_and]

/-- The counters once the flow group in slot `idx` no longer counts. -/
def Registry.uncounted (cfg : Cfg) (r : Registry) (idx : Nat) : Registry :=
  if (r.nvmeFgs idx).latencyCriticalFlag then { r with
    globalReadonlyFlag := if r.globalNumBestEffortTenants ≠ 0 then false else r.othersReadonly idx
    globalTokenRate := lookupDeviceTokenRate cfg (r.othersReadonly idx) (r.strictestLatency idx)
    globalLCSumTokenRate := wsub 64 r.globalLCSumTokenRate (r.nvmeFgs idx).scaledIOPSLimit
    globalNumLcTenants := wsub 64 r.globalNumLcTenants 1 }
  else { r with
    globalNumBestEffortTenants := wsub 64 r.globalNumBestEffortTenants 1
    globalReadonlyFlag := if wsub 64 r.globalNumBestEffortTenants 1 ≠ 0 then false else r.globalReadonlyFlag }

@[simp] theorem uncounted_nvmeFgs (cfg : Cfg) (r : Registry) (idx : Nat) : (r.uncounted cfg idx).nvmeFgs = r.nvmeFgs := by
  unfold uncounted; split <;> rfl

@[simp] theorem uncounted_bitmap (cfg : Cfg) (r : Registry) (idx : Nat) :
    (r.uncounted cfg idx).nvmeFgsBitmap = r.nvmeFgsBitmap := by
  unfold uncounted; split <;> rfl

@[simp] theorem uncounted_boost (cfg : Cfg) (r : Registry) (idx : Nat) :
    (r.uncounted cfg idx).globalLcBoostNoBE = r.globalLcBoostNoBE := by
  unfold uncounted; split <;> rfl

theorem recalculateWeightsRemove_eq (cfg : Cfg) (r : Registry) (idx : Nat) :
    recalculateWeightsRemove cfg r idx = publishRates (r.uncounted cfg idx) := by
  unfold recalculateWeightsRemove uncounted
  by_cases critical : (r.nvmeFgs idx).latencyCriticalFlag = true
  · simp only [critical, if_true, remainingSLOs_eq]
  · simp only [critical, Bool.false_eq_true, if_false]

end Reflex.Nvme
