import Reflex.Nvme.Tenants

/-!
# Do the rates depend on the history?

Arrivals tighten the rate and the mode step by step, departures recompute them from the table.
-/

namespace Reflex.Nvme
open Lib Registry

variable {cfg : Cfg} {h cpu : Nat} {flowGroupId : Int64} {t : Int32 × SLO} {cookie : UInt64} {slo : SLO} {s : NvmeState}

/-- A connected latency-critical flow outside slot `h`. -/
def Registry.CriticalBeside (r : Registry) (h : Nat) : Prop :=
  ∃ i, i ≠ h ∧ r.Live i ∧ (r.nvmeFgs i).latencyCriticalFlag = true

def Registry.WriterBeside (r : Registry) (h : Nat) : Prop :=
  ∃ i, i ≠ h ∧ r.Live i ∧ (r.nvmeFgs i).latencyCriticalFlag = true ∧ (r.nvmeFgs i).slo.rwRatioSLO.toInt < 100

/-- An arrival that ends the read-only mode of a modelled device is latency critical and
at least as strict as every latency-critical flow present: only then is the rate looked
up for the strictest latency in the new mode. -/
def Registry.ArrivalSettles (cfg : Cfg) (r : Registry) (slo : SLO) : Prop :=
  r.globalReadonlyFlag = true → (slo.critical = false ∨ slo.rwRatioSLO.toInt < 100) → cfg.nvmeDevModel = .flashDevModel →
    ∀ i, r.Live i → (r.nvmeFgs i).latencyCriticalFlag = true →
      slo.critical = true ∧ slo.latencyUsSLO.toNat ≤ (r.nvmeFgs i).slo.latencyUsSLO.toNat

/-- A departure does not leave the device in another mode than the flows that stay: the
last best-effort flow leaves a writer behind, and a latency-critical flow that leaves
best-effort flows and latency-critical ones behind leaves a writer among the latter. -/
def Registry.DepartureSettles (cfg : Cfg) (r : Registry) (h : Nat) : Prop :=
  if (r.nvmeFgs h).latencyCriticalFlag = true then
    r.globalNumBestEffortTenants ≠ 0 → cfg.nvmeDevModel = .flashDevModel → r.CriticalBeside h → r.WriterBeside h
  else r.globalNumBestEffortTenants = 1 → r.WriterBeside h

/-- A successful registration of a flow that is not connected, or an unregister call, that
leaves the mode settled. -/
def RegOp.Settles (cfg : Cfg) (s : NvmeState) : RegOp → Prop
  | .register cpu flowGroupId cookie slo swq =>
    (∀ i, s.Live i → (s.nvmeFgs i).flowGroupId ≠ flowGroupId.toInt32) ∧ s.SpareSlot cpu flowGroupId ∧
      ¬ s.Refused cfg cpu flowGroupId cookie slo ∧ swq ≠ none ∧ s.ArrivalSettles cfg slo
  | .unregister _ h => s.Live h → s.DepartureSettles cfg h
  | .nvmeOpen _ _ _ => False

/-- The registry is what its tenants call for. -/
structure Registry.Settled (cfg : Cfg) (r : Registry) : Prop where
  wf : r.Wf cfg
  books : ∀ c, r.Books c 0
  bits : ∀ h, r.nvmeFgsBitmap h = true ↔ r.Live h
  distinct : r.Distinct
  readonly : r.globalReadonlyFlag = readersOnly r.tenants
  rate : (lcTenants r.tenants).Nonempty → r.globalTokenRate = deviceRate cfg r.tenants
  idleRate : lcTenants r.tenants = ∅ →
    r.globalTokenRate = uintMax ∨ r.globalTokenRate = lookupDeviceTokenRate cfg true uintMax
  published : r.Published

/-! ## The tenants after a call -/

section Arrival

variable {r : Registry} {q : Nat}

section

variable (found : r.search cpu flowGroupId = .nextAvail h)
include found

theorem arrival_live (admitted : ¬ r.Refused cfg cpu flowGroupId cookie slo)
    (i : Nat) : (r.registered cfg cpu flowGroupId cookie slo (some q)).Live i ↔ i = h ∨ r.Live i := by
  have slot := slotFor_of_new found
  unfold Registry.Live
  rcases eq_or_ne i h with rfl | same
  · obtain ⟨credit, entry⟩ := registered_entry_of_granted admitted q
    rw [slot] at entry
    simp [entry]
  · have other : i ≠ r.slotFor cpu flowGroupId := slot ▸ same
    obtain ⟨credit, entry⟩ := registered_fg_of_ne cfg r cookie slo (some q) other
    simp [entry, same]

theorem arrival_tenant (admitted : ¬ r.Refused cfg cpu flowGroupId cookie slo) :
    ((r.registered cfg cpu flowGroupId cookie slo (some q)).nvmeFgs h).tenant = (flowGroupId.toInt32, slo) := by
  obtain ⟨credit, entry⟩ := registered_entry_of_granted admitted q
  rw [slotFor_of_new found] at entry
  rw [entry]
  rfl

theorem arrival_tenant_of_ne {i} (other : i ≠ h) :
    ((r.registered cfg cpu flowGroupId cookie slo (some q)).nvmeFgs i).tenant = (r.nvmeFgs i).tenant := by
  replace other : i ≠ r.slotFor cpu flowGroupId := slotFor_of_new found ▸ other
  obtain ⟨credit, entry⟩ := registered_fg_of_ne cfg r cookie slo (some q) other
  rw [entry]
  rfl

end

theorem arrival_tenants (wf : r.Wf cfg) (found : r.search cpu flowGroupId = .nextAvail h) (idle : ¬ r.Live h)
    (admitted : ¬ r.Refused cfg cpu flowGroupId cookie slo) :
    (r.registered cfg cpu flowGroupId cookie slo (some q)).tenants = insert (flowGroupId.toInt32, slo) r.tenants := by
  ext t
  rw [Finset.mem_insert, mem_tenants (wf.registered cpu flowGroupId cookie slo (some q)), mem_tenants wf]
  constructor
  · rintro ⟨i, live, same⟩
    rcases (arrival_live found admitted i).1 live with rfl | live
    · exact .inl (same.symm.trans (arrival_tenant found admitted))
    · have other : i ≠ h := fun at_h => idle (at_h ▸ live)
      exact .inr ⟨i, live, (arrival_tenant_of_ne found other).symm.trans same⟩
  · rintro (rfl | ⟨i, live, same⟩)
    · exact ⟨h, (arrival_live found admitted h).2 (.inl rfl), arrival_tenant found admitted⟩
    · have other : i ≠ h := fun at_h => idle (at_h ▸ live)
      exact ⟨i, (arrival_live found admitted i).2 (.inr live), (arrival_tenant_of_ne found other).trans same⟩

theorem arrival_mode (found : r.search cpu flowGroupId = .nextAvail h) (admitted : ¬ r.Refused cfg cpu flowGroupId cookie slo) :
    (r.registered cfg cpu flowGroupId cookie slo (some q)).globalReadonlyFlag =
        (if slo.critical then r.readonlyWith slo else false) ∧
      (r.registered cfg cpu flowGroupId cookie slo (some q)).globalTokenRate =
        (if slo.critical then r.rateWith cfg slo else r.globalTokenRate) := by
  rw [registered_granted admitted, slotFor_of_new found, candidate_of_new found]
  simp only [connected, setFg, publishRates_readonly, publishRates_rate, counted,
    Function.update_self, fillFlowGroup_critical, fillFlowGroup_slo]
  cases slo.critical with
  | false => exact ⟨rfl, rfl⟩
  | true => exact ⟨rfl, rfl⟩

end Arrival

section Departure

variable {r : Registry}

theorem departure_tenant (i : Nat) : ((r.disconnected cfg h).nvmeFgs i).tenant = (r.nvmeFgs i).tenant := by
  rcases eq_or_ne i h with rfl | same
  · obtain ⟨credit, entry⟩ := disconnected_fg_self cfg r i
    rw [entry]
    rfl
  · obtain ⟨credit, entry⟩ := disconnected_fg_of_ne cfg r same
    rw [entry]
    rfl

section

variable (wf : r.Wf cfg)
include wf

theorem departure_distinct (distinct : r.Distinct) : (r.disconnected cfg h).Distinct := by
  intro i j liveI liveJ same
  have key : ∀ k, ((r.disconnected cfg h).nvmeFgs k).flowGroupId = (r.nvmeFgs k).flowGroupId :=
    fun k => congrArg Prod.fst (departure_tenant k)
  rw [key, key] at same
  exact distinct i j ((disconnected_live wf i).1 liveI).2 ((disconnected_live wf j).1 liveJ).2 same

theorem forall_staying {P : SLO → Prop} :
    (∀ t ∈ lcTenants (r.disconnected cfg h).tenants, P t.2) ↔
      ∀ i, i ≠ h → r.Live i → (r.nvmeFgs i).latencyCriticalFlag = true → P (r.nvmeFgs i).slo := by
  constructor
  · intro all i other live critical
    have mem := (mem_lcTenants_iff (wf.disconnected h)).2
      ⟨i, (disconnected_live wf i).2 ⟨other, live⟩, (disconnected_critical cfg r h i).trans critical, rfl⟩
    have holds := all _ mem
    rw [departure_tenant] at holds
    exact holds
  · intro all t mem
    obtain ⟨i, live, critical, rfl⟩ := (mem_lcTenants_iff (wf.disconnected h)).1 mem
    obtain ⟨other, live⟩ := (disconnected_live wf i).1 live
    rw [departure_tenant]
    exact all i other live ((disconnected_critical cfg r h i).symm.trans critical)

theorem writer_stays (writer : r.WriterBeside h) :
    ¬ ∀ t ∈ lcTenants (r.disconnected cfg h).tenants, 100 ≤ t.2.rwRatioSLO.toInt := by
  obtain ⟨i, other, live, critical, writes⟩ := writer
  intro reads
  have here := (forall_staying wf (P := fun slo => 100 ≤ slo.rwRatioSLO.toInt)).1 reads i other live critical
  omega

theorem departure_tenants_of_idle (idle : ¬ r.Live h) : (r.disconnected cfg h).tenants = r.tenants := by
  ext t
  rw [mem_tenants (wf.disconnected h), mem_tenants wf]
  constructor
  · rintro ⟨i, live, same⟩
    exact ⟨i, ((disconnected_live wf i).1 live).2, (departure_tenant i).symm.trans same⟩
  · rintro ⟨i, live, same⟩
    have other : i ≠ h := fun at_h => idle (at_h ▸ live)
    exact ⟨i, (disconnected_live wf i).2 ⟨other, live⟩, (departure_tenant i).trans same⟩

theorem tenants_eq_insert (live : r.Live h) :
    r.tenants = insert (r.nvmeFgs h).tenant (r.disconnected cfg h).tenants := by
  ext t
  rw [Finset.mem_insert, mem_tenants wf, mem_tenants (wf.disconnected h)]
  constructor
  · rintro ⟨i, live, rfl⟩
    by_cases same : i = h
    · exact .inl (same ▸ rfl)
    · exact .inr ⟨i, (disconnected_live wf i).2 ⟨same, live⟩, departure_tenant i⟩
  · rintro (rfl | ⟨i, live, rfl⟩)
    · exact ⟨h, live, rfl⟩
    · exact ⟨i, ((disconnected_live wf i).1 live).2, (departure_tenant i).symm⟩

theorem departure_scan (bits : ∀ i, r.nvmeFgsBitmap i = true ↔ r.Live i) :
    (r.dropConn h).othersReadonly h =
        decide (∀ t ∈ lcTenants (r.disconnected cfg h).tenants, 100 ≤ t.2.rwRatioSLO.toInt) ∧
      (r.dropConn h).strictestLatency h = strictest (r.disconnected cfg h).tenants := by
  have scanned : ∀ P : SLO → Prop,
      (∀ i < maxNvmeFlowGroups, (r.dropConn h).otherLcSlot h i = true → P ((r.dropConn h).nvmeFgs i).slo) ↔
        ∀ t ∈ lcTenants (r.disconnected cfg h).tenants, P t.2 := by
    intro P
    rw [forall_staying wf]
    simp only [otherLcSlot, Bool.and_eq_true, decide_eq_true_eq, dropConn_critical, dropConn_slo]
    constructor
    · intro all i other live critical
      exact all i ((wf.entries i).inTable live) ⟨⟨(bits i).2 live, other⟩, critical⟩
    · rintro all i - ⟨⟨bit, other⟩, critical⟩
      exact all i other ((bits i).1 bit) critical
  constructor
  · rw [Bool.eq_iff_iff, othersReadonly_iff, decide_eq_true_iff]
    exact scanned fun slo => 100 ≤ slo.rwRatioSLO.toInt
  · apply eq_of_forall_le_iff
    intro b
    rw [le_strictestLatency_iff, le_strictest_iff, scanned fun slo => b ≤ slo.latencyUsSLO.toNat]

end

theorem departure_mode (cfg : Cfg) (last : (r.nvmeFgs h).connRefCount = 1) :
    (r.disconnected cfg h).globalReadonlyFlag = ((r.dropConn h).uncounted cfg h).globalReadonlyFlag ∧
      (r.disconnected cfg h).globalTokenRate = ((r.dropConn h).uncounted cfg h).globalTokenRate ∧
      (r.disconnected cfg h).globalNumBestEffortTenants = ((r.dropConn h).uncounted cfg h).globalNumBestEffortTenants := by
  rw [disconnected, if_pos last, Registry.released]
  exact ⟨publishRates_readonly _, publishRates_rate _, publishRates_numBe _⟩

end Departure

/-! ## One call -/

theorem lookup_of_unmodelled (model : cfg.nvmeDevModel ≠ .flashDevModel) (readonly : Bool) (lat : Nat) :
    lookupDeviceTokenRate cfg readonly lat = uintMax := by
  unfold lookupDeviceTokenRate
  cases kind : cfg.nvmeDevModel with
  | defaultFlash => rfl
  | fakeFlash => rfl
  | flashDevModel => exact absurd kind model

theorem rateWith_eq_min (cfg : Cfg) (r : Registry) (slo : SLO) :
    r.rateWith cfg slo =
      min r.globalTokenRate (lookupDeviceTokenRate cfg (r.readonlyWith slo) slo.latencyUsSLO.toNat) := by
  unfold rateWith
  simp only
  split
  · rw [min_eq_left (by omega)]
  · rw [min_eq_right (by omega)]

namespace Registry.Settled

variable {r : Registry}

section

variable (settled : r.Settled cfg)
include settled

theorem numBe : r.globalNumBestEffortTenants = numBestEffort r.tenants :=
  (counters_of_tenants settled.wf (accounted_of_books settled.books) settled.distinct).2.2

theorem found_new (cpu : Nat)
    (new : ∀ i, r.Live i → (r.nvmeFgs i).flowGroupId ≠ flowGroupId.toInt32) : ∃ h, r.search cpu flowGroupId = .nextAvail h := by
  cases found : r.search cpu flowGroupId with
  | nextAvail h => exact ⟨h, rfl⟩
  | already i =>
    obtain ⟨-, -, bit, id, -⟩ := search_already found
    refine absurd ?_ (new i ((settled.bits i).1 bit))
    rw [← id, Int32.toInt32_toInt64]

theorem readonlyWith (critical : t.2.critical = true) :
    r.readonlyWith t.2 = readersOnly (insert t r.tenants) := by
  rw [readersOnly_insert_critical critical, ← settled.readonly, Registry.readonlyWith]
  split
  · rw [decide_eq_false (by omega), Bool.false_and]
  · rw [decide_eq_true (by omega), Bool.true_and]

theorem rateWith (device : MonotoneDevice cfg) (critical : t.2.critical = true)
    (settles : r.ArrivalSettles cfg t.2) : r.rateWith cfg t.2 = deviceRate cfg (insert t r.tenants) := by
  rw [rateWith_eq_min, settled.readonlyWith critical]
  have latency := latency_le_uintMax t.2
  rcases (lcTenants r.tenants).eq_empty_or_nonempty with none | some
  · -- nobody has tightened the rate yet
    have least : strictest r.tenants = uintMax :=
      le_antisymm (strictest_le_uintMax _) (le_strictest_iff.2 ⟨le_refl _, by simp [none]⟩)
    rw [deviceRate_insert_strictest critical (latency.trans_eq least.symm), min_eq_right]
    rcases settled.idleRate none with rate | rate
    · rw [rate]
      exact lookupDeviceTokenRate_fits device _ latency
    · rw [rate]
      exact lookupDeviceTokenRate_mono device (fun _ => rfl) latency (le_refl _)
  · rw [settled.rate some]
    by_cases same : readersOnly (insert t r.tenants) = readersOnly r.tenants
    · rw [deviceRate_insert device critical same, same]
    · -- the arrival ends the read-only mode
      have split := readersOnly_insert_critical (T := r.tenants) critical
      have before : readersOnly r.tenants = true := by
        cases mode : readersOnly r.tenants with
        | true => rfl
        | false => rw [mode, Bool.and_false] at split; exact absurd (split.trans mode.symm) same
      have writes : t.2.rwRatioSLO.toInt < 100 := by
        by_contra reads
        rw [decide_eq_true (by omega), Bool.true_and] at split
        exact same split
      by_cases model : cfg.nvmeDevModel = .flashDevModel
      · have strict : t.2.latencyUsSLO.toNat ≤ strictest r.tenants := by
          refine le_strictest_iff.2 ⟨latency, fun u mem => ?_⟩
          obtain ⟨i, live, flag, rfl⟩ := (mem_lcTenants_iff settled.wf).1 mem
          exact (settles (settled.readonly.trans before) (.inr writes) model i live flag).2
        rw [deviceRate_insert_strictest critical strict, min_eq_right]
        exact lookupDeviceTokenRate_mono device (fun _ => before) strict (strictest_le_uintMax _)
      · simp only [deviceRate, lookup_of_unmodelled model, min_self]

theorem rate_effort (effort : t.2.critical = false)
    (settles : r.ArrivalSettles cfg t.2) (some : (lcTenants r.tenants).Nonempty) :
    r.globalTokenRate = deviceRate cfg (insert t r.tenants) := by
  have strict : strictest (insert t r.tenants) = strictest r.tenants := by
    rw [strictest, lcTenants_insert_effort effort, strictest]
  rw [settled.rate some, deviceRate, deviceRate, strict]
  by_cases model : cfg.nvmeDevModel = .flashDevModel
  · have mode : readersOnly r.tenants = false := by
      rw [← settled.readonly, ← Bool.not_eq_true]
      intro readonly
      obtain ⟨u, mem⟩ := some
      obtain ⟨i, live, flag, -⟩ := (mem_lcTenants_iff settled.wf).1 mem
      have critical := (settles readonly (.inl effort) model i live flag).1
      rw [effort] at critical
      cases critical
    rw [mode, readersOnly_of_effort (numBestEffort_insert_effort effort)]
  · rw [lookup_of_unmodelled model, lookup_of_unmodelled model]

theorem arrive (device : MonotoneDevice cfg)
    (new : ∀ i, r.Live i → (r.nvmeFgs i).flowGroupId ≠ flowGroupId.toInt32) (spare : r.SpareSlot cpu flowGroupId)
    (admitted : ¬ r.Refused cfg cpu flowGroupId cookie slo) (settles : r.ArrivalSettles cfg slo) (q : Nat)
    (books : ∀ c, (r.registered cfg cpu flowGroupId cookie slo (some q)).Books c 0) :
    (r.registered cfg cpu flowGroupId cookie slo (some q)).Settled cfg := by
  obtain ⟨h, found⟩ := settled.found_new cpu new
  have idle := spare h found
  have live := arrival_live (q := q) found admitted
  have tenants := arrival_tenants (q := q) settled.wf found idle admitted
  have own := arrival_tenant (q := q) found admitted
  have others : ∀ i, i ≠ h →
      ((r.registered cfg cpu flowGroupId cookie slo (some q)).nvmeFgs i).flowGroupId = (r.nvmeFgs i).flowGroupId :=
    fun i other => congrArg Prod.fst (arrival_tenant_of_ne found other)
  have mode := arrival_mode (q := q) found admitted
  refine ⟨settled.wf.registered cpu flowGroupId cookie slo (some q), books, ?_, ?_, ?_, ?_, ?_, ?_⟩
  · intro i
    rw [live, registered_bitmap, prepared_of_new found, setBit_bitmap]
    by_cases same : i = h
    · simp [same]
    · simpa [same] using settled.bits i
  · intro i j liveI liveJ same
    have id : ((r.registered cfg cpu flowGroupId cookie slo (some q)).nvmeFgs h).flowGroupId = flowGroupId.toInt32 :=
      congrArg Prod.fst own
    by_cases atI : i = h
    · by_cases atJ : j = h
      · rw [atI, atJ]
      · rw [atI, id, others j atJ] at same
        exact absurd same.symm (new j (((live j).1 liveJ).resolve_left atJ))
    · by_cases atJ : j = h
      · rw [atJ, id, others i atI] at same
        exact absurd same (new i (((live i).1 liveI).resolve_left atI))
      · rw [others i atI, others j atJ] at same
        exact settled.distinct i j (((live i).1 liveI).resolve_left atI) (((live j).1 liveJ).resolve_left atJ) same
  · rw [mode.1, tenants]
    cases critical : slo.critical with
    | true => exact settled.readonlyWith (t := (flowGroupId.toInt32, slo)) critical
    | false => exact (readersOnly_of_effort (numBestEffort_insert_effort (t := (flowGroupId.toInt32, slo)) critical)).symm
  · intro some
    rw [mode.2, tenants]
    cases critical : slo.critical with
    | true => exact settled.rateWith device (t := (flowGroupId.toInt32, slo)) critical settles
    | false =>
      rw [tenants, lcTenants_insert_effort (t := (flowGroupId.toInt32, slo)) critical] at some
      exact settled.rate_effort (t := (flowGroupId.toInt32, slo)) critical settles some
  · intro none
    rw [tenants] at none
    cases critical : slo.critical with
    | true =>
      rw [lcTenants_insert_critical (t := (flowGroupId.toInt32, slo)) critical] at none
      exact absurd none (Finset.insert_ne_empty _ _)
    | false =>
      rw [lcTenants_insert_effort (t := (flowGroupId.toInt32, slo)) critical] at none
      rw [mode.2, critical]
      exact settled.idleRate none
  · rw [registered_granted admitted]
    have published := published_publishRates
      ((r.candidate cfg cpu flowGroupId cookie slo).counted cfg (r.slotFor cpu flowGroupId))
    exact ⟨published.be, published.boost⟩

theorem leave_effort (live : r.Live h) (effort : (r.nvmeFgs h).latencyCriticalFlag = false)
    (settles : r.DepartureSettles cfg h)
    (numBe : (r.disconnected cfg h).globalNumBestEffortTenants = numBestEffort (r.disconnected cfg h).tenants) :
    r.globalReadonlyFlag = false ∧ readersOnly (r.disconnected cfg h).tenants = false ∧
      (r.disconnected cfg h).globalReadonlyFlag = false ∧
      (r.disconnected cfg h).globalTokenRate = r.globalTokenRate ∧
      lcTenants (r.disconnected cfg h).tenants = lcTenants r.tenants := by
  have last : (r.nvmeFgs h).connRefCount = 1 := le_antisymm (settled.wf.entries h).conns live
  have own : (r.nvmeFgs h).tenant.2.critical = false := (settled.wf.entries h).critical.symm.trans effort
  have split := tenants_eq_insert settled.wf live
  have present : numBestEffort r.tenants ≠ 0 := split ▸ numBestEffort_insert_effort own
  have before : r.globalReadonlyFlag = false := settled.readonly.trans (readersOnly_of_effort present)
  obtain ⟨mode, rate, count⟩ := departure_mode cfg last
  have flag : ((r.dropConn h).nvmeFgs h).latencyCriticalFlag = false := (dropConn_critical r h h).trans effort
  simp only [uncounted, flag, Bool.false_eq_true, if_false] at mode rate count
  refine ⟨before, ?_, ?_, rate, ?_⟩
  · by_cases more : numBestEffort (r.disconnected cfg h).tenants = 0
    · have one : r.globalNumBestEffortTenants = 1 := by
        have some : r.globalNumBestEffortTenants ≠ 0 := settled.numBe ▸ present
        have fewer : wsub 64 r.globalNumBestEffortTenants 1 = r.globalNumBestEffortTenants - 1 :=
          wsub_of_le (by omega) settled.wf.numBeFits
        rw [more, count] at numBe
        change wsub 64 r.globalNumBestEffortTenants 1 = 0 at numBe
        omega
      rw [Registry.DepartureSettles, if_neg (by simp [effort])] at settles
      rw [← Bool.not_eq_true, readersOnly_iff]
      exact fun readers => writer_stays settled.wf (settles one) readers.2
    · exact readersOnly_of_effort more
  · rw [mode]
    split
    · rfl
    · exact before
  · rw [split, lcTenants_insert_effort own]

/-- The scan of a latency-critical departure finds the mode of those who stay, unless it
overlooks best-effort flows. -/
theorem leave_critical (live : r.Live h) (critical : (r.nvmeFgs h).latencyCriticalFlag = true)
    (settles : r.DepartureSettles cfg h)
    (numBe : (r.disconnected cfg h).globalNumBestEffortTenants = numBestEffort (r.disconnected cfg h).tenants) :
    (r.disconnected cfg h).globalReadonlyFlag = readersOnly (r.disconnected cfg h).tenants ∧
      ((lcTenants (r.disconnected cfg h).tenants).Nonempty →
        (r.disconnected cfg h).globalTokenRate = deviceRate cfg (r.disconnected cfg h).tenants) ∧
      (lcTenants (r.disconnected cfg h).tenants = ∅ →
        (r.disconnected cfg h).globalTokenRate = lookupDeviceTokenRate cfg true uintMax) := by
  have last : (r.nvmeFgs h).connRefCount = 1 := le_antisymm (settled.wf.entries h).conns live
  obtain ⟨mode, rate, count⟩ := departure_mode cfg last
  obtain ⟨scanMode, scanLatency⟩ := departure_scan (h := h) settled.wf settled.bits
  have flag : ((r.dropConn h).nvmeFgs h).latencyCriticalFlag = true := (dropConn_critical r h h).trans critical
  have same : (r.dropConn h).globalNumBestEffortTenants = r.globalNumBestEffortTenants := rfl
  simp only [uncounted, flag, if_true, scanMode, scanLatency, same] at mode rate count
  rw [count] at numBe
  rw [Registry.DepartureSettles, if_pos critical] at settles
  refine ⟨?_, fun some => ?_, fun none => ?_⟩
  · rw [mode, readersOnly, ← numBe]
    by_cases be : r.globalNumBestEffortTenants = 0
    · rw [if_neg (not_not.2 be), decide_eq_true be, Bool.true_and]
    · rw [if_pos be, decide_eq_false be, Bool.false_and]
  · rw [rate, deviceRate]
    by_cases model : cfg.nvmeDevModel = .flashDevModel
    · by_cases be : r.globalNumBestEffortTenants = 0
      · rw [readersOnly, ← numBe, decide_eq_true be, Bool.true_and]
      · obtain ⟨t, mem⟩ := some
        obtain ⟨i, alive, kind, -⟩ := (mem_lcTenants_iff (settled.wf.disconnected h)).1 mem
        obtain ⟨other, alive⟩ := (disconnected_live settled.wf i).1 alive
        have beside : r.CriticalBeside h := ⟨i, other, alive, (disconnected_critical cfg r h i).symm.trans kind⟩
        rw [readersOnly_of_effort (by rwa [← numBe]), decide_eq_false (writer_stays settled.wf (settles be model beside))]
    · rw [lookup_of_unmodelled model, lookup_of_unmodelled model]
  · have least : strictest (r.disconnected cfg h).tenants = uintMax :=
      le_antisymm (strictest_le_uintMax _) (le_strictest_iff.2 ⟨le_refl _, by simp [none]⟩)
    rw [rate, least, none, decide_eq_true (by simp)]

theorem leave (connected : r.Live h) (settles : r.DepartureSettles cfg h) :
    (r.disconnected cfg h).Settled cfg := by
  have wf := settled.wf.disconnected h
  have books : ∀ c, (r.disconnected cfg h).Books c 0 := fun c => (settled.books c).disconnected settled.wf h
  have live := disconnected_live settled.wf (h := h)
  have last : (r.nvmeFgs h).connRefCount = 1 := le_antisymm (settled.wf.entries h).conns connected
  have distinct := departure_distinct (h := h) settled.wf settled.distinct
  have bits : ∀ i, (r.disconnected cfg h).nvmeFgsBitmap i = true ↔ (r.disconnected cfg h).Live i := by
    intro i
    rw [live, disconnected_bitmap, if_pos last]
    by_cases same : i = h
    · simp [same]
    · simpa [same] using settled.bits i
  have published : (r.disconnected cfg h).Published := by
    rw [disconnected, if_pos last]
    have published := published_publishRates ((r.dropConn h).uncounted cfg h)
    exact ⟨published.be, published.boost⟩
  have numBe := (counters_of_tenants wf (accounted_of_books books) distinct).2.2
  cases kind : (r.nvmeFgs h).latencyCriticalFlag with
  | true =>
    obtain ⟨mode, rate, idleRate⟩ := settled.leave_critical connected kind settles numBe
    exact ⟨wf, books, bits, distinct, mode, rate, fun none => .inr (idleRate none), published⟩
  | false =>
    obtain ⟨before, readers, mode, rate, same⟩ := settled.leave_effort connected kind settles numBe
    refine ⟨wf, books, bits, distinct, mode.trans readers.symm, fun some => ?_, fun none => ?_, published⟩
    · rw [rate, settled.rate (same ▸ some), deviceRate, deviceRate, strictest, strictest, same, readers,
        ← settled.readonly, before]
    · rw [rate]
      exact settled.idleRate (same ▸ none)

/-- An unregister call without a connection only counts below zero. -/
theorem leave_idle (idle : ¬ r.Live h) : (r.disconnected cfg h).Settled cfg := by
  have tenants := departure_tenants_of_idle settled.wf idle
  have live : ∀ i, (r.disconnected cfg h).Live i ↔ r.Live i := by
    intro i
    rw [disconnected_live settled.wf i]
    constructor
    · exact fun alive => alive.2
    · exact fun alive => ⟨fun at_h => idle (at_h ▸ alive), alive⟩
  have more : ¬ (r.nvmeFgs h).connRefCount = 1 := by
    intro one
    exact idle (Int.one_pos.trans_eq one.symm)
  have unchanged : r.disconnected cfg h = r.dropConn h := by rw [disconnected, if_neg more]
  refine ⟨settled.wf.disconnected h, fun c => (settled.books c).disconnected settled.wf h, fun i => ?_,
    departure_distinct settled.wf settled.distinct, ?_, ?_, ?_, ?_⟩
  · rw [live, disconnected_bitmap, if_neg more, settled.bits i]
  · rw [tenants, unchanged]
    exact settled.readonly
  · rw [tenants, unchanged]
    exact settled.rate
  · rw [tenants, unchanged]
    exact settled.idleRate
  · rw [unchanged]
    exact ⟨settled.published.be, settled.published.boost⟩

end

end Registry.Settled

/-! ## Histories -/

theorem init_settled (cfg : Cfg) : init.Settled cfg := by
  have idle : ∀ h, ¬ init.Live h := fun h => lt_irrefl (0 : Int)
  have empty : init.tenants = ∅ := by
    rw [Finset.eq_empty_iff_forall_notMem]
    intro t mem
    obtain ⟨h, live, -⟩ := (mem_tenants (init_wf cfg)).1 mem
    exact idle h live
  refine ⟨init_wf cfg, init_books, fun h => ?_, fun h _ live => absurd live (idle h), ?_, ?_, fun _ => .inl rfl, ⟨rfl, rfl⟩⟩
  · simp [init, Registry.Live, FlowGroup.zero]
  · rw [empty]
    rfl
  · rw [empty]
    rintro ⟨t, mem⟩
    exact absurd (mem_lcTenants.1 mem).1 (Finset.notMem_empty t)

theorem RegOp.Settles.balanced {op : RegOp} (ok : op.Settles cfg s) (settled : s.Settled cfg) :
    op.Balanced cfg s := by
  cases op with
  | register cpu flowGroupId cookie slo swq =>
    obtain ⟨new, spare, -, queue, -⟩ := ok
    refine ⟨spare, fun _ => ⟨?_, queue⟩⟩
    rintro ⟨i, found, -⟩
    obtain ⟨h, missing⟩ := settled.found_new cpu new
    rw [missing] at found
    cases found
  | unregister cpu h => trivial
  | nvmeOpen cpu nsSize nsSectorSize => exact ok.elim

theorem RegStep.settled (device : MonotoneDevice cfg) {t op}
    (step : Guarded (RegStep cfg) (RegOp.Settles cfg) s op t) (settled : s.Settled cfg) : t.Settled cfg := by
  obtain ⟨step, ok⟩ := step
  have books : ∀ c, t.Books c 0 := fun c => RegStep.books ⟨step, ok.balanced settled⟩ settled.wf (settled.books c)
  obtain ⟨-, rfl⟩ := step
  cases op with
  | register cpu flowGroupId cookie slo swq =>
    obtain ⟨new, spare, admitted, queue, settles⟩ := ok
    obtain ⟨q, rfl⟩ := Option.ne_none_iff_exists'.1 queue
    rw [next_register] at books ⊢
    exact settled.arrive device new spare admitted settles q books
  | unregister cpu h =>
    rw [next_unregister]
    by_cases live : s.Live h
    · exact settled.leave live (ok live)
    · exact settled.leave_idle live
  | nvmeOpen cpu nsSize nsSectorSize => exact ok.elim

theorem settled_of_run (device : MonotoneDevice cfg) {now tsc ops}
    (run : Run (Guarded (RegStep cfg) (RegOp.Settles cfg)) (NvmeState.init now tsc) ops s) : s.Settled cfg :=
  run.invariant (I := fun s => s.Settled cfg) (fun _ _ _ step settled => RegStep.settled device step settled) (init_settled cfg)

/-! ## A flow that comes and goes -/

theorem visit_tenants {r : Registry} (wf : r.Wf cfg)
    (found : r.search cpu flowGroupId = .nextAvail h) (idle : ¬ r.Live h)
    (admitted : ¬ r.Refused cfg cpu flowGroupId cookie slo) (q : Nat) :
    ((r.registered cfg cpu flowGroupId cookie slo (some q)).disconnected cfg h).tenants = r.tenants := by
  have wfIn := wf.registered cpu flowGroupId cookie slo (some q)
  ext t
  rw [mem_tenants (wfIn.disconnected h), mem_tenants wf]
  constructor
  · rintro ⟨i, live, same⟩
    obtain ⟨other, live⟩ := (disconnected_live wfIn i).1 live
    rw [departure_tenant, arrival_tenant_of_ne found other] at same
    exact ⟨i, ((arrival_live found admitted i).1 live).resolve_left other, same⟩
  · rintro ⟨i, live, same⟩
    have other : i ≠ h := fun at_h => idle (at_h ▸ live)
    refine ⟨i, (disconnected_live wfIn i).2 ⟨other, (arrival_live found admitted i).2 (.inr live)⟩, ?_⟩
    rw [departure_tenant, arrival_tenant_of_ne found other]
    exact same

/-- After a best-effort visit the device is no longer read only. -/
theorem visit_effort_mode {r : Registry}
    (found : r.search cpu flowGroupId = .nextAvail h) (effort : slo.critical = false) (q : Nat) :
    ((r.registered cfg cpu flowGroupId cookie slo (some q)).disconnected cfg h).globalReadonlyFlag = false := by
  have zero : slo.latencyUsSLO = 0 := by simpa [SLO.critical] using effort
  have admitted : ¬ r.Refused cfg cpu flowGroupId cookie slo := fun refused => refused_critical refused zero
  have inside := (arrival_mode (q := q) found admitted).1
  rw [effort] at inside
  obtain ⟨credit, entry⟩ := registered_entry_of_granted admitted q
  rw [slotFor_of_new found] at entry
  have kind : (((r.registered cfg cpu flowGroupId cookie slo (some q)).dropConn h).nvmeFgs h).latencyCriticalFlag = false := by
    rw [dropConn_critical, entry]
    exact effort
  rw [(departure_mode cfg (by rw [entry])).1]
  simp only [uncounted, kind, Bool.false_eq_true, if_false]
  split
  · rfl
  · exact inside

def readsFlow : RegOp := .register 0 1 0 ⟨500, 500000, 100⟩ (some 0)

theorem readsFlow_admitted : ¬ coldState.Refused steepCfg 0 1 0 ⟨500, 500000, 100⟩ := by
  have found : coldState.search 0 1 = .nextAvail 1 := search_init 0 1
  rw [Registry.Refused, candidate_of_new found, slotFor_of_new found]
  decide +kernel

theorem exists_reads : ∃ s, RegStep steepCfg coldState readsFlow s ∧ s.toRegistry = readsTable ∧
    s.swqAllocated = Function.update coldState.swqAllocated 0 true :=
  exists_arrival (q := 0) (search_init 0 1) 0 readsFlow_admitted rfl

theorem readsTable_live {i} (live : readsTable.Live i) : i = 1 := by
  by_contra other
  apply absurd live
  replace other : i ≠ init.slotFor 0 1 := slotFor_of_new (search_init 0 1) ▸ other
  obtain ⟨credit, entry⟩ := registered_fg_of_ne steepCfg init 0 ⟨500, 500000, 100⟩ (some 0) other
  rw [registered_new (search_init 0 1) readsFlow_admitted] at entry
  rw [Registry.Live, readsTable, entry]
  exact lt_irrefl (0 : Int)

theorem readsTable_wf : readsTable.Wf steepCfg := by
  have wf := (init_wf steepCfg).registered 0 1 0 ⟨500, 500000, 100⟩ (some 0)
  rw [registered_new (search_init 0 1) readsFlow_admitted] at wf
  exact wf

/-- A second reader, at 1000 us, that reserves nothing. -/
def visitor : RegOp := .register 0 2 0 ⟨1000, 0, 100⟩ (some 1)

section Scenario

variable (table : s.toRegistry = readsTable)

include table

theorem reads_admits : ¬ s.Refused steepCfg 0 2 0 ⟨1000, 0, 100⟩ := by
  have found := table ▸ readsTable_search
  rw [Registry.Refused, candidate_of_new found, slotFor_of_new found, table]
  decide +kernel

theorem reads_idle : ¬ s.Live 2 := by
  intro live
  rw [table] at live
  exact absurd (readsTable_live live) (by decide)

theorem reads_critical : (lcTenants s.tenants).Nonempty := by
  rw [table]
  exact ⟨_, (mem_lcTenants_iff readsTable_wf).2 ⟨1, by decide +kernel, by decide +kernel, rfl⟩⟩

theorem visitor_settles : visitor.Settles steepCfg s := by
  have found := table ▸ readsTable_search
  refine ⟨fun i live => ?_, fun i other => ?_, reads_admits table, Option.some_ne_none 1, fun _ ends => absurd ends (by decide)⟩
  · rw [table] at live ⊢
    obtain rfl := readsTable_live live
    decide +kernel
  · rw [found] at other
    cases other
    exact reads_idle table

end Scenario

/-- Two histories of calls that leave the mode settled and that end with the same tenants
leave the same rates, the same counters and the same mode. Without a latency-critical
tenant the rate is that of a device that nobody ever reserved on only if the device has no
limit of its own. -/
theorem rates_depend_on_tenants {cfg : Cfg} (device : MonotoneDevice cfg) {now tsc now' tsc' : Nat → Nat} {ops ops' : List RegOp}
    {s s' : NvmeState} (run : Run (Guarded (RegStep cfg) (RegOp.Settles cfg)) (NvmeState.init now tsc) ops s)
    (run' : Run (Guarded (RegStep cfg) (RegOp.Settles cfg)) (NvmeState.init now' tsc') ops' s') (same : s.tenants = s'.tenants)
    (anchored : (lcTenants s.tenants).Nonempty ∨ lookupDeviceTokenRate cfg true uintMax = uintMax) :
    s.globalTokenRate = s'.globalTokenRate ∧ s.globalLCSumTokenRate = s'.globalLCSumTokenRate ∧
      s.globalBeTokenRatePerTenant = s'.globalBeTokenRatePerTenant ∧ s.globalLcBoostNoBE = s'.globalLcBoostNoBE ∧
      s.globalReadonlyFlag = s'.globalReadonlyFlag := by
  have settled := settled_of_run device run
  have settled' := settled_of_run device run'
  obtain ⟨sum, lc, be⟩ := counters_of_tenants settled.wf (accounted_of_books settled.books) settled.distinct
  obtain ⟨sum', lc', be'⟩ := counters_of_tenants settled'.wf (accounted_of_books settled'.books) settled'.distinct
  rw [← same] at sum' lc' be'
  have rate : s.globalTokenRate = s'.globalTokenRate := by
    rcases (lcTenants s.tenants).eq_empty_or_nonempty with none | some
    · have unlimited := anchored.resolve_left (Finset.not_nonempty_iff_eq_empty.2 none)
      have full : s.globalTokenRate = uintMax := (settled.idleRate none).elim id fun eq => eq.trans unlimited
      have full' : s'.globalTokenRate = uintMax := (settled'.idleRate (same ▸ none)).elim id fun eq => eq.trans unlimited
      exact full.trans full'.symm
    · rw [settled.rate some, settled'.rate (same ▸ some), same]
  have sums := sum.trans sum'.symm
  have numLc := lc.trans lc'.symm
  have numBe := be.trans be'.symm
  refine ⟨rate, sums, ?_, ?_, ?_⟩
  · rw [settled.published.be, settled'.published.be, Registry.beRateDue, Registry.beRateDue, rate, sums, numBe]
  · rw [settled.published.boost, settled'.published.boost, Registry.boostDue, Registry.boostDue, rate, sums, numLc, numBe]
  · rw [settled.readonly, settled'.readonly, same]

/-- The second reader comes and goes, and the rates are what they were. -/
theorem reader_visit_keeps_rates :
    ∃ s s', Run (Guarded (RegStep steepCfg) (RegOp.Settles steepCfg)) coldState [readsFlow] s ∧
      Run (Guarded (RegStep steepCfg) (RegOp.Settles steepCfg)) coldState [readsFlow, visitor, .unregister 0 2] s' ∧
      s.tenants = s'.tenants ∧ s.globalTokenRate = s'.globalTokenRate := by
  obtain ⟨s, step, table, pool⟩ := exists_reads
  have settles : readsFlow.Settles steepCfg coldState :=
    ⟨fun i live => absurd live (lt_irrefl (0 : Int)), fun i _ live => absurd live (lt_irrefl (0 : Int)), readsFlow_admitted,
      Option.some_ne_none 0, fun _ _ _ i live => absurd live (lt_irrefl (0 : Int))⟩
  have found := table ▸ readsTable_search
  have admitted := reads_admits table
  obtain ⟨t, inStep, inTable, -⟩ := exists_arrival (q := 1) found 0 admitted (by rw [pool]; rfl)
  have leaves : (RegOp.unregister 0 2).Settles steepCfg t := by
    intro _
    rw [Registry.DepartureSettles, if_pos]
    · intro be
      exact absurd (by rw [inTable, table]; decide +kernel) be
    · rw [inTable, table]
      decide +kernel
  have run := Run.single (show Guarded (RegStep steepCfg) (RegOp.Settles steepCfg) coldState readsFlow s from ⟨step, settles⟩)
  have run' : Run (Guarded (RegStep steepCfg) (RegOp.Settles steepCfg)) coldState [readsFlow, visitor, .unregister 0 2]
      ((RegOp.unregister 0 2).next steepCfg t) :=
    .cons ⟨step, settles⟩ (.cons ⟨inStep, visitor_settles table⟩ (.single ⟨⟨trivial, rfl⟩, leaves⟩))
  have same : s.tenants = ((RegOp.unregister 0 2).next steepCfg t).tenants := by
    rw [next_unregister, inTable, ← registered_new found admitted, visit_tenants (table ▸ readsTable_wf) found (reads_idle table) admitted]
  exact ⟨s, _, run, run', same, (rates_depend_on_tenants steepCfg_monotone run run' same (Or.inl (reads_critical table))).1⟩

/-- A best-effort flow comes and goes: the tenants are the same, but the device has left
its read-only mode for good. -/
theorem best_effort_visit_changes_mode :
    ∃ s s', Run (RegStep steepCfg) coldState [readsFlow] s ∧
      Run (RegStep steepCfg) coldState [readsFlow, .register 0 2 0 bestEffortSLO (some 1), .unregister 0 2] s' ∧
      s.tenants = s'.tenants ∧ s.tenants.Nonempty ∧ s.globalReadonlyFlag = true ∧ s'.globalReadonlyFlag = false := by
  obtain ⟨s, step, table, pool⟩ := exists_reads
  have found := table ▸ readsTable_search
  have admitted : ¬ s.Refused steepCfg 0 2 0 bestEffortSLO := fun refused => refused_critical refused rfl
  obtain ⟨t, inStep, inTable, -⟩ := exists_arrival (q := 1) found 0 admitted (by rw [pool]; rfl)
  rw [← registered_new found admitted] at inTable
  refine ⟨s, _, .single step, .cons step (.cons inStep (.single ⟨trivial, rfl⟩)), ?_, ?_, ?_, ?_⟩
  · rw [next_unregister, inTable, visit_tenants (table ▸ readsTable_wf) found (reads_idle table) admitted]
  · obtain ⟨u, mem⟩ := reads_critical table
    exact ⟨u, (mem_lcTenants.1 mem).1⟩
  · rw [table]
    decide +kernel
  · rw [next_unregister, inTable]
    exact visit_effort_mode found rfl 1

end Reflex.Nvme
