import Reflex.Nvme.Service

/-!
# Rates and amounts

Where a rate becomes an amount the code leaves the integers: the share of a best-effort
tenant, the reservation of an SLO and the rate looked up in the device model are each an exact
rational that is rounded or truncated, behind products that are taken in a machine word.
-/

namespace Reflex.Nvme
open Lib

theorem toInt32_toInt {x : UInt32} (positive : x.toNat < 2 ^ 31) : x.toInt32.toInt = x.toNat :=
  BitVec.toInt_eq_toNat_of_lt (by show 2 * x.toNat < 2 ^ 32; omega)

/-! ## The share of a best-effort tenant -/

/-- The quotient rounded to the nearest integer. -/
theorem round_div (n : ℤ) {d : Nat} (pos : 0 < d) : ⌊(n : ℚ) / d + 1 / 2⌋ = (2 * n + d) / (2 * d : Nat) := by
  have denominator : (d : ℚ) ≠ 0 := by exact_mod_cast pos.ne'
  have same : (n : ℚ) / d + 1 / 2 = ((2 * n + d : ℤ) : ℚ) / ((2 * d : Nat) : ℚ) := by
    push_cast
    field_simp
  rw [same, Rat.floor_intCast_div_natCast]

/-- Numbers a whole divisor apart are not rounded to one. -/
theorem round_lt {n m : ℤ} {d : Nat} (pos : 0 < d) (apart : n + d ≤ m) :
    (2 * n + d) / (2 * d : Nat) < (2 * m + d) / (2 * d : Nat) := by
  have divisor : (0 : ℤ) < (2 * d : Nat) := by omega
  have step : (2 * n + d) / (2 * d : Nat) + 1 ≤ (2 * m + d) / (2 * d : Nat) := by
    rw [← Int.add_mul_ediv_right _ 1 divisor.ne']
    exact Int.ediv_le_ediv divisor (by push_cast; omega)
  omega

/-- The product of rate and time that the code computes: the rate goes through an `int`. -/
def rateProduct (rate : UInt32) (cycles : Nat) : Nat := wmul 64 (wofInt 64 rate.toInt32.toInt) cycles

theorem rateProduct_of_lt {rate : UInt32} (positive : rate.toNat < 2 ^ 31) (cycles : Nat) :
    rateProduct rate cycles = rate.toNat * cycles % 2 ^ 64 := by
  rw [rateProduct, toInt32_toInt positive, wofInt_of_lt (by omega) (by norm_num; omega), Int.toNat_natCast, wmul]

/-- A rate that is negative as an `int` loses `2 ^ 32` per cycle. -/
theorem rateProduct_of_ge {rate : UInt32} (negative : 2 ^ 31 ≤ rate.toNat) (cycles : Nat) :
    (rateProduct rate cycles : ℤ) = ((rate.toNat * cycles : Nat) - 2 ^ 32 * cycles) % 2 ^ 64 := by
  have word := rate.toNat_lt
  have signed : rate.toInt32.toInt = (rate.toNat : ℤ) - 2 ^ 32 := by
    have cond := BitVec.toInt_eq_toNat_cond rate.toBitVec
    change rate.toInt32.toInt = _ at cond
    rw [cond, if_neg (by change ¬ 2 * rate.toNat < 2 ^ 32; omega)]
    rfl
  rw [rateProduct, wmul, Int.natCast_mod, Nat.cast_mul, cast_wofInt, signed, Int.mul_emod, Int.emod_emod, ← Int.mul_emod,
    Int.sub_mul, Nat.cast_mul]
  norm_num

theorem beShare_round (cfg : Cfg) (s : NvmeState) (r : Registry) (cycles : Nat) (published : s.toRegistry = publishRates r)
    (clock : 0 < cfg.cyclesPerUs) :
    (beShare cfg s cycles : ℤ) = ⌊((rateProduct r.beRateDue cycles : ℤ) : ℚ) / (cfg.cyclesPerUs * 10 ^ 6 : Nat) + 1 / 2⌋ := by
  have exact : beTokenIncrement cfg s cycles = ((rateProduct r.beRateDue cycles : ℤ) : ℚ) / ((cfg.cyclesPerUs * 10 ^ 6 : Nat) : ℚ) := by
    rw [beTokenIncrement, published, publishRates_be, rateProduct]
    push_cast
    rfl
  have word : rateProduct r.beRateDue cycles < 2 ^ 64 := Nat.mod_lt _ (by norm_num)
  have nonneg : (0 : ℚ) ≤ ((rateProduct r.beRateDue cycles : ℤ) : ℚ) / ((cfg.cyclesPerUs * 10 ^ 6 : Nat) : ℚ) + 1 / 2 := by positivity
  have low := Int.floor_nonneg.2 nonneg
  have high : ⌊((rateProduct r.beRateDue cycles : ℤ) : ℚ) / (cfg.cyclesPerUs * 10 ^ 6 : Nat) + 1 / 2⌋ < 2 ^ 62 := by
    rw [round_div _ (by omega), Int.ediv_lt_iff_lt_mul (by omega)]
    push_cast
    omega
  rw [beShare, exact, truncToInt_of_nonneg 64 nonneg]
  generalize ⌊((rateProduct r.beRateDue cycles : ℤ) : ℚ) / (cfg.cyclesPerUs * 10 ^ 6 : Nat) + 1 / 2⌋ = share at low high ⊢
  rw [min_eq_left (by norm_num; omega), wofInt_of_lt low (by norm_num; omega), Int.toNat_of_nonneg low]

/-- The amount is the published rate times the time, rounded, exactly if the rate keeps its sign in an `int` and the
product fits a word, or the sign is lost and a wrap makes up for it: the time is a multiple of `2 ^ 32` cycles, or one cycle off and
the two products are rounded to the same number. -/
theorem beShare_is_rate_times_time (cfg : Cfg) (s : NvmeState) (r : Registry) (cycles : Nat)
    (published : s.toRegistry = publishRates r) (clock : 0 < cfg.cyclesPerUs) (fastest : cfg.cyclesPerUs ≤ 5000) :
    let exact : ℤ := (r.beRateDue.toNat * cycles : Nat)
    let rounded := fun n : ℤ => ⌊(n : ℚ) / (cfg.cyclesPerUs * 10 ^ 6 : Nat) + 1 / 2⌋
    (beShare cfg s cycles : ℤ) = rounded exact ↔
      r.beRateDue.toNat < 2 ^ 31 ∧ exact < 2 ^ 64 ∨
      2 ^ 31 ≤ r.beRateDue.toNat ∧ ∃ off : ℤ, -1 ≤ off ∧ off ≤ 1 ∧ (cycles - off) % 2 ^ 32 = 0 ∧
        0 ≤ exact - 2 ^ 32 * off ∧ exact - 2 ^ 32 * off < 2 ^ 64 ∧ rounded (exact - 2 ^ 32 * off) = rounded exact := by
  intro exact rounded
  have divisor : 0 < cfg.cyclesPerUs * 10 ^ 6 := by omega
  have apart : ∀ {n m : ℤ}, n + 5 * 10 ^ 9 ≤ m → rounded n < rounded m := fun {n m} far => by
    simp only [rounded, round_div _ divisor]
    exact round_lt divisor (by push_cast; omega)
  rw [show (beShare cfg s cycles : ℤ) = rounded (rateProduct r.beRateDue cycles) from beShare_round cfg s r cycles published clock]
  rcases Nat.lt_or_ge r.beRateDue.toNat (2 ^ 31) with positive | negative
  · have product := rateProduct_of_lt positive cycles
    constructor
    · intro same
      refine .inl ⟨positive, ?_⟩
      by_contra wraps
      have less := apart (n := rateProduct r.beRateDue cycles) (m := exact) (by omega)
      omega
    · rintro (⟨-, fits⟩ | ⟨contra, -⟩)
      · rw [product, Nat.mod_eq_of_lt (by omega)]
      · omega
  · have product := rateProduct_of_ge negative cycles
    constructor
    · intro same
      have near : exact - rateProduct r.beRateDue cycles < 5 * 10 ^ 9 ∧ rateProduct r.beRateDue cycles - exact < 5 * 10 ^ 9 := by
        constructor
        · by_contra far
          have less := apart (n := rateProduct r.beRateDue cycles) (m := exact) (by omega)
          omega
        · by_contra far
          have less := apart (n := exact) (m := rateProduct r.beRateDue cycles) (by omega)
          omega
      -- Both products are the same modulo `2 ^ 32`, so they are at most one such step apart.
      have gap : exact - rateProduct r.beRateDue cycles = 2 ^ 32 * ((exact - rateProduct r.beRateDue cycles) / 2 ^ 32) := by omega
      refine .inr ⟨negative, (exact - rateProduct r.beRateDue cycles) / 2 ^ 32, by omega, by omega, by omega, by omega, by omega, ?_⟩
      rw [← gap, sub_sub_cancel]
      exact same
    · rintro (⟨contra, -⟩ | ⟨-, off, -, -, multiple, low, high, same⟩)
      · omega
      · rw [show (rateProduct r.beRateDue cycles : ℤ) = exact - 2 ^ 32 * off by omega]
        exact same
/-- One best-effort tenant on a default device. -/
def loneEffort : Registry := { Registry.init with globalTokenRate := uintMax, globalNumBestEffortTenants := 1 }

/-- Its rate is published as -1: after one second it is given four times its rate. -/
theorem default_rate_is_negative : ∃ s : NvmeState, s.toRegistry = publishRates loneEffort ∧ loneEffort.beRateDue.toNat = 4294967295 ∧
    beShare flatCfg s (10 ^ 9) = 18446744073 ∧ ⌊(4294967295 * 10 ^ 9 : ℚ) / (1000 * 10 ^ 6) + 1 / 2⌋₊ = 4294967295 := by
  refine ⟨{ coldState with toRegistry := publishRates loneEffort }, rfl, by decide, ?_, by norm_num⟩
  rw [beShare, beTokenIncrement, publishRates_be]
  decide +kernel

/-- Two of them on a device of a billion tokens per second. -/
def twoEfforts : Registry := { Registry.init with globalTokenRate := 10 ^ 9, globalNumBestEffortTenants := 2 }

theorem twoEfforts_share : ∃ s : NvmeState, s.toRegistry = publishRates twoEfforts ∧ beShare flatCfg s 10000 = 5000 := by
  refine ⟨{ coldState with toRegistry := publishRates twoEfforts }, rfl, ?_⟩
  apply Int.ofNat_inj.1
  rw [(beShare_is_rate_times_time flatCfg _ twoEfforts 10000 rfl (by decide) (by decide)).2 (.inl ⟨by decide, by decide⟩),
    show twoEfforts.beRateDue.toNat = 500000000 by decide]
  norm_num [flatCfg]

/-! ## The reservation of an SLO -/

/-- What a `REG` header asks for. -/
def headerSLO (lba : UInt64) (lbaCount : UInt32) : SLO := ⟨lbaCount >>> 7, lba, (lbaCount &&& 0x7f).toInt32⟩

/-- `scaledIOPS` before rounding. -/
def SLO.amount (cfg : Cfg) (slo : SLO) : ℚ :=
  (slo.iopsSLO.toNat : ℚ) * ((slo.rwRatioSLO.toInt : ℚ) / 100) * (nvmeComputeReqCost cfg .read sloReqSize : ℚ) +
    (slo.iopsSLO.toNat : ℚ) * (1 - (slo.rwRatioSLO.toInt : ℚ) / 100) * (nvmeComputeReqCost cfg .write sloReqSize : ℚ)

theorem headerSLO_ratio (lba : UInt64) (lbaCount : UInt32) : (headerSLO lba lbaCount).rwRatioSLO.toInt = (lbaCount.toNat % 128 : Nat) := by
  have low : (lbaCount &&& 0x7f).toNat = lbaCount.toNat % 128 := by
    rw [UInt32.toNat_and]
    exact Nat.and_two_pow_sub_one_eq_mod _ 7
  rw [← low]
  exact toInt32_toInt (by omega)

/-- Whatever header a client sends: the amount is between the costs of that many reads and writes exactly if the
ratio is a percentage or makes no difference; it is rounded without loss exactly if it is a word; and a granted
registration stores the millionth part of that, which is the rounded amount only if that is zero. -/
theorem reservation_bounds (cfg : Cfg) (lba : UInt64) (lbaCount : UInt32)
    (costs : nvmeComputeReqCost cfg .read sloReqSize ≤ nvmeComputeReqCost cfg .write sloReqSize) :
    let slo := headerSLO lba lbaCount
    ((lba.toNat * nvmeComputeReqCost cfg .read sloReqSize : ℚ) ≤ slo.amount cfg ∧
        slo.amount cfg ≤ lba.toNat * nvmeComputeReqCost cfg .write sloReqSize ↔
      lbaCount.toNat % 128 ≤ 100 ∨ lba.toNat = 0 ∨ nvmeComputeReqCost cfg .read sloReqSize = nvmeComputeReqCost cfg .write sloReqSize) ∧
    ((scaledIOPS cfg slo.iopsSLO slo.rwRatioSLO : ℤ) = ⌊slo.amount cfg + 1 / 2⌋ ↔
      0 ≤ slo.amount cfg + 1 / 2 ∧ slo.amount cfg + 1 / 2 < (2 ^ 64 : Nat)) ∧
    ∀ (r : Registry) (cpu : Nat) (flowGroupId : Int64) (cookie : UInt64) (q : Nat), ¬ r.Refused cfg cpu flowGroupId cookie slo →
      let stored := ((r.registered cfg cpu flowGroupId cookie slo (some q)).nvmeFgs (r.slotFor cpu flowGroupId)).scaledIOPSLimit
      stored = scaledIOPS cfg slo.iopsSLO slo.rwRatioSLO / 10 ^ 6 ∧
        ((stored : ℤ) = ⌊slo.amount cfg + 1 / 2⌋ ↔ ⌊slo.amount cfg + 1 / 2⌋ = 0) := by
  intro slo
  have rounded : scaledIOPS cfg slo.iopsSLO slo.rwRatioSLO = min ⌊slo.amount cfg + 1 / 2⌋.toNat (2 ^ 64 - 1) := by
    rw [Int.floor_toNat]
    rfl
  refine ⟨?_, ?_, fun r cpu flowGroupId cookie q admitted => ?_⟩
  · have ratio : (slo.rwRatioSLO.toInt : ℚ) = (lbaCount.toNat % 128 : Nat) := by
      rw [show slo.rwRatioSLO.toInt = _ from headerSLO_ratio lba lbaCount, Int.cast_natCast]
    rw [SLO.amount, ratio, show slo.iopsSLO = lba from rfl]
    generalize nvmeComputeReqCost cfg .read sloReqSize = r at costs ⊢
    generalize nvmeComputeReqCost cfg .write sloReqSize = w at costs ⊢
    generalize lbaCount.toNat % 128 = p
    generalize lba.toNat = n
    -- The excess over the reads and the rest up to the writes, as products.
    have excess : (n * (p / 100) * r + n * (1 - p / 100) * w - n * r : ℚ) = n * (w - r) * (100 - p) / 100 := by ring
    have rest : (n * w - (n * (p / 100) * r + n * (1 - p / 100) * w) : ℚ) = n * (w - r) * p / 100 := by ring
    have gap : (0 : ℚ) ≤ w - r := sub_nonneg.2 (by exact_mod_cast costs)
    have high : (0 : ℚ) ≤ n * (w - r) * p := by positivity
    constructor
    · rintro ⟨low, -⟩
      by_contra none
      simp only [not_or, not_le] at none
      obtain ⟨big, some, differ⟩ := none
      have beyond : (0 : ℚ) < p - 100 := sub_pos.2 (by exact_mod_cast big)
      have iops : (0 : ℚ) < n := by exact_mod_cast Nat.pos_of_ne_zero some
      have dearer : (0 : ℚ) < w - r := sub_pos.2 (by exact_mod_cast lt_of_le_of_ne costs differ)
      have := mul_pos (mul_pos iops dearer) beyond
      linarith
    · intro fine
      have low : (0 : ℚ) ≤ n * (w - r) * (100 - p) := by
        rcases fine with percent | rfl | rfl
        · have : (0 : ℚ) ≤ 100 - p := sub_nonneg.2 (by exact_mod_cast percent)
          positivity
        · simp
        · simp
      constructor <;> linarith
  · have word : slo.amount cfg + 1 / 2 < (2 ^ 64 : Nat) ↔ ⌊slo.amount cfg + 1 / 2⌋ < 2 ^ 64 := by
      rw [Int.floor_lt]
      norm_num
    rw [rounded, word, ← Int.floor_nonneg]
    omega
  · obtain ⟨credit, entry⟩ := registered_entry_of_granted admitted q
    have stored := fillFlowGroup_limit cfg ((r.prepared cfg cpu flowGroupId slo).nvmeFgs (r.slotFor cpu flowGroupId)) cpu flowGroupId
      cookie slo
    simp only [entry]
    refine ⟨stored, ?_⟩
    rw [stored, SLO.limit, rounded]
    omega

/-- A ratio of 127 makes the reservation negative, and a reservation of a hundred million tokens
is stored as a hundred. -/
theorem reservation_out_of_bounds :
    (headerSLO 1 127).amount flatCfg < 1 * nvmeComputeReqCost flatCfg .read sloReqSize ∧
      (headerSLO 1000000 100).limit flatCfg = 100 ∧ ⌊(headerSLO 1000000 100).amount flatCfg + 1 / 2⌋₊ = 10 ^ 8 := by
  decide +kernel

theorem thousand_requests_reserved : (scaledIOPS flatCfg 1000 50 : ℤ) = ⌊(headerSLO 1000 50).amount flatCfg + 1 / 2⌋ :=
  (reservation_bounds flatCfg 1000 50 (by decide)).2.1.2 (by decide +kernel)

/-! ## The lookup in the device model -/

/-- What `parse_nvme_device_model` reads of an entry of `token_limits`. -/
structure ModelEntry where
  lat : Int32
  tokenRateLimit : Int64
  tokenRdonlyRateLimit : Int64

def ModelEntry.pair (e : ModelEntry) : LatTokenratePair :=
  ⟨e.lat.toUInt32.toNat, e.tokenRateLimit.toUInt64.toNat,
    (if e.tokenRdonlyRateLimit = 0 then e.tokenRateLimit else e.tokenRdonlyRateLimit).toUInt64.toNat⟩

/-- The difference of two unsigned words as an `int`. -/
def compareLatTokenrate (a b : LatTokenratePair) : Int := Int.bmod (a.p95TailLatency - b.p95TailLatency) (2 ^ 32)

/-- The parser accepts the entries and leaves `table`: `qsort` may leave entries of one latency in any order. -/
structure ParsesTo (entries : List ModelEntry) (table : List LatTokenratePair) : Prop where
  size : entries.length < 128
  valid : ∀ e ∈ entries, e.lat ≠ 0 ∧ e.tokenRateLimit ≠ 0
  perm : table.Perm (entries.map ModelEntry.pair)
  sorted : table.Pairwise fun a b => compareLatTokenrate a b ≤ 0

namespace ParsesTo

variable {entries : List ModelEntry} {table : List LatTokenratePair} {j k lat : Nat}

theorem fits (parsed : ParsesTo entries table) {p : LatTokenratePair} (listed : p ∈ table) (readonly : Bool) :
    p.p95TailLatency < 2 ^ 32 ∧ p.limit readonly < 2 ^ 64 := by
  obtain ⟨e, -, rfl⟩ := List.mem_map.1 (parsed.perm.mem_iff.1 listed)
  exact ⟨UInt32.toNat_lt _, by cases readonly <;> exact UInt64.toNat_lt _⟩

end ParsesTo

section Sorted

variable {table : List LatTokenratePair} {j k lat : Nat} (sorted : table.Pairwise fun a b => a.p95TailLatency ≤ b.p95TailLatency)
include sorted

end Sorted

end Reflex.Nvme
