import Reflex.Lib.Word

/-!
# The flash device model

The token rates of the configuration's latency table, the request costs, and the rate a service level
objective costs (`find_token_limit_from_devmodel`, `lookup_device_token_rate`, `nvme_compute_req_cost` and
`scaled_IOPS` of `nvme/nvmedev.c`).
-/

namespace Reflex.Nvme
open Lib List

variable {k lat y0 y1 d : Nat} {f g : Bool}

def uintMax : Nat := 2 ^ 32 - 1

inductive NvmeDevModel where
  | defaultFlash
  | fakeFlash
  | flashDevModel
  deriving DecidableEq, Repr

/-- A row of the device model: the rates that keep the 95th percentile below a latency. -/
structure LatTokenratePair where
  p95TailLatency : Nat
  tokenRateLimit : Nat
  tokenRdonlyRateLimit : Nat
  deriving DecidableEq, Repr

/-- The configuration the NVMe layer reads. `devModel` is `dev_model[0 .. dev_model_size)`. -/
structure Cfg where
  nvmeDevModel : NvmeDevModel
  devModel : List LatTokenratePair
  nvmeReadCost : Int
  nvmeWriteCost : Int
  cyclesPerUs : Nat
  cpusActive : Nat
  nvmeSchedFlag : Bool

/-- A device model with one row, whose rate is the greatest the scheduler publishes, for concrete runs. -/
def flatCfg : Cfg where
  nvmeDevModel := .flashDevModel
  devModel := [⟨1000, uintMax, uintMax⟩]
  nvmeReadCost := 100
  nvmeWriteCost := 1000
  cyclesPerUs := 1000
  cpusActive := 1
  nvmeSchedFlag := true

/-- `TOKEN_DEFICIT_LIMIT`, as `set_token_deficit_limit` leaves it: an `int` product. -/
def Cfg.tokenDeficitLimit (cfg : Cfg) : Int := Int.bmod (100 * cfg.nvmeWriteCost) (2 ^ 32)

/-- The column of the table that the read-only flag selects. -/
def LatTokenratePair.limit (e : LatTokenratePair) (readonly : Bool) : Nat :=
  if readonly then e.tokenRdonlyRateLimit else e.tokenRateLimit

/-- Row `k` of `dev_model`; the array is zero beyond the configured rows. -/
def row (devModel : List LatTokenratePair) (k : Nat) : LatTokenratePair := devModel.getD k ⟨0, 0, 0⟩

def findTokenLimitFromDevmodel (devModel : List LatTokenratePair) (readonly : Bool) (latSLO : Nat) : Nat :=
  let i := devModel.findIdx fun e => decide (latSLO < e.p95TailLatency)
  if 0 < i then
    if i = devModel.length then (row devModel (i - 1)).limit readonly
    else
      let y0 := (row devModel (i - 1)).limit readonly
      let y1 := (row devModel i).limit readonly
      let x0 := (row devModel (i - 1)).p95TailLatency
      let x1 := (row devModel i).p95TailLatency
      truncToNat 64 (y0 + (wmul 64 (wsub 64 y1 y0) (wsub 64 latSLO x0) : ℚ) / (wsub 64 x1 x0 : ℚ))
  else (row devModel 0).limit readonly

def lookupDeviceTokenRate (cfg : Cfg) (readonly : Bool) (latSLO : Nat) : Nat :=
  match cfg.nvmeDevModel with
  | .defaultFlash => uintMax
  | .fakeFlash => uintMax
  | .flashDevModel => findTokenLimitFromDevmodel cfg.devModel readonly latSLO

inductive NvmeCmd where
  | read
  | write
  deriving DecidableEq, Repr

/-- Request cost, linear in the size above 4 KB; `int` products wrap. -/
def nvmeComputeReqCost (cfg : Cfg) (reqType : NvmeCmd) (reqLen : Nat) : Int :=
  if reqLen ≤ 0 then 0
  else
    let lenScaleFactor : Int :=
      if 4096 < reqLen then Int.bmod (((reqLen + 4096 - 1) % 2 ^ 64 / 4096 : Nat) : Int) (2 ^ 32) else 1
    match reqType with
    | .read => Int.bmod (cfg.nvmeReadCost * lenScaleFactor) (2 ^ 32)
    | .write => Int.bmod (cfg.nvmeWriteCost * lenScaleFactor) (2 ^ 32)

def sloReqSize : Nat := 4096

/-- The token rate, in tokens per second, that an SLO of `iops` 4 KB requests costs. -/
def scaledIOPS (cfg : Cfg) (iops : UInt64) (rwRatio100 : Int32) : Nat :=
  let rwRatio : ℚ := (rwRatio100.toInt : ℚ) / 100
  let scaled : ℚ := (iops.toNat : ℚ) * rwRatio * (nvmeComputeReqCost cfg .read sloReqSize : ℚ) +
    (iops.toNat : ℚ) * (1 - rwRatio) * (nvmeComputeReqCost cfg .write sloReqSize : ℚ)
  truncToNat 64 (scaled + 1 / 2)

theorem scaledIOPS_lt (cfg : Cfg) (iops : UInt64) (rwRatio100 : Int32) :
    scaledIOPS cfg iops rwRatio100 < 2 ^ 64 := truncToNat_lt _ _

/-! ## Monotone tables -/

/-- A table with rates that grow with the latency, in both columns, whose mixed rate
never exceeds the read-only rate, and whose rates fit the 32-bit rates the scheduler
publishes. -/
structure MonotoneTable (devModel : List LatTokenratePair) : Prop where
  latency : devModel.Pairwise fun a b => a.p95TailLatency ≤ b.p95TailLatency
  rates : ∀ readonly, devModel.Pairwise fun a b => a.limit readonly ≤ b.limit readonly
  modes : ∀ e ∈ devModel, e.tokenRateLimit ≤ e.tokenRdonlyRateLimit
  fits : ∀ e ∈ devModel, e.tokenRdonlyRateLimit ≤ uintMax
  latencyFits : ∀ e ∈ devModel, e.p95TailLatency ≤ uintMax

/-- Integer interpolation between `y0` and `y1`, `k` of `d` steps along. -/
def interpolate (y0 y1 k d : Nat) : Nat := y0 + (y1 - y0) * k / d

theorem interpolate_eq (hy : y0 ≤ y1) (hk : k ≤ d) (hd : 0 < d) :
    interpolate y0 y1 k d = (y0 * (d - k) + y1 * k) / d := by
  obtain ⟨z, rfl⟩ := Nat.exists_eq_add_of_le hy
  obtain ⟨m, rfl⟩ := Nat.exists_eq_add_of_le hk
  have split : y0 * (k + m - k) + (y0 + z) * k = z * k + y0 * (k + m) := by
    rw [Nat.add_sub_cancel_left]; ring
  unfold interpolate
  rw [split, Nat.add_mul_div_right _ _ hd, Nat.add_sub_cancel_left, Nat.add_comm]

theorem interpolate_mono {z0 z1} (hy : y0 ≤ y1) (hz : z0 ≤ z1) (h0 : y0 ≤ z0) (h1 : y1 ≤ z1)
    (hk : k ≤ d) (hd : 0 < d) : interpolate y0 y1 k d ≤ interpolate z0 z1 k d := by
  rw [interpolate_eq hy hk hd, interpolate_eq hz hk hd]
  exact Nat.div_le_div_right (Nat.add_le_add (Nat.mul_le_mul_right _ h0) (Nat.mul_le_mul_right _ h1))

theorem interpolate_le (hy : y0 ≤ y1) (hk : k ≤ d) :
    interpolate y0 y1 k d ≤ y1 := by
  have : (y1 - y0) * k / d ≤ y1 - y0 := Nat.div_le_of_le_mul (by rw [Nat.mul_comm d]; exact Nat.mul_le_mul_left _ hk)
  unfold interpolate
  omega

theorem row_eq {devModel : List LatTokenratePair} (hk : k < devModel.length) :
    row devModel k = devModel[k] := by
  simp [row, hk]

theorem row_mem {devModel : List LatTokenratePair} (hk : k < devModel.length) :
    row devModel k ∈ devModel := by
  rw [row_eq hk]; exact getElem_mem hk

section Lookup

variable {devModel : List LatTokenratePair} {readonly : Bool} {i : Nat}

theorem skipped_row (before : i < devModel.findIdx fun e => decide (lat < e.p95TailLatency)) : (row devModel i).p95TailLatency ≤ lat := by
  have passed := not_of_lt_findIdx before
  rw [row_eq (before.trans_le findIdx_le_length)]
  simpa using passed

theorem found_row (here : devModel.findIdx (fun e => decide (lat < e.p95TailLatency)) = i) (inside : i < devModel.length) :
    lat < (row devModel i).p95TailLatency := by
  subst here
  have stopped := findIdx_getElem (w := inside)
  rw [row_eq inside]
  simpa using stopped

theorem find_below (here : devModel.findIdx (fun e => decide (lat < e.p95TailLatency)) = 0) :
    findTokenLimitFromDevmodel devModel readonly lat = (row devModel 0).limit readonly := by
  simp only [findTokenLimitFromDevmodel, here, Nat.lt_irrefl, if_false]

theorem find_above (here : devModel.findIdx (fun e => decide (lat < e.p95TailLatency)) = i + 1) (last : i + 1 = devModel.length) :
    findTokenLimitFromDevmodel devModel readonly lat = (row devModel i).limit readonly := by
  simp only [findTokenLimitFromDevmodel, here, last, if_true]
  rw [← last, if_pos (Nat.succ_pos i), Nat.add_sub_cancel]

/-- Between two rows, with the products as the code takes them. -/
theorem find_inside (here : devModel.findIdx (fun e => decide (lat < e.p95TailLatency)) = i + 1) (inside : i + 1 < devModel.length)
    (xFits : (row devModel (i + 1)).p95TailLatency < 2 ^ 64) :
    findTokenLimitFromDevmodel devModel readonly lat = min ((row devModel i).limit readonly +
      wmul 64 (wsub 64 ((row devModel (i + 1)).limit readonly) ((row devModel i).limit readonly)) (lat - (row devModel i).p95TailLatency) /
        ((row devModel (i + 1)).p95TailLatency - (row devModel i).p95TailLatency)) (2 ^ 64 - 1) := by
  have x0 : (row devModel i).p95TailLatency ≤ lat := skipped_row (here ▸ Nat.lt_succ_self i)
  have x1 := found_row here inside
  simp only [findTokenLimitFromDevmodel, here, Nat.succ_pos, if_true, Nat.ne_of_lt inside, if_false, Nat.add_sub_cancel]
  have width := wsub_of_le (w := 64) (x0.trans x1.le) xFits
  rw [wsub_of_le x0 (by omega), width, truncToNat, add_comm, Nat.floor_add_natCast (by positivity), Nat.floor_div_eq_div, add_comm]

theorem find_between (here : devModel.findIdx (fun e => decide (lat < e.p95TailLatency)) = i + 1) (inside : i + 1 < devModel.length)
    (y : (row devModel i).limit readonly ≤ (row devModel (i + 1)).limit readonly)
    (yFits : (row devModel (i + 1)).limit readonly < 2 ^ 64) (xFits : (row devModel (i + 1)).p95TailLatency < 2 ^ 64)
    (product : ((row devModel (i + 1)).limit readonly - (row devModel i).limit readonly) *
      (lat - (row devModel i).p95TailLatency) < 2 ^ 64) :
    findTokenLimitFromDevmodel devModel readonly lat =
      interpolate ((row devModel i).limit readonly) ((row devModel (i + 1)).limit readonly)
        (lat - (row devModel i).p95TailLatency)
        ((row devModel (i + 1)).p95TailLatency - (row devModel i).p95TailLatency) := by
  have x1 := found_row here inside
  have upper := interpolate_le (k := lat - (row devModel i).p95TailLatency)
    (d := (row devModel (i + 1)).p95TailLatency - (row devModel i).p95TailLatency) y (by omega)
  rw [find_inside here inside xFits, wsub_of_le y yFits, wmul_of_lt product]
  unfold interpolate at upper ⊢
  omega

end Lookup

namespace MonotoneTable

variable {devModel : List LatTokenratePair}

theorem limit_le (h : MonotoneTable devModel) (readonly : Bool) {j} (hjk : j ≤ k) (hk : k < devModel.length) :
    (row devModel j).limit readonly ≤ (row devModel k).limit readonly := by
  rcases Nat.lt_or_eq_of_le hjk with lt | rfl
  · rw [row_eq (lt.trans hk), row_eq hk]
    exact pairwise_iff_getElem.1 (h.rates readonly) j k (lt.trans hk) hk lt
  · exact Nat.le_refl _

theorem mixed_le_rdonly (h : MonotoneTable devModel) (hfg : f = true → g = true)
    (hk : k < devModel.length) : (row devModel k).limit f ≤ (row devModel k).limit g := by
  have := h.modes _ (row_mem hk)
  cases f <;> cases g <;> simp_all [LatTokenratePair.limit]

theorem limit_fits (h : MonotoneTable devModel) (readonly : Bool) (hk : k < devModel.length) :
    (row devModel k).limit readonly ≤ uintMax :=
  (h.mixed_le_rdonly (fun _ => rfl) hk).trans (h.fits _ (row_mem hk))

/-- Where a latency falls in the table, and the rate looked up there. Between two listed
latencies it is integer interpolation: the product of 32-bit factors does not wrap. -/
inductive Falls (devModel : List LatTokenratePair) (readonly : Bool) (lat : Nat) : Nat → Nat → Prop where
  | below (at0 : devModel = [] ∨ lat < (row devModel 0).p95TailLatency) :
      Falls devModel readonly lat 0 ((row devModel 0).limit readonly)
  | between {i : Nat} (inside : i + 1 < devModel.length) (x0 : (row devModel i).p95TailLatency ≤ lat)
      (x1 : lat < (row devModel (i + 1)).p95TailLatency) :
      Falls devModel readonly lat (i + 1) (interpolate ((row devModel i).limit readonly)
        ((row devModel (i + 1)).limit readonly) (lat - (row devModel i).p95TailLatency)
        ((row devModel (i + 1)).p95TailLatency - (row devModel i).p95TailLatency))
  | above {i : Nat} (last : i + 1 = devModel.length) (x0 : (row devModel i).p95TailLatency ≤ lat) :
      Falls devModel readonly lat (i + 1) ((row devModel i).limit readonly)

theorem find_falls (h : MonotoneTable devModel) (readonly : Bool) (hlat : lat ≤ uintMax) :
    Falls devModel readonly lat (devModel.findIdx fun e => decide (lat < e.p95TailLatency))
      (findTokenLimitFromDevmodel devModel readonly lat) := by
  have upper : devModel.findIdx (fun e => decide (lat < e.p95TailLatency)) ≤ devModel.length := findIdx_le_length
  cases here : devModel.findIdx (fun e => decide (lat < e.p95TailLatency)) with
  | zero =>
    rw [find_below here]
    refine .below ?_
    rcases Nat.eq_zero_or_pos devModel.length with empty | pos
    · exact Or.inl (length_eq_zero_iff.1 empty)
    · exact Or.inr (found_row here pos)
  | succ i =>
    have x0 : (row devModel i).p95TailLatency ≤ lat := skipped_row (here ▸ Nat.lt_succ_self i)
    by_cases last : i + 1 = devModel.length
    · rw [find_above here last]
      exact .above last x0
    · have inside : i + 1 < devModel.length := by omega
      have yFits := h.limit_fits readonly inside
      have xFits := h.latencyFits _ (row_mem inside)
      simp only [uintMax] at hlat yFits xFits
      have product := Nat.mul_le_mul (show (row devModel (i + 1)).limit readonly - (row devModel i).limit readonly ≤ 2 ^ 32 - 1 by omega)
        (show lat - (row devModel i).p95TailLatency ≤ 2 ^ 32 - 1 by omega)
      rw [find_between here inside (h.limit_le readonly (Nat.le_succ i) inside) (by omega) (by omega) (product.trans_lt (by norm_num))]
      exact .between inside x0 (found_row here inside)

theorem Falls.upper (h : MonotoneTable devModel) {readonly i v}
    (falls : Falls devModel readonly lat i v) (inside : i < devModel.length) : v ≤ (row devModel i).limit readonly := by
  cases falls with
  | below => exact Nat.le_refl _
  | between _ x0 x1 => exact interpolate_le (h.limit_le readonly (Nat.le_succ _) inside) (by omega)
  | above last => omega

theorem Falls.lower {readonly i v} (falls : Falls devModel readonly lat (i + 1) v) :
    (row devModel i).limit readonly ≤ v := by
  cases falls with
  | between => exact Nat.le_add_right _ _
  | above => exact Nat.le_refl _

theorem find_mono_latency (h : MonotoneTable devModel) (readonly : Bool) {lat'} (le : lat ≤ lat')
    (hlat' : lat' ≤ uintMax) :
    findTokenLimitFromDevmodel devModel readonly lat ≤ findTokenLimitFromDevmodel devModel readonly lat' := by
  have first := h.find_falls readonly (le.trans hlat')
  have second := h.find_falls readonly hlat'
  have index : devModel.findIdx (fun e => decide (lat < e.p95TailLatency)) ≤
      devModel.findIdx (fun e => decide (lat' < e.p95TailLatency)) := by
    apply Nat.le_of_not_lt
    intro lt
    have inside := lt.trans_le findIdx_le_length
    have skipped := not_of_lt_findIdx lt
    have found := findIdx_getElem (w := inside)
    simp only [decide_eq_false_iff_not, Nat.not_lt, decide_eq_true_eq] at skipped found
    omega
  have length' : devModel.findIdx (fun e => decide (lat' < e.p95TailLatency)) ≤ devModel.length := findIdx_le_length
  generalize devModel.findIdx (fun e => decide (lat < e.p95TailLatency)) = i at *
  generalize devModel.findIdx (fun e => decide (lat' < e.p95TailLatency)) = j at *
  generalize findTokenLimitFromDevmodel devModel readonly lat = v at *
  generalize findTokenLimitFromDevmodel devModel readonly lat' = v' at *
  rcases Nat.lt_or_eq_of_le index with lt | rfl
  · obtain ⟨k, rfl⟩ : ∃ k, j = k + 1 := ⟨j - 1, by omega⟩
    calc v ≤ (row devModel i).limit readonly := first.upper h (by omega)
      _ ≤ (row devModel k).limit readonly := h.limit_le readonly (by omega) (by omega)
      _ ≤ v' := second.lower
  · cases first with
    | below => cases second; exact Nat.le_refl _
    | between inside x0 x1 =>
      cases second with
      | between =>
        exact Nat.add_le_add_left (Nat.div_le_div_right (Nat.mul_le_mul_left _ (by omega))) _
      | above last => omega
    | above last =>
      cases second with
      | between inside => omega
      | above => exact Nat.le_refl _

theorem find_mono_mode (h : MonotoneTable devModel) (hfg : f = true → g = true)
    (hlat : lat ≤ uintMax) :
    findTokenLimitFromDevmodel devModel f lat ≤ findTokenLimitFromDevmodel devModel g lat := by
  have first := h.find_falls f hlat
  have second := h.find_falls g hlat
  generalize devModel.findIdx (fun e => decide (lat < e.p95TailLatency)) = i at *
  generalize findTokenLimitFromDevmodel devModel f lat = v at *
  generalize findTokenLimitFromDevmodel devModel g lat = v' at *
  cases first with
  | below =>
    cases second
    rcases Nat.eq_zero_or_pos devModel.length with empty | pos
    · simp [length_eq_zero_iff.1 empty, row, LatTokenratePair.limit]
    · exact h.mixed_le_rdonly hfg pos
  | between inside x0 x1 =>
    cases second with
    | between =>
      exact interpolate_mono (h.limit_le f (Nat.le_succ _) inside) (h.limit_le g (Nat.le_succ _) inside)
        (h.mixed_le_rdonly hfg (by omega)) (h.mixed_le_rdonly hfg inside) (by omega) (by omega)
    | above last => omega
  | above last =>
    cases second with
    | between inside => omega
    | above => exact h.mixed_le_rdonly hfg (by omega)

theorem find_fits (h : MonotoneTable devModel) (readonly : Bool) (hlat : lat ≤ uintMax) :
    findTokenLimitFromDevmodel devModel readonly lat ≤ uintMax := by
  have falls := h.find_falls readonly hlat
  generalize devModel.findIdx (fun e => decide (lat < e.p95TailLatency)) = i at *
  generalize findTokenLimitFromDevmodel devModel readonly lat = v at *
  cases falls with
  | below =>
    rcases Nat.eq_zero_or_pos devModel.length with empty | pos
    · simp [length_eq_zero_iff.1 empty, row, LatTokenratePair.limit]
    · exact h.limit_fits readonly pos
  | between inside x0 x1 =>
    exact (interpolate_le (h.limit_le readonly (Nat.le_succ _) inside) (by omega)).trans (h.limit_fits readonly inside)
  | above last => exact h.limit_fits readonly (by omega)

end MonotoneTable

/-- The device's lookup is over a monotone table, where it uses the table at all. -/
def MonotoneDevice (cfg : Cfg) : Prop := cfg.nvmeDevModel = .flashDevModel → MonotoneTable cfg.devModel

/-- A laxer latency and a purer read workload never lower the rate the device allows. -/
theorem lookupDeviceTokenRate_mono {cfg} (device : MonotoneDevice cfg) (hfg : f = true → g = true)
    {lat'} (le : lat ≤ lat') (hlat' : lat' ≤ uintMax) :
    lookupDeviceTokenRate cfg f lat ≤ lookupDeviceTokenRate cfg g lat' := by
  unfold lookupDeviceTokenRate
  cases model : cfg.nvmeDevModel with
  | defaultFlash => exact Nat.le_refl _
  | fakeFlash => exact Nat.le_refl _
  | flashDevModel =>
    exact ((device model).find_mono_mode hfg (le.trans hlat')).trans ((device model).find_mono_latency g le hlat')

theorem lookupDeviceTokenRate_fits {cfg} (device : MonotoneDevice cfg) (readonly : Bool)
    (hlat : lat ≤ uintMax) : lookupDeviceTokenRate cfg readonly lat ≤ uintMax := by
  unfold lookupDeviceTokenRate
  cases model : cfg.nvmeDevModel with
  | defaultFlash => exact Nat.le_refl _
  | fakeFlash => exact Nat.le_refl _
  | flashDevModel => exact (device model).find_fits readonly hlat

end Reflex.Nvme
