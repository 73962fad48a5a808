import Mathlib.Algebra.Order.Archimedean.Basic
import Reflex.Nvme.Reserved

/-!
# Accrual of credit

Every round rounds `token_increment` to a whole number of tokens and carries nothing over.
-/

namespace Reflex.Nvme
open Lib List SchedEvent

/-- Queue `q` has one turn in every round of thread `cpu`, and none in rounds of others. -/
structure ServedOnce (s : NvmeState) (cpu q : Nat) : Prop where
  counted : (s.nvmeTenantManager cpu).numTenants ≠ 0
  once : (s.nvmeTenantManager cpu).tenantSwq.count q = 1
  elsewhere : ∀ i, i ≠ cpu → q ∉ (s.nvmeTenantManager i).tenantSwq

theorem ServedOnce.sameTenants {s t cpu q} (once : ServedOnce s cpu q) (same : SameTenants s t) :
    ServedOnce t cpu q := by
  constructor
  · rw [same.managers]
    exact once.counted
  · rw [same.managers]
    exact once.once
  · rw [same.managers]
    exact once.elsewhere

/-- What a round credits a tenant of rate `r` with when `d` microseconds have passed. -/
def credited (r : ℚ) (d : Nat) : ℤ := truncToInt 64 (r * d + 1 / 2)

/-- The rate of the tenant that queue `q` serves. -/
def NvmeState.rateOf (s : NvmeState) (q : Nat) : ℚ := (s.nvmeFgs (s.swqs q).fgHandle).scaledIOPuSLimit

theorem rateOf_sameTenants {s t} (same : SameTenants s t) (q : Nat) : t.rateOf q = s.rateOf q := by
  rw [NvmeState.rateOf, NvmeState.rateOf, same.registry, same.handles]

section Round

variable {cfg : Cfg} {s t : NvmeState} {cpu q now tsc : Nat}

theorem nvmeSched_credits (reserves : Reserves s q) (once : ServedOnce s cpu q) (round : nvmeSched cfg s cpu now tsc = some t) :
    Reserves t q ∧ t.lastSchedTime = Function.update s.lastSchedTime cpu now ∧ ∃ events, t.trace = s.trace ++ events ∧
      eventSum q lcGain events = credited (s.rateOf q) (wsub 64 now (s.lastSchedTime cpu)) := by
  have rest := nvmeSched_effort once.counted round
  obtain ⟨u, n, before, after⟩ := subround1_once cfg cpu (wsub 64 now (s.lastSchedTime cpu)) (s := s.atTime cpu now)
    once.once reserves.critical reserves.rings 0 0
  obtain ⟨serves, -⟩ := serveLc_spec cfg cpu (wsub 64 now (s.lastSchedTime cpu)) (before.rings q) n
  have after : Spares q _ (criticalServed cfg s cpu now) := after
  have last : Spares q (serveLc cfg cpu (wsub 64 now (s.lastSchedTime cpu)) q u n).1 t := by
    refine after.trans (rest.spares after.rings ?_)
    rw [after.tenants.critical, serves.tenants.critical, before.tenants.critical]
    exact reserves.critical
  obtain ⟨earlier, log, others⟩ := before.trace
  obtain ⟨later, log', others'⟩ := last.trace
  rw [serves.trace, log, append_assoc, append_assoc] at log'
  refine ⟨reserves.sameTenants (nvmeSched_sameTenants round) last.rings, last.clock.trans (serves.clock.trans before.clock), _, log', ?_⟩
  have increment : u.tokenIncrement q (wsub 64 now (s.lastSchedTime cpu)) = s.rateOf q * wsub 64 now (s.lastSchedTime cpu) + 1 / 2 :=
    tokenIncrement_sameTenants before.tenants _
  rw [eventSum_append, eventSum_append, eventSum_other _ others, eventSum_other _ others', lcEvents_gain, increment, zero_add, add_zero]
  rfl

theorem nvmeSched_elsewhere (reserves : Reserves s q) (absent : q ∉ (s.nvmeTenantManager cpu).tenantSwq)
    (round : nvmeSched cfg s cpu now tsc = some t) :
    Reserves t q ∧ ∃ events, t.trace = s.trace ++ events ∧ eventSum q lcGain events = 0 :=
  nvmeSched_critical_queue round reserves (P := fun events _ => eventSum q lcGain events = 0)
    (fun events b more holds others => by rw [eventSum_append, holds, eventSum_other _ others]; rfl)
    (fun turn => absurd turn.2 absent) (append_nil _).symm rfl

end Round

/-- The clock advance that a call sees as a round of thread `cpu`. -/
def IoOp.advance (cpu : Nat) (s : NvmeState) : IoOp → List Nat
  | .sched i now _ => if i = cpu then [wsub 64 now (s.lastSchedTime cpu)] else []
  | _ => []

/-- Rounds and submissions, with the clock advances of the rounds of thread `cpu` so far. -/
def AccrualStep (cfg : Cfg) (cpu : Nat) (a : NvmeState × List Nat) (op : IoOp) (b : NvmeState × List Nat) : Prop :=
  (IoStep cfg a.1 op b.1 ∧ ∀ r, op ≠ .reg r) ∧ b.2 = a.2 ++ op.advance cpu a.1

/-- The tenant has been credited with its increment in each round. -/
structure Accrues (cfg : Cfg) (cpu q : Nat) (r : ℚ) (old : List SchedEvent) (a : NvmeState × List Nat) : Prop where
  reserves : Reserves a.1 q
  once : ServedOnce a.1 cpu q
  rate : a.1.rateOf q = r
  total : ∃ events, a.1.trace = old ++ events ∧ eventSum q SchedEvent.lcGain events = (a.2.map (credited r)).sum

theorem AccrualStep.accrues {cfg cpu q r old a b op}
    (step : AccrualStep cfg cpu a op b) (before : Accrues cfg cpu q r old a) : Accrues cfg cpu q r old b := by
  obtain ⟨s, ds⟩ := a
  obtain ⟨t, es⟩ := b
  obtain ⟨⟨⟨ret, returns⟩, fixed⟩, rfl : es = ds ++ op.advance cpu s⟩ := step
  obtain ⟨reserves, once, rate, events, log, total⟩ := before
  simp only at reserves once rate log total
  have grow : ∀ {more : List SchedEvent}, SameTenants s t → Reserves t q → t.trace = s.trace ++ more →
      eventSum q lcGain more = ((op.advance cpu s).map (credited r)).sum → Accrues cfg cpu q r old (t, ds ++ op.advance cpu s) := by
    intro more same after grown gain
    refine ⟨after, once.sameTenants same, (rateOf_sameTenants same q).trans rate, events ++ more, ?_, ?_⟩
    · rw [grown, log, append_assoc]
    · rw [eventSum_append, total, gain, map_append, sum_append]
  cases op with
  | sched i now tsc =>
    obtain ⟨u, round, same⟩ := Option.map_eq_some_iff.1 returns.2
    cases same
    rcases eq_or_ne i cpu with rfl | other
    · obtain ⟨after, -, more, grown, gain⟩ := nvmeSched_credits reserves once round
      refine grow (nvmeSched_sameTenants round) after grown ?_
      rw [gain, rate]
      simp [IoOp.advance]
    · obtain ⟨after, more, grown, gain⟩ := nvmeSched_elsewhere reserves (once.elsewhere i other) round
      refine grow (nvmeSched_sameTenants round) after grown ?_
      rw [gain]
      simp [IoOp.advance, other]
  | _ =>
    rcases returns.inv with ⟨r, reg, -⟩ | submits | ⟨_, _, _, round, -⟩
    · exact absurd reg (fixed r)
    · obtain ⟨after, more, grown, others, -⟩ := submits.critical_queue reserves
      exact grow submits.sameTenants after grown (eventSum_other _ others)
    · cases round

theorem credited_error {r : ℚ} (nonneg : 0 ≤ r) {d : Nat} (fits : r * d + 1 / 2 < 2 ^ 63) : |(credited r d : ℚ) - r * d| ≤ 1 / 2 := by
  have positive : 0 ≤ r * d + 1 / 2 := by
    have := mul_nonneg nonneg (Nat.cast_nonneg (α := ℚ) d)
    linarith
  have floor : credited r d = ⌊r * d + 1 / 2⌋ := truncToInt_of_lt positive (by exact_mod_cast fits)
  have lower := Int.floor_le (r * d + 1 / 2)
  have upper := Int.lt_floor_add_one (r * d + 1 / 2)
  rw [floor, abs_le]
  constructor <;> linarith

theorem credited_sum_error {r : ℚ} (nonneg : 0 ≤ r) {ds : List Nat} (fits : ∀ d ∈ ds, r * d + 1 / 2 < 2 ^ 63) :
    |((ds.map (credited r)).sum : ℚ) - r * (ds.sum : ℕ)| ≤ ds.length / 2 := by
  induction ds with
  | nil => simp
  | cons d ds ih =>
    have here := credited_error nonneg (fits d mem_cons_self)
    have rest := ih fun e mem => fits e (mem_cons_of_mem d mem)
    have split : (((d :: ds).map (credited r)).sum : ℚ) - r * ((d :: ds).sum : ℕ) =
        ((credited r d : ℚ) - r * d) + (((ds.map (credited r)).sum : ℚ) - r * (ds.sum : ℕ)) := by
      rw [map_cons, sum_cons, sum_cons, Int.cast_add, Nat.cast_add]
      ring
    rw [split]
    refine (abs_add_le _ _).trans ?_
    rw [length_cons, Nat.cast_succ]
    linarith

/-- Over any rounds and submissions, the credit added to a latency-critical tenant and its
rate times the time that has passed differ by at most half a token for each round of its
thread, as long as each increment fits a `long`. -/
theorem accrual_within_half_per_round {cfg : Cfg} {cpu q : Nat} {s₀ s : NvmeState} {ops : List IoOp} {ds : List Nat}
    (reserves : Reserves s₀ q) (once : ServedOnce s₀ cpu q) (run : Run (AccrualStep cfg cpu) (s₀, []) ops (s, ds))
    (fits : ∀ d ∈ ds, s₀.rateOf q * d + 1 / 2 < 2 ^ 63) :
    ∃ events, s.trace = s₀.trace ++ events ∧
      |(eventSum q SchedEvent.lcGain events : ℚ) - s₀.rateOf q * (ds.sum : ℕ)| ≤ ds.length / 2 := by
  have start : Accrues cfg cpu q (s₀.rateOf q) s₀.trace (s₀, []) := ⟨reserves, once, rfl, [], (List.append_nil _).symm, rfl⟩
  obtain ⟨-, -, -, events, log, total⟩ := run.invariant (I := Accrues cfg cpu q (s₀.rateOf q) s₀.trace)
    (fun _ _ _ step => step.accrues) start
  refine ⟨events, log, ?_⟩
  rw [total]
  exact credited_sum_error reserves.rate fits

/-! ## A flow that is polled every microsecond -/

/-- The flow of `loneFlow` when the clock has advanced `k` microseconds. -/
structure Polled (k : Nat) (s : NvmeState) : Prop where
  reserves : Reserves s 0
  once : ServedOnce s 0 0
  rate : s.rateOf 0 = 4294967295 / 10 ^ 6
  effort : (s.nvmeTenantManager 0).numBestEffortTenants ≤ 0
  clock : s.lastSchedTime 0 = k % 2 ^ 64

theorem LoneFlow.polled {s} (lone : LoneFlow s) (rings : ∀ k, (s.swqs k).Wf) : Polled 0 s := by
  refine ⟨lone.reserves rings, ⟨?_, ?_, fun i other => ?_⟩, ?_, ?_, lone.clock⟩
  · simp [lone.managers]
  · simp [lone.managers]
  · simp [lone.managers, other, TenantMgmt.empty]
  · rw [NvmeState.rateOf, lone.queue]
    exact lone.rate
  · simp [lone.managers]

theorem Polled.next {k s} (polled : Polled k s) (ds : List Nat) :
    ∃ op t, AccrualStep flatCfg 0 (s, ds) op (t, ds ++ [1]) ∧ Polled (k + 1) t := by
  obtain ⟨t, round⟩ := sched_returns_without_effort flatCfg polled.effort ((k + 1) % 2 ^ 64) 0
  have same := nvmeSched_sameTenants round
  obtain ⟨reserves, clock, -⟩ := nvmeSched_credits polled.reserves polled.once round
  have tick : wsub 64 ((k + 1) % 2 ^ 64) (k % 2 ^ 64) = 1 := by
    unfold wsub
    omega
  refine ⟨.sched 0 ((k + 1) % 2 ^ 64) 0, t, ⟨⟨sched_step round, fun r same => ?_⟩, ?_⟩, reserves, polled.once.sameTenants same, ?_, ?_, ?_⟩
  · cases same
  · rw [IoOp.advance, if_pos rfl, polled.clock, tick]
  · rw [rateOf_sameTenants same]
    exact polled.rate
  · rw [same.managers]
    exact polled.effort
  · rw [clock, Function.update_self]

theorem Polled.rounds {s₀} (start : Polled 0 s₀) (n : Nat) :
    ∃ ops s, Run (AccrualStep flatCfg 0) (s₀, []) ops (s, replicate n 1) ∧ Polled n s := by
  induction n with
  | zero => exact ⟨[], s₀, .nil _, start⟩
  | succ n ih =>
    obtain ⟨ops, s, run, polled⟩ := ih
    obtain ⟨op, t, step, next⟩ := polled.next (replicate n 1)
    rw [← replicate_succ'] at step
    exact ⟨ops ++ [op], t, run.append (.single step), next⟩

theorem exists_polled : ∃ s₀, Run (RegStep flatCfg) coldState [loneFlow] s₀ ∧ Polled 0 s₀ := by
  obtain ⟨step, lone⟩ := loneFlow_of_cold (s := coldState) rfl rfl rfl rfl rfl
  have unspent := registrations_unspent (.single step)
  exact ⟨_, .single step, lone.polled fun k => (unspent.priced k).1⟩

/-- One round after a microsecond. -/
theorem lone_flow_accrual :
    ∃ s₀ s ops, Run (RegStep flatCfg) coldState [loneFlow] s₀ ∧ Run (AccrualStep flatCfg 0) (s₀, []) ops (s, [1]) ∧
      ∃ events, s.trace = s₀.trace ++ events ∧ |(eventSum 0 SchedEvent.lcGain events : ℚ) - s₀.rateOf 0 * (1 : ℕ)| ≤ 1 / 2 := by
  obtain ⟨s₀, registered, start⟩ := exists_polled
  obtain ⟨ops, s, run, -⟩ := start.rounds 1
  obtain ⟨events, log, bound⟩ := accrual_within_half_per_round start.reserves start.once run fun d mem => by
    rw [List.mem_singleton.1 mem, start.rate]
    norm_num
  exact ⟨s₀, s, ops, registered, run, events, log, by simpa using bound⟩

/-- The flow is alone on the device and polled every microsecond: every round credits it
with 4295 tokens instead of 4294.967295, so the error outgrows every bound. -/
theorem accrual_drifts :
    ¬ ∃ bound : ℚ, ∀ s₀ s ops ds events, Run (RegStep flatCfg) coldState [loneFlow] s₀ →
      Run (AccrualStep flatCfg 0) (s₀, []) ops (s, ds) → s.trace = s₀.trace ++ events →
      |(eventSum 0 SchedEvent.lcGain events : ℚ) - s₀.rateOf 0 * (ds.sum : ℕ)| ≤ bound := by
  rintro ⟨bound, limit⟩
  obtain ⟨n, many⟩ := exists_nat_gt (bound / (32705 / 10 ^ 6))
  obtain ⟨s₀, registered, start⟩ := exists_polled
  obtain ⟨ops, s, run, -⟩ := start.rounds n
  obtain ⟨-, -, -, events, log, total⟩ := run.invariant (I := Accrues flatCfg 0 0 (s₀.rateOf 0) s₀.trace)
    (fun _ _ _ step => step.accrues) ⟨start.reserves, start.once, rfl, [], (List.append_nil _).symm, rfl⟩
  have each : credited (4294967295 / 10 ^ 6) 1 = 4295 := by decide +kernel
  have drift := limit s₀ s ops (List.replicate n 1) events registered run log
  rw [total, start.rate, List.map_replicate, each, List.sum_replicate, List.sum_replicate] at drift
  rw [div_lt_iff₀ (by norm_num)] at many
  have error : ((n • (4295 : ℤ) : ℤ) : ℚ) - 4294967295 / 10 ^ 6 * ((n • 1 : ℕ) : ℚ) = n * (32705 / 10 ^ 6) := by
    simp only [nsmul_eq_mul, smul_eq_mul]
    push_cast
    ring
  rw [error] at drift
  exact absurd (many.trans_le (le_abs_self _)) (not_lt.2 drift)

end Reflex.Nvme
