import Reflex.Nvme.Shares

/-!
# Savings and demand

A best-effort queue keeps fewer tokens than the requests in it cost, because its loop stops at a request that
it cannot pay.
-/

namespace Reflex.Nvme
open Lib NvmeState List

/-- The queue has saved less than it needs, or neither has nor needs anything. -/
def NvmeSwQueue.Thrifty (q : NvmeSwQueue) : Prop :=
  q.savedTokens < q.totalTokenDemand ∨ q.savedTokens = 0 ∧ q.totalTokenDemand = 0

/-- What holds of the queues between the calls. -/
structure Saving (s : NvmeState) : Prop where
  tallied : ∀ q, (s.swqs q).Tallied
  priced : ∀ q, (s.swqs q).Priced
  thrifty : ∀ q, s.critical q = false → (s.swqs q).Thrifty

section Round

variable {cfg : Cfg} {cpu timeDelta q n : Nat} {s t : NvmeState}

theorem serveBe_thrifty (saving : Saving s) (effort : s.critical q = false) (member : q ∈ (s.nvmeTenantManager cpu).tenantSwq) :
    ((serveBe cfg cpu timeDelta (s, n) q).1.swqs q).Thrifty := by
  obtain ⟨-, swq, left, -, -, -, -, waiting, funds, empty, -, queue, -⟩ := serveBe_spec cfg cpu timeDelta n (saving.tallied q).wf effort
  have ring := saveTokens_ring swq left
  have tallied : swq.Tallied := (queue ▸ (serveBe_acts n member).tallied saving.tallied q).congr ring.symm (saveTokens_demand swq left).symm
  have prices : swq.Priced := NvmeSwQueue.Holds.congr (queue ▸ (serveBe_acts n member).priced saving.priced q) ring.symm
  have demand := tallied.demand_eq prices
  rw [queue]
  rcases serve_stops NvmeCtx.wordCost affordable (s.swqs q).pending (beFunds cfg s timeDelta q n) with done | ⟨ctx, rest, more, stop⟩
  · rw [waiting.trans done, totalCost_nil] at demand
    have nothing : swq.totalTokenDemand = 0 := by omega
    rw [nvmeSwQueueSaveTokens, if_pos nothing]
    exact Or.inr ⟨rfl, nothing⟩
  · have cost := tallied.cost_le prices (waiting.trans more)
    rw [affordable, ← funds] at stop
    rw [nvmeSwQueueSaveTokens, if_neg (by omega), if_pos (by omega)]
    left
    show wadd 64 swq.savedTokens left < swq.totalTokenDemand
    rw [empty, wadd_of_lt (by omega)]
    omega

theorem Saving.service (saving : Saving s) (service : Service cfg cpu timeDelta s t) : Saving t := by
  have rings := fun k => (saving.tallied k).wf
  cases service with
  | @critical q leftover member kind =>
    have acts : Acts cfg cpu (s, leftover) (serveLc cfg cpu timeDelta q s leftover) := serveLc_acts leftover member
    refine ⟨acts.tallied saving.tallied, acts.priced saving.priced, fun k effort => ?_⟩
    rw [acts.sameTenants.critical] at effort
    have other : k ≠ q := by
      rintro rfl
      rw [effort] at kind
      cases kind
    rw [(serveLc_spares cfg cpu timeDelta leftover rings other).queue]
    exact saving.thrifty k effort
  | effort service =>
    cases service with
    | @effort q cycles n member kind =>
      have acts : Acts cfg cpu (s, n) (serveBe cfg cpu cycles (s, n) q) := serveBe_acts n member
      refine ⟨acts.tallied saving.tallied, acts.priced saving.priced, fun k effort => ?_⟩
      rw [acts.sameTenants.critical] at effort
      rcases eq_or_ne k q with rfl | other
      · exact serveBe_thrifty saving effort member
      · rw [(serveBe_spares rings other n).queue]
        exact saving.thrifty k effort
    | rest idles =>
      refine ⟨idles.queues ▸ saving.tallied, idles.queues ▸ saving.priced, fun k effort => ?_⟩
      rw [idles.tenants.critical] at effort
      exact idles.queues ▸ saving.thrifty k effort

theorem Saving.push {swq ctx} (saving : Saving s) (push : nvmeSwQueuePushBack (s.swqs q) ctx = some swq)
    (priced : swq.Priced) (thrifty : (s.swqs q).Thrifty) : swq.Thrifty := by
  obtain ⟨-, appended, saved, -⟩ := pushBack_spec (saving.tallied q).wf push
  have before := (saving.tallied q).demand_eq (saving.priced q)
  have after := ((saving.tallied q).push push).demand_eq priced
  have price := (priced.2 ctx (by rw [appended]; exact mem_append_right _ (mem_singleton_self ctx))).1
  rw [appended, totalCost_append, totalCost_cons, totalCost_nil] at after
  unfold NvmeSwQueue.Thrifty at thrifty ⊢
  omega

end Round

/-! ## The demand of a thread -/

/-- What the first sub-round adds up for a queue. -/
def NvmeState.lacks (s : NvmeState) (q : Nat) : Nat :=
  if s.critical q then 0 else wsub 64 (s.swqs q).totalTokenDemand (s.swqs q).savedTokens

theorem Saving.lacks_eq {s q} (saving : Saving s) (effort : s.critical q = false) :
    s.lacks q + (s.swqs q).savedTokens = (s.swqs q).totalTokenDemand ∧ s.lacks q ≤ 2048 * 2 ^ 31 := by
  have demand := ((saving.tallied q).demand_eq (saving.priced q)).2
  have less : (s.swqs q).savedTokens ≤ (s.swqs q).totalTokenDemand := by
    rcases saving.thrifty q effort with less | none <;> omega
  rw [lacks, effort, if_neg Bool.false_ne_true, wsub_of_le less (by omega)]
  omega

theorem subround1_demand (cfg : Cfg) (cpu timeDelta : Nat) (l : List Nat) {s : NvmeState} (rings : ∀ k, (s.swqs k).Wf)
    (leftover demand : Nat) (room : demand + (l.map s.lacks).sum < 2 ^ 64) :
    (l.foldl (subround1Queue cfg cpu timeDelta) (s, leftover, demand)).2.2 = demand + (l.map s.lacks).sum := by
  induction l generalizing s leftover demand with
  | nil => rfl
  | cons q l ih =>
    rw [map_cons, sum_cons] at room ⊢
    rw [foldl_cons]
    cases kind : s.critical q with
    | true =>
      have serving := serveLc_serving cfg cpu timeDelta leftover (rings q)
      have same : (serveLc cfg cpu timeDelta q s leftover).1.lacks = s.lacks := by
        funext k
        rw [lacks, lacks, serving.tenants.critical]
        rcases eq_or_ne k q with rfl | other
        · rw [kind, if_pos rfl, if_pos rfl]
        · rw [serving.others k other]
      have none : s.lacks q = 0 := by rw [lacks, kind, if_pos rfl]
      rw [subround1Queue_critical cfg cpu timeDelta kind, ih (serving.rings rings) _ _ (by rw [same]; omega), same, none, Nat.zero_add]
    | false =>
      have lacks : wsub 64 (s.swqs q).totalTokenDemand (s.swqs q).savedTokens = s.lacks q := by
        rw [lacks, kind, if_neg Bool.false_ne_true]
      rw [subround1Queue_effort cfg cpu timeDelta kind, lacks, wadd_of_lt (by omega), ih rings _ _ (by omega)]
      omega

/-! ## Runs -/

/-- The elements of `nvme_swq_datastore`. -/
def swqPoolSize : Nat := 2 * 16384

/-- A registration takes its queue from the pool. -/
def RegOp.Draws : RegOp → Prop
  | .register _ _ _ _ (some q) => q < swqPoolSize
  | _ => True

/-- Tenants that have registered and not been served. -/
structure Enrolled (cfg : Cfg) (s : NvmeState) : Prop where
  accounted : Accounted cfg s
  idle : ∀ q, (s.swqs q).pending = [] ∧ (s.swqs q).savedTokens = 0
  pool : ∀ q, s.swqAllocated q = true → q < swqPoolSize

variable {cfg : Cfg} {s t : NvmeState}

theorem leave_pool {r} {b : Books} {cpu h k} (taken : (b.leave r cpu h).pool k = true) : b.pool k = true := by
  unfold Books.leave at taken
  split at taken
  · split at taken
    · rename_i q _ _
      rcases eq_or_ne k q with rfl | other
      · simp at taken
      · simpa only [Function.update_of_ne other] using taken
    · exact taken
  · exact taken

theorem prepare_pool {r} {b : Books} {cpu k flowGroupId slo}
    (taken : (b.prepare r cpu flowGroupId slo).pool k = true) : b.pool k = true := by
  unfold Books.prepare at taken
  split at taken
  · split at taken
    · exact taken
    · exact leave_pool taken
  · exact taken

theorem Enrolled.step {op} (enrolled : Enrolled cfg s) (step : Guarded (RegStep cfg) (fun _ op => op.Draws) s op t) :
    Enrolled cfg t := by
  have accounted := enrolled.accounted.registered step.1
  obtain ⟨⟨-, rfl⟩, draws⟩ := step
  refine ⟨accounted, fun q => ?_, fun q taken => ?_⟩
  · obtain ⟨-, -, queues⟩ := RegOp.next_queues cfg s op
    rcases queues q with same | ⟨k, h, fresh⟩
    · rw [same]
      exact enrolled.idle q
    · rw [fresh]
      exact ⟨rfl, rfl⟩
  · have books : (op.next cfg s).swqAllocated q = (op.enrol cfg s.toRegistry s.books).pool q :=
      congrFun (congrArg Books.pool (next_books cfg enrolled.accounted.housed op)) q
    rw [books] at taken
    have old : s.books.pool q = true → q < swqPoolSize := enrolled.pool q
    cases op with
    | register cpu flowGroupId cookie slo swq =>
      cases swq with
      | none => exact old (prepare_pool taken)
      | some k =>
        rw [RegOp.enrol] at taken
        split at taken
        · exact old (prepare_pool taken)
        · rcases eq_or_ne q k with rfl | other
          · exact draws
          · simp only [Books.join, Function.update_of_ne other] at taken
            exact old (prepare_pool taken)
    | unregister cpu h => exact old (leave_pool taken)
    | nvmeOpen => exact old taken

/-- A submission or a round; the tenants stay as they are, and the price of a request is that of its pages. -/
def IoOp.Tenured (cfg : Cfg) (s : NvmeState) (op : IoOp) : Prop := op.PriceFits cfg s ∧ ∀ r, op ≠ .reg r

theorem Saving.step {op} (saving : Saving s) (step : Guarded (IoStep cfg) (IoOp.Tenured cfg) s op t) :
    Saving t ∧ SameTenants s t := by
  have priced := IoStep.priced ⟨step.1, step.2.1⟩ saving.priced
  obtain ⟨⟨ret, returns⟩, -, tenured⟩ := step
  rcases returns.inv with ⟨r, rfl, -⟩ | submits | ⟨cpu, now, tsc, rfl, round⟩
  · exact absurd rfl (tenured r)
  · refine ⟨?_, submits.sameTenants⟩
    cases submits with
    | refused => exact saving
    | @queued ctx q swq built queue push =>
      refine ⟨setSwq_all saving.tallied ((saving.tallied q).push push), priced, fun k effort => ?_⟩
      have handle := (pushBack_spec (saving.tallied q).wf push).2.2.2.1
      rw [(SameTenants.setSwq s handle).critical] at effort
      have price := priced k
      rcases eq_or_ne k q with rfl | other
      · simp only [setSwq, Function.update_self] at price ⊢
        exact saving.push push price (saving.thrifty k effort)
      · simp only [setSwq, Function.update_of_ne other]
        exact saving.thrifty k effort
    | direct off => exact ⟨saving.tallied, saving.priced, saving.thrifty⟩
  · have start : Saving (s.atTime cpu now) := ⟨saving.tallied, saving.priced, saving.thrifty⟩
    exact ⟨(nvmeSched_services round).invariant (fun _ _ service before => before.service service) start, nvmeSched_sameTenants round⟩

theorem Enrolled.saving (enrolled : Enrolled cfg s) : Saving s := by
  refine ⟨enrolled.accounted.tallied, fun q => ⟨(enrolled.accounted.tallied q).wf, fun ctx mem => ?_⟩, fun q _ => Or.inr ⟨(enrolled.idle q).2, ?_⟩⟩
  · rw [(enrolled.idle q).1] at mem
    cases mem
  · rw [(enrolled.accounted.tallied q).demand, (enrolled.idle q).1]
    rfl

/-- The pool bounds the list, and with it the sum. -/
theorem Saving.sum_lacks_lt (saving : Saving s) {l : List Nat} (few : l.length ≤ swqPoolSize) : (l.map s.lacks).sum < 2 ^ 64 := by
  have each : ∀ x ∈ l.map s.lacks, x ≤ 2048 * 2 ^ 31 := by
    intro x mem
    obtain ⟨q, -, rfl⟩ := mem_map.1 mem
    cases kind : s.critical q with
    | true => rw [lacks, kind, if_pos rfl]; exact Nat.zero_le _
    | false => exact (saving.lacks_eq kind).2
  have total := sum_le_card_nsmul _ _ each
  rw [length_map, smul_eq_mul] at total
  calc _ ≤ _ := total
    _ ≤ swqPoolSize * (2048 * 2 ^ 31) := Nat.mul_le_mul_right _ few
    _ < 2 ^ 64 := by decide

/-- A queue that lacks nothing has no request that costs anything. -/
theorem Saving.free_of_lacks_zero {q ctx} (saving : Saving s) (effort : s.critical q = false) (none : s.lacks q = 0)
    (waits : ctx ∈ (s.swqs q).pending) : ctx.reqCost = 0 := by
  have lacks := (saving.lacks_eq effort).1
  have needs := ((saving.tallied q).demand_eq (saving.priced q)).1
  obtain ⟨before, after, parts⟩ := append_of_mem waits
  have prices := (saving.priced q).2
  rw [parts] at needs prices
  rw [totalCost_append, totalCost_cons] at needs
  have left := totalCost_nonneg NvmeCtx.reqCost fun x mem => (prices x (mem_append_left _ mem)).1
  have right := totalCost_nonneg NvmeCtx.reqCost fun x mem => (prices x (mem_append_right _ (mem_cons_of_mem ctx mem))).1
  have price := (prices ctx (mem_append_right _ mem_cons_self)).1
  rcases saving.thrifty q effort with less | zero <;> omega

/-- On a fixed set of tenants, between any submissions and rounds: every best-effort queue has saved less than
it needs or neither has nor needs anything, and a second sub-round that gives everything away finds no
best-effort request that costs anything. -/
theorem savings_below_demand {now tsc : Nat → Nat} {regs : List RegOp} {ops : List IoOp} {s₀ : NvmeState}
    (tenants : Run (Guarded (RegStep cfg) fun _ op => op.Draws) (NvmeState.init now tsc) regs s₀)
    (run : Run (Guarded (IoStep cfg) (IoOp.Tenured cfg)) s₀ ops s) :
    (∀ q, s.critical q = false → (s.swqs q).Thrifty ∧
      wsub 64 (s.swqs q).totalTokenDemand (s.swqs q).savedTokens + (s.swqs q).savedTokens = (s.swqs q).totalTokenDemand) ∧
    ∀ cpu now, let u := nvmeSchedSubround1 cfg s cpu now
      u.localExtraDemand cpu = ((s.nvmeTenantManager cpu).tenantSwq.map s.lacks).sum ∧
      (0 < u.localLeftoverTokens cpu ∧ u.localExtraDemand cpu = 0 → ∀ q ∈ (s.nvmeTenantManager cpu).tenantSwq, s.critical q = false →
        ∀ ctx ∈ (u.swqs q).pending, ctx.reqCost = 0) := by
  have enrolled : Enrolled cfg s₀ := tenants.invariant (fun _ _ _ step before => Enrolled.step before step)
    ⟨.init cfg now tsc, fun _ => ⟨rfl, rfl⟩, fun q taken => by cases taken⟩
  obtain ⟨saving, same⟩ : Saving s ∧ SameTenants s₀ s := run.invariant (I := fun u => Saving u ∧ SameTenants s₀ u)
    (fun _ _ _ step before => ⟨(before.1.step step).1, before.2.trans (before.1.step step).2⟩) ⟨enrolled.saving, .refl s₀⟩
  have rings := fun k => (saving.tallied k).wf
  refine ⟨fun q effort => ⟨saving.thrifty q effort, ?_⟩, fun cpu now => ?_⟩
  · have lacks := (saving.lacks_eq effort).1
    rwa [NvmeState.lacks, effort, if_neg Bool.false_ne_true] at lacks
  · intro u
    have few : (s.nvmeTenantManager cpu).tenantSwq.length ≤ swqPoolSize := by
      rw [same.managers, ← List.length_range (n := swqPoolSize)]
      refine (enrolled.accounted.housed.nodup cpu).length_le_of_subset fun q mem => List.mem_range.2 ?_
      exact enrolled.pool q (enrolled.accounted.housed.listed cpu q mem)
    have demand : u.localExtraDemand cpu = ((s.nvmeTenantManager cpu).tenantSwq.map s.lacks).sum := by
      have sum := subround1_demand cfg cpu (wsub 64 now (s.lastSchedTime cpu)) (s.nvmeTenantManager cpu).tenantSwq (s := s.atTime cpu now) rings 0 0
        (by rw [Nat.zero_add]; exact saving.sum_lacks_lt few)
      rw [Nat.zero_add] at sum
      exact (Function.update_self _ _ _).trans sum
    refine ⟨demand, fun gives q mem effort ctx waits => ?_⟩
    have queue : u.swqs q = s.swqs q := (subround1_effort (s := s.atTime cpu now) effort rings _ 0 0).queue
    rw [queue] at waits
    rw [gives.2] at demand
    exact saving.free_of_lacks_zero effort (List.sum_eq_zero_iff.1 demand.symm _ (List.mem_map_of_mem mem)) waits

/-- After its last round the second best-effort flow has saved some of the 1000 tokens that its write needs. -/
theorem trio_saves : ∃ s, Run (Guarded (RegStep modelCfg) fun _ op => op.Draws) coldState trioCalls trioState ∧
    Run (Guarded (IoStep modelCfg) (IoOp.Tenured modelCfg)) trioState trioOps s ∧ 0 < (s.swqs 2).savedTokens ∧
    (s.swqs 2).totalTokenDemand = 1000 ∧ (s.swqs 2).Thrifty ∧
    (nvmeSchedSubround1 modelCfg s 0 60).localExtraDemand 0 = ((s.nvmeTenantManager 0).tenantSwq.map s.lacks).sum := by
  have tenants : Run (Guarded (RegStep modelCfg) fun _ op => op.Draws) coldState trioCalls trioState := by
    refine trio_registered fun _ op mem => ?_
    simp only [trioCalls, mem_cons, not_mem_nil, or_false] at mem
    rcases mem with rfl | rfl | rfl | rfl <;> simp [RegOp.Draws, swqPoolSize]
  obtain ⟨s, done, values⟩ := exec_computes (f := fun s => (s.critical 2, decide (0 < (s.swqs 2).savedTokens), (s.swqs 2).totalTokenDemand))
    (a := (false, true, 1000)) (show (exec modelCfg (fun s op _ => priceFits modelCfg s op) trioState trioOps).map _ = _ by decide +kernel)
  have run : Run (Guarded (IoStep modelCfg) (IoOp.Tenured modelCfg)) trioState trioOps s :=
    run_of_exec done fun u op v pass fixed step => ⟨step, priceFits_sound pass, fixed⟩
  simp only [Prod.mk.injEq] at values
  obtain ⟨effort, saves, demand⟩ := values
  obtain ⟨thrifty, extra⟩ := savings_below_demand tenants run
  exact ⟨s, tenants, run, of_decide_eq_true saves, demand, (thrifty 2 effort).1, (extra 0 60).1⟩

end Reflex.Nvme
