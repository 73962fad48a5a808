import Reflex.Nvme.Housing
import Reflex.Nvme.Reserved

/-!
# The shares of best-effort tenants

The best-effort tenants of a thread spend from one accumulator, which the second sub-round carries from queue
to queue.
-/

namespace Reflex.Nvme
open Lib List NvmeState Function SchedEvent NvmeCtx NvmeSwQueue

variable {cfg : Cfg} {s : NvmeState} {cpu : Nat} {a b : NvmeState × Nat} {l : List Nat} {op : IoOp} {ret : Int}

/-! ## The demand of a queue -/

/-- The demand of a queue is the price of what waits in it, as a word. -/
structure NvmeSwQueue.Tallied (q : NvmeSwQueue) : Prop where
  wf : q.Wf
  demand : q.totalTokenDemand = wofInt 64 (totalCost NvmeCtx.reqCost q.pending)

namespace NvmeSwQueue.Tallied

variable {q q' : NvmeSwQueue} {ctx : NvmeCtx}

theorem congr (tallied : q.Tallied) (ring : q'.toRingBuf = q.toRingBuf) (demand : q'.totalTokenDemand = q.totalTokenDemand) :
    q'.Tallied := by
  constructor
  · rw [NvmeSwQueue.Wf, ring]
    exact tallied.wf
  · rw [demand, tallied.demand, pending, pending, ring]

theorem init (q : NvmeSwQueue) (h : Nat) : (nvmeSwQueueInit q h).Tallied := ⟨nvmeSwQueueInit_wf q h, rfl⟩

theorem pop (tallied : q.Tallied) (pop : nvmeSwQueuePopFront q = some (ctx, q')) : q'.Tallied := by
  obtain ⟨wf, oldest, -⟩ := popFront_spec tallied.wf pop
  refine ⟨wf, ?_⟩
  have demand : q'.totalTokenDemand = wsub 64 q.totalTokenDemand (wofInt 64 ctx.reqCost) := by
    unfold nvmeSwQueuePopFront at pop
    split at pop
    · cases pop
    · cases pop
      rfl
  rw [demand, tallied.demand, oldest, totalCost_cons, wsub_wofInt, add_sub_cancel_left]

theorem push (tallied : q.Tallied) (push : nvmeSwQueuePushBack q ctx = some q') : q'.Tallied := by
  obtain ⟨wf, appended, -⟩ := pushBack_spec tallied.wf push
  refine ⟨wf, ?_⟩
  have demand : q'.totalTokenDemand = wadd 64 q.totalTokenDemand (wofInt 64 ctx.reqCost) := by
    unfold nvmeSwQueuePushBack at push
    split at push
    · cases push
    · cases push
      rfl
  rw [demand, tallied.demand, appended, totalCost_append, totalCost_cons, totalCost_nil, add_zero, wadd_wofInt]

end NvmeSwQueue.Tallied

theorem saveTokens_demand (q : NvmeSwQueue) (tokens : Nat) :
    (nvmeSwQueueSaveTokens q tokens).2.totalTokenDemand = q.totalTokenDemand := by
  unfold nvmeSwQueueSaveTokens
  split
  · rfl
  · split <;> rfl

theorem Act.tallied (act : Act cfg cpu a b) (all : ∀ k, (a.1.swqs k).Tallied) :
    ∀ k, (b.1.swqs k).Tallied := by
  apply act.queues (P := NvmeSwQueue.Tallied) _ _ _ _ all
  · intro q ctx q' tallied pop
    exact tallied.pop pop
  · intro q credit tallied
    exact tallied.congr rfl rfl
  · intro q tallied
    exact tallied.congr rfl rfl
  · intro q n tallied
    exact tallied.congr (saveTokens_ring q n) (saveTokens_demand q n)

theorem Acts.tallied (acts : Acts cfg cpu a b) (all : ∀ k, (a.1.swqs k).Tallied) :
    ∀ k, (b.1.swqs k).Tallied :=
  acts.invariant (I := fun c => ∀ k, (c.1.swqs k).Tallied) (fun _ _ act => act.tallied) all

theorem Acts.priced (acts : Acts cfg cpu a b) (all : ∀ k, (a.1.swqs k).Priced) :
    ∀ k, (b.1.swqs k).Priced :=
  acts.invariant (I := fun c => ∀ k, (c.1.swqs k).Priced) (fun _ _ act => act.priced) all

section Demand

variable {q : NvmeSwQueue} {ctx : NvmeCtx} {rest : List NvmeCtx}

theorem NvmeSwQueue.Tallied.demand_eq (tallied : q.Tallied) (priced : q.Priced) :
    (q.totalTokenDemand : ℤ) = totalCost reqCost q.pending ∧ q.totalTokenDemand ≤ 2048 * 2 ^ 31 := by
  have nonneg : 0 ≤ totalCost reqCost q.pending := totalCost_nonneg _ fun x mem => (priced.2 x mem).1
  have bound := totalCost_le reqCost fun x mem => (priced.2 x mem).2.le
  have room : q.pending.length ≤ 2048 := by
    rw [pending_length]
    exact tallied.wf.bound
  have demand : (q.totalTokenDemand : ℤ) = totalCost reqCost q.pending := by
    rw [tallied.demand, wofInt_of_lt nonneg (by norm_num; omega), Int.toNat_of_nonneg nonneg]
  exact ⟨demand, by omega⟩

theorem NvmeSwQueue.Tallied.cost_le (tallied : q.Tallied) (priced : q.Priced) (waits : q.pending = ctx :: rest) :
    ctx.wordCost ≤ q.totalTokenDemand := by
  have others : 0 ≤ totalCost reqCost rest :=
    totalCost_nonneg _ fun x mem => (priced.2 x (waits ▸ mem_cons_of_mem ctx mem)).1
  rw [wordCost, paid_cost (priced.2 ctx (waits ▸ mem_cons_self)), (tallied.demand_eq priced).1, waits, totalCost_cons]
  omega

end Demand

/-! ## The turn of a queue -/

/-- The share of a best-effort tenant, as an amount. -/
def SchedEvent.beGain : SchedEvent → ℤ
  | .beIncrement _ tokens => tokens
  | _ => 0

theorem beEvents_gain {q m issues} (kinds : ∀ e ∈ issues, ∃ ctx n, e = .beIssue q ctx n) (kept left : Nat) :
    eventSum q beGain (.beIncrement q m :: (issues ++ [.beSave q kept left])) = m := by
  have first : eventSum q beGain [.beIncrement q m] = m := by simp [eventSum, queue, beGain]
  have last : eventSum q beGain [.beSave q kept left] = 0 := by simp [eventSum, queue, beGain]
  have none : eventSum q beGain issues = 0 := by
    apply sum_eq_zero
    intro x mem
    obtain ⟨e, member, rfl⟩ := mem_map.1 mem
    obtain ⟨ctx, n, rfl⟩ := kinds e (mem_of_mem_filter member)
    rfl
  rw [← singleton_append, eventSum_append, eventSum_append, first, none, last]
  omega

section Turn

variable {timeDeltaCycles q n : Nat}

theorem serveBe_left (wf : (s.swqs q).Wf) (effort : s.critical q = false) :
    (serveBe cfg cpu timeDeltaCycles (s, n) q).2 ≤ n + ((s.swqs q).savedTokens + beShare cfg s timeDeltaCycles) := by
  obtain ⟨-, swq, left, -, -, -, -, -, funds, -, -, -, rest⟩ := serveBe_spec cfg cpu timeDeltaCycles n wf effort
  have paid : (left : ℤ) ≤ beFunds cfg s timeDeltaCycles q n := by
    rw [funds, serve_credit]
    have cost : 0 ≤ totalCost wordCost (serve wordCost affordable (s.swqs q).pending
        (beFunds cfg s timeDeltaCycles q n)).1 := totalCost_nonneg _ fun x _ => Int.natCast_nonneg _
    omega
  have first := wadd_le 64 n (s.swqs q).savedTokens
  have second := wadd_le 64 (wadd 64 n (s.swqs q).savedTokens) (beShare cfg s timeDeltaCycles)
  have kept := wsub_le (w := 64) (saveTokens_le swq left).1
  unfold beFunds at paid
  rw [rest]
  omega

/-- The turn of a queue that still waits after it: what it had saved and its share have
become requests and savings. -/
theorem serveBe_keeps (all : ∀ k, (s.swqs k).Tallied) (priced : ∀ k, (s.swqs k).Priced) (effort : s.critical q = false)
    (member : q ∈ (s.nvmeTenantManager cpu).tenantSwq)
    (fits : n + ((s.swqs q).savedTokens + beShare cfg s timeDeltaCycles) < 2 ^ 64)
    (waits : ((serveBe cfg cpu timeDeltaCycles (s, n) q).1.swqs q).pending ≠ []) :
    ∃ events, (serveBe cfg cpu timeDeltaCycles (s, n) q).1.trace = s.trace ++ events ∧
      (s.swqs q).savedTokens + eventSum q SchedEvent.beGain events ≤
        issuedCost q events + ((serveBe cfg cpu timeDeltaCycles (s, n) q).1.swqs q).savedTokens := by
  obtain ⟨issues, swq, left, serves, issued, kinds, -, waiting, funds, empty, -, queue, -⟩ :=
    serveBe_spec cfg cpu timeDeltaCycles n (all q).wf effort
  have ring := saveTokens_ring swq left
  have tallied : swq.Tallied := (queue ▸ (serveBe_acts n member).tallied all q).congr ring.symm (saveTokens_demand swq left).symm
  have prices : swq.Priced := NvmeSwQueue.Holds.congr (queue ▸ (serveBe_acts n member).priced priced q) ring.symm
  have same : (nvmeSwQueueSaveTokens swq left).2.pending = swq.pending := by
    rw [pending, ring, pending]
  rw [queue, same, waiting] at waits
  have account : (serve wordCost affordable (s.swqs q).pending (beFunds cfg s timeDeltaCycles q n)).2.credit = _ :=
    serve_credit _ _
  have price : totalCost wordCost (serve wordCost affordable (s.swqs q).pending
      (beFunds cfg s timeDeltaCycles q n)).1 = totalCost reqCost (issues.filterMap SchedEvent.issued) := by
    rw [issued, totalCost, totalCost]
    apply congrArg sum
    apply map_congr_left
    intro x mem
    have waited : x ∈ (s.swqs q).pending := by
      have whole : (serve wordCost affordable (s.swqs q).pending (beFunds cfg s timeDeltaCycles q n)).1 ++ _ = _ :=
        serve_waiting _ _
      rw [← whole]
      exact mem_append_left _ mem
    exact paid_cost ((priced q).2 x waited)
  have purse : beFunds cfg s timeDeltaCycles q n = n + ((s.swqs q).savedTokens + beShare cfg s timeDeltaCycles) := by
    have inner : wadd 64 n (s.swqs q).savedTokens = n + (s.swqs q).savedTokens := wadd_of_lt (by omega)
    rw [beFunds, inner, wadd_of_lt (by omega), Nat.add_assoc]
  rcases serve_stops wordCost affordable (s.swqs q).pending (beFunds cfg s timeDeltaCycles q n) with
    done | ⟨ctx, rest, more, stop⟩
  · exact absurd done waits
  · -- The oldest request that waits costs more than what is left, and so does all that waits.
    have short : left < swq.totalTokenDemand := by
      have cost := tallied.cost_le prices (waiting.trans more)
      rw [affordable, ← funds] at stop
      omega
    have enough : (left : ℤ) ≤ beFunds cfg s timeDeltaCycles q n := by
      have cost : 0 ≤ totalCost wordCost (serve wordCost affordable (s.swqs q).pending
          (beFunds cfg s timeDeltaCycles q n)).1 := totalCost_nonneg _ fun x _ => Int.natCast_nonneg _
      omega
    have kept : (nvmeSwQueueSaveTokens swq left).2.savedTokens = left := by
      rw [nvmeSwQueueSaveTokens, if_neg (by omega), if_pos short]
      show wadd 64 swq.savedTokens left = left
      rw [empty, wadd_of_lt (by omega), Nat.zero_add]
    refine ⟨_, serves.trace, ?_⟩
    rw [beEvents_gain kinds, queue, kept, issuedCost, issuedBy_self serves.about, filterMap_cons_none rfl, filterMap_append,
      filterMap_cons_none rfl, filterMap_nil, append_nil]
    omega

end Turn

/-! ## The accumulator -/

/-- What a latency-critical queue can give away in a round. -/
def NvmeState.criticalFunds (s : NvmeState) (timeDelta q : Nat) : Nat :=
  if s.critical q then ((s.swqs q).tokenCredit + truncToInt 64 (s.tokenIncrement q timeDelta)).toNat else 0

/-- What a best-effort queue adds to the accumulator. -/
def NvmeState.effortFunds (cfg : Cfg) (s : NvmeState) (timeDeltaCycles q : Nat) : Nat :=
  if s.critical q then 0 else (s.swqs q).savedTokens + beShare cfg s timeDeltaCycles

/-- The tokens that a round of thread `cpu` can have in hand. -/
def NvmeState.purse (cfg : Cfg) (s : NvmeState) (cpu now tsc : Nat) : Nat :=
  s.globalLeftoverTokens + ((s.nvmeTenantManager cpu).tenantSwq.map (s.criticalFunds (wsub 64 now (s.lastSchedTime cpu)))).sum +
    ((s.nvmeTenantManager cpu).tenantSwq.map (s.effortFunds cfg (wsub 64 tsc (s.lastSchedTimeBe cpu)))).sum

section Accumulator

variable {timeDelta timeDeltaCycles q : Nat} {t : NvmeState}

theorem criticalFunds_congr (same : SameTenants s t) (queue : t.swqs q = s.swqs q) :
    t.criticalFunds timeDelta q = s.criticalFunds timeDelta q := by
  rw [criticalFunds, same.critical, queue, tokenIncrement, same.registry, queue, criticalFunds,
    tokenIncrement]

theorem effortFunds_congr (same : SameTenants s t) (queue : t.swqs q = s.swqs q) :
    t.effortFunds cfg timeDeltaCycles q = s.effortFunds cfg timeDeltaCycles q := by
  rw [effortFunds, same.critical, queue, beShare, beTokenIncrement, same.registry, effortFunds, beShare,
    beTokenIncrement]

theorem serveLc_leftover (cfg : Cfg) (cpu timeDelta : Nat) (priced : (s.swqs q).Priced) (kind : s.critical q = true) (leftover : Nat) :
    (serveLc cfg cpu timeDelta q s leftover).2 ≤ leftover + s.criticalFunds timeDelta q := by
  obtain ⟨-, -, -, -, gained⟩ := serveLc_spec cfg cpu timeDelta priced.1 leftover
  refine gained.trans (Nat.add_le_add_left ?_ leftover)
  rw [criticalFunds, if_pos kind]
  have credit : (lcServe cfg (s.tokenIncrement q timeDelta) (s.swqs q).onCredit).2.credit ≤
      (s.swqs q).tokenCredit + truncToInt 64 (s.tokenIncrement q timeDelta) := by
    rw [lcServe_credit]
    have cost : 0 ≤ totalCost reqCost (lcServe cfg (s.tokenIncrement q timeDelta) (s.swqs q).onCredit).1 := by
      apply totalCost_nonneg
      intro x mem
      refine (priced.2 x ?_).1
      have whole : _ = (s.swqs q).pending := lcServe_waiting cfg (s.tokenIncrement q timeDelta) (s.swqs q).onCredit
      rw [← whole]
      exact mem_append_left _ mem
    show (s.swqs q).tokenCredit + _ - _ ≤ _
    omega
  unfold lcDonation
  generalize (lcServe cfg (s.tokenIncrement q timeDelta) (s.swqs q).onCredit).2.credit = c at credit ⊢
  split
  · have given : truncToNat 64 ((c : ℚ) * tokenFracGiveaway) ≤ c.toNat := by
      refine (min_le_left _ _).trans (Nat.floor_le_of_le ?_)
      have most : (c : ℚ) ≤ (c.toNat : ℚ) := by exact_mod_cast Int.self_le_toNat c
      have none : (0 : ℚ) ≤ (c.toNat : ℚ) := Nat.cast_nonneg _
      unfold tokenFracGiveaway
      linarith
    simp only [Option.getD_some]
    omega
  · exact Nat.zero_le _

theorem subround1_leftover (cfg : Cfg) (cpu timeDelta : Nat) (nodup : l.Nodup) (priced : ∀ k ∈ l, s.critical k = true → (s.swqs k).Priced)
    (leftover demand : Nat) :
    let done := l.foldl (subround1Queue cfg cpu timeDelta) (s, leftover, demand)
    done.2.1 ≤ leftover + (l.map (s.criticalFunds timeDelta)).sum ∧ done.1.lastSchedTimeBe = s.lastSchedTimeBe ∧
      done.1.globalLeftoverTokens = s.globalLeftoverTokens := by
  induction l generalizing s leftover demand with
  | nil => exact ⟨le_refl _, rfl, rfl⟩
  | cons k l ih =>
    obtain ⟨absent, nodup⟩ := nodup_cons.1 nodup
    have later := fun j mem => priced j (mem_cons_of_mem k mem)
    rw [foldl_cons, map_cons, sum_cons]
    cases kind : s.critical k with
    | true =>
      obtain ⟨serves, -⟩ := serveLc_spec cfg cpu timeDelta (priced k mem_cons_self kind).1 leftover
      have others : ∀ j ∈ l, (serveLc cfg cpu timeDelta k s leftover).1.swqs j = s.swqs j := by
        intro j mem
        apply serves.others
        rintro rfl
        exact absent mem
      have given := serveLc_leftover cfg cpu timeDelta (priced k mem_cons_self kind) kind leftover
      have step : subround1Queue cfg cpu timeDelta (s, leftover, demand) k =
          ((serveLc cfg cpu timeDelta k s leftover).1, (serveLc cfg cpu timeDelta k s leftover).2, demand) := by
        simp [subround1Queue, kind]
      have prices : ∀ j ∈ l, (serveLc cfg cpu timeDelta k s leftover).1.critical j = true →
          ((serveLc cfg cpu timeDelta k s leftover).1.swqs j).Priced := by
        intro j mem own
        rw [serves.tenants.critical] at own
        rw [others j mem]
        exact later j mem own
      obtain ⟨bound, cycles, bucket⟩ := ih nodup prices (serveLc cfg cpu timeDelta k s leftover).2 demand
      have same : (l.map ((serveLc cfg cpu timeDelta k s leftover).1.criticalFunds timeDelta)).sum =
          (l.map (s.criticalFunds timeDelta)).sum := by
        apply congrArg sum
        apply map_congr_left
        intro j mem
        exact criticalFunds_congr serves.tenants (others j mem)
      rw [step]
      refine ⟨?_, cycles.trans serves.cycles, bucket.trans serves.bucket⟩
      omega
    | false =>
      have step : subround1Queue cfg cpu timeDelta (s, leftover, demand) k =
          (s, leftover, wadd 64 demand (wsub 64 (s.swqs k).totalTokenDemand (s.swqs k).savedTokens)) := by
        simp [subround1Queue, kind]
      obtain ⟨bound, frame⟩ := ih nodup later leftover
        (wadd 64 demand (wsub 64 (s.swqs k).totalTokenDemand (s.swqs k).savedTokens))
      rw [step]
      refine ⟨?_, frame⟩
      omega

theorem subround1_effort (effort : s.critical q = false) (rings : ∀ k, (s.swqs k).Wf) (l : List Nat) (leftover demand : Nat) :
    Spares q s (l.foldl (subround1Queue cfg cpu timeDelta) (s, leftover, demand)).1 := by
  induction l generalizing s leftover demand with
  | nil => exact .refl q rings
  | cons k l ih =>
    rw [foldl_cons]
    unfold subround1Queue
    simp only
    split
    · rename_i kind
      have other : q ≠ k := by
        rintro rfl
        rw [effort] at kind
        cases kind
      have first : Spares q s (serveLc cfg cpu timeDelta k s leftover).1 := serveLc_spares cfg cpu timeDelta leftover rings other
      exact first.trans (ih ((first.tenants.critical q).trans effort) first.rings _ _)
    · exact ih effort rings _ _

theorem serveBe_spares (rings : ∀ k, (s.swqs k).Wf) {k} (other : q ≠ k) (n : Nat) :
    Spares q s (serveBe cfg cpu timeDeltaCycles (s, n) k).1 := by
  cases kind : s.critical k with
  | true =>
    have step : serveBe cfg cpu timeDeltaCycles (s, n) k = (s, n) := by simp [serveBe, kind]
    rw [step]
    exact .refl q rings
  | false =>
    obtain ⟨events, serving⟩ := serveBe_serving cfg cpu timeDeltaCycles n (rings k) kind
    exact .of_serving serving other rings

theorem subround2_absent (absent : q ∉ l) (rings : ∀ k, (s.swqs k).Wf) (n : Nat) :
    Spares q s (l.foldl (serveBe cfg cpu timeDeltaCycles) (s, n)).1 := by
  induction l generalizing s n with
  | nil => exact .refl q rings
  | cons k l ih =>
    rw [mem_cons, not_or] at absent
    have first : Spares q s (serveBe cfg cpu timeDeltaCycles (s, n) k).1 := serveBe_spares rings absent.1 n
    exact first.trans (ih absent.2 first.rings _)

theorem subround2_turn (nodup : l.Nodup) (turn : q ∈ l) (effort : s.critical q = false)
    (rings : ∀ k, (s.swqs k).Wf) (members : ∀ k ∈ l, k ∈ (s.nvmeTenantManager cpu).tenantSwq) (n : Nat) :
    ∃ u m, Acts cfg cpu (s, n) (u, m) ∧ Spares q s u ∧
      m + s.effortFunds cfg timeDeltaCycles q ≤ n + (l.map (s.effortFunds cfg timeDeltaCycles)).sum ∧
      Spares q (serveBe cfg cpu timeDeltaCycles (u, m) q).1 (l.foldl (serveBe cfg cpu timeDeltaCycles) (s, n)).1 := by
  induction l generalizing s n with
  | nil => exact absurd turn not_mem_nil
  | cons k l ih =>
    obtain ⟨absent, nodup⟩ := nodup_cons.1 nodup
    rw [foldl_cons, map_cons, sum_cons]
    rcases eq_or_ne q k with rfl | other
    · obtain ⟨events, serving⟩ := serveBe_serving cfg cpu timeDeltaCycles n (rings q) effort
      exact ⟨s, n, .refl, .refl q rings, by omega, subround2_absent absent (serving.rings rings) _⟩
    · have acts : Acts cfg cpu (s, n) (serveBe cfg cpu timeDeltaCycles (s, n) k) := serveBe_acts n (members k mem_cons_self)
      have first : Spares q s (serveBe cfg cpu timeDeltaCycles (s, n) k).1 := serveBe_spares rings other n
      have same : (l.map ((serveBe cfg cpu timeDeltaCycles (s, n) k).1.effortFunds cfg timeDeltaCycles)).sum =
          (l.map (s.effortFunds cfg timeDeltaCycles)).sum := by
        apply congrArg sum
        apply map_congr_left
        intro j mem
        have apart : j ≠ k := by
          rintro rfl
          exact absent mem
        exact effortFunds_congr first.tenants (serveBe_spares rings apart n).queue
      have gained : (serveBe cfg cpu timeDeltaCycles (s, n) k).2 ≤ n + s.effortFunds cfg timeDeltaCycles k := by
        unfold effortFunds
        split
        · rename_i kind
          simp [serveBe, kind]
        · rename_i kind
          exact serveBe_left (rings k) (Bool.eq_false_iff.2 kind)
      have own : (serveBe cfg cpu timeDeltaCycles (s, n) k).1.effortFunds cfg timeDeltaCycles q =
          s.effortFunds cfg timeDeltaCycles q := effortFunds_congr first.tenants first.queue
      obtain ⟨u, m, before, spares, bound, after⟩ := ih nodup ((mem_cons.1 turn).resolve_left other)
        ((first.tenants.critical q).trans effort) first.rings
        (by rw [first.tenants.managers]; exact fun j mem => members j (mem_cons_of_mem k mem))
        (serveBe cfg cpu timeDeltaCycles (s, n) k).2
      exact ⟨u, m, acts.trans before, first.trans spares, by omega, after⟩

theorem serveAllBe_eq (s : NvmeState) (n : Nat) :
    serveAllBe cfg cpu timeDeltaCycles s n = ((s.nvmeTenantManager cpu).tenantSwq.drop (s.roundrobinStart cpu).toNat ++
      (s.nvmeTenantManager cpu).tenantSwq.take (s.roundrobinStart cpu).toNat).foldl (serveBe cfg cpu timeDeltaCycles) (s, n) := by
  rw [foldl_append]
  rfl

theorem serveAllBe_turn (cfg : Cfg) (cpu timeDeltaCycles : Nat) (nodup : (s.nvmeTenantManager cpu).tenantSwq.Nodup)
    (turn : q ∈ (s.nvmeTenantManager cpu).tenantSwq)
    (effort : s.critical q = false) (rings : ∀ k, (s.swqs k).Wf) (n : Nat) :
    ∃ u m, Acts cfg cpu (s, n) (u, m) ∧ Spares q s u ∧ m + s.effortFunds cfg timeDeltaCycles q ≤
        n + ((s.nvmeTenantManager cpu).tenantSwq.map (s.effortFunds cfg timeDeltaCycles)).sum ∧
      Spares q (serveBe cfg cpu timeDeltaCycles (u, m) q).1 (serveAllBe cfg cpu timeDeltaCycles s n).1 := by
  have order : ((s.nvmeTenantManager cpu).tenantSwq.drop (s.roundrobinStart cpu).toNat ++
      (s.nvmeTenantManager cpu).tenantSwq.take (s.roundrobinStart cpu).toNat).Perm (s.nvmeTenantManager cpu).tenantSwq := by
    refine perm_append_comm.trans ?_
    rw [take_append_drop]
  have total := (order.map (s.effortFunds cfg timeDeltaCycles)).sum_eq
  rw [serveAllBe_eq, ← total]
  exact subround2_turn (order.nodup_iff.2 nodup) (order.mem_iff.2 turn) effort rings (fun k mem => order.mem_iff.1 mem) n

end Accumulator

section Round

variable {now tsc q : Nat} {t : NvmeState}

theorem Spares.around {u v : NvmeState} {turn} (before : Spares q s u) (log : v.trace = u.trace ++ turn)
    (after : Spares q v t) :
    ∃ events, t.trace = s.trace ++ events ∧ (∀ f, eventSum q f events = eventSum q f turn) ∧
      issuedCost q events = issuedCost q turn := by
  obtain ⟨earlier, first, others⟩ := before.trace
  obtain ⟨later, last, others'⟩ := after.trace
  refine ⟨earlier ++ turn ++ later, ?_, fun f => ?_, ?_⟩
  · rw [last, log, first, append_assoc, append_assoc, append_assoc]
  · rw [eventSum_append, eventSum_append, eventSum_other f others, eventSum_other f others', zero_add, add_zero]
  · rw [issuedCost_append, issuedCost_append, issuedCost_other others, issuedCost_other others', zero_add, add_zero]

theorem nvmeSchedSubround1_spares (rings : ∀ k, (s.swqs k).Wf) (effort : s.critical q = false) :
    Spares q (s.atTime cpu now) (nvmeSchedSubround1 cfg s cpu now) := by
  have first : Spares q (s.atTime cpu now) (criticalServed cfg s cpu now) :=
    subround1_effort (s := s.atTime cpu now) effort rings _ 0 0
  have settled : Idles (criticalServed cfg s cpu now) (nvmeSchedSubround1 cfg s cpu now) :=
    ⟨rfl, ⟨rfl, rfl, rfl, fun _ => rfl⟩, rfl, rfl, rfl⟩
  exact first.trans (settled.spares first.rings)

theorem nvmeSchedSubround1_leftover (cfg : Cfg) (now : Nat) (nodup : (s.nvmeTenantManager cpu).tenantSwq.Nodup)
    (priced : ∀ k ∈ (s.nvmeTenantManager cpu).tenantSwq, s.critical k = true → (s.swqs k).Priced) :
    (nvmeSchedSubround1 cfg s cpu now).localLeftoverTokens cpu ≤
        ((s.nvmeTenantManager cpu).tenantSwq.map (s.criticalFunds (wsub 64 now (s.lastSchedTime cpu)))).sum ∧
      (nvmeSchedSubround1 cfg s cpu now).lastSchedTimeBe = s.lastSchedTimeBe ∧
      (nvmeSchedSubround1 cfg s cpu now).globalLeftoverTokens = s.globalLeftoverTokens := by
  obtain ⟨bound, frame⟩ := subround1_leftover cfg cpu (wsub 64 now (s.lastSchedTime cpu)) (s := s.atTime cpu now) nodup priced 0 0
  refine ⟨?_, frame⟩
  rw [Nat.zero_add] at bound
  simp only [nvmeSchedSubround1, update_self]
  exact bound

theorem nvmeSchedSubround1_funds (rings : ∀ k, (s.swqs k).Wf) (timeDeltaCycles : Nat) :
    (nvmeSchedSubround1 cfg s cpu now).effortFunds cfg timeDeltaCycles = s.effortFunds cfg timeDeltaCycles := by
  funext k
  cases kind : s.critical k with
  | true =>
    have same : SameTenants s (nvmeSchedSubround1 cfg s cpu now) := (nvmeSchedSubround1_acts cfg cpu s now).sameTenants
    rw [effortFunds, if_pos ((same.critical k).trans kind), effortFunds, if_pos kind]
  | false =>
    have spares : Spares k (s.atTime cpu now) (nvmeSchedSubround1 cfg s cpu now) := nvmeSchedSubround1_spares rings kind
    exact effortFunds_congr (s := s.atTime cpu now) spares.tenants spares.queue

/-- The second sub-round: a queue of the list has its turn, unless everything is given away. -/
theorem nvmeSchedSubround2_turn (rings : ∀ k, (s.swqs k).Wf) (nodup : (s.nvmeTenantManager cpu).tenantSwq.Nodup)
    (effort : s.critical q = false) (ends : nvmeSchedSubround2 cfg s cpu tsc = some t) :
    (Spares q s t ∧ (q ∈ (s.nvmeTenantManager cpu).tenantSwq → 0 < s.localLeftoverTokens cpu)) ∨
    ∃ u m, q ∈ (u.nvmeTenantManager cpu).tenantSwq ∧ Acts cfg cpu (s, s.localLeftoverTokens cpu) (u, m) ∧ Spares q s u ∧
      m + s.effortFunds cfg (wsub 64 tsc (s.lastSchedTimeBe cpu)) q ≤ s.localLeftoverTokens cpu + s.globalLeftoverTokens +
        ((s.nvmeTenantManager cpu).tenantSwq.map (s.effortFunds cfg (wsub 64 tsc (s.lastSchedTimeBe cpu)))).sum ∧
      Spares q (serveBe cfg cpu (wsub 64 tsc (s.lastSchedTimeBe cpu)) (u, m) q).1 t := by
  unfold nvmeSchedSubround2 at ends
  simp only at ends
  split at ends
  · rename_i gives
    cases ends
    have idles : Idles s (giveGlobalTokens s (s.localLeftoverTokens cpu)) := ⟨rfl, ⟨rfl, rfl, rfl, fun _ => rfl⟩, rfl, rfl, rfl⟩
    exact Or.inl ⟨idles.spares rings, fun _ => gives.1⟩
  · obtain ⟨level, n, hand, most⟩ := beTokensInHand_eq s (s.localLeftoverTokens cpu) (s.localExtraDemand cpu)
    have taken : Acts cfg cpu (s, s.localLeftoverTokens cpu) _ :=
      beTokensInHand_acts s (s.localLeftoverTokens cpu) (s.localExtraDemand cpu)
    rw [hand] at ends taken
    simp only at ends
    have idles : Idles s { s with
        globalLeftoverTokens := level
        lastSchedTimeBe := update s.lastSchedTimeBe cpu tsc } := ⟨rfl, ⟨rfl, rfl, rfl, fun _ => rfl⟩, rfl, rfl, rfl⟩
    have acts : Acts cfg cpu (s, s.localLeftoverTokens cpu) ({ s with
        globalLeftoverTokens := level
        lastSchedTimeBe := update s.lastSchedTimeBe cpu tsc }, n) :=
      taken.tail (.tick _ _ _ _ _ (le_refl _) fun _ inList => inList)
    generalize ({ s with
      globalLeftoverTokens := level
      lastSchedTimeBe := update s.lastSchedTimeBe cpu tsc } : NvmeState) = v at ends idles acts
    generalize wsub 64 tsc (s.lastSchedTimeBe cpu) = d at ends ⊢
    have before : Spares q s v := idles.spares rings
    have last := endSubround2_idles ends
    rcases em (q ∈ (s.nvmeTenantManager cpu).tenantSwq) with member | absent
    · right
      have funds : v.effortFunds cfg d = s.effortFunds cfg d := by
        funext k
        exact effortFunds_congr idles.tenants (by rw [idles.queues])
      have managers := idles.tenants.managers
      obtain ⟨u, m, served, spares, bound, after⟩ := serveAllBe_turn cfg cpu d (s := v) (by rwa [managers]) (by rwa [managers])
        ((before.tenants.critical q).trans effort) before.rings n
      simp only [funds, managers] at bound
      refine ⟨u, m, ?_, acts.trans served, before.trans spares, ?_, after.trans (last.spares after.rings)⟩
      · rw [spares.tenants.managers, managers]
        exact member
      · omega
    · left
      have served : Spares q v (serveAllBe cfg cpu d v n).1 := by
        rw [serveAllBe_eq]
        refine subround2_absent (fun mem => absent ?_) before.rings n
        rw [← idles.tenants.managers]
        rcases mem_append.1 mem with mem | mem
        · exact mem_of_mem_drop mem
        · exact mem_of_mem_take mem
      exact ⟨(before.trans served).trans (last.spares served.rings), fun member => absurd member absent⟩

/-- What a round does for a best-effort queue: it has a turn, with no more in hand than the
purse of the round holds; or nothing happens to it, since it is not in the list, or no tenant is
counted, or all tokens are given away at once. -/
theorem nvmeSched_turn (rings : ∀ k, (s.swqs k).Wf) (nodup : (s.nvmeTenantManager cpu).tenantSwq.Nodup)
    (priced : ∀ k ∈ (s.nvmeTenantManager cpu).tenantSwq, s.critical k = true → (s.swqs k).Priced) (effort : s.critical q = false)
    (round : nvmeSched cfg s cpu now tsc = some t) :
    (Spares q (s.atTime cpu now) t ∧ (q ∈ (s.nvmeTenantManager cpu).tenantSwq → (s.nvmeTenantManager cpu).numTenants ≠ 0 →
      0 < ((s.nvmeTenantManager cpu).tenantSwq.map (s.criticalFunds (wsub 64 now (s.lastSchedTime cpu)))).sum)) ∨
    ∃ u m, q ∈ (u.nvmeTenantManager cpu).tenantSwq ∧ Acts cfg cpu (s, 0) (u, m) ∧ Spares q (s.atTime cpu now) u ∧
      m + s.effortFunds cfg (wsub 64 tsc (s.lastSchedTimeBe cpu)) q ≤ s.purse cfg cpu now tsc ∧
      Spares q (serveBe cfg cpu (wsub 64 tsc (s.lastSchedTimeBe cpu)) (u, m) q).1 t := by
  rcases em ((s.nvmeTenantManager cpu).numTenants = 0) with none | counted
  · exact Or.inl ⟨(nvmeSched_idle none round).spares rings, fun _ counted => absurd none counted⟩
  · rw [nvmeSched, if_neg counted] at round
    obtain ⟨v, ends, rfl⟩ := Option.map_eq_some_iff.1 round
    have clear : Idles v { v with
        localLeftoverTokens := update v.localLeftoverTokens cpu 0
        localExtraDemand := update v.localExtraDemand cpu 0 } := ⟨rfl, ⟨rfl, rfl, rfl, fun _ => rfl⟩, rfl, rfl, rfl⟩
    have last := clear.trans (updateScheduledBitvector_idles cfg _ cpu)
    have first : Spares q (s.atTime cpu now) (nvmeSchedSubround1 cfg s cpu now) := nvmeSchedSubround1_spares rings effort
    have acts := nvmeSchedSubround1_acts cfg cpu s now
    have managers : (nvmeSchedSubround1 cfg s cpu now).nvmeTenantManager = s.nvmeTenantManager := acts.sameTenants.managers
    obtain ⟨given, cycles, bucket⟩ := nvmeSchedSubround1_leftover cfg now nodup priced
    have funds : ∀ d, (nvmeSchedSubround1 cfg s cpu now).effortFunds cfg d = s.effortFunds cfg d := nvmeSchedSubround1_funds rings
    rcases nvmeSchedSubround2_turn first.rings (by rwa [managers]) ((first.tenants.critical q).trans effort) ends with
      ⟨spares, gives⟩ | ⟨u, m, member, served, spares, bound, after⟩
    · refine Or.inl ⟨(first.trans spares).trans (last.spares spares.rings), fun member _ => ?_⟩
      rw [managers] at gives
      exact (gives member).trans_le given
    · refine Or.inr ⟨u, m, member, acts.trans served, first.trans spares, ?_, ?_⟩
      · simp only [funds, managers, cycles, bucket] at bound
        rw [purse]
        omega
      · rw [cycles] at after
        exact after.trans (last.spares after.rings)

end Round

/-! ## Runs -/

/-- The size of a request in units of 4 KB. -/
def reqUnits (reqLen : Nat) : Nat := if 4096 < reqLen then (reqLen + 4095) / 4096 else 1

def Cfg.unitCost (cfg : Cfg) : NvmeCmd → Int
  | .read => cfg.nvmeReadCost
  | .write => cfg.nvmeWriteCost

/-- The price of a request, as an integer, fits an `int`. -/
def PriceFits (cfg : Cfg) (cmd : NvmeCmd) (reqLen : Nat) : Prop :=
  0 ≤ cfg.unitCost cmd * reqUnits reqLen ∧ cfg.unitCost cmd * reqUnits reqLen < 2 ^ 31

theorem bmod_price {cost : Int} {len : Nat} (nonneg : 0 ≤ cost * reqUnits len) (fits : cost * reqUnits len < 2 ^ 31) :
    0 ≤ Int.bmod (cost * if 4096 < len then Int.bmod (((len + 4096 - 1) % 2 ^ 64 / 4096 : Nat) : Int) (2 ^ 32) else 1) (2 ^ 32) := by
  unfold reqUnits at nonneg fits
  split
  · rename_i large
    rw [if_pos large] at nonneg fits
    have units : 1 ≤ (len + 4095) / 4096 := by omega
    rcases eq_or_ne cost 0 with rfl | priced
    · rw [Int.zero_mul, Int.zero_bmod]
    · have positive : 1 ≤ cost := by
        rcases lt_or_gt_of_ne priced with neg | pos
        · have below : cost * ((len + 4095) / 4096 : Nat) < 0 := Int.mul_neg_of_neg_of_pos neg (by omega)
          omega
        · omega
      have few : (((len + 4095) / 4096 : Nat) : Int) < 2 ^ 31 :=
        lt_of_le_of_lt (le_mul_of_one_le_left (Int.natCast_nonneg _) positive) fits
      have word : (len + 4096 - 1) % 2 ^ 64 / 4096 = (len + 4095) / 4096 := by omega
      have factor : Int.bmod (((len + 4095) / 4096 : Nat) : Int) (2 ^ 32) = ((len + 4095) / 4096 : Nat) :=
        Int.bmod_eq_of_le_mul_two (by omega) (by omega)
      rw [word, factor, Int.bmod_eq_of_le_mul_two (by omega) (by omega)]
      exact nonneg
  · rename_i small
    rw [if_neg small] at nonneg fits
    rw [Int.bmod_eq_of_le_mul_two (by omega) (by omega)]
    exact nonneg

theorem PriceFits.nonneg {cmd : NvmeCmd} {reqLen : Nat} (fits : PriceFits cfg cmd reqLen) :
    0 ≤ nvmeComputeReqCost cfg cmd reqLen := by
  unfold nvmeComputeReqCost
  split
  · exact le_refl 0
  · cases cmd with
    | read => exact bmod_price fits.1 fits.2
    | write => exact bmod_price fits.1 fits.2

theorem IoOp.request_price {ctx} (built : op.request cfg s = some ctx) :
    ctx.reqCost = nvmeComputeReqCost cfg ctx.cmd (wofInt 64 (ctx.lbaCount.toNat * s.globalNsSectorSize)) := by
  have price : ∀ {cpu cmd fill h lba lbaCount cookie alloc}, requested cfg s cpu cmd fill h lba lbaCount cookie alloc = some ctx →
      ctx.reqCost = nvmeComputeReqCost cfg ctx.cmd (wofInt 64 (ctx.lbaCount.toNat * s.globalNsSectorSize)) := by
    intro cpu cmd fill h lba lbaCount cookie alloc request
    obtain ⟨_, _, rfl⟩ := Option.map_eq_some_iff.1 request
    rfl
  cases op with
  | reg r => cases built
  | sched cpu now tsc => cases built
  | write => exact price built
  | read => exact price built
  | writev => exact price built
  | readv => exact price built

/-- The prices of submitted requests fit an `int`. -/
def IoOp.PriceFits (cfg : Cfg) (s : NvmeState) (op : IoOp) : Prop :=
  ∀ ctx, op.request cfg s = some ctx → Nvme.PriceFits cfg ctx.cmd (wofInt 64 (ctx.lbaCount.toNat * s.globalNsSectorSize))

/-- What holds of the lists and the queues whatever is submitted. -/
structure Accounted (cfg : Cfg) (s : NvmeState) : Prop where
  wf : s.Wf cfg
  housed : Housed s.toRegistry s.books
  tallied : ∀ q, (s.swqs q).Tallied

namespace Accounted

variable {t : NvmeState}

theorem init (cfg : Cfg) (now tsc : Nat → Nat) : Accounted cfg (init now tsc) :=
  ⟨(Sound.init cfg now tsc).wf, (Sound.init cfg now tsc).housed, fun _ => .init .zero 0⟩

section

variable (accounted : Accounted cfg s)
include accounted

theorem registered {r} (step : RegStep cfg s r t) : Accounted cfg t := by
  have housed := step.housed accounted.wf accounted.housed
  have wf := step.wf accounted.wf
  obtain ⟨-, rfl⟩ := step
  refine ⟨wf, housed, fun q => ?_⟩
  obtain ⟨-, -, queues⟩ := RegOp.next_queues cfg s r
  rcases queues q with same | ⟨k, h, empty⟩
  · rw [same]
    exact accounted.tallied q
  · rw [empty]
    exact .init k h

theorem sameTenants (same : SameTenants s t) (tallied : ∀ q, (t.swqs q).Tallied) : Accounted cfg t :=
  ⟨same.registry ▸ accounted.wf, accounted.housed.sameTenants same, tallied⟩

theorem submitted {request} (submits : Submits cfg s request ret t) :
    Accounted cfg t := by
  refine accounted.sameTenants submits.sameTenants ?_
  cases submits with
  | refused => exact accounted.tallied
  | @queued ctx q swq built queue push => exact setSwq_all accounted.tallied ((accounted.tallied q).push push)
  | direct off => exact accounted.tallied

theorem step (step : IoStep cfg s op t) : Accounted cfg t := by
  obtain ⟨ret, returns⟩ := step
  rcases returns.inv with ⟨r, -, call⟩ | submits | ⟨cpu, now, tsc, -, round⟩
  · exact accounted.registered call
  · exact accounted.submitted submits
  · exact accounted.sameTenants (nvmeSched_sameTenants round) ((nvmeSched_acts round).tallied accounted.tallied)

end

end Accounted

theorem IoStep.priced {t} (step : Guarded (IoStep cfg) (IoOp.PriceFits cfg) s op t)
    (priced : ∀ q, (s.swqs q).Priced) : ∀ q, (t.swqs q).Priced := by
  apply step.1.holds (fun ctx built => ?_) priced
  have cost : 0 ≤ ctx.reqCost := by
    rw [IoOp.request_price built]
    exact (step.2 ctx built).nonneg
  exact ⟨cost, IoOp.request_cost_lt built⟩

instance (cfg : Cfg) (cmd : NvmeCmd) (reqLen : Nat) : Decidable (PriceFits cfg cmd reqLen) := inferInstanceAs (Decidable (_ ∧ _))

/-- The test of `IoOp.PriceFits`. -/
def priceFits (cfg : Cfg) (s : NvmeState) (op : IoOp) : Bool :=
  (op.request cfg s).all fun ctx => decide (PriceFits cfg ctx.cmd (wofInt 64 (ctx.lbaCount.toNat * s.globalNsSectorSize)))

theorem priceFits_sound (pass : priceFits cfg s op = true) : op.PriceFits cfg s := by
  intro ctx built
  rw [priceFits, built] at pass
  exact of_decide_eq_true pass

/-! ## A backlogged tenant -/

/-- Prices fit an `int`, and the tokens that a round can have in hand fit a word. -/
structure IoOp.Fits (cfg : Cfg) (s : NvmeState) (op : IoOp) : Prop where
  price : op.PriceFits cfg s
  purse : ∀ cpu now tsc, op = .sched cpu now tsc → s.purse cfg cpu now tsc < 2 ^ 64

/-- Rounds and submissions; after a round of its thread queue `q` still holds a request of
positive cost. -/
structure BackloggedStep (cfg : Cfg) (q : Nat) (s : NvmeState) (op : IoOp) (t : NvmeState) : Prop where
  step : IoStep cfg s op t
  fixed : ∀ r, op ≠ .reg r
  waits : ∀ cpu now tsc, op = .sched cpu now tsc → q ∈ (s.nvmeTenantManager cpu).tenantSwq → ∃ ctx ∈ (t.swqs q).pending, 0 < ctx.reqCost

/-- What queue `q` had saved and was given since `start` has become requests and savings. -/
structure Shares (cfg : Cfg) (q : Nat) (start : NvmeState) (s : NvmeState) : Prop where
  accounted : Accounted cfg s
  priced : ∀ k, (s.swqs k).Priced
  effort : s.critical q = false
  kept : ∃ events, s.trace = start.trace ++ events ∧
    (start.swqs q).savedTokens + eventSum q SchedEvent.beGain events ≤ issuedCost q events + (s.swqs q).savedTokens

section Backlogged

variable {q now tsc : Nat} {t start : NvmeState}

theorem nvmeSched_share (accounted : Accounted cfg s) (priced : ∀ k, (s.swqs k).Priced) (effort : s.critical q = false)
    (fits : s.purse cfg cpu now tsc < 2 ^ 64) (round : nvmeSched cfg s cpu now tsc = some t)
    (waits : q ∈ (s.nvmeTenantManager cpu).tenantSwq → ∃ ctx ∈ (t.swqs q).pending, 0 < ctx.reqCost) :
    ∃ events, t.trace = s.trace ++ events ∧
      (s.swqs q).savedTokens + eventSum q beGain events ≤ issuedCost q events + (t.swqs q).savedTokens := by
  have rings : ∀ k, (s.swqs k).Wf := fun k => (accounted.tallied k).wf
  rcases nvmeSched_turn rings (accounted.housed.nodup cpu) (fun k _ _ => priced k) effort round with
    ⟨spares, -⟩ | ⟨u, m, member, acts, before, bound, after⟩
  · obtain ⟨events, log, others⟩ := spares.trace
    refine ⟨events, log, ?_⟩
    rw [eventSum_other _ others, issuedCost_other others, spares.queue]
    exact le_of_eq (by rw [add_zero, zero_add]; rfl)
  · have same : SameTenants s u := acts.sameTenants
    have own : u.swqs q = s.swqs q := before.queue
    have funds : u.effortFunds cfg (wsub 64 tsc (s.lastSchedTimeBe cpu)) q =
        s.effortFunds cfg (wsub 64 tsc (s.lastSchedTimeBe cpu)) q := effortFunds_congr same own
    rw [← funds, effortFunds, if_neg (by rw [same.critical, effort]; exact Bool.false_ne_true)] at bound
    have listed : q ∈ (s.nvmeTenantManager cpu).tenantSwq := same.managers ▸ member
    obtain ⟨ctx, mem, -⟩ := waits listed
    have pending : ((serveBe cfg cpu (wsub 64 tsc (s.lastSchedTimeBe cpu)) (u, m) q).1.swqs q).pending ≠ [] := by
      rw [← after.queue]
      exact ne_nil_of_mem mem
    have tallied : ∀ k, (u.swqs k).Tallied := acts.tallied accounted.tallied
    obtain ⟨turn, log, kept⟩ := serveBe_keeps tallied (acts.priced priced) ((same.critical q).trans effort) member
      (bound.trans_lt fits) pending
    obtain ⟨events, grown, gains, issued⟩ := before.around log after
    rw [own] at kept
    refine ⟨events, grown, ?_⟩
    rw [gains, issued, after.queue]
    exact kept

theorem Submits.savings {request} (submits : Submits cfg s request ret t) (rings : ∀ k, (s.swqs k).Wf) :
    (t.swqs q).savedTokens = (s.swqs q).savedTokens ∧ ∃ events, t.trace = s.trace ++ events ∧ ∀ e ∈ events, e.queue ≠ some q := by
  cases submits with
  | refused => exact ⟨rfl, [], (append_nil _).symm, fun e mem => absurd mem not_mem_nil⟩
  | @queued ctx k swq built queue push =>
    refine ⟨?_, [], (append_nil _).symm, fun e mem => absurd mem not_mem_nil⟩
    obtain ⟨-, -, saved, -⟩ := pushBack_spec (rings k) push
    rcases eq_or_ne q k with rfl | other
    · simpa [setSwq] using saved
    · simp [setSwq, other]
  | @direct ctx cmd lba lbaCount payload off =>
    refine ⟨rfl, [.direct ctx cmd lba lbaCount payload], rfl, fun e mem => ?_⟩
    rw [mem_singleton.1 mem]
    exact Option.some_ne_none q ∘ Eq.symm

theorem BackloggedStep.shares (step : Guarded (BackloggedStep cfg q) (IoOp.Fits cfg) s op t) (before : Shares cfg q start s) :
    Shares cfg q start t := by
  obtain ⟨backlogged, fits⟩ := step
  have accounted := before.accounted.step backlogged.step
  have priced := IoStep.priced ⟨backlogged.step, fits.price⟩ before.priced
  obtain ⟨events, log, kept⟩ := before.kept
  obtain ⟨ret, returns⟩ := backlogged.step
  have grow : SameTenants s t → (∃ more, t.trace = s.trace ++ more ∧ (s.swqs q).savedTokens + eventSum q beGain more ≤
      issuedCost q more + (t.swqs q).savedTokens) → Shares cfg q start t := by
    rintro same ⟨more, grown, gain⟩
    refine ⟨accounted, priced, (same.critical q).trans before.effort, events ++ more, ?_, ?_⟩
    · rw [grown, log, append_assoc]
    · rw [eventSum_append, issuedCost_append]
      omega
  rcases returns.inv with ⟨r, call, -⟩ | submits | ⟨cpu, now, tsc, rfl, round⟩
  · exact absurd call (backlogged.fixed r)
  · obtain ⟨saved, more, grown, others⟩ := submits.savings (q := q) fun k => (before.accounted.tallied k).wf
    refine grow submits.sameTenants ⟨more, grown, ?_⟩
    rw [eventSum_other _ others, issuedCost_other others, saved]
    omega
  · exact grow (nvmeSched_sameTenants round) (nvmeSched_share before.accounted before.priced before.effort (fits.purse _ _ _ rfl) round
      (backlogged.waits _ _ _ rfl))

end Backlogged

/-- A best-effort tenant that still waits after every round of its thread loses nothing: what is issued for it
and what it has saved in the end is at least what it had saved and the shares it was given. -/
theorem backlogged_tenant_keeps_share {cfg : Cfg} {now tsc : Nat → Nat} {q : Nat} {history ops : List IoOp} {s₀ s : NvmeState}
    (past : Run (Guarded (IoStep cfg) (IoOp.PriceFits cfg)) (NvmeState.init now tsc) history s₀) (effort : s₀.critical q = false)
    (run : Run (Guarded (BackloggedStep cfg q) (IoOp.Fits cfg)) s₀ ops s) :
    ∃ events, s.trace = s₀.trace ++ events ∧
      (s₀.swqs q).savedTokens + eventSum q SchedEvent.beGain events ≤ issuedCost q events + (s.swqs q).savedTokens := by
  have accounted : Accounted cfg s₀ :=
    past.invariant (I := Accounted cfg) (fun _ _ _ step before => before.step step.1) (.init cfg now tsc)
  have priced : ∀ k, (s₀.swqs k).Priced :=
    past.invariant (I := fun u => ∀ k, (u.swqs k).Priced) (fun _ _ _ step => IoStep.priced step) fun _ => NvmeSwQueue.Holds.init _ .zero 0
  have start : Shares cfg q s₀ s₀ :=
    ⟨accounted, priced, effort, [], (List.append_nil _).symm, by simp [eventSum, issuedCost, issuedBy]⟩
  exact (run.invariant (I := Shares cfg q s₀) (fun _ _ _ step => BackloggedStep.shares step) start).kept

/-- After a round of its thread queue `q` still has a request that costs something. -/
def waitsAfter (q : Nat) (s : NvmeState) (op : IoOp) (t : NvmeState) : Bool :=
  match op with
  | .sched cpu _ _ => !(s.nvmeTenantManager cpu).tenantSwq.contains q || (t.swqs q).pending.any fun ctx => decide (0 < ctx.reqCost)
  | _ => true

theorem waitsAfter_sound {q t} (pass : waitsAfter q s op t = true) (fixed : ∀ r, op ≠ .reg r) (step : IoStep cfg s op t) :
    BackloggedStep cfg q s op t := by
  refine ⟨step, fixed, ?_⟩
  rintro cpu now tsc rfl listed
  simpa [waitsAfter, listed] using pass

/-- The purse of a round fits a word. -/
def purseFits (cfg : Cfg) (s : NvmeState) : IoOp → Bool
  | .sched cpu now tsc => decide (s.purse cfg cpu now tsc < 2 ^ 64)
  | _ => true

/-- A write of the first best-effort flow from a context that the pool has zeroed. -/
def bulkWrite (lbaCount : UInt32) : IoOp := .write 0 2 0 0 lbaCount 7 (some .zero)

/-- A write for 1000 tokens waits through two rounds with shares of 196 tokens. -/
theorem trio_keeps_share :
    ∃ s₀ s events, Run (Guarded (IoStep modelCfg) (IoOp.PriceFits modelCfg)) coldState (trioCalls.map .reg ++ [bulkWrite 1]) s₀ ∧
      Run (Guarded (BackloggedStep modelCfg 1) (IoOp.Fits modelCfg)) s₀ [.sched 0 10 400, .sched 0 20 800] s ∧
      0 < (s.swqs 1).savedTokens ∧ s.trace = s₀.trace ++ events ∧
      (s₀.swqs 1).savedTokens + eventSum 1 SchedEvent.beGain events ≤ issuedCost 1 events + (s.swqs 1).savedTokens := by
  have value : (exec modelCfg (fun s op _ => priceFits modelCfg s op) trioState [bulkWrite 1]).bind (fun s₀ =>
      (exec modelCfg (fun s op t => waitsAfter 1 s op t && priceFits modelCfg s op && purseFits modelCfg s op) s₀
        [.sched 0 10 400, .sched 0 20 800]).map fun s => (s₀.critical 1, decide (0 < (s.swqs 1).savedTokens))) =
      some (false, true) := by decide +kernel
  obtain ⟨s₀, submitted, later⟩ := Option.bind_eq_some_iff.1 value
  obtain ⟨s, rounds, values⟩ := exec_computes later
  simp only [Prod.mk.injEq] at values
  have past : Run (Guarded (IoStep modelCfg) (IoOp.PriceFits modelCfg)) coldState (trioCalls.map .reg ++ [bulkWrite 1]) s₀ :=
    (trio_history fun _ _ _ built => by cases built).append
      (run_of_exec submitted fun u op v pass fixed step => ⟨step, priceFits_sound pass⟩)
  have run : Run (Guarded (BackloggedStep modelCfg 1) (IoOp.Fits modelCfg)) s₀ [.sched 0 10 400, .sched 0 20 800] s := by
    refine run_of_exec rounds fun u op v pass fixed step => ?_
    simp only [Bool.and_eq_true] at pass
    refine ⟨waitsAfter_sound pass.1.1 fixed step, priceFits_sound pass.1.2, ?_⟩
    rintro cpu now tsc rfl
    exact of_decide_eq_true pass.2
  obtain ⟨events, log, kept⟩ := backlogged_tenant_keeps_share past values.1 run
  exact ⟨s₀, s, events, past, run, of_decide_eq_true values.2, log, kept⟩

/-- On a namespace with sectors of 512 bytes two writes of 8 GB and 12 GB get the prices
2000000000 and, in an `int`, -1294967296. The demand of the queue is then 705032704, and the share of two seconds,
which does not pay for the first write, is saved only up to that. -/
theorem negative_price_loses_share :
    ∃ s₀ s events, Run (IoStep modelCfg) coldState (trioCalls.map .reg ++ [bulkWrite 16000000, bulkWrite 24000000]) s₀ ∧ s₀.critical 1 = false ∧
      Run (BackloggedStep modelCfg 1) s₀ [.sched 0 2000000 2000000000] s ∧ s.trace = s₀.trace ++ events ∧
      issuedCost 1 events + (s.swqs 1).savedTokens < (s₀.swqs 1).savedTokens + eventSum 1 SchedEvent.beGain events := by
  have value : (exec modelCfg (fun _ _ _ => true) trioState [bulkWrite 16000000, bulkWrite 24000000]).bind (fun s₀ =>
      (exec modelCfg (waitsAfter 1) s₀ [.sched 0 2000000 2000000000]).map fun s => (s₀.critical 1, s₀.trace.length,
        decide (issuedCost 1 s.trace + (s.swqs 1).savedTokens < (s₀.swqs 1).savedTokens + eventSum 1 SchedEvent.beGain s.trace))) =
      some (false, 0, true) := by decide +kernel
  obtain ⟨s₀, submitted, later⟩ := Option.bind_eq_some_iff.1 value
  obtain ⟨s, round, values⟩ := exec_computes later
  simp only [Prod.mk.injEq, List.length_eq_zero_iff] at values
  have registered : Run (IoStep modelCfg) coldState (trioCalls.map .reg) trioState :=
    (trio_history (P := fun _ _ => True) fun _ _ => trivial).unguarded
  refine ⟨s₀, s, s.trace, registered.append (run_of_exec submitted fun _ _ _ _ _ step => step), values.1,
    run_of_exec round fun u op v => waitsAfter_sound, ?_, of_decide_eq_true values.2.2⟩
  rw [values.2.1, List.nil_append]

end Reflex.Nvme
