import Reflex.Nvme.Roster

/-!
# The search for the next best-effort tenant

`nvme_sched_subround2` ends with an unbounded loop that steps `roundrobin_start` around the thread's list
until it finds a best-effort queue, if the thread's counter says that there is one.
-/

namespace Reflex.Nvme
open Lib NvmeState RegOp Function

variable {s t : NvmeState} {cpu : Nat} {cfg : Cfg} {n rr : Int}

/-- The positions visited: `rr + 1, rr + 2, ..` modulo the number of tenants. -/
theorem roundrobinNext_iterate (pos : 0 < n) (nonneg : 0 ≤ rr) (k : Nat) :
    (roundrobinNext n)^[k + 1] rr = (rr + (k + 1)) % n := by
  induction k with
  | zero =>
    rw [iterate_one, roundrobinNext, Int.tmod_eq_emod_of_nonneg (by omega)]
    simp
  | succ k ih =>
    have inside := Int.emod_nonneg (rr + (k + 1)) (ne_of_gt pos)
    rw [iterate_succ_apply', ih, roundrobinNext, Int.tmod_eq_emod_of_nonneg (by omega), Int.emod_add_emod]
    congr 1
    push_cast
    ring

theorem roundrobinNext_reaches (pos : 0 < n) (nonneg : 0 ≤ rr) {i : Nat} (bound : (i : Int) < n) :
    ∃ k < n.natAbs, (roundrobinNext n)^[k + 1] rr = i := by
  have lower := Int.emod_nonneg ((i : Int) - rr - 1) (ne_of_gt pos)
  have upper := Int.emod_lt_of_pos ((i : Int) - rr - 1) pos
  refine ⟨(((i : Int) - rr - 1) % n).toNat, by omega, ?_⟩
  rw [roundrobinNext_iterate pos nonneg, Int.toNat_of_nonneg lower]
  calc (rr + (((i : Int) - rr - 1) % n + 1)) % n
      = (((i : Int) - rr - 1) % n + (rr + 1)) % n := by ring_nf
    _ = ((i : Int) - rr - 1 + (rr + 1)) % n := Int.emod_add_emod _ _ _
    _ = i % n := by ring_nf
    _ = i := Int.emod_eq_of_lt (by omega) bound

theorem roundrobinNext_period (pos : 0 < n) (nonneg : 0 ≤ rr) :
    (roundrobinNext n)^[n.natAbs] (roundrobinNext n rr) = roundrobinNext n rr := by
  have once := roundrobinNext_iterate pos nonneg 0
  have turn := roundrobinNext_iterate pos nonneg n.natAbs
  rw [iterate_one] at once
  rw [← iterate_succ_apply, turn, once, Int.natAbs_of_nonneg (le_of_lt pos),
    show rr + (n + 1) = rr + ((0 : Nat) + 1) + n by push_cast; ring, Int.add_emod_right]

theorem bestEffortAt_iff {i : Nat} :
    s.bestEffortAt cpu i = true ↔ ∃ q, (s.nvmeTenantManager cpu).tenantSwq[i]? = some q ∧ s.critical q = false := by
  unfold bestEffortAt
  rw [Int.toNat_natCast]
  cases (s.nvmeTenantManager cpu).tenantSwq[i]? with
  | none => simp
  | some q => simp

theorem nextRoundrobinStart_of_member {q}
    (count : (s.nvmeTenantManager cpu).numTenants = (s.nvmeTenantManager cpu).tenantSwq.length)
    (nonneg : 0 ≤ s.roundrobinStart cpu) (member : q ∈ (s.nvmeTenantManager cpu).tenantSwq) (effort : s.critical q = false) :
    ∃ rr, nextRoundrobinStart s cpu = some rr := by
  obtain ⟨i, bound, here⟩ := List.mem_iff_getElem.1 member
  have pos : 0 < (s.nvmeTenantManager cpu).numTenants := by omega
  obtain ⟨k, turn, reached⟩ := roundrobinNext_reaches pos nonneg (i := i) (by omega)
  rw [← Option.isSome_iff_exists, Option.isSome_iff_ne_none]
  intro missed
  have empty := orbitFind_eq_none_iff.1 missed k turn
  rw [reached] at empty
  have found : s.bestEffortAt cpu i = true :=
    bestEffortAt_iff.2 ⟨q, by rw [List.getElem?_eq_getElem bound, here], effort⟩
  rw [found] at empty
  cases empty

/-- One turn decides the unbounded loop: a position missed then is never found. -/
theorem nextRoundrobinStart_none (pos : 0 < (s.nvmeTenantManager cpu).numTenants)
    (nonneg : 0 ≤ s.roundrobinStart cpu) (missed : nextRoundrobinStart s cpu = none) (fuel : Nat) :
    orbitFind (roundrobinNext (s.nvmeTenantManager cpu).numTenants) (s.bestEffortAt cpu) fuel (s.roundrobinStart cpu) = none :=
  orbitFind_of_period (Int.natAbs_pos.2 (ne_of_gt pos)) (roundrobinNext_period pos nonneg) missed fuel

theorem Acts.starts {a b} (acts : Acts cfg cpu a b) {t}
    (nonneg : 0 ≤ a.1.roundrobinStart t) : 0 ≤ b.1.roundrobinStart t := by
  refine acts.invariant (I := fun c => 0 ≤ c.1.roundrobinStart t) (fun c d act before => ?_) nonneg
  cases act with
  | tick now tsc demand leftover scheduled less inList => exact inList t before
  | @lcIssue s n q ctx swq member pop =>
    obtain ⟨usys, same⟩ := issueNvmeReq_usys cfg (s.setSwq q { swq with tokenCredit := swq.tokenCredit - ctx.reqCost }) cpu ctx
    rw [same]
    exact before
  | @beIssue s n q ctx swq member pop paid =>
    obtain ⟨usys, same⟩ := issueNvmeReq_usys cfg (s.setSwq q swq) cpu ctx
    rw [same]
    exact before
  | lcCredit q tokens => exact before
  | lcDonate q credit gain fits => exact before
  | acquire available => exact before
  | beTake member effort => exact before
  | beIncrement q tokens => exact before
  | beSave member effort => exact before
  | give => exact before

/-- The counters of the thread are those of its list. -/
structure Counted (cpu : Nat) (s : NvmeState) : Prop where
  tenants : (s.nvmeTenantManager cpu).numTenants = (s.nvmeTenantManager cpu).tenantSwq.length
  efforts : (s.nvmeTenantManager cpu).numBestEffortTenants = (s.nvmeTenantManager cpu).tenantSwq.countP fun q => !s.critical q
  start : 0 ≤ s.roundrobinStart cpu

theorem Counted.exists_start (counted : Counted cpu s) (claimed : 0 < (s.nvmeTenantManager cpu).numBestEffortTenants) :
    ∃ rr, nextRoundrobinStart s cpu = some rr := by
  rw [counted.efforts] at claimed
  have held : 0 < (s.nvmeTenantManager cpu).tenantSwq.countP fun q => !s.critical q := by omega
  obtain ⟨q, member, effort⟩ := List.countP_pos_iff.1 held
  exact nextRoundrobinStart_of_member counted.tenants counted.start member (by simpa using effort)

theorem Linked.counted (linked : Linked s) (nonneg : 0 ≤ s.roundrobinStart cpu) : Counted cpu s :=
  ⟨linked.numTenants cpu, linked.numBestEffort cpu, nonneg⟩

theorem endSubround2_returns
    (start : 0 < (s.nvmeTenantManager cpu).numBestEffortTenants → ∃ rr, nextRoundrobinStart s cpu = some rr) (n : Nat) :
    ∃ t, endSubround2 s cpu n = some t := by
  unfold endSubround2
  by_cases claimed : 0 < (s.nvmeTenantManager cpu).numBestEffortTenants
  · obtain ⟨rr, found⟩ := start claimed
    rw [if_pos claimed, found]
    exact ⟨_, rfl⟩
  · rw [if_neg claimed]
    exact ⟨_, rfl⟩

theorem subround2_returns
    (start : ∀ u n, Acts cfg cpu (s, s.localLeftoverTokens cpu) (u, n) → 0 < (u.nvmeTenantManager cpu).numBestEffortTenants →
      ∃ rr, nextRoundrobinStart u cpu = some rr) (tsc : Nat) : ∃ t, nvmeSchedSubround2 cfg s cpu tsc = some t := by
  by_cases gives : 0 < s.localLeftoverTokens cpu ∧ s.localExtraDemand cpu = 0
  · unfold nvmeSchedSubround2
    simp only [if_pos gives]
    exact ⟨_, rfl⟩
  · obtain ⟨u, n, served, rest⟩ := nvmeSchedSubround2_served cfg tsc gives
    rw [rest]
    exact endSubround2_returns (start u n served) n

theorem nvmeSched_returns
    (start : ∀ u n, Acts cfg cpu (s, 0) (u, n) → 0 < (u.nvmeTenantManager cpu).numBestEffortTenants →
      ∃ rr, nextRoundrobinStart u cpu = some rr) (now tsc : Nat) : ∃ t, nvmeSched cfg s cpu now tsc = some t := by
  unfold nvmeSched
  split
  · exact ⟨_, rfl⟩
  · have first := nvmeSchedSubround1_acts cfg cpu s now
    obtain ⟨u, second⟩ := subround2_returns (fun u n served => start u n (first.trans served)) tsc
    rw [second]
    exact ⟨_, rfl⟩

theorem sched_returns_without_effort (cfg : Cfg)
    (none : (s.nvmeTenantManager cpu).numBestEffortTenants ≤ 0) (now tsc : Nat) : ∃ t, nvmeSched cfg s cpu now tsc = some t := by
  refine nvmeSched_returns (fun u n acts claimed => ?_) now tsc
  rw [acts.sameTenants.managers] at claimed
  exact absurd none (not_le.2 claimed)

/-! ## The calls of one thread -/

/-- The tenants are linked, and only thread `cpu` has any. -/
structure Alone (cpu : Nat) (s : NvmeState) : Prop where
  linked : Linked s
  others : ∀ t, t ≠ cpu → (s.nvmeTenantManager t).tenantSwq = []
  start : 0 ≤ s.roundrobinStart cpu

theorem Alone.thread {h} (alone : Alone cpu s) (live : s.Live h) : (s.nvmeFgs h).tid = cpu := by
  obtain ⟨q, -, -, member⟩ := alone.linked.listed h live
  by_contra other
  rw [alone.others _ other] at member
  exact absurd member List.not_mem_nil

theorem Alone.sameTenants (alone : Alone cpu s) (same : SameTenants s t)
    (start : 0 ≤ t.roundrobinStart cpu) : Alone cpu t := by
  refine ⟨alone.linked.sameTenants same, fun i other => ?_, start⟩
  rw [same.managers]
  exact alone.others i other

/-- Outside the caller's list a release only removes, and no start moves. -/
theorem unregister_others (cfg : Cfg) (s : NvmeState) (cpu h : Nat) :
    (∀ t, t ≠ cpu → (s.nvmeTenantManager t).tenantSwq = [] →
      ((bsysNvmeUnregisterFlow cfg s cpu h).2.nvmeTenantManager t).tenantSwq = []) ∧
      (bsysNvmeUnregisterFlow cfg s cpu h).2.roundrobinStart = s.roundrobinStart := by
  unfold bsysNvmeUnregisterFlow releaseFlow dropQueue
  simp only [post, setManager]
  constructor
  · intro t other empty
    split
    · split
      · simp [other, listDel, empty]
      · simp [other, empty]
    · exact empty
  · split
    · split <;> rfl
    · rfl

theorem prepareFlow_others (cfg : Cfg) (s : NvmeState) (cpu : Nat) (flowGroupId : Int64) (slo : SLO) :
    (∀ t, t ≠ cpu → (s.nvmeTenantManager t).tenantSwq = [] →
      ((prepareFlow cfg s cpu flowGroupId slo).2.nvmeTenantManager t).tenantSwq = []) ∧
      (prepareFlow cfg s cpu flowGroupId slo).2.roundrobinStart = s.roundrobinStart := by
  cases found : s.search cpu flowGroupId with
  | nextAvail i =>
    rw [prepareFlow_of_new found]
    exact ⟨fun _ _ empty => empty, rfl⟩
  | already i =>
    by_cases same : (s.nvmeFgs i).slo = slo
    · rw [prepareFlow_of_same found same]
      exact ⟨fun _ _ empty => empty, rfl⟩
    · rw [prepareFlow_of_changed found same]
      exact unregister_others cfg s cpu i

theorem RegStep.alone {op} (step : RegStep cfg s op t) (wf : s.Wf cfg)
    (own : (IoOp.reg op).cpu = cpu) (once : op.LinksOnce cfg s) (alone : Alone cpu s) : Alone cpu t := by
  have thread : op.OnOwnThread s := by
    cases op with
    | unregister c h =>
      intro live
      exact (alone.thread live).trans own.symm
    | register c flowGroupId cookie slo swq => trivial
    | nvmeOpen c nsSize nsSectorSize => trivial
  have linked := step.linked wf once thread alone.linked
  obtain ⟨-, rfl⟩ := step
  cases op with
  | register c flowGroupId cookie slo swq =>
    obtain rfl : c = cpu := own
    obtain ⟨lists, starts⟩ := prepareFlow_others cfg s c flowGroupId slo
    by_cases failed : s.Refused cfg c flowGroupId cookie slo ∨ swq = none
    · refine ⟨linked, fun i other => ?_, ?_⟩
      · rw [next, run, register_failed failed]
        exact lists i other (alone.others i other)
      · rw [next, run, register_failed failed]
        exact (congrFun starts c).symm ▸ alone.start
    · rw [not_or] at failed
      obtain ⟨q, rfl⟩ := Option.ne_none_iff_exists'.1 failed.2
      refine ⟨linked, fun i other => ?_, ?_⟩
      · rw [next, run, register_linked failed.1 q]
        simp only [post, joinThread_of_ne _ _ _ other]
        exact lists i other (alone.others i other)
      · rw [next, run, register_linked failed.1 q]
        simp [post]
  | unregister c h =>
    obtain rfl : c = cpu := own
    obtain ⟨lists, starts⟩ := unregister_others cfg s c h
    exact ⟨linked, fun i other => lists i other (alone.others i other), (congrFun starts c).symm ▸ alone.start⟩
  | nvmeOpen c nsSize nsSectorSize =>
    refine ⟨linked, fun i other => ?_, ?_⟩
    · simp only [next, run, bsysNvmeOpen]
      split <;> exact alone.others i other
    · simp only [next, run, bsysNvmeOpen]
      split <;> exact alone.start

def ThreadStep (cfg : Cfg) (cpu : Nat) (s : NvmeState) (op : IoOp) (t : NvmeState) : Prop := op.cpu = cpu ∧ IoStep cfg s op t

def IoOp.LinksOnce (cfg : Cfg) (s : NvmeState) : IoOp → Prop
  | .reg r => r.LinksOnce cfg s
  | _ => True

theorem ThreadStep.alone {op}
    (step : Guarded (ThreadStep cfg cpu) (IoOp.LinksOnce cfg) s op t) (wf : s.Wf cfg) (alone : Alone cpu s) :
    t.Wf cfg ∧ Alone cpu t := by
  obtain ⟨⟨own, ret, returns⟩, once⟩ := step
  have framed : SameTenants s t → 0 ≤ t.roundrobinStart cpu → t.Wf cfg ∧ Alone cpu t := by
    intro same start
    exact ⟨same.registry ▸ wf, alone.sameTenants same start⟩
  rcases returns.inv with ⟨r, rfl, call⟩ | submits | ⟨c, now, tsc, rfl, round⟩
  · exact ⟨call.wf wf, call.alone wf own once alone⟩
  · apply framed submits.sameTenants
    cases submits <;> exact alone.start
  · exact framed (nvmeSched_sameTenants round) ((nvmeSched_acts round).starts alone.start)

end Reflex.Nvme
