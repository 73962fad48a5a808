import Mathlib.Logic.Relation
import Reflex.Nvme.Scheduler

/-!
# What a scheduling round does

A round is a chain of small actions on the state and the tokens that the thread has in hand: `local_leftover`
in the first sub-round, `be_tokens` in the second. `Act` lists them; `nvmeSched_acts` says that every call of
`nvme_sched` that returns is such a chain, which starts and ends with no tokens in hand.
-/

namespace Reflex.Nvme
open Lib Function List NvmeState

variable {s t : NvmeState} {q cpu : Nat} {cfg : Cfg} {a b : NvmeState × Nat} {swq : NvmeSwQueue}

/-- The actions of a round of thread `cpu`, on the state and the tokens in hand. -/
inductive Act (cfg : Cfg) (cpu : Nat) : NvmeState × Nat → NvmeState × Nat → Prop where
  | lcCredit {s n} (q : Nat) (tokens : Int) :
      Act cfg cpu (s, n) ((s.setSwq q { s.swqs q with tokenCredit := (s.swqs q).tokenCredit + tokens }).log
        (.lcIncrement q tokens), n)
  | lcIssue {s n q ctx swq} (member : q ∈ (s.nvmeTenantManager cpu).tenantSwq)
      (pop : nvmeSwQueuePopFront (s.swqs q) = some (ctx, swq)) :
      Act cfg cpu (s, n) ((issueNvmeReq cfg (s.setSwq q { swq with tokenCredit := swq.tokenCredit - ctx.reqCost }) cpu ctx).log
        (.lcIssue q ctx), n)
  | lcDonate {s n m given} (q : Nat) (credit : Int) (gain : m ≤ n + given) (fits : m < 2 ^ 64) :
      Act cfg cpu (s, n) ((s.setSwq q { s.swqs q with tokenCredit := credit }).log (.lcDonate q given), m)
  | acquire {s n bucket taken} (available : bucket + taken ≤ s.globalLeftoverTokens) :
      Act cfg cpu (s, n) ({ s with globalLeftoverTokens := bucket }, wadd 64 n taken)
  | beTake {s n q} (member : q ∈ (s.nvmeTenantManager cpu).tenantSwq) (effort : s.critical q = false) :
      Act cfg cpu (s, n) (s.setSwq q (nvmeSwQueueTakeSavedTokens (s.swqs q)).2, wadd 64 n (s.swqs q).savedTokens)
  | beIncrement {s n} (q tokens : Nat) : Act cfg cpu (s, n) (s.log (.beIncrement q tokens), wadd 64 n tokens)
  | beIssue {s n q ctx swq} (member : q ∈ (s.nvmeTenantManager cpu).tenantSwq)
      (pop : nvmeSwQueuePopFront (s.swqs q) = some (ctx, swq)) (paid : wofInt 64 ctx.reqCost ≤ n) :
      Act cfg cpu (s, n) ((issueNvmeReq cfg (s.setSwq q swq) cpu ctx).log (.beIssue q ctx n),
        wsub 64 n (wofInt 64 ctx.reqCost))
  | beSave {s n q} (member : q ∈ (s.nvmeTenantManager cpu).tenantSwq) (effort : s.critical q = false) :
      Act cfg cpu (s, n) ((s.setSwq q (nvmeSwQueueSaveTokens (s.swqs q) n).2).log
        (.beSave q (nvmeSwQueueSaveTokens (s.swqs q) n).1 n), wsub 64 n (nvmeSwQueueSaveTokens (s.swqs q) n).1)
  | give {s n} : Act cfg cpu (s, n) (giveGlobalTokens s n, 0)
  /-- Clocks, demand, the next start and the emptying of the bucket. -/
  | tick {s n bucket} {starts : Nat → Int} (now tsc demand leftover : Nat → Nat) (scheduled : Nat → Int32)
      (less : bucket ≤ s.globalLeftoverTokens) (inList : ∀ t, 0 ≤ s.roundrobinStart t → 0 ≤ starts t) :
      Act cfg cpu (s, n) ({ s with
        lastSchedTime := now, lastSchedTimeBe := tsc, localExtraDemand := demand, localLeftoverTokens := leftover,
        roundrobinStart := starts, scheduledBitVector := scheduled, globalLeftoverTokens := bucket }, n)

abbrev Acts (cfg : Cfg) (cpu : Nat) : NvmeState × Nat → NvmeState × Nat → Prop := Relation.ReflTransGen (Act cfg cpu)

/-! ## What no action touches -/

/-- The table, the thread lists, the pool and the owners of the queues are the same. -/
structure SameTenants (s t : NvmeState) : Prop where
  registry : t.toRegistry = s.toRegistry
  managers : t.nvmeTenantManager = s.nvmeTenantManager
  pool : t.swqAllocated = s.swqAllocated
  handles : ∀ q, (t.swqs q).fgHandle = (s.swqs q).fgHandle

namespace SameTenants

variable {u : NvmeState}

theorem refl (s : NvmeState) : SameTenants s s := ⟨rfl, rfl, rfl, fun _ => rfl⟩

theorem trans (first : SameTenants s t) (second : SameTenants t u) : SameTenants s u :=
  ⟨second.1.trans first.1, second.2.trans first.2, second.3.trans first.3, fun q => (second.4 q).trans (first.4 q)⟩

theorem critical (same : SameTenants s t) (q : Nat) : t.critical q = s.critical q := by
  rw [NvmeState.critical, NvmeState.critical, same.registry, same.handles]

theorem setSwq (s : NvmeState) (handle : swq.fgHandle = (s.swqs q).fgHandle) :
    SameTenants s (s.setSwq q swq) := by
  refine ⟨rfl, rfl, rfl, fun j => ?_⟩
  rcases eq_or_ne j q with rfl | same
  · simp [NvmeState.setSwq, handle]
  · simp [NvmeState.setSwq, same]

theorem log (s : NvmeState) (e : SchedEvent) : SameTenants s (s.log e) := ⟨rfl, rfl, rfl, fun _ => rfl⟩

theorem issue (cfg : Cfg) (s : NvmeState) (cpu : Nat) (ctx : NvmeCtx) : SameTenants s (issueNvmeReq cfg s cpu ctx) := by
  obtain ⟨usys, same⟩ := issueNvmeReq_usys cfg s cpu ctx
  rw [same]
  exact ⟨rfl, rfl, rfl, fun _ => rfl⟩

end SameTenants

theorem popFront_handle {q q' ctx} (pop : nvmeSwQueuePopFront q = some (ctx, q')) :
    q'.fgHandle = q.fgHandle := by
  unfold nvmeSwQueuePopFront at pop
  split at pop
  · cases pop
  · cases pop
    rfl

theorem saveTokens_handle (q : NvmeSwQueue) (tokens : Nat) : (nvmeSwQueueSaveTokens q tokens).2.fgHandle = q.fgHandle := by
  unfold nvmeSwQueueSaveTokens
  split
  · rfl
  · split <;> rfl

theorem setSwq_rings (ring : swq.toRingBuf = (s.swqs q).toRingBuf) (k : Nat) :
    ((s.setSwq q swq).swqs k).toRingBuf = (s.swqs k).toRingBuf := by
  rcases eq_or_ne k q with rfl | same
  · simp [setSwq, ring]
  · simp [setSwq, same]

theorem saveTokens_ring (q : NvmeSwQueue) (tokens : Nat) : (nvmeSwQueueSaveTokens q tokens).2.toRingBuf = q.toRingBuf := by
  unfold nvmeSwQueueSaveTokens
  split
  · rfl
  · split <;> rfl

theorem setSwq_all {P : NvmeSwQueue → Prop} (all : ∀ k, P (s.swqs k)) (new : P swq)
    (k : Nat) : P ((s.setSwq q swq).swqs k) := by
  rcases eq_or_ne k q with rfl | same
  · simpa [setSwq] using new
  · simpa [setSwq, same] using all k

theorem Act.queues {P : NvmeSwQueue → Prop} (popped : ∀ q ctx q', P q → nvmeSwQueuePopFront q = some (ctx, q') → P q')
    (credited : ∀ q credit, P q → P { q with tokenCredit := credit }) (taken : ∀ q, P q → P (nvmeSwQueueTakeSavedTokens q).2)
    (saved : ∀ q n, P q → P (nvmeSwQueueSaveTokens q n).2) {cfg : Cfg} {cpu : Nat} {a b : NvmeState × Nat} (act : Act cfg cpu a b)
    (all : ∀ k, P (a.1.swqs k)) : ∀ k, P (b.1.swqs k) := by
  cases act with
  | lcCredit q tokens => exact setSwq_all all (credited _ _ (all q))
  | @lcIssue s n q ctx swq member pop =>
    obtain ⟨usys, answered⟩ := issueNvmeReq_usys cfg (s.setSwq q { swq with tokenCredit := swq.tokenCredit - ctx.reqCost }) cpu ctx
    rw [answered]
    exact setSwq_all all (credited _ _ (popped _ _ _ (all q) pop))
  | lcDonate q credit gain fits => exact setSwq_all all (credited _ _ (all q))
  | acquire available => exact all
  | @beTake s n q member effort => exact setSwq_all all (taken _ (all q))
  | beIncrement q tokens => exact all
  | @beIssue s n q ctx swq member pop paid =>
    obtain ⟨usys, answered⟩ := issueNvmeReq_usys cfg (s.setSwq q swq) cpu ctx
    rw [answered]
    exact setSwq_all all (popped _ _ _ (all q) pop)
  | @beSave s n q member effort => exact setSwq_all all (saved _ _ (all q))
  | give => exact all
  | tick now tsc demand leftover scheduled less inList => exact all

theorem Act.holds {R : NvmeCtx → Prop} (act : Act cfg cpu a b)
    (all : ∀ k, (a.1.swqs k).Holds R) : ∀ k, (b.1.swqs k).Holds R := by
  apply act.queues (P := NvmeSwQueue.Holds R) _ _ _ _ all
  · intro q ctx q' holds pop
    exact (holds.pop pop).1
  · intro q credit holds
    exact holds.congr rfl
  · intro q holds
    exact holds.congr rfl
  · intro q n holds
    exact holds.congr (saveTokens_ring q n)

theorem Act.sameTenants (act : Act cfg cpu a b) : SameTenants a.1 b.1 := by
  cases act with
  | lcCredit q tokens =>
    refine SameTenants.trans ?_ (.log _ _)
    exact SameTenants.setSwq _ rfl
  | lcIssue member pop =>
    have handle := popFront_handle pop
    refine SameTenants.trans ?_ (.log _ _)
    refine SameTenants.trans ?_ (.issue _ _ _ _)
    exact SameTenants.setSwq _ handle
  | lcDonate q credit gain fits =>
    refine SameTenants.trans ?_ (.log _ _)
    exact SameTenants.setSwq _ rfl
  | acquire available => exact ⟨rfl, rfl, rfl, fun _ => rfl⟩
  | beTake member effort => exact SameTenants.setSwq _ rfl
  | beIncrement q tokens => exact .log _ _
  | beIssue member pop paid =>
    exact ((SameTenants.setSwq _ (popFront_handle pop)).trans (.issue _ _ _ _)).trans (.log _ _)
  | beSave member effort => exact (SameTenants.setSwq _ (saveTokens_handle _ _)).trans (.log _ _)
  | give => exact ⟨rfl, rfl, rfl, fun _ => rfl⟩
  | tick now tsc demand leftover scheduled less inList => exact ⟨rfl, rfl, rfl, fun _ => rfl⟩

theorem Acts.invariant {I : NvmeState × Nat → Prop} (keep : ∀ a b, Act cfg cpu a b → I a → I b)
    (acts : Acts cfg cpu a b) (start : I a) : I b := by
  induction acts with
  | refl => exact start
  | tail _ act ih => exact keep _ _ act ih

theorem Acts.sameTenants (acts : Acts cfg cpu a b) : SameTenants a.1 b.1 :=
  acts.invariant (I := fun c => SameTenants a.1 c.1) (fun _ _ act same => same.trans act.sameTenants) (.refl _)

/-! ## The loops as chains -/

section Loops

theorem lcDrain_acts (fuel : Nat) (n : Nat) (member : q ∈ (s.nvmeTenantManager cpu).tenantSwq) :
    Acts cfg cpu (s, n) (lcDrain cfg cpu q fuel s, n) := by
  induction fuel generalizing s with
  | zero => exact .refl
  | succ fuel ih =>
    rw [lcDrain]
    split
    · split
      · exact .refl
      · rename_i ctx swq pop
        have act : Act cfg cpu (s, n) _ := .lcIssue member pop
        refine .head act (ih ?_)
        rw [act.sameTenants.managers]
        exact member
    · exact .refl

theorem serveLc_acts {timeDelta} (n : Nat) (member : q ∈ (s.nvmeTenantManager cpu).tenantSwq) :
    Acts cfg cpu (s, n) (serveLc cfg cpu timeDelta q s n) := by
  have credit : Act cfg cpu (s, n) _ := .lcCredit q
    (truncToInt 64 ((s.nvmeFgs (s.swqs q).fgHandle).scaledIOPuSLimit * timeDelta + 1 / 2))
  have drained := (Acts.sameTenants (.single credit)).managers ▸ member
  unfold serveLc
  simp only
  split
  · refine .head credit (.tail (lcDrain_acts _ n drained) (.lcDonate q _ ?_ (truncToNat_lt _ _)))
    exact truncToNat_add_le 64 n _
  · exact .head credit (lcDrain_acts _ n drained)

theorem subround1_acts (timeDelta : Nat) (l : List Nat) (leftover demand : Nat)
    (members : ∀ q ∈ l, q ∈ (s.nvmeTenantManager cpu).tenantSwq) :
    Acts cfg cpu (s, leftover)
      ((l.foldl (subround1Queue cfg cpu timeDelta) (s, leftover, demand)).1,
        (l.foldl (subround1Queue cfg cpu timeDelta) (s, leftover, demand)).2.1) := by
  induction l generalizing s leftover demand with
  | nil => exact .refl
  | cons q l ih =>
    rw [foldl_cons]
    have later := fun j mem => members j (mem_cons_of_mem q mem)
    cases kind : s.critical q with
    | true =>
      have served : Acts cfg cpu (s, leftover) (serveLc cfg cpu timeDelta q s leftover) :=
        serveLc_acts leftover (members q mem_cons_self)
      rw [subround1Queue_critical cfg cpu timeDelta kind]
      have members' : ∀ j ∈ l, j ∈ ((serveLc cfg cpu timeDelta q s leftover).1.nvmeTenantManager cpu).tenantSwq := by
        rw [served.sameTenants.managers]
        exact later
      exact served.trans (ih _ demand members')
    | false =>
      rw [subround1Queue_effort cfg cpu timeDelta kind]
      exact ih _ _ later

theorem nvmeSchedSubround1_acts (cfg : Cfg) (cpu : Nat) (s : NvmeState) (now : Nat) :
    Acts cfg cpu (s, 0) (nvmeSchedSubround1 cfg s cpu now, (nvmeSchedSubround1 cfg s cpu now).localLeftoverTokens cpu) := by
  have clock : Act cfg cpu (s, 0) ({ s with lastSchedTime := update s.lastSchedTime cpu now }, 0) :=
    .tick _ _ _ _ _ (le_refl _) (fun _ inList => inList)
  refine .head clock (.tail (subround1_acts (wsub 64 now (s.lastSchedTime cpu)) (s.nvmeTenantManager cpu).tenantSwq 0 0
    fun q mem => mem) ?_)
  unfold nvmeSchedSubround1
  simp only [update_self]
  exact .tick _ _ _ _ _ (le_refl _) (fun _ inList => inList)

theorem beDrain_acts (cfg : Cfg) (fuel : Nat) (n : Nat) (member : q ∈ (s.nvmeTenantManager cpu).tenantSwq) :
    Acts cfg cpu (s, n) (beDrain cfg cpu q fuel s n) := by
  induction fuel generalizing s n with
  | zero => exact .refl
  | succ fuel ih =>
    rw [beDrain]
    split
    · rename_i affordable
      split
      · exact .refl
      · rename_i ctx swq pop
        have paid : wofInt 64 ctx.reqCost ≤ n := popFront_cost pop ▸ affordable.2
        have act : Act cfg cpu (s, n) _ := .beIssue member pop paid
        refine .head act (ih _ ?_)
        rw [act.sameTenants.managers]
        exact member
    · exact .refl

theorem fundBe_acts {timeDeltaCycles} (n : Nat) (member : q ∈ (s.nvmeTenantManager cpu).tenantSwq)
    (effort : s.critical q = false) : Acts cfg cpu (s, n) (fundBe cfg timeDeltaCycles q s n) := by
  have take : Act cfg cpu (s, n) _ := .beTake member effort
  exact .tail (.single take) (.beIncrement q _)

theorem serveBe_acts {timeDeltaCycles} (n : Nat) (member : q ∈ (s.nvmeTenantManager cpu).tenantSwq) :
    Acts cfg cpu (s, n) (serveBe cfg cpu timeDeltaCycles (s, n) q) := by
  unfold serveBe
  simp only
  split
  · exact .refl
  · rename_i kind
    have effort : s.critical q = false := by simpa using kind
    have funded : Acts cfg cpu (s, n) (fundBe cfg timeDeltaCycles q s n) := fundBe_acts n member effort
    rcases fund : fundBe cfg timeDeltaCycles q s n with ⟨s₁, n₁⟩
    rw [fund] at funded
    have listed : q ∈ (s₁.nvmeTenantManager cpu).tenantSwq := by
      rw [funded.sameTenants.managers]
      exact member
    have served : Acts cfg cpu (s, n) _ := funded.trans (beDrain_acts cfg (s₁.swqs q).count n₁ listed)
    rcases drain : beDrain cfg cpu q (s₁.swqs q).count s₁ n₁ with ⟨s₂, n₂⟩
    rw [drain] at served
    refine served.tail (.beSave ?_ ?_)
    · rw [served.sameTenants.managers]
      exact member
    · rw [served.sameTenants.critical]
      exact effort

theorem subround2_acts (timeDeltaCycles : Nat) (l : List Nat) (n : Nat)
    (members : ∀ q ∈ l, q ∈ (s.nvmeTenantManager cpu).tenantSwq) :
    Acts cfg cpu (s, n) (l.foldl (serveBe cfg cpu timeDeltaCycles) (s, n)) := by
  induction l generalizing s n with
  | nil => exact .refl
  | cons q l ih =>
    rw [foldl_cons]
    have served : Acts cfg cpu (s, n) (serveBe cfg cpu timeDeltaCycles (s, n) q) := serveBe_acts n (members q mem_cons_self)
    rcases result : serveBe cfg cpu timeDeltaCycles (s, n) q with ⟨s', n'⟩
    rw [result] at served
    refine served.trans (ih n' fun j mem => ?_)
    rw [served.sameTenants.managers]
    exact members j (mem_cons_of_mem q mem)

theorem serveAllBe_acts (timeDeltaCycles : Nat) (s : NvmeState) (n : Nat) :
    Acts cfg cpu (s, n) (serveAllBe cfg cpu timeDeltaCycles s n) := by
  unfold serveAllBe
  have first : Acts cfg cpu (s, n) _ := subround2_acts timeDeltaCycles
    ((s.nvmeTenantManager cpu).tenantSwq.drop (s.roundrobinStart cpu).toNat) n fun q mem => mem_of_mem_drop mem
  simp only
  rcases half : ((s.nvmeTenantManager cpu).tenantSwq.drop (s.roundrobinStart cpu).toNat).foldl
    (serveBe cfg cpu timeDeltaCycles) (s, n) with ⟨s₁, n₁⟩
  rw [half] at first
  refine first.trans (subround2_acts timeDeltaCycles _ n₁ fun q mem => ?_)
  rw [first.sameTenants.managers]
  exact mem_of_mem_take mem

theorem beTokensInHand_acts (s : NvmeState) (leftover demand : Nat) :
    Acts cfg cpu (s, leftover) (beTokensInHand s leftover demand) := by
  unfold beTokensInHand tryAcquireGlobalTokens
  split
  · by_cases short : s.globalLeftoverTokens < wsub 64 demand leftover
    · rw [if_pos short]
      exact .single (.acquire (Nat.zero_add _).le)
    · rw [if_neg short]
      have less := wsub_le (w := 64) (not_lt.1 short)
      exact .single (.acquire (by omega))
  · exact .refl

theorem nextRoundrobinStart_nonneg {rr} (found : nextRoundrobinStart s cpu = some rr) : 0 ≤ rr := by
  have here := (orbitFind_some found).1
  unfold bestEffortAt at here
  split at here
  · simp only [Bool.and_eq_true, decide_eq_true_eq] at here
    exact here.1
  · cases here

theorem endSubround2_acts {n} (ends : endSubround2 s cpu n = some t) : Acts cfg cpu (s, n) (t, 0) := by
  have last : ∀ u : NvmeState, Acts cfg cpu (u, n) (if 0 < n then giveGlobalTokens u n else u, 0) := by
    intro u
    split
    · exact .single .give
    · rename_i none
      obtain rfl : n = 0 := by omega
      exact .refl
  unfold endSubround2 at ends
  simp only [Option.map_eq_some_iff] at ends
  obtain ⟨u, moved, rfl⟩ := ends
  split at moved
  · obtain ⟨rr, found, rfl⟩ := Option.map_eq_some_iff.1 moved
    have start : Act cfg cpu (s, n) ({ s with roundrobinStart := update s.roundrobinStart cpu rr }, n) := by
      refine .tick _ _ _ _ _ (le_refl _) fun t inList => ?_
      rcases eq_or_ne t cpu with rfl | own
      · rw [update_self]
        exact nextRoundrobinStart_nonneg found
      · rwa [update_of_ne own]
    exact .head start (last _)
  · cases moved
    exact last s

/-- The sub-round unless it gives everything away: best-effort queues are served, and then
the end is reached with what is left. -/
theorem nvmeSchedSubround2_served (cfg : Cfg) (tsc : Nat)
    (serves : ¬ (0 < s.localLeftoverTokens cpu ∧ s.localExtraDemand cpu = 0)) :
    ∃ u n, Acts cfg cpu (s, s.localLeftoverTokens cpu) (u, n) ∧ nvmeSchedSubround2 cfg s cpu tsc = endSubround2 u cpu n := by
  have start : Acts cfg cpu (s, s.localLeftoverTokens cpu) _ :=
    beTokensInHand_acts s (s.localLeftoverTokens cpu) (s.localExtraDemand cpu)
  rcases hand : beTokensInHand s (s.localLeftoverTokens cpu) (s.localExtraDemand cpu) with ⟨s₁, n₁⟩
  rw [hand] at start
  have clock : Act cfg cpu (s₁, n₁) ({ s₁ with lastSchedTimeBe := update s₁.lastSchedTimeBe cpu tsc }, n₁) :=
    .tick _ _ _ _ _ (le_refl _) fun _ inList => inList
  refine ⟨_, _, (start.tail clock).trans (serveAllBe_acts (wsub 64 tsc (s₁.lastSchedTimeBe cpu)) _ n₁), ?_⟩
  unfold nvmeSchedSubround2
  simp only [if_neg serves, hand]
  rfl

theorem nvmeSchedSubround2_acts {tsc} (ends : nvmeSchedSubround2 cfg s cpu tsc = some t) :
    Acts cfg cpu (s, s.localLeftoverTokens cpu) (t, 0) := by
  by_cases gives : 0 < s.localLeftoverTokens cpu ∧ s.localExtraDemand cpu = 0
  · unfold nvmeSchedSubround2 at ends
    simp only [if_pos gives] at ends
    cases ends
    exact .single .give
  · obtain ⟨u, n, served, rest⟩ := nvmeSchedSubround2_served cfg tsc gives
    rw [rest] at ends
    exact served.trans (endSubround2_acts ends)

end Loops

theorem updateScheduledBitvector_act (cfg : Cfg) (s : NvmeState) (cpu n : Nat) :
    Act cfg cpu (s, n) (updateScheduledBitvector cfg s cpu, n) := by
  unfold updateScheduledBitvector
  simp only
  split
  · exact .tick _ _ _ _ _ (Nat.zero_le _) fun _ inList => inList
  · exact .tick _ _ _ _ _ (le_refl _) fun _ inList => inList

theorem nvmeSched_acts {now tsc} (round : nvmeSched cfg s cpu now tsc = some t) :
    Acts cfg cpu (s, 0) (t, 0) := by
  unfold nvmeSched at round
  split at round
  · cases round
    have clock : Act cfg cpu (s, 0) ({ s with
        lastSchedTime := update s.lastSchedTime cpu now
        lastSchedTimeBe := update s.lastSchedTimeBe cpu tsc }, 0) :=
      .tick _ _ _ _ _ (le_refl _) fun _ inList => inList
    exact .tail (.single clock) (updateScheduledBitvector_act cfg _ cpu 0)
  · obtain ⟨u, ends, rfl⟩ := Option.map_eq_some_iff.1 round
    have served := (nvmeSchedSubround1_acts cfg cpu s now).trans (nvmeSchedSubround2_acts ends)
    have clear : Act cfg cpu (u, 0) ({ u with
        localLeftoverTokens := update u.localLeftoverTokens cpu 0
        localExtraDemand := update u.localExtraDemand cpu 0 }, 0) :=
      .tick _ _ _ _ _ (le_refl _) fun _ inList => inList
    exact (served.tail clear).tail (updateScheduledBitvector_act cfg _ cpu 0)

end Reflex.Nvme
