import Mathlib.Data.Nat.Nth
import Reflex.Nvme.RoundRobin
import Reflex.Nvme.Trio

/-!
# The order of the best-effort tenants

A second sub-round that does not give everything away gives each best-effort queue of the thread's list one turn,
beginning at `roundrobin_start`, and moves the start to the next of them around the list.
-/

namespace Reflex.Nvme
open Lib List

variable {cfg : Cfg} {cpu timeDeltaCycles : Nat} {s t u : NvmeState} {order later : List Nat}

/-! ## One sub-round -/

/-- The best-effort queue whose turn an event begins. -/
def SchedEvent.turn : SchedEvent → Option Nat
  | .beIncrement q _ => some q
  | _ => none

def NvmeState.turns (s : NvmeState) : List Nat := s.trace.filterMap SchedEvent.turn

/-- From `s` to `t` the queues of `order` had their turns, and the start was not moved. -/
structure Turns (order : List Nat) (s t : NvmeState) : Prop where
  turns : t.turns = s.turns ++ order
  start : t.roundrobinStart = s.roundrobinStart

namespace Turns

theorem of_eq (trace : t.trace = s.trace) (start : t.roundrobinStart = s.roundrobinStart) : Turns [] s t :=
  ⟨by rw [NvmeState.turns, trace, append_nil, NvmeState.turns], start⟩

theorem trans (first : Turns order s t) (second : Turns later t u) : Turns (order ++ later) s u :=
  ⟨by rw [second.turns, first.turns, append_assoc], second.start.trans first.start⟩

theorem log (s : NvmeState) (e : SchedEvent) : Turns e.turn.toList s (s.log e) := by
  refine ⟨?_, rfl⟩
  simp only [NvmeState.turns, NvmeState.log, filterMap_append]
  cases turn : e.turn <;> simp [turn]

end Turns

theorem beDrain_turns (q fuel n : Nat) : Turns [] s (beDrain cfg cpu q fuel s n).1 := by
  induction fuel generalizing s n with
  | zero => exact .of_eq rfl rfl
  | succ fuel ih =>
    rw [beDrain]
    split
    · split
      · exact .of_eq rfl rfl
      · rename_i ctx swq _
        obtain ⟨usys, answered⟩ := issueNvmeReq_usys cfg (s.setSwq q swq) cpu ctx
        simp only [answered]
        have issued : Turns [] s { s.setSwq q swq with usys := usys } := .of_eq rfl rfl
        exact (issued.trans (.log _ (.beIssue q ctx n))).trans (ih _)
    · exact .of_eq rfl rfl

theorem serveBe_turns (cfg : Cfg) (cpu timeDeltaCycles : Nat) (s : NvmeState) (n q : Nat) :
    Turns (if s.critical q then [] else [q]) s (serveBe cfg cpu timeDeltaCycles (s, n) q).1 := by
  unfold serveBe
  dsimp only
  split
  · exact .of_eq rfl rfl
  · have funded : Turns [q] s (fundBe cfg timeDeltaCycles q s n).1 :=
      (show Turns [] s (s.setSwq q _) from .of_eq rfl rfl).trans (.log _ (.beIncrement q _))
    have kept : ∀ u m, Turns [] u (keepBe q u m).1 := fun u m =>
      (show Turns [] u (u.setSwq q _) from .of_eq rfl rfl).trans (.log _ (.beSave q _ m))
    exact (funded.trans (beDrain_turns q _ _)).trans (kept _ _)

theorem foldl_serveBe_turns (cfg : Cfg) (timeDeltaCycles : Nat) (l : List Nat) (n : Nat)
    (members : ∀ q ∈ l, q ∈ (s.nvmeTenantManager cpu).tenantSwq) :
    Turns (l.filter fun q => !s.critical q) s (l.foldl (serveBe cfg cpu timeDeltaCycles) (s, n)).1 := by
  induction l generalizing s n with
  | nil => exact .of_eq rfl rfl
  | cons q l ih =>
    have here := serveBe_turns cfg cpu timeDeltaCycles s n q
    have acts : Acts cfg cpu (s, n) (serveBe cfg cpu timeDeltaCycles (s, n) q) := serveBe_acts n (members q mem_cons_self)
    have same := acts.sameTenants
    have rest := ih (serveBe cfg cpu timeDeltaCycles (s, n) q).2 fun j mem => same.managers ▸ members j (mem_cons_of_mem q mem)
    simp only [same.critical] at rest
    have both := here.trans rest
    rw [foldl_cons, filter_cons]
    cases kind : s.critical q <;> simpa [kind] using both

/-- The best-effort queues from the start to the end of the list and then from its front. -/
def NvmeState.effortOrder (s : NvmeState) (cpu : Nat) : List Nat :=
  ((s.nvmeTenantManager cpu).tenantSwq.drop (s.roundrobinStart cpu).toNat ++
    (s.nvmeTenantManager cpu).tenantSwq.take (s.roundrobinStart cpu).toNat).filter fun q => !s.critical q

/-- The sub-round does not end with the early give-away. -/
def NvmeState.Serves (s : NvmeState) (cpu : Nat) : Prop := ¬ (0 < s.localLeftoverTokens cpu ∧ s.localExtraDemand cpu = 0)

theorem serveAllBe_turns (cfg : Cfg) (cpu timeDeltaCycles : Nat) (s : NvmeState) (n : Nat) :
    Turns (s.effortOrder cpu) s (serveAllBe cfg cpu timeDeltaCycles s n).1 := by
  unfold serveAllBe
  simp only
  rw [← foldl_append]
  exact foldl_serveBe_turns cfg timeDeltaCycles _ n fun q mem => (mem_append.1 mem).elim mem_of_mem_drop mem_of_mem_take

theorem subround2_turns (cfg : Cfg) (serves : s.Serves cpu) (tsc : Nat) :
    ∃ u n, nvmeSchedSubround2 cfg s cpu tsc = endSubround2 u cpu n ∧ Turns (s.effortOrder cpu) s u ∧ SameTenants s u := by
  have before : Turns [] s (beTokensInHand s (s.localLeftoverTokens cpu) (s.localExtraDemand cpu)).1 := by
    unfold beTokensInHand tryAcquireGlobalTokens
    split_ifs <;> exact .of_eq rfl rfl
  have acts : Acts cfg cpu (s, s.localLeftoverTokens cpu) _ := beTokensInHand_acts s (s.localLeftoverTokens cpu) (s.localExtraDemand cpu)
  rcases hand : beTokensInHand s (s.localLeftoverTokens cpu) (s.localExtraDemand cpu) with ⟨v, n⟩
  rw [hand] at before acts
  let w : NvmeState := { v with lastSchedTimeBe := Function.update v.lastSchedTimeBe cpu tsc }
  have same : SameTenants s w := acts.sameTenants.trans ⟨rfl, rfl, rfl, fun _ => rfl⟩
  have ticked : Turns [] s w := ⟨before.turns, before.start⟩
  have order : w.effortOrder cpu = s.effortOrder cpu := by
    simp only [NvmeState.effortOrder, same.critical, same.managers, ticked.start]
  have served := serveAllBe_turns cfg cpu (wsub 64 tsc (v.lastSchedTimeBe cpu)) w n
  have chain : Acts cfg cpu (w, n) _ := serveAllBe_acts (wsub 64 tsc (v.lastSchedTimeBe cpu)) w n
  refine ⟨_, (serveAllBe cfg cpu (wsub 64 tsc (v.lastSchedTimeBe cpu)) w n).2, ?_, order ▸ ticked.trans served, same.trans chain.sameTenants⟩
  unfold nvmeSchedSubround2
  simp only [if_neg serves, hand]
  rfl

/-! ## The next start -/

/-- Position `i` of the list holds a best-effort queue. -/
def NvmeState.EffortAt (s : NvmeState) (cpu i : Nat) : Prop := s.bestEffortAt cpu i = true

instance (s : NvmeState) (cpu : Nat) : DecidablePred (s.EffortAt cpu) := fun _ => inferInstanceAs (Decidable (_ = true))

def NvmeState.efforts (s : NvmeState) (cpu : Nat) : Nat := Nat.count (s.EffortAt cpu) (s.nvmeTenantManager cpu).tenantSwq.length

theorem bestEffortAt_congr (managers : t.nvmeTenantManager cpu = s.nvmeTenantManager cpu) (kinds : t.critical = s.critical) :
    t.bestEffortAt cpu = s.bestEffortAt cpu := by
  funext rr
  unfold NvmeState.bestEffortAt
  rw [managers, kinds]

theorem effortAt_congr (managers : t.nvmeTenantManager cpu = s.nvmeTenantManager cpu) (kinds : t.critical = s.critical) :
    t.EffortAt cpu = s.EffortAt cpu := by
  funext i
  rw [NvmeState.EffortAt, NvmeState.EffortAt, bestEffortAt_congr managers kinds]

theorem Counted.serves (counted : Counted cpu s) (cfg : Cfg) (serves : s.Serves cpu) (tsc : Nat) :
    ∃ t, nvmeSchedSubround2 cfg s cpu tsc = some t ∧ t.turns = s.turns ++ s.effortOrder cpu ∧ SameTenants s t ∧
      (0 < (s.nvmeTenantManager cpu).numBestEffortTenants → nextRoundrobinStart s cpu = some (t.roundrobinStart cpu)) := by
  obtain ⟨u, n, call, turns, same⟩ := subround2_turns cfg serves tsc
  have counters : u.nvmeTenantManager cpu = s.nvmeTenantManager cpu := congrFun same.managers cpu
  have search : nextRoundrobinStart u cpu = nextRoundrobinStart s cpu := by
    rw [nextRoundrobinStart, nextRoundrobinStart, counters, turns.start, bestEffortAt_congr counters (funext same.critical)]
  rw [call, endSubround2, counters, search]
  by_cases claimed : 0 < (s.nvmeTenantManager cpu).numBestEffortTenants
  · obtain ⟨rr, found⟩ := counted.exists_start claimed
    rw [if_pos claimed, found]
    refine ⟨_, rfl, ?_⟩
    split_ifs <;> exact ⟨turns.turns, same.trans ⟨rfl, rfl, rfl, fun _ => rfl⟩, fun _ => by simp [giveGlobalTokens]⟩
  · rw [if_neg claimed]
    refine ⟨_, rfl, ?_⟩
    split_ifs <;> exact ⟨turns.turns, same.trans ⟨rfl, rfl, rfl, fun _ => rfl⟩, fun more => absurd more claimed⟩

theorem Counted.next_position (counted : Counted cpu s) {rr} (found : nextRoundrobinStart s cpu = some rr) :
    ∃ i : Nat, rr = i ∧ s.EffortAt cpu i ∧ ∀ x : Nat, s.roundrobinStart cpu = x → s.EffortAt cpu x →
      Nat.count (s.EffortAt cpu) i = (Nat.count (s.EffortAt cpu) x + 1) % s.efforts cpu := by
  obtain ⟨here, k, turn, place, before⟩ := orbitFind_some found
  obtain ⟨i, rfl⟩ := Int.eq_ofNat_of_zero_le (nextRoundrobinStart_nonneg found)
  refine ⟨i, rfl, here, fun x start effort => ?_⟩
  have inside : x < (s.nvmeTenantManager cpu).tenantSwq.length := by
    obtain ⟨q, listed, -⟩ := bestEffortAt_iff.1 effort
    exact (List.getElem?_eq_some_iff.1 listed).1
  have visited : ∀ j, (roundrobinNext (s.nvmeTenantManager cpu).numTenants)^[j + 1] (s.roundrobinStart cpu) =
      ((x + (j + 1)) % (s.nvmeTenantManager cpu).tenantSwq.length : Nat) := by
    intro j
    rw [roundrobinNext_iterate (by rw [counted.tenants]; omega) counted.start, counted.tenants, start]
    push_cast
    rfl
  rw [visited, Int.ofNat_inj] at place
  subst place
  refine count_next_around inside (by rw [counted.tenants] at turn; omega) effort here fun j earlier hit => ?_
  have missed := before j earlier
  rw [visited] at missed
  exact Bool.false_ne_true (missed.symm.trans hit)

/-- A call that serves, and what may happen before the next one: the thread's list, the kinds of its tenants and the
start stay as they are. -/
def EffortStep (cfg : Cfg) (cpu : Nat) (s : NvmeState) (tsc : Nat) (t : NvmeState) : Prop :=
  s.Serves cpu ∧ ∃ u, nvmeSchedSubround2 cfg s cpu tsc = some u ∧ t.nvmeTenantManager cpu = u.nvmeTenantManager cpu ∧
    t.critical = u.critical ∧ t.roundrobinStart cpu = u.roundrobinStart cpu

/-- With the list of `first`, the start is at the best-effort position of rank `r`, around the list. -/
structure Reached (cpu : Nat) (first : NvmeState) (r : Nat) (s : NvmeState) : Prop where
  counted : Counted cpu s
  managers : s.nvmeTenantManager cpu = first.nvmeTenantManager cpu
  kinds : s.critical = first.critical
  place : ∃ i : Nat, s.roundrobinStart cpu = i ∧ first.EffortAt cpu i ∧ Nat.count (first.EffortAt cpu) i = r % first.efforts cpu

theorem EffortStep.next (counted : Counted cpu s) (claimed : 0 < (s.nvmeTenantManager cpu).numBestEffortTenants) {tsc}
    (step : EffortStep cfg cpu s tsc t) : Counted cpu t ∧ t.nvmeTenantManager cpu = s.nvmeTenantManager cpu ∧ t.critical = s.critical ∧
      ∃ i : Nat, t.roundrobinStart cpu = i ∧ s.EffortAt cpu i ∧ ∀ x : Nat, s.roundrobinStart cpu = x → s.EffortAt cpu x →
        Nat.count (s.EffortAt cpu) i = (Nat.count (s.EffortAt cpu) x + 1) % s.efforts cpu := by
  obtain ⟨serves, u, call, managers, kinds, start⟩ := step
  obtain ⟨v, returned, -, same, moved⟩ := counted.serves cfg serves tsc
  obtain rfl : v = u := Option.some.inj (returned.symm.trans call)
  have list := managers.trans (congrFun same.managers cpu)
  have critical := kinds.trans (funext same.critical)
  rw [start]
  refine ⟨⟨by rw [list, counted.tenants], by rw [list, critical, counted.efforts], ?_⟩, list, critical, counted.next_position (moved claimed)⟩
  rw [start]
  exact (nvmeSchedSubround2_acts call).starts counted.start

theorem Reached.step {first : NvmeState} {r tsc} (claimed : 0 < (first.nvmeTenantManager cpu).numBestEffortTenants)
    (reached : Reached cpu first r s) (step : EffortStep cfg cpu s tsc t) : Reached cpu first (r + 1) t := by
  obtain ⟨counted, managers, kinds, x, start, effort, rank⟩ := reached
  obtain ⟨after, list, critical, i, moved, here, next⟩ := step.next counted (managers ▸ claimed)
  simp only [NvmeState.efforts, managers, effortAt_congr managers kinds] at next
  rw [effortAt_congr managers kinds] at here
  refine ⟨after, list.trans managers, critical.trans kinds, i, moved, here, ?_⟩
  rw [next x start effort, rank]
  exact Nat.mod_add_mod _ _ _

theorem Reached.run {first : NvmeState} {r tscs} (claimed : 0 < (first.nvmeTenantManager cpu).numBestEffortTenants)
    (reached : Reached cpu first r s) (run : Run (EffortStep cfg cpu) s tscs t) : Reached cpu first (r + tscs.length) t := by
  induction run generalizing r with
  | nil s => exact reached
  | cons step _ ih =>
    have later := ih (reached.step claimed step)
    rwa [Nat.add_right_comm, Nat.add_assoc] at later

/-- A sub-round that does not give everything away returns, and each best-effort queue of the list has
one turn, in the order of the list from the start on and then up to the start, wherever that is. After the first of
such calls the start runs through the best-effort positions around the list, one after the other. -/
theorem best_effort_turns_rotate (cfg : Cfg) (cpu : Nat) (s : NvmeState) (tsc : Nat) (counted : Counted cpu s) (serves : s.Serves cpu) :
    (∃ t, nvmeSchedSubround2 cfg s cpu tsc = some t ∧ t.turns = s.turns ++ s.effortOrder cpu ∧
      (s.effortOrder cpu).Perm ((s.nvmeTenantManager cpu).tenantSwq.filter fun q => !s.critical q)) ∧
    (0 < (s.nvmeTenantManager cpu).numBestEffortTenants → ∀ t u tscs, EffortStep cfg cpu s tsc t → Run (EffortStep cfg cpu) t tscs u →
      ∃ r, t.roundrobinStart cpu = (Nat.nth (s.EffortAt cpu) (r % s.efforts cpu) : Nat) ∧
        u.roundrobinStart cpu = (Nat.nth (s.EffortAt cpu) ((r + tscs.length) % s.efforts cpu) : Nat)) := by
  refine ⟨?_, fun claimed t u tscs first run => ?_⟩
  · obtain ⟨t, call, turns, -⟩ := counted.serves cfg serves tsc
    exact ⟨t, call, turns, .filter _ (List.perm_append_comm.trans (.of_eq (List.take_append_drop _ _)))⟩
  · obtain ⟨after, list, critical, i, moved, here, -⟩ := first.next counted claimed
    obtain ⟨q, listed, -⟩ := bestEffortAt_iff.1 here
    have rank := Nat.mod_eq_of_lt (Nat.count_strict_mono here (List.getElem?_eq_some_iff.1 listed).1)
    obtain ⟨-, -, -, j, start, effort, ranked⟩ := Reached.run claimed ⟨after, list, critical, i, moved, here, rank.symm⟩ run
    refine ⟨Nat.count (s.EffortAt cpu) i, ?_, ?_⟩
    · rw [NvmeState.efforts, rank, Nat.nth_count here, moved]
    · rw [← ranked, Nat.nth_count effort, start]

/-- Two best-effort flows beside a latency-critical one, and three calls. -/
theorem two_efforts_take_turns : ∃ t u v : NvmeState, (trioState.nvmeTenantManager 0).tenantSwq = [2, 1, 0] ∧ trioState.critical 0 = true ∧
    nvmeSchedSubround2 modelCfg trioState 0 400 = some t ∧ nvmeSchedSubround2 modelCfg t 0 800 = some u ∧
    nvmeSchedSubround2 modelCfg u 0 1200 = some v ∧ t.turns = [2, 1] ∧ t.roundrobinStart 0 = 1 ∧ u.roundrobinStart 0 = 0 ∧
    ∃ r, t.roundrobinStart 0 = (Nat.nth (trioState.EffortAt 0) (r % trioState.efforts 0) : Nat) ∧
      v.roundrobinStart 0 = (Nat.nth (trioState.EffortAt 0) ((r + 2) % trioState.efforts 0) : Nat) := by
  have counted : Counted 0 trioState := ⟨by decide +kernel, by decide +kernel, by decide +kernel⟩
  have serves : ∀ {s : NvmeState}, s.localLeftoverTokens 0 = 0 → s.Serves 0 := fun none gives => by omega
  have start : trioState.Serves 0 := serves (by decide +kernel)
  have calls : (nvmeSchedSubround2 modelCfg trioState 0 400).bind (fun t => (nvmeSchedSubround2 modelCfg t 0 800).bind fun u =>
      (nvmeSchedSubround2 modelCfg u 0 1200).map fun _ =>
        (t.localLeftoverTokens 0, t.roundrobinStart 0, u.localLeftoverTokens 0, u.roundrobinStart 0)) = some (0, 1, 0, 0) := by decide +kernel
  obtain ⟨t, first, later⟩ := Option.bind_eq_some_iff.1 calls
  obtain ⟨u, second, last⟩ := Option.bind_eq_some_iff.1 later
  obtain ⟨v, third, values⟩ := Option.map_eq_some_iff.1 last
  simp only [Prod.mk.injEq] at values
  obtain ⟨noTokens, one, noTokens', zero⟩ := values
  obtain ⟨⟨t', call, turns, -⟩, rotates⟩ := best_effort_turns_rotate modelCfg 0 trioState 400 counted start
  obtain rfl : t' = t := Option.some.inj (call.symm.trans first)
  have run : Run (EffortStep modelCfg 0) t' [800, 1200] v :=
    .cons ⟨serves noTokens, u, second, rfl, rfl, rfl⟩ (.single ⟨serves noTokens', v, third, rfl, rfl, rfl⟩)
  refine ⟨t', u, v, by decide +kernel, by decide +kernel, first, second, third, turns.trans (by decide +kernel), one, zero, ?_⟩
  exact rotates (by decide +kernel) t' v [800, 1200] ⟨start, t', first, rfl, rfl, rfl⟩ run

end Reflex.Nvme
