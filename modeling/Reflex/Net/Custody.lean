import Reflex.Net.Pending

/-!
# Every buffer is somewhere, and in order

The two results about packets that wait for an address.
-/

namespace Reflex.Net
open Lib

namespace Stack

variable {cfg : Config} {s : Stack} {d : Nat}

/-- The entry of `d` does not die in a step. -/
def Lives (d : Nat) (s : Stack) : NetStep → Prop
  | .timer a => a = d → ∀ e, s.entries d = some e → e.retries + 1 < arpMaxAttempts
  | _ => True

theorem Kept.next (kept : Kept cfg s.runlists 0 s) {step : NetStep} (valid : Valid cfg s step) (supplied : Supplied cfg s step) :
    Kept cfg (s.next cfg step).runlists 0 (s.next cfg step) ∧ (Lives d s step → Ordered d s → Ordered d (s.next cfg step)) := by
  cases step with
  | output cpu dst mbuf len alloc =>
    obtain ⟨after, order⟩ := kept.output valid supplied
    exact ⟨after, fun _ => order⟩
  | arp ip mac target multicast alloc malloc =>
    obtain ⟨after, order⟩ := kept.arp supplied
    exact ⟨after, fun _ => order⟩
  | bookkeeping cpu alloc =>
    obtain ⟨after, -, order⟩ := kept.bookkeeping alloc cpu
    exact ⟨after, fun _ => order⟩
  | timer addr =>
    have lists : (s.next cfg (.timer addr)).runlists = s.runlists := by
      simp only [Stack.next, arpTimerHandler]
      split
      · rfl
      · split <;> rfl
    rw [lists]
    exact kept.timer valid
  | expire addr =>
    have lists : (s.next cfg (.expire addr)).runlists = s.runlists := by
      simp only [Stack.next, timerExpires]
      split <;> rfl
    obtain ⟨after, order⟩ := kept.expires (a := addr) (d := d)
    rw [lists]
    exact ⟨after, fun _ => order⟩

theorem Kept.accounted (kept : Kept cfg s.runlists 0 s) : Accounted s where
  __ := kept
  buffers := by simpa using kept.buffers
  linked p inside := by
    have member := (kept.pooled p).1 inside
    obtain ⟨e, there, -⟩ := mem_pending_iff.1 member
    refine ⟨member, ?_⟩
    rw [pending_some there]
    exact (kept.entry _ e there).nodup
  ready p inside resolved := by
    obtain ⟨e, there, flag⟩ := resolved
    have member := (kept.pooled p).1 inside
    rw [pending_some there] at member
    have runs := kept.runs (s.pkts p).cpu (s.pkts p).dstAddr
    rw [ready_some there, if_pos flag] at runs
    have here : (s.runlists (s.pkts p).cpu).count p =
        ((s.runlists (s.pkts p).cpu).filter fun q => decide ((s.pkts q).dstAddr = (s.pkts p).dstAddr)).count p :=
      (List.count_filter (by simp)).symm
    rw [here, runs, List.count_reverse, List.count_filter (by simp)]
    exact List.count_eq_one_of_mem (kept.entry _ e there).nodup member
  runners c p inside := ⟨kept.runner_pool inside, (kept.of_runner inside).2⟩

/-- What becomes of the packets that wait in `s`: an address that answers is resolved, so that its packets are on the run
lists; the bookkeeping of a core gives the buffers of its runners to the NIC, each once; and an entry that dies frees its
own. -/
structure Discharges (cfg : Config) (s : Stack) : Prop where
  resolves : ∀ a e mac target alloc malloc, s.entries a = some e → e.static = false →
    let t := s.next cfg (.arp a mac target false alloc malloc)
    t.Resolved a ∧ t.pool = s.pool ∧ t.nic = s.nic ∧ t.freed = s.freed
  sends : ∀ c alloc,
    let t := s.next cfg (.bookkeeping c alloc)
    t.nic.map (·.mbuf) = s.nic.map (·.mbuf) ++ (s.runlists c).map (fun p => (s.pkts p).mbuf) ∧
      t.pool = s.pool.diff (s.runlists c) ∧ t.freed = s.freed
  dies : ∀ a e, s.entries a = some e → arpMaxAttempts ≤ e.retries + 1 →
    let t := s.next cfg (.timer a)
    t.nic = s.nic ∧ t.pool = s.pool.filter (fun p => (s.pkts p).dstAddr ≠ a) ∧
      t.freed = (s.pending a).map (fun p => (s.pkts p).mbuf) ++ s.freed

theorem Kept.discharges (kept : Kept cfg s.runlists 0 s) : Discharges cfg s where
  resolves a e mac target alloc malloc there free := by
    let f : ArpEntry := { e with mac := mac, valid := true, resolving := false, retries := 0, timerPending := true }
    have result : s.next cfg (.arp a mac target false alloc malloc) = e.pendingPkts.foldl (dispatch cfg malloc) (s.setEntry a f) := by
      simp [f, Stack.next, Stack.arpInput, arpUpdateMac, arpLookup, there, free]
    obtain ⟨entries, pool, nic, freed⟩ := @foldl_dispatch_keeps cfg malloc e.pendingPkts (s.setEntry a f)
    rw [result]
    refine ⟨⟨f, ?_, rfl⟩, pool, nic, freed⟩
    rw [entries]
    exact Function.update_self ..
  sends c alloc := by
    obtain ⟨-, remains, -⟩ := kept.bookkeeping (d := 0) alloc c
    exact ⟨remains.nic, remains.pool, remains.freed⟩
  dies a e there last := by
    have result : s.next cfg (.timer a) = { s with
        entries := Function.update s.entries a none
        pool := s.pool.filter (· ∉ e.pendingPkts)
        freed := e.pendingPkts.map (fun p => (s.pkts p).mbuf) ++ s.freed } := by
      simp only [Stack.next, arpTimerHandler, there, if_pos last]
    rw [result, pending_some there]
    refine ⟨rfl, List.filter_congr fun p inside => ?_, rfl⟩
    -- an object in use is on the list of its own entry
    have listed := (kept.pooled p).1 inside
    rw [decide_eq_decide, not_iff_not]
    constructor
    · exact fun member => ((kept.entry a e there).pkt p member).1
    · intro mine
      rwa [mine, pending_some there] at listed

/-- In every run in which the pools have what is asked for, each buffer passed to `ip_send_one` is at the NIC, with a
packet on a pending list or freed, and nowhere twice; and what waits goes to the NIC or is freed. -/
theorem buffers_are_accounted_for {s₀ : Stack} (quiet : Quiet s₀) {steps : List NetStep}
    (run : Run (Guarded (Applies (Stack.next cfg) (Valid cfg)) (Supplied cfg)) s₀ steps s) : Accounted s ∧ Discharges cfg s := by
  have kept : Kept cfg s.runlists 0 s := by
    refine run.invariant (I := fun s => Kept cfg s.runlists 0 s) ?_ (.start quiet)
    rintro s step t ⟨⟨valid, rfl⟩, supplied⟩ kept
    exact (kept.next (d := 0) valid supplied).1
  exact ⟨kept.accounted, kept.discharges⟩

def blankStack : Stack where
  entries _ := none
  pkts _ := ⟨0, 0, 0, 0, false⟩
  pool := []
  runlists _ := []
  nic := []
  queued := []
  passed := []
  freed := []
  arpLocked := false
  faulted := false

theorem blankStack_quiet : Quiet blankStack where
  entries _ _ there := by cases there
  pool := rfl
  runlists _ := rfl
  nic := rfl
  queued := rfl
  passed := rfl
  freed := rfl
  unlocked := rfl
  running := rfl

/-- A host with one core on a network of 256 addresses. -/
def oneCore : Config := ⟨256, 1, 2, 1⟩

/-- Two packets wait for address 7, which is then resolved twice before the core does its bookkeeping. -/
def twoWait : List NetStep :=
  [.output 0 7 100 60 ⟨true, some 0⟩, .output 0 7 101 61 ⟨true, some 1⟩, .arp 7 9 1 false true fun _ => true,
    .arp 7 9 1 false true fun _ => true]

theorem twoWait_run : Run (Guarded (Applies (Stack.next oneCore) (Valid oneCore)) fun s step => Supplied oneCore s step ∧ Lives 7 s step)
    blankStack twoWait (twoWait.foldl (Stack.next oneCore) blankStack) := by
  refine .cons ⟨⟨⟨by decide, ?_⟩, rfl⟩, .inr ⟨fun _ => rfl, by simp⟩, trivial⟩ (.cons ⟨⟨⟨by decide, ?_⟩, rfl⟩, .inr ⟨fun _ => rfl, by simp⟩, trivial⟩
    (.cons ⟨⟨trivial, rfl⟩, .inr ⟨fun _ _ => rfl, fun _ _ _ _ => rfl⟩, trivial⟩
      (.cons ⟨⟨trivial, rfl⟩, .inr ⟨fun _ _ => rfl, fun _ _ _ _ => rfl⟩, trivial⟩ (.nil _))))
  · rintro p same
    cases same
    decide
  · rintro p same
    cases same
    decide

/-- The core sends the two packets; the third is for an address that is asked for in vain until its entry dies. -/
def oneDies : List NetStep :=
  [.bookkeeping 0 fun _ => ⟨true, none⟩, .output 0 8 102 62 ⟨true, some 0⟩, .timer 8, .output 0 8 103 63 ⟨true, some 1⟩, .timer 8,
    .output 0 8 104 64 ⟨true, some 2⟩, .timer 8]

theorem oneDies_run : Run (Guarded (Applies (Stack.next oneCore) (Valid oneCore)) (Supplied oneCore))
    (twoWait.foldl (Stack.next oneCore) blankStack) oneDies ((twoWait ++ oneDies).foldl (Stack.next oneCore) blankStack) := by
  rw [List.foldl_append]
  refine .cons ⟨⟨(by decide : 0 < 1), rfl⟩, trivial⟩ (.cons ⟨⟨⟨by decide, ?_⟩, rfl⟩, .inr ⟨fun _ => rfl, by simp⟩⟩
    (.cons ⟨⟨⟨_, rfl, rfl⟩, rfl⟩, trivial⟩ (.cons ⟨⟨⟨by decide, ?_⟩, rfl⟩, .inr ⟨fun _ => rfl, by simp⟩⟩
      (.cons ⟨⟨⟨_, rfl, rfl⟩, rfl⟩, trivial⟩ (.cons ⟨⟨⟨by decide, ?_⟩, rfl⟩, .inr ⟨fun _ => rfl, by simp⟩⟩
        (.cons ⟨⟨⟨_, rfl, rfl⟩, rfl⟩, trivial⟩ (.nil _)))))))
  all_goals
    rintro p same
    cases same
    decide

/-- Of five packets two are sent and three are freed. -/
theorem waiting_packets_accounted : ∃ s, Run (Guarded (Applies (Stack.next oneCore) (Valid oneCore)) (Supplied oneCore)) blankStack
      (twoWait ++ oneDies) s ∧
    s.passed.length = 5 ∧ s.nic.map (·.mbuf) = [100, 101] ∧ s.freed = [104, 103, 102] ∧ s.pool = [] ∧ Accounted s ∧ Discharges oneCore s := by
  have first : Run (Guarded (Applies (Stack.next oneCore) (Valid oneCore)) (Supplied oneCore)) blankStack twoWait
      (twoWait.foldl (Stack.next oneCore) blankStack) := by
    have whole : Run (Guarded (Applies (Stack.next oneCore) (Valid oneCore)) (Supplied oneCore)) blankStack (twoWait.map id) _ :=
      twoWait_run.map (f := id) fun _ _ _ step => ⟨step.1, step.2.1⟩
    rwa [List.map_id] at whole
  have run := first.append oneDies_run
  exact ⟨_, run, by decide, by decide, by decide, by decide, buffers_are_accounted_for blankStack_quiet run⟩

/-- One packet when the pool has no object for it: `ip_send_one` returns 0, so that the caller keeps the buffer for
sent, and the buffer is in no place. -/
theorem refused_packet_leaks : ∃ s, Run (Applies (Stack.next oneCore) (Valid oneCore)) blankStack [.output 0 7 100 60 ⟨true, none⟩] s ∧
    (ipSendOne oneCore blankStack 0 7 100 60 false ⟨true, none⟩).1 = 0 ∧
    100 ∈ s.passed ∧ s.nic = [] ∧ s.pool = [] ∧ s.freed = [] ∧ ¬ Accounted s := by
  refine ⟨_, .single ⟨⟨by decide, fun p same => by cases same⟩, rfl⟩, by decide, by decide, by decide, by decide, by decide, ?_⟩
  intro accounted
  have balance := congrArg Multiset.card accounted.buffers
  revert balance
  decide

/-- The packets that a core has queued for a hop: those sent so far are the first of them, in order and each once; and
once the hop is resolved and the core has done its bookkeeping, all of them are sent. -/
theorem queued_packets_keep_order {s₀ : Stack} (quiet : Quiet s₀) {steps : List NetStep}
    (run : Run (Guarded (Applies (Stack.next cfg) (Valid cfg)) fun s step => Supplied cfg s step ∧ Lives d s step) s₀ steps s)
    (c : Nat) :
    s.lateFor c d <+: s.queuedFor c d ∧
      (s.Resolved d → ∀ alloc, (s.next cfg (.bookkeeping c alloc)).lateFor c d = s.queuedFor c d) := by
  have invariant : Kept cfg s.runlists 0 s ∧ Ordered d s := by
    refine run.invariant (I := fun s => Kept cfg s.runlists 0 s ∧ Ordered d s) ?_ ⟨.start quiet, .start quiet⟩
    rintro s step t ⟨⟨valid, rfl⟩, supplied, lives⟩ ⟨kept, ordered⟩
    obtain ⟨after, order⟩ := kept.next (d := d) valid supplied
    exact ⟨after, order lives ordered⟩
  obtain ⟨kept, ordered⟩ := invariant
  refine ⟨⟨_, (ordered c).symm⟩, fun resolved alloc => ?_⟩
  obtain ⟨after, remains, order⟩ := kept.bookkeeping (d := d) alloc c
  let t := s.cpuDoBookkeeping cfg alloc c
  have balance : t.queuedFor c d = t.lateFor c d ++ t.waitingFor c d := order ordered c
  have queued : t.queuedFor c d = s.queuedFor c d := by
    have same : t.queued = s.queued := remains.queued
    rw [queuedFor, queuedFor, same]
  obtain ⟨e, there, flag⟩ : t.Resolved d := remains.resolved d resolved
  have none : t.waitingFor c d = [] := by
    have left : t.runlists c = [] := by
      rw [remains.runlists]
      exact Function.update_self ..
    have runs := after.runs c d
    rw [left, List.filter_nil, ready_some there, if_pos flag] at runs
    rw [waitingFor, pending_some there, oldestFirst, ← runs, List.map_nil]
  rw [none, List.append_nil, queued] at balance
  exact balance.symm

/-- The two packets of the run are sent in order although the address was resolved twice. -/
theorem two_waiting_packets_in_order : ∃ s, Run (Guarded (Applies (Stack.next oneCore) (Valid oneCore))
      fun s step => Supplied oneCore s step ∧ Lives 7 s step) blankStack twoWait s ∧ s.Resolved 7 ∧
    (s.next oneCore (.bookkeeping 0 fun _ => ⟨true, none⟩)).lateFor 0 7 = [(100, 60), (101, 61)] := by
  have resolved : (twoWait.foldl (Stack.next oneCore) blankStack).Resolved 7 := ⟨_, rfl, rfl⟩
  refine ⟨_, twoWait_run, resolved, ?_⟩
  rw [(queued_packets_keep_order blankStack_quiet twoWait_run 0).2 resolved]
  decide

end Stack

end Reflex.Net
