import Mathlib.Data.Finset.Card
import Mathlib.Data.List.Nodup
import Reflex.Tcp.Dial

/-!
# The local ports of outgoing connections

Each core counts its local ports up from the start of a range of its own, but nothing stops the counter at the
end of the range, and `tcp_bind` looks only at the flow group of its own core.
-/

namespace Reflex.Tcp
open Lib List Function Dialer

/-- The calls on the cores. A closed connection keeps its control block until it is gone. -/
inductive DialStep where
  | connect (cpu dstIp dstPort cookie : Nat) (answers : Answers)
  | close (cpu pcb : Nat)
  | gone (cpu pcb : Nat)

namespace Dialer

def close (s : Dialer) (pcb : Nat) : Dialer :=
  { s with active := s.active.map fun p => if p.id = pcb then { p with live := false } else p }

def gone (s : Dialer) (pcb : Nat) : Dialer :=
  { s with active := s.active.filter (·.id != pcb), pcbPool := s.pcbPool.erase pcb }

end Dialer

abbrev Cores := Nat → Dialer

namespace Cores

def next (s : Cores) : DialStep → Cores
  | .connect cpu dstIp dstPort cookie answers =>
    Function.update s cpu ((s cpu).bsysTcpConnect cpu dstIp dstPort cookie answers).2
  | .close cpu pcb => Function.update s cpu ((s cpu).close pcb)
  | .gone cpu pcb => Function.update s cpu ((s cpu).gone pcb)

/-- There are `n` cores and the process runs; the pools hand out blocks that are not in use. -/
def Valid (n : Nat) (s : Cores) : DialStep → Prop
  | .connect cpu _ _ _ answers => cpu < n ∧ (∀ c < n, (s c).core.faulted = false) ∧ ∀ pcb, answers.pcb = some pcb → pcb ∉ (s cpu).pcbPool
  | .close cpu _ => cpu < n
  | .gone cpu _ => cpu < n

def boot : Cores := fun _ => Dialer.idle

/-- The counter of a core that connects has not reached the end of the core's range. -/
def InRange (s : Cores) : DialStep → Prop
  | .connect cpu .. => (s cpu).localPort < (cpu + 1) * portsPerCpu
  | _ => True

/-- Two live connections to the same destination with the same port are one connection. -/
def Apart (n : Nat) (s : Cores) : Prop :=
  ∀ c < n, ∀ d < n, ∀ (i j : Nat) (p q : OutPcb), (s c).active[i]? = some p → (s d).active[j]? = some q → p.live = true → q.live = true →
    p.dstIp = q.dstIp → p.dstPort = q.dstPort → p.localPort = q.localPort → c = d ∧ i = j

end Cores

namespace Dialer

variable {s : Dialer} {cpu dstIp dstPort cookie pcb api : Nat} {answers : Answers}

/-- The ports of a core lie in its range and are distinct. -/
structure Ranged (cpu : Nat) (s : Dialer) : Prop where
  counter : s.localPort = 0 ∨ cpu * portsPerCpu < s.localPort
  range : ∀ p ∈ s.active, cpu * portsPerCpu < p.localPort ∧ p.localPort ≤ (cpu + 1) * portsPerCpu
  distinct : (s.active.map (·.localPort)).Nodup

/-- What a call does to the list of connections: at most one comes to it, with a port that none of them has. -/
def Joins (port : Nat) (before after : List OutPcb) : Prop :=
  after.Sublist before ∨ ∃ new : OutPcb, after = new :: before ∧ new.localPort = port ∧ port ≠ 0 ∧ ∀ p ∈ before, p.localPort ≠ port

theorem tcpAbandon_active (pcb : Nat) (arg : Option Nat) :
    (s.tcpAbandon pcb arg).active.Sublist s.active ∧ (s.tcpAbandon pcb arg).localPort = s.localPort := by
  unfold tcpAbandon
  split
  · cases arg <;> exact ⟨filter_sublist, rfl⟩
  · exact ⟨List.Sublist.refl _, rfl⟩

theorem bindAndConnect_joins :
    Joins s.localPort s.active (s.bindAndConnect pcb api dstIp dstPort answers).2.active ∧
      (s.bindAndConnect pcb api dstIp dstPort answers).2.localPort = s.localPort := by
  unfold bindAndConnect
  split
  · exact ⟨.inl (List.Sublist.refl _), rfl⟩
  · rename_i port
    cases used : s.portInUse s.localPort answers.occupied with
    | true => exact ⟨.inl (tcpAbandon_active pcb (some api)).1, (tcpAbandon_active pcb (some api)).2⟩
    | false =>
      cases answers.queued with
      | true =>
        refine ⟨.inr ⟨_, rfl, rfl, port, fun p here same => ?_⟩, rfl⟩
        simp only [portInUse, Bool.or_eq_false_iff, any_eq_false] at used
        exact used.1.2 p here (by simpa using same)
      | false =>
        refine ⟨.inl ?_, ?_⟩
        · exact (tcpAbandon_active (s := { s with bound := ⟨pcb, s.localPort, dstIp, dstPort, true⟩ :: s.bound }) pcb (some api)).1
        · exact (tcpAbandon_active (s := { s with bound := ⟨pcb, s.localPort, dstIp, dstPort, true⟩ :: s.bound }) pcb (some api)).2

theorem openConnection_joins :
    Joins s.localPort s.active (s.openConnection cpu dstIp dstPort cookie answers).2.active ∧
      (s.openConnection cpu dstIp dstPort cookie answers).2.localPort = s.localPort := by
  unfold openConnection
  cases answers.pcb with
  | none => exact ⟨.inl (List.Sublist.refl _), rfl⟩
  | some pcb =>
    cases answers.api with
    | none =>
      obtain ⟨sub, same⟩ := tcpAbandon_active (s := { s with pcbPool := pcb :: s.pcbPool }) pcb none
      exact ⟨.inl sub, same⟩
    | some api =>
      simp only
      split
      · exact ⟨.inl (List.Sublist.refl _), rfl⟩
      · exact bindAndConnect_joins (s := { s with
          pcbPool := pcb :: s.pcbPool, apiPool := api :: s.apiPool
          core := (s.core.tcpapiToHandle cpu api).2.setApi api (dialed cookie (s.core.tcpapiToHandle cpu api).1) })

/-- The effect of `bsys_tcp_connect` on the ports. -/
theorem bsysTcpConnect_joins :
    Joins (nextPort cpu s.localPort) s.active (s.bsysTcpConnect cpu dstIp dstPort cookie answers).2.active ∧
      (s.bsysTcpConnect cpu dstIp dstPort cookie answers).2.localPort = nextPort cpu s.localPort := by
  unfold bsysTcpConnect
  cases answers.fdirSupported with
  | false => exact openConnection_joins (s := { s with
      core := { s.core with syscallCookie := cookie }, localPort := nextPort cpu s.localPort })
  | true =>
    cases answers.fdirAdded with
    | false => exact ⟨.inl (List.Sublist.refl _), rfl⟩
    | true => exact openConnection_joins (s := { s with
        core := { s.core with syscallCookie := cookie }, localPort := nextPort cpu s.localPort
        rules := (dstIp, dstPort, nextPort cpu s.localPort) :: s.rules })

theorem nextPort_range {localPort} (core : cpu < 32) (counter : localPort = 0 ∨ cpu * portsPerCpu < localPort)
    (inRange : localPort < (cpu + 1) * portsPerCpu) :
    nextPort cpu localPort = 0 ∨ (cpu * portsPerCpu < nextPort cpu localPort ∧ nextPort cpu localPort ≤ (cpu + 1) * portsPerCpu) := by
  unfold nextPort
  unfold portsPerCpu at *
  rcases counter with rfl | above
  · rw [if_pos rfl]
    omega
  · rw [if_neg (by omega)]
    omega

theorem Ranged.sublist (ranged : Ranged cpu s) {t : Dialer} (counter : t.localPort = 0 ∨ cpu * portsPerCpu < t.localPort)
    (sub : t.active.Sublist s.active) : Ranged cpu t :=
  ⟨counter, fun p here => ranged.range p (sub.subset here), (sub.map _).nodup ranged.distinct⟩

theorem Ranged.connect (ranged : Ranged cpu s) (core : cpu < 32) (inRange : s.localPort < (cpu + 1) * portsPerCpu) :
    Ranged cpu (s.bsysTcpConnect cpu dstIp dstPort cookie answers).2 := by
  obtain ⟨joins, counter⟩ : Joins (nextPort cpu s.localPort) s.active (s.bsysTcpConnect cpu dstIp dstPort cookie answers).2.active ∧
      (s.bsysTcpConnect cpu dstIp dstPort cookie answers).2.localPort = nextPort cpu s.localPort := bsysTcpConnect_joins
  have range := nextPort_range core ranged.counter inRange
  have counted : (s.bsysTcpConnect cpu dstIp dstPort cookie answers).2.localPort = 0 ∨
      cpu * portsPerCpu < (s.bsysTcpConnect cpu dstIp dstPort cookie answers).2.localPort := by
    rw [counter]
    exact range.imp id And.left
  rcases joins with sub | ⟨new, whole, port, nonzero, fresh⟩
  · exact ranged.sublist counted sub
  · refine ⟨counted, fun p here => ?_, ?_⟩
    · rw [whole] at here
      rcases mem_cons.1 here with rfl | old
      · rw [port]
        exact range.resolve_left nonzero
      · exact ranged.range p old
    · rw [whole, map_cons, nodup_cons, port]
      refine ⟨fun inside => ?_, ranged.distinct⟩
      obtain ⟨p, here, same⟩ := mem_map.1 inside
      exact fresh p here same

theorem Ranged.close (ranged : Ranged cpu s) (pcb : Nat) : Ranged cpu (s.close pcb) := by
  have ports : (s.close pcb).active.map (·.localPort) = s.active.map (·.localPort) := by
    rw [Dialer.close, map_map]
    refine map_congr_left fun p _ => ?_
    simp only [comp_apply]
    split <;> rfl
  refine ⟨ranged.counter, fun p here => ?_, by rw [ports]; exact ranged.distinct⟩
  have inside : p.localPort ∈ (s.close pcb).active.map (·.localPort) := mem_map_of_mem here
  rw [ports] at inside
  obtain ⟨q, there, same⟩ := mem_map.1 inside
  rw [← same]
  exact ranged.range q there

end Dialer

namespace Cores

variable {n : Nat} {s : Cores}

theorem next_ranged (few : n ≤ 32) (ranged : ∀ c < n, Dialer.Ranged c (s c)) {step} (valid : s.Valid n step)
    (inRange : s.InRange step) (c : Nat) (core : c < n) : Dialer.Ranged c (s.next step c) := by
  have one : ∀ cpu t, (c = cpu → Dialer.Ranged c t) → Dialer.Ranged c (update s cpu t c) := by
    intro cpu t mine
    by_cases same : c = cpu
    · subst same
      rw [update_self]
      exact mine rfl
    · rw [update_of_ne same]
      exact ranged c core
  cases step with
  | connect cpu dstIp dstPort cookie answers =>
    refine one _ _ ?_
    rintro rfl
    exact (ranged c core).connect (by omega) inRange
  | close cpu pcb =>
    refine one _ _ ?_
    rintro rfl
    exact (ranged c core).close pcb
  | gone cpu pcb =>
    refine one _ _ ?_
    rintro rfl
    exact (ranged c core).sublist (ranged c core).counter filter_sublist

theorem apart_of_ranged (ranged : ∀ c < n, Dialer.Ranged c (s c)) : s.Apart n := by
  intro c core d other i j p q here there _ _ _ _ same
  obtain ⟨lower, upper⟩ := (ranged c core).range p (List.mem_of_getElem? here)
  obtain ⟨lower', upper'⟩ := (ranged d other).range q (List.mem_of_getElem? there)
  have cores : c = d := by
    unfold portsPerCpu at *
    omega
  subst cores
  refine ⟨rfl, ?_⟩
  have distinct := (ranged c core).distinct
  obtain ⟨bound, -⟩ := List.getElem?_eq_some_iff.1 here
  refine (List.getElem?_inj ?_ distinct).1 ?_
  · simpa using bound
  · rw [List.getElem?_map, List.getElem?_map, here, there, Option.map_some, Option.map_some, same]

/-- On up to 32 cores, as long as each core connects only while its counter is in the core's range, two live connections
to one destination never have the same local port. -/
theorem ports_stay_apart (few : n ≤ 32) {steps : List DialStep} (run : Run (Guarded (Applies next (Valid n)) InRange) boot steps s) :
    s.Apart n := by
  refine apart_of_ranged ?_
  refine run.invariant (I := fun s => ∀ c < n, Dialer.Ranged c (s c)) ?_ ?_
  · rintro s step t ⟨⟨valid, rfl⟩, inRange⟩ ranged c core
    exact next_ranged few ranged valid inRange c core
  · intro c _
    exact ⟨.inl rfl, fun p here => absurd here List.not_mem_nil, List.nodup_nil⟩

/-- One connection on each of two cores. -/
theorem two_cores_apart : ∃ s, Run (Guarded (Applies next (Valid 2)) InRange) boot
      [.connect 0 7 80 1 Dialer.granted, .connect 1 7 80 1 Dialer.granted] s ∧
    (s 0).active.map (·.localPort) = [1] ∧ (s 1).active.map (·.localPort) = [2049] ∧ s.Apart 2 := by
  have run : Run (Guarded (Applies next (Valid 2)) InRange) boot
      [.connect 0 7 80 1 Dialer.granted, .connect 1 7 80 1 Dialer.granted]
      (next (next boot (.connect 0 7 80 1 Dialer.granted)) (.connect 1 7 80 1 Dialer.granted)) := by
    refine .cons ⟨⟨⟨by decide, by decide, ?_⟩, rfl⟩, ?_⟩ (.single ⟨⟨⟨by decide, by decide, ?_⟩, rfl⟩, ?_⟩)
    · rintro pcb same
      cases same
      decide
    · show _ < _
      decide
    · rintro pcb same
      cases same
      decide
    · show _ < _
      decide
  exact ⟨_, run, by decide, by decide, ports_stay_apart (by decide) run⟩

/-! ## Beyond the range -/

/-- A core that has dialled `k` times and has no connection left: at most `k` places of its handle table are taken. -/
structure Dialled (k : Nat) (s : Dialer) : Prop where
  running : s.core.faulted = false
  counter : s.localPort = k
  active : s.active = []
  bound : s.bound = []
  pool : s.pcbPool = []
  taken : ∃ places : List Nat, places.length ≤ k ∧ ∀ i, s.core.handle2pcb i ≠ none → i ∈ places

theorem Dialled.place {k s} (dialled : Dialled k s) (room : k < maxPcbs) :
    ∃ i < maxPcbs, s.core.handle2pcb i = none := by
  obtain ⟨places, short, cover⟩ := dialled.taken
  by_contra full
  have sub : Finset.range maxPcbs ⊆ places.toFinset := by
    intro i below
    refine mem_toFinset.2 (cover i fun vacant => full ⟨i, Finset.mem_range.1 below, vacant⟩)
  have cards := Finset.card_le_card sub
  rw [Finset.card_range] at cards
  have lists := toFinset_card_le places
  omega

theorem Dialled.connect {k s} (dialled : Dialled k s) (room : k < maxPcbs) (below : k + 1 < 2 ^ 16) :
    (s.bsysTcpConnect 0 7 80 1 granted).2.active = [⟨0, k + 1, 7, 80, true⟩] ∧
      Dialled (k + 1) ((s.bsysTcpConnect 0 7 80 1 granted).2.gone 0) := by
  have port : nextPort 0 s.localPort = k + 1 := by
    rw [dialled.counter, nextPort, Nat.zero_mul, Nat.zero_mod]
    by_cases first : k = 0
    · subst first
      rfl
    · rw [if_neg first, Nat.mod_eq_of_lt below]
  let dialling : Dialer := { s with core := { s.core with syscallCookie := 1 }, localPort := nextPort 0 s.localPort }
  obtain ⟨i, -, whole⟩ : ∃ i, _ ∧ dialling.openConnection 0 7 80 1 granted = _ :=
    openConnection_placed dialled.running rfl rfl (dialled.place room)
  let u := dialling.placed 0 1 0 0 i
  have start : s.bsysTcpConnect 0 7 80 1 granted = dialling.openConnection 0 7 80 1 granted := rfl
  have nonzero : u.localPort ≠ 0 := by
    show nextPort 0 s.localPort ≠ 0
    omega
  have free : u.portInUse u.localPort granted.occupied = false := by
    simp [portInUse, u, dialling, placed, dialled.active, dialled.bound, granted]
  rw [start, whole, bindAndConnect_granted nonzero free rfl]
  refine ⟨?_, dialled.running, port, ?_, dialled.bound, ?_, ?_⟩
  · simp [u, dialling, placed, port, dialled.active]
  · simp [gone, u, dialling, placed, dialled.active]
  · simp [gone, u, dialling, placed, dialled.pool]
  · obtain ⟨places, short, cover⟩ := dialled.taken
    refine ⟨i :: places, by simpa using short, fun j taken => ?_⟩
    by_cases same : j = i
    · exact mem_cons.2 (.inl same)
    · refine mem_cons_of_mem _ (cover j fun vacant => taken ?_)
      show update s.core.handle2pcb i (some 0) j = none
      rw [update_of_ne same, vacant]

/-- Core 0 dials `k` times, each time after the last connection is gone. -/
theorem dialled_run {k} (below : k ≤ 2048) : ∃ steps s, Run (Applies next (Valid 2)) boot steps s ∧
    Dialled k (s 0) ∧ s 1 = idle := by
  induction k with
  | zero => exact ⟨[], boot, .nil _, ⟨rfl, rfl, rfl, rfl, rfl, [], Nat.le_refl _, fun _ taken => absurd rfl taken⟩, rfl⟩
  | succ k ih =>
    obtain ⟨steps, s, run, dialled, idle⟩ := ih (by omega)
    obtain ⟨-, again⟩ := dialled.connect (show k < 512 * 1024 by omega) (by omega)
    have running : ∀ c < 2, (s c).core.faulted = false := by
      intro c core
      obtain rfl | rfl : c = 0 ∨ c = 1 := by omega
      · exact dialled.running
      · rw [idle]
        rfl
    have valid : s.Valid 2 (.connect 0 7 80 1 granted) := by
      refine ⟨by decide, running, fun pcb _ => ?_⟩
      rw [dialled.pool]
      exact not_mem_nil
    let t := s.next (.connect 0 7 80 1 granted)
    have gone : t.Valid 2 (.gone 0 0) := show 0 < 2 by decide
    refine ⟨steps ++ [.connect 0 7 80 1 granted, .gone 0 0], t.next (.gone 0 0),
      run.append (.cons ⟨valid, rfl⟩ (.single ⟨gone, rfl⟩)), ?_, ?_⟩
    · simpa [t, next] using again
    · simpa [t, next] using idle

/-- The 2049th connection of core 0 has the port of the first connection of core 1. -/
theorem ports_collide_beyond_range : ∃ steps s, Run (Applies next (Valid 2)) boot steps s ∧ ¬ s.Apart 2 := by
  obtain ⟨steps, s, run, dialled, idle⟩ := dialled_run (Nat.le_refl 2048)
  obtain ⟨zero, once⟩ := dialled.connect (show 2048 < 512 * 1024 by decide) (by decide)
  let t := s.next (.connect 0 7 80 1 Dialer.granted)
  let u := t.next (.connect 1 7 80 1 Dialer.granted)
  have first : (t 0).active = [⟨0, 2049, 7, 80, true⟩] := by simpa [t, next] using zero
  have other : t 1 = Dialer.idle := by simpa [t, next] using idle
  have runs : (t 0).core.faulted = false := by simpa [t, next, Dialer.gone] using once.running
  have valid : s.Valid 2 (.connect 0 7 80 1 Dialer.granted) := by
    refine ⟨by decide, fun c core => ?_, fun pcb _ => ?_⟩
    · obtain rfl | rfl : c = 0 ∨ c = 1 := by omega
      · exact dialled.running
      · rw [idle]
        rfl
    · rw [dialled.pool]
      exact List.not_mem_nil
  have valid' : t.Valid 2 (.connect 1 7 80 1 Dialer.granted) := by
    refine ⟨by decide, fun c core => ?_, fun pcb _ => ?_⟩
    · obtain rfl | rfl : c = 0 ∨ c = 1 := by omega
      · exact runs
      · rw [other]
        rfl
    · rw [other]
      exact List.not_mem_nil
  refine ⟨_, u, run.append (.cons ⟨valid, rfl⟩ (.single ⟨valid', rfl⟩)), fun apart => ?_⟩
  have here : (u 0).active[0]? = some ⟨0, 2049, 7, 80, true⟩ := by
    have same : u 0 = t 0 := by simp [u, next]
    rw [same, first]
    rfl
  have there : (u 1).active[0]? = some ⟨0, 2049, 7, 80, true⟩ := by
    have same : u 1 = (Dialer.idle.bsysTcpConnect 1 7 80 1 Dialer.granted).2 := by simp [u, next, other]
    rw [same]
    decide
  exact absurd (apart 0 (by decide) 1 (by decide) 0 0 _ _ here there rfl rfl rfl rfl rfl).1 (by decide)

end Cores

end Reflex.Tcp
