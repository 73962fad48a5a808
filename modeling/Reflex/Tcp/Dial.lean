import Reflex.Tcp.Handles

/-!
# Opening a connection

`bsys_tcp_connect` of `net/tcp_api.c` with everything it acquires on the way: a local port from the counter of the core,
a flow-director rule, a control block, an object of the library and its place in the handle table, the binding and the
queued SYN. What the device and the pools answer is an argument. On an error the function aborts the control block,
which is taken from a list it may not be on yet, and reports the abort to the object.

The process ends (`faulted`) where a null pointer or an error code is followed as a pointer, where an assertion fails
and in `panic`.
-/

namespace Reflex.Tcp
open Lib

def portsPerCpu : Nat := 65536 / 32

/-- A control block of an outgoing connection; `live` until the application closes it. -/
structure OutPcb where
  id : Nat
  localPort : Nat
  dstIp : Nat
  dstPort : Nat
  live : Bool
deriving DecidableEq, Repr

/-- A core: its handle table and events, its port counter, the objects in use of its pools, its flow group's lists of
control blocks and the rules it has set at the device. -/
structure Dialer where
  core : Core
  localPort : Nat
  pcbPool : List Nat
  apiPool : List Nat
  idPool : List Nat
  bound : List OutPcb
  active : List OutPcb
  rules : List (Nat × Nat × Nat)

/-- What the device and the pools answer, whether an accepted connection of the flow group has the port, and whether the
SYN could be queued. -/
structure Answers where
  fdirSupported : Bool
  fdirAdded : Bool
  pcb : Option Nat
  api : Option Nat
  occupied : Bool
  queued : Bool
deriving Repr

/-- The counter of `get_local_port_and_set_queue`, of 16 bits. -/
def nextPort (cpu localPort : Nat) : Nat :=
  ((if localPort = 0 then cpu * portsPerCpu % 2 ^ 16 else localPort) + 1) % 2 ^ 16

namespace Dialer

variable (s : Dialer)

def fault : Dialer := { s with core := { s.core with faulted := true } }

/-- The check of `tcp_bind`, over the lists of the core's own flow group. -/
def portInUse (port : Nat) (occupied : Bool) : Bool :=
  occupied || s.active.any (·.localPort == port) || s.bound.any (·.localPort == port)

/-- `tcp_abandon` of a block that is not in TIME-WAIT: it is unlinked, freed, and `arg` is told. -/
def tcpAbandon (pcb : Nat) (arg : Option Nat) : Dialer :=
  if s.bound.any (·.id == pcb) || s.active.any (·.id == pcb) then
    let freed := { s with
      bound := s.bound.filter (·.id != pcb)
      active := s.active.filter (·.id != pcb)
      pcbPool := s.pcbPool.erase pcb }
    match arg with
    | none => freed
    | some api => { freed with core := freed.core.onErr api }
  else s.fault

/-- `tcp_bind` and `tcp_connect`, once the object has its handle. -/
def bindAndConnect (pcb api dstIp dstPort : Nat) (answers : Answers) : Int × Dialer :=
  if s.localPort = 0 then (0, s.fault)
  else if s.portInUse s.localPort answers.occupied then (-retNomem, s.tcpAbandon pcb (some api))
  else
    let new : OutPcb := ⟨pcb, s.localPort, dstIp, dstPort, true⟩
    if answers.queued then ((s.core.apis api).handle, { s with active := new :: s.active })
    else (-retNomem, tcpAbandon { s with bound := new :: s.bound } pcb (some api))

/-- The part of `bsys_tcp_connect` after the rule is set. -/
def openConnection (cpu dstIp dstPort cookie : Nat) (answers : Answers) : Int × Dialer :=
  match answers.pcb with
  | none => (0, s.fault)
  | some pcb =>
    let s := { s with pcbPool := pcb :: s.pcbPool }
    match answers.api with
    | none => (-retNomem, s.tcpAbandon pcb none)
    | some api =>
      let t := s.core.tcpapiToHandle cpu api
      let s := { s with apiPool := api :: s.apiPool, core := t.2.setApi api (dialed cookie t.1) }
      if t.2.faulted then (0, s) else s.bindAndConnect pcb api dstIp dstPort answers

/-- `bsys_tcp_connect`, on core `cpu`; the flow group is that of the core. -/
def bsysTcpConnect (cpu dstIp dstPort cookie : Nat) (answers : Answers) : Int × Dialer :=
  let s := { s with
    core := { s.core with syscallCookie := cookie }
    localPort := nextPort cpu s.localPort }
  if answers.fdirSupported then
    if answers.fdirAdded then
      openConnection { s with rules := (dstIp, dstPort, s.localPort) :: s.rules } cpu dstIp dstPort cookie answers
    else (0, s.fault)
  else openConnection s cpu dstIp dstPort cookie answers

def Failed (r : Int × Dialer) : Prop := r.1 < 0 ∨ r.2.core.faulted = true

/-- A call that returns an error and leaves the handle table, the pools and the events as they were. -/
structure Traceless (s : Dialer) (r : Int × Dialer) : Prop where
  running : r.2.core.faulted = false
  negative : r.1 < 0
  handles : r.2.core.handle2pcb = s.core.handle2pcb
  pcbs : r.2.pcbPool = s.pcbPool
  apis : r.2.apiPool = s.apiPool
  ids : r.2.idPool = s.idPool
  events : r.2.core.usys = s.core.usys

/-- Nothing that the attempt asks for is refused. -/
structure Unrefused (s : Dialer) (cpu : Nat) (answers : Answers) : Prop where
  rule : answers.fdirSupported = true → answers.fdirAdded = true
  pcb : answers.pcb ≠ none
  api : answers.api ≠ none
  place : ∃ i < maxPcbs, s.core.handle2pcb i = none
  port : nextPort cpu s.localPort ≠ 0
  free : s.portInUse (nextPort cpu s.localPort) answers.occupied = false
  queued : answers.queued = true

/-- The pools hand out blocks that are not in use, and every block on a list is in use. -/
structure Sound (s : Dialer) (answers : Answers) : Prop where
  running : s.core.faulted = false
  fresh : ∀ pcb, answers.pcb = some pcb → pcb ∉ s.pcbPool
  bound : ∀ p ∈ s.bound, p.id ∈ s.pcbPool
  active : ∀ p ∈ s.active, p.id ∈ s.pcbPool

variable {s : Dialer} {cpu dstIp dstPort cookie pcb api : Nat} {answers : Answers}

theorem tcpAbandon_unlinked (bound : ∀ p ∈ s.bound, p.id ≠ pcb) (active : ∀ p ∈ s.active, p.id ≠ pcb) (arg : Option Nat) :
    s.tcpAbandon pcb arg = s.fault := by
  have none : (s.bound.any (·.id == pcb) || s.active.any (·.id == pcb)) = false := by
    rw [Bool.or_eq_false_iff, List.any_eq_false, List.any_eq_false]
    exact ⟨fun p here => by simpa using bound p here, fun p here => by simpa using active p here⟩
  rw [tcpAbandon, none]
  rfl

theorem not_traceless_of_faulted {r : Int × Dialer} (faulted : r.2.core.faulted = true) : ¬ Traceless s r := by
  intro traceless
  rw [traceless.running] at faulted
  cases faulted

theorem tcpapiToHandle_vacant {core : Core} (place : ∃ i < maxPcbs, core.handle2pcb i = none) (fg api : Nat) :
    ∃ i, core.handle2pcb i = none ∧ core.tcpapiToHandle fg api =
      (i + fg * 2 ^ 48, { core with handle2pcb := Function.update core.handle2pcb i (some api) }) := by
  unfold Core.tcpapiToHandle
  cases found : search (fun i => (core.handle2pcb i).isNone) maxPcbs with
  | none =>
    obtain ⟨j, below, vacant⟩ := place
    have never := search_none found below
    rw [vacant] at never
    cases never
  | some i => exact ⟨i, Option.isNone_iff_eq_none.1 (search_some found).1, rfl⟩

/-- The state in which `tcp_bind` is called: the object has its place. -/
def placed (s : Dialer) (cpu cookie pcb api i : Nat) : Dialer :=
  { s with
    pcbPool := pcb :: s.pcbPool
    apiPool := api :: s.apiPool
    core := Core.setApi { s.core with handle2pcb := Function.update s.core.handle2pcb i (some api) } api
      (dialed cookie (i + cpu * 2 ^ 48)) }

theorem openConnection_placed (running : s.core.faulted = false) (given : answers.pcb = some pcb) (object : answers.api = some api)
    (place : ∃ i < maxPcbs, s.core.handle2pcb i = none) :
    ∃ i, s.core.handle2pcb i = none ∧ s.openConnection cpu dstIp dstPort cookie answers =
      (s.placed cpu cookie pcb api i).bindAndConnect pcb api dstIp dstPort answers := by
  obtain ⟨i, empty, handed⟩ := tcpapiToHandle_vacant place cpu api
  refine ⟨i, empty, ?_⟩
  simp only [openConnection, given, object, handed, running, Bool.false_eq_true, if_false, placed]

theorem bindAndConnect_granted (port : s.localPort ≠ 0) (free : s.portInUse s.localPort answers.occupied = false)
    (queued : answers.queued = true) : s.bindAndConnect pcb api dstIp dstPort answers =
      (((s.core.apis api).handle : Int), { s with active := ⟨pcb, s.localPort, dstIp, dstPort, true⟩ :: s.active }) := by
  simp [bindAndConnect, port, free, queued]

/-- A refusal by `tcp_bind` ends the process; one by `tcp_connect` is reported to the object, which keeps its place. -/
theorem bindAndConnect_refused (bound : ∀ p ∈ s.bound, p.id ≠ pcb) (active : ∀ p ∈ s.active, p.id ≠ pcb)
    (refused : ¬ (s.localPort ≠ 0 ∧ s.portInUse s.localPort answers.occupied = false ∧ answers.queued = true)) :
    (s.bindAndConnect pcb api dstIp dstPort answers).2.core.faulted = true ∨
      ((s.bindAndConnect pcb api dstIp dstPort answers).1 < 0 ∧
        (s.bindAndConnect pcb api dstIp dstPort answers).2.core.handle2pcb = s.core.handle2pcb) := by
  by_cases port : s.localPort = 0
  · left
    simp [bindAndConnect, port, fault]
  · cases free : s.portInUse s.localPort answers.occupied with
    | true =>
      left
      simp only [bindAndConnect, if_neg port, free, if_true]
      rw [tcpAbandon_unlinked bound active]
      rfl
    | false =>
      have queued : answers.queued = false := by
        cases flag : answers.queued with
        | false => rfl
        | true => exact absurd ⟨port, free, flag⟩ refused
      right
      simp only [bindAndConnect, if_neg port, free, queued, Bool.false_eq_true, if_false]
      refine ⟨by decide, ?_⟩
      simp [tcpAbandon, Core.onErr, Core.markDead, Core.setApi, Core.post]

theorem openConnection_traceless_iff {t : Dialer} (sound : Sound s answers) (handles : s.core.handle2pcb = t.core.handle2pcb) :
    (Failed (s.openConnection cpu dstIp dstPort cookie answers) → Traceless t (s.openConnection cpu dstIp dstPort cookie answers)) ↔
      answers.pcb ≠ none ∧ answers.api ≠ none ∧ (∃ i < maxPcbs, s.core.handle2pcb i = none) ∧ s.localPort ≠ 0 ∧
        s.portInUse s.localPort answers.occupied = false ∧ answers.queued = true := by
  cases given : answers.pcb with
  | none =>
    have whole : s.openConnection cpu dstIp dstPort cookie answers = (0, s.fault) := by simp only [openConnection, given]
    rw [whole]
    constructor
    · intro promise
      exact absurd (promise (.inr rfl)) (not_traceless_of_faulted rfl)
    · rintro ⟨none, -⟩
      exact absurd rfl none
  | some pcb =>
    have fresh := sound.fresh pcb given
    have bound : ∀ p ∈ s.bound, p.id ≠ pcb := by
      rintro p here rfl
      exact fresh (sound.bound p here)
    have active : ∀ p ∈ s.active, p.id ≠ pcb := by
      rintro p here rfl
      exact fresh (sound.active p here)
    cases object : answers.api with
    | none =>
      have whole : s.openConnection cpu dstIp dstPort cookie answers =
          (-retNomem, fault { s with pcbPool := pcb :: s.pcbPool }) := by
        simp only [openConnection, given, object]
        rw [tcpAbandon_unlinked (s := { s with pcbPool := pcb :: s.pcbPool }) bound active]
      rw [whole]
      constructor
      · intro promise
        exact absurd (promise (.inr rfl)) (not_traceless_of_faulted rfl)
      · rintro ⟨-, none, -⟩
        exact absurd rfl none
    | some api =>
      by_cases place : ∃ i < maxPcbs, s.core.handle2pcb i = none
      · -- the object has its place; what is left is the binding and the SYN
        obtain ⟨i, empty, whole⟩ := openConnection_placed sound.running given object place
        rw [whole]
        let u := s.placed cpu cookie pcb api i
        constructor
        · intro promise
          by_contra refused
          have denied : ¬ (u.localPort ≠ 0 ∧ u.portInUse u.localPort answers.occupied = false ∧ answers.queued = true) :=
            fun granted => refused ⟨by simp, by simp, place, granted⟩
          rcases bindAndConnect_refused (s := u) bound active denied with faulted | ⟨negative, kept⟩
          · exact not_traceless_of_faulted faulted (promise (.inr faulted))
          · -- the place stays taken
            have same := (promise (.inl negative)).handles
            rw [kept, ← handles] at same
            have taken := congrFun same i
            rw [empty] at taken
            simp [u, placed, Core.setApi] at taken
        · rintro ⟨-, -, -, port, free, queued⟩ failed
          rw [bindAndConnect_granted (s := u) port free queued] at failed
          rcases failed with negative | faulted
          · exact absurd negative (not_lt.2 (Int.natCast_nonneg _))
          · rw [show u.core.faulted = s.core.faulted from rfl, sound.running] at faulted
            cases faulted
      · have full : s.core.tcpapiToHandle cpu api = (0, { s.core with faulted := true }) := by
          unfold Core.tcpapiToHandle
          cases found : search (fun i => (s.core.handle2pcb i).isNone) maxPcbs with
          | none => rfl
          | some k =>
            obtain ⟨vacant, below⟩ := search_some found
            exact absurd ⟨k, below, Option.isNone_iff_eq_none.1 vacant⟩ place
        have faulted : (s.openConnection cpu dstIp dstPort cookie answers).2.core.faulted = true := by
          simp [openConnection, given, object, full, Core.setApi]
        constructor
        · intro promise
          exact absurd (promise (.inr faulted)) (not_traceless_of_faulted faulted)
        · rintro ⟨-, -, there, -⟩
          exact absurd there place

/-- A failed attempt to connect leaves no trace exactly when there is no failure: each refusal on the way either ends
the process or leaves the object, its handle and an event behind. -/
theorem failed_connect_traceless_iff (sound : Sound s answers) :
    (Failed (s.bsysTcpConnect cpu dstIp dstPort cookie answers) → Traceless s (s.bsysTcpConnect cpu dstIp dstPort cookie answers)) ↔
      Unrefused s cpu answers := by
  have later : ∀ rules, Sound { s with
      core := { s.core with syscallCookie := cookie }, localPort := nextPort cpu s.localPort, rules := rules } answers :=
    fun _ => ⟨sound.running, sound.fresh, sound.bound, sound.active⟩
  have split : Unrefused s cpu answers ↔ (answers.fdirSupported = true → answers.fdirAdded = true) ∧ answers.pcb ≠ none ∧
      answers.api ≠ none ∧ (∃ i < maxPcbs, s.core.handle2pcb i = none) ∧ nextPort cpu s.localPort ≠ 0 ∧
        s.portInUse (nextPort cpu s.localPort) answers.occupied = false ∧ answers.queued = true := by
    constructor
    · rintro ⟨rule, pcb, api, place, port, free, queued⟩
      exact ⟨rule, pcb, api, place, port, free, queued⟩
    · rintro ⟨rule, pcb, api, place, port, free, queued⟩
      exact ⟨rule, pcb, api, place, port, free, queued⟩
  rw [split]
  cases supported : answers.fdirSupported with
  | false =>
    have whole : s.bsysTcpConnect cpu dstIp dstPort cookie answers = openConnection { s with
        core := { s.core with syscallCookie := cookie }, localPort := nextPort cpu s.localPort } cpu dstIp dstPort cookie answers := by
      simp only [bsysTcpConnect, supported, Bool.false_eq_true, if_false]
    rw [whole, openConnection_traceless_iff (t := s) (later s.rules) rfl]
    simp only [Bool.false_eq_true, false_implies, true_and]
    exact Iff.rfl
  | true =>
    cases added : answers.fdirAdded with
    | false =>
      have faulted : (s.bsysTcpConnect cpu dstIp dstPort cookie answers).2.core.faulted = true := by
        simp [bsysTcpConnect, supported, added, fault]
      constructor
      · intro promise
        exact absurd (promise (.inr faulted)) (not_traceless_of_faulted faulted)
      · rintro ⟨rule, -⟩
        cases rule rfl
    | true =>
      have whole : s.bsysTcpConnect cpu dstIp dstPort cookie answers = openConnection { s with
          core := { s.core with syscallCookie := cookie }, localPort := nextPort cpu s.localPort
          rules := (dstIp, dstPort, nextPort cpu s.localPort) :: s.rules } cpu dstIp dstPort cookie answers := by
        simp only [bsysTcpConnect, supported, added, if_true]
      rw [whole, openConnection_traceless_iff (t := s) (later _) rfl]
      simp only [forall_const, true_and]
      exact Iff.rfl

def idle : Dialer where
  core := ⟨fun _ => dialed 0 0, fun _ => none, 0, [], false⟩
  localPort := 0
  pcbPool := []
  apiPool := []
  idPool := []
  bound := []
  active := []
  rules := []

def granted : Answers := ⟨false, false, some 0, some 0, false, true⟩

theorem idle_sound (answers : Answers) : Sound idle answers :=
  ⟨rfl, fun _ _ => List.not_mem_nil, fun _ here => absurd here List.not_mem_nil, fun _ here => absurd here List.not_mem_nil⟩

theorem first_connect_unrefused : Unrefused idle 0 granted ∧
    (Failed (idle.bsysTcpConnect 0 7 80 5 granted) → Traceless idle (idle.bsysTcpConnect 0 7 80 5 granted)) := by
  have unrefused : Unrefused idle 0 granted :=
    ⟨fun flag => (by cases flag), by simp [granted], by simp [granted], ⟨0, by decide, rfl⟩, by decide, by decide, rfl⟩
  exact ⟨unrefused, (failed_connect_traceless_iff (idle_sound granted)).2 unrefused⟩

/-- The SYN cannot be queued: the call returns an error, but the object keeps its place in the handle table and the
application is told that the connection died. -/
theorem refused_connect_leaves_trace : ∃ answers : Answers,
    (idle.bsysTcpConnect 0 7 80 5 answers).1 = -retNomem ∧
    (idle.bsysTcpConnect 0 7 80 5 answers).2.core.usys = [.dead 0 5] ∧
    (idle.bsysTcpConnect 0 7 80 5 answers).2.apiPool = [0] ∧
    (idle.bsysTcpConnect 0 7 80 5 answers).2.core.handle2pcb 0 = some 0 ∧
    ¬ (Failed (idle.bsysTcpConnect 0 7 80 5 answers) → Traceless idle (idle.bsysTcpConnect 0 7 80 5 answers)) := by
  let short : Answers := { granted with queued := false }
  have negative : (idle.bsysTcpConnect 0 7 80 5 short).1 < 0 := by decide
  refine ⟨short, by decide, by decide, by decide, by decide, fun promise => ?_⟩
  have same := congrFun (promise (.inl negative)).handles 0
  revert same
  decide

end Dialer

end Reflex.Tcp
