import Reflex.Nvme.Ownership
import Reflex.Thread.Dialogue
import Reflex.Thread.Fatal
import Reflex.Thread.Lifetimes

/-!
# Every message is answered once

The messages of a connection are the requests and registrations in its log.
-/

namespace Reflex.Thread
open Lib Server Function List Loop Turn ServerEvent

variable {e : Event} {s : Loop} {q : Ask} {rest : List Event} {m : Machine}

/-! ## Messages -/

/-- A request as it was handed over; the device fills the pages of a read later. -/
def handed (req : NvmeReq) : NvmeReq := if req.opcode = cmdGet then { req with buf := fun _ _ => 0 } else req

theorem handed_filled (req : NvmeReq) (buf : Nat → Nat → UInt8) : handed (req.filled buf) = handed req := by
  unfold handed NvmeReq.filled
  by_cases get : req.opcode = cmdGet
  · simp only [get, if_true]
  · simp only [get, if_false]

inductive Ask where
  | reg
  | io (req : NvmeReq)

def ServerEvent.ask : ServerEvent → Option Ask
  | .registerFlow _ _ _ _ => some .reg
  | .readv _ _ req | .writev _ _ req => some (.io (handed req))
  | .slot _ | .fill _ => none

def Ksys.ask (a : UInt64) : Ksys → Option Ask
  | .nvmeRegisterFlow _ b _ => if b = a then some .reg else none
  | .nvmeWritev _ _ _ b req | .nvmeReadv _ _ _ b req => if b = a then some (.io (handed req)) else none
  | .tcpAccept _ _ | .tcpReject _ | .tcpSendv _ | .tcpRecvDone _ | .tcpClose _ | .nvmeUnregisterFlow _ => none

def deviceAsk (a : UInt64) (x : UInt64 × NvmeReq) : Option Ask := if x.1 = a then some (.io (handed x.2)) else none

def Event.ask (a : UInt64) : Event → Option Ask
  | .nvmeRegisteredFlow _ b => if b = a then some .reg else none
  | .nvmeDone b req _ => if b = a then some (.io (handed req)) else none
  | .tcpKnock _ _ | .tcpRecv _ _ | .tcpSent _ _ | .tcpDead _ | .nvmeUnregisteredFlow _ => none

def Outgoing.ask : Outgoing → Ask
  | .response req => .io (handed req)
  | .reply _ _ => .reg

/-- The messages that the connection has taken in. -/
def Conn.asks (x : Conn) : Multiset Ask := (x.pp.log.filterMap ServerEvent.ask : List Ask)

/-- Those in the batch, at the device and among the events. -/
def flight (a : UInt64) (karr : List Ksys) (device : List (UInt64 × NvmeReq)) (events : List Event) : Multiset Ask :=
  (karr.filterMap (Ksys.ask a) : List Ask) + (device.filterMap (deviceAsk a) : List Ask) + (events.filterMap (Event.ask a) : List Ask)

/-- Those whose outcome is not decided: no return value or completion has been handled. -/
def Loop.underWay (s : Loop) (a : UInt64) : Multiset Ask := flight a s.karr s.device s.events

/-! ## The condition -/

def Ksys.Granted (m : Machine) (s : Loop) (args : CallArgs) : Ksys → Prop
  | .nvmeRegisterFlow flowGroupId cookie slo => s.nvme.Grants m.cfg m.cpu (Int64.ofInt flowGroupId) cookie slo args.swq
  | .tcpAccept _ _ | .tcpReject _ | .tcpSendv _ | .tcpRecvDone _ | .tcpClose _ | .nvmeWritev _ _ _ _ _ | .nvmeReadv _ _ _ _ _
  | .nvmeUnregisterFlow _ => True

/-- A reply goes out at once and between two responses. -/
def Event.RepliesAtOnce (s : Loop) (args : EventArgs) : Event → Prop
  | .nvmeRegisteredFlow _ a => (s.conns a).isDead = false ∧ (s.conns a).pp.txPending = false ∧ (s.conns a).pp.txSent = 0 ∧
      accepts headerSize args.send.accepts = true
  | .tcpKnock _ _ | .tcpRecv _ _ | .tcpSent _ _ | .tcpDead _ | .nvmeUnregisteredFlow _ | .nvmeDone _ _ _ => True

/-- Nothing is refused, replies go out at once, and connections are closed when they are settled. -/
structure Loop.Obliges (m : Machine) (s : Loop) (op : Op) : Prop where
  settles : s.Settles m op
  calls : ∀ args k rest, op = .call args → s.karr = k :: rest → k.Supplied m s args ∧ k.Granted m s args
  replies : ∀ args e rest, op = .event args → s.events = e :: rest → e.RepliesAtOnce s args

/-! ## Where the messages are -/

section UnderWay

variable {m : Machine} {s t : Loop} {a : UInt64} {k : Ksys} {args : CallArgs}
  {karr : List Ksys} {device : List (UInt64 × NvmeReq)} {events : List Event}

theorem coe_filterMap_one {α β : Type} (f : α → Option β) (x : α) : ([x].filterMap f : Multiset β) = ((f x).toList : Multiset β) := by
  rw [coe_filterMap_cons]
  exact add_zero _

theorem flight_call (a : UInt64) (k : Ksys) :
    flight a (k :: karr) device events = ((k.ask a).toList : Multiset Ask) + flight a karr device events := by
  rw [flight, coe_filterMap_cons, flight]
  abel

theorem flight_event (a : UInt64) (e : Event) :
    flight a karr device (e :: events) = ((e.ask a).toList : Multiset Ask) + flight a karr device events := by
  rw [flight, coe_filterMap_cons, flight]
  abel

theorem flight_calls (a : UInt64) (more : List Ksys) :
    flight a (karr ++ more) device events = (more.filterMap (Ksys.ask a) : List Ask) + flight a karr device events := by
  rw [flight, filterMap_append, ← Multiset.coe_add, flight]
  abel

theorem flight_events (a : UInt64) (more : List Event) :
    flight a karr device (events ++ more) = (more.filterMap (Event.ask a) : List Ask) + flight a karr device events := by
  rw [flight, filterMap_append, ← Multiset.coe_add, flight]
  abel

theorem flight_device (a : UInt64) (more : List (UInt64 × NvmeReq)) :
    flight a karr (device ++ more) events = (more.filterMap (deviceAsk a) : List Ask) + flight a karr device events := by
  rw [flight, filterMap_append, ← Multiset.coe_add, flight]
  abel

theorem flight_finish {i b req} (found : device[i]? = some (b, req)) (buf : Nat → Nat → UInt8) (a : UInt64) :
    flight a karr (device.eraseIdx i) (events ++ [.nvmeDone b req buf]) = flight a karr device events := by
  obtain ⟨inside, here⟩ := List.getElem?_eq_some_iff.1 found
  have parted : device.Perm ((b, req) :: device.eraseIdx i) := by
    rw [← here]
    exact (List.getElem_cons_eraseIdx_perm inside).symm
  have asks : (device.filterMap (deviceAsk a) : Multiset Ask) = _ := Multiset.coe_eq_coe.2 (parted.filterMap (deviceAsk a))
  have same : Event.ask a (.nvmeDone b req buf) = deviceAsk a (b, req) := rfl
  rw [flight_events, coe_filterMap_cons, same, flight, flight, asks, coe_filterMap_cons, List.filterMap_nil, Multiset.coe_nil]
  abel

theorem Ksys.claim_of_ask (asks : k.ask a = some q) : k.claim = some (.user a) := by
  cases k with
  | nvmeRegisterFlow | nvmeWritev | nvmeReadv =>
    simp only [Ksys.ask, Option.ite_none_right_eq_some] at asks
    rw [← asks.1]
    rfl
  | tcpAccept | tcpReject | tcpSendv | tcpRecvDone | tcpClose | nvmeUnregisterFlow => cases asks

theorem Event.claim_of_ask (asks : e.ask a = some q) : e.claim = some (.user a) := by
  cases e with
  | nvmeRegisteredFlow | nvmeDone =>
    simp only [Event.ask, Option.ite_none_right_eq_some] at asks
    rw [← asks.1]
    rfl
  | tcpKnock | tcpRecv | tcpSent | tcpDead | nvmeUnregisteredFlow => cases asks

theorem Loop.user_of_underWay (member : q ∈ s.underWay a) : Claim.user a ∈ s.claims := by
  apply mem_tally.2
  rcases Multiset.mem_add.1 member with early | late
  · rcases Multiset.mem_add.1 early with call | device
    · obtain ⟨k, there, asks⟩ := mem_filterMap.1 (Multiset.mem_coe.1 call)
      exact .inl ⟨k, there, Ksys.claim_of_ask asks⟩
    · obtain ⟨x, there, asks⟩ := mem_filterMap.1 (Multiset.mem_coe.1 device)
      simp only [deviceAsk, Option.ite_none_right_eq_some] at asks
      obtain ⟨rfl, -⟩ := asks
      exact .inr (.inr (.inr ⟨x, there, rfl⟩))
  · obtain ⟨e, there, asks⟩ := mem_filterMap.1 (Multiset.mem_coe.1 late)
    exact .inr (.inl ⟨e, there, Event.claim_of_ask asks⟩)

/-! ## Calls -/

theorem Loop.call_conns (s : Loop) (m : Machine) (args : CallArgs) (k : Ksys) :
    (s.call m args k).conns = s.conns ∧ (s.call m args k).taken = s.taken := by
  cases k with
  | tcpReject handle => exact ⟨rfl, rfl⟩
  | tcpAccept | tcpSendv | tcpRecvDone | tcpClose =>
    simp only [call, tcpCall]
    split <;> exact ⟨rfl, rfl⟩
  | nvmeWritev | nvmeReadv | nvmeRegisterFlow | nvmeUnregisterFlow =>
    simp only [call, nvmeCall]
    split <;> exact ⟨rfl, rfl⟩

theorem silent_asks {before : List Event} (silent : ∀ e ∈ before, e.silent = true) (a : UInt64) : before.filterMap (Event.ask a) = [] := by
  refine filterMap_eq_nil_iff.2 fun e member => ?_
  cases e <;> cases silent _ member
  rfl

theorem Loop.underWay_nvmeCall (supplied : k.Supplied m s args) (granted : k.Granted m s args)
    (running : (s.nvmeCall m args k).mode ≠ .crashed) (a : UInt64) :
    (s.nvmeCall m args k).underWay a = ((k.ask a).toList : Multiset Ask) + s.underWay a := by
  cases ran : (k.ioOp m args).bind (Nvme.IoOp.run m.cfg s.nvme) with
  | none =>
    simp only [nvmeCall, ran] at running
    exact absurd rfl running
  | some result =>
    obtain ⟨ret, nvme⟩ := result
    have whole : (s.nvmeCall m args k).underWay a =
        flight a s.karr (if ret = 0 then s.device ++ k.request.toList else s.device) (s.events ++ posted m.cpu s.nvme nvme) := by
      simp only [nvmeCall, ran]
      rfl
    rw [whole, flight_events]
    obtain ⟨before, silent, ⟨post, others⟩ | ⟨id, b, slo, rfl, zero, post⟩⟩ := call_posted ran
    · have taken : flight a s.karr (if ret = 0 then s.device ++ k.request.toList else s.device) s.events =
          ((k.ask a).toList : Multiset Ask) + s.underWay a := by
        cases k with
        | nvmeRegisterFlow id b slo =>
          have grants := (Nvme.grants_iff m.cfg s.nvme m.cpu (Int64.ofInt id) b slo args.swq).2 granted
          have result : (ret, nvme) = Nvme.bsysNvmeRegisterFlow m.cfg s.nvme m.cpu (Int64.ofInt id) b slo args.swq := (Option.some.inj ran).symm
          rw [← result] at grants
          exact absurd grants (others id b slo rfl)
        | nvmeWritev fgHandle numSgls flow b req =>
          rw [if_pos (supplied.zero ran rfl), flight_device]
          exact congrArg (· + s.underWay a) (coe_filterMap_one (deviceAsk a) (b, req))
        | nvmeReadv fgHandle numSgls flow b req =>
          rw [if_pos (supplied.zero ran rfl), flight_device]
          exact congrArg (· + s.underWay a) (coe_filterMap_one (deviceAsk a) (b, req))
        | nvmeUnregisterFlow fgHandle =>
          have nothing : (if ret = 0 then s.device ++ (Ksys.nvmeUnregisterFlow fgHandle).request.toList else s.device) = s.device := by
            split_ifs
            · exact append_nil _
            · rfl
          rw [nothing]
          exact (zero_add _).symm
        | tcpAccept | tcpReject | tcpSendv | tcpRecvDone | tcpClose => cases ran
      rw [post, silent_asks silent, taken, Multiset.coe_nil, zero_add]
    · rw [post, filterMap_append, silent_asks silent, nil_append, if_pos zero]
      have nothing : s.device ++ (Ksys.nvmeRegisterFlow id b slo).request.toList = s.device := append_nil _
      rw [nothing]
      exact congrArg (· + s.underWay a) (coe_filterMap_one (Event.ask a) (.nvmeRegisteredFlow _ b))

theorem Loop.underWay_call (supplied : k.Supplied m s args) (granted : k.Granted m s args)
    (running : (s.call m args k).mode ≠ .crashed) (a : UInt64) :
    (s.call m args k).underWay a = ((k.ask a).toList : Multiset Ask) + s.underWay a := by
  cases k with
  | nvmeWritev | nvmeReadv | nvmeRegisterFlow | nvmeUnregisterFlow => exact underWay_nvmeCall supplied granted running a
  | tcpReject handle => exact (zero_add _).symm
  | tcpAccept handle cookie =>
    simp only [call, tcpCall] at running ⊢
    split at running
    · exact absurd rfl running
    · rename_i p found
      have early : (p.recvd.map (Event.tcpRecv cookie)).filterMap (Event.ask a) = [] := by
        refine filterMap_eq_nil_iff.2 fun e member => ?_
        obtain ⟨bytes, -, rfl⟩ := mem_map.1 member
        rfl
      have whole : flight a s.karr s.device (s.events ++ p.recvd.map (Event.tcpRecv cookie)) = _ := flight_events a _
      rw [early] at whole
      exact whole
  | tcpSendv | tcpRecvDone | tcpClose =>
    simp only [call, tcpCall] at running ⊢
    split at running
    · exact absurd rfl running
    · exact (zero_add _).symm

end UnderWay

/-! ## The invariant -/

/-- The messages that were requests, and those that were registrations. -/
def ios (reqs : List NvmeReq) : Multiset Ask := (reqs.map fun req => .io (handed req) : List Ask)

def regs (n : Nat) : Multiset Ask := Multiset.replicate n .reg

theorem ios_append (first second : List NvmeReq) : ios (first ++ second) = ios first + ios second := by
  rw [ios, map_append, ← Multiset.coe_add]
  rfl

theorem regs_add (n k : Nat) : regs (n + k) = regs n + regs k := Multiset.replicate_add n k _

/-- The messages of a connection: each is under way, or its request was completed, or it was replied to. -/
structure Loop.Talks (env : Env) (s : Loop) (a : UInt64) (sent : List Outgoing) (waiting : List NvmeReq) : Prop where
  whole : (s.conns a).session.Whole env sent waiting
  each : (s.conns a).asks = s.underWay a + ios (s.conns a).completed + regs (sent.countP Outgoing.isReply)
  fresh : ∀ req ∈ (s.conns a).pp.log.filterMap ServerEvent.request, req.Fresh

def Loop.Converses (m : Machine) (s : Loop) : Prop :=
  ∀ a, s.taken a = true → (s.conns a).pp.status = .established → ∃ sent waiting, s.Talks (m.env a) a sent waiting

section Steps

variable {env : Env} {t : Loop} {a b : UInt64} {sent sent' : List Outgoing} {waiting waiting' : List NvmeReq}

theorem Loop.Talks.pass (talks : s.Talks env a sent waiting) (pp : (t.conns a).pp = (s.conns a).pp)
    (completed : (t.conns a).completed = (s.conns a).completed) (same : t.underWay a = s.underWay a) : t.Talks env a sent waiting := by
  obtain ⟨whole, each, fresh⟩ := talks
  refine ⟨?_, ?_, ?_⟩
  · rw [Conn.session, pp, completed]
    exact whole
  · rw [Conn.asks, pp, completed, same]
    exact each
  · rw [pp]
    exact fresh

theorem Loop.Converses.pass (converses : s.Converses m) (taken : ∀ b, t.taken b = true → s.taken b = true)
    (pp : ∀ b, (t.conns b).pp = (s.conns b).pp) (completed : ∀ b, (t.conns b).completed = (s.conns b).completed)
    (same : ∀ b, t.underWay b = s.underWay b) : t.Converses m := by
  intro b here up
  rw [pp] at up
  obtain ⟨sent, waiting, talks⟩ := converses b (taken b here) up
  exact ⟨sent, waiting, talks.pass (pp b) (completed b) (same b)⟩

theorem Loop.Converses.keep (converses : s.Converses m) (taken : t.taken = s.taken) (conns : t.conns = s.conns)
    (same : ∀ b, t.underWay b = s.underWay b) : t.Converses m := by
  refine converses.pass (fun b here => ?_) (fun b => by rw [conns]) (fun b => by rw [conns]) same
  rwa [taken] at here

theorem Loop.Talks.fresh_of_underWay {req} (talks : s.Talks env a sent waiting)
    (member : Ask.io (handed req) ∈ s.underWay a) : req.Fresh := by
  have logged : Ask.io (handed req) ∈ (s.conns a).asks := by
    rw [talks.each]
    exact Multiset.mem_add.2 (.inl (Multiset.mem_add.2 (.inl member)))
  obtain ⟨e, there, asks⟩ := mem_filterMap.1 (Multiset.mem_coe.1 logged)
  have same : ∀ {r : NvmeReq}, handed r = handed req → r.Fresh → req.Fresh := by
    intro r eq fresh get
    have opcode : r.opcode = req.opcode := by
      have := congrArg NvmeReq.opcode eq
      unfold handed at this
      split_ifs at this <;> exact this
    have cursor : r.currentSglBuf = req.currentSglBuf := by
      have := congrArg NvmeReq.currentSglBuf eq
      unfold handed at this
      split_ifs at this <;> exact this
    rw [← cursor]
    exact fresh (opcode.trans get)
  cases e with
  | readv fgHandle numSgls r =>
    refine same ?_ (talks.fresh r (mem_filterMap.2 ⟨_, there, rfl⟩))
    exact Ask.io.inj (Option.some.inj asks)
  | writev fgHandle numSgls r =>
    refine same ?_ (talks.fresh r (mem_filterMap.2 ⟨_, there, rfl⟩))
    exact Ask.io.inj (Option.some.inj asks)
  | registerFlow | slot | fill => cases asks

/-! ## Callbacks -/

theorem Turn.Does.asks {t t' : Turn} {new more} (does : t.Does b new more t') :
    more.filterMap (Ksys.ask b) = new.filterMap ask ∧ ∀ a, a ≠ b → more.filterMap (Ksys.ask a) = [] := by
  have only : ∀ a, more.filterMap (Ksys.ask a) = (more.filter Ksys.asks).filterMap (Ksys.ask a) := by
    intro a
    rw [filterMap_filter]
    refine filterMap_congr fun k _ => ?_
    cases k <;> rfl
  have mine : ∀ e, (call b t.conn.pp.connFgHandle e).bind (Ksys.ask b) = ask e := by
    intro e
    cases e <;> first | rfl | exact if_pos rfl
  have others : ∀ a, a ≠ b → ∀ e, (call b t.conn.pp.connFgHandle e).bind (Ksys.ask a) = none := by
    intro a other e
    cases e <;> first | rfl | exact if_neg (Ne.symm other)
  refine ⟨?_, fun a other => ?_⟩
  · rw [only, does.asked, filterMap_filterMap]
    exact filterMap_congr fun e _ => mine e
  · rw [only, does.asked, filterMap_filterMap]
    exact filterMap_eq_nil_iff.2 fun e _ => others a other e

/-- A callback tells of its own connection and of no other. `done` and `replies` are what it has in hand. -/
theorem Loop.Converses.callback {kind f} (done : List NvmeReq) (replies : Nat)
    (others : ∀ a, a ≠ b → s.taken a = true → (s.conns a).pp.status = .established → ∃ sent waiting, s.Talks (m.env a) a sent waiting)
    (foreign : ∀ a, a ≠ b → (f ⟨s.conns b, []⟩).calls.filterMap (Ksys.ask a) = [])
    (told : (f ⟨s.conns b, []⟩).conn.pp.status = .established → ∃ new sent sent' waiting',
      (f ⟨s.conns b, []⟩).calls.filterMap (Ksys.ask b) = new.filterMap ask ∧
        (f ⟨s.conns b, []⟩).conn.pp.log = (s.conns b).pp.log ++ new ∧
        Told (m.env b) (s.conns b) (f ⟨s.conns b, []⟩).conn replies done sent sent' waiting' ∧
        (s.conns b).asks = s.underWay b + ios done + regs replies + ios (s.conns b).completed + regs (sent.countP Outgoing.isReply) ∧
        ∀ req ∈ (s.conns b).pp.log.filterMap request, req.Fresh) : (s.callback b kind f).Converses m := by
  have flight : ∀ a, (s.callback b kind f).underWay a = ((f ⟨s.conns b, []⟩).calls.filterMap (Ksys.ask a) : List Ask) + s.underWay a :=
    fun a => flight_calls a _
  intro a here up
  by_cases same : a = b
  · subst same
    have self : (s.callback a kind f).conns a = (f ⟨s.conns a, []⟩).conn := update_self _ _ _
    rw [self] at up
    obtain ⟨new, sent, sent', waiting', mine, log, told, each, fresh⟩ := told up
    refine ⟨sent', waiting', ?_, ?_, ?_⟩
    · rw [self]
      exact told.whole
    · have before : ((s.conns a).pp.log.filterMap ask : Multiset Ask) = _ := each
      rw [self, flight a, mine, Conn.asks, log, filterMap_append, ← Multiset.coe_add, before, told.completed, told.count,
        ios_append, regs_add]
      abel
    · rw [self, log, filterMap_append]
      have later := told.fresh
      rw [log, drop_left] at later
      exact forall_mem_append.2 ⟨fresh, later⟩
  · have other : (s.callback b kind f).conns a = s.conns a := update_of_ne same _ _
    rw [other] at up
    obtain ⟨sent, waiting, talks⟩ := others a same here up
    refine ⟨sent, waiting, talks.pass (by rw [other]) (by rw [other]) ?_⟩
    rw [flight a, foreign a same, Multiset.coe_nil, zero_add]

theorem Turn.ppMainHandler_hup_asks (env : Env) (generation : Nat) (b : UInt64) (send : Answers) (x : Conn) (a : UInt64) :
    (ppMainHandler env generation b send true ⟨x, []⟩).calls.filterMap (Ksys.ask a) = [] := by
  obtain ⟨entry, t', posts, does⟩ := sendPendingReqs_does (a := a) env generation send ⟨x, []⟩
  have calls : (sendPendingReqs env generation send ⟨x, []⟩).calls = _ := does.calls
  have none := does.asks.1
  simp only [ppMainHandler, if_true]
  split_ifs
  · rw [calls]
    exact none
  · rw [close, filterMap_append, filterMap_append, calls, nil_append, none]
    rfl

theorem Loop.Converses.mainHandler {send hup} (converses : s.Converses m) (safe : s.Safe m) (attached : s.leases.Attached b)
    (unrefused : (s.conns b).pp.status = .established → (s.conns b).Unrefused (m.env b) send) :
    (s.mainHandler m b send hup).Converses m := by
  unfold Loop.mainHandler
  split_ifs with up
  · obtain ⟨sent, waiting, talks⟩ := converses b attached.1 up
    have good := safe.good up
    cases hup with
    | false =>
      obtain ⟨new, more, does⟩ := ppMainHandler_does (m.env b) s.generation b send ⟨s.conns b, []⟩
      have calls : (ppMainHandler (m.env b) s.generation b send false ⟨s.conns b, []⟩).calls = more := does.calls
      obtain ⟨mine, foreign⟩ := does.asks
      refine Loop.Converses.callback [] 0 (fun a _ => converses a) (fun a other => by rw [calls, foreign a other]) fun still => ?_
      obtain ⟨sent', waiting', told⟩ := ppMainHandler_told good (unrefused up) talks.whole still
      refine ⟨new, sent, sent', waiting', by rw [calls, mine], does.log, told, ?_, talks.fresh⟩
      rw [talks.each]
      show _ = s.underWay b + 0 + 0 + _ + _
      rw [add_zero, add_zero]
    | true =>
      refine Loop.Converses.callback [] 0 (fun a _ => converses a)
        (fun a _ => ppMainHandler_hup_asks (m.env b) s.generation b send (s.conns b) a) fun still => ?_
      simp only [ppMainHandler, if_true] at still
      split_ifs at still with aborted
      · exact absurd (aborted.symm.trans still) Status.noConfusion
      · cases still
  · exact converses

/-! ## Events -/

theorem Loop.underWay_pop (events : s.events = e :: rest) (other : e.ask a = none) :
    underWay { s with events := rest } a = s.underWay a := by
  have counts : s.underWay a = flight a s.karr s.device (e :: rest) := by rw [underWay, events]
  rw [counts, flight_event, other]
  exact (zero_add _).symm

section

variable (converses : s.Converses m)
include converses

theorem Loop.Converses.knock {memory handle srcPort} (safe : s.Safe m)
    (offers : ∀ a, memory = some a → s.taken a = false) : (s.tcpKnock memory handle srcPort).Converses m := by
  cases memory with
  | none =>
    refine converses.pass (fun _ here => here) (fun _ => rfl) (fun _ => rfl) fun b => ?_
    exact (flight_calls b [.tcpReject handle]).trans (zero_add _)
  | some a =>
    have free := offers a rfl
    have flight : ∀ b, (s.tcpKnock (some a) handle srcPort).underWay b = s.underWay b :=
      fun b => (flight_calls b [.tcpAccept handle a]).trans (zero_add _)
    intro b here up
    by_cases same : b = a
    · subst same
      have self : (s.tcpKnock (some b) handle srcPort).conns b = accepted (s.conns b) handle srcPort := update_self _ _ _
      have nothing : s.underWay b = 0 := by
        -- a message under way would refer to memory that is in the pool
        refine Multiset.eq_zero_of_forall_notMem fun q member => ?_
        have user := safe.held.sound.holds (.user b) (Multiset.mem_add.2 (.inr (user_of_underWay member)))
        exact absurd (free.symm.trans user.1.1) Bool.false_ne_true
      refine ⟨[], [], ?_, ?_, ?_⟩
      · rw [self]
        exact Session.accept_whole (m.env b) _ srcPort
      · rw [self, flight b, nothing]
        rfl
      · rw [self]
        exact forall_mem_nil _
    · have other : (s.tcpKnock (some a) handle srcPort).conns b = s.conns b := update_of_ne same _ _
      have taken : s.taken b = true := by
        have := here
        change update s.taken a true b = true at this
        rwa [update_of_ne same] at this
      rw [other] at up
      obtain ⟨sent, waiting, talks⟩ := converses b taken up
      exact ⟨sent, waiting, talks.pass (by rw [other]) (by rw [other]) (flight b)⟩

theorem Loop.Converses.setConn {x : Conn} (pp : x.pp = (s.conns b).pp) (completed : x.completed = (s.conns b).completed) :
    (s.setConn b x).Converses m := by
  refine converses.pass (fun _ here => here) (fun a => ?_) (fun a => ?_) fun _ => rfl
  · show (update s.conns b x a).pp = _
    by_cases same : a = b
    · rw [same, update_self, pp]
    · rw [update_of_ne same]
  · show (update s.conns b x a).completed = _
    by_cases same : a = b
    · rw [same, update_self, completed]
    · rw [update_of_ne same]

theorem Loop.Converses.acknowledged {refs resend more t}
    (acknowledges : Loop.Safe.Acknowledges m s b refs resend more t) : (s.acknowledged b refs resend).Converses m := by
  obtain ⟨posts, result, -, -, -⟩ := acknowledges
  have noted : (s.setConn b t.conn).Converses m := by
    refine converses.setConn posts.pp ?_
    rw [posts.frame]
  have quiet : ∀ a, more.filterMap (Ksys.ask a) = [] := by
    intro a
    refine filterMap_eq_nil_iff.2 fun k member => ?_
    rcases posts.own k member with rfl | rfl <;> rfl
  rw [result]
  refine noted.pass (fun _ here => here) (fun _ => rfl) (fun _ => rfl) fun a => (flight_calls a more).trans ?_
  rw [quiet a]
  exact zero_add _

theorem Loop.Converses.finished (events : s.events = e :: rest)
    (alone : ∀ a, a ≠ b → e.ask a = none) :
    ∀ a, a ≠ b → s.taken a = true → (s.conns a).pp.status = .established → ∃ sent waiting, Loop.Talks (m.env a) { s with events := rest } a sent waiting := by
  intro a other here up
  obtain ⟨sent, waiting, talks⟩ := converses a here up
  exact ⟨sent, waiting, talks.pass rfl rfl (underWay_pop events (alone a other))⟩

/-- The handler runs for a connection after the event was noted in it. -/
theorem Loop.Converses.noted {x : Conn} {send hup} (safe : s.Safe m) (attached : s.leases.Attached b) (handle : x.handle = (s.conns b).handle)
    (pp : x.pp = (s.conns b).pp) (completed : x.completed = (s.conns b).completed)
    (unrefused : x.pp.status = .established → x.Unrefused (m.env b) send) : ((s.setConn b x).mainHandler m b send hup).Converses m := by
  refine (converses.setConn pp completed).mainHandler (safe.setConn attached handle pp) ?_ ?_
  · rw [leases_setConn handle (by rw [pp])]
    exact attached
  · simp only [Loop.setConn, update_self]
    exact unrefused

theorem Loop.Converses.event {args} (safe : s.Safe m)
    (events : s.events = e :: rest) (offers : s.Offers args) (settles : e.Settles m { s with events := rest } args)
    (replies : e.RepliesAtOnce s args) :
    (handleEvent m { s with events := rest } args e).Converses m := by
  have hand := safe.held.popEvent events
  have popped := safe.pop events
  -- with an event that carries no message the connections are as before
  have same : (∀ a, e.ask a = none) → Loop.Converses m { s with events := rest } := fun silent =>
    converses.pass (fun _ here => here) (fun _ => rfl) (fun _ => rfl) fun a => underWay_pop events (silent a)
  cases e with
  | tcpKnock handle srcPort => exact (same fun _ => rfl).knock popped fun a memory => (offers a memory).2
  | tcpRecv a bytes => exact (same fun _ => rfl).noted popped hand.holds rfl rfl rfl fun up => (settles up).1
  | tcpSent a refs =>
    have attached : s.leases.Attached a := hand.holds
    obtain ⟨more, t, acknowledges⟩ := popped.acknowledged (a := a) attached refs args.resend
    refine ((same fun _ => rfl).acknowledged acknowledges).mainHandler acknowledges.safe ?_ ?_
    · rw [acknowledges.leases]
      exact attached
    · have conn : (Loop.acknowledged { s with events := rest } a refs args.resend).conns a = t.conn := by
        rw [acknowledges.result]
        exact update_self _ _ _
      rw [conn, acknowledges.posts.frame]
      exact fun up => (settles up).1
  | tcpDead a =>
    by_cases null : a = 0
    · simp only [handleEvent, if_pos null]
      exact same fun _ => rfl
    · simp only [handleEvent, if_neg null]
      simp only [Event.claim, if_neg null] at hand
      exact (same fun _ => rfl).noted popped hand.holds rfl rfl rfl fun up => (settles up).1
  | nvmeRegisteredFlow fgHandle a =>
    obtain ⟨attached, isOpen⟩ : s.leases.Attached a ∧ s.leases.closed a = false := hand.holds
    have up : (s.conns a).pp.status = .established := popped.established attached isOpen
    obtain ⟨sent, waiting, talks⟩ := converses a attached.1 up
    obtain ⟨alive, idle, start, all⟩ := replies
    obtain ⟨entry, t', -, does⟩ := nvmeRegisteredFlowCb_does (a := a) s.generation args.send fgHandle ⟨s.conns a, []⟩
    obtain ⟨mine, foreign⟩ := does.asks
    refine Loop.Converses.callback (s := { s with events := rest }) [] 1 (converses.finished events fun b other => if_neg (Ne.symm other))
      (fun b other => (congrArg (filterMap (Ksys.ask b)) does.calls).trans (foreign b other)) fun still => ?_
    obtain ⟨sent', waiting', told⟩ := nvmeRegisteredFlowCb_told (safe.good up) talks.whole alive idle start all s.generation fgHandle
    refine ⟨[], sent, sent', waiting', (congrArg (filterMap (Ksys.ask a)) does.calls).trans mine, does.log, told, ?_, talks.fresh⟩
    have here : s.underWay a = regs 1 + underWay { s with events := rest } a := by
      have counts : s.underWay a = flight a s.karr s.device (.nvmeRegisteredFlow fgHandle a :: rest) := by rw [underWay, events]
      rw [counts, flight_event, Event.ask, if_pos rfl]
      rfl
    show (s.conns a).asks = _
    rw [talks.each, here]
    show _ = underWay { s with events := rest } a + 0 + regs 1 + ios (s.conns a).completed + regs (sent.countP Outgoing.isReply)
    abel
  | nvmeUnregisteredFlow fgHandle => exact same fun _ => rfl
  | nvmeDone a req buf =>
    obtain ⟨attached, isOpen⟩ : s.leases.Attached a ∧ s.leases.closed a = false := hand.holds
    have up : (s.conns a).pp.status = .established := popped.established attached isOpen
    obtain ⟨sent, waiting, talks⟩ := converses a attached.1 up
    have here : s.underWay a = ios [req] + underWay { s with events := rest } a := by
      have counts : s.underWay a = flight a s.karr s.device (.nvmeDone a req buf :: rest) := by rw [underWay, events]
      rw [counts, flight_event, Event.ask, if_pos rfl]
      rfl
    have fresh : req.Fresh := by
      apply talks.fresh_of_underWay
      rw [here]
      exact Multiset.mem_add.2 (.inl (Multiset.mem_singleton_self _))
    obtain ⟨more, does⟩ := nvmeDoneCb_does (a := a) (m.env a) s.generation args.send (req.filled buf) ⟨s.conns a, []⟩
    obtain ⟨mine, foreign⟩ := does.asks
    refine Loop.Converses.callback (s := { s with events := rest }) [req.filled buf] 0
      (converses.finished events fun b other => if_neg (Ne.symm other))
      (fun b other => (congrArg (filterMap (Ksys.ask b)) does.calls).trans (foreign b other)) fun still => ?_
    have told : ∃ sent' waiting', Told (m.env a) (s.conns a) (nvmeDoneCb (m.env a) s.generation args.send (req.filled buf) ⟨s.conns a, []⟩).conn 0
        [req.filled buf] sent sent' waiting' :=
      nvmeDoneCb_told (safe.good up) talks.whole fresh s.generation args.send
    obtain ⟨sent', waiting', told⟩ := told
    refine ⟨[], sent, sent', waiting', (congrArg (filterMap (Ksys.ask a)) does.calls).trans mine, does.log, told, ?_, talks.fresh⟩
    have done : ios [req.filled buf] = ios [req] := by rw [ios, map_singleton, handed_filled, ios, map_singleton]
    show (s.conns a).asks = _
    rw [talks.each, here, done]
    show _ = underWay { s with events := rest } a + ios [req] + 0 + ios (s.conns a).completed + regs (sent.countP Outgoing.isReply)
    abel

theorem Loop.Converses.ret {r} (running : (s.handleOneRet r).mode = .kernel ∨ (s.handleOneRet r).mode = .user) :
    (s.handleOneRet r).Converses m := by
  have crashed : ∀ {u : Loop}, ¬ (u.crash.mode = .kernel ∨ u.crash.mode = .user) := by
    rintro u (kernel | user)
    · cases kernel
    · cases user
  obtain ⟨call, cookie, ret⟩ := r
  cases call with
  | tcpSendv handle =>
    simp only [handleOneRet] at running ⊢
    split_ifs at running ⊢
    · exact absurd running crashed
    · exact converses.setConn rfl rfl
    · exact converses
  | tcpClose handle =>
    simp only [handleOneRet] at running ⊢
    split_ifs at running ⊢
    · exact converses
    · exact absurd running crashed
    · have noted : (s.setConn cookie { s.conns cookie with refs := [] }).Converses m := converses.setConn rfl rfl
      refine noted.pass (fun b here => ?_) (fun _ => rfl) (fun _ => rfl) fun _ => rfl
      change update s.taken cookie false b = true at here
      by_cases same : b = cookie
      · rw [same, update_self] at here
        cases here
      · rwa [update_of_ne same] at here
  | nvmeRegisterFlow | nvmeUnregisterFlow => exact converses
  | tcpAccept | tcpReject | tcpRecvDone | nvmeWritev | nvmeReadv =>
    simp only [handleOneRet] at running ⊢
    split_ifs at running ⊢
    · exact converses
    · exact (or_self_iff.1 running).elim

theorem Loop.Converses.post (silent : ∀ a, e.ask a = none) : (s.post e).Converses m := by
  refine converses.pass (fun _ here => here) (fun _ => rfl) (fun _ => rfl) fun a => (flight_events a [e]).trans ?_
  rw [coe_filterMap_one, silent a]
  exact zero_add _

theorem Loop.Converses.next {op} (safe : s.Safe m) (valid : s.Valid m op) (obliges : s.Obliges m op)
    (running : (s.next m op).mode = .kernel ∨ (s.next m op).mode = .user) : (s.next m op).Converses m := by
  have fine : ∀ {u : Loop}, (u.mode = .kernel ∨ u.mode = .user) → u.mode ≠ .crashed := by
    rintro u (mode | mode) <;> rw [mode] <;> exact Mode.noConfusion
  cases op with
  | call args =>
    obtain ⟨-, k, rest, karr, -⟩ := valid
    obtain ⟨supplied, granted⟩ := obliges.calls args k rest rfl karr
    simp only [Loop.next, karr] at running ⊢
    obtain ⟨conns, taken⟩ := Loop.call_conns { s with karr := rest } m args k
    refine converses.keep taken conns fun b => ?_
    have counts : s.underWay b = flight b (k :: rest) s.device s.events := by rw [Loop.underWay, karr]
    rw [counts, flight_call]
    exact Loop.underWay_call (s := { s with karr := rest }) supplied granted (fine running) b
  | sched now tsc =>
    simp only [Loop.next] at running ⊢
    split at running
    · exact absurd rfl (fine running)
    · exact converses.keep rfl rfl fun _ => rfl
  | knock handle srcPort =>
    apply Loop.Converses.post
    · exact converses.keep rfl rfl fun _ => rfl
    · exact fun _ => rfl
  | segment handle bytes =>
    obtain ⟨-, -, p, found, -⟩ := valid
    simp only [Loop.next, Loop.tcpCall, found, Loop.onRecv]
    split_ifs
    · exact converses.post fun _ => rfl
    · exact converses.keep rfl rfl fun _ => rfl
  | acked handle refs =>
    obtain ⟨-, -, p, found, -⟩ := valid
    simp only [Loop.next, Loop.tcpCall, found]
    exact converses.post fun _ => rfl
  | hangUp handle =>
    obtain ⟨-, -, p, found⟩ := valid
    simp only [Loop.next, Loop.tcpCall, found]
    apply Loop.Converses.post
    · exact converses.keep rfl rfl fun _ => rfl
    · exact fun _ => rfl
  | finish i buf =>
    obtain ⟨-, -, inside⟩ := valid
    have found := getElem?_eq_getElem inside
    simp only [Loop.next, found]
    exact converses.keep rfl rfl fun a => flight_finish found buf a
  | leave => exact converses.keep rfl rfl fun _ => rfl
  | ret =>
    obtain ⟨-, some⟩ := valid
    obtain ⟨r, rest, rets⟩ := exists_cons_of_ne_nil some
    simp only [Loop.next, rets] at running ⊢
    have popped : Loop.Converses m { s with rets := rest } := converses.keep rfl rfl fun _ => rfl
    exact popped.ret running
  | event args =>
    obtain ⟨-, -, some, offers⟩ := valid
    obtain ⟨e, rest, events⟩ := exists_cons_of_ne_nil some
    simp only [Loop.next, events]
    exact converses.event safe events offers (obliges.settles e rest events) (obliges.replies args e rest rfl events)
  | enter => exact converses.keep rfl rfl fun _ => rfl

end

theorem answers_eq (sent : List Outgoing) (waiting : List NvmeReq) :
    ((sent ++ waiting.map Outgoing.response).map Outgoing.ask : Multiset Ask) =
      ios (sent.filterMap Outgoing.request ++ waiting) + regs (sent.countP Outgoing.isReply) := by
  have waits : ((waiting.map Outgoing.response).map Outgoing.ask : Multiset Ask) = ios waiting := by
    rw [map_map]
    rfl
  have gone : (sent.map Outgoing.ask : Multiset Ask) = ios (sent.filterMap Outgoing.request) + regs (sent.countP Outgoing.isReply) := by
    induction sent with
    | nil => rfl
    | cons message sent ih =>
      rw [map_cons, ← Multiset.cons_coe, ih]
      cases message with
      | response req =>
        have head : ((Outgoing.response req :: sent).filterMap Outgoing.request) = [req] ++ sent.filterMap Outgoing.request := rfl
        have count : (Outgoing.response req :: sent).countP Outgoing.isReply = sent.countP Outgoing.isReply := rfl
        rw [head, count, ios_append, ← Multiset.singleton_add, add_assoc]
        rfl
      | reply reqHandle lba =>
        have head : ((Outgoing.reply reqHandle lba :: sent).filterMap Outgoing.request) = sent.filterMap Outgoing.request := rfl
        have count : (Outgoing.reply reqHandle lba :: sent).countP Outgoing.isReply = sent.countP Outgoing.isReply + 1 :=
          countP_cons_of_pos rfl
        rw [head, count, regs_add, ← Multiset.singleton_add]
        show Multiset.replicate 1 Ask.reg + _ = _ + (_ + regs 1)
        rw [show Multiset.replicate 1 Ask.reg = regs 1 from rfl]
        abel
  rw [map_append, ← Multiset.coe_add, waits, gone, ios_append]
  abel

end Steps

/-- The messages in the accepted bytes, and the responses that wait, are the answers to the messages that are not under way. -/
def Loop.AnsweredOnce (m : Machine) (s : Loop) (a : UInt64) : Prop :=
  ∃ (sent : List Outgoing) (waiting : List NvmeReq),
    (s.conns a).asks = s.underWay a + ((sent ++ waiting.map Outgoing.response).map Outgoing.ask : List Ask) ∧
    sent.flatMap (Outgoing.bytes (m.env a)) <+: (s.conns a).pp.wire ∧
    (s.conns a).pp.wire <+: sent.flatMap (Outgoing.bytes (m.env a)) ++ waiting.flatMap (response (m.env a)) ∧
    waiting.map (response (m.env a)) = (s.conns a).pp.pendingRequests.map (response (m.env a))

def Ksys.isRegister : Ksys → Bool
  | .nvmeRegisterFlow _ _ _ => true
  | _ => false

/-- A test for concrete runs: no registrations, and a context for each request. -/
def Loop.ampleTest (s : Loop) : Op → Bool
  | .call args => args.ctx.isSome && !s.karr.any Ksys.isRegister
  | _ => true

theorem Loop.obliges_of_test {op} (direct : m.cfg.nvmeSchedFlag = false) (settles : s.settlesTest m op = true)
    (ample : s.ampleTest op = true) : s.Obliges m op := by
  refine ⟨settles_of_test settles, ?_, ?_⟩
  · rintro args k rest rfl karr
    simp only [ampleTest, karr, any_cons, Bool.not_or, Bool.and_eq_true] at ample
    refine ⟨fun h _ => ⟨Option.isSome_iff_ne_none.1 ample.1, fun scheduled => ?_⟩, ?_⟩
    · exact absurd (direct.symm.trans scheduled) Bool.false_ne_true
    · cases k with
      | nvmeRegisterFlow => cases ample.2.1
      | tcpAccept | tcpReject | tcpSendv | tcpRecvDone | tcpClose | nvmeWritev | nvmeReadv | nvmeUnregisterFlow => trivial
  · rintro args e rest rfl events
    simp only [settlesTest, events] at settles
    cases e with
    | nvmeRegisteredFlow => cases settles
    | tcpKnock | tcpRecv | tcpSent | tcpDead | nvmeUnregisteredFlow | nvmeDone => trivial

def oneRead : List Op :=
  connect ++ [.segment 1 (Header.bytes ⟨24, cmdGet, 1, 8, 1⟩), .leave, .ret, plainEvent none, .enter, plainCall, plainCall, .finish 0 fun _ _ => 7,
    .leave, .ret, .ret, plainEvent none]

theorem Loop.not_answered {a} (wire : (s.conns a).pp.wire = []) (pending : (s.conns a).pp.pendingRequests.length = 0)
    (lost : Multiset.card (s.underWay a) = 0) (asked : Multiset.card (s.conns a).asks = 1) : ¬ s.AnsweredOnce m a := by
  rintro ⟨sent, waiting, each, before, -, same⟩
  have idle : waiting.length = 0 := by
    have lengths := congrArg length same
    rw [length_map, length_map] at lengths
    omega
  have silent : sent = [] := by
    rw [wire, prefix_nil] at before
    refine eq_nil_iff_forall_not_mem.2 fun message member => ?_
    have bytes := flatMap_eq_nil_iff.1 before message member
    exact absurd (congrArg length bytes) (Outgoing.bytes_length_pos _ message).ne'
  have counts := congrArg Multiset.card each
  rw [Multiset.card_add, lost, asked, Multiset.coe_card, silent, nil_append, length_map, length_map, idle] at counts
  omega

theorem Loop.call_refused {args : CallArgs} {id : Int} {b : UInt64} {slo : Nvme.SLO}
    (refused : ¬ (Ksys.nvmeRegisterFlow id b slo).Granted m s args) :
    ∃ nvme ret before, (∀ a, before.filterMap (Event.ask a) = []) ∧
      s.call m args (.nvmeRegisterFlow id b slo) =
        { s with nvme := nvme, events := s.events ++ before, rets := s.rets ++ [⟨.nvmeRegisterFlow id b slo, 0, ret⟩] } := by
  cases ran : ((Ksys.nvmeRegisterFlow id b slo).ioOp m args).bind (Nvme.IoOp.run m.cfg s.nvme) with
  | none => cases ran
  | some result =>
    obtain ⟨ret, nvme⟩ := result
    have result : (ret, nvme) = Nvme.bsysNvmeRegisterFlow m.cfg s.nvme m.cpu (Int64.ofInt id) b slo args.swq := (Option.some.inj ran).symm
    have fails : ret ≠ 0 := by
      intro zero
      refine refused ((Nvme.grants_iff m.cfg s.nvme m.cpu (Int64.ofInt id) b slo args.swq).1 ?_)
      rw [← result]
      exact zero
    obtain ⟨before, silent, ⟨post, -⟩ | ⟨-, -, -, -, zero, -⟩⟩ := call_posted ran
    · refine ⟨nvme, ret, before, silent_asks silent, ?_⟩
      simp only [call, nvmeCall, ran, if_neg fails, post, returns]
    · exact absurd zero fails

/-- The batch has a registration only, and the call before it has returned. -/
def Loop.awaitsRegister (s : Loop) : Bool :=
  match s.karr, s.rets with
  | [.nvmeRegisterFlow _ _ _], [⟨.tcpRecvDone _, _, ret⟩] => ret = 0
  | _, _ => false

def askReg : List Op :=
  connect ++ [.segment 1 (Header.bytes ⟨24, cmdReg, 1, 0, 0⟩), .leave, .ret, plainEvent none, .enter, plainCall]

def outOfQueues : List Op := [.call ⟨0, none, none, 0, 0⟩, .leave, .ret, .ret]

theorem Loop.registration_lost (m : Machine) (mode : s.mode = .kernel) (awaits : s.awaitsRegister = true) :
    ∃ t, Run (loopStep m) s outOfQueues t ∧ t.mode = .user ∧ t.conns = s.conns ∧ t.taken = s.taken ∧ t.karr = [] ∧ t.rets = [] ∧
      ∀ a, t.underWay a = flight a [] s.device s.events := by
  unfold awaitsRegister at awaits
  split at awaits
  · rename_i id b slo handle cookie ret karr rets
    have zero : ret = 0 := of_decide_eq_true awaits
    subst zero
    have refused : ¬ (Ksys.nvmeRegisterFlow id b slo).Granted m { s with karr := [] } ⟨0, none, none, 0, 0⟩ := fun granted => granted.2 rfl
    obtain ⟨nvme, ret, before, silent, call⟩ := call_refused refused
    have first : s.next m (.call ⟨0, none, none, 0, 0⟩) = { s with
        karr := [], nvme := nvme, events := s.events ++ before, rets := s.rets ++ [⟨.nvmeRegisterFlow id b slo, 0, ret⟩] } := by
      simp only [next, karr]
      exact call
    have fresh : (Ksys.nvmeRegisterFlow id b slo).Fresh m s ⟨0, none, none, 0, 0⟩ := by
      rintro op same
      cases same
      trivial
    refine ⟨{ s with karr := [], nvme := nvme, events := s.events ++ before, rets := [], mode := .user, generation := s.generation + 1 },
      .cons ⟨⟨mode, _, _, karr, fresh⟩, first.symm⟩ (.cons ⟨⟨mode, rfl⟩, rfl⟩ (.cons ⟨⟨rfl, ?_⟩, rfl⟩ ?_)), rfl, rfl, rfl, rfl, rfl, fun a => ?_⟩
    · rw [rets]
      exact cons_ne_nil _ _
    · simp only [next, rets, singleton_append, handleOneRet, if_true]
      exact .cons ⟨⟨rfl, cons_ne_nil _ _⟩, rfl⟩ (.nil _)
    · show flight a [] s.device (s.events ++ before) = _
      rw [flight_events, silent a]
      exact zero_add _
  · cases awaits

/-- In a run in which nothing is refused and replies go out at once, each message of an open
connection is under way or has one answer. -/
theorem messages_are_answered_once {m : Machine} {memory : UInt64 → Conn} {nvme : Nvme.NvmeState} {ops : List Op} {s : Loop} {a : UInt64}
    (unused : ∀ a, (memory a).Fine (m.env a) false) (run : Run (Guarded (loopStep m) (Loop.Obliges m)) (Loop.boot memory nvme) ops s)
    (running : s.mode = .kernel ∨ s.mode = .user) (taken : s.taken a = true) (up : (s.conns a).pp.status = .established) :
    s.AnsweredOnce m a := by
  have kept : s.Tracked m ∧ (s.mode = .kernel ∨ s.mode = .user → s.Converses m) := by
    refine run.invariant (I := fun s => s.Tracked m ∧ (s.mode = .kernel ∨ s.mode = .user → s.Converses m)) ?_ ⟨(Loop.boot_safe unused).tracked, ?_⟩
    · rintro s op t ⟨⟨valid, rfl⟩, obliges⟩ ⟨tracked, converses⟩
      have safe := tracked.safe valid.running
      exact ⟨safe.next valid obliges.settles, (converses valid.running).next safe valid obliges⟩
    · intro _ a here
      cases here
  obtain ⟨sent, waiting, talks⟩ := kept.2 running a taken up
  obtain ⟨before, within⟩ := talks.whole.wire
  refine ⟨sent, waiting, ?_, before, within, talks.whole.pending⟩
  have completed : sent.filterMap Outgoing.request ++ waiting = (s.conns a).completed := talks.whole.completed
  rw [talks.each, answers_eq, completed, add_assoc]

theorem one_read_is_answered :
    ∃ s, Run (Guarded (loopStep directMachine) (Loop.Obliges directMachine)) (.boot blankMemory Nvme.coldState) oneRead s ∧
      Multiset.card (s.conns 1).asks = 1 ∧ Multiset.card (s.underWay 1) = 0 ∧ (s.conns 1).pp.wire.length = 24 + 512 ∧
      s.AnsweredOnce directMachine 1 := by
  let test (s : Loop) (op : Op) : Bool := s.admits op && s.settlesTest directMachine op && s.ampleTest op
  have sound : ∀ s op, test s op = true → s.Valid directMachine op ∧ s.Obliges directMachine op := by
    intro s op pass
    obtain ⟨both, ample⟩ := Bool.and_eq_true_iff.1 pass
    obtain ⟨admits, settles⟩ := Bool.and_eq_true_iff.1 both
    exact ⟨Loop.admits_valid _ admits, Loop.obliges_of_test rfl settles ample⟩
  have pass : passes (Loop.next directMachine) test (.boot blankMemory Nvme.coldState) oneRead = true := by decide +kernel
  have run := Run.of_passes sound pass
  refine ⟨_, run, by decide +kernel, by decide +kernel, by decide +kernel, ?_⟩
  exact messages_are_answered_once blankMemory_fine run (Or.inr (by decide +kernel)) (by decide +kernel) (by decide +kernel)

/-- The server exits with a request it has not answered, or goes on without a word. -/
theorem refusals_are_not_answered :
    (∃ s, Run (loopStep directMachine) (.boot blankMemory Nvme.coldState) (askReg ++ outOfQueues) s ∧ s.mode = .user ∧ s.taken 1 = true ∧
      (s.conns 1).pp.status = .established ∧ s.karr = [] ∧ s.rets = [] ∧ ¬ s.AnsweredOnce directMachine 1) ∧
    ∃ s, Run (loopStep directMachine) (.boot blankMemory Nvme.coldState) (oneGet none) s ∧ s.mode = .fatal ∧
      (s.conns 1).pp.status = .established ∧ ¬ s.AnsweredOnce directMachine 1 := by
  refine ⟨?_, ?_⟩
  · have pass : passes (Loop.next directMachine) Loop.admits (.boot blankMemory Nvme.coldState) askReg = true := by decide +kernel
    have asks : ∃ s, Run (loopStep directMachine) (.boot blankMemory Nvme.coldState) askReg s ∧ s.mode = .kernel ∧ s.taken 1 = true ∧
        (s.conns 1).pp.status = .established ∧ s.awaitsRegister = true ∧ (s.conns 1).pp.wire = [] ∧ (s.conns 1).pp.pendingRequests.length = 0 ∧
        Multiset.card (flight 1 [] s.device s.events) = 0 ∧ Multiset.card (s.conns 1).asks = 1 :=
      ⟨_, Loop.run_of_admits pass, by decide +kernel, by decide +kernel, by decide +kernel, by decide +kernel,
        by decide +kernel, by decide +kernel, by decide +kernel, by decide +kernel⟩
    obtain ⟨s, run, mode, taken, up, awaits, wire, pending, lost, asked⟩ := asks
    obtain ⟨t, refused, user, conns, same, calls, rets, left⟩ := Loop.registration_lost directMachine mode awaits
    rw [← same] at taken
    rw [← conns] at up wire pending asked
    rw [← left] at lost
    exact ⟨t, run.append refused, user, taken, up, calls, rets, Loop.not_answered wire pending lost asked⟩
  · have pass : passes (Loop.next directMachine) Loop.admits (.boot blankMemory Nvme.coldState) (oneGet none) = true := by decide +kernel
    refine ⟨_, Loop.run_of_admits pass, by decide +kernel, by decide +kernel, ?_⟩
    exact Loop.not_answered (by decide +kernel) (by decide +kernel) (by decide +kernel) (by decide +kernel)

end Reflex.Thread
