import Reflex.Thread.Keeping

/-!
# No callback acts on a released connection

The marks of a run are orderly as long as a connection is closed only when nothing under way in the NVMe layer
refers to it.
-/

namespace Reflex.Thread
open Lib Server List

variable {m : Machine} {s : Loop} {a : UInt64} {h : Nat} {x : Conn}

structure Loop.Safe (m : Machine) (s : Loop) : Prop where
  held : s.Held m 0
  traces : s.leases.Traces s.marks

/-- A thread that has stopped makes no more marks. -/
structure Loop.Tracked (m : Machine) (s : Loop) : Prop where
  safe : s.mode = .kernel ∨ s.mode = .user → s.Safe m
  phases : ∀ a, ∃ p, phase a s.marks = some p

namespace Loop.Safe

theorem tracked (safe : s.Safe m) : s.Tracked m := ⟨fun _ => safe, fun a => ⟨_, safe.traces a⟩⟩

theorem stopped {mode} (traces : s.leases.Traces s.marks) (down : mode ≠ .kernel ∧ mode ≠ .user) :
    Loop.Tracked m { s with mode := mode } where
  safe := by
    rintro (kernel | user)
    · exact absurd kernel down.1
    · exact absurd user down.2
  phases := fun a => ⟨_, traces a⟩

theorem crash (traces : s.leases.Traces s.marks) : s.crash.Tracked m := stopped traces ⟨Mode.noConfusion, Mode.noConfusion⟩

theorem good (safe : s.Safe m) (up : (s.conns a).pp.status = .established) :
    (s.conns a).Good (m.env a) := by
  have fine := safe.held.conns a
  exact ⟨up, fine.ready⟩

theorem established (safe : s.Safe m) (attached : s.leases.Attached a) (isOpen : s.leases.closed a = false) :
    (s.conns a).pp.status = .established := by
  have running := (safe.held.conns a).up attached.1
  have unclosed : (s.conns a).pp.status ≠ .closed := of_decide_eq_false isOpen
  cases status : (s.conns a).pp.status with
  | established => rfl
  | closed => exact absurd status unclosed
  | aborted => exact absurd status running

theorem pop {e rest} (safe : s.Safe m) (events : s.events = e :: rest) : Loop.Safe m { s with events := rest } := by
  have hand := safe.held.popEvent events
  cases claim : e.claim with
  | none =>
    rw [claim] at hand
    exact ⟨hand, safe.traces⟩
  | some c =>
    rw [claim] at hand
    refine ⟨hand.drop fun h closing => ?_, safe.traces⟩
    rw [closing] at claim
    have calls : .tcpClose h ∈ ([] : List Ksys) :=
      closing_mem_tally.1 (mem_tally.2 (.inr (.inl ⟨e, mem_singleton_self e, claim⟩)) : _ ∈ tally [] [e] [] [])
    cases calls

/-! ## Callbacks -/

theorem callback_marks (s : Loop) (a : UInt64) (kind : Callback) (f : Turn → Turn) : (s.callback a kind f).marks =
    s.marks ++ [.used a kind] ++ ((f ⟨s.conns a, []⟩).calls.filter Ksys.isClose).map fun _ => .closed a := by
  rw [append_assoc]
  rfl

theorem closed_once {marks : List (Mark UInt64 Callback)} {calls : List Ksys} (one : calls.length = 1) :
    marks ++ calls.map (fun _ => .closed a) = marks ++ [.closed a] := by
  obtain ⟨k, rfl⟩ := length_eq_one_iff.1 one
  rfl

theorem callback {kind f} (safe : s.Safe m) (mode : s.mode = .user) (attached : s.leases.Attached a)
    (up : (s.conns a).pp.status = .established) (outcome : Outcome (m.env a) a (s.Settled a) (s.conns a) (f ⟨s.conns a, []⟩)) :
    (s.callback a kind f).Tracked m := by
  have isOpen : s.leases.closed a = false := decide_eq_false (Status.ne_closed up)
  have used : s.leases.Traces (s.marks ++ [.used a kind]) := safe.traces.use attached.1 (forall_mem_singleton.2 ⟨kind, rfl⟩)
  have marks := callback_marks s a kind f
  have goesOn : (f ⟨s.conns a, []⟩).conn.pp.status ≠ .aborted → (s.callback a kind f).mode = .user := by
    intro running
    exact (if_neg running).trans mode
  cases outcome with
  | aborts status closes =>
    have stops : (s.callback a kind f).mode = .aborted := if_pos status
    constructor
    · rw [stops]
      rintro (kernel | user)
      · cases kernel
      · cases user
    · intro b
      rw [marks]
      rcases Nat.le_one_iff_eq_zero_or_eq_one.1 closes with none | one
      · rw [length_eq_zero_iff.1 none, map_nil, append_nil]
        exact ⟨_, used b⟩
      · rw [closed_once one]
        exact ⟨_, used.close attached.1 isOpen b⟩
  | stays status keeps calls =>
    have same : (f ⟨s.conns a, []⟩).conn.pp.status = .closed ↔ (s.conns a).pp.status = .closed := by rw [status, up]
    have leases : (s.callback a kind f).leases = s.leases := Loop.leases_setConn keeps.handle same
    have called := safe.held.stays attached up status keeps calls
    have running : (s.callback a kind f).mode = .user := goesOn (by rw [status]; exact Status.noConfusion)
    refine Loop.Safe.tracked ⟨⟨called.sound, called.zero, called.entries, Loop.Held.quiet_of_user running, called.conns⟩, ?_⟩
    rw [leases, marks, no_closes calls, map_nil, append_nil]
    exact used
  | closes status keeps settled calls one =>
    have leases : (s.callback a kind f).leases = s.leases.close a := Loop.leases_closeConn keeps.handle status
    have called := safe.held.closes mode attached up status keeps settled calls
    have running : (s.callback a kind f).mode = .user := goesOn (by rw [status]; exact Status.noConfusion)
    refine Loop.Safe.tracked ⟨⟨called.sound, called.zero, called.entries, Loop.Held.quiet_of_user running, called.conns⟩, ?_⟩
    rw [leases, marks, closed_once one]
    exact used.close attached.1 isOpen

theorem mainHandler {send hup} (safe : s.Safe m) (mode : s.mode = .user) (attached : s.leases.Attached a)
    (unrefused : (s.conns a).pp.status = .established → (s.conns a).Unrefused (m.env a) send)
    (hears : hup = false → (s.conns a).pp.status = .established → (s.conns a).Hears (m.env a) (s.Settled a))
    (hung : hup = true → (s.conns a).pp.status = .established → s.Settled a) : (s.mainHandler m a send hup).Tracked m := by
  unfold Loop.mainHandler
  split_ifs with up
  · exact safe.callback mode attached up
      (Turn.ppMainHandler_outcome (safe.good up) (unrefused up) (fun quiet => hears quiet up) (fun loud => hung loud up) s.generation)
  · exact safe.tracked

theorem setConn (safe : s.Safe m) (attached : s.leases.Attached a) (handle : x.handle = (s.conns a).handle) (pp : x.pp = (s.conns a).pp) :
    (s.setConn a x).Safe m := by
  have same : x.pp.status = .closed ↔ (s.conns a).pp.status = .closed := by rw [pp]
  have fine := safe.held.conns a
  refine ⟨safe.held.setConn handle same ⟨?_, fun free => ?_, ?_⟩, ?_⟩
  · rw [pp]
    exact fine.up
  · exact absurd (free.symm.trans attached.1) Bool.false_ne_true
  · rw [pp]
    exact fine.ready
  · rw [Loop.leases_setConn handle same]
    exact safe.traces

theorem noted {send hup} (safe : s.Safe m) (mode : s.mode = .user) (attached : s.leases.Attached a)
    (handle : x.handle = (s.conns a).handle) (pp : x.pp = (s.conns a).pp)
    (unrefused : (s.conns a).pp.status = .established → x.Unrefused (m.env a) send)
    (hears : hup = false → (s.conns a).pp.status = .established → x.Hears (m.env a) (s.Settled a))
    (hung : hup = true → (s.conns a).pp.status = .established → s.Settled a) : ((s.setConn a x).mainHandler m a send hup).Tracked m := by
  have self : (s.setConn a x).conns a = x := Function.update_self _ _ _
  apply (safe.setConn attached handle pp).mainHandler mode
  · rw [Loop.leases_setConn handle (by rw [pp])]
    exact attached
  · rw [self, pp]
    exact unrefused
  · rw [self, pp]
    exact hears
  · rw [self, pp]
    exact hung

/-- Acknowledgements use the connection, and may ask for the rest to be sent. -/
structure Acknowledges (m : Machine) (s : Loop) (a : UInt64) (refs : Nat) (resend : Bool) (more : List Ksys) (t : Turn) : Prop where
  posts : Turn.Posts ⟨{ s.conns a with refs := (s.conns a).refs.drop refs }, []⟩ more t
  result : s.acknowledged a refs resend = { s.setConn a t.conn with
    karr := s.karr ++ more
    marks := s.marks ++ ((s.conns a).refs.take refs).map fun _ => .used a .sendCompleted }
  leases : (s.acknowledged a refs resend).leases = s.leases
  claims : (s.acknowledged a refs resend).claims = s.claims
  safe : (s.acknowledged a refs resend).Safe m

theorem acknowledged (safe : s.Safe m) (attached : s.leases.Attached a) (refs : Nat) (resend : Bool) :
    ∃ more t, Acknowledges m s a refs resend more t := by
  obtain ⟨more, t, posts, result⟩ : ∃ more t, Turn.Posts ⟨{ s.conns a with refs := (s.conns a).refs.drop refs }, []⟩ more t ∧
      s.acknowledged a refs resend = { s.setConn a t.conn with
        karr := s.karr ++ t.calls
        marks := s.marks ++ ((s.conns a).refs.take refs).map fun _ => .used a .sendCompleted } := by
    cases resend with
    | false => exact ⟨[], _, .refl _, rfl⟩
    | true =>
      obtain ⟨more, posts⟩ := Turn.sendv_posts s.generation ⟨{ s.conns a with refs := (s.conns a).refs.drop refs }, []⟩
      exact ⟨more, _, posts, rfl⟩
  have unclaimed : more.filterMap Ksys.claim = [] := filterMap_claim_none posts.claims
  rw [show t.calls = more from posts.calls] at result
  have moved := safe.setConn attached posts.handle posts.pp
  have called : Loop.Held m 0 { s.setConn a t.conn with karr := s.karr ++ more } := by
    apply Loop.Held.calls (s := s.setConn a t.conn)
    rw [unclaimed]
    exact moved.held
  have leases : (s.acknowledged a refs resend).leases = s.leases := by
    rw [result]
    exact Loop.leases_setConn posts.handle (by rw [posts.pp])
  refine ⟨more, t, posts, result, leases, ?_, ?_, ?_⟩
  · rw [result, Loop.claims, tally_calls, unclaimed]
    exact zero_add _
  · rw [result]
    exact ⟨called.sound, called.zero, called.entries, called.quiet, called.conns⟩
  · rw [leases, result]
    refine safe.traces.use attached.1 fun k member => ?_
    obtain ⟨req, -, rfl⟩ := mem_map.1 member
    exact ⟨.sendCompleted, rfl⟩

theorem sent {send refs resend} (safe : s.Safe m) (mode : s.mode = .user) (attached : s.leases.Attached a)
    (unrefused : (s.conns a).pp.status = .established → (s.conns a).Unrefused (m.env a) send)
    (hears : (s.conns a).pp.status = .established → (s.conns a).Hears (m.env a) (s.Settled a)) :
    ((s.acknowledged a refs resend).mainHandler m a send false).Tracked m := by
  obtain ⟨more, t, posts, result, leases, claims, safe'⟩ := safe.acknowledged attached refs resend
  have conn : (s.acknowledged a refs resend).conns a = t.conn := by
    rw [result]
    exact Function.update_self _ _ _
  have mode' : (s.acknowledged a refs resend).mode = .user := by
    rw [result]
    exact mode
  apply safe'.mainHandler mode'
  · rw [leases]
    exact attached
  · rw [conn, posts.frame]
    exact unrefused
  · intro _
    rw [Loop.Settled, claims, conn, posts.frame]
    exact hears
  · intro loud
    cases loud

/-! ## Steps -/

theorem handleEvent {e : Event} {args} (hand : s.Held m e.claim.toList) (traces : s.leases.Traces s.marks) (mode : s.mode = .user)
    (offers : s.Offers args) (settles : e.Settles m s args) :
    (s.handleEvent m args e).Tracked m := by
  cases e with
  | tcpKnock handle srcPort =>
    cases memory : args.memory with
    | none =>
      simp only [Loop.handleEvent, memory, Loop.tcpKnock]
      have dropped : s.Held m ([Ksys.tcpReject handle].filterMap Ksys.claim) := hand.drop fun h same => by cases same
      exact Loop.Safe.tracked ⟨dropped.calls, traces⟩
    | some a =>
      obtain ⟨address, free⟩ := offers a memory
      simp only [Loop.handleEvent, memory]
      refine Loop.Safe.tracked ⟨hand.take mode address free, ?_⟩
      have leases : (s.tcpKnock (some a) handle srcPort).leases = s.leases.take handle a := Loop.leases_open rfl Status.noConfusion
      rw [leases]
      exact traces.take free
  | tcpRecv a bytes =>
    have attached : s.leases.Attached a := hand.holds
    have safe : s.Safe m := ⟨hand.drop fun h same => (by cases same), traces⟩
    refine safe.noted mode attached rfl rfl (fun up => (settles up).1) (fun _ up => (settles up).2) fun loud => ?_
    cases loud
  | tcpSent a refs =>
    have attached : s.leases.Attached a := hand.holds
    have safe : s.Safe m := ⟨hand.drop fun h same => (by cases same), traces⟩
    exact safe.sent mode attached (fun up => (settles up).1) fun up => (settles up).2
  | tcpDead a =>
    by_cases null : a = 0
    · simp only [Loop.handleEvent, if_pos null]
      simp only [Event.claim, if_pos null] at hand
      exact Loop.Safe.tracked ⟨hand, traces⟩
    · simp only [Loop.handleEvent, if_neg null]
      simp only [Event.claim, if_neg null] at hand
      have attached : s.leases.Attached a := hand.holds
      have safe : s.Safe m := ⟨hand.drop fun h same => (by cases same), traces⟩
      refine safe.noted mode attached rfl rfl (fun up => (settles up).1) (fun quiet => ?_) fun _ up => (settles up).2
      cases quiet
  | nvmeRegisteredFlow fgHandle a =>
    obtain ⟨attached, isOpen⟩ : s.leases.Attached a ∧ s.leases.closed a = false := hand.holds
    have safe : s.Safe m := ⟨hand.drop fun h same => (by cases same), traces⟩
    have up := safe.established attached isOpen
    exact safe.callback mode attached up (Turn.nvmeRegisteredFlowCb_outcome (safe.good up) settles s.generation fgHandle)
  | nvmeUnregisteredFlow fgHandle => exact Loop.Safe.tracked ⟨hand, traces⟩
  | nvmeDone a req buf =>
    obtain ⟨attached, isOpen⟩ : s.leases.Attached a ∧ s.leases.closed a = false := hand.holds
    have safe : s.Safe m := ⟨hand.drop fun h same => (by cases same), traces⟩
    have up := safe.established attached isOpen
    exact safe.callback mode attached up (Turn.nvmeDoneCb_outcome (safe.good up) settles s.generation)

theorem handleOneRet {r : Ret} (hand : s.Held m r.claim.toList) (traces : s.leases.Traces s.marks) (mode : s.mode = .user) :
    (s.handleOneRet r).Tracked m := by
  obtain ⟨call, cookie, ret⟩ := r
  cases call with
  | tcpSendv handle =>
    simp only [Loop.handleOneRet]
    split_ifs
    · exact Loop.Safe.crash traces
    · have fine := hand.conns cookie
      refine Loop.Safe.tracked ⟨hand.setConn rfl Iff.rfl ⟨fine.up, fine.idle, fine.ready⟩, ?_⟩
      have leases : (s.setConn cookie { s.conns cookie with isDead := true }).leases = s.leases := Loop.leases_setConn rfl Iff.rfl
      rw [leases]
      exact traces
    · exact Loop.Safe.tracked ⟨hand, traces⟩
  | tcpClose handle =>
    simp only [Loop.handleOneRet]
    split_ifs
    · exact Loop.Safe.tracked ⟨hand.drop fun h same => (by cases same), traces⟩
    · exact Loop.Safe.crash traces
    · obtain ⟨taken, closed, -⟩ : s.leases.taken cookie = true ∧ s.leases.closed cookie = true ∧ _ := hand.holds
      refine Loop.Safe.tracked ⟨hand.release mode, ?_⟩
      rw [Loop.leases_release]
      refine Leases.Traces.free (traces.use taken fun k member => ?_) taken closed
      obtain ⟨req, -, rfl⟩ := mem_map.1 member
      exact ⟨.sendCompleted, rfl⟩
  | nvmeRegisterFlow | nvmeUnregisterFlow => exact Loop.Safe.tracked ⟨hand, traces⟩
  | tcpAccept | tcpReject | tcpRecvDone | nvmeWritev | nvmeReadv =>
    simp only [Loop.handleOneRet]
    split_ifs
    · exact Loop.Safe.tracked ⟨hand, traces⟩
    · exact Loop.Safe.stopped traces ⟨Mode.noConfusion, Mode.noConfusion⟩

theorem call {args} {k : Ksys} (hand : s.Held m k.claim.toList) (traces : s.leases.Traces s.marks) (mode : s.mode = .kernel) :
    (s.call m args k).Tracked m := by
  -- A call of the NVMe layer keeps the connections and their memory, whatever it returns.
  have nvme : ∀ k : Ksys, s.Held m k.claim.toList → (s.nvmeCall m args k).Tracked m := by
    intro k hand
    cases ran : (k.ioOp m args).bind (Nvme.IoOp.run m.cfg s.nvme) with
    | none =>
      simp only [Loop.nvmeCall, ran]
      exact Loop.Safe.crash traces
    | some result =>
      refine Loop.Safe.tracked ⟨hand.nvmeCall ran, ?_⟩
      simp only [Loop.nvmeCall, ran]
      exact traces
  cases k with
  | tcpAccept handle cookie =>
    refine Loop.Safe.tracked ⟨hand.accept, ?_⟩
    obtain ⟨p, found, -⟩ := Loop.Held.pcb_of_entry hand.holds.2.2.2
    simp only [Loop.call, Loop.tcpCall, found]
    exact traces
  | tcpReject handle => exact Loop.Safe.tracked ⟨Loop.Held.returns hand, traces⟩
  | tcpSendv handle =>
    simp only [Loop.call, Loop.tcpCall]
    split
    · exact Loop.Safe.crash traces
    · exact Loop.Safe.tracked ⟨Loop.Held.returns hand, traces⟩
  | tcpRecvDone handle =>
    simp only [Loop.call, Loop.tcpCall]
    split
    · exact Loop.Safe.crash traces
    · exact Loop.Safe.tracked ⟨Loop.Held.returns hand, traces⟩
  | tcpClose handle =>
    refine Loop.Safe.tracked ⟨hand.close mode, ?_⟩
    simp only [Loop.call, Loop.tcpCall]
    split
    · exact traces
    · exact traces
  | nvmeWritev | nvmeReadv | nvmeRegisterFlow | nvmeUnregisterFlow => exact nvme _ hand

theorem next {op} (safe : s.Safe m) (valid : s.Valid m op) (settles : s.Settles m op) : (s.next m op).Tracked m := by
  obtain ⟨held, traces⟩ := safe
  cases op with
  | call args =>
    obtain ⟨mode, k, rest, karr, -⟩ := valid
    simp only [Loop.next, karr]
    exact Loop.Safe.call (held.popCall karr) traces mode
  | sched now tsc =>
    simp only [Loop.next]
    split
    · exact Loop.Safe.crash traces
    · exact Loop.Safe.tracked ⟨⟨held.sound, held.zero, held.entries, held.quiet, held.conns⟩, traces⟩
  | knock handle srcPort => exact Loop.Safe.tracked ⟨held.knock valid.2.2, traces⟩
  | segment handle bytes =>
    obtain ⟨mode, karr, p, found, -⟩ := valid
    simp only [Loop.next, Loop.tcpCall, found, Loop.onRecv]
    split_ifs with accepted
    · exact Loop.Safe.tracked ⟨held.hears found ((held.entries handle p found).1 accepted) karr rfl, traces⟩
    · exact Loop.Safe.tracked ⟨held.setPcb found rfl rfl, traces⟩
  | acked handle refs =>
    obtain ⟨mode, karr, p, found, accepted⟩ := valid
    simp only [Loop.next, Loop.tcpCall, found]
    exact Loop.Safe.tracked ⟨held.hears found ((held.entries handle p found).1 accepted) karr rfl, traces⟩
  | hangUp handle =>
    obtain ⟨mode, karr, p, found⟩ := valid
    have gone := held.setPcb (q := { p with alive := false }) found rfl rfl
    simp only [Loop.next, Loop.tcpCall, found]
    refine Loop.Safe.tracked ⟨?_, traces⟩
    by_cases null : p.cookie = 0
    · exact gone.unheard (if_pos null)
    · exact gone.hears (p := { p with alive := false }) (h := handle) (Function.update_self _ _ _) null karr (if_neg null)
  | finish i buf =>
    obtain ⟨mode, karr, inside⟩ := valid
    simp only [Loop.next, getElem?_eq_getElem inside]
    exact Loop.Safe.tracked ⟨held.finish (getElem?_eq_getElem inside) buf, traces⟩
  | leave => exact Loop.Safe.tracked ⟨⟨held.sound, held.zero, held.entries, Loop.Held.quiet_of_user rfl, held.conns⟩, traces⟩
  | ret =>
    obtain ⟨mode, some⟩ := valid
    obtain ⟨r, rest, rets⟩ := exists_cons_of_ne_nil some
    simp only [Loop.next, rets]
    exact Loop.Safe.handleOneRet (held.popRet rets) traces mode
  | event args =>
    obtain ⟨mode, -, some, offers⟩ := valid
    obtain ⟨e, rest, events⟩ := exists_cons_of_ne_nil some
    simp only [Loop.next, events]
    exact Loop.Safe.handleEvent (held.popEvent events) traces mode offers (settles e rest events)
  | enter =>
    obtain ⟨mode, rets, events⟩ := valid
    refine Loop.Safe.tracked ⟨⟨held.sound, held.zero, held.entries, fun _ b heard => ?_, held.conns⟩, traces⟩
    obtain ⟨e, there, -⟩ : ∃ e ∈ s.events, e.claim = some (.heard b) := heard_mem_tally.1 heard
    rw [events] at there
    cases there

end Loop.Safe

theorem Loop.Valid.running {op} (valid : s.Valid m op) : s.mode = .kernel ∨ s.mode = .user := by
  cases op with
  | call | sched | knock | segment | acked | hangUp | finish | leave => exact .inl valid.1
  | ret | event | enter => exact .inr valid.1

theorem Loop.boot_safe {memory nvme} (fresh : ∀ a, (memory a).Fine (m.env a) false) :
    (Loop.boot memory nvme).Safe m := by
  have unclaimed : ∀ c, c ∉ (Loop.boot memory nvme).claims := fun c => Multiset.notMem_zero c
  refine ⟨⟨⟨?_, ?_, Multiset.nodup_zero, ?_⟩, rfl, ?_, fun _ a heard => absurd heard (unclaimed _), fresh⟩, fun a => rfl⟩
  · intro h a found
    cases found
  · intro c member
    rw [zero_add] at member
    exact absurd member (unclaimed c)
  · intro h a found
    cases found
  · intro h p found
    cases found

/-- As long as connections are closed only when they are settled, callbacks act on connections
that were accepted and not released since, and a connection is closed and released at most once. -/
theorem callbacks_act_on_live_connections {memory : UInt64 → Conn} {nvme : Nvme.NvmeState} {ops : List Op}
    (fresh : ∀ a, (memory a).Fine (m.env a) false)
    (run : Run (Guarded (loopStep m) (Loop.Settles m)) (Loop.boot memory nvme) ops s) : Orderly s.marks := by
  have tracked : s.Tracked m := by
    refine run.invariant (I := Loop.Tracked m) ?_ (Loop.boot_safe fresh).tracked
    rintro s op t ⟨⟨valid, rfl⟩, settles⟩ tracked
    exact (tracked.safe valid.running).next valid settles
  exact orderly_of_phase tracked.phases

/-- A test for concrete runs. -/
def Conn.unrefusedTest (x : Conn) : Bool := x.pp.nvmePending != 0 || x.pp.pendingRequests.isEmpty

theorem Conn.unrefused_of_test {env send} (pass : x.unrefusedTest = true) : x.Unrefused env send := by
  intro zero
  rw [unrefusedTest, zero] at pass
  have none : x.pp.pendingRequests = [] := isEmpty_iff.1 pass
  rw [sendPendingReqs_none none]
  exact none

/-- A test for concrete runs: only known opcodes arrive, and the peer hangs up when the connection is settled. -/
def Loop.settlesTest (m : Machine) (s : Loop) : Op → Bool
  | .event _ =>
    match s.events with
    | .tcpRecv a bytes :: _ =>
      (s.conns a).unrefusedTest && !(s.conns a).isDead && (arriving (m.env a) (s.conns a).pp ((s.conns a).queue ++ [bytes]).flatten).all fun h => decide h.Known
    | .tcpDead a :: rest => (s.conns a).unrefusedTest && decide (Claim.user a ∉ Loop.claims { s with events := rest })
    | .nvmeDone a req buf :: _ => ((s.conns a).done (req.filled buf)).unrefusedTest
    | .tcpSent _ _ :: _ | .nvmeRegisteredFlow _ _ :: _ => false
    | _ => true
  | _ => true

theorem Loop.settles_of_test {op} (pass : s.settlesTest m op = true) : s.Settles m op := by
  cases op with
  | event args =>
    intro e rest events
    simp only [Loop.settlesTest, events] at pass
    cases e with
    | tcpRecv a bytes =>
      intro _
      simp only [Bool.and_eq_true, Bool.not_eq_true', all_eq_true, decide_eq_true_eq] at pass
      unfold Conn.Hears
      rw [if_neg (by rw [pass.1.2]; exact Bool.false_ne_true)]
      exact ⟨Conn.unrefused_of_test pass.1.1, .inl pass.2⟩
    | tcpDead a =>
      intro _
      obtain ⟨unrefused, unclaimed⟩ := Bool.and_eq_true_iff.1 pass
      have settled : Claim.user a ∉ Loop.claims { s with events := rest } := of_decide_eq_true unclaimed
      exact ⟨Conn.unrefused_of_test (x := { s.conns a with isDead := true }) unrefused, settled⟩
    | nvmeDone a req buf => exact .inl (Conn.unrefused_of_test pass)
    | tcpSent a refs => cases pass
    | nvmeRegisteredFlow fgHandle a => cases pass
    | tcpKnock | nvmeUnregisteredFlow => trivial
  | call | sched | knock | segment | acked | hangUp | finish | leave | ret | enter => trivial

/-- A client reads a block, gets it and hangs up. -/
def getThenHangUp : List Op :=
  connect ++ [.segment 1 (Header.bytes ⟨24, cmdGet, 1, 8, 1⟩), .leave, .ret, plainEvent none, .enter, plainCall, plainCall, .finish 0 fun _ _ => 7,
    .leave, .ret, .ret, plainEvent none, .enter, .hangUp 1, .leave, plainEvent none, .enter, plainCall, plainCall, .leave, .ret, .ret]

theorem blankMemory_fine (a : UInt64) : (blankMemory a).Fine (directMachine.env a) false := by
  refine ⟨fun taken => ?_, fun _ => ⟨Status.noConfusion, rfl⟩, .of_not_pending (.inl Status.noConfusion)⟩
  cases taken

theorem hang_up_after_get :
    ∃ s, Run (Guarded (loopStep directMachine) (Loop.Settles directMachine)) (.boot blankMemory Nvme.coldState) getThenHangUp s ∧
      s.marks = [.opened 1, .used 1 .mainHandler, .used 1 .nvmeDone, .used 1 .mainHandler, .closed 1, .used 1 .sendCompleted, .released 1] ∧
      Orderly s.marks := by
  have sound : ∀ (s : Loop) (op : Op), (s.admits op && s.settlesTest directMachine op) = true → s.Valid directMachine op ∧ s.Settles directMachine op := by
    intro s op pass
    obtain ⟨admits, settles⟩ := Bool.and_eq_true_iff.1 pass
    exact ⟨Loop.admits_valid _ admits, Loop.settles_of_test settles⟩
  have pass : passes (Loop.next directMachine) (fun s op => s.admits op && s.settlesTest directMachine op)
      (.boot blankMemory Nvme.coldState) getThenHangUp = true := by
    decide +kernel
  have run := Run.of_passes sound pass
  exact ⟨_, run, by decide +kernel, callbacks_act_on_live_connections blankMemory_fine run⟩

/-- After a read comes a header with an opcode that the server does not know; the connection is
released before the device is done, and the completion is handled on released memory. -/
theorem completion_after_release :
    ∃ ops s, Run (loopStep directMachine) (.boot blankMemory Nvme.coldState) ops s ∧
      s.marks = [.opened 1, .used 1 .mainHandler, .closed 1, .released 1, .used 1 .nvmeDone] ∧ ¬ Orderly s.marks := by
  have pass : passes (Loop.next directMachine) Loop.admits (.boot blankMemory Nvme.coldState)
      (connect ++ [.segment 1 (Header.bytes ⟨24, cmdGet, 1, 8, 1⟩ ++ Header.bytes ⟨24, 9, 2, 8, 1⟩), .leave, .ret, plainEvent none, .enter,
        plainCall, plainCall, plainCall, .leave, .ret, .ret, .ret, .enter, .finish 0 fun _ _ => 7, .leave, plainEvent none]) = true := by
    decide +kernel
  have run := Loop.run_of_admits pass
  refine ⟨_, _, run, ?_⟩
  generalize state : List.foldl (Loop.next directMachine) (.boot blankMemory Nvme.coldState) _ = s
  have marks : s.marks = [.opened 1, .used 1 .mainHandler, .closed 1] ++ .released 1 :: [] ++ .used 1 .nvmeDone :: [] := by
    rw [← state]
    decide +kernel
  refine ⟨marks, fun orderly => ?_⟩
  cases orderly.unused marks

end Reflex.Thread
