import Reflex.Thread.Turns

/-!
# Return values that end the server

`ixev_handle_one_ret` has a case for `sendv`, `close` and the registrations; any other call that does not
return zero goes to `ixev_bad_ret`, which exits. The kernel never accepts a rejection, and it refuses requests
when the pool of contexts is empty or the queue of the tenant is full.
-/

namespace Reflex.Thread
open Lib Server List

/-- The calls whose return value must be zero. -/
def Ksys.checked : Ksys → Bool
  | .tcpAccept _ _ | .tcpReject _ | .tcpRecvDone _ | .nvmeWritev _ _ _ _ _ | .nvmeReadv _ _ _ _ _ => true
  | .tcpSendv _ | .tcpClose _ | .nvmeRegisterFlow _ _ _ | .nvmeUnregisterFlow _ => false

def Ksys.isReject : Ksys → Bool
  | .tcpReject _ => true
  | _ => false

/-- The flow group of a request. -/
def Ksys.target : Ksys → Option Nat
  | .nvmeWritev fgHandle _ _ _ _ | .nvmeReadv fgHandle _ _ _ _ => some fgHandle.toNat
  | _ => none

/-- There is a context for a request, and its queue is not full. -/
def Ksys.Supplied (m : Machine) (s : Loop) (args : CallArgs) (k : Ksys) : Prop :=
  ∀ h, k.target = some h → args.ctx ≠ none ∧
    (m.cfg.nvmeSchedFlag = true → ∀ q, (s.nvme.nvmeFgs h).nvmeSwq = some q → (s.nvme.swqs q).count ≠ Nvme.nvmeSwQueueSize)

def Loop.Supplied (m : Machine) (s : Loop) : Op → Prop
  | .call args => ∀ k ∈ s.karr.head?, k.Supplied m s args
  | .event args => ∀ handle srcPort, s.events.head? = some (.tcpKnock handle srcPort) → args.memory ≠ none
  | .sched _ _ | .knock _ _ | .segment _ _ | .acked _ _ | .hangUp _ | .finish _ _ | .leave | .ret | .enter => True

/-- Nothing is rejected, and every value that must be zero is. -/
structure Loop.Calm (s : Loop) : Prop where
  mode : s.mode ≠ .fatal
  karr : ∀ k ∈ s.karr, k.isReject = false
  rets : ∀ r ∈ s.rets, r.call.checked = true → r.ret = 0

section Calm

variable {m : Machine} {s t : Loop} {a : UInt64}

theorem asks_not_reject {k : Ksys} (asks : k.asks = true) : k.isReject = false := by
  cases k <;> first | rfl | cases asks

theorem Turn.Does.not_reject {t t' : Turn} {new more} (does : t.Does a new more t') :
    ∀ k ∈ more, k.isReject = false := by
  intro k member
  cases asks : k.asks with
  | true => exact asks_not_reject asks
  | false => cases does.own k member asks <;> rfl

theorem Turn.ppMainHandler_calls (env : Env) (generation : Nat) (a : UInt64) (send : Answers) (hup : Bool) (t : Turn)
    (start : ∀ k ∈ t.calls, k.isReject = false) : ∀ k ∈ (t.ppMainHandler env generation a send hup).calls, k.isReject = false := by
  cases hup with
  | false =>
    obtain ⟨new, more, does⟩ := t.ppMainHandler_does env generation a send
    rw [does.calls]
    exact forall_mem_append.2 ⟨start, does.not_reject⟩
  | true =>
    obtain ⟨entry, -, -, sent⟩ := t.sendPendingReqs_does (a := a) env generation send
    have calls : ∀ k ∈ (t.sendPendingReqs env generation send).calls, k.isReject = false := by
      rw [sent.calls]
      exact forall_mem_append.2 ⟨start, sent.not_reject⟩
    simp only [Turn.ppMainHandler, if_true]
    split_ifs
    · exact calls
    · refine forall_mem_append.2 ⟨forall_mem_append.2 ⟨calls, ?_⟩, ?_⟩
      · exact forall_mem_singleton.2 rfl
      · exact forall_mem_singleton.2 rfl

namespace Loop.Calm

section

variable (calm : s.Calm)
include calm

theorem callback (k : Callback) {f} (calls : ∀ k ∈ (f ⟨s.conns a, []⟩).calls, k.isReject = false) :
    (s.callback a k f).Calm where
  mode := by
    show (if _ then Mode.aborted else s.mode) ≠ .fatal
    split_ifs
    · exact Mode.noConfusion
    · exact calm.mode
  karr := forall_mem_append.2 ⟨calm.karr, calls⟩
  rets := calm.rets

theorem mainHandler (send : Answers) (hup : Bool) : (s.mainHandler m a send hup).Calm := by
  unfold Loop.mainHandler
  split_ifs
  · exact calm.callback _ (Turn.ppMainHandler_calls _ _ _ _ _ _ (forall_mem_nil _))
  · exact calm

theorem setConn (x : Conn) : (s.setConn a x).Calm := ⟨calm.mode, calm.karr, calm.rets⟩

theorem acknowledged (refs : Nat) (resend : Bool) : (s.acknowledged a refs resend).Calm := by
  refine ⟨calm.mode, forall_mem_append.2 ⟨calm.karr, ?_⟩, calm.rets⟩
  cases resend with
  | false => exact forall_mem_nil _
  | true =>
    obtain ⟨more, posts⟩ := Turn.sendv_posts s.generation ⟨{ s.conns a with refs := (s.conns a).refs.drop refs }, []⟩
    have does := posts.does (a := a)
    simp only [if_true]
    rw [does.calls]
    exact does.not_reject

theorem handleEvent (args : EventArgs) (e : Event)
    (supplied : ∀ handle srcPort, e = .tcpKnock handle srcPort → args.memory ≠ none) : (s.handleEvent m args e).Calm := by
  cases e with
  | tcpKnock handle srcPort =>
    cases memory : args.memory with
    | none => exact absurd memory (supplied handle srcPort rfl)
    | some a =>
      simp only [Loop.handleEvent, Loop.tcpKnock, memory]
      refine ⟨calm.mode, forall_mem_append.2 ⟨calm.karr, ?_⟩, calm.rets⟩
      exact forall_mem_singleton.2 rfl
  | tcpRecv a bytes => exact (calm.setConn _).mainHandler args.send false
  | tcpSent a refs => exact (calm.acknowledged refs args.resend).mainHandler args.send false
  | tcpDead a =>
    simp only [Loop.handleEvent]
    split_ifs
    · exact calm
    · exact (calm.setConn _).mainHandler args.send true
  | nvmeRegisteredFlow fgHandle a =>
    obtain ⟨entry, -, -, does⟩ := Turn.nvmeRegisteredFlowCb_does (a := a) s.generation args.send fgHandle ⟨s.conns a, []⟩
    apply calm.callback
    rw [does.calls]
    exact does.not_reject
  | nvmeUnregisteredFlow fgHandle => exact calm
  | nvmeDone a req buf =>
    obtain ⟨more, does⟩ := Turn.nvmeDoneCb_does (a := a) (m.env a) s.generation args.send (req.filled buf) ⟨s.conns a, []⟩
    apply calm.callback
    rw [does.calls]
    exact does.not_reject

theorem crash : s.crash.Calm := ⟨Mode.noConfusion, calm.karr, calm.rets⟩

theorem returns {k : Ksys} {cookie ret} (zero : k.checked = true → ret = 0) :
    (s.returns k cookie ret).Calm :=
  ⟨calm.mode, calm.karr, forall_mem_append.2 ⟨calm.rets, forall_mem_singleton.2 zero⟩⟩

theorem tcpCall {handle f} (answers : ∀ p, (f p).Calm) : (s.tcpCall handle f).Calm := by
  unfold Loop.tcpCall
  cases s.pcbs handle with
  | none => exact calm.crash
  | some p => exact answers p

end

end Loop.Calm

theorem submitRequest_takes {cfg : Nvme.Cfg} {s : Nvme.NvmeState}
    {cpu cmd fill payload h lba lbaCount cookie alloc ret t} (ctx : alloc ≠ none)
    (room : cfg.nvmeSchedFlag = true → ∀ q, (s.nvmeFgs h).nvmeSwq = some q → (s.swqs q).count ≠ Nvme.nvmeSwQueueSize)
    (submit : Nvme.submitRequest cfg s cpu cmd fill payload h lba lbaCount cookie alloc = some (ret, t)) : ret = 0 := by
  cases alloc with
  | none => exact absurd rfl ctx
  | some element =>
    simp only [Nvme.submitRequest] at submit
    split_ifs at submit with scheduled
    · cases link : (s.nvmeFgs h).nvmeSwq with
      | none =>
        rw [link] at submit
        cases submit
      | some q =>
        simp only [link, Nvme.nvmeSwQueuePushBack, if_neg (room scheduled q link), Option.some.injEq, Prod.mk.injEq] at submit
        exact submit.1.symm
    · cases submit
      rfl

theorem Ksys.Supplied.zero {args} {k : Ksys} {ret nvme} (supplied : k.Supplied m s args)
    (ran : (k.ioOp m args).bind (Nvme.IoOp.run m.cfg s.nvme) = some (ret, nvme)) (checked : k.checked = true) : ret = 0 := by
  cases k with
  | nvmeWritev fgHandle numSgls flow conn req =>
    obtain ⟨ctx, room⟩ := supplied _ rfl
    exact submitRequest_takes ctx room ran
  | nvmeReadv fgHandle numSgls flow conn req =>
    obtain ⟨ctx, room⟩ := supplied _ rfl
    exact submitRequest_takes ctx room ran
  | nvmeRegisterFlow | nvmeUnregisterFlow | tcpSendv | tcpClose => cases checked
  | tcpAccept | tcpReject | tcpRecvDone => cases ran

theorem Loop.Calm.nvmeCall {args} {k : Ksys} (calm : s.Calm) (supplied : k.Supplied m s args) : (s.nvmeCall m args k).Calm := by
  unfold Loop.nvmeCall
  cases result : (k.ioOp m args).bind (Nvme.IoOp.run m.cfg s.nvme) with
  | none => exact calm.crash
  | some r =>
    obtain ⟨ret, nvme⟩ := r
    have same : ∀ {device events}, Loop.Calm { s with nvme := nvme, device := device, events := events } :=
      ⟨calm.mode, calm.karr, calm.rets⟩
    exact same.returns fun checked => supplied.zero result checked

theorem Loop.Calm.call {args} {k : Ksys} (calm : s.Calm) (answered : k.isReject = false) (supplied : k.Supplied m s args) :
    (s.call m args k).Calm := by
  have same : ∀ {pcbs events}, Loop.Calm { s with pcbs := pcbs, events := events } := ⟨calm.mode, calm.karr, calm.rets⟩
  cases k with
  | tcpAccept handle cookie => exact calm.tcpCall fun p => same.returns fun _ => rfl
  | tcpReject handle => cases answered
  | tcpSendv handle => exact calm.tcpCall fun p => calm.returns fun checked => by cases checked
  | tcpRecvDone handle => exact calm.tcpCall fun p => calm.returns fun _ => rfl
  | tcpClose handle => exact calm.tcpCall fun p => same.returns fun _ => rfl
  | nvmeWritev | nvmeReadv | nvmeRegisterFlow | nvmeUnregisterFlow => exact calm.nvmeCall supplied

theorem Loop.Calm.handleOneRet {r : Ret} (calm : s.Calm) (zero : r.call.checked = true → r.ret = 0) : (s.handleOneRet r).Calm := by
  have same : ∀ {conns taken marks}, Loop.Calm { s with conns := conns, taken := taken, marks := marks } := ⟨calm.mode, calm.karr, calm.rets⟩
  unfold Loop.handleOneRet
  cases call : r.call with
  | tcpSendv handle =>
    simp only
    split_ifs
    · exact calm.crash
    · exact same
    · exact calm
  | tcpClose handle =>
    simp only
    split_ifs
    · exact calm
    · exact calm.crash
    · exact same
  | nvmeRegisterFlow | nvmeUnregisterFlow => exact calm
  | tcpAccept | tcpReject | tcpRecvDone | nvmeWritev | nvmeReadv =>
    rw [call] at zero
    simp only [zero rfl, if_true]
    exact calm

theorem Loop.Calm.next {op} (calm : s.Calm) (supplied : s.Supplied m op) : (s.next m op).Calm := by
  have same : ∀ {pcbs events device nvme}, Loop.Calm { s with pcbs := pcbs, events := events, device := device, nvme := nvme } :=
    ⟨calm.mode, calm.karr, calm.rets⟩
  cases op with
  | call args =>
    simp only [Loop.next]
    cases karr : s.karr with
    | nil => exact calm
    | cons k rest =>
      have calls := calm.karr
      rw [karr] at calls
      obtain ⟨here, later⟩ := forall_mem_cons.1 calls
      exact Loop.Calm.call ⟨calm.mode, later, calm.rets⟩ here (supplied k (by rw [karr]; rfl))
  | sched now tsc =>
    simp only [Loop.next]
    split
    · exact calm.crash
    · exact same
  | knock handle srcPort => exact same
  | segment handle bytes =>
    apply calm.tcpCall
    intro p
    unfold Loop.onRecv
    split_ifs
    · exact same
    · exact same
  | acked handle refs => exact calm.tcpCall fun p => same
  | hangUp handle => exact calm.tcpCall fun p => same
  | finish i buf =>
    simp only [Loop.next]
    split
    · exact calm
    · exact same
  | leave => exact ⟨Mode.noConfusion, calm.karr, calm.rets⟩
  | ret =>
    simp only [Loop.next]
    cases rets : s.rets with
    | nil => exact calm
    | cons r rest =>
      have values := calm.rets
      rw [rets] at values
      obtain ⟨here, later⟩ := forall_mem_cons.1 values
      exact Loop.Calm.handleOneRet ⟨calm.mode, calm.karr, later⟩ here
  | event args =>
    simp only [Loop.next]
    cases events : s.events with
    | nil => exact calm
    | cons e rest =>
      have rest : Loop.Calm { s with events := rest } := ⟨calm.mode, calm.karr, calm.rets⟩
      refine rest.handleEvent args e fun handle srcPort knock => ?_
      apply supplied handle srcPort
      rw [events, knock]
      rfl
  | enter => exact ⟨Mode.noConfusion, calm.karr, calm.rets⟩

end Calm

/-- No return value is fatal while the pools are not empty and the queues of the tenants are not full. -/
theorem supplied_never_fatal {m : Machine} {memory : UInt64 → Conn} {nvme : Nvme.NvmeState} {s : Loop} {ops : List Op}
    (run : Run (Guarded (loopStep m) (Loop.Supplied m)) (Loop.boot memory nvme) ops s) : s.mode ≠ .fatal := by
  have start : (Loop.boot memory nvme).Calm := ⟨Mode.noConfusion, List.forall_mem_nil _, List.forall_mem_nil _⟩
  have calm : s.Calm := by
    refine run.invariant (I := Loop.Calm) ?_ start
    rintro s op t ⟨⟨-, rfl⟩, supplied⟩ calm
    exact calm.next supplied
  exact calm.mode

def oneGet (ctx : Option Nvme.NvmeCtx) : List Op :=
  connect ++ [.segment 1 (Header.bytes ⟨24, cmdGet, 1, 8, 1⟩), .leave, .ret, plainEvent (some 2), .enter, plainCall,
    .call ⟨0, none, ctx, 0, 0⟩, .leave, .ret, .ret]

theorem one_get_is_not_fatal :
    ∃ s, Run (Guarded (loopStep directMachine) (Loop.Supplied directMachine)) (.boot blankMemory Nvme.coldState) (oneGet (some .zero)) s ∧
      s.device.length = 1 ∧ s.mode ≠ .fatal := by
  let test (s : Loop) (op : Op) : Bool := s.admits op && match op with
    | .call args => args.ctx.isSome
    | .event args => args.memory.isSome
    | _ => true
  have sound : ∀ s op, test s op = true → s.Valid directMachine op ∧ s.Supplied directMachine op := by
    intro s op pass
    obtain ⟨admits, ample⟩ := Bool.and_eq_true_iff.1 pass
    refine ⟨Loop.admits_valid _ admits, ?_⟩
    cases op with
    | call args => exact fun k _ h _ => ⟨Option.isSome_iff_ne_none.1 ample, fun scheduled => by cases scheduled⟩
    | event args => exact fun _ _ _ => Option.isSome_iff_ne_none.1 ample
    | _ => trivial
  have pass : passes (Loop.next directMachine) test (.boot blankMemory Nvme.coldState) (oneGet (some .zero)) = true := by
    decide +kernel
  have run := Run.of_passes sound pass
  exact ⟨_, run, by decide +kernel, supplied_never_fatal run⟩

/-- A client that connects while the pool of connections is empty ends the server, and so does a
read while the pool of contexts is empty. -/
theorem empty_pools_are_fatal :
    (∃ s, Run (loopStep directMachine) (.boot blankMemory Nvme.coldState)
      [.knock 1 80, .leave, plainEvent none, .enter, plainCall, .leave, .ret] s ∧ s.mode = .fatal) ∧
    ∃ s, Run (loopStep directMachine) (.boot blankMemory Nvme.coldState) (oneGet none) s ∧ s.mode = .fatal := by
  refine ⟨⟨_, Loop.run_of_admits ?_, ?_⟩, ⟨_, Loop.run_of_admits ?_, ?_⟩⟩
  all_goals decide +kernel

end Reflex.Thread
