import Reflex.Thread.Handlers

/-!
# The passes of a server thread

`sys_bpoll` of `core/syscall.c` makes the calls of the batch in order, then lets the scheduler, the network
and the device run; `ixev_wait` of `libix/ixev.c` then handles the return values and, after them, the events.
Each call, each occurrence in the kernel, each return value and each event is a step. The scheduler, the
network and the device act in any order.

`sendv` takes what the network allows. Left out are the depth of the batch and of the array of received
segments, migration and the timers.
-/

namespace Reflex.Thread
open Lib Server

def retNotsup : Int := 7
def retClosed : Int := 9

/-! ## The kernel -/

/-- What a call meets: the bytes that `tcp_write` takes, the pools of queues and contexts, and the
addresses of the pages and of the request. -/
structure CallArgs where
  taken : Nat
  swq : Option Nat
  ctx : Option Nvme.NvmeCtx
  buf : UInt64
  cookie : UInt64

def Ksys.ioOp (m : Machine) (args : CallArgs) : Ksys → Option Nvme.IoOp
  | .nvmeWritev fgHandle numSgls _ _ req =>
    some (.writev m.cpu fgHandle.toNat args.buf (Int32.ofInt numSgls) req.lba req.lbaCount args.cookie args.ctx)
  | .nvmeReadv fgHandle numSgls _ _ req =>
    some (.readv m.cpu fgHandle.toNat args.buf (Int32.ofInt numSgls) req.lba req.lbaCount args.cookie args.ctx)
  | .nvmeRegisterFlow flowGroupId cookie slo => some (.reg (.register m.cpu (Int64.ofInt flowGroupId) cookie slo args.swq))
  | .nvmeUnregisterFlow fgHandle => some (.reg (.unregister m.cpu fgHandle.toNat))
  | .tcpAccept _ _ | .tcpReject _ | .tcpSendv _ | .tcpRecvDone _ | .tcpClose _ => none

/-- The request of a call, with its connection. -/
def Ksys.request : Ksys → Option (UInt64 × NvmeReq)
  | .nvmeWritev _ _ _ a req | .nvmeReadv _ _ _ a req => some (a, req)
  | _ => none

/-- The events of registrations; a device posts its own when it is done. -/
def usysEvent : Nvme.UsysEvent → Option Event
  | .nvmeRegisteredFlow fgHandle cookie _ => some (.nvmeRegisteredFlow fgHandle cookie)
  | .nvmeUnregisteredFlow fgHandle _ => some (.nvmeUnregisteredFlow fgHandle)
  | .nvmeWritten _ _ | .nvmeResponse _ _ _ => none

/-- The events that a call of the NVMe layer has posted. -/
def posted (cpu : Nat) (before after : Nvme.NvmeState) : List Event :=
  ((after.usys cpu).drop (before.usys cpu).length).filterMap usysEvent

def Loop.returns (s : Loop) (k : Ksys) (cookie : UInt64) (ret : Int) : Loop := { s with rets := s.rets ++ [⟨k, cookie, ret⟩] }

def Loop.crash (s : Loop) : Loop := { s with mode := .crashed }

/-- A call of the NVMe layer; one without a queue uses a null pointer. -/
def Loop.nvmeCall (m : Machine) (s : Loop) (args : CallArgs) (k : Ksys) : Loop :=
  match (k.ioOp m args).bind (Nvme.IoOp.run m.cfg s.nvme) with
  | none => s.crash
  | some (ret, nvme) => Loop.returns { s with
      nvme := nvme
      device := if ret = 0 then s.device ++ k.request.toList else s.device
      events := s.events ++ posted m.cpu s.nvme nvme } k 0 ret

/-- A call with a handle: `handle_to_tcpapi` reads the cookie of an entry that may be gone. -/
def Loop.tcpCall (s : Loop) (handle : Nat) (f : Pcb → Loop) : Loop :=
  match s.pcbs handle with
  | none => s.crash
  | some p => f p

def Loop.call (m : Machine) (s : Loop) (args : CallArgs) (k : Ksys) : Loop :=
  match k with
  | .tcpAccept handle cookie => s.tcpCall handle fun p => Loop.returns { s with
      pcbs := Function.update s.pcbs handle (some { p with cookie := cookie, accepted := true })
      events := s.events ++ p.recvd.map (.tcpRecv cookie) } k p.cookie 0
  | .tcpReject _ => s.returns k 0 (-retNotsup)
  | .tcpSendv handle => s.tcpCall handle fun p => s.returns k p.cookie (if p.alive then args.taken else -retClosed)
  | .tcpRecvDone handle => s.tcpCall handle fun p => s.returns k p.cookie 0
  | .tcpClose handle => s.tcpCall handle fun p => Loop.returns { s with
      pcbs := Function.update s.pcbs handle none } k p.cookie 0
  | .nvmeWritev _ _ _ _ _ | .nvmeReadv _ _ _ _ _ | .nvmeRegisterFlow _ _ _ | .nvmeUnregisterFlow _ => s.nvmeCall m args k

/-! ## The event library -/

def Loop.setConn (s : Loop) (a : UInt64) (x : Conn) : Loop := { s with conns := Function.update s.conns a x }

/-- `ixev_handle_close_ret`: the references that are left, then `pp_release`. -/
def Loop.release (s : Loop) (a : UInt64) : Loop :=
  { s.setConn a { s.conns a with refs := [] } with
    taken := Function.update s.taken a false
    marks := s.marks ++ (s.conns a).refs.map (fun _ => .used a .sendCompleted) ++ [.released a] }

/-- `ixev_handle_one_ret`. The cookie is the connection; it is null for one that was never
accepted. -/
def Loop.handleOneRet (s : Loop) (r : Ret) : Loop :=
  match r.call with
  | .tcpSendv _ =>
    if r.cookie = 0 then s.crash
    else if r.ret < 0 then s.setConn r.cookie { s.conns r.cookie with isDead := true }
    else s
  | .tcpClose _ => if r.ret < 0 then s else if r.cookie = 0 then s.crash else s.release r.cookie
  | .nvmeRegisterFlow _ _ _ | .nvmeUnregisterFlow _ => s
  | .tcpAccept _ _ | .tcpReject _ | .tcpRecvDone _ | .nvmeWritev _ _ _ _ _ | .nvmeReadv _ _ _ _ _ =>
    if r.ret = 0 then s else { s with mode := .fatal }

/-- What an event meets: the pool of connections, the sending functions, and whether an
acknowledgement finds entries in the array `send`. -/
structure EventArgs where
  memory : Option UInt64
  send : Answers
  resend : Bool

/-- A callback runs on the connection at an address. -/
def Loop.callback (s : Loop) (a : UInt64) (k : Callback) (f : Turn → Turn) : Loop :=
  let t := f ⟨s.conns a, []⟩
  { s.setConn a t.conn with
    karr := s.karr ++ t.calls
    marks := s.marks ++ .used a k :: (t.calls.filter Ksys.isClose).map fun _ => .closed a
    mode := if t.conn.pp.status = .aborted then .aborted else s.mode }

/-- `pp_main_handler`, if its events are enabled. -/
def Loop.mainHandler (m : Machine) (s : Loop) (a : UInt64) (send : Answers) (hup : Bool) : Loop :=
  if (s.conns a).pp.status = .established then
    s.callback a .mainHandler (Turn.ppMainHandler (m.env a) s.generation a send hup)
  else s

/-- `ixev_tcp_knock`. -/
def Loop.tcpKnock (s : Loop) (memory : Option UInt64) (handle : Nat) (srcPort : UInt16) : Loop :=
  match memory with
  | none => { s with karr := s.karr ++ [.tcpReject handle] }
  | some a => { s.setConn a (accepted (s.conns a) handle srcPort) with
      taken := Function.update s.taken a true
      karr := s.karr ++ [.tcpAccept handle a]
      marks := s.marks ++ [.opened a] }

/-- `ixev_tcp_sent` before it calls the handler. -/
def Loop.acknowledged (s : Loop) (a : UInt64) (refs : Nat) (resend : Bool) : Loop :=
  let t : Turn := ⟨{ s.conns a with refs := (s.conns a).refs.drop refs }, []⟩
  let t := if resend then t.sendv s.generation else t
  { s.setConn a t.conn with
    karr := s.karr ++ t.calls
    marks := s.marks ++ ((s.conns a).refs.take refs).map fun _ => .used a .sendCompleted }

def Loop.handleEvent (m : Machine) (s : Loop) (args : EventArgs) : Event → Loop
  | .tcpKnock handle srcPort => s.tcpKnock args.memory handle srcPort
  | .tcpRecv a bytes =>
    (s.setConn a { s.conns a with queue := (s.conns a).queue ++ [bytes] }).mainHandler m a args.send false
  | .tcpSent a refs => (s.acknowledged a refs args.resend).mainHandler m a args.send false
  | .tcpDead a => if a = 0 then s else (s.setConn a { s.conns a with isDead := true }).mainHandler m a args.send true
  | .nvmeRegisteredFlow fgHandle a => s.callback a .registeredFlow (Turn.nvmeRegisteredFlowCb s.generation args.send fgHandle)
  | .nvmeUnregisteredFlow _ => s
  | .nvmeDone a req buf => s.callback a .nvmeDone (Turn.nvmeDoneCb (m.env a) s.generation args.send (req.filled buf))

/-! ## Steps -/

inductive Op where
  | call (args : CallArgs)
  | sched (now tsc : Nat)
  | knock (handle : Nat) (srcPort : UInt16)
  | segment (handle : Nat) (bytes : List UInt8)
  | acked (handle : Nat) (refs : Nat)
  | hangUp (handle : Nat)
  | finish (i : Nat) (buf : Nat → Nat → UInt8)
  | leave
  | ret
  | event (args : EventArgs)
  | enter

def Loop.post (s : Loop) (e : Event) : Loop := { s with events := s.events ++ [e] }

/-- `on_recv`: before the connection is accepted the segment waits. -/
def Loop.onRecv (s : Loop) (handle : Nat) (p : Pcb) (bytes : List UInt8) : Loop :=
  if p.accepted then s.post (.tcpRecv p.cookie bytes)
  else { s with pcbs := Function.update s.pcbs handle (some { p with recvd := p.recvd ++ [bytes] }) }

def Loop.next (m : Machine) (s : Loop) : Op → Loop
  | .call args =>
    match s.karr with
    | [] => s
    | k :: rest => Loop.call m { s with karr := rest } args k
  | .sched now tsc =>
    match (Nvme.IoOp.sched m.cpu now tsc).run m.cfg s.nvme with
    | none => s.crash
    | some (_, nvme) => { s with nvme := nvme }
  | .knock handle srcPort =>
    Loop.post { s with pcbs := Function.update s.pcbs handle (some ⟨0, false, true, []⟩) } (.tcpKnock handle srcPort)
  | .segment handle bytes => s.tcpCall handle fun p => s.onRecv handle p bytes
  | .acked handle refs => s.tcpCall handle fun p => s.post (.tcpSent p.cookie refs)
  | .hangUp handle => s.tcpCall handle fun p =>
      Loop.post { s with pcbs := Function.update s.pcbs handle (some { p with alive := false }) } (.tcpDead p.cookie)
  | .finish i buf =>
    match s.device[i]? with
    | none => s
    | some (a, req) => Loop.post { s with device := s.device.eraseIdx i } (.nvmeDone a req buf)
  | .leave => { s with mode := .user, generation := s.generation + 1 }
  | .ret =>
    match s.rets with
    | [] => s
    | r :: rest => Loop.handleOneRet { s with rets := rest } r
  | .event args =>
    match s.events with
    | [] => s
    | e :: rest => Loop.handleEvent m { s with events := rest } args e
  | .enter => { s with mode := .kernel }

/-- The pool of queues hands out only what is free. -/
def Ksys.Fresh (m : Machine) (s : Loop) (args : CallArgs) (k : Ksys) : Prop :=
  ∀ op, k.ioOp m args = some (.reg op) → op.Fresh m.cfg s.nvme

/-- The pool of connections does so, too. -/
def Loop.Offers (s : Loop) (args : EventArgs) : Prop := ∀ a, args.memory = some a → a ≠ 0 ∧ s.taken a = false

def Loop.Valid (m : Machine) (s : Loop) : Op → Prop
  | .call args => s.mode = .kernel ∧ ∃ k rest, s.karr = k :: rest ∧ k.Fresh m s args
  | .sched _ _ => s.mode = .kernel ∧ s.karr = []
  | .knock handle _ => s.mode = .kernel ∧ s.karr = [] ∧ s.pcbs handle = none
  | .segment handle _ => s.mode = .kernel ∧ s.karr = [] ∧ ∃ p, s.pcbs handle = some p ∧ p.alive = true
  | .acked handle _ => s.mode = .kernel ∧ s.karr = [] ∧ ∃ p, s.pcbs handle = some p ∧ p.accepted = true
  | .hangUp handle => s.mode = .kernel ∧ s.karr = [] ∧ ∃ p, s.pcbs handle = some p
  | .finish i _ => s.mode = .kernel ∧ s.karr = [] ∧ i < s.device.length
  | .leave => s.mode = .kernel ∧ s.karr = []
  | .ret => s.mode = .user ∧ s.rets ≠ []
  | .event args => s.mode = .user ∧ s.rets = [] ∧ s.events ≠ [] ∧ s.Offers args
  | .enter => s.mode = .user ∧ s.rets = [] ∧ s.events = []

/-- A test for concrete runs, in which no queue is taken from the pool. -/
def Loop.admits (s : Loop) : Op → Bool
  | .call args => s.mode = .kernel && !s.karr.isEmpty && args.swq.isNone
  | .sched _ _ => s.mode = .kernel && s.karr.isEmpty
  | .knock handle _ => s.mode = .kernel && s.karr.isEmpty && (s.pcbs handle).isNone
  | .segment handle _ => s.mode = .kernel && s.karr.isEmpty && (s.pcbs handle).any Pcb.alive
  | .acked handle _ => s.mode = .kernel && s.karr.isEmpty && (s.pcbs handle).any Pcb.accepted
  | .hangUp handle => s.mode = .kernel && s.karr.isEmpty && (s.pcbs handle).isSome
  | .finish i _ => s.mode = .kernel && s.karr.isEmpty && i < s.device.length
  | .leave => s.mode = .kernel && s.karr.isEmpty
  | .ret => s.mode = .user && !s.rets.isEmpty
  | .event args => s.mode = .user && s.rets.isEmpty && !s.events.isEmpty && args.memory.all fun a => a ≠ 0 && !s.taken a
  | .enter => s.mode = .user && s.rets.isEmpty && s.events.isEmpty

theorem Loop.admits_valid (m : Machine) {s : Loop} {op} (admits : s.admits op = true) : s.Valid m op := by
  cases op with
  | call args =>
    simp only [Loop.admits, Bool.and_eq_true, decide_eq_true_eq, Bool.not_eq_true', List.isEmpty_eq_false_iff, Option.isNone_iff_eq_none] at admits
    obtain ⟨⟨mode, calls⟩, none⟩ := admits
    obtain ⟨k, rest, karr⟩ := List.exists_cons_of_ne_nil calls
    refine ⟨mode, k, rest, karr, fun op asks => ?_⟩
    cases k <;> cases asks
    · rw [none]
      trivial
    · trivial
  | event args =>
    simp only [Loop.admits, Bool.and_eq_true, decide_eq_true_eq, Bool.not_eq_true', List.isEmpty_eq_false_iff, List.isEmpty_iff] at admits
    obtain ⟨⟨⟨mode, rets⟩, events⟩, offers⟩ := admits
    refine ⟨mode, rets, events, fun a memory => ?_⟩
    simpa [memory] using offers
  | segment handle bytes =>
    simp only [Loop.admits, Bool.and_eq_true, decide_eq_true_eq, List.isEmpty_iff, Option.any_eq_true] at admits
    exact ⟨admits.1.1, admits.1.2, admits.2⟩
  | acked handle refs =>
    simp only [Loop.admits, Bool.and_eq_true, decide_eq_true_eq, List.isEmpty_iff, Option.any_eq_true] at admits
    exact ⟨admits.1.1, admits.1.2, admits.2⟩
  | hangUp handle =>
    simp only [Loop.admits, Bool.and_eq_true, decide_eq_true_eq, List.isEmpty_iff, Option.isSome_iff_exists] at admits
    exact ⟨admits.1.1, admits.1.2, admits.2⟩
  | knock handle srcPort =>
    simp only [Loop.admits, Bool.and_eq_true, decide_eq_true_eq, List.isEmpty_iff, Option.isNone_iff_eq_none] at admits
    exact ⟨admits.1.1, admits.1.2, admits.2⟩
  | finish i buf =>
    simp only [Loop.admits, Bool.and_eq_true, decide_eq_true_eq, List.isEmpty_iff] at admits
    exact ⟨admits.1.1, admits.1.2, admits.2⟩
  | ret =>
    simp only [Loop.admits, Bool.and_eq_true, decide_eq_true_eq, Bool.not_eq_true', List.isEmpty_eq_false_iff] at admits
    exact admits
  | enter =>
    simp only [Loop.admits, Bool.and_eq_true, decide_eq_true_eq, List.isEmpty_iff] at admits
    exact ⟨admits.1.1, admits.1.2, admits.2⟩
  | sched | leave =>
    simp only [Loop.admits, Bool.and_eq_true, decide_eq_true_eq, List.isEmpty_iff] at admits
    exact admits

def loopStep (m : Machine) : Loop → Op → Loop → Prop := Applies (Loop.next m) (Loop.Valid m)

theorem Loop.run_of_admits {m s ops} (pass : passes (Loop.next m) Loop.admits s ops = true) :
    Run (loopStep m) s ops (ops.foldl (Loop.next m) s) := by
  have sound : ∀ (s : Loop) (op : Op), s.admits op = true → s.Valid m op ∧ True := by
    intro s op admits
    exact ⟨Loop.admits_valid _ admits, trivial⟩
  exact (Run.of_passes sound pass).unguarded

/-! ## A small machine

A thread that hands requests to the device at once, and memory that was never used. -/

def directMachine : Machine where
  cfg := { Nvme.flatCfg with nvmeSchedFlag := false }
  cpu := 0
  nsSize := 2 ^ 20
  nsSectorSize := 512
  pools := fun _ _ => some fun _ => some fun _ => 0

def blankMemory : UInt64 → Conn := fun _ => ⟨blankConn, [], [], [], 0, false, 0, false, false⟩

/-- A call, and an event whose answers are taken in full. -/
def plainCall : Op := .call ⟨0, none, some .zero, 0, 0⟩

def plainEvent (memory : Option UInt64) : Op := .event ⟨memory, ⟨List.replicate 8 (some 4096), false⟩, false⟩

/-- A client connects at handle 1 and gets the memory at address 1. -/
def connect : List Op := [.knock 1 80, .leave, plainEvent (some 1), .enter, plainCall]

end Reflex.Thread
