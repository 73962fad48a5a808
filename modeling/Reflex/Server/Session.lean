import Reflex.Lib.Run
import Reflex.Server.Receive
import Reflex.Server.Send

/-!
# A connection and its requests

The connection as a system: segments arrive, the handler `pp_main_handler` sends and receives, requests that
were handed to the NVMe layer complete in any order, and `nvme_registered_flow_cb` answers registrations. Each
call comes with the answers of the sending functions.
-/

namespace Reflex.Server
open Lib List

def ServerEvent.request : ServerEvent → Option NvmeReq
  | .readv _ _ req | .writev _ _ req => some req
  | .registerFlow _ _ _ _ | .slot _ | .fill _ => none

/-- The device has read the blocks of the request into its pages. -/
def NvmeReq.filled (req : NvmeReq) (buf : Nat → Nat → UInt8) : NvmeReq :=
  if req.opcode = cmdGet then { req with buf := buf } else req

/-- `nvme_registered_flow_cb`: the fields `lba` and `req_handle` of the header are not set. -/
def nvmeRegisteredFlowCb (fgHandle : Int) (answers : List (Option Nat)) (c : PpConn) : PpConn :=
  let header := store (store (store c.dataSend 0 (leBytes 2 24)) 2 (leBytes 2 cmdReg.toNat)) 20 (leBytes 4 respOk.toNat)
  let r := sendLoop offerHeader PpConn.accept answers { c with nvmeFgHandle := fgHandle, dataSend := header }
  if r.done then { r.state with txSent := 0 } else r.state.refused

/-- `outstanding` are the requests at the NVMe layer, `completed` those it has returned. -/
structure Session where
  conn : PpConn
  queue : List (List UInt8)
  outstanding : List NvmeReq
  completed : List NvmeReq

def Session.accept (memory : PpConn) (srcPort : UInt16) : Session := ⟨ppAccept memory srcPort, [], [], []⟩

inductive SessionOp where
  | segment (bytes : List UInt8)
  | handler (answers : List (Option Nat))
  | completion (i : Nat) (buf : Nat → Nat → UInt8) (answers : List (Option Nat))
  | registered (fgHandle : Int) (answers : List (Option Nat))

/-- The call of `receive_req` in the handler. That sending has closed the connection does
not keep it from running. -/
def Session.receive (env : Env) (s : Session) (c : PpConn) : Session :=
  if c.status = .aborted then { s with conn := c }
  else
    let r := receiveReq env { c with status := .established } s.queue
    { s with
      conn := { r.1 with status := if r.1.status = .established then c.status else r.1.status }
      queue := r.2
      outstanding := s.outstanding ++ (r.1.log.drop c.log.length).filterMap ServerEvent.request }

/-- `nvme_response_cb` and `nvme_written_cb`. -/
def Session.complete (env : Env) (s : Session) (req : NvmeReq) (answers : List (Option Nat)) : Session :=
  { s with
    conn := sendPendingReqs env answers { s.conn with pendingRequests := s.conn.pendingRequests ++ [req] }
    completed := s.completed ++ [req] }

def Session.next (env : Env) (s : Session) : SessionOp → Session
  | .segment bytes => { s with queue := s.queue ++ [bytes] }
  | .handler answers => s.receive env (sendPendingReqs env answers s.conn)
  | .completion i buf answers =>
    match s.outstanding[i]? with
    | none => s
    | some req => { s with outstanding := s.outstanding.eraseIdx i }.complete env (req.filled buf) answers
  | .registered fgHandle answers => { s with conn := nvmeRegisteredFlowCb fgHandle answers s.conn }

/-- A closed connection gets no events of its own; after a failed assertion nothing runs. -/
def Session.Valid (s : Session) : SessionOp → Prop
  | .segment _ => True
  | .handler _ => s.conn.status = .established
  | .completion i _ _ => s.conn.status ≠ .aborted ∧ i < s.outstanding.length
  | .registered _ _ => s.conn.status ≠ .aborted

instance (s : Session) (op : SessionOp) : Decidable (s.Valid op) := by
  cases op <;> unfold Session.Valid <;> infer_instance

def sessionStep (env : Env) : Session → SessionOp → Session → Prop := Applies (Session.next env) Session.Valid

/-! ## Receiving -/

/-- Receiving leaves the sending side alone, and hands over reads with their pages unsent. -/
structure RecvFrame (c c' : PpConn) : Prop where
  tx : c'.tx = c.tx
  requests : c'.pendingRequests = c.pendingRequests
  log : ∃ new, c'.log = c.log ++ new ∧ ∀ req ∈ new.filterMap ServerEvent.request, req.Fresh

section Frame

variable {env : Env} {c d : PpConn}

theorem RecvFrame.of_log (tx : d.tx = c.tx) (requests : d.pendingRequests = c.pendingRequests) (log : d.log = c.log) : RecvFrame c d :=
  ⟨tx, requests, [], by rw [log, append_nil], forall_mem_nil _⟩

theorem RecvFrame.of_event {e} (tx : d.tx = c.tx) (requests : d.pendingRequests = c.pendingRequests)
    (log : d.log = c.log ++ [e]) (none : e.request = none) : RecvFrame c d := by
  refine ⟨tx, requests, [e], log, ?_⟩
  rw [filterMap_cons_none none]
  exact forall_mem_nil _

theorem RecvFrame.refl (c : PpConn) : RecvFrame c c := .of_log rfl rfl rfl

theorem RecvFrame.trans {e} (first : RecvFrame c d) (second : RecvFrame d e) : RecvFrame c e := by
  obtain ⟨new, log, fresh⟩ := first.log
  obtain ⟨more, log', fresh'⟩ := second.log
  refine ⟨second.tx.trans first.tx, second.requests.trans first.requests, new ++ more, ?_, ?_⟩
  · rw [log', log, append_assoc]
  · rw [filterMap_append]
    exact forall_mem_append.2 ⟨fresh, fresh'⟩

theorem RecvFrame.abort (frame : RecvFrame c d) : RecvFrame c d.abort := ⟨frame.tx, frame.requests, frame.log⟩

theorem storeHeader_recvFrame (c : PpConn) (bytes : List UInt8) : RecvFrame c (storeHeader c bytes) := .of_log rfl rfl rfl

theorem storePayload_recvFrame (c : PpConn) (bytes : List UInt8) : RecvFrame c (storePayload c bytes) := by
  by_cases first : c.rxReceived % pageSize = 0
  · exact .of_event rfl rfl (if_pos first) rfl
  · exact .of_log rfl rfl (if_neg first)

theorem allocBufs_recvFrame (supply : Nat → Option (Nat → UInt8)) (n i : Nat) (c : PpConn) : RecvFrame c (allocBufs supply n i c) := by
  induction n generalizing i c with
  | zero => exact .refl c
  | succ n ih =>
    rw [allocBufs]
    split
    · exact (RecvFrame.refl c).abort
    · refine .trans ?_ (ih (i + 1) _)
      exact .of_event rfl rfl rfl rfl

theorem receivedHeader_recvFrame (env : Env) (c : PpConn) : RecvFrame c (receivedHeader env c) := by
  have start : RecvFrame c (startRequest c) := .of_log rfl rfl rfl
  unfold receivedHeader
  cases env.alloc c.allocs with
  | none =>
    simp only
    split_ifs
    · exact (RecvFrame.refl c).abort
    · exact .of_event rfl rfl rfl rfl
    · exact .refl c
  | some supply =>
    have pages := start.trans (allocBufs_recvFrame supply (num4k env c.header.lbaCount).toNat 0 (startRequest c))
    simp only [startPayload]
    split_ifs
    · exact (RecvFrame.refl c).abort
    · exact .of_event rfl rfl rfl rfl
    · exact start.abort
    · exact pages
    · exact ⟨pages.tx, pages.requests, pages.log⟩

theorem dispatch_recvFrame (fresh : c.request.Fresh) : RecvFrame c (dispatch env c) := by
  unfold dispatch
  split_ifs
  · exact .of_log rfl rfl rfl
  · refine ⟨rfl, rfl, _, rfl, ?_⟩
    have handed : [submission env c].filterMap ServerEvent.request = [c.request] := by
      unfold submission
      split_ifs <;> rfl
    rw [handed]
    exact forall_mem_singleton.2 fresh

theorem settle_recvFrame (fresh : c.rxPending = true → c.request.Fresh) : RecvFrame c (settle env c) := by
  unfold settle
  split_ifs with pending
  · exact .refl c
  · unfold receivedPayload
    split_ifs
    · exact (RecvFrame.refl c).abort
    · exact dispatch_recvFrame (fresh pending.2)
  · exact dispatch_recvFrame (fresh pending.2)
  · exact .of_log rfl rfl rfl
  · exact .refl c

theorem feed_ready (ready : Ready env c) (b : UInt8) : Ready env (feed env c b) := by
  unfold feed
  split_ifs with down pending
  · exact ready
  · exact settle_ready env _
  · exact .of_not_pending (Or.inr (Bool.eq_false_iff.2 pending))
  · exact settle_ready env _
  · exact ready

theorem feed_recvFrame (ready : Ready env c) (b : UInt8) : RecvFrame c (feed env c b) := by
  unfold feed
  split_ifs with down pending
  · exact .refl c
  · -- only a write waits for its payload
    obtain ⟨set, -⟩ := ready.payload (not_not.1 down) pending
    refine (storePayload_recvFrame c [b]).trans (settle_recvFrame fun _ get => ?_)
    exact absurd (set.symm.trans get) (by decide)
  · exact storeHeader_recvFrame c [b]
  · refine ((storeHeader_recvFrame c [b]).trans (receivedHeader_recvFrame env _)).trans (settle_recvFrame fun starts _ => ?_)
    exact (receivedHeader_starts (c := storeHeader c [b]) (Bool.eq_false_iff.2 pending) starts).2
  · exact .refl c

theorem foldl_feed_recvFrame (ready : Ready env c) (bytes : List UInt8) : RecvFrame c (bytes.foldl (feed env) c) := by
  induction bytes generalizing c with
  | nil => exact .refl c
  | cons b bytes ih => exact (feed_recvFrame ready b).trans (ih (feed_ready ready b))

theorem receiveReq_recvFrame (ready : Ready env c) (queue : List (List UInt8)) :
    RecvFrame c (receiveReq env c queue).1 ∧ Ready env (receiveReq env c queue).1 := by
  obtain ⟨conn, -, ready'⟩ := receiveReq_feeds ready queue
  rw [ready.settled] at conn
  refine ⟨?_, ready'⟩
  rw [conn]
  exact foldl_feed_recvFrame ready _

end Frame

/-! ## Runs -/

def SessionOp.isCompletion : SessionOp → Bool
  | .completion _ _ _ => true
  | _ => false

def SessionOp.isRegistered : SessionOp → Bool
  | .registered _ _ => true
  | _ => false

/-- The sending side is in step with `stream`, and receiving can go on. -/
structure Session.Steady (env : Env) (stream : List UInt8) (s : Session) : Prop where
  transmits : Transmits env stream s.conn.pendingRequests s.conn
  ready : Ready env s.conn
  fresh : ∀ req ∈ s.outstanding, req.Fresh

structure Session.Early (env : Env) (s : Session) : Prop where
  completed : s.completed = []
  requests : s.conn.pendingRequests = []
  idle : s.conn.txPending = false
  sent : s.conn.txSent ≤ headerSize
  ready : Ready env s.conn
  fresh : ∀ req ∈ s.outstanding, req.Fresh

section Steps

variable {env : Env} {s : Session} {c d : PpConn} {stream : List UInt8}

theorem Ready.congr (ready : Ready env c) (frame : SendFrame c d) : Ready env d := by
  obtain ⟨received, pending, buffer, -⟩ : d.rxReceived = c.rxReceived ∧ d.rxPending = c.rxPending ∧ d.dataRecv = c.dataRecv ∧
      d.log = c.log := by simpa only [PpConn.rx, Prod.mk.injEq] using frame.rx
  constructor
  intro up more
  rw [pending] at more
  rw [PpConn.header, received, buffer]
  exact ready.payload (frame.up up) more

/-- The call of `receive_req` after sending has turned the connection into `c`. -/
structure Session.Received (env : Env) (s : Session) (c : PpConn) (t : Session) : Prop where
  tx : t.conn.tx = c.tx
  requests : t.conn.pendingRequests = c.pendingRequests
  ready : Ready env t.conn
  fresh : ∀ req ∈ t.outstanding, req.Fresh
  completed : t.completed = s.completed

theorem Session.receive_received (up : s.conn.status = .established) (ready : Ready env s.conn)
    (fresh : ∀ req ∈ s.outstanding, req.Fresh) (frame : SendFrame s.conn c) : s.Received env c (s.receive env c) := by
  rw [Session.receive]
  split_ifs with aborted
  · exact ⟨rfl, rfl, ready.congr frame, fresh, rfl⟩
  · have ready' : Ready env { c with status := .established } := ready.congr ⟨frame.rx, fun _ => up⟩
    obtain ⟨⟨tx, requests, new, log, handed⟩, ready''⟩ := receiveReq_recvFrame ready' s.queue
    simp only
    generalize receiveReq env { c with status := .established } s.queue = r at tx requests log ready'' ⊢
    refine ⟨tx, requests, ready''.congr ⟨rfl, fun up' => ?_⟩, ?_, rfl⟩
    · by_contra down
      exact down (by simpa only [if_neg down] using up')
    · rw [log, drop_left]
      exact forall_mem_append.2 ⟨fresh, handed⟩

theorem Session.Steady.complete {req : NvmeReq} (steady : s.Steady env stream) (fresh : req.Fresh) (answers : List (Option Nat)) :
    (s.complete env req answers).Steady env (stream ++ response env req) := by
  obtain ⟨transmits, frame⟩ := sendPendingReqs_transmits (c := { s.conn with pendingRequests := s.conn.pendingRequests ++ [req] })
    ((steady.transmits.push fresh).congr rfl) answers
  exact ⟨transmits, steady.ready.congr ⟨frame.rx, frame.up⟩, steady.fresh⟩

theorem Session.Steady.handler (steady : s.Steady env stream) (up : s.conn.status = .established) (answers : List (Option Nat)) :
    (s.next env (.handler answers)).Steady env stream ∧ (s.next env (.handler answers)).completed = s.completed ∧
      (s.next env (.handler answers)).conn.pendingRequests = (sendPendingReqs env answers s.conn).pendingRequests := by
  obtain ⟨transmits, frame⟩ := sendPendingReqs_transmits steady.transmits answers
  have received := Session.receive_received up steady.ready steady.fresh frame
  refine ⟨⟨?_, received.ready, received.fresh⟩, received.completed, received.requests⟩
  rw [Session.next, received.requests]
  exact transmits.congr received.tx

theorem NvmeReq.Fresh.filled {req : NvmeReq} (fresh : req.Fresh) (buf : Nat → Nat → UInt8) : (req.filled buf).Fresh := by
  unfold NvmeReq.filled
  split_ifs
  · exact fresh
  · exact fresh

theorem Session.Steady.next {base} {op : SessionOp} {t}
    (steady : s.Steady env (base ++ s.completed.flatMap (response env))) (other : op.isRegistered = false) (step : sessionStep env s op t) :
    t.Steady env (base ++ t.completed.flatMap (response env)) := by
  obtain ⟨valid, rfl⟩ := step
  cases op with
  | segment bytes => exact ⟨steady.transmits, steady.ready, steady.fresh⟩
  | handler answers =>
    obtain ⟨kept, completed, -⟩ := steady.handler valid answers
    rw [completed]
    exact kept
  | completion i buf answers =>
    rw [Session.next]
    cases found : s.outstanding[i]? with
    | none => exact steady
    | some req =>
      have fresh := (steady.fresh req (mem_of_getElem? found)).filled buf
      have rest : Session.Steady env (base ++ s.completed.flatMap (response env)) { s with outstanding := s.outstanding.eraseIdx i } :=
        ⟨steady.transmits, steady.ready, fun r left => steady.fresh r (mem_of_mem_eraseIdx left)⟩
      have done := rest.complete fresh answers
      simp only
      rw [Session.complete, flatMap_append, flatMap_singleton, ← append_assoc]
      exact done
  | registered fgHandle answers => cases other

theorem sendPendingReqs_none (none : c.pendingRequests = []) (answers : List (Option Nat)) : sendPendingReqs env answers c = c := by
  rw [sendPendingReqs, none, drain, ← none]

theorem nvmeRegisteredFlowCb_frame (fgHandle : Int) (answers : List (Option Nat)) (start : c.txSent ≤ headerSize) :
    let d := nvmeRegisteredFlowCb fgHandle answers c
    d.txPending = c.txPending ∧ d.txSent ≤ headerSize ∧ d.pendingRequests = c.pendingRequests ∧ SendFrame c d := by
  rw [nvmeRegisteredFlowCb]
  generalize asked : ({ c with nvmeFgHandle := fgHandle, dataSend := _ } : PpConn) = d
  have same : d.txSent = c.txSent ∧ d.txPending = c.txPending ∧ d.pendingRequests = c.pendingRequests := by
    rw [← asked]
    exact ⟨rfl, rfl, rfl⟩
  have begun : SendFrame c d := by
    rw [← asked]
    exact ⟨rfl, id⟩
  obtain ⟨cursor, -⟩ := header_loop (same.1.le.trans start) answers
  simp only
  generalize sendLoop offerHeader PpConn.accept answers d = r at cursor ⊢
  have frame := begun.trans cursor.sendFrame
  have pending : r.state.txPending = c.txPending := by
    rw [cursor.frame]
    exact same.2.1
  have requests : r.state.pendingRequests = c.pendingRequests := by
    rw [cursor.frame]
    exact same.2.2
  split_ifs
  · exact ⟨pending, Nat.zero_le _, requests, frame.rx, frame.up⟩
  · have refused := frame.refused
    unfold PpConn.refused at refused ⊢
    split_ifs at refused ⊢
    · exact ⟨pending, cursor.bound, requests, refused⟩
    · exact ⟨pending, cursor.bound, requests, refused⟩

theorem Session.Early.next {op : SessionOp} {t} (early : s.Early env) (other : op.isCompletion = false)
    (step : sessionStep env s op t) : t.Early env := by
  obtain ⟨valid, rfl⟩ := step
  cases op with
  | segment bytes => exact ⟨early.completed, early.requests, early.idle, early.sent, early.ready, early.fresh⟩
  | handler answers =>
    have received := Session.receive_received valid early.ready early.fresh (SendFrame.refl _)
    obtain ⟨-, sent, pending⟩ := PpConn.tx_eq_iff.1 received.tx
    rw [Session.next, sendPendingReqs_none early.requests]
    exact ⟨received.completed.trans early.completed, received.requests.trans early.requests, pending.trans early.idle,
      sent.le.trans early.sent, received.ready, received.fresh⟩
  | completion i buf answers => cases other
  | registered fgHandle answers =>
    obtain ⟨pending, sent, requests, frame⟩ := nvmeRegisteredFlowCb_frame fgHandle answers early.sent
    exact ⟨early.completed, requests.trans early.requests, pending.trans early.idle, sent, early.ready.congr frame, early.fresh⟩

theorem Session.accept_early (memory : PpConn) (srcPort : UInt16) : (Session.accept memory srcPort).Early env :=
  ⟨rfl, rfl, rfl, Nat.zero_le _, .of_not_pending (Or.inr rfl), forall_mem_nil _⟩

end Steps

/-- After the reply to the registration and without another one, the bytes accepted at any
time are the beginning of the responses in the order of the completions, and all of them
once no request is pending. -/
theorem responses_in_completion_order {env : Env} {memory : PpConn} {srcPort : UInt16} {before after : List SessionOp} {s t : Session}
    (first : Run (sessionStep env) (Session.accept memory srcPort) before s) (early : ∀ op ∈ before, op.isCompletion = false)
    (replied : s.conn.txSent = 0) (second : Run (sessionStep env) s after t) (once : ∀ op ∈ after, op.isRegistered = false) :
    t.conn.wire <+: s.conn.wire ++ t.completed.flatMap (response env) ∧
      (t.conn.pendingRequests = [] → t.conn.wire = s.conn.wire ++ t.completed.flatMap (response env)) := by
  have begun : s.Early env := first.invariant_mem (fun _ op _ member step early' => early'.next (early op member) step)
    (Session.accept_early memory srcPort)
  have start : s.Steady env (s.conn.wire ++ s.completed.flatMap (response env)) := by
    refine ⟨?_, begun.ready, begun.fresh⟩
    rw [begun.requests, begun.completed]
    exact .start begun.idle replied (List.forall_mem_nil _) rfl
  have steady : t.Steady env (s.conn.wire ++ t.completed.flatMap (response env)) :=
    second.invariant_mem (I := fun u => u.Steady env (s.conn.wire ++ u.completed.flatMap (response env)))
      (fun _ op _ member step steady => steady.next (once op member) step) start
  exact steady.transmits.accepted

/-- A block is read; the header is accepted in two pieces, and 100 bytes of the block before
the library refuses more. -/
theorem response_in_pieces :
    let env := ampleEnv 1048576 512
    let s := (Session.accept blankConn 80).next env (.registered 5 [some 23])
    let t := ((s.next env (.segment (Header.bytes ⟨24, cmdGet, 1, 8, 1⟩))).next env (.handler [])).next env
      (.completion 0 (fun _ _ => 7) [some 9, some 99, some 99, none])
    t.conn.wire.length = 24 + 24 + 100 ∧ t.conn.wire <+: s.conn.wire ++ t.completed.flatMap (response env) := by
  intro env s t
  have first : Run (sessionStep env) (Session.accept blankConn 80) [.registered 5 [some 23]] s :=
    .single ⟨by decide +kernel, rfl⟩
  have second : Run (sessionStep env) s [.segment (Header.bytes ⟨24, cmdGet, 1, 8, 1⟩), .handler [],
      .completion 0 (fun _ _ => 7) [some 9, some 99, some 99, none]] t :=
    .cons ⟨trivial, rfl⟩ (.cons ⟨by decide +kernel, rfl⟩ (.single ⟨by decide +kernel, rfl⟩))
  exact ⟨by decide +kernel, (responses_in_completion_order first (by decide) (by decide +kernel) second (by decide)).1⟩

end Reflex.Server
