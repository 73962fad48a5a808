import Reflex.Thread.State

/-!
# The callbacks of the server

What `pp_main_handler`, `nvme_written_cb`, `nvme_response_cb` and `nvme_registered_flow_cb` of
`apps/reflex_server.c` do to their connection, and the calls that they put into the batch. The
work on the connection is that of the modules on the server; here is the part of
`libix/ixev.c` around it: the descriptors of a pass, a connection that is dead, and closing,
which is counted even if the connection was closed before.
-/

namespace Reflex.Thread
open Lib Server

/-- A connection during a callback, and the calls that the callback has made. -/
structure Turn where
  conn : Conn
  calls : List Ksys

/-- What the sending functions answer, and whether the array `send` gets an entry. -/
structure Answers where
  accepts : List (Option Nat)
  entry : Bool

/-- `__ixev_check_generation`. -/
def Conn.checkGeneration (generation : Nat) (x : Conn) : Conn :=
  if x.generation = generation then x else { x with generation := generation, recvDoneDesc := false, sendvDesc := false }

/-- `__ixev_recv_done`: one call in each pass. -/
def Turn.recvDone (generation : Nat) (t : Turn) : Turn :=
  let x := t.conn.checkGeneration generation
  if x.recvDoneDesc then { t with conn := x } else ⟨{ x with recvDoneDesc := true }, t.calls ++ [.tcpRecvDone x.handle]⟩

/-- `__ixev_sendv`. -/
def Turn.sendv (generation : Nat) (t : Turn) : Turn :=
  let x := t.conn.checkGeneration generation
  if x.sendvDesc then { t with conn := x } else ⟨{ x with sendvDesc := true }, t.calls ++ [.tcpSendv x.handle]⟩

/-- `ixev_close`. -/
def Turn.close (t : Turn) : Turn := ⟨{ t.conn with pp := t.conn.pp.close }, t.calls ++ [.tcpClose t.conn.handle]⟩

/-- A function of the server that may close the connection before it returns. -/
def Turn.run (f : PpConn → PpConn) (t : Turn) : Turn :=
  let c := f { t.conn.pp with status := .established }
  let next : Turn := { t with conn := { t.conn with
    pp := { c with status := if c.status = .established then t.conn.pp.status else c.status } } }
  if c.status = .closed then next.close else next

def Conn.answers (x : Conn) (send : Answers) : List (Option Nat) := if x.isDead then [] else send.accepts

/-- The first requests of the list have been sent; those with a payload are freed once it is
acknowledged. -/
def sentRefs (before after : List NvmeReq) : List NvmeReq :=
  (before.take (before.length - after.length)).filter fun req => req.opcode == cmdGet

def Turn.addEntry (generation : Nat) (send : Answers) (t : Turn) : Turn :=
  if send.entry && !t.conn.isDead then t.sendv generation else t

def Turn.sendPendingReqs (env : Env) (generation : Nat) (send : Answers) (t : Turn) : Turn :=
  let answers := t.conn.answers send
  let after := (Server.sendPendingReqs env answers { t.conn.pp with status := .established }).pendingRequests
  let t := t.addEntry generation send
  Turn.run (Server.sendPendingReqs env answers) { t with conn := { t.conn with
    refs := t.conn.refs ++ sentRefs t.conn.pp.pendingRequests after } }

/-- `receive_req`; on a dead connection `ixev_recv` fails. -/
def Turn.receiveReq (env : Env) (generation : Nat) (a : UInt64) (t : Turn) : Turn :=
  if t.conn.pp.status = .aborted then t
  else if t.conn.isDead then if t.conn.pp.nvmePending = 0 then t.close else t
  else
    let queue := t.conn.queue
    let r := Server.receiveReq env { t.conn.pp with status := .established } queue
    let new := (r.1.log.drop t.conn.pp.log.length).filterMap (ServerEvent.call a t.conn.pp.connFgHandle)
    let t := if r.2.flatten.length < queue.flatten.length then t.recvDone generation else t
    Turn.run (fun c => (Server.receiveReq env c queue).1) ⟨{ t.conn with queue := r.2 }, t.calls ++ new⟩

def Turn.ppMainHandler (env : Env) (generation : Nat) (a : UInt64) (send : Answers) (hup : Bool) (t : Turn) : Turn :=
  let t := t.sendPendingReqs env generation send
  if t.conn.pp.status = .aborted then t
  else if hup then Turn.close ⟨t.conn, t.calls ++ [.nvmeUnregisterFlow t.conn.pp.nvmeFgHandle]⟩
  else t.receiveReq env generation a

/-- A completed request joins those whose responses wait. -/
def Conn.done (x : Conn) (req : NvmeReq) : Conn :=
  { x with pp := { x.pp with pendingRequests := x.pp.pendingRequests ++ [req] }, completed := x.completed ++ [req] }

/-- `nvme_written_cb` and `nvme_response_cb`. -/
def Turn.nvmeDoneCb (env : Env) (generation : Nat) (send : Answers) (req : NvmeReq) (t : Turn) : Turn :=
  Turn.sendPendingReqs env generation send { t with conn := t.conn.done req }

def Turn.nvmeRegisteredFlowCb (generation : Nat) (send : Answers) (fgHandle : Nat) (t : Turn) : Turn :=
  Turn.run (Server.nvmeRegisteredFlowCb fgHandle (t.conn.answers send)) (t.addEntry generation send)

end Reflex.Thread
