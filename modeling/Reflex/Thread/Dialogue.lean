import Reflex.Server.Replies
import Reflex.Thread.Outcomes

/-!
# A callback as a step of its session

A callback that leaves its connection established does what the session of `Reflex.Server.Session` does in one
step, so that messages stay whole.
-/

namespace Reflex.Thread
open Lib Server Turn List

/-- The session of a connection, without its queue and what is under way. -/
def Conn.session (x : Conn) : Session := ⟨x.pp, [], [], x.completed⟩

section Dialogue

variable {env : Env} {a : UInt64} {x : Conn} {t : Turn} {sent : List Outgoing} {waiting : List NvmeReq} {generation : Nat} {send : Answers}

theorem whole_view {s : Session} (whole : s.Whole env sent waiting) (queue : List (List UInt8)) {out} (fresh : ∀ req ∈ out, req.Fresh) :
    Session.Whole env { s with queue := queue, outstanding := out } sent waiting :=
  ⟨⟨whole.steady.transmits, whole.steady.ready, fresh⟩, whole.pending, whole.completed⟩

/-- `receive_req` on a connection that is established before and after. -/
theorem session_receive_up {s : Session} {c d : PpConn} (up : c.status = .established) (read : d = (Server.receiveReq env c s.queue).1)
    (after : d.status = .established) :
    s.receive env c = { s with
      conn := d
      queue := (Server.receiveReq env c s.queue).2
      outstanding := s.outstanding ++ (d.log.drop c.log.length).filterMap ServerEvent.request } := by
  subst read
  have start : ({ c with status := .established } : PpConn) = c := by rw [← up]
  have running : c.status ≠ .aborted := Status.ne_aborted up
  rw [Session.receive, if_neg running, start]
  simp only [after, if_true, up]
  rw [← after]

/-! ## What the parts of a callback do to the connection -/

theorem Turn.sendPendingReqs_up (good : t.conn.Good env) (generation : Nat) (send : Answers) :
    (t.sendPendingReqs env generation send).conn.pp = Server.sendPendingReqs env (t.conn.answers send) t.conn.pp ∧
      (t.sendPendingReqs env generation send).conn.completed = t.conn.completed := by
  have start : ({ t.conn.pp with status := .established } : PpConn) = t.conn.pp := by rw [← good.up]
  obtain ⟨entry, t', refs, posts, conn⟩ := t.sendPendingReqs_conn env generation send
  have whole : ({ t.sent env send with status := if (t.sent env send).status = .established then t.conn.pp.status else (t.sent env send).status } : PpConn)
      = t.sent env send := by
    rw [good.up]
    split_ifs with same
    · rw [← same]
    · rfl
  rw [conn, whole]
  refine ⟨?_, ?_⟩
  · rw [sent, start]
  · show t'.conn.completed = t.conn.completed
    rw [posts.frame]

theorem Turn.receiveReq_completed (up : t.conn.pp.status = .established) :
    (t.receiveReq env generation a).conn.completed = t.conn.completed := by
  have running : t.conn.pp.status ≠ .aborted := Status.ne_aborted up
  cases alive : t.conn.isDead with
  | true =>
    rw [receiveReq_dead env generation running alive]
    split_ifs <;> rfl
  | false =>
    obtain ⟨entry, t', posts, whole⟩ := receiveReq_alive (a := a) env generation running alive
    rw [whole, run_conn]
    show t'.conn.completed = t.conn.completed
    rw [posts.frame]

/-! ## The steps -/

/-- What a callback leaves of the session: the messages, the replies among them, and the log. -/
structure Told (env : Env) (x y : Conn) (replies : Nat) (done : List NvmeReq) (sent sent' : List Outgoing) (waiting' : List NvmeReq) : Prop where
  whole : y.session.Whole env sent' waiting'
  count : sent'.countP Outgoing.isReply = sent.countP Outgoing.isReply + replies
  completed : y.completed = x.completed ++ done
  fresh : ∀ req ∈ (y.pp.log.drop x.pp.log.length).filterMap ServerEvent.request, req.Fresh

theorem Turn.ppMainHandler_told (good : x.Good env) (unrefused : x.Unrefused env send) (whole : x.session.Whole env sent waiting)
    (up : (ppMainHandler env generation a send false ⟨x, []⟩).conn.pp.status = .established) :
    ∃ sent' waiting', Told env x (ppMainHandler env generation a send false ⟨x, []⟩).conn 0 [] sent sent' waiting' := by
  obtain ⟨entry, t', posts, calls, aborted | sent₁⟩ := sendPendingReqs_sent (t := ⟨x, []⟩) good (sent_open good unrefused) generation
  · simp only [ppMainHandler, if_pos aborted] at up
    exact absurd (aborted.symm.trans up) Status.noConfusion
  have running : (sendPendingReqs env generation send ⟨x, []⟩).conn.pp.status ≠ .aborted := Status.ne_aborted sent₁.good.up
  obtain ⟨pp, completed⟩ := sendPendingReqs_up (t := ⟨x, []⟩) good generation send
  simp only [ppMainHandler, if_neg running, Bool.false_eq_true, if_false] at up ⊢
  generalize sendPendingReqs env generation send ⟨x, []⟩ = t at *
  have log : t.conn.pp.log = x.pp.log := sent₁.effect.log
  have done : (t.receiveReq env generation a).conn.completed = x.completed ++ [] := by
    rw [receiveReq_completed sent₁.good.up, completed, append_nil]
  -- a dead connection reads nothing, which is reading an empty queue
  obtain ⟨queue, read⟩ : ∃ queue, (t.receiveReq env generation a).conn.pp = (Server.receiveReq env t.conn.pp queue).1 := by
    cases alive : t.conn.isDead with
    | false =>
      have start : ({ t.conn.pp with status := .established } : PpConn) = t.conn.pp := by rw [← sent₁.good.up]
      refine ⟨t.conn.queue, ?_⟩
      rw [(receiveReq_conn env sent₁.good.up alive generation).1, received, start]
    | true =>
      have nothing : (Server.receiveReq env t.conn.pp []).1 = t.conn.pp := by
        rw [(receiveReq_feeds sent₁.good.ready []).conn, sent₁.good.ready.settled]
        rfl
      refine ⟨[], ?_⟩
      rw [receiveReq_dead env generation running alive] at up ⊢
      split_ifs at up ⊢ with never
      · cases up
      · exact nothing.symm
  have step : sessionStep env { x.session with queue := queue, outstanding := [] } (.handler (x.answers send)) _ := ⟨good.up, rfl⟩
  have quiet : SessionOp.RepliesAtOnce { x.session with queue := queue, outstanding := [] } (.handler (x.answers send)) := trivial
  obtain ⟨sent', waiting', next, count⟩ := (whole_view whole queue (forall_mem_nil _)).next quiet step
  have after : Session.next env { x.session with queue := queue, outstanding := [] } (.handler (x.answers send)) = { x.session with
      conn := (t.receiveReq env generation a).conn.pp
      queue := (Server.receiveReq env t.conn.pp queue).2
      outstanding := [] ++ ((t.receiveReq env generation a).conn.pp.log.drop t.conn.pp.log.length).filterMap ServerEvent.request } :=
    (congrArg (Session.receive env { x.session with queue := queue, outstanding := [] }) pp.symm).trans
      (session_receive_up sent₁.good.up read up)
  rw [after, log] at next
  refine ⟨sent', waiting', ⟨?_, count, done, ?_⟩⟩
  · have view := whole_view next [] (forall_mem_nil _)
    rw [Conn.session, done, append_nil]
    exact view
  · exact next.steady.fresh

theorem Turn.nvmeDoneCb_told {req : NvmeReq} {buf} (good : x.Good env)
    (whole : x.session.Whole env sent waiting) (fresh : req.Fresh) (generation : Nat) (send : Answers) :
    ∃ sent' waiting', Told env x (nvmeDoneCb env generation send (req.filled buf) ⟨x, []⟩).conn 0 [req.filled buf] sent sent' waiting' := by
  have good' : (x.done (req.filled buf)).Good env := ⟨good.up, ⟨good.ready.payload⟩⟩
  obtain ⟨pp, completed⟩ := sendPendingReqs_up (t := ⟨x.done (req.filled buf), []⟩) good' generation send
  rw [nvmeDoneCb]
  generalize result : sendPendingReqs env generation send _ = t at pp completed ⊢
  have step : sessionStep env { x.session with queue := [], outstanding := [req] } (.completion 0 buf (x.answers send)) _ :=
    ⟨⟨by rw [Conn.session, good.up]; exact Status.noConfusion, Nat.zero_lt_one⟩, rfl⟩
  have quiet : SessionOp.RepliesAtOnce { x.session with queue := [], outstanding := [req] } (.completion 0 buf (x.answers send)) := trivial
  obtain ⟨sent', waiting', next, count⟩ := (whole_view whole [] (forall_mem_singleton.2 fresh)).next quiet step
  refine ⟨sent', waiting', ⟨?_, count, completed, ?_⟩⟩
  · have view := whole_view next [] (forall_mem_nil _)
    rw [Conn.session, pp, completed]
    exact view
  · have log : t.conn.pp.log = x.pp.log := (congrArg PpConn.log pp).trans (sendPendingReqs_effect env _ _).log
    rw [log, drop_length]
    exact forall_mem_nil _

theorem Turn.nvmeRegisteredFlowCb_told (good : x.Good env) (whole : x.session.Whole env sent waiting) (alive : x.isDead = false)
    (idle : x.pp.txPending = false) (start : x.pp.txSent = 0) (all : accepts headerSize send.accepts = true) (generation fgHandle : Nat) :
    ∃ sent' waiting', Told env x (nvmeRegisteredFlowCb generation send fgHandle ⟨x, []⟩).conn 1 [] sent sent' waiting' := by
  have answers : x.answers send = send.accepts := by rw [Conn.answers, alive, if_neg Bool.false_ne_true]
  have pp := nvmeRegisteredFlowCb_conn good.up generation send fgHandle
  have completed : (nvmeRegisteredFlowCb generation send fgHandle ⟨x, []⟩).conn.completed = x.completed ++ [] := by
    obtain ⟨entry, posts⟩ := addEntry_posts generation send ⟨x, []⟩
    rw [nvmeRegisteredFlowCb, run_conn, append_nil]
    show (addEntry generation send ⟨x, []⟩).conn.completed = x.completed
    rw [posts.frame]
  generalize nvmeRegisteredFlowCb generation send fgHandle ⟨x, []⟩ = t at *
  have step : sessionStep env { x.session with queue := [], outstanding := [] } (.registered fgHandle (x.answers send)) _ :=
    ⟨by rw [Session.Valid, Conn.session, good.up]; exact Status.noConfusion, rfl⟩
  have quiet : SessionOp.RepliesAtOnce { x.session with queue := [], outstanding := [] } (.registered fgHandle (x.answers send)) := by
    rw [answers]
    exact ⟨idle, start, all⟩
  obtain ⟨sent', waiting', next, count⟩ := (whole_view whole [] (forall_mem_nil _)).next quiet step
  refine ⟨sent', waiting', ⟨?_, count, completed, ?_⟩⟩
  · have view := whole_view next [] (forall_mem_nil _)
    rw [Conn.session, pp, completed, append_nil]
    exact view
  · have log : t.conn.pp.log = x.pp.log := by
      rw [pp]
      exact (nvmeRegisteredFlowCb_effect fgHandle (x.answers send) x.pp).log
    rw [log, drop_length]
    exact forall_mem_nil _

end Dialogue

end Reflex.Thread
