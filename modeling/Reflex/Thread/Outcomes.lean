import Reflex.Lib.Leases
import Reflex.Server.Headers
import Reflex.Thread.Posted

/-!
# What a callback comes to

A callback on an established connection fails an assertion, leaves the connection open, or closes it, once.
-/

namespace Reflex.Thread
open Lib Server List Turn ServerEvent Status Ksys

/-- What a call needs of the connections. -/
def Ksys.claim : Ksys → Option (Claim UInt64 Nat)
  | .tcpAccept handle a => some (.opening handle a)
  | .tcpClose handle => some (.closing handle)
  | .nvmeWritev _ _ _ a _ | .nvmeReadv _ _ _ a _ | .nvmeRegisterFlow _ a _ => some (.user a)
  | .tcpReject _ | .tcpSendv _ | .tcpRecvDone _ | .nvmeUnregisterFlow _ => none

/-- An established connection between two callbacks. -/
structure Conn.Good (env : Env) (x : Conn) : Prop where
  up : x.pp.status = .established
  ready : Ready env x.pp

structure Conn.Keeps (env : Env) (x y : Conn) : Prop where
  handle : y.handle = x.handle
  ready : Ready env y.pp

inductive Outcome (env : Env) (a : UInt64) (settled : Prop) (x : Conn) (t : Turn) : Prop where
  | aborts (status : t.conn.pp.status = .aborted) (closes : (t.calls.filter Ksys.isClose).length ≤ 1)
  | stays (status : t.conn.pp.status = .established) (keeps : x.Keeps env t.conn)
      (calls : ∀ k ∈ t.calls, k.claim = none ∨ k.claim = some (.user a))
  | closes (status : t.conn.pp.status = .closed) (keeps : x.Keeps env t.conn) (reason : settled)
      (calls : t.calls.filterMap Ksys.claim = [.closing x.handle]) (once : (t.calls.filter Ksys.isClose).length = 1)

section Outcomes

variable {env : Env} {a : UInt64} {settled : Prop} {x : Conn} {t : Turn} {generation : Nat}

/-! ## Calls -/

theorem isClose_iff_claim {k : Ksys} : k.isClose = true ↔ ∃ h, k.claim = some (.closing h) := by
  cases k <;> simp [isClose, claim]

theorem claim_of_asks {k flow e} (call : call a flow e = some k) :
    k.claim = some (.user a) := by
  cases e <;> cases call <;> rfl

theorem no_closes {calls : List Ksys} (others : ∀ k ∈ calls, k.claim = none ∨ k.claim = some (.user a)) : calls.filter isClose = [] := by
  refine filter_eq_nil_iff.2 fun k member close => ?_
  obtain ⟨h, claim⟩ := isClose_iff_claim.1 close
  rcases others k member with none | user
  · rw [none] at claim
    cases claim
  · rw [user] at claim
    cases claim

theorem Turn.Posts.claims {t' more} (posts : t.Posts more t') : ∀ k ∈ more, k.claim = none := by
  intro k member
  rcases posts.own k member with rfl | rfl <;> rfl

theorem filterMap_claim_none {calls : List Ksys} (none : ∀ k ∈ calls, k.claim = none) : calls.filterMap claim = [] :=
  filterMap_eq_nil_iff.2 none

theorem closeCall_of_open {handle} {c : PpConn} (up : c.status ≠ .closed) : closeCall handle c = [] := if_neg up

/-! ## Sending -/

theorem Turn.run_conn (f : PpConn → PpConn) (t : Turn) :
    (t.run f).conn = { t.conn with pp := { f { t.conn.pp with status := .established } with
      status := if (f { t.conn.pp with status := .established }).status = .established then t.conn.pp.status
        else (f { t.conn.pp with status := .established }).status } } := by
  simp only [run]
  split_ifs with closed up
  · rw [closed] at up
    cases up
  · simp only [close, PpConn.close]
    rw [closed]
  · rfl
  · rfl

theorem Turn.run_conn_up {f} (up : t.conn.pp.status = .established) : (t.run f).conn = { t.conn with pp := f t.conn.pp } := by
  have start : ({ t.conn.pp with status := .established } : PpConn) = t.conn.pp := by rw [← up]
  have last : ∀ c : PpConn, ({ c with status := if c.status = .established then .established else c.status } : PpConn) = c := by
    intro c
    split_ifs with same
    · rw [← same]
    · rfl
  rw [run_conn, start, up, last]

/-- The responses that wait while `nvme_pending` is zero are all taken. The counter is never reset and zero again after
`2 ^ 32` requests; a refusal then closes the connection. -/
def Conn.Unrefused (env : Env) (send : Answers) (x : Conn) : Prop :=
  x.pp.nvmePending = 0 → (Server.sendPendingReqs env (x.answers send) x.pp).pendingRequests = []

theorem Turn.sent_open {send} (good : t.conn.Good env) (unrefused : t.conn.Unrefused env send) : (t.sent env send).status ≠ .closed := by
  have start : ({ t.conn.pp with status := .established } : PpConn) = t.conn.pp := by rw [← good.up]
  rw [sent, start]
  intro closed
  rcases (sendPendingReqs_effect env (t.conn.answers send) t.conn.pp).status with same | aborted | ⟨-, zero⟩
  · exact absurd (closed.symm.trans (same.trans good.up)) noConfusion
  · exact absurd (closed.symm.trans aborted) noConfusion
  · exact absurd (closed.symm.trans ((sendPendingReqs_status (unrefused zero)).trans good.up)) noConfusion

theorem Turn.sendPendingReqs_conn (env : Env) (generation : Nat) (send : Answers) (t : Turn) :
    ∃ entry t' refs, t.Posts entry t' ∧ (t.sendPendingReqs env generation send).conn = { t'.conn with
      refs := refs
      pp := { t.sent env send with
        status := if (t.sent env send).status = .established then t.conn.pp.status else (t.sent env send).status } } := by
  obtain ⟨entry, added⟩ := t.addEntry_posts generation send
  refine ⟨entry, _, (t.addEntry generation send).conn.refs ++ sentRefs t.conn.pp.pendingRequests (t.sent env send).pendingRequests,
    added, ?_⟩
  rw [sendPendingReqs, run_conn]
  simp only [added.pp]
  rfl

theorem Turn.sent_effect (env : Env) (up : t.conn.pp.status = .established) (send : Answers) : SendEffect t.conn.pp (t.sent env send) := by
  have effect := sendPendingReqs_effect env (t.conn.answers send) { t.conn.pp with status := .established }
  rw [sent]
  rwa [show ({ t.conn.pp with status := .established } : PpConn) = t.conn.pp by rw [← up]] at effect ⊢

/-- After sending the connection is as good as it was, unless it aborts. -/
structure Turn.Sent (env : Env) (t t' : Turn) : Prop where
  good : t'.conn.Good env
  effect : SendEffect t.conn.pp t'.conn.pp
  handle : t'.conn.handle = t.conn.handle
  dead : t'.conn.isDead = t.conn.isDead
  queue : t'.conn.queue = t.conn.queue

theorem Turn.sendPendingReqs_sent {send} (good : t.conn.Good env) (up : (t.sent env send).status ≠ .closed) (generation : Nat) :
    ∃ entry t', t.Posts entry t' ∧ (t.sendPendingReqs env generation send).calls = t.calls ++ entry ∧
      ((t.sendPendingReqs env generation send).conn.pp.status = .aborted ∨ t.Sent env (t.sendPendingReqs env generation send)) := by
  obtain ⟨entry, t', posts, does⟩ := t.sendPendingReqs_does (a := 0) env generation send
  refine ⟨entry, t', posts, ?_, ?_⟩
  · rw [does.calls, closeCall_of_open up, append_nil]
  · obtain ⟨entry', t₁, refs, added, conn⟩ := t.sendPendingReqs_conn env generation send
    have effect := sent_effect env good.up send
    generalize t.sent env send = c at effect conn up
    cases status : c.status with
    | closed => exact absurd status up
    | aborted =>
      left
      rw [conn, status]
      rfl
    | established =>
      right
      have same : ({ c with status := t.conn.pp.status } : PpConn) = c := by rw [good.up, ← status]
      have whole : (t.sendPendingReqs env generation send).conn = { t₁.conn with refs := refs, pp := c } := by
        rw [conn, status, if_pos rfl, same]
      refine ⟨?_, ?_, ?_, ?_, ?_⟩
      · rw [whole]
        exact ⟨status, effect.ready good.up good.ready⟩
      · rw [whole]
        exact effect
      · rw [whole]
        exact added.handle
      · rw [whole]
        exact added.dead
      · rw [whole]
        show t₁.conn.queue = t.conn.queue
        rw [added.frame]

/-! ## Receiving -/

/-- The reasons for which receiving may close the connection are met only if it is settled. -/
def Conn.Hears (env : Env) (settled : Prop) (x : Conn) : Prop :=
  if x.isDead then x.pp.nvmePending = 0 → settled
  else (∀ h ∈ arriving env x.pp x.queue.flatten, h.Known) ∨
    settled ∧ x.pp.rxPending = false ∧ ∃ h, (arriving env x.pp x.queue.flatten).head? = some h ∧ ¬ h.Known

theorem Conn.Hears.sent {t'} (hears : t.conn.Hears env settled) (good : t.conn.Good env) (sent : t.Sent env t') :
    t'.conn.Hears env settled := by
  have muted : t'.conn.pp.muted = t.conn.pp.muted := sent.effect.muted (sent.good.up.trans good.up.symm)
  have pending : t'.conn.pp.muted.rxPending = t.conn.pp.muted.rxPending := congrArg PpConn.rxPending muted
  unfold Conn.Hears at hears ⊢
  rw [sent.dead, sent.effect.nvmePending, sent.queue, ← arriving_muted, muted, arriving_muted, show t'.conn.pp.rxPending = t.conn.pp.rxPending from pending]
  exact hears

theorem Outcome.rebase {y : Conn} (handle : y.handle = x.handle) (outcome : Outcome env a settled y t) : Outcome env a settled x t := by
  have keeps : y.Keeps env t.conn → x.Keeps env t.conn := fun keeps => ⟨keeps.handle.trans handle, keeps.ready⟩
  cases outcome with
  | aborts status closes => exact .aborts status closes
  | stays status kept calls => exact .stays status (keeps kept) calls
  | closes status kept reason calls once =>
    refine .closes status (keeps kept) reason ?_ once
    rw [← handle]
    exact calls

theorem Turn.receiveReq_conn (env : Env) (up : t.conn.pp.status = .established) (alive : t.conn.isDead = false) (generation : Nat) :
    (t.receiveReq env generation a).conn.pp = t.received env ∧ (t.receiveReq env generation a).conn.handle = t.conn.handle := by
  have running : t.conn.pp.status ≠ .aborted := Status.ne_aborted up
  obtain ⟨entry, t', posts, whole⟩ := receiveReq_alive (a := a) env generation running alive
  have start : ({ t.conn.pp with status := .established } : PpConn) = t.conn.pp := by rw [← up]
  have still : t'.conn.pp.status = .established := by rw [posts.pp, up]
  rw [whole, run_conn_up, received, start]
  · refine ⟨?_, posts.handle⟩
    show (Server.receiveReq env t'.conn.pp t.conn.queue).1 = _
    rw [posts.pp]
  · exact still

theorem Conn.Keeps.close (t : Turn) : t.conn.Keeps env t.close.conn := ⟨rfl, .of_not_pending (.inl noConfusion)⟩

theorem closes_once {calls : List Ksys} (quiet : ∀ k ∈ calls, k.claim = none) (handle : Nat) :
    (calls ++ [tcpClose handle]).filterMap claim = [.closing handle] ∧
      ((calls ++ [tcpClose handle]).filter isClose).length = 1 := by
  have closes : calls.filter isClose = [] := no_closes (a := 0) fun k member => .inl (quiet k member)
  rw [filterMap_append, filter_append, closes, filterMap_claim_none quiet]
  exact ⟨rfl, rfl⟩

theorem Turn.receiveReq_outcome_dead (good : t.conn.Good env) (dead : t.conn.isDead = true) (reason : t.conn.pp.nvmePending = 0 → settled)
    (quiet : ∀ k ∈ t.calls, k.claim = none) (generation : Nat) :
    Outcome env a settled t.conn (t.receiveReq env generation a) := by
  rw [receiveReq_dead env generation (Status.ne_aborted good.up) dead]
  split_ifs with never
  · obtain ⟨calls, once⟩ := closes_once quiet t.conn.handle
    exact .closes rfl (.close t) (reason never) calls once
  · exact .stays good.up ⟨rfl, good.ready⟩ fun k member => .inl (quiet k member)

theorem Turn.receiveReq_outcome (good : t.conn.Good env) (hears : t.conn.Hears env settled)
    (quiet : ∀ k ∈ t.calls, k.claim = none) (generation : Nat) :
    Outcome env a settled t.conn (t.receiveReq env generation a) := by
  have up : t.conn.pp.status ≠ .aborted := Status.ne_aborted good.up
  unfold Conn.Hears at hears
  cases alive : t.conn.isDead with
  | true =>
    rw [alive, if_pos rfl] at hears
    exact receiveReq_outcome_dead good alive hears quiet generation
  | false =>
    rw [alive, if_neg Bool.false_ne_true] at hears
    have start : ({ t.conn.pp with status := .established } : PpConn) = t.conn.pp := by rw [← good.up]
    obtain ⟨new, entry, t', asked, posts, does⟩ := receiveReq_does (a := a) env generation up alive
    obtain ⟨conn, handle⟩ := receiveReq_conn env (a := a) good.up alive generation
    obtain ⟨frame, ready⟩ := receiveReq_recvFrame good.ready t.conn.queue
    have fed := (receiveReq_feeds good.ready t.conn.queue).conn
    rw [good.ready.settled] at fed
    rw [start] at asked
    have received : t.received env = (Server.receiveReq env t.conn.pp t.conn.queue).1 := by rw [received, start]
    rw [← received] at frame ready fed
    generalize t.received env = c at asked conn does frame ready fed
    have keeps : t.conn.Keeps env (t.receiveReq env generation a).conn := by
      refine ⟨handle, ?_⟩
      rw [conn]
      exact ready
    have quiet' : ∀ k ∈ t.calls ++ entry, k.claim = none := forall_mem_append.2 ⟨quiet, posts.claims⟩
    have calls : (t.receiveReq env generation a).calls =
        t.calls ++ entry ++ (new.filterMap (call a t.conn.pp.connFgHandle) ++ closeCall t.conn.handle c) := by
      rw [does.calls, append_assoc]
    have asks : ∀ k ∈ new.filterMap (call a t.conn.pp.connFgHandle), k.claim = some (.user a) := by
      intro k member
      obtain ⟨e, -, call⟩ := mem_filterMap.1 member
      exact claim_of_asks call
    have own : ∀ k ∈ t.calls ++ entry ++ new.filterMap (call a t.conn.pp.connFgHandle), k.claim = none ∨ k.claim = some (.user a) :=
      forall_mem_append.2 ⟨fun k member => .inl (quiet' k member), fun k member => .inr (asks k member)⟩
    cases status : c.status with
    | established =>
      rw [closeCall_of_open (by rw [status]; exact noConfusion), append_nil] at calls
      refine .stays (by rw [conn, status]) keeps ?_
      rw [calls]
      exact own
    | aborted =>
      rw [closeCall_of_open (by rw [status]; exact noConfusion), append_nil] at calls
      refine .aborts (by rw [conn, status]) ?_
      have none : (t.receiveReq env generation a).calls.filter isClose = [] := no_closes (a := a) (by
        rw [calls]
        exact own)
      rw [none]
      exact Nat.zero_le 1
    | closed =>
      rcases hears with known | ⟨reason, idle, h, first, unknown⟩
      · have open' := foldl_feed_open good.ready (by rw [good.up]; exact noConfusion) known
        rw [← fed] at open'
        exact absurd status open'
      · obtain ⟨slots, log, only⟩ := foldl_feed_unknown good.up idle first unknown
        rw [← fed, asked.log] at log
        have same : new = slots := append_cancel_left log
        have none : new.filterMap (call a t.conn.pp.connFgHandle) = [] := by
          rw [same]
          refine filterMap_eq_nil_iff.2 fun e member => ?_
          obtain ⟨i, rfl⟩ := only e member
          rfl
        rw [none, nil_append, closeCall, if_pos status] at calls
        obtain ⟨claims, once⟩ := closes_once quiet' t.conn.handle
        refine .closes (by rw [conn, status]) keeps reason ?_ ?_
        · rw [calls]
          exact claims
        · rw [calls]
          exact once

/-! ## Callbacks -/

theorem Turn.ppMainHandler_outcome {hup : Bool} {send} (good : x.Good env) (unrefused : x.Unrefused env send)
    (hears : hup = false → x.Hears env settled) (hung : hup = true → settled) (generation : Nat) :
    Outcome env a settled x (ppMainHandler env generation a send hup ⟨x, []⟩) := by
  obtain ⟨entry, t', posts, calls, sent⟩ := sendPendingReqs_sent (t := ⟨x, []⟩) good (sent_open good unrefused) generation
  rw [nil_append] at calls
  have quiet : ∀ k ∈ (sendPendingReqs env generation send ⟨x, []⟩).calls, k.claim = none := by
    rw [calls]
    exact posts.claims
  rcases sent with aborted | sent
  · simp only [ppMainHandler, if_pos aborted]
    refine .aborts aborted ?_
    rw [no_closes (a := a) fun k member => .inl (quiet k member)]
    exact Nat.zero_le 1
  · have running : (sendPendingReqs env generation send ⟨x, []⟩).conn.pp.status ≠ .aborted := Status.ne_aborted sent.good.up
    simp only [ppMainHandler, if_neg running]
    cases hup with
    | false =>
      rw [if_neg Bool.false_ne_true]
      exact (receiveReq_outcome sent.good ((hears rfl).sent (t := ⟨x, []⟩) good sent) quiet generation).rebase sent.handle
    | true =>
      rw [if_pos rfl]
      have closed : ∀ k ∈ (sendPendingReqs env generation send ⟨x, []⟩).calls ++
          [nvmeUnregisterFlow (sendPendingReqs env generation send ⟨x, []⟩).conn.pp.nvmeFgHandle], k.claim = none :=
        forall_mem_append.2 ⟨quiet, forall_mem_singleton.2 rfl⟩
      obtain ⟨claims, once⟩ := closes_once closed (sendPendingReqs env generation send ⟨x, []⟩).conn.handle
      refine Outcome.rebase sent.handle (.closes rfl ?_ (hung rfl) claims once)
      exact ⟨rfl, .of_not_pending (.inl noConfusion)⟩

/-- A completed request is answered, or a refusal closes a connection that is settled. -/
theorem Turn.nvmeDoneCb_outcome {send : Answers} {req : NvmeReq} (good : x.Good env)
    (reason : (x.done req).Unrefused env send ∨ settled) (generation : Nat) :
    Outcome env a settled x (nvmeDoneCb env generation send req ⟨x, []⟩) := by
  have good' : (x.done req).Good env := ⟨good.up, ⟨good.ready.payload⟩⟩
  by_cases closed : (sent env send ⟨x.done req, []⟩).status = .closed
  · have settled := reason.resolve_left fun unrefused => sent_open (t := ⟨x.done req, []⟩) good' unrefused closed
    obtain ⟨entry, t', posts, does⟩ := sendPendingReqs_does (a := a) env generation send ⟨x.done req, []⟩
    obtain ⟨-, t₁, refs, -, conn⟩ := sendPendingReqs_conn env generation send ⟨x.done req, []⟩
    obtain ⟨claims, once⟩ := closes_once posts.claims x.handle
    have calls : (nvmeDoneCb env generation send req ⟨x, []⟩).calls = entry ++ [tcpClose x.handle] := by
      refine does.calls.trans ?_
      rw [closeCall, if_pos closed]
      rfl
    have status : (nvmeDoneCb env generation send req ⟨x, []⟩).conn.pp.status = .closed := by
      refine (congrArg (fun x => x.pp.status) conn).trans ?_
      rw [closed]
      rfl
    refine .closes status ⟨does.handle, .of_not_pending (.inl ?_)⟩ settled ?_ ?_
    · rw [status]
      exact noConfusion
    · rw [calls]
      exact claims
    · rw [calls]
      exact once
  · obtain ⟨entry, t', posts, calls, sent⟩ := sendPendingReqs_sent (t := ⟨x.done req, []⟩) good' closed generation
    rw [nil_append] at calls
    have quiet : ∀ k ∈ (nvmeDoneCb env generation send req ⟨x, []⟩).calls, k.claim = none := by
      intro k member
      exact posts.claims k (calls ▸ member)
    rcases sent with aborted | sent
    · refine .aborts aborted ?_
      rw [no_closes (a := a) fun k member => .inl (quiet k member)]
      exact Nat.zero_le 1
    · exact .stays sent.good.up ⟨sent.handle, sent.good.ready⟩ fun k member => .inl (quiet k member)

theorem Turn.nvmeRegisteredFlowCb_conn (up : x.pp.status = .established) (generation : Nat) (send : Answers) (fgHandle : Nat) :
    (nvmeRegisteredFlowCb generation send fgHandle ⟨x, []⟩).conn.pp = Server.nvmeRegisteredFlowCb fgHandle (x.answers send) x.pp := by
  obtain ⟨entry, added⟩ := addEntry_posts generation send ⟨x, []⟩
  have still : (addEntry generation send ⟨x, []⟩).conn.pp.status = .established := by rw [added.pp, up]
  rw [nvmeRegisteredFlowCb, run_conn_up still, added.pp]

/-- The reply to a registration closes only a connection that handed over no request, and only if it is refused. -/
theorem Turn.nvmeRegisteredFlowCb_outcome {send : Answers} (good : x.Good env)
    (reason : x.pp.nvmePending = 0 → x.isDead = false ∧ accepts (headerSize - x.pp.txSent) send.accepts = true ∨ settled)
    (generation : Nat) (fgHandle : Nat) : Outcome env a settled x (nvmeRegisteredFlowCb generation send fgHandle ⟨x, []⟩) := by
  have start : ({ x.pp with status := .established } : PpConn) = x.pp := by rw [← good.up]
  obtain ⟨entry, t', posts, does⟩ := nvmeRegisteredFlowCb_does (a := a) generation send fgHandle ⟨x, []⟩
  have calls : (nvmeRegisteredFlowCb generation send fgHandle ⟨x, []⟩).calls =
      entry ++ closeCall x.handle (replied send fgHandle ⟨x, []⟩) := does.calls
  have effect := nvmeRegisteredFlowCb_effect fgHandle (x.answers send) x.pp
  have accepted : accepts (headerSize - x.pp.txSent) (x.answers send) = true → _ := nvmeRegisteredFlowCb_status (c := x.pp) fgHandle
  have conn := nvmeRegisteredFlowCb_conn good.up generation send fgHandle
  rw [replied, start] at calls
  generalize Server.nvmeRegisteredFlowCb fgHandle (x.answers send) x.pp = c at calls effect accepted conn
  have keeps : x.Keeps env (nvmeRegisteredFlowCb generation send fgHandle ⟨x, []⟩).conn := by
    refine ⟨does.handle, ?_⟩
    rw [conn]
    exact effect.ready good.up ⟨good.ready.payload⟩
  cases status : c.status with
  | established =>
    rw [closeCall_of_open (by rw [status]; exact noConfusion), append_nil] at calls
    refine .stays (by rw [conn, status]) keeps ?_
    rw [calls]
    exact fun k member => .inl (posts.claims k member)
  | aborted =>
    rw [closeCall_of_open (by rw [status]; exact noConfusion), append_nil] at calls
    refine .aborts (by rw [conn, status]) ?_
    rw [calls, no_closes (a := a) fun k member => .inl (posts.claims k member)]
    exact Nat.zero_le 1
  | closed =>
    have never : x.pp.nvmePending = 0 := by
      rcases effect.status with same | aborted | ⟨-, zero⟩
      · exact absurd (status.symm.trans (same.trans good.up)) noConfusion
      · exact absurd (status.symm.trans aborted) noConfusion
      · exact zero
    rcases reason never with ⟨alive, all⟩ | reason
    · have open' := accepted (by rw [Conn.answers, alive, if_neg Bool.false_ne_true]; exact all)
      exact absurd (status.symm.trans (open'.trans good.up)) noConfusion
    · rw [closeCall, if_pos status] at calls
      obtain ⟨claims, once⟩ := closes_once posts.claims x.handle
      refine .closes (by rw [conn, status]) keeps reason ?_ ?_
      · rw [calls]
        exact claims
      · rw [calls]
        exact once

end Outcomes

end Reflex.Thread
