import Reflex.Server.Effects
import Reflex.Thread.Step

/-!
# What a callback does

One description of the callbacks: the calls they make are the requests and registrations that
were added to the log, and calls with the handle of the connection; a connection whose close
is among them is closed.
-/

namespace Reflex.Thread
open Lib Server List Turn ServerEvent

def Ksys.asks : Ksys → Bool
  | .nvmeWritev _ _ _ _ _ | .nvmeReadv _ _ _ _ _ | .nvmeRegisterFlow _ _ _ => true
  | .tcpAccept _ _ | .tcpReject _ | .tcpSendv _ | .tcpRecvDone _ | .tcpClose _ | .nvmeUnregisterFlow _ => false

/-- The other calls that a callback makes, but for the one of a hang-up. -/
inductive Ksys.Of (handle : Nat) : Ksys → Prop where
  | sendv : Ksys.Of handle (.tcpSendv handle)
  | recvDone : Ksys.Of handle (.tcpRecvDone handle)
  | close : Ksys.Of handle (.tcpClose handle)

/-- From `t` on the server has asked for `new` and made the calls `more`. -/
structure Turn.Does (a : UInt64) (t : Turn) (new : List ServerEvent) (more : List Ksys) (t' : Turn) : Prop where
  calls : t'.calls = t.calls ++ more
  log : t'.conn.pp.log = t.conn.pp.log ++ new
  asked : more.filter Ksys.asks = new.filterMap (ServerEvent.call a t.conn.pp.connFgHandle)
  own : ∀ k ∈ more, k.asks = false → k.Of t.conn.handle
  own_log : ∀ e ∈ new, e.Of t.conn.pp
  handle : t'.conn.handle = t.conn.handle
  dead : t'.conn.isDead = t.conn.isDead
  flow : t'.conn.pp.connFgHandle = t.conn.pp.connFgHandle
  fg : t'.conn.pp.nvmeFgHandle = t.conn.pp.nvmeFgHandle
  status : t'.conn.pp.status = .aborted ∨ t'.conn.pp.status = if more.any Ksys.isClose then .closed else t.conn.pp.status

section Turns

variable {env : Env} {a : UInt64} {t t' t'' : Turn} {new new' : List ServerEvent} {more more' : List Ksys} {generation : Nat}

theorem ServerEvent.call_asks {flow e k} (call : call a flow e = some k) : k.asks = true := by
  cases e <;> cases call <;> rfl

theorem ServerEvent.calls_ask (flow : Int) (new : List ServerEvent) : ∀ k ∈ new.filterMap (call a flow), k.asks = true := by
  intro k member
  obtain ⟨e, -, call⟩ := mem_filterMap.1 member
  exact call_asks call

theorem asks_not_close {k : Ksys} (asks : k.asks = true) : k.isClose = false := by
  cases k <;> first | rfl | cases asks

namespace Turn.Does

theorem refl (a : UInt64) (t : Turn) : Turn.Does a t [] [] t where
  calls := (append_nil _).symm
  log := (append_nil _).symm
  asked := rfl
  own := forall_mem_nil _
  own_log := forall_mem_nil _
  handle := rfl
  dead := rfl
  flow := rfl
  fg := rfl
  status := .inr rfl

theorem trans (first : Turn.Does a t new more t') (second : Turn.Does a t' new' more' t'')
    (goes : t'.conn.pp.status = if more.any Ksys.isClose then .closed else t.conn.pp.status) :
    Turn.Does a t (new ++ new') (more ++ more') t'' where
  calls := by rw [second.calls, first.calls, append_assoc]
  log := by rw [second.log, first.log, append_assoc]
  asked := by rw [filter_append, first.asked, second.asked, filterMap_append, first.flow]
  own := by
    refine forall_mem_append.2 ⟨first.own, fun k later other => ?_⟩
    rw [← first.handle]
    exact second.own k later other
  own_log := by
    refine forall_mem_append.2 ⟨first.own_log, fun e later => ?_⟩
    have own := second.own_log e later
    cases e with
    | registerFlow flowGroupId latencyUsSLO iopsSLO rwRatioSLO => exact Eq.trans own first.flow
    | readv fgHandle numSgls req => exact Eq.trans own first.fg
    | writev fgHandle numSgls req => exact Eq.trans own first.fg
    | slot i => trivial
    | fill i => trivial
  handle := second.handle.trans first.handle
  dead := second.dead.trans first.dead
  flow := second.flow.trans first.flow
  fg := second.fg.trans first.fg
  status := by
    rcases second.status with aborted | later
    · exact .inl aborted
    · right
      rw [later, goes, any_append]
      cases more.any Ksys.isClose <;> cases more'.any Ksys.isClose <;> rfl

end Turn.Does

/-- A descriptor of the library is put into the batch, or is there already. -/
structure Turn.Posts (t : Turn) (more : List Ksys) (t' : Turn) : Prop where
  calls : t'.calls = t.calls ++ more
  own : ∀ k ∈ more, k = .tcpSendv t.conn.handle ∨ k = .tcpRecvDone t.conn.handle
  frame : t'.conn = { t.conn with
    generation := t'.conn.generation, recvDoneDesc := t'.conn.recvDoneDesc, sendvDesc := t'.conn.sendvDesc }

namespace Turn.Posts

theorem refl (t : Turn) : t.Posts [] t := ⟨(append_nil _).symm, forall_mem_nil _, rfl⟩

section

variable (posts : t.Posts more t')
include posts

theorem pp : t'.conn.pp = t.conn.pp := by rw [posts.frame]

theorem handle : t'.conn.handle = t.conn.handle := by rw [posts.frame]

theorem dead : t'.conn.isDead = t.conn.isDead := by rw [posts.frame]

theorem not_asks : ∀ k ∈ more, k.asks = false := by
  intro k member
  rcases posts.own k member with rfl | rfl <;> rfl

theorem not_close : more.any Ksys.isClose = false := by
  rw [any_eq_false]
  intro k member
  rcases posts.own k member with rfl | rfl <;> exact Bool.false_ne_true

theorem status : t'.conn.pp.status = if more.any Ksys.isClose then .closed else t.conn.pp.status := by
  rw [posts.pp, posts.not_close]
  rfl

theorem does : t.Does a [] more t' where
  calls := posts.calls
  log := by rw [posts.pp, append_nil]
  asked := filter_eq_nil_iff.2 fun k member => by rw [posts.not_asks k member]; exact Bool.false_ne_true
  own := by
    intro k member _
    rcases posts.own k member with rfl | rfl
    · exact .sendv
    · exact .recvDone
  own_log := forall_mem_nil _
  handle := posts.handle
  dead := posts.dead
  flow := by rw [posts.pp]
  fg := by rw [posts.pp]
  status := .inr posts.status

end

end Turn.Posts

theorem Conn.checkGeneration_frame (generation : Nat) (x : Conn) :
    x.checkGeneration generation = { x with
      generation := (x.checkGeneration generation).generation, recvDoneDesc := (x.checkGeneration generation).recvDoneDesc
      sendvDesc := (x.checkGeneration generation).sendvDesc } := by
  unfold Conn.checkGeneration
  split_ifs <;> rfl

theorem Turn.recvDone_posts (generation : Nat) (t : Turn) : ∃ more, t.Posts more (t.recvDone generation) := by
  have frame := t.conn.checkGeneration_frame generation
  simp only [recvDone]
  split_ifs
  · exact ⟨[], (append_nil _).symm, forall_mem_nil _, frame⟩
  · exact ⟨_, rfl, forall_mem_singleton.2 (.inr (by rw [frame])), by rw [frame]⟩

theorem Turn.sendv_posts (generation : Nat) (t : Turn) : ∃ more, t.Posts more (t.sendv generation) := by
  have frame := t.conn.checkGeneration_frame generation
  simp only [sendv]
  split_ifs
  · exact ⟨[], (append_nil _).symm, forall_mem_nil _, frame⟩
  · exact ⟨_, rfl, forall_mem_singleton.2 (.inl (by rw [frame])), by rw [frame]⟩

theorem Turn.addEntry_posts (generation : Nat) (send : Answers) (t : Turn) : ∃ more, t.Posts more (t.addEntry generation send) := by
  unfold addEntry
  split_ifs
  · exact t.sendv_posts generation
  · exact ⟨[], .refl t⟩

theorem Turn.close_does (t : Turn) : t.Does a [] [.tcpClose t.conn.handle] t.close where
  calls := rfl
  log := (append_nil _).symm
  asked := rfl
  own := forall_mem_singleton.2 fun _ => .close
  own_log := forall_mem_nil _
  handle := rfl
  dead := rfl
  flow := rfl
  fg := rfl
  status := .inr rfl

/-- The close that a function of the server asked for. -/
def closeCall (handle : Nat) (c : PpConn) : List Ksys := if c.status = .closed then [.tcpClose handle] else []

theorem Turn.run_does {f} {x : Conn} {c} (result : f { x.pp with status := .established } = c)
    (asked : Asked { t.conn.pp with status := .established } c new) (before : x.pp.status = t.conn.pp.status)
    (handle : x.handle = t.conn.handle) (dead : x.isDead = t.conn.isDead) :
    t.Does a new (new.filterMap (call a t.conn.pp.connFgHandle) ++ closeCall t.conn.handle c)
      (run f ⟨x, t.calls ++ new.filterMap (call a t.conn.pp.connFgHandle)⟩) := by
  have noClose : (new.filterMap (call a t.conn.pp.connFgHandle)).any Ksys.isClose = false := by
    rw [any_eq_false]
    intro k member
    rw [asks_not_close (calls_ask _ _ k member)]
    exact Bool.false_ne_true
  have asks : (new.filterMap (call a t.conn.pp.connFgHandle)).filter Ksys.asks =
      new.filterMap (call a t.conn.pp.connFgHandle) := filter_eq_self.2 (calls_ask _ _)
  have other : ∀ k ∈ new.filterMap (call a t.conn.pp.connFgHandle), k.asks = false → k.Of t.conn.handle := by
    intro k member no
    rw [calls_ask _ _ k member] at no
    cases no
  cases status : c.status with
  | established =>
    simp only [run, closeCall, result, status, if_true, reduceCtorEq, if_false, append_nil]
    refine ⟨rfl, asked.log, asks, other, asked.own, handle, dead, asked.flow, asked.handle, .inr ?_⟩
    rw [noClose, before]
    rfl
  | closed =>
    simp only [run, closeCall, result, status, if_true, reduceCtorEq, if_false]
    refine ⟨?_, asked.log, ?_, ?_, asked.own, handle, dead, asked.flow, asked.handle, .inr ?_⟩
    · rw [← handle, ← append_assoc]
      rfl
    · rw [filter_append, asks]
      exact append_nil _
    · exact forall_mem_append.2 ⟨other, forall_mem_singleton.2 fun _ => .close⟩
    · rw [any_append, noClose]
      rfl
  | aborted =>
    simp only [run, closeCall, result, status, reduceCtorEq, if_false, append_nil]
    exact ⟨rfl, asked.log, asks, other, asked.own, handle, dead, asked.flow, asked.handle, .inl rfl⟩

theorem Turn.run_send {f} {x : Conn} {c} (result : f { x.pp with status := .established } = c)
    (effect : SendEffect { t.conn.pp with status := .established } c) (before : x.pp.status = t.conn.pp.status)
    (handle : x.handle = t.conn.handle) (dead : x.isDead = t.conn.isDead) :
    t.Does a [] (closeCall t.conn.handle c) (run f ⟨x, t.calls⟩) := by
  have does := run_does (a := a) result (Asked.of_send effect) before handle dead
  rwa [filterMap_nil, append_nil, nil_append] at does

def Turn.sent (env : Env) (send : Answers) (t : Turn) : PpConn :=
  Server.sendPendingReqs env (t.conn.answers send) { t.conn.pp with status := .established }

theorem Turn.sendPendingReqs_does (env : Env) (generation : Nat) (send : Answers) (t : Turn) :
    ∃ entry t', t.Posts entry t' ∧ t.Does a [] (entry ++ closeCall t.conn.handle (t.sent env send)) (t.sendPendingReqs env generation send) := by
  obtain ⟨entry, added⟩ := t.addEntry_posts generation send
  refine ⟨entry, _, added, ?_⟩
  have same : ({ (t.addEntry generation send).conn.pp with status := .established } : PpConn) = { t.conn.pp with status := .established } := by
    rw [added.pp]
  have ran := run_send (a := a) (t := t.addEntry generation send) (f := Server.sendPendingReqs env (t.conn.answers send))
    (x := { (t.addEntry generation send).conn with
      refs := (t.addEntry generation send).conn.refs ++ sentRefs (t.addEntry generation send).conn.pp.pendingRequests
        (t.sent env send).pendingRequests })
    (c := t.sent env send) (by rw [sent, same]) (by rw [same]; exact sendPendingReqs_effect env _ _) rfl rfl rfl
  rw [added.handle] at ran
  exact added.does.trans ran added.status

def Turn.received (env : Env) (t : Turn) : PpConn := (Server.receiveReq env { t.conn.pp with status := .established } t.conn.queue).1

/-- On a live connection `receive_req` runs on the queue, and the descriptor is asked for first. -/
theorem Turn.receiveReq_alive (env : Env) (generation : Nat) (up : t.conn.pp.status ≠ .aborted) (alive : t.conn.isDead = false) :
    ∃ entry t', t.Posts entry t' ∧ t.receiveReq env generation a =
      run (fun c => (Server.receiveReq env c t.conn.queue).1)
        ⟨{ t'.conn with queue := (Server.receiveReq env { t.conn.pp with status := .established } t.conn.queue).2 },
          t'.calls ++ ((t.received env).log.drop t.conn.pp.log.length).filterMap (call a t.conn.pp.connFgHandle)⟩ := by
  simp only [receiveReq, if_neg up, alive, Bool.false_eq_true, if_false, received]
  split_ifs
  · obtain ⟨entry, posts⟩ := t.recvDone_posts generation
    exact ⟨entry, _, posts, rfl⟩
  · exact ⟨[], t, .refl t, rfl⟩

theorem Turn.receiveReq_does (env : Env) (generation : Nat) (up : t.conn.pp.status ≠ .aborted) (alive : t.conn.isDead = false) :
    ∃ new entry t', Asked { t.conn.pp with status := .established } (t.received env) new ∧ t.Posts entry t' ∧
      t.Does a new (entry ++ (new.filterMap (call a t.conn.pp.connFgHandle) ++ closeCall t.conn.handle (t.received env)))
        (t.receiveReq env generation a) := by
  obtain ⟨new, asked⟩ := receiveReq_asked env { t.conn.pp with status := .established } t.conn.queue
  have log : (t.received env).log.drop t.conn.pp.log.length = new := by
    rw [received, asked.log]
    exact drop_left
  obtain ⟨entry, t', posts, whole⟩ := receiveReq_alive (a := a) env generation up alive
  refine ⟨new, entry, t', asked, posts, ?_⟩
  have same : ({ t'.conn.pp with status := .established } : PpConn) = { t.conn.pp with status := .established } := by rw [posts.pp]
  have ran := run_does (a := a) (t := t') (f := fun c => (Server.receiveReq env c t.conn.queue).1)
    (x := { t'.conn with queue := (Server.receiveReq env { t.conn.pp with status := .established } t.conn.queue).2 })
    (c := t.received env) (by rw [received, same]) (by rw [same]; exact asked) rfl rfl rfl
  rw [posts.handle, posts.pp] at ran
  rw [whole, log]
  exact posts.does.trans ran posts.status

theorem Turn.receiveReq_dead (env : Env) (generation : Nat) (up : t.conn.pp.status ≠ .aborted) (dead : t.conn.isDead = true) :
    t.receiveReq env generation a = if t.conn.pp.nvmePending = 0 then t.close else t := by
  simp only [receiveReq, if_neg up, dead, if_true]

theorem Turn.receiveReq_some (env : Env) (generation : Nat) (a : UInt64) (t : Turn) :
    ∃ new more, t.Does a new more (t.receiveReq env generation a) := by
  by_cases up : t.conn.pp.status = .aborted
  · refine ⟨[], [], ?_⟩
    rw [receiveReq, if_pos up]
    exact .refl a t
  · cases dead : t.conn.isDead with
    | false =>
      obtain ⟨new, entry, t', -, -, does⟩ := receiveReq_does (a := a) env generation up dead
      exact ⟨new, _, does⟩
    | true =>
      rw [receiveReq_dead env generation up dead]
      split_ifs
      · exact ⟨[], _, t.close_does⟩
      · exact ⟨[], _, .refl a t⟩

theorem Turn.ppMainHandler_does (env : Env) (generation : Nat) (a : UInt64) (send : Answers) (t : Turn) :
    ∃ new more, t.Does a new more (t.ppMainHandler env generation a send false) := by
  obtain ⟨entry, t', -, sent⟩ := t.sendPendingReqs_does (a := a) env generation send
  simp only [ppMainHandler, Bool.false_eq_true, if_false]
  split_ifs with aborted
  · exact ⟨[], _, sent⟩
  · obtain ⟨new, more, received⟩ := (t.sendPendingReqs env generation send).receiveReq_some env generation a
    exact ⟨_, _, sent.trans received (sent.status.resolve_left aborted)⟩

theorem Turn.nvmeDoneCb_does (env : Env) (generation : Nat) (send : Answers) (req : NvmeReq) (t : Turn) :
    ∃ more, t.Does a [] more (t.nvmeDoneCb env generation send req) := by
  obtain ⟨entry, t', -, sent⟩ := sendPendingReqs_does (a := a) env generation send { t with conn := { t.conn with
    pp := { t.conn.pp with pendingRequests := t.conn.pp.pendingRequests ++ [req] }
    completed := t.conn.completed ++ [req] } }
  exact ⟨_, sent.calls, sent.log, sent.asked, sent.own, sent.own_log, sent.handle, sent.dead, sent.flow, sent.fg, sent.status⟩

def Turn.stored (fgHandle : Int) (t : Turn) : Turn :=
  { t with conn := { t.conn with pp := { t.conn.pp with nvmeFgHandle := fgHandle } } }

theorem Turn.Posts.stored (fgHandle : Int) (posts : t.Posts more t') : (t.stored fgHandle).Posts more (t'.stored fgHandle) where
  __ := posts
  frame := congrArg (fun x : Conn => { x with pp := { x.pp with nvmeFgHandle := fgHandle } }) posts.frame

/-- The connection that the callback of a registration leaves. -/
def Turn.replied (send : Answers) (fgHandle : Nat) (t : Turn) : PpConn :=
  Server.nvmeRegisteredFlowCb fgHandle (t.conn.answers send) { t.conn.pp with status := .established }

theorem Turn.nvmeRegisteredFlowCb_does (generation : Nat) (send : Answers) (fgHandle : Nat) (t : Turn) :
    ∃ entry t', t.Posts entry t' ∧ (t.stored fgHandle).Does a [] (entry ++ closeCall t.conn.handle (t.replied send fgHandle))
      (t.nvmeRegisteredFlowCb generation send fgHandle) := by
  obtain ⟨entry, added⟩ := t.addEntry_posts generation send
  refine ⟨entry, _, added, ?_⟩
  have result : Server.nvmeRegisteredFlowCb fgHandle (t.conn.answers send) { (t.addEntry generation send).conn.pp with status := .established } =
      t.replied send fgHandle := by
    rw [added.pp, replied]
  have effect := nvmeRegisteredFlowCb_effect fgHandle (t.conn.answers send) { (t.addEntry generation send).conn.pp with status := .established }
  rw [result] at effect
  have ran := run_send (a := a) (t := (t.addEntry generation send).stored fgHandle) (x := (t.addEntry generation send).conn)
    result effect rfl rfl rfl
  rw [show ((t.addEntry generation send).stored fgHandle).conn.handle = t.conn.handle from added.handle] at ran
  rw [nvmeRegisteredFlowCb]
  exact (added.stored fgHandle).does.trans ran (added.stored fgHandle).status

end Turns

end Reflex.Thread
