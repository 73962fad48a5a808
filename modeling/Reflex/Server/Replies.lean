import Reflex.Server.Session

/-!
# Replies to registrations

`nvme_registered_flow_cb` writes its reply to the header buffer of the responses and sends it with their
cursor.
-/

namespace Reflex.Server
open Lib List Header

/-- A message to the client. The callback sets neither the handle nor the address of a reply. -/
inductive Outgoing where
  | response (req : NvmeReq)
  | reply (reqHandle lba : UInt64)

def Outgoing.bytes (env : Env) : Outgoing → List UInt8
  | .response req => Server.response env req
  | .reply reqHandle lba => Header.bytes ⟨24, cmdReg, reqHandle, lba, respOk⟩

theorem Outgoing.bytes_length_pos (env : Env) (message : Outgoing) : 0 < (message.bytes env).length := by
  cases message with
  | response req =>
    rw [Outgoing.bytes, Server.response, length_append, bytes_length, headerSize]
    omega
  | reply reqHandle lba =>
    rw [Outgoing.bytes, bytes_length, headerSize]
    omega

def Outgoing.request : Outgoing → Option NvmeReq
  | .response req => some req
  | .reply _ _ => none

def Outgoing.isReply : Outgoing → Bool
  | .response _ => false
  | .reply _ _ => true

/-- A registration is answered between two responses, and the reply is accepted at once. -/
def SessionOp.RepliesAtOnce (s : Session) : SessionOp → Prop
  | .registered _ answers => s.conn.txPending = false ∧ s.conn.txSent = 0 ∧ accepts headerSize answers = true
  | _ => True

/-- The messages that were accepted and those that wait, in this order. -/
structure Session.Whole (env : Env) (s : Session) (sent : List Outgoing) (waiting : List NvmeReq) : Prop where
  steady : s.Steady env (sent.flatMap (Outgoing.bytes env) ++ waiting.flatMap (response env))
  pending : waiting.map (response env) = s.conn.pendingRequests.map (response env)
  completed : sent.filterMap Outgoing.request ++ waiting = s.completed

section Steps

variable {env : Env} {s : Session} {c : PpConn} {sent : List Outgoing} {waiting : List NvmeReq}

theorem nvmeRegisteredFlowCb_replies {answers} (fgHandle : Int) (start : c.txSent = 0)
    (all : accepts headerSize answers = true) :
    ∃ reqHandle lba, (nvmeRegisteredFlowCb fgHandle answers c).tx =
        (c.wire ++ (Outgoing.reply reqHandle lba).bytes env, 0, c.txPending) ∧
      (nvmeRegisteredFlowCb fgHandle answers c).pendingRequests = c.pendingRequests ∧
      SendFrame c (nvmeRegisteredFlowCb fgHandle answers c) := by
  rw [nvmeRegisteredFlowCb]
  generalize buffer : store (store (store c.dataSend 0 (leBytes 2 24)) 2 (leBytes 2 cmdReg.toNat)) 20 (leBytes 4 respOk.toNat) = b
  have header : ofBuffer b = ⟨24, cmdReg, (ofBuffer b).reqHandle, (ofBuffer b).lba, respOk⟩ := by
    rw [← buffer]
    rfl
  generalize asked : ({ c with nvmeFgHandle := fgHandle, dataSend := b } : PpConn) = d
  have sent : d.txSent = 0 := by rw [← asked]; exact start
  have loaded : slice d.dataSend 0 headerSize = (ofBuffer b).bytes := by
    rw [← asked, bytes_ofBuffer]
  obtain ⟨cursor, whole⟩ := header_loop (sent.le.trans (Nat.zero_le headerSize)) answers
  have done : (sendLoop offerHeader PpConn.accept answers d).done = true := by
    apply sendLoop_done
    · intro e bytes _
      rw [offerHeader, offerHeader, slice_length, slice_length]
      exact Nat.sub_add_eq _ _ _
    · rw [offerHeader, slice_length, sent]
      exact all
  have stream := cursor.kept
  rw [whole done, loaded, sent, drop_zero, ← (ofBuffer b).bytes_length, drop_length, append_nil] at stream
  simp only
  rw [if_pos done]
  generalize sendLoop offerHeader PpConn.accept answers d = r at cursor stream
  have frame := cursor.sendFrame
  refine ⟨(ofBuffer b).reqHandle, (ofBuffer b).lba, ?_, ?_, ?_⟩
  · have wire : r.state.wire = c.wire ++ (ofBuffer b).bytes := by
      rw [stream, ← asked]
    have pending : r.state.txPending = c.txPending := by
      rw [cursor.frame, ← asked]
    rw [Outgoing.bytes, ← header, ← wire, ← pending]
    rfl
  · show r.state.pendingRequests = c.pendingRequests
    rw [cursor.frame, ← asked]
  · rw [← asked] at frame
    exact ⟨frame.rx, frame.up⟩

theorem Session.Whole.of_suffix (steady : s.Steady env (sent.flatMap (Outgoing.bytes env) ++ waiting.flatMap (response env)))
    (tail : s.conn.pendingRequests.map (response env) <:+ waiting.map (response env))
    (completed : sent.filterMap Outgoing.request ++ waiting = s.completed) :
    ∃ sent' waiting', s.Whole env sent' waiting' ∧ sent'.countP Outgoing.isReply = sent.countP Outgoing.isReply := by
  obtain ⟨k, rest⟩ : ∃ k, (waiting.drop k).map (response env) = s.conn.pendingRequests.map (response env) :=
    ⟨_, by rw [map_drop]; exact (suffix_iff_eq_drop.1 tail).symm⟩
  have bytes : ((waiting.take k).map Outgoing.response).flatMap (Outgoing.bytes env) = (waiting.take k).flatMap (response env) :=
    flatMap_map _ _ _
  have requests : ((waiting.take k).map Outgoing.response).filterMap Outgoing.request = waiting.take k := by
    rw [filterMap_map]
    exact filterMap_some
  have replies : ((waiting.take k).map Outgoing.response).countP Outgoing.isReply = 0 := by
    rw [countP_map]
    exact countP_eq_zero.2 fun _ _ => Bool.false_ne_true
  refine ⟨sent ++ (waiting.take k).map .response, waiting.drop k, ⟨?_, rest, ?_⟩, ?_⟩
  · rw [flatMap_append, bytes, append_assoc, ← flatMap_append, take_append_drop]
    exact steady
  · rw [filterMap_append, requests, append_assoc, take_append_drop, completed]
  · rw [countP_append, replies, Nat.add_zero]

theorem Session.Whole.reply {answers} (whole : s.Whole env sent waiting) (fgHandle : Int)
    (idle : s.conn.txPending = false) (start : s.conn.txSent = 0) (all : accepts headerSize answers = true) :
    ∃ reqHandle lba, (s.next env (.registered fgHandle answers)).Whole env (sent ++ [.reply reqHandle lba]) waiting := by
  obtain ⟨reqHandle, lba, tx, requests, frame⟩ := nvmeRegisteredFlowCb_replies fgHandle start all
  obtain ⟨fresh, stream⟩ := whole.steady.transmits.between idle start
  have responses : s.conn.pendingRequests.flatMap (response env) = waiting.flatMap (response env) := by
    rw [flatMap_def, ← whole.pending, ← flatMap_def]
  -- the reply goes behind what was accepted and before what waits
  have boundary : s.conn.wire = sent.flatMap (Outgoing.bytes env) := by
    rw [responses] at stream
    exact append_cancel_right stream
  refine ⟨reqHandle, lba, ⟨?_, whole.steady.ready.congr frame, whole.steady.fresh⟩, ?_, ?_⟩
  · obtain ⟨wire, sent', pending⟩ := Prod.mk.inj tx |>.imp_right Prod.mk.inj
    show Transmits env _ (nvmeRegisteredFlowCb fgHandle answers s.conn).pendingRequests (nvmeRegisteredFlowCb fgHandle answers s.conn)
    rw [requests]
    apply Transmits.start (pending.trans idle) sent' fresh
    rw [wire, responses, boundary, flatMap_append, flatMap_singleton]
  · exact whole.pending.trans (congrArg _ requests.symm)
  · rw [filterMap_append]
    exact (congrArg (· ++ waiting) (append_nil _)).trans whole.completed

theorem Session.Whole.next {op : SessionOp} {t} (whole : s.Whole env sent waiting) (good : op.RepliesAtOnce s)
    (step : sessionStep env s op t) :
    ∃ sent' waiting', t.Whole env sent' waiting' ∧
      sent'.countP Outgoing.isReply = sent.countP Outgoing.isReply + if op.isRegistered then 1 else 0 := by
  obtain ⟨valid, rfl⟩ := step
  cases op with
  | segment bytes =>
    exact ⟨sent, waiting, ⟨⟨whole.steady.transmits, whole.steady.ready, whole.steady.fresh⟩, whole.pending, whole.completed⟩, rfl⟩
  | handler answers =>
    obtain ⟨steady, completed, pending⟩ := whole.steady.handler valid answers
    apply Session.Whole.of_suffix steady
    · rw [pending, whole.pending]
      exact sendPendingReqs_suffix env answers s.conn
    · rw [completed, whole.completed]
  | completion i buf answers =>
    rw [Session.next]
    cases found : s.outstanding[i]? with
    | none => exact ⟨sent, waiting, whole, rfl⟩
    | some req =>
      have fresh := (whole.steady.fresh req (mem_of_getElem? found)).filled buf
      have rest : Session.Steady env (sent.flatMap (Outgoing.bytes env) ++ waiting.flatMap (response env))
          { s with outstanding := s.outstanding.eraseIdx i } :=
        ⟨whole.steady.transmits, whole.steady.ready, fun r left => whole.steady.fresh r (mem_of_mem_eraseIdx left)⟩
      have pushed := rest.complete fresh answers
      rw [append_assoc, ← flatMap_singleton (response env) (req.filled buf), ← flatMap_append] at pushed
      apply Session.Whole.of_suffix pushed
      · have suffix := sendPendingReqs_suffix env answers
          { s.conn with pendingRequests := s.conn.pendingRequests ++ [req.filled buf] }
        rw [map_append, ← whole.pending, ← map_append] at suffix
        exact suffix
      · rw [← append_assoc, whole.completed]
        rfl
  | registered fgHandle answers =>
    obtain ⟨idle, start, all⟩ := good
    obtain ⟨reqHandle, lba, next⟩ := whole.reply fgHandle idle start all
    exact ⟨_, waiting, next, countP_append⟩

theorem Session.Whole.run {ops t} (whole : s.Whole env sent waiting)
    (run : Run (Guarded (sessionStep env) fun s op => op.RepliesAtOnce s) s ops t) :
    ∃ sent' waiting', t.Whole env sent' waiting' ∧
      sent'.countP Outgoing.isReply = sent.countP Outgoing.isReply + ops.countP SessionOp.isRegistered := by
  induction run generalizing sent waiting with
  | nil => exact ⟨sent, waiting, whole, rfl⟩
  | cons here _ ih =>
    obtain ⟨sent₁, waiting₁, whole₁, count₁⟩ := whole.next here.2 here.1
    obtain ⟨sent₂, waiting₂, whole₂, count₂⟩ := ih whole₁
    refine ⟨sent₂, waiting₂, whole₂, ?_⟩
    rw [count₂, count₁, countP_cons]
    omega

theorem Session.accept_whole (env : Env) (memory : PpConn) (srcPort : UInt16) : (Session.accept memory srcPort).Whole env [] [] := by
  have begun : (Session.accept memory srcPort).Early env := Session.accept_early memory srcPort
  exact ⟨⟨.start rfl rfl (forall_mem_nil _) rfl, begun.ready, begun.fresh⟩, rfl, rfl⟩

theorem Session.Whole.wire (whole : s.Whole env sent waiting) :
    sent.flatMap (Outgoing.bytes env) <+: s.conn.wire ∧
      s.conn.wire <+: sent.flatMap (Outgoing.bytes env) ++ waiting.flatMap (response env) := by
  have transmits := whole.steady.transmits
  have responses : waiting.flatMap (response env) = s.conn.pendingRequests.flatMap (response env) := by
    rw [flatMap_def, whole.pending, ← flatMap_def]
  refine ⟨?_, transmits.accepted.1⟩
  rw [responses] at transmits
  exact transmits.before

end Steps

/-- If each registration is answered between two responses, and its reply accepted at once,
then the accepted bytes are whole messages followed by a part of the responses that wait:
one for each completed request, in order, and one reply for each registration. -/
theorem replies_keep_messages_whole {env : Env} {memory : PpConn} {srcPort : UInt16} {ops : List SessionOp} {t : Session}
    (run : Run (Guarded (sessionStep env) fun s op => op.RepliesAtOnce s) (Session.accept memory srcPort) ops t) :
    ∃ (sent : List Outgoing) (waiting : List NvmeReq), sent.flatMap (Outgoing.bytes env) <+: t.conn.wire ∧
      t.conn.wire <+: sent.flatMap (Outgoing.bytes env) ++ waiting.flatMap (response env) ∧
      sent.filterMap Outgoing.request ++ waiting = t.completed ∧
      sent.countP Outgoing.isReply = ops.countP SessionOp.isRegistered := by
  obtain ⟨sent, waiting, whole, count⟩ := (Session.accept_whole env memory srcPort).run run
  obtain ⟨before, within⟩ := whole.wire
  exact ⟨sent, waiting, before, within, whole.completed, by rw [count, List.countP_nil, Nat.zero_add]⟩

/-- A reply accepted in two pieces, then a part of a response. -/
theorem reply_before_response :
    let env := ampleEnv 1048576 512
    let t := ((((Session.accept blankConn 80).next env (.registered 5 [some 9, some 13])).next env
      (.segment (Header.bytes ⟨24, cmdGet, 1, 8, 1⟩))).next env (.handler [])).next env
      (.completion 0 (fun _ _ => 7) [some 9, none])
    t.conn.wire.length = 24 + 10 ∧ ∃ (sent : List Outgoing) (waiting : List NvmeReq),
      sent.flatMap (Outgoing.bytes env) <+: t.conn.wire ∧
      t.conn.wire <+: sent.flatMap (Outgoing.bytes env) ++ waiting.flatMap (response env) ∧
      sent.filterMap Outgoing.request ++ waiting = t.completed ∧ sent.countP Outgoing.isReply = 1 := by
  intro env t
  have run : Run (Guarded (sessionStep env) fun s op => op.RepliesAtOnce s) (Session.accept blankConn 80)
      [.registered 5 [some 9, some 13], .segment (Header.bytes ⟨24, cmdGet, 1, 8, 1⟩), .handler [],
        .completion 0 (fun _ _ => 7) [some 9, none]] t :=
    .cons ⟨⟨by decide +kernel, rfl⟩, rfl, rfl, rfl⟩ (.cons ⟨⟨trivial, rfl⟩, trivial⟩
      (.cons ⟨⟨by decide +kernel, rfl⟩, trivial⟩ (.single ⟨⟨by decide +kernel, rfl⟩, trivial⟩)))
  exact ⟨by decide +kernel, replies_keep_messages_whole run⟩

/-- The callback runs when ten bytes of the header of a response were accepted: the next
fourteen are the end of its reply, so that the client gets a response without blocks. -/
theorem reply_merged_with_response :
    let env := ampleEnv 1048576 512
    let t := ((((Session.accept blankConn 80).next env (.segment (Header.bytes ⟨24, cmdGet, 1, 8, 1⟩))).next env (.handler [])).next env
      (.completion 0 (fun _ _ => 7) [some 9, none])).next env (.registered 5 [some 23])
    t.conn.wire = Header.bytes ⟨24, cmdGet, 1, 8, 0⟩ ∧ t.conn.txSent = 0 ∧
      ¬ ∃ messages : List Outgoing, (∀ req, .response req ∈ messages → req ∈ t.completed) ∧
        t.conn.wire <+: messages.flatMap (Outgoing.bytes env) := by
  intro env t
  have wire : t.conn.wire = Header.bytes ⟨24, cmdGet, 1, 8, 0⟩ := by decide +kernel
  have count : ∀ req ∈ t.completed, (responseHeader req).bytes[20]? = some 1 := by decide +kernel
  refine ⟨wire, by decide +kernel, ?_⟩
  rintro ⟨messages, known, tail, whole⟩
  rw [wire] at whole
  cases messages with
  | nil => exact absurd (List.append_eq_nil_iff.1 whole).1 (by decide)
  | cons message rest =>
    -- the bytes at 2 and 20 are the opcode and the number of blocks
    cases message with
    | reply reqHandle lba =>
      have opcode : some (0 : UInt8) = some 3 := congrArg (·[2]?) whole
      exact absurd opcode (by decide)
    | response req =>
      have blocks := count req (known req List.mem_cons_self)
      have same : some (0 : UInt8) = ((responseHeader req).bytes ++ (responsePayload env req ++ rest.flatMap (Outgoing.bytes env)))[20]? := by
        rw [← List.append_assoc]
        exact congrArg (·[20]?) whole
      rw [List.getElem?_append_left (by rw [Header.bytes_length]; decide), blocks] at same
      exact absurd same (by decide)

end Reflex.Server
