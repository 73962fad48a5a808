import Reflex.Lib.Outbox
import Reflex.Server.State

/-!
# Sending responses

`send_req` and `send_pending_reqs` of `apps/reflex_server.c`. What the calls of `ixev_send` and `ixev_send_zc`
return is a list of answers; every negative return is a refusal. The pages that are freed and the statistics
are left out.

A response is a header and, for `CMD_GET`, the blocks in the pages.
-/

namespace Reflex.Server
open Lib List PpConn

variable {s : PpConn × NvmeReq} {reqs : List NvmeReq}

/-- What `send_req` writes to `data_send`. -/
def responseHeader (req : NvmeReq) : Header :=
  ⟨24, req.opcode, req.remoteReqHandle, req.lba, if req.opcode = cmdGet then req.lbaCount else respOk⟩

def offerHeader (c : PpConn) : List UInt8 := slice c.dataSend c.txSent (headerSize - c.txSent)

def PpConn.accept (c : PpConn) (bytes : List UInt8) : PpConn :=
  { c with txSent := c.txSent + bytes.length, wire := c.wire ++ bytes }

/-- A refusal closes the connection if no request is under way. -/
def PpConn.refused (c : PpConn) : PpConn := if c.nvmePending = 0 then c.close else c

/-- `send_req` while `tx_pending` is not set. -/
def sendHeader (req : NvmeReq) (answers : List (Option Nat)) (c : PpConn) : Sending PpConn :=
  let c := { c with dataSend := store c.dataSend 0 (responseHeader req).bytes }
  if req.remoteReqHandle = 0 then ⟨c.abort, answers, false⟩
  else
    let r := sendLoop offerHeader PpConn.accept answers c
    if r.done then ⟨{ r.state with txPending := true, txSent := 0 }, r.answers, true⟩ else ⟨r.state.refused, r.answers, false⟩

def offerPage (env : Env) (s : PpConn × NvmeReq) : List UInt8 :=
  slice (s.2.buf s.2.currentSglBuf) (s.1.txSent % pageSize)
    (min (pageSize - s.1.txSent % pageSize) (accessBytes env s.2.lbaCount - s.1.txSent))

def acceptPage (s : PpConn × NvmeReq) (bytes : List UInt8) : PpConn × NvmeReq :=
  (s.1.accept bytes, { s.2 with
    currentSglBuf := if (s.1.txSent + bytes.length) % pageSize = 0 then s.2.currentSglBuf + 1 else s.2.currentSglBuf })

def PpConn.finish (c : PpConn) : PpConn := { c with txSent := 0, txPending := false }

/-- `send_req` once `tx_pending` is set. -/
def sendPayload (env : Env) (answers : List (Option Nat)) (s : PpConn × NvmeReq) : Sending (PpConn × NvmeReq) :=
  if s.2.opcode = cmdGet then
    let r := sendLoop (offerPage env) acceptPage answers s
    if r.done then
      if r.state.2.lbaCount.toNat < r.state.2.currentSglBuf % 2 ^ 32 then ⟨(r.state.1.abort, r.state.2), r.answers, false⟩
      else ⟨(r.state.1.finish, r.state.2), r.answers, true⟩
    else ⟨(r.state.1.refused, r.state.2), r.answers, false⟩
  else ⟨(s.1.finish, s.2), answers, true⟩

def sendReq (env : Env) (req : NvmeReq) (answers : List (Option Nat)) (c : PpConn) : Sending (PpConn × NvmeReq) :=
  if c.txPending then sendPayload env answers (c, req)
  else
    let r := sendHeader req answers c
    if r.done then sendPayload env r.answers (r.state, req) else ⟨(r.state, req), r.answers, false⟩

/-- One round of the loop of `send_pending_reqs`. -/
def sendTop (env : Env) (req : NvmeReq) (s : PpConn × List (Option Nat)) : Bool × NvmeReq × PpConn × List (Option Nat) :=
  let r := sendReq env req s.2 s.1
  (r.done, r.state.2, r.state.1, r.answers)

def sendPendingReqs (env : Env) (answers : List (Option Nat)) (c : PpConn) : PpConn :=
  let r := drain (sendTop env) c.pendingRequests (c, answers)
  { r.2.1 with pendingRequests := r.1 }

/-! ## Responses -/

def responsePayload (env : Env) (req : NvmeReq) : List UInt8 :=
  if req.opcode = cmdGet then req.contents (accessBytes env req.lbaCount) else []

def response (env : Env) (req : NvmeReq) : List UInt8 := (responseHeader req).bytes ++ responsePayload env req

/-- Nothing of the pages of a read has been sent. -/
def NvmeReq.Fresh (req : NvmeReq) : Prop := req.opcode = cmdGet → req.currentSglBuf = 0

/-- What the request at the head has yet to send. -/
def PpConn.left (env : Env) (c : PpConn) (req : NvmeReq) : List UInt8 :=
  if c.txPending then (responsePayload env req).drop c.txSent else (response env req).drop c.txSent

/-- The cursors, for the request at the head. -/
structure AtHead (env : Env) (c : PpConn) (req : NvmeReq) : Prop where
  header : c.txPending = false → c.txSent ≤ headerSize ∧ req.Fresh
  payload : c.txPending = true → c.txSent ≤ (responsePayload env req).length ∧ (req.opcode = cmdGet → req.currentSglBuf = c.txSent / pageSize)

/-- The accepted bytes, and what the requests have yet to send, are `stream`. -/
def Transmits (env : Env) (stream : List UInt8) : List NvmeReq → PpConn → Prop
  | [], c => c.txPending = false ∧ c.txSent = 0 ∧ c.wire = stream
  | req :: rest, c =>
    AtHead env c req ∧ (∀ r ∈ rest, r.Fresh) ∧ c.wire ++ (c.left env req ++ rest.flatMap (response env)) = stream

section Loops

variable {env : Env} {c : PpConn} {req : NvmeReq}

theorem accept_frame {s : PpConn} (frame : s = { c with txSent := s.txSent, wire := s.wire }) (bytes : List UInt8) :
    s.accept bytes = { c with txSent := (s.accept bytes).txSent, wire := (s.accept bytes).wire } := by
  unfold accept
  rw [frame]

/-- The loop that sends the header buffer moves its cursor over it, from `c` to `s`. -/
structure HeaderCursor (c s : PpConn) : Prop extends Cursor (slice c.dataSend 0 headerSize) PpConn.txSent PpConn.wire c s where
  frame : s = { c with txSent := s.txSent, wire := s.wire }

theorem HeaderCursor.bound {s} (cursor : HeaderCursor c s) : s.txSent ≤ headerSize := by
  have within := cursor.within
  rwa [slice_length] at within

theorem HeaderCursor.accept {s bytes} (cursor : HeaderCursor c s) (part : bytes <+: offerHeader s) :
    HeaderCursor c (s.accept bytes) := by
  have same : s.dataSend = c.dataSend := by rw [cursor.frame]
  have piece : bytes <+: (slice c.dataSend 0 headerSize).drop s.txSent := by
    rw [slice_drop, Nat.zero_add, ← same]
    exact part
  exact ⟨cursor.moved piece rfl rfl, accept_frame cursor.frame bytes⟩

theorem header_loop (start : c.txSent ≤ headerSize) (answers : List (Option Nat)) :
    HeaderCursor c (sendLoop offerHeader accept answers c).state ∧
      ((sendLoop offerHeader accept answers c).done = true →
        (sendLoop offerHeader accept answers c).state.txSent = headerSize) := by
  obtain ⟨cursor, empty⟩ := sendLoop_rule (P := HeaderCursor c) (fun _ _ cursor _ part => cursor.accept part) answers
    ⟨.refl _ (by rw [slice_length]; exact start), rfl⟩
  refine ⟨cursor, fun done => ?_⟩
  have none := empty done
  rw [offerHeader, ← length_eq_zero_iff, slice_length] at none
  exact le_antisymm cursor.bound (Nat.le_of_sub_eq_zero none)

theorem page_piece (req : NvmeReq) {n bytes} (within : n ≤ bytes) :
    slice (req.buf (n / pageSize)) (n % pageSize) (min (pageSize - n % pageSize) (bytes - n)) <+: (req.contents bytes).drop n := by
  rw [prefix_iff_eq_take, slice_length]
  apply ext_getElem
  · rw [slice_length, NvmeReq.contents, length_take, length_drop, length_map, length_range]
    omega
  · intro i inside _
    rw [slice_length] at inside
    have page : (n + i) / pageSize = n / pageSize ∧ (n + i) % pageSize = n % pageSize + i := by
      unfold pageSize at *
      omega
    simp only [slice, NvmeReq.contents, getElem_map, getElem_range, getElem_take, getElem_drop, page.1, page.2]

/-- The loop that sends the pages moves its cursor over the blocks. -/
structure PageCursor (env : Env) (c : PpConn) (req : NvmeReq) (s : PpConn × NvmeReq) : Prop
    extends Cursor (req.contents (accessBytes env req.lbaCount)) (fun s : PpConn × NvmeReq => s.1.txSent) (fun s => s.1.wire) (c, req) s where
  frame : s.1 = { c with txSent := s.1.txSent, wire := s.1.wire }
  page : s.2 = { req with currentSglBuf := s.1.txSent / pageSize }

theorem PageCursor.bound (cursor : PageCursor env c req s) : s.1.txSent ≤ accessBytes env req.lbaCount := by
  have within := cursor.within
  rwa [NvmeReq.contents, length_map, length_range] at within

theorem PageCursor.offer (cursor : PageCursor env c req s) :
    offerPage env s = slice (req.buf (s.1.txSent / pageSize)) (s.1.txSent % pageSize)
      (min (pageSize - s.1.txSent % pageSize) (accessBytes env req.lbaCount - s.1.txSent)) := by
  rw [offerPage, cursor.page]

theorem PageCursor.accept {bytes} (cursor : PageCursor env c req s) (some : bytes ≠ [])
    (part : bytes <+: offerPage env s) : PageCursor env c req (acceptPage s bytes) := by
  have within := cursor.bound
  rw [cursor.offer] at part
  have short := part.length_le
  rw [slice_length] at short
  have length := length_pos_of_ne_nil some
  refine ⟨cursor.moved (part.trans (page_piece req within)) rfl rfl, accept_frame cursor.frame bytes, ?_⟩
  have next : (if (s.1.txSent + bytes.length) % pageSize = 0 then s.1.txSent / pageSize + 1 else s.1.txSent / pageSize) =
      (s.1.txSent + bytes.length) / pageSize := by
    unfold pageSize at *
    split_ifs <;> omega
  rw [acceptPage, cursor.page]
  simp only [next, PpConn.accept]

theorem page_loop (within : c.txSent ≤ accessBytes env req.lbaCount) (page : req.currentSglBuf = c.txSent / pageSize)
    (answers : List (Option Nat)) :
    PageCursor env c req (sendLoop (offerPage env) acceptPage answers (c, req)).state ∧
      ((sendLoop (offerPage env) acceptPage answers (c, req)).done = true →
        (sendLoop (offerPage env) acceptPage answers (c, req)).state.1.txSent = accessBytes env req.lbaCount) := by
  have start : PageCursor env c req (c, req) :=
    ⟨.refl _ (by rw [NvmeReq.contents, length_map, length_range]; exact within), rfl, by rw [← page]⟩
  have rule := sendLoop_rule (P := PageCursor env c req) (fun _ _ cursor some part => cursor.accept some part) answers start
  generalize sendLoop (offerPage env) acceptPage answers (c, req) = r at rule ⊢
  obtain ⟨cursor, empty⟩ := rule
  refine ⟨cursor, fun done => le_antisymm cursor.bound ?_⟩
  have none := empty done
  rw [cursor.offer, ← length_eq_zero_iff, slice_length] at none
  unfold pageSize at none
  omega

end Loops

/-! ## The stream of responses -/

def PpConn.rx (c : PpConn) : Nat × Bool × (Nat → UInt8) × List ServerEvent := (c.rxReceived, c.rxPending, c.dataRecv, c.log)

/-- What was accepted, and the cursors of the sending side. -/
def PpConn.tx (c : PpConn) : List UInt8 × Nat × Bool := (c.wire, c.txSent, c.txPending)

/-- Sending leaves the receiving side alone. -/
structure SendFrame (c c' : PpConn) : Prop where
  rx : c'.rx = c.rx
  up : c'.status = .established → c.status = .established

section Stream

variable {env : Env} {c d : PpConn} {req : NvmeReq} {rest : List NvmeReq} {stream : List UInt8}

theorem PpConn.tx_eq_iff : d.tx = c.tx ↔ d.wire = c.wire ∧ d.txSent = c.txSent ∧ d.txPending = c.txPending := by
  rw [tx, tx, Prod.mk.injEq, Prod.mk.injEq]

theorem SendFrame.refl (c : PpConn) : SendFrame c c := ⟨rfl, id⟩

theorem SendFrame.trans {e} (first : SendFrame c d) (second : SendFrame d e) : SendFrame c e :=
  ⟨second.rx.trans first.rx, first.up ∘ second.up⟩

theorem SendFrame.abort (frame : SendFrame c d) : SendFrame c d.abort := ⟨frame.rx, nofun⟩

theorem SendFrame.refused (frame : SendFrame c d) : SendFrame c d.refused := by
  unfold PpConn.refused
  split_ifs
  · exact ⟨frame.rx, nofun⟩
  · exact frame

section

variable (transmits : Transmits env stream reqs c)
include transmits

theorem Transmits.congr (same : d.tx = c.tx) :
    Transmits env stream reqs d := by
  obtain ⟨wire, sent, pending⟩ := tx_eq_iff.1 same
  cases reqs with
  | nil =>
    obtain ⟨idle, start, whole⟩ := transmits
    exact ⟨pending.trans idle, sent.trans start, wire.trans whole⟩
  | cons req rest =>
    obtain ⟨⟨header, payload⟩, fresh, whole⟩ := transmits
    refine ⟨⟨?_, ?_⟩, fresh, ?_⟩
    · rw [pending, sent]
      exact header
    · rw [pending, sent]
      exact payload
    · rw [wire, left, pending, sent]
      exact whole

theorem Transmits.refused : Transmits env stream reqs c.refused := by
  unfold PpConn.refused
  split_ifs
  · exact transmits.congr rfl
  · exact transmits

theorem Transmits.accepted :
    c.wire <+: stream ∧ (reqs = [] → c.wire = stream) := by
  cases reqs with
  | nil =>
    obtain ⟨-, -, whole⟩ := transmits
    exact ⟨whole ▸ prefix_rfl, fun _ => whole⟩
  | cons req rest =>
    obtain ⟨-, -, whole⟩ := transmits
    exact ⟨⟨_, whole⟩, nofun⟩

end

theorem Transmits.start (idle : c.txPending = false) (sent : c.txSent = 0) (fresh : ∀ r ∈ rest, r.Fresh)
    (whole : c.wire ++ rest.flatMap (response env) = stream) : Transmits env stream rest c := by
  cases rest with
  | nil =>
    rw [flatMap_nil, append_nil] at whole
    exact ⟨idle, sent, whole⟩
  | cons req rest =>
    obtain ⟨first, later⟩ := forall_mem_cons.1 fresh
    refine ⟨⟨fun _ => ⟨sent ▸ Nat.zero_le _, first⟩, fun pending => ?_⟩, later, ?_⟩
    · rw [idle] at pending
      cases pending
    · rw [left, idle, if_neg Bool.false_ne_true, sent, drop_zero, ← flatMap_cons]
      exact whole

theorem Transmits.between (transmits : Transmits env stream reqs c) (idle : c.txPending = false) (sent : c.txSent = 0) :
    (∀ r ∈ reqs, r.Fresh) ∧ c.wire ++ reqs.flatMap (response env) = stream := by
  cases reqs with
  | nil =>
    obtain ⟨-, -, whole⟩ := transmits
    refine ⟨forall_mem_nil _, ?_⟩
    rw [flatMap_nil, append_nil, whole]
  | cons req rest =>
    obtain ⟨cursors, fresh, whole⟩ := transmits
    refine ⟨forall_mem_cons.2 ⟨(cursors.header idle).2, fresh⟩, ?_⟩
    rw [left, idle, if_neg Bool.false_ne_true, sent, drop_zero] at whole
    exact whole

theorem Transmits.before {before}
    (transmits : Transmits env (before ++ reqs.flatMap (response env)) reqs c) : before <+: c.wire := by
  cases reqs with
  | nil =>
    obtain ⟨-, -, whole⟩ := transmits
    rw [whole]
    exact prefix_append _ _
  | cons req rest =>
    obtain ⟨-, -, whole⟩ := transmits
    have left : (c.left env req).length ≤ (response env req).length := by
      rw [left, response]
      split_ifs <;> rw [length_drop, length_append] <;> omega
    have lengths := congrArg length whole
    simp only [length_append, flatMap_cons] at lengths
    exact prefix_of_prefix_length_le (prefix_append _ _) ⟨_, whole⟩ (by omega)

theorem Transmits.push (transmits : Transmits env stream reqs c) (fresh : req.Fresh) :
    Transmits env (stream ++ response env req) (reqs ++ [req]) c := by
  cases reqs with
  | nil =>
    obtain ⟨idle, sent, whole⟩ := transmits
    apply Transmits.start idle sent (forall_mem_singleton.2 fresh)
    rw [whole]
    exact congrArg (stream ++ ·) (flatMap_singleton _ _)
  | cons head rest =>
    obtain ⟨cursors, later, whole⟩ := transmits
    rw [cons_append]
    refine ⟨cursors, forall_mem_append.2 ⟨later, forall_mem_singleton.2 fresh⟩, ?_⟩
    rw [flatMap_append, flatMap_singleton, ← whole]
    simp only [append_assoc]

theorem responsePayload_get (get : req.opcode = cmdGet) :
    responsePayload env req = req.contents (accessBytes env req.lbaCount) := if_pos get

theorem contents_length (req : NvmeReq) (bytes : Nat) : (req.contents bytes).length = bytes := by
  rw [NvmeReq.contents, length_map, length_range]

theorem PageCursor.payload (cursor : PageCursor env c req s) (get : req.opcode = cmdGet) :
    responsePayload env s.2 = req.contents (accessBytes env req.lbaCount) := by
  rw [cursor.page]
  exact responsePayload_get get

theorem PageCursor.pending (cursor : PageCursor env c req s) : s.1.txPending = c.txPending := by
  rw [cursor.frame]

theorem PageCursor.transmits (cursor : PageCursor env c req s) (get : req.opcode = cmdGet)
    (pending : c.txPending = true) (transmits : Transmits env stream (req :: rest) c) : Transmits env stream (s.2 :: rest) s.1 := by
  obtain ⟨-, fresh, whole⟩ := transmits
  have mid : s.1.txPending = true := cursor.pending.trans pending
  have same := cursor.payload get
  refine ⟨⟨fun idle => ?_, fun _ => ⟨?_, fun _ => ?_⟩⟩, fresh, ?_⟩
  · rw [mid] at idle
    cases idle
  · rw [same, contents_length]
    exact cursor.bound
  · rw [cursor.page]
  · rw [left, if_pos mid, same, ← append_assoc, cursor.kept, append_assoc, ← whole, left, if_pos pending,
      responsePayload_get get]

theorem Transmits.finish (transmits : Transmits env stream (req :: rest) c) (pending : c.txPending = true)
    (all : c.txSent = (responsePayload env req).length) : Transmits env stream rest c.finish := by
  obtain ⟨-, fresh, whole⟩ := transmits
  apply Transmits.start rfl rfl fresh
  rw [left, if_pos pending, all, drop_length, nil_append] at whole
  exact whole

/-- What an attempt to send the request at the head leads to. -/
structure Outcome (env : Env) (stream : List UInt8) (rest : List NvmeReq) (c : PpConn) (r : Sending (PpConn × NvmeReq)) : Prop where
  gone : r.done = true → Transmits env stream rest r.state.1
  stays : r.done = false → Transmits env stream (r.state.2 :: rest) r.state.1
  frame : SendFrame c r.state.1

theorem Outcome.of_gone {answers} (transmits : Transmits env stream rest d) (frame : SendFrame c d) :
    Outcome env stream rest c ⟨(d, req), answers, true⟩ := ⟨fun _ => transmits, nofun, frame⟩

theorem Outcome.of_stays {answers} (transmits : Transmits env stream (req :: rest) d) (frame : SendFrame c d) :
    Outcome env stream rest c ⟨(d, req), answers, false⟩ := ⟨nofun, fun _ => transmits, frame⟩

theorem Outcome.trans {r} (outcome : Outcome env stream rest d r) (frame : SendFrame c d) :
    Outcome env stream rest c r := ⟨outcome.gone, outcome.stays, frame.trans outcome.frame⟩

theorem PageCursor.sendFrame (cursor : PageCursor env c req s) : SendFrame c s.1 := by
  rw [cursor.frame]
  exact ⟨rfl, id⟩

theorem sendPayload_outcome (pending : c.txPending = true) (transmits : Transmits env stream (req :: rest) c)
    (answers : List (Option Nat)) : Outcome env stream rest c (sendPayload env answers (c, req)) := by
  have cursors := transmits.1.payload pending
  rw [sendPayload]
  split_ifs with get
  · rw [responsePayload_get get, contents_length] at cursors
    obtain ⟨cursor, all⟩ := page_loop cursors.1 (cursors.2 get) answers
    simp only
    generalize sendLoop (offerPage env) acceptPage answers (c, req) = r at cursor all ⊢
    have next := cursor.transmits get pending transmits
    split_ifs with done many
    · exact .of_stays (next.congr rfl) cursor.sendFrame.abort
    · refine .of_gone (next.finish (cursor.pending.trans pending) ?_) ⟨cursor.sendFrame.rx, cursor.sendFrame.up⟩
      rw [cursor.payload get, contents_length]
      exact all done
    · exact .of_stays next.refused cursor.sendFrame.refused
  · have none : responsePayload env req = [] := if_neg get
    refine .of_gone (transmits.finish pending ?_) ⟨rfl, id⟩
    rw [none] at cursors ⊢
    exact Nat.le_zero.1 cursors.1

theorem slice_header (b : Nat → UInt8) (h : Header) : slice (store b 0 h.bytes) 0 headerSize = h.bytes := by
  have read := slice_store b 0 (show 0 + headerSize ≤ h.bytes.length by rw [h.bytes_length, Nat.zero_add])
  rwa [drop_zero, ← h.bytes_length, take_length] at read

theorem HeaderCursor.sendFrame (cursor : HeaderCursor c d) : SendFrame c d := by
  rw [cursor.frame]
  exact ⟨rfl, id⟩

theorem HeaderCursor.transmits (cursor : HeaderCursor c d) (buffer : slice c.dataSend 0 headerSize = (responseHeader req).bytes)
    (idle : c.txPending = false) (transmits : Transmits env stream (req :: rest) c) : Transmits env stream (req :: rest) d := by
  obtain ⟨cursors, fresh, whole⟩ := transmits
  have still : d.txPending = false := by rw [cursor.frame]; exact idle
  have moved := cursor.kept
  rw [buffer] at moved
  have short := (cursors.header idle).1
  refine ⟨⟨fun _ => ⟨cursor.bound, (cursors.header idle).2⟩, fun pending => ?_⟩, fresh, ?_⟩
  · rw [still] at pending
    cases pending
  · rw [left, idle, if_neg Bool.false_ne_true, response, drop_append_of_le_length (by rw [Header.bytes_length]; exact short)] at whole
    rw [left, still, if_neg Bool.false_ne_true, response,
      drop_append_of_le_length (by rw [Header.bytes_length]; exact cursor.bound), ← whole]
    simp only [← append_assoc, moved]

theorem Transmits.headerSent (transmits : Transmits env stream (req :: rest) c) (idle : c.txPending = false)
    (all : c.txSent = headerSize) : Transmits env stream (req :: rest) { c with txPending := true, txSent := 0 } := by
  obtain ⟨cursors, fresh, whole⟩ := transmits
  refine ⟨⟨nofun, fun _ => ⟨Nat.zero_le _, fun get => ?_⟩⟩, fresh, ?_⟩
  · rw [(cursors.header idle).2 get, Nat.zero_div]
  · rw [left, idle, if_neg Bool.false_ne_true, all, response, ← (responseHeader req).bytes_length, drop_left] at whole
    exact whole

theorem sendHeader_outcome (idle : c.txPending = false) (transmits : Transmits env stream (req :: rest) c) (answers : List (Option Nat)) :
    Transmits env stream (req :: rest) (sendHeader req answers c).state ∧
      ((sendHeader req answers c).done = true → (sendHeader req answers c).state.txPending = true) ∧
      SendFrame c (sendHeader req answers c).state := by
  have loaded : Transmits env stream (req :: rest) { c with dataSend := store c.dataSend 0 (responseHeader req).bytes } :=
    transmits.congr rfl
  have frame : SendFrame c { c with dataSend := store c.dataSend 0 (responseHeader req).bytes } := ⟨rfl, id⟩
  have buffer := slice_header c.dataSend (responseHeader req)
  rw [sendHeader]
  generalize asked : { c with dataSend := store c.dataSend 0 (responseHeader req).bytes } = d at loaded frame ⊢
  have still : d.txPending = false := by rw [← asked]; exact idle
  have same : slice d.dataSend 0 headerSize = (responseHeader req).bytes := by rw [← asked]; exact buffer
  obtain ⟨cursor, all⟩ := header_loop (loaded.1.header still).1 answers
  simp only
  generalize sendLoop offerHeader accept answers d = r at cursor all ⊢
  have next := cursor.transmits same still loaded
  split_ifs with empty done
  · exact ⟨loaded.congr rfl, nofun, frame.abort⟩
  · have moved := frame.trans cursor.sendFrame
    refine ⟨next.headerSent ?_ (all done), fun _ => rfl, ⟨moved.rx, moved.up⟩⟩
    rw [cursor.frame]
    exact still
  · exact ⟨next.refused, nofun, frame.trans cursor.sendFrame.refused⟩

theorem sendReq_outcome (transmits : Transmits env stream (req :: rest) c) (answers : List (Option Nat)) :
    Outcome env stream rest c (sendReq env req answers c) := by
  rw [sendReq]
  split_ifs with pending
  · exact sendPayload_outcome pending transmits answers
  · obtain ⟨sent, begun, frame⟩ := sendHeader_outcome (Bool.eq_false_iff.2 pending) transmits answers
    simp only
    split_ifs with done
    · exact (sendPayload_outcome (begun done) sent _).trans frame
    · exact .of_stays sent frame

theorem sendPendingReqs_transmits (transmits : Transmits env stream c.pendingRequests c) (answers : List (Option Nat)) :
    Transmits env stream (sendPendingReqs env answers c).pendingRequests (sendPendingReqs env answers c) ∧
      SendFrame c (sendPendingReqs env answers c) := by
  have start : Transmits env stream c.pendingRequests c ∧ SendFrame c c := ⟨transmits, SendFrame.refl c⟩
  have rule := @drain_rule _ _ (sendTop env) (fun reqs s => Transmits env stream reqs s.1 ∧ SendFrame c s.1) ?_ ?_ _ (c, answers) start
  · obtain ⟨transmits, frame⟩ := rule
    exact ⟨transmits.congr rfl, ⟨frame.rx, frame.up⟩⟩
  · intro req rest s kept gone
    have outcome := sendReq_outcome kept.1 s.2
    exact ⟨outcome.gone gone, kept.2.trans outcome.frame⟩
  · intro req rest s kept stays
    have outcome := sendReq_outcome kept.1 s.2
    exact ⟨outcome.stays stays, kept.2.trans outcome.frame⟩

theorem sendReq_response (env : Env) (req : NvmeReq) (answers : List (Option Nat)) (c : PpConn) :
    response env (sendReq env req answers c).state.2 = response env req := by
  have payload : ∀ answers c, response env (sendPayload env answers (c, req)).state.2 = response env req := by
    intro answers c
    have start : response env (c, req).2 = response env req := rfl
    have rule := sendLoop_rule (P := fun s : PpConn × NvmeReq => response env s.2 = response env req)
      (fun s bytes same (_ : bytes ≠ []) (_ : bytes <+: offerPage env s) => (show response env (acceptPage s bytes).2 = _ from same))
      answers start
    rw [sendPayload]
    split_ifs
    · simp only
      split_ifs <;> exact rule.1
    · rfl
  rw [sendReq]
  split_ifs
  · exact payload answers c
  · simp only
    split_ifs
    · exact payload _ _
    · rfl

theorem sendPendingReqs_suffix (env : Env) (answers : List (Option Nat)) (c : PpConn) :
    (sendPendingReqs env answers c).pendingRequests.map (response env) <:+ c.pendingRequests.map (response env) := by
  apply @drain_rule _ _ (sendTop env) (fun reqs _ => reqs.map (response env) <:+ c.pendingRequests.map (response env))
  · intro req rest s tail _
    exact (suffix_cons _ _).trans tail
  · intro req rest s tail _
    rw [map_cons, sendTop, sendReq_response]
    exact tail
  · exact suffix_rfl

end Stream

end Reflex.Server
