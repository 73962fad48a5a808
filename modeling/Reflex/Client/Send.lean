import Reflex.Client.Receive
import Reflex.Server.Send

/-!
# What the client sends

`send_client_req` and `register_flow` of `apps/reflex_ix_client.c`. A request is a header and, for `CMD_SET`,
`lba_count` blocks of 512 bytes. A call that fails for another reason than a full window, which closes the
connection, is left out.
-/

namespace Reflex.Client
open Lib Server List

def requestHeader (req : ClientReq) : Header := ⟨24, req.cmd, req.self, req.lba, req.lbaCount⟩

def offerHeader (c : ClientConn) : List UInt8 := slice c.dataSend c.txSent (headerSize - c.txSent)

def ClientConn.accept (c : ClientConn) (bytes : List UInt8) : ClientConn :=
  { c with txSent := c.txSent + bytes.length, wire := c.wire ++ bytes }

def offerPage (reqSize : Nat) (s : ClientConn × ClientReq) : List UInt8 :=
  if s.1.txSent < wmul 32 s.2.lbaCount.toNat nsSectorSize then
    slice (s.2.buf s.2.currentSglBuf) (s.1.txSent % pageSize)
      (min (pageSize - s.1.txSent % pageSize) (requestBytes reqSize - s.1.txSent))
  else []

def acceptPage (s : ClientConn × ClientReq) (bytes : List UInt8) : ClientConn × ClientReq :=
  (s.1.accept bytes, { s.2 with
    currentSglBuf := if (s.1.txSent + bytes.length) % pageSize = 0 then s.2.currentSglBuf + 1 else s.2.currentSglBuf })

/-- `send_client_req` while `tx_pending` is not set. -/
def sendHeader (req : ClientReq) (answers : List (Option Nat)) (c : ClientConn) : Sending ClientConn :=
  let r := sendLoop offerHeader ClientConn.accept answers { c with dataSend := store c.dataSend 0 (requestHeader req).bytes }
  if r.done then ⟨{ r.state with txPending := true, txSent := 0 }, r.answers, true⟩ else r

/-- `send_client_req` once `tx_pending` is set. -/
def sendPayload (reqSize : Nat) (answers : List (Option Nat)) (s : ClientConn × ClientReq) : Sending (ClientConn × ClientReq) :=
  if s.2.cmd = cmdSet then
    let r := sendLoop (offerPage reqSize) acceptPage answers s
    if r.done then ⟨({ r.state.1 with txSent := 0, txPending := false }, r.state.2), r.answers, true⟩ else r
  else ⟨({ s.1 with txSent := 0, txPending := false }, s.2), answers, true⟩

def sendClientReq (reqSize : Nat) (req : ClientReq) (answers : List (Option Nat)) (c : ClientConn) : Sending (ClientConn × ClientReq) :=
  if c.txPending then sendPayload reqSize answers (c, req)
  else
    let r := sendHeader req answers c
    if r.done then sendPayload reqSize r.answers (r.state, req) else ⟨(r.state, req), r.answers, false⟩

/-- The calls of `send_client_req` that `send_pending_client_reqs` makes for the request at the
head of its list, until it is out. -/
def sendCalls (reqSize : Nat) : List (List (Option Nat)) → ClientConn × ClientReq → Sending (ClientConn × ClientReq)
  | [], s => ⟨s, [], false⟩
  | answers :: calls, s =>
    let r := sendClientReq reqSize s.2 answers s.1
    if r.done then r else sendCalls reqSize calls r.state

/-- The loop of `register_flow`, by the return values of `ixev_send`: it offers the start of the
header again after a part of it was accepted. -/
def registerLoop : List Int → ClientConn → ClientConn
  | [], c => c
  | ret :: rets, c =>
    if headerSize ≤ c.txSent then c
    else registerLoop rets { c with
      txSent := wofInt 64 (c.txSent + ret)
      wire := c.wire ++ slice c.dataSend 0 (min ret.toNat (headerSize - c.txSent)) }

def registerHeader (latencyUsSLO : UInt32) (iopsSLO : UInt64) (rwRatioSLO : UInt32) : Header :=
  ⟨24, cmdReg, 0, iopsSLO, latencyUsSLO <<< 7 + rwRatioSLO⟩

def registerFlow (latencyUsSLO : UInt32) (iopsSLO : UInt64) (rwRatioSLO : UInt32) (rets : List Int) (c : ClientConn) : ClientConn :=
  { registerLoop rets { c with dataSend := store c.dataSend 0 (registerHeader latencyUsSLO iopsSLO rwRatioSLO).bytes } with txSent := 0 }

/-! ## Requests on the wire -/

/-- The bytes in the pages of a request, in order. -/
def ClientReq.contents (req : ClientReq) (bytes : Nat) : List UInt8 :=
  (List.range bytes).map fun k => req.buf (k / pageSize) (k % pageSize)

def requestPayload (reqSize : Nat) (req : ClientReq) : List UInt8 :=
  if req.cmd = cmdSet then req.contents (requestBytes reqSize) else []

def requestMessage (reqSize : Nat) (req : ClientReq) : List UInt8 := (requestHeader req).bytes ++ requestPayload reqSize req

def ClientConn.left (reqSize : Nat) (c : ClientConn) (req : ClientReq) : List UInt8 :=
  if c.txPending then (requestPayload reqSize req).drop c.txSent else (requestMessage reqSize req).drop c.txSent

/-- The cursors for a request that is being sent. -/
structure AtHead (reqSize : Nat) (c : ClientConn) (req : ClientReq) : Prop where
  header : c.txPending = false → c.txSent ≤ headerSize ∧ req.currentSglBuf = 0
  payload : c.txPending = true → c.txSent ≤ (requestPayload reqSize req).length ∧ (req.cmd = cmdSet → req.currentSglBuf = c.txSent / pageSize)

/-- The request is out, or its rest stays. -/
structure Sends (reqSize : Nat) (c : ClientConn) (req : ClientReq) (r : Sending (ClientConn × ClientReq)) : Prop where
  sent : r.done = true → r.state.1.wire = c.wire ++ c.left reqSize req ∧ r.state.1.txSent = 0 ∧ r.state.1.txPending = false
  stays : r.done = false → AtHead reqSize r.state.1 r.state.2 ∧ r.state.2.lbaCount = req.lbaCount ∧
    r.state.1.wire ++ r.state.1.left reqSize r.state.2 = c.wire ++ c.left reqSize req

/-- The size of the request, as `send_handler` sets it. -/
structure Sized (reqSize : Nat) (req : ClientReq) : Prop where
  count : req.lbaCount.toNat = reqSize
  small : requestBytes reqSize < 2 ^ 32

section Sending

variable {reqSize : Nat} {c : ClientConn} {req : ClientReq}

theorem contents_length (req : ClientReq) (bytes : Nat) : (req.contents bytes).length = bytes := by
  rw [ClientReq.contents, length_map, length_range]

theorem page_piece (req : ClientReq) {n bytes : Nat} (within : n ≤ bytes) :
    slice (req.buf (n / pageSize)) (n % pageSize) (min (pageSize - n % pageSize) (bytes - n)) <+: (req.contents bytes).drop n :=
  Server.page_piece { blankReq with buf := req.buf } within

theorem offer_stored (buffer : Nat → UInt8) (h : Header) (n : Nat) :
    slice (store buffer 0 h.bytes) n (headerSize - n) = h.bytes.drop n := by
  rcases Nat.le_total n headerSize with within | beyond
  · have read := slice_store buffer 0 (show n + (headerSize - n) ≤ h.bytes.length by rw [h.bytes_length]; omega)
    rw [Nat.zero_add] at read
    rw [read, take_of_length_le]
    rw [length_drop, h.bytes_length]
  · rw [Nat.sub_eq_zero_of_le beyond, drop_eq_nil_of_le (by rw [h.bytes_length]; exact beyond)]
    rfl

theorem header_loop (req : ClientReq) (start : c.txSent ≤ headerSize) (answers : List (Option Nat)) :
    let r := sendLoop offerHeader ClientConn.accept answers { c with dataSend := store c.dataSend 0 (requestHeader req).bytes }
    r.state.txSent ≤ headerSize ∧ r.state.txPending = c.txPending ∧
      r.state.wire ++ (requestHeader req).bytes.drop r.state.txSent = c.wire ++ (requestHeader req).bytes.drop c.txSent ∧
      (r.done = true → r.state.txSent = headerSize) := by
  intro r
  have length := (requestHeader req).bytes_length
  let P : ClientConn → Prop := fun s => Cursor (requestHeader req).bytes ClientConn.txSent ClientConn.wire c s ∧
    s.dataSend = store c.dataSend 0 (requestHeader req).bytes ∧ s.txPending = c.txPending
  have step : ∀ s bytes, P s → bytes ≠ [] → bytes <+: offerHeader s → P (s.accept bytes) := by
    rintro s bytes ⟨cursor, buffer, pending⟩ _ part
    rw [offerHeader, buffer, offer_stored] at part
    exact ⟨cursor.moved part rfl rfl, buffer, pending⟩
  have begin : P { c with dataSend := store c.dataSend 0 (requestHeader req).bytes } := ⟨⟨by rw [length]; exact start, rfl⟩, rfl, rfl⟩
  have rule : P r.state ∧ (r.done = true → offerHeader r.state = []) := sendLoop_rule step answers begin
  clear_value r
  obtain ⟨⟨cursor, -, pending⟩, empty⟩ := rule
  have within := cursor.within
  rw [length] at within
  refine ⟨within, pending, cursor.kept, fun done => le_antisymm within ?_⟩
  have none := congrArg List.length (empty done)
  rw [offerHeader, slice_length] at none
  exact Nat.le_of_sub_eq_zero none

section

variable (sized : Sized reqSize req)
include sized

theorem sized_count : wmul 32 req.lbaCount.toNat nsSectorSize = requestBytes reqSize := by
  rw [sized.count]
  exact Nat.mod_eq_of_lt sized.small

theorem page_loop (within : c.txSent ≤ requestBytes reqSize) (page : req.currentSglBuf = c.txSent / pageSize)
    (answers : List (Option Nat)) :
    let r := sendLoop (offerPage reqSize) acceptPage answers (c, req)
    r.state.1.txSent ≤ requestBytes reqSize ∧ r.state.1.txPending = c.txPending ∧
      r.state.2 = { req with currentSglBuf := r.state.1.txSent / pageSize } ∧
      r.state.1.wire ++ (req.contents (requestBytes reqSize)).drop r.state.1.txSent =
        c.wire ++ (req.contents (requestBytes reqSize)).drop c.txSent ∧
      (r.done = true → r.state.1.txSent = requestBytes reqSize) := by
  intro r
  have length := contents_length req (requestBytes reqSize)
  let P : ClientConn × ClientReq → Prop := fun s =>
    Cursor (req.contents (requestBytes reqSize)) (fun s : ClientConn × ClientReq => s.1.txSent) (fun s => s.1.wire) (c, req) s ∧
      s.2 = { req with currentSglBuf := s.1.txSent / pageSize } ∧ s.1.txPending = c.txPending
  have step : ∀ s bytes, P s → bytes ≠ [] → bytes <+: offerPage reqSize s → P (acceptPage s bytes) := by
    rintro s bytes ⟨cursor, pages, pending⟩ more part
    have inside := cursor.within
    rw [length] at inside
    have some := List.length_pos_of_ne_nil more
    rw [offerPage, pages] at part
    split_ifs at part
    · have piece := part.trans (page_piece req inside)
      have short := part.length_le
      rw [slice_length] at short
      refine ⟨cursor.moved piece rfl rfl, ?_, pending⟩
      have next : (if (s.1.txSent + bytes.length) % pageSize = 0 then s.1.txSent / pageSize + 1 else s.1.txSent / pageSize) =
          (s.1.txSent + bytes.length) / pageSize := by
        unfold pageSize at *
        split_ifs <;> omega
      rw [acceptPage, pages]
      simp only [next, ClientConn.accept]
    · exact absurd (List.prefix_nil.1 part) more
  have begin : P (c, req) := ⟨.refl _ (by rw [length]; exact within), by rw [← page], rfl⟩
  have rule : P r.state ∧ (r.done = true → offerPage reqSize r.state = []) := sendLoop_rule step answers begin
  clear_value r
  obtain ⟨⟨cursor, pages, pending⟩, empty⟩ := rule
  have inside := cursor.within
  rw [length] at inside
  refine ⟨inside, pending, pages, cursor.kept, fun done => le_antisymm inside ?_⟩
  have none := empty done
  rw [offerPage, pages, sized_count sized] at none
  by_contra short
  rw [if_pos (not_le.1 short)] at none
  have zero := congrArg List.length none
  rw [slice_length, List.length_nil] at zero
  unfold pageSize at zero
  omega

theorem sendPayload_sends (pending : c.txPending = true) (within : c.txSent ≤ (requestPayload reqSize req).length)
    (page : req.cmd = cmdSet → req.currentSglBuf = c.txSent / pageSize) (answers : List (Option Nat)) :
    Sends reqSize c req (sendPayload reqSize answers (c, req)) := by
  have total : c.left reqSize req = (requestPayload reqSize req).drop c.txSent := if_pos pending
  rw [sendPayload]
  by_cases set : req.cmd = cmdSet
  · have blocks : requestPayload reqSize req = req.contents (requestBytes reqSize) := if_pos set
    rw [blocks] at total
    rw [blocks, contents_length] at within
    rw [if_pos set]
    obtain ⟨inside, kept, pages, stream, whole⟩ := page_loop sized within (page set) answers
    generalize sendLoop (offerPage reqSize) acceptPage answers (c, req) = r at inside kept pages stream whole ⊢
    by_cases done : r.done = true
    · simp only [if_pos done]
      refine ⟨fun _ => ⟨?_, rfl, rfl⟩, nofun⟩
      rw [whole done, drop_eq_nil_of_le (contents_length _ _).le, append_nil] at stream
      rw [total]
      exact stream
    · simp only [if_neg done]
      refine ⟨fun ended => absurd ended done, fun _ => ⟨⟨fun none => ?_, fun _ => ?_⟩, by rw [pages], ?_⟩⟩
      · exact absurd (none.symm.trans (kept.trans pending)) Bool.false_ne_true
      · rw [pages]
        refine ⟨?_, fun _ => rfl⟩
        show r.state.1.txSent ≤ (requestPayload reqSize req).length
        rw [blocks, contents_length]
        exact inside
      · rw [total, ← stream, ClientConn.left, if_pos (kept.trans pending), pages]
        show _ ++ (requestPayload reqSize req).drop _ = _
        rw [blocks]
  · have none : requestPayload reqSize req = [] := if_neg set
    rw [none, drop_nil] at total
    rw [if_neg set]
    exact ⟨fun _ => ⟨by rw [total, append_nil], rfl, rfl⟩, nofun⟩

theorem sendClientReq_sends (cursors : AtHead reqSize c req) (answers : List (Option Nat)) :
    Sends reqSize c req (sendClientReq reqSize req answers c) := by
  rw [sendClientReq]
  by_cases pending : c.txPending = true
  · obtain ⟨within, page⟩ := cursors.payload pending
    rw [if_pos pending]
    exact sendPayload_sends sized pending within page answers
  · have idle : c.txPending = false := Bool.eq_false_iff.2 pending
    obtain ⟨within, first⟩ := cursors.header idle
    have total : c.left reqSize req = (requestHeader req).bytes.drop c.txSent ++ requestPayload reqSize req := by
      rw [ClientConn.left, if_neg pending, requestMessage, drop_append_of_le_length (by rw [Header.bytes_length]; exact within)]
    rw [if_neg pending, sendHeader]
    obtain ⟨inside, kept, stream, whole⟩ := header_loop req within answers
    generalize sendLoop offerHeader ClientConn.accept answers { c with dataSend := store c.dataSend 0 (requestHeader req).bytes } = r
      at inside kept stream whole ⊢
    by_cases done : r.done = true
    · simp only [if_pos done]
      rw [whole done, drop_eq_nil_of_le (Header.bytes_length _).le, append_nil] at stream
      have same : ({ r.state with txPending := true, txSent := 0 } : ClientConn).wire ++
          ({ r.state with txPending := true, txSent := 0 } : ClientConn).left reqSize req = c.wire ++ c.left reqSize req := by
        rw [total, ← append_assoc, ← stream]
        rfl
      obtain ⟨sent, stays⟩ := sendPayload_sends sized (c := { r.state with txPending := true, txSent := 0 }) rfl (Nat.zero_le _)
        (fun _ => first.trans (Nat.zero_div pageSize).symm) r.answers
      rw [same] at sent stays
      exact ⟨sent, stays⟩
    · simp only [if_neg done]
      refine ⟨nofun, fun _ => ⟨⟨fun _ => ⟨inside, first⟩, fun more => ?_⟩, rfl, ?_⟩⟩
      · exact absurd (more.symm.trans (kept.trans idle)) Bool.false_ne_true.symm
      · rw [total, ← append_assoc, ← stream, ClientConn.left, if_neg (by rw [kept]; exact pending), requestMessage,
          drop_append_of_le_length (by rw [Header.bytes_length]; exact inside), append_assoc]

theorem sendCalls_sends (cursors : AtHead reqSize c req) (calls : List (List (Option Nat))) :
    Sends reqSize c req (sendCalls reqSize calls (c, req)) := by
  induction calls generalizing c req with
  | nil => exact ⟨nofun, fun _ => ⟨cursors, rfl, rfl⟩⟩
  | cons answers calls ih =>
    have call := sendClientReq_sends sized cursors answers
    rw [sendCalls]
    by_cases done : (sendClientReq reqSize req answers c).done = true
    · simp only [if_pos done]
      exact call
    · simp only [if_neg done]
      obtain ⟨kept, count, stream⟩ := call.stays (Bool.eq_false_iff.2 done)
      obtain ⟨sent, stays⟩ := ih ⟨by rw [count]; exact sized.count, sized.small⟩ kept
      rw [stream] at sent stays
      refine ⟨sent, fun more => ?_⟩
      obtain ⟨head, same, rest⟩ := stays more
      exact ⟨head, same.trans count, rest⟩

end

theorem registerFlow_wire (fresh : c.txSent = 0) (latencyUsSLO : UInt32) (iopsSLO : UInt64) (rwRatioSLO : UInt32) :
    (registerFlow latencyUsSLO iopsSLO rwRatioSLO [headerSize] c).wire = c.wire ++ (registerHeader latencyUsSLO iopsSLO rwRatioSLO).bytes := by
  have offered := offer_stored c.dataSend (registerHeader latencyUsSLO iopsSLO rwRatioSLO) 0
  rw [Nat.sub_zero, drop_zero] at offered
  simp only [registerFlow, registerLoop, fresh]
  rw [if_neg (by decide)]
  show c.wire ++ slice _ 0 headerSize = _
  rw [offered]

end Sending

end Reflex.Client
