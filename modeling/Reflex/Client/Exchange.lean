import Reflex.Lib.Frames
import Reflex.Client.Send
import Reflex.Server.Framing
import Reflex.Server.Replies

/-!
# Client and server on one connection

The client sends a request and the server a response. Both cut the stream into messages on their own: the
server by the block size of the device, the client by blocks of 512 bytes.
-/

namespace Reflex.Client
open Lib Server Function List

variable {payload front : List UInt8}

/-- A registration, with the two fields that its reply does not set; or a read or a write of the
client, with the pages that the device fills. -/
inductive Exchange where
  | reg (latencyUsSLO : UInt32) (iopsSLO : UInt64) (rwRatioSLO : UInt32) (reqHandle lba : UInt64)
  | io (req : ClientReq) (buf : Nat → Nat → UInt8)

def Exchange.isReg : Exchange → Bool
  | .reg _ _ _ _ _ => true
  | .io _ _ => false

def Exchange.request (reqSize : Nat) : Exchange → List UInt8
  | .reg latencyUsSLO iopsSLO rwRatioSLO _ _ => (registerHeader latencyUsSLO iopsSLO rwRatioSLO).bytes
  | .io req _ => requestMessage reqSize req

/-- The request as the server completes it. -/
def served (req : ClientReq) (buf : Nat → Nat → UInt8) : NvmeReq := ⟨req.cmd, req.lba, req.lbaCount, req.self, buf, 0⟩

def Exchange.response (env : Env) : Exchange → List UInt8
  | .reg _ _ _ reqHandle lba => (Outgoing.reply reqHandle lba).bytes env
  | .io req buf => Server.response env (served req buf)

/-- `send_handler` sets `current_sgl_buf` of a new request to 0. -/
def Exchange.issue : Exchange → ClientConn → ClientConn
  | .reg _ _ _ _ _, c => c
  | .io req _, c => { c with pages := Function.update c.pages req.self 0 }

/-- A request that `send_handler` makes, and that passes the assertion of the server on its first
block. -/
def Exchange.Valid (env : Env) (reqSize : Nat) : Exchange → Prop
  | .reg _ _ _ _ _ => True
  | .io req _ => (req.cmd = cmdGet ∨ req.cmd = cmdSet) ∧ req.self ≠ 0 ∧ req.lbaCount.toNat = reqSize ∧ wmul 64 req.lba.toNat 512 < env.nsSize

/-- Each side takes every message of the other as it was sent. -/
def Agree (env : Env) (reqSize : Nat) (server : PpConn) (client : ClientConn) (exchanges : List Exchange) : Prop :=
  TakesAll (Server.feed env) PpConn.Idle (fun _ c => c) (Exchange.request reqSize) server exchanges ∧
    TakesAll (feed reqSize) ClientConn.AtStart Exchange.issue (Exchange.response env) client exchanges

section Server

variable {env : Env} {c : PpConn} {h : Header}

theorem server_in_header (idle : c.Idle) (some : front ≠ []) (short : front.length < headerSize) :
    ¬ (front.foldl (Server.feed env) c).Idle := by
  rw [Server.foldl_feed_header idle.up idle.pending (by rw [idle.received]; omega)]
  intro rest
  have received : c.rxReceived + front.length = 0 := rest.received
  have length := length_pos_of_ne_nil some
  omega

theorem front_of_message {tail} (parts : h.bytes ++ payload = front ++ tail) (long : headerSize ≤ front.length) :
    ∃ p, front = h.bytes ++ p ∧ payload = p ++ tail := by
  rcases append_eq_append_iff.1 parts with ⟨p, front_eq, payload_eq⟩ | ⟨p, header_eq, tail_eq⟩
  · exact ⟨p, front_eq, payload_eq⟩
  · have length := congrArg length header_eq
    rw [h.bytes_length, length_append] at length
    have none : p = [] := length_eq_zero_iff.1 (by omega)
    rw [none, append_nil] at header_eq
    rw [none, nil_append] at tail_eq
    exact ⟨[], by rw [append_nil, header_eq], tail_eq.symm⟩

theorem server_takes_header (idle : c.Idle) (ends : (h.bytes.foldl (Server.feed env) c).Idle) :
    Takes (Server.feed env) PpConn.Idle c h.bytes := by
  refine ⟨ne_nil_of_length_pos (by rw [h.bytes_length]; decide), ends, fun front tail parts some more => ?_⟩
  have length := congrArg length parts
  have last := length_pos_of_ne_nil more
  rw [h.bytes_length, length_append] at length
  exact server_in_header idle some (by omega)

theorem server_takes_reg (idle : c.Idle) (magic : h.magic = 24) (register : h.opcode = cmdReg) :
    Takes (Server.feed env) PpConn.Idle c h.bytes := by
  apply server_takes_header idle
  have header := storeHeader_header idle.received h
  rw [idle.feed_header, receivedHeader_register (by rw [header]; exact magic) (by rw [header]; exact register),
    Server.settle_of_not_pending]
  · exact ⟨idle.up, idle.pending, rfl⟩
  · exact .inr idle.pending

theorem server_takes_get (idle : c.Idle) (supplies : env.Supplies) (magic : h.magic = 24) (get : h.opcode = cmdGet)
    (limit : num4kWhole env h.lbaCount ≤ maxPagesPerAccess) (passes : wmul 64 h.lba.toNat 512 < env.nsSize) :
    Takes (Server.feed env) PpConn.Idle c h.bytes := by
  apply server_takes_header idle
  obtain ⟨d, fed, r, -⟩ := idle.receiving (supplies _ _) magic (by rw [get]; decide) limit (.inl rfl : h.Carries env [])
  rw [append_nil] at fed
  rw [fed, r.settle_get get, dispatch_passes (by rw [r.header]; exact passes)]
  exact ⟨r.up, rfl, rfl⟩

theorem server_reads_set (idle : c.Idle) (supplies : env.Supplies) (magic : h.magic = 24) (set : h.opcode = cmdSet)
    (limit : num4kWhole env h.lbaCount ≤ maxPagesPerAccess) (within : payload.length ≤ accessBytes env h.lbaCount) :
    (payload.length < accessBytes env h.lbaCount → ¬ ((h.bytes ++ payload).foldl (Server.feed env) c).Idle) ∧
      (payload.length = accessBytes env h.lbaCount → wmul 64 h.lba.toNat 512 < env.nsSize →
        ((h.bytes ++ payload).foldl (Server.feed env) c).Idle ∨
          wmul 32 h.lbaCount.toNat 8 < payload.length / pageSize % 2 ^ 32 ∧
            ((h.bytes ++ payload).foldl (Server.feed env) c).status = .aborted) := by
  obtain ⟨d, fed, r, -⟩ := idle.receiving (supplies _ _) magic (by rw [set]; decide) limit (.inr ⟨set, within⟩ : h.Carries env payload)
  rw [fed]
  constructor
  · intro short rest
    have waits : Server.settle env d = d := Server.settle_of_waiting (by rw [r.header, set]) (by rw [r.header, r.received]; exact short)
    rw [waits] at rest
    exact absurd (rest.pending.symm.trans r.pending) Bool.false_ne_true
  · intro whole passes
    rw [r.settle_set set whole]
    split_ifs with many
    · exact .inr ⟨many, rfl⟩
    · rw [dispatch_passes (by rw [r.header]; exact passes)]
      exact .inl ⟨r.up, rfl, rfl⟩

theorem within_pages {lbaCount} (fits : accessBytes env lbaCount ≤ maxPagesPerAccess * pageSize) :
    num4kWhole env lbaCount ≤ maxPagesPerAccess := by
  have pages : accessBytes env lbaCount / pageSize ≤ maxPagesPerAccess := Nat.div_le_of_le_mul (by rw [Nat.mul_comm]; exact fits)
  have small : accessBytes env lbaCount / pageSize < 2 ^ 31 := by
    unfold maxPagesPerAccess at pages
    omega
  have same : num4kWhole env lbaCount = (accessBytes env lbaCount / pageSize : Nat) := bmod_word_of_lt small
  rw [same]
  omega

theorem server_aborts (idle : c.Idle) (supplies : env.Supplies) (magic : h.magic = 24) (request : h.opcode ≠ cmdReg)
    (limit : ¬ num4kWhole env h.lbaCount ≤ maxPagesPerAccess) (payload : List UInt8) :
    ¬ ((h.bytes ++ payload).foldl (Server.feed env) c).Idle := by
  have header := storeHeader_header idle.received h
  obtain ⟨supply, found, -⟩ := supplies (Server.storeHeader c h.bytes).allocs 0
  have aborted : (receivedHeader env (Server.storeHeader c h.bytes)).status = .aborted := by
    rw [receivedHeader, header, if_neg (not_not.2 magic), if_neg request, found]
    simp only [if_pos (not_le.1 limit)]
    rfl
  have down : (receivedHeader env (Server.storeHeader c h.bytes)).status ≠ .established := by rw [aborted]; decide
  rw [foldl_append, idle.feed_header, Server.settle_of_not_pending (.inl down), foldl_feed_deaf (.inl down)]
  exact fun rest => down rest.up

/-- The server takes a write as it was sent just if its blocks have the size that was sent. -/
theorem server_takes_set_iff (idle : c.Idle) (supplies : env.Supplies) (magic : h.magic = 24) (set : h.opcode = cmdSet)
    (passes : wmul 64 h.lba.toNat 512 < env.nsSize) (sent : payload.length = h.lbaCount.toNat * 512)
    (fits : payload.length ≤ maxPagesPerAccess * pageSize) :
    Takes (Server.feed env) PpConn.Idle c (h.bytes ++ payload) ↔ accessBytes env h.lbaCount = payload.length := by
  have request : h.opcode ≠ cmdReg := by rw [set]; decide
  have header : h.bytes ≠ [] := ne_nil_of_length_pos (by rw [h.bytes_length]; decide)
  constructor
  · intro takes
    by_cases limit : num4kWhole env h.lbaCount ≤ maxPagesPerAccess
    · rcases Nat.lt_trichotomy (accessBytes env h.lbaCount) payload.length with more | same | less
      · -- the server is done with the message too early, or for good
        have length : (payload.take (accessBytes env h.lbaCount)).length = accessBytes env h.lbaCount := length_take_of_le more.le
        have parts : h.bytes ++ payload = (h.bytes ++ payload.take (accessBytes env h.lbaCount)) ++ payload.drop (accessBytes env h.lbaCount) := by
          rw [append_assoc, take_append_drop]
        have left : payload.drop (accessBytes env h.lbaCount) ≠ [] := ne_nil_of_length_pos (by rw [length_drop]; omega)
        rcases (server_reads_set idle supplies magic set limit length.le).2 length passes with rest | ⟨-, aborted⟩
        · exact absurd rest (takes.inside _ _ parts (append_ne_nil_of_left_ne_nil header _) left)
        · have down : ((h.bytes ++ payload.take (accessBytes env h.lbaCount)).foldl (Server.feed env) c).status ≠ .established := by
            rw [aborted]
            decide
          have ends := takes.ends
          rw [parts, foldl_append, foldl_feed_deaf (.inl down)] at ends
          exact absurd ends.up down
      · exact same
      · exact absurd takes.ends ((server_reads_set idle supplies magic set limit less.le).1 less)
    · exact absurd takes.ends (server_aborts idle supplies magic request limit payload)
  · intro same
    have limit := within_pages (same.trans_le fits)
    refine ⟨append_ne_nil_of_left_ne_nil header _, ?_, ?_⟩
    · rcases (server_reads_set idle supplies magic set limit same.ge).2 same.symm passes with rest | ⟨many, -⟩
      · exact rest
      · rw [sent] at many fits
        unfold wmul maxPagesPerAccess pageSize at *
        omega
    · intro front tail parts some more
      rcases Nat.lt_or_ge front.length headerSize with short | long
      · exact server_in_header idle some short
      · obtain ⟨p, rfl, cut⟩ := front_of_message parts long
        have length := congrArg length cut
        have last := length_pos_of_ne_nil more
        rw [length_append] at length
        exact (server_reads_set idle supplies magic set limit (by omega)).1 (by omega)

end Server

section Client

variable {reqSize : Nat} {c : ClientConn} {h : Header}

theorem foldl_feed_down (down : c.status ≠ .established) (bytes : List UInt8) : bytes.foldl (feed reqSize) c = c := by
  induction bytes with
  | nil => rfl
  | cons b bytes ih => rw [foldl_cons, feed, if_pos down, ih]

theorem client_in_header (start : c.AtStart) (some : front ≠ []) (short : front.length < headerSize) :
    ¬ (front.foldl (feed reqSize) c).AtStart := by
  rw [foldl_feed_header start.up start.pending (by rw [start.received]; omega)]
  intro rest
  have received : c.rxReceived + front.length = 0 := rest.received
  have length := length_pos_of_ne_nil some
  omega

/-- The client has read the header of a response and `n` bytes behind it. -/
def receiving (c : ClientConn) (h : Header) (n : Nat) : ClientConn :=
  { c with
    rxReceived := n
    rxPending := true
    dataRecv := store c.dataRecv 0 h.bytes
    pages := Function.update c.pages h.reqHandle (n / pageSize) }

theorem receiving_header (c : ClientConn) (h : Header) (n : Nat) : (receiving c h n).header = h := Header.ofBuffer_store c.dataRecv h

theorem feed_header (start : c.AtStart) (fresh : c.pages h.reqHandle = 0) :
    h.bytes.foldl (feed reqSize) c = settle reqSize (receiving c h 0) := by
  rw [foldl_feed_whole_header start.up start.pending (ne_nil_of_length_pos (by rw [h.bytes_length]; decide))
    (by rw [start.received, h.bytes_length, Nat.zero_add])]
  have same : startMessage (storeHeader c h.bytes) = receiving c h 0 := by
    have pages : update c.pages h.reqHandle (0 / pageSize) = c.pages := by
      rw [Nat.zero_div, update_eq_self_iff, fresh]
    rw [receiving, pages, storeHeader, start.received]
    rfl
  rw [same]

theorem storePayload_receiving (c : ClientConn) (h : Header) (n : Nat) : storePayload (receiving c h n) 1 = receiving c h (n + 1) := by
  have next : (if (n + 1) % pageSize = 0 then n / pageSize + 1 else n / pageSize) = (n + 1) / pageSize := by
    unfold pageSize
    split_ifs <;> omega
  have pages : (if (n + 1) % pageSize = 0 then update (receiving c h n).pages h.reqHandle ((receiving c h n).pages h.reqHandle + 1)
      else (receiving c h n).pages) = update c.pages h.reqHandle ((n + 1) / pageSize) := by
    rw [← next]
    split_ifs
    · show update (update c.pages h.reqHandle (n / pageSize)) h.reqHandle
        (update c.pages h.reqHandle (n / pageSize) h.reqHandle + 1) = _
      rw [update_idem, update_self]
    · rfl
  rw [storePayload, receiving_header]
  show ({ receiving c h n with rxReceived := n + 1, pages := if (n + 1) % pageSize = 0 then _ else _ } : ClientConn) = _
  rw [pages]
  rfl

theorem feed_payload (start : c.AtStart) (running : c.running = true) (magic : h.magic = 24) (handle : h.reqHandle ≠ 0)
    (get : h.opcode = cmdGet) {n} (within : n + payload.length ≤ requestBytes reqSize) :
    payload.foldl (feed reqSize) (settle reqSize (receiving c h n)) = settle reqSize (receiving c h (n + payload.length)) := by
  induction payload generalizing n with
  | nil => rfl
  | cons b payload ih =>
    rw [length_cons] at within
    have header := receiving_header c h n
    have waits : (receiving c h n).Waits reqSize := by
      refine ⟨by rw [header, magic], running, by rw [header]; exact handle, by rw [header, get], ?_⟩
      show n < requestBytes reqSize
      omega
    have up : (receiving c h n).status = .established := start.up
    rw [settle_of_waiting waits, foldl_cons, feed, if_neg (not_not.2 up),
      if_pos (show (receiving c h n).rxPending = true from rfl), if_pos waits, storePayload_receiving,
      ih (by omega), length_cons]
    congr 2
    omega

/-- What the client makes of the header of a response and `n` bytes behind it. -/
theorem client_reads_get (start : c.AtStart) (running : c.running = true) (magic : h.magic = 24) (handle : h.reqHandle ≠ 0)
    (get : h.opcode = cmdGet) (fresh : c.pages h.reqHandle = 0) (count : h.lbaCount.toNat = reqSize)
    (fits : requestBytes reqSize ≤ maxPagesPerAccess * pageSize) (within : payload.length ≤ requestBytes reqSize) :
    ((h.bytes ++ payload).foldl (feed reqSize) c).AtStart ↔ payload.length = requestBytes reqSize := by
  have header := receiving_header c h payload.length
  rw [foldl_append, feed_header start fresh, feed_payload start running magic handle get (by rw [Nat.zero_add]; exact within),
    Nat.zero_add]
  rcases within.lt_or_eq with less | same
  · have waits : (receiving c h payload.length).Waits reqSize :=
      ⟨by rw [header, magic], running, by rw [header]; exact handle, by rw [header, get], less⟩
    rw [settle_of_waiting waits]
    exact iff_of_false (fun rest => absurd (show true = false from rest.pending) (by decide)) less.ne
  · have ended : ¬ (receiving c h payload.length).Waits reqSize := fun waits => absurd waits.2.2.2.2 (not_lt.2 same.ge)
    have pages : (receiving c h payload.length).pages h.reqHandle = payload.length / pageSize := update_self _ _ _
    have few : ¬ wmul 32 h.lbaCount.toNat 8 < payload.length / pageSize % 2 ^ 32 := by
      rw [same, count]
      unfold wmul requestBytes nsSectorSize maxPagesPerAccess pageSize at *
      omega
    have up : (receiving c h payload.length).status = .established := start.up
    have runs : ¬ (receiving c h payload.length).running = false := fun stopped => absurd (running.symm.trans stopped) (by decide)
    rw [settle_of_ended up rfl ended, finishMessage, header, if_neg (not_not.2 magic), if_neg runs, if_neg handle, if_pos get, pages,
      if_neg few]
    exact iff_of_true ⟨start.up, rfl, rfl⟩ same

/-- The client takes a read as it was sent just if its blocks have the size that it expects. -/
theorem client_takes_get_iff (start : c.AtStart) (running : c.running = true) (magic : h.magic = 24) (handle : h.reqHandle ≠ 0)
    (get : h.opcode = cmdGet) (fresh : c.pages h.reqHandle = 0) (count : h.lbaCount.toNat = reqSize)
    (fits : requestBytes reqSize ≤ maxPagesPerAccess * pageSize) :
    Takes (feed reqSize) ClientConn.AtStart c (h.bytes ++ payload) ↔ payload.length = requestBytes reqSize := by
  have header : h.bytes ≠ [] := ne_nil_of_length_pos (by rw [h.bytes_length]; decide)
  have reads : ∀ {p : List UInt8}, p.length ≤ requestBytes reqSize →
      (((h.bytes ++ p).foldl (feed reqSize) c).AtStart ↔ p.length = requestBytes reqSize) :=
    client_reads_get start running magic handle get fresh count fits
  constructor
  · intro takes
    rcases Nat.lt_trichotomy payload.length (requestBytes reqSize) with less | same | more
    · exact (reads less.le).1 takes.ends
    · exact same
    · -- the client is done with the message too early
      have length : (payload.take (requestBytes reqSize)).length = requestBytes reqSize := length_take_of_le more.le
      have parts : h.bytes ++ payload = (h.bytes ++ payload.take (requestBytes reqSize)) ++ payload.drop (requestBytes reqSize) := by
        rw [append_assoc, take_append_drop]
      refine absurd ((reads length.le).2 length) (takes.inside _ _ parts (append_ne_nil_of_left_ne_nil header _) ?_)
      exact ne_nil_of_length_pos (by rw [length_drop]; omega)
  · intro same
    refine ⟨append_ne_nil_of_left_ne_nil header _, (reads same.le).2 same, fun front tail parts some more => ?_⟩
    rcases Nat.lt_or_ge front.length headerSize with short | long
    · exact client_in_header start some short
    · obtain ⟨p, rfl, cut⟩ := front_of_message parts long
      have length := congrArg length cut
      have last := length_pos_of_ne_nil more
      rw [length_append] at length
      rw [reads (by omega)]
      omega

theorem client_takes_header (start : c.AtStart) (ends : (h.bytes.foldl (feed reqSize) c).AtStart) :
    Takes (feed reqSize) ClientConn.AtStart c h.bytes := by
  refine ⟨ne_nil_of_length_pos (by rw [h.bytes_length]; decide), ends, fun front tail parts some more => ?_⟩
  have length := congrArg length parts
  have last := length_pos_of_ne_nil more
  rw [h.bytes_length, length_append] at length
  exact client_in_header start some (by omega)

theorem feed_other (reqSize : Nat) (start : c.AtStart) (other : h.opcode ≠ cmdGet ∨ c.running = false) :
    h.bytes.foldl (feed reqSize) c = finishMessage (startMessage (storeHeader c h.bytes)) ∧
      (startMessage (storeHeader c h.bytes)).header = h := by
  have header : (startMessage (storeHeader c h.bytes)).header = h := by
    rw [storeHeader, start.received]
    exact Header.ofBuffer_store c.dataRecv h
  refine ⟨?_, header⟩
  rw [foldl_feed_whole_header start.up start.pending (ne_nil_of_length_pos (by rw [h.bytes_length]; decide))
    (by rw [start.received, h.bytes_length, Nat.zero_add])]
  have up : (startMessage (storeHeader c h.bytes)).status = .established := start.up
  apply settle_of_ended up rfl
  rintro ⟨-, runs, -, get, -⟩
  rcases other with opcode | stopped
  · rw [header] at get
    exact opcode get
  · exact absurd (runs.symm.trans stopped) (by decide)

theorem client_takes_set (start : c.AtStart) (running : c.running = true) (magic : h.magic = 24) (handle : h.reqHandle ≠ 0)
    (set : h.opcode = cmdSet) : Takes (feed reqSize) ClientConn.AtStart c h.bytes := by
  have get : h.opcode ≠ cmdGet := by rw [set]; decide
  obtain ⟨fed, header⟩ := feed_other reqSize start (.inl get)
  have runs : ¬ (startMessage (storeHeader c h.bytes)).running = false := fun stopped => absurd (running.symm.trans stopped) (by decide)
  apply client_takes_header start
  rw [fed, finishMessage, header, if_neg (not_not.2 magic), if_neg runs, if_neg handle, if_neg get, if_pos set]
  exact ⟨start.up, rfl, rfl⟩

theorem client_takes_reply (reqSize : Nat) (start : c.AtStart) (stopped : c.running = false) (magic : h.magic = 24)
    (register : h.opcode = cmdReg)
    (accepted : h.lbaCount = respOk) :
    Takes (feed reqSize) ClientConn.AtStart c h.bytes ∧ (h.bytes.foldl (feed reqSize) c).running = true := by
  obtain ⟨fed, header⟩ := feed_other reqSize (h := h) start (.inr stopped)
  have waits : (startMessage (storeHeader c h.bytes)).running = false := stopped
  have done : h.bytes.foldl (feed reqSize) c = endMessage { startMessage (storeHeader c h.bytes) with running := true } := by
    rw [fed, finishMessage, header, if_neg (not_not.2 magic), if_pos waits, registered, header, if_neg (not_not.2 register),
      if_pos accepted]
  refine ⟨client_takes_header start ?_, by rw [done]; rfl⟩
  rw [done]
  exact ⟨start.up, rfl, rfl⟩

theorem client_aborts (start : c.AtStart) (stopped : c.running = false) (magic : h.magic = 24) (other : h.opcode ≠ cmdReg)
    (payload : List UInt8) : ¬ ((h.bytes ++ payload).foldl (feed reqSize) c).AtStart := by
  obtain ⟨fed, header⟩ := feed_other reqSize (h := h) start (.inr stopped)
  have waits : (startMessage (storeHeader c h.bytes)).running = false := stopped
  have aborted : (h.bytes.foldl (feed reqSize) c).status = .aborted := by
    rw [fed, finishMessage, header, if_neg (not_not.2 magic), if_pos waits, registered, header, if_pos other]
    rfl
  have down : (h.bytes.foldl (feed reqSize) c).status ≠ .established := by rw [aborted]; decide
  rw [foldl_append, foldl_feed_down down]
  exact fun rest => down rest.up

/-- With another reply to a registration the client is never done. -/
theorem client_stuck (start : c.AtStart) (running : c.running = true) (magic : h.magic = 24) (register : h.opcode = cmdReg) :
    ¬ (h.bytes.foldl (feed reqSize) c).AtStart := by
  have get : h.opcode ≠ cmdGet := by rw [register]; decide
  have set : h.opcode ≠ cmdSet := by rw [register]; decide
  obtain ⟨fed, header⟩ := feed_other reqSize start (.inl get)
  have runs : ¬ (startMessage (storeHeader c h.bytes)).running = false := fun stopped => absurd (running.symm.trans stopped) (by decide)
  rw [fed, finishMessage, header, if_neg (not_not.2 magic), if_neg runs, if_neg get, if_neg set, if_pos register]
  split_ifs
  · exact fun rest => absurd (show Status.aborted = .established from rest.up) (by decide)
  · exact fun rest => absurd (show true = false from rest.pending) (by decide)

theorem feed_running (b : UInt8) (running : c.running = true) : (feed reqSize c b).running = true := by
  have finish : ∀ d : ClientConn, d.running = true → (finishMessage d).running = true := by
    intro d runs
    unfold finishMessage
    rw [if_neg (show ¬ d.running = false by rw [runs]; decide)]
    split_ifs <;> exact runs
  have settles : ∀ d : ClientConn, d.running = true → (settle reqSize d).running = true := by
    intro d runs
    unfold settle
    split_ifs
    · exact finish d runs
    · exact runs
  unfold feed
  split_ifs
  · exact running
  · exact settles _ running
  · exact running
  · exact running
  · exact settles _ running
  · exact running

theorem foldl_feed_running (bytes : List UInt8) (running : c.running = true) : (bytes.foldl (feed reqSize) c).running = true := by
  induction bytes generalizing c with
  | nil => exact running
  | cons b bytes ih => exact ih (feed_running b running)

end Client

section Agreement

variable {env : Env} {reqSize : Nat} {server : PpConn} {client : ClientConn}

theorem same_bytes_iff (small : env.nsSectorSize < 2 ^ 32) {lbaCount : UInt32} (count : lbaCount.toNat = reqSize) :
    accessBytes env lbaCount = requestBytes reqSize ↔ reqSize = 0 ∨ env.nsSectorSize = 512 := by
  have below : lbaCount.toNat < 2 ^ 32 := lbaCount.toNat_lt
  have fits : lbaCount.toNat * env.nsSectorSize < 2 ^ 64 := by
    calc lbaCount.toNat * env.nsSectorSize < 2 ^ 32 * 2 ^ 32 := Nat.mul_lt_mul'' below small
      _ = 2 ^ 64 := by norm_num
  have bytes : accessBytes env lbaCount = reqSize * env.nsSectorSize := by
    rw [← count]
    exact Nat.mod_eq_of_lt fits
  rw [bytes, requestBytes, nsSectorSize]
  constructor
  · intro same
    rcases Nat.eq_zero_or_pos reqSize with none | some
    · exact .inl none
    · exact .inr (Nat.eq_of_mul_eq_mul_left some same)
  · rintro (rfl | same)
    · rw [Nat.zero_mul, Nat.zero_mul]
    · rw [same]

theorem agree_cons (e : Exchange) (es : List Exchange) :
    Agree env reqSize server client (e :: es) ↔
      (Takes (Server.feed env) PpConn.Idle server (e.request reqSize) ∧
        Takes (feed reqSize) ClientConn.AtStart (e.issue client) (e.response env)) ∧
      Agree env reqSize ((e.request reqSize).foldl (Server.feed env) server) ((e.response env).foldl (feed reqSize) (e.issue client)) es :=
  and_and_and_comm

theorem Exchange.issue_atStart (e : Exchange) (start : client.AtStart) : (e.issue client).AtStart := by
  cases e with
  | reg latencyUsSLO iopsSLO rwRatioSLO reqHandle lba => exact start
  | io req buf => exact ⟨start.up, start.pending, start.received⟩

theorem io_agrees_iff (supplies : env.Supplies) (small : env.nsSectorSize < 2 ^ 32)
    (fits : requestBytes reqSize ≤ maxPagesPerAccess * pageSize) (idle : server.Idle) (start : client.AtStart)
    (running : client.running = true) {req buf} (valid : (Exchange.io req buf).Valid env reqSize) :
    (Takes (Server.feed env) PpConn.Idle server ((Exchange.io req buf).request reqSize) ∧
        Takes (feed reqSize) ClientConn.AtStart ((Exchange.io req buf).issue client) ((Exchange.io req buf).response env)) ↔
      reqSize = 0 ∨ env.nsSectorSize = 512 := by
  obtain ⟨cmd, handle, count, passes⟩ := valid
  have bytes := same_bytes_iff small count
  have start' := (Exchange.io req buf).issue_atStart start
  have fresh : ((Exchange.io req buf).issue client).pages req.self = 0 := update_self _ _ _
  rcases cmd with get | set
  · have notSet : req.cmd ≠ cmdSet := by rw [get]; decide
    have request : (Exchange.io req buf).request reqSize = (requestHeader req).bytes := by
      rw [Exchange.request, requestMessage, requestPayload, if_neg notSet, append_nil]
    have response : (Exchange.io req buf).response env =
        (responseHeader (served req buf)).bytes ++ (served req buf).contents (accessBytes env req.lbaCount) := by
      rw [Exchange.response, Server.response, responsePayload, if_pos (show (served req buf).opcode = cmdGet from get)]
      rfl
    have header : responseHeader (served req buf) = ⟨24, req.cmd, req.self, req.lba, req.lbaCount⟩ := by
      rw [responseHeader, if_pos (show (served req buf).opcode = cmdGet from get)]
      rfl
    rw [request, response, header, client_takes_get_iff start' running rfl handle get fresh count fits, Server.contents_length, bytes,
      and_iff_right_iff_imp]
    intro same
    have within : accessBytes env req.lbaCount ≤ maxPagesPerAccess * pageSize := (bytes.2 same).trans_le fits
    exact server_takes_get idle supplies rfl get (within_pages within) passes
  · have length : (req.contents (requestBytes reqSize)).length = requestBytes reqSize := contents_length req _
    have request : (Exchange.io req buf).request reqSize = (requestHeader req).bytes ++ req.contents (requestBytes reqSize) := by
      rw [Exchange.request, requestMessage, requestPayload, if_pos set]
    have sent : (req.contents (requestBytes reqSize)).length = (requestHeader req).lbaCount.toNat * 512 := by
      rw [length, requestBytes, ← count]
      rfl
    have notGet : req.cmd ≠ cmdGet := by rw [set]; decide
    have response : (Exchange.io req buf).response env = (responseHeader (served req buf)).bytes := by
      rw [Exchange.response, Server.response, responsePayload, if_neg (show ¬ (served req buf).opcode = cmdGet from notGet),
        append_nil]
    have reads := server_takes_set_iff (h := requestHeader req) idle supplies rfl set passes sent (length.trans_le fits)
    have acknowledged : Takes (feed reqSize) ClientConn.AtStart ((Exchange.io req buf).issue client)
        (responseHeader (served req buf)).bytes :=
      client_takes_set start' running rfl handle set
    rw [request, response, reads, length, and_iff_left acknowledged]
    exact bytes

theorem io_first_aborts {req buf}
    (valid : (Exchange.io req buf).Valid env reqSize) :
    ¬ (((Exchange.io req buf).response env).foldl (feed reqSize) ((Exchange.io req buf).issue (dialing client))).AtStart := by
  have other : (responseHeader (served req buf)).opcode ≠ cmdReg := by
    show req.cmd ≠ cmdReg
    rcases valid.1 with get | set
    · rw [get]
      decide
    · rw [set]
      decide
  exact client_aborts ((Exchange.io req buf).issue_atStart (dialing_atStart client)) rfl rfl other _

theorem agree_running_iff (supplies : env.Supplies) (small : env.nsSectorSize < 2 ^ 32)
    (fits : requestBytes reqSize ≤ maxPagesPerAccess * pageSize) {exchanges}
    (valid : ∀ e ∈ exchanges, e.Valid env reqSize) (idle : server.Idle) (start : client.AtStart) (running : client.running = true) :
    Agree env reqSize server client exchanges ↔
      (∀ e ∈ exchanges, e.isReg = false) ∧ (exchanges = [] ∨ reqSize = 0 ∨ env.nsSectorSize = 512) := by
  induction exchanges generalizing server client with
  | nil => exact iff_of_true ⟨trivial, trivial⟩ ⟨forall_mem_nil _, .inl rfl⟩
  | cons e es ih =>
    obtain ⟨first, later⟩ := forall_mem_cons.1 valid
    rw [agree_cons, forall_mem_cons]
    cases e with
    | reg latencyUsSLO iopsSLO rwRatioSLO reqHandle lba =>
      refine iff_of_false (fun agree => ?_) fun both => Bool.noConfusion (show true = false from both.1.1)
      exact client_stuck start running rfl rfl agree.1.2.ends
    | io req buf =>
      have one := io_agrees_iff supplies small fits idle start running first
      constructor
      · rintro ⟨takes, rest⟩
        have runs : ((Exchange.response env (.io req buf)).foldl (feed reqSize) (Exchange.issue (.io req buf) client)).running = true :=
          foldl_feed_running _ running
        exact ⟨⟨rfl, ((ih later takes.1.ends takes.2.ends runs).1 rest).1⟩, .inr (one.1 takes)⟩
      · rintro ⟨⟨-, others⟩, same⟩
        have takes := one.2 (same.resolve_left (cons_ne_nil _ _))
        have runs : ((Exchange.response env (.io req buf)).foldl (feed reqSize) (Exchange.issue (.io req buf) client)).running = true :=
          foldl_feed_running _ running
        exact ⟨takes, (ih later takes.1.ends takes.2.ends runs).2 ⟨others, .inr (same.resolve_left (cons_ne_nil _ _))⟩⟩

theorem agree_iff (supplies : env.Supplies) (small : env.nsSectorSize < 2 ^ 32)
    (fits : requestBytes reqSize ≤ maxPagesPerAccess * pageSize) (idle : server.Idle) {exchanges}
    (valid : ∀ e ∈ exchanges, e.Valid env reqSize) :
    Agree env reqSize server (dialing client) exchanges ↔
      exchanges = [] ∨ ∃ e es, exchanges = e :: es ∧ e.isReg = true ∧ (∀ e' ∈ es, e'.isReg = false) ∧
        (es = [] ∨ reqSize = 0 ∨ env.nsSectorSize = 512) := by
  have start := dialing_atStart client
  cases exchanges with
  | nil => exact iff_of_true ⟨trivial, trivial⟩ (.inl rfl)
  | cons e es =>
    obtain ⟨first, later⟩ := forall_mem_cons.1 valid
    rw [agree_cons]
    cases e with
    | reg latencyUsSLO iopsSLO rwRatioSLO reqHandle lba =>
      have request : Takes (Server.feed env) PpConn.Idle server (registerHeader latencyUsSLO iopsSLO rwRatioSLO).bytes :=
        server_takes_reg idle rfl rfl
      obtain ⟨reply, runs⟩ := client_takes_reply reqSize (h := ⟨24, cmdReg, reqHandle, lba, respOk⟩) start rfl rfl rfl rfl
      have rest := agree_running_iff supplies small fits later request.ends reply.ends runs
      refine (and_iff_right ⟨request, reply⟩).trans (rest.trans ⟨fun io => .inr ⟨_, es, rfl, rfl, io⟩, ?_⟩)
      rintro (none | ⟨e, es', same, -, io⟩)
      · exact absurd none (cons_ne_nil _ _)
      · rw [(cons.inj same).2]
        exact io
    | io req buf =>
      refine iff_of_false (fun agree => ?_) ?_
      · exact io_first_aborts first agree.1.2.ends
      · rintro (none | ⟨e, es', same, register, -⟩)
        · exact absurd none (cons_ne_nil _ _)
        · rw [← (cons.inj same).1] at register
          exact Bool.noConfusion (show false = true from register)

end Agreement

/-- Client and server agree on where messages end just if the registration comes first and only there, and the
blocks of the device are 512 bytes long or none are transferred. Then both wait for a message after any number
of exchanges. -/
theorem message_boundaries_iff {env : Env} {reqSize : Nat} {server : PpConn} {memory : ClientConn} (supplies : env.Supplies)
    (small : env.nsSectorSize < 2 ^ 32) (fits : requestBytes reqSize ≤ maxPagesPerAccess * pageSize) (idle : server.Idle)
    {exchanges : List Exchange} (valid : ∀ e ∈ exchanges, e.Valid env reqSize) :
    (Agree env reqSize server (dialing memory) exchanges ↔
      exchanges = [] ∨ ∃ e es, exchanges = e :: es ∧ e.isReg = true ∧ (∀ e' ∈ es, e'.isReg = false) ∧
        (es = [] ∨ reqSize = 0 ∨ env.nsSectorSize = 512)) ∧
    (Agree env reqSize server (dialing memory) exchanges → ∀ k,
      ((exchanges.take k).foldl (takeOne (Server.feed env) (fun _ c => c) (Exchange.request reqSize)) server).Idle ∧
        ((exchanges.take k).foldl (takeOne (feed reqSize) Exchange.issue (Exchange.response env)) (dialing memory)).AtStart) ∧
    (∀ latencyUsSLO iopsSLO rwRatioSLO reqHandle lba, (registerFlow latencyUsSLO iopsSLO rwRatioSLO [headerSize] (dialing memory)).wire =
      (dialing memory).wire ++ (Exchange.reg latencyUsSLO iopsSLO rwRatioSLO reqHandle lba).request reqSize) ∧
    (∀ req buf, .io req buf ∈ exchanges → ∀ (c : ClientConn) (calls : List (List (Option Nat))), c.txPending = false → c.txSent = 0 →
      req.currentSglBuf = 0 → (sendCalls reqSize calls (c, req)).done = true →
        (sendCalls reqSize calls (c, req)).state.1.wire = c.wire ++ (Exchange.io req buf).request reqSize) := by
  refine ⟨agree_iff supplies small fits idle valid, ?_, fun _ _ _ _ _ => registerFlow_wire rfl _ _ _, ?_⟩
  · exact fun agree k => ⟨agree.1.at_rest idle k, agree.2.at_rest (dialing_atStart memory) k⟩
  · intro req buf member c calls idle sent page done
    obtain ⟨-, -, count, -⟩ := valid _ member
    have sized : Sized reqSize req := ⟨count, fits.trans_lt (by decide)⟩
    have cursors : AtHead reqSize c req := by
      constructor
      · exact fun _ => ⟨sent.le.trans (Nat.zero_le _), page⟩
      · exact fun pending => absurd (idle.symm.trans pending) (by decide)
    rw [((sendCalls_sends sized cursors calls).sent done).1, ClientConn.left, idle, if_neg Bool.false_ne_true, sent, List.drop_zero]
    rfl

/-- A registration, a write and a read of two blocks of 512 bytes. -/
theorem exchanges_of_512_bytes :
    let env := ampleEnv 1048576 512
    let exchanges : List Exchange := [.reg 500 1000 80 0 0, .io ⟨cmdSet, 3, 2, 7, fun _ _ => 1, 0⟩ fun _ _ => 1,
      .io ⟨cmdGet, 3, 2, 9, fun _ _ => 0, 0⟩ fun _ _ => 1]
    Agree env 2 (ppAccept blankConn 80) (dialing blankClient) exchanges := by
  intro env exchanges
  have valid : ∀ e ∈ exchanges, e.Valid env 2 := by
    refine List.forall_mem_cons.2 ⟨trivial, List.forall_mem_cons.2 ⟨⟨Or.inr rfl, by decide, rfl, by decide⟩, ?_⟩⟩
    exact List.forall_mem_cons.2 ⟨⟨Or.inl rfl, by decide, rfl, by decide⟩, List.forall_mem_nil _⟩
  apply (message_boundaries_iff (ampleEnv_supplies _ _) (by decide) (by decide) (ppAccept_idle _ _) valid).1.2
  exact Or.inr ⟨_, _, rfl, rfl, List.forall_mem_cons.2 ⟨rfl, List.forall_mem_cons.2 ⟨rfl, List.forall_mem_nil _⟩⟩, Or.inr (Or.inr rfl)⟩

/-- With blocks of 4096 bytes the server waits for 8192 bytes of a write and gets 1024, and the
client takes the first 1024 of the 8192 bytes of a read. -/
theorem blocks_of_4096_bytes :
    let env := ampleEnv 1048576 4096
    let write : ClientReq := ⟨cmdSet, 3, 2, 7, fun _ _ => 1, 0⟩
    let read : ClientReq := ⟨cmdGet, 3, 2, 9, fun _ _ => 0, 0⟩
    accessBytes env 2 = 8192 ∧ (requestPayload 2 write).length = 1024 ∧ requestBytes 2 = 1024 ∧
      ¬ Agree env 2 (ppAccept blankConn 80) (dialing blankClient) [.reg 500 1000 80 0 0, .io write fun _ _ => 1] ∧
      ¬ Agree env 2 (ppAccept blankConn 80) (dialing blankClient) [.reg 500 1000 80 0 0, .io read fun _ _ => 1] := by
  intro env write read
  have differ : ∀ req : ClientReq, (Exchange.io req fun _ _ => 1).Valid env 2 →
      ¬ Agree env 2 (ppAccept blankConn 80) (dialing blankClient) [.reg 500 1000 80 0 0, .io req fun _ _ => 1] := by
    intro req valid agree
    have all : ∀ e ∈ [Exchange.reg 500 1000 80 0 0, .io req fun _ _ => 1], e.Valid env 2 :=
      List.forall_mem_cons.2 ⟨trivial, List.forall_mem_singleton.2 valid⟩
    rcases (agree_iff (ampleEnv_supplies _ _) (by decide) (by decide) (ppAccept_idle _ _) all).1 agree with
      none | ⟨e, es, same, -, -, none | zero | sector⟩
    · exact absurd none (List.cons_ne_nil _ _)
    · rw [none] at same
      exact absurd (List.cons.inj same).2 (List.cons_ne_nil _ _)
    · exact absurd zero (by decide)
    · exact absurd sector (by decide)
  have blocks : (requestPayload 2 write).length = 1024 := by
    rw [requestPayload, if_pos rfl]
    exact contents_length _ _
  exact ⟨rfl, blocks, rfl, differ write ⟨Or.inr rfl, by decide, rfl, by decide⟩, differ read ⟨Or.inl rfl, by decide, rfl, by decide⟩⟩

end Reflex.Client
