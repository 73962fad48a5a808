import Mathlib.Data.List.Induction
import Mathlib.Data.List.TakeWhile
import Reflex.Server.Receive

/-!
# Messages and segments

What `receive_req` makes of a stream of messages, however the network cuts it into segments and whenever the
handler is called.
-/

namespace Reflex.Server
open Lib List Function ServerEvent

/-! ## Segments -/

/-- A segment arrives, or the handler is called. -/
inductive NetEvent where
  | segment (bytes : List UInt8)
  | input

def netStep (env : Env) (s : PpConn × List (List UInt8)) : NetEvent → PpConn × List (List UInt8)
  | .segment bytes => (s.1, s.2 ++ [bytes])
  | .input => receiveReq env s.1 s.2

def NetEvent.bytes : NetEvent → List UInt8
  | .segment bytes => bytes
  | .input => []

def delivered (events : List NetEvent) : List UInt8 := events.flatMap NetEvent.bytes

section Segments

variable {env : Env} {c : PpConn}

theorem net_feeds (events : List NetEvent) (ready : Ready env c) (queue : List (List UInt8)) :
    let s := events.foldl (netStep env) (c, queue)
    s.2.flatten.foldl (feed env) s.1 = (queue.flatten ++ delivered events).foldl (feed env) c ∧ Ready env s.1 := by
  induction events generalizing c queue with
  | nil =>
    rw [delivered, flatMap_nil, append_nil]
    exact ⟨rfl, ready⟩
  | cons event events ih =>
    rw [foldl_cons]
    cases event with
    | segment bytes =>
      have next := ih ready (queue ++ [bytes])
      simp only [flatten_append, flatten_singleton, append_assoc] at next
      exact next
    | input =>
      obtain ⟨conn, rest, ready'⟩ := receiveReq_feeds ready queue
      rw [ready.settled] at conn
      have read : (receiveReq env c queue).2.flatten.foldl (feed env) (receiveReq env c queue).1 = (receiveReq env c queue).1 := by
        rcases rest with deaf | empty
        · exact foldl_feed_deaf deaf _
        · rw [empty]
          rfl
      obtain ⟨fed, last⟩ := ih ready' (receiveReq env c queue).2
      refine ⟨fed.trans ?_, last⟩
      rw [foldl_append, read, conn, foldl_append]
      rfl

/-- Segments and calls do not matter: after a call of the handler the connection is as its
bytes have made it, and they were read unless it is past reading. -/
theorem net_input_from (events : List NetEvent) (ready : Ready env c) (queue : List (List UInt8)) :
    let s := (events ++ [NetEvent.input]).foldl (netStep env) (c, queue)
    s.1 = (queue.flatten ++ delivered events).foldl (feed env) c ∧ (s.1.Deaf ∨ s.2.flatten = []) ∧ Ready env s.1 := by
  obtain ⟨fed, ready'⟩ := net_feeds events ready queue
  rw [foldl_append, foldl_cons, foldl_nil]
  generalize events.foldl (netStep env) (c, queue) = s at fed ready' ⊢
  obtain ⟨last, rest, ready''⟩ := receiveReq_feeds ready' s.2
  rw [ready'.settled] at last
  exact ⟨last.trans fed, rest, ready''⟩

theorem net_input (events : List NetEvent) (ready : Ready env c) :
    ((events ++ [NetEvent.input]).foldl (netStep env) (c, [])).1 = (delivered events).foldl (feed env) c :=
  (net_input_from events ready []).1

end Segments

/-! ## What a message does -/

/-- The pools have a request and `n` pages for it. -/
def Env.Grants (env : Env) (k n : Nat) : Prop := ∃ supply, env.alloc k = some supply ∧ ∀ i < n, supply i ≠ none

/-- Every allocation succeeds. -/
def Env.Supplies (env : Env) : Prop := ∀ k n, env.Grants k n

structure PpConn.Idle (c : PpConn) : Prop where
  up : c.status = .established
  pending : c.rxPending = false
  received : c.rxReceived = 0

theorem ppAccept_idle (memory : PpConn) (srcPort : UInt16) : (ppAccept memory srcPort).Idle := ⟨rfl, rfl, rfl⟩

section Message

variable {env : Env} {c : PpConn}

theorem PpConn.Idle.ready (idle : c.Idle) : Ready env c := .of_not_pending (.inr idle.pending)

theorem storeHeader_header (start : c.rxReceived = 0) (h : Header) : (storeHeader c h.bytes).header = h := by
  rw [storeHeader, start]
  exact Header.ofBuffer_store c.dataRecv h

theorem PpConn.Idle.feed_header (idle : c.Idle) (h : Header) :
    h.bytes.foldl (feed env) c = settle env (receivedHeader env (storeHeader c h.bytes)) := by
  apply foldl_feed_whole_header idle.up idle.pending
  · exact ne_nil_of_length_pos (by rw [h.bytes_length]; decide)
  · rw [idle.received, h.bytes_length, Nat.zero_add]

theorem allocBufs_supplied {supply n i} (supplied : ∀ j < i + n, supply j ≠ none) (c : PpConn) :
    ∃ buf, allocBufs supply n i c =
      { c with currentReq := { c.currentReq with buf := buf }, log := c.log ++ (range' i n).map .slot } := by
  induction n generalizing i c with
  | zero => exact ⟨c.currentReq.buf, by simp [allocBufs]⟩
  | succ n ih =>
    obtain ⟨page, found⟩ := Option.ne_none_iff_exists'.1 (supplied i (by omega))
    obtain ⟨buf, same⟩ := ih (i := i + 1) (fun j below => supplied j (by omega)) { c with
      currentReq := { c.currentReq with buf := update c.currentReq.buf i page }
      log := c.log ++ [.slot i] }
    refine ⟨buf, ?_⟩
    rw [allocBufs, found]
    simp only [same, range'_succ, map_cons, append_assoc, singleton_append]

theorem receivedHeader_request (granted : env.Grants c.allocs (num4k env c.header.lbaCount).toNat) (up : c.status = .established)
    (magic : c.header.magic = 24) (request : c.header.opcode ≠ cmdReg)
    (limit : num4kWhole env c.header.lbaCount ≤ maxPagesPerAccess) :
    ∃ buf, receivedHeader env c =
      { c with
        allocs := c.allocs + 1
        currentReq := { c.currentReq with buf := buf, currentSglBuf := 0 }
        rxPending := true
        rxReceived := 0
        log := c.log ++ (range' 0 (num4k env c.header.lbaCount).toNat).map .slot } := by
  obtain ⟨supply, found, supplied⟩ := granted
  rw [← Nat.zero_add (num4k env c.header.lbaCount).toNat] at supplied
  obtain ⟨buf, same⟩ := allocBufs_supplied supplied (startRequest c)
  refine ⟨buf, ?_⟩
  rw [receivedHeader, if_neg (not_not.2 magic), if_neg request, found]
  simp only [if_neg (not_lt.2 limit), same]
  rw [startPayload, if_neg (by simp [startRequest, up])]
  rfl

theorem receivedHeader_register (magic : c.header.magic = 24) (register : c.header.opcode = cmdReg) :
    receivedHeader env c =
      { c with
        rxReceived := 0
        log := c.log ++ [.registerFlow c.connFgHandle (c.header.lbaCount >>> 7) c.header.lba (c.header.lbaCount &&& 0x7f)] } := by
  rw [receivedHeader, if_neg (not_not.2 magic), if_pos register]

/-! ## The payload in the pages -/

def storeBytes (c : PpConn) (payload : List UInt8) : PpConn := payload.foldl (fun c b => storePayload c [b]) c

theorem storeBytes_concat (c : PpConn) (payload : List UInt8) (b : UInt8) :
    storeBytes c (payload ++ [b]) = storePayload (storeBytes c payload) [b] := by
  rw [storeBytes, foldl_append]
  rfl

theorem foldl_feed_storeBytes {payload : List UInt8} (up : c.status = .established) (pending : c.rxPending = true)
    (set : c.header.opcode = cmdSet) (within : c.rxReceived + payload.length ≤ accessBytes env c.header.lbaCount) :
    payload.foldl (feed env) (settle env c) = settle env (storeBytes c payload) := by
  induction payload generalizing c with
  | nil => rfl
  | cons b payload ih =>
    rw [length_cons] at within
    rw [settle_of_waiting set (by omega), foldl_cons, feed, if_neg (not_not.2 up), if_pos pending]
    exact ih (c := storePayload c [b]) up pending set
      (by show c.rxReceived + 1 + _ ≤ accessBytes env c.header.lbaCount; omega)

theorem pageCount_succ (n : Nat) : pageCount (n + 1) = if n % pageSize = 0 then pageCount n + 1 else pageCount n := by
  unfold pageCount pageSize
  split_ifs <;> omega

theorem pageCount_of_whole {n} (whole : n % pageSize = 0) : pageCount n = n / pageSize := by
  unfold pageCount pageSize at *
  omega

/-- Byte `k` of the payload goes to offset `k % 4096` of page `k / 4096`. -/
theorem storeBytes_spec (start : c.rxReceived = 0) (first : c.currentReq.currentSglBuf = 0) (payload : List UInt8) :
    ∃ buf, storeBytes c payload =
      { c with
        rxReceived := payload.length
        currentReq := { c.currentReq with buf := buf, currentSglBuf := payload.length / pageSize }
        log := c.log ++ (range (pageCount payload.length)).map .fill } ∧
      ∀ k (inside : k < payload.length), buf (k / pageSize) (k % pageSize) = payload[k] := by
  induction payload using reverseRecOn with
  | nil =>
    refine ⟨c.currentReq.buf, ?_, fun k inside => absurd inside (Nat.not_lt_zero k)⟩
    have none : pageCount 0 = 0 := rfl
    simp only [storeBytes, foldl_nil, length_nil, none, range_zero, map_nil, append_nil, Nat.zero_div]
    have slot : { c.currentReq with currentSglBuf := 0 } = c.currentReq := by rw [← first]
    rw [slot, ← start]
  | append_singleton payload b ih =>
    obtain ⟨buf, same, contents⟩ := ih
    -- the new byte goes right behind the old ones, to a place of its own
    have place : ∀ k < payload.length, k / pageSize = payload.length / pageSize → k % pageSize ≠ payload.length % pageSize := by
      unfold pageSize
      omega
    refine ⟨update buf (payload.length / pageSize)
      (update (buf (payload.length / pageSize)) (payload.length % pageSize) b), ?_, ?_⟩
    · have slot : (if (payload.length + 1) % pageSize = 0 then payload.length / pageSize + 1 else payload.length / pageSize) =
          (payload.length + 1) / pageSize := by
        unfold pageSize
        split_ifs <;> omega
      have fills : (if payload.length % pageSize = 0 then
            c.log ++ (range (pageCount payload.length)).map .fill ++ [.fill (payload.length / pageSize)]
          else c.log ++ (range (pageCount payload.length)).map .fill) =
          c.log ++ (range (pageCount (payload.length + 1))).map .fill := by
        rw [pageCount_succ]
        split_ifs with whole
        · rw [range_succ, map_append, append_assoc, pageCount_of_whole whole]
          rfl
        · rfl
      rw [storeBytes_concat, same]
      simp only [storePayload, length_singleton, length_append, slot, fills, store]
    · intro k inside
      rw [length_append, length_singleton] at inside
      rcases Nat.lt_succ_iff_lt_or_eq.1 inside with old | rfl
      · rw [getElem_append_left old, ← contents k old]
        rcases eq_or_ne (k / pageSize) (payload.length / pageSize) with page | page
        · rw [page, update_self, update_of_ne (place k old page), ← page]
        · rw [update_of_ne page]
      · simp

/-- A complete request is handed over if its first block, counted in units of 512 bytes,
lies below the size of the namespace. -/
theorem dispatch_passes (passes : wmul 64 c.header.lba.toNat 512 < env.nsSize) :
    dispatch env c =
      { c with
        currentReq := c.request
        rxReceived := 0
        rxPending := false
        nvmePending := c.nvmePending + 1
        log := c.log ++ [submission env c] } := by
  rw [dispatch, if_neg (not_le.2 passes)]

theorem dispatch_aborts (fails : env.nsSize ≤ wmul 64 c.header.lba.toNat 512) :
    dispatch env c = { c with currentReq := c.request }.abort := by
  rw [dispatch, if_pos fails]

/-- Bytes that can follow a header before its message ends. -/
def Header.Carries (env : Env) (h : Header) (payload : List UInt8) : Prop :=
  payload = [] ∨ h.opcode = cmdSet ∧ payload.length ≤ accessBytes env h.lbaCount

/-- A request whose header and some of whose payload have arrived on an idle connection. -/
structure Receiving (env : Env) (c : PpConn) (h : Header) (payload : List UInt8) (d : PpConn) : Prop where
  up : d.status = .established
  pending : d.rxPending = true
  header : d.header = h
  received : d.rxReceived = payload.length
  page : d.currentReq.currentSglBuf = payload.length / pageSize
  log : d.log = c.log ++ (List.range' 0 (num4k env h.lbaCount).toNat).map .slot ++ (List.range (pageCount payload.length)).map .fill
  contents : ∀ k (inside : k < payload.length), d.currentReq.buf (k / pageSize) (k % pageSize) = payload[k]

theorem PpConn.Idle.receiving (idle : c.Idle) {h : Header} {payload}
    (granted : env.Grants c.allocs (num4k env h.lbaCount).toNat) (magic : h.magic = 24) (request : h.opcode ≠ cmdReg) (limit : num4kWhole env h.lbaCount ≤ maxPagesPerAccess)
    (within : h.Carries env payload) :
    ∃ d, (h.bytes ++ payload).foldl (feed env) c = settle env d ∧ Receiving env c h payload d ∧ d.allocs = c.allocs + 1 := by
  have header := storeHeader_header idle.received h
  obtain ⟨pages, start⟩ := receivedHeader_request (c := storeHeader c h.bytes) (by rw [header]; exact granted) idle.up
    (by rw [header]; exact magic) (by rw [header]; exact request) (by rw [header]; exact limit)
  rw [foldl_append, idle.feed_header, start]
  generalize asked : ({ storeHeader c h.bytes with
    allocs := _, currentReq := _, rxPending := true, rxReceived := 0, log := _ } : PpConn) = d
  have same : d.header = h := by rw [← asked]; exact header
  have received : d.rxReceived = 0 := by rw [← asked]
  have first : d.currentReq.currentSglBuf = 0 := by rw [← asked]
  have up : d.status = .established := by rw [← asked]; exact idle.up
  have pending : d.rxPending = true := by rw [← asked]
  have log : d.log = c.log ++ (range' 0 (num4k env h.lbaCount).toNat).map .slot := by
    rw [← asked, header]
    rfl
  have taken : d.allocs = c.allocs + 1 := by
    rw [← asked]
    rfl
  obtain ⟨buf, stored, contents⟩ := storeBytes_spec received first payload
  refine ⟨storeBytes d payload, ?_, ?_⟩
  · rcases within with rfl | ⟨set, within⟩
    · rfl
    · apply foldl_feed_storeBytes up pending
      · rw [same, set]
      · rw [received, same, Nat.zero_add]
        exact within
  · rw [stored]
    exact ⟨⟨up, pending, same, rfl, rfl, by rw [log], contents⟩, taken⟩

end Message

/-! ## Streams of messages -/

inductive Message where
  | get (reqHandle lba : UInt64) (lbaCount : UInt32)
  | set (reqHandle lba : UInt64) (lbaCount : UInt32) (payload : List UInt8)
  | reg (reqHandle iopsSLO : UInt64) (slo : UInt32)

def Message.header : Message → Header
  | .get reqHandle lba lbaCount => ⟨24, cmdGet, reqHandle, lba, lbaCount⟩
  | .set reqHandle lba lbaCount _ => ⟨24, cmdSet, reqHandle, lba, lbaCount⟩
  | .reg reqHandle iopsSLO slo => ⟨24, cmdReg, reqHandle, iopsSLO, slo⟩

def Message.payload : Message → List UInt8
  | .set _ _ _ payload => payload
  | _ => []

def Message.bytes (m : Message) : List UInt8 := m.header.bytes ++ m.payload

inductive Operation where
  | register (latencyUsSLO : UInt32) (iopsSLO : UInt64) (rwRatioSLO : UInt32)
  | read (lba : UInt64) (lbaCount : UInt32) (reqHandle : UInt64) (numSgls : Int)
  | write (lba : UInt64) (lbaCount : UInt32) (reqHandle : UInt64) (numSgls : Int) (data : List UInt8)
  deriving DecidableEq

def Message.operation (env : Env) : Message → Operation
  | .get reqHandle lba lbaCount => .read lba lbaCount reqHandle (pageCount (lbaCount.toNat * env.nsSectorSize))
  | .set reqHandle lba lbaCount payload =>
    .write lba lbaCount reqHandle (pageCount (lbaCount.toNat * env.nsSectorSize)) payload
  | .reg _ iopsSLO slo => .register (slo >>> 7) iopsSLO (slo &&& 0x7f)

/-- The operation that the server has asked for; the data are the bytes in the pages. -/
def ServerEvent.operation (env : Env) : ServerEvent → Option Operation
  | .registerFlow _ latencyUsSLO iopsSLO rwRatioSLO => some (.register latencyUsSLO iopsSLO rwRatioSLO)
  | .readv _ numSgls req => some (.read req.lba req.lbaCount req.remoteReqHandle numSgls)
  | .writev _ numSgls req =>
    some (.write req.lba req.lbaCount req.remoteReqHandle numSgls (req.contents (req.lbaCount.toNat * env.nsSectorSize)))
  | .slot _ | .fill _ => none

def PpConn.operations (env : Env) (c : PpConn) : List Operation := c.log.filterMap (ServerEvent.operation env)

/-- The blocks lie in the namespace and fit the pages of a request. -/
structure Accessible (env : Env) (lba : UInt64) (lbaCount : UInt32) : Prop where
  pages : lbaCount.toNat * env.nsSectorSize ≤ maxPagesPerAccess * pageSize
  first : lba.toNat * env.nsSectorSize < env.nsSize
  last : (lba.toNat + lbaCount.toNat) * env.nsSectorSize ≤ env.nsSize

def Message.WellFormed (env : Env) : Message → Prop
  | .get _ lba lbaCount => Accessible env lba lbaCount
  | .set _ lba lbaCount payload => Accessible env lba lbaCount ∧ payload.length = lbaCount.toNat * env.nsSectorSize
  | .reg _ _ _ => True

/-- The assertions of the code, which take blocks to be 512 bytes long. -/
def Message.Passes (env : Env) : Message → Prop
  | .get _ lba _ => wmul 64 lba.toNat 512 < env.nsSize
  | .set _ lba lbaCount _ =>
    wmul 64 lba.toNat 512 < env.nsSize ∧ lbaCount.toNat * env.nsSectorSize / pageSize ≤ lbaCount.toNat * 8
  | .reg _ _ _ => True

instance (env : Env) : DecidablePred (Message.Passes env)
  | .get _ lba _ => inferInstanceAs (Decidable (wmul 64 lba.toNat 512 < env.nsSize))
  | .set _ lba lbaCount _ =>
    inferInstanceAs (Decidable (wmul 64 lba.toNat 512 < env.nsSize ∧ lbaCount.toNat * env.nsSectorSize / pageSize ≤ lbaCount.toNat * 8))
  | .reg _ _ _ => inferInstanceAs (Decidable True)

section Arithmetic

variable {env : Env} {lbaCount : UInt32}

section

variable (small : lbaCount.toNat * env.nsSectorSize ≤ maxPagesPerAccess * pageSize)
include small

theorem accessBytes_of_le :
    accessBytes env lbaCount = lbaCount.toNat * env.nsSectorSize := by
  apply Nat.mod_eq_of_lt
  unfold maxPagesPerAccess pageSize at small
  omega

theorem num4kWhole_of_le :
    num4kWhole env lbaCount = (lbaCount.toNat * env.nsSectorSize / pageSize : Nat) := by
  have fits : lbaCount.toNat * env.nsSectorSize / pageSize < 2 ^ 31 := by
    unfold maxPagesPerAccess pageSize at *
    omega
  rw [← accessBytes_of_le small] at fits ⊢
  exact bmod_word_of_lt fits

theorem num4k_of_le :
    num4k env lbaCount = pageCount (lbaCount.toNat * env.nsSectorSize) := by
  rw [num4k, num4kWhole_of_le small, accessBytes_of_le small]
  unfold pageCount pageSize
  split_ifs <;> omega

theorem num4kWhole_within :
    num4kWhole env lbaCount ≤ maxPagesPerAccess := by
  rw [num4kWhole_of_le small]
  unfold maxPagesPerAccess pageSize at *
  omega

theorem pages_check_iff :
    wmul 32 lbaCount.toNat 8 < lbaCount.toNat * env.nsSectorSize / pageSize % 2 ^ 32 ↔
      ¬ lbaCount.toNat * env.nsSectorSize / pageSize ≤ lbaCount.toNat * 8 := by
  rcases Nat.eq_zero_or_pos env.nsSectorSize with none | some
  · simp [none]
  · have few : lbaCount.toNat ≤ lbaCount.toNat * env.nsSectorSize := Nat.le_mul_of_pos_right _ some
    unfold wmul
    unfold maxPagesPerAccess pageSize at *
    omega

end

end Arithmetic

section Streams

variable {env : Env} {c : PpConn}

theorem filterMap_slots (env : Env) (l : List Nat) : (l.map slot).filterMap (operation env) = [] := by
  rw [filterMap_map]
  exact filterMap_eq_nil_iff.2 fun _ _ => rfl

theorem filterMap_fills (env : Env) (l : List Nat) : (l.map fill).filterMap (operation env) = [] := by
  rw [filterMap_map]
  exact filterMap_eq_nil_iff.2 fun _ _ => rfl

/-- What a message leads to: its operation, if the assertions pass. -/
structure Handled (env : Env) (c : PpConn) (m : Message) (c' : PpConn) : Prop where
  passes : m.Passes env → c'.Idle ∧ c'.operations env = c.operations env ++ [m.operation env]
  fails : ¬ m.Passes env → c'.status = .aborted ∧ c'.operations env = c.operations env

section Request

variable {h : Header} {payload : List UInt8} {d : PpConn}

section

variable (r : Receiving env c h payload d)
include r

theorem Receiving.operations : d.operations env = c.operations env := by
  rw [PpConn.operations, r.log, filterMap_append, filterMap_append, filterMap_slots, filterMap_fills, append_nil,
    append_nil]
  rfl

theorem Receiving.dispatched {m : Message}
    (asks : (submission env d).operation env = some (m.operation env))
    (check : m.Passes env ↔ wmul 64 h.lba.toNat 512 < env.nsSize) : Handled env c m (dispatch env d) := by
  rw [← r.header] at check
  constructor
  · intro passes
    rw [dispatch_passes (check.1 passes)]
    refine ⟨⟨r.up, rfl, rfl⟩, ?_⟩
    show (d.log ++ [submission env d]).filterMap (operation env) = _
    rw [filterMap_append, filterMap_cons_some asks, filterMap_nil, ← r.operations]
    rfl
  · intro fails
    rw [dispatch_aborts (not_lt.1 (mt check.2 fails))]
    exact ⟨rfl, r.operations⟩

theorem Receiving.settle_get (get : h.opcode = cmdGet) : settle env d = dispatch env d := by
  rw [← r.header] at get
  rw [settle, if_pos ⟨r.up, r.pending⟩, if_neg (by rw [get]; decide), if_pos get]

theorem Receiving.settle_set (set : h.opcode = cmdSet)
    (whole : payload.length = accessBytes env h.lbaCount) :
    settle env d = if wmul 32 h.lbaCount.toNat 8 < payload.length / pageSize % 2 ^ 32 then d.abort else dispatch env d := by
  rw [settle, if_pos ⟨r.up, r.pending⟩, r.header, if_pos set, r.received, if_neg (by omega), receivedPayload, r.header, r.page]

theorem Receiving.request_contents : d.request.contents payload.length = payload := by
  apply ext_getElem
  · rw [NvmeReq.contents, length_map, length_range]
  · intro k _ inside
    simp only [NvmeReq.contents, getElem_map, getElem_range]
    exact r.contents k inside

end

end Request

theorem PpConn.Idle.handled_reg (idle : c.Idle) (reqHandle iopsSLO : UInt64) (slo : UInt32) :
    Handled env c (.reg reqHandle iopsSLO slo) ((Message.reg reqHandle iopsSLO slo).bytes.foldl (feed env) c) := by
  have header := storeHeader_header idle.received (Message.reg reqHandle iopsSLO slo).header
  have plain : (Message.reg reqHandle iopsSLO slo).bytes = (Message.reg reqHandle iopsSLO slo).header.bytes := append_nil _
  refine ⟨fun _ => ?_, fun fails => absurd trivial fails⟩
  rw [plain, idle.feed_header, receivedHeader_register (by rw [header]; rfl) (by rw [header]; rfl), header,
    settle_of_not_pending]
  · refine ⟨⟨idle.up, idle.pending, rfl⟩, ?_⟩
    show (c.log ++ [_]).filterMap _ = _
    rw [filterMap_append]
    rfl
  · exact .inr idle.pending

theorem PpConn.Idle.handled_get (idle : c.Idle) (reqHandle : UInt64) {lba lbaCount}
    (granted : env.Grants c.allocs (num4k env lbaCount).toNat) (accessible : Accessible env lba lbaCount) :
    Handled env c (.get reqHandle lba lbaCount) ((Message.get reqHandle lba lbaCount).bytes.foldl (feed env) c) := by
  obtain ⟨d, fed, r, -⟩ := idle.receiving (h := ⟨24, cmdGet, reqHandle, lba, lbaCount⟩) granted rfl
    (by show cmdGet ≠ cmdReg; decide) (num4kWhole_within accessible.pages) (.inl rfl)
  show Handled env c _ ((Header.bytes ⟨24, cmdGet, reqHandle, lba, lbaCount⟩ ++ []).foldl (feed env) c)
  rw [fed, r.settle_get rfl]
  apply r.dispatched _ Iff.rfl
  have read : d.header.opcode ≠ cmdSet := by rw [r.header]; show cmdGet ≠ cmdSet; decide
  rw [submission, if_neg read, operation, PpConn.request, r.header, num4k_of_le accessible.pages]
  rfl

theorem PpConn.Idle.handled_set (idle : c.Idle) (reqHandle : UInt64) {lba lbaCount} {payload : List UInt8}
    (granted : env.Grants c.allocs (num4k env lbaCount).toNat) (accessible : Accessible env lba lbaCount)
    (whole : payload.length = lbaCount.toNat * env.nsSectorSize) :
    Handled env c (.set reqHandle lba lbaCount payload) ((Message.set reqHandle lba lbaCount payload).bytes.foldl (feed env) c) := by
  have all : payload.length = accessBytes env lbaCount := by rw [whole, accessBytes_of_le accessible.pages]
  obtain ⟨d, fed, r, -⟩ := idle.receiving (h := ⟨24, cmdSet, reqHandle, lba, lbaCount⟩) granted rfl
    (by show cmdSet ≠ cmdReg; decide) (num4kWhole_within accessible.pages) (.inr ⟨rfl, all.le⟩)
  show Handled env c _ ((Header.bytes ⟨24, cmdSet, reqHandle, lba, lbaCount⟩ ++ payload).foldl (feed env) c)
  rw [fed, r.settle_set rfl all, whole]
  have check := pages_check_iff accessible.pages
  split_ifs with few
  · -- the pages are more than eight for each block
    exact ⟨fun passes => absurd passes.2 (check.1 few), fun _ => ⟨rfl, r.operations⟩⟩
  · refine r.dispatched (m := .set reqHandle lba lbaCount payload) ?_ (and_iff_left (not_not.1 (mt check.2 few)))
    have write : d.header.opcode = cmdSet := by rw [r.header]
    have count : d.request.lbaCount = lbaCount := by rw [PpConn.request, r.header]
    rw [submission, if_pos write, operation, count, ← whole, r.request_contents, PpConn.request, r.header,
      num4k_of_le accessible.pages]
    rfl

/-- The pools have what the message needs, if it is a request. -/
def Message.Granted (env : Env) (m : Message) (allocs : Nat) : Prop :=
  m.header.opcode ≠ cmdReg → env.Grants allocs (num4k env m.header.lbaCount).toNat

theorem PpConn.Idle.handled (idle : c.Idle) {m : Message} (granted : m.Granted env c.allocs) (wellFormed : m.WellFormed env) :
    Handled env c m (m.bytes.foldl (feed env) c) := by
  cases m with
  | get reqHandle lba lbaCount => exact idle.handled_get reqHandle (granted (show cmdGet ≠ cmdReg by decide)) wellFormed
  | set reqHandle lba lbaCount payload => exact idle.handled_set reqHandle (granted (show cmdSet ≠ cmdReg by decide)) wellFormed.1 wellFormed.2
  | reg reqHandle iopsSLO slo => exact idle.handled_reg reqHandle iopsSLO slo

theorem PpConn.Idle.feed_operations (idle : c.Idle) (supplies : env.Supplies) {messages : List Message}
    (wellFormed : ∀ m ∈ messages, m.WellFormed env) :
    ((messages.flatMap Message.bytes).foldl (feed env) c).operations env =
      c.operations env ++ (messages.takeWhile (fun m => decide (m.Passes env))).map (Message.operation env) := by
  induction messages generalizing c with
  | nil => exact (append_nil _).symm
  | cons m messages ih =>
    obtain ⟨first, rest⟩ := forall_mem_cons.1 wellFormed
    have handled := idle.handled (fun _ => supplies _ _) first
    rw [flatMap_cons, foldl_append]
    generalize m.bytes.foldl (feed env) c = next at handled ⊢
    by_cases passes : m.Passes env
    · obtain ⟨idle', done⟩ := handled.passes passes
      rw [ih idle' rest, done, takeWhile_cons_of_pos (by rwa [decide_eq_true_eq]), map_cons, append_assoc,
        singleton_append]
    · -- the process has ended
      obtain ⟨aborted, none⟩ := handled.fails passes
      rw [foldl_feed_deaf (.inl (by rw [aborted]; decide)), none,
        takeWhile_cons_of_neg (by rw [decide_eq_true_eq]; exact passes), map_nil, append_nil]

theorem PpConn.Idle.feed_messages (idle : c.Idle) (supplies : env.Supplies) {messages : List Message}
    (wellFormed : ∀ m ∈ messages, m.WellFormed env) :
    ((messages.flatMap Message.bytes).foldl (feed env) c).operations env =
      c.operations env ++ messages.map (Message.operation env) ↔ ∀ m ∈ messages, m.Passes env := by
  rw [idle.feed_operations supplies wellFormed, append_cancel_left_eq]
  constructor
  · intro same m member
    have whole := ( takeWhile_prefix fun m => decide (Message.Passes env m)).eq_of_length (by simpa using congrArg length same)
    exact of_decide_eq_true (takeWhile_eq_self_iff.1 whole m member)
  · intro all
    rw [takeWhile_eq_self_iff.2 fun m member => decide_eq_true (all m member)]

end Streams

/-- However the stream is cut into segments and whenever the handler is called, the server
asks for the operations of the messages, in order and with the payloads in the pages; just
the assertions that take blocks to be 512 bytes long can stop it. -/
theorem receive_req_segmentation_iff {env : Env} {c : PpConn} (supplies : env.Supplies) (idle : c.Idle) (messages : List Message)
    (wellFormed : ∀ m ∈ messages, m.WellFormed env) (events : List NetEvent)
    (stream : delivered events = messages.flatMap Message.bytes) :
    ((events ++ [NetEvent.input]).foldl (netStep env) (c, [])).1.operations env =
      c.operations env ++ messages.map (Message.operation env) ↔ ∀ m ∈ messages, m.Passes env := by
  rw [net_input events idle.ready, stream]
  exact idle.feed_messages supplies wellFormed

theorem ampleEnv_supplies (nsSize nsSectorSize : Nat) : (ampleEnv nsSize nsSectorSize).Supplies :=
  fun _ _ => ⟨_, rfl, fun _ _ => Option.some_ne_none _⟩

/-- A registration, a write and a read, cut within the payload. -/
theorem three_messages_in_two_segments :
    let env := ampleEnv 1048576 512
    let messages := [.reg 0 1000 12900, .set 1 8 1 (List.replicate 512 7), .get 2 8 1]
    let stream := messages.flatMap Message.bytes
    let events := [.segment (stream.take 100), .input, .segment (stream.drop 100), .input]
    (events.foldl (netStep env) (ppAccept blankConn 80, [])).1.operations env =
      [.register 100 1000 100, .write 8 1 1 1 (List.replicate 512 7), .read 8 1 2 1] := by
  intro env messages stream events
  have wellFormed : ∀ m ∈ messages, m.WellFormed env := by
    have accessible : Accessible env 8 1 := ⟨by decide, by decide, by decide⟩
    simp only [messages, List.forall_mem_cons]
    exact ⟨trivial, ⟨accessible, List.length_replicate⟩, accessible, List.forall_mem_nil _⟩
  have passes : ∀ m ∈ messages, m.Passes env := by
    simp only [messages, List.forall_mem_cons]
    exact ⟨trivial, ⟨by decide, by decide⟩, (show wmul 64 8 512 < 1048576 by decide), List.forall_mem_nil _⟩
  have delivered : delivered [.segment (stream.take 100), .input, .segment (stream.drop 100)] = stream := by
    show stream.take 100 ++ ([] ++ (stream.drop 100 ++ [])) = stream
    rw [List.append_nil, List.nil_append, List.take_append_drop]
  exact (receive_req_segmentation_iff (ampleEnv_supplies 1048576 512) (ppAccept_idle blankConn 80) messages wellFormed _ delivered).2
    passes

/-- Four blocks of 256 bytes: reading the third ends the process, because its address is
taken to be 1024. -/
theorem small_blocks_abort :
    let env := ampleEnv 1024 256
    let message := Message.get 1 2 1
    let s := [.segment message.bytes, .input].foldl (netStep env) (ppAccept blankConn 80, [])
    env.Supplies ∧ message.WellFormed env ∧ s.1.status = .aborted ∧ s.1.operations env = [] := by
  intro env message s
  have accessible : Accessible env 2 1 := ⟨by decide, by decide, by decide⟩
  have idle := ppAccept_idle blankConn 80
  have handled := idle.handled_get 1 (ampleEnv_supplies 1024 256 _ _) accessible
  have reached : s.1 = message.bytes.foldl (feed env) (ppAccept blankConn 80) := by
    have fed := net_input [.segment message.bytes] (idle.ready : Ready env _)
    rwa [delivered, List.flatMap_singleton] at fed
  rw [reached]
  exact ⟨ampleEnv_supplies 1024 256, accessible, handled.fails (show ¬ wmul 64 2 512 < 1024 by decide)⟩

end Reflex.Server
