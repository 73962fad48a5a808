import Reflex.Server.State

/-!
# Receiving requests

`ixev_recv` of `libix/ixev.c` and `receive_req` of `apps/reflex_server.c`. The segments that have arrived and
were not read yet are a list. A round of the source's loop receives a header and then the rest of its message;
here these are two rounds, and the assertion on the magic number, which is repeated in between, is made once.
Each round reads a byte or ends a message, so twice the number of queued bytes bounds them.
-/

namespace Reflex.Server
open Lib List

/-- `ixev_recv`: at most `len` bytes; none is `-EAGAIN`. -/
def ixevRecv : List (List UInt8) → Nat → List UInt8 × List (List UInt8)
  | [], _ => ([], [])
  | ent :: rest, left =>
    if left = 0 then ([], ent :: rest)
    else if ent.length ≤ left then
      let (bytes, queue) := ixevRecv rest (left - ent.length)
      (ent ++ bytes, queue)
    else (ent.take left, ent.drop left :: rest)

/-- `(lba_count * ns_sector_size) / 4096`, stored in an `int`. -/
def num4kWhole (env : Env) (lbaCount : UInt32) : Int := Int.bmod ((accessBytes env lbaCount / pageSize : Nat) : Int) (2 ^ 32)

/-- `num4k` with the page of the remainder. -/
def num4k (env : Env) (lbaCount : UInt32) : Int :=
  if accessBytes env lbaCount % pageSize ≠ 0 then num4kWhole env lbaCount + 1 else num4kWhole env lbaCount

/-- The loop that gives the slots from `i` on their pages; `assert(0)` if the pool is empty. -/
def allocBufs (supply : Nat → Option (Nat → UInt8)) : Nat → Nat → PpConn → PpConn
  | 0, _, c => c
  | n + 1, i, c =>
    match supply i with
    | none => c.abort
    | some page => allocBufs supply n (i + 1) { c with
        currentReq := { c.currentReq with buf := Function.update c.currentReq.buf i page }
        log := c.log ++ [.slot i] }

def startRequest (c : PpConn) : PpConn :=
  { c with allocs := c.allocs + 1, currentReq := { c.currentReq with currentSglBuf := 0 } }

def startPayload (c : PpConn) : PpConn := if c.status = .aborted then c else { c with rxPending := true, rxReceived := 0 }

/-- The header is complete: a registration, or a request that is given its pages. Without a
request from the pool nothing more is ever read. -/
def receivedHeader (env : Env) (c : PpConn) : PpConn :=
  if c.header.magic ≠ 24 then c.abort
  else if c.header.opcode = cmdReg then
    { c with
      rxReceived := 0
      log := c.log ++ [.registerFlow c.connFgHandle (c.header.lbaCount >>> 7) c.header.lba (c.header.lbaCount &&& 0x7f)] }
  else
    match env.alloc c.allocs with
    | none => c
    | some supply =>
      if (maxPagesPerAccess : Int) < num4kWhole env c.header.lbaCount then (startRequest c).abort
      else startPayload (allocBufs supply (num4k env c.header.lbaCount).toNat 0 (startRequest c))

/-- The request with the fields of its header. -/
def PpConn.request (c : PpConn) : NvmeReq :=
  { c.currentReq with
    opcode := c.header.opcode, lbaCount := c.header.lbaCount, lba := c.header.lba, remoteReqHandle := c.header.reqHandle }

def submission (env : Env) (c : PpConn) : ServerEvent :=
  if c.header.opcode = cmdSet then .writev c.nvmeFgHandle (num4k env c.header.lbaCount) c.request
  else .readv c.nvmeFgHandle (num4k env c.header.lbaCount) c.request

/-- The request is complete and handed to the NVMe layer. -/
def dispatch (env : Env) (c : PpConn) : PpConn :=
  if env.nsSize ≤ wmul 64 c.header.lba.toNat 512 then { c with currentReq := c.request }.abort
  else
    { c with
      currentReq := c.request
      rxReceived := 0
      rxPending := false
      nvmePending := c.nvmePending + 1
      log := c.log ++ [submission env c] }

/-- All blocks of a `CMD_SET` have arrived. -/
def receivedPayload (env : Env) (c : PpConn) : PpConn :=
  if wmul 32 c.header.lbaCount.toNat 8 < c.currentReq.currentSglBuf % 2 ^ 32 then c.abort else dispatch env c

/-- Bytes that do not go beyond the current page. -/
def storePayload (c : PpConn) (bytes : List UInt8) : PpConn :=
  let slot := c.currentReq.currentSglBuf
  { c with
    rxReceived := c.rxReceived + bytes.length
    currentReq := { c.currentReq with
      buf := Function.update c.currentReq.buf slot (store (c.currentReq.buf slot) (c.rxReceived % pageSize) bytes)
      currentSglBuf := if (c.rxReceived + bytes.length) % pageSize = 0 then slot + 1 else slot }
    log := if c.rxReceived % pageSize = 0 then c.log ++ [.fill slot] else c.log }

/-- The loop that receives the blocks of a `CMD_SET`. -/
def receivePayload (env : Env) : Nat → PpConn → List (List UInt8) → PpConn × List (List UInt8)
  | 0, c, queue => (c, queue)
  | fuel + 1, c, queue =>
    if c.rxReceived < accessBytes env c.header.lbaCount then
      let toReceive := min (pageSize - c.rxReceived % pageSize) (accessBytes env c.header.lbaCount - c.rxReceived)
      let (bytes, queue) := ixevRecv queue toReceive
      if bytes = [] then (c, queue) else receivePayload env fuel (storePayload c bytes) queue
    else (c, queue)

def storeHeader (c : PpConn) (bytes : List UInt8) : PpConn :=
  { c with dataRecv := store c.dataRecv c.rxReceived bytes, rxReceived := c.rxReceived + bytes.length }

def receiveLoop (env : Env) : Nat → PpConn → List (List UInt8) → PpConn × List (List UInt8)
  | 0, c, queue => (c, queue)
  | fuel + 1, c, queue =>
    if c.status ≠ .established then (c, queue)
    else if c.rxPending then
      if c.header.opcode = cmdSet then
        let (c, queue) := receivePayload env queue.flatten.length c queue
        if c.rxReceived < accessBytes env c.header.lbaCount then (c, queue) else receiveLoop env fuel (receivedPayload env c) queue
      else if c.header.opcode = cmdGet then receiveLoop env fuel (dispatch env c) queue
      else (c.close, queue)
    else
      let (bytes, queue) := ixevRecv queue (headerSize - c.rxReceived)
      if bytes = [] then (c, queue)
      else if c.rxReceived + bytes.length < headerSize then (storeHeader c bytes, queue)
      else receiveLoop env fuel (receivedHeader env (storeHeader c bytes)) queue

def receiveReq (env : Env) (c : PpConn) (queue : List (List UInt8)) : PpConn × List (List UInt8) :=
  receiveLoop env (2 * queue.flatten.length + 2) c queue

/-! ## One byte at a time -/

def settle (env : Env) (c : PpConn) : PpConn :=
  if c.status = .established ∧ c.rxPending then
    if c.header.opcode = cmdSet then
      if c.rxReceived < accessBytes env c.header.lbaCount then c else receivedPayload env c
    else if c.header.opcode = cmdGet then dispatch env c
    else c.close
  else c

def feed (env : Env) (c : PpConn) (b : UInt8) : PpConn :=
  if c.status ≠ .established then c
  else if c.rxPending then settle env (storePayload c [b])
  else if c.rxReceived + 1 < headerSize then storeHeader c [b]
  else if c.rxReceived < headerSize then settle env (receivedHeader env (storeHeader c [b]))
  else c

/-- Between two bytes: a message that is pending needs more of them. -/
structure Ready (env : Env) (c : PpConn) : Prop where
  payload : c.status = .established → c.rxPending → c.header.opcode = cmdSet ∧ c.rxReceived < accessBytes env c.header.lbaCount

def PpConn.Deaf (c : PpConn) : Prop := c.status ≠ .established ∨ c.rxPending = false ∧ headerSize ≤ c.rxReceived

section Recv

theorem ixevRecv_bytes (queue : List (List UInt8)) (len : Nat) : (ixevRecv queue len).1 = queue.flatten.take len := by
  induction queue generalizing len with
  | nil => simp [ixevRecv]
  | cons ent rest ih =>
    rw [ixevRecv]
    split_ifs with none whole
    · simp [none]
    · simp only [ih, flatten_cons, take_append]
      rw [take_of_length_le whole]
    · rw [flatten_cons, take_append_of_le_length (by omega)]

theorem ixevRecv_rest (queue : List (List UInt8)) (len : Nat) : (ixevRecv queue len).2.flatten = queue.flatten.drop len := by
  induction queue generalizing len with
  | nil => simp [ixevRecv]
  | cons ent rest ih =>
    rw [ixevRecv]
    split_ifs with none whole
    · simp [none]
    · simp only [ih, flatten_cons, drop_append]
      rw [drop_of_length_le whole, nil_append]
    · rw [flatten_cons, flatten_cons, drop_append_of_le_length (by omega)]

/-- A call takes a prefix of the queue, and nothing only if nothing is there. -/
theorem ixevRecv_split (queue : List (List UInt8)) (len : Nat) :
    queue.flatten = (ixevRecv queue len).1 ++ (ixevRecv queue len).2.flatten ∧ (ixevRecv queue len).1.length ≤ len ∧
      ((ixevRecv queue len).1.length < len → (ixevRecv queue len).2.flatten = []) := by
  rw [ixevRecv_bytes, ixevRecv_rest, take_append_drop, length_take]
  refine ⟨rfl, Nat.min_le_left _ _, fun short => ?_⟩
  rw [drop_eq_nil_iff]
  omega

end Recv

section Machine

variable {env : Env} {c : PpConn}

theorem foldl_feed_deaf (deaf : c.Deaf) (bytes : List UInt8) : bytes.foldl (feed env) c = c := by
  induction bytes with
  | nil => rfl
  | cons b bytes ih =>
    have still : feed env c b = c := by
      rcases deaf with down | ⟨idle, full⟩
      · rw [feed, if_pos down]
      · have last : ¬ c.rxReceived + 1 < headerSize := by omega
        rw [feed, idle, if_neg Bool.false_ne_true, if_neg last, if_neg (not_lt.2 full), ite_self]
    rw [foldl_cons, still, ih]

theorem settle_of_not_pending (idle : c.status ≠ .established ∨ c.rxPending = false) : settle env c = c := by
  rw [settle, if_neg]
  rintro ⟨up, pending⟩
  rcases idle with down | idle
  · exact down up
  · rw [idle] at pending
    cases pending

theorem settle_of_waiting (set : c.header.opcode = cmdSet) (waits : c.rxReceived < accessBytes env c.header.lbaCount) :
    settle env c = c := by
  rw [settle, if_pos set, if_pos waits, ite_self]

theorem dispatch_ends (env : Env) (c : PpConn) : (dispatch env c).status ≠ .established ∨ (dispatch env c).rxPending = false := by
  unfold dispatch
  split_ifs
  · exact .inl (by simp [PpConn.abort])
  · exact .inr rfl

theorem receivedPayload_ends (env : Env) (c : PpConn) :
    (receivedPayload env c).status ≠ .established ∨ (receivedPayload env c).rxPending = false := by
  unfold receivedPayload
  split_ifs
  · exact .inl (by simp [PpConn.abort])
  · exact dispatch_ends env c

theorem Ready.of_not_pending (idle : c.status ≠ .established ∨ c.rxPending = false) : Ready env c := by
  refine ⟨fun up pending => ?_⟩
  rcases idle with down | idle
  · exact absurd up down
  · rw [idle] at pending
    cases pending

theorem settle_ready (env : Env) (c : PpConn) : Ready env (settle env c) := by
  unfold settle
  split_ifs with pending set waits get
  · exact ⟨fun _ _ => ⟨set, waits⟩⟩
  · exact .of_not_pending (receivedPayload_ends env c)
  · exact .of_not_pending (dispatch_ends env c)
  · exact .of_not_pending (.inl (by simp [PpConn.close]))
  · refine ⟨fun up more => absurd ⟨up, more⟩ pending⟩

theorem allocBufs_frame (supply : Nat → Option (Nat → UInt8)) (n i : Nat) (c : PpConn) :
    ∃ buf log status, allocBufs supply n i c =
      { c with currentReq := { c.currentReq with buf := buf }, log := log, status := status } := by
  induction n generalizing i c with
  | zero => exact ⟨c.currentReq.buf, c.log, c.status, rfl⟩
  | succ n ih =>
    rw [allocBufs]
    split
    · exact ⟨c.currentReq.buf, c.log, .aborted, rfl⟩
    · obtain ⟨buf, log, status, same⟩ := ih (i + 1) _
      exact ⟨buf, log, status, same⟩

theorem receivedHeader_starts (idle : c.rxPending = false) (pending : (receivedHeader env c).rxPending = true) :
    (receivedHeader env c).rxReceived = 0 ∧ (receivedHeader env c).currentReq.currentSglBuf = 0 := by
  have never : c.rxPending ≠ true := by
    rw [idle]
    exact Bool.false_ne_true
  revert pending
  unfold receivedHeader
  cases env.alloc c.allocs with
  | none =>
    simp only
    split_ifs <;> exact fun pending => absurd pending never
  | some supply =>
    simp only
    obtain ⟨buf, log, status, same⟩ := allocBufs_frame supply (num4k env c.header.lbaCount).toNat 0 (startRequest c)
    rw [same, startPayload]
    split_ifs
    · exact fun pending => absurd pending never
    · exact fun pending => absurd pending never
    · exact fun pending => absurd pending never
    · exact fun pending => absurd pending never
    · exact fun _ => ⟨rfl, rfl⟩

theorem storeHeader_append (c : PpConn) (xs ys : List UInt8) : storeHeader (storeHeader c xs) ys = storeHeader c (xs ++ ys) := by
  simp [storeHeader, store_append, Nat.add_assoc]

theorem foldl_feed_header (up : c.status = .established) (idle : c.rxPending = false) {bytes : List UInt8}
    (short : c.rxReceived + bytes.length < headerSize) : bytes.foldl (feed env) c = storeHeader c bytes := by
  induction bytes generalizing c with
  | nil => rfl
  | cons b bytes ih =>
    rw [length_cons] at short
    have first : feed env c b = storeHeader c [b] := by
      rw [feed, if_neg (not_not.2 up), idle, if_neg Bool.false_ne_true, if_pos (by omega)]
    rw [foldl_cons, first, ih (c := storeHeader c [b]) up idle (by show c.rxReceived + 1 + bytes.length < headerSize; omega),
      storeHeader_append]
    rfl

theorem foldl_feed_whole_header (up : c.status = .established) (idle : c.rxPending = false) {bytes} (some : bytes ≠ [])
    (whole : c.rxReceived + bytes.length = headerSize) :
    bytes.foldl (feed env) c = settle env (receivedHeader env (storeHeader c bytes)) := by
  obtain ⟨init, last, rfl⟩ : ∃ init last, bytes = init ++ [last] := ⟨_, _, (dropLast_concat_getLast some).symm⟩
  rw [length_append, length_singleton] at whole
  rw [foldl_append, foldl_feed_header up idle (by omega), foldl_cons, foldl_nil]
  have received : (storeHeader c init).rxReceived + 1 = headerSize := by
    rw [← whole]
    rfl
  rw [feed, if_neg (not_not.2 (show (storeHeader c init).status = .established from up)),
    show (storeHeader c init).rxPending = false from idle, if_neg Bool.false_ne_true, if_neg (by omega), if_pos (by omega),
    storeHeader_append]

theorem storePayload_append {xs ys} (some : xs ≠ []) (more : ys ≠ [])
    (inside : c.rxReceived % pageSize + xs.length + ys.length ≤ pageSize) :
    storePayload (storePayload c xs) ys = storePayload c (xs ++ ys) := by
  have left := length_pos_of_ne_nil some
  have right := length_pos_of_ne_nil more
  have offset : (c.rxReceived + xs.length) % pageSize = c.rxReceived % pageSize + xs.length := by
    unfold pageSize at inside ⊢
    omega
  have middle : (c.rxReceived + xs.length) % pageSize ≠ 0 := by omega
  simp only [storePayload, offset, if_neg (offset ▸ middle), Function.update_self, Function.update_idem, store_append,
    length_append, Nat.add_assoc]

theorem foldl_feed_payload (up : c.status = .established) (pending : c.rxPending = true) (set : c.header.opcode = cmdSet)
    {bytes} (some : bytes ≠ []) (page : c.rxReceived % pageSize + bytes.length ≤ pageSize)
    (within : c.rxReceived + bytes.length ≤ accessBytes env c.header.lbaCount) :
    bytes.foldl (feed env) c = settle env (storePayload c bytes) := by
  induction bytes generalizing c with
  | nil => exact absurd rfl some
  | cons b bytes ih =>
    rw [length_cons] at page within
    have first : feed env c b = settle env (storePayload c [b]) := by
      rw [feed, if_neg (not_not.2 up), if_pos pending]
    rw [foldl_cons, first]
    rcases eq_or_ne bytes [] with rfl | rest
    · rfl
    · have length := length_pos_of_ne_nil rest
      have waits : settle env (storePayload c [b]) = storePayload c [b] :=
        settle_of_waiting set (show c.rxReceived + 1 < accessBytes env c.header.lbaCount by omega)
      have offset : (c.rxReceived + 1) % pageSize = c.rxReceived % pageSize + 1 := by
        unfold pageSize at page ⊢
        omega
      rw [waits, ih (c := storePayload c [b]) up pending set rest (by show (c.rxReceived + 1) % pageSize + _ ≤ _; omega)
        (by show c.rxReceived + 1 + _ ≤ accessBytes env c.header.lbaCount; omega),
        storePayload_append (cons_ne_nil b []) rest (by rw [length_singleton]; omega)]
      rfl

theorem receivePayload_feeds (env : Env) (fuel : Nat) (queue : List (List UInt8)) (up : c.status = .established)
    (pending : c.rxPending = true)
    (set : c.header.opcode = cmdSet) (within : c.rxReceived ≤ accessBytes env c.header.lbaCount)
    (enough : queue.flatten.length ≤ fuel) :
    ∃ used c' queue', receivePayload env fuel c queue = (c', queue') ∧ queue.flatten = used ++ queue'.flatten ∧
      used.foldl (feed env) (settle env c) = settle env c' ∧
      c'.status = .established ∧ c'.rxPending = true ∧ c'.header = c.header ∧
      (c'.rxReceived < accessBytes env c.header.lbaCount → queue'.flatten = []) := by
  induction fuel generalizing c queue with
  | zero =>
    have empty : queue.flatten = [] := length_eq_zero_iff.1 (Nat.le_zero.1 enough)
    exact ⟨[], c, queue, rfl, rfl, rfl, up, pending, rfl, fun _ => empty⟩
  | succ fuel ih =>
    rw [receivePayload]
    by_cases waits : c.rxReceived < accessBytes env c.header.lbaCount
    · rw [if_pos waits]
      simp only
      have room : 0 < min (pageSize - c.rxReceived % pageSize) (accessBytes env c.header.lbaCount - c.rxReceived) := by
        unfold pageSize
        omega
      obtain ⟨parts, most, rest⟩ := ixevRecv_split queue
        (min (pageSize - c.rxReceived % pageSize) (accessBytes env c.header.lbaCount - c.rxReceived))
      generalize ixevRecv queue (min (pageSize - c.rxReceived % pageSize) (accessBytes env c.header.lbaCount - c.rxReceived)) = read
        at parts most rest ⊢
      obtain ⟨bytes, left⟩ := read
      simp only at parts most rest ⊢
      by_cases none : bytes = []
      · subst none
        rw [if_pos rfl]
        exact ⟨[], c, left, rfl, parts, rfl, up, pending, rfl, fun _ => rest room⟩
      · rw [if_neg none]
        have some := length_pos_of_ne_nil none
        have shorter : queue.flatten.length = bytes.length + left.flatten.length := by rw [parts, length_append]
        have page : c.rxReceived % pageSize + bytes.length ≤ pageSize := by
          unfold pageSize at most ⊢
          omega
        obtain ⟨used, c', queue', run, remain, fed, up', pending', header, ends⟩ :=
          ih (c := storePayload c bytes) left up pending set
            (by show c.rxReceived + bytes.length ≤ accessBytes env c.header.lbaCount; omega) (by omega)
        refine ⟨bytes ++ used, c', queue', run, ?_, ?_, up', pending', header, ends⟩
        · rw [parts, remain, append_assoc]
        · rw [settle_of_waiting set waits, foldl_append, foldl_feed_payload up pending set none page (by omega), fed]
    · rw [if_neg waits]
      exact ⟨[], c, queue, rfl, rfl, rfl, up, pending, rfl, fun more => absurd more waits⟩

/-- The outcome of a loop that starts with connection `c`: it is that of the bytes of the
queue, all of which are read unless the connection is past reading. -/
structure Feeds (env : Env) (c : PpConn) (queue : List (List UInt8)) (result : PpConn × List (List UInt8)) : Prop where
  conn : result.1 = queue.flatten.foldl (feed env) (settle env c)
  rest : result.1.Deaf ∨ result.2.flatten = []
  ready : Ready env result.1

theorem Feeds.of_deaf (deaf : c.Deaf) (queue : List (List UInt8)) : Feeds env c queue (c, queue) := by
  have idle : c.status ≠ .established ∨ c.rxPending = false := deaf.imp_right And.left
  refine ⟨?_, .inl deaf, .of_not_pending idle⟩
  rw [settle_of_not_pending idle, foldl_feed_deaf deaf]

theorem Feeds.after {d} {queue rest : List (List UInt8)} {result} (used : List UInt8)
    (parts : queue.flatten = used ++ rest.flatten) (fed : used.foldl (feed env) (settle env c) = settle env d)
    (feeds : Feeds env d rest result) : Feeds env c queue result := by
  refine ⟨?_, feeds.rest, feeds.ready⟩
  rw [parts, foldl_append, fed]
  exact feeds.conn

theorem receiveLoop_pending {fuel} {queue : List (List UInt8)} (up : c.status = .established) (pending : c.rxPending = true)
    (within : c.rxReceived ≤ accessBytes env c.header.lbaCount)
    (again : ∀ (d : PpConn) rest, (d.status ≠ .established ∨ d.rxPending = false) → rest.flatten.length ≤ queue.flatten.length →
      Feeds env d rest (receiveLoop env fuel d rest)) :
    Feeds env c queue (receiveLoop env (fuel + 1) c queue) := by
  rw [receiveLoop, if_neg (not_not.2 up), if_pos pending]
  by_cases set : c.header.opcode = cmdSet
  · obtain ⟨used, c', queue', run, parts, fed, up', pending', header, ends⟩ :=
      receivePayload_feeds env queue.flatten.length queue up pending set within (le_refl _)
    have set' : c'.header.opcode = cmdSet := header ▸ set
    rw [if_pos set, run]
    simp only
    by_cases waits : c'.rxReceived < accessBytes env c'.header.lbaCount
    · rw [if_pos waits]
      refine ⟨?_, .inr (ends (header ▸ waits)), ⟨fun _ _ => ⟨set', waits⟩⟩⟩
      rw [parts, ends (header ▸ waits), append_nil, fed, settle_of_waiting set' waits]
    · have ended := receivedPayload_ends env c'
      have last : settle env c' = settle env (receivedPayload env c') := by
        rw [settle_of_not_pending ended, settle, if_pos ⟨up', pending'⟩, if_pos set', if_neg waits]
      rw [if_neg waits]
      apply Feeds.after used parts (fed.trans last)
      apply again _ _ ended
      rw [parts, length_append]
      omega
  · rw [if_neg set]
    by_cases get : c.header.opcode = cmdGet
    · have ended := dispatch_ends env c
      have last : settle env c = settle env (dispatch env c) := by
        rw [settle_of_not_pending ended, settle, if_pos ⟨up, pending⟩, if_neg set, if_pos get]
      rw [if_pos get]
      exact .after [] rfl last (again _ _ ended (le_refl _))
    · have down : c.close.status ≠ .established := by simp [PpConn.close]
      have last : settle env c = settle env c.close := by
        rw [settle_of_not_pending (.inl down), settle, if_pos ⟨up, pending⟩, if_neg set, if_neg get]
      rw [if_neg get]
      exact .after [] rfl last (.of_deaf (.inl down) queue)

theorem receiveLoop_header {fuel} {queue : List (List UInt8)} (up : c.status = .established) (idle : c.rxPending = false)
    (again : ∀ (d : PpConn) rest, (d.rxPending = true → d.rxReceived = 0) → rest.flatten.length < queue.flatten.length →
      Feeds env d rest (receiveLoop env fuel d rest)) :
    Feeds env c queue (receiveLoop env (fuel + 1) c queue) := by
  have settled : settle env c = c := settle_of_not_pending (.inr idle)
  rw [receiveLoop, if_neg (not_not.2 up), if_neg (by simp [idle])]
  obtain ⟨parts, most, rest⟩ := ixevRecv_split queue (headerSize - c.rxReceived)
  generalize ixevRecv queue (headerSize - c.rxReceived) = read at parts most rest ⊢
  obtain ⟨bytes, left⟩ := read
  simp only at parts most rest ⊢
  by_cases none : bytes = []
  · subst none
    rw [if_pos rfl]
    rcases Nat.lt_or_ge c.rxReceived headerSize with more | full
    · have empty : left.flatten = [] := rest (by rw [length_nil]; omega)
      refine ⟨?_, .inr empty, .of_not_pending (.inr idle)⟩
      rw [parts, empty, settled]
      rfl
    · exact .after [] parts rfl (.of_deaf (.inr ⟨idle, full⟩) left)
  · rw [if_neg none]
    have some := length_pos_of_ne_nil none
    by_cases short : c.rxReceived + bytes.length < headerSize
    · have empty : left.flatten = [] := rest (by omega)
      rw [if_pos short]
      refine ⟨?_, .inr empty, .of_not_pending (.inr idle)⟩
      rw [parts, empty, append_nil, settled, foldl_feed_header up idle short]
    · rw [if_neg short]
      have fed : bytes.foldl (feed env) (settle env c) = settle env (receivedHeader env (storeHeader c bytes)) := by
        rw [settled]
        exact foldl_feed_whole_header up idle none (by omega)
      have starts : (receivedHeader env (storeHeader c bytes)).rxPending = true → (receivedHeader env (storeHeader c bytes)).rxReceived = 0 :=
        fun pending => (receivedHeader_starts (c := storeHeader c bytes) idle pending).1
      apply Feeds.after bytes parts fed (again _ _ starts _)
      rw [parts, length_append]
      omega

theorem receiveLoop_feeds (fuel : Nat) (queue : List (List UInt8))
    (within : c.rxPending = true → c.rxReceived ≤ accessBytes env c.header.lbaCount)
    (enough : 2 * queue.flatten.length + (if c.rxPending then 2 else 1) ≤ fuel) :
    Feeds env c queue (receiveLoop env fuel c queue) := by
  induction fuel generalizing c queue with
  | zero => split_ifs at enough <;> omega
  | succ fuel ih =>
    by_cases down : c.status ≠ .established
    · rw [receiveLoop, if_pos down]
      exact .of_deaf (.inl down) queue
    · have up : c.status = .established := not_not.1 down
      rcases Bool.eq_false_or_eq_true c.rxPending with pending | idle
      · rw [if_pos pending] at enough
        refine receiveLoop_pending up pending (within pending) fun d rest ended shorter => ?_
        rcases ended with down | idle
        · obtain ⟨n, rfl⟩ : ∃ n, fuel = n + 1 := ⟨fuel - 1, by omega⟩
          rw [receiveLoop, if_pos down]
          exact .of_deaf (.inl down) rest
        · refine ih rest (fun more => ?_) ?_
          · rw [idle] at more
            cases more
          · rw [idle, if_neg Bool.false_ne_true]
            omega
      · rw [idle, if_neg Bool.false_ne_true] at enough
        refine receiveLoop_header up idle fun d rest starts shorter => ih rest (fun more => ?_) ?_
        · rw [starts more]
          exact Nat.zero_le _
        · split_ifs <;> omega

theorem Ready.settled (ready : Ready env c) : settle env c = c := by
  by_cases pending : c.status = .established ∧ c.rxPending = true
  · obtain ⟨set, waits⟩ := ready.payload pending.1 pending.2
    exact settle_of_waiting set waits
  · rw [settle, if_neg pending]

/-- A call of `receive_req` does what the bytes of the queue do. -/
theorem receiveReq_feeds (ready : Ready env c) (queue : List (List UInt8)) : Feeds env c queue (receiveReq env c queue) := by
  by_cases down : c.status ≠ .established
  · rw [receiveReq, receiveLoop, if_pos down]
    exact .of_deaf (.inl down) queue
  · apply receiveLoop_feeds
    · intro pending
      exact le_of_lt (ready.payload (not_not.1 down) pending).2
    · split_ifs <;> omega

end Machine

end Reflex.Server
