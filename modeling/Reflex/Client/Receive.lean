import Reflex.Server.Receive

/-!
# The client and what it receives

The connection of `apps/reflex_ix_client.c` and its `receive_req`. The client takes blocks to be 512 bytes
long, and every read to be of `req_size` blocks, whatever the header of the response says. The first message
must be the reply to its registration. The pages that a read fills are never looked at, so of a request only
the page that is being filled is kept; the measurements are left out.
-/

namespace Reflex.Client
open Lib Server List

/-- `ns_sector_size` of the client. -/
def nsSectorSize : Nat := 512

/-- `struct nvme_req`. `self` is its address, which the header carries as `req_handle`. -/
structure ClientReq where
  cmd : UInt16
  lba : UInt64
  lbaCount : UInt32
  self : UInt64
  buf : Nat → Nat → UInt8
  currentSglBuf : Nat

/-- `struct pp_conn` and the flag `running` of its thread. `pages` is the field
`current_sgl_buf` of the requests that were sent, by their address; `wire` are the bytes that
the library has accepted for sending, and `completed` counts the responses. -/
structure ClientConn where
  rxReceived : Nat
  rxPending : Bool
  dataRecv : Nat → UInt8
  txSent : Nat
  txPending : Bool
  dataSend : Nat → UInt8
  running : Bool
  status : Status
  pages : UInt64 → Nat
  completed : Nat
  wire : List UInt8

def ClientConn.abort (c : ClientConn) : ClientConn := { c with status := .aborted }

def ClientConn.close (c : ClientConn) : ClientConn := { c with status := .closed }

def ClientConn.header (c : ClientConn) : Header := .ofBuffer c.dataRecv

def blankClient : ClientConn := ⟨0, false, fun _ => 0, 0, false, fun _ => 0, false, .closed, fun _ => 0, 0, []⟩

/-- `receive_loop` before it dials. -/
def dialing (memory : ClientConn) : ClientConn :=
  { memory with
    rxReceived := 0
    rxPending := false
    txSent := 0
    txPending := false
    running := false
    status := .established
    completed := 0
    wire := [] }

/-- `req_size * ns_sector_size`: the bytes of a read or a write of this client. -/
def requestBytes (reqSize : Nat) : Nat := reqSize * nsSectorSize

def storeHeader (c : ClientConn) (bytes : List UInt8) : ClientConn :=
  { c with dataRecv := store c.dataRecv c.rxReceived bytes, rxReceived := c.rxReceived + bytes.length }

def startMessage (c : ClientConn) : ClientConn := { c with rxPending := true, rxReceived := 0 }

/-- So many bytes were read into the current page. -/
def storePayload (c : ClientConn) (n : Nat) : ClientConn :=
  { c with
    rxReceived := c.rxReceived + n
    pages := if (c.rxReceived + n) % pageSize = 0 then
        Function.update c.pages c.header.reqHandle (c.pages c.header.reqHandle + 1)
      else c.pages }

def endMessage (c : ClientConn) : ClientConn := { c with rxPending := false, rxReceived := 0 }

def registered (c : ClientConn) : ClientConn :=
  if c.header.opcode ≠ cmdReg then c.abort
  else if c.header.lbaCount = respOk then endMessage { c with running := true }
  else endMessage c.close

/-- A response whose payload is still to come. -/
def ClientConn.Waits (reqSize : Nat) (c : ClientConn) : Prop :=
  c.header.magic = 24 ∧ c.running = true ∧ c.header.reqHandle ≠ 0 ∧ c.header.opcode = cmdGet ∧ c.rxReceived < requestBytes reqSize

instance (reqSize : Nat) (c : ClientConn) : Decidable (c.Waits reqSize) :=
  inferInstanceAs (Decidable (_ ∧ _ ∧ _ ∧ _ ∧ _))

/-- A message that has arrived. Another reply to a registration is never done with. -/
def finishMessage (c : ClientConn) : ClientConn :=
  if c.header.magic ≠ 24 then c.abort
  else if c.running = false then registered c
  else if c.header.reqHandle = 0 then c.abort
  else if c.header.opcode = cmdGet then
    if wmul 32 c.header.lbaCount.toNat 8 < c.pages c.header.reqHandle % 2 ^ 32 then c.abort
    else endMessage { c with completed := c.completed + 1 }
  else if c.header.opcode = cmdSet then endMessage { c with completed := c.completed + 1 }
  else if c.header.opcode = cmdReg then c
  else c.close

/-- The loop that receives the blocks of a read. -/
def receivePayload (reqSize : Nat) : Nat → ClientConn → List (List UInt8) → ClientConn × List (List UInt8)
  | 0, c, queue => (c, queue)
  | fuel + 1, c, queue =>
    if c.Waits reqSize then
      let toReceive := min (pageSize - c.rxReceived % pageSize) (requestBytes reqSize - c.rxReceived)
      let (bytes, queue) := ixevRecv queue toReceive
      if bytes = [] then (c, queue) else receivePayload reqSize fuel (storePayload c bytes.length) queue
    else (c, queue)

/-- The loop of `receive_req`, which ends with the first message, or with one that is not done
with. As for the server, a round of the source's loop is two rounds here. -/
def receiveLoop (reqSize : Nat) : Nat → ClientConn → List (List UInt8) → ClientConn × List (List UInt8)
  | 0, c, queue => (c, queue)
  | fuel + 1, c, queue =>
    if c.status ≠ .established then (c, queue)
    else if c.rxPending then
      let (c, queue) := receivePayload reqSize queue.flatten.length c queue
      if c.Waits reqSize then (c, queue)
      else if c.running = false ∨ (finishMessage c).rxPending then (finishMessage c, queue)
      else receiveLoop reqSize fuel (finishMessage c) queue
    else
      let (bytes, queue) := ixevRecv queue (headerSize - c.rxReceived)
      if bytes = [] then (c, queue)
      else if c.rxReceived + bytes.length < headerSize then (storeHeader c bytes, queue)
      else receiveLoop reqSize fuel (startMessage (storeHeader c bytes)) queue

def receiveReq (reqSize : Nat) (c : ClientConn) (queue : List (List UInt8)) : ClientConn × List (List UInt8) :=
  receiveLoop reqSize (2 * queue.flatten.length + 2) c queue

/-! ## One byte at a time -/

def settle (reqSize : Nat) (c : ClientConn) : ClientConn :=
  if c.status = .established ∧ c.rxPending ∧ ¬ c.Waits reqSize then finishMessage c else c

def feed (reqSize : Nat) (c : ClientConn) (b : UInt8) : ClientConn :=
  if c.status ≠ .established then c
  else if c.rxPending then
    if c.Waits reqSize then settle reqSize (storePayload c 1) else c
  else if c.rxReceived + 1 < headerSize then storeHeader c [b]
  else if c.rxReceived < headerSize then settle reqSize (startMessage (storeHeader c [b]))
  else c

structure ClientConn.AtStart (c : ClientConn) : Prop where
  up : c.status = .established
  pending : c.rxPending = false
  received : c.rxReceived = 0

theorem dialing_atStart (memory : ClientConn) : (dialing memory).AtStart := ⟨rfl, rfl, rfl⟩

section Machine

variable {reqSize : Nat} {c : ClientConn}

theorem settle_of_not_pending (idle : c.status ≠ .established ∨ c.rxPending = false) : settle reqSize c = c := by
  rw [settle, if_neg]
  rintro ⟨up, pending, -⟩
  rcases idle with down | none
  · exact down up
  · rw [none] at pending
    cases pending

theorem settle_of_waiting (waits : c.Waits reqSize) : settle reqSize c = c := by
  rw [settle, if_neg fun ended => ended.2.2 waits]

theorem settle_of_ended (up : c.status = .established) (pending : c.rxPending = true) (ended : ¬ c.Waits reqSize) :
    settle reqSize c = finishMessage c := if_pos ⟨up, pending, ended⟩

theorem finishMessage_ends (c : ClientConn) :
    (finishMessage c).status ≠ .established ∨ (finishMessage c).rxPending = false ∨ finishMessage c = c := by
  unfold finishMessage registered
  split_ifs
  · exact .inl nofun
  · exact .inl nofun
  · exact .inr (.inl rfl)
  · exact .inr (.inl rfl)
  · exact .inl nofun
  · exact .inl nofun
  · exact .inr (.inl rfl)
  · exact .inr (.inl rfl)
  · exact .inr (.inr rfl)
  · exact .inl nofun

theorem settle_finishMessage (reqSize : Nat) (c : ClientConn) : settle reqSize (finishMessage c) = finishMessage c := by
  rcases finishMessage_ends c with down | idle | same
  · exact settle_of_not_pending (.inl down)
  · exact settle_of_not_pending (.inr idle)
  · rw [settle]
    split_ifs
    · rw [same, same]
    · rfl

theorem storeHeader_append (c : ClientConn) (xs ys : List UInt8) : storeHeader (storeHeader c xs) ys = storeHeader c (xs ++ ys) := by
  simp [storeHeader, store_append, Nat.add_assoc]

theorem foldl_feed_header (up : c.status = .established) (idle : c.rxPending = false) {bytes : List UInt8}
    (short : c.rxReceived + bytes.length < headerSize) : bytes.foldl (feed reqSize) c = storeHeader c bytes := by
  induction bytes generalizing c with
  | nil => rfl
  | cons b bytes ih =>
    rw [length_cons] at short
    have first : feed reqSize c b = storeHeader c [b] := by
      rw [feed, if_neg (not_not.2 up), idle, if_neg Bool.false_ne_true, if_pos (by omega)]
    rw [foldl_cons, first, ih (c := storeHeader c [b]) up idle (by show c.rxReceived + 1 + bytes.length < headerSize; omega),
      storeHeader_append]
    rfl

theorem foldl_feed_whole_header (up : c.status = .established) (idle : c.rxPending = false) {bytes} (more : bytes ≠ [])
    (whole : c.rxReceived + bytes.length = headerSize) :
    bytes.foldl (feed reqSize) c = settle reqSize (startMessage (storeHeader c bytes)) := by
  obtain ⟨init, last, rfl⟩ : ∃ init last, bytes = init ++ [last] := ⟨_, _, (dropLast_concat_getLast more).symm⟩
  rw [length_append, length_singleton] at whole
  rw [foldl_append, foldl_feed_header up idle (by omega), foldl_cons, foldl_nil]
  have received : (storeHeader c init).rxReceived + 1 = headerSize := by
    rw [← whole]
    rfl
  rw [feed, if_neg (not_not.2 (show (storeHeader c init).status = .established from up)),
    show (storeHeader c init).rxPending = false from idle, if_neg Bool.false_ne_true, if_neg (by omega), if_pos (by omega),
    storeHeader_append]

theorem ClientConn.Waits.storePayload {n} (waits : c.Waits reqSize) (within : c.rxReceived + n < requestBytes reqSize) :
    (Client.storePayload c n).Waits reqSize := ⟨waits.1, waits.2.1, waits.2.2.1, waits.2.2.2.1, within⟩

theorem storePayload_add {n m} (first : 0 < n) (more : 0 < m) (page : c.rxReceived % pageSize + n + m ≤ pageSize) :
    storePayload (storePayload c n) m = storePayload c (n + m) := by
  have inside : (c.rxReceived + n) % pageSize ≠ 0 := by
    unfold pageSize at *
    omega
  have same : storePayload c n = { c with rxReceived := c.rxReceived + n } := by
    rw [storePayload, if_neg inside]
  rw [same, storePayload, storePayload, ← Nat.add_assoc]
  rfl

theorem foldl_feed_payload (up : c.status = .established) (pending : c.rxPending = true) (waits : c.Waits reqSize)
    {bytes} (more : bytes ≠ []) (page : c.rxReceived % pageSize + bytes.length ≤ pageSize)
    (within : c.rxReceived + bytes.length ≤ requestBytes reqSize) :
    bytes.foldl (feed reqSize) c = settle reqSize (storePayload c bytes.length) := by
  induction bytes generalizing c with
  | nil => exact absurd rfl more
  | cons b bytes ih =>
    rw [length_cons] at page within
    have first : feed reqSize c b = settle reqSize (storePayload c 1) := by
      rw [feed, if_neg (not_not.2 up), if_pos pending, if_pos waits]
    rw [foldl_cons, first]
    rcases eq_or_ne bytes [] with rfl | rest
    · rfl
    · have length := length_pos_of_ne_nil rest
      have waits' := waits.storePayload (n := 1) (by omega)
      have offset : (c.rxReceived + 1) % pageSize = c.rxReceived % pageSize + 1 := by
        unfold pageSize at page ⊢
        omega
      rw [settle_of_waiting waits', ih (c := storePayload c 1) up pending waits' rest
        (by show (c.rxReceived + 1) % pageSize + _ ≤ _; omega) (by show c.rxReceived + 1 + _ ≤ _; omega),
        storePayload_add Nat.one_pos length (by omega), length_cons, Nat.add_comm 1]

theorem receivePayload_reads (reqSize fuel : Nat) (queue : List (List UInt8)) (up : c.status = .established) (pending : c.rxPending = true)
    (enough : queue.flatten.length ≤ fuel) :
    ∃ used c' queue', receivePayload reqSize fuel c queue = (c', queue') ∧ queue.flatten = used ++ queue'.flatten ∧
      used.foldl (feed reqSize) (settle reqSize c) = settle reqSize c' ∧ c'.status = .established ∧ c'.rxPending = true := by
  induction fuel generalizing c queue with
  | zero => exact ⟨[], c, queue, rfl, rfl, rfl, up, pending⟩
  | succ fuel ih =>
    rw [receivePayload]
    by_cases waits : c.Waits reqSize
    · rw [if_pos waits]
      simp only
      have left := waits.2.2.2.2
      obtain ⟨parts, most, -⟩ := ixevRecv_split queue (min (pageSize - c.rxReceived % pageSize) (requestBytes reqSize - c.rxReceived))
      generalize ixevRecv queue (min (pageSize - c.rxReceived % pageSize) (requestBytes reqSize - c.rxReceived)) = read at parts most ⊢
      obtain ⟨bytes, rest⟩ := read
      simp only at parts most ⊢
      by_cases none : bytes = []
      · subst none
        rw [if_pos rfl]
        exact ⟨[], c, rest, rfl, parts, rfl, up, pending⟩
      · rw [if_neg none]
        have length := length_pos_of_ne_nil none
        have shorter : queue.flatten.length = bytes.length + rest.flatten.length := by rw [parts, length_append]
        have page : c.rxReceived % pageSize + bytes.length ≤ pageSize := by
          unfold pageSize at most ⊢
          omega
        obtain ⟨used, c', queue', run, remain, fed, up', pending'⟩ := ih (c := storePayload c bytes.length) rest up pending (by omega)
        refine ⟨bytes ++ used, c', queue', run, ?_, ?_, up', pending'⟩
        · rw [parts, remain, append_assoc]
        · rw [settle_of_waiting waits, foldl_append, foldl_feed_payload up pending waits none page (by omega), fed]
    · rw [if_neg waits]
      exact ⟨[], c, queue, rfl, rfl, rfl, up, pending⟩

theorem receiveLoop_reads (reqSize fuel : Nat) (c : ClientConn) (queue : List (List UInt8))
    (enough : 2 * queue.flatten.length + (if c.rxPending then 2 else 1) ≤ fuel) :
    ∃ used, queue.flatten = used ++ (receiveLoop reqSize fuel c queue).2.flatten ∧
      (receiveLoop reqSize fuel c queue).1 = used.foldl (feed reqSize) (settle reqSize c) := by
  induction fuel generalizing c queue with
  | zero =>
    exfalso
    split_ifs at enough <;> omega
  | succ fuel ih =>
    rw [receiveLoop]
    by_cases up : c.status = .established
    swap
    · rw [if_pos up]
      exact ⟨[], rfl, (settle_of_not_pending (.inl up)).symm⟩
    rw [if_neg (not_not.2 up)]
    by_cases pending : c.rxPending = true
    · rw [if_pos pending] at enough ⊢
      obtain ⟨used, c', queue', run, parts, fed, up', pending'⟩ := receivePayload_reads reqSize queue.flatten.length queue up pending
        (Nat.le_refl _)
      rw [run]
      simp only
      by_cases waits : c'.Waits reqSize
      · rw [if_pos waits]
        exact ⟨used, parts, by rw [fed, settle_of_waiting waits]⟩
      · rw [if_neg waits]
        rw [settle_of_ended up' pending' waits] at fed
        split_ifs with ends
        · exact ⟨used, parts, fed.symm⟩
        · have idle : (finishMessage c').rxPending = false := Bool.eq_false_iff.2 fun more => ends (.inr more)
          have shorter := congrArg List.length parts
          rw [List.length_append] at shorter
          obtain ⟨used', parts', fed'⟩ := ih (finishMessage c') queue' (by rw [idle, if_neg Bool.false_ne_true]; omega)
          refine ⟨used ++ used', ?_, ?_⟩
          · rw [parts, parts', List.append_assoc]
          · rw [fed', List.foldl_append, fed, settle_finishMessage]
    · rw [if_neg pending] at enough ⊢
      have idle : c.rxPending = false := Bool.eq_false_iff.2 pending
      rw [settle_of_not_pending (.inr idle)]
      obtain ⟨parts, most, -⟩ := ixevRecv_split queue (headerSize - c.rxReceived)
      generalize ixevRecv queue (headerSize - c.rxReceived) = read at parts most ⊢
      obtain ⟨bytes, rest⟩ := read
      simp only at parts most ⊢
      split_ifs with none short
      · subst none
        exact ⟨[], parts, rfl⟩
      · exact ⟨bytes, parts, (foldl_feed_header up idle short).symm⟩
      · have length := List.length_pos_of_ne_nil none
        have shorter := congrArg List.length parts
        rw [List.length_append] at shorter
        obtain ⟨used', parts', fed'⟩ := ih (startMessage (storeHeader c bytes)) rest (by
          rw [show (startMessage (storeHeader c bytes)).rxPending = true from rfl, if_pos rfl]
          omega)
        refine ⟨bytes ++ used', ?_, ?_⟩
        · rw [parts, parts', List.append_assoc]
        · rw [fed', List.foldl_append, foldl_feed_whole_header up idle none (by omega)]

/-- A call of `receive_req` between two messages, or while one is pending. -/
theorem receiveReq_reads (ready : settle reqSize c = c) (queue : List (List UInt8)) :
    ∃ used, queue.flatten = used ++ (receiveReq reqSize c queue).2.flatten ∧
      (receiveReq reqSize c queue).1 = used.foldl (feed reqSize) c := by
  obtain ⟨used, parts, fed⟩ := receiveLoop_reads reqSize (2 * queue.flatten.length + 2) c queue (by split_ifs <;> omega)
  rw [ready] at fed
  exact ⟨used, parts, fed⟩

theorem settle_settle (c : ClientConn) : settle reqSize (settle reqSize c) = settle reqSize c := by
  by_cases ended : c.status = .established ∧ c.rxPending ∧ ¬ c.Waits reqSize
  · rw [settle_of_ended ended.1 ended.2.1 ended.2.2, settle_finishMessage]
  · rw [show settle reqSize c = c from if_neg ended, show settle reqSize c = c from if_neg ended]

theorem settle_foldl_feed (ready : settle reqSize c = c) (bytes : List UInt8) :
    settle reqSize (bytes.foldl (feed reqSize) c) = bytes.foldl (feed reqSize) c := by
  induction bytes generalizing c with
  | nil => exact ready
  | cons b bytes ih =>
    apply ih
    unfold feed
    split_ifs with down pending
    · exact ready
    · exact settle_settle _
    · exact ready
    · exact settle_of_not_pending (.inr (Bool.eq_false_of_not_eq_true pending))
    · exact settle_settle _
    · exact ready

/-- The calls of `receive_req`, each after some more segments have come in; `left` is what they have left. -/
def receiveCalls (reqSize : Nat) :
    List (List (List UInt8)) → ClientConn → List (List UInt8) → ClientConn × List (List UInt8)
  | [], c, left => (c, left)
  | new :: later, c, left =>
    let (c, left) := receiveReq reqSize c (left ++ new)
    receiveCalls reqSize later c left

/-- However the stream is cut into segments and calls, the connection is what the bytes taken so far make of it. -/
theorem receiveCalls_read (ready : settle reqSize c = c) (arrivals : List (List (List UInt8))) (left : List (List UInt8)) :
    ∃ used, left.flatten ++ arrivals.flatten.flatten = used ++ (receiveCalls reqSize arrivals c left).2.flatten ∧
      (receiveCalls reqSize arrivals c left).1 = used.foldl (feed reqSize) c := by
  induction arrivals generalizing c left with
  | nil => exact ⟨[], by simp [receiveCalls], rfl⟩
  | cons new later ih =>
    obtain ⟨used, parts, fed⟩ := receiveReq_reads ready (left ++ new)
    have still := settle_foldl_feed ready used
    rw [← fed] at still
    obtain ⟨more, parts', fed'⟩ := ih still (receiveReq reqSize c (left ++ new)).2
    refine ⟨used ++ more, ?_, by rw [foldl_append, ← fed, ← fed']; rfl⟩
    rw [append_assoc, receiveCalls, ← parts', ← append_assoc, ← parts]
    simp

theorem dialed_calls_read : ∃ used, [1, 2, 3] = used ++ (receiveCalls 1 [[[1], [2]], [[3]]] (dialing blankClient) []).2.flatten ∧
    (receiveCalls 1 [[[1], [2]], [[3]]] (dialing blankClient) []).1 = used.foldl (feed 1) (dialing blankClient) :=
  receiveCalls_read (settle_of_not_pending (.inr rfl)) [[[1], [2]], [[3]]] []

end Machine

end Reflex.Client
