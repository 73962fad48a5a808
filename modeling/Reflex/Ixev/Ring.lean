import Reflex.Ixev.Transmit
import Reflex.Lib.RingBuf
import Reflex.Server.Receive

/-!
# The receive ring of a connection

`ixev_tcp_recv` stores each segment of the kernel in a slot of `ctx->recv`, and `ixev_recv` copies bytes out of the
slots, edits the slot it stops in, and merges the acknowledgement into the descriptor of the current batch. Head and
tail are sixteen-bit counters that run freely; a slot is a counter modulo the depth. The generation counts the passes
of the event loop. A descriptor's length is a machine word that cannot wrap: the bytes that a connection returns within
one pass all lie in memory at that time.

The fields from `received` on are history: the segments in order, how many of them the head has passed and how many
bytes of the next one were taken, the bytes returned to the application and the descriptors of earlier batches.
-/

namespace Reflex.Ixev
open Lib Function List

def ixevRecvDepth : Nat := 2048

/-- A descriptor of the batch: an acknowledgement of this connection, or any other call of any connection. -/
inductive RecvDesc where
  | recvDone (len : Nat)
  | other
  deriving DecidableEq

def RecvDesc.len : RecvDesc → Nat
  | .recvDone len => len
  | .other => 0

/-- The receiving side of `struct ixev_ctx`, with `ixev_generation` and the batch `karr`. `recvDoneDesc` is a place in
the batch. -/
structure RecvCtx where
  recvHead : Nat
  recvTail : Nat
  recv : Nat → List UInt8
  isDead : Bool
  generation : Nat
  recvDoneDesc : Option Nat
  ixevGeneration : Nat
  karr : List RecvDesc
  exited : Bool
  received : List (List UInt8)
  consumed : Nat
  cut : Nat
  returned : List UInt8
  submitted : List RecvDesc

namespace RecvCtx

/-- `ixev_ctx_init`, at any time of the process. -/
def init (recv : Nat → List UInt8) (ixevGeneration : Nat) (karr : List Unit) : RecvCtx where
  recvHead := 0
  recvTail := 0
  recv := recv
  isDead := false
  generation := 0
  recvDoneDesc := none
  ixevGeneration := ixevGeneration
  karr := karr.map fun _ => .other
  exited := false
  received := []
  consumed := 0
  cut := 0
  returned := []
  submitted := []

/-- `ixev_tcp_recv`: the counters are promoted to `int` before the subtraction. -/
def ixevTcpRecv (s : RecvCtx) (segment : List UInt8) : RecvCtx :=
  if (s.recvTail : Int) - s.recvHead + 1 ≥ ixevRecvDepth then { s with exited := true }
  else { s with
    recv := Function.update s.recv (s.recvTail % ixevRecvDepth) segment
    recvTail := wadd 16 s.recvTail 1
    received := s.received ++ [segment] }

/-- The loop of `ixev_recv`, with the bytes it copies. It ends at the tail, which is at most one turn away. -/
def recvLoop : Nat → RecvCtx → Nat → List UInt8 × RecvCtx
  | 0, s, _ => ([], s)
  | fuel + 1, s, left =>
    if s.recvHead = s.recvTail ∨ left = 0 then ([], s)
    else
      let ent := s.recv (s.recvHead % ixevRecvDepth)
      if ent.length ≤ left then
        let later := recvLoop fuel
          { s with recvHead := wadd 16 s.recvHead 1, consumed := s.consumed + 1, cut := 0 } (left - ent.length)
        (ent ++ later.1, later.2)
      else
        (ent.take left, { s with
          recv := Function.update s.recv (s.recvHead % ixevRecvDepth) (ent.drop left)
          cut := s.cut + left })

/-- `__ixev_check_generation`. -/
def checkGeneration (s : RecvCtx) : RecvCtx :=
  if s.ixevGeneration ≠ s.generation then { s with generation := s.ixevGeneration, recvDoneDesc := none } else s

/-- `__ixev_recv_done`. -/
def recvDone (s : RecvCtx) (len : Nat) : RecvCtx :=
  let s := s.checkGeneration
  match s.recvDoneDesc with
  | none => { s with karr := s.karr ++ [.recvDone len], recvDoneDesc := some s.karr.length }
  | some place => { s with karr := s.karr.modify place fun d => .recvDone (d.len + len) }

def ixevRecv (s : RecvCtx) (len : Nat) : Except Errno Nat × RecvCtx :=
  if s.isDead then (.error .eio, s)
  else
    let read := recvLoop (2 ^ 16) s len
    if read.1.length = 0 then (.error .eagain, read.2)
    else (.ok read.1.length, { read.2.recvDone read.1.length with returned := s.returned ++ read.1 })

/-- The passes of `ixev_wait`: the batch goes to the kernel. -/
def ixevWait (s : RecvCtx) : RecvCtx :=
  { s with ixevGeneration := s.ixevGeneration + 1, karr := [], submitted := s.submitted ++ s.karr }

end RecvCtx

inductive RecvOp where
  | recv (segment : List UInt8)
  | read (len : Nat)
  | dead
  /-- a call that is no acknowledgement of this connection joins the batch -/
  | other
  | wait

namespace RecvCtx

def next (s : RecvCtx) : RecvOp → RecvCtx
  | .recv segment => s.ixevTcpRecv segment
  | .read len => (s.ixevRecv len).2
  | .dead => { s with isDead := true }
  | .other => { s with karr := s.karr ++ [.other] }
  | .wait => s.ixevWait

def Valid (s : RecvCtx) (_ : RecvOp) : Prop := s.exited = false

/-- The number of segments that are received and not fully read. -/
def backlog (s : RecvCtx) : Nat := s.received.length - s.consumed

/-- What is left of the segments that are not fully read. -/
def unread (s : RecvCtx) : List (List UInt8) := (s.received.drop s.consumed).modifyHead (List.drop s.cut)

/-- The slots from the head to the tail. -/
def ring (s : RecvCtx) : RingBuf (List UInt8) where
  buf := s.recv
  count := s.backlog
  head := s.recvTail % ixevRecvDepth
  tail := s.recvHead % ixevRecvDepth

/-- Every segment that is not fully read is in its slot. -/
structure Intact (s : RecvCtx) : Prop where
  head : s.recvHead = s.consumed % 2 ^ 16
  tail : s.recvTail = s.received.length % 2 ^ 16
  order : s.consumed ≤ s.received.length
  bound : s.backlog < ixevRecvDepth
  fresh : s.backlog = 0 → s.cut = 0
  slots : s.ring.contents ixevRecvDepth = s.unread

variable {s : RecvCtx} {first : List UInt8} {rest : List (List UInt8)}

theorem Intact.wf (intact : Intact s) : s.ring.Wf ixevRecvDepth where
  capacity := by decide
  bound := intact.bound.le
  tailBound := Nat.mod_lt _ (by decide)
  head := by
    have order := intact.order
    show s.recvTail % 2048 = (s.recvHead % 2048 + (s.received.length - s.consumed)) % 2048
    rw [intact.head, intact.tail]
    omega

theorem Intact.init (recv : Nat → List UInt8) (generation : Nat) (karr : List Unit) :
    Intact (init recv generation karr) where
  head := rfl
  tail := rfl
  order := Nat.le_refl 0
  bound := show 0 < 2048 by decide
  fresh _ := rfl
  slots := rfl

theorem Intact.congr {t : RecvCtx} (intact : Intact s)
    (same : (t.recvHead, t.recvTail, t.recv, t.received, t.consumed, t.cut) =
      (s.recvHead, s.recvTail, s.recv, s.received, s.consumed, s.cut)) : Intact t := by
  cases s
  cases t
  simp only [Prod.mk.injEq] at same
  obtain ⟨rfl, rfl, rfl, rfl, rfl, rfl⟩ := same
  exact ⟨intact.head, intact.tail, intact.order, intact.bound, intact.fresh, intact.slots⟩

/-- There is a free slot, or the difference of the counters is not negative, so that the test sees that there is none. -/
def Room (s : RecvCtx) : RecvOp → Prop
  | .recv _ => s.recvHead ≤ s.recvTail ∨ s.backlog + 1 < ixevRecvDepth
  | _ => True

theorem Intact.stores (intact : Intact s) (space : s.backlog + 1 < ixevRecvDepth) (segment : List UInt8) :
    s.ixevTcpRecv segment = { s with
      recv := update s.recv (s.recvTail % ixevRecvDepth) segment
      recvTail := wadd 16 s.recvTail 1
      received := s.received ++ [segment] } := by
  have head := intact.head
  have tail := intact.tail
  have order := intact.order
  refine if_neg ?_
  unfold backlog ixevRecvDepth at space
  unfold ixevRecvDepth
  omega

theorem Intact.unread_snoc (intact : Intact s) (recv : Nat → List UInt8) (tail : Nat) (segment : List UInt8) :
    RecvCtx.unread { s with recv := recv, recvTail := tail, received := s.received ++ [segment] } =
      s.unread ++ [segment] := by
  rw [unread, unread, drop_append_of_le_length intact.order]
  cases left : s.received.drop s.consumed with
  | nil =>
    have empty : s.backlog = 0 := by
      have := congrArg length left
      rwa [length_drop] at this
    simp [intact.fresh empty]
  | cons first rest => rfl

theorem Intact.ixevTcpRecv {segment} (intact : Intact s) (room : s.Room (.recv segment)) :
    Intact (s.ixevTcpRecv segment) := by
  have head := intact.head
  have tail := intact.tail
  have order := intact.order
  have bound := intact.bound
  unfold RecvCtx.ixevTcpRecv
  split_ifs with full
  · exact intact.congr rfl
  · have space : s.backlog + 1 < ixevRecvDepth := by
      unfold Room backlog at room
      unfold backlog at bound ⊢
      unfold ixevRecvDepth at room bound full ⊢
      omega
    unfold backlog ixevRecvDepth at space
    have length : (s.received ++ [segment]).length = s.received.length + 1 := length_append
    refine ⟨head, ?_, ?_, ?_, ?_, ?_⟩
    · show (s.recvTail + 1) % 2 ^ 16 = _
      rw [length, tail, Nat.mod_add_mod]
    · show s.consumed ≤ (s.received ++ [segment]).length
      omega
    · show (s.received ++ [segment]).length - s.consumed < 2048
      omega
    · intro empty
      change (s.received ++ [segment]).length - s.consumed = 0 at empty
      omega
    · -- the new ring is the old one with the segment pushed
      have pushed : RingBuf.contents ixevRecvDepth (s.ring.push ixevRecvDepth segment) = s.unread ++ [segment] := by
        rw [intact.wf.contents_push bound, intact.slots]
      have same : (s.ring.push ixevRecvDepth segment) = RecvCtx.ring { s with
          recv := update s.recv (s.recvTail % ixevRecvDepth) segment
          recvTail := wadd 16 s.recvTail 1
          received := s.received ++ [segment] } := by
        have turn : (s.recvTail % ixevRecvDepth + 1) % ixevRecvDepth = wadd 16 s.recvTail 1 % ixevRecvDepth := by
          show (s.recvTail % 2048 + 1) % 2048 = (s.recvTail + 1) % 2 ^ 16 % 2048
          omega
        have count : s.backlog + 1 = (s.received ++ [segment]).length - s.consumed := by
          unfold backlog
          omega
        unfold ring RingBuf.push backlog
        rw [← count, ← turn]
        rfl
      rw [← same, pushed, intact.unread_snoc]

def Moves (s t : RecvCtx) : Prop :=
  ∃ recv head consumed cut, t = { s with recv := recv, recvHead := head, consumed := consumed, cut := cut }

theorem backlog_eq (s : RecvCtx) : s.backlog = s.unread.length := by
  rw [unread, length_modifyHead, length_drop, backlog]

theorem backlog_pos (oldest : s.unread = first :: rest) : 0 < s.backlog := by
  rw [backlog_eq, oldest]
  exact Nat.succ_pos _

theorem Intact.entry (intact : Intact s) (oldest : s.unread = first :: rest) :
    s.recv (s.recvHead % ixevRecvDepth) = first := by
  have popped := intact.wf.contents_pop (backlog_pos oldest)
  rw [intact.slots, oldest, cons.injEq] at popped
  exact popped.1.symm

theorem Intact.pass (intact : Intact s) (oldest : s.unread = first :: rest) :
    Intact { s with recvHead := wadd 16 s.recvHead 1, consumed := s.consumed + 1, cut := 0 } ∧
      RecvCtx.unread { s with recvHead := wadd 16 s.recvHead 1, consumed := s.consumed + 1, cut := 0 } = rest := by
  have head := intact.head
  have order := intact.order
  have bound := intact.bound
  have slots := intact.slots
  have later : RecvCtx.unread { s with recvHead := wadd 16 s.recvHead 1, consumed := s.consumed + 1, cut := 0 } = rest := by
    unfold unread at oldest ⊢
    show modifyHead (drop 0) (s.received.drop (s.consumed + 1)) = rest
    rw [← drop_drop]
    cases left : s.received.drop s.consumed with
    | nil => rw [left] at oldest; cases oldest
    | cons x xs =>
      rw [left, modifyHead_cons, cons.injEq] at oldest
      rw [oldest.2.symm]
      cases xs <;> rfl
  have some := backlog_pos oldest
  unfold backlog at some bound
  refine ⟨⟨?_, intact.tail, ?_, ?_, fun _ => rfl, ?_⟩, later⟩
  · show (s.recvHead + 1) % 2 ^ 16 = _
    rw [head, Nat.mod_add_mod]
  · show s.consumed + 1 ≤ s.received.length
    omega
  · show s.received.length - (s.consumed + 1) < ixevRecvDepth
    omega
  · have popped := intact.wf.contents_pop some
    rw [slots, oldest, cons.injEq] at popped
    have turn : (s.recvHead % ixevRecvDepth + 1) % ixevRecvDepth = wadd 16 s.recvHead 1 % ixevRecvDepth := by
      show (s.recvHead % 2048 + 1) % 2048 = (s.recvHead + 1) % 2 ^ 16 % 2048
      omega
    rw [later, popped.2]
    unfold ring RingBuf.pop backlog
    rw [turn, Nat.sub_sub]

theorem Intact.edit (left : Nat) (intact : Intact s)
    (oldest : s.unread = first :: rest) :
    Intact { s with
        recv := update s.recv (s.recvHead % ixevRecvDepth) (first.drop left)
        cut := s.cut + left } ∧
      RecvCtx.unread { s with
        recv := update s.recv (s.recvHead % ixevRecvDepth) (first.drop left)
        cut := s.cut + left } = first.drop left :: rest := by
  have some := backlog_pos oldest
  have later : RecvCtx.unread { s with
      recv := update s.recv (s.recvHead % ixevRecvDepth) (first.drop left)
      cut := s.cut + left } = first.drop left :: rest := by
    unfold unread at oldest ⊢
    show modifyHead (drop (s.cut + left)) (s.received.drop s.consumed) = _
    cases queue : s.received.drop s.consumed with
    | nil => rw [queue] at oldest; cases oldest
    | cons x xs =>
      rw [queue, modifyHead_cons, cons.injEq] at oldest
      rw [modifyHead_cons, ← oldest.1, oldest.2, drop_drop]
  refine ⟨⟨intact.head, intact.tail, intact.order, intact.bound, ?_, ?_⟩, later⟩
  · intro empty
    exact absurd empty (Nat.ne_of_gt some)
  · have popped := intact.wf.contents_pop some
    rw [intact.slots, oldest, cons.injEq] at popped
    rw [later, popped.2]
    exact intact.wf.contents_edit some _

/-- The counters agree exactly when nothing is left to read. -/
theorem Intact.empty_iff (intact : Intact s) : s.recvHead = s.recvTail ↔ s.unread = [] := by
  have order := intact.order
  have bound := intact.bound
  rw [← length_eq_zero_iff, ← backlog_eq, intact.head, intact.tail]
  unfold backlog ixevRecvDepth at *
  omega

theorem recvLoop_eq {fuel} (left : Nat) (intact : Intact s) (enough : s.backlog ≤ fuel) :
    (recvLoop fuel s left).1 = (Server.ixevRecv s.unread left).1 ∧
      (recvLoop fuel s left).2.unread = (Server.ixevRecv s.unread left).2 ∧
      Intact (recvLoop fuel s left).2 ∧ Moves s (recvLoop fuel s left).2 := by
  induction fuel generalizing s left with
  | zero =>
    have empty : s.unread = [] := by
      rw [← length_eq_zero_iff, ← backlog_eq]
      omega
    rw [recvLoop, empty]
    exact ⟨rfl, rfl, intact, _, _, _, _, rfl⟩
  | succ fuel ih =>
    rw [recvLoop]
    dsimp only
    split_ifs with stop fits
    · refine ⟨?_, ?_, intact, _, _, _, _, rfl⟩ <;>
      · rcases stop with stop | rfl
        · rw [intact.empty_iff.1 stop]
          rfl
        · cases s.unread <;> rfl
    all_goals
      rw [not_or] at stop
      obtain ⟨first, rest, oldest⟩ := exists_cons_of_ne_nil (mt intact.empty_iff.2 stop.1)
      rw [intact.entry oldest] at fits ⊢
      rw [oldest, Server.ixevRecv, if_neg stop.2]
    · rw [if_pos fits]
      obtain ⟨passed, later⟩ := intact.pass oldest
      have fewer : RecvCtx.backlog { s with recvHead := wadd 16 s.recvHead 1, consumed := s.consumed + 1, cut := 0 }
          ≤ fuel := by
        show s.received.length - (s.consumed + 1) ≤ fuel
        unfold backlog at enough
        omega
      obtain ⟨bytes, queue, kept, recv, head, consumed, cut, moved⟩ := ih (left - first.length) passed fewer
      rw [later] at bytes queue
      exact ⟨congrArg (first ++ ·) bytes, queue, kept, recv, head, consumed, cut, moved⟩
    · rw [if_neg fits]
      obtain ⟨edited, later⟩ := intact.edit left oldest
      exact ⟨rfl, later, edited, _, _, _, _, rfl⟩

theorem recvLoop_full (left : Nat) (intact : Intact s) :
    (recvLoop (2 ^ 16) s left).1 = (Server.ixevRecv s.unread left).1 ∧
      (recvLoop (2 ^ 16) s left).2.unread = (Server.ixevRecv s.unread left).2 ∧
      Intact (recvLoop (2 ^ 16) s left).2 ∧ Moves s (recvLoop (2 ^ 16) s left).2 := by
  apply recvLoop_eq left intact
  have bound := intact.bound
  unfold ixevRecvDepth at bound
  omega

theorem recvDone_frame (s : RecvCtx) (len : Nat) :
    ∃ generation desc karr, s.recvDone len = { s with generation := generation, recvDoneDesc := desc, karr := karr } := by
  unfold recvDone checkGeneration
  split_ifs with stale
  · exact ⟨_, _, _, rfl⟩
  · cases desc : s.recvDoneDesc with
    | none =>
      simp only [desc]
      exact ⟨_, _, _, rfl⟩
    | some place =>
      simp only [desc]
      exact ⟨_, _, _, rfl⟩

theorem Intact.ixevRecv (intact : Intact s) (len : Nat) : Intact (s.ixevRecv len).2 := by
  obtain ⟨-, -, kept, -⟩ := recvLoop_full len intact
  unfold RecvCtx.ixevRecv
  dsimp only
  split_ifs with dead nothing
  · exact intact
  · exact kept
  · obtain ⟨generation, desc, karr, done⟩ :=
      recvDone_frame (recvLoop (2 ^ 16) s len).2 (recvLoop (2 ^ 16) s len).1.length
    dsimp only
    rw [done]
    exact kept.congr rfl

theorem Intact.next (intact : Intact s) {op} (room : s.Room op) : Intact (s.next op) := by
  cases op with
  | recv segment => exact intact.ixevTcpRecv room
  | read len => exact intact.ixevRecv len
  | dead => exact intact.congr rfl
  | other => exact intact.congr rfl
  | wait => exact intact.congr rfl

/-- While the tail counter has not wrapped past the head, or a slot is free, whenever a segment arrives, the process
stops or every unread segment is in its slot. -/
theorem unread_segments_stay {recv : Nat → List UInt8} {generation : Nat} {karr : List Unit} {ops : List RecvOp}
    (run : Run (Guarded (Applies RecvCtx.next Valid) Room) (RecvCtx.init recv generation karr) ops s) :
    s.exited = true ∨ s.backlog < ixevRecvDepth ∧ s.ring.contents ixevRecvDepth = s.unread := by
  have intact : Intact s := by
    apply run.invariant _ (Intact.init recv generation karr)
    rintro s op _ ⟨⟨-, rfl⟩, room⟩ intact
    exact intact.next room
  exact .inr ⟨intact.bound, intact.slots⟩

/-- A segment read in part. -/
theorem one_segment_stays : ∃ s,
    Run (Guarded (Applies RecvCtx.next Valid) Room) (RecvCtx.init (fun _ => []) 0 []) [.recv [1, 2], .read 1] s ∧
      s.unread = [[2]] ∧
      (s.exited = true ∨ s.backlog < ixevRecvDepth ∧ s.ring.contents ixevRecvDepth = s.unread) := by
  have run : Run (Guarded (Applies RecvCtx.next Valid) Room) (RecvCtx.init (fun _ => []) 0 [])
      [.recv [1, 2], .read 1] _ := .cons ⟨⟨rfl, rfl⟩, .inl (Nat.le_refl 0)⟩ (.single ⟨⟨rfl, rfl⟩, trivial⟩)
  exact ⟨_, run, rfl, unread_segments_stay run⟩

/-! ## After the tail has wrapped -/

/-- `n` segments came and all are read. -/
structure Drained (n : Nat) (s : RecvCtx) : Prop where
  intact : Intact s
  received : s.received.length = n
  unread : s.unread = []
  exited : s.exited = false
  alive : s.isDead = false

theorem Drained.consumed {n} (drained : Drained n s) : s.consumed = n := by
  have empty := congrArg length drained.unread
  have order := drained.intact.order
  have received := drained.received
  rw [← backlog_eq, backlog, length_nil] at empty
  omega

theorem Drained.cut {n} (drained : Drained n s) : s.cut = 0 := by
  apply drained.intact.fresh
  rw [backlog_eq, drained.unread]
  rfl

theorem Drained.space {n} (drained : Drained n s) : s.backlog + 1 < ixevRecvDepth := by
  rw [backlog_eq, drained.unread]
  decide

theorem Drained.round {n} (drained : Drained n s) :
    ∃ t, Run (Applies RecvCtx.next Valid) s [.recv [0], .read 1] t ∧ Drained (n + 1) t := by
  have stored := drained.intact.stores drained.space [0]
  have intact : Intact (s.ixevTcpRecv [0]) := drained.intact.ixevTcpRecv (.inr drained.space)
  have arrived : (s.ixevTcpRecv [0]).unread = [[0]] := by
    rw [stored, drained.intact.unread_snoc, drained.unread]
    rfl
  obtain ⟨bytes, queue, kept, recv, head, consumed, cut, moved⟩ := recvLoop_full 1 intact
  rw [arrived] at bytes queue
  have read : ((s.ixevTcpRecv [0]).ixevRecv 1).2 = { (recvLoop (2 ^ 16) (s.ixevTcpRecv [0]) 1).2.recvDone 1 with
      returned := (s.ixevTcpRecv [0]).returned ++ [0] } := by
    unfold ixevRecv
    dsimp only
    rw [stored] at bytes ⊢
    rw [if_neg (by rw [drained.alive]; exact Bool.false_ne_true), bytes]
    rfl
  obtain ⟨generation, desc, karr, done⟩ := recvDone_frame (recvLoop (2 ^ 16) (s.ixevTcpRecv [0]) 1).2 1
  refine ⟨_, .cons ⟨drained.exited, rfl⟩ (.single ⟨?_, rfl⟩), ?_, ?_, ?_, ?_, ?_⟩
  · show (s.ixevTcpRecv [0]).exited = false
    rw [stored]
    exact drained.exited
  · exact intact.ixevRecv 1
  all_goals
    show _ = _
    simp only [RecvCtx.next, read, done, RecvCtx.unread]
  · rw [moved, stored]
    simp [drained.received]
  · exact queue
  · rw [moved, stored]
    exact drained.exited
  · rw [moved, stored]
    exact drained.alive

theorem drained_after (n : Nat) : ∃ ops s,
    Run (Applies RecvCtx.next Valid) (RecvCtx.init (fun _ => []) 0 []) ops s ∧ Drained n s := by
  induction n with
  | zero => exact ⟨[], _, .nil _, Intact.init _ _ _, rfl, rfl, rfl, rfl⟩
  | succ n ih =>
    obtain ⟨ops, s, run, drained⟩ := ih
    obtain ⟨t, more, again⟩ := drained.round
    exact ⟨_, t, run.append more, again⟩

/-- The head waits at the last value of its counter before a segment that was followed by `k` others. -/
structure Flooded (k : Nat) (s : RecvCtx) : Prop where
  head : s.recvHead = 65535
  tail : s.recvTail = k
  consumed : s.consumed = 65535
  received : s.received.length = 65536 + k
  oldest : s.received[65535]? = some [1]
  slot : s.recv 2047 = if k < 2048 then [1] else [2]
  cut : s.cut = 0
  exited : s.exited = false

theorem Flooded.more {k} (flooded : Flooded k s) (few : k < 2048) : Flooded (k + 1) (s.ixevTcpRecv [2]) := by
  have head := flooded.head
  have tail := flooded.tail
  have received := flooded.received
  have stored : s.ixevTcpRecv [2] = { s with
      recv := update s.recv k [2], recvTail := k + 1, received := s.received ++ [[2]] } := by
    have passes : ¬ (s.recvTail : Int) - s.recvHead + 1 ≥ ixevRecvDepth := by
      unfold ixevRecvDepth
      omega
    have slot : s.recvTail % ixevRecvDepth = k := by
      unfold ixevRecvDepth
      omega
    have counter : wadd 16 s.recvTail 1 = k + 1 := by
      show (s.recvTail + 1) % 2 ^ 16 = k + 1
      omega
    rw [RecvCtx.ixevTcpRecv, if_neg passes, slot, counter]
  rw [stored]
  refine ⟨head, rfl, flooded.consumed, ?_, ?_, ?_, flooded.cut, flooded.exited⟩
  · show (s.received ++ [[2]]).length = _
    rw [length_append, received]
    rfl
  · show (s.received ++ [[2]])[65535]? = _
    rw [getElem?_append_left (by omega)]
    exact flooded.oldest
  · show update s.recv k [2] 2047 = _
    by_cases last : k = 2047
    · rw [last, update_self]
      rfl
    · rw [update_of_ne (Ne.symm last), flooded.slot, if_pos few, if_pos (by omega)]

theorem Flooded.all (flooded : Flooded 0 s) {k} (few : k ≤ 2048) :
    ∃ ops t, Run (Applies RecvCtx.next Valid) s ops t ∧ Flooded k t := by
  induction k with
  | zero => exact ⟨[], s, .nil s, flooded⟩
  | succ k ih =>
    obtain ⟨ops, t, run, still⟩ := ih (by omega)
    exact ⟨_, _, run.append (.single ⟨still.exited, rfl⟩ : Run _ t [.recv [2]] _), still.more (by omega)⟩

theorem Drained.flood (drained : Drained 65535 s) : Flooded 0 (s.ixevTcpRecv [1]) := by
  have head : s.recvHead = 65535 := by
    rw [drained.intact.head, drained.consumed]
    rfl
  have tail : s.recvTail = 65535 := by
    rw [drained.intact.tail, drained.received]
    rfl
  rw [drained.intact.stores drained.space [1], tail]
  refine ⟨head, rfl, drained.consumed, ?_, ?_, ?_, drained.cut, drained.exited⟩
  · show (s.received ++ [[1]]).length = _
    rw [length_append, drained.received]
    rfl
  · show (s.received ++ [[1]])[65535]? = _
    rw [← drained.received]
    exact getElem?_concat_length
  · show update s.recv 2047 [1] 2047 = [1]
    exact update_self _ _ _

/-- The tail wraps, the test lets any number of segments pass, and the oldest unread one is overwritten. -/
theorem unread_segment_is_overwritten : ∃ ops s,
    Run (Applies RecvCtx.next Valid) (RecvCtx.init (fun _ => []) 0 []) ops s ∧ s.exited = false ∧
      ixevRecvDepth < s.backlog ∧ s.unread.head? = some [1] ∧ s.recv (s.recvHead % ixevRecvDepth) = [2] := by
  obtain ⟨early, t, run, drained⟩ := drained_after 65535
  obtain ⟨later, s, more, flooded⟩ := drained.flood.all (Nat.le_refl 2048)
  refine ⟨_, s, run.append (.cons ⟨drained.exited, rfl⟩ more : Run _ t (.recv [1] :: later) s), flooded.exited, ?_, ?_, ?_⟩
  · rw [backlog, flooded.received, flooded.consumed]
    decide
  · have first : (s.received.drop 65535).head? = some [1] := by
      rw [List.head?_drop]
      exact flooded.oldest
    rw [RecvCtx.unread, flooded.consumed, flooded.cut, List.head?_modifyHead, first]
    rfl
  · rw [flooded.head]
    exact flooded.slot

end RecvCtx

end Reflex.Ixev
