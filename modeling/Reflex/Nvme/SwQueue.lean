import Reflex.Lib.RingBuf
import Reflex.Nvme.DeviceModel

/-!
# The tenants' software queues

`nvme/nvme_sw_queue.c`: a ring of request contexts with the running token demand of the
queued requests, the tokens a best-effort tenant has saved and the credit of a
latency-critical one.
-/

namespace Reflex.Nvme
open Lib

/-- A request context. `user_buf` is a union: `buf` and `sgl_buf.sgl` are one word, and
the two counters of `sgl_buf` keep what an earlier use of the context left there unless
the vectored calls write them. -/
structure NvmeCtx where
  cookie : UInt64
  userBuf : UInt64
  numSgls : Int32
  currentSgl : Int32
  tid : Nat
  fgHandle : Nat
  cmd : NvmeCmd
  reqCost : Int
  paddr : UInt64
  lba : UInt64
  lbaCount : UInt32
  deriving DecidableEq, Repr

def nvmeSwQueueSize : Nat := 256 * 8

structure NvmeSwQueue extends RingBuf NvmeCtx where
  totalTokenDemand : Nat
  savedTokens : Nat
  fgHandle : Nat
  tokenCredit : Int

/-- The queued requests, oldest first. -/
def NvmeSwQueue.pending (q : NvmeSwQueue) : List NvmeCtx := q.toRingBuf.contents nvmeSwQueueSize

def nvmeSwQueueInit (q : NvmeSwQueue) (fgHandle : Nat) : NvmeSwQueue :=
  { buf := q.buf, count := 0, head := 0, tail := 0, totalTokenDemand := 0, savedTokens := 0,
    fgHandle := fgHandle, tokenCredit := 0 }

/-- `-EAGAIN` on a full ring. -/
def nvmeSwQueuePushBack (q : NvmeSwQueue) (ctx : NvmeCtx) : Option NvmeSwQueue :=
  if q.count = nvmeSwQueueSize then none
  else some { q with
    toRingBuf := q.toRingBuf.push nvmeSwQueueSize ctx
    totalTokenDemand := wadd 64 q.totalTokenDemand (wofInt 64 ctx.reqCost) }

/-- `-EAGAIN` on an empty ring. -/
def nvmeSwQueuePopFront (q : NvmeSwQueue) : Option (NvmeCtx × NvmeSwQueue) :=
  if q.count = 0 then none
  else some (q.buf q.tail, { q with
    toRingBuf := q.toRingBuf.pop nvmeSwQueueSize
    totalTokenDemand := wsub 64 q.totalTokenDemand (wofInt 64 (q.buf q.tail).reqCost) })

def nvmeSwQueueIsempty (q : NvmeSwQueue) : Bool := q.count = 0

def nvmeSwQueuePeakHeadCost (q : NvmeSwQueue) : Int := if q.count = 0 then -1 else (q.buf q.tail).reqCost

/-- Keep tokens up to the queue's demand; the first component is the amount kept. -/
def nvmeSwQueueSaveTokens (q : NvmeSwQueue) (tokens : Nat) : Nat × NvmeSwQueue :=
  if q.totalTokenDemand = 0 then (0, { q with savedTokens := 0 })
  else if tokens < q.totalTokenDemand then (tokens, { q with savedTokens := wadd 64 q.savedTokens tokens })
  else (q.totalTokenDemand, { q with savedTokens := wadd 64 q.savedTokens q.totalTokenDemand })

def nvmeSwQueueTakeSavedTokens (q : NvmeSwQueue) : Nat × NvmeSwQueue :=
  (q.savedTokens, { q with savedTokens := 0 })

/-- The ring of a queue is well formed; every operation keeps it so. -/
def NvmeSwQueue.Wf (q : NvmeSwQueue) : Prop := q.toRingBuf.Wf nvmeSwQueueSize

variable {q q' : NvmeSwQueue} {ctx : NvmeCtx}

theorem nvmeSwQueueInit_wf (q : NvmeSwQueue) (h : Nat) : (nvmeSwQueueInit q h).Wf where
  capacity := by decide
  bound := Nat.zero_le _
  tailBound := by show 0 < nvmeSwQueueSize; decide
  head := rfl

@[simp] theorem pending_init (q : NvmeSwQueue) (h : Nat) : (nvmeSwQueueInit q h).pending = [] := rfl

theorem pushBack_spec (wf : q.Wf) (push : nvmeSwQueuePushBack q ctx = some q') :
    q'.Wf ∧ q'.pending = q.pending ++ [ctx] ∧ q'.savedTokens = q.savedTokens ∧ q'.fgHandle = q.fgHandle ∧
      q'.tokenCredit = q.tokenCredit := by
  unfold nvmeSwQueuePushBack at push
  split at push
  · cases push
  · rename_i space
    cases push
    have space : q.count < nvmeSwQueueSize := by have := wf.bound; omega
    exact ⟨RingBuf.Wf.push wf space ctx, RingBuf.Wf.contents_push wf space ctx, rfl, rfl, rfl⟩

theorem popFront_spec (wf : q.Wf) (pop : nvmeSwQueuePopFront q = some (ctx, q')) :
    q'.Wf ∧ q.pending = ctx :: q'.pending ∧ q'.savedTokens = q.savedTokens ∧ q'.fgHandle = q.fgHandle ∧
      q'.tokenCredit = q.tokenCredit := by
  unfold nvmeSwQueuePopFront at pop
  split at pop
  · cases pop
  · rename_i some
    cases pop
    have some : 0 < q.count := by omega
    exact ⟨RingBuf.Wf.pop wf some, RingBuf.Wf.contents_pop wf some, rfl, rfl, rfl⟩

/-- Every waiting request satisfies `R`. -/
def NvmeSwQueue.Holds (R : NvmeCtx → Prop) (q : NvmeSwQueue) : Prop := q.Wf ∧ ∀ ctx ∈ q.pending, R ctx

namespace NvmeSwQueue.Holds

variable {R : NvmeCtx → Prop}

theorem congr (holds : q.Holds R) (ring : q'.toRingBuf = q.toRingBuf) : q'.Holds R := by
  unfold NvmeSwQueue.Holds NvmeSwQueue.Wf NvmeSwQueue.pending at holds ⊢
  rwa [ring]

theorem pop (holds : q.Holds R) (pop : nvmeSwQueuePopFront q = some (ctx, q')) : q'.Holds R ∧ R ctx := by
  obtain ⟨wf, oldest, -⟩ := popFront_spec holds.1 pop
  refine ⟨⟨wf, fun x mem => holds.2 x ?_⟩, holds.2 ctx ?_⟩
  · rw [oldest]
    exact List.mem_cons_of_mem ctx mem
  · rw [oldest]
    exact List.mem_cons_self

theorem push (holds : q.Holds R) (new : R ctx) (push : nvmeSwQueuePushBack q ctx = some q') : q'.Holds R := by
  obtain ⟨wf, appended, -⟩ := pushBack_spec holds.1 push
  refine ⟨wf, fun x mem => ?_⟩
  rw [appended, List.mem_append, List.mem_singleton] at mem
  rcases mem with old | rfl
  · exact holds.2 x old
  · exact new

theorem init (R : NvmeCtx → Prop) (q : NvmeSwQueue) (h : Nat) : (nvmeSwQueueInit q h).Holds R := by
  refine ⟨nvmeSwQueueInit_wf q h, fun x mem => ?_⟩
  rw [pending_init] at mem
  exact absurd mem List.not_mem_nil

end NvmeSwQueue.Holds

theorem popFront_count (pop : nvmeSwQueuePopFront q = some (ctx, q')) :
    q'.count + 1 = q.count := by
  unfold nvmeSwQueuePopFront at pop
  split at pop
  · cases pop
  · cases pop
    simp only [RingBuf.pop]
    omega

theorem popFront_ne_none (more : nvmeSwQueueIsempty q = false) : nvmeSwQueuePopFront q ≠ none := by
  rw [nvmeSwQueueIsempty, decide_eq_false_iff_not] at more
  rw [nvmeSwQueuePopFront, if_neg more]
  exact Option.some_ne_none _

/-- A popped request is the one whose cost `peak_head_cost` reports. -/
theorem popFront_cost (pop : nvmeSwQueuePopFront q = some (ctx, q')) :
    nvmeSwQueuePeakHeadCost q = ctx.reqCost := by
  unfold nvmeSwQueuePopFront at pop
  split at pop
  · cases pop
  · rename_i some
    cases pop
    simp only [nvmeSwQueuePeakHeadCost, some, if_false]

end Reflex.Nvme
