import Reflex.Nvme.Shares

/-!
# The software queue as a bounded queue

What a caller sees of `nvme_sw_queue`: after any sequence of calls the ring holds the list
that a first-in first-out queue of its capacity holds, and answers like it.
-/

namespace Reflex.Nvme
open Lib

inductive QueueOp where
  | pushBack (ctx : NvmeCtx)
  | popFront
  | peakHeadCost

/-- `pushed false` and `popped none` are the calls that return `-EAGAIN`. -/
inductive QueueReply where
  | pushed (accepted : Bool)
  | popped (ctx : Option NvmeCtx)
  | cost (headCost : Int)

def NvmeSwQueue.call (q : NvmeSwQueue) : QueueOp → QueueReply × NvmeSwQueue
  | .pushBack ctx => match nvmeSwQueuePushBack q ctx with
    | none => (.pushed false, q)
    | some q' => (.pushed true, q')
  | .popFront => match nvmeSwQueuePopFront q with
    | none => (.popped none, q)
    | some (ctx, q') => (.popped (some ctx), q')
  | .peakHeadCost => (.cost (nvmeSwQueuePeakHeadCost q), q)

/-- The calls on a list that holds at most `nvmeSwQueueSize` contexts, oldest first. -/
def fifoCall (waiting : List NvmeCtx) : QueueOp → QueueReply × List NvmeCtx
  | .pushBack ctx =>
    if waiting.length = nvmeSwQueueSize then (.pushed false, waiting) else (.pushed true, waiting ++ [ctx])
  | .popFront => (.popped waiting.head?, waiting.tail)
  | .peakHeadCost => (.cost ((waiting.head?.map NvmeCtx.reqCost).getD (-1)), waiting)

variable {q : NvmeSwQueue}

theorem peakHeadCost_eq (wf : q.Wf) : nvmeSwQueuePeakHeadCost q = (q.pending.head?.map NvmeCtx.reqCost).getD (-1) := by
  cases pop : nvmeSwQueuePopFront q with
  | none =>
    have empty : q.count = 0 := by
      unfold nvmeSwQueuePopFront at pop
      split at pop
      · assumption
      · cases pop
    rw [List.length_eq_zero_iff.1 ((pending_length q).trans empty), nvmeSwQueuePeakHeadCost, if_pos empty]
    rfl
  | some popped =>
    obtain ⟨ctx, q'⟩ := popped
    rw [popFront_cost pop, (popFront_spec wf pop).2.1]
    rfl

theorem call_refines (tallied : q.Tallied) (op : QueueOp) :
    (q.call op).1 = (fifoCall q.pending op).1 ∧ (q.call op).2.pending = (fifoCall q.pending op).2 ∧ (q.call op).2.Tallied := by
  cases op with
  | pushBack ctx =>
    simp only [NvmeSwQueue.call, fifoCall, pending_length]
    cases push : nvmeSwQueuePushBack q ctx with
    | none =>
      have full : q.count = nvmeSwQueueSize := by
        unfold nvmeSwQueuePushBack at push
        split at push
        · assumption
        · cases push
      rw [if_pos full]
      exact ⟨rfl, rfl, tallied⟩
    | some q' =>
      have space : q.count ≠ nvmeSwQueueSize := by
        intro full
        rw [nvmeSwQueuePushBack, if_pos full] at push
        cases push
      rw [if_neg space]
      exact ⟨rfl, (pushBack_spec tallied.wf push).2.1, tallied.push push⟩
  | popFront =>
    simp only [NvmeSwQueue.call, fifoCall]
    cases pop : nvmeSwQueuePopFront q with
    | none =>
      have empty : q.pending = [] := by
        rw [← isempty_iff]
        by_contra more
        exact popFront_ne_none (Bool.eq_false_iff.2 more) pop
      rw [empty]
      exact ⟨rfl, rfl, tallied⟩
    | some popped =>
      obtain ⟨ctx, q'⟩ := popped
      rw [(popFront_spec tallied.wf pop).2.1]
      exact ⟨rfl, rfl, tallied.pop pop⟩
  | peakHeadCost => exact ⟨congrArg QueueReply.cost (peakHeadCost_eq tallied.wf), rfl, tallied⟩

/-- After any calls on a fresh queue the ring holds what the list holds, the next call
answers as on the list, a refused push leaves the queue as it was, and the demand is the
price of what is queued, as a word and, if the price fits a word, as a number. -/
theorem software_queue_is_bounded_fifo (memory : NvmeSwQueue) (handle : Nat) (calls : List QueueOp) (next : QueueOp) :
    let q := calls.foldl (fun q op => (q.call op).2) (nvmeSwQueueInit memory handle)
    let waiting := calls.foldl (fun l op => (fifoCall l op).2) []
    q.pending = waiting ∧ (q.call next).1 = (fifoCall waiting next).1 ∧
      ((q.call next).1 = .pushed false → (q.call next).2 = q) ∧
      q.totalTokenDemand = wofInt 64 (totalCost NvmeCtx.reqCost waiting) ∧
      (0 ≤ totalCost NvmeCtx.reqCost waiting → totalCost NvmeCtx.reqCost waiting < 2 ^ 64 →
        (q.totalTokenDemand : Int) = totalCost NvmeCtx.reqCost waiting) := by
  intro q waiting
  -- The relation between the two runs is kept by every call.
  have related : ∀ (calls : List QueueOp) (q : NvmeSwQueue) (l : List NvmeCtx), q.Tallied → q.pending = l →
      (calls.foldl (fun q op => (q.call op).2) q).Tallied ∧
        (calls.foldl (fun q op => (q.call op).2) q).pending = calls.foldl (fun l op => (fifoCall l op).2) l := by
    intro calls
    induction calls with
    | nil => exact fun q l tallied same => ⟨tallied, same⟩
    | cons op calls ih =>
      intro q l tallied same
      obtain ⟨-, left, after⟩ := call_refines tallied op
      exact ih _ _ after (by rw [left, same])
  obtain ⟨tallied, same⟩ := related calls _ _ (.init memory handle) (pending_init memory handle)
  have demand := tallied.demand
  rw [same] at demand
  refine ⟨same, by rw [(call_refines tallied next).1, same], ?_, demand, fun low high => ?_⟩
  · cases next with
    | pushBack ctx =>
      simp only [NvmeSwQueue.call]
      split
      · exact fun _ => rfl
      · exact fun refused => by simp at refused
    | popFront =>
      simp only [NvmeSwQueue.call]
      split <;> exact fun refused => by simp at refused
    | peakHeadCost => exact fun _ => rfl
  · rw [demand, cast_wofInt]
    exact Int.emod_eq_of_lt low (by exact_mod_cast high)

end Reflex.Nvme
