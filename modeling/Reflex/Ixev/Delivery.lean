import Reflex.Ixev.Ring

/-!
# Delivery and acknowledgement of received bytes

On a live connection whose ring never fills, what `ixev_recv` returned and what is unread make up the stream of the
segments, and the acknowledgements of all batches add up to what was returned. The descriptor of an acknowledgement is
found by its place in the batch, which is good for one pass only: the generation of the connection tells whether it is.
-/

namespace Reflex.Ixev.RecvCtx
open Lib List

variable {s : RecvCtx}

/-- The bytes that the acknowledgements of all batches add up to. -/
def credited (s : RecvCtx) : Nat := ((s.submitted ++ s.karr).map RecvDesc.len).sum

/-- A descriptor that is still in use is an acknowledgement in the current batch. -/
structure Credit (s : RecvCtx) : Prop where
  past : s.generation ≤ s.ixevGeneration
  current : s.generation = s.ixevGeneration → ∀ place ∈ s.recvDoneDesc, ∃ len, s.karr[place]? = some (.recvDone len)

theorem sum_modify {ds : List RecvDesc} {place old : Nat} (new : Nat) (there : ds[place]? = some (.recvDone old)) :
    ((ds.modify place fun d => .recvDone (d.len + new)).map RecvDesc.len).sum = (ds.map RecvDesc.len).sum + new := by
  induction ds generalizing place with
  | nil => cases there
  | cons d ds ih =>
    cases place with
    | zero =>
      rw [modify_zero_cons, map_cons, sum_cons, map_cons, sum_cons]
      show d.len + new + _ = _
      omega
    | succ place =>
      rw [modify_succ_cons, map_cons, sum_cons, map_cons, sum_cons, ih there]
      omega

theorem Credit.checkGeneration (credit : Credit s) :
    Credit s.checkGeneration ∧ s.checkGeneration.generation = s.ixevGeneration ∧
      s.checkGeneration.ixevGeneration = s.ixevGeneration ∧ s.checkGeneration.karr = s.karr := by
  unfold RecvCtx.checkGeneration
  split_ifs with stale
  · exact ⟨⟨Nat.le_refl _, fun _ place member => nomatch member⟩, rfl, rfl, rfl⟩
  · exact ⟨credit, (not_not.1 stale).symm, rfl, rfl⟩

theorem Credit.recvDone (credit : Credit s) (len : Nat) :
    Credit (s.recvDone len) ∧ (s.recvDone len).credited = s.credited + len := by
  obtain ⟨checked, generation, same, batch⟩ := credit.checkGeneration
  obtain ⟨g, desc, karr, frame⟩ := recvDone_frame s len
  have submitted : (s.recvDone len).submitted = s.submitted := by rw [frame]
  unfold credited
  rw [submitted, map_append, sum_append, map_append, sum_append]
  unfold RecvCtx.recvDone
  cases desc : s.checkGeneration.recvDoneDesc with
  | none =>
    simp only [desc]
    refine ⟨⟨checked.past, fun _ place member => ⟨len, ?_⟩⟩, ?_⟩
    · obtain rfl := Option.some.inj member
      exact getElem?_concat_length
    · rw [batch, map_append, sum_append]
      simp only [map_cons, map_nil, sum_cons, sum_nil, RecvDesc.len]
      omega
  | some place =>
    simp only [desc]
    obtain ⟨old, there⟩ := checked.current (generation.trans same.symm) place desc
    refine ⟨⟨checked.past, fun _ place' member => ?_⟩, ?_⟩
    · obtain rfl : place = place' := Option.some.inj member
      exact ⟨old + len, by simp [there, RecvDesc.len]⟩
    · rw [sum_modify len there, batch]
      omega

/-- What holds between two calls on a live connection. -/
structure Delivered (s : RecvCtx) : Prop where
  intact : Intact s
  alive : s.isDead = false
  running : s.exited = false
  stream : s.received.flatten = s.returned ++ s.unread.flatten
  credit : Credit s
  credited : s.credited = s.returned.length

theorem Delivered.init (recv : Nat → List UInt8) (generation : Nat) (karr : List Unit) :
    Delivered (init recv generation karr) where
  intact := Intact.init recv generation karr
  alive := rfl
  running := rfl
  stream := rfl
  credit := ⟨Nat.zero_le _, fun _ _ member => nomatch member⟩
  credited := by
    show (([] ++ karr.map fun _ => RecvDesc.other).map RecvDesc.len).sum = 0
    simp [RecvDesc.len]

theorem Delivered.left (delivered : Delivered s) :
    s.unread.flatten.length = s.received.flatten.length - s.returned.length := by
  rw [delivered.stream, length_append]
  omega

theorem Delivered.returns {t bytes} (delivered : Delivered s) (moved : Moves s t) (intact : Intact t)
    (split : s.unread.flatten = bytes ++ t.unread.flatten) :
    Delivered { t.recvDone bytes.length with returned := s.returned ++ bytes } := by
  have credit : Credit t := by
    obtain ⟨recv, head, consumed, cut, rfl⟩ := moved
    exact ⟨delivered.credit.past, delivered.credit.current⟩
  obtain ⟨kept, added⟩ := credit.recvDone bytes.length
  obtain ⟨generation, desc, karr, frame⟩ := recvDone_frame t bytes.length
  rw [frame] at kept added ⊢
  obtain ⟨recv, head, consumed, cut, rfl⟩ := moved
  refine ⟨intact.congr rfl, delivered.alive, delivered.running, ?_, ⟨kept.past, kept.current⟩, ?_⟩
  · show s.received.flatten = s.returned ++ bytes ++ _
    rw [delivered.stream, split, append_assoc]
    rfl
  · show _ = (s.returned ++ bytes).length
    rw [length_append, ← delivered.credited]
    exact added

theorem Delivered.ixevRecv (delivered : Delivered s) (len : Nat) :
    Delivered (s.ixevRecv len).2 ∧
      (0 < min len s.unread.flatten.length → (s.ixevRecv len).1 = .ok (min len s.unread.flatten.length)) := by
  obtain ⟨bytes, queue, kept, moved⟩ := recvLoop_full len delivered.intact
  rw [Server.ixevRecv_bytes] at bytes
  have rest := congrArg flatten queue
  rw [Server.ixevRecv_rest] at rest
  have read : s.ixevRecv len = if (recvLoop (2 ^ 16) s len).1.length = 0
      then (.error .eagain, (recvLoop (2 ^ 16) s len).2)
      else (.ok (recvLoop (2 ^ 16) s len).1.length,
        { (recvLoop (2 ^ 16) s len).2.recvDone (recvLoop (2 ^ 16) s len).1.length with
          returned := s.returned ++ (recvLoop (2 ^ 16) s len).1 }) := by
    rw [RecvCtx.ixevRecv, if_neg (by rw [delivered.alive]; exact Bool.false_ne_true)]
  rw [read]
  -- from here on the state after the loop is any that differs as `moved` says
  generalize recvLoop (2 ^ 16) s len = loop at bytes rest kept moved
  obtain ⟨got, t⟩ := loop
  dsimp only at bytes rest kept moved ⊢
  have split : s.unread.flatten = got ++ t.unread.flatten := by rw [rest, bytes, take_append_drop]
  have count : got.length = min len s.unread.flatten.length := by rw [bytes, length_take]
  split_ifs with nothing
  · rw [length_eq_zero_iff.1 nothing, nil_append] at split
    have stream := delivered.stream
    rw [split] at stream
    obtain ⟨recv, head, consumed, cut, rfl⟩ := moved
    refine ⟨⟨kept, delivered.alive, delivered.running, stream, ⟨delivered.credit.past, delivered.credit.current⟩, delivered.credited⟩,
      fun some => ?_⟩
    exact absurd (count.symm.trans nothing) (Nat.ne_of_gt some)
  · exact ⟨delivered.returns moved kept split, fun _ => congrArg Except.ok count⟩

/-- The connection stays alive and keeps two slots free. -/
def Spare (s : RecvCtx) : RecvOp → Prop
  | .recv _ => s.backlog + 1 ≤ ixevRecvDepth - 2
  | .dead => False
  | _ => True

theorem Delivered.ixevTcpRecv {segment} (delivered : Delivered s) (space : s.backlog + 1 < ixevRecvDepth) :
    Delivered (s.ixevTcpRecv segment) := by
  have intact : Intact (s.ixevTcpRecv segment) := delivered.intact.ixevTcpRecv (.inr space)
  rw [delivered.intact.stores space] at intact ⊢
  refine ⟨intact, delivered.alive, delivered.running, ?_, ⟨delivered.credit.past, delivered.credit.current⟩,
    delivered.credited⟩
  rw [delivered.intact.unread_snoc]
  show (s.received ++ [segment]).flatten = s.returned ++ _
  rw [flatten_append, flatten_append, delivered.stream, append_assoc]

theorem Delivered.next (delivered : Delivered s) {op} (spare : s.Spare op) : Delivered (s.next op) := by
  cases op with
  | recv segment => exact delivered.ixevTcpRecv (Nat.lt_of_le_of_lt spare (by decide))
  | read len => exact (delivered.ixevRecv len).1
  | dead => exact spare.elim
  | other =>
    refine ⟨delivered.intact.congr rfl, delivered.alive, delivered.running, delivered.stream, ⟨delivered.credit.past, ?_⟩, ?_⟩
    · intro now place member
      obtain ⟨len, there⟩ := delivered.credit.current now place member
      obtain ⟨inside, -⟩ := List.getElem?_eq_some_iff.1 there
      exact ⟨len, (List.getElem?_append_left inside).trans there⟩
    · show ((s.submitted ++ (s.karr ++ [RecvDesc.other])).map RecvDesc.len).sum = _
      rw [← List.append_assoc, List.map_append, List.sum_append]
      exact delivered.credited
  | wait =>
    refine ⟨delivered.intact.congr rfl, delivered.alive, delivered.running, delivered.stream,
      ⟨Nat.le_succ_of_le delivered.credit.past, ?_⟩, ?_⟩
    · intro now
      have past := delivered.credit.past
      change s.generation = s.ixevGeneration + 1 at now
      omega
    · show ((s.submitted ++ s.karr ++ []).map RecvDesc.len).sum = _
      rw [List.append_nil]
      exact delivered.credited

end Reflex.Ixev.RecvCtx
