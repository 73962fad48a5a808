import Reflex.Ixev.Custody

/-!
# What a connection sends, and when its buffers are released

The results about runs of the sending functions, and the run that shows why the number of
accepted bytes has to be bounded: on a connection that has sent `2 ^ 64 - 10` bytes, the
position of the next 20 bytes is 10, and their buffer is released with the next byte that is
acknowledged.
-/

namespace Reflex.Ixev
open Lib List

/-- A call of `ixev_send` that needs one new buffer. -/
theorem ixevSend_oneBuffer {ctx : IxevCtx} (data : List UInt8) (b : Nat) (alive : ctx.isDead = false) (cur : ctx.curBuf = none)
    (room : ctx.send.length < ixevSendDepth) (window : ixevWindowLen ctx data.length = data.length) (more : data ≠ [])
    (small : data.length ≤ bufSize) :
    (ixevSend ctx data [b]).2 = { ctx with
      curBuf := some b
      send := ctx.send ++ [⟨.payload b 0, data.length⟩]
      sendvDesc := some (ctx.send.length + 1)
      sendTotal := wadd 64 ctx.sendTotal data.length
      refs := ctx.refs ++ [.buf b]
      bufs := Function.update ctx.bufs b
        ⟨data.length, ⟨wadd 64 ctx.sendTotal data.length, ctx.marks.length⟩, store (ctx.bufs b).payload 0 data⟩
      accepted := ctx.accepted ++ data.map fun byte => ⟨byte, some ctx.marks.length⟩
      marks := ctx.marks ++ [ctx.accepted.length + data.length] } := by
  obtain ⟨n, size, stored⟩ := ixevBufStore_eq (ixevBufAlloc (ctx.bufs b)) (Nat.zero_le _) data
  have all : n = data.length := size.trans (Nat.min_eq_left small)
  have none : ¬ data.length = 0 := fun empty => more (length_eq_zero_iff.1 empty)
  obtain ⟨k, slots⟩ : ∃ k, ixevSendDepth - ctx.send.length = k + 1 := Nat.exists_eq_succ_of_ne_zero (by omega)
  have hot : hotPath ctx data = (ctx, 0) := by rw [hotPath, cur]
  have rest : ∀ c, coldPath k [] c [] data.length = (c, data.length) := fun c => by cases k <;> rfl
  rw [ixevSend, window, if_neg (by rw [alive]; exact Bool.false_ne_true), if_neg none, take_length, hot]
  simp only [slots, drop_zero]
  rw [coldPath, if_neg more, fillBuffer, stored, all]
  simp only [ixevBufAlloc, Nat.zero_add, Nat.sub_zero, drop_length, take_length, rest, none, if_false]

/-- Everything that was accepted was sent and acknowledged. -/
structure Quiet (n : Nat) (s : IxevCtx) : Prop where
  alive : s.isDead = false
  live : s.released = false
  send : s.send = []
  refs : s.refs = []
  curBuf : s.curBuf = none
  total : s.sendTotal = n % 2 ^ 64
  sent : s.sentTotal = n % 2 ^ 64
  accepted : s.accepted.length = n
  taken : s.taken = s.accepted.map Sent.byte
  acked : s.acked = n

section Drift

variable {n : Nat} {s : IxevCtx}

theorem Quiet.windowLen (quiet : Quiet n s) (len : Nat) (small : len ≤ ixevSendWinSize) : ixevWindowLen s len = len := by
  rw [ixevWindowLen, quiet.total, quiet.sent]
  unfold wadd wsub ixevSendWinSize at *
  omega

theorem Quiet.length_taken (quiet : Quiet n s) : s.taken.length = n := by
  rw [quiet.taken, length_map, quiet.accepted]

theorem Quiet.round (quiet : Quiet n s) :
    ∃ t, Run transmitStep s [.sendZc (fun _ => 0) 1, .sendv true 1 [true], .tcpSent 1] t ∧ Quiet (n + 1) t := by
  have window := quiet.windowLen 1 (by decide)
  have first : s.next (.sendZc (fun _ => 0) 1) = { s with
      curBuf := none
      send := [⟨.app (fun _ => 0) 0, 1⟩]
      sendvDesc := some 1
      sendTotal := wadd 64 s.sendTotal 1
      accepted := s.accepted ++ [⟨0, none⟩] } := by
    rw [IxevCtx.next, ixevSendZc, window, quiet.alive, quiet.send]
    rfl
  have second : (s.next (.sendZc (fun _ => 0) 1)).next (.sendv true 1 [true]) = { s with
      curBuf := none
      send := []
      sendvDesc := none
      sendTotal := wadd 64 s.sendTotal 1
      accepted := s.accepted ++ [⟨0, none⟩]
      taken := s.taken ++ [0] } := by
    rw [first]
    rfl
  have live : ((s.next (.sendZc (fun _ => 0) 1)).next (.sendv true 1 [true])).released = false := by
    rw [second]
    exact quiet.live
  have total : wadd 64 (n % 2 ^ 64) 1 = (n + 1) % 2 ^ 64 := by
    unfold wadd
    omega
  refine ⟨_, .cons ⟨⟨quiet.live, trivial⟩, rfl⟩ (.cons ⟨⟨?_, trivial⟩, rfl⟩ (.single ⟨⟨live, ?_⟩, rfl⟩)), ?_⟩
  · rw [first]
    exact quiet.live
  · rw [second]
    show s.acked + 1 ≤ (s.taken ++ [0]).length
    rw [length_append, quiet.acked, quiet.length_taken]
    rfl
  · rw [second]
    have empty : s.refs.dropWhile (fun p => decide ((p.ref s.bufs).sendPos ≤ wadd 64 s.sentTotal 1)) = [] := by rw [quiet.refs]; rfl
    refine ⟨quiet.alive, quiet.live, rfl, empty, ite_self _, ?_, ?_, ?_, ?_, ?_⟩
    · show wadd 64 s.sendTotal 1 = _
      rw [quiet.total, total]
    · show wadd 64 s.sentTotal 1 = _
      rw [quiet.sent, total]
    · show (s.accepted ++ [_]).length = _
      rw [length_append, quiet.accepted]
      rfl
    · show s.taken ++ [0] = (s.accepted ++ [(⟨0, none⟩ : Sent)]).map Sent.byte
      rw [map_append, quiet.taken]
      rfl
    · exact congrArg (· + 1) quiet.acked

theorem quiet_after (bufs : Nat → IxevBuf) (n : Nat) : ∃ ops s, Run transmitStep (ixevCtxInit bufs) ops s ∧ Quiet n s := by
  induction n with
  | zero => exact ⟨[], _, .nil _, rfl, rfl, rfl, rfl, rfl, rfl, rfl, rfl, rfl, rfl⟩
  | succ n ih =>
    obtain ⟨ops, s, run, quiet⟩ := ih
    obtain ⟨t, more, quiet'⟩ := quiet.round
    exact ⟨_, t, run.append more, quiet'⟩

/-- After 20 bytes whose position has wrapped, of which one was sent and acknowledged. -/
structure Drifted (n : Nat) (s t : IxevCtx) : Prop where
  alive : t.isDead = false
  live : t.released = false
  send : t.send = [⟨.payload 0 1, 19⟩]
  refs : t.refs = []
  curBuf : t.curBuf = none
  total : t.sendTotal = 10
  sent : t.sentTotal = 2 ^ 64 - 9
  accepted : t.accepted = s.accepted ++ List.replicate 20 ⟨1, some s.marks.length⟩
  marks : t.marks = s.marks ++ [n + 20]
  taken : t.taken = s.taken ++ [1]
  acked : t.acked = n + 1
  fired : t.fired = s.fired ++ [s.marks.length]

theorem Quiet.drifts (quiet : Quiet n s) (wrap : n % 2 ^ 64 = 2 ^ 64 - 10) :
    ∃ t, Run transmitStep s [.send (replicate 20 1) [0], .sendv true 1 [true], .tcpSent 1] t ∧ Drifted n s t := by
  have window := quiet.windowLen 20 (by decide)
  have position : wadd 64 s.sendTotal 20 = 10 := by
    rw [quiet.total, wrap]
    decide
  let filled : IxevCtx := { s with
    curBuf := some 0
    send := [⟨.payload 0 0, 20⟩]
    sendvDesc := some 1
    sendTotal := 10
    refs := [.buf 0]
    bufs := Function.update s.bufs 0 ⟨20, ⟨10, s.marks.length⟩, store (s.bufs 0).payload 0 (replicate 20 1)⟩
    accepted := s.accepted ++ replicate 20 ⟨1, some s.marks.length⟩
    marks := s.marks ++ [n + 20] }
  have first : s.next (.send (replicate 20 1) [0]) = filled := by
    have sent := ixevSend_oneBuffer (replicate 20 1) 0 quiet.alive quiet.curBuf (by rw [quiet.send]; decide)
      (by rw [length_replicate]; exact window) (by decide) (by decide)
    rw [IxevCtx.next, sent, length_replicate, position, quiet.send, quiet.refs, quiet.accepted, map_replicate]
    rfl
  have second : (s.next (.send (replicate 20 1) [0])).next (.sendv true 1 [true]) =
      { filled with send := [⟨.payload 0 1, 19⟩], sendvDesc := none, taken := s.taken ++ [1] } := by
    rw [first]
    rfl
  have late : wadd 64 s.sentTotal 1 = 2 ^ 64 - 9 := by
    rw [quiet.sent, wrap]
    decide
  refine ⟨_, .cons ⟨⟨quiet.live, ?_⟩, rfl⟩ (.cons ⟨⟨?_, trivial⟩, rfl⟩ (.single ⟨⟨?_, ?_⟩, rfl⟩)), ?_⟩
  · refine ⟨nodup_singleton 0, fun b _ held => ?_⟩
    rw [IxevCtx.Holds, quiet.refs] at held
    cases held
  · rw [first]
    exact quiet.live
  · rw [second]
    exact quiet.live
  · rw [second]
    show s.acked + 1 ≤ (s.taken ++ [1]).length
    rw [length_append, quiet.acked, quiet.length_taken]
    rfl
  · rw [second, IxevCtx.next, ixevTcpSent, runCallbacks]
    simp only [filled, late]
    exact ⟨quiet.alive, quiet.live, rfl, rfl, rfl, rfl, rfl, rfl, rfl, rfl, congrArg (· + 1) quiet.acked, rfl⟩

end Drift

def blankBufs : Nat → IxevBuf := fun _ => ⟨0, ⟨0, 0⟩, fun _ => 0⟩

/-- While fewer than `2 ^ 64` bytes were accepted, the callbacks that have run are the first
registered ones, in their order, each once; none ran before the bytes that it waits for were
acknowledged, and the current buffer is held. Those that are left run when the close returns. -/
theorem callbacks_in_order {bufs : Nat → IxevBuf} {ops : List TransmitOp} {s : IxevCtx}
    (run : Run transmitStep (ixevCtxInit bufs) ops s) (fits : s.accepted.length < 2 ^ 64) :
    (s.released = false →
      s.fired ++ s.regs s.refs = List.range s.marks.length ∧ (∀ r ∈ s.fired, DoneBy s.marks s.accepted r s.acked) ∧
        ∀ b, s.curBuf = some b → s.send ≠ [] → s.Holds b) ∧
      (s.released = true → s.fired = List.range s.marks.length) := by
  have sound : Sound s := run.invariant (fun _ _ _ step sound => sound.next step) (.start bufs)
  refine ⟨fun live => ?_, sound.closed fits⟩
  have tracked := sound.tracked fits live
  exact ⟨tracked.order, tracked.done, fun b current _ => (tracked.current b current).held⟩

/-- The callback of a buffer runs with the acknowledgement, one that was added later with the close. -/
theorem callbacks_before_and_at_close :
    let s := ((((ixevCtxInit blankBufs).next (.send [1, 2, 3] [0])).next (.sendv true 3 [true])).next (.tcpSent 3))
    let t := (((s.next (.sendZc (fun _ => 4) 1)).next .addSentCb).next .close).next .closeRet
    s.fired = [0] ∧ (∀ r ∈ s.fired, DoneBy s.marks s.accepted r s.acked) ∧ t.fired = List.range t.marks.length ∧ t.marks.length = 2 := by
  intro s t
  have run : Run transmitStep (ixevCtxInit blankBufs) [.send [1, 2, 3] [0], .sendv true 3 [true], .tcpSent 3] s := by
    refine .cons ⟨⟨rfl, List.nodup_singleton 0, fun b _ held => ?_⟩, rfl⟩ (.cons ⟨⟨by decide +kernel, trivial⟩, rfl⟩
      (.single ⟨⟨by decide +kernel, ?_⟩, rfl⟩))
    · cases held
    · show _ ≤ _
      decide +kernel
  have close : Run transmitStep s [.sendZc (fun _ => 4) 1, .addSentCb, .close, .closeRet] t := by
    refine .cons ⟨⟨by decide +kernel, trivial⟩, rfl⟩ (.cons ⟨⟨by decide +kernel, trivial⟩, rfl⟩
      (.cons ⟨⟨by decide +kernel, ?_⟩, rfl⟩ (.single ⟨⟨by decide +kernel, ?_⟩, rfl⟩)))
    · decide +kernel
    · decide +kernel
  obtain ⟨opened, -⟩ := callbacks_in_order run (by decide +kernel)
  obtain ⟨-, closed⟩ := callbacks_in_order (run.append close) (by decide +kernel)
  exact ⟨by decide +kernel, (opened (by decide +kernel)).2.1, closed (by decide +kernel), by decide +kernel⟩

/-- The callback of a buffer that waits for 20 bytes runs when one of them is acknowledged. -/
theorem callback_before_acknowledgement :
    ∃ bufs ops s, Run transmitStep (ixevCtxInit bufs) ops s ∧ s.released = false ∧
      ∃ r ∈ s.fired, ¬ DoneBy s.marks s.accepted r s.acked := by
  obtain ⟨ops, s, run, quiet⟩ := quiet_after blankBufs (2 ^ 64 - 10)
  obtain ⟨t, drift, drifted⟩ := quiet.drifts (Nat.mod_eq_of_lt (by decide))
  refine ⟨blankBufs, _, t, run.append drift, drifted.live, s.marks.length, ?_, fun done => ?_⟩
  · rw [drifted.fired]
    exact List.mem_append_right _ (List.mem_singleton_self _)
  · have mark : 2 ^ 64 - 10 + 20 ∈ t.marks[s.marks.length]? := by
      rw [drifted.marks, List.getElem?_append_right (Nat.le_refl _), Nat.sub_self]
      rfl
    have early := done.1 _ mark
    rw [drifted.acked] at early
    omega

end Reflex.Ixev
