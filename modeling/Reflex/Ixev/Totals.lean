import Reflex.Ixev.Transmit

/-!
# Counting the bytes of a connection

What the sending functions do, as a rule over their rounds (`ixevSend_rule`), and the part of their
bookkeeping that only counts: the number of entries, the two running totals and the window.
-/

namespace Reflex.Ixev
open Lib List

/-- What the entries describe, with these buffers. -/
def medium (bufs : Nat → IxevBuf) : Medium Place.shift UInt8 where
  read := Place.read bufs
  length_read place n := by cases place <;> exact slice_length _ _ _
  take_read place n k within := by
    have split : ∀ (m : Nat → UInt8) pos, (slice m pos n).take k = slice m pos k := by
      intro m pos
      have parts := slice_add m pos k (n - k)
      rw [Nat.add_sub_cancel' within] at parts
      rw [parts, List.take_left' (slice_length _ _ _)]
    cases place <;> exact split _ _
  drop_read place n k := by cases place <;> exact slice_drop _ _ _ _

/-- The bytes that were accepted and not taken yet. -/
def IxevCtx.unsent (ctx : IxevCtx) : List UInt8 := gather (medium ctx.bufs) ctx.send

section Rule

variable {ctx : IxevCtx} {data : List UInt8}

theorem ixevBufStore_le (buf : IxevBuf) (data : List UInt8) : (ixevBufStore buf data).1 ≤ data.length := Nat.min_le_left _ _

theorem fillBuffer_snd (ctx : IxevCtx) (b : Nat) (data : List UInt8) (soFar : Nat) :
    (fillBuffer ctx b data soFar).2 = soFar + (ixevBufStore (ixevBufAlloc (ctx.bufs b)) data).1 := rfl

theorem fillBuffer_holds {b b' soFar} : (fillBuffer ctx b data soFar).1.Holds b' ↔ ctx.Holds b' ∨ b' = b := by
  unfold IxevCtx.Holds
  rw [fillBuffer, mem_append, mem_singleton, RefPtr.buf.injEq]

/-- What a round of the cold path keeps, with a buffer that is not held. -/
def KeptByFill (I : Nat → List UInt8 → IxevCtx → Prop) : Prop :=
  ∀ soFar data ctx b, I soFar data ctx → data ≠ [] → ctx.send.length < ixevSendDepth → ¬ ctx.Holds b →
    I (fillBuffer ctx b data soFar).2 (data.drop (ixevBufStore (ixevBufAlloc (ctx.bufs b)) data).1) (fillBuffer ctx b data soFar).1

theorem coldPath_rule {I} (fill : KeptByFill I)
    (fails : ∀ soFar data ctx, I soFar data ctx → I soFar data { ctx with curBuf := none })
    (room : Nat) {pool : List Nat} {soFar} (space : ctx.send.length + room ≤ ixevSendDepth)
    (distinct : pool.Nodup) (free : ∀ b ∈ pool, ¬ ctx.Holds b) (start : I soFar data ctx) :
    ∃ left, I (coldPath room pool ctx data soFar).2 left (coldPath room pool ctx data soFar).1 := by
  induction room generalizing pool ctx data soFar with
  | zero => exact ⟨data, start⟩
  | succ room ih =>
    cases pool with
    | nil =>
      rw [coldPath]
      split_ifs
      · exact ⟨data, start⟩
      · exact ⟨data, fails _ _ _ start⟩
    | cons b pool =>
      rw [coldPath]
      split_ifs with done
      · exact ⟨data, start⟩
      · obtain ⟨new, distinct⟩ := nodup_cons.1 distinct
        have filled := fill soFar data ctx b start done (by omega) (free b mem_cons_self)
        have entries : (fillBuffer ctx b data soFar).1.send.length = ctx.send.length + 1 := length_append
        simp only
        rw [fillBuffer_snd, Nat.add_sub_cancel_left]
        rw [fillBuffer_snd] at filled
        refine ih (by omega) distinct (fun c member held => ?_) filled
        rcases fillBuffer_holds.1 held with held | same
        · exact free c (mem_cons_of_mem b member) held
        · exact new (same ▸ member)

theorem hotPath_cases (ctx : IxevCtx) (data : List UInt8) :
    hotPath ctx data = (ctx, 0) ∨ ∃ b, ctx.curBuf = some b ∧ ctx.send ≠ [] ∧ hotPath ctx data = growBuffer ctx b data := by
  unfold hotPath
  cases ctx.curBuf with
  | none => exact .inl rfl
  | some b =>
    simp only
    split_ifs with empty
    · exact .inl rfl
    · exact .inr ⟨b, rfl, empty, rfl⟩

theorem hotPath_frame (ctx : IxevCtx) (data : List UInt8) :
    (hotPath ctx data).1.refs = ctx.refs ∧ (hotPath ctx data).1.send.length = ctx.send.length := by
  rcases hotPath_cases ctx data with same | ⟨b, -, -, grown⟩
  · rw [same]
    exact ⟨rfl, rfl⟩
  · rw [grown]
    exact ⟨rfl, length_growLast _ _⟩

/-- A property that the hot path and every round of the cold path keep holds after `ixev_send`,
but for the total. -/
theorem ixevSend_rule {I} {pool : List Nat}
    (hot : ∀ chunk, I 0 chunk ctx → I (hotPath ctx chunk).2 (chunk.drop (hotPath ctx chunk).2) (hotPath ctx chunk).1)
    (fill : KeptByFill I) (fails : ∀ soFar data ctx, I soFar data ctx → I soFar data { ctx with curBuf := none })
    (depth : ctx.send.length ≤ ixevSendDepth) (distinct : pool.Nodup) (free : ∀ b ∈ pool, ¬ ctx.Holds b)
    (start : I 0 (data.take (ixevWindowLen ctx data.length)) ctx) :
    (ixevSend ctx data pool).2 = ctx ∨
      ∃ soFar left cold, I soFar left cold ∧
        ((ixevSend ctx data pool).2 = cold ∧ soFar = 0 ∨
          (ixevSend ctx data pool).2 = { cold with sendTotal := wadd 64 cold.sendTotal soFar }) := by
  have begun := hot _ start
  rw [ixevSend]
  generalize data.take (ixevWindowLen ctx data.length) = chunk at begun ⊢
  obtain ⟨refs, length⟩ := hotPath_frame ctx chunk
  obtain ⟨left, kept⟩ := coldPath_rule fill fails (ixevSendDepth - (hotPath ctx chunk).1.send.length) (by omega) distinct
    (fun b member => by rw [IxevCtx.Holds, refs]; exact free b member) begun
  split_ifs with dead full
  · exact .inl rfl
  · exact .inl rfl
  · refine .inr ⟨_, left, _, kept, ?_⟩
    simp only
    split_ifs with none
    · exact .inl ⟨rfl, none⟩
    · exact .inr rfl

end Rule

/-- The counters, while `soFar` bytes are not in the total yet. -/
structure Counted (soFar : Nat) (ctx : IxevCtx) : Prop where
  depth : ctx.send.length ≤ ixevSendDepth
  word : ctx.sendTotal < 2 ^ 64
  total : wadd 64 ctx.sendTotal soFar = ctx.accepted.length % 2 ^ 64
  sent : ctx.sentTotal = ctx.acked % 2 ^ 64
  acked : ctx.acked ≤ ctx.taken.length
  volume : ctx.taken.length + volume ctx.send = ctx.accepted.length
  window : ctx.accepted.length ≤ ctx.acked + ixevSendWinSize

section Counters

variable {ctx : IxevCtx} {data : List UInt8} {soFar : Nat}

theorem Counted.start (bufs : Nat → IxevBuf) : Counted 0 (ixevCtxInit bufs) where
  depth := Nat.zero_le _
  word := Nat.two_pow_pos 64
  total := rfl
  sent := rfl
  acked := le_rfl
  volume := rfl
  window := Nat.zero_le _

def IxevCtx.counters (ctx : IxevCtx) : List (SgEntry Place) × Nat × Nat × List Sent × List UInt8 × Nat :=
  (ctx.send, ctx.sendTotal, ctx.sentTotal, ctx.accepted, ctx.taken, ctx.acked)

theorem Counted.congr {ctx' : IxevCtx} (counted : Counted soFar ctx) (same : ctx'.counters = ctx.counters) : Counted soFar ctx' := by
  simp only [IxevCtx.counters, Prod.mk.injEq] at same
  obtain ⟨send, sendTotal, sentTotal, accepted, taken, acked⟩ := same
  constructor
  · rw [send]
    exact counted.depth
  · rw [sendTotal]
    exact counted.word
  · rw [sendTotal, accepted]
    exact counted.total
  · rw [sentTotal, acked]
    exact counted.sent
  · rw [acked, taken]
    exact counted.acked
  · rw [taken, send, accepted]
    exact counted.volume
  · rw [accepted, acked]
    exact counted.window

theorem Counted.windowLen (counted : Counted 0 ctx) (len : Nat) :
    ixevWindowLen ctx len = min (ixevSendWinSize - (ctx.accepted.length - ctx.acked)) len := by
  have total := counted.total
  have sent := counted.sent
  have acked := counted.acked
  have volume := counted.volume
  have window := counted.window
  unfold ixevWindowLen wadd wsub ixevSendWinSize at *
  omega

theorem Counted.outstanding (counted : Counted 0 ctx) : wsub 64 ctx.sendTotal ctx.sentTotal = ctx.accepted.length - ctx.acked := by
  have total := counted.total
  have sent := counted.sent
  have acked := counted.acked
  have volume := counted.volume
  have window := counted.window
  have word : ctx.sendTotal % 2 ^ 64 = ctx.accepted.length % 2 ^ 64 := total
  unfold wsub ixevSendWinSize at *
  omega

theorem Counted.accept (ret : Nat) (counted : Counted soFar ctx) (ctx' : IxevCtx) (depth : ctx'.send.length ≤ ixevSendDepth)
    (total : ctx'.sendTotal = ctx.sendTotal) (sent : ctx'.sentTotal = ctx.sentTotal) (acked : ctx'.acked = ctx.acked)
    (taken : ctx'.taken = ctx.taken) (entries : Lib.volume ctx'.send = Lib.volume ctx.send + ret)
    (accepted : ctx'.accepted.length = ctx.accepted.length + ret)
    (window : ctx.accepted.length + ret ≤ ctx.acked + ixevSendWinSize) : Counted (soFar + ret) ctx' := by
  have volume := counted.volume
  refine ⟨depth, total.trans_lt counted.word, ?_, ?_, ?_, ?_, ?_⟩
  · have before := counted.total
    rw [total, accepted]
    unfold wadd at *
    omega
  · rw [sent, acked]
    exact counted.sent
  · rw [acked, taken]
    exact counted.acked
  · rw [taken, entries, accepted]
    omega
  · rw [accepted, acked]
    exact window

theorem Counted.settle (counted : Counted soFar ctx) : Counted 0 { ctx with sendTotal := wadd 64 ctx.sendTotal soFar } := by
  refine ⟨counted.depth, wadd_lt _ _ _, ?_, counted.sent, counted.acked, counted.volume, counted.window⟩
  have total := counted.total
  show wadd 64 (wadd 64 ctx.sendTotal soFar) 0 = ctx.accepted.length % 2 ^ 64
  unfold wadd at *
  omega

theorem take_store_length (buf : IxevBuf) (data : List UInt8) :
    (data.take (ixevBufStore buf data).1).length = (ixevBufStore buf data).1 := by
  rw [length_take]
  exact Nat.min_eq_left (ixevBufStore_le buf data)

theorem growBuffer_accepted (ctx : IxevCtx) (b : Nat) (data : List UInt8) :
    (growBuffer ctx b data).1.accepted.length = ctx.accepted.length + (growBuffer ctx b data).2 := by
  rw [growBuffer, length_append, length_map, take_store_length]

theorem fillBuffer_accepted (ctx : IxevCtx) (b : Nat) (data : List UInt8) (soFar : Nat) :
    (fillBuffer ctx b data soFar).1.accepted.length = ctx.accepted.length + (ixevBufStore (ixevBufAlloc (ctx.bufs b)) data).1 := by
  rw [fillBuffer, length_append, length_map, take_store_length]

theorem Counted.growBuffer {b} (counted : Counted 0 ctx) (some : ctx.send ≠ [])
    (fits : ctx.accepted.length + data.length ≤ ctx.acked + ixevSendWinSize) :
    Counted (growBuffer ctx b data).2 (growBuffer ctx b data).1 := by
  have stored := ixevBufStore_le (ctx.bufs b) data
  have count := counted.accept _ (Ixev.growBuffer ctx b data).1 ((length_growLast _ _).le.trans counted.depth) rfl rfl rfl rfl
    (volume_growLast _ some) (growBuffer_accepted ctx b data)
    (by show ctx.accepted.length + (ixevBufStore (ctx.bufs b) data).1 ≤ _; omega)
  rwa [Nat.zero_add] at count

theorem Counted.fillBuffer {b} (counted : Counted soFar ctx) (room : ctx.send.length < ixevSendDepth)
    (fits : ctx.accepted.length + data.length ≤ ctx.acked + ixevSendWinSize) :
    Counted (fillBuffer ctx b data soFar).2 (fillBuffer ctx b data soFar).1 := by
  have stored := ixevBufStore_le (ixevBufAlloc (ctx.bufs b)) data
  apply counted.accept _ (Ixev.fillBuffer ctx b data soFar).1 _ rfl rfl rfl rfl _ (fillBuffer_accepted ctx b data soFar) (by omega)
  · rw [Ixev.fillBuffer, length_append]
    exact room
  · rw [Ixev.fillBuffer, volume_append, volume_singleton]

/-- The invariant of `ixev_send`: what is left of its bytes fits into the window. -/
def Within (soFar : Nat) (data : List UInt8) (ctx : IxevCtx) : Prop :=
  Counted soFar ctx ∧ ctx.accepted.length + data.length ≤ ctx.acked + ixevSendWinSize

theorem Within.start (counted : Counted 0 ctx) (data : List UInt8) : Within 0 (data.take (ixevWindowLen ctx data.length)) ctx := by
  refine ⟨counted, ?_⟩
  have window := counted.window
  have volume := counted.volume
  have acked := counted.acked
  rw [length_take, counted.windowLen]
  omega

theorem Within.hotPath {chunk} (within : Within 0 chunk ctx) :
    Within (hotPath ctx chunk).2 (chunk.drop (hotPath ctx chunk).2) (hotPath ctx chunk).1 := by
  rcases hotPath_cases ctx chunk with same | ⟨b, -, some, grown⟩
  · rw [same]
    exact within
  · obtain ⟨counted, fits⟩ := within
    have stored : (growBuffer ctx b chunk).2 ≤ chunk.length := ixevBufStore_le _ _
    rw [grown]
    refine ⟨counted.growBuffer some fits, ?_⟩
    rw [growBuffer_accepted, length_drop]
    show _ ≤ ctx.acked + ixevSendWinSize
    omega

theorem Within.fillBuffer : KeptByFill Within := by
  intro soFar data ctx b within _ room _
  obtain ⟨counted, fits⟩ := within
  have stored := ixevBufStore_le (ixevBufAlloc (ctx.bufs b)) data
  refine ⟨counted.fillBuffer room fits, ?_⟩
  rw [fillBuffer_accepted, length_drop]
  show _ ≤ ctx.acked + ixevSendWinSize
  omega

theorem Counted.ixevSendZc (counted : Counted 0 ctx) (mem : Nat → UInt8) (len : Nat) : Counted 0 (ixevSendZc ctx mem len).2 := by
  have window := counted.windowLen len
  have acked := counted.acked
  have volume := counted.volume
  have bound := counted.window
  rw [Ixev.ixevSendZc]
  split_ifs with dead full deep
  · exact counted
  · exact counted
  · exact counted
  · generalize ixevWindowLen ctx len = n at window
    have count := counted.accept n { ctx with
        curBuf := none, send := ctx.send ++ [⟨.app mem 0, n⟩], sendvDesc := some (ctx.send.length + 1)
        accepted := ctx.accepted ++ (slice mem 0 n).map fun byte => ⟨byte, none⟩ }
      (by rw [length_append]; exact not_le.1 deep) rfl rfl rfl rfl (by rw [volume_append, volume_singleton])
      (by rw [length_append, length_map, slice_length]) (by omega)
    rw [Nat.zero_add] at count
    exact count.settle

end Counters

theorem tcpWrites_beginning (bufs : Nat → IxevBuf) (sndBuf : Nat) (writes : List Bool) (es : List (SgEntry Place)) :
    tcpWrites bufs sndBuf writes es <+: gather (medium bufs) es := by
  induction es generalizing sndBuf writes with
  | nil =>
    rw [tcpWrites]
    exact nil_prefix
  | cons e es ih =>
    have whole : gather (medium bufs) (e :: es) = e.base.read bufs e.len ++ gather (medium bufs) es := flatMap_cons
    have part : ∀ n ≤ e.len, e.base.read bufs n <+: gather (medium bufs) (e :: es) := by
      intro n within
      have first : (e.base.read bufs e.len).take n = e.base.read bufs n := (medium bufs).take_read e.base e.len n within
      rw [whole, ← first]
      exact ( take_prefix _ _).trans (prefix_append _ _)
    rw [tcpWrites.eq_def]
    simp only
    split_ifs with full none none
    · exact nil_prefix
    · split
      · exact part _ full.le
      · exact nil_prefix
    · exact nil_prefix
    · split
      · rw [whole, prefix_append_right_inj]
        exact ih _ _
      · exact nil_prefix

section Steps

variable {ctx : IxevCtx}

theorem sendv_takes (ctx : IxevCtx) (nrents sndBuf : Nat) (writes : List Bool) :
    tcpWrites ctx.bufs sndBuf writes (ctx.send.take (min nrents maxSgEntries)) <+: ctx.unsent := by
  apply (tcpWrites_beginning _ _ _ _).trans
  rw [IxevCtx.unsent]
  conv_rhs => rw [← take_append_drop (min nrents maxSgEntries) ctx.send, gather_append]
  exact prefix_append _ _

theorem Counted.sendvBatch (counted : Counted 0 ctx) (nrents : Nat) (alive : Bool) (sndBuf : Nat) (writes : List Bool) :
    Counted 0 (sendvBatch ctx nrents alive sndBuf writes) := by
  have acked := counted.acked
  have volume := counted.volume
  rw [Ixev.sendvBatch]
  split_ifs
  · have taken := (sendv_takes ctx nrents sndBuf writes).length_le
    generalize tcpWrites ctx.bufs sndBuf writes (ctx.send.take (min nrents maxSgEntries)) = bytes at taken
    rw [IxevCtx.unsent, length_gather] at taken
    refine ⟨(length_consume_le _ _).trans counted.depth, counted.word, counted.total, counted.sent, ?_, ?_, counted.window⟩
    · show ctx.acked ≤ (ctx.taken ++ bytes).length
      rw [length_append]
      omega
    · show (ctx.taken ++ bytes).length + Lib.volume (consume Place.shift bytes.length ctx.send) = ctx.accepted.length
      rw [length_append, volume_consume taken]
      omega
  · exact counted.congr rfl

theorem Counted.ixevTcpSent {len} (counted : Counted 0 ctx) (taken : ctx.acked + len ≤ ctx.taken.length) :
    Counted 0 (ixevTcpSent ctx len) := by
  have window := counted.window
  refine ⟨counted.depth, counted.word, counted.total, ?_, taken, counted.volume, ?_⟩
  · show wadd 64 ctx.sentTotal len = (ctx.acked + len) % 2 ^ 64
    rw [counted.sent]
    unfold wadd
    omega
  · show ctx.accepted.length ≤ ctx.acked + len + ixevSendWinSize
    omega

end Steps

end Reflex.Ixev
