import Mathlib.Data.List.TakeWhile
import Mathlib.Data.List.Nodup
import Reflex.Ixev.Totals

/-!
# Who holds the buffers of a connection

A copy buffer is held from its allocation until its callback runs. The positions that decide when are running
totals, compared as words, so what follows is about connections that have accepted fewer than `2 ^ 64` bytes.
-/

namespace Reflex.Ixev
open Lib Function List

variable {e : SgEntry Place} {b n : Nat}

/-- What the reference `r` waits for is within the first `n` bytes: those accepted before its
registration, and those copied to its buffer. -/
def DoneBy (marks : List Nat) (accepted : List Sent) (r n : Nat) : Prop :=
  (∀ m ∈ marks[r]?, m ≤ n) ∧ ∀ i, ∀ s ∈ accepted[i]?, s.reg = some r → i < n

/-- An entry that starts at position `start` of the stream, and its buffer. -/
def Backed (refs : List RefPtr) (bufs : Nat → IxevBuf) (start : Nat) (e : SgEntry Place) : Prop :=
  0 < e.len ∧ ∀ b pos, e.base = .payload b pos →
    RefPtr.buf b ∈ refs ∧ start + e.len ≤ (bufs b).ref.sendPos ∧ pos + e.len ≤ (bufs b).len

/-- The current buffer is held, was filled last, and the last entry ends where it does. -/
structure IxevCtx.Current (ctx : IxevCtx) (b : Nat) : Prop where
  held : ctx.Holds b
  last : (ctx.bufs b).ref.sendPos = ctx.accepted.length
  room : (ctx.bufs b).len ≤ bufSize
  entry : ∀ e ∈ ctx.send.getLast?, ∃ pos, e.base = .payload b pos ∧ pos + e.len = (ctx.bufs b).len

structure Tracked (ctx : IxevCtx) : Prop where
  stream : ctx.taken ++ ctx.unsent = ctx.accepted.map Sent.byte
  order : ctx.fired ++ ctx.regs ctx.refs = List.range ctx.marks.length
  tags : ∀ s ∈ ctx.accepted, ∀ r, s.reg = some r → r < ctx.marks.length
  waits : ∀ p ∈ ctx.refs, (p.ref ctx.bufs).sendPos ≤ ctx.accepted.length ∧
    DoneBy ctx.marks ctx.accepted (p.ref ctx.bufs).reg (p.ref ctx.bufs).sendPos
  done : ∀ r ∈ ctx.fired, DoneBy ctx.marks ctx.accepted r ctx.acked
  entries : Placed (Backed ctx.refs ctx.bufs) ctx.taken.length ctx.send
  current : ∀ b, ctx.curBuf = some b → ctx.Current b

section DoneBy

variable {marks : List Nat} {accepted : List Sent} {r : Nat}

theorem DoneBy.mono {m} (done : DoneBy marks accepted r n) (le : n ≤ m) : DoneBy marks accepted r m :=
  ⟨fun k mark => (done.1 k mark).trans le, fun i s at_ tag => (done.2 i s at_ tag).trans_le le⟩

theorem map_byte (bytes : List UInt8) (t : Option Nat) : (bytes.map fun byte => (⟨byte, t⟩ : Sent)).map Sent.byte = bytes := by
  rw [map_map]
  exact map_id bytes

theorem mem_accepted_append {new : List UInt8} {t : Option Nat} {i : Nat} {s : Sent}
    (at_ : s ∈ (accepted ++ new.map fun byte => ⟨byte, t⟩)[i]?) : s ∈ accepted[i]? ∨ s.reg = t := by
  rw [getElem?_append] at at_
  split_ifs at at_
  · exact Or.inl at_
  · rw [getElem?_map, Option.mem_def, Option.map_eq_some_iff] at at_
    obtain ⟨byte, -, rfl⟩ := at_
    exact Or.inr rfl

theorem DoneBy.append {new : List UInt8} {t : Option Nat} (done : DoneBy marks accepted r n) (other : t ≠ some r) :
    DoneBy marks (accepted ++ new.map fun byte => ⟨byte, t⟩) r n := by
  refine ⟨done.1, fun i s at_ tag => ?_⟩
  rcases mem_accepted_append at_ with old | new
  · exact done.2 i s old tag
  · exact absurd (new.symm.trans tag) other

theorem DoneBy.mark {m} (done : DoneBy marks accepted r n) (older : r < marks.length) : DoneBy (marks ++ [m]) accepted r n := by
  refine ⟨fun k mark => done.1 k ?_, done.2⟩
  rwa [getElem?_append_left older] at mark

theorem DoneBy.all (early : ∀ m ∈ marks[r]?, m ≤ accepted.length) : DoneBy marks accepted r accepted.length := by
  refine ⟨early, fun i s at_ _ => ?_⟩
  obtain ⟨inside, -⟩ := List.getElem?_eq_some_iff.1 at_
  exact inside

end DoneBy

section Basics

variable {ctx : IxevCtx} {p q : RefPtr}

section

variable (tracked : Tracked ctx)
include tracked

theorem Tracked.nodup : (ctx.fired ++ ctx.regs ctx.refs).Nodup := by
  rw [tracked.order]
  exact nodup_range

theorem Tracked.reg_lt (member : p ∈ ctx.refs) : (p.ref ctx.bufs).reg < ctx.marks.length := by
  have numbered : (p.ref ctx.bufs).reg ∈ ctx.fired ++ ctx.regs ctx.refs :=
    mem_append_right _ (mem_map_of_mem (f := fun p => (p.ref ctx.bufs).reg) member)
  rw [tracked.order, mem_range] at numbered
  exact numbered

theorem Tracked.not_fired (member : p ∈ ctx.refs) : (p.ref ctx.bufs).reg ∉ ctx.fired := fun fired =>
  (disjoint_of_nodup_append tracked.nodup) fired (mem_map_of_mem (f := fun p => (p.ref ctx.bufs).reg) member)

theorem Tracked.fired_lt {r} (fired : r ∈ ctx.fired) : r < ctx.marks.length := by
  have numbered : r ∈ ctx.fired ++ ctx.regs ctx.refs := mem_append_left _ fired
  rw [tracked.order, mem_range] at numbered
  exact numbered

theorem Tracked.reg_inj (hp : p ∈ ctx.refs) (hq : q ∈ ctx.refs)
    (same : (p.ref ctx.bufs).reg = (q.ref ctx.bufs).reg) : p = q :=
  inj_on_of_nodup_map (List.Nodup.of_append_right tracked.nodup) hp hq same

end

theorem RefPtr.ref_update (bufs : Nat → IxevBuf) (buf : IxevBuf) (other : p ≠ .buf b) :
    p.ref (update bufs b buf) = p.ref bufs := by
  cases p with
  | buf c => exact congrArg IxevBuf.ref (update_of_ne (fun same => other (congrArg RefPtr.buf same)) _ _)
  | app ref => rfl

theorem RefPtr.ref_update_self (bufs : Nat → IxevBuf) (b : Nat) (buf : IxevBuf) :
    (RefPtr.buf b).ref (update bufs b buf) = buf.ref :=
  congrArg IxevBuf.ref (update_self b buf bufs)

theorem read_update (bufs : Nat → IxevBuf) (buf : IxevBuf) (other : ∀ pos, e.base ≠ .payload b pos) :
    e.base.read (update bufs b buf) e.len = e.base.read bufs e.len := by
  cases place : e.base with
  | payload c pos =>
    have ne : c ≠ b := fun same => other pos (by rw [place, same])
    rw [Place.read, Place.read, update_of_ne ne]
  | app mem pos => rfl

theorem Tracked.not_in_entries (tracked : Tracked ctx) (free : ¬ ctx.Holds b) (member : e ∈ ctx.send)
    (pos : Nat) : e.base ≠ .payload b pos := by
  intro base
  obtain ⟨_, -, -, backed⟩ := tracked.entries.of_mem member
  exact free (backed b pos base).1

theorem Tracked.reuse (tracked : Tracked ctx) (free : ¬ ctx.Holds b) (buf : IxevBuf) :
    Tracked { ctx with bufs := update ctx.bufs b buf } := by
  have other : ∀ p ∈ ctx.refs, p.ref (update ctx.bufs b buf) = p.ref ctx.bufs := fun p member =>
    RefPtr.ref_update _ _ fun same => free (by rwa [same] at member)
  have bufs : ∀ c, ctx.Holds c → update ctx.bufs b buf c = ctx.bufs c := fun c held =>
    update_of_ne (fun same => free (by rwa [same] at held)) _ _
  have unsent : gather (medium (update ctx.bufs b buf)) ctx.send = ctx.unsent :=
    gather_congr fun e member => read_update _ _ (tracked.not_in_entries free member)
  refine ⟨?_, ?_, tracked.tags, fun p member => ?_, tracked.done, tracked.entries.imp fun start e backed => ?_, fun c cur => ?_⟩
  · show ctx.taken ++ gather (medium (update ctx.bufs b buf)) ctx.send = _
    rw [unsent]
    exact tracked.stream
  · have regs : ctx.refs.map (fun p => (p.ref (update ctx.bufs b buf)).reg) = ctx.regs ctx.refs :=
      map_congr_left fun p member => congrArg IxevRef.reg (other p member)
    show ctx.fired ++ ctx.refs.map (fun p => (p.ref (update ctx.bufs b buf)).reg) = _
    rw [regs]
    exact tracked.order
  · rw [other p member]
    exact tracked.waits p member
  · refine ⟨backed.1, fun c pos base => ?_⟩
    obtain ⟨held, position, within⟩ := backed.2 c pos base
    refine ⟨held, ?_⟩
    show start + e.len ≤ (update ctx.bufs b buf c).ref.sendPos ∧ pos + e.len ≤ (update ctx.bufs b buf c).len
    rw [bufs c held]
    exact ⟨position, within⟩
  · obtain ⟨held, last, room, entry⟩ := tracked.current c cur
    have same := bufs c held
    refine ⟨held, ?_, ?_, fun e at_ => ?_⟩
    · show (update ctx.bufs b buf c).ref.sendPos = _
      rw [same]
      exact last
    · show (update ctx.bufs b buf c).len ≤ _
      rw [same]
      exact room
    · show ∃ pos, _ ∧ _ = (update ctx.bufs b buf c).len
      rw [same]
      exact entry e at_

theorem Tracked.pushBuffer (tracked : Tracked ctx) (bytes : List UInt8) (desc : Option Nat)
    (volume : ctx.taken.length + volume ctx.send = ctx.accepted.length) (ref : (ctx.bufs b).ref = ⟨ctx.accepted.length + n, ctx.marks.length⟩)
    (len : (ctx.bufs b).len = n) (positive : 0 < n) (room : n ≤ bufSize) (stored : slice (ctx.bufs b).payload 0 n = bytes) :
    Tracked { ctx with
      curBuf := some b
      send := ctx.send ++ [⟨.payload b 0, n⟩]
      sendvDesc := desc
      refs := ctx.refs ++ [.buf b]
      accepted := ctx.accepted ++ bytes.map fun byte => ⟨byte, some ctx.marks.length⟩
      marks := ctx.marks ++ [ctx.accepted.length + n] } := by
  have size : bytes.length = n := by rw [← stored, slice_length]
  have accepted : (ctx.accepted ++ bytes.map fun byte => (⟨byte, some ctx.marks.length⟩ : Sent)).length = ctx.accepted.length + n := by
    rw [length_append, length_map, size]
  have sendPos : (ctx.bufs b).ref.sendPos = ctx.accepted.length + n := by rw [ref]
  refine ⟨?_, ?_, fun s member r tag => ?_, fun p member => ?_, fun r fired => ?_, ?_, fun c cur => ?_⟩
  · show ctx.taken ++ gather (medium ctx.bufs) (ctx.send ++ [⟨.payload b 0, n⟩]) = map _ _
    have new : (medium ctx.bufs).read (.payload b 0) n = bytes := stored
    rw [gather_append, gather_singleton, ← append_assoc, map_append, map_byte, new, ← tracked.stream]
    rfl
  · show ctx.fired ++ map _ (ctx.refs ++ [.buf b]) = range (ctx.marks ++ [_]).length
    rw [map_append, ← append_assoc, length_append, length_singleton, range_succ]
    exact congrArg₂ (· ++ ·) tracked.order (congrArg (fun r => [IxevRef.reg r]) ref)
  · show r < (ctx.marks ++ [_]).length
    rw [length_append, length_singleton]
    rcases mem_append.1 member with old | new
    · exact (tracked.tags s old r tag).trans (Nat.lt_succ_self _)
    · obtain ⟨byte, -, rfl⟩ := mem_map.1 new
      cases tag
      exact Nat.lt_succ_self _
  · rw [accepted]
    rcases mem_append.1 member with old | new
    · obtain ⟨position, done⟩ := tracked.waits p old
      have older := tracked.reg_lt old
      refine ⟨position.trans (Nat.le_add_right _ _), (done.append ?_).mark older⟩
      exact fun same => absurd (Option.some.inj same) older.ne'
    · cases mem_singleton.1 new
      refine ⟨sendPos.le, ?_⟩
      show DoneBy _ _ (ctx.bufs b).ref.reg (ctx.bufs b).ref.sendPos
      rw [ref, ← accepted]
      apply DoneBy.all
      intro m mark
      rw [getElem?_concat_length] at mark
      exact (Option.mem_some_iff.1 mark).ge
  · have older := tracked.fired_lt fired
    exact ((tracked.done r fired).append fun same => absurd (Option.some.inj same) older.ne').mark older
  · apply placed_append.2
    constructor
    · refine tracked.entries.imp fun start e backed => ⟨backed.1, fun c pos base => ?_⟩
      obtain ⟨held, rest⟩ := backed.2 c pos base
      exact ⟨mem_append_left _ held, rest⟩
    · apply placed_singleton.2
      refine ⟨positive, fun c pos base => ?_⟩
      cases base
      refine ⟨mem_append_right _ mem_cons_self, ?_, ?_⟩
      · show ctx.taken.length + Lib.volume ctx.send + n ≤ (ctx.bufs b).ref.sendPos
        omega
      · show 0 + n ≤ (ctx.bufs b).len
        omega
  · cases cur
    refine ⟨mem_append_right _ mem_cons_self, sendPos.trans accepted.symm, len.le.trans room, fun e at_ => ?_⟩
    rw [getLast?_concat, Option.mem_some_iff] at at_
    subst at_
    exact ⟨0, rfl, (Nat.zero_add n).trans len.symm⟩

end Basics

section Copying

variable {ctx : IxevCtx} {data : List UInt8} {soFar : Nat}

theorem ixevBufStore_eq (buf : IxevBuf) (room : buf.len ≤ bufSize) (data : List UInt8) :
    ∃ n, n = min data.length (bufSize - buf.len) ∧
      ixevBufStore buf data = (n, ⟨buf.len + n, buf.ref, store buf.payload buf.len (data.take n)⟩) := by
  refine ⟨_, rfl, ?_⟩
  have avail : wsub 32 bufSize buf.len = bufSize - buf.len := wsub_of_le room (by decide)
  have len : wadd 32 buf.len (min data.length (bufSize - buf.len)) = buf.len + min data.length (bufSize - buf.len) := by
    apply wadd_of_lt
    unfold bufSize at *
    omega
  rw [ixevBufStore, avail]
  simp only [len]

theorem Tracked.fillBuffer (tracked : Tracked ctx) (counted : Counted soFar ctx)
    (counted' : Counted (fillBuffer ctx b data soFar).2 (fillBuffer ctx b data soFar).1)
    (fits : (fillBuffer ctx b data soFar).1.accepted.length < 2 ^ 64) (more : data ≠ []) (free : ¬ ctx.Holds b) :
    Tracked (fillBuffer ctx b data soFar).1 := by
  obtain ⟨n, size, stored⟩ := ixevBufStore_eq (ixevBufAlloc (ctx.bufs b)) (Nat.zero_le _) data
  have length := length_pos_of_ne_nil more
  have positive : 0 < n ∧ n ≤ bufSize ∧ n ≤ data.length := by
    rw [size]
    show 0 < min data.length (bufSize - 0) ∧ min data.length (bufSize - 0) ≤ bufSize ∧ min data.length (bufSize - 0) ≤ data.length
    unfold bufSize
    omega
  have total := counted'.total
  rw [fillBuffer_accepted, stored] at fits
  rw [fillBuffer_snd, fillBuffer_accepted, stored, Nat.mod_eq_of_lt fits] at total
  have position : wadd 64 ctx.sendTotal (soFar + n) = ctx.accepted.length + n := total
  have bytes : slice (store (ctx.bufs b).payload 0 (data.take n)) 0 n = data.take n := by
    apply slice_store_self
    exact length_take_of_le positive.2.2
  generalize filled : (⟨0 + n, ⟨ctx.accepted.length + n, ctx.marks.length⟩, store (ctx.bufs b).payload 0 (data.take n)⟩ : IxevBuf) = buf
  have element : update ctx.bufs b buf b = buf := update_self b buf ctx.bufs
  have pushed := (tracked.reuse free buf).pushBuffer (b := b) (n := n) (data.take n) (some (ctx.send.length + 1))
    counted.volume ((congrArg IxevBuf.ref element).trans (by rw [← filled]))
    ((congrArg IxevBuf.len element).trans (by rw [← filled]; exact Nat.zero_add n)) positive.1 positive.2.1
    ((congrArg (fun e : IxevBuf => slice e.payload 0 n) element).trans (by rw [← filled]; exact bytes))
  rw [Ixev.fillBuffer, stored]
  simp only [position]
  rw [← filled] at pushed
  exact pushed

/-- More bytes in a buffer that is held: its length and its position grow, its number stays. -/
structure Grows (ctx : IxevCtx) (b n : Nat) (buf : IxevBuf) : Prop where
  len : buf.len = (ctx.bufs b).len + n
  reg : buf.ref.reg = (ctx.bufs b).ref.reg
  sendPos : buf.ref.sendPos = ctx.accepted.length + n
  old : ∀ pos k, pos + k ≤ (ctx.bufs b).len → slice buf.payload pos k = slice (ctx.bufs b).payload pos k

namespace Grows

variable {buf : IxevBuf}

theorem ref (grows : Grows ctx b n buf) (tracked : Tracked ctx) {p} (member : p ∈ ctx.refs) :
    (p.ref (update ctx.bufs b buf)).reg = (p.ref ctx.bufs).reg ∧
      (p.ref ctx.bufs).sendPos ≤ (p.ref (update ctx.bufs b buf)).sendPos ∧
      (p.ref (update ctx.bufs b buf)).sendPos ≤ ctx.accepted.length + n := by
  have position := (tracked.waits p member).1
  by_cases same : p = .buf b
  · subst same
    rw [RefPtr.ref_update_self]
    have sendPos := grows.sendPos
    exact ⟨grows.reg, by omega, sendPos.le⟩
  · rw [RefPtr.ref_update _ _ same]
    exact ⟨rfl, le_rfl, by omega⟩

theorem read (grows : Grows ctx b n buf) {start} (backed : Backed ctx.refs ctx.bufs start e) :
    e.base.read (update ctx.bufs b buf) e.len = e.base.read ctx.bufs e.len := by
  by_cases other : ∀ pos, e.base ≠ .payload b pos
  · exact read_update _ _ other
  · obtain ⟨pos, base⟩ := not_forall_not.1 other
    obtain ⟨-, -, within⟩ := backed.2 b pos base
    rw [base, Place.read, Place.read, update_self]
    exact grows.old pos e.len within

theorem backed (grows : Grows ctx b n buf) (tracked : Tracked ctx) {start}
    (backed : Backed ctx.refs ctx.bufs start e) : Backed ctx.refs (update ctx.bufs b buf) start e := by
  refine ⟨backed.1, fun c pos base => ?_⟩
  obtain ⟨held, position, within⟩ := backed.2 c pos base
  have later : (ctx.bufs c).ref.sendPos ≤ _ ∧ _ := (grows.ref tracked held).2
  have longer : (ctx.bufs c).len ≤ (update ctx.bufs b buf c).len := by
    by_cases same : c = b
    · subst same
      rw [update_self, grows.len]
      exact Nat.le_add_right _ _
    · rw [update_of_ne same]
  exact ⟨held, position.trans later.1, within.trans longer⟩

end Grows

theorem Tracked.grow {buf bytes es} (tracked : Tracked ctx)
    (volume : ctx.taken.length + volume ctx.send = ctx.accepted.length) (cur : ctx.curBuf = some b) (split : ctx.send = es ++ [e])
    (grows : Grows ctx b n buf) (room : buf.len ≤ bufSize) (stored : slice buf.payload (ctx.bufs b).len n = bytes) :
    Tracked { ctx with
      send := es ++ [{ e with len := e.len + n }]
      bufs := update ctx.bufs b buf
      accepted := ctx.accepted ++ bytes.map fun byte => ⟨byte, some (ctx.bufs b).ref.reg⟩ } := by
  obtain ⟨held, last, -, entry⟩ := tracked.current b cur
  obtain ⟨pos, base, ends⟩ := entry e (by rw [split, getLast?_concat]; rfl)
  have size : bytes.length = n := by rw [← stored, slice_length]
  have accepted : (ctx.accepted ++ bytes.map fun byte => (⟨byte, some (ctx.bufs b).ref.reg⟩ : Sent)).length = ctx.accepted.length + n := by
    rw [length_append, length_map, size]
  have entries := tracked.entries
  rw [split, placed_append, placed_singleton] at entries
  rw [split, volume_append, volume_singleton] at volume
  have element : update ctx.bufs b buf b = buf := update_self b buf ctx.bufs
  refine ⟨?_, ?_, fun s member r tag => ?_, fun p member => ?_, fun r fired => ?_, ?_, fun c cur' => ?_⟩
  · have before : gather (medium (update ctx.bufs b buf)) es = gather (medium ctx.bufs) es := by
      apply gather_congr
      intro f member
      obtain ⟨_, -, backed⟩ := entries.1.of_mem member
      exact grows.read backed
    have final : (medium (update ctx.bufs b buf)).read e.base (e.len + n) = (medium ctx.bufs).read e.base e.len ++ bytes := by
      rw [base]
      show slice (update ctx.bufs b buf b).payload pos (e.len + n) = slice (ctx.bufs b).payload pos e.len ++ bytes
      rw [element, slice_add, grows.old pos e.len ends.le, ends, stored]
    have stream := tracked.stream
    rw [IxevCtx.unsent, split, gather_append, gather_singleton] at stream
    show ctx.taken ++ gather _ (es ++ [_]) = map _ _
    rw [gather_append, gather_singleton, before, final, map_append, ← stream, map_byte]
    simp only [append_assoc]
  · have regs : ctx.refs.map (fun p => (p.ref (update ctx.bufs b buf)).reg) = ctx.regs ctx.refs :=
      map_congr_left fun p member => (grows.ref tracked member).1
    show ctx.fired ++ ctx.refs.map (fun p => (p.ref (update ctx.bufs b buf)).reg) = _
    rw [regs]
    exact tracked.order
  · rcases mem_append.1 member with old | new
    · exact tracked.tags s old r tag
    · obtain ⟨byte, -, rfl⟩ := mem_map.1 new
      cases tag
      exact tracked.reg_lt held
  · obtain ⟨reg, later, position⟩ := grows.ref tracked member
    rw [accepted]
    refine ⟨position, ?_⟩
    rw [reg]
    obtain ⟨-, done⟩ := tracked.waits p member
    by_cases same : p = .buf b
    · -- the buffer that grows waits for everything
      subst same
      show DoneBy ctx.marks _ _ (update ctx.bufs b buf b).ref.sendPos
      rw [element, grows.sendPos, ← accepted]
      apply DoneBy.all
      intro m mark
      have early := (done.1 m mark).trans (tracked.waits _ member).1
      rw [accepted]
      omega
    · exact (done.mono later).append fun tag => same (tracked.reg_inj member held (Option.some.inj tag).symm)
  · exact (tracked.done r fired).append fun tag => tracked.not_fired held (Option.some.inj tag ▸ fired)
  · apply placed_append.2
    refine ⟨entries.1.imp fun start f backed => grows.backed tracked backed, placed_singleton.2 ?_⟩
    refine ⟨Nat.add_pos_left entries.2.1 n, fun c pos' base' => ?_⟩
    cases base.symm.trans base'
    refine ⟨held, ?_, ?_⟩
    · show ctx.taken.length + Lib.volume es + (e.len + n) ≤ (update ctx.bufs b buf b).ref.sendPos
      rw [element, grows.sendPos]
      omega
    · show pos + (e.len + n) ≤ (update ctx.bufs b buf b).len
      rw [element, grows.len]
      omega
  · cases cur.symm.trans cur'
    refine ⟨held, ?_, ?_, fun f at_ => ?_⟩
    · show (update ctx.bufs b buf b).ref.sendPos = _
      rw [element, grows.sendPos, accepted]
    · show (update ctx.bufs b buf b).len ≤ _
      rw [element]
      exact room
    · rw [getLast?_concat, Option.mem_some_iff] at at_
      subst at_
      refine ⟨pos, base, ?_⟩
      show pos + (e.len + n) = (update ctx.bufs b buf b).len
      rw [element, grows.len]
      omega

theorem Tracked.growBuffer (tracked : Tracked ctx) (counted : Counted 0 ctx)
    (counted' : Counted (growBuffer ctx b data).2 (growBuffer ctx b data).1)
    (fits : (growBuffer ctx b data).1.accepted.length < 2 ^ 64) (cur : ctx.curBuf = some b) (more : ctx.send ≠ []) :
    Tracked (growBuffer ctx b data).1 := by
  have room := (tracked.current b cur).room
  obtain ⟨n, size, stored⟩ := ixevBufStore_eq _ room data
  have total := counted'.total
  have position : wadd 64 ctx.sendTotal n = ctx.accepted.length + n := by
    rw [growBuffer_accepted] at fits total
    rw [Nat.mod_eq_of_lt fits, Ixev.growBuffer, stored] at total
    exact total
  have length : (data.take n).length = n := by
    rw [length_take, size]
    omega
  obtain ⟨es, e, split⟩ : ∃ es e, ctx.send = es ++ [e] := (eq_nil_or_concat' ctx.send).resolve_left more
  have bytes : slice (store (ctx.bufs b).payload (ctx.bufs b).len (data.take n)) (ctx.bufs b).len n = data.take n :=
    slice_store_self _ _ length
  have grows : Grows ctx b n ⟨(ctx.bufs b).len + n, ⟨ctx.accepted.length + n, (ctx.bufs b).ref.reg⟩,
      store (ctx.bufs b).payload (ctx.bufs b).len (data.take n)⟩ :=
    ⟨rfl, rfl, rfl, fun pos k within => slice_store_below _ _ within⟩
  have grown := tracked.grow counted.volume cur split grows (by show (ctx.bufs b).len + n ≤ bufSize; omega) bytes
  rw [Ixev.growBuffer, stored]
  simp only [position]
  rw [split, growLast_concat]
  exact grown

end Copying

section Steps

variable {ctx : IxevCtx}

def IxevCtx.custody (ctx : IxevCtx) :
    List (SgEntry Place) × List RefPtr × Option Nat × (Nat → IxevBuf) × List Sent × List Nat × List UInt8 × Nat × List Nat :=
  (ctx.send, ctx.refs, ctx.curBuf, ctx.bufs, ctx.accepted, ctx.marks, ctx.taken, ctx.acked, ctx.fired)

theorem Tracked.congr {ctx' : IxevCtx} (tracked : Tracked ctx) (same : ctx'.custody = ctx.custody) : Tracked ctx' := by
  cases ctx
  cases ctx'
  simp only [IxevCtx.custody, Prod.mk.injEq] at same
  obtain ⟨rfl, rfl, rfl, rfl, rfl, rfl, rfl, rfl, rfl⟩ := same
  obtain ⟨stream, order, tags, waits, done, entries, current⟩ := tracked
  refine ⟨stream, order, tags, waits, done, entries, fun b cur => ?_⟩
  obtain ⟨held, last, room, entry⟩ := current b cur
  exact ⟨held, last, room, entry⟩

theorem Tracked.noCurrent (tracked : Tracked ctx) : Tracked { ctx with curBuf := none } :=
  ⟨tracked.stream, tracked.order, tracked.tags, tracked.waits, tracked.done, tracked.entries, nofun⟩

theorem Tracked.pushApp (tracked : Tracked ctx) (positive : 0 < n) (mem : Nat → UInt8) (desc : Option Nat) (total : Nat) :
    Tracked { ctx with
      curBuf := none
      send := ctx.send ++ [⟨.app mem 0, n⟩]
      sendvDesc := desc
      sendTotal := total
      accepted := ctx.accepted ++ (slice mem 0 n).map fun byte => ⟨byte, none⟩ } := by
  refine ⟨?_, tracked.order, fun s member r tag => ?_, fun p member => ?_, fun r fired => ?_, ?_, nofun⟩
  · show ctx.taken ++ gather (medium ctx.bufs) (ctx.send ++ [⟨.app mem 0, n⟩]) = map _ _
    rw [gather_append, gather_singleton, ← append_assoc, map_append, map_byte, ← tracked.stream]
    rfl
  · rcases mem_append.1 member with old | new
    · exact tracked.tags s old r tag
    · obtain ⟨byte, -, rfl⟩ := mem_map.1 new
      cases tag
  · obtain ⟨position, done⟩ := tracked.waits p member
    refine ⟨position.trans ?_, done.append nofun⟩
    rw [length_append]
    exact Nat.le_add_right _ _
  · exact (tracked.done r fired).append nofun
  · refine placed_append.2 ⟨tracked.entries, placed_singleton.2 ⟨positive, fun b pos base => ?_⟩⟩
    cases base

theorem Tracked.ixevSendZc (tracked : Tracked ctx) (mem : Nat → UInt8) (len : Nat) : Tracked (ixevSendZc ctx mem len).2 := by
  rw [Ixev.ixevSendZc]
  split_ifs with dead none deep
  · exact tracked
  · exact tracked
  · exact tracked
  · exact tracked.pushApp (Nat.pos_of_ne_zero none) mem _ _

theorem ixevSendZc_frame (ctx : IxevCtx) (mem : Nat → UInt8) (len : Nat) :
    (Ixev.ixevSendZc ctx mem len).2.released = ctx.released ∧ ctx.accepted.length ≤ (Ixev.ixevSendZc ctx mem len).2.accepted.length := by
  rw [Ixev.ixevSendZc]
  split_ifs
  · exact ⟨rfl, le_rfl⟩
  · exact ⟨rfl, le_rfl⟩
  · exact ⟨rfl, le_rfl⟩
  · refine ⟨rfl, ?_⟩
    rw [length_append]
    exact Nat.le_add_right _ _

theorem Tracked.ixevAddSentCb (tracked : Tracked ctx) (total : ctx.sendTotal = ctx.accepted.length) : Tracked (ixevAddSentCb ctx) := by
  refine ⟨tracked.stream, ?_, fun s member r tag => ?_, fun p member => ?_, fun r fired => ?_, ?_, fun b cur => ?_⟩
  · show ctx.fired ++ map _ (ctx.refs ++ [_]) = range (ctx.marks ++ [_]).length
    rw [map_append, ← append_assoc, length_append, length_singleton, range_succ]
    exact congrArg (· ++ [ctx.marks.length]) tracked.order
  · show r < (ctx.marks ++ [_]).length
    rw [length_append, length_singleton]
    exact (tracked.tags s member r tag).trans (Nat.lt_succ_self _)
  · rcases mem_append.1 member with old | new
    · obtain ⟨position, done⟩ := tracked.waits p old
      exact ⟨position, done.mark (tracked.reg_lt old)⟩
    · cases mem_singleton.1 new
      refine ⟨total.le, ?_⟩
      show DoneBy (ctx.marks ++ [ctx.accepted.length]) ctx.accepted ctx.marks.length ctx.sendTotal
      rw [total]
      apply DoneBy.all
      intro m mark
      rw [getElem?_concat_length] at mark
      exact (Option.mem_some_iff.1 mark).ge
  · exact (tracked.done r fired).mark (tracked.fired_lt fired)
  · refine tracked.entries.imp fun start e backed => ⟨backed.1, fun b pos base => ?_⟩
    obtain ⟨held, rest⟩ := backed.2 b pos base
    exact ⟨mem_append_left _ held, rest⟩
  · obtain ⟨held, last, room, entry⟩ := tracked.current b cur
    exact ⟨mem_append_left _ held, last, room, entry⟩

theorem Backed.shift {refs bufs start k} (less : k < e.len)
    (backed : Backed refs bufs start e) : Backed refs bufs (start + k) ⟨e.base.shift k, e.len - k⟩ := by
  refine ⟨Nat.sub_pos_of_lt less, fun b pos base => ?_⟩
  cases place : e.base with
  | app mem p =>
    rw [place, Place.shift] at base
    cases base
  | payload c p =>
    rw [place, Place.shift] at base
    cases base
    obtain ⟨held, position, within⟩ := backed.2 b p place
    refine ⟨held, ?_, ?_⟩
    · show start + k + (e.len - k) ≤ _
      omega
    · show p + k + (e.len - k) ≤ _
      omega

theorem Tracked.take {bytes} (tracked : Tracked ctx) (first : bytes <+: ctx.unsent) (desc : Option Nat) :
    Tracked { ctx with
      sendvDesc := desc
      taken := ctx.taken ++ bytes
      send := consume Place.shift bytes.length ctx.send } := by
  refine ⟨?_, tracked.order, tracked.tags, tracked.waits, tracked.done, ?_, fun b cur => ?_⟩
  · show ctx.taken ++ bytes ++ gather (medium ctx.bufs) (consume Place.shift bytes.length ctx.send) = _
    obtain ⟨rest, whole⟩ := first
    rw [gather_consume, ← tracked.stream, append_assoc, ← IxevCtx.unsent, ← whole, drop_left]
  · show Placed _ (ctx.taken ++ bytes).length _
    rw [length_append]
    exact tracked.entries.consume fun start e k less backed => backed.shift less
  · obtain ⟨held, last, room, entry⟩ := tracked.current b cur
    refine ⟨held, last, room, fun f at_ => ?_⟩
    rcases consume_getLast at_ with same | ⟨e, here, k, less, rfl⟩
    · exact entry f same
    · obtain ⟨pos, base, ends⟩ := entry e here
      refine ⟨pos + k, ?_, ?_⟩
      · show e.base.shift k = _
        rw [base]
        rfl
      · show pos + k + (e.len - k) = (ctx.bufs b).len
        omega

theorem Tracked.sendvBatch (tracked : Tracked ctx) (nrents : Nat) (alive : Bool) (sndBuf : Nat) (writes : List Bool) :
    Tracked (sendvBatch ctx nrents alive sndBuf writes) := by
  rw [Ixev.sendvBatch]
  split_ifs
  · exact tracked.take (sendv_takes ctx nrents sndBuf writes) none
  · exact tracked.congr rfl

theorem mem_dropWhile {α : Type*} {q : α → Bool} {a : α} {l : List α} (member : a ∈ l) (stays : q a = false) : a ∈ l.dropWhile q := by
  rw [← takeWhile_append_dropWhile (p := q) (l := l)] at member
  rcases mem_append.1 member with early | late
  · exact absurd (mem_takeWhile_imp early) (by rw [stays]; exact Bool.false_ne_true)
  · exact late

theorem Tracked.ixevTcpSent {len : Nat} (tracked : Tracked ctx) (counted : Counted 0 ctx) (taken : ctx.acked + len ≤ ctx.taken.length)
    (fits : ctx.accepted.length < 2 ^ 64) : Tracked (ixevTcpSent ctx len) := by
  have within := counted.volume
  have exact_ : wadd 64 ctx.sentTotal len = ctx.acked + len := by
    have sent := counted.sent
    unfold wadd
    omega
  have due : ∀ p : RefPtr, ({ ctx with sentTotal := wadd 64 ctx.sentTotal len, acked := ctx.acked + len } : IxevCtx).due p = true ↔
      (p.ref ctx.bufs).sendPos ≤ ctx.acked + len := by
    intro p
    rw [IxevCtx.due, decide_eq_true_iff]
    show _ ≤ wadd 64 ctx.sentTotal len ↔ _
    rw [exact_]
  rw [Ixev.ixevTcpSent, runCallbacks]
  generalize ({ ctx with sentTotal := wadd 64 ctx.sentTotal len, acked := ctx.acked + len } : IxevCtx).due = q at due ⊢
  have stays : ∀ p ∈ ctx.refs, ctx.acked + len < (p.ref ctx.bufs).sendPos → p ∈ ctx.refs.dropWhile q := fun p member late =>
    mem_dropWhile member (Bool.eq_false_iff.2 fun early => absurd ((due p).1 early) (not_le.2 late))
  refine ⟨tracked.stream, ?_, tracked.tags, fun p member => ?_, fun r fired => ?_, ?_, fun b cur => ?_⟩
  · show ctx.fired ++ List.map _ (ctx.refs.takeWhile q) ++ List.map _ (ctx.refs.dropWhile q) = List.range ctx.marks.length
    rw [List.append_assoc, ← List.map_append, List.takeWhile_append_dropWhile]
    exact tracked.order
  · exact tracked.waits p (List.dropWhile_sublist q |>.subset member)
  · show DoneBy ctx.marks ctx.accepted r (ctx.acked + len)
    rcases List.mem_append.1 fired with old | new
    · exact (tracked.done r old).mono (Nat.le_add_right _ _)
    · obtain ⟨p, member, rfl⟩ := List.mem_map.1 new
      have early := (due p).1 (List.mem_takeWhile_imp member)
      exact (tracked.waits p (List.takeWhile_sublist q |>.subset member)).2.mono early
  · refine tracked.entries.imp_within fun start e _ after _ backed => ⟨backed.1, fun b pos base => ?_⟩
    obtain ⟨held, position, rest⟩ := backed.2 b pos base
    have more := backed.1
    refine ⟨stays _ held ?_, position, rest⟩
    show ctx.acked + len < (ctx.bufs b).ref.sendPos
    omega
  · simp only at cur
    split_ifs at cur with empty
    obtain ⟨held, last, room, entry⟩ := tracked.current b cur
    refine ⟨stays _ held ?_, last, room, entry⟩
    -- if everything were acknowledged, no reference would be left
    by_contra reached
    apply empty
    rw [List.isEmpty_iff, List.dropWhile_eq_nil_iff]
    intro p member
    have position := (tracked.waits p member).1
    have all : (ctx.bufs b).ref.sendPos ≤ ctx.acked + len := not_lt.1 reached
    exact (due p).2 (by omega)

/-- The counters are right; the references are while the totals have not wrapped, until the
context is released. -/
structure Sound (ctx : IxevCtx) : Prop where
  counted : Counted 0 ctx
  tracked : ctx.accepted.length < 2 ^ 64 → ctx.released = false → Tracked ctx
  closed : ctx.accepted.length < 2 ^ 64 → ctx.released = true → ctx.fired = List.range ctx.marks.length

theorem Sound.start (bufs : Nat → IxevBuf) : Sound (ixevCtxInit bufs) where
  counted := .start bufs
  tracked _ _ := ⟨rfl, rfl, forall_mem_nil _, forall_mem_nil _, forall_mem_nil _, trivial, nofun⟩
  closed _ := nofun

theorem Sound.ixevSend {data} {pool : List Nat} (sound : Sound ctx) (live : ctx.released = false) (distinct : pool.Nodup)
    (free : ∀ b ∈ pool, ¬ ctx.Holds b) : Sound (ixevSend ctx data pool).2 := by
  let I : Nat → List UInt8 → IxevCtx → Prop := fun soFar data c =>
    Within soFar data c ∧ c.released = false ∧ (c.accepted.length < 2 ^ 64 → Tracked c)
  have hot : ∀ chunk, I 0 chunk ctx → I (hotPath ctx chunk).2 (chunk.drop (hotPath ctx chunk).2) (hotPath ctx chunk).1 := by
    rintro chunk ⟨within, live, tracked⟩
    have within' := within.hotPath
    rcases hotPath_cases ctx chunk with same | ⟨b, cur, more, grown⟩
    · rw [same]
      exact ⟨within, live, tracked⟩
    · rw [grown] at within' ⊢
      refine ⟨within', live, fun fits => ?_⟩
      have before := growBuffer_accepted ctx b chunk
      exact (tracked (by omega)).growBuffer within.1 within'.1 fits cur more
  have fill : KeptByFill I := by
    rintro soFar data c b ⟨within, live, tracked⟩ more room new
    have within' := Within.fillBuffer soFar data c b within more room new
    refine ⟨within', live, fun fits => ?_⟩
    have before := fillBuffer_accepted c b data soFar
    exact (tracked (by omega)).fillBuffer within.1 within'.1 fits more new
  have fails : ∀ soFar data c, I soFar data c → I soFar data { c with curBuf := none } := by
    rintro soFar data c ⟨⟨counted, fits⟩, live, tracked⟩
    exact ⟨⟨counted.congr rfl, fits⟩, live, fun fits => (tracked fits).noCurrent⟩
  have start : I 0 (data.take (ixevWindowLen ctx data.length)) ctx := ⟨.start sound.counted data, live, fun fits => sound.tracked fits live⟩
  rcases ixevSend_rule hot fill fails sound.counted.depth distinct free start with same | ⟨soFar, left, cold, ⟨within, live', tracked⟩, last⟩
  · rw [same]
    exact sound
  · rcases last with ⟨same, rfl⟩ | same
    · rw [same]
      exact ⟨within.1, fun fits _ => tracked fits, fun _ released => absurd (live'.symm.trans released) Bool.false_ne_true⟩
    · rw [same]
      exact ⟨within.1.settle, fun fits _ => (tracked fits).congr rfl, fun _ released => absurd (live'.symm.trans released) Bool.false_ne_true⟩

theorem Sound.of_live {ctx'} (counted : Counted 0 ctx') (live : ctx'.released = false)
    (tracked : ctx'.accepted.length < 2 ^ 64 → Tracked ctx') : Sound ctx' :=
  ⟨counted, fun fits _ => tracked fits, fun _ released => absurd (live.symm.trans released) Bool.false_ne_true⟩

theorem Sound.next {op t} (sound : Sound ctx) (step : transmitStep ctx op t) : Sound t := by
  obtain ⟨⟨live, valid⟩, rfl⟩ := step
  have counted := sound.counted
  have tracked := fun fits => sound.tracked fits live
  cases op with
  | send data pool => exact sound.ixevSend live valid.1 valid.2
  | sendZc mem len =>
    obtain ⟨released, grows⟩ := ixevSendZc_frame ctx mem len
    refine .of_live (counted.ixevSendZc mem len) (released.trans live) fun fits => ?_
    exact (tracked (grows.trans_lt fits)).ixevSendZc mem len
  | addSentCb =>
    refine .of_live (counted.congr rfl) live fun fits => (tracked fits).ixevAddSentCb ?_
    have total := counted.total
    rwa [Nat.mod_eq_of_lt (show ctx.accepted.length < 2 ^ 64 from fits), wadd_of_lt counted.word] at total
  | sendv alive sndBuf writes =>
    rw [IxevCtx.next]
    cases desc : ctx.sendvDesc with
    | none => exact sound
    | some nrents =>
      have frame : (sendvBatch ctx nrents alive sndBuf writes).released = ctx.released ∧
          (sendvBatch ctx nrents alive sndBuf writes).accepted = ctx.accepted := by
        unfold sendvBatch
        split_ifs <;> exact ⟨rfl, rfl⟩
      refine .of_live (counted.sendvBatch nrents alive sndBuf writes) (frame.1.trans live) fun fits => ?_
      exact (tracked (frame.2 ▸ fits)).sendvBatch nrents alive sndBuf writes
  | tcpSent len => exact .of_live (counted.ixevTcpSent valid) live fun fits => (tracked fits).ixevTcpSent counted valid fits
  | reuse b buf => exact .of_live (counted.congr rfl) live fun fits => (tracked fits).reuse valid buf
  | close => exact .of_live (counted.congr rfl) live fun fits => (tracked fits).congr rfl
  | closeRet => exact ⟨counted.congr rfl, nofun, fun fits _ => (tracked fits).order⟩

end Steps

end Reflex.Ixev
