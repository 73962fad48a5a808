import Reflex.Lib.Run
import Reflex.Lib.Stream

/-!
# Putting the stream together again

What `tcp_receive` does with the text of a segment: what the connection has already is cut off, the next bytes are
passed on together with the queued segments that now follow them, and a segment beyond a gap is put in its place in
`ooseq`, where segments it covers are dropped and overlaps are trimmed. The assertions are compiled out.

A peer that keeps to one content and to the window cuts its stream in any way, and repeats, delays and reorders the
segments. What has been passed on is always a beginning of the stream, and its end is reported after all of it.
-/

namespace Reflex.Tcp
open Lib

/-- `struct tcp_seg`: sequence number and flags of the header, the length, and the bytes of the buffer. -/
structure Seg where
  seqno : Nat
  len : Nat
  p : List UInt8
  fin : Bool
  syn : Bool
deriving DecidableEq, Repr

/-- `TCP_TCPLEN`. -/
def Seg.tcplen (s : Seg) : Nat := s.len + if s.fin || s.syn then 1 else 0

/-- A new length and `pbuf_realloc`, which only shortens. -/
def Seg.trim (s : Seg) (len : Nat) : Seg := { s with len := len, p := s.p.take len }

/-- The end of a queued segment is cut off where the new one begins. -/
def Seg.clip (s : Seg) (seqno : Nat) : Seg :=
  if 0 < seqDiff (s.seqno + s.len) seqno then s.trim (wsub 32 seqno s.seqno % 2 ^ 16) else s

/-- The loop of `tcp_oos_insert_segment` and the test after it. -/
def absorb (cseg : Seg) : List Seg → List Seg
  | [] => [cseg]
  | next :: rest =>
    if 0 ≤ seqDiff (cseg.seqno + cseg.len) (next.seqno + next.len) then
      absorb { cseg with fin := cseg.fin || next.fin } rest
    else if 0 < seqDiff (cseg.seqno + cseg.len) next.seqno then
      cseg.trim (wsub 32 next.seqno cseg.seqno % 2 ^ 16) :: next :: rest
    else cseg :: next :: rest

def tcpOosInsertSegment (cseg : Seg) (next : List Seg) : List Seg := if cseg.fin then [cseg] else absorb cseg next

/-- The incoming segment lies behind the last one of the queue; `right` is the right edge of the window. -/
def appendLast (inseg : Seg) (right : Nat) (last : Seg) : List Seg :=
  if last.fin then [last] else
    [last.clip inseg.seqno,
      if 0 < seqDiff (inseg.seqno + inseg.tcplen) right then
        { inseg with fin := false }.trim (wsub 32 right inseg.seqno % 2 ^ 16)
      else inseg]

/-- The loop over `ooseq` from its second turn on. -/
def queueAfter (inseg : Seg) (right : Nat) (prev : Seg) : List Seg → List Seg
  | [] => [prev]
  | next :: rest =>
    if inseg.seqno = next.seqno then
      prev :: if next.len < inseg.len then tcpOosInsertSegment inseg (next :: rest) else next :: rest
    else if SeqBetween inseg.seqno (prev.seqno + 1) (next.seqno - 1) then
      prev.clip inseg.seqno :: tcpOosInsertSegment inseg (next :: rest)
    else if rest = [] ∧ 0 < seqDiff inseg.seqno next.seqno then prev :: appendLast inseg right next
    else prev :: queueAfter inseg right next rest

/-- The first turn, where there is no `prev`. -/
def queueFirst (inseg : Seg) (right : Nat) : List Seg → List Seg
  | [] => [inseg]
  | next :: rest =>
    if inseg.seqno = next.seqno then
      if next.len < inseg.len then tcpOosInsertSegment inseg (next :: rest) else next :: rest
    else if seqDiff inseg.seqno next.seqno < 0 then tcpOosInsertSegment inseg (next :: rest)
    else if rest = [] ∧ 0 < seqDiff inseg.seqno next.seqno then appendLast inseg right next
    else queueAfter inseg right next rest

/-- Queued segments that segment `inseg` in sequence covers are dropped, and its end where the next one begins. -/
def cover (inseg : Seg) : List Seg → Seg × List Seg
  | [] => (inseg, [])
  | next :: rest =>
    if 0 ≤ seqDiff (inseg.seqno + inseg.tcplen) (next.seqno + next.len) then
      cover { inseg with fin := inseg.fin || (next.fin && !inseg.syn) } rest
    else if 0 < seqDiff (inseg.seqno + inseg.tcplen) next.seqno then
      (inseg.trim (wsub 16 (wsub 32 next.seqno inseg.seqno) inseg.syn.toNat), next :: rest)
    else (inseg, next :: rest)

/-- The fields of `struct tcp_pcb` for the receiving side, and what the calls so far have passed on: the bytes of
`recv_data`, and `TF_GOT_FIN`, after which the state is `CLOSE_WAIT` or a later one. -/
structure Inbound where
  rcvNxt : Nat
  rcvWnd : Nat
  ooseq : List Seg
  delivered : List UInt8
  eof : Bool
deriving DecidableEq, Repr

/-- A segment in sequence is passed on. -/
def Inbound.accept (r : Inbound) (s : Seg) : Inbound :=
  { r with
    rcvNxt := wadd 32 s.seqno s.tcplen, rcvWnd := wsub 32 r.rcvWnd s.tcplen
    delivered := r.delivered ++ s.p, eof := r.eof || s.fin }

/-- The loop over the queued segments that are now in sequence. -/
def Inbound.drain (r : Inbound) : List Seg → Inbound
  | [] => { r with ooseq := [] }
  | cseg :: rest => if cseg.seqno = r.rcvNxt then (r.accept cseg).drain rest else { r with ooseq := cseg :: rest }

def Inbound.inSequence (r : Inbound) (inseg : Seg) : Inbound :=
  let fitted := if r.rcvWnd < inseg.tcplen then
    { inseg with fin := false }.trim (wsub 16 r.rcvWnd inseg.syn.toNat) else inseg
  -- a segment with FIN makes the queue superfluous
  let (whole, queue) := if fitted.fin then (fitted, []) else cover fitted r.ooseq
  (r.accept whole).drain queue

/-- The bytes before `rcv_nxt` are hidden by `pbuf_header`, which takes a signed 16-bit offset. -/
def Seg.advance (s : Seg) (nxt : Nat) : Seg :=
  if SeqBetween nxt (s.seqno + 1) (s.seqno + s.tcplen - 1) then
    let off := wsub 32 nxt s.seqno
    { s with seqno := nxt, len := wsub 16 s.len off, p := if off ≤ 2 ^ 15 then s.p.drop off else s.p }
  else s

/-- The text of a segment in `tcp_receive`; `copied` is whether `tcp_seg_copy` gets its memory. -/
def Inbound.tcpReceive (r : Inbound) (inseg : Seg) (copied : Bool) : Inbound :=
  if inseg.tcplen = 0 ∨ r.eof then r else
    let inseg := inseg.advance r.rcvNxt
    if SeqBetween inseg.seqno r.rcvNxt (r.rcvNxt + r.rcvWnd - 1) then
      if r.rcvNxt = inseg.seqno then r.inSequence inseg
      else if copied then { r with ooseq := queueFirst inseg (wadd 32 r.rcvNxt r.rcvWnd) r.ooseq } else r
    else r

/-- `TCP_WND`. -/
def tcpWnd : Nat := 2 ^ 15

def Inbound.tcpRecved (r : Inbound) (len : Nat) : Inbound := { r with rcvWnd := min (wadd 32 r.rcvWnd len) tcpWnd }

/-- `expired`: the queue has waited too long, and `tcp_slowtmr` drops it. -/
inductive RecvEvent where
  | segment (inseg : Seg) (copied : Bool)
  | recved (len : Nat)
  | expired

def Inbound.next (r : Inbound) : RecvEvent → Inbound
  | .segment inseg copied => r.tcpReceive inseg copied
  | .recved len => r.tcpRecved len
  | .expired => { r with ooseq := [] }

section Stream

/-- What the peer sends: the bytes at the places from `start` up to `last`, which is the place of the FIN. -/
structure Text where
  byte : Nat → UInt8
  start : Nat
  last : Nat
  inside : start ≤ last

variable {T : Text} {edge lo lo' x y : Nat} {s inseg prev next : Seg} {q : List Seg}

/-- The segment carries what is at the places from `x` on, up to the edge of the window. -/
structure Cut (T : Text) (edge x : Nat) (s : Seg) : Prop where
  seqno : s.seqno = x % 2 ^ 32
  bytes : s.p = piece T.byte x s.len
  text : 0 < s.tcplen
  stop : x + s.len ≤ T.last
  fin : s.fin = true → x + s.len = T.last
  syn : s.syn = false
  small : s.len ≤ tcpWnd
  room : x + s.tcplen ≤ edge

/-- Segments in the order of their places, without overlap. -/
def Lined (T : Text) (edge : Nat) : Nat → List Seg → Prop
  | _, [] => True
  | lo, s :: rest => ∃ x, lo ≤ x ∧ Cut T edge x s ∧ Lined T edge (x + s.tcplen) rest

/-- The extent of a segment, for arithmetic. -/
theorem Cut.extent (cut : Cut T edge x s) :
    s.tcplen = s.len + s.fin.toNat ∧ 0 < s.tcplen ∧ x + s.tcplen ≤ edge ∧ s.len ≤ 2 ^ 15 ∧ x + s.len ≤ T.last ∧
      (s.fin.toNat = 0 ∨ s.fin.toNat = 1 ∧ x + s.len = T.last) := by
  have ends := cut.fin
  refine ⟨?_, cut.text, cut.room, cut.small, cut.stop, ?_⟩
  · cases fin : s.fin <;> simp [Seg.tcplen, fin, cut.syn]
  · cases fin : s.fin <;> simp_all

theorem Cut.trim {n : Nat} (cut : Cut T edge x s) (some : 0 < n) (less : n ≤ s.len) (fin : s.fin = false) :
    Cut T edge x (s.trim n) ∧ (s.trim n).tcplen = n := by
  have extent := cut.extent
  have reach : (s.trim n).tcplen = n := by simp [Seg.tcplen, Seg.trim, fin, cut.syn]
  refine ⟨⟨cut.seqno, ?_, by omega, (Nat.add_le_add_left less x).trans cut.stop, ?_, cut.syn, less.trans cut.small, by omega⟩, reach⟩
  · rw [Seg.trim, cut.bytes, take_piece T.byte x less]
  · simp [Seg.trim, fin]

theorem Cut.unfinished (cut : Cut T edge x s) (before : x + s.tcplen ≤ T.last) : s.fin = false := by
  cases fin : s.fin with
  | false => rfl
  | true =>
    have ends := cut.fin fin
    have extent := cut.extent.1
    rw [fin, Bool.toNat_true] at extent
    omega

/-- A segment whose bytes end the stream may take over the FIN of another one. -/
theorem Cut.close {b : Bool} (cut : Cut T edge x s) (ends : b = true → x + s.len = T.last)
    (room : x + s.len + b.toNat ≤ edge) :
    Cut T edge x { s with fin := s.fin || b } ∧ s.tcplen ≤ { s with fin := s.fin || b }.tcplen := by
  cases b with
  | false => simpa using cut
  | true =>
    have longer : { s with fin := s.fin || true }.tcplen = s.len + 1 := by simp [Seg.tcplen]
    have extent := cut.extent
    rw [Bool.toNat_true] at room
    exact ⟨⟨cut.seqno, cut.bytes, by omega, cut.stop, fun _ => ends rfl, cut.syn, cut.small, by omega⟩, by omega⟩

/-- Sequence numbers in two segments compare as their places do. -/
theorem Cut.diff {t : Seg} {a b : Int} (cut : Cut T edge x s) (there : Cut T edge y t)
    (above : x + a - (y + b) < 2 ^ 31) (below : y + b - (x + a) ≤ 2 ^ 31) :
    seqDiff (s.seqno + a) (t.seqno + b) = x + a - (y + b) := by
  rw [cut.seqno, there.seqno]
  exact seqDiff_near (by omega) (by omega) above below

theorem Cut.same {t : Seg} (cut : Cut T edge x s) (there : Cut T edge y t) (near : x < y + 2 ^ 31) (near' : y < x + 2 ^ 31) :
    s.seqno = t.seqno ↔ x = y := by
  rw [cut.seqno, there.seqno]
  omega

theorem Lined.widen {edge' : Nat} (lined : Lined T edge lo q) (wider : edge ≤ edge') : Lined T edge' lo q := by
  induction q generalizing lo with
  | nil => trivial
  | cons s rest ih =>
    obtain ⟨x, above, cut, later⟩ := lined
    exact ⟨x, above, { cut with room := cut.room.trans wider }, ih later⟩

/-- What lies between two places less than a segment apart, as the code computes it. -/
theorem word_gap (below : x ≤ y) (near : y - x < 2 ^ 16) : wsub 32 (y % 2 ^ 32) (x % 2 ^ 32) % 2 ^ 16 = y - x := by
  unfold wsub
  omega

theorem Lined.absorb (short : edge < x + 2 ^ 31) (low : lo ≤ x) (cut : Cut T edge x s) (behind : x < lo')
    (lined : Lined T edge lo' q) : Lined T edge lo (absorb s q) := by
  induction q generalizing s lo' with
  | nil => exact ⟨x, low, cut, trivial⟩
  | cons next rest ih =>
    obtain ⟨y, above, there, later⟩ := lined
    have extent := cut.extent
    have extent' := there.extent
    have ends := cut.diff there (a := s.len) (b := next.len) (by omega) (by omega)
    have starts := cut.diff there (a := s.len) (b := 0) (by omega) (by omega)
    rw [Int.add_zero, Int.add_zero] at starts
    rw [Tcp.absorb, ends, starts]
    split_ifs with covered overlaps
    · have finish : next.fin = true → x + s.len = T.last := fun fin => by have := there.fin fin; omega
      exact ih (cut.close finish (by omega)).1 (by omega) later
    · have gap : wsub 32 next.seqno s.seqno % 2 ^ 16 = y - x := by
        rw [cut.seqno, there.seqno]
        exact word_gap (by omega) (by omega)
      obtain ⟨trimmed, reach⟩ := cut.trim (n := y - x) (by omega) (by omega) (cut.unfinished (by omega))
      rw [gap]
      exact ⟨x, low, trimmed, y, by omega, there, later⟩
    · exact ⟨x, low, cut, y, by omega, there, later⟩

theorem Lined.oosInsert (short : edge < x + 2 ^ 31) (low : lo ≤ x) (cut : Cut T edge x s) (behind : x < lo')
    (lined : Lined T edge lo' q) : Lined T edge lo (tcpOosInsertSegment s q) := by
  unfold tcpOosInsertSegment
  split_ifs
  · exact ⟨x, low, cut, trivial⟩
  · exact lined.absorb short low cut behind

/-- The place of the first segment is that of the incoming one: of the two the longer one is kept. -/
theorem Lined.replace (short : edge < x + 2 ^ 31) (low : lo ≤ x) (cut : Cut T edge x s) (there : Cut T edge x next)
    (later : Lined T edge (x + next.tcplen) q) :
    Lined T edge lo (if next.len < s.len then tcpOosInsertSegment s (next :: q) else next :: q) := by
  have extent := cut.extent
  have extent' := there.extent
  have ends := cut.diff there (a := s.len) (b := next.len) (by omega) (by omega)
  split_ifs with longer
  · unfold tcpOosInsertSegment
    split_ifs
    · exact ⟨x, low, cut, trivial⟩
    · have finish : next.fin = true → x + s.len = T.last := fun fin => by have := there.fin fin; omega
      rw [Tcp.absorb, if_pos (by omega)]
      exact later.absorb short low (cut.close finish (by omega)).1 (by omega)
  · exact ⟨x, low, there, later⟩

theorem Cut.clip (behind : y < x) (near : x < y + 2 ^ 31) (cut : Cut T edge y s) (fin : s.fin = false) :
    Cut T edge y (s.clip (x % 2 ^ 32)) ∧ y + (s.clip (x % 2 ^ 32)).tcplen ≤ x := by
  have extent := cut.extent
  have ends : seqDiff (s.seqno + s.len) (x % 2 ^ 32 : Nat) = (y + s.len : Int) - x := by
    rw [cut.seqno]
    exact seqDiff_near (by omega) (by omega) (by omega) (by omega)
  rw [fin, Bool.toNat_false] at extent
  rw [Seg.clip, ends]
  split_ifs with overlaps
  · obtain ⟨trimmed, reach⟩ := cut.trim (n := x - y) (by omega) (by omega) fin
    rw [cut.seqno, word_gap behind.le (by omega)]
    exact ⟨trimmed, by omega⟩
  · exact ⟨cut, by omega⟩

section Insertion

variable (short : edge < lo + 2 ^ 31) (cut : Cut T edge x inseg)
include short cut

theorem Lined.appendLast (low : lo ≤ y) (behind : y < x) (there : Cut T edge y prev) :
    Lined T edge lo (appendLast inseg (edge % 2 ^ 32) prev) := by
  have extent := cut.extent
  have inside : seqDiff (inseg.seqno + inseg.tcplen) (edge % 2 ^ 32 : Nat) = (x + inseg.tcplen : Int) - edge := by
    rw [cut.seqno]
    exact seqDiff_near (by omega) (by omega) (by omega) (by omega)
  unfold Tcp.appendLast
  split_ifs with shut overrun
  · exact ⟨y, low, there, trivial⟩
  · omega
  · obtain ⟨clipped, reach⟩ := there.clip behind (by omega) (by simpa using shut)
    rw [cut.seqno]
    exact ⟨y, low, clipped, x, reach, cut, trivial⟩

theorem Lined.queueAfter (low : lo ≤ y) (behind : y < x) (there : Cut T edge y prev)
    (later : Lined T edge (y + prev.tcplen) q) : Lined T edge lo (queueAfter inseg (edge % 2 ^ 32) prev q) := by
  induction q generalizing prev lo y with
  | nil => exact ⟨y, low, there, trivial⟩
  | cons next rest ih =>
    obtain ⟨z, above, beyond, further⟩ := later
    have extent := cut.extent
    have extent' := there.extent
    have extent'' := beyond.extent
    have same := cut.same beyond (by omega) (by omega)
    have between : SeqBetween inseg.seqno (prev.seqno + 1) (next.seqno - 1) ↔ (y + 1 : Int) ≤ x ∧ (x : Int) ≤ z - 1 := by
      rw [cut.seqno, there.seqno, beyond.seqno]
      exact seqBetween_near (by omega) (by omega) (by omega) (by omega) (by omega)
    rw [Tcp.queueAfter]
    by_cases equal : inseg.seqno = next.seqno
    · obtain rfl := same.1 equal
      rw [if_pos equal]
      exact ⟨y, low, there, Lined.replace (by omega) above cut beyond further⟩
    have apart := mt same.2 equal
    simp only [if_neg equal, between]
    split_ifs with inside at_end
    · obtain ⟨clipped, reach⟩ := there.clip behind (by omega) (there.unfinished (by omega))
      rw [cut.seqno]
      exact ⟨y, low, clipped, Lined.oosInsert (by omega) reach cut (by omega : x < z) ⟨z, le_rfl, beyond, further⟩⟩
    · exact ⟨y, low, there, Lined.appendLast (by omega) cut above (by omega) beyond⟩
    · exact ⟨y, low, there, ih (by omega) above (by omega) beyond further⟩

theorem Lined.queueFirst (low : lo ≤ x) (lined : Lined T edge lo q) :
    Lined T edge lo (queueFirst inseg (edge % 2 ^ 32) q) := by
  cases q with
  | nil => exact ⟨x, low, cut, trivial⟩
  | cons next rest =>
    obtain ⟨z, above, beyond, later⟩ := lined
    have extent := cut.extent
    have extent' := beyond.extent
    have same := cut.same beyond (by omega) (by omega)
    have order := cut.diff beyond (a := 0) (b := 0) (by omega) (by omega)
    simp only [Int.add_zero] at order
    rw [Tcp.queueFirst]
    by_cases equal : inseg.seqno = next.seqno
    · obtain rfl := same.1 equal
      rw [if_pos equal]
      exact Lined.replace (by omega) low cut beyond later
    have apart := mt same.2 equal
    rw [if_neg equal]
    split_ifs with before at_end
    · exact Lined.oosInsert (by omega) low cut (by omega : x < z) ⟨z, le_rfl, beyond, later⟩
    · exact Lined.appendLast short cut above (by omega) beyond
    · exact Lined.queueAfter short cut above (by omega) beyond later

end Insertion

/-- A segment in sequence covers the queue as far as it reaches: either it is not cut short, or the next one on the
queue follows it and reaches as far. -/
theorem Lined.cover (short : edge < x + 2 ^ 31) (cut : Cut T edge x inseg) (behind : x < lo')
    (lined : Lined T edge lo' q) :
    ∃ whole queue, cover inseg q = (whole, queue) ∧ Cut T edge x whole ∧ Lined T edge (x + whole.tcplen) queue ∧
      (inseg.tcplen ≤ whole.tcplen ∨ ∃ next rest, queue = next :: rest ∧ Cut T edge (x + whole.tcplen) next ∧
        inseg.tcplen ≤ whole.tcplen + next.tcplen) := by
  induction q generalizing inseg lo' with
  | nil => exact ⟨inseg, [], rfl, cut, trivial, .inl le_rfl⟩
  | cons next rest ih =>
    obtain ⟨y, above, there, later⟩ := lined
    have extent := cut.extent
    have extent' := there.extent
    have ends := cut.diff there (a := inseg.tcplen) (b := next.len) (by omega) (by omega)
    have starts := cut.diff there (a := inseg.tcplen) (b := 0) (by omega) (by omega)
    rw [Int.add_zero, Int.add_zero] at starts
    have taken : (next.fin && !inseg.syn) = next.fin := by simp [cut.syn]
    rw [Tcp.cover, ends, starts, taken]
    split_ifs with covered overlaps
    · have finish : next.fin = true → x + inseg.len = T.last := fun fin => by have := there.fin fin; omega
      obtain ⟨closed, more⟩ := cut.close finish (by omega)
      obtain ⟨whole, queue, result, cut', lined', reach⟩ := ih closed (by omega) later
      refine ⟨whole, queue, result, cut', lined', reach.imp more.trans ?_⟩
      rintro ⟨head, tail, eq, at_end, far⟩
      exact ⟨head, tail, eq, at_end, more.trans far⟩
    · have gap : wsub 16 (wsub 32 next.seqno inseg.seqno) inseg.syn.toNat = y - x := by
        rw [cut.seqno, there.seqno, cut.syn, Bool.toNat_false, wsub_eq_mod (Nat.zero_le _), Nat.sub_zero]
        exact word_gap (by omega) (by omega)
      obtain ⟨trimmed, reach⟩ := cut.trim (n := y - x) (by omega) (by omega) (cut.unfinished (by omega))
      have at_y : x + (inseg.trim (y - x)).tcplen = y := by omega
      rw [gap]
      refine ⟨_, _, rfl, trimmed, ⟨y, by omega, there, later⟩, .inr ⟨next, rest, rfl, ?_, by omega⟩⟩
      rwa [at_y]
    · exact ⟨_, _, rfl, cut, ⟨y, by omega, there, later⟩, .inl le_rfl⟩

/-- The place of `rcv_nxt`. -/
def Inbound.place (T : Text) (r : Inbound) : Nat := T.start + r.delivered.length + r.eof.toNat

/-- What has been passed on is the stream up to `rcv_nxt`. -/
structure InOrder (T : Text) (r : Inbound) : Prop where
  bytes : r.delivered = piece T.byte T.start r.delivered.length
  nxt : r.rcvNxt = r.place T % 2 ^ 32
  size : r.rcvWnd ≤ tcpWnd
  stop : T.start + r.delivered.length ≤ T.last
  eof : r.eof = true → T.start + r.delivered.length = T.last

/-- Between two calls, everything on the queue lies beyond a gap. -/
structure Assembled (T : Text) (r : Inbound) : Prop extends InOrder T r where
  queue : Lined T (r.place T + r.rcvWnd) (r.place T + 1) r.ooseq

variable {r : Inbound}

theorem InOrder.accept (order : InOrder T r) (cut : Cut T (r.place T + r.rcvWnd) (r.place T) s) (more : r.eof = false) :
    InOrder T (r.accept s) ∧ (r.accept s).place T = r.place T + s.tcplen ∧
      (r.accept s).rcvWnd = r.rcvWnd - s.tcplen := by
  have extent := cut.extent
  have size := order.size
  have here : r.place T = T.start + r.delivered.length := by simp [Inbound.place, more]
  have wnd : (r.accept s).rcvWnd = r.rcvWnd - s.tcplen := wsub_of_le (by omega) (by unfold tcpWnd at size; omega)
  have total : (r.accept s).delivered.length = r.delivered.length + s.len := by simp [Inbound.accept, cut.bytes]
  have shut : (r.accept s).eof = s.fin := by simp [Inbound.accept, more]
  have there : (r.accept s).place T = r.place T + s.tcplen := by
    rw [Inbound.place, total, shut]
    omega
  refine ⟨⟨?_, ?_, by omega, by omega, ?_⟩, there, wnd⟩
  · rw [total, ← piece_append, ← order.bytes, ← here, ← cut.bytes]
    rfl
  · rw [there, ← Nat.mod_add_mod, ← cut.seqno]
    rfl
  · rw [shut, total, ← Nat.add_assoc, ← here]
    exact cut.fin

theorem InOrder.requeue (order : InOrder T r)
    (lined : Lined T (r.place T + r.rcvWnd) (r.place T + 1) q) :
    Assembled T { r with ooseq := q } := ⟨⟨order.bytes, order.nxt, order.size, order.stop, order.eof⟩, lined⟩

/-- The loop leaves a gap before the queue, and does not stop before the end of a segment in sequence. -/
theorem InOrder.drain (order : InOrder T r) (edge_eq : r.place T + r.rcvWnd = edge)
    (lined : Lined T edge (r.place T) q) :
    Assembled T (r.drain q) ∧ (r.drain q).place T + (r.drain q).rcvWnd = edge ∧
      r.place T ≤ (r.drain q).place T ∧
      ∀ next rest, q = next :: rest → Cut T edge (r.place T) next →
        r.place T + next.tcplen ≤ (r.drain q).place T := by
  induction q generalizing r with
  | nil => exact ⟨order.requeue trivial, edge_eq, le_rfl, by simp⟩
  | cons cseg rest ih =>
    obtain ⟨x, above, cut, later⟩ := lined
    have extent := cut.extent
    have size := order.size
    have word := order.nxt
    unfold tcpWnd at size
    rw [Inbound.drain]
    split_ifs with now
    · have here : x = r.place T := by
        rw [cut.seqno, word] at now
        omega
      have more : r.eof = false := by
        cases shut : r.eof with
        | false => rfl
        | true =>
          have at_end := order.eof shut
          simp only [Inbound.place, shut, Bool.toNat_true] at above
          omega
      subst here
      obtain ⟨order', place', wnd'⟩ := order.accept (by rwa [edge_eq]) more
      obtain ⟨done, same, mono, -⟩ := ih order' (by omega) (by rwa [place'])
      refine ⟨done, same, by omega, fun next rest eq _ => ?_⟩
      obtain rfl := (List.cons.inj eq).1
      omega
    · have gap : r.place T ≠ x := fun here => now (by rw [cut.seqno, word, here])
      refine ⟨order.requeue ?_, edge_eq, le_rfl, ?_⟩
      · rw [edge_eq]
        exact ⟨x, by omega, cut, later⟩
      · intro next _ eq at_edge
        obtain rfl := (List.cons.inj eq).1
        exact absurd (at_edge.seqno.trans word.symm) now

theorem Assembled.inSequence (done : Assembled T r) (cut : Cut T (r.place T + r.rcvWnd) (r.place T) s)
    (more : r.eof = false) : Assembled T (r.inSequence s) ∧ r.place T + s.tcplen ≤ (r.inSequence s).place T := by
  have size := done.size
  have room := cut.room
  unfold tcpWnd at size
  simp only [Inbound.inSequence, if_neg (show ¬ r.rcvWnd < s.tcplen by omega)]
  cases fin : s.fin with
  | true =>
    obtain ⟨order, place, -⟩ := done.toInOrder.accept cut more
    obtain ⟨kept, -, mono, -⟩ := order.drain (q := []) rfl trivial
    exact ⟨kept, by rwa [place] at mono⟩
  | false =>
    obtain ⟨whole, queue, result, cut', lined, reach⟩ := done.queue.cover (by omega) cut (Nat.lt_succ_self _)
    have room' := cut'.room
    obtain ⟨order, place, wnd⟩ := done.toInOrder.accept cut' more
    obtain ⟨kept, -, mono, next⟩ := order.drain (by omega : _ + _ = r.place T + r.rcvWnd) (by rwa [place])
    simp only [Bool.false_eq_true, if_false, result]
    refine ⟨kept, ?_⟩
    rcases reach with far | ⟨head, tail, eq, at_end, far⟩
    · omega
    · have := next head tail eq (by rwa [place])
      omega

/-- The part of a segment that is there already is cut off; what is left ends where the segment ended. -/
theorem Cut.advance {n : Nat} (cut : Cut T edge x s) (near : n < x + 2 ^ 30) (near' : x < n + 2 ^ 30) :
    ∃ y, Cut T edge y (s.advance (n % 2 ^ 32)) ∧ y + (s.advance (n % 2 ^ 32)).tcplen = x + s.tcplen ∧
      x ≤ y ∧ (y = x ∧ (n ≤ x ∨ x + s.tcplen ≤ n) ∨ y = n) := by
  have extent := cut.extent
  have between : SeqBetween (n % 2 ^ 32 : Nat) (s.seqno + 1) (s.seqno + s.tcplen - 1) ↔
      (x + 1 : Int) ≤ n ∧ (n : Int) ≤ x + s.tcplen - 1 := by
    rw [cut.seqno]
    exact seqBetween_near (by omega) (by omega) (by omega) (by omega) (by omega)
  unfold Seg.advance
  by_cases inside : (x + 1 : Int) ≤ n ∧ (n : Int) ≤ x + s.tcplen - 1
  · have off : wsub 32 (n % 2 ^ 32) s.seqno = n - x := by
      rw [cut.seqno]
      unfold wsub
      omega
    have len : wsub 16 s.len (n - x) = s.len - (n - x) := wsub_of_le (by omega) (by omega)
    have reach : s.tcplen = s.len + if s.fin || s.syn then 1 else 0 := rfl
    simp only [if_pos (between.2 inside), off, len, if_pos (show n - x ≤ 2 ^ 15 by omega)]
    refine ⟨n, ⟨rfl, ?_, ?_, ?_, ?_, cut.syn, (Nat.sub_le _ _).trans cut.small, ?_⟩, ?_, by omega, .inr rfl⟩ <;>
      simp only [Seg.tcplen]
    · rw [cut.bytes, drop_piece, Nat.add_sub_cancel' (by omega)]
    · omega
    · omega
    · intro fin
      have := cut.fin fin
      omega
    · omega
    · omega
  · rw [if_neg (mt between.1 inside)]
    exact ⟨x, cut, rfl, le_rfl, .inl ⟨rfl, by omega⟩⟩

/-- A segment of the peer leaves the bytes in order, and if it begins at the edge or before it, all of it is passed on. -/
theorem Assembled.tcpReceive (done : Assembled T r) (cut : Cut T (r.place T + r.rcvWnd) x s)
    (near : r.place T < x + 2 ^ 30) (copied : Bool) :
    Assembled T (r.tcpReceive s copied) ∧
      (r.eof = false → x ≤ r.place T → x + s.tcplen ≤ (r.tcpReceive s copied).place T) := by
  have size := done.size
  have extent := cut.extent
  unfold tcpWnd at size
  obtain ⟨y, cut', same, lower, at_edge⟩ := cut.advance near (by omega)
  have text' := cut'.text
  rw [← done.nxt] at cut' same text'
  have between : SeqBetween (s.advance r.rcvNxt).seqno r.rcvNxt (r.rcvNxt + r.rcvWnd - 1) ↔
      (r.place T : Int) ≤ y ∧ (y : Int) ≤ r.place T + r.rcvWnd - 1 := by
    rw [cut'.seqno, done.nxt]
    exact seqBetween_near (by omega) (by omega) (by omega) (by omega) (by omega)
  have apart : ¬ r.rcvNxt = (s.advance r.rcvNxt).seqno → y ≠ r.place T := fun other here =>
    other (by rw [cut'.seqno, here, done.nxt])
  simp only [Inbound.tcpReceive, between]
  split_ifs with idle inside now
  · exact ⟨done, fun more => by simp [more] at idle; omega⟩
  · obtain rfl : y = r.place T := by
      rw [cut'.seqno, done.nxt] at now
      omega
    obtain ⟨kept, reach⟩ := done.inSequence cut' (by simpa using (not_or.1 idle).2)
    exact ⟨kept, fun _ _ => by omega⟩
  · have := apart now
    have right : wadd 32 r.rcvNxt r.rcvWnd = (r.place T + r.rcvWnd) % 2 ^ 32 := by
      rw [done.nxt, wadd, Nat.mod_add_mod]
    rw [right]
    exact ⟨done.requeue (Lined.queueFirst (by omega) cut' (by omega) done.queue), fun _ _ => by omega⟩
  · have := apart now
    exact ⟨done, fun _ _ => by omega⟩
  · exact ⟨done, fun _ _ => by omega⟩

theorem Assembled.tcpRecved {len : Nat} (done : Assembled T r) (fits : r.rcvWnd + len < 2 ^ 32) :
    Assembled T (r.tcpRecved len) := by
  have grows : r.rcvWnd ≤ min (wadd 32 r.rcvWnd len) tcpWnd := by
    rw [wadd_of_lt fits]
    exact le_min (Nat.le_add_right _ _) done.size
  exact ⟨⟨done.bytes, done.nxt, Nat.min_le_right _ _, done.stop, done.eof⟩,
    done.queue.widen (Nat.add_le_add_left grows _)⟩

/-- A peer that keeps to one content and to the window, and whose segments are less than `2 ^ 30` bytes
old; the application acknowledges no more than a window may count. -/
def Honest (T : Text) (r : Inbound) : RecvEvent → Prop
  | .segment s _ =>
    s.tcplen = 0 ∨ ∃ x, Cut T (r.place T + r.rcvWnd) x s ∧ r.place T < x + 2 ^ 30
  | .recved len => r.rcvWnd + len < 2 ^ 32
  | .expired => True

/-- A new connection. -/
def Inbound.fresh (T : Text) : Inbound := ⟨T.start % 2 ^ 32, tcpWnd, [], [], false⟩

theorem Assembled.run {events : List RecvEvent}
    (run : Run (Applies Inbound.next (Honest T)) (Inbound.fresh T) events r) : Assembled T r := by
  refine Run.invariant ?_ run ⟨⟨rfl, rfl, le_rfl, T.inside, nofun⟩, trivial⟩
  rintro r (⟨s, copied⟩ | len | _) _ ⟨honest, rfl⟩ done
  · rcases honest with empty | ⟨x, cut, near⟩
    · simpa [Inbound.next, Inbound.tcpReceive, empty] using done
    · exact (done.tcpReceive cut near copied).1
  · exact done.tcpRecved honest
  · exact done.requeue trivial

/-- Three bytes at places around `2 ^ 32`, of which the last one comes in first, with the FIN. -/
def wrapping : Text := ⟨UInt8.ofNat, 2 ^ 32 - 1, 2 ^ 32 + 2, by decide⟩

def tailSeg : Seg := ⟨1, 1, [1], true, false⟩

def headSeg : Seg := ⟨2 ^ 32 - 1, 2, [255, 0], false, false⟩

theorem wrapping_tail_first : Run (Applies Inbound.next (Honest wrapping)) (Inbound.fresh wrapping)
    [.segment tailSeg true] ((Inbound.fresh wrapping).next (.segment tailSeg true)) :=
  .single ⟨.inr ⟨2 ^ 32 + 1, ⟨rfl, rfl, by decide, by decide, fun _ => rfl, rfl, by decide, by decide⟩, by decide⟩, rfl⟩

theorem wrapping_head : Cut wrapping (2 ^ 32 - 1 + tcpWnd) (2 ^ 32 - 1) headSeg :=
  ⟨rfl, rfl, by decide, by decide, nofun, rfl, by decide, by decide⟩

/-- However the segments come in, what has been passed on is a beginning of what was sent, and all of it when the end is
reported. -/
theorem passed_on_in_order {events : List RecvEvent}
    (run : Run (Applies Inbound.next (Honest T)) (Inbound.fresh T) events r) :
    r.delivered <+: piece T.byte T.start (T.last - T.start) ∧
      (r.eof = true → r.delivered = piece T.byte T.start (T.last - T.start)) := by
  obtain ⟨⟨bytes, -, -, stop, eof⟩, -⟩ := Assembled.run run
  refine ⟨⟨piece T.byte (T.start + r.delivered.length) (T.last - T.start - r.delivered.length), ?_⟩, fun shut => ?_⟩
  · nth_rewrite 1 [bytes]
    rw [piece_append]
    congr 1
    omega
  · have := eof shut
    rw [bytes]
    congr 1
    omega

theorem wrapping_passed_on :
    (((Inbound.fresh wrapping).next (.segment tailSeg true)).next (.segment headSeg true)).delivered =
      piece wrapping.byte wrapping.start 3 :=
  (passed_on_in_order (wrapping_tail_first.append (.single (show Applies _ _ _ (.segment headSeg true) _ from
    ⟨.inr ⟨2 ^ 32 - 1, wrapping_head, by decide⟩, rfl⟩)))).2 (by decide)

/-- A segment that begins at the edge or before it is passed on to its end, whatever came before and whatever waits. -/
theorem next_segment_passed_on {events : List RecvEvent}
    (run : Run (Applies Inbound.next (Honest T)) (Inbound.fresh T) events r) (cut : Cut T (r.place T + r.rcvWnd) x s)
    (near : r.place T < x + 2 ^ 30) (copied : Bool) (more : r.eof = false) (at_edge : x ≤ r.place T) :
    x + s.tcplen ≤ (r.tcpReceive s copied).place T :=
  ((Assembled.run run).tcpReceive cut near copied).2 more at_edge

theorem wrapping_head_passed_on : 2 ^ 32 - 1 + headSeg.tcplen ≤
    (((Inbound.fresh wrapping).next (.segment tailSeg true)).tcpReceive headSeg false).place wrapping :=
  next_segment_passed_on wrapping_tail_first wrapping_head (by decide) false (by decide) (by decide)

end Stream

end Reflex.Tcp
