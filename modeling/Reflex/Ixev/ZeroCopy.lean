import Reflex.Ixev.Delivery

/-!
# Reading without copying

`ixev_recv_zc` of `libix/ixev.c` hands out a piece of the segment in the slot at the head. It does not compare head and
tail: on an empty ring the slot holds what was read from it before, by this connection or by one that had the memory earlier.
-/

namespace Reflex.Ixev.RecvCtx
open Lib List

/-- `ixev_recv_zc`, with the bytes that the pointer leads to. -/
def ixevRecvZc (s : RecvCtx) (len : Nat) : Option (List UInt8) × RecvCtx :=
  let ent := s.recv (s.recvHead % ixevRecvDepth)
  if s.isDead then (none, s)
  else if ent.length < len then (none, s)
  else
    let t := { s with recv := Function.update s.recv (s.recvHead % ixevRecvDepth) (ent.drop len), cut := s.cut + len }
    let t := if ent.length - len = 0 then { t with recvHead := wadd 16 t.recvHead 1, consumed := t.consumed + 1, cut := 0 } else t
    (some (ent.take len), { t.recvDone len with returned := t.returned ++ ent.take len })

inductive ZcOp where
  | base (op : RecvOp)
  | zc (len : Nat)

def nextZc (s : RecvCtx) : ZcOp → RecvCtx
  | .base op => s.next op
  | .zc len => (s.ixevRecvZc len).2

/-- The connection is alive, its ring does not overflow, and `ixev_recv_zc` is called when something is
unread, or with a length that the slot at the head does not have. -/
def Fits (s : RecvCtx) : ZcOp → Prop
  | .base .dead => False
  | .base op => s.Room op
  | .zc len => s.unread ≠ [] ∨ (s.recv (s.recvHead % ixevRecvDepth)).length < len

variable {s : RecvCtx} {len : Nat}

theorem Delivered.zc_short (delivered : Delivered s) (fits : s.Fits (.zc len))
    (short : ∀ first ∈ s.unread.head?, first.length < len) : s.ixevRecvZc len = (none, s) := by
  have less : (s.recv (s.recvHead % ixevRecvDepth)).length < len := by
    rcases fits with more | stale
    · obtain ⟨first, rest, oldest⟩ := exists_cons_of_ne_nil more
      rw [delivered.intact.entry oldest]
      exact short first (by rw [oldest]; rfl)
    · exact stale
  unfold ixevRecvZc
  simp only [if_pos less, ite_self]

theorem Delivered.zc_reads {first rest} (delivered : Delivered s)
    (oldest : s.unread = first :: rest) (enough : len ≤ first.length) :
    (s.ixevRecvZc len).1 = some (first.take len) ∧ Delivered (s.ixevRecvZc len).2 ∧
      (s.ixevRecvZc len).2.returned = s.returned ++ first.take len ∧ (s.ixevRecvZc len).2.received = s.received := by
  obtain ⟨edited, left⟩ := delivered.intact.edit len oldest
  have step : ∃ t, Moves s t ∧ Intact t ∧ t.unread.flatten = first.drop len ++ rest.flatten ∧
      s.ixevRecvZc len = (some (first.take len), { t.recvDone len with returned := t.returned ++ first.take len }) := by
    unfold ixevRecvZc
    simp only [if_neg (Bool.eq_false_iff.1 delivered.alive), delivered.intact.entry oldest, if_neg (Nat.not_lt.2 enough)]
    split_ifs with last
    · obtain ⟨passed, later⟩ := edited.pass left
      exact ⟨_, ⟨_, _, _, _, rfl⟩, passed, by rw [later, drop_of_length_le (by omega), nil_append], rfl⟩
    · exact ⟨_, ⟨_, _, _, _, rfl⟩, edited, by rw [left, flatten_cons], rfl⟩
  obtain ⟨t, moved, kept, later, call⟩ := step
  have length : (first.take len).length = len := by rw [length_take, Nat.min_eq_left enough]
  have split : s.unread.flatten = first.take len ++ t.unread.flatten := by
    rw [later, oldest, flatten_cons, ← append_assoc, take_append_drop]
  have returned := delivered.returns moved kept split
  obtain ⟨generation, desc, karr, frame⟩ := recvDone_frame t len
  have same : t.returned = s.returned ∧ t.received = s.received := by
    obtain ⟨recv, head, consumed, cut, rfl⟩ := moved
    exact ⟨rfl, rfl⟩
  rw [length] at returned
  rw [call, same.1]
  exact ⟨rfl, returned, rfl, by rw [frame]; exact same.2⟩

theorem Delivered.nextZc {op} (delivered : Delivered s) (fits : s.Fits op) :
    (s.nextZc op).exited = true ∨ Delivered (s.nextZc op) := by
  cases op with
  | base op =>
    cases op with
    | recv segment =>
      have head := delivered.intact.head
      have tail := delivered.intact.tail
      have order := delivered.intact.order
      by_cases space : s.backlog + 1 < ixevRecvDepth
      · exact .inr (delivered.ixevTcpRecv space)
      · have full : (s.recvTail : Int) - s.recvHead + 1 ≥ ixevRecvDepth := by
          have ahead : s.recvHead ≤ s.recvTail := fits.resolve_right space
          have bound := delivered.intact.bound
          unfold backlog ixevRecvDepth at *
          omega
        left
        show (s.ixevTcpRecv segment).exited = true
        rw [RecvCtx.ixevTcpRecv, if_pos full]
    | dead => exact fits.elim
    | read len => exact .inr (delivered.ixevRecv len).1
    | other => exact .inr (delivered.next (show s.Spare .other from trivial))
    | wait => exact .inr (delivered.next (show s.Spare .wait from trivial))
  | zc len =>
    right
    show Delivered (s.ixevRecvZc len).2
    cases oldest : s.unread with
    | nil =>
      rw [delivered.zc_short fits (by simp [oldest])]
      exact delivered
    | cons first rest =>
      rcases Nat.lt_or_ge first.length len with short | enough
      · rw [delivered.zc_short fits (by simpa [oldest] using short)]
        exact delivered
      · exact (delivered.zc_reads oldest enough).2.1

/-- After any run and as long as the process runs: what was returned and what is unread make up the
stream, the head is not beyond the tail, as much is acknowledged as was returned, and a call of
`ixev_recv_zc` returns the next bytes of the oldest segment, or nothing and changes nothing if that has fewer. -/
theorem zero_copy_returns_next_bytes {recv : Nat → List UInt8} {generation : Nat} {karr : List Unit} {ops : List ZcOp}
    (run : Run (Guarded (Applies RecvCtx.nextZc fun s _ => s.exited = false) Fits) (RecvCtx.init recv generation karr) ops s)
    (running : s.exited = false) :
    s.received.flatten = s.returned ++ s.unread.flatten ∧ s.credited = s.returned.length ∧
    s.unread.length < ixevRecvDepth ∧ s.recvTail = wadd 16 s.recvHead s.unread.length ∧
    ∀ len, s.Fits (.zc len) →
      ((∀ first ∈ s.unread.head?, first.length < len) → s.ixevRecvZc len = (none, s)) ∧
      ∀ first rest, s.unread = first :: rest → len ≤ first.length →
        (s.ixevRecvZc len).1 = some (first.take len) ∧ (s.ixevRecvZc len).2.returned = s.returned ++ first.take len ∧
        s.received.flatten = (s.ixevRecvZc len).2.returned ++ (s.ixevRecvZc len).2.unread.flatten := by
  have delivered : Delivered s := by
    apply Or.resolve_left _ (Bool.eq_false_iff.1 running)
    apply run.invariant (I := fun s => s.exited = true ∨ Delivered s) _ (.inr (Delivered.init recv generation karr))
    rintro s op _ ⟨⟨runs, rfl⟩, fits⟩ before
    exact (before.resolve_left (Bool.eq_false_iff.1 runs)).nextZc fits
  have bound := delivered.intact.bound
  rw [backlog_eq] at bound
  refine ⟨delivered.stream, delivered.credited, bound, ?_, fun len fits => ⟨delivered.zc_short fits, fun first rest oldest enough => ?_⟩⟩
  · have order := delivered.intact.order
    rw [← backlog_eq, backlog, delivered.intact.head, delivered.intact.tail]
    show _ = (s.consumed % 2 ^ 16 + (s.received.length - s.consumed)) % 2 ^ 16
    omega
  · obtain ⟨value, after, returned, received⟩ := delivered.zc_reads oldest enough
    exact ⟨value, returned, received ▸ after.stream⟩

theorem second_byte_without_copy : ∃ s,
    Run (Guarded (Applies RecvCtx.nextZc fun s _ => s.exited = false) Fits) (RecvCtx.init (fun _ => []) 0 [])
      [.base (.recv [1, 2]), .base (.read 1)] s ∧ (s.ixevRecvZc 1).1 = some [2] := by
  have run : Run (Guarded (Applies RecvCtx.nextZc fun s _ => s.exited = false) Fits) (RecvCtx.init (fun _ => []) 0 [])
      [.base (.recv [1, 2]), .base (.read 1)] _ := .cons ⟨⟨rfl, rfl⟩, .inl (Nat.le_refl 0)⟩ (.single ⟨⟨rfl, rfl⟩, trivial⟩)
  obtain ⟨-, -, -, -, zc⟩ := zero_copy_returns_next_bytes run rfl
  exact ⟨_, run, ((zc 1 (.inl (List.cons_ne_nil [2] []))).2 [2] [] rfl (by decide)).1⟩

/-- A connection reads its only segment, and the memory is used for another one, to which nothing
was sent: it is given the byte of the first, and its head passes its tail. -/
theorem stale_slot_is_returned : ∃ s, Run (Applies RecvCtx.next Valid) (RecvCtx.init (fun _ => []) 0 []) [.recv [7], .read 1] s ∧
    (((RecvCtx.init s.recv 0 []).ixevRecvZc 1).1 = some [7] ∧ (RecvCtx.init s.recv 0 []).unread = [] ∧
      ((RecvCtx.init s.recv 0 []).ixevRecvZc 1).2.recvHead = 1 ∧ ((RecvCtx.init s.recv 0 []).ixevRecvZc 1).2.recvTail = 0) :=
  ⟨_, .cons ⟨rfl, rfl⟩ (.single ⟨rfl, rfl⟩), rfl, rfl, rfl, rfl⟩

end Reflex.Ixev.RecvCtx
