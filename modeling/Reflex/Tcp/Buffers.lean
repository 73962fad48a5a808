import Mathlib.Data.List.Basic
import Reflex.Tcp.Api

/-!
# When received packets are freed

`on_recv` appends each packet to the list of its connection, and `bsys_tcp_recv_done` frees packets from the
front of it for the bytes that the application has consumed.
-/

namespace Reflex.Tcp
open Lib List

/-- One connection of a core, with the packets delivered to it and the bytes acknowledged so far. -/
structure Receiver where
  core : Core
  delivered : List Chain
  acked : Nat

def bytesOf (chains : List Chain) : Nat := (chains.map Chain.totLen).sum

inductive Receipt where
  | packet (chain : Chain)
  | recvDone (len : Nat)

namespace Receiver

/-- The packets that the connection still holds. -/
def held (api : Nat) (r : Receiver) : List Chain := (r.core.apis api).recvd

def next (api handle : Nat) (r : Receiver) : Receipt → Receiver
  | .packet chain => { r with core := r.core.onRecv api (some chain), delivered := r.delivered ++ [chain] }
  | .recvDone len => { r with core := (r.core.bsysTcpRecvDone handle len).2, acked := r.acked + len }

/-- The stack hands over packets with data only; the application acknowledges no more than it received. -/
def Valid (r : Receiver) : Receipt → Prop
  | .packet chain => 0 < chain.totLen
  | .recvDone len => r.acked + len ≤ bytesOf r.delivered

instance (r : Receiver) : (step : Receipt) → Decidable (r.Valid step)
  | .packet chain => Nat.decLt 0 chain.totLen
  | .recvDone len => Nat.decLe (r.acked + len) (bytesOf r.delivered)

/-- The number of packets freed so far: they go in order. -/
def freed (api : Nat) (r : Receiver) : Nat := r.delivered.length - (r.held api).length

/-- A packet is freed if and only if all bytes up to its end are acknowledged. -/
def Accurate (api : Nat) (r : Receiver) : Prop :=
  ∀ k < r.delivered.length, k < r.freed api ↔ bytesOf (r.delivered.take (k + 1)) ≤ r.acked

/-- Packets of one buffer each, and acknowledgements that end with a packet. -/
def Whole (api : Nat) (r : Receiver) : Receipt → Prop
  | .packet chain => chain.length = 1
  | .recvDone len => ∃ j, len = bytesOf ((r.held api).take j)

end Receiver

theorem Chain.len_eq_totLen {chain : Chain} (one : chain.length = 1) : chain.len = chain.totLen := by
  obtain ⟨p, rfl⟩ := length_eq_one_iff.1 one
  simp [Chain.len, Chain.totLen]

theorem keepRecvd_whole {chains} (ones : ∀ chain ∈ chains, chain.length = 1)
    (some : ∀ chain ∈ chains, 0 < chain.totLen) (j : Nat) :
    keepRecvd (bytesOf (chains.take j)) chains = chains.drop j := by
  induction chains generalizing j with
  | nil => simp [keepRecvd]
  | cons chain rest ih =>
    have length := Chain.len_eq_totLen (ones chain mem_cons_self)
    have positive := some chain mem_cons_self
    cases j with
    | zero =>
      rw [keepRecvd, if_pos]
      · rfl
      · rw [length]
        exact positive
    | succ j =>
      have covered : bytesOf ((chain :: rest).take (j + 1)) = chain.totLen + bytesOf (rest.take j) := rfl
      rw [keepRecvd, covered, length, if_neg (by omega), Nat.add_sub_cancel_left, drop_succ_cons]
      exact ih (fun c member => ones c (mem_cons_of_mem _ member))
        (fun c member => some c (mem_cons_of_mem _ member)) j

theorem bytesOf_take_add (chains : List Chain) (i j : Nat) :
    bytesOf (chains.take (i + j)) = bytesOf (chains.take i) + bytesOf ((chains.drop i).take j) := by
  rw [take_add, bytesOf, bytesOf, bytesOf, map_append, sum_append]

namespace Receiver

variable {api handle : Nat} {r : Receiver}

def Named (api handle : Nat) (core : Core) : Prop :=
  ¬ Malformed handle ∧ core.handle2pcb (handleIdx handle) = some api

/-- What holds while every packet is one buffer and every acknowledgement ends with a packet. -/
structure Settled (api handle : Nat) (r : Receiver) : Prop where
  named : Named api handle r.core
  ones : ∀ chain ∈ r.delivered, chain.length = 1
  some : ∀ chain ∈ r.delivered, 0 < chain.totLen
  split : ∃ k ≤ r.delivered.length, r.held api = r.delivered.drop k ∧ r.acked = bytesOf (r.delivered.take k)

theorem held_recvDone (named : Named api handle r.core) (len : Nat) :
    (r.next api handle (.recvDone len)).held api = keepRecvd len (r.held api) := by
  obtain ⟨formed, place⟩ := named
  simp only [held, next, Core.bsysTcpRecvDone, Core.handleToTcpapi, if_neg formed, place, Core.setApi, Function.update_self]

theorem held_packet (chain : Chain) : (r.next api handle (.packet chain)).held api = r.held api ++ [chain] := by
  simp only [held, next, Core.onRecv, Core.post, Core.setApi, Function.update_self]

theorem Named.next (named : Named api handle r.core) (step : Receipt) : Named api handle (r.next api handle step).core := by
  cases step with
  | packet chain => exact named
  | recvDone len =>
    refine ⟨named.1, ?_⟩
    simp only [Receiver.next, Core.bsysTcpRecvDone, Core.handleToTcpapi, if_neg named.1, named.2, Core.setApi]

theorem Settled.next {step} (settled : Settled api handle r) (valid : r.Valid step) (whole : r.Whole api step) :
    Settled api handle (r.next api handle step) := by
  obtain ⟨k, inside, kept, acked⟩ := settled.split
  cases step with
  | packet chain =>
    refine ⟨settled.named.next _, ?_, ?_, k, ?_, ?_, ?_⟩
    · exact forall_mem_append.2 ⟨settled.ones, fun c member => mem_singleton.1 member ▸ whole⟩
    · exact forall_mem_append.2 ⟨settled.some, fun c member => mem_singleton.1 member ▸ valid⟩
    · show k ≤ (r.delivered ++ [chain]).length
      rw [length_append]
      omega
    · rw [held_packet, kept]
      exact (drop_append_of_le_length inside).symm
    · show r.acked = bytesOf ((r.delivered ++ [chain]).take k)
      rw [take_append_of_le_length inside, acked]
  | recvDone len =>
    obtain ⟨j, rfl⟩ := whole
    refine ⟨settled.named.next _, settled.ones, settled.some, min (k + j) r.delivered.length, ?_, ?_, ?_⟩
    · exact Nat.min_le_right _ _
    · have held : r.held api ⊆ r.delivered := kept ▸ drop_subset k _
      rw [held_recvDone settled.named, keepRecvd_whole (fun c member => settled.ones c (held member))
        (fun c member => settled.some c (held member)), kept, drop_drop]
      show _ = r.delivered.drop _
      rcases Nat.le_total (k + j) r.delivered.length with below | above
      · rw [Nat.min_eq_left below]
      · rw [Nat.min_eq_right above, drop_eq_nil_of_le above, drop_length]
    · show r.acked + _ = bytesOf (r.delivered.take _)
      have same : r.delivered.take (min (k + j) r.delivered.length) = r.delivered.take (k + j) :=
        take_eq_take_iff.2 (by omega)
      rw [kept, acked, same, bytesOf_take_add]

theorem bytesOf_take_lt {chains : List Chain} (some : ∀ chain ∈ chains, 0 < chain.totLen) {i j : Nat} (less : i < j)
    (inside : i < chains.length) : bytesOf (chains.take i) < bytesOf (chains.take j) := by
  obtain ⟨d, rfl⟩ := Nat.exists_eq_add_of_lt less
  rw [Nat.add_assoc, bytesOf_take_add]
  have next : (chains.drop i).take (d + 1) = chains.get ⟨i, inside⟩ :: (chains.drop (i + 1)).take d := by
    rw [drop_eq_getElem_cons inside, take_succ_cons]
    rfl
  have positive := some _ (get_mem chains ⟨i, inside⟩)
  rw [next]
  show _ < _ + (Chain.totLen _ + bytesOf _)
  omega

theorem Settled.accurate (settled : Settled api handle r) : r.Accurate api := by
  obtain ⟨k, inside, kept, acked⟩ := settled.split
  have count : r.freed api = k := by
    rw [freed, kept, length_drop]
    omega
  intro i below
  rw [count, acked]
  constructor
  · intro before
    rcases Nat.eq_or_lt_of_le (Nat.succ_le_of_lt before) with rfl | less
    · exact Nat.le_refl _
    · exact (bytesOf_take_lt settled.some less (by omega)).le
  · intro covered
    by_contra after
    have more := bytesOf_take_lt settled.some (show k < i + 1 by omega) (by omega)
    omega

def start (core : Core) : Receiver := ⟨core, [], 0⟩

/-- A core with one connection, at the first place of the array. -/
def oneConnection : Core where
  apis _ := dialed 1 0
  handle2pcb i := if i = 0 then some 0 else none
  syscallCookie := 0
  usys := []
  faulted := false

/-- If every packet is a single buffer and every acknowledgement ends with a packet, then at any time just the packets
are freed whose bytes, and those of all earlier ones, are acknowledged. -/
theorem packets_freed_when_consumed {core : Core} {steps : List Receipt} (named : Named api handle core)
    (fresh : (core.apis api).recvd = [])
    (run : Run (Guarded (Applies (next api handle) Valid) (Whole api)) (start core) steps r) : r.Accurate api := by
  have settled : Settled api handle r := by
    apply run.invariant (I := Settled api handle)
    · rintro s step _ ⟨⟨valid, rfl⟩, whole⟩ settled
      exact settled.next valid whole
    · exact ⟨named, List.forall_mem_nil _, List.forall_mem_nil _, 0, Nat.le_refl 0, fresh, rfl⟩
  exact settled.accurate

/-- Two packets, consumed one after the other. -/
theorem two_packets_consumed : ∃ r,
    Run (Guarded (Applies (next 0 0) Valid) (Whole 0)) (start oneConnection)
      [.packet [[1, 2]], .packet [[3]], .recvDone 2, .recvDone 1] r ∧ r.freed 0 = 2 ∧ r.Accurate 0 := by
  have run : Run (Guarded (Applies (next 0 0) Valid) (Whole 0)) (start oneConnection)
      [.packet [[1, 2]], .packet [[3]], .recvDone 2, .recvDone 1] _ :=
    .cons ⟨⟨by decide, rfl⟩, rfl⟩ (.cons ⟨⟨by decide, rfl⟩, rfl⟩
      (.cons ⟨⟨by decide, rfl⟩, 1, rfl⟩ (.single ⟨⟨by decide, rfl⟩, 1, rfl⟩)))
  exact ⟨_, run, by decide, packets_freed_when_consumed ⟨by decide, rfl⟩ rfl run⟩

/-- A packet acknowledged in two parts is kept for ever; a packet of two buffers is freed when the first is consumed. -/
theorem parts_are_forgotten_and_rests_freed :
    (∃ steps r, Run (Applies (next 0 0) Valid) (start oneConnection) steps r ∧
      r.acked = bytesOf r.delivered ∧ r.freed 0 = 0 ∧ ¬ r.Accurate 0) ∧
    (∃ steps r, Run (Applies (next 0 0) Valid) (start oneConnection) steps r ∧
      r.acked < bytesOf r.delivered ∧ r.freed 0 = 1 ∧ ¬ r.Accurate 0) := by
  have parts : Run (Applies (next 0 0) Valid) (start oneConnection)
      [.packet [[1, 2]], .recvDone 1, .recvDone 1] _ :=
    .cons ⟨by decide, rfl⟩ (.cons ⟨by decide, rfl⟩ (.single ⟨by decide, rfl⟩))
  have rest : Run (Applies (next 0 0) Valid) (start oneConnection) [.packet [[1], [2]], .recvDone 1] _ :=
    .cons ⟨by decide, rfl⟩ (.single ⟨by decide, rfl⟩)
  refine ⟨⟨_, _, parts, by decide, by decide, fun accurate => ?_⟩, ⟨_, _, rest, by decide, by decide, fun accurate => ?_⟩⟩
  · exact absurd ((accurate 0 (by decide)).2 (by decide)) (by decide)
  · exact absurd ((accurate 0 (by decide)).1 (by decide)) (by decide)

end Receiver

end Reflex.Tcp
