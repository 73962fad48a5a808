import Mathlib.Data.List.GetD
import Mathlib.Data.List.Induction
import Reflex.Timers.Wheel

/-!
# The one timer of a connection

A TCP connection has three deadlines (`timer_delayedack_expires`, `timer_retransmit_expires`,
`timer_persist_expires`; zero is none) and one timer of the wheel, which `tcp_recompute_timers` sets to the
first of them. The deadlines are written where segments are received (`tcp_receive` and `tcp_process` of
`net/tcp_in.c`), where they are sent (`net/tcp_out.c`) and in the handler of the timer (`net/tcp.c`); the
functions are modelled with what these writes depend on. The timer itself is exact: it is pending with the
deadline it was given, or not.
-/

namespace Reflex.Timers

open Lib

def tcpMaxrtx : Nat := 12
def tcpSynmaxrtx : Nat := 6
def tcpBackoff : List Nat := [1, 2, 3, 4, 5, 6, 7, 7, 7, 7, 7, 7, 7]

/-- A signed half word. -/
def s16 (x : Int) : Int := Int.bmod x (2 ^ 16)

/-- `TCP_SEQ_LT`. -/
def seqLt (a b : Nat) : Prop := Int.bmod ((a : Int) - b) (2 ^ 32) < 0

instance (a b : Nat) : Decidable (seqLt a b) := inferInstanceAs (Decidable (_ < _))

/-- A connection: its deadlines, its timer, and what they are computed from. `zeroUpdate` records whether the last
window update that was accepted announced no window. -/
structure Conn where
  pcb : TcpPcb
  timer : Option Nat
  synSent : Bool
  sndWnd : Nat
  sndScale : Nat
  sndWl1 : Nat
  sndWl2 : Nat
  rto : Int
  sa : Int
  sv : Int
  nrtx : Nat
  persistBackoff : Nat
  unacked : Nat
  unsent : Nat
  removed : Bool
  zeroUpdate : Bool
deriving DecidableEq, Repr

/-- What `tcp_output` does: it sends an empty acknowledgement, or segments at these times. -/
structure Output where
  emptyAck : Bool
  times : List Nat
deriving DecidableEq, Repr

/-- A segment with an ACK, and the times at which the clock is read while it is handled. `acked` are the segments of the
two queues that it covers, if it acknowledges new data; `rtt` is a measured round-trip time; `data` is set if its data
is acknowledged with delay. -/
structure Segment where
  seqno : Nat
  ackno : Nat
  wnd : Nat
  now : Nat
  acked : Option (Nat × Nat)
  rtt : Option Int
  data : Bool
deriving DecidableEq, Repr

namespace Conn

variable (c : Conn)

/-- `tcp_recompute_timers`. -/
def recompute : Conn :=
  let first := c.pcb.first
  let renewed := { c with timer := if first ≠ 2 ^ 64 - 1 then some first else none }
  match c.timer with
  | none => renewed
  | some expires => if expires ≤ first then c else renewed

def assign (now : Nat) (d : Deadline) : Conn := { c with pcb := c.pcb.assign now d }

def clearDelayedack : Conn := { c with pcb := { c.pcb with timerDelayedackExpires := 0 } }

/-- The persist deadline for the present back-off. -/
def startPersist (now : Nat) : Conn :=
  { c with pcb := { c.pcb with
    timerPersistExpires := wadd 64 now (tcpPersistBackoff.getD (c.persistBackoff - 1) 0 * rtoUnits) } }

def tcpAck (now : Nat) : Conn :=
  if 0 < c.pcb.timerDelayedackExpires then
    let counted := { c with pcb := { c.pcb with delayedAckCounter := c.pcb.delayedAckCounter + 1 } }
    if maxPacketsDelayedAck ≤ counted.pcb.delayedAckCounter then counted.clearDelayedack.recompute else counted
  else
    recompute { c with pcb := { c.pcb with
      delayedAckCounter := 1, timerDelayedackExpires := wadd 64 now tcpAckDelay } }

/-! ## Sending -/

/-- The turn of the loop in `tcp_output` for one segment, with `tcp_output_segment`. -/
def outputSegment (c : Conn) (now : Nat) : Conn :=
  let c := { c with unsent := c.unsent - 1 }
  let c := if c.synSent then c else c.clearDelayedack.recompute
  let c := (c.assign now (.retransmit c.rto)).recompute
  { c with unacked := c.unacked + 1 }

def tcpOutput (out : Output) : Conn :=
  if out.emptyAck then c.clearDelayedack.recompute else (out.times.take c.unsent).foldl outputSegment c

/-! ## Receiving -/

/-- The test of `tcp_receive` for a window update. -/
def Updates (seg : Segment) : Prop :=
  seqLt c.sndWl1 seg.seqno ∨ (c.sndWl1 = seg.seqno ∧ seqLt c.sndWl2 seg.ackno) ∨ (c.sndWl2 = seg.ackno ∧ c.sndWnd < seg.wnd)

instance (seg : Segment) : Decidable (c.Updates seg) := inferInstanceAs (Decidable (_ ∨ _))

def announced (seg : Segment) : Nat := seg.wnd <<< c.sndScale % 2 ^ 32

/-- The window update of `tcp_receive`. The persist timer is started only if it is running. -/
def updateWindow (seg : Segment) : Conn :=
  if c.Updates seg then
    let wnd := c.announced seg
    let c := { c with sndWnd := wnd, sndWl1 := seg.seqno, sndWl2 := seg.ackno, zeroUpdate := decide (wnd = 0) }
    if wnd = 0 then
      if 0 < c.pcb.timerPersistExpires then (startPersist { c with persistBackoff := 1 } seg.now).recompute else c
    else { (c.assign seg.now .noPersist).recompute with persistBackoff := 0 }
  else c

/-- The acknowledgement of new data in `tcp_receive`. -/
def acknowledge (seg : Segment) : Conn :=
  match seg.acked with
  | none => c
  | some (done, early) =>
    let c := { c with
      nrtx := 0, rto := s16 (c.sa / 2 ^ 3 + c.sv), unacked := c.unacked - done, unsent := c.unsent - early }
    (c.assign seg.now (if c.unacked = 0 then .noRetransmit else .retransmit c.rto)).recompute

/-- The estimation of the round-trip time in `tcp_receive`. -/
def estimate (seg : Segment) : Conn :=
  match seg.rtt with
  | none => c
  | some m =>
    let m := s16 (m - c.sa / 2 ^ 3)
    let sa := s16 (c.sa + m)
    let m := s16 (m.natAbs - c.sv / 2 ^ 2)
    let sv := s16 (c.sv + m)
    { c with sa := sa, sv := sv, rto := s16 (sa / 2 ^ 3 + sv) }

def tcpReceive (seg : Segment) : Conn :=
  let c := ((c.updateWindow seg).acknowledge seg).estimate seg
  if seg.data then c.tcpAck seg.now else c

/-- The acknowledgement of the SYN in `tcp_process`. -/
def synAcked (now left : Nat) : Conn :=
  let c := { c with synSent := false, unacked := left }
  if left = 0 then (c.assign now .noRetransmit).recompute
  else { (c.assign now (.retransmit c.rto)).recompute with nrtx := 0 }

/-- `tcp_rexmit`, also from `tcp_rexmit_fast`: the first segment that is not acknowledged goes back to the unsent ones. -/
def tcpRexmit : Conn :=
  if c.unacked = 0 then c else { c with unacked := c.unacked - 1, unsent := c.unsent + 1, nrtx := c.nrtx + 1 }

/-! ## The handler -/

/-- The part for the delayed acknowledgement. -/
def expireDelayedack (now : Nat) (out : Output) : Conn :=
  if 0 < c.pcb.timerDelayedackExpires ∧ c.pcb.timerDelayedackExpires ≤ now then (c.tcpOutput out).clearDelayedack else c

/-- `tcp_rexmit_rto`, with the new time-out. -/
def rexmit (out : Output) : Conn :=
  let rto := if c.synSent then c.rto else s16 ((c.sa / 2 ^ 3 + c.sv) * 2 ^ tcpBackoff.getD c.nrtx 7)
  tcpOutput { c with rto := rto, unsent := c.unacked + c.unsent, unacked := 0, nrtx := c.nrtx + 1 } out

/-- The part for the retransmission; the connection may be removed. -/
def expireRetransmit (now : Nat) (out : Output) : Conn :=
  if 0 < c.pcb.timerRetransmitExpires ∧ c.pcb.timerRetransmitExpires ≤ now then
    let c := c.assign now .noRetransmit
    if c.unacked = 0 then c
    else if c.sndWnd = 0 then
      let c := { c with rto := s16 (c.sa / 2 ^ 3 + c.sv) }
      c.assign now (.retransmit c.rto)
    else if (c.synSent ∧ c.nrtx = tcpSynmaxrtx) ∨ c.nrtx = tcpMaxrtx then { c with removed := true }
    else c.rexmit out
  else c

def expirePersist (now : Nat) : Conn :=
  if 0 < c.pcb.timerPersistExpires ∧ c.pcb.timerPersistExpires ≤ now then
    let backoff := if c.persistBackoff < tcpPersistBackoff.length then c.persistBackoff + 1 else c.persistBackoff
    startPersist { c with persistBackoff := backoff } now
  else c

/-- `tcp_unified_timer_handler`; the wheel has taken the timer out. -/
def tcpUnifiedTimerHandler (now : Nat) (first second : Output) : Conn :=
  let c := (expireDelayedack { c with timer := none } now first).expireRetransmit now second
  if c.removed then c else (c.expirePersist now).recompute

end Conn

inductive ConnStep where
  | write (segments : Nat)
  | output (out : Output)
  | receive (seg : Segment)
  | rexmit
  | synAcked (now left : Nat)
  | reset
  | expire (now : Nat) (first second : Output)
deriving Repr

namespace Conn

def next (c : Conn) : ConnStep → Conn
  | .write segments => { c with unsent := c.unsent + segments }
  | .output out => c.tcpOutput out
  | .receive seg => c.tcpReceive seg
  | .rexmit => c.tcpRexmit
  | .synAcked now left => c.synAcked now left
  | .reset => { c.clearDelayedack with removed := true }
  | .expire now first second => c.tcpUnifiedTimerHandler now first second

/-- The connection is in the table; its timer fires when it is due. -/
def Valid (c : Conn) : ConnStep → Prop
  | .receive seg => c.removed = false ∧ c.synSent = false ∧ seg.now < 2 ^ 63
  | .expire now _ _ => c.removed = false ∧ now < 2 ^ 63 ∧ ∃ expires, c.timer = some expires ∧ expires ≤ now
  | _ => c.removed = false

def Covers (timer : Option Nat) (deadline : Nat) : Prop := ∃ expires, timer = some expires ∧ expires ≤ deadline

def deadlines (c : Conn) : List Nat :=
  [c.pcb.timerDelayedackExpires, c.pcb.timerRetransmitExpires, c.pcb.timerPersistExpires]

/-- Every deadline that is set is covered, except for one of all ones, which stands for none. -/
def Covered (c : Conn) : Prop := ∀ deadline ∈ c.deadlines, deadline ≠ 0 → deadline < 2 ^ 64 - 1 → Covers c.timer deadline

/-! ## The timer covers the deadlines -/

variable {c : Conn}

theorem first_le (c : Conn) {deadline} (one : deadline ∈ c.deadlines) (set : deadline ≠ 0) : c.pcb.first ≤ deadline := by
  simp only [deadlines, List.mem_cons, List.not_mem_nil, or_false] at one
  simp only [TcpPcb.first]
  split_ifs <;> omega

theorem recompute_pcb (c : Conn) : c.recompute.pcb = c.pcb := by
  unfold recompute
  cases c.timer with
  | none => rfl
  | some expires =>
    dsimp only
    split <;> rfl

/-- After `tcp_recompute_timers` the deadlines are covered, whatever the timer was before. -/
theorem recompute_covered (c : Conn) : Covered c.recompute := by
  intro deadline one set below
  rw [deadlines, recompute_pcb] at one
  have least : c.pcb.first ≤ deadline := first_le c one set
  have some' : c.pcb.first ≠ 2 ^ 64 - 1 := by omega
  unfold recompute
  cases pending : c.timer with
  | none => exact ⟨c.pcb.first, if_pos some', least⟩
  | some expires =>
    dsimp only
    by_cases early : expires ≤ c.pcb.first
    · rw [if_pos early]
      exact ⟨expires, pending, Nat.le_trans early least⟩
    · rw [if_neg early]
      exact ⟨c.pcb.first, if_pos some', least⟩

theorem Covered.mono {c' : Conn} (covered : Covered c) (timer : c'.timer = c.timer)
    (fewer : ∀ deadline ∈ c'.deadlines, deadline ≠ 0 → deadline ∈ c.deadlines) : Covered c' := by
  intro deadline one set below
  rw [timer]
  exact covered deadline (fewer deadline one set) set below

theorem Covered.tcpAck (covered : Covered c) (now : Nat) : Covered (c.tcpAck now) := by
  unfold Conn.tcpAck
  split
  · dsimp only
    split
    · exact recompute_covered _
    · exact covered.mono rfl fun _ one _ => one
  · exact recompute_covered _

theorem outputSegment_covered (c : Conn) (now : Nat) : Covered (c.outputSegment now) := by
  unfold outputSegment
  dsimp only
  exact (recompute_covered _).mono rfl fun _ one _ => one

section

variable (covered : Covered c)
include covered

theorem Covered.tcpOutput (out : Output) : Covered (c.tcpOutput out) := by
  unfold Conn.tcpOutput
  split
  · exact recompute_covered _
  · generalize out.times.take c.unsent = times
    induction times generalizing c with
    | nil => exact covered
    | cons now times ih => exact ih (outputSegment_covered c now)

theorem Covered.updateWindow (seg : Segment) : Covered (c.updateWindow seg) := by
  unfold Conn.updateWindow
  split
  · dsimp only
    split
    · split
      · exact recompute_covered _
      · exact covered.mono rfl fun _ one _ => one
    · exact (recompute_covered _).mono rfl fun _ one _ => one
  · exact covered

theorem Covered.acknowledge (seg : Segment) : Covered (c.acknowledge seg) := by
  unfold Conn.acknowledge
  cases seg.acked with
  | none => exact covered
  | some counts => exact recompute_covered _

theorem Covered.tcpRexmit : Covered c.tcpRexmit := by
  unfold Conn.tcpRexmit
  split
  · exact covered
  · exact covered.mono rfl fun _ one _ => one

theorem Covered.estimate (seg : Segment) : Covered (c.estimate seg) := by
  unfold Conn.estimate
  cases seg.rtt with
  | none => exact covered
  | some m => exact covered.mono rfl fun _ one _ => one

theorem Covered.tcpReceive (seg : Segment) : Covered (c.tcpReceive seg) := by
  have received := ((covered.updateWindow seg).acknowledge seg).estimate seg
  unfold Conn.tcpReceive
  dsimp only
  split
  · exact received.tcpAck seg.now
  · exact received

end

theorem synAcked_covered (c : Conn) (now left : Nat) : Covered (c.synAcked now left) := by
  unfold synAcked
  dsimp only
  split
  · exact recompute_covered _
  · exact (recompute_covered _).mono rfl fun _ one _ => one

/-- The handler ends with a recomputation, unless it removes the connection. -/
theorem handler_covered (c : Conn) (now : Nat) (first second : Output)
    (there : (c.tcpUnifiedTimerHandler now first second).removed = false) :
    Covered (c.tcpUnifiedTimerHandler now first second) := by
  unfold tcpUnifiedTimerHandler at there ⊢
  dsimp only at there ⊢
  split
  · rename_i gone
    rw [if_pos gone, gone] at there
    cases there
  · exact recompute_covered _

theorem Covered.next (covered : Covered c) (step : ConnStep) (there : (c.next step).removed = false) : Covered (c.next step) := by
  cases step with
  | write segments => exact covered.mono rfl fun _ one _ => one
  | output out => exact covered.tcpOutput out
  | receive seg => exact covered.tcpReceive seg
  | rexmit => exact covered.tcpRexmit
  | synAcked now left => exact synAcked_covered c now left
  | reset => cases there
  | expire now first second => exact handler_covered c now first second there

/-- A connection that has just been registered. -/
structure Fresh (c : Conn) : Prop where
  delayedack : c.pcb.timerDelayedackExpires = 0
  retransmit : c.pcb.timerRetransmitExpires = 0
  persist : c.pcb.timerPersistExpires = 0
  there : c.removed = false

theorem Fresh.covered (fresh : Fresh c) : Covered c := by
  intro deadline one set _
  simp only [deadlines, fresh.delayedack, fresh.retransmit, fresh.persist, List.mem_cons, List.not_mem_nil, or_false, or_self] at one
  exact absurd one set

/-- An established connection that has sent nothing, with a window of 1000. -/
def established : Conn where
  pcb := ⟨0, 0, 0, 0⟩
  timer := none
  synSent := false
  sndWnd := 1000
  sndScale := 0
  sndWl1 := 1
  sndWl2 := 1
  rto := 6
  sa := 0
  sv := 6
  nrtx := 0
  persistBackoff := 0
  unacked := 0
  unsent := 0
  removed := false
  zeroUpdate := false

theorem established_fresh : Fresh established := ⟨rfl, rfl, rfl, rfl⟩

/-- `Valid` as a test. -/
def admits (c : Conn) : ConnStep → Bool
  | .receive seg => !c.removed && !c.synSent && decide (seg.now < 2 ^ 63)
  | .expire now _ _ => !c.removed && decide (now < 2 ^ 63) && c.timer.any fun expires => decide (expires ≤ now)
  | _ => !c.removed

theorem admits_valid (c : Conn) (step : ConnStep) (pass : c.admits step = true) : c.Valid step ∧ True := by
  refine ⟨?_, trivial⟩
  cases step with
  | receive seg => simpa [admits, Valid, and_assoc] using pass
  | expire now first second =>
    simp only [admits, Bool.and_eq_true, Bool.not_eq_true', decide_eq_true_eq, Option.any_eq_true] at pass
    obtain ⟨⟨there, bound⟩, expires, pending, due⟩ := pass
    exact ⟨there, bound, expires, pending, due⟩
  | write segments => simpa [admits, Valid] using pass
  | output out => simpa [admits, Valid] using pass
  | rexmit => simpa [admits, Valid] using pass
  | synAcked now left => simpa [admits, Valid] using pass
  | reset => simpa [admits, Valid] using pass

theorem run_of_admits (c : Conn) (steps : List ConnStep) (pass : passes next admits c steps = true) :
    Run (Applies next Valid) c steps (steps.foldl next c) := (Run.of_passes admits_valid pass).unguarded

/-- A zero window that was announced is being probed. -/
def Probed (c : Conn) : Prop := c.zeroUpdate = true → c.pcb.timerPersistExpires ≠ 0

/-- The step is a window update to zero. -/
def Shuts (c : Conn) : ConnStep → Prop
  | .receive seg => c.Updates seg ∧ c.announced seg = 0
  | _ => False

/-- The persist deadline and the last window update are the same. -/
def SamePersist (c c' : Conn) : Prop :=
  c'.pcb.timerPersistExpires = c.pcb.timerPersistExpires ∧ c'.zeroUpdate = c.zeroUpdate

theorem SamePersist.trans {c₁ c₂ c₃} (first : SamePersist c₁ c₂) (second : SamePersist c₂ c₃) : SamePersist c₁ c₃ :=
  ⟨second.1.trans first.1, second.2.trans first.2⟩

theorem recompute_persist (c : Conn) : SamePersist c c.recompute := by
  refine ⟨by rw [recompute_pcb], ?_⟩
  unfold recompute
  cases c.timer with
  | none => rfl
  | some expires =>
    dsimp only
    split <;> rfl

theorem outputSegment_persist (c : Conn) (now : Nat) : SamePersist c (c.outputSegment now) := by
  unfold outputSegment
  dsimp only
  refine SamePersist.trans ?_ (recompute_persist _)
  split
  · exact ⟨rfl, rfl⟩
  · exact (recompute_persist (clearDelayedack { c with unsent := c.unsent - 1 }))

theorem tcpOutput_persist (c : Conn) (out : Output) : SamePersist c (c.tcpOutput out) := by
  unfold tcpOutput
  split
  · exact recompute_persist c.clearDelayedack
  · generalize out.times.take c.unsent = times
    induction times generalizing c with
    | nil => exact ⟨rfl, rfl⟩
    | cons now times ih => exact (outputSegment_persist c now).trans (ih _)

theorem tcpAck_persist (c : Conn) (now : Nat) : SamePersist c (c.tcpAck now) := by
  unfold tcpAck
  split
  · dsimp only
    split
    · exact recompute_persist (clearDelayedack { c with pcb := { c.pcb with delayedAckCounter := c.pcb.delayedAckCounter + 1 } })
    · exact ⟨rfl, rfl⟩
  · refine SamePersist.trans ?_ (recompute_persist _)
    exact ⟨rfl, rfl⟩

theorem acknowledge_persist (c : Conn) (seg : Segment) : SamePersist c (c.acknowledge seg) := by
  unfold acknowledge
  cases seg.acked with
  | none => exact ⟨rfl, rfl⟩
  | some counts =>
    dsimp only
    refine SamePersist.trans ?_ (recompute_persist _)
    split <;> exact ⟨rfl, rfl⟩

theorem estimate_persist (c : Conn) (seg : Segment) : SamePersist c (c.estimate seg) := by
  unfold estimate
  cases seg.rtt with
  | none => exact ⟨rfl, rfl⟩
  | some m => exact ⟨rfl, rfl⟩

theorem synAcked_persist (c : Conn) (now left : Nat) : SamePersist c (c.synAcked now left) := by
  unfold synAcked
  dsimp only
  split
  · exact recompute_persist (assign { c with synSent := false, unacked := left } now .noRetransmit)
  · exact recompute_persist (assign { c with synSent := false, unacked := left } now (.retransmit c.rto))

theorem expireDelayedack_persist (c : Conn) (now : Nat) (out : Output) : SamePersist c (c.expireDelayedack now out) := by
  unfold expireDelayedack
  split
  · exact tcpOutput_persist c out
  · exact ⟨rfl, rfl⟩

theorem expireRetransmit_persist (c : Conn) (now : Nat) (out : Output) : SamePersist c (c.expireRetransmit now out) := by
  unfold expireRetransmit
  split
  · dsimp only
    split
    · exact ⟨rfl, rfl⟩
    · split
      · exact ⟨rfl, rfl⟩
      · split
        · exact ⟨rfl, rfl⟩
        · unfold rexmit
          exact SamePersist.trans ⟨rfl, rfl⟩ (tcpOutput_persist _ out)
  · exact ⟨rfl, rfl⟩

/-- A persist timer that is not running is started by nothing, not by a window update to zero either. -/
theorem next_persist (idle : c.pcb.timerPersistExpires = 0) (step : ConnStep) : (c.next step).pcb.timerPersistExpires = 0 ∧
    (c.Shuts step → (c.next step).zeroUpdate = true) ∧ (¬ c.Shuts step → c.zeroUpdate = false → (c.next step).zeroUpdate = false) := by
  have keeps : ∀ {c' : Conn}, SamePersist c c' → ¬ c.Shuts step → c'.pcb.timerPersistExpires = 0 ∧ (c.Shuts step → c'.zeroUpdate = true) ∧
      (¬ c.Shuts step → c.zeroUpdate = false → c'.zeroUpdate = false) := fun same other =>
    ⟨same.1.trans idle, fun shuts => absurd shuts other, fun _ open' => same.2.trans open'⟩
  cases step with
  | write segments => exact keeps ⟨rfl, rfl⟩ id
  | output out => exact keeps (tcpOutput_persist c out) id
  | rexmit =>
    refine keeps ?_ id
    simp only [Conn.next, tcpRexmit]
    split <;> exact ⟨rfl, rfl⟩
  | synAcked now left => exact keeps (synAcked_persist c now left) id
  | reset => exact keeps ⟨rfl, rfl⟩ id
  | receive seg =>
    have rest : SamePersist (c.updateWindow seg) (c.next (.receive seg)) := by
      have received := SamePersist.trans (acknowledge_persist (c.updateWindow seg) seg) (estimate_persist _ seg)
      simp only [Conn.next, tcpReceive]
      split
      · exact received.trans (tcpAck_persist _ seg.now)
      · exact received
    rw [rest.1, rest.2]
    unfold Conn.updateWindow
    by_cases updates : c.Updates seg
    · by_cases zero : c.announced seg = 0
      · simp only [if_pos updates, if_pos zero, idle, lt_irrefl, if_false]
        exact ⟨trivial, fun _ => by simp [zero], fun other => absurd ⟨updates, zero⟩ other⟩
      · simp only [if_pos updates, if_neg zero]
        have same := recompute_persist (assign { c with
          sndWnd := c.announced seg, sndWl1 := seg.seqno, sndWl2 := seg.ackno, zeroUpdate := decide (c.announced seg = 0) } seg.now .noPersist)
        exact ⟨same.1, fun shuts => absurd shuts.2 zero, fun _ _ => same.2.trans (decide_eq_false zero)⟩
    · simp only [if_neg updates]
      exact ⟨idle, fun shuts => absurd shuts.1 updates, fun _ open' => open'⟩
  | expire now first second =>
    refine keeps ?_ id
    have same : SamePersist c ((expireDelayedack { c with timer := none } now first).expireRetransmit now second) :=
      SamePersist.trans (expireDelayedack_persist { c with timer := none } now first) (expireRetransmit_persist _ now second)
    simp only [Conn.next, tcpUnifiedTimerHandler]
    split
    · exact same
    · have off : ¬ (0 < ((expireDelayedack { c with timer := none } now first).expireRetransmit now second).pcb.timerPersistExpires ∧
          ((expireDelayedack { c with timer := none } now first).expireRetransmit now second).pcb.timerPersistExpires ≤ now) := by
        rw [same.1, idle]
        exact fun due => absurd due.1 (lt_irrefl 0)
      rw [expirePersist, if_neg off]
      exact same.trans (recompute_persist _)

/-- On a new connection a zero window is probed at every time exactly if no window update to zero is ever accepted. -/
theorem zero_window_is_probed_iff {c₀ : Conn} (fresh : Fresh c₀) (start : c₀.zeroUpdate = false) (steps : List ConnStep) :
    (∀ n, Probed ((steps.take n).foldl next c₀)) ↔
      ∀ before step after, steps = before ++ step :: after → ¬ (before.foldl next c₀).Shuts step := by
  -- Whatever the steps are, the persist timer does not run.
  have idle : ∀ steps : List ConnStep, (steps.foldl next c₀).pcb.timerPersistExpires = 0 := by
    intro steps
    induction steps using List.reverseRecOn with
    | nil => exact fresh.persist
    | append_singleton steps step ih =>
      rw [List.foldl_append]
      exact (next_persist ih step).1
  constructor
  · rintro probed before step after rfl shuts
    have zero := (next_persist (idle before) step).2.1 shuts
    have probe := probed (before.length + 1)
    rw [List.take_append, List.take_of_length_le (Nat.le_succ _), Nat.add_sub_cancel_left, List.take_succ_cons, List.take_zero,
      List.foldl_append] at probe
    exact probe zero (next_persist (idle before) step).1
  · intro never n
    have closed : ((steps.take n).foldl next c₀).zeroUpdate = false := by
      obtain ⟨rest, split⟩ : ∃ rest, steps = steps.take n ++ rest := ⟨_, (List.take_append_drop n steps).symm⟩
      generalize steps.take n = taken at split
      induction taken using List.reverseRecOn generalizing rest with
      | nil => exact start
      | append_singleton taken step ih =>
        rw [List.append_assoc] at split
        rw [List.foldl_append]
        exact (next_persist (idle taken) step).2.2 (never taken step rest split) (ih _ split)
    exact fun zero => absurd (closed.symm.trans zero) Bool.false_ne_true

/-- A connection that sends a segment and is given a window of 500. -/
theorem open_window_is_probed : ∃ steps : List ConnStep, (steps.foldl next established).sndWnd = 500 ∧
    ∀ n, Probed ((steps.take n).foldl next established) := by
  refine ⟨[.write 1, .receive ⟨2, 1, 500, 1000, none, none, true⟩], by decide +kernel,
    (zero_window_is_probed_iff established_fresh rfl _).2 fun before step after split shuts => ?_⟩
  rcases before with _ | ⟨_, _ | ⟨_, before⟩⟩ <;>
    simp only [List.nil_append, List.cons_append, List.cons.injEq, List.nil_eq, List.append_eq_nil_iff, reduceCtorEq, and_false] at split
  · obtain ⟨rfl, -⟩ := split
    exact shuts
  · obtain ⟨rfl, rfl, -⟩ := split
    exact absurd shuts.2 (by decide)

/-- The peer of a new connection announces a zero window: no probe is scheduled. -/
theorem zero_window_is_not_probed : ∃ steps c, Run (Applies next Valid) established steps c ∧
    c.zeroUpdate = true ∧ c.sndWnd = 0 ∧ c.pcb.timerPersistExpires = 0 := by
  have run := run_of_admits established [.receive ⟨2, 1, 0, 1000, none, none, false⟩] (by decide +kernel)
  exact ⟨_, _, run, by decide +kernel, by decide +kernel, by decide +kernel⟩

end Conn

end Reflex.Timers
