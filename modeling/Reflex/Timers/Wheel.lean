import Mathlib.Data.Nat.Log
import Mathlib.Tactic.Linarith
import Reflex.Lib.Run
import Reflex.Lib.Word

/-!
# The timer wheels of a core

`timer_insert` of `core/timer.c` finds a timer's bucket by counting the leading zeros of the distance from the
wheel's cached clock `now_us` to the deadline. A `Stack` is what the functions that arm timers work on: the
processor's cycle counter, the wheel with its cached clock, the timers, and of each TCP control block the
three deadlines that `tcp_recompute_timers` reduces to one. The pass itself moves no clock: the call of
`timer_run` in `sys_bpoll` is commented out, so `timer_init_cpu`, at boot and at the wake-up from `cp_idle`,
is the only assignment of `now_us`.
-/

namespace Reflex.Timers

open Lib

/-! ## The wheel -/

def wheelShiftLog2 : Nat := 3
def wheelShift : Nat := 1 <<< wheelShiftLog2
def wheelSize : Nat := 1 <<< wheelShift
def wheelCount : Nat := 3
def minDelayShift : Nat := 4
def minDelayUs : Nat := 1 <<< minDelayShift
def maxDelayUs : Nat := minDelayUs * 1 <<< (wheelCount * wheelShift)

/-- The bucket `wheels[index][offset]`; `index` is the `int` the code computes. -/
structure Place where
  index : Int
  offset : Nat
deriving DecidableEq, Repr

def Place.InRange (place : Place) : Prop := 0 ≤ place.index ∧ place.index < wheelCount

instance (place : Place) : Decidable place.InRange := inferInstanceAs (Decidable (_ ∧ _))

/-- `struct timerwheel` without its lists of timers: each timer knows its bucket. -/
structure TimerWheel where
  nowUs : Nat
  timerPos : Nat
deriving DecidableEq, Repr

/-- `__builtin_clzll`, with the count of the ARM instruction at zero. -/
def clz64 (x : Nat) : Int := if x = 0 then 64 else 63 - Nat.log2 x

/-- The bucket that `timer_insert` picks. -/
def TimerWheel.place (tw : TimerWheel) (expires : Nat) : Place :=
  let expireUs := wadd 64 expires minDelayUs
  let delayUs := wsub 64 expireUs tw.nowUs
  let index := (63 - clz64 delayUs - minDelayShift) >>> wheelShiftLog2
  ⟨index, (expireUs >>> (index * wheelShift + minDelayShift).toNat) % wheelSize⟩

theorem index_in_range_iff {delay : Nat} : let index := (63 - clz64 delay - minDelayShift) >>> wheelShiftLog2
    (0 ≤ index ∧ index < wheelCount) ↔ minDelayUs ≤ delay ∧ delay < maxDelayUs := by
  have shift : ∀ x : Int, x >>> wheelShiftLog2 = x / 8 := fun x => Int.shiftRight_eq_div_pow x 3
  intro index
  have value : index = (63 - clz64 delay - 4) / 8 := shift _
  rw [value]
  show _ ∧ _ < (3 : Int) ↔ 16 ≤ delay ∧ delay < 268435456
  rcases Nat.eq_zero_or_pos delay with rfl | positive
  · decide
  · have nonzero : delay ≠ 0 := by omega
    have low : 4 ≤ Nat.log2 delay ↔ 2 ^ 4 ≤ delay := Nat.le_log2 nonzero
    have high : Nat.log2 delay < 28 ↔ delay < 2 ^ 28 := Nat.log2_lt nonzero
    rw [clz64, if_neg nonzero]
    omega

/-- How far a deadline may lie from the cached clock: not before it, and less than the range of the wheels after it. -/
def TimerWheel.Reaches (tw : TimerWheel) (expires : Nat) : Prop :=
  wsub 64 expires tw.nowUs < maxDelayUs - minDelayUs

instance (tw : TimerWheel) (expires : Nat) : Decidable (tw.Reaches expires) := inferInstanceAs (Decidable (_ < _))

theorem wsub_wadd_minDelayUs (expires now : Nat) :
    wsub 64 (wadd 64 expires minDelayUs) now = wadd 64 (wsub 64 expires now) minDelayUs := by
  unfold wsub wadd
  show ((expires + 16) % 2 ^ 64 + _) % 2 ^ 64 = (_ % 2 ^ 64 + 16) % 2 ^ 64
  omega

theorem TimerWheel.place_inRange_iff (tw : TimerWheel) (expires : Nat) :
    (tw.place expires).InRange ↔ tw.Reaches expires := by
  have word := wsub_lt 64 expires tw.nowUs
  refine index_in_range_iff.trans ?_
  rw [wsub_wadd_minDelayUs, Reaches]
  generalize wsub 64 expires tw.nowUs = distance at word
  show 16 ≤ (distance + 16) % 2 ^ 64 ∧ (distance + 16) % 2 ^ 64 < 268435456 ↔ distance < 268435456 - 16
  omega

/-! ## The calls that arm timers -/

/-- A timer is known by its owner: the unified timer of a control block, or any other of the stack's timers. -/
inductive TimerId where
  | unified (pcb : Nat)
  | other (n : Nat)
deriving DecidableEq, Repr

/-- `struct timer`: the bucket it is linked into, if any. -/
structure Timer where
  expires : Nat
  link : Option Place
deriving DecidableEq, Repr

def Timer.pending (t : Timer) : Bool := t.link.isSome

/-- The deadlines of `struct tcp_pcb`; zero is none. -/
structure TcpPcb where
  timerDelayedackExpires : Nat
  timerRetransmitExpires : Nat
  timerPersistExpires : Nat
  delayedAckCounter : Nat
deriving DecidableEq, Repr

structure Stack where
  /-- the processor's cycle counter -/
  tsc : Nat
  wheel : TimerWheel
  timers : TimerId → Timer
  pcbs : Nat → TcpPcb
  /-- every bucket computed so far -/
  inserted : List Place
  /-- an assertion failed, or `__timer_add` panicked -/
  halted : Bool

namespace Stack

def timerNow (cyclesPerUs : Nat) (s : Stack) : Nat := s.tsc / cyclesPerUs

def timerInitCpu (cyclesPerUs : Nat) (s : Stack) : Stack :=
  { s with wheel := ⟨s.timerNow cyclesPerUs, s.timerNow cyclesPerUs⟩ }

/-- `timer_insert`, with the assignment of the deadline before each of its calls. -/
def timerInsert (s : Stack) (t : TimerId) (expires : Nat) : Stack :=
  { s with
    timers := Function.update s.timers t ⟨expires, some (s.wheel.place expires)⟩
    inserted := s.inserted ++ [s.wheel.place expires] }

def timerDel (s : Stack) (t : TimerId) : Stack :=
  { s with timers := Function.update s.timers t { s.timers t with link := none } }

/-- `timer_add`: an assertion against a zero delay, a panic at the wheels' range. -/
def timerAdd (cyclesPerUs : Nat) (s : Stack) (t : TimerId) (usecs : Nat) : Stack :=
  if 0 < usecs ∧ usecs < maxDelayUs then s.timerInsert t (wadd 64 (s.timerNow cyclesPerUs) usecs)
  else { s with halted := true }

/-- `timer_add_abs`: two assertions, and no test of the range. -/
def timerAddAbs (s : Stack) (t : TimerId) (absUsecs : Nat) : Stack :=
  if s.wheel.timerPos < absUsecs ∧ (s.timers t).pending = false then s.timerInsert t absUsecs
  else { s with halted := true }

def timerAddForNextTick (s : Stack) (t : TimerId) : Stack :=
  s.timerInsert t (wadd 64 s.wheel.nowUs minDelayUs)

end Stack

/-- The first of the deadlines as `tcp_recompute_timers` picks it; all ones is none. -/
def TcpPcb.first (pcb : TcpPcb) : Nat :=
  let first := 2 ^ 64 - 1
  let first := if 0 < pcb.timerDelayedackExpires then pcb.timerDelayedackExpires else first
  let first := if 0 < pcb.timerRetransmitExpires ∧ pcb.timerRetransmitExpires < first
    then pcb.timerRetransmitExpires else first
  if 0 < pcb.timerPersistExpires ∧ pcb.timerPersistExpires < first then pcb.timerPersistExpires else first

def Stack.tcpRecomputeTimers (s : Stack) (p : Nat) : Stack :=
  let first := (s.pcbs p).first
  let t := s.timers (.unified p)
  if t.pending = true ∧ t.expires ≤ first then s
  else if first ≠ 2 ^ 64 - 1 then (s.timerDel (.unified p)).timerAddAbs (.unified p) first
  else s.timerDel (.unified p)

def maxPacketsDelayedAck : Nat := 2
def tcpAckDelay : Nat := 1000
def rtoUnits : Nat := 500 * 1000
def tcpPersistBackoff : List Nat := [3, 6, 12, 24, 48, 96, 120]

/-- `tcp_ack`, as far as it concerns timers. -/
def Stack.tcpAck (cyclesPerUs : Nat) (s : Stack) (p : Nat) : Stack :=
  let pcb := s.pcbs p
  if 0 < pcb.timerDelayedackExpires then
    let pcb := { pcb with delayedAckCounter := pcb.delayedAckCounter + 1 }
    if maxPacketsDelayedAck ≤ pcb.delayedAckCounter then
      Stack.tcpRecomputeTimers
        { s with pcbs := Function.update s.pcbs p { pcb with timerDelayedackExpires := 0 } } p
    else { s with pcbs := Function.update s.pcbs p pcb }
  else
    let pcb := { pcb with
      delayedAckCounter := 1
      timerDelayedackExpires := wadd 64 (s.timerNow cyclesPerUs) tcpAckDelay }
    Stack.tcpRecomputeTimers { s with pcbs := Function.update s.pcbs p pcb } p

/-- An assignment to the retransmission or the persist deadline: the code sets it to so long from now, with the
estimated `rto` or a row of the back-off table, or clears it. -/
inductive Deadline where
  | retransmit (rto : Int)
  | persist (backoff : Fin tcpPersistBackoff.length)
  | noRetransmit
  | noPersist
deriving DecidableEq, Repr

/-- The product of `rto`, a signed half word, is an `int`: it wraps at thirty-two bits and is then sign-extended. -/
def TcpPcb.assign (pcb : TcpPcb) (now : Nat) : Deadline → TcpPcb
  | .retransmit rto => { pcb with
      timerRetransmitExpires := wadd 64 now (wofInt 64 (Int.bmod (rto * rtoUnits) (2 ^ 32))) }
  | .persist backoff => { pcb with
      timerPersistExpires := wadd 64 now (tcpPersistBackoff.get backoff * rtoUnits) }
  | .noRetransmit => { pcb with timerRetransmitExpires := 0 }
  | .noPersist => { pcb with timerPersistExpires := 0 }

inductive Step where
  | clock (tsc : Nat)
  | idle
  | add (t : TimerId) (usecs : Nat)
  | mod (t : TimerId) (usecs : Nat)
  | addAbs (t : TimerId) (absUsecs : Nat)
  | nextTick (t : TimerId)
  | del (t : TimerId)
  | ack (pcb : Nat)
  | deadline (pcb : Nat) (d : Deadline)
  | recompute (pcb : Nat)
deriving DecidableEq, Repr

namespace Stack

def next (cyclesPerUs : Nat) (s : Stack) : Step → Stack
  | .clock tsc => { s with tsc := tsc }
  | .idle => s.timerInitCpu cyclesPerUs
  | .add t usecs => s.timerAdd cyclesPerUs t usecs
  | .mod t usecs => (s.timerDel t).timerAdd cyclesPerUs t usecs
  | .addAbs t absUsecs => s.timerAddAbs t absUsecs
  | .nextTick t => s.timerAddForNextTick t
  | .del t => s.timerDel t
  | .ack p => s.tcpAck cyclesPerUs p
  | .deadline p d => { s with pcbs := Function.update s.pcbs p ((s.pcbs p).assign (s.timerNow cyclesPerUs) d) }
  | .recompute p => s.tcpRecomputeTimers p

/-- The cycle counter never goes back, and `rto` is a signed half word. -/
def Valid (s : Stack) : Step → Prop
  | .clock tsc => s.halted = false ∧ s.tsc ≤ tsc ∧ tsc < 2 ^ 64
  | .deadline _ (.retransmit rto) => s.halted = false ∧ -2 ^ 15 ≤ rto ∧ rto < 2 ^ 15
  | _ => s.halted = false

instance (s : Stack) (step : Step) : Decidable (s.Valid step) := by
  unfold Valid
  split <;> infer_instance

/-- A core after its initialisation, before it arms its first timer. -/
def boot (cyclesPerUs tsc : Nat) : Stack :=
  timerInitCpu cyclesPerUs
    { tsc := tsc, wheel := ⟨0, 0⟩, timers := fun _ => ⟨0, none⟩, pcbs := fun _ => ⟨0, 0, 0, 0⟩,
      inserted := [], halted := false }

end Stack

/-! ## The deadline a step hands to the wheel -/

/-- The deadline that `tcp_recompute_timers` arms for a control block, if it arms any. -/
def Stack.recomputed (s : Stack) (p : Nat) (pcb : TcpPcb) : Option Nat :=
  let t := s.timers (.unified p)
  if (t.pending = true ∧ t.expires ≤ pcb.first) ∨ pcb.first = 2 ^ 64 - 1 ∨ pcb.first ≤ s.wheel.timerPos then none
  else some pcb.first

/-- The deadline of the timer that a step arms, if it arms one. -/
def Stack.armed (cyclesPerUs : Nat) (s : Stack) : Step → Option Nat
  | .clock _ | .idle | .del _ | .deadline _ _ => none
  | .add _ usecs | .mod _ usecs =>
    if 0 < usecs ∧ usecs < maxDelayUs then some (wadd 64 (s.timerNow cyclesPerUs) usecs) else none
  | .addAbs t absUsecs =>
    if s.wheel.timerPos < absUsecs ∧ (s.timers t).pending = false then some absUsecs else none
  | .nextTick _ => some (wadd 64 s.wheel.nowUs minDelayUs)
  | .ack p =>
    let pcb := s.pcbs p
    if 0 < pcb.timerDelayedackExpires then
      if maxPacketsDelayedAck ≤ pcb.delayedAckCounter + 1 then
        s.recomputed p { pcb with
          delayedAckCounter := pcb.delayedAckCounter + 1
          timerDelayedackExpires := 0 }
      else none
    else s.recomputed p { pcb with
      delayedAckCounter := 1
      timerDelayedackExpires := wadd 64 (s.timerNow cyclesPerUs) tcpAckDelay }
  | .recompute p => s.recomputed p (s.pcbs p)

/-- The deadline that a step arms lies within the range of the wheels after their last initialisation. -/
def Stack.InReach (cyclesPerUs : Nat) (s : Stack) (step : Step) : Prop :=
  ∀ deadline ∈ s.armed cyclesPerUs step, s.wheel.Reaches deadline

namespace Stack

variable {cyclesPerUs : Nat} {s : Stack}

instance (step : Step) : Decidable (s.InReach cyclesPerUs step) := inferInstanceAs (Decidable (∀ _ ∈ _, _))

/-- A call computes the buckets of these deadlines, in the wheel as it was before the call. -/
def Places (s t : Stack) (deadlines : Option Nat) : Prop :=
  t.inserted = s.inserted ++ deadlines.toList.map s.wheel.place

theorem Places.quiet {t : Stack} (same : t.inserted = s.inserted) : Places s t none :=
  same.trans (List.append_nil _).symm

theorem timerAdd_places (t : TimerId) (usecs : Nat) :
    Places s (s.timerAdd cyclesPerUs t usecs)
      (if 0 < usecs ∧ usecs < maxDelayUs then some (wadd 64 (s.timerNow cyclesPerUs) usecs) else none) := by
  unfold timerAdd
  split_ifs with fits
  · exact rfl
  · exact .quiet rfl

theorem timerAddAbs_places (t : TimerId) (absUsecs : Nat) :
    Places s (s.timerAddAbs t absUsecs)
      (if s.wheel.timerPos < absUsecs ∧ (s.timers t).pending = false then some absUsecs else none) := by
  unfold timerAddAbs
  split_ifs with fits
  · exact rfl
  · exact .quiet rfl

theorem tcpRecomputeTimers_places (pcbs : Nat → TcpPcb) (p : Nat) :
    Places s (Stack.tcpRecomputeTimers { s with pcbs := pcbs } p) (s.recomputed p (pcbs p)) := by
  unfold tcpRecomputeTimers recomputed
  dsimp only
  by_cases keeps : (s.timers (.unified p)).pending = true ∧ (s.timers (.unified p)).expires ≤ (pcbs p).first
  · rw [if_pos keeps, if_pos (.inl keeps)]
    exact .quiet rfl
  · rw [if_neg keeps]
    by_cases nothing : (pcbs p).first = 2 ^ 64 - 1
    · rw [if_neg (not_not.2 nothing), if_pos (.inr (.inl nothing))]
      exact .quiet rfl
    · rw [if_pos nothing]
      -- the deletion just before makes the second assertion of `timer_add_abs` true
      have arms := timerAddAbs_places (s := Stack.timerDel { s with pcbs := pcbs } (.unified p)) (.unified p)
        (pcbs p).first
      have idle : ((Stack.timerDel { s with pcbs := pcbs } (.unified p)).timers (.unified p)).pending = false := by
        simp [timerDel, Timer.pending]
      by_cases past : (pcbs p).first ≤ s.wheel.timerPos
      · rw [if_neg (fun future => absurd future.1 (Nat.not_lt.2 past))] at arms
        rw [if_pos (.inr (.inr past))]
        exact arms
      · rw [if_pos ⟨Nat.lt_of_not_le past, idle⟩] at arms
        rw [if_neg (by tauto)]
        exact arms

theorem tcpAck_places (p : Nat) : Places s (s.tcpAck cyclesPerUs p) (s.armed cyclesPerUs (.ack p)) := by
  unfold tcpAck armed
  dsimp only
  split_ifs with waiting full
  · refine (tcpRecomputeTimers_places _ p).trans ?_
    rw [Function.update_self]
  · exact .quiet rfl
  · refine (tcpRecomputeTimers_places _ p).trans ?_
    rw [Function.update_self]

theorem next_places (step : Step) : Places s (s.next cyclesPerUs step) (s.armed cyclesPerUs step) := by
  cases step with
  | clock | idle | del | deadline => exact .quiet rfl
  | add t usecs => exact timerAdd_places t usecs
  | mod t usecs => exact timerAdd_places (s := s.timerDel t) t usecs
  | addAbs t absUsecs => exact timerAddAbs_places t absUsecs
  | nextTick => exact rfl
  | ack p => exact tcpAck_places p
  | recompute p => exact tcpRecomputeTimers_places s.pcbs p

theorem next_inRange_iff (step : Step) :
    (∀ place ∈ (s.next cyclesPerUs step).inserted, place.InRange) ↔
      (∀ place ∈ s.inserted, place.InRange) ∧ s.InReach cyclesPerUs step := by
  have places : (s.next cyclesPerUs step).inserted = _ := next_places step
  rw [places, List.forall_mem_append]
  refine and_congr_right fun _ => ?_
  rw [List.forall_mem_map, InReach]
  simp only [Option.mem_toList, TimerWheel.place_inRange_iff, Option.mem_def]

/-- The buckets computed over a run all lie in the wheels exactly when each step that armed a timer gave it a deadline
not before the wheels' last initialisation and less than their range after it. -/
theorem indices_in_range_iff (cyclesPerUs tsc : Nat) (steps : List Step) (s : Stack)
    (run : Run (Applies (Stack.next cyclesPerUs) Valid) (boot cyclesPerUs tsc) steps s) :
    (∀ place ∈ s.inserted, place.InRange) ↔
      Run (Guarded (Applies (Stack.next cyclesPerUs) Valid) (InReach cyclesPerUs)) (boot cyclesPerUs tsc) steps s := by
  refine (run.guarded_iff (I := fun s => ∀ place ∈ s.inserted, place.InRange) ?_).trans
    (and_iff_right (List.forall_mem_nil _))
  exact fun s step _ => next_inRange_iff step

/-- A second after boot: the TCP timer of a flow group, a delayed acknowledgement, and a retransmission deadline. -/
theorem first_second_in_range : ∃ s,
    Run (Applies (Stack.next 1000) Valid) (boot 1000 0)
      [.clock 1000000000, .add (.other 0) 250000, .ack 0, .deadline 0 (.retransmit 6), .recompute 0] s ∧
    s.inserted.length = 2 ∧ ∀ place ∈ s.inserted, place.InRange := by
  have run : Run (Guarded (Applies (Stack.next 1000) Valid) (InReach 1000)) (boot 1000 0) _ _ :=
    Run.of_passes (fun s step => of_decide_eq_true (p := s.Valid step ∧ s.InReach 1000 step))
      (show passes _ _ _ [.clock 1000000000, .add (.other 0) 250000, .ack 0, .deadline 0 (.retransmit 6),
        .recompute 0] = true by decide +kernel)
  exact ⟨_, run.unguarded, by decide +kernel, (indices_in_range_iff 1000 0 _ _ run.unguarded).2 run⟩

/-- Two hundred and sixty-nine seconds after boot the TCP timer of a flow group is linked into a fourth wheel. -/
theorem index_past_the_wheels : ∃ steps s, Run (Applies (Stack.next 1000) Valid) (boot 1000 0) steps s ∧
    ∃ place ∈ s.inserted, ¬ place.InRange := by
  have run : Run (Guarded (Applies (Stack.next 1000) Valid) (fun _ _ => True)) (boot 1000 0) _ _ :=
    Run.of_passes (fun s step => of_decide_eq_true (p := s.Valid step ∧ True))
      (show passes _ _ _ [.clock 269000000000, .add (.other 0) 250000] = true by decide +kernel)
  exact ⟨_, _, run.unguarded, by decide +kernel⟩

end Stack

end Reflex.Timers
