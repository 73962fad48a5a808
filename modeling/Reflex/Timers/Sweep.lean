import Mathlib.Data.List.Nodup
import Reflex.Timers.Wheel

/-!
# The sweep of the timer wheels

`timer_run` of `core/timer.c` in small steps: it reads the clock and then passes the ticks of sixteen microseconds up to
it. Before a tick that begins a new lap of the first wheel it empties the bucket of the second wheel, and before a new
lap of the second that of the third (`timer_collapse`); expired timers run, the others are inserted again. Then it runs
the bucket of the tick. A visit is one turn of the loop over a bucket; between two visits the handler that was called
may add, modify and delete timers. The loop keeps the pointer to the timer it visits next, and the bucket of a tick is
emptied without looking at it when the loop ends.
-/

namespace Reflex.Timers

open Lib Function

/-- `struct timer`, with what it was last armed for. -/
structure Arm where
  expires : Nat
  pending : Bool
  fg : Bool
deriving DecidableEq, Repr

/-- Where `timer_run` is: in the loop over the bucket of a wheel at a position, with the timer it visits next. -/
inductive Phase where
  | idle
  | sweep (pos level : Nat) (cursor : Option Nat) (inHandler : Bool)
deriving DecidableEq, Repr

structure Firing where
  timer : Nat
  expires : Nat
  fg : Bool
  now : Nat
deriving DecidableEq, Repr

/-- The wheels of a core, with the calls of handlers so far. How often each timer was armed with a flow group, and how
often such an arming was cancelled, is counted. -/
structure Wheels where
  clock : Nat
  wheel : TimerWheel
  slots : Nat → Nat → List Nat
  timers : Nat → Arm
  phase : Phase
  fired : List Firing
  armed : Nat → Nat
  cancelled : Nat → Nat
  faulted : Bool

def wheelOffset (val level : Nat) : Nat := val / 2 ^ (level * 8 + 4) % 256

/-- A timer's count grows if the timer has a flow group. -/
def bump (count : Nat → Nat) (id : Nat) (fg : Bool) : Nat → Nat := Function.update count id (count id + fg.toNat)

namespace Wheels

variable (s : Wheels)

/-- `timer_insert`; outside the wheels it writes into other memory. -/
def timerInsert (id expires : Nat) (fg : Bool) : Wheels :=
  let place := s.wheel.place expires
  if place.InRange then
    { s with
      timers := Function.update s.timers id ⟨expires, true, fg⟩
      slots := fun i o => if i = place.index.toNat ∧ o = place.offset then id :: s.slots i o else s.slots i o }
  else { s with faulted := true }

/-- `__timer_del`. -/
def unlink (id : Nat) : Wheels :=
  { s with
    timers := Function.update s.timers id { s.timers id with pending := false }
    slots := fun i o => (s.slots i o).erase id }

def timerAdd (id delay : Nat) (fg : Bool) : Wheels :=
  if 0 < delay ∧ delay < maxDelayUs then
    timerInsert { s with armed := bump s.armed id fg } id (s.clock + delay) fg
  else { s with faulted := true }

def timerDel (id : Nat) : Wheels :=
  if (s.timers id).pending then { s.unlink id with cancelled := bump s.cancelled id (s.timers id).fg } else s

def timerMod (id delay : Nat) (fg : Bool) : Wheels := (s.timerDel id).timerAdd id delay fg

/-- The loop over the bucket of a wheel at a position begins. -/
def enterBucket (pos level : Nat) : Wheels :=
  { s with phase := .sweep pos level (s.slots level (wheelOffset pos level)).head? false }

/-- The loop of `timer_run` at a position. -/
def enter (pos : Nat) : Wheels := if wheelOffset pos 0 = 0 then s.enterBucket pos 1 else s.enterBucket pos 0

/-- `timer_run` up to its first bucket. -/
def start : Wheels :=
  let s := { s with wheel := { s.wheel with nowUs := s.clock } }
  if s.wheel.timerPos ≤ s.clock then s.enter s.wheel.timerPos else s

def endBucket (pos level : Nat) : Wheels :=
  if level = 0 then
    let s := { s with slots := fun i o => if i = 0 ∧ o = wheelOffset pos 0 then [] else s.slots i o }
    if pos + minDelayUs ≤ s.wheel.nowUs then s.enter (pos + minDelayUs)
    else { s with wheel := { s.wheel with timerPos := pos + minDelayUs }, phase := .idle }
  else if level = 1 ∧ wheelOffset pos 1 = 0 then s.enterBucket pos 2
  else s.enterBucket pos 0

def fire (id pos level : Nat) (next : Option Nat) : Wheels :=
  { s with
    fired := s.fired ++ [⟨id, (s.timers id).expires, (s.timers id).fg, s.wheel.nowUs⟩]
    phase := .sweep pos level next true }

/-- The turn of the loop for a timer that is still in the bucket: `timer_run_bucket` skips timers without a flow group,
`timer_reinsert_bucket` inserts those that have not expired. -/
def visitTimer (id pos level : Nat) (next : Option Nat) : Wheels :=
  let t := s.timers id
  let s := s.unlink id
  if level = 0 then
    if t.fg then s.fire id pos 0 next else { s with phase := .sweep pos 0 next false }
  else if t.expires ≤ s.wheel.nowUs then s.fire id pos level next
  else timerInsert { s with phase := .sweep pos level next false } id t.expires t.fg

/-- One turn of a loop. A timer that was unlinked or moved since its pointer was read leads the loop astray. -/
def visit : Wheels :=
  match s.phase with
  | .idle => s
  | .sweep pos level none _ => s.endBucket pos level
  | .sweep pos level (some id) _ =>
    let slot := s.slots level (wheelOffset pos level)
    if id ∈ slot then s.visitTimer id pos level (slot.dropWhile (· ≠ id)).tail.head? else { s with faulted := true }

end Wheels

inductive WheelStep where
  | tick (now : Nat)
  | add (id delay : Nat) (fg : Bool)
  | mod (id delay : Nat) (fg : Bool)
  | del (id : Nat)
  | run
  | visit
deriving Repr

namespace Wheels

def next (s : Wheels) : WheelStep → Wheels
  | .tick now => { s with clock := now }
  | .add id delay fg => s.timerAdd id delay fg
  | .mod id delay fg => s.timerMod id delay fg
  | .del id => s.timerDel id
  | .run => s.start
  | .visit => s.visit

/-- Calls come from outside `timer_run` or from a handler. -/
def CallAllowed (s : Wheels) : Prop :=
  match s.phase with
  | .idle => True
  | .sweep _ _ _ inHandler => inHandler = true

/-- The clock never goes back; a timer is added while it is not pending, with a delay in the range. -/
def Valid (s : Wheels) : WheelStep → Prop
  | .tick now => s.faulted = false ∧ s.clock ≤ now ∧ now < 2 ^ 63
  | .add id delay _ => s.faulted = false ∧ s.CallAllowed ∧ (s.timers id).pending = false ∧ 0 < delay ∧ delay < maxDelayUs
  | .mod _ delay _ => s.faulted = false ∧ s.CallAllowed ∧ 0 < delay ∧ delay < maxDelayUs
  | .del _ => s.faulted = false ∧ s.CallAllowed
  | .run => s.faulted = false ∧ s.phase = .idle
  | .visit => s.faulted = false ∧ s.phase ≠ .idle

def init (clock : Nat) : Wheels where
  clock := clock
  wheel := ⟨clock, clock⟩
  slots _ _ := []
  timers _ := ⟨0, false, false⟩
  phase := .idle
  fired := []
  armed _ := 0
  cancelled _ := 0
  faulted := false

/-! ## The condition -/

/-- The number of the first bucket of a wheel that begins at a tick or later. -/
def bucketFrom (tick level : Nat) : Nat := (tick + (256 ^ level - 1)) / 256 ^ level

/-- The number, in each wheel, of the next bucket that the sweep comes to; while the loop is in a bucket, it is that
bucket. -/
def due (s : Wheels) (level : Nat) : Nat :=
  match s.phase with
  | .idle => bucketFrom (s.wheel.timerPos / 16) level
  | .sweep pos here _ _ =>
    if level = 0 ∨ here = 1 ∨ (here = 2 ∧ level = 2) then bucketFrom (pos / 16) level
    else bucketFrom (pos / 16 + 1) level

/-- The wheel that a deadline belongs to. -/
def levelOf (now expires : Nat) : Nat :=
  if expires + minDelayUs < now + 2 ^ 12 then 0 else if expires + minDelayUs < now + 2 ^ 20 then 1 else 2

/-- The number of a deadline's bucket in a wheel. -/
def bucketOf (expires level : Nat) : Nat := (expires + minDelayUs) / 2 ^ (level * 8 + 4)

/-- A deadline lies in the range of the wheels, and less than a lap of its wheel after the next bucket. -/
def Fits (s : Wheels) (expires : Nat) : Prop :=
  expires + minDelayUs < s.wheel.nowUs + maxDelayUs ∧
    bucketOf expires (levelOf s.wheel.nowUs expires) < s.due (levelOf s.wheel.nowUs expires) + wheelSize

/-- The timer that the loop visits next. -/
def cursor (s : Wheels) : Option Nat :=
  match s.phase with
  | .idle => none
  | .sweep _ _ cursor _ => cursor

/-- The timer of the third wheel that the next visit moves, if it moves one. -/
def moved (s : Wheels) : Option Nat :=
  match s.phase with
  | .sweep _ 2 (some id) _ => if (s.timers id).expires ≤ s.wheel.nowUs then none else some id
  | _ => none

/-- Timers are armed, and moved from the third wheel, into buckets that are less than a lap ahead, and no handler
touches the timer that the loop visits next. -/
def Orderly (s : Wheels) : WheelStep → Prop
  | .add _ delay _ => s.Fits (s.clock + delay)
  | .mod id delay _ => s.cursor ≠ some id ∧ s.Fits (s.clock + delay)
  | .del id => s.cursor ≠ some id
  | .visit => ∀ id ∈ s.moved, s.Fits (s.timers id).expires
  | _ => True

/-! ## Where timers are kept -/

/-- Each pending timer is in one bucket, that of its deadline in some wheel, and less than a lap ahead there. -/
structure Stored (slots : Nat → Nat → List Nat) (timers : Nat → Arm) (due : Nat → Nat) : Prop where
  linked : ∀ {i o id}, id ∈ slots i o → (timers id).pending = true ∧ i < 3 ∧ o = bucketOf (timers id).expires i % 256 ∧
    due i ≤ bucketOf (timers id).expires i ∧ bucketOf (timers id).expires i < due i + 256
  held : ∀ {id}, (timers id).pending = true → ∃ i o, id ∈ slots i o
  single : ∀ {i o j p id}, id ∈ slots i o → id ∈ slots j p → i = j
  nodup : ∀ i o, (slots i o).Nodup

variable {slots : Nat → Nat → List Nat} {timers : Nat → Arm} {ahead ahead' : Nat → Nat} {id : Nat}

section

variable (stored : Stored slots timers ahead)
include stored

theorem Stored.not_mem (free : (timers id).pending = false) (i o : Nat) :
    id ∉ slots i o := by
  intro there
  have pending := (stored.linked there).1
  rw [free] at pending
  cases pending

theorem Stored.bucket_eq {i : Nat} (there : id ∈ slots i (ahead i % 256)) :
    bucketOf (timers id).expires i = ahead i := by
  obtain ⟨-, -, offset, low, high⟩ := stored.linked there
  omega

theorem Stored.unlink (id : Nat) :
    Stored (fun i o => (slots i o).erase id) (update timers id { timers id with pending := false }) ahead := by
  have other : ∀ {i o x}, x ∈ (slots i o).erase id → x ≠ id ∧ x ∈ slots i o := by
    intro i o x mem
    exact (stored.nodup i o).mem_erase_iff.mp mem
  constructor
  case linked =>
    intro i o x mem
    obtain ⟨ne, mem⟩ := other mem
    rw [update_of_ne ne]
    exact stored.linked mem
  case held =>
    intro x pending
    by_cases same : x = id
    · subst same
      rw [update_self] at pending
      cases pending
    · rw [update_of_ne same] at pending
      obtain ⟨i, o, mem⟩ := stored.held pending
      exact ⟨i, o, (stored.nodup i o).mem_erase_iff.mpr ⟨same, mem⟩⟩
  case single => exact fun mem mem' => stored.single (other mem).2 (other mem').2
  case nodup => exact fun i o => (stored.nodup i o).erase id

theorem Stored.insert (free : (timers id).pending = false) {expires i : Nat}
    (fg : Bool) (level : i < 3) (low : ahead i ≤ bucketOf expires i) (high : bucketOf expires i < ahead i + 256) :
    Stored (fun j p => if j = i ∧ p = bucketOf expires i % 256 then id :: slots j p else slots j p)
      (update timers id ⟨expires, true, fg⟩) ahead := by
  have split : ∀ {j p x}, x ∈ (if j = i ∧ p = bucketOf expires i % 256 then id :: slots j p else slots j p) →
      (x = id ∧ j = i ∧ p = bucketOf expires i % 256) ∨ (x ≠ id ∧ x ∈ slots j p) := by
    intro j p x mem
    have old : x ∈ slots j p → x ≠ id := by
      intro there same
      subst same
      exact stored.not_mem free j p there
    by_cases here : j = i ∧ p = bucketOf expires i % 256
    · rw [if_pos here] at mem
      rcases List.mem_cons.mp mem with new | mem
      · exact .inl ⟨new, here⟩
      · exact .inr ⟨old mem, mem⟩
    · rw [if_neg here] at mem
      exact .inr ⟨old mem, mem⟩
  constructor
  case linked =>
    intro j p x mem
    rcases split mem with ⟨rfl, rfl, rfl⟩ | ⟨ne, mem⟩
    · rw [update_self]
      exact ⟨rfl, level, rfl, low, high⟩
    · rw [update_of_ne ne]
      exact stored.linked mem
  case held =>
    intro x pending
    by_cases same : x = id
    · subst same
      refine ⟨i, bucketOf expires i % 256, ?_⟩
      rw [if_pos ⟨rfl, rfl⟩]
      exact List.mem_cons_self
    · rw [update_of_ne same] at pending
      obtain ⟨j, p, mem⟩ := stored.held pending
      refine ⟨j, p, ?_⟩
      split
      · exact List.mem_cons_of_mem _ mem
      · exact mem
  case single =>
    intro j p j' p' x mem mem'
    rcases split mem with ⟨rfl, rfl, -⟩ | ⟨ne, mem⟩ <;> rcases split mem' with ⟨same, rfl, -⟩ | ⟨ne', mem'⟩
    · rfl
    · exact absurd rfl ne'
    · exact absurd same ne
    · exact stored.single mem mem'
  case nodup =>
    intro j p
    split
    · exact List.nodup_cons.mpr ⟨stored.not_mem free j p, stored.nodup j p⟩
    · exact stored.nodup j p

theorem Stored.advance (moves : ∀ i, i < 3 → ahead' i = ahead i ∨ (ahead' i = ahead i + 1 ∧ slots i (ahead i % 256) = [])) :
    Stored slots timers ahead' where
  __ := stored
  linked := by
    intro i o id mem
    obtain ⟨pending, level, offset, low, high⟩ := stored.linked mem
    refine ⟨pending, level, offset, ?_⟩
    rcases moves i level with same | ⟨next, empty⟩
    · rw [same]
      exact ⟨low, high⟩
    · have apart : bucketOf (timers id).expires i ≠ ahead i := by
        intro same
        rw [offset, same, empty] at mem
        cases mem
      omega

end

end Wheels

end Reflex.Timers
