import Mathlib.Data.Bool.Count
import Mathlib.Logic.Function.Iterate
import Reflex.Timers.Placement

/-!
# Timers are punctual

Every step of the sweep and every call keeps the timers in their places and each arming accounted for.
-/

namespace Reflex.Timers

open Lib Function List

namespace Wheels

variable {s : Wheels} {id : Nat}

/-! ## Every step -/

/-- How often a handler was called for a timer with a flow group. -/
def calls (fired : List Firing) (id : Nat) : Nat := fired.countP fun f => f.timer == id && f.fg

/-- Armings with a flow group are cancelled, end in a call, or are pending. -/
def Balanced (armed cancelled : Nat → Nat) (fired : List Firing) (timers : Nat → Arm) : Prop :=
  ∀ id, armed id = cancelled id + calls fired id + ((timers id).pending && (timers id).fg).toNat

section Balance

variable {armed cancelled : Nat → Nat} {fired : List Firing} {timers : Nat → Arm}
  (balanced : Balanced armed cancelled fired timers)

include balanced

theorem Balanced.arm (free : (timers id).pending = false) (expires : Nat) (fg : Bool) :
    Balanced (bump armed id fg) cancelled fired (update timers id ⟨expires, true, fg⟩) := by
  intro x
  have before := balanced x
  by_cases same : x = id
  · subst same
    rw [free] at before
    rw [bump, update_self, update_self, before]
    simp
  · rw [bump, update_of_ne same, update_of_ne same]
    exact before

theorem Balanced.cancel (pending : (timers id).pending = true) :
    Balanced armed (bump cancelled id (timers id).fg) fired
      (update timers id { timers id with pending := false }) := by
  intro x
  have before := balanced x
  by_cases same : x = id
  · subst same
    rw [pending] at before
    rw [bump, update_self, update_self, before]
    simp
    omega
  · rw [bump, update_of_ne same, update_of_ne same]
    exact before

theorem Balanced.call (pending : (timers id).pending = true) (expires now : Nat) :
    Balanced armed cancelled (fired ++ [⟨id, expires, (timers id).fg, now⟩])
      (update timers id { timers id with pending := false }) := by
  intro x
  have before := balanced x
  rw [calls, countP_append, ← calls]
  by_cases same : x = id
  · subst same
    rw [pending] at before
    rw [update_self, before]
    cases (timers x).fg <;> simp [Nat.add_assoc]
  · have other : (id == x) = false := by simpa using Ne.symm same
    rw [update_of_ne same, before]
    simp [other]

theorem Balanced.skip (none : (timers id).fg = false) :
    Balanced armed cancelled fired (update timers id { timers id with pending := false }) := by
  intro x
  have before := balanced x
  by_cases same : x = id
  · subst same
    rw [none, Bool.and_false] at before
    rw [update_self, before]
    simp
  · rw [update_of_ne same]
    exact before

end Balance

/-- The timers are placed, every arming is accounted for, and no call was early. -/
structure Sound (s : Wheels) : Prop extends Placed s where
  balanced : Balanced s.armed s.cancelled s.fired s.timers
  early : ∀ f ∈ s.fired, f.expires ≤ f.now

theorem Sound.start {clock} (bound : clock < 2 ^ 63) : Sound (init clock) where
  toPlaced := .start bound
  balanced := fun _ => rfl
  early := fun f mem => by cases mem

theorem timerInsert_records (s : Wheels) (id expires : Nat) (fg : Bool) :
    (s.timerInsert id expires fg).armed = s.armed ∧ (s.timerInsert id expires fg).cancelled = s.cancelled ∧
      (s.timerInsert id expires fg).fired = s.fired ∧ (s.timerInsert id expires fg).phase = s.phase ∧
      (s.timerInsert id expires fg).wheel = s.wheel := by
  unfold timerInsert
  dsimp only
  split
  · exact ⟨rfl, rfl, rfl, rfl, rfl⟩
  · exact ⟨rfl, rfl, rfl, rfl, rfl⟩

theorem Sound.add (sound : Sound s) (free : (s.timers id).pending = false) {delay} (positive : 0 < delay)
    (range : delay < maxDelayUs) (fg : Bool) (fits : s.Fits (s.clock + delay)) : Sound (s.timerAdd id delay fg) := by
  have max : maxDelayUs = 2 ^ 28 := rfl
  have past := sound.past
  have clock := sound.clock
  let counted : Wheels := { s with armed := bump s.armed id fg }
  have placed : Placed counted := sound.toPlaced.recorded s.fired (bump s.armed id fg) s.cancelled
  obtain ⟨after, timers, -⟩ := placed.insert free fg (show s.wheel.nowUs < s.clock + delay by omega) (by omega) fits
  obtain ⟨armed, cancelled, fired, -⟩ := timerInsert_records counted id (s.clock + delay) fg
  rw [timerAdd, if_pos ⟨positive, range⟩]
  refine ⟨after, ?_, ?_⟩
  · rw [armed, cancelled, fired, timers]
    exact sound.balanced.arm free _ fg
  · rw [fired]
    exact sound.early

theorem Sound.del (sound : Sound s) (ne : s.cursor ≠ some id) : Sound (s.timerDel id) := by
  unfold timerDel
  split
  · next pending =>
    exact ⟨(sound.toPlaced.unlink ne).recorded s.fired s.armed _, sound.balanced.cancel pending, sound.early⟩
  · exact sound

theorem timerDel_same (s : Wheels) (id : Nat) :
    (s.timerDel id).phase = s.phase ∧ (s.timerDel id).wheel = s.wheel ∧ (s.timerDel id).clock = s.clock ∧
      ((s.timerDel id).timers id).pending = false := by
  unfold timerDel
  split
  · refine ⟨rfl, rfl, rfl, ?_⟩
    show (update s.timers id { s.timers id with pending := false } id).pending = false
    rw [update_self]
  · next free => exact ⟨rfl, rfl, rfl, by simpa using free⟩

theorem fits_congr {s t : Wheels} (phase : t.phase = s.phase) (wheel : t.wheel = s.wheel) (expires : Nat) :
    t.Fits expires ↔ s.Fits expires := by
  rw [Fits, Fits, due_congr phase wheel, wheel]

theorem Sound.mod (sound : Sound s) (ne : s.cursor ≠ some id) {delay} (positive : 0 < delay)
    (range : delay < maxDelayUs) (fg : Bool) (fits : s.Fits (s.clock + delay)) : Sound (s.timerMod id delay fg) := by
  obtain ⟨phase, wheel, clock, free⟩ := timerDel_same s id
  refine (sound.del ne).add free positive range fg ?_
  rw [fits_congr phase wheel, clock]
  exact fits

/-- Two states with the same timers, counts and calls. -/
def SameRecords (s t : Wheels) : Prop :=
  t.timers = s.timers ∧ t.armed = s.armed ∧ t.cancelled = s.cancelled ∧ t.fired = s.fired

theorem Sound.of_records {s t} (sound : Sound s) (placed : Placed t) (same : SameRecords s t) : Sound t := by
  obtain ⟨timers, armed, cancelled, fired⟩ := same
  refine ⟨placed, ?_, ?_⟩
  · rw [timers, armed, cancelled, fired]
    exact sound.balanced
  · rw [fired]
    exact sound.early

theorem enter_records (s : Wheels) (pos : Nat) : SameRecords s (s.enter pos) := by
  unfold enter
  split
  · exact ⟨rfl, rfl, rfl, rfl⟩
  · exact ⟨rfl, rfl, rfl, rfl⟩

theorem start_records (s : Wheels) : SameRecords s s.start := by
  unfold Wheels.start
  dsimp only
  split
  · exact enter_records { s with wheel := { s.wheel with nowUs := s.clock } } _
  · exact ⟨rfl, rfl, rfl, rfl⟩

theorem endBucket_records (s : Wheels) (pos level : Nat) : SameRecords s (s.endBucket pos level) := by
  unfold Wheels.endBucket
  split
  · dsimp only
    split
    · exact enter_records { s with slots := fun i o => if i = 0 ∧ o = wheelOffset pos 0 then [] else s.slots i o } _
    · exact ⟨rfl, rfl, rfl, rfl⟩
  · split
    · exact ⟨rfl, rfl, rfl, rfl⟩
    · exact ⟨rfl, rfl, rfl, rfl⟩

theorem Sound.fire (sound : Sound s) (pending : (s.timers id).pending = true)
    (expired : (s.timers id).expires ≤ s.wheel.nowUs) {pos level next}
    (placed : Placed { s.unlink id with phase := .sweep pos level next true }) :
    Sound ((s.unlink id).fire id pos level next) := by
  have unlinked : (s.unlink id).timers id = { s.timers id with pending := false } := update_self ..
  refine ⟨placed.recorded _ s.armed s.cancelled, ?_, ?_⟩
  · show Balanced s.armed s.cancelled (s.fired ++ [⟨id, ((s.unlink id).timers id).expires, ((s.unlink id).timers id).fg, _⟩]) _
    rw [unlinked]
    exact sound.balanced.call pending _ _
  · intro f mem
    rcases mem_append.mp mem with old | new
    · exact sound.early f old
    · rw [mem_singleton.mp new, unlinked]
      exact expired

/-- The loop has gone on to the rest of its bucket. -/
def AtRest (s t : Wheels) (pos level : Nat) (rest : List Nat) : Prop :=
  (∃ handler, t.phase = .sweep pos level rest.head? handler) ∧ t.wheel = s.wheel ∧
    t.slots level (wheelOffset pos level) = rest

theorem Sound.visitTimer (sound : Sound s) {pos level handler rest}
    (phase : s.phase = .sweep pos level (some id) handler)
    (slot : s.slots level (wheelOffset pos level) = id :: rest)
    (passed : ∀ handler', Placed { s.unlink id with phase := .sweep pos level rest.head? handler' })
    (orderly : ∀ id ∈ s.moved, s.Fits (s.timers id).expires) :
    Sound (s.visitTimer id pos level rest.head?) ∧ AtRest s (s.visitTimer id pos level rest.head?) pos level rest := by
  obtain ⟨reached, lt, aligned, -⟩ := (inPhase_sweep phase).mp sound.phase
  have there : id ∈ s.slots level (wheelOffset pos level) := slot ▸ mem_cons_self
  have pending : (s.timers id).pending = true := (sound.stored.linked there).1
  have due := sound.due_at phase there
  have erased : (s.unlink id).slots level (wheelOffset pos level) = rest := by
    show (s.slots level (wheelOffset pos level)).erase id = rest
    rw [slot, erase_cons_head]
  unfold Wheels.visitTimer
  dsimp only
  split
  · next first =>
    subst first
    rw [bucketOf_zero, bucketFrom_zero] at due
    split
    · exact ⟨sound.fire pending (by omega) (passed true), ⟨true, rfl⟩, rfl, erased⟩
    · next skipped =>
      exact ⟨⟨passed false, sound.balanced.skip (by simpa using skipped), sound.early⟩, ⟨false, rfl⟩, rfl, erased⟩
  · next upper =>
    split
    · next expired => exact ⟨sound.fire pending expired (passed true), ⟨true, rfl⟩, rfl, erased⟩
    · next ahead =>
      have ahead : s.wheel.nowUs < (s.timers id).expires := Nat.lt_of_not_le ahead
      let u : Wheels := { s.unlink id with phase := .sweep pos level rest.head? false }
      have fits : s.Fits (s.timers id).expires := by
        obtain rfl | rfl : level = 1 ∨ level = 2 := by omega
        · exact sound.fits_of_second phase there
        · refine orderly id ?_
          simp only [moved, phase]
          rw [if_neg (Nat.not_le.mpr ahead)]
          rfl
      have same : u.due = s.due := due_moved phase rfl
      have fits : u.Fits (s.timers id).expires := by
        rw [Fits, same]
        exact fits
      have free : (u.timers id).pending = false := by
        show (update s.timers id { s.timers id with pending := false } id).pending = false
        rw [update_self]
      obtain ⟨after, timers, elsewhere⟩ := (passed false).insert free (s.timers id).fg ahead (sound.bounded id) fits
      obtain ⟨armed, cancelled, fired, stays, wheel⟩ := timerInsert_records u id (s.timers id).expires (s.timers id).fg
      have back : (u.timerInsert id (s.timers id).expires (s.timers id).fg).timers = s.timers := by
        refine timers.trans ?_
        show update (update s.timers id _) id _ = s.timers
        rw [update_idem, ← pending, update_eq_self]
      refine ⟨sound.of_records after ⟨back, armed, cancelled, fired⟩, ⟨false, stays⟩, wheel, ?_⟩
      have kept := elsewhere pos level rest.head? false rfl
      rw [same, due_here phase lt, ← wheelOffset_eq lt aligned] at kept
      exact kept.trans erased

theorem Sound.visit_some (sound : Sound s) {pos level handler}
    (phase : s.phase = .sweep pos level (some id) handler) (orderly : ∀ id ∈ s.moved, s.Fits (s.timers id).expires) :
    ∃ rest, s.slots level (wheelOffset pos level) = id :: rest ∧ Sound s.visit ∧ AtRest s s.visit pos level rest := by
  obtain ⟨rest, slot, passed⟩ := sound.toPlaced.pass phase
  refine ⟨rest, slot, ?_⟩
  unfold Wheels.visit
  simp only [phase, slot]
  rw [if_pos mem_cons_self, dropWhile_cons_of_neg (by simp)]
  exact sound.visitTimer phase slot passed orderly

theorem Sound.visit (sound : Sound s) (orderly : ∀ id ∈ s.moved, s.Fits (s.timers id).expires) : Sound s.visit := by
  cases phase : s.phase with
  | idle =>
    rw [Wheels.visit, phase]
    exact sound
  | sweep pos level next handler =>
    cases next with
    | none =>
      rw [Wheels.visit, phase]
      exact sound.of_records (sound.toPlaced.endBucket phase) (endBucket_records s pos level)
    | some id =>
      obtain ⟨_, _, after, _⟩ := sound.visit_some phase orderly
      exact after

/-! ## The sweep ends -/

/-- The positions that `timer_run` still has to pass, in microseconds. -/
def distance (s : Wheels) : Nat :=
  match s.phase with
  | .idle => 0
  | .sweep pos _ _ _ => s.wheel.nowUs + 1 - pos

/-- The timers that are left in its bucket. -/
def waiting (s : Wheels) : Nat :=
  match s.phase with
  | .idle => 0
  | .sweep pos level _ _ => (s.slots level (wheelOffset pos level)).length

theorem Sound.next (sound : Sound s) {step} (valid : Valid s step) (orderly : Orderly s step) :
    Sound (s.next step) := by
  cases step with
  | tick now =>
    obtain ⟨-, later, bound⟩ := valid
    exact sound.of_records (sound.toPlaced.tick later bound) ⟨rfl, rfl, rfl, rfl⟩
  | add id delay fg =>
    obtain ⟨-, -, free, positive, range⟩ := valid
    exact sound.add free positive range fg orderly
  | mod id delay fg =>
    obtain ⟨-, -, positive, range⟩ := valid
    exact sound.mod orderly.1 positive range fg orderly.2
  | del id => exact sound.del orderly
  | run => exact sound.of_records (sound.toPlaced.run valid.2) (start_records s)
  | visit => exact sound.visit orderly

/-! ## Whole runs -/

instance (s : Wheels) : Decidable s.CallAllowed :=
  match phase : s.phase with
  | .idle => isTrue (by simp only [CallAllowed, phase])
  | .sweep _ _ _ inHandler => decidable_of_iff (inHandler = true) (by simp only [CallAllowed, phase])

instance (s : Wheels) : (step : WheelStep) → Decidable (Valid s step)
  | .tick _ => inferInstanceAs (Decidable (_ ∧ _ ∧ _))
  | .add .. => inferInstanceAs (Decidable (_ ∧ _ ∧ _ ∧ _ ∧ _))
  | .mod .. => inferInstanceAs (Decidable (_ ∧ _ ∧ _ ∧ _))
  | .del _ => inferInstanceAs (Decidable (_ ∧ _))
  | .run => inferInstanceAs (Decidable (_ ∧ _))
  | .visit => inferInstanceAs (Decidable (_ ∧ _))

instance (s : Wheels) (expires : Nat) : Decidable (s.Fits expires) := inferInstanceAs (Decidable (_ ∧ _))

instance (s : Wheels) : (step : WheelStep) → Decidable (Orderly s step)
  | .tick _ => isTrue trivial
  | .add .. => inferInstanceAs (Decidable (Fits _ _))
  | .mod .. => inferInstanceAs (Decidable (_ ∧ _))
  | .del _ => inferInstanceAs (Decidable (_ ≠ _))
  | .run => isTrue trivial
  | .visit => inferInstanceAs (Decidable (∀ id ∈ s.moved, _))

theorem run_of_passes {steps} (pass : passes next (fun s step => decide (Valid s step)) s steps = true) :
    Run (Applies next Valid) s steps (steps.foldl next s) := by
  have run : Run (Guarded (Applies next Valid) fun _ _ => True) s steps (steps.foldl next s) :=
    Run.of_passes (fun s step valid => ⟨of_decide_eq_true valid, trivial⟩) pass
  exact run.unguarded

theorem sound_of_run {clock} (bound : clock < 2 ^ 63) {steps}
    (run : Run (Guarded (Applies next Valid) Orderly) (init clock) steps s) : Sound s := by
  refine run.invariant ?_ (.start bound)
  rintro s step t ⟨⟨valid, rfl⟩, orderly⟩ sound
  exact sound.next valid orderly

/-- As long as every bucket that a timer is put into is less than a lap ahead, and handlers leave the timer alone that
the loop visits next, no handler is called before its timer's deadline. -/
theorem timers_never_fire_early {clock : Nat} (bound : clock < 2 ^ 63) {steps : List WheelStep}
    (run : Run (Guarded (Applies next Valid) Orderly) (init clock) steps s) : ∀ f ∈ s.fired, f.expires ≤ f.now :=
  (sound_of_run bound run).early

/-- A timer runs at its tick, and its handler arms it again for five milliseconds. -/
def rearmSteps : List WheelStep :=
  [.add 0 20 true, .tick 50, .run, .visit, .visit, .visit, .visit, .visit, .mod 0 5000 true, .visit, .visit]

theorem rearmSteps_run :
    Run (Guarded (Applies next Valid) Orderly) (init 0) rearmSteps (rearmSteps.foldl next (init 0)) := by
  have pass : passes next (fun s step => decide (Valid s step ∧ Orderly s step)) (init 0) rearmSteps = true := by
    decide +kernel
  exact Run.of_passes (fun s step => of_decide_eq_true) pass

theorem rearmed_timer_not_early : ∃ s, Run (Guarded (Applies next Valid) Orderly) (init 0) rearmSteps s ∧
    s.fired = [⟨0, 20, true, 50⟩] ∧ ∀ f ∈ s.fired, f.expires ≤ f.now :=
  ⟨_, rearmSteps_run, by decide +kernel, timers_never_fire_early (by decide) rearmSteps_run⟩

/-- The core starts off a tick. A timer for almost a lap is put into the bucket that the sweep comes to first. -/
def earlySteps : List WheelStep := [.add 0 4079 true, .run, .visit, .visit, .visit]

theorem timer_fires_a_lap_early : ¬ ∀ clock < 2 ^ 63, ∀ steps s, Run (Applies next Valid) (init clock) steps s →
    ∀ f ∈ s.fired, f.expires ≤ f.now := by
  intro never
  have pass : passes next (fun s step => decide (Valid s step)) (init 1) earlySteps = true := by decide +kernel
  have run := run_of_passes pass
  have early := never 1 (by decide) _ _ run ⟨0, 4080, true, 1⟩ (by decide +kernel)
  revert early
  decide

def Linked (s : Wheels) (id : Nat) : Prop :=
  ∃ i < wheelCount, ∃ o < wheelSize, (s.slots i o).count id = 1 ∧ ∀ j p, id ∈ s.slots j p → j = i ∧ p = o

theorem Sound.linked (sound : Sound s) (pending : (s.timers id).pending = true) : s.Linked id := by
  obtain ⟨i, o, there⟩ := sound.stored.held pending
  obtain ⟨-, level, offset, -⟩ := sound.stored.linked there
  refine ⟨i, level, o, ?_, count_eq_one_of_mem (sound.stored.nodup i o) there, ?_⟩
  · rw [offset]
    exact Nat.mod_lt _ (by decide)
  · intro j p other
    obtain rfl := sound.stored.single other there
    obtain ⟨-, -, offset', -⟩ := sound.stored.linked other
    exact ⟨rfl, offset'.trans offset.symm⟩

end Wheels

end Reflex.Timers
