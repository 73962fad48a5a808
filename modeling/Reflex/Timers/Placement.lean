import Reflex.Timers.Sweep

/-!
# Where timers are during a sweep

The sweep passes every bucket once a lap. As long as each timer is less than a lap ahead of it, the bucket that
the sweep comes to holds the timers that are due there and no others.
-/

namespace Reflex.Timers

open Lib Function

variable {pos level expires : Nat} {s t : Wheels} {handler : Bool}

namespace Wheels

theorem place_eq {tw : TimerWheel} (later : tw.nowUs ≤ expires) (bound : expires < 2 ^ 63 + 2 ^ 28)
    (range : expires + minDelayUs < tw.nowUs + maxDelayUs) :
    tw.place expires = ⟨levelOf tw.nowUs expires, bucketOf expires (levelOf tw.nowUs expires) % 256⟩ := by
  have min : minDelayUs = 16 := rfl
  have max : maxDelayUs = 2 ^ 28 := rfl
  have rounded : wadd 64 expires minDelayUs = expires + 16 := by
    unfold wadd
    omega
  have distance : wsub 64 (expires + 16) tw.nowUs = expires + 16 - tw.nowUs := by
    unfold wsub
    omega
  have index : ((63 - clz64 (expires + 16 - tw.nowUs) - minDelayShift) >>> wheelShiftLog2 : Int) =
      levelOf tw.nowUs expires := by
    have nonzero : expires + 16 - tw.nowUs ≠ 0 := by omega
    have value : ((63 - clz64 (expires + 16 - tw.nowUs) - minDelayShift) >>> wheelShiftLog2 : Int) =
        (63 - clz64 (expires + 16 - tw.nowUs) - 4) / 8 := Int.shiftRight_eq_div_pow _ 3
    have low : 4 ≤ Nat.log2 (expires + 16 - tw.nowUs) ↔ 2 ^ 4 ≤ expires + 16 - tw.nowUs := Nat.le_log2 nonzero
    have first : Nat.log2 (expires + 16 - tw.nowUs) < 12 ↔ expires + 16 - tw.nowUs < 2 ^ 12 := Nat.log2_lt nonzero
    have second : Nat.log2 (expires + 16 - tw.nowUs) < 20 ↔ expires + 16 - tw.nowUs < 2 ^ 20 := Nat.log2_lt nonzero
    have third : Nat.log2 (expires + 16 - tw.nowUs) < 28 ↔ expires + 16 - tw.nowUs < 2 ^ 28 := Nat.log2_lt nonzero
    rw [value, clz64, if_neg nonzero, levelOf, min]
    generalize Nat.log2 (expires + 16 - tw.nowUs) = top at *
    split
    · omega
    · split
      · omega
      · omega
  have offset : ((levelOf tw.nowUs expires : Int) * wheelShift + minDelayShift).toNat = levelOf tw.nowUs expires * 8 + 4 := by
    show ((levelOf tw.nowUs expires : Int) * 8 + 4).toNat = _
    omega
  simp only [TimerWheel.place, rounded, distance, index, offset, bucketOf, Nat.shiftRight_eq_div_pow]
  rfl

/-- The loop is at a bucket that its position has reached, and its pointer is at the head of the bucket. -/
def InPhase (s : Wheels) : Prop :=
  match s.phase with
  | .idle => s.wheel.nowUs ≤ s.wheel.timerPos ∧ s.wheel.timerPos ≤ s.wheel.nowUs + minDelayUs
  | .sweep pos level cursor _ => pos ≤ s.wheel.nowUs ∧ level < 3 ∧ pos / 16 % 256 ^ level = 0 ∧
    cursor = (s.slots level (s.due level % 256)).head?

theorem inPhase_idle (phase : s.phase = .idle) :
    s.InPhase ↔ s.wheel.nowUs ≤ s.wheel.timerPos ∧ s.wheel.timerPos ≤ s.wheel.nowUs + minDelayUs := by
  simp only [InPhase, phase]

theorem inPhase_sweep {cursor}
    (phase : s.phase = .sweep pos level cursor handler) :
    s.InPhase ↔ pos ≤ s.wheel.nowUs ∧ level < 3 ∧ pos / 16 % 256 ^ level = 0 ∧
      cursor = (s.slots level (s.due level % 256)).head? := by
  simp only [InPhase, phase]

theorem due_congr (phase : t.phase = s.phase) (wheel : t.wheel = s.wheel) : t.due = s.due := by
  funext level
  simp only [due, phase, wheel]

theorem InPhase.of_heads (inPhase : s.InPhase) (phase : t.phase = s.phase) (wheel : t.wheel = s.wheel)
    (heads : ∀ pos level cursor handler, s.phase = .sweep pos level cursor handler →
      cursor = (s.slots level (s.due level % 256)).head? → cursor = (t.slots level (s.due level % 256)).head?) :
    t.InPhase := by
  cases here : s.phase with
  | idle =>
    rw [inPhase_idle here] at inPhase
    rw [inPhase_idle (phase.trans here), wheel]
    exact inPhase
  | sweep pos level cursor handler =>
    obtain ⟨reached, lt, aligned, head⟩ := (inPhase_sweep here).mp inPhase
    rw [inPhase_sweep (phase.trans here), wheel, due_congr phase wheel]
    exact ⟨reached, lt, aligned, heads pos level cursor handler here head⟩

theorem levelOf_cases (now expires : Nat) :
    (levelOf now expires = 0 ∧ expires + 16 < now + 2 ^ 12) ∨
      (levelOf now expires = 1 ∧ now + 2 ^ 12 ≤ expires + 16 ∧ expires + 16 < now + 2 ^ 20) ∨
      (levelOf now expires = 2 ∧ now + 2 ^ 20 ≤ expires + 16) := by
  have min : minDelayUs = 16 := rfl
  unfold levelOf
  rw [min]
  split
  · omega
  · split
    · omega
    · omega

theorem levelOf_lt (now expires : Nat) : levelOf now expires < 3 := by
  rcases levelOf_cases now expires with h | h | h
  all_goals omega

@[simp] theorem bucketOf_zero (expires : Nat) : bucketOf expires 0 = (expires + 16) / 16 := rfl
@[simp] theorem bucketOf_one (expires : Nat) : bucketOf expires 1 = (expires + 16) / 4096 := rfl
@[simp] theorem bucketOf_two (expires : Nat) : bucketOf expires 2 = (expires + 16) / 1048576 := rfl
@[simp] theorem bucketFrom_zero (tick : Nat) : bucketFrom tick 0 = tick := Nat.div_one tick
@[simp] theorem bucketFrom_one (tick : Nat) : bucketFrom tick 1 = (tick + 255) / 256 := rfl
@[simp] theorem bucketFrom_two (tick : Nat) : bucketFrom tick 2 = (tick + 65535) / 65536 := rfl

theorem InPhase.bucketOf_ge (phase : s.InPhase) (later : s.wheel.nowUs < expires) :
    s.due (levelOf s.wheel.nowUs expires) ≤ bucketOf expires (levelOf s.wheel.nowUs expires) ∧
      ∀ pos cursor handler, s.phase = .sweep pos (levelOf s.wheel.nowUs expires) cursor handler →
        s.due (levelOf s.wheel.nowUs expires) < bucketOf expires (levelOf s.wheel.nowUs expires) := by
  unfold InPhase at phase
  have min : minDelayUs = 16 := rfl
  cases at_ : s.phase with
  | idle =>
    rw [at_] at phase
    refine ⟨?_, fun _ _ _ other => by cases other⟩
    simp only [due, at_]
    rcases levelOf_cases s.wheel.nowUs expires with ⟨level, _⟩ | ⟨level, _, _⟩ | ⟨level, _⟩
    all_goals
      rw [level]
      simp only [bucketFrom_zero, bucketFrom_one, bucketFrom_two, bucketOf_zero, bucketOf_one, bucketOf_two]
      omega
  | sweep pos here cursor handler =>
    rw [at_] at phase
    obtain ⟨reached, -, aligned, -⟩ := phase
    simp only [due, at_]
    refine ⟨?_, ?_⟩
    · rcases levelOf_cases s.wheel.nowUs expires with ⟨level, _⟩ | ⟨level, _, _⟩ | ⟨level, _⟩
      all_goals
        rw [level]
        simp only [bucketFrom_zero, bucketFrom_one, bucketFrom_two, bucketOf_zero, bucketOf_one, bucketOf_two]
        split
        all_goals omega
    · rintro pos' cursor' handler' same
      cases same
      rcases levelOf_cases s.wheel.nowUs expires with ⟨level, _⟩ | ⟨level, _, _⟩ | ⟨level, _⟩
      all_goals
        rw [level] at aligned ⊢
        rw [if_pos (by decide)]
        simp only [bucketFrom_zero, bucketFrom_one, bucketFrom_two, bucketOf_zero, bucketOf_one, bucketOf_two]
        omega

/-- Nothing has failed, and no word of the clock wraps. -/
structure Steady (s : Wheels) : Prop where
  healthy : s.faulted = false
  past : s.wheel.nowUs ≤ s.clock
  clock : s.clock < 2 ^ 63
  bounded : ∀ id, (s.timers id).expires < 2 ^ 63 + 2 ^ 28

/-- The timers are in their buckets and the loop is in step with them. -/
structure Placed (s : Wheels) : Prop extends Steady s where
  stored : Stored s.slots s.timers s.due
  phase : s.InPhase

variable {id : Nat}

theorem Placed.start {clock} (bound : clock < 2 ^ 63) : Placed (init clock) where
  stored := by
    constructor
    case linked => exact fun mem => by cases mem
    case held => exact fun pending => by cases pending
    case single => exact fun mem => by cases mem
    case nodup => exact fun _ _ => List.nodup_nil
  phase := ⟨le_rfl, Nat.le_add_right ..⟩
  healthy := rfl
  past := le_rfl
  clock := bound
  bounded := fun _ => by
    show 0 < _
    omega

theorem Placed.recorded (placed : Placed s) (fired : List Firing) (armed cancelled : Nat → Nat) :
    Placed { s with fired := fired, armed := armed, cancelled := cancelled } where
  __ := placed

theorem Placed.tick (placed : Placed s) {now} (later : s.clock ≤ now) (bound : now < 2 ^ 63) :
    Placed { s with clock := now } where
  __ := placed
  past := placed.past.trans later
  clock := bound

theorem Placed.insert (placed : Placed s) (free : (s.timers id).pending = false) (fg : Bool)
    (later : s.wheel.nowUs < expires) (bound : expires < 2 ^ 63 + 2 ^ 28) (fits : s.Fits expires) :
    Placed (s.timerInsert id expires fg) ∧
      (s.timerInsert id expires fg).timers = update s.timers id ⟨expires, true, fg⟩ ∧
      ∀ pos here next handler, s.phase = .sweep pos here next handler →
        (s.timerInsert id expires fg).slots here (s.due here % 256) = s.slots here (s.due here % 256) := by
  obtain ⟨range, high⟩ := fits
  obtain ⟨low, apart⟩ := placed.phase.bucketOf_ge later
  have place := place_eq later.le bound range
  have level := levelOf_lt s.wheel.nowUs expires
  generalize levelOf s.wheel.nowUs expires = i at high low apart place level
  have inRange : (s.wheel.place expires).InRange := by
    rw [place]
    exact ⟨Int.natCast_nonneg i, Int.ofNat_lt.mpr level⟩
  have inserted : s.timerInsert id expires fg =
      { s with
        timers := update s.timers id ⟨expires, true, fg⟩
        slots := fun j p => if j = i ∧ p = bucketOf expires i % 256 then id :: s.slots j p else s.slots j p } := by
    rw [timerInsert, if_pos inRange, place]
    rfl
  have elsewhere : ∀ pos here next handler, s.phase = .sweep pos here next handler →
      (if here = i ∧ s.due here % 256 = bucketOf expires i % 256 then id :: s.slots here (s.due here % 256)
        else s.slots here (s.due here % 256)) = s.slots here (s.due here % 256) := by
    intro pos here next handler at_
    have size : wheelSize = 256 := rfl
    rw [if_neg]
    rintro ⟨rfl, offset⟩
    have ahead := apart pos next handler at_
    rw [size] at high
    omega
  rw [inserted]
  refine ⟨⟨⟨placed.healthy, placed.past, placed.clock, ?bounded⟩, ?stored, ?phase⟩, rfl, elsewhere⟩
  case stored => exact placed.stored.insert free fg level low high
  case bounded =>
    intro x
    show (update s.timers id _ x).expires < _
    by_cases same : x = id
    · subst same
      rw [update_self]
      exact bound
    · rw [update_of_ne same]
      exact placed.bounded x
  case phase =>
    refine placed.phase.of_heads rfl rfl fun pos here next handler at_ head => ?_
    exact head.trans (congrArg List.head? (elsewhere pos here next handler at_).symm)

theorem head?_erase_of_ne {l : List Nat} (ne : l.head? ≠ some id) : (l.erase id).head? = l.head? := by
  cases l with
  | nil => rfl
  | cons x l =>
    have other : x ≠ id := fun same => ne (congrArg some same)
    rw [List.erase_cons_tail (by simpa using other)]
    rfl

theorem Steady.unlink (steady : Steady s) (id : Nat) : Steady (s.unlink id) where
  __ := steady
  bounded := by
    intro x
    have bounded := steady.bounded x
    show (update s.timers id { s.timers id with pending := false } x).expires < _
    by_cases same : x = id
    · subst same
      rw [update_self]
      exact bounded
    · rw [update_of_ne same]
      exact bounded

theorem Placed.unlink (placed : Placed s) (ne : s.cursor ≠ some id) : Placed (s.unlink id) where
  toSteady := placed.toSteady.unlink id
  stored := placed.stored.unlink id
  phase := by
    refine placed.phase.of_heads rfl rfl fun pos here cursor handler at_ head => ?_
    simp only [Wheels.cursor, at_] at ne
    rw [head] at ne ⊢
    exact (head?_erase_of_ne ne).symm

/-! ## The sweep -/

theorem forall_level {P : Nat → Prop} (zero : P 0) (one : P 1) (two : P 2) (i : Nat) (lt : i < 3) : P i := by
  obtain rfl | rfl | rfl : i = 0 ∨ i = 1 ∨ i = 2 := by omega
  · exact zero
  · exact one
  · exact two

section Due

variable {here : Nat} {next : Option Nat} (phase : s.phase = .sweep pos here next handler)

include phase

theorem due_eq (level : Nat) : s.due level = if level = 0 ∨ here = 1 ∨ (here = 2 ∧ level = 2) then
    bucketFrom (pos / 16) level else bucketFrom (pos / 16 + 1) level := by
  rw [due, phase]

theorem due_zero : s.due 0 = pos / 16 := by
  rw [due_eq phase, if_pos (.inl rfl), bucketFrom_zero]

theorem due_one : s.due 1 = bucketFrom (if here = 1 then pos / 16 else pos / 16 + 1) 1 := by
  rw [due_eq phase]
  by_cases second : here = 1
  · rw [if_pos (.inr (.inl second)), if_pos second]
  · rw [if_neg (by omega), if_neg second]

theorem due_two (lt : here < 3) : s.due 2 = bucketFrom (if here = 0 then pos / 16 + 1 else pos / 16) 2 := by
  rw [due_eq phase]
  by_cases first : here = 0
  · rw [if_neg (by omega), if_pos first]
  · rw [if_pos (by omega), if_neg first]

theorem due_moved {next' handler'} (after : t.phase = .sweep pos here next' handler') :
    t.due = s.due := by
  funext level
  rw [due_eq phase, due_eq after]

theorem due_here (lt : here < 3) : s.due here = bucketFrom (pos / 16) here := by
  rw [due_eq phase, if_pos (by omega)]

end Due

theorem wheelOffset_zero (pos : Nat) : wheelOffset pos 0 = pos / 16 % 256 := rfl

theorem wheelOffset_one (pos : Nat) : wheelOffset pos 1 = pos / 4096 % 256 := rfl

theorem wheelOffset_eq (lt : level < 3) (aligned : pos / 16 % 256 ^ level = 0) :
    wheelOffset pos level = bucketFrom (pos / 16) level % 256 := by
  obtain rfl | rfl | rfl : level = 0 ∨ level = 1 ∨ level = 2 := by omega
  · rw [bucketFrom_zero, wheelOffset_zero]
  · rw [bucketFrom_one, wheelOffset_one]
    omega
  · rw [bucketFrom_two]
    show pos / 1048576 % 256 = _
    omega

theorem Placed.enterBucket (steady : Steady s)
    (stored : Stored s.slots s.timers (s.enterBucket pos level).due) (reached : pos ≤ s.wheel.nowUs) (lt : level < 3)
    (aligned : pos / 16 % 256 ^ level = 0) : Placed (s.enterBucket pos level) where
  __ := steady
  stored := stored
  phase := by
    refine (inPhase_sweep rfl).mpr ⟨reached, lt, aligned, ?_⟩
    rw [due_here rfl lt, ← wheelOffset_eq lt aligned]
    rfl

theorem enter_due (s : Wheels) (pos : Nat) (level : Nat) (lt : level < 3) :
    (s.enter pos).due level = bucketFrom (pos / 16) level := by
  unfold enter
  rw [wheelOffset_zero]
  split
  · rw [due_eq rfl, if_pos (.inr (.inl rfl))]
  · revert level
    refine forall_level ?_ ?_ ?_
    · exact (due_zero rfl).trans (bucketFrom_zero _).symm
    · rw [due_one rfl, if_neg (by decide), bucketFrom_one, bucketFrom_one]
      omega
    · rw [due_two rfl (by decide), if_pos rfl, bucketFrom_two, bucketFrom_two]
      omega

theorem Placed.enter (steady : Steady s) (stored : Stored s.slots s.timers (bucketFrom (pos / 16)))
    (reached : pos ≤ s.wheel.nowUs) : Placed (s.enter pos) := by
  have stored := stored.advance fun level lt => .inl (enter_due s pos level lt)
  unfold Wheels.enter at stored ⊢
  rw [wheelOffset_zero] at stored ⊢
  split
  · next aligned =>
    rw [if_pos aligned] at stored
    exact .enterBucket steady stored reached (by decide) aligned
  · next other =>
    rw [if_neg other] at stored
    exact .enterBucket steady stored reached (by decide) (Nat.mod_one _)

section

variable (placed : Placed s)
include placed

theorem Placed.run (idle : s.phase = .idle) : Placed s.start := by
  obtain ⟨late, near⟩ := (inPhase_idle idle).mp placed.phase
  have min : minDelayUs = 16 := rfl
  have past := placed.past
  have steady : Steady { s with wheel := { s.wheel with nowUs := s.clock } } :=
    ⟨placed.healthy, le_rfl, placed.clock, placed.bounded⟩
  have stored : Stored s.slots s.timers (bucketFrom (s.wheel.timerPos / 16)) :=
    placed.stored.advance fun level _ => .inl (by simp only [due, idle])
  unfold Wheels.start
  dsimp only
  split
  · next reached => exact .enter steady stored reached
  · next ahead =>
    refine ⟨steady, stored.advance fun level _ => .inl (by simp only [due, idle]), ?_⟩
    simp only [InPhase, idle]
    omega

theorem Placed.endBucket (phase : s.phase = .sweep pos level none handler) : Placed (s.endBucket pos level) := by
  obtain ⟨reached, lt, aligned, head⟩ := (inPhase_sweep phase).mp placed.phase
  have empty : s.slots level (s.due level % 256) = [] := List.head?_eq_none_iff.mp head.symm
  have offset : wheelOffset pos level = s.due level % 256 := by rw [wheelOffset_eq lt aligned, due_here phase lt]
  have min : minDelayUs = 16 := rfl
  have stored := placed.stored
  have zero := due_zero phase
  have one := due_one phase
  have two := due_two phase lt
  unfold Wheels.endBucket
  obtain rfl | rfl | rfl : level = 0 ∨ level = 1 ∨ level = 2 := by omega
  · have same : (fun i o => if i = 0 ∧ o = wheelOffset pos 0 then [] else s.slots i o) = s.slots := by
      funext i o
      split
      · next here =>
        rw [here.1, here.2, offset]
        exact empty.symm
      · rfl
    have stored : Stored s.slots s.timers (bucketFrom ((pos + minDelayUs) / 16)) := by
      have tick : (pos + minDelayUs) / 16 = pos / 16 + 1 := by omega
      rw [tick]
      refine stored.advance (forall_level (.inr ⟨?_, empty⟩) (.inl ?_) (.inl ?_))
      · rw [zero, bucketFrom_zero]
      · rw [one, if_neg (by decide)]
      · rw [two, if_pos rfl]
    rw [if_pos rfl, same]
    dsimp only
    split
    · next more => exact .enter placed.toSteady stored more
    · next last =>
      refine ⟨⟨placed.healthy, placed.past, placed.clock, placed.bounded⟩, stored, (inPhase_idle rfl).mpr ⟨?_, ?_⟩⟩
      · show s.wheel.nowUs ≤ pos + minDelayUs
        omega
      · exact Nat.add_le_add_right reached _
  · rw [if_neg (by decide), wheelOffset_one]
    rw [if_pos rfl] at one
    rw [if_neg (by decide)] at two
    split
    · next lap =>
      refine .enterBucket placed.toSteady ?_ reached (by decide) (show pos / 16 % 65536 = 0 by omega)
      refine stored.advance (forall_level (.inl ?_) (.inr ⟨?_, empty⟩) (.inl ?_))
      · rw [zero, due_zero rfl]
      · rw [one, due_one rfl, if_neg (by decide), bucketFrom_one, bucketFrom_one]
        omega
      · rw [two, due_two rfl (by decide), if_neg (by decide)]
    · next lap =>
      refine .enterBucket placed.toSteady ?_ reached (by decide) (Nat.mod_one _)
      refine stored.advance (forall_level (.inl ?_) (.inr ⟨?_, empty⟩) (.inl ?_))
      · rw [zero, due_zero rfl]
      · rw [one, due_one rfl, if_neg (by decide), bucketFrom_one, bucketFrom_one]
        omega
      · rw [two, due_two rfl (by decide), if_pos rfl, bucketFrom_two, bucketFrom_two]
        omega
  · rw [if_neg (by decide), if_neg (by rintro ⟨other, -⟩; cases other)]
    rw [if_neg (by decide)] at one two
    refine .enterBucket placed.toSteady ?_ reached (by decide) (Nat.mod_one _)
    refine stored.advance (forall_level (.inl ?_) (.inl ?_) (.inr ⟨?_, empty⟩))
    · rw [zero, due_zero rfl]
    · rw [one, due_one rfl, if_neg (by decide)]
    · rw [two, due_two rfl (by decide), if_pos rfl, bucketFrom_two, bucketFrom_two]
      omega

theorem Placed.pass (phase : s.phase = .sweep pos level (some id) handler) :
    ∃ rest, s.slots level (wheelOffset pos level) = id :: rest ∧
      ∀ handler', Placed { s.unlink id with phase := .sweep pos level rest.head? handler' } := by
  obtain ⟨reached, lt, aligned, head⟩ := (inPhase_sweep phase).mp placed.phase
  have offset : wheelOffset pos level = s.due level % 256 := by rw [wheelOffset_eq lt aligned, due_here phase lt]
  obtain ⟨rest, slot⟩ : ∃ rest, s.slots level (s.due level % 256) = id :: rest := List.head?_eq_some_iff.mp head.symm
  rw [offset]
  refine ⟨rest, slot, fun handler' => ?_⟩
  let after : Wheels := { s.unlink id with phase := .sweep pos level rest.head? handler' }
  have same : after.due = s.due := due_moved phase rfl
  have steady := placed.toSteady.unlink id
  refine ⟨⟨steady.healthy, steady.past, steady.clock, steady.bounded⟩, ?stored, ?phase⟩
  case stored =>
    rw [same]
    exact placed.stored.unlink id
  case phase =>
    refine (inPhase_sweep rfl).mpr ⟨reached, lt, aligned, ?_⟩
    rw [same]
    show rest.head? = ((s.slots level (s.due level % 256)).erase id).head?
    rw [slot, List.erase_cons_head]

theorem Placed.due_at {next}
    (phase : s.phase = .sweep pos level next handler) (there : id ∈ s.slots level (wheelOffset pos level)) :
    bucketOf (s.timers id).expires level = bucketFrom (pos / 16) level := by
  obtain ⟨-, lt, aligned, -⟩ := (inPhase_sweep phase).mp placed.phase
  have same := due_here phase lt
  rw [wheelOffset_eq lt aligned, ← same] at there
  rw [← same]
  exact placed.stored.bucket_eq there

theorem Placed.fits_of_second {next}
    (phase : s.phase = .sweep pos 1 next handler) (there : id ∈ s.slots 1 (wheelOffset pos 1)) :
    s.Fits (s.timers id).expires := by
  have min : minDelayUs = 16 := rfl
  have max : maxDelayUs = 2 ^ 28 := rfl
  have size : wheelSize = 256 := rfl
  obtain ⟨reached, -, aligned, -⟩ := (inPhase_sweep phase).mp placed.phase
  have due := placed.due_at phase there
  rw [bucketOf_one, bucketFrom_one] at due
  have aligned : pos / 16 % 256 = 0 := aligned
  have level : levelOf s.wheel.nowUs (s.timers id).expires = 0 := by
    rw [levelOf, if_pos]
    omega
  rw [Fits, level, bucketOf_zero, due_zero phase]
  omega

end

end Wheels

end Reflex.Timers
