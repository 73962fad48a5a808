import Reflex.Lib.Run

/-!
# A shared value and its compare-and-swap loops

Threads share one value of a sequential object. Some operations of the object are single atomic instructions.
The others are loops: read the value, compute the outcome from what was read, and swap it in if the value is
still the one that was read. `SharedStep` interleaves the instructions of any number of threads.
-/

namespace Reflex.Lib

variable {ι σ ω ρ : Type*}

/-- An operation that a thread has completed, with its result. -/
structure Effect (ι ω ρ : Type*) where
  thread : ι
  op : ω
  result : ρ

/-- The steps of the sequential object. -/
def Performs (apply : ω → σ → ρ × σ) (v : σ) (e : Effect ι ω ρ) (v' : σ) : Prop := apply e.op v = (e.result, v')

/-- The shared value, and the loops that threads are in, with what they have read. -/
structure Shared (ι σ ω : Type*) where
  value : σ
  loops : ι → Option (ω × Option σ)

/-- The instructions of a thread: enter a loop, read, swap, or a single atomic operation. -/
inductive Instr (ι ω : Type*) where
  | enter (i : ι) (op : ω)
  | read (i : ι)
  | swap (i : ι)
  | single (i : ι) (op : ω)

section Steps

variable [DecidableEq ι] (apply : ω → σ → ρ × σ) (looped : ω → Prop)

/-- One instruction of one thread, with the log of the operations that have taken effect. -/
inductive SharedStep : Shared ι σ ω × List (Effect ι ω ρ) → Instr ι ω → Shared ι σ ω × List (Effect ι ω ρ) → Prop where
  | enter {s log i op} (idle : s.loops i = none) (loop : looped op) :
      SharedStep (s, log) (.enter i op) ({ s with loops := Function.update s.loops i (some (op, none)) }, log)
  | read {s log i op} (waits : s.loops i = some (op, none)) :
      SharedStep (s, log) (.read i) ({ s with loops := Function.update s.loops i (some (op, some s.value)) }, log)
  | swap {s log i op} (seen : s.loops i = some (op, some s.value)) :
      SharedStep (s, log) (.swap i)
        (⟨(apply op s.value).2, Function.update s.loops i none⟩, log ++ [⟨i, op, (apply op s.value).1⟩])
  /-- The value has changed: the loop starts over. -/
  | retry {s log i op old} (seen : s.loops i = some (op, some old)) (changed : old ≠ s.value) :
      SharedStep (s, log) (.swap i) ({ s with loops := Function.update s.loops i (some (op, none)) }, log)
  | single {s log i op} (idle : s.loops i = none) (atomic : ¬ looped op) :
      SharedStep (s, log) (.single i op) ({ s with value := (apply op s.value).2 }, log ++ [⟨i, op, (apply op s.value).1⟩])

end Steps

variable [DecidableEq ι] {apply : ω → σ → ρ × σ} {looped : ω → Prop} {a b : Shared ι σ ω × List (Effect ι ω ρ)}

/-- An instruction takes effect as one operation of the object, or not at all. -/
theorem SharedStep.effect {instr} (step : SharedStep apply looped a instr b) :
    (b.1.value = a.1.value ∧ b.2 = a.2) ∨ ∃ e, Performs apply a.1.value e b.1.value ∧ b.2 = a.2 ++ [e] := by
  cases step with
  | enter idle loop => exact .inl ⟨rfl, rfl⟩
  | read waits => exact .inl ⟨rfl, rfl⟩
  | @swap s log i op seen => exact .inr ⟨⟨i, op, (apply op s.value).1⟩, rfl, rfl⟩
  | retry seen changed => exact .inl ⟨rfl, rfl⟩
  | @single s log i op idle atomic => exact .inr ⟨⟨i, op, (apply op s.value).1⟩, rfl, rfl⟩

end Reflex.Lib
