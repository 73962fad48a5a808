import Mathlib.Logic.Function.Basic

/-!
# Runs of a labelled step relation

A system is a relation `step s a t` between states, labelled by the action taken.
`Run` is its reflexive transitive closure with the actions kept in order. Safety
results are instances of `Run.invariant`; a result that holds only while the actions
meet a condition is stated over the run of the `Guarded` relation.
-/

namespace Reflex.Lib

variable {σ α : Type*}

/-- The action sequences of a step relation, from the first state to the last. -/
inductive Run (step : σ → α → σ → Prop) : σ → List α → σ → Prop where
  | nil (s : σ) : Run step s [] s
  | cons {s t u : σ} {a : α} {as : List α} : step s a t → Run step t as u → Run step s (a :: as) u

/-- The steps whose action meets a condition on the state before it. -/
def Guarded (step : σ → α → σ → Prop) (ok : σ → α → Prop) (s : σ) (a : α) (t : σ) : Prop :=
  step s a t ∧ ok s a

/-- The step relation of a total transition function whose actions may be restricted. -/
def Applies (next : σ → α → σ) (valid : σ → α → Prop) (s : σ) (a : α) (t : σ) : Prop :=
  valid s a ∧ t = next s a

variable {step : σ → α → σ → Prop} {s t u : σ} {as bs : List α}

theorem Run.single {a} (h : step s a t) : Run step s [a] t := .cons h (.nil t)

theorem Run.append (first : Run step s as t) (second : Run step t bs u) : Run step s (as ++ bs) u := by
  induction first with
  | nil => exact second
  | cons here _ ih => exact .cons here (ih second)

/-- A property that the steps of a run keep holds at its end if it holds at its start. -/
theorem Run.invariant_mem {I : σ → Prop} (run : Run step s as t) (keep : ∀ s a t, a ∈ as → step s a t → I s → I t)
    (start : I s) : I t := by
  induction run with
  | nil => exact start
  | cons here _ ih =>
    exact ih (fun s a t later => keep s a t (List.mem_cons_of_mem _ later)) (keep _ _ _ List.mem_cons_self here start)

/-- A property that every step keeps holds at the end of every run it holds at the start of. -/
theorem Run.invariant {I : σ → Prop} (keep : ∀ s a t, step s a t → I s → I t)
    (run : Run step s as t) (start : I s) : I t := run.invariant_mem (fun s a t _ => keep s a t) start

theorem Run.map {τ β : Type*} {step' : τ → β → τ → Prop} {f : σ → τ} {g : α → β}
    (sees : ∀ s a t, step s a t → step' (f s) (g a) (f t)) (run : Run step s as t) : Run step' (f s) (as.map g) (f t) := by
  induction run with
  | nil s => exact .nil (f s)
  | cons here _ ih => exact .cons (sees _ _ _ here) ih

/-- Each action passes a test before it is taken. -/
def passes (next : σ → α → σ) (test : σ → α → Bool) : σ → List α → Bool
  | _, [] => true
  | s, a :: as => test s a && passes next test (next s a) as

theorem Run.of_passes {next valid ok test}
    (sound : ∀ s a, test s a = true → valid s a ∧ ok s a) (pass : passes next test s as = true) :
    Run (Guarded (Applies next valid) ok) s as (as.foldl next s) := by
  induction as generalizing s with
  | nil => exact .nil s
  | cons a as ih =>
    rw [passes, Bool.and_eq_true] at pass
    obtain ⟨here, later⟩ := sound s a pass.1
    exact .cons ⟨⟨here, rfl⟩, later⟩ (ih pass.2)

theorem Run.unguarded {ok} (run : Run (Guarded step ok) s as t) : Run step s as t := by
  induction run with
  | nil s => exact .nil s
  | cons here _ ih => exact .cons here.1 ih

/-- A property that each step keeps exactly when its action meets the condition holds at the end of a run exactly
when it held at the start and every action met the condition. -/
theorem Run.guarded_iff {next : σ → α → σ} {valid ok : σ → α → Prop} {I : σ → Prop}
    (exact : ∀ s a, valid s a → (I (next s a) ↔ I s ∧ ok s a)) (run : Run (Applies next valid) s as t) :
    I t ↔ I s ∧ Run (Guarded (Applies next valid) ok) s as t := by
  induction run with
  | nil s => exact ⟨fun holds => ⟨holds, .nil s⟩, And.left⟩
  | cons here _ ih =>
    obtain ⟨valid, rfl⟩ := here
    rw [ih, exact _ _ valid]
    constructor
    · rintro ⟨⟨holds, ok⟩, rest⟩
      exact ⟨holds, .cons ⟨⟨valid, rfl⟩, ok⟩ rest⟩
    · rintro ⟨holds, whole⟩
      cases whole with
      | cons first rest =>
        obtain ⟨⟨-, rfl⟩, ok⟩ := first
        exact ⟨⟨holds, ok⟩, rest⟩

end Reflex.Lib
