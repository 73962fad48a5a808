import Mathlib.Data.List.Count
import Mathlib.Data.List.Induction

/-!
# Lifecycles of objects that are used again

Objects are opened, used, closed and released; a released one may be opened again. A trace of
such marks is `Orderly` if an object is used only after it was opened and not released since,
and is closed and released at most once before it is opened again. `phase` runs an automaton
over the marks of one object; a trace on which it never gets stuck is orderly.
-/

namespace Reflex.Lib

open List

inductive Mark (α κ : Type*) where
  | opened (a : α)
  | used (a : α) (k : κ)
  | closed (a : α)
  | released (a : α)
  deriving DecidableEq

/-- What an object is doing. -/
inductive Phase where
  | absent
  | live
  | closing
  deriving DecidableEq

structure Orderly {α κ : Type*} [DecidableEq α] [DecidableEq κ] (marks : List (Mark α κ)) : Prop where
  used : ∀ a k before after, marks = before ++ .used a k :: after →
    ∃ earlier since, before = earlier ++ .opened a :: since ∧ Mark.released a ∉ since
  closed : ∀ a before part after, marks = before ++ part ++ after → Mark.opened a ∉ part → part.count (.closed a) ≤ 1
  released : ∀ a before part after, marks = before ++ part ++ after → Mark.opened a ∉ part → part.count (.released a) ≤ 1

section

variable {α κ : Type*} [DecidableEq α]

/-- What a mark of the object itself makes of it. -/
def Phase.mark : Phase → Mark α κ → Option Phase
  | .absent, .opened _ => some .live
  | .live, .used _ _ => some .live
  | .live, .closed _ => some .closing
  | .closing, .used _ _ => some .closing
  | .closing, .released _ => some .absent
  | _, _ => none

def Mark.object : Mark α κ → α
  | .opened a | .used a _ | .closed a | .released a => a

/-- Marks of other objects do not matter. -/
def Phase.step (a : α) (p : Option Phase) (m : Mark α κ) : Option Phase := if m.object = a then p.bind (Phase.mark · m) else p

def phase (a : α) (marks : List (Mark α κ)) : Option Phase := marks.foldl (Phase.step a) (some .absent)

variable {a : α} {p : Phase} {marks part : List (Mark α κ)} {m : Mark α κ}

theorem phase_append (a : α) (marks more : List (Mark α κ)) : phase a (marks ++ more) = more.foldl (Phase.step a) (phase a marks) :=
  foldl_append

theorem phase_snoc (here : m.object = a) (known : phase a marks = some p) : phase a (marks ++ [m]) = p.mark m := by
  rw [phase_append, known]
  exact if_pos here

theorem phase_others {more} (others : ∀ m ∈ more, m.object ≠ a) : phase a (marks ++ more) = phase a marks := by
  rw [phase_append]
  generalize phase a marks = p
  induction more with
  | nil => rfl
  | cons m more ih =>
    rw [foldl_cons, Phase.step, if_neg (others m mem_cons_self)]
    exact ih fun m later => others m (mem_cons_of_mem _ later)

/-- An object that is not absent stays what it is while it is used. -/
theorem phase_used {more : List (Mark α κ)} (known : phase a marks = some p) (present : p ≠ .absent)
    (uses : ∀ m ∈ more, ∃ k, m = .used a k) : phase a (marks ++ more) = some p := by
  have stays : ∀ k : κ, p.mark (.used a k) = some p := by
    intro k
    cases p with
    | absent => exact absurd rfl present
    | live => rfl
    | closing => rfl
  rw [phase_append, known]
  induction more with
  | nil => rfl
  | cons m more ih =>
    obtain ⟨k, rfl⟩ := uses m mem_cons_self
    rw [foldl_cons, Phase.step, if_pos (show (Mark.used a k).object = a from rfl), Option.bind_some, stays k]
    exact ih fun m later => uses m (mem_cons_of_mem _ later)

theorem foldl_step_none (a : α) (marks : List (Mark α κ)) : marks.foldl (Phase.step a) none = none := by
  induction marks with
  | nil => rfl
  | cons m marks ih =>
    have stuck : Phase.step a none m = none := by
      unfold Phase.step
      split_ifs <;> rfl
    rw [foldl_cons, stuck, ih]

theorem phase_before (more : List (Mark α κ)) (fine : phase a (marks ++ more) ≠ none) : ∃ p, phase a marks = some p := by
  cases h : phase a marks with
  | some p => exact ⟨p, rfl⟩
  | none =>
    rw [phase_append, h, foldl_step_none] at fine
    exact absurd rfl fine

/-- An object that is not absent was opened, and not released since. -/
theorem opened_of_phase (known : phase a marks = some p) (present : p ≠ .absent) :
    ∃ earlier since, marks = earlier ++ .opened a :: since ∧ Mark.released a ∉ since := by
  induction marks using reverseRecOn generalizing p with
  | nil =>
    cases known
    exact absurd rfl present
  | append_singleton marks m ih =>
    obtain ⟨q, before⟩ := phase_before [m] (by rw [known]; exact Option.some_ne_none p)
    by_cases here : m.object = a
    · rw [phase_snoc here before] at known
      have still : q ≠ .absent → ¬ m = .released a → ∃ earlier since, marks ++ [m] = earlier ++ .opened a :: since ∧ Mark.released a ∉ since := by
        intro open' not
        obtain ⟨earlier, since, rfl, kept⟩ := ih before open'
        refine ⟨earlier, since ++ [m], by simp, fun member => ?_⟩
        rcases mem_append.1 member with old | new
        · exact kept old
        · exact not (mem_singleton.1 new).symm
      cases m with
      | opened b =>
        obtain rfl : b = a := here
        exact ⟨marks, [], rfl, not_mem_nil⟩
      | used b k =>
        refine still (fun absent => ?_) nofun
        rw [absent] at known
        cases known
      | closed b =>
        refine still (fun absent => ?_) nofun
        rw [absent] at known
        cases known
      | released b =>
        cases q <;> cases known
        exact absurd rfl present
    · rw [phase_others (forall_mem_singleton.2 here)] at known
      obtain ⟨earlier, since, rfl, kept⟩ := ih known present
      refine ⟨earlier, since ++ [m], by simp, fun member => ?_⟩
      rcases mem_append.1 member with old | new
      · exact kept old
      · rw [← mem_singleton.1 new] at here
        exact here rfl

/-- Between two openings an object is closed once, if it was live, and released once, if it was there. -/
theorem counts_of_phase [DecidableEq κ] (fine : part.foldl (Phase.step a) (some p) ≠ none) (kept : Mark.opened a ∉ part) :
    part.count (.closed a) ≤ (if p = .live then 1 else 0) ∧ part.count (.released a) ≤ if p = .absent then 0 else 1 := by
  induction part generalizing p with
  | nil => exact ⟨Nat.zero_le _, Nat.zero_le _⟩
  | cons m part ih =>
    rw [foldl_cons] at fine
    have later : Mark.opened a ∉ part := fun member => kept (mem_cons_of_mem _ member)
    by_cases here : m.object = a
    · rw [Phase.step, if_pos here, Option.bind_some] at fine
      cases next : p.mark m with
      | none =>
        rw [next, foldl_step_none] at fine
        exact absurd rfl fine
      | some q =>
        rw [next] at fine
        obtain ⟨closes, releases⟩ := ih fine later
        cases m with
        | opened b =>
          obtain rfl : b = a := here
          exact absurd mem_cons_self kept
        | used b k =>
          have same : q = p := by cases p <;> cases next <;> rfl
          rw [same] at closes releases
          rw [count_cons_of_ne (by nofun), count_cons_of_ne (by nofun)]
          exact ⟨closes, releases⟩
        | closed b | released b =>
          obtain rfl : b = a := here
          cases p <;> cases next
          rw [count_cons_self, count_cons_of_ne (by nofun)]
          simp only [reduceCtorEq, if_false, if_true] at closes releases ⊢
          omega
    · rw [Phase.step, if_neg here] at fine
      have other : ∀ mark : Mark α κ, mark.object = a → m ≠ mark := by
        rintro mark object rfl
        exact here object
      rw [count_cons_of_ne (other _ rfl), count_cons_of_ne (other _ rfl)]
      exact ih fine later

/-- A trace on which the automaton of no object gets stuck is orderly. -/
theorem orderly_of_phase [DecidableEq κ] (fine : ∀ a, ∃ p, phase a marks = some p) : Orderly marks := by
  have before : ∀ {a} {first more : List (Mark α κ)}, (∃ p, phase a (first ++ more) = some p) → ∃ p, phase a first = some p := by
    rintro a first more ⟨p, known⟩
    apply phase_before more
    rw [known]
    exact Option.some_ne_none p
  have counts : ∀ a first part after, marks = first ++ part ++ after → Mark.opened a ∉ part →
      part.count (.closed a) ≤ 1 ∧ part.count (.released a) ≤ 1 := by
    rintro a first part after rfl kept
    obtain ⟨q, upTo⟩ := before (fine a)
    obtain ⟨p, known⟩ := before ⟨q, upTo⟩
    rw [phase_append, known] at upTo
    obtain ⟨closes, releases⟩ := counts_of_phase (by rw [upTo]; exact Option.some_ne_none q) kept
    constructor
    · split_ifs at closes <;> omega
    · split_ifs at releases <;> omega
  refine ⟨?_, fun a first part after split kept => (counts a first part after split kept).1,
    fun a first part after split kept => (counts a first part after split kept).2⟩
  rintro a k first after rfl
  have all := fine a
  rw [← singleton_append, ← append_assoc] at all
  obtain ⟨q, upTo⟩ := before all
  obtain ⟨p, known⟩ := before ⟨q, upTo⟩
  have next : p.mark (.used a k) = some q := (phase_snoc (m := .used a k) rfl known).symm.trans upTo
  apply opened_of_phase known
  rintro rfl
  cases next

/-- An object that was released and not opened since is not used. -/
theorem Orderly.unused [DecidableEq κ] (orderly : Orderly marks) {k : κ} {before since after : List (Mark α κ)}
    (split : marks = before ++ .released a :: since ++ .used a k :: after) : Mark.opened a ∈ since := by
  obtain ⟨earlier, later, same, kept⟩ := orderly.used a k _ after split
  rcases append_eq_append_iff.1 same with ⟨part, -, rest⟩ | ⟨part, -, rest⟩
  · cases part with
    | nil => cases rest
    | cons head part =>
      obtain ⟨-, rfl⟩ := cons.inj rest
      exact mem_append_right _ mem_cons_self
  · cases part with
    | nil => cases rest
    | cons head part =>
      obtain ⟨-, rfl⟩ := cons.inj rest
      exact absurd (mem_append_right _ mem_cons_self) kept

end

end Reflex.Lib
