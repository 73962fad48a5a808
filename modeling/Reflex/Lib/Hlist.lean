import Mathlib.Data.List.Nodup
import Mathlib.Data.Set.Defs
import Mathlib.Logic.Function.Basic

/-!
# Linked lists with a back pointer and a single head pointer

Each cell points to the next cell of its list and back to the cell before it; the first cell points back to the list's
head, which is a cell too. A cell is unlinked in constant time, without knowing its list. `Laid` describes a memory in
which several such lists lie side by side; the two operations change one list and leave the others as they are.
-/

namespace Reflex.Lib

open Function List

/-- The pointers of all cells. -/
structure Links (α : Type*) where
  next : α → Option α
  prev : α → Option α

namespace Links

variable {α : Type*} (m : Links α)

/-- The cells that follow `p`, in order. -/
def Chain : α → List α → Prop
  | p, [] => m.next p = none
  | p, n :: ns => m.next p = some n ∧ m.prev n = some p ∧ Chain n ns

section Chains

variable {m} {m' : Links α} {p : α} {ns : List α}

section

variable (chain : m.Chain p ns)
include chain

theorem Chain.next_eq : m.next p = ns.head? := by
  cases ns with
  | nil => exact chain
  | cons => exact chain.1

theorem Chain.next_none_iff : m.next p = none ↔ ns = [] := by
  rw [chain.next_eq, head?_eq_none_iff]

/-- The back pointer of the first cell leads to the head, any other into the list. -/
theorem Chain.prev_cases {a : α} (inside : a ∈ ns) :
    (m.prev a = some p ∧ ∃ rest, ns = a :: rest) ∨ ∃ q ∈ ns, m.prev a = some q := by
  induction ns generalizing p with
  | nil => cases inside
  | cons b ns ih =>
    obtain ⟨-, back, rest⟩ := chain
    rcases mem_cons.1 inside with rfl | inside
    · exact .inl ⟨back, ns, rfl⟩
    · rcases ih rest inside with ⟨back, -⟩ | ⟨q, member, back⟩
      · exact .inr ⟨b, mem_cons_self .., back⟩
      · exact .inr ⟨q, mem_cons_of_mem _ member, back⟩

theorem Chain.prev_ne {a : α} (inside : a ∈ ns) : m.prev a ≠ none := by
  induction ns generalizing p with
  | nil => cases inside
  | cons b ns ih =>
    rcases mem_cons.1 inside with rfl | later
    · simp [chain.2.1]
    · exact ih chain.2.2 later

theorem Chain.congr (next : ∀ a ∈ p :: ns, m'.next a = m.next a)
    (prev : ∀ a ∈ ns, m'.prev a = m.prev a) : m'.Chain p ns := by
  induction ns generalizing p with
  | nil => exact (next p (mem_cons_self ..)).trans chain
  | cons b ns ih =>
    obtain ⟨first, back, rest⟩ := chain
    refine ⟨(next p (mem_cons_self ..)).trans first, (prev b (mem_cons_self ..)).trans back, ?_⟩
    exact ih rest (fun a here => next a (mem_cons_of_mem _ here)) fun a here => prev a (mem_cons_of_mem _ here)

end

end Chains

/-! ## The operations -/

variable [DecidableEq α]

/-- No cell points anywhere. -/
def blank : Links α := ⟨fun _ => none, fun _ => none⟩

def setNext (a : α) (target : Option α) : Links α := { m with next := Function.update m.next a target }

def setPrev (a : α) (target : Option α) : Links α := { m with prev := Function.update m.prev a target }

/-- Puts a cell at the front of a list. -/
def addHead (h n : α) : Links α :=
  let linked := (m.setNext n (m.next h)).setPrev n (some h)
  let moved := match linked.next n with
    | none => linked
    | some k => linked.setPrev k (some n)
  moved.setNext h (some n)

/-- Takes a cell out of its list. There is no result when the back pointer is null. -/
def del (n : α) : Option (Links α) :=
  match m.prev n with
  | none => none
  | some p =>
    let cut := m.setNext p (m.next n)
    match cut.next n with
    | none => some cut
    | some k => some (cut.setPrev k (some p))

variable {m} {m' : Links α} {h g n p : α} {ns xs ys : List α}

/-! ## Adding a cell -/

theorem addHead_next (a : α) :
    (m.addHead h n).next a = if a = h then some n else if a = n then m.next h else m.next a := by
  have own : ((m.setNext n (m.next h)).setPrev n (some h)).next n = m.next h := update_self ..
  simp only [addHead, own]
  cases m.next h <;> simp only [setNext, setPrev, update_apply]

theorem addHead_prev (a : α) :
    (m.addHead h n).prev a = if m.next h = some a then some n else if a = n then some h else m.prev a := by
  have own : ((m.setNext n (m.next h)).setPrev n (some h)).next n = m.next h := update_self ..
  simp only [addHead, own]
  cases first : m.next h with
  | none => simp [setNext, setPrev, update_apply]
  | some k =>
    simp only [setNext, setPrev, update_apply, Option.some.injEq]
    by_cases same : a = k
    · simp [same]
    · simp [same, Ne.symm same]

theorem Chain.addHead (chain : m.Chain h ns) (distinct : (h :: n :: ns).Nodup) : (m.addHead h n).Chain h (n :: ns) := by
  simp only [nodup_cons, mem_cons, not_or] at distinct
  obtain ⟨⟨apart, outside⟩, fresh, ones⟩ := distinct
  have first : m.next h ≠ some n := by
    rw [chain.next_eq]
    intro same
    exact fresh (mem_of_head? same)
  refine ⟨?_, ?_, ?_⟩
  · rw [addHead_next, if_pos rfl]
  · rw [addHead_prev, if_neg first, if_pos rfl]
  · -- the old first cell now points back to the new one
    cases ns with
    | nil =>
      show (m.addHead h n).next n = none
      rw [addHead_next, if_neg (Ne.symm apart), if_pos rfl]
      exact chain
    | cons k ns =>
      obtain ⟨next, -, rest⟩ := chain
      simp only [mem_cons, not_or, nodup_cons] at outside fresh ones
      refine ⟨?_, ?_, rest.congr ?_ ?_⟩
      · rw [addHead_next, if_neg (Ne.symm apart), if_pos rfl, next]
      · rw [addHead_prev, if_pos next]
      · intro a here
        rw [addHead_next, if_neg, if_neg]
        · rintro rfl
          exact (mem_cons.1 here).elim fresh.1 fresh.2
        · rintro rfl
          exact (mem_cons.1 here).elim outside.1 outside.2
      · intro a here
        rw [addHead_prev, next, if_neg, if_neg]
        · rintro rfl
          exact fresh.2 here
        · intro same
          cases same
          exact ones.1 here

/-! ## Taking out a cell -/

/-- What `del` does to the list that the cell is in, and where it changes pointers. -/
theorem Chain.del (chain : m.Chain h (xs ++ n :: ys)) (distinct : (h :: (xs ++ n :: ys)).Nodup) :
    ∃ m', m.del n = some m' ∧ m'.Chain h (xs ++ ys) ∧ (∀ a, a ∉ h :: xs → m'.next a = m.next a) ∧
      ∀ a, a ∉ ys → m'.prev a = m.prev a := by
  induction xs generalizing h with
  | nil =>
    obtain ⟨first, back, rest⟩ := chain
    simp only [nil_append, nodup_cons, mem_cons, not_or] at distinct
    obtain ⟨⟨apart, outside⟩, fresh, ones⟩ := distinct
    have own : (m.setNext h (m.next n)).next n = m.next n := update_of_ne (Ne.symm apart) ..
    cases ys with
    | nil =>
      have last : m.next n = none := rest
      refine ⟨m.setNext h none, ?_, update_self .., ?_, fun _ _ => rfl⟩
      · simp only [Links.del, back, own]
        simp only [last]
      · intro a elsewhere
        exact update_of_ne (fun same => elsewhere (mem_cons.2 (.inl same))) ..
    | cons k ys =>
      obtain ⟨next, -, rest⟩ := rest
      simp only [mem_cons, not_or, nodup_cons] at outside fresh ones
      refine ⟨(m.setNext h (some k)).setPrev k (some h), ?_, ⟨update_self .., update_self .., ?_⟩, ?_, ?_⟩
      · simp only [Links.del, back, own]
        simp only [next]
      · refine rest.congr (fun a here => ?_) fun a here => ?_
        · refine update_of_ne ?_ ..
          rintro rfl
          exact (mem_cons.1 here).elim outside.1 outside.2
        · refine update_of_ne ?_ ..
          rintro rfl
          exact ones.1 here
      · intro a elsewhere
        exact update_of_ne (fun same => elsewhere (mem_cons.2 (.inl same))) ..
      · intro a elsewhere
        exact update_of_ne (fun same => elsewhere (mem_cons.2 (.inl same))) ..
  | cons x xs ih =>
    obtain ⟨first, back, rest⟩ := chain
    obtain ⟨outside, distinct⟩ := nodup_cons.1 distinct
    obtain ⟨m', deleted, chain, next, prev⟩ := ih rest distinct
    have later : x ∉ ys := by
      intro inside
      refine (nodup_cons.1 distinct).1 ?_
      exact mem_append_right _ (mem_cons_of_mem _ inside)
    refine ⟨m', deleted, ⟨?_, ?_, chain⟩, ?_, prev⟩
    · rw [next h, first]
      intro inside
      exact outside (mem_append_left (n :: ys) inside)
    · rw [prev x later, back]
    · intro a elsewhere
      exact next a fun inside => elsewhere (mem_cons_of_mem _ inside)

/-! ## Several lists in one memory -/

/-- The memory holds a list for each head, no cell is in two lists, and a cell that is in none has no back pointer. -/
structure Laid (heads : Set α) (m : Links α) (content : α → List α) : Prop where
  chain : ∀ h ∈ heads, m.Chain h (content h)
  nodup : ∀ h ∈ heads, (content h).Nodup
  inner : ∀ h ∈ heads, ∀ a ∈ content h, a ∉ heads
  one : ∀ h ∈ heads, ∀ g ∈ heads, ∀ a, a ∈ content h → a ∈ content g → h = g
  free : ∀ a, a ∉ heads → (∀ h ∈ heads, a ∉ content h) → m.prev a = none

variable {heads : Set α} {content : α → List α}

omit [DecidableEq α] in
theorem Laid.blank (heads : Set α) : Laid heads blank fun _ => [] where
  chain _ _ := rfl
  nodup _ _ := nodup_nil
  inner _ _ _ here := absurd here (not_mem_nil)
  one _ _ _ _ _ here _ := absurd here (not_mem_nil)
  free _ _ _ := rfl

omit [DecidableEq α] in
/-- A cell has no back pointer exactly when it is in no list. -/
theorem Laid.prev_none_iff (laid : Laid heads m content) {a : α} (inner : a ∉ heads) :
    m.prev a = none ↔ ∀ h ∈ heads, a ∉ content h := by
  constructor
  · intro none h head inside
    exact (laid.chain h head).prev_ne inside none
  · exact laid.free a inner

theorem Laid.addHead (laid : Laid heads m content) (head : h ∈ heads) (inner : n ∉ heads) (fresh : ∀ g ∈ heads, n ∉ content g) :
    Laid heads (m.addHead h n) (update content h (n :: content h)) := by
  have apart : h ≠ n := by
    rintro rfl
    exact inner head
  have distinct : (h :: n :: content h).Nodup := by
    refine nodup_cons.2 ⟨?_, nodup_cons.2 ⟨fresh h head, laid.nodup h head⟩⟩
    intro inside
    rcases mem_cons.1 inside with same | inside
    · exact apart same
    · exact laid.inner h head h inside head
  refine ⟨fun g other => ?_, fun g other => ?_, fun g other a inside => ?_, fun g first k second a here there => ?_,
    fun a outer unused => ?_⟩
  · by_cases same : g = h
    · subst same
      rw [update_self]
      exact (laid.chain g head).addHead distinct
    · rw [update_of_ne same]
      refine (laid.chain g other).congr (fun a here => ?_) fun a here => ?_
      · rw [addHead_next, if_neg, if_neg]
        · rintro rfl
          rcases mem_cons.1 here with rfl | inside
          · exact inner other
          · exact fresh g other inside
        · rintro rfl
          rcases mem_cons.1 here with rfl | inside
          · exact same rfl
          · exact laid.inner g other a inside head
      · rw [addHead_prev, if_neg, if_neg]
        · rintro rfl
          exact fresh g other here
        · rw [(laid.chain h head).next_eq]
          intro first
          exact same (laid.one g other h head a here (mem_of_head? first))
  · by_cases same : g = h
    · subst same
      rw [update_self]
      exact (nodup_cons.1 distinct).2
    · rw [update_of_ne same]
      exact laid.nodup g other
  · by_cases same : g = h
    · subst same
      rw [update_self] at inside
      rcases mem_cons.1 inside with rfl | inside
      · exact inner
      · exact laid.inner g other a inside
    · rw [update_of_ne same] at inside
      exact laid.inner g other a inside
  · have old : ∀ k ∈ heads, a ∈ update content h (n :: content h) k → (a = n ∧ k = h) ∨ a ∈ content k := by
      intro k _ inside
      by_cases same : k = h
      · subst same
        rw [update_self] at inside
        exact (mem_cons.1 inside).imp (fun new => ⟨new, rfl⟩) id
      · rw [update_of_ne same] at inside
        exact .inr inside
    rcases old g first here with ⟨rfl, rfl⟩ | held
    · rcases old k second there with ⟨-, rfl⟩ | there
      · rfl
      · exact absurd there (fresh k second)
    · rcases old k second there with ⟨rfl, rfl⟩ | there
      · exact absurd held (fresh g first)
      · exact laid.one g first k second a held there
  · have new : a ≠ n := by
      rintro rfl
      refine unused h head ?_
      rw [update_self]
      exact mem_cons_self ..
    have unused : ∀ g ∈ heads, a ∉ content g := by
      intro g other inside
      refine unused g other ?_
      by_cases same : g = h
      · subst same
        rw [update_self]
        exact mem_cons_of_mem _ inside
      · rwa [update_of_ne same]
    rw [addHead_prev, if_neg, if_neg new, laid.free a outer unused]
    rw [(laid.chain h head).next_eq]
    intro first
    exact unused h head (mem_of_head? first)

/-- Taking out a cell and clearing its back pointer; only cells of its own list change. -/
theorem Laid.del (laid : Laid heads m content) (head : h ∈ heads) (inside : n ∈ content h) :
    ∃ m', m.del n = some m' ∧ Laid heads (m'.setPrev n none) (update content h ((content h).erase n)) ∧
      ∀ a, a ≠ h → a ∉ content h → m'.next a = m.next a ∧ m'.prev a = m.prev a := by
  obtain ⟨xs, ys, shape⟩ := append_of_mem inside
  have ones := laid.nodup h head
  have distinct : (h :: (xs ++ n :: ys)).Nodup := by
    rw [← shape]
    exact nodup_cons.2 ⟨fun here => laid.inner h head h here head, ones⟩
  have chain := laid.chain h head
  rw [shape] at chain ones
  obtain ⟨m', deleted, chain, next, prev⟩ := chain.del distinct
  have before : n ∉ xs := fun here => disjoint_of_nodup_append ones here (mem_cons_self ..)
  have after : n ∉ ys := (nodup_cons.1 (List.Nodup.of_append_right ones)).1
  have rest : (content h).erase n = xs ++ ys := by
    rw [shape, erase_append_right _ before, erase_cons_head]
  have frame : ∀ a, a ≠ h → a ∉ content h → m'.next a = m.next a ∧ m'.prev a = m.prev a := by
    intro a other outside
    rw [shape, mem_append, mem_cons, not_or, not_or] at outside
    refine ⟨next a ?_, prev a outside.2.2⟩
    rw [mem_cons, not_or]
    exact ⟨other, outside.1⟩
  refine ⟨m', deleted, ?_, frame⟩
  have sub : ∀ g a, a ∈ update content h ((content h).erase n) g → a ∈ content g := by
    intro g a here
    by_cases same : g = h
    · subst same
      rw [update_self] at here
      exact mem_of_mem_erase here
    · rwa [update_of_ne same] at here
  refine ⟨fun g other => ?_, fun g other => ?_, fun g other a here => laid.inner g other a (sub g a here),
    fun g first k second a here there => laid.one g first k second a (sub g a here) (sub k a there), fun a outer unused => ?_⟩
  · by_cases same : g = h
    · subst same
      rw [update_self, rest]
      refine chain.congr (fun _ _ => rfl) fun a here => update_of_ne ?_ ..
      rintro rfl
      exact (mem_append.1 here).elim before after
    · rw [update_of_ne same]
      have away : ∀ a ∈ content g, a ≠ h ∧ a ∉ content h := by
        intro a here
        refine ⟨?_, fun there => same (laid.one g other h head a here there)⟩
        rintro rfl
        exact laid.inner g other a here head
      refine (laid.chain g other).congr (fun a here => ?_) fun a here => ?_
      · rcases mem_cons.1 here with rfl | here
        · exact (frame a same fun there => laid.inner h head a there other).1
        · exact (frame a (away a here).1 (away a here).2).1
      · refine (update_of_ne ?_ ..).trans (frame a (away a here).1 (away a here).2).2
        rintro rfl
        exact (away a here).2 inside
  · by_cases same : g = h
    · subst same
      rw [update_self]
      exact (laid.nodup g head).erase n
    · rw [update_of_ne same]
      exact laid.nodup g other
  · by_cases same : a = n
    · subst same
      exact update_self ..
    · refine (update_of_ne same ..).trans ?_
      have unused : ∀ g ∈ heads, a ∉ content g := by
        intro g other here
        refine unused g other ?_
        by_cases mine : g = h
        · subst mine
          rw [update_self]
          exact (mem_erase_of_ne same).2 here
        · rwa [update_of_ne mine]
      have apart : a ≠ h := by
        rintro rfl
        exact outer head
      rw [(frame a apart (unused h head)).2]
      exact laid.free a outer unused

end Links

end Reflex.Lib
