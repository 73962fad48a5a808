import Mathlib.Data.Multiset.Filter
import Reflex.Lib.Lifecycle

/-!
# Leases of objects on handles

Objects are taken from a pool and put on a handle. An entry of the table of handles is free, waits for an
object, or has one; an object learns of its handle first, is entered later, and leaves the table before it
goes back to the pool. Messages that are under way are claims on this.
-/

namespace Reflex.Lib

open Function Multiset

structure Leases (α η : Type*) where
  taken : α → Bool
  handle : α → η
  closed : α → Bool
  entry : η → Option (Option α)

/-- `knock` asks for an object at a handle and `opening` is on the way to the table. `user` needs
an object that is not closed, `heard` one that is in the table. `closing` is on the way out of
the table, and `leaving` on the way to the pool. -/
inductive Claim (α η : Type*) where
  | knock (h : η)
  | opening (h : η) (a : α)
  | user (a : α)
  | heard (a : α)
  | closing (h : η)
  | leaving (a : α)
  deriving DecidableEq

section

variable {α η : Type*}

def Leases.Attached (v : Leases α η) (a : α) : Prop := v.taken a = true ∧ v.entry (v.handle a) = some (some a)

def Claim.Holds (v : Leases α η) : Claim α η → Prop
  | .knock h => v.entry h = some none
  | .opening h a => v.taken a = true ∧ v.closed a = false ∧ v.handle a = h ∧ v.entry h = some none
  | .user a => v.Attached a ∧ v.closed a = false
  | .heard a => v.Attached a
  | .closing h => ∃ a, v.Attached a ∧ v.handle a = h ∧ v.closed a = true
  | .leaving a => v.taken a = true ∧ v.closed a = true ∧ ∀ h, v.entry h ≠ some (some a)

/-- The claims of which there is one: on an entry that waits, on an entry and on an object to be freed. -/
def Claim.key : Claim α η → Option (η ⊕ η ⊕ α)
  | .knock h | .opening h _ => some (.inl h)
  | .closing h => some (.inr (.inl h))
  | .leaving a => some (.inr (.inr a))
  | .user _ | .heard _ => none

/-- The entry that a claim rests on. -/
def Claim.place (v : Leases α η) : Claim α η → Option η
  | .knock h | .opening h _ | .closing h => some h
  | .user a | .heard a => some (v.handle a)
  | .leaving _ => none

structure Leases.Sound (v : Leases α η) (claims : Multiset (Claim α η)) : Prop where
  entries : ∀ h a, v.entry h = some (some a) → v.taken a = true ∧ v.handle a = h
  holds : ∀ c ∈ claims, c.Holds v
  single : (claims.filterMap Claim.key).Nodup
  closing : ∀ h a, v.entry h = some (some a) → v.closed a = true → .closing h ∈ claims

variable {v : Leases α η} {a b : α} {h : η} {c : Claim α η} {cs : Multiset (Claim α η)}

/-- An entry that a claim rests on is not free; if it waits, the claim is the one on it. -/
theorem Claim.Holds.entry (holds : c.Holds v) (here : c.place v = some h) :
    v.entry h = some none ∧ c.key = some (.inl h) ∨ ∃ a, v.entry h = some (some a) ∧ (c = .user a ∧ v.closed a = false ∨ c = .heard a ∨ c = .closing h) := by
  cases c with
  | knock h' =>
    cases here
    exact .inl ⟨holds, rfl⟩
  | opening h' a =>
    cases here
    exact .inl ⟨holds.2.2.2, rfl⟩
  | user a =>
    cases here
    exact .inr ⟨a, holds.1.2, .inl ⟨rfl, holds.2⟩⟩
  | heard a =>
    cases here
    exact .inr ⟨a, holds.2, .inr (.inl rfl)⟩
  | closing h' =>
    cases here
    obtain ⟨a, attached, rfl, -⟩ := holds
    exact .inr ⟨a, attached.2, .inr (.inr rfl)⟩
  | leaving a => cases here

namespace Leases.Sound

theorem attached (sound : v.Sound cs) (found : v.entry h = some (some a)) : v.Attached a := by
  obtain ⟨taken, handle⟩ := sound.entries h a found
  refine ⟨taken, ?_⟩
  rw [handle]
  exact found

section

variable (sound : v.Sound (c ::ₘ cs))
include sound

/-- No other claim has the key of one of which there is one. -/
theorem apart {k} (key : c.key = some k) : ∀ d ∈ cs, d.key ≠ some k := by
  intro d member same
  have single := sound.single
  rw [filterMap_cons_some _ _ _ key] at single
  exact (nodup_cons.1 single).1 (mem_filterMap _ _ |>.2 ⟨d, member, same⟩)

theorem single_of_cons : (cs.filterMap Claim.key).Nodup :=
  nodup_of_le (filterMap_le_filterMap _ (le_cons_self _ _)) sound.single

theorem holds_of_cons : ∀ d ∈ cs, d.Holds v :=
  fun d member => sound.holds d (mem_cons_of_mem member)

theorem closing_of_cons (found : v.entry h = some (some a)) (closed : v.closed a = true)
    (other : c ≠ .closing h) : .closing h ∈ cs :=
  (mem_cons.1 (sound.closing h a found closed)).resolve_left other.symm

/-- A claim that is not on the way out of the table may be dropped. -/
theorem drop (other : ∀ h, c ≠ .closing h) : v.Sound cs where
  entries := sound.entries
  holds := sound.holds_of_cons
  single := sound.single_of_cons
  closing := fun h _ found closed => sound.closing_of_cons found closed (other h)

end

theorem add (sound : v.Sound cs) (justified : c.Holds v) (many : c.key = none) : v.Sound (c ::ₘ cs) where
  entries := sound.entries
  holds := forall_mem_cons.2 ⟨justified, sound.holds⟩
  single := by
    rw [filterMap_cons_none _ _ many]
    exact sound.single
  closing := fun h a found closed => mem_cons_of_mem (sound.closing h a found closed)

theorem add_all {more : Multiset (Claim α η)} (sound : v.Sound cs) (justified : ∀ c ∈ more, c.Holds v ∧ c.key = none) :
    v.Sound (more + cs) := by
  induction more using Multiset.induction with
  | empty =>
    rw [Multiset.zero_add]
    exact sound
  | cons c more ih =>
    obtain ⟨here, rest⟩ := Multiset.forall_mem_cons.1 justified
    rw [Multiset.cons_add]
    exact (ih rest).add here.1 here.2

end Leases.Sound

theorem nodup_key {k} (key : c.key = some k) (single : (cs.filterMap Claim.key).Nodup) (new : ∀ d ∈ cs, d.key ≠ some k) :
    ((c ::ₘ cs).filterMap Claim.key).Nodup := by
  rw [filterMap_cons_some _ _ _ key]
  refine nodup_cons.2 ⟨fun member => ?_, single⟩
  obtain ⟨d, there, same⟩ := (mem_filterMap _ _).1 member
  exact new d there same

/-! ## Entries -/

section Entries

variable [DecidableEq η] {e : Option (Option α)} {h' : η}

def Leases.setEntry (v : Leases α η) (h : η) (e : Option (Option α)) : Leases α η := { v with entry := Function.update v.entry h e }

theorem Leases.entry_setEntry_of_ne (other : h' ≠ h) : (v.setEntry h e).entry h' = v.entry h' := update_of_ne other _ _

theorem Leases.entry_setEntry_self : (v.setEntry h e).entry h = e := update_self _ _ _

theorem Leases.Attached.setEntry (attached : v.Attached b) (other : v.handle b ≠ h) : (v.setEntry h e).Attached b :=
  ⟨attached.1, (Leases.entry_setEntry_of_ne other).trans attached.2⟩

/-- Claims that do not rest on the entry stay justified, unless they need that an object is in no entry. -/
theorem Claim.Holds.setEntry (holds : c.Holds v) (other : c.place v ≠ some h) (new : ∀ a, e = some (some a) → c ≠ .leaving a) :
    c.Holds (v.setEntry h e) := by
  cases c with
  | knock h' => exact (Leases.entry_setEntry_of_ne fun same => other (congrArg some same)).trans holds
  | opening h' a =>
    obtain ⟨taken, open', handle, waits⟩ := holds
    exact ⟨taken, open', handle, (Leases.entry_setEntry_of_ne fun same => other (congrArg some same)).trans waits⟩
  | user a => exact ⟨holds.1.setEntry fun same => other (congrArg some same), holds.2⟩
  | heard a => exact Leases.Attached.setEntry holds fun same => other (congrArg some same)
  | closing h' =>
    obtain ⟨a, attached, handle, closed⟩ := holds
    refine ⟨a, attached.setEntry fun same => other (congrArg some (handle.symm.trans same)), handle, closed⟩
  | leaving a =>
    obtain ⟨taken, closed, nowhere⟩ := holds
    refine ⟨taken, closed, fun h' => ?_⟩
    by_cases same : h' = h
    · rw [same, Leases.entry_setEntry_self]
      exact fun found => new a found rfl
    · rw [Leases.entry_setEntry_of_ne same]
      exact nowhere h'

namespace Leases.Sound

theorem knock (sound : v.Sound cs) (free : v.entry h = none) : (v.setEntry h (some none)).Sound (.knock h ::ₘ cs) where
  entries := by
    intro h' a found
    by_cases same : h' = h
    · rw [same, entry_setEntry_self] at found
      cases found
    · rw [entry_setEntry_of_ne same] at found
      exact sound.entries h' a found
  holds := by
    refine forall_mem_cons.2 ⟨entry_setEntry_self, fun c member => ?_⟩
    refine (sound.holds c member).setEntry (fun here => ?_) (fun a same => by cases same)
    rcases (sound.holds c member).entry here with ⟨waits, -⟩ | ⟨a, found, -⟩
    · rw [free] at waits
      cases waits
    · rw [free] at found
      cases found
  single := by
    refine nodup_key rfl sound.single fun c member same => ?_
    have here : c.place v = some h := by
      cases c <;> cases same <;> rfl
    rcases (sound.holds c member).entry here with ⟨waits, -⟩ | ⟨a, found, -⟩
    · rw [free] at waits
      cases waits
    · rw [free] at found
      cases found
  closing := by
    intro h' a found closed
    by_cases same : h' = h
    · rw [same, entry_setEntry_self] at found
      cases found
    · rw [entry_setEntry_of_ne same] at found
      exact mem_cons_of_mem (sound.closing h' a found closed)

theorem attach (sound : v.Sound (.opening h a ::ₘ cs)) : (v.setEntry h (some (some a))).Sound cs := by
  obtain ⟨taken, isOpen, handle, waits⟩ := sound.holds (.opening h a) (mem_cons_self _ _)
  refine ⟨?_, ?_, sound.single_of_cons, ?_⟩
  · intro h' b found
    by_cases same : h' = h
    · rw [same, entry_setEntry_self] at found
      cases found
      exact ⟨taken, handle.trans same.symm⟩
    · rw [entry_setEntry_of_ne same] at found
      exact sound.entries h' b found
  · intro c member
    have holds := sound.holds_of_cons c member
    refine holds.setEntry (fun here => ?_) ?_
    · rcases holds.entry here with ⟨-, key⟩ | ⟨b, found, -⟩
      · exact sound.apart rfl c member key
      · rw [waits] at found
        cases found
    · rintro b same rfl
      cases same
      exact absurd (isOpen.symm.trans holds.2.1) Bool.false_ne_true
  · intro h' b found closed
    by_cases same : h' = h
    · rw [same, entry_setEntry_self] at found
      cases found
      rw [show (v.setEntry h (some (some a))).closed a = v.closed a from rfl, isOpen] at closed
      cases closed
    · rw [entry_setEntry_of_ne same] at found
      exact sound.closing_of_cons found closed nofun

/-- A closed object of which nothing more is heard leaves the table. -/
theorem detach (sound : v.Sound (.closing h ::ₘ cs)) (found : v.entry h = some (some a)) (unheard : .heard a ∉ cs) :
    (v.setEntry h none).Sound (.leaving a ::ₘ cs) := by
  obtain ⟨taken, handle⟩ := sound.entries h a found
  have closed : v.closed a = true := by
    obtain ⟨b, attached, place, closed⟩ := sound.holds (.closing h) (mem_cons_self _ _)
    have there := attached.2
    rw [place, found] at there
    cases there
    exact closed
  refine ⟨?_, forall_mem_cons.2 ⟨⟨taken, closed, ?_⟩, ?_⟩, nodup_key rfl sound.single_of_cons ?_, ?_⟩
  · intro h' b found'
    by_cases same : h' = h
    · rw [same, entry_setEntry_self] at found'
      cases found'
    · rw [entry_setEntry_of_ne same] at found'
      exact sound.entries h' b found'
  · intro h' there
    by_cases same : h' = h
    · rw [same, entry_setEntry_self] at there
      cases there
    · rw [entry_setEntry_of_ne same] at there
      exact same ((sound.entries h' a there).2.symm.trans handle)
  · intro c member
    have holds := sound.holds_of_cons c member
    refine holds.setEntry (fun here => ?_) nofun
    rcases holds.entry here with ⟨waits, -⟩ | ⟨b, there, kind⟩
    · rw [found] at waits
      cases waits
    · rw [found] at there
      cases there
      rcases kind with ⟨-, isOpen⟩ | heard | closing
      · exact absurd (isOpen.symm.trans closed) Bool.false_ne_true
      · rw [heard] at member
        exact unheard member
      · exact sound.apart rfl c member (by rw [closing]; rfl)
  · intro c member key
    have holds := sound.holds_of_cons c member
    cases c <;> cases key
    exact holds.2.2 h found
  · intro h' b found' closed'
    by_cases same : h' = h
    · rw [same, entry_setEntry_self] at found'
      cases found'
    · rw [entry_setEntry_of_ne same] at found'
      refine mem_cons_of_mem (sound.closing_of_cons found' closed' fun twice => ?_)
      cases twice
      exact same rfl

end Leases.Sound

end Entries

/-! ## Objects -/

def Leases.phase (v : Leases α η) (a : α) : Phase :=
  if v.taken a = false then .absent else if v.closed a = true then .closing else .live

theorem Leases.phase_of_live (taken : v.taken a = true) (isOpen : v.closed a = false) : v.phase a = .live := by
  rw [Leases.phase, taken, isOpen]
  rfl

theorem Leases.phase_of_closing (taken : v.taken a = true) (closed : v.closed a = true) : v.phase a = .closing := by
  rw [Leases.phase, taken, closed]
  rfl

theorem Leases.phase_of_absent (free : v.taken a = false) : v.phase a = .absent := if_pos free

theorem Leases.phase_present (taken : v.taken a = true) : v.phase a ≠ .absent := by
  cases closed : v.closed a with
  | false =>
    rw [Leases.phase_of_live taken closed]
    exact Phase.noConfusion
  | true =>
    rw [Leases.phase_of_closing taken closed]
    exact Phase.noConfusion

section Objects

variable [DecidableEq α]

def Leases.take (v : Leases α η) (h : η) (a : α) : Leases α η :=
  { v with
    taken := Function.update v.taken a true
    handle := Function.update v.handle a h
    closed := Function.update v.closed a false }

def Leases.close (v : Leases α η) (a : α) : Leases α η := { v with closed := Function.update v.closed a true }

def Leases.free (v : Leases α η) (a : α) : Leases α η := { v with taken := Function.update v.taken a false }

theorem Leases.take_of_ne (other : b ≠ a) :
    (v.take h a).taken b = v.taken b ∧ (v.take h a).handle b = v.handle b ∧ (v.take h a).closed b = v.closed b :=
  ⟨update_of_ne other _ _, update_of_ne other _ _, update_of_ne other _ _⟩

theorem Leases.close_of_ne (other : b ≠ a) : (v.close a).closed b = v.closed b := update_of_ne other _ _

theorem Leases.free_of_ne (other : b ≠ a) : (v.free a).taken b = v.taken b := update_of_ne other _ _

theorem Leases.Attached.take (attached : v.Attached b) (other : b ≠ a) : (v.take h a).Attached b := by
  obtain ⟨taken, handle, -⟩ := Leases.take_of_ne (v := v) (h := h) other
  refine ⟨taken.trans attached.1, ?_⟩
  rw [handle]
  exact attached.2

theorem Leases.Attached.free (attached : v.Attached b) (other : b ≠ a) : (v.free a).Attached b :=
  ⟨(Leases.free_of_ne other).trans attached.1, attached.2⟩

namespace Leases.Sound

theorem take (sound : v.Sound (.knock h ::ₘ cs)) (free : v.taken a = false) : (v.take h a).Sound (.opening h a ::ₘ cs) := by
  have other : ∀ {b}, v.taken b = true → b ≠ a := by
    rintro b taken rfl
    exact absurd (free.symm.trans taken) Bool.false_ne_true
  refine ⟨?_, forall_mem_cons.2 ⟨⟨?_, ?_, ?_, ?_⟩, ?_⟩, ?_, ?_⟩
  · intro h' b found
    obtain ⟨taken, handle⟩ := sound.entries h' b found
    obtain ⟨taken', handle', -⟩ := take_of_ne (v := v) (h := h) (other taken)
    exact ⟨taken'.trans taken, handle'.trans handle⟩
  · exact update_self _ _ _
  · exact update_self _ _ _
  · exact update_self _ _ _
  · exact sound.holds (.knock h) (mem_cons_self _ _)
  · intro c member
    have holds := sound.holds_of_cons c member
    cases c with
    | knock h' => exact holds
    | opening h' b =>
      obtain ⟨taken, isOpen, handle, waits⟩ := holds
      obtain ⟨taken', handle', closed'⟩ := take_of_ne (v := v) (h := h) (other taken)
      exact ⟨taken'.trans taken, closed'.trans isOpen, handle'.trans handle, waits⟩
    | user b => exact ⟨holds.1.take (other holds.1.1), (take_of_ne (other holds.1.1)).2.2.trans holds.2⟩
    | heard b => exact Attached.take holds (other holds.1)
    | closing h' =>
      obtain ⟨b, attached, handle, closed⟩ := holds
      obtain ⟨-, handle', closed'⟩ := take_of_ne (v := v) (h := h) (other attached.1)
      exact ⟨b, attached.take (other attached.1), handle'.trans handle, closed'.trans closed⟩
    | leaving b =>
      obtain ⟨taken, closed, nowhere⟩ := holds
      obtain ⟨taken', -, closed'⟩ := take_of_ne (v := v) (h := h) (other taken)
      exact ⟨taken'.trans taken, closed'.trans closed, nowhere⟩
  · exact nodup_key rfl sound.single_of_cons (sound.apart rfl)
  · intro h' b found closed
    rw [(take_of_ne (other (sound.entries h' b found).1)).2.2] at closed
    exact mem_cons_of_mem (sound.closing_of_cons found closed nofun)

/-- An object that is in the table and has no user is closed. -/
theorem close (sound : v.Sound cs) (attached : v.Attached a) (isOpen : v.closed a = false) (unused : .user a ∉ cs) :
    (v.close a).Sound (.closing (v.handle a) ::ₘ cs) := by
  have self : (v.close a).closed a = true := update_self _ _ _
  have stays : ∀ {b}, v.closed b = true → (v.close a).closed b = true := by
    intro b closed
    by_cases same : b = a
    · rw [same, self]
    · rw [close_of_ne same, closed]
  refine ⟨sound.entries, forall_mem_cons.2 ⟨⟨a, attached, rfl, self⟩, ?_⟩, nodup_key rfl sound.single ?_, ?_⟩
  · intro c member
    have holds := sound.holds c member
    cases c with
    | knock h' => exact holds
    | opening h' b =>
      obtain ⟨taken, isOpen', handle, waits⟩ := holds
      refine ⟨taken, (close_of_ne ?_).trans isOpen', handle, waits⟩
      rintro rfl
      have there := attached.2
      rw [handle, waits] at there
      cases there
    | user b =>
      refine ⟨holds.1, (close_of_ne ?_).trans holds.2⟩
      rintro rfl
      exact unused member
    | heard b => exact holds
    | closing h' =>
      obtain ⟨b, attached', handle, closed⟩ := holds
      exact ⟨b, attached', handle, stays closed⟩
    | leaving b =>
      obtain ⟨taken, closed, nowhere⟩ := holds
      exact ⟨taken, stays closed, nowhere⟩
  · intro c member key
    have holds := sound.holds c member
    cases c <;> cases key
    obtain ⟨b, attached', handle, closed⟩ := holds
    have there := attached'.2
    rw [handle, attached.2] at there
    cases there
    exact absurd (isOpen.symm.trans closed) Bool.false_ne_true
  · intro h' b found closed
    by_cases same : b = a
    · rw [same] at found
      rw [(sound.entries h' a found).2]
      exact mem_cons_self _ _
    · rw [close_of_ne same] at closed
      exact mem_cons_of_mem (sound.closing h' b found closed)

/-- An object that has left the table goes back to the pool. -/
theorem free (sound : v.Sound (.leaving a ::ₘ cs)) : (v.free a).Sound cs := by
  obtain ⟨-, closed, nowhere⟩ := sound.holds (.leaving a) (mem_cons_self _ _)
  have outside : ∀ {b}, v.Attached b → b ≠ a := by
    rintro b attached rfl
    exact nowhere _ attached.2
  refine ⟨?_, ?_, sound.single_of_cons, fun h' b found closed' => sound.closing_of_cons found closed' nofun⟩
  · intro h' b found
    obtain ⟨taken, handle⟩ := sound.entries h' b found
    exact ⟨(free_of_ne (outside (sound.attached found))).trans taken, handle⟩
  · intro c member
    have holds := sound.holds_of_cons c member
    cases c with
    | knock h' => exact holds
    | opening h' b =>
      obtain ⟨taken, isOpen, handle, waits⟩ := holds
      refine ⟨(free_of_ne ?_).trans taken, isOpen, handle, waits⟩
      rintro rfl
      exact absurd (isOpen.symm.trans closed) Bool.false_ne_true
    | user b => exact ⟨holds.1.free (outside holds.1), holds.2⟩
    | heard b => exact Attached.free holds (outside holds)
    | closing h' =>
      obtain ⟨b, attached, handle, closed'⟩ := holds
      exact ⟨b, attached.free (outside attached), handle, closed'⟩
    | leaving b =>
      obtain ⟨taken, closed', nowhere'⟩ := holds
      refine ⟨(free_of_ne ?_).trans taken, closed', nowhere'⟩
      rintro rfl
      exact sound.apart rfl _ member rfl

end Leases.Sound

/-! ## Traces

The marks of `Reflex.Lib.Lifecycle` that the operations leave. -/

/-- The trace ends with each object in the phase that the leases say. -/
def Leases.Traces {κ : Type*} (v : Leases α η) (marks : List (Mark α κ)) : Prop := ∀ a, Lib.phase a marks = some (v.phase a)

namespace Leases

variable {κ : Type*} {marks : List (Mark α κ)}

namespace Traces

section

variable (traces : v.Traces marks)
include traces

theorem snoc {w : Leases α η} {k : Mark α κ} (a : α) (here : k.object = a) (moves : (v.phase a).mark k = some (w.phase a))
    (others : ∀ b, b ≠ a → w.phase b = v.phase b) : w.Traces (marks ++ [k]) := by
  intro b
  by_cases same : b = a
  · rw [same, phase_snoc here (traces a), moves]
  · rw [phase_others, traces b, others b same]
    intro k' only
    rw [List.mem_singleton.1 only, here]
    exact Ne.symm same

theorem take (free : v.taken a = false) : (v.take h a).Traces (marks ++ [.opened a]) := by
  apply traces.snoc a rfl
  · rw [phase_of_absent free, phase_of_live (update_self _ _ _) (update_self _ _ _)]
    rfl
  · intro b other
    obtain ⟨taken, -, closed⟩ := take_of_ne (v := v) (h := h) other
    rw [Leases.phase, taken, closed, Leases.phase]

theorem close (taken : v.taken a = true) (isOpen : v.closed a = false) : (v.close a).Traces (marks ++ [.closed a]) := by
  apply traces.snoc a rfl
  · rw [phase_of_live taken isOpen, phase_of_closing (v := v.close a) taken (update_self _ _ _)]
    rfl
  · intro b other
    rw [Leases.phase, close_of_ne other]
    rfl

theorem free (taken : v.taken a = true) (closed : v.closed a = true) :
    (v.free a).Traces (marks ++ [.released a]) := by
  apply traces.snoc a rfl
  · rw [phase_of_closing taken closed, phase_of_absent (update_self _ _ _)]
    rfl
  · intro b other
    rw [Leases.phase, free_of_ne other]
    rfl

theorem use {more : List (Mark α κ)} (taken : v.taken a = true) (uses : ∀ k ∈ more, ∃ c, k = .used a c) :
    v.Traces (marks ++ more) := by
  intro b
  by_cases same : b = a
  · rw [same]
    exact phase_used (traces a) (phase_present taken) uses
  · rw [phase_others, traces b]
    intro k member
    obtain ⟨c, rfl⟩ := uses k member
    exact Ne.symm same

end

end Traces

end Leases

end Objects

end

end Reflex.Lib
