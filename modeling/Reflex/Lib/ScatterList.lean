import Mathlib.Data.List.Basic
import Mathlib.Order.Nat

/-!
# Scatter lists

A scatter list describes a stream by pieces of memory: a place and a length each. Taking some elements from
the front drops whole entries and shifts the first one that is left (`consume`); what is left describes what
is left of the stream (`gather_consume`).
-/

namespace Reflex.Lib

open List

variable {α β : Type*}

/-- So many elements from a place on. -/
structure SgEntry (β : Type*) where
  base : β
  len : Nat

/-- Memory that can be read from any place on. -/
structure Medium (shift : β → Nat → β) (α : Type*) where
  read : β → Nat → List α
  length_read : ∀ b n, (read b n).length = n
  take_read : ∀ b n k, k ≤ n → (read b n).take k = read b k
  drop_read : ∀ b n k, (read b n).drop k = read (shift b k) (n - k)

variable {shift : β → Nat → β}

/-- The stream that the entries describe. -/
def gather (M : Medium shift α) (es : List (SgEntry β)) : List α := es.flatMap fun e => M.read e.base e.len

def volume : List (SgEntry β) → Nat
  | [] => 0
  | e :: es => e.len + volume es

/-- `n` elements have been taken. -/
def consume (shift : β → Nat → β) : Nat → List (SgEntry β) → List (SgEntry β)
  | _, [] => []
  | n, e :: es => if n < e.len then ⟨shift e.base n, e.len - n⟩ :: es else consume shift (n - e.len) es

/-- The last entry is `n` elements longer. -/
def growLast (n : Nat) : List (SgEntry β) → List (SgEntry β)
  | [] => []
  | [e] => [{ e with len := e.len + n }]
  | e :: f :: es => e :: growLast n (f :: es)

/-- A property of the entries and their positions in a stream, the first of which is `start`. -/
def Placed (P : Nat → SgEntry β → Prop) : Nat → List (SgEntry β) → Prop
  | _, [] => True
  | start, e :: es => P start e ∧ Placed P (start + e.len) es

section Stream

variable {M M' : Medium shift α} {es : List (SgEntry β)} {e : SgEntry β}

theorem gather_append (M : Medium shift α) (es fs : List (SgEntry β)) : gather M (es ++ fs) = gather M es ++ gather M fs :=
  flatMap_append

theorem gather_singleton (M : Medium shift α) (e : SgEntry β) : gather M [e] = M.read e.base e.len := flatMap_singleton _ _

theorem volume_cons (e : SgEntry β) (es : List (SgEntry β)) : volume (e :: es) = e.len + volume es := rfl

theorem volume_singleton (e : SgEntry β) : volume [e] = e.len := rfl

theorem volume_append (es fs : List (SgEntry β)) : volume (es ++ fs) = volume es + volume fs := by
  induction es with
  | nil => exact (Nat.zero_add _).symm
  | cons e es ih => rw [cons_append, volume_cons, volume_cons, ih, Nat.add_assoc]

theorem length_gather (M : Medium shift α) (es : List (SgEntry β)) : (gather M es).length = volume es := by
  induction es with
  | nil => rfl
  | cons e es ih =>
    rw [volume_cons, ← ih, gather, flatMap_cons, length_append, M.length_read]
    rfl

theorem gather_consume (M : Medium shift α) (n : Nat) (es : List (SgEntry β)) :
    gather M (consume shift n es) = (gather M es).drop n := by
  induction es generalizing n with
  | nil => rw [consume, gather, flatMap_nil, drop_nil]
  | cons e es ih =>
    rw [consume]
    have whole := M.length_read e.base e.len
    split_ifs with part
    · rw [gather, flatMap_cons, ← M.drop_read, gather, flatMap_cons, drop_append_of_le_length (by omega)]
    · have gone : (M.read e.base e.len).drop n = [] := drop_of_length_le (by omega)
      rw [ih, gather, gather, flatMap_cons, drop_append, whole, gone, nil_append]

theorem volume_consume {n} (within : n ≤ volume es) : volume (consume shift n es) = volume es - n := by
  induction es generalizing n with
  | nil =>
    rw [consume]
    exact (Nat.sub_eq_zero_of_le (Nat.zero_le n)).symm
  | cons e es ih =>
    rw [volume_cons] at within ⊢
    rw [consume]
    split_ifs with part
    · rw [volume_cons]
      show e.len - n + volume es = e.len + volume es - n
      omega
    · rw [ih (by omega)]
      omega

theorem length_consume_le (n : Nat) (es : List (SgEntry β)) : (consume shift n es).length ≤ es.length := by
  induction es generalizing n with
  | nil => exact Nat.zero_le _
  | cons e es ih =>
    rw [consume]
    split_ifs
    · exact le_rfl
    · exact (ih _).trans (Nat.le_succ _)

/-- Entries that describe something still do so when some of it has been taken. -/
theorem consume_positive {n} (positive : ∀ e ∈ es, 0 < e.len) : ∀ e ∈ consume shift n es, 0 < e.len := by
  induction es generalizing n with
  | nil => exact positive
  | cons e es ih =>
    rw [consume]
    split_ifs with part
    · intro f member
      rcases mem_cons.1 member with rfl | later
      · exact Nat.sub_pos_of_lt part
      · exact positive f (mem_cons_of_mem e later)
    · exact ih fun f member => positive f (mem_cons_of_mem e member)

/-- The last entry that is left is the last one, or what is left of it. -/
theorem consume_getLast {n f} (last : f ∈ (consume shift n es).getLast?) :
    f ∈ es.getLast? ∨ ∃ e ∈ es.getLast?, ∃ k < e.len, f = ⟨shift e.base k, e.len - k⟩ := by
  induction es generalizing n with
  | nil => exact Or.inl last
  | cons e es ih =>
    rw [consume] at last
    split_ifs at last with part
    · cases es with
      | nil =>
        refine Or.inr ⟨e, rfl, n, part, ?_⟩
        exact (Option.mem_some_iff.1 last).symm
      | cons g es => exact Or.inl last
    · cases es with
      | nil => cases last
      | cons g es => exact ih last

theorem growLast_concat (n : Nat) (es : List (SgEntry β)) (e : SgEntry β) :
    growLast n (es ++ [e]) = es ++ [{ e with len := e.len + n }] := by
  induction es with
  | nil => rfl
  | cons f es ih =>
    cases es with
    | nil => rfl
    | cons g es => exact congrArg (f :: ·) ih

theorem length_growLast (n : Nat) (es : List (SgEntry β)) : (growLast n es).length = es.length := by
  rcases eq_nil_or_concat' es with rfl | ⟨es, e, rfl⟩
  · rfl
  · rw [growLast_concat, length_append, length_append]
    rfl

theorem growLast_positive (n : Nat) (positive : ∀ e ∈ es, 0 < e.len) : ∀ e ∈ growLast n es, 0 < e.len := by
  rcases eq_nil_or_concat' es with rfl | ⟨es, e, rfl⟩
  · exact positive
  · rw [growLast_concat]
    intro f member
    rcases mem_append.1 member with old | last
    · exact positive f (mem_append_left _ old)
    · obtain rfl := mem_singleton.1 last
      exact Nat.add_pos_left (positive e (mem_append_right _ mem_cons_self)) n

theorem volume_growLast (n : Nat) (some : es ≠ []) : volume (growLast n es) = volume es + n := by
  rcases eq_nil_or_concat' es with rfl | ⟨es, e, rfl⟩
  · exact absurd rfl some
  · rw [growLast_concat, volume_append, volume_append, volume_singleton, volume_singleton, Nat.add_assoc]

end Stream

section Positions

variable {P Q : Nat → SgEntry β → Prop} {es fs : List (SgEntry β)} {e : SgEntry β} {start : Nat}

theorem placed_append : Placed P start (es ++ fs) ↔ Placed P start es ∧ Placed P (start + volume es) fs := by
  induction es generalizing start with
  | nil => exact (true_and _).symm.to_iff
  | cons e es ih =>
    rw [cons_append, Placed, ih, Placed, volume_cons, and_assoc, Nat.add_assoc]

theorem placed_singleton : Placed P start [e] ↔ P start e := (and_true _).to_iff

section

variable (placed : Placed P start es)
include placed

/-- A consequence that uses that an entry ends within the stream. -/
theorem Placed.imp_within (imp : ∀ s e, e ∈ es → start ≤ s → s + e.len ≤ start + volume es → P s e → Q s e) : Placed Q start es := by
  induction es generalizing start with
  | nil => exact trivial
  | cons e es ih =>
    obtain ⟨here, later⟩ := placed
    rw [volume_cons] at imp
    refine ⟨imp start e mem_cons_self le_rfl (by omega) here, ih later fun s f member after within => ?_⟩
    exact imp s f (mem_cons_of_mem e member) (by omega) (by omega)

theorem Placed.imp (imp : ∀ s e, P s e → Q s e) : Placed Q start es :=
  placed.imp_within fun s e _ _ _ => imp s e

theorem Placed.of_mem (member : e ∈ es) : ∃ s, start ≤ s ∧ P s e := by
  induction es generalizing start with
  | nil => cases member
  | cons f es ih =>
    rcases mem_cons.1 member with rfl | later
    · exact ⟨start, le_rfl, placed.1⟩
    · obtain ⟨s, after, here⟩ := ih placed.2 later
      exact ⟨s, by omega, here⟩

theorem Placed.consume {n} (part : ∀ s e k, k < e.len → P s e → P (s + k) ⟨shift e.base k, e.len - k⟩) :
    Placed P (start + n) (consume shift n es) := by
  induction es generalizing start n with
  | nil => exact trivial
  | cons e es ih =>
    rw [Lib.consume]
    split_ifs with short
    · refine ⟨part start e n short placed.1, ?_⟩
      have next : start + n + (e.len - n) = start + e.len := by omega
      rw [next]
      exact placed.2
    · have next : start + n = start + e.len + (n - e.len) := by omega
      rw [next]
      exact ih placed.2

end

end Positions

/-- Entries whose memory reads the same describe the same stream. -/
theorem gather_congr {M M' : Medium shift α} {es} (same : ∀ e ∈ es, M'.read e.base e.len = M.read e.base e.len) :
    gather M' es = gather M es := by
  rw [gather, flatMap_def, map_congr_left same, ← flatMap_def, gather]

end Reflex.Lib
