import Mathlib.Data.List.Range
import Mathlib.Data.List.TakeWhile

/-!
# Scanning a table

Facts about the two folds that a scan of a table uses: the running minimum of a key and the running
conjunction of a test, over the entries that a filter keeps.
-/

namespace Reflex.Lib

open List

variable {ι : Type*}

/-- The least key among the entries that `p` keeps, or `start` when that is smaller. -/
def scanMin (start : Nat) (key : ι → Nat) (p : ι → Bool) (l : List ι) : Nat :=
  l.foldl (fun m i => if p i then (if key i < m then key i else m) else m) start

theorem le_scanMin_iff {start b : Nat} {key : ι → Nat} {p : ι → Bool} {l : List ι} :
    b ≤ scanMin start key p l ↔ b ≤ start ∧ ∀ i ∈ l, p i = true → b ≤ key i := by
  induction l generalizing start with
  | nil => simp [scanMin]
  | cons i l ih =>
    have step : scanMin start key p (i :: l) =
        scanMin (if p i then (if key i < start then key i else start) else start) key p l := rfl
    rw [step, ih]
    cases hp : p i with
    | false => simp [hp]
    | true =>
      simp only [if_true, forall_mem_cons, hp, forall_const]
      split <;> constructor <;> rintro ⟨h1, h2⟩ <;> refine ⟨?_, ?_⟩ <;> grind

theorem scanMin_le_start {start : Nat} {key : ι → Nat} {p : ι → Bool} {l : List ι} : scanMin start key p l ≤ start :=
  (le_scanMin_iff.1 (Nat.le_refl _)).1

/-- A pair of folds that do not look at each other can be computed apart. -/
theorem foldl_pair {α β} (f : α → ι → α) (g : β → ι → β) (l : List ι) (a : α) (b : β) :
    l.foldl (fun acc i => (f acc.1 i, g acc.2 i)) (a, b) = (l.foldl f a, l.foldl g b) := by
  induction l generalizing a b with
  | nil => rfl
  | cons i l ih => exact ih _ _

/-- Whether a flag survives a scan that clears it at every entry `p` keeps and `bad` marks. -/
theorem foldl_clear (p bad : ι → Bool) (l : List ι) (b : Bool) :
    l.foldl (fun acc i => if p i then (if bad i then false else acc) else acc) b =
      (b && l.all fun i => !(p i && bad i)) := by
  induction l generalizing b with
  | nil => simp
  | cons i l ih =>
    rw [foldl_cons, ih]
    cases hp : p i <;> cases hb : bad i <;> cases b <;> simp [hp, hb]

/-- The entries of `0, 1, …, n - 1` before `h`. -/
theorem takeWhile_range_ne {n h} (hh : h < n) : (range n).takeWhile (fun i => decide (i ≠ h)) = range h := by
  obtain ⟨k, rfl⟩ := Nat.exists_eq_add_of_lt hh
  rw [show h + k + 1 = h + (k + 1) by omega, range_add, takeWhile_append_of_pos]
  · simp [range_succ_eq_map]
  · intro i hi
    have := mem_range.1 hi
    simpa using Nat.ne_of_lt this

/-! ## First fit -/

/-- The first of the `fuel` indices from `i` on that meets the test. -/
def searchFrom (p : Nat → Bool) : Nat → Nat → Option Nat
  | 0, _ => none
  | fuel + 1, i => if p i then some i else searchFrom p fuel (i + 1)

/-- The first index below `n` that meets the test. -/
def search (p : Nat → Bool) (n : Nat) : Option Nat := searchFrom p n 0

variable {p : Nat → Bool} {n i : Nat}

theorem searchFrom_some {fuel start} (found : searchFrom p fuel start = some i) : p i = true ∧ i < start + fuel := by
  induction fuel generalizing start with
  | zero => cases found
  | succ fuel ih =>
    rw [searchFrom] at found
    split_ifs at found with here
    · obtain rfl := Option.some.inj found
      exact ⟨here, by omega⟩
    · obtain ⟨meets, below⟩ := ih found
      exact ⟨meets, by omega⟩

theorem searchFrom_none {fuel start} (missed : searchFrom p fuel start = none) (first : start ≤ i)
    (below : i < start + fuel) : p i = false := by
  induction fuel generalizing start with
  | zero => omega
  | succ fuel ih =>
    rw [searchFrom] at missed
    split_ifs at missed with here
    rcases Nat.eq_or_lt_of_le first with rfl | later
    · exact Bool.eq_false_iff.2 here
    · exact ih missed later (by omega)

theorem search_some (found : search p n = some i) : p i = true ∧ i < n := by
  obtain ⟨meets, below⟩ := searchFrom_some found
  exact ⟨meets, by omega⟩

theorem search_none (missed : search p n = none) (below : i < n) : p i = false :=
  searchFrom_none missed (Nat.zero_le i) (by omega)

end Reflex.Lib
