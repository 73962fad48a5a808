import Mathlib.Data.Nat.Digits.Defs
import Mathlib.Logic.Function.Basic

/-!
# Byte buffers and little-endian words

A buffer is the element at each offset. `store` copies a list to an offset, one element after the other, so
that copying a list in pieces is copying it at once (`store_append`); `slice` reads a range back. `leBytes`
and `leValue` convert between fixed-width words and their bytes, lowest byte first.
-/

namespace Reflex.Lib

open Function List

section Buffer

variable {α : Type*}

/-- Copy `xs` to offset `pos`. -/
def store (b : Nat → α) (pos : Nat) : List α → Nat → α
  | [] => b
  | x :: xs => store (Function.update b pos x) (pos + 1) xs

/-- The `n` elements from offset `pos`. -/
def slice (b : Nat → α) (pos n : Nat) : List α := (List.range n).map fun i => b (pos + i)

@[simp] theorem slice_length (b : Nat → α) (pos n : Nat) : (slice b pos n).length = n := by
  rw [slice, length_map, length_range]

theorem slice_drop (b : Nat → α) (pos n k : Nat) : (slice b pos n).drop k = slice b (pos + k) (n - k) := by
  apply ext_getElem
  · rw [length_drop, slice_length, slice_length]
  · intro i _ _
    simp only [slice, getElem_drop, getElem_map, getElem_range, Nat.add_assoc]

theorem slice_add (b : Nat → α) (pos m n : Nat) : slice b pos (m + n) = slice b pos m ++ slice b (pos + m) n := by
  rw [slice, range_add, map_append, map_map, slice, slice]
  simp only [comp_def, Nat.add_assoc]

theorem store_append (b : Nat → α) (pos : Nat) (xs ys : List α) :
    store b pos (xs ++ ys) = store (store b pos xs) (pos + xs.length) ys := by
  induction xs generalizing b pos with
  | nil => rfl
  | cons x xs ih =>
    rw [cons_append, store, ih, store, length_cons, Nat.add_right_comm, Nat.add_assoc]

theorem store_below (b : Nat → α) {pos k} (xs : List α) (below : k < pos) : store b pos xs k = b k := by
  induction xs generalizing b pos with
  | nil => rfl
  | cons x xs ih =>
    rw [store, ih _ (by omega)]
    exact update_of_ne (by omega) _ _

theorem store_past (b : Nat → α) {pos k} (xs : List α) (past : pos + xs.length ≤ k) : store b pos xs k = b k := by
  induction xs generalizing b pos with
  | nil => rfl
  | cons x xs ih =>
    rw [length_cons] at past
    rw [store, ih _ (by omega)]
    exact update_of_ne (by omega) _ _

theorem store_at (b : Nat → α) (pos : Nat) {xs : List α} {k} (inside : k < xs.length) :
    store b pos xs (pos + k) = xs[k] := by
  induction xs generalizing b pos k with
  | nil => cases inside
  | cons x xs ih =>
    rw [store]
    cases k with
    | zero =>
      show store (update b pos x) (pos + 1) xs pos = x
      rw [store_below _ _ (Nat.lt_succ_self pos), update_self]
    | succ k =>
      have later := ih (update b pos x) (pos + 1) (k := k) (by simpa using inside)
      rw [Nat.add_right_comm, Nat.add_assoc] at later
      exact later

theorem slice_store_below (b : Nat → α) {pos p n} (xs : List α) (below : p + n ≤ pos) :
    slice (store b pos xs) p n = slice b p n := by
  apply map_congr_left
  intro i inside
  rw [mem_range] at inside
  exact store_below b xs (by omega)

theorem slice_store (b : Nat → α) (pos : Nat) {xs : List α} {i n} (inside : i + n ≤ xs.length) :
    slice (store b pos xs) (pos + i) n = (xs.drop i).take n := by
  apply ext_getElem
  · rw [slice_length, length_take, length_drop]
    omega
  · intro k left right
    rw [slice_length] at left
    simp only [slice, getElem_map, getElem_range, getElem_take, getElem_drop]
    rw [Nat.add_assoc]
    exact store_at b pos (by omega)

theorem slice_store_self (b : Nat → α) (pos : Nat) {xs : List α} {n} (whole : xs.length = n) : slice (store b pos xs) pos n = xs := by
  have read := slice_store b pos (i := 0) (n := n) (Nat.le_of_eq ((Nat.zero_add n).trans whole.symm))
  rwa [Nat.add_zero, drop_zero, take_of_length_le whole.le] at read

/-- Two buffers that hold the same up to an offset. -/
def Agree (n : Nat) (b c : Nat → α) : Prop := ∀ i < n, b i = c i

theorem Agree.slice_eq {n pos k : Nat} {b c : Nat → α} (agree : Agree n b c) (inside : pos + k ≤ n) :
    slice b pos k = slice c pos k := by
  apply map_congr_left
  intro i lt
  rw [mem_range] at lt
  exact agree (pos + i) (by omega)

theorem Agree.store {n : Nat} {b c : Nat → α} (agree : Agree n b c) (pos : Nat) {xs ys : List α} (same : xs = ys) :
    Agree n (store b pos xs) (store c pos ys) := by
  subst same
  induction xs generalizing b c pos with
  | nil => exact agree
  | cons x xs ih =>
    refine ih ?_ (pos + 1)
    intro i lt
    by_cases here : i = pos
    · rw [here, update_self, update_self]
    · rw [update_of_ne here, update_of_ne here]
      exact agree i lt

end Buffer

/-- The `w` low bytes of `n`, lowest first. -/
def leBytes : Nat → Nat → List UInt8
  | 0, _ => []
  | w + 1, n => UInt8.ofNat n :: leBytes w (n / 256)

def leValue (bytes : List UInt8) : Nat := Nat.ofDigits 256 (bytes.map UInt8.toNat)

/-- The value of bytes in network order. -/
def beValue (bytes : List UInt8) : Nat := leValue bytes.reverse

def beBytes (w n : Nat) : List UInt8 := (leBytes w n).reverse

@[simp] theorem leBytes_length (w n : Nat) : (leBytes w n).length = w := by
  induction w generalizing n with
  | zero => rfl
  | succ w ih => rw [leBytes, length_cons, ih]

theorem leValue_leBytes (w n : Nat) : leValue (leBytes w n) = n % 256 ^ w := by
  induction w generalizing n with
  | zero => simp [leBytes, leValue, Nat.mod_one]
  | succ w ih =>
    have rest : Nat.ofDigits 256 ((leBytes w (n / 256)).map UInt8.toNat) = n / 256 % 256 ^ w := ih (n / 256)
    have low : (UInt8.ofNat n).toNat = n % 256 := UInt8.toNat_ofNat'
    rw [leBytes, leValue, map_cons, Nat.ofDigits_cons, rest, low, Nat.pow_succ', Nat.mod_mul]

theorem leBytes_leValue (bytes : List UInt8) : leBytes bytes.length (leValue bytes) = bytes := by
  induction bytes with
  | nil => rfl
  | cons b bytes ih =>
    have value : leValue (b :: bytes) = b.toNat + 256 * leValue bytes := Nat.ofDigits_cons
    have low := b.toNat_lt
    have byte : UInt8.ofNat (b.toNat + 256 * leValue bytes) = b := by
      apply UInt8.toNat_inj.1
      rw [UInt8.toNat_ofNat']
      omega
    rw [length_cons, leBytes, value, byte, show (b.toNat + 256 * leValue bytes) / 256 = leValue bytes by omega, ih]

theorem leValue_concat (bytes : List UInt8) (b : UInt8) : leValue (bytes ++ [b]) = leValue bytes + 256 ^ bytes.length * b.toNat := by
  rw [leValue, map_append, Nat.ofDigits_append, length_map, map_singleton, Nat.ofDigits_singleton, leValue]

end Reflex.Lib
