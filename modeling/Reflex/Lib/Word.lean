import Mathlib.Data.Rat.Floor
import Mathlib.Algebra.Order.Floor.Semifield

/-!
# Machine words and C conversions

Unsigned arithmetic of width `w` is arithmetic on `Nat` modulo `2 ^ w`; every sum and
difference the code forms is written with `wadd` and `wsub`, so that a proof has to
show where it does not wrap. A `double` is an exact rational; its conversion to an
integer type truncates towards zero, and saturates where the value does not fit (the
language leaves that case undefined and the ARM conversion instructions saturate).
-/

namespace Reflex.Lib

/-- Unsigned addition of width `w`. -/
def wadd (w a b : Nat) : Nat := (a + b) % 2 ^ w

/-- Unsigned subtraction of width `w`. -/
def wsub (w a b : Nat) : Nat := (a + (2 ^ w - b % 2 ^ w)) % 2 ^ w

/-- Unsigned multiplication of width `w`. -/
def wmul (w a b : Nat) : Nat := (a * b) % 2 ^ w

/-- A signed value stored in an unsigned word of width `w`. -/
def wofInt (w : Nat) (x : Int) : Nat := (x % (2 ^ w : Nat)).toNat

/-- `(unsigned)x` for a `double x`. -/
def truncToNat (w : Nat) (x : ℚ) : Nat := min ⌊x⌋₊ (2 ^ w - 1)

/-- `(long)x` for a `double x`. -/
def truncToInt (w : Nat) (x : ℚ) : Int :=
  max (-(2 ^ (w - 1) : Nat)) (min (if 0 ≤ x then ⌊x⌋ else ⌈x⌉) ((2 ^ (w - 1) : Nat) - 1))

section Unsigned

variable {w a b : Nat}

theorem wadd_of_lt (h : a + b < 2 ^ w) : wadd w a b = a + b := Nat.mod_eq_of_lt h

theorem wadd_le (w a b : Nat) : wadd w a b ≤ a + b := Nat.mod_le _ _

theorem wadd_lt (w a b : Nat) : wadd w a b < 2 ^ w := Nat.mod_lt _ (Nat.two_pow_pos w)

theorem wsub_lt (w a b : Nat) : wsub w a b < 2 ^ w := Nat.mod_lt _ (Nat.two_pow_pos w)

theorem wsub_eq_mod (h : b ≤ a) : wsub w a b = (a - b) % 2 ^ w := by
  have word := Nat.mod_lt b (Nat.two_pow_pos w)
  have split := Nat.mod_add_div b (2 ^ w)
  have turn : a + (2 ^ w - b % 2 ^ w) = (a - b) + 2 ^ w * (b / 2 ^ w + 1) := by
    rw [Nat.mul_add, Nat.mul_one]
    omega
  rw [wsub, turn, Nat.add_mul_mod_self_left]

theorem wsub_le (h : b ≤ a) : wsub w a b ≤ a - b := by
  rw [wsub_eq_mod h]
  exact Nat.mod_le _ _

theorem wsub_of_le (h : b ≤ a) (ha : a < 2 ^ w) : wsub w a b = a - b := by
  rw [wsub_eq_mod h, Nat.mod_eq_of_lt (by omega)]

theorem wmul_of_lt (h : a * b < 2 ^ w) : wmul w a b = a * b := Nat.mod_eq_of_lt h

theorem wofInt_of_lt {x : Int} (h0 : 0 ≤ x) (h : x < (2 ^ w : Nat)) : wofInt w x = x.toNat := by
  unfold wofInt
  rw [Int.emod_eq_of_lt h0 h]

theorem cast_wofInt (w : Nat) (x : Int) : (wofInt w x : ℤ) = x % (2 ^ w : Nat) :=
  Int.toNat_of_nonneg (Int.emod_nonneg _ (by positivity))

theorem wofInt_lt (w : Nat) (x : Int) : wofInt w x < 2 ^ w := by
  apply Int.ofNat_lt.1
  rw [cast_wofInt]
  exact Int.emod_lt_of_pos x (by positivity)

theorem wadd_wofInt (w : Nat) (x y : Int) : wadd w (wofInt w x) (wofInt w y) = wofInt w (x + y) := by
  apply Int.ofNat_inj.1
  rw [wadd, Int.natCast_mod, Nat.cast_add, cast_wofInt, cast_wofInt, cast_wofInt, ← Int.add_emod]

theorem wsub_wofInt (w : Nat) (x y : Int) : wsub w (wofInt w x) (wofInt w y) = wofInt w (x - y) := by
  have word : wofInt w y % 2 ^ w = wofInt w y := Nat.mod_eq_of_lt (wofInt_lt w y)
  have fits : wofInt w y ≤ 2 ^ w := (wofInt_lt w y).le
  apply Int.ofNat_inj.1
  rw [wsub, word, Int.natCast_mod, Nat.cast_add, Nat.cast_sub fits, cast_wofInt, cast_wofInt, cast_wofInt,
    ← Int.add_sub_assoc, Int.sub_emod, Int.emod_emod, Int.add_emod_right, Int.emod_emod, ← Int.sub_emod]

end Unsigned

section Signed

/-- An unsigned value stored in an `int`. -/
theorem bmod_word (n : Nat) :
    Int.bmod n (2 ^ 32) = if n % 2 ^ 32 < 2 ^ 31 then ((n % 2 ^ 32 : Nat) : Int) else (n % 2 ^ 32 : Nat) - 2 ^ 32 := by
  rw [Int.bmod_def]
  norm_num
  split_ifs <;> omega

theorem bmod_word_of_lt {n : Nat} (fits : n < 2 ^ 31) : Int.bmod n (2 ^ 32) = n := by
  rw [bmod_word, Nat.mod_eq_of_lt (by omega), if_pos fits]

end Signed

section Truncation

variable {w : Nat} {x : ℚ}

theorem truncToNat_lt (w : Nat) (x : ℚ) : truncToNat w x < 2 ^ w := by
  have := Nat.two_pow_pos w
  have : truncToNat w x ≤ 2 ^ w - 1 := min_le_right _ _
  omega

theorem truncToNat_of_lt (h : ⌊x⌋₊ < 2 ^ w) : truncToNat w x = ⌊x⌋₊ := by
  unfold truncToNat
  omega

/-- Dividing two machine words as doubles and truncating is their integer quotient. -/
theorem truncToNat_div {n d : Nat} (hn : n < 2 ^ w) : truncToNat w ((n : ℚ) / d) = n / d := by
  have quotient : ⌊(n : ℚ) / d⌋₊ = n / d := Nat.floor_div_eq_div n d
  rw [truncToNat_of_lt (by rw [quotient]; exact (Nat.div_le_self n d).trans_lt hn), quotient]

/-- Adding a word before truncating gains no more than adding it after. -/
theorem truncToNat_add_le (w n : Nat) (x : ℚ) : truncToNat w (n + x) ≤ n + truncToNat w x := by
  have floor : ⌊(n : ℚ) + x⌋₊ ≤ n + ⌊x⌋₊ := by
    rcases le_or_gt 0 x with nonneg | neg
    · rw [add_comm, Nat.floor_add_natCast nonneg, add_comm]
    · have below : ⌊(n : ℚ) + x⌋₊ ≤ n := Nat.floor_le_of_le (by linarith)
      omega
  unfold truncToNat
  omega

theorem truncToNat_le (w : Nat) (nonneg : 0 ≤ x) : (truncToNat w x : ℚ) ≤ x :=
  (Nat.cast_le.2 (min_le_left _ _)).trans (Nat.floor_le nonneg)

theorem truncToInt_of_nonneg (w : Nat) (nonneg : 0 ≤ x) : truncToInt w x = min ⌊x⌋ ((2 ^ (w - 1) : Nat) - 1) := by
  have floor : 0 ≤ ⌊x⌋ := Int.floor_nonneg.2 nonneg
  have room := Nat.two_pow_pos (w - 1)
  rw [truncToInt, if_pos nonneg]
  omega

theorem truncToInt_nonneg (w : Nat) (nonneg : 0 ≤ x) : 0 ≤ truncToInt w x := by
  have floor : 0 ≤ ⌊x⌋ := Int.floor_nonneg.2 nonneg
  have room := Nat.two_pow_pos (w - 1)
  rw [truncToInt_of_nonneg w nonneg]
  omega

theorem truncToInt_le (w : Nat) (nonneg : 0 ≤ x) : (truncToInt w x : ℚ) ≤ x := by
  rw [truncToInt_of_nonneg w nonneg]
  exact (Int.cast_le.2 (min_le_left _ _)).trans (Int.floor_le x)

theorem truncToInt_of_lt (nonneg : 0 ≤ x) (fits : x < (2 ^ (w - 1) : Nat)) : truncToInt w x = ⌊x⌋ := by
  have floor : ⌊x⌋ < ((2 ^ (w - 1) : Nat) : ℤ) := Int.floor_lt.2 (by exact_mod_cast fits)
  rw [truncToInt_of_nonneg w nonneg]
  omega

end Truncation

end Reflex.Lib
