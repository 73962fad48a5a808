import Reflex.Lib.Word

/-!
# Pieces of a stream, and serial numbers

The items of a stream have places, natural numbers without bound; the wire carries a place modulo `2 ^ 32`. Serial
numbers are compared by the sign of their difference, which is that of the places while these are less than half the
circle apart.
-/

namespace Reflex.Lib

variable {β : Type*} (stream : Nat → β) (x m n : Nat)

/-- The items of the stream at `n` places from `x` on. -/
def piece : List β := (List.range' x n).map stream

@[simp] theorem length_piece : (piece stream x n).length = n := by simp [piece]

theorem piece_append : piece stream x m ++ piece stream (x + m) n = piece stream x (m + n) := by
  rw [piece, piece, piece, ← List.map_append, List.range'_append_1]

theorem drop_piece : (piece stream x n).drop m = piece stream (x + m) (n - m) := by
  rw [piece, piece, ← List.map_drop, List.drop_range', Nat.mul_one]

theorem take_piece {m n : Nat} (short : m ≤ n) : (piece stream x n).take m = piece stream x m := by
  obtain ⟨k, rfl⟩ := Nat.exists_eq_add_of_le short
  rw [← piece_append, List.take_left' (length_piece stream x m)]

/-- `(s32_t)((u32_t)a - (u32_t)b)`, whose sign `TCP_SEQ_LT` and its kin test. -/
def seqDiff (a b : Int) : Int := Int.bmod (a - b) (2 ^ 32)

/-- The difference of two serial numbers is that of the places they stand for. -/
theorem seqDiff_near {a b x y : Int} (first : a % 2 ^ 32 = x % 2 ^ 32) (second : b % 2 ^ 32 = y % 2 ^ 32)
    (above : x - y < 2 ^ 31) (below : y - x ≤ 2 ^ 31) : seqDiff a b = x - y := by
  rw [seqDiff, Int.bmod_def]
  omega

/-- `TCP_SEQ_BETWEEN`. -/
def SeqBetween (a b c : Int) : Prop := 0 ≤ seqDiff a b ∧ seqDiff a c ≤ 0

instance (a b c : Int) : Decidable (SeqBetween a b c) := inferInstanceAs (Decidable (_ ∧ _))

theorem seqBetween_near {a b c x y z : Int} (first : a % 2 ^ 32 = x % 2 ^ 32) (lower : b % 2 ^ 32 = y % 2 ^ 32)
    (upper : c % 2 ^ 32 = z % 2 ^ 32) (above : x - y < 2 ^ 31 ∧ x - z < 2 ^ 31)
    (below : y - x ≤ 2 ^ 31 ∧ z - x ≤ 2 ^ 31) : SeqBetween a b c ↔ y ≤ x ∧ x ≤ z := by
  rw [SeqBetween, seqDiff_near first lower above.1 below.1, seqDiff_near first upper above.2 below.2]
  omega

end Reflex.Lib
