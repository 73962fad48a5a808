import Reflex.Net.Input

/-!
# The internet checksum

`chksum_internet` has two bodies: the loop over 16-bit words and the assembly for x86, which adds eight bytes
at a time and lets the carry come back in.
-/

namespace Reflex.Net
open Lib List

/-! ## Sums with the carry brought back -/

/-- A word of `w` bits stands for the sum `n`. -/
structure Carries (w n r : Nat) : Prop where
  bound : r < 2 ^ w
  congr : r % 65535 = n % 65535
  zero : r = 0 ↔ n = 0

/-- `add` and `adc $0`. -/
def addCarry (w sum x : Nat) : Nat := ((sum + x) % 2 ^ w + (sum + x) / 2 ^ w) % 2 ^ w

namespace Carries

variable {w n m r x : Nat}

theorem refl (bound : n < 2 ^ w) : Carries w n n := ⟨bound, rfl, Iff.rfl⟩

/-- Bringing the carry back never carries again: all ones with a carry is no sum of two words. -/
theorem wrap (whole : 2 ^ w % 65535 = 1) (left : Carries w n r) (right : Carries w m x) :
    Carries w (n + m) ((r + x) % 2 ^ w + (r + x) / 2 ^ w) := by
  obtain ⟨rBound, rCongr, rZero⟩ := left
  obtain ⟨xBound, xCongr, xZero⟩ := right
  have congr : (r + x) % 65535 = (n + m) % 65535 := by omega
  rcases Nat.lt_or_ge (r + x) (2 ^ w) with small | large
  · rw [Nat.mod_eq_of_lt small, Nat.div_eq_of_lt small]
    exact ⟨by omega, by omega, by omega⟩
  · have carry : (r + x) / 2 ^ w = 1 := Nat.div_eq_of_lt_le (by omega) (by omega)
    have low : (r + x) % 2 ^ w = r + x - 2 ^ w := by rw [Nat.mod_eq_sub_mod large, Nat.mod_eq_of_lt (by omega)]
    rw [carry, low]
    exact ⟨by omega, by omega, by omega⟩

theorem addCarry (whole : 2 ^ w % 65535 = 1) (left : Carries w n r) (right : Carries w m x) :
    Carries w (n + m) (addCarry w r x) := by
  have sum := left.wrap whole right
  rw [Net.addCarry, Nat.mod_eq_of_lt sum.bound]
  exact sum

theorem halve (whole : 2 ^ w % 65535 = 1) (sum : Carries (2 * w) n r) : Carries w n (Net.addCarry w (r / 2 ^ w) (r % 2 ^ w)) := by
  have high : r / 2 ^ w < 2 ^ w := Nat.div_lt_of_lt_mul (by rw [← Nat.pow_add, ← Nat.two_mul]; exact sum.bound)
  have halves := (Carries.refl high).addCarry whole (.refl (Nat.mod_lt r (Nat.two_pow_pos w)))
  have split := Nat.div_add_mod r (2 ^ w)
  have congr : (r / 2 ^ w + r % 2 ^ w) % 65535 = r % 65535 := by
    conv_rhs => rw [← split, Nat.add_mod, Nat.mul_mod, whole, Nat.one_mul, Nat.mod_mod, ← Nat.add_mod]
  have zero : r / 2 ^ w + r % 2 ^ w = 0 ↔ r = 0 := by
    constructor
    · intro none
      rw [← split, (Nat.add_eq_zero_iff.1 none).1, (Nat.add_eq_zero_iff.1 none).2, Nat.mul_zero]
    · rintro rfl
      simp
  exact ⟨halves.bound, halves.congr.trans (congr.trans sum.congr), halves.zero.trans (zero.trans sum.zero)⟩

theorem unique (left : Carries 16 n r) (right : Carries 16 n x) : r = x := by
  obtain ⟨rBound, rCongr, rZero⟩ := left
  obtain ⟨xBound, xCongr, xZero⟩ := right
  omega

end Carries

/-! ## The loop over 16-bit words -/

theorem foldCarry_carries {fuel sum} (enough : sum ≤ fuel) : Carries 16 sum (foldCarry fuel sum) := by
  induction fuel generalizing sum with
  | zero => exact .refl (by omega)
  | succ fuel ih =>
    rw [foldCarry]
    split
    · exact .refl (by omega)
    · have smaller : sum % 65536 + sum / 65536 ≤ fuel := by omega
      obtain ⟨bound, congr, zero⟩ := ih smaller
      exact ⟨bound, by omega, by omega⟩

theorem chksumSum_append (xs ys : List UInt8) (even : xs.length % 2 = 0) :
    chksumSum (xs ++ ys) = chksumSum xs + chksumSum ys := by
  fun_induction chksumSum xs with
  | case1 => rw [nil_append, Nat.zero_add]
  | case2 => simp at even
  | case3 x y rest ih =>
    simp only [length_cons] at even
    rw [cons_append, cons_append, chksumSum, ih (by omega)]
    omega

theorem chksumSum_split (bytes : List UInt8) {k} (even : k % 2 = 0) :
    chksumSum (bytes.take k) + chksumSum (bytes.drop k) = chksumSum bytes := by
  rcases Nat.le_total k bytes.length with inside | beyond
  · rw [← chksumSum_append _ _ (by rw [length_take]; omega), take_append_drop]
  · rw [take_of_length_le beyond, drop_of_length_le beyond, chksumSum, Nat.add_zero]

theorem leValue_carries {bytes : List UInt8} {w} (fits : 8 * bytes.length ≤ w) : Carries w (chksumSum bytes) (leValue bytes) := by
  have bound : leValue bytes < 2 ^ w := by
    have digits : leValue bytes < 256 ^ bytes.length := by
      rw [← leBytes_leValue bytes, leValue_leBytes, leBytes_length]
      exact Nat.mod_lt _ (by positivity)
    apply digits.trans_le
    rw [show 256 = 2 ^ 8 from rfl, ← Nat.pow_mul]
    exact Nat.pow_le_pow_right (by decide) fits
  have value : leValue bytes % 65535 = chksumSum bytes % 65535 ∧ (leValue bytes = 0 ↔ chksumSum bytes = 0) := by
    clear bound fits
    fun_induction chksumSum bytes with
    | case1 => exact ⟨rfl, Iff.rfl⟩
    | case2 x => simp [leValue]
    | case3 x y rest ih =>
      have words : leValue (x :: y :: rest) = x.toNat + 256 * (y.toNat + 256 * leValue rest) := by
        simp only [leValue, map_cons, Nat.ofDigits_cons]
      omega
  exact ⟨bound, value.1, value.2⟩

/-! ## The assembly -/

/-- The loop over eight bytes, `adcq` with the carry of the turn before. -/
def chksumQuads : Nat → List UInt8 → Nat → Nat → Nat × Nat
  | 0, _, sum, carry => (sum, carry)
  | n + 1, bytes, sum, carry =>
    chksumQuads n (bytes.drop 8) ((sum + leValue (bytes.take 8) + carry) % 2 ^ 64) ((sum + leValue (bytes.take 8) + carry) / 2 ^ 64)

/-- The `k` bytes that are added if the length has the bit `k`. -/
def chksumTail (len k : Nat) (st : Nat × List UInt8) : Nat × List UInt8 :=
  if len / k % 2 = 1 then (addCarry 64 st.1 (leValue (st.2.take k)), st.2.drop k) else st

/-- `chksum_internet` on x86. `cmp` clears the carry before the loop over eight bytes, and nothing between two turns touches it. -/
def chksumInternetAsm (bytes : List UInt8) : Nat :=
  let len := bytes.length
  let (sum, carry) := chksumQuads (len / 8) bytes 0 0
  let st := chksumTail len 1 (chksumTail len 2 (chksumTail len 4 ((sum + carry) % 2 ^ 64, bytes.drop (8 * (len / 8)))))
  let sum := addCarry 32 (st.1 / 2 ^ 32) (st.1 % 2 ^ 32)
  let sum := addCarry 16 (sum / 2 ^ 16) (sum % 2 ^ 16)
  65535 - sum

theorem chksumQuads_carries (n : Nat) (bytes : List UInt8) {sum carry m} (before : Carries 64 m (sum + carry)) :
    ∃ k, Carries 64 k ((chksumQuads n bytes sum carry).1 + (chksumQuads n bytes sum carry).2) ∧
      k + chksumSum (bytes.drop (8 * n)) = m + chksumSum bytes := by
  induction n generalizing bytes sum carry m with
  | zero => exact ⟨m, before, rfl⟩
  | succ n ih =>
    have eight : Carries 64 (chksumSum (bytes.take 8)) (leValue (bytes.take 8)) :=
      leValue_carries (by rw [length_take]; omega)
    have step := before.wrap (by decide) eight
    rw [Nat.add_right_comm] at step
    obtain ⟨k, after, read⟩ := ih (bytes.drop 8) step
    refine ⟨k, after, ?_⟩
    have split := chksumSum_split bytes (k := 8) rfl
    rw [drop_drop, show 8 + 8 * n = 8 * (n + 1) by omega] at read
    omega

theorem chksumTail_carries {len k total n} (st : Nat × List UInt8) (even : k % 2 = 0 ∨ k = 1) (pos : 0 < k)
    (left : st.2.length = len % (2 * k)) (sum : Carries 64 n st.1) (covers : n + chksumSum st.2 = total) (fits : k ≤ 8) :
    (chksumTail len k st).2.length = len % k ∧
      ∃ m, Carries 64 m (chksumTail len k st).1 ∧ m + chksumSum (chksumTail len k st).2 = total := by
  have digits : len % (2 * k) = len % k + k * (len / k % 2) := by rw [Nat.mul_comm, Nat.mod_mul]
  unfold chksumTail
  split
  · rename_i bit
    rw [bit, Nat.mul_one] at digits
    refine ⟨by rw [length_drop]; omega, _, sum.addCarry (by decide) (leValue_carries (by rw [length_take]; omega)), ?_⟩
    rcases even with even | rfl
    · rw [Nat.add_assoc, chksumSum_split st.2 even, covers]
    · have short : st.2.length ≤ 1 := by omega
      rw [take_of_length_le short, drop_of_length_le short, chksumSum, Nat.add_zero]
      exact covers
  · rename_i bit
    rw [show len / k % 2 = 0 by omega] at digits
    exact ⟨by omega, n, sum, covers⟩

theorem chksumInternetAsm_eq (bytes : List UInt8) : chksumInternetAsm bytes = chksumInternet bytes := by
  obtain ⟨n, quads, covers⟩ := chksumQuads_carries (bytes.length / 8) bytes (Carries.refl (n := 0 + 0) (by decide))
  rw [← Nat.mod_eq_of_lt quads.bound] at quads
  have rest : (bytes.drop (8 * (bytes.length / 8))).length = bytes.length % (2 * 4) := by
    rw [length_drop]
    omega
  obtain ⟨left, n, sum, covers⟩ := chksumTail_carries (k := 4) (_, _) (Or.inl rfl) (by decide) rest quads covers (by decide)
  obtain ⟨left, n, sum, covers⟩ := chksumTail_carries (k := 2) _ (Or.inl rfl) (by decide) left sum covers (by decide)
  obtain ⟨left, n, sum, covers⟩ := chksumTail_carries (k := 1) _ (Or.inr rfl) (by decide) left sum covers (by decide)
  rw [Nat.mod_one, length_eq_zero_iff] at left
  rw [left, chksumSum, Nat.add_zero, Nat.add_zero, Nat.zero_add] at covers
  subst covers
  exact congrArg (65535 - ·) (((sum.halve (w := 32) (by decide)).halve (w := 16) (by decide)).unique (foldCarry_carries le_rfl))

/-! ## Storing the checksum -/

/-- The assembly and the loop agree on every buffer, and a buffer whose field at an even offset
holds the checksum taken with the field zeroed has the checksum zero. -/
theorem chksum_agrees_and_verifies :
    (∀ bytes, chksumInternetAsm bytes = chksumInternet bytes) ∧
      ∀ xs ys : List UInt8, xs.length % 2 = 0 →
        chksumInternet (xs ++ leBytes 2 (chksumInternet (xs ++ [0, 0] ++ ys)) ++ ys) = 0 := by
  refine ⟨chksumInternetAsm_eq, fun xs ys even => ?_⟩
  have zeroed : chksumSum (xs ++ [0, 0] ++ ys) = chksumSum xs + chksumSum ys := by
    rw [List.append_assoc, chksumSum_append _ _ even]
    simp [chksumSum]
  have old := foldCarry_carries (le_refl (chksumSum (xs ++ [0, 0] ++ ys)))
  have sum : chksumInternet (xs ++ [0, 0] ++ ys) + foldCarry _ (chksumSum (xs ++ [0, 0] ++ ys)) = 65535 :=
    Nat.sub_add_cancel (Nat.le_of_lt_succ old.bound)
  generalize chksumInternet (xs ++ [0, 0] ++ ys) = field at sum ⊢
  have value : chksumSum (leBytes 2 field) = field := by
    have low : (UInt8.ofNat field).toNat = field % 256 := UInt8.toNat_ofNat'
    have high : (UInt8.ofNat (field / 256)).toNat = field / 256 % 256 := UInt8.toNat_ofNat'
    simp only [leBytes, chksumSum, low, high]
    omega
  have new := foldCarry_carries (le_refl (chksumSum (xs ++ leBytes 2 field ++ ys)))
  have stored : chksumSum (xs ++ leBytes 2 field ++ ys) = chksumSum (xs ++ [0, 0] ++ ys) + field := by
    rw [List.append_assoc, chksumSum_append _ _ even, chksumSum_append _ _ (by rw [leBytes_length]), value, zeroed]
    omega
  rw [chksumInternet]
  obtain ⟨bound, congr, zero⟩ := old
  obtain ⟨bound', congr', zero'⟩ := new
  generalize foldCarry _ (chksumSum (xs ++ leBytes 2 field ++ ys)) = result at *
  -- The new sum is a multiple of 65535 and not zero.
  omega

end Reflex.Net
