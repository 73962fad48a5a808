import Reflex.Nvme.Reserved

/-!
# The pages of a vectored request

The callbacks `sgl_reset_cb` and `sgl_next_cb`, from which the device library learns the pages of a buffer, one after
the other. `memory` is the word at an address.
-/

namespace Reflex.Nvme
open Lib List IoOp

def sglPageSize : Nat := 4096

def sglResetCb (ctx : NvmeCtx) (sglOffset : Nat) : NvmeCtx := { ctx with currentSgl := Int32.ofNat (sglOffset / sglPageSize) }

/-- The address of element `i` of the array `sgl`. -/
def sglEntry (sgl : UInt64) (i : Int) : UInt64 := sgl + UInt64.ofInt (8 * i)

/-- The next page of the buffer; `none` is `assert(0)`. -/
def sglNextCb (memory : UInt64 → UInt64) (ctx : NvmeCtx) : Option (UInt64 × NvmeCtx) :=
  if ctx.numSgls ≤ ctx.currentSgl then none
  else some (memory (sglEntry ctx.userBuf ctx.currentSgl.toInt), { ctx with currentSgl := ctx.currentSgl + 1 })

def sglPages (memory : UInt64 → UInt64) : Nat → NvmeCtx → Option (List UInt64)
  | 0, _ => some []
  | n + 1, ctx =>
    match sglNextCb memory ctx with
    | none => none
    | some (address, ctx) => (sglPages memory n ctx).map (address :: ·)

/-- The bytes of a transfer through one buffer. -/
def plainBytes (bytes : Nat) (vaddr : UInt64) : List UInt64 := (List.range bytes).map fun k => vaddr + UInt64.ofNat k

/-! ## The walk over the pages -/

section Walk

variable {memory : UInt64 → UInt64}

theorem succ_toInt {i n : Int32} (below : i.toInt < n.toInt) : (i + 1).toInt = i.toInt + 1 := by
  have least := Int32.le_toInt i
  have most := Int32.toInt_lt n
  rw [Int32.toInt_add]
  exact Int.bmod_eq_of_le (by show _ ≤ i.toInt + 1; omega) (by show i.toInt + 1 < _; omega)

/-- From page `i` on the walk reads entry after entry, as long as the list has them. -/
theorem sglPages_eq (n : Nat) (ctx : NvmeCtx) (i : Nat) (start : ctx.currentSgl.toInt = i) :
    sglPages memory n ctx =
      if ∀ p < n, ((i + p : Nat) : Int) < ctx.numSgls.toInt then
        some ((range n).map fun p => memory (sglEntry ctx.userBuf (i + p : Nat)))
      else none := by
  induction n generalizing ctx i with
  | zero => simp [sglPages]
  | succ n ih =>
    rw [sglPages, sglNextCb]
    by_cases ends : ctx.numSgls ≤ ctx.currentSgl
    · have short : ¬ ∀ p < n + 1, ((i + p : Nat) : Int) < ctx.numSgls.toInt := by
        intro all
        have first := all 0 (by omega)
        rw [Int32.le_iff_toInt_le] at ends
        omega
      rw [if_pos ends, if_neg short]
    · rw [if_neg ends]
      rw [Int32.le_iff_toInt_le, not_le] at ends
      have next : (ctx.currentSgl + 1).toInt = (i + 1 : Nat) := by
        rw [succ_toInt ends, start]
        rfl
      have rest : (∀ p < n + 1, ((i + p : Nat) : Int) < ctx.numSgls.toInt) ↔ ∀ p < n, ((i + 1 + p : Nat) : Int) < ctx.numSgls.toInt := by
        constructor
        · intro all p small
          have later := all (p + 1) (by omega)
          omega
        · intro all p small
          rcases p with _ | p
          · omega
          · have later := all p (by omega)
            omega
      have later := ih { ctx with currentSgl := ctx.currentSgl + 1 } (i + 1) next
      simp only [later, start, rest]
      split_ifs
      · rw [Option.map_some, range_succ_eq_map, map_cons, map_map]
        simp only [Nat.add_zero, Option.some.injEq, cons.injEq, true_and]
        apply map_congr_left
        intro p _
        show memory (sglEntry ctx.userBuf ((i + 1 + p : Nat) : Int)) = memory (sglEntry ctx.userBuf ((i + (p + 1) : Nat) : Int))
        rw [Nat.add_right_comm, Nat.add_assoc]
      · rfl

end Walk

/-! ## Resetting the walk -/

/-- The bytes that address and length pairs denote, one after the other. -/
def sglBytes (pages : List UInt64) : List UInt64 := pages.flatMap (plainBytes sglPageSize)

theorem sglBytes_length (pages : List UInt64) : (sglBytes pages).length = sglPageSize * pages.length := by
  simp [sglBytes, plainBytes, Nat.mul_comm]

/-- The entries from page `i` on. -/
def sglFrom (memory : UInt64 → UInt64) (ctx : NvmeCtx) (i n : Nat) : List UInt64 :=
  (List.range n).map fun p => memory (sglEntry ctx.userBuf (i + p : Nat))

theorem sglPages_reset (memory : UInt64 → UInt64) {ctx : NvmeCtx} {n offset : Nat} (entries : ctx.numSgls.toInt = n)
    (inside : offset < sglPageSize * n) (k : Nat) :
    sglPages memory k (sglResetCb ctx offset) =
      if k ≤ n - offset / sglPageSize then some (sglFrom memory ctx (offset / sglPageSize) k) else none := by
  have page : offset / sglPageSize < n := Nat.div_lt_of_lt_mul inside
  have most := Int32.toInt_lt ctx.numSgls
  have start : (sglResetCb ctx offset).currentSgl.toInt = (offset / sglPageSize : Nat) :=
    Int32.toInt_ofNat_of_lt (by show _ < 2 ^ 31; omega)
  rw [sglPages_eq k _ _ start]
  apply if_congr _ rfl rfl
  show (∀ p < k, ((offset / sglPageSize + p : Nat) : Int) < ctx.numSgls.toInt) ↔ _
  rw [entries]
  constructor
  · intro all
    rcases k with _ | k
    · exact Nat.zero_le _
    · have last := all k (Nat.lt_succ_self k)
      omega
  · intro short p below
    omega

/-- After a reset to `offset`, whatever the context was used for before, the pairs denote the
bytes from `offset` to the end of the pages exactly if `offset` begins a page: the callbacks
start again at the page that holds it. -/
theorem reset_describes_rest_iff (memory : UInt64 → UInt64) (ctx : NvmeCtx) (n offset : Nat) (entries : ctx.numSgls.toInt = n)
    (inside : offset < sglPageSize * n) :
    ∃ pages, sglPages memory (n - offset / sglPageSize) (sglResetCb ctx offset) = some pages ∧
      sglPages memory (n - offset / sglPageSize + 1) (sglResetCb ctx offset) = none ∧
      (sglBytes pages = (sglBytes (sglFrom memory ctx 0 n)).drop offset ↔ sglPageSize ∣ offset) := by
  have page : offset / sglPageSize < n := Nat.div_lt_of_lt_mul inside
  have whole : sglFrom memory ctx 0 n = sglFrom memory ctx 0 (offset / sglPageSize) ++
      sglFrom memory ctx (offset / sglPageSize) (n - offset / sglPageSize) := by
    conv_lhs => rw [sglFrom, ← Nat.add_sub_cancel' page.le, List.range_add, List.map_append, List.map_map]
    simp only [sglFrom, Function.comp_def, Nat.zero_add]
  have length : ∀ i k, (sglBytes (sglFrom memory ctx i k)).length = sglPageSize * k := fun i k => by
    rw [sglBytes_length, sglFrom, List.length_map, List.length_range]
  refine ⟨_, by rw [sglPages_reset memory entries inside, if_pos le_rfl], ?_, fun same => ?_, ?_⟩
  · rw [sglPages_reset memory entries inside, if_neg (by omega)]
  · have sizes := congrArg List.length same
    rw [length, List.length_drop, length] at sizes
    apply Nat.dvd_of_mod_eq_zero
    unfold sglPageSize at *
    omega
  · rintro ⟨i, rfl⟩
    rw [Nat.mul_div_cancel_left i (by decide)] at whole ⊢
    rw [whole, sglBytes, sglBytes, List.flatMap_append]
    exact (List.drop_left' (length 0 i)).symm

/-- A request with one page buffer, split by the library at its second sector. -/
theorem reset_inside_page_repeats_it : ∃ (ctx : NvmeCtx) (pages : List UInt64), ctx.numSgls.toInt = 1 ∧ 512 < sglPageSize * 1 ∧
    sglPages id (1 - 512 / sglPageSize) (sglResetCb ctx 512) = some pages ∧
    sglBytes pages ≠ (sglBytes (sglFrom id ctx 0 1)).drop 512 := by
  refine ⟨{ NvmeCtx.zero with numSgls := 1 }, [0], rfl, by decide, rfl, fun same => ?_⟩
  have sizes := congrArg List.length same
  rw [sglBytes_length, List.length_drop, sglBytes_length] at sizes
  exact absurd sizes (by decide)

theorem reset_to_second_page : ∃ pages, sglPages id 1 (sglResetCb { NvmeCtx.zero with numSgls := 2 } 4096) = some pages ∧
    sglBytes pages = (sglBytes (sglFrom id { NvmeCtx.zero with numSgls := 2 } 0 2)).drop 4096 := by
  obtain ⟨pages, some, -, same⟩ := reset_describes_rest_iff id { NvmeCtx.zero with numSgls := 2 } 2 4096 rfl (by decide)
  exact ⟨pages, some, same.2 ⟨1, rfl⟩⟩

end Reflex.Nvme
