import Reflex.Lib.Tally

/-!
# Ledgers

Amounts held in accounts, next to the totals that were ever funded and spent. A ledger is solvent if what was
spent and what any accounts hold together was funded.
-/

namespace Reflex.Lib

open Finset Function

structure Ledger (ι : Type*) where
  funded : ℤ
  spent : ℤ
  held : ι → ℕ

namespace Ledger

variable {ι : Type*} {l l' : Ledger ι}

def Solvent (l : Ledger ι) : Prop := ∀ s : Finset ι, l.spent + (∑ i ∈ s, l.held i : ℕ) ≤ l.funded

theorem Solvent.lose (before : l.Solvent) (funded : l'.funded = l.funded) (spent : l'.spent = l.spent)
    (held : ∀ k, l'.held k ≤ l.held k) : l'.Solvent := by
  intro s
  have total := sum_le_sum fun k (_ : k ∈ s) => held k
  have solvent := before s
  omega

variable [DecidableEq ι] {i j : ι} {n : ℕ}

theorem solvent_of_mem (i : ι) (with_i : ∀ s, i ∈ s → l.spent + (∑ k ∈ s, l.held k : ℕ) ≤ l.funded) : l.Solvent := by
  intro s
  have more := with_i (insert i s) (mem_insert_self i s)
  have less : ∑ k ∈ s, l.held k ≤ ∑ k ∈ insert i s, l.held k := sum_le_sum_of_subset (subset_insert i s)
  omega

theorem sum_update {f : ι → ℕ} {s : Finset ι} (mem : i ∈ s) (v : ℕ) :
    ∑ k ∈ s, update f i v k + f i = ∑ k ∈ s, f k + v := by
  have traded := sum_replace (f := f) (g := update f i v) mem fun k _ other => update_of_ne other v f
  rwa [update_self] at traded

namespace Solvent

theorem fund (before : l.Solvent) (i : ι) (funded : l'.funded = l.funded + n) (spent : l'.spent = l.spent)
    (held : ∀ k, l'.held k ≤ update l.held i (l.held i + n) k) : l'.Solvent := by
  apply solvent_of_mem i
  intro s mem
  have total := sum_le_sum fun k (_ : k ∈ s) => held k
  have traded := sum_update (f := l.held) mem (l.held i + n)
  have solvent := before s
  omega

theorem spend (before : l.Solvent) (i : ι) (enough : n ≤ l.held i) (funded : l'.funded = l.funded)
    (spent : l'.spent = l.spent + n) (held : ∀ k, l'.held k ≤ update l.held i (l.held i - n) k) : l'.Solvent := by
  apply solvent_of_mem i
  intro s mem
  have total := sum_le_sum fun k (_ : k ∈ s) => held k
  have traded := sum_update (f := l.held) mem (l.held i - n)
  have solvent := before s
  omega

theorem move (before : l.Solvent) (apart : i ≠ j) (enough : n ≤ l.held i) (funded : l'.funded = l.funded)
    (spent : l'.spent = l.spent)
    (held : ∀ k, l'.held k ≤ update (update l.held i (l.held i - n)) j (l.held j + n) k) : l'.Solvent := by
  have paid : Solvent { l with spent := l.spent + n, held := update l.held i (l.held i - n) } :=
    before.spend i enough rfl rfl fun _ => le_rfl
  intro s
  refine solvent_of_mem j (fun s mem => ?_) s
  have total := sum_le_sum fun k (_ : k ∈ s) => held k
  have traded := sum_update (f := update l.held i (l.held i - n)) mem (l.held j + n)
  rw [update_of_ne apart.symm] at traded
  have solvent := paid s
  simp only at solvent
  omega

end Solvent

end Ledger

end Reflex.Lib
