import Mathlib.Algebra.BigOperators.Ring.Finset
import Reflex.Lib.Tally
import Reflex.Nvme.Table

/-!
# The counters and the table

`global_LC_sum_token_rate`, `global_num_lc_tenants` and `global_num_best_effort_tenants`
are kept by addition and subtraction; here they are compared with the totals over the
connected flow groups. `Registry.Books` lets a counter run ahead of its total by a lost
amount, which is how a registration that counts its flow and then gets no queue ends.
-/

namespace Reflex.Nvme
open Lib Registry Finset

variable {r : Registry} {cfg : Cfg} {fg : FlowGroup} {c : Counter} {h : Nat}

inductive Counter where
  | sum
  | lc
  | be
  deriving DecidableEq

def Counter.read : Counter → Registry → Nat
  | .sum, r => r.globalLCSumTokenRate
  | .lc, r => r.globalNumLcTenants
  | .be, r => r.globalNumBestEffortTenants

/-- What one flow group adds to a counter. -/
def Counter.share : Counter → FlowGroup → Nat
  | .sum, fg => if fg.latencyCriticalFlag then fg.scaledIOPSLimit else 0
  | .lc, fg => if fg.latencyCriticalFlag then 1 else 0
  | .be, fg => if fg.latencyCriticalFlag then 0 else 1

/-- The share of a flow group while it is connected. -/
def Counter.due (c : Counter) (fg : FlowGroup) : Nat := if 0 < fg.connRefCount then c.share fg else 0

def Registry.total (r : Registry) (c : Counter) : Nat := ∑ h ∈ Finset.range maxNvmeFlowGroups, c.due (r.nvmeFgs h)

/-- The counter is its total over the connected flow groups plus a lost amount. -/
def Registry.Books (r : Registry) (c : Counter) (lost : Nat) : Prop := c.read r = r.total c + lost

/-- The connected latency-critical flow groups. -/
def Registry.lcFlows (r : Registry) : Finset Nat :=
  (Finset.range maxNvmeFlowGroups).filter fun h => r.Live h ∧ (r.nvmeFgs h).latencyCriticalFlag = true

def Registry.beFlows (r : Registry) : Finset Nat :=
  (Finset.range maxNvmeFlowGroups).filter fun h => r.Live h ∧ (r.nvmeFgs h).latencyCriticalFlag = false

structure Registry.Accounted (r : Registry) : Prop where
  sum : r.globalLCSumTokenRate = ∑ h ∈ r.lcFlows, (r.nvmeFgs h).scaledIOPSLimit
  lc : r.globalNumLcTenants = r.lcFlows.card
  be : r.globalNumBestEffortTenants = r.beFlows.card

theorem total_sum (r : Registry) : r.total .sum = ∑ h ∈ r.lcFlows, (r.nvmeFgs h).scaledIOPSLimit := by
  rw [lcFlows, sum_filter]
  apply sum_congr rfl
  intro h _
  by_cases live : 0 < (r.nvmeFgs h).connRefCount <;> simp [Counter.due, Counter.share, Registry.Live, live]

theorem total_lc (r : Registry) : r.total .lc = r.lcFlows.card := by
  rw [lcFlows, card_filter]
  apply sum_congr rfl
  intro h _
  by_cases live : 0 < (r.nvmeFgs h).connRefCount <;> simp [Counter.due, Counter.share, Registry.Live, live]

theorem total_be (r : Registry) : r.total .be = r.beFlows.card := by
  rw [beFlows, card_filter]
  apply sum_congr rfl
  intro h _
  by_cases live : 0 < (r.nvmeFgs h).connRefCount
  · cases flag : (r.nvmeFgs h).latencyCriticalFlag <;> simp [Counter.due, Counter.share, Registry.Live, live, flag]
  · simp [Counter.due, Registry.Live, live]

theorem accounted_of_books (books : ∀ c, r.Books c 0) : r.Accounted := by
  have sum := books .sum
  have lc := books .lc
  have be := books .be
  unfold Registry.Books at sum lc be
  rw [Nat.add_zero] at sum lc be
  exact ⟨sum.trans (total_sum r), lc.trans (total_lc r), be.trans (total_be r)⟩

/-! ## Shares and totals under the updates -/

theorem due_of_idle (idle : fg.connRefCount ≤ 0) : c.due fg = 0 := by
  rw [Counter.due, if_neg (by omega)]

theorem due_of_connected (connected : 0 < fg.connRefCount) : c.due fg = c.share fg := by
  rw [Counter.due, if_pos connected]

theorem share_congr (c : Counter) {fg' : FlowGroup} (flag : fg.latencyCriticalFlag = fg'.latencyCriticalFlag)
    (limit : fg.scaledIOPSLimit = fg'.scaledIOPSLimit) : c.share fg = c.share fg' := by
  cases c <;> simp only [Counter.share, flag, limit]

theorem due_congr (c : Counter) {fg' : FlowGroup} (conns : fg.connRefCount = fg'.connRefCount)
    (flag : fg.latencyCriticalFlag = fg'.latencyCriticalFlag) (limit : fg.scaledIOPSLimit = fg'.scaledIOPSLimit) :
    c.due fg = c.due fg' := by
  simp only [Counter.due, conns, share_congr c flag limit]

theorem share_le (wf : fg.Wf cfg h) (c : Counter) : c.share fg ≤ 2 ^ 45 := by
  have limit := fg.slo.limit_lt cfg
  rw [← wf.limit] at limit
  cases c <;> simp only [Counter.share] <;> split <;> omega

theorem total_le (wf : r.Wf cfg) (c : Counter) : r.total c ≤ 2 ^ 59 := by
  have each : ∀ h < maxNvmeFlowGroups, c.due (r.nvmeFgs h) ≤ 2 ^ 45 := by
    intro h _
    rw [Counter.due]
    split
    · exact share_le (wf.entries h) c
    · exact Nat.zero_le _
  have all := sum_range_le_mul each
  unfold maxNvmeFlowGroups at all
  unfold total maxNvmeFlowGroups
  omega

theorem total_congr {r' : Registry} (c : Counter) (same : ∀ h, c.due (r'.nvmeFgs h) = c.due (r.nvmeFgs h)) :
    r'.total c = r.total c := sum_congr rfl fun h _ => same h

theorem total_setFg (r : Registry) (c : Counter) (bound : h < maxNvmeFlowGroups) (fg : FlowGroup) :
    (r.setFg h fg).total c + c.due (r.nvmeFgs h) = r.total c + c.due fg := by
  have replaced := sum_replace (f := fun i => c.due (r.nvmeFgs i)) (g := fun i => c.due ((r.setFg h fg).nvmeFgs i))
    (mem_range.2 bound) fun i _ other => by simp [other]
  simpa only [setFg_self, total] using replaced

@[simp] theorem total_publishRates (r : Registry) (c : Counter) : (publishRates r).total c = r.total c :=
  total_congr c fun h => by rw [publishRates_fg]; exact due_congr c rfl rfl rfl

@[simp] theorem total_counted (cfg : Cfg) (r : Registry) (h : Nat) (c : Counter) : (r.counted cfg h).total c = r.total c :=
  total_congr c fun _ => by rw [counted_nvmeFgs]

@[simp] theorem total_uncounted (cfg : Cfg) (r : Registry) (h : Nat) (c : Counter) : (r.uncounted cfg h).total c = r.total c :=
  total_congr c fun _ => by rw [uncounted_nvmeFgs]

@[simp] theorem read_publishRates (r : Registry) (c : Counter) : c.read (publishRates r) = c.read r := by
  cases c <;> simp [Counter.read]

@[simp] theorem read_setFg (r : Registry) (h : Nat) (fg : FlowGroup) (c : Counter) : c.read (r.setFg h fg) = c.read r := by
  cases c <;> rfl

theorem read_lt (wf : r.Wf cfg) (c : Counter) : c.read r < 2 ^ 64 := by
  cases c with
  | sum => exact wf.sumFits
  | lc => exact wf.numLcFits
  | be => exact wf.numBeFits

theorem read_counted (wf : r.Wf cfg) (h : Nat) (c : Counter) :
    c.read (r.counted cfg h) = wadd 64 (c.read r) (c.share (r.nvmeFgs h)) := by
  have fits := read_lt wf c
  by_cases critical : (r.nvmeFgs h).latencyCriticalFlag = true
  · cases c <;> simp_all [Counter.read, Counter.share, counted, wadd_of_lt]
  · cases c <;> simp_all [Counter.read, Counter.share, counted, wadd_of_lt]

theorem read_uncounted (wf : r.Wf cfg) (h : Nat) (c : Counter) :
    c.read (r.uncounted cfg h) = wsub 64 (c.read r) (c.share (r.nvmeFgs h)) := by
  have fits := read_lt wf c
  by_cases critical : (r.nvmeFgs h).latencyCriticalFlag = true
  · cases c <;> simp_all [Counter.read, Counter.share, uncounted, wsub_of_le]
  · cases c <;> simp_all [Counter.read, Counter.share, uncounted, wsub_of_le]

/-! ## What each call does to the books -/

namespace Registry.Books

variable {lost : Nat}

theorem congr {r'} (books : r.Books c lost) (read : c.read r' = c.read r)
    (same : ∀ h, c.due (r'.nvmeFgs h) = c.due (r.nvmeFgs h)) : r'.Books c lost := by
  rw [Registry.Books, read, total_congr c same, books]

section

variable (books : r.Books c lost)
include books

theorem disconnected (wf : r.Wf cfg) (h : Nat) : (r.disconnected cfg h).Books c lost := by
  unfold Registry.disconnected
  by_cases last : (r.nvmeFgs h).connRefCount = 1
  · rw [if_pos last]
    have bound := (wf.entries h).inTable (by omega)
    have share : c.share ((r.dropConn h).nvmeFgs h) = c.due (r.nvmeFgs h) := by
      rw [due_of_connected (by omega)]
      exact share_congr c (by simp [Registry.dropConn]) (by simp [Registry.dropConn])
    have traded : (r.dropConn h).total c + c.due (r.nvmeFgs h) = r.total c := by
      have idle : c.due { r.nvmeFgs h with connRefCount := (r.nvmeFgs h).connRefCount - 1 } = 0 := due_of_idle (by simp [last])
      rw [Registry.dropConn, total_setFg r c bound, idle, Nat.add_zero]
    have count : c.read r = r.total c + lost := books
    have fits := read_lt wf c
    calc c.read ((r.dropConn h).released cfg h)
        = c.read ((r.dropConn h).uncounted cfg h) := by cases c <;> simp [Registry.released, Counter.read, Registry.setBit]
      _ = wsub 64 (c.read r) (c.due (r.nvmeFgs h)) := by
          rw [read_uncounted (wf.dropConn h), share]
          simp [Registry.dropConn]
      _ = (r.dropConn h).total c + lost := by
          rw [wsub_of_le (by omega) fits]
          omega
      _ = ((r.dropConn h).released cfg h).total c + lost := by
          have : ((r.dropConn h).released cfg h).total c = (publishRates ((r.dropConn h).uncounted cfg h)).total c := rfl
          rw [this, total_publishRates, total_uncounted]
  · rw [if_neg last]
    refine books.congr (read_setFg _ _ _ _) fun j => ?_
    rcases eq_or_ne j h with rfl | same
    · -- not the last connection: the count was not positive, and stays so
      have idle : (r.nvmeFgs j).connRefCount ≤ 0 := by have := (wf.entries j).conns; omega
      rw [due_of_idle idle, due_of_idle (by rw [dropConn_conns]; omega)]
    · rw [dropConn_of_ne r same]

theorem prepared (wf : r.Wf cfg) (cpu : Nat) (flowGroupId : Int64) (slo : SLO) :
    (r.prepared cfg cpu flowGroupId slo).Books c lost := by
  unfold Registry.prepared
  split
  · split
    · exact books.disconnected wf _
    · exact books
  · exact books.congr (by cases c <;> rfl) fun j => rfl

theorem candidate (wf : r.Wf cfg) {cpu flowGroupId}
    (spare : r.SpareSlot cpu flowGroupId) (cookie : UInt64) (slo : SLO) :
    (r.candidate cfg cpu flowGroupId cookie slo).Books c lost := by
  refine (books.prepared wf cpu flowGroupId slo).congr (read_setFg _ _ _ _) fun j => ?_
  rcases eq_or_ne j (r.slotFor cpu flowGroupId) with rfl | slot
  · rw [Registry.candidate, setFg_self]
    by_cases again : r.Reconnects cpu flowGroupId slo
    · obtain ⟨i, found, live, same⟩ := again
      have untouched : r.prepared cfg cpu flowGroupId slo = r := by simp [Registry.prepared, found, same]
      have slot : r.slotFor cpu flowGroupId = i := by simp [Registry.slotFor, found, SlotSearch.handle]
      rw [untouched, slot]
      refine due_congr c rfl ?_ ?_
      · rw [fillFlowGroup_critical, (wf.entries i).critical, same]
      · rw [fillFlowGroup_limit, (wf.entries i).limit, same]
    · have idle := prepared_idle wf spare again
      rw [due_of_idle idle, due_of_idle (by rw [fillFlowGroup_conns]; exact idle)]
  · rw [Registry.candidate, setFg_of_ne _ _ slot]

theorem granted (wf : r.Wf cfg) (bound : h < maxNvmeFlowGroups)
    (idle : (r.nvmeFgs h).connRefCount ≤ 0) (room : c.read r + c.share (r.nvmeFgs h) < 2 ^ 64) (q : Nat) :
    ((publishRates (r.counted cfg h)).connected h q).Books c lost := by
  have read : c.read ((publishRates (r.counted cfg h)).connected h q) = c.read r + c.share (r.nvmeFgs h) := by
    rw [connected, read_setFg, read_publishRates, read_counted wf, wadd_of_lt room]
  have traded := total_setFg (publishRates (r.counted cfg h)) c bound
    { (publishRates (r.counted cfg h)).nvmeFgs h with nvmeSwq := some q, connRefCount := 1 }
  rw [total_publishRates, total_counted, due_of_idle (by simpa using idle), due_of_connected Int.zero_lt_one] at traded
  have share : c.share { (publishRates (r.counted cfg h)).nvmeFgs h with nvmeSwq := some q, connRefCount := 1 } =
      c.share (r.nvmeFgs h) := share_congr c (by simp) (by simp)
  have total : ((publishRates (r.counted cfg h)).connected h q).total c = r.total c + c.share (r.nvmeFgs h) := by
    rw [connected, ← share, ← traded, Nat.add_zero]
  rw [Registry.Books] at books ⊢
  omega

theorem uncollected (wf : r.Wf cfg)
    (room : c.read r + c.share (r.nvmeFgs h) < 2 ^ 64) :
    (publishRates (r.counted cfg h)).Books c (lost + c.share (r.nvmeFgs h)) := by
  rw [Registry.Books, read_publishRates, read_counted wf, wadd_of_lt room, total_publishRates, total_counted, books,
    Nat.add_assoc]

end

end Registry.Books

/-- The calls that keep the counters exact. A registration must not take the slot of
another connected flow, must not count a connected flow a second time, and must get its
queue once it is counted. -/
def RegOp.Balanced (cfg : Cfg) (s : NvmeState) : RegOp → Prop
  | .register cpu flowGroupId cookie slo swq =>
    s.SpareSlot cpu flowGroupId ∧
      (¬ s.Refused cfg cpu flowGroupId cookie slo → ¬ s.Reconnects cpu flowGroupId slo ∧ swq ≠ none)
  | _ => True

theorem books_room (wf : r.Wf cfg) (books : r.Books c 0) (h : Nat) :
    c.read r + c.share (r.nvmeFgs h) < 2 ^ 64 := by
  have total := total_le wf c
  have share := share_le (wf.entries h) c
  rw [books, Nat.add_zero]
  omega

theorem RegStep.books {s t op} (step : Guarded (RegStep cfg) (RegOp.Balanced cfg) s op t)
    (wf : s.Wf cfg) (books : s.Books c 0) : t.Books c 0 := by
  obtain ⟨⟨-, rfl⟩, ok⟩ := step
  cases op with
  | register cpu flowGroupId cookie slo swq =>
    obtain ⟨spare, admitted⟩ := ok
    have candidate := books.candidate wf spare cookie slo
    have candidateWf := wf.candidate cpu flowGroupId cookie slo
    rw [next_register]
    unfold registered
    simp only
    by_cases refused : s.Refused cfg cpu flowGroupId cookie slo
    · rw [if_pos refused]
      exact candidate.congr (by cases c <;> rfl) fun j => rfl
    · rw [if_neg refused]
      obtain ⟨new, queue⟩ := admitted refused
      cases swq with
      | none => exact absurd rfl queue
      | some q =>
        have idle := candidate_conns cfg s.toRegistry cpu flowGroupId cookie slo ▸ prepared_idle wf spare new
        exact candidate.granted candidateWf (search_handle_lt _ _ _) idle (books_room candidateWf candidate _) q
  | unregister cpu h =>
    rw [next_unregister]
    exact books.disconnected wf h
  | nvmeOpen cpu nsSize nsSectorSize =>
    simp only [RegOp.next, RegOp.run, bsysNvmeOpen]
    split
    · exact books
    · exact books.congr (by cases c <;> rfl) fun j => rfl

theorem init_books (c : Counter) : init.Books c 0 := by
  have total : init.total c = 0 := sum_eq_zero fun h _ => due_of_idle (by simp [init, FlowGroup.zero])
  rw [Registry.Books, total]
  cases c <;> rfl

end Reflex.Nvme
