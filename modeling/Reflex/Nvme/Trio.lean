import Reflex.Nvme.Roster

/-!
# Three flows on one thread

A latency-critical flow and two best-effort flows that register from boot, and runs of submissions and rounds
on them that can be evaluated. A registration is not evaluated, since it searches the whole table: where the search finds a
free slot, its result is written down.
-/

namespace Reflex.Nvme
open Lib List Registry

variable {cfg : Cfg} {s : NvmeState} {cpu i q : Nat} {flowGroupId : Int64} {slo : SLO}

/-- What an admitted registration leaves that finds slot `i` free. -/
def NvmeState.grantedAt (cfg : Cfg) (s : NvmeState) (cpu i : Nat) (flowGroupId : Int64) (slo : SLO) (q : Nat) : NvmeState :=
  let candidate := (s.setBit i true).setFg i (fillFlowGroup cfg (s.nvmeFgs i) cpu flowGroupId 0 slo)
  linkFlow { s with toRegistry := publishRates (candidate.counted cfg i) } cpu i 0 slo q

theorem next_of_new (found : s.search cpu flowGroupId = .nextAvail i) (admitted : ¬ s.Refused cfg cpu flowGroupId 0 slo) :
    (RegOp.register cpu flowGroupId 0 slo (some q)).next cfg s = s.grantedAt cfg cpu i flowGroupId slo q := by
  have granted := congrArg Prod.snd (register_granted admitted q)
  rw [prepareFlow_of_new found, slotFor_of_new found, candidate_of_new found] at granted
  exact granted

theorem grantedAt_bitmap : (s.grantedAt cfg cpu i flowGroupId slo q).nvmeFgsBitmap = Function.update s.nvmeFgsBitmap i true := by
  simp [NvmeState.grantedAt, linkFlow, NvmeState.post, NvmeState.setManager, NvmeState.setSwq]

/-- Two threads, and the device of `flatCfg` with a rate of a billion tokens per second. -/
def modelCfg : Cfg := { flatCfg with devModel := [⟨1000, 10 ^ 9, 10 ^ 9⟩], cpusActive := 2 }

/-- A reservation that becomes a credit of twenty tokens per microsecond. -/
def readerSLO : SLO := ⟨1000, 200000000000, 100⟩

def trioCalls : List RegOp :=
  [.nvmeOpen 0 (2 ^ 40) 512, .register 0 1 0 readerSLO (some 0), .register 0 2 0 bestEffortSLO (some 1),
    .register 0 3 0 bestEffortSLO (some 2)]

def openState : NvmeState := (RegOp.nvmeOpen 0 (2 ^ 40) 512).next modelCfg coldState

def readerState : NvmeState := openState.grantedAt modelCfg 0 1 1 readerSLO 0

def duoState : NvmeState := readerState.grantedAt modelCfg 0 2 2 bestEffortSLO 1

/-- Queue 0 is the reader's, queues 1 and 2 are the best-effort flows'. -/
def trioState : NvmeState := duoState.grantedAt modelCfg 0 3 3 bestEffortSLO 2

/-- In a table whose slots `1 .. i - 1` are the ones allocated, and hold other flows, a flow is given slot `i`. -/
theorem search_next (lower : 1 ≤ i) (few : i ≤ 3) (allocated : ∀ j, s.nvmeFgsBitmap j = decide (1 ≤ j ∧ j < i))
    (others : ∀ j < i, s.holds cpu flowGroupId j = false) : s.search cpu flowGroupId = .nextAvail i := by
  refine search_eq_nextAvail lower (few.trans_lt (by unfold maxNvmeFlowGroups; decide)) (by simp [allocated]) (fun j above below => ?_)
    fun j _ _ => ?_
  · simp [allocated, above, below]
  · rcases Nat.lt_or_ge j i with early | late
    · exact others j early
    · simp [Registry.holds, allocated, late]

theorem grantedAt_slots {j : Nat} (lower : 1 ≤ i) (allocated : ∀ j, s.nvmeFgsBitmap j = decide (1 ≤ j ∧ j < i)) :
    (s.grantedAt cfg cpu i flowGroupId slo q).nvmeFgsBitmap j = decide (1 ≤ j ∧ j < i + 1) := by
  rw [grantedAt_bitmap, Function.update_apply, allocated]
  split
  · exact (decide_eq_true (by omega)).symm
  · exact decide_eq_decide.mpr (by omega)

theorem openState_slots {j : Nat} : openState.nvmeFgsBitmap j = decide (1 ≤ j ∧ j < 1) := (decide_eq_false (by omega)).symm

theorem openState_search : openState.search 0 1 = .nextAvail 1 :=
  search_next le_rfl (by decide) (fun _ => openState_slots) (by decide +kernel)

theorem trio_registered {P : NvmeState → RegOp → Prop} (meets : ∀ s, ∀ op ∈ trioCalls, P s op) :
    Run (Guarded (RegStep modelCfg) P) coldState trioCalls trioState := by
  have one (j) : readerState.nvmeFgsBitmap j = decide (1 ≤ j ∧ j < 2) := grantedAt_slots le_rfl fun _ => openState_slots
  have two (j) : duoState.nvmeFgsBitmap j = decide (1 ≤ j ∧ j < 3) := grantedAt_slots (by decide) one
  have first : openState.search 0 1 = .nextAvail 1 := openState_search
  have second : readerState.search 0 2 = .nextAvail 2 := search_next (by decide) (by decide) one (by decide +kernel)
  have third : duoState.search 0 3 = .nextAvail 3 := search_next (by decide) (by decide) two (by decide +kernel)
  have admitted : ¬ openState.Refused modelCfg 0 1 0 readerSLO := by
    rw [Registry.Refused, candidate_of_new first, slotFor_of_new first]
    decide +kernel
  have effort : ∀ {s : NvmeState} {k}, ¬ s.Refused modelCfg 0 k 0 bestEffortSLO := fun refused => refused_critical refused rfl
  have met := fun s => forall_mem_cons.1 (meets s)
  exact .cons ⟨⟨trivial, rfl⟩, (met _).1⟩
    (.cons ⟨⟨fresh_of_free rfl, (next_of_new first admitted).symm⟩, (met _).2 _ (.head _)⟩
      (.cons ⟨⟨fresh_of_free rfl, (next_of_new second effort).symm⟩, (met _).2 _ (.tail _ (.head _))⟩
        (.single ⟨⟨fresh_of_free rfl, (next_of_new third effort).symm⟩, (met _).2 _ (.tail _ (.tail _ (.head _)))⟩)))

/-- The same, as calls of a run that also submits and schedules. -/
theorem trio_history {P : NvmeState → IoOp → Prop} (meets : ∀ s r, P s (.reg r)) :
    Run (Guarded (IoStep modelCfg) P) coldState (trioCalls.map .reg) trioState :=
  (trio_registered (P := fun _ _ => True) fun _ _ _ => trivial).map (f := id) fun _ _ _ step => ⟨step.1.io, meets _ _⟩

/-! ## Running calls -/

/-- Submissions and rounds that return, each with a test of the states around it. -/
def exec (cfg : Cfg) (test : NvmeState → IoOp → NvmeState → Bool) (s : NvmeState) : List IoOp → Option NvmeState
  | [] => some s
  | .reg _ :: _ => none
  | op :: ops => (op.run cfg s).bind fun result => if test s op result.2 then exec cfg test result.2 ops else none

theorem run_of_exec {step : NvmeState → IoOp → NvmeState → Prop} {test : NvmeState → IoOp → NvmeState → Bool}
    {ops : List IoOp} {t : NvmeState} (done : exec cfg test s ops = some t)
    (sound : ∀ s op t, test s op t = true → (∀ r, op ≠ .reg r) → IoStep cfg s op t → step s op t) : Run step s ops t := by
  induction ops generalizing s with
  | nil =>
    obtain rfl : s = t := Option.some.inj done
    exact .nil s
  | cons op ops ih =>
    have fixed : ∀ r, op ≠ .reg r := by
      rintro r rfl
      cases done
    have call : ((op.run cfg s).bind fun result => if test s op result.2 then exec cfg test result.2 ops else none) = some t := by
      cases op with
      | reg r => cases done
      | _ => exact done
    obtain ⟨⟨ret, u⟩, called, rest⟩ := Option.bind_eq_some_iff.1 call
    by_cases pass : test s op u = true
    · rw [if_pos pass] at rest
      exact .cons (sound s op u pass fixed ⟨ret, fun r same => absurd same (fixed r), called⟩) (ih rest)
    · rw [if_neg pass] at rest
      cases rest

/-- A state that is reached, with a value that is computed from it. -/
theorem exec_computes {α : Type} {test : NvmeState → IoOp → NvmeState → Bool} {ops : List IoOp} {f : NvmeState → α} {a : α}
    (value : (exec cfg test s ops).map f = some a) : ∃ t, exec cfg test s ops = some t ∧ f t = a :=
  Option.map_eq_some_iff.1 value

/-- Requests of both best-effort flows, and rounds. Shares and savings pay for the first two requests; the donation of the reader
pays for the third, and for the fourth tokens are saved. -/
def trioOps : List IoOp :=
  [.read 0 2 0 0 1 7 (some .zero), .write 0 2 0 0 1 7 (some .zero), .sched 0 10 400, .sched 0 20 800, .sched 0 30 1200, .sched 0 40 1600,
    .write 0 3 0 0 1 7 (some .zero), .write 0 3 0 0 1 8 (some .zero), .sched 0 50 2000]

end Reflex.Nvme
