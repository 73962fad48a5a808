import Reflex.Lib.CasLoop
import Reflex.Nvme.Shares

/-!
# The shared token bucket

`global_leftover_tokens` is shared by all threads. Tokens are taken in a compare-and-swap loop
(`try_acquire_global_tokens`), given by an atomic addition, and thrown away by a plain write when every thread
has had a round.
-/

namespace Reflex.Nvme
open Lib List Function

/-! ## The sequential bucket -/

inductive BucketOp where
  | acquire (tokenDemand : Nat)
  | give (tokens : Nat)
  | clear
  deriving DecidableEq, Repr

/-- What an operation returns, and the level after it. -/
def bucketApply : BucketOp → Nat → Nat × Nat
  | .acquire tokenDemand, level => if level < tokenDemand then (level, 0) else (tokenDemand, wsub 64 level tokenDemand)
  | .give tokens, level => (level, wadd 64 level tokens)
  | .clear, _ => (0, 0)

theorem tryAcquireGlobalTokens_eq (s : NvmeState) (tokenDemand : Nat) :
    tryAcquireGlobalTokens s tokenDemand = ((bucketApply (.acquire tokenDemand) s.globalLeftoverTokens).1,
      { s with globalLeftoverTokens := (bucketApply (.acquire tokenDemand) s.globalLeftoverTokens).2 }) := by
  simp only [tryAcquireGlobalTokens, bucketApply]
  split_ifs with scarce
  · rfl
  · rfl

theorem giveGlobalTokens_eq (s : NvmeState) (tokens : Nat) :
    giveGlobalTokens s tokens = { s with globalLeftoverTokens := (bucketApply (.give tokens) s.globalLeftoverTokens).2 } := rfl

/-- The tokens given and taken since the bucket was last cleared. -/
structure Totals where
  given : Nat
  taken : Nat

def Totals.after {ι : Type*} (totals : Totals) (e : Effect ι BucketOp Nat) : Totals :=
  match e.op with
  | .acquire _ => { totals with taken := totals.taken + e.result }
  | .give tokens => { totals with given := totals.given + tokens }
  | .clear => ⟨0, 0⟩

/-- The level is covered by what was given and not taken, and is exactly that unless more
tokens were given than a word holds. -/
structure Totals.Covers (totals : Totals) (level : Nat) : Prop where
  word : level < 2 ^ 64
  covered : level + totals.taken ≤ totals.given
  exactly : totals.given < 2 ^ 64 → level + totals.taken = totals.given

section Sequential

variable {ι : Type*} {totals : Totals} {level level' : Nat} {e : Effect ι BucketOp Nat} {log : List (Effect ι BucketOp Nat)}

theorem Totals.Covers.step (covers : totals.Covers level) (performs : Performs bucketApply level e level') :
    (totals.after e).Covers level' := by
  obtain ⟨i, op, result⟩ := e
  obtain ⟨word, covered, exactly⟩ := covers
  cases op with
  | acquire tokenDemand =>
    simp only [Performs, bucketApply] at performs
    split at performs
    · obtain ⟨rfl, rfl⟩ := Prod.mk.inj performs
      refine ⟨by norm_num, ?_, fun fits => ?_⟩
      · show 0 + (totals.taken + level) ≤ totals.given
        omega
      · have same := exactly fits
        show 0 + (totals.taken + level) = totals.given
        omega
    · rename_i enough
      obtain ⟨rfl, rfl⟩ := Prod.mk.inj performs
      have less : wsub 64 level tokenDemand = level - tokenDemand := wsub_of_le (not_lt.1 enough) word
      refine ⟨wsub_lt _ _ _, ?_, fun fits => ?_⟩
      · show wsub 64 level tokenDemand + (totals.taken + tokenDemand) ≤ totals.given
        omega
      · have same := exactly fits
        show wsub 64 level tokenDemand + (totals.taken + tokenDemand) = totals.given
        omega
  | give tokens =>
    obtain ⟨-, rfl⟩ := Prod.mk.inj performs
    have most := wadd_le 64 level tokens
    refine ⟨wadd_lt _ _ _, ?_, fun fits => ?_⟩
    · show wadd 64 level tokens + totals.taken ≤ totals.given + tokens
      omega
    · have room : totals.given + tokens < 2 ^ 64 := fits
      have same := exactly (by omega)
      have sum : wadd 64 level tokens = level + tokens := wadd_of_lt (by omega)
      show wadd 64 level tokens + totals.taken = totals.given + tokens
      omega
  | clear =>
    obtain ⟨-, rfl⟩ := Prod.mk.inj performs
    exact ⟨by norm_num, le_refl _, fun _ => rfl⟩

theorem Totals.Covers.run (covers : totals.Covers level) (run : Run (Performs bucketApply) level log level') :
    (log.foldl Totals.after totals).Covers level' := by
  induction run generalizing totals with
  | nil => exact covers
  | cons performs _ ih => exact ih (covers.step performs)

end Sequential

/-! ## Whole rounds -/

/-- At the end of a round of thread `cpu` every active thread has an entry in the vector. -/
def NvmeState.clears (cfg : Cfg) (s : NvmeState) (cpu : Nat) : Prop :=
  ∀ i < cfg.cpusActive, Function.update s.scheduledBitVector cpu (s.scheduledBitVector cpu + 1) i ≠ 0

instance (cfg : Cfg) (s : NvmeState) (cpu : Nat) : Decidable (s.clears cfg cpu) :=
  inferInstanceAs (Decidable (∀ i < cfg.cpusActive, _))

theorem updateScheduledBitvector_of_clears {cfg} {s : NvmeState} {cpu} (clears : s.clears cfg cpu) :
    (updateScheduledBitvector cfg s cpu).globalLeftoverTokens = (bucketApply .clear s.globalLeftoverTokens).2 ∧
      ∀ i < cfg.cpusActive, (updateScheduledBitvector cfg s cpu).scheduledBitVector i = 0 := by
  have all : (range cfg.cpusActive).all (fun i =>
      decide (update s.scheduledBitVector cpu (s.scheduledBitVector cpu + 1) i ≠ 0)) = true := by
    rw [all_eq_true]
    intro i mem
    exact decide_eq_true (clears i (mem_range.1 mem))
  unfold updateScheduledBitvector
  simp only [all, if_true]
  exact ⟨rfl, fun i active => if_pos active⟩

theorem updateScheduledBitvector_of_waits {cfg} {s : NvmeState} {cpu} (waits : ¬ s.clears cfg cpu) :
    updateScheduledBitvector cfg s cpu =
      { s with scheduledBitVector := update s.scheduledBitVector cpu (s.scheduledBitVector cpu + 1) } := by
  have some : ¬ (range cfg.cpusActive).all (fun i =>
      decide (update s.scheduledBitVector cpu (s.scheduledBitVector cpu + 1) i ≠ 0)) = true := by
    rw [all_eq_true]
    intro all
    refine waits fun i active => ?_
    exact of_decide_eq_true (all i (mem_range.2 active))
  unfold updateScheduledBitvector
  simp only [if_neg some]

section Vector

variable {cfg : Cfg} {cpu timeDelta timeDeltaCycles now tsc : Nat} {s t : NvmeState}

theorem subround1_vector (rings : ∀ k, (s.swqs k).Wf) (l : List Nat) (leftover demand : Nat) :
    (l.foldl (subround1Queue cfg cpu timeDelta) (s, leftover, demand)).1.scheduledBitVector = s.scheduledBitVector := by
  induction l generalizing s leftover demand with
  | nil => rfl
  | cons k l ih =>
    rw [foldl_cons]
    unfold subround1Queue
    simp only
    split
    · obtain ⟨serves, -⟩ := serveLc_spec cfg cpu timeDelta (rings k) leftover
      have serving := serveLc_serving cfg cpu timeDelta leftover (rings k)
      exact (ih (serving.rings rings) _ _).trans serves.scheduled
    · exact ih rings _ _

theorem subround2_vector (rings : ∀ k, (s.swqs k).Wf) (l : List Nat) (n : Nat) :
    (l.foldl (serveBe cfg cpu timeDeltaCycles) (s, n)).1.scheduledBitVector = s.scheduledBitVector := by
  induction l generalizing s n with
  | nil => rfl
  | cons k l ih =>
    rw [foldl_cons]
    cases kind : s.critical k with
    | true =>
      have step : serveBe cfg cpu timeDeltaCycles (s, n) k = (s, n) := by simp [serveBe, kind]
      rw [step]
      exact ih rings n
    | false =>
      obtain ⟨events, serving⟩ := serveBe_serving cfg cpu timeDeltaCycles n (rings k) kind
      exact (ih (serving.rings rings) _).trans serving.scheduled

theorem endSubround2_vector {n} (ends : endSubround2 s cpu n = some t) : t.scheduledBitVector = s.scheduledBitVector := by
  unfold endSubround2 at ends
  simp only [Option.map_eq_some_iff] at ends
  obtain ⟨u, moved, rfl⟩ := ends
  have start : u.scheduledBitVector = s.scheduledBitVector := by
    split at moved
    · obtain ⟨rr, -, rfl⟩ := Option.map_eq_some_iff.1 moved
      rfl
    · cases moved
      rfl
  split
  · exact start
  · exact start

theorem nvmeSchedSubround2_vector (rings : ∀ k, (s.swqs k).Wf) (ends : nvmeSchedSubround2 cfg s cpu tsc = some t) :
    t.scheduledBitVector = s.scheduledBitVector := by
  unfold nvmeSchedSubround2 at ends
  simp only at ends
  split at ends
  · cases ends
    rfl
  · obtain ⟨level, n, hand, -⟩ := beTokensInHand_eq s (s.localLeftoverTokens cpu) (s.localExtraDemand cpu)
    rw [hand, serveAllBe_eq] at ends
    refine (endSubround2_vector ends).trans (subround2_vector (s := { s with
      globalLeftoverTokens := level
      lastSchedTimeBe := update s.lastSchedTimeBe cpu tsc }) rings _ n)

theorem nvmeSched_vector (tallied : ∀ k, (s.swqs k).Tallied) (round : nvmeSched cfg s cpu now tsc = some t) :
    ∃ u, t = updateScheduledBitvector cfg u cpu ∧ u.scheduledBitVector = s.scheduledBitVector ∧
      if (s.nvmeTenantManager cpu).numTenants = 0 then u.globalLeftoverTokens = s.globalLeftoverTokens else
        ∃ v, nvmeSchedSubround2 cfg (nvmeSchedSubround1 cfg s cpu now) cpu tsc = some v ∧ u.globalLeftoverTokens = v.globalLeftoverTokens := by
  unfold nvmeSched at round
  split at round
  · rename_i none
    cases round
    refine ⟨_, rfl, rfl, ?_⟩
    rw [if_pos none]
  · obtain ⟨v, ends, rfl⟩ := Option.map_eq_some_iff.1 round
    have first : (nvmeSchedSubround1 cfg s cpu now).scheduledBitVector = s.scheduledBitVector :=
      subround1_vector (s := s.atTime cpu now) (fun k => (tallied k).wf) _ 0 0
    have served : ∀ k, ((nvmeSchedSubround1 cfg s cpu now).swqs k).Tallied := (nvmeSchedSubround1_acts cfg cpu s now).tallied tallied
    rename_i some
    refine ⟨_, rfl, (nvmeSchedSubround2_vector (fun k => (served k).wf) ends).trans first, ?_⟩
    rw [if_neg some]
    exact ⟨v, ends, rfl⟩

end Vector

/-- The threads that have completed a round since the bucket was last cleared. -/
def IoOp.completed (cfg : Cfg) (s : NvmeState) (done : List Nat) : IoOp → List Nat
  | .sched cpu _ _ => if s.clears cfg cpu then [] else done ++ [cpu]
  | _ => done

/-- Whole calls, with the threads that have completed a round. -/
def TurnStep (cfg : Cfg) (a : NvmeState × List Nat) (op : IoOp) (b : NvmeState × List Nat) : Prop :=
  IoStep cfg a.1 op b.1 ∧ b.2 = op.completed cfg a.1 a.2

/-- Only threads that have completed a round have an entry in the vector. -/
structure Scheduled (cfg : Cfg) (a : NvmeState × List Nat) : Prop where
  accounted : Accounted cfg a.1
  entries : ∀ i < cfg.cpusActive, a.1.scheduledBitVector i ≠ 0 → i ∈ a.2

section Turns

variable {cfg : Cfg} {a b : NvmeState × List Nat} {op : IoOp}

theorem Submits.vector {s t request ret} (submits : Submits cfg s request ret t) :
    t.scheduledBitVector = s.scheduledBitVector := by
  cases submits with
  | refused => rfl
  | queued built queue push => rfl
  | direct off => rfl

theorem next_vector (cfg : Cfg) (s : NvmeState) (r : RegOp) : (r.next cfg s).scheduledBitVector = s.scheduledBitVector := by
  cases r with
  | register cpu flowGroupId cookie slo swq => exact (register_steady cfg s cpu flowGroupId cookie slo swq).scheduled
  | unregister cpu h => exact (unregister_steady cfg s cpu h).scheduled
  | nvmeOpen cpu nsSize nsSectorSize =>
    simp only [RegOp.next, RegOp.run, bsysNvmeOpen]
    split
    · rfl
    · rfl

theorem TurnStep.scheduled (step : TurnStep cfg a op b) (before : Scheduled cfg a) : Scheduled cfg b := by
  obtain ⟨call, done⟩ := step
  have accounted := before.accounted.step call
  have unchanged : b.1.scheduledBitVector = a.1.scheduledBitVector → b.2 = a.2 → Scheduled cfg b := by
    intro vector threads
    refine ⟨accounted, ?_⟩
    rw [vector, threads]
    exact before.entries
  obtain ⟨ret, returns⟩ := call
  rcases op_cases op with ⟨r, rfl⟩ | ⟨cpu, now, tsc, rfl⟩ | ⟨h, target⟩
  · obtain ⟨-, same⟩ := returns.registers
    exact unchanged (same ▸ next_vector cfg a.1 r) done
  · obtain ⟨t, round, same⟩ := Option.map_eq_some_iff.1 returns.2
    cases same
    obtain ⟨u, ends, vector, -⟩ := nvmeSched_vector before.accounted.tallied round
    refine ⟨accounted, fun i active => ?_⟩
    have clears : u.clears cfg cpu ↔ a.1.clears cfg cpu := by rw [NvmeState.clears, NvmeState.clears, vector]
    rw [IoOp.completed] at done
    rw [ends, done]
    split
    · rename_i full
      have empty := (updateScheduledBitvector_of_clears (clears.2 full)).2 i active
      exact fun entry => absurd empty entry
    · rename_i waits
      rw [updateScheduledBitvector_of_waits fun full => waits (clears.1 full)]
      simp only [vector]
      rcases eq_or_ne i cpu with rfl | other
      · exact fun _ => mem_append_right _ mem_cons_self
      · rw [update_of_ne other]
        exact fun some => mem_append_left _ (before.entries i active some)
  · refine unchanged (returns.submits target).vector ?_
    rw [done]
    cases op with
    | sched cpu now tsc => cases target
    | _ => rfl

theorem Scheduled.complete (scheduled : Scheduled cfg a) {cpu} (clears : a.1.clears cfg cpu) {i} (active : i < cfg.cpusActive) :
    i ∈ a.2 ++ [cpu] := by
  rcases eq_or_ne i cpu with rfl | other
  · exact mem_append_right _ mem_cons_self
  · have entry := clears i active
    rw [update_of_ne other] at entry
    exact mem_append_left _ (scheduled.entries i active entry)

end Turns

end Reflex.Nvme
