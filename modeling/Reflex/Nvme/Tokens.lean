import Reflex.Lib.Ledger
import Reflex.Nvme.RoundRobin
import Reflex.Nvme.Trio

/-!
# Best-effort work is paid for

The tokens of best-effort tenants come from their shares of the rate and from what latency-critical tenants
give away. They are held in the shared bucket, in the hand of the thread that has a round and as the savings
of queues, and are spent on requests.
-/

namespace Reflex.Nvme
open Lib NvmeState

variable {s t : NvmeState} {cfg : Cfg} {ctx : NvmeCtx}

/-! ## The accounts -/

/-- The cost of a request issued for a best-effort tenant. -/
@[simp] def SchedEvent.cost : SchedEvent → ℤ
  | .beIssue _ ctx _ => ctx.reqCost
  | _ => 0

/-- The share of the rate that a best-effort tenant is given. -/
@[simp] def SchedEvent.increment : SchedEvent → ℕ
  | .beIncrement _ tokens => tokens
  | _ => 0

/-- What a latency-critical tenant gives away. -/
@[simp] def SchedEvent.donation : SchedEvent → ℕ
  | .lcDonate _ tokens => tokens
  | _ => 0

def spent (trace : List SchedEvent) : ℤ := (trace.map SchedEvent.cost).sum

def incremented (trace : List SchedEvent) : ℕ := (trace.map SchedEvent.increment).sum

def donated (trace : List SchedEvent) : ℕ := (trace.map SchedEvent.donation).sum

@[simp] theorem spent_append (trace : List SchedEvent) (e : SchedEvent) : spent (trace ++ [e]) = spent trace + e.cost := by
  simp [spent]

@[simp] theorem incremented_append (trace : List SchedEvent) (e : SchedEvent) :
    incremented (trace ++ [e]) = incremented trace + e.increment := by
  simp [incremented]

@[simp] theorem donated_append (trace : List SchedEvent) (e : SchedEvent) : donated (trace ++ [e]) = donated trace + e.donation := by
  simp [donated]

/-- `be_tokens` stays non-negative: it pays for a non-negative cost, or for what is saved. -/
def SchedEvent.Covered : SchedEvent → Prop
  | .beIssue _ ctx beTokens => 0 ≤ ctx.reqCost ∧ ctx.reqCost ≤ beTokens
  | .beSave _ tokens beTokens => tokens ≤ beTokens
  | _ => True

/-- The tokens that queue `q` has saved, if it serves a best-effort tenant. -/
def NvmeState.saved (s : NvmeState) (q : Nat) : Nat := if s.critical q then 0 else (s.swqs q).savedTokens

inductive Account where
  | bucket
  | hand
  | savings (q : Nat)
  deriving DecidableEq

/-- The ledger of a state and the tokens in hand. -/
def ledger (a : NvmeState × Nat) : Ledger Account where
  funded := incremented a.1.trace + donated a.1.trace
  spent := spent a.1.trace
  held
    | .bucket => a.1.globalLeftoverTokens
    | .hand => a.2
    | .savings q => a.1.saved q

section Fields

variable (a : NvmeState × Nat)

@[simp] theorem ledger_spent : (ledger a).spent = spent a.1.trace := rfl

@[simp] theorem ledger_funded : (ledger a).funded = incremented a.1.trace + donated a.1.trace := rfl

@[simp] theorem ledger_bucket : (ledger a).held .bucket = a.1.globalLeftoverTokens := rfl

@[simp] theorem ledger_hand : (ledger a).held .hand = a.2 := rfl

@[simp] theorem ledger_savings (q : Nat) : (ledger a).held (.savings q) = a.1.saved q := rfl

end Fields

section Saved

variable {q : Nat}

theorem saved_le (same : SameTenants s t) (less : (t.swqs q).savedTokens ≤ (s.swqs q).savedTokens) : t.saved q ≤ s.saved q := by
  unfold saved
  rw [same.critical]
  split
  · exact le_refl 0
  · exact less

theorem saved_of_effort (effort : s.critical q = false) : s.saved q = (s.swqs q).savedTokens := by
  simp [saved, effort]

end Saved

/-! ## Requests have a price -/

/-- The pending requests of a queue have costs that fit a non-negative `int`. -/
def NvmeSwQueue.Priced (q : NvmeSwQueue) : Prop := q.Wf ∧ ∀ ctx ∈ q.pending, 0 ≤ ctx.reqCost ∧ ctx.reqCost < 2 ^ 31

theorem NvmeSwQueue.Priced.pop {q q' : NvmeSwQueue} (priced : q.Priced)
    (pop : nvmeSwQueuePopFront q = some (ctx, q')) : q'.Priced ∧ 0 ≤ ctx.reqCost ∧ ctx.reqCost < 2 ^ 31 :=
  NvmeSwQueue.Holds.pop priced pop

theorem nvmeComputeReqCost_lt (cfg : Cfg) (cmd : NvmeCmd) (len : Nat) : nvmeComputeReqCost cfg cmd len < 2 ^ 31 := by
  unfold nvmeComputeReqCost
  split
  · decide
  · cases cmd
    · exact Int.bmod_lt (by decide)
    · exact Int.bmod_lt (by decide)

/-! ## The actions of a round -/

section Actions

variable {cpu : Nat} {a b : NvmeState × Nat}

theorem Act.priced (act : Act cfg cpu a b) (all : ∀ k, (a.1.swqs k).Priced) : ∀ k, (b.1.swqs k).Priced := act.holds all

theorem saveTokens_le (q : NvmeSwQueue) (tokens : Nat) :
    (nvmeSwQueueSaveTokens q tokens).1 ≤ tokens ∧
      (nvmeSwQueueSaveTokens q tokens).2.savedTokens ≤ q.savedTokens + (nvmeSwQueueSaveTokens q tokens).1 := by
  unfold nvmeSwQueueSaveTokens
  split
  · exact ⟨Nat.zero_le _, Nat.zero_le _⟩
  · split
    · exact ⟨le_refl _, wadd_le _ _ _⟩
    · rename_i enough
      exact ⟨not_lt.1 enough, wadd_le _ _ _⟩

theorem paid_cost (cost : 0 ≤ ctx.reqCost ∧ ctx.reqCost < 2 ^ 31) : (wofInt 64 ctx.reqCost : ℤ) = ctx.reqCost := by
  rw [wofInt_of_lt cost.1 (by have := cost.2; norm_num at this ⊢; omega), Int.toNat_of_nonneg cost.1]

theorem Act.logs (act : Act cfg cpu a b) (all : ∀ k, (a.1.swqs k).Priced) :
    b.1.trace = a.1.trace ∨ ∃ e : SchedEvent, e.Covered ∧ b.1.trace = a.1.trace ++ [e] := by
  cases act with
  | lcCredit q tokens => exact .inr ⟨.lcIncrement q tokens, trivial, rfl⟩
  | @lcIssue s n q ctx swq member pop =>
    obtain ⟨usys, answered⟩ := issueNvmeReq_usys cfg (s.setSwq q { swq with tokenCredit := swq.tokenCredit - ctx.reqCost }) cpu ctx
    rw [answered]
    exact .inr ⟨.lcIssue q ctx, trivial, rfl⟩
  | @lcDonate s n m given q credit gain fits => exact .inr ⟨.lcDonate q given, trivial, rfl⟩
  | acquire available => exact .inl rfl
  | beTake member effort => exact .inl rfl
  | beIncrement q tokens => exact .inr ⟨.beIncrement q tokens, trivial, rfl⟩
  | @beIssue s n q ctx swq member pop paid =>
    obtain ⟨usys, answered⟩ := issueNvmeReq_usys cfg (s.setSwq q swq) cpu ctx
    rw [answered]
    obtain ⟨-, cost⟩ := (all q).pop pop
    refine .inr ⟨.beIssue q ctx n, ⟨cost.1, ?_⟩, rfl⟩
    rw [← paid_cost cost]
    exact_mod_cast paid
  | @beSave s n q member effort => exact .inr ⟨_, (saveTokens_le _ _).1, rfl⟩
  | give => exact .inl rfl
  | tick now tsc demand leftover scheduled less inList => exact .inl rfl

theorem setSwq_saved_le {q} {swq : NvmeSwQueue} (less : swq.savedTokens ≤ (s.swqs q).savedTokens) (k : Nat) :
    ((s.setSwq q swq).swqs k).savedTokens ≤ (s.swqs k).savedTokens := by
  rcases eq_or_ne k q with rfl | same
  · simpa [setSwq] using less
  · simp [setSwq, same]

theorem solvent_of_le (before : (ledger a).Solvent) (same : SameTenants a.1 b.1)
    (funds : incremented b.1.trace + donated b.1.trace = incremented a.1.trace + donated a.1.trace)
    (costs : spent b.1.trace = spent a.1.trace) (bucket : b.1.globalLeftoverTokens ≤ a.1.globalLeftoverTokens) (hand : b.2 ≤ a.2)
    (savings : ∀ q, (b.1.swqs q).savedTokens ≤ (a.1.swqs q).savedTokens) : (ledger b).Solvent := by
  refine before.lose ?_ costs fun k => ?_
  · simp only [ledger]
    exact_mod_cast funds
  · cases k with
    | bucket => exact bucket
    | hand => exact hand
    | savings q => exact saved_le same (savings q)

theorem Act.solvent (act : Act cfg cpu a b) (all : ∀ k, (a.1.swqs k).Priced) (before : (ledger a).Solvent) : (ledger b).Solvent := by
  have same := act.sameTenants
  cases act with
  | lcCredit q tokens =>
    exact solvent_of_le before same (by simp) (by simp) (le_refl _) (le_refl _) (setSwq_saved_le (le_refl _))
  | @lcIssue s n q ctx swq member pop =>
    obtain ⟨usys, answered⟩ := issueNvmeReq_usys cfg (s.setSwq q { swq with tokenCredit := swq.tokenCredit - ctx.reqCost }) cpu ctx
    rw [answered] at same ⊢
    obtain ⟨-, -, saved, -⟩ := popFront_spec (all q).1 pop
    exact solvent_of_le before same (by simp) (by simp) (le_refl _) (le_refl _) (setSwq_saved_le (le_of_eq saved))
  | @lcDonate s n m given q credit gain fits =>
    have kept : ∀ j, ((s.setSwq q { s.swqs q with tokenCredit := credit }).swqs j).savedTokens ≤ (s.swqs j).savedTokens :=
      setSwq_saved_le (le_refl _)
    refine before.fund (n := given) .hand ?_ ?_ fun k => ?_
    · simp
      ring
    · simp
    · cases k with
      | bucket => simp [log, setSwq]
      | hand => simpa using gain
      | savings j => simpa using saved_le same (kept j)
  | @acquire s n bucket taken available =>
    refine before.move (i := .bucket) (j := .hand) (n := taken) (by simp) ?_ rfl rfl fun k => ?_
    · simp only [ledger_bucket]
      omega
    · cases k with
      | bucket =>
        simp only [ledger_bucket, Function.update_of_ne, ne_eq, reduceCtorEq, not_false_eq_true, Function.update_self]
        omega
      | hand => simpa using wadd_le 64 n taken
      | savings j => simpa using saved_le same (le_refl _)
  | @beTake s n q member effort =>
    refine before.move (i := .savings q) (j := .hand) (n := (s.swqs q).savedTokens) (by simp) ?_ rfl rfl fun k => ?_
    · rw [ledger_savings, saved_of_effort effort]
    · cases k with
      | bucket => simp [setSwq]
      | hand => simpa using wadd_le 64 n (s.swqs q).savedTokens
      | savings j =>
        rcases eq_or_ne j q with rfl | own
        · rw [ledger_savings, saved_of_effort ((same.critical j).trans effort)]
          simp [setSwq, nvmeSwQueueTakeSavedTokens]
        · simpa [own] using saved_le same (setSwq_saved_le (Nat.zero_le _) j)
  | @beIncrement s n q tokens =>
    refine before.fund (n := tokens) .hand ?_ ?_ fun k => ?_
    · simp
      ring
    · simp
    · cases k with
      | bucket => simp [log]
      | hand => simpa using wadd_le 64 n tokens
      | savings j => simpa using saved_le same (le_refl _)
  | @beIssue s n q ctx swq member pop paid =>
    obtain ⟨usys, answered⟩ := issueNvmeReq_usys cfg (s.setSwq q swq) cpu ctx
    rw [answered] at same ⊢
    obtain ⟨-, -, saved, -⟩ := popFront_spec (all q).1 pop
    obtain ⟨-, cost⟩ := (all q).pop pop
    refine before.spend (n := wofInt 64 ctx.reqCost) .hand paid (by simp) ?_ fun k => ?_
    · rw [paid_cost cost]
      simp
    · cases k with
      | bucket => simp [log, setSwq]
      | hand => simpa using wsub_le paid
      | savings j => simpa using saved_le same (setSwq_saved_le (le_of_eq saved) j)
  | @beSave s n q member effort =>
    obtain ⟨kept, saved⟩ := saveTokens_le (s.swqs q) n
    refine before.move (i := .hand) (j := .savings q) (n := (nvmeSwQueueSaveTokens (s.swqs q) n).1) (by simp) kept (by simp)
      (by simp) fun k => ?_
    cases k with
    | bucket => simp [log, setSwq]
    | hand => simpa using wsub_le kept
    | savings j =>
      rcases eq_or_ne j q with rfl | own
      · rw [ledger_savings, saved_of_effort ((same.critical j).trans effort), Function.update_self, ledger_savings,
          saved_of_effort effort]
        simpa [log, setSwq] using saved
      · simpa [own] using saved_le same (le_of_eq (by simp [log, setSwq, own]))
  | @give s n =>
    refine before.move (i := .hand) (j := .bucket) (n := n) (by simp) (le_refl _) rfl rfl fun k => ?_
    cases k with
    | bucket => simpa [giveGlobalTokens] using wadd_le 64 s.globalLeftoverTokens n
    | hand => simp
    | savings j => simpa using saved_le same (le_refl _)
  | tick now tsc demand leftover scheduled less inList =>
    exact solvent_of_le before same rfl rfl less (le_refl _) fun _ => le_refl _

end Actions

/-! ## Runs -/

/-- What holds of a state and the tokens in hand: at no point has more been spent than
funded, and the accounts hold no more than the rest. -/
structure Paid (a : NvmeState × Nat) : Prop where
  priced : ∀ q, (a.1.swqs q).Priced
  solvent : (ledger a).Solvent
  covered : ∀ e ∈ a.1.trace, e.Covered
  always : ∀ p, p <+: a.1.trace → spent p ≤ incremented p + donated p

theorem Paid.logged {a b : NvmeState × Nat} (before : Paid a) (priced : ∀ q, (b.1.swqs q).Priced) (solvent : (ledger b).Solvent)
    (log : b.1.trace = a.1.trace ∨ ∃ e : SchedEvent, e.Covered ∧ b.1.trace = a.1.trace ++ [e]) : Paid b := by
  rcases log with same | ⟨e, covered, more⟩
  · exact ⟨priced, solvent, same ▸ before.covered, same ▸ before.always⟩
  · have whole : spent b.1.trace ≤ incremented b.1.trace + donated b.1.trace := by simpa using solvent ∅
    rw [more] at whole
    refine ⟨priced, solvent, fun x mem => ?_, fun p initial => ?_⟩
    · rw [more, List.mem_append, List.mem_singleton] at mem
      rcases mem with old | rfl
      · exact before.covered x old
      · exact covered
    · rw [more] at initial
      rcases List.prefix_concat_iff.1 initial with rfl | earlier
      · exact whole
      · exact before.always p earlier

theorem Act.paid {cpu a b} (act : Act cfg cpu a b) (before : Paid a) : Paid b :=
  before.logged (act.priced before.priced) (act.solvent before.priced before.solvent) (act.logs before.priced)

/-- The call is a submission with a non-negative cost, or a round. -/
structure IoOp.Serves (cfg : Cfg) (s : NvmeState) (op : IoOp) : Prop where
  fixed : ∀ r, op ≠ .reg r
  cost : ∀ ctx, op.request cfg s = some ctx → 0 ≤ ctx.reqCost

theorem IoOp.request_cost_lt {op : IoOp} (built : op.request cfg s = some ctx) :
    ctx.reqCost < 2 ^ 31 := by
  have fits : ∀ cpu cmd fill h lba lbaCount cookie alloc,
      requested cfg s cpu cmd fill h lba lbaCount cookie alloc = some ctx → ctx.reqCost < 2 ^ 31 := by
    intro cpu cmd fill h lba lbaCount cookie alloc request
    obtain ⟨_, _, rfl⟩ := Option.map_eq_some_iff.1 request
    exact nvmeComputeReqCost_lt _ _ _
  cases op with
  | reg r => cases built
  | write cpu h vaddr lba lbaCount cookie alloc => exact fits _ _ _ _ _ _ _ _ built
  | read cpu h vaddr lba lbaCount cookie alloc => exact fits _ _ _ _ _ _ _ _ built
  | writev cpu h buf numSgls lba lbaCount cookie alloc => exact fits _ _ _ _ _ _ _ _ built
  | readv cpu h buf numSgls lba lbaCount cookie alloc => exact fits _ _ _ _ _ _ _ _ built
  | sched cpu now tsc => cases built

theorem Submits.paid {request ret} (submits : Submits cfg s request ret t)
    (cost : ∀ ctx, request = some ctx → 0 ≤ ctx.reqCost ∧ ctx.reqCost < 2 ^ 31) (before : Paid (s, 0)) : Paid (t, 0) := by
  have same := submits.sameTenants
  cases submits with
  | refused => exact before
  | @queued ctx q swq built queue push =>
    obtain ⟨-, -, saved, -⟩ := pushBack_spec (before.priced q).1 push
    have solvent : (ledger (s.setSwq q swq, 0)).Solvent :=
      solvent_of_le before.solvent same rfl rfl (le_refl _) (le_refl _) (setSwq_saved_le (le_of_eq saved))
    exact before.logged (setSwq_all before.priced (NvmeSwQueue.Holds.push (before.priced q) (cost ctx built) push)) solvent (.inl rfl)
  | @direct ctx cmd lba lbaCount payload off =>
    have solvent : (ledger (s.log (.direct ctx cmd lba lbaCount payload), 0)).Solvent :=
      solvent_of_le before.solvent same (by simp) (by simp) (le_refl _) (le_refl _) fun _ => le_refl _
    exact before.logged before.priced solvent (.inr ⟨.direct ctx cmd lba lbaCount payload, trivial, rfl⟩)

theorem IoStep.paid {op} (step : Guarded (IoStep cfg) (IoOp.Serves cfg) s op t)
    (before : Paid (s, 0)) : Paid (t, 0) := by
  obtain ⟨⟨ret, returns⟩, serves⟩ := step
  rcases returns.inv with ⟨r, reg, -⟩ | submits | ⟨cpu, now, tsc, -, round⟩
  · exact absurd reg (serves.fixed r)
  · exact submits.paid (fun ctx built => ⟨serves.cost ctx built, IoOp.request_cost_lt built⟩) before
  · exact (nvmeSched_acts round).invariant (fun _ _ act => act.paid) before

/-- No token has been handed out: what registration calls alone lead to. -/
structure Unspent (s : NvmeState) : Prop where
  trace : s.trace = []
  bucket : s.globalLeftoverTokens = 0
  saved : ∀ q, (s.swqs q).savedTokens = 0
  priced : ∀ q, (s.swqs q).Priced

theorem RegStep.unspent {op} (step : RegStep cfg s op t) (before : Unspent s) : Unspent t := by
  obtain ⟨-, rfl⟩ := step
  obtain ⟨trace, bucket, queues⟩ := RegOp.next_queues cfg s op
  refine ⟨trace.trans before.trace, bucket.trans before.bucket, fun q => ?_, op.next_holds cfg before.priced⟩
  rcases queues q with same | ⟨k, h, empty⟩
  · rw [same, before.saved q]
  · rw [empty]
    rfl

theorem registrations_unspent {now tsc ops}
    (run : Run (RegStep cfg) (init now tsc) ops s) : Unspent s :=
  run.invariant (fun _ _ _ => RegStep.unspent) ⟨rfl, rfl, fun _ => rfl, fun _ => NvmeSwQueue.Holds.init _ .zero 0⟩

theorem Unspent.paid (unspent : Unspent s) : Paid (s, 0) := by
  refine ⟨unspent.priced, fun accounts => ?_, fun e mem => ?_, fun p initial => ?_⟩
  · have nothing : ∀ i ∈ accounts, (ledger (s, 0)).held i = 0 := by
      intro i _
      cases i with
      | bucket => exact unspent.bucket
      | hand => rfl
      | savings q => simp [NvmeState.saved, unspent.saved q]
    rw [Finset.sum_eq_zero nothing]
    simp [unspent.trace, spent, incremented, donated]
  · rw [unspent.trace] at mem
    exact absurd mem List.not_mem_nil
  · rw [unspent.trace, List.prefix_nil] at initial
    subst initial
    simp [spent, incremented, donated]

/-- With any tenants, submissions of non-negative cost and rounds of any threads: what best-effort requests have
cost, what best-effort queues have saved and what is in the shared bucket is no more than the shares and the
donations handed out, at every point. -/
theorem best_effort_work_paid {cfg : Cfg} {s₀ s : NvmeState} {ops : List IoOp} (unspent : Unspent s₀)
    (run : Run (Guarded (IoStep cfg) (IoOp.Serves cfg)) s₀ ops s) :
    (∀ queues : Finset Nat,
      spent s.trace + (∑ q ∈ queues with s.critical q = false, (s.swqs q).savedTokens : ℕ) + s.globalLeftoverTokens ≤
        incremented s.trace + donated s.trace) ∧
      (∀ p, p <+: s.trace → spent p ≤ incremented p + donated p) ∧ ∀ e ∈ s.trace, e.Covered := by
  have paid : Paid (s, 0) := run.invariant (I := fun s => Paid (s, 0)) (fun _ _ _ => IoStep.paid) unspent.paid
  refine ⟨fun queues => ?_, paid.always, paid.covered⟩
  have accounts := paid.solvent (insert .bucket ((queues.filter fun q => s.critical q = false).image .savings))
  rw [Finset.sum_insert (by simp), Finset.sum_image fun _ _ _ _ => Account.savings.inj] at accounts
  have savings : ∑ q ∈ queues with s.critical q = false, (ledger (s, 0)).held (.savings q) =
      ∑ q ∈ queues with s.critical q = false, (s.swqs q).savedTokens :=
    Finset.sum_congr rfl fun q mem => saved_of_effort (Finset.mem_filter.1 mem).2
  rw [savings, ledger_bucket, ledger_spent, ledger_funded] at accounts
  push_cast at accounts ⊢
  linarith

/-- Three requests are issued for 2100 tokens, 720 tokens are donated and the last round saves for the request that waits. -/
theorem trio_work_paid :
    ∃ s, Run (RegStep modelCfg) coldState trioCalls trioState ∧
      Run (Guarded (IoStep modelCfg) (IoOp.Serves modelCfg)) trioState trioOps s ∧
      spent s.trace = 2100 ∧ donated s.trace = 720 ∧ 0 < (s.swqs 2).savedTokens ∧
      spent s.trace + (∑ q ∈ {0, 1, 2} with s.critical q = false, (s.swqs q).savedTokens : ℕ) + s.globalLeftoverTokens ≤
        incremented s.trace + donated s.trace := by
  have registered := (trio_registered (P := fun _ _ => True) fun _ _ _ => trivial).unguarded
  obtain ⟨s, done, values⟩ := exec_computes (f := fun s => (spent s.trace, donated s.trace, decide (0 < (s.swqs 2).savedTokens)))
    (a := (2100, 720, true)) (show (exec modelCfg (fun s op _ => (op.request modelCfg s).all fun ctx => decide (0 ≤ ctx.reqCost))
      trioState trioOps).map _ = _ by decide +kernel)
  have run : Run (Guarded (IoStep modelCfg) (IoOp.Serves modelCfg)) trioState trioOps s := by
    refine run_of_exec done fun u op v pass fixed step => ⟨step, fixed, fun ctx built => ?_⟩
    rw [built] at pass
    exact of_decide_eq_true pass
  simp only [Prod.mk.injEq] at values
  obtain ⟨issued, gifts, saves⟩ := values
  exact ⟨s, registered, run, issued, gifts, of_decide_eq_true saves, (best_effort_work_paid (registrations_unspent registered) run).1 _⟩

end Reflex.Nvme
