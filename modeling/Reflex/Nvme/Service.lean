import Reflex.Lib.CreditQueue
import Reflex.Nvme.Requests

/-!
# What a round does for one queue

A round serves the queues of the thread's list one after the other.
-/

namespace Reflex.Nvme
open Lib List SchedEvent NvmeState NvmeSwQueue Option

/-! ## The events of a queue -/

def SchedEvent.queue : SchedEvent → Option Nat
  | .direct _ _ _ _ _ => none
  | .lcIncrement q _ | .lcIssue q _ | .lcDonate q _ | .beIncrement q _ | .beIssue q _ _ | .beSave q _ _ => some q

/-- The requests issued from queue `q`, in order. -/
def issuedBy (q : Nat) (trace : List SchedEvent) : List NvmeCtx :=
  (trace.filter fun e => e.queue = some q).filterMap SchedEvent.issued

theorem issuedBy_append (q : Nat) (trace events : List SchedEvent) :
    issuedBy q (trace ++ events) = issuedBy q trace ++ issuedBy q events := by
  simp [issuedBy]

theorem filter_other {q : Nat} {events : List SchedEvent} (others : ∀ e ∈ events, e.queue ≠ some q) :
    (events.filter fun e => e.queue = some q) = [] := by
  apply filter_eq_nil_iff.2
  intro e mem
  simpa using others e mem

theorem issuedBy_other {q : Nat} {events : List SchedEvent} (others : ∀ e ∈ events, e.queue ≠ some q) : issuedBy q events = [] := by
  rw [issuedBy, filter_other others, filterMap_nil]

theorem issuedBy_self {q events} (about : ∀ e ∈ events, e.queue = some q) :
    issuedBy q events = events.filterMap issued := by
  have all : (events.filter fun e => e.queue = some q) = events := by
    apply filter_eq_self.2
    intro e mem
    simp [about e mem]
  rw [issuedBy, all]

/-! ## One queue at a time -/

/-- The device queues and the sector size, which only `bsys_nvme_open` changes. -/
def NvmeState.device (s : NvmeState) : (Nat → Bool) × Int := (s.ioqBitmap, s.globalNsSectorSize)

/-- Between `s` and `t` only queue `q` was served, and `events` are about it. -/
structure ServesOnly (q : Nat) (events : List SchedEvent) (s t : NvmeState) : Prop where
  others : ∀ k, k ≠ q → t.swqs k = s.swqs k
  trace : t.trace = s.trace ++ events
  about : ∀ e ∈ events, e.queue = some q
  tenants : SameTenants s t
  clock : t.lastSchedTime = s.lastSchedTime
  device : t.device = s.device
  cycles : t.lastSchedTimeBe = s.lastSchedTimeBe
  bucket : t.globalLeftoverTokens = s.globalLeftoverTokens
  scheduled : t.scheduledBitVector = s.scheduledBitVector

namespace ServesOnly

variable {q : Nat} {s t u : NvmeState} {events more : List SchedEvent}

theorem refl (q : Nat) (s : NvmeState) : ServesOnly q [] s s :=
  ⟨fun _ _ => rfl, (append_nil _).symm, fun _ mem => absurd mem not_mem_nil, .refl s, rfl, rfl, rfl, rfl, rfl⟩

theorem trans (first : ServesOnly q events s t) (second : ServesOnly q more t u) : ServesOnly q (events ++ more) s u := by
  refine ⟨fun k other => (second.others k other).trans (first.others k other), ?_, fun e mem => ?_,
    first.tenants.trans second.tenants, second.clock.trans first.clock, second.device.trans first.device,
    second.cycles.trans first.cycles, second.bucket.trans first.bucket, second.scheduled.trans first.scheduled⟩
  · rw [second.trace, first.trace, append_assoc]
  · rcases mem_append.1 mem with mem | mem
    · exact first.about e mem
    · exact second.about e mem

theorem setSwq {swq : NvmeSwQueue} (handle : swq.fgHandle = (s.swqs q).fgHandle) : ServesOnly q [] s (s.setSwq q swq) := by
  refine ⟨fun k other => ?_, (append_nil _).symm, fun _ mem => absurd mem not_mem_nil, .setSwq s handle, rfl, rfl, rfl, rfl, rfl⟩
  simp [NvmeState.setSwq, other]

theorem log {e : SchedEvent} (about : e.queue = some q) : ServesOnly q [e] s (s.log e) := by
  refine ⟨fun _ _ => rfl, rfl, fun x mem => ?_, .log s e, rfl, rfl, rfl, rfl, rfl⟩
  rw [mem_singleton.1 mem]
  exact about

theorem issue (cfg : Cfg) (cpu : Nat) (ctx : NvmeCtx) (swq : NvmeSwQueue) {e : SchedEvent}
    (handle : swq.fgHandle = (s.swqs q).fgHandle) (about : e.queue = some q) :
    ServesOnly q [e] s ((issueNvmeReq cfg (s.setSwq q swq) cpu ctx).log e) ∧
      ((issueNvmeReq cfg (s.setSwq q swq) cpu ctx).log e).swqs q = swq := by
  obtain ⟨usys, answered⟩ := issueNvmeReq_usys cfg (s.setSwq q swq) cpu ctx
  have posted : ServesOnly q [] (s.setSwq q swq) { s.setSwq q swq with usys := usys } :=
    ⟨fun _ _ => rfl, (append_nil _).symm, fun _ mem => absurd mem not_mem_nil, ⟨rfl, rfl, rfl, fun _ => rfl⟩, rfl, rfl, rfl,
      rfl, rfl⟩
  rw [answered]
  refine ⟨((setSwq handle).trans posted).trans (log about), ?_⟩
  simp [NvmeState.log, NvmeState.setSwq]

theorem credit (s : NvmeState) (q : Nat) (c : ℤ) {e : SchedEvent} (about : e.queue = some q) :
    ServesOnly q [e] s ((s.setSwq q { s.swqs q with tokenCredit := c }).log e) ∧
      ((s.setSwq q { s.swqs q with tokenCredit := c }).log e).swqs q = { s.swqs q with tokenCredit := c } := by
  have written : ServesOnly q [] s (s.setSwq q { s.swqs q with tokenCredit := c }) := setSwq rfl
  refine ⟨written.trans (log about), ?_⟩
  simp [NvmeState.log, NvmeState.setSwq]

end ServesOnly

/-- A queue as the requests that wait and the credit of its tenant. -/
def NvmeSwQueue.onCredit (q : NvmeSwQueue) : CreditQueue NvmeCtx := ⟨q.pending, q.tokenCredit⟩

theorem pending_length (q : NvmeSwQueue) : q.pending.length = q.count := by
  simp [pending, RingBuf.contents]

theorem isempty_iff (q : NvmeSwQueue) : nvmeSwQueueIsempty q = true ↔ q.pending = [] := by
  rw [nvmeSwQueueIsempty, decide_eq_true_eq, ← pending_length, length_eq_zero_iff]

/-! ## A latency-critical queue -/

/-- `token_increment` of a queue for the time that has passed, before truncation. -/
def NvmeState.tokenIncrement (s : NvmeState) (q timeDelta : Nat) : ℚ :=
  (s.nvmeFgs (s.swqs q).fgHandle).scaledIOPuSLimit * timeDelta + 1 / 2

/-- The condition under which a latency-critical queue issues its oldest request. -/
def withinBurst (cfg : Cfg) (_ : NvmeCtx) (credit : ℤ) : Prop := -cfg.tokenDeficitLimit < credit

instance (cfg : Cfg) (ctx : NvmeCtx) (credit : ℤ) : Decidable (withinBurst cfg ctx credit) := inferInstanceAs (Decidable (_ < _))

/-- The requests a latency-critical queue issues and the queue when it stops, for a
`token_increment` of `x`. -/
def lcServe (cfg : Cfg) (x : ℚ) (b : CreditQueue NvmeCtx) : List NvmeCtx × CreditQueue NvmeCtx :=
  serve NvmeCtx.reqCost (withinBurst cfg) b.waiting (b.credit + truncToInt 64 x)

/-- The tokens given away at the end, if any. -/
def lcDonation (cfg : Cfg) (x : ℚ) (b : CreditQueue NvmeCtx) : Option Nat :=
  if truncToInt 64 (3 * x) < (lcServe cfg x b).2.credit then some (truncToNat 64 ((lcServe cfg x b).2.credit * tokenFracGiveaway))
  else none

def lcRound (cfg : Cfg) (x : ℚ) (b : CreditQueue NvmeCtx) : CreditQueue NvmeCtx where
  waiting := (lcServe cfg x b).2.waiting
  credit :=
    if truncToInt 64 (3 * x) < (lcServe cfg x b).2.credit then
      truncToInt 64 ((lcServe cfg x b).2.credit - (lcServe cfg x b).2.credit * tokenFracGiveaway)
    else (lcServe cfg x b).2.credit

def lcEvents (cfg : Cfg) (q : Nat) (x : ℚ) (b : CreditQueue NvmeCtx) : List SchedEvent :=
  .lcIncrement q (truncToInt 64 x) :: ((lcServe cfg x b).1.map (.lcIssue q) ++ (lcDonation cfg x b).toList.map (.lcDonate q))

section Queues

variable {q : Nat}

theorem lcDrain_spec (cfg : Cfg) (cpu fuel : Nat) {s : NvmeState} (wf : (s.swqs q).Wf) (enough : (s.swqs q).count ≤ fuel) :
    let served := serve NvmeCtx.reqCost (withinBurst cfg) (s.swqs q).pending (s.swqs q).tokenCredit
    ServesOnly q (served.1.map (.lcIssue q)) s (lcDrain cfg cpu q fuel s) ∧
      ((lcDrain cfg cpu q fuel s).swqs q).Wf ∧ ((lcDrain cfg cpu q fuel s).swqs q).onCredit = served.2 ∧
      ((lcDrain cfg cpu q fuel s).swqs q).savedTokens = (s.swqs q).savedTokens := by
  induction fuel generalizing s with
  | zero =>
    have empty : (s.swqs q).pending = [] := by
      rw [← length_eq_zero_iff, pending_length]
      omega
    rw [empty]
    refine ⟨.refl q s, wf, ?_, rfl⟩
    simp [lcDrain, onCredit, empty, serve]
  | succ fuel ih =>
    cases waits : (s.swqs q).pending with
    | nil =>
      have empty := (isempty_iff _).2 waits
      rw [lcDrain, if_neg (by simp [empty])]
      exact ⟨.refl q s, wf, by simp [onCredit, waits, serve], rfl⟩
    | cons ctx rest =>
      have more : nvmeSwQueueIsempty (s.swqs q) = false := by
        rw [Bool.eq_false_iff, ne_eq, isempty_iff, waits]
        exact cons_ne_nil _ _
      rcases em (withinBurst cfg ctx (s.swqs q).tokenCredit) with credit | spent
      · obtain ⟨⟨head, swq⟩, pop⟩ := ne_none_iff_exists'.1 (popFront_ne_none more)
        obtain ⟨after, oldest, saved, handle, same⟩ := popFront_spec wf pop
        rw [waits, cons.injEq] at oldest
        obtain ⟨rfl, remain⟩ := oldest
        have fewer := popFront_count pop
        obtain ⟨first, queue⟩ := ServesOnly.issue cfg cpu ctx { swq with tokenCredit := swq.tokenCredit - ctx.reqCost }
          (e := .lcIssue q ctx) (s := s) (q := q) handle rfl
        rw [lcDrain, if_pos ⟨more, credit⟩, pop]
        simp only
        rw [serve_of_ok credit]
        generalize (issueNvmeReq cfg (s.setSwq q { swq with tokenCredit := swq.tokenCredit - ctx.reqCost }) cpu ctx).log
          (.lcIssue q ctx) = u at first queue ⊢
        have count : (u.swqs q).count = swq.count := by rw [queue]
        have pending : (u.swqs q).pending = rest := by
          rw [queue]
          exact remain.symm
        have left : (u.swqs q).tokenCredit = (s.swqs q).tokenCredit - ctx.reqCost := by rw [queue, ← same]
        obtain ⟨second, wf', credit', saved'⟩ := ih (s := u) (by rw [queue]; exact after) (by omega)
        rw [pending, left] at second credit'
        refine ⟨first.trans second, wf', credit', ?_⟩
        rw [saved', queue]
        exact saved
      · rw [lcDrain, if_neg fun both => spent both.2, serve_of_not spent]
        exact ⟨.refl q s, wf, by simp [onCredit, waits], rfl⟩

theorem serveLc_spec (cfg : Cfg) (cpu timeDelta : Nat) {s : NvmeState} (wf : (s.swqs q).Wf) (leftover : Nat) :
    ServesOnly q (lcEvents cfg q (s.tokenIncrement q timeDelta) (s.swqs q).onCredit) s
        (serveLc cfg cpu timeDelta q s leftover).1 ∧
      ((serveLc cfg cpu timeDelta q s leftover).1.swqs q).Wf ∧
      ((serveLc cfg cpu timeDelta q s leftover).1.swqs q).onCredit =
        lcRound cfg (s.tokenIncrement q timeDelta) (s.swqs q).onCredit ∧
      ((serveLc cfg cpu timeDelta q s leftover).1.swqs q).savedTokens = (s.swqs q).savedTokens ∧
      (serveLc cfg cpu timeDelta q s leftover).2 ≤
        leftover + (lcDonation cfg (s.tokenIncrement q timeDelta) (s.swqs q).onCredit).getD 0 := by
  have increment : (s.nvmeFgs (s.swqs q).fgHandle).scaledIOPuSLimit * timeDelta + 1 / 2 = s.tokenIncrement q timeDelta := rfl
  generalize s.tokenIncrement q timeDelta = x at increment ⊢
  obtain ⟨gain, queue⟩ := ServesOnly.credit s q ((s.swqs q).tokenCredit + truncToInt 64 x) (e := .lcIncrement q (truncToInt 64 x)) rfl
  unfold serveLc
  simp only [increment]
  generalize (s.setSwq q { s.swqs q with tokenCredit := (s.swqs q).tokenCredit + truncToInt 64 x }).log
    (.lcIncrement q (truncToInt 64 x)) = u at gain queue ⊢
  have pending : (u.swqs q).pending = (s.swqs q).onCredit.waiting := by rw [queue]; rfl
  have credit : (u.swqs q).tokenCredit = (s.swqs q).onCredit.credit + truncToInt 64 x := by rw [queue]; rfl
  obtain ⟨drained, wf', served, saved⟩ := lcDrain_spec cfg cpu (u.swqs q).count (by rw [queue]; exact wf) (le_refl _)
  rw [pending, credit] at drained served
  change ((lcDrain cfg cpu q (u.swqs q).count u).swqs q).onCredit = (lcServe cfg x (s.swqs q).onCredit).2 at served
  generalize lcDrain cfg cpu q (u.swqs q).count u = v at drained wf' served saved ⊢
  have same : (v.swqs q).savedTokens = (s.swqs q).savedTokens := by rw [saved, queue]
  have left : (v.swqs q).tokenCredit = (lcServe cfg x (s.swqs q).onCredit).2.credit := by rw [← served]; rfl
  have rest : (v.swqs q).pending = (lcServe cfg x (s.swqs q).onCredit).2.waiting := by rw [← served]; rfl
  have issues : ServesOnly q (.lcIncrement q (truncToInt 64 x) :: (lcServe cfg x (s.swqs q).onCredit).1.map (.lcIssue q)) s v :=
    gain.trans drained
  rw [left]
  by_cases gives : truncToInt 64 (3 * x) < (lcServe cfg x (s.swqs q).onCredit).2.credit
  · have gained := truncToNat_add_le 64 leftover ((lcServe cfg x (s.swqs q).onCredit).2.credit * tokenFracGiveaway)
    simp only [if_pos gives, lcEvents, lcDonation, lcRound, toList_some, map_cons, map_nil, getD_some]
    generalize truncToNat 64 (((lcServe cfg x (s.swqs q).onCredit).2.credit : ℚ) * tokenFracGiveaway) = given at gained ⊢
    generalize truncToInt 64 (((lcServe cfg x (s.swqs q).onCredit).2.credit : ℚ) -
      (lcServe cfg x (s.swqs q).onCredit).2.credit * tokenFracGiveaway) = kept
    obtain ⟨donates, after⟩ := ServesOnly.credit v q kept (e := .lcDonate q given) rfl
    refine ⟨issues.trans donates, ?_, ?_, ?_, gained⟩
    · rw [after]
      exact wf'
    · rw [after, ← rest]
      rfl
    · rw [after]
      exact same
  · simp only [if_neg gives, lcEvents, lcDonation, lcRound, toList_none, map_nil, append_nil]
    exact ⟨issues, wf', by rw [served], same, le_refl _⟩

/-! ## A best-effort queue -/

/-- The `int` cost as the word that the second sub-round compares and subtracts. -/
def NvmeCtx.wordCost (ctx : NvmeCtx) : ℤ := wofInt 64 ctx.reqCost

/-- The condition under which a best-effort queue issues its oldest request. -/
def affordable (ctx : NvmeCtx) (tokens : ℤ) : Prop := ctx.wordCost ≤ tokens

instance (ctx : NvmeCtx) (tokens : ℤ) : Decidable (affordable ctx tokens) := inferInstanceAs (Decidable (_ ≤ _))

/-- The loop of a best-effort queue with `n` tokens in hand. -/
theorem beDrain_spec (cfg : Cfg) (cpu fuel : Nat) {s : NvmeState} {n : Nat} (wf : (s.swqs q).Wf)
    (enough : (s.swqs q).count ≤ fuel) (fits : n < 2 ^ 64) :
    let served := serve NvmeCtx.wordCost affordable (s.swqs q).pending n
    ∃ events, ServesOnly q events s (beDrain cfg cpu q fuel s n).1 ∧ events.filterMap issued = served.1 ∧
      (∀ e ∈ events, ∃ ctx m, e = .beIssue q ctx m) ∧
      ((beDrain cfg cpu q fuel s n).1.swqs q).Wf ∧ ((beDrain cfg cpu q fuel s n).1.swqs q).pending = served.2.waiting ∧
      ((beDrain cfg cpu q fuel s n).2 : ℤ) = served.2.credit ∧
      ((beDrain cfg cpu q fuel s n).1.swqs q).savedTokens = (s.swqs q).savedTokens ∧
      ((beDrain cfg cpu q fuel s n).1.swqs q).tokenCredit = (s.swqs q).tokenCredit := by
  induction fuel generalizing s n with
  | zero =>
    have empty : (s.swqs q).pending = [] := by
      rw [← length_eq_zero_iff, pending_length]
      omega
    rw [empty]
    exact ⟨[], .refl q s, rfl, fun _ mem => absurd mem not_mem_nil, wf, empty, rfl, rfl, rfl⟩
  | succ fuel ih =>
    cases waits : (s.swqs q).pending with
    | nil =>
      have empty := (isempty_iff _).2 waits
      rw [beDrain, if_neg (by simp [empty])]
      exact ⟨[], .refl q s, rfl, fun _ mem => absurd mem not_mem_nil, wf, waits, rfl, rfl, rfl⟩
    | cons ctx rest =>
      have more : nvmeSwQueueIsempty (s.swqs q) = false := by
        rw [Bool.eq_false_iff, ne_eq, isempty_iff, waits]
        exact cons_ne_nil _ _
      obtain ⟨⟨head, swq⟩, pop⟩ := ne_none_iff_exists'.1 (popFront_ne_none more)
      obtain ⟨after, oldest, saved, handle, same⟩ := popFront_spec wf pop
      rw [waits, cons.injEq] at oldest
      obtain ⟨rfl, remain⟩ := oldest
      have price := popFront_cost pop
      rcases em (affordable ctx n) with enough | short
      · have paid : wofInt 64 ctx.reqCost ≤ n := Int.ofNat_le.1 enough
        have fewer := popFront_count pop
        obtain ⟨first, queue⟩ := ServesOnly.issue cfg cpu ctx swq (e := .beIssue q ctx n) (s := s) (q := q) handle rfl
        rw [beDrain, if_pos ⟨more, price ▸ paid⟩, pop]
        simp only
        rw [serve_of_ok enough]
        have left : ((wsub 64 n (wofInt 64 ctx.reqCost) : Nat) : ℤ) = n - ctx.wordCost := by
          rw [wsub_of_le paid fits, Nat.cast_sub paid]
          rfl
        generalize (issueNvmeReq cfg (s.setSwq q swq) cpu ctx).log (.beIssue q ctx n) = u at first queue ⊢
        have pending : (u.swqs q).pending = rest := by
          rw [queue]
          exact remain.symm
        obtain ⟨events, second, issued, kinds, wf', waiting, tokens, saved', credit⟩ :=
          ih (s := u) (n := wsub 64 n (wofInt 64 ctx.reqCost)) (by rw [queue]; exact after) (by rw [queue]; omega) (wsub_lt _ _ _)
        rw [pending, left] at issued waiting tokens
        refine ⟨.beIssue q ctx n :: events, first.trans second, ?_, fun e mem => ?_, wf', waiting, tokens, ?_, ?_⟩
        · rw [← issued]
          rfl
        · rcases mem_cons.1 mem with rfl | mem
          · exact ⟨ctx, n, rfl⟩
          · exact kinds e mem
        · rw [saved', queue, saved]
        · rw [credit, queue, same]
      · have refused : ¬ wofInt 64 (nvmeSwQueuePeakHeadCost (s.swqs q)) ≤ n := by
          rw [price]
          exact fun paid => short (Int.ofNat_le.2 paid)
        rw [beDrain, if_neg fun both => refused both.2, serve_of_not short]
        exact ⟨[], .refl q s, rfl, fun _ mem => absurd mem not_mem_nil, wf, waits, rfl, rfl, rfl⟩

/-- The share of the rate that a best-effort queue is given. -/
def beShare (cfg : Cfg) (s : NvmeState) (timeDeltaCycles : Nat) : Nat :=
  wofInt 64 (truncToInt 64 (beTokenIncrement cfg s timeDeltaCycles + 1 / 2))

/-- What a best-effort queue has to spend when the thread has `n` tokens in hand. -/
def beFunds (cfg : Cfg) (s : NvmeState) (timeDeltaCycles q n : Nat) : Nat :=
  wadd 64 (wadd 64 n (s.swqs q).savedTokens) (beShare cfg s timeDeltaCycles)

/-- The round of a best-effort queue: `swq` is the queue when its loop ends, with `left`
tokens in hand, of which it saves what it still needs. -/
theorem serveBe_spec (cfg : Cfg) (cpu timeDeltaCycles : Nat) {s : NvmeState} (n : Nat) (wf : (s.swqs q).Wf)
    (effort : s.critical q = false) :
    let served := serve NvmeCtx.wordCost affordable (s.swqs q).pending (beFunds cfg s timeDeltaCycles q n)
    ∃ (events : List SchedEvent) (swq : NvmeSwQueue) (left : Nat), ServesOnly q (.beIncrement q (beShare cfg s timeDeltaCycles) ::
          (events ++ [.beSave q (nvmeSwQueueSaveTokens swq left).1 left])) s (serveBe cfg cpu timeDeltaCycles (s, n) q).1 ∧
      events.filterMap issued = served.1 ∧ (∀ e ∈ events, ∃ ctx m, e = .beIssue q ctx m) ∧
      swq.Wf ∧ swq.pending = served.2.waiting ∧ (left : ℤ) = served.2.credit ∧ swq.savedTokens = 0 ∧
      swq.tokenCredit = (s.swqs q).tokenCredit ∧
      (serveBe cfg cpu timeDeltaCycles (s, n) q).1.swqs q = (nvmeSwQueueSaveTokens swq left).2 ∧
      (serveBe cfg cpu timeDeltaCycles (s, n) q).2 = wsub 64 left (nvmeSwQueueSaveTokens swq left).1 := by
  intro served
  have emptied : ServesOnly q [] s (s.setSwq q (nvmeSwQueueTakeSavedTokens (s.swqs q)).2) := .setSwq rfl
  have shared : ServesOnly q [.beIncrement q (beShare cfg s timeDeltaCycles)] s _ := emptied.trans (.log rfl)
  have queue : ((s.setSwq q (nvmeSwQueueTakeSavedTokens (s.swqs q)).2).log (.beIncrement q (beShare cfg s timeDeltaCycles))).swqs q =
      { s.swqs q with savedTokens := 0 } := by
    simp [log, setSwq, nvmeSwQueueTakeSavedTokens]
  have funds : fundBe cfg timeDeltaCycles q s n =
      ((s.setSwq q (nvmeSwQueueTakeSavedTokens (s.swqs q)).2).log (.beIncrement q (beShare cfg s timeDeltaCycles)),
        beFunds cfg s timeDeltaCycles q n) := rfl
  rw [serveBe]
  simp only [effort, Bool.false_eq_true, if_false, funds]
  generalize (s.setSwq q (nvmeSwQueueTakeSavedTokens (s.swqs q)).2).log (.beIncrement q (beShare cfg s timeDeltaCycles)) = u
    at shared queue ⊢
  have pending : (u.swqs q).pending = (s.swqs q).pending := by
    rw [queue]
    rfl
  obtain ⟨events, drained, issued, kinds, wf', waiting, tokens, saved, credit⟩ := beDrain_spec cfg cpu (u.swqs q).count
    (n := beFunds cfg s timeDeltaCycles q n) (by rw [queue]; exact wf) (le_refl _) (wadd_lt _ _ _)
  rw [pending] at issued waiting tokens
  generalize beDrain cfg cpu q (u.swqs q).count u (beFunds cfg s timeDeltaCycles q n) = result
    at drained wf' waiting tokens saved credit ⊢
  obtain ⟨v, left⟩ := result
  have kept : ServesOnly q [.beSave q (nvmeSwQueueSaveTokens (v.swqs q) left).1 left] v _ :=
    (ServesOnly.setSwq (s := v) (saveTokens_handle (v.swqs q) left)).trans (.log rfl)
  refine ⟨events, v.swqs q, left, shared.trans (drained.trans kept), issued, kinds, wf', waiting, tokens, ?_, ?_, ?_, rfl⟩
  · rw [saved, queue]
  · rw [credit, queue]
  · simp [keepBe, log, setSwq]

end Queues

/-! ## A round as a chain of services -/

/-- Queue `q` is served: what is issued comes off its front. -/
structure Serving (q : Nat) (events : List SchedEvent) (s t : NvmeState) : Prop extends ServesOnly q events s t where
  ring : (t.swqs q).Wf
  order : events.filterMap SchedEvent.issued ++ (t.swqs q).pending = (s.swqs q).pending

theorem Serving.rings {q events s t} (serving : Serving q events s t)
    (rings : ∀ k, (s.swqs k).Wf) (k : Nat) : (t.swqs k).Wf := by
  rcases eq_or_ne k q with rfl | other
  · exact serving.ring
  · rw [serving.others k other]
    exact rings k

theorem lcEvents_filterMap (cfg : Cfg) (q : Nat) (x : ℚ) (b : CreditQueue NvmeCtx) :
    (lcEvents cfg q x b).filterMap issued = (lcServe cfg x b).1 := by
  have issues : ((lcServe cfg x b).1.map (.lcIssue q)).filterMap issued = (lcServe cfg x b).1 := by
    rw [filterMap_map]
    exact filterMap_some
  have quiet : ((lcDonation cfg x b).toList.map (.lcDonate q)).filterMap issued = [] := by
    rw [filterMap_map]
    exact filterMap_eq_nil_iff.2 fun _ _ => rfl
  rw [lcEvents, filterMap_cons_none rfl, filterMap_append, issues, quiet, append_nil]

theorem serveLc_serving (cfg : Cfg) (cpu timeDelta leftover : Nat) {q} {s : NvmeState} (wf : (s.swqs q).Wf) :
    Serving q (lcEvents cfg q (s.tokenIncrement q timeDelta) (s.swqs q).onCredit) s (serveLc cfg cpu timeDelta q s leftover).1 := by
  obtain ⟨serves, ring, credit, -⟩ := serveLc_spec cfg cpu timeDelta wf leftover
  have pending : ((serveLc cfg cpu timeDelta q s leftover).1.swqs q).pending =
      (lcServe cfg (s.tokenIncrement q timeDelta) (s.swqs q).onCredit).2.waiting := congrArg CreditQueue.waiting credit
  refine ⟨serves, ring, ?_⟩
  rw [lcEvents_filterMap, pending]
  exact serve_waiting _ _

theorem serveBe_serving (cfg : Cfg) (cpu timeDeltaCycles n : Nat) {q} {s : NvmeState} (wf : (s.swqs q).Wf)
    (effort : s.critical q = false) :
    ∃ events, Serving q events s (serveBe cfg cpu timeDeltaCycles (s, n) q).1 := by
  obtain ⟨events, swq, left, serves, issued, -, ring, waiting, -, -, -, queue, -⟩ := serveBe_spec cfg cpu timeDeltaCycles n wf effort
  have same : (nvmeSwQueueSaveTokens swq left).2.toRingBuf = swq.toRingBuf := saveTokens_ring swq left
  refine ⟨_, serves, ?_, ?_⟩
  · rw [queue, NvmeSwQueue.Wf, same]
    exact ring
  · have pending : (nvmeSwQueueSaveTokens swq left).2.pending = swq.pending := by
      rw [pending, same, pending]
    rw [filterMap_cons_none rfl, filterMap_append, filterMap_cons_none rfl, filterMap_nil, append_nil, issued,
      queue, pending, waiting]
    exact serve_waiting _ _

/-- Queue `q` is as it was between `s` and `t`, and no event is about it. -/
structure Spares (q : Nat) (s t : NvmeState) : Prop where
  queue : t.swqs q = s.swqs q
  rings : ∀ k, (t.swqs k).Wf
  trace : ∃ events, t.trace = s.trace ++ events ∧ ∀ e ∈ events, e.queue ≠ some q
  tenants : SameTenants s t
  clock : t.lastSchedTime = s.lastSchedTime

namespace Spares

variable {q k : Nat} {s t u : NvmeState}

theorem refl (q : Nat) {s : NvmeState} (rings : ∀ k, (s.swqs k).Wf) : Spares q s s :=
  ⟨rfl, rings, ⟨[], (append_nil _).symm, fun _ mem => absurd mem not_mem_nil⟩, .refl s, rfl⟩

theorem trans (first : Spares q s t) (second : Spares q t u) : Spares q s u := by
  obtain ⟨events, log, others⟩ := first.trace
  obtain ⟨more, log', others'⟩ := second.trace
  refine ⟨second.queue.trans first.queue, second.rings, ⟨events ++ more, by rw [log', log, append_assoc], fun e mem => ?_⟩,
    first.tenants.trans second.tenants, second.clock.trans first.clock⟩
  rcases mem_append.1 mem with mem | mem
  · exact others e mem
  · exact others' e mem

theorem of_serving {events} (serving : Serving k events s t) (other : q ≠ k) (rings : ∀ k, (s.swqs k).Wf) :
    Spares q s t := by
  refine ⟨serving.others q other, serving.rings rings, ⟨events, serving.trace, fun e mem same => other ?_⟩, serving.tenants,
    serving.clock⟩
  rw [serving.about e mem] at same
  exact (some.inj same).symm

end Spares

/-- Nothing happens to the queues, to what they belong to or to what has been logged. -/
structure Idles (s t : NvmeState) : Prop where
  queues : t.swqs = s.swqs
  tenants : SameTenants s t
  trace : t.trace = s.trace
  clock : t.lastSchedTime = s.lastSchedTime
  device : t.device = s.device

theorem Idles.trans {s t u} (first : Idles s t) (second : Idles t u) : Idles s u :=
  ⟨second.queues.trans first.queues, first.tenants.trans second.tenants, second.trace.trans first.trace,
    second.clock.trans first.clock, second.device.trans first.device⟩

theorem Idles.spares {q s t} (idles : Idles s t) (rings : ∀ k, (s.swqs k).Wf) : Spares q s t :=
  ⟨by rw [idles.queues], by rwa [idles.queues],
    ⟨[], by rw [idles.trace, append_nil], fun _ mem => absurd mem not_mem_nil⟩, idles.tenants, idles.clock⟩

/-- The service of a best-effort queue, or a change outside the queues. -/
inductive EffortService (cfg : Cfg) (cpu : Nat) : NvmeState → NvmeState → Prop where
  | effort {s q} (timeDeltaCycles n : Nat) (member : q ∈ (s.nvmeTenantManager cpu).tenantSwq) (kind : s.critical q = false) :
      EffortService cfg cpu s (serveBe cfg cpu timeDeltaCycles (s, n) q).1
  | rest {s t} (idles : Idles s t) : EffortService cfg cpu s t

/-- One service in a round that `timeDelta` has passed before. -/
inductive Service (cfg : Cfg) (cpu timeDelta : Nat) : NvmeState → NvmeState → Prop where
  | critical {s q} (leftover : Nat) (member : q ∈ (s.nvmeTenantManager cpu).tenantSwq) (kind : s.critical q = true) :
      Service cfg cpu timeDelta s (serveLc cfg cpu timeDelta q s leftover).1
  | effort {s t} (service : EffortService cfg cpu s t) : Service cfg cpu timeDelta s t

abbrev EffortServices (cfg : Cfg) (cpu : Nat) : NvmeState → NvmeState → Prop := Relation.ReflTransGen (EffortService cfg cpu)

abbrev Services (cfg : Cfg) (cpu timeDelta : Nat) : NvmeState → NvmeState → Prop := Relation.ReflTransGen (Service cfg cpu timeDelta)

section Chain

variable {cfg : Cfg} {cpu timeDelta : Nat} {s t : NvmeState}

theorem EffortService.sameTenants (service : EffortService cfg cpu s t) : SameTenants s t := by
  cases service with
  | effort timeDeltaCycles n member kind => exact (serveBe_acts n member).sameTenants
  | rest idles => exact idles.tenants

theorem Service.sameTenants (service : Service cfg cpu timeDelta s t) : SameTenants s t := by
  cases service with
  | critical leftover member kind => exact (serveLc_acts leftover member).sameTenants
  | effort service => exact service.sameTenants

theorem Services.invariant {I : NvmeState → Prop} (keep : ∀ s t, Service cfg cpu timeDelta s t → I s → I t)
    (services : Services cfg cpu timeDelta s t) (start : I s) : I t := by
  induction services with
  | refl => exact start
  | tail _ service ih => exact keep _ _ service ih

theorem EffortServices.all (services : EffortServices cfg cpu s t) : Services cfg cpu timeDelta s t := by
  induction services with
  | refl => exact .refl
  | tail _ service ih => exact ih.tail (.effort service)

theorem Services.sameTenants (services : Services cfg cpu timeDelta s t) : SameTenants s t :=
  services.invariant (I := SameTenants s) (fun _ _ service same => same.trans service.sameTenants) (.refl s)

theorem EffortServices.sameTenants (services : EffortServices cfg cpu s t) : SameTenants s t :=
  have chain : Services cfg cpu 0 s t := services.all
  chain.sameTenants

theorem EffortService.inv (service : EffortService cfg cpu s t) (rings : ∀ k, (s.swqs k).Wf) :
    (∃ k events, k ∈ (s.nvmeTenantManager cpu).tenantSwq ∧ s.critical k = false ∧ Serving k events s t) ∨ Idles s t := by
  cases service with
  | @effort k timeDeltaCycles n member kind =>
    obtain ⟨events, serving⟩ := serveBe_serving cfg cpu timeDeltaCycles n (rings k) kind
    exact .inl ⟨k, events, member, kind, serving⟩
  | rest idles => exact .inr idles

theorem Service.inv (service : Service cfg cpu timeDelta s t) (rings : ∀ k, (s.swqs k).Wf) :
    (∃ k events, k ∈ (s.nvmeTenantManager cpu).tenantSwq ∧ Serving k events s t) ∨ Idles s t := by
  cases service with
  | @critical k leftover member kind => exact .inl ⟨k, _, member, serveLc_serving cfg cpu timeDelta leftover (rings k)⟩
  | effort service =>
    rcases service.inv rings with ⟨k, events, member, -, serving⟩ | idles
    · exact .inl ⟨k, events, member, serving⟩
    · exact .inr idles

theorem EffortService.spares (service : EffortService cfg cpu s t) (rings : ∀ k, (s.swqs k).Wf) {q}
    (kind : s.critical q = true) : Spares q s t := by
  rcases service.inv rings with ⟨k, events, -, own, serving⟩ | idles
  · have other : q ≠ k := by
      rintro rfl
      rw [kind] at own
      cases own
    exact .of_serving serving other rings
  · exact idles.spares rings

theorem EffortServices.spares (services : EffortServices cfg cpu s t) (rings : ∀ k, (s.swqs k).Wf) {q}
    (kind : s.critical q = true) : Spares q s t := by
  induction services with
  | refl => exact .refl q rings
  | tail _ service ih => exact ih.trans (service.spares ih.rings ((ih.tenants.critical q).trans kind))

theorem serveLc_spares (cfg : Cfg) (cpu timeDelta leftover : Nat) (rings : ∀ k, (s.swqs k).Wf) {q k} (other : q ≠ k) :
    Spares q s (serveLc cfg cpu timeDelta k s leftover).1 :=
  .of_serving (serveLc_serving cfg cpu timeDelta leftover (rings k)) other rings

theorem Service.critical_queue (service : Service cfg cpu timeDelta s t) (rings : ∀ k, (s.swqs k).Wf) {q}
    (kind : s.critical q = true) :
    Spares q s t ∨ q ∈ (s.nvmeTenantManager cpu).tenantSwq ∧ (∀ k, (t.swqs k).Wf) ∧
      (t.swqs q).onCredit = lcRound cfg (s.tokenIncrement q timeDelta) (s.swqs q).onCredit ∧
      t.trace = s.trace ++ lcEvents cfg q (s.tokenIncrement q timeDelta) (s.swqs q).onCredit := by
  cases service with
  | @critical k leftover member own =>
    rcases eq_or_ne q k with rfl | other
    · obtain ⟨serves, ring, credit, -⟩ := serveLc_spec cfg cpu timeDelta (rings q) leftover
      exact .inr ⟨member, (serveLc_serving cfg cpu timeDelta leftover (rings q)).rings rings, credit, serves.trace⟩
    · exact .inl (serveLc_spares cfg cpu timeDelta leftover rings other)
  | effort service => exact .inl (service.spares rings kind)

theorem subround1_services (l : List Nat) (leftover demand : Nat) (members : ∀ q ∈ l, q ∈ (s.nvmeTenantManager cpu).tenantSwq) :
    Services cfg cpu timeDelta s (l.foldl (subround1Queue cfg cpu timeDelta) (s, leftover, demand)).1 := by
  induction l generalizing s leftover demand with
  | nil => exact .refl
  | cons q l ih =>
    rw [foldl_cons]
    have later := fun j mem => members j (mem_cons_of_mem q mem)
    cases kind : s.critical q with
    | true =>
      have service : Service cfg cpu timeDelta s (serveLc cfg cpu timeDelta q s leftover).1 :=
        .critical leftover (members q mem_cons_self) kind
      rw [subround1Queue_critical cfg cpu timeDelta kind]
      refine .head service (ih _ _ ?_)
      rw [service.sameTenants.managers]
      exact later
    | false =>
      rw [subround1Queue_effort cfg cpu timeDelta kind]
      exact ih _ _ later

theorem subround1_serves {l : List Nat} {q : Nat} (turn : q ∈ l) (kind : s.critical q = true) (leftover demand : Nat)
    (members : ∀ q ∈ l, q ∈ (s.nvmeTenantManager cpu).tenantSwq) :
    ∃ u n, Services cfg cpu timeDelta s u ∧ Services cfg cpu timeDelta (serveLc cfg cpu timeDelta q u n).1
      (l.foldl (subround1Queue cfg cpu timeDelta) (s, leftover, demand)).1 := by
  obtain ⟨before, after, rfl⟩ := append_of_mem turn
  rw [foldl_append, foldl_cons]
  have first : Services cfg cpu timeDelta s (before.foldl (subround1Queue cfg cpu timeDelta) (s, leftover, demand)).1 :=
    subround1_services before leftover demand fun j mem => members j (mem_append_left _ mem)
  rcases half : before.foldl (subround1Queue cfg cpu timeDelta) (s, leftover, demand) with ⟨u, n, m⟩
  rw [half] at first
  have same := first.sameTenants
  have critical : u.critical q = true := (same.critical q).trans kind
  have listed : ∀ j ∈ q :: after, j ∈ (u.nvmeTenantManager cpu).tenantSwq := by
    intro j mem
    rw [same.managers]
    exact members j (mem_append_right _ mem)
  have service : Service cfg cpu timeDelta u (serveLc cfg cpu timeDelta q u n).1 :=
    .critical n (listed q mem_cons_self) critical
  rw [subround1Queue_critical cfg cpu timeDelta critical]
  refine ⟨u, n, first, subround1_services after _ _ fun j mem => ?_⟩
  rw [service.sameTenants.managers]
  exact listed j (mem_cons_of_mem q mem)

theorem subround1_absent {l : List Nat} {q : Nat} (absent : q ∉ l) (rings : ∀ k, (s.swqs k).Wf) (leftover demand : Nat) :
    Spares q s (l.foldl (subround1Queue cfg cpu timeDelta) (s, leftover, demand)).1 := by
  induction l generalizing s leftover demand with
  | nil => exact .refl q rings
  | cons k l ih =>
    rw [foldl_cons]
    rw [mem_cons, not_or] at absent
    obtain ⟨other, later⟩ := absent
    unfold subround1Queue
    simp only
    split
    · have first : Spares q s (serveLc cfg cpu timeDelta k s leftover).1 := serveLc_spares cfg cpu timeDelta leftover rings other
      exact first.trans (ih later first.rings _ _)
    · exact ih later rings _ _

theorem subround1_once (cfg : Cfg) (cpu timeDelta : Nat) {l : List Nat} {q : Nat} (once : l.count q = 1)
    (kind : s.critical q = true) (rings : ∀ k, (s.swqs k).Wf)
    (leftover demand : Nat) :
    ∃ u n, Spares q s u ∧ Spares q (serveLc cfg cpu timeDelta q u n).1
      (l.foldl (subround1Queue cfg cpu timeDelta) (s, leftover, demand)).1 := by
  obtain ⟨before, after, rfl, absent⟩ := eq_append_cons_of_mem (count_pos_iff.1 (by omega : 0 < l.count q))
  have later : q ∉ after := by
    rw [count_append, count_cons_self, count_eq_zero.2 absent] at once
    exact count_eq_zero.1 (by omega)
  rw [foldl_append, foldl_cons]
  have first : Spares q s (before.foldl (subround1Queue cfg cpu timeDelta) (s, leftover, demand)).1 :=
    subround1_absent absent rings leftover demand
  generalize before.foldl (subround1Queue cfg cpu timeDelta) (s, leftover, demand) = half at first ⊢
  obtain ⟨u, n, m⟩ := half
  have step : subround1Queue cfg cpu timeDelta (u, n, m) q =
      ((serveLc cfg cpu timeDelta q u n).1, (serveLc cfg cpu timeDelta q u n).2, m) := by
    simp [subround1Queue, (first.tenants.critical q).trans kind]
  rw [step]
  exact ⟨u, n, first, subround1_absent later ((serveLc_serving cfg cpu timeDelta n (first.rings q)).rings first.rings) _ _⟩

theorem subround2_services (timeDeltaCycles : Nat) (l : List Nat) (n : Nat)
    (members : ∀ q ∈ l, q ∈ (s.nvmeTenantManager cpu).tenantSwq) :
    EffortServices cfg cpu s (l.foldl (serveBe cfg cpu timeDeltaCycles) (s, n)).1 := by
  induction l generalizing s n with
  | nil => exact .refl
  | cons q l ih =>
    rw [foldl_cons]
    have later := fun j mem => members j (mem_cons_of_mem q mem)
    cases kind : s.critical q with
    | true =>
      have step : serveBe cfg cpu timeDeltaCycles (s, n) q = (s, n) := by simp [serveBe, kind]
      rw [step]
      exact ih n later
    | false =>
      have service : EffortService cfg cpu s (serveBe cfg cpu timeDeltaCycles (s, n) q).1 :=
        .effort timeDeltaCycles n (members q mem_cons_self) kind
      refine .head service (ih _ ?_)
      rw [service.sameTenants.managers]
      exact later

theorem endSubround2_idles {n} (ends : endSubround2 s cpu n = some t) : Idles s t := by
  unfold endSubround2 at ends
  simp only [map_eq_some_iff] at ends
  obtain ⟨u, moved, rfl⟩ := ends
  have start : ∃ starts, u = { s with roundrobinStart := starts } := by
    split at moved
    · obtain ⟨rr, -, rfl⟩ := map_eq_some_iff.1 moved
      exact ⟨_, rfl⟩
    · cases moved
      exact ⟨s.roundrobinStart, rfl⟩
  obtain ⟨starts, rfl⟩ := start
  split
  · exact ⟨rfl, ⟨rfl, rfl, rfl, fun _ => rfl⟩, rfl, rfl, rfl⟩
  · exact ⟨rfl, ⟨rfl, rfl, rfl, fun _ => rfl⟩, rfl, rfl, rfl⟩

theorem serveAllBe_services (timeDeltaCycles n : Nat) :
    EffortServices cfg cpu s (serveAllBe cfg cpu timeDeltaCycles s n).1 := by
  unfold serveAllBe
  simp only
  have first : EffortServices cfg cpu s _ := subround2_services timeDeltaCycles
    ((s.nvmeTenantManager cpu).tenantSwq.drop (s.roundrobinStart cpu).toNat) n fun q mem => mem_of_mem_drop mem
  rcases half : ((s.nvmeTenantManager cpu).tenantSwq.drop (s.roundrobinStart cpu).toNat).foldl
    (serveBe cfg cpu timeDeltaCycles) (s, n) with ⟨u, m⟩
  rw [half] at first
  refine first.trans (subround2_services timeDeltaCycles _ m fun q mem => ?_)
  rw [first.sameTenants.managers]
  exact mem_of_mem_take mem

theorem beTokensInHand_eq (s : NvmeState) (localLeftover localDemand : Nat) :
    ∃ bucket n, beTokensInHand s localLeftover localDemand = ({ s with globalLeftoverTokens := bucket }, n) ∧
      n ≤ localLeftover + s.globalLeftoverTokens := by
  unfold beTokensInHand tryAcquireGlobalTokens
  split_ifs with demand scarce
  · exact ⟨_, _, rfl, wadd_le _ _ _⟩
  · exact ⟨_, _, rfl, (wadd_le _ _ _).trans (by omega)⟩
  · exact ⟨s.globalLeftoverTokens, _, rfl, by omega⟩

theorem nvmeSchedSubround2_services {tsc} (ends : nvmeSchedSubround2 cfg s cpu tsc = some t) :
    EffortServices cfg cpu s t := by
  unfold nvmeSchedSubround2 at ends
  simp only at ends
  split at ends
  · cases ends
    exact .single (.rest ⟨rfl, ⟨rfl, rfl, rfl, fun _ => rfl⟩, rfl, rfl, rfl⟩)
  · obtain ⟨bucket, n, hand, -⟩ := beTokensInHand_eq s (s.localLeftoverTokens cpu) (s.localExtraDemand cpu)
    rw [hand] at ends
    have clock : EffortService cfg cpu s { s with
        globalLeftoverTokens := bucket
        lastSchedTimeBe := Function.update s.lastSchedTimeBe cpu tsc } := .rest ⟨rfl, ⟨rfl, rfl, rfl, fun _ => rfl⟩, rfl, rfl, rfl⟩
    exact .head clock ((serveAllBe_services _ _).tail (.rest (endSubround2_idles ends)))

end Chain

theorem updateScheduledBitvector_idles (cfg : Cfg) (s : NvmeState) (cpu : Nat) : Idles s (updateScheduledBitvector cfg s cpu) := by
  unfold updateScheduledBitvector
  simp only
  split
  · exact ⟨rfl, ⟨rfl, rfl, rfl, fun _ => rfl⟩, rfl, rfl, rfl⟩
  · exact ⟨rfl, ⟨rfl, rfl, rfl, fun _ => rfl⟩, rfl, rfl, rfl⟩

/-- The state once the round has read the clock. -/
def NvmeState.atTime (s : NvmeState) (cpu now : Nat) : NvmeState :=
  { s with lastSchedTime := Function.update s.lastSchedTime cpu now }

section Round

variable {cfg : Cfg} {s t : NvmeState} {cpu now tsc : Nat}

/-- The state once the first sub-round has been through the list. -/
def criticalServed (cfg : Cfg) (s : NvmeState) (cpu now : Nat) : NvmeState :=
  ((s.nvmeTenantManager cpu).tenantSwq.foldl (subround1Queue cfg cpu (wsub 64 now (s.lastSchedTime cpu))) (s.atTime cpu now, 0, 0)).1

theorem nvmeSched_effort (counted : (s.nvmeTenantManager cpu).numTenants ≠ 0) (round : nvmeSched cfg s cpu now tsc = some t) :
    EffortServices cfg cpu (criticalServed cfg s cpu now) t := by
  rw [nvmeSched, if_neg counted] at round
  obtain ⟨v, ends, rfl⟩ := map_eq_some_iff.1 round
  have settled : EffortService cfg cpu (criticalServed cfg s cpu now) (nvmeSchedSubround1 cfg s cpu now) :=
    .rest ⟨rfl, ⟨rfl, rfl, rfl, fun _ => rfl⟩, rfl, rfl, rfl⟩
  have clear : EffortService cfg cpu v { v with
      localLeftoverTokens := Function.update v.localLeftoverTokens cpu 0
      localExtraDemand := Function.update v.localExtraDemand cpu 0 } := .rest ⟨rfl, ⟨rfl, rfl, rfl, fun _ => rfl⟩, rfl, rfl, rfl⟩
  exact .head settled (((nvmeSchedSubround2_services ends).tail clear).tail (.rest (updateScheduledBitvector_idles cfg _ cpu)))

theorem nvmeSched_idle (none : (s.nvmeTenantManager cpu).numTenants = 0) (round : nvmeSched cfg s cpu now tsc = some t) :
    Idles (s.atTime cpu now) t := by
  rw [nvmeSched, if_pos none] at round
  cases round
  unfold updateScheduledBitvector
  simp only
  split <;> exact ⟨rfl, ⟨rfl, rfl, rfl, fun _ => rfl⟩, rfl, rfl, rfl⟩

theorem nvmeSched_services (round : nvmeSched cfg s cpu now tsc = some t) :
    Services cfg cpu (wsub 64 now (s.lastSchedTime cpu)) (s.atTime cpu now) t := by
  rcases em ((s.nvmeTenantManager cpu).numTenants = 0) with none | counted
  · exact .single (.effort (.rest (nvmeSched_idle none round)))
  · exact (subround1_services _ 0 0 fun _ mem => mem).trans (nvmeSched_effort counted round).all

theorem nvmeSched_serves {q : Nat} (member : q ∈ (s.nvmeTenantManager cpu).tenantSwq) (kind : s.critical q = true)
    (counted : (s.nvmeTenantManager cpu).numTenants ≠ 0) (round : nvmeSched cfg s cpu now tsc = some t) :
    ∃ u n, Services cfg cpu (wsub 64 now (s.lastSchedTime cpu)) (s.atTime cpu now) u ∧
      Services cfg cpu (wsub 64 now (s.lastSchedTime cpu)) (serveLc cfg cpu (wsub 64 now (s.lastSchedTime cpu)) q u n).1 t := by
  obtain ⟨u, n, before, after⟩ := subround1_serves (s := s.atTime cpu now) member kind 0 0 fun _ mem => mem
  exact ⟨u, n, before, after.trans (nvmeSched_effort counted round).all⟩

end Round

end Reflex.Nvme
