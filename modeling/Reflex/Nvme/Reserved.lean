import Reflex.Nvme.Credit
import Reflex.Nvme.Service
import Reflex.Nvme.Tokens

/-!
# Reserved rate and bounded burst

A latency-critical queue is served on credit: a round adds `token_increment`, issues requests while the credit
is above `-TOKEN_DEFICIT_LIMIT`, and gives most of the credit away when more than three increments are left.
-/

namespace Reflex.Nvme
open Lib List NvmeState SchedEvent NvmeCtx

variable {s t : NvmeState} {cfg : Cfg} {q now tsc : Nat} {events old : List SchedEvent} {c₀ : ℤ}

/-! ## What the events of a queue add up to -/

def eventSum (q : Nat) (f : SchedEvent → ℤ) (trace : List SchedEvent) : ℤ :=
  ((trace.filter fun e => e.queue = some q).map f).sum

/-- The tokens a latency-critical tenant is credited with. -/
def SchedEvent.lcGain : SchedEvent → ℤ
  | .lcIncrement _ tokens => tokens
  | _ => 0

def SchedEvent.lcGift : SchedEvent → ℤ
  | .lcDonate _ tokens => tokens
  | _ => 0

/-- The cost of what has been issued from queue `q`. -/
def issuedCost (q : Nat) (trace : List SchedEvent) : ℤ := totalCost NvmeCtx.reqCost (issuedBy q trace)

section Sums

@[simp] theorem eventSum_append (f : SchedEvent → ℤ) (trace events : List SchedEvent) :
    eventSum q f (trace ++ events) = eventSum q f trace + eventSum q f events := by
  simp [eventSum]

@[simp] theorem issuedCost_append (trace events : List SchedEvent) :
    issuedCost q (trace ++ events) = issuedCost q trace + issuedCost q events := by
  simp [issuedCost, issuedBy_append]

theorem eventSum_other (f : SchedEvent → ℤ) (others : ∀ e ∈ events, e.queue ≠ some q) :
    eventSum q f events = 0 := by
  rw [eventSum, filter_other others]
  rfl

theorem issuedCost_other (others : ∀ e ∈ events, e.queue ≠ some q) : issuedCost q events = 0 := by
  rw [issuedCost, issuedBy_other others, totalCost_nil]

/-- A round of the queue that issues `l`, up to the donation. -/
theorem lcEvents_sums (q : Nat) (n : ℤ) (l : List NvmeCtx) :
    eventSum q SchedEvent.lcGain (.lcIncrement q n :: l.map (.lcIssue q)) = n ∧
      eventSum q SchedEvent.lcGift (.lcIncrement q n :: l.map (.lcIssue q)) = 0 ∧
      issuedBy q (.lcIncrement q n :: l.map (.lcIssue q)) = l := by
  induction l using reverseRecOn with
  | nil => simp [eventSum, issuedBy, SchedEvent.queue, SchedEvent.lcGain, SchedEvent.lcGift, SchedEvent.issued]
  | append_singleton l ctx ih =>
    obtain ⟨gain, gift, issued⟩ := ih
    have last : eventSum q SchedEvent.lcGain [.lcIssue q ctx] = 0 ∧ eventSum q SchedEvent.lcGift [.lcIssue q ctx] = 0 ∧
        issuedBy q [.lcIssue q ctx] = [ctx] := by
      simp [eventSum, issuedBy, SchedEvent.queue, SchedEvent.lcGain, SchedEvent.lcGift, SchedEvent.issued]
    rw [map_append, ← cons_append, map_singleton, eventSum_append, eventSum_append, issuedBy_append, gain, gift, issued,
      last.1, last.2.1, last.2.2]
    exact ⟨add_zero n, rfl, rfl⟩

end Sums

/-! ## One round of the queue -/

section Round

variable {x : ℚ} {b : CreditQueue NvmeCtx}

theorem prefix_lcEvents {p} (initial : p <+: lcEvents cfg q x b) :
    p = [] ∨ p = lcEvents cfg q x b ∨
      ∃ l, l <+: (lcServe cfg x b).1 ∧ p = .lcIncrement q (truncToInt 64 x) :: l.map (.lcIssue q) := by
  rcases prefix_cons_iff.1 initial with rfl | ⟨r, rfl, rest⟩
  · exact .inl rfl
  · right
    cases gives : lcDonation cfg x b with
    | none =>
      rw [gives, Option.toList_none, map_nil, append_nil] at rest
      obtain ⟨l, served, rfl⟩ := prefix_map_iff.1 rest
      exact .inr ⟨l, served, rfl⟩
    | some n =>
      rw [gives, Option.toList_some, map_singleton] at rest
      rcases prefix_concat_iff.1 rest with rfl | rest
      · refine .inl ?_
        rw [lcEvents, gives]
        rfl
      · obtain ⟨l, served, rfl⟩ := prefix_map_iff.1 rest
        exact .inr ⟨l, served, rfl⟩

theorem lcEvents_gain : eventSum q lcGain (lcEvents cfg q x b) = truncToInt 64 x := by
  rw [lcEvents, ← cons_append, eventSum_append, (lcEvents_sums q _ _).1]
  cases lcDonation cfg x b <;> simp [eventSum, lcGain, queue]

theorem lcEvents_issued : issuedBy q (lcEvents cfg q x b) = (lcServe cfg x b).1 := by
  rw [lcEvents, ← cons_append, issuedBy_append, (lcEvents_sums q _ _).2.2]
  cases lcDonation cfg x b <;> simp [issuedBy, issued]

theorem lcEvents_gift : eventSum q lcGift (lcEvents cfg q x b) = (lcDonation cfg x b).getD 0 := by
  rw [lcEvents, ← cons_append, eventSum_append, (lcEvents_sums q _ _).2.1]
  cases lcDonation cfg x b <;> simp [eventSum, lcGift, queue]

theorem lcServe_credit (cfg : Cfg) (x : ℚ) (b : CreditQueue NvmeCtx) :
    (lcServe cfg x b).2.credit = b.credit + truncToInt 64 x - totalCost reqCost (lcServe cfg x b).1 :=
  serve_credit _ _

theorem lcServe_waiting (cfg : Cfg) (x : ℚ) (b : CreditQueue NvmeCtx) :
    (lcServe cfg x b).1 ++ (lcServe cfg x b).2.waiting = b.waiting :=
  serve_waiting _ _

/-- What the tenant gives away and what it keeps is no more than it had, and it gives only
when it has more than three increments. -/
theorem lcRound_donation (gives : truncToInt 64 (3 * x) < (lcServe cfg x b).2.credit) (nonneg : 0 ≤ x) :
    0 ≤ (lcRound cfg x b).credit ∧ ((lcRound cfg x b).credit : ℚ) ≤ (lcServe cfg x b).2.credit / 10 ∧
      (lcRound cfg x b).credit + (lcDonation cfg x b).getD 0 ≤ (lcServe cfg x b).2.credit := by
  have floor : 0 ≤ truncToInt 64 (3 * x) := truncToInt_nonneg 64 (by linarith)
  simp only [lcRound, lcDonation, if_pos gives, Option.getD_some]
  generalize (lcServe cfg x b).2.credit = c at gives ⊢
  have credit : (0 : ℚ) ≤ c := by exact_mod_cast (floor.trans gives.le)
  have tenth : (0 : ℚ) ≤ c - c * tokenFracGiveaway := by
    unfold tokenFracGiveaway
    linarith
  have kept := truncToInt_le 64 tenth
  have given : (truncToNat 64 ((c : ℚ) * tokenFracGiveaway) : ℚ) ≤ c * tokenFracGiveaway :=
    truncToNat_le 64 (mul_nonneg credit (by norm_num [tokenFracGiveaway]))
  refine ⟨truncToInt_nonneg 64 tenth, ?_, ?_⟩
  · unfold tokenFracGiveaway at kept ⊢
    linarith
  · have total : ((truncToInt 64 (c - c * tokenFracGiveaway) : ℤ) : ℚ) + truncToNat 64 ((c : ℚ) * tokenFracGiveaway) ≤ c := by
      linarith
    exact_mod_cast total

theorem lcRound_kept (keeps : ¬ truncToInt 64 (3 * x) < (lcServe cfg x b).2.credit) :
    (lcRound cfg x b).credit = (lcServe cfg x b).2.credit ∧ lcDonation cfg x b = none := by
  simp only [lcRound, lcDonation, if_neg keeps, and_self]

end Round

/-! ## What a tenant can get -/

/-- `events` were logged while the queue became `b`. What was issued and given away and the
credit left is no more than the increments; the credit is above the deficit limit and one
request, and so it was at every point. -/
structure Metered (cfg : Cfg) (q : Nat) (events : List SchedEvent) (b : CreditQueue NvmeCtx) : Prop where
  costs : ∀ ctx ∈ b.waiting, 0 ≤ ctx.reqCost
  balance : b.credit + issuedCost q events + eventSum q SchedEvent.lcGift events ≤ eventSum q SchedEvent.lcGain events
  deficit : ∀ most, (∀ ctx ∈ issuedBy q events, ctx.reqCost ≤ most) → 0 < cfg.tokenDeficitLimit + most →
    -cfg.tokenDeficitLimit - most < b.credit
  always : ∀ most, (∀ ctx ∈ issuedBy q events, ctx.reqCost ≤ most) → 0 < cfg.tokenDeficitLimit + most → ∀ p, p <+: events →
    issuedCost q p + eventSum q SchedEvent.lcGift p < eventSum q SchedEvent.lcGain p + cfg.tokenDeficitLimit + most

namespace Metered

variable {x : ℚ} {more : List SchedEvent} {b : CreditQueue NvmeCtx}

theorem start (costs : ∀ ctx ∈ b.waiting, 0 ≤ ctx.reqCost) (credit : b.credit = 0) : Metered cfg q [] b := by
  refine ⟨costs, ?_, fun most _ room => ?_, fun most _ room p initial => ?_⟩
  · rw [credit]
    rfl
  · rw [credit]
    omega
  · rw [prefix_nil.1 initial]
    simpa [issuedCost, issuedBy, eventSum] using room

theorem other (metered : Metered cfg q events b) (others : ∀ e ∈ more, e.queue ≠ some q) : Metered cfg q (events ++ more) b := by
  have issued : issuedBy q (events ++ more) = issuedBy q events := by rw [issuedBy_append, issuedBy_other others, append_nil]
  have sums : ∀ l, l <+: more → issuedCost q (events ++ l) = issuedCost q events ∧
      ∀ f, eventSum q f (events ++ l) = eventSum q f events := by
    intro l initial
    have quiet : ∀ e ∈ l, e.queue ≠ some q := fun e mem => others e (initial.subset mem)
    exact ⟨by simp [issuedCost_other quiet], fun f => by simp [eventSum_other f quiet]⟩
  obtain ⟨cost, sum⟩ := sums more prefix_rfl
  refine ⟨metered.costs, ?_, fun most bound => ?_, fun most bound room p initial => ?_⟩
  · rw [cost, sum, sum]
    exact metered.balance
  · exact metered.deficit most (issued ▸ bound)
  · rw [issued] at bound
    rcases prefix_or_prefix_of_prefix initial (prefix_append events more) with earlier | ⟨l, rfl⟩
    · exact metered.always most bound room p earlier
    · obtain ⟨cost, sum⟩ := sums l ((prefix_append_right_inj events).1 initial)
      rw [cost, sum, sum]
      exact metered.always most bound room events prefix_rfl

theorem push (metered : Metered cfg q events b) {ctx : NvmeCtx} (cost : 0 ≤ ctx.reqCost) :
    Metered cfg q events ⟨b.waiting ++ [ctx], b.credit⟩ := by
  refine ⟨fun x mem => ?_, metered.balance, metered.deficit, metered.always⟩
  rcases mem_append.1 mem with old | new
  · exact metered.costs x old
  · rw [mem_singleton.1 new]
    exact cost

theorem bound_of_balance {credit cost gift gain most} (balance : credit + cost + gift ≤ gain)
    (deficit : -cfg.tokenDeficitLimit - most < credit) : cost + gift < gain + cfg.tokenDeficitLimit + most := by
  linarith

theorem round (metered : Metered cfg q events b) (nonneg : 0 ≤ x) :
    Metered cfg q (events ++ lcEvents cfg q x b) (lcRound cfg x b) := by
  have gain : 0 ≤ truncToInt 64 x := truncToInt_nonneg 64 nonneg
  have paid := lcServe_credit cfg x b
  have order := lcServe_waiting cfg x b
  have before := metered.balance
  have costs : ∀ ctx ∈ (lcRound cfg x b).waiting, 0 ≤ ctx.reqCost := by
    intro ctx mem
    apply metered.costs ctx
    rw [← order]
    exact mem_append_right _ mem
  have balance : (lcRound cfg x b).credit + issuedCost q (events ++ lcEvents cfg q x b) +
      eventSum q lcGift (events ++ lcEvents cfg q x b) ≤ eventSum q lcGain (events ++ lcEvents cfg q x b) := by
    have cost : issuedCost q (lcEvents cfg q x b) = totalCost reqCost (lcServe cfg x b).1 := by
      rw [issuedCost, lcEvents_issued]
    rw [issuedCost_append, eventSum_append, eventSum_append, lcEvents_gain, lcEvents_gift, cost]
    rcases em (truncToInt 64 (3 * x) < (lcServe cfg x b).2.credit) with gives | keeps
    · have given := (lcRound_donation gives nonneg).2.2
      linarith
    · obtain ⟨kept, none⟩ := lcRound_kept keeps
      rw [kept, none, Option.getD_none, Nat.cast_zero]
      linarith
  -- the credit at any point of the loop
  have within : ∀ most, (∀ ctx ∈ issuedBy q (events ++ lcEvents cfg q x b), ctx.reqCost ≤ most) → 0 < cfg.tokenDeficitLimit + most →
      -cfg.tokenDeficitLimit - most < b.credit ∧ ∀ l, l <+: (lcServe cfg x b).1 →
        -cfg.tokenDeficitLimit - most < b.credit + truncToInt 64 x - totalCost reqCost l := by
    intro most bound room
    rw [issuedBy_append, lcEvents_issued] at bound
    have credit := metered.deficit most (fun ctx mem => bound ctx (mem_append_left _ mem)) room
    refine ⟨credit, fun l served => serve_deficit (fun _ _ burst => burst) served (by linarith) fun ctx mem => ?_⟩
    exact bound ctx (mem_append_right _ (served.subset mem))
  have deficit : ∀ most, (∀ ctx ∈ issuedBy q (events ++ lcEvents cfg q x b), ctx.reqCost ≤ most) → 0 < cfg.tokenDeficitLimit + most →
      -cfg.tokenDeficitLimit - most < (lcRound cfg x b).credit := by
    intro most bound room
    rcases em (truncToInt 64 (3 * x) < (lcServe cfg x b).2.credit) with gives | keeps
    · have kept := (lcRound_donation gives nonneg).1
      linarith
    · rw [(lcRound_kept keeps).1, paid]
      exact (within most bound room).2 _ prefix_rfl
  refine ⟨costs, balance, deficit, fun most bound room p initial => ?_⟩
  rcases prefix_or_prefix_of_prefix initial (prefix_append events _) with earlier | ⟨r, rfl⟩
  · refine metered.always most (fun ctx mem => bound ctx ?_) room p earlier
    rw [issuedBy_append]
    exact mem_append_left _ mem
  · rcases prefix_lcEvents ((prefix_append_right_inj events).1 initial) with rfl | rfl | ⟨l, served, rfl⟩
    · rw [append_nil]
      exact bound_of_balance before (within most bound room).1
    · exact bound_of_balance balance (deficit most bound room)
    · have credit := (within most bound room).2 l served
      have sums := lcEvents_sums q (truncToInt 64 x) l
      rw [issuedCost_append, eventSum_append, eventSum_append, sums.1, sums.2.1, issuedCost, issuedCost, sums.2.2]
      rw [issuedCost] at before
      linarith

end Metered

/-- The credit is at most three times some value of `token_increment` computed so far. -/
def Capped (xs : List ℚ) (credit : ℤ) : Prop := credit ≤ 0 ∨ ∃ x ∈ xs, (credit : ℚ) ≤ 3 * x

theorem Capped.round {xs x} {b : CreditQueue NvmeCtx} (capped : Capped xs b.credit) (computed : x ∈ xs)
    (nonneg : 0 ≤ x) (costs : ∀ ctx ∈ b.waiting, 0 ≤ ctx.reqCost) : Capped xs (lcRound cfg x b).credit := by
  right
  have spent : 0 ≤ totalCost reqCost (lcServe cfg x b).1 := by
    apply totalCost_nonneg
    intro ctx mem
    apply costs ctx
    rw [← lcServe_waiting cfg x b]
    exact mem_append_left _ mem
  have gain := truncToInt_le 64 nonneg
  rcases em (truncToInt 64 (3 * x) < (lcServe cfg x b).2.credit) with gives | keeps
  · have kept := (lcRound_donation gives nonneg).2.1
    have served : ((lcServe cfg x b).2.credit : ℚ) ≤ b.credit + x := by
      have paid : ((lcServe cfg x b).2.credit : ℚ) ≤ b.credit + truncToInt 64 x := by
        rw [lcServe_credit]
        push_cast
        have := Int.cast_nonneg (R := ℚ) spent
        linarith
      linarith
    rcases capped with poor | ⟨y, earlier, rich⟩
    · have poor : (b.credit : ℚ) ≤ 0 := by exact_mod_cast poor
      exact ⟨x, computed, by linarith⟩
    · rcases le_total y x with less | more
      · exact ⟨x, computed, by linarith⟩
      · exact ⟨y, earlier, by linarith⟩
  · refine ⟨x, computed, ?_⟩
    rw [(lcRound_kept keeps).1]
    have limit : ((lcServe cfg x b).2.credit : ℚ) ≤ truncToInt 64 (3 * x) := by exact_mod_cast not_lt.1 keeps
    exact limit.trans (truncToInt_le 64 (by linarith))

theorem Capped.mono {xs ys credit} (capped : Capped xs credit) (more : xs ⊆ ys) : Capped ys credit :=
  capped.imp_right fun ⟨x, computed, bound⟩ => ⟨x, more computed, bound⟩

/-! ## What a tenant is entitled to -/

/-- Since the credit was `c₀` all increments have been spent on requests, and if the queue
has been served at all, the burst has been used up as well. -/
structure Owed (cfg : Cfg) (q : Nat) (c₀ : ℤ) (served : Prop) (events : List SchedEvent) (credit : ℤ) : Prop where
  balance : credit + issuedCost q events = c₀ + eventSum q SchedEvent.lcGain events
  none : ∀ n, .lcDonate q n ∉ events
  deficit : served → credit ≤ -cfg.tokenDeficitLimit

/-- During a round this holds as long as requests wait. -/
def Backlogged (cfg : Cfg) (q : Nat) (c₀ : ℤ) (served : Prop) (events : List SchedEvent) (b : CreditQueue NvmeCtx) : Prop :=
  b.waiting = [] ∨ Owed cfg q c₀ served events b.credit

section Entitled

variable {served : Prop} {x : ℚ} {more : List SchedEvent} {b : CreditQueue NvmeCtx}

theorem Owed.other {credit} (owed : Owed cfg q c₀ served events credit) (others : ∀ e ∈ more, e.queue ≠ some q) :
    Owed cfg q c₀ served (events ++ more) credit := by
  refine ⟨?_, fun n mem => ?_, owed.deficit⟩
  · rw [issuedCost_append, eventSum_append, issuedCost_other others, eventSum_other _ others, add_zero, add_zero]
    exact owed.balance
  · rcases mem_append.1 mem with old | new
    · exact owed.none n old
    · exact others _ new rfl

theorem Backlogged.other (backlogged : Backlogged cfg q c₀ served events b) (others : ∀ e ∈ more, e.queue ≠ some q) :
    Backlogged cfg q c₀ served (events ++ more) b :=
  backlogged.imp_right fun owed => owed.other others

theorem Backlogged.round (limit : 0 ≤ cfg.tokenDeficitLimit) (nonneg : 0 ≤ x) (backlogged : Backlogged cfg q c₀ served events b)
    (after : Prop) : Backlogged cfg q c₀ after (events ++ lcEvents cfg q x b) (lcRound cfg x b) := by
  rcases serve_stops reqCost (withinBurst cfg) b.waiting (b.credit + truncToInt 64 x)
    with empty | ⟨ctx, rest, waits, stop⟩
  · exact .inl empty
  · have spent : (lcServe cfg x b).2.credit ≤ -cfg.tokenDeficitLimit := not_lt.1 stop
    have threshold : 0 ≤ truncToInt 64 (3 * x) := truncToInt_nonneg 64 (by linarith)
    have keeps : ¬ truncToInt 64 (3 * x) < (lcServe cfg x b).2.credit := by omega
    obtain ⟨kept, gift⟩ := lcRound_kept keeps
    rcases backlogged with idle | owed
    · have before := lcServe_waiting cfg x b
      have more : (lcServe cfg x b).2.waiting = ctx :: rest := waits
      rw [idle, more] at before
      simp at before
    · right
      refine ⟨?_, fun n mem => ?_, fun _ => ?_⟩
      · have paid := lcServe_credit cfg x b
        have before := owed.balance
        rw [issuedCost_append, eventSum_append, lcEvents_gain, kept, paid]
        simp only [issuedCost, lcEvents_issued] at before ⊢
        linarith
      · rcases mem_append.1 mem with old | new
        · exact owed.none n old
        · simp [lcEvents, gift] at new
      · rw [kept]
        exact spent

end Entitled

/-! ## Rounds and submissions -/

/-- A latency-critical tenant with a non-negative rate and its queue. -/
structure Reserves (s : NvmeState) (q : Nat) : Prop where
  rings : ∀ k, (s.swqs k).Wf
  critical : s.critical q = true
  rate : 0 ≤ (s.nvmeFgs (s.swqs q).fgHandle).scaledIOPuSLimit

section Reserves

variable {cpu timeDelta : Nat}

theorem Reserves.sameTenants (reserves : Reserves s q) (same : SameTenants s t) (rings : ∀ k, (t.swqs k).Wf) : Reserves t q := by
  refine ⟨rings, (same.critical q).trans reserves.critical, ?_⟩
  rw [same.registry, same.handles]
  exact reserves.rate

theorem Reserves.tokenIncrement_nonneg (reserves : Reserves s q) (timeDelta : Nat) : 0 ≤ s.tokenIncrement q timeDelta := by
  have credit := mul_nonneg reserves.rate (Nat.cast_nonneg timeDelta)
  unfold tokenIncrement
  linarith

theorem tokenIncrement_sameTenants (same : SameTenants s t) (timeDelta : Nat) :
    t.tokenIncrement q timeDelta = s.tokenIncrement q timeDelta := by
  rw [tokenIncrement, tokenIncrement, same.registry, same.handles]

variable {P : List SchedEvent → CreditQueue NvmeCtx → Prop}

theorem Services.critical_queue (chain : Services cfg cpu timeDelta s t) (reserves : Reserves s q)
    (other : ∀ events b more, P events b → (∀ e ∈ more, e.queue ≠ some q) → P (events ++ more) b)
    (own : q ∈ (s.nvmeTenantManager cpu).tenantSwq → ∀ events b, P events b →
      P (events ++ lcEvents cfg q (s.tokenIncrement q timeDelta) b) (lcRound cfg (s.tokenIncrement q timeDelta) b))
    (trace : s.trace = old ++ events) (start : P events (s.swqs q).onCredit) :
    Reserves t q ∧ ∃ events', t.trace = old ++ events' ∧ P events' (t.swqs q).onCredit := by
  suffices SameTenants s t ∧ Reserves t q ∧ ∃ events', t.trace = old ++ events' ∧ P events' (t.swqs q).onCredit from this.2
  refine chain.invariant (I := fun u => SameTenants s u ∧ Reserves u q ∧ ∃ events', u.trace = old ++ events' ∧
    P events' (u.swqs q).onCredit) (fun u v service before => ?_) ⟨.refl s, reserves, events, trace, start⟩
  obtain ⟨same, reserves, events', log, holds⟩ := before
  have after := service.sameTenants
  rcases service.critical_queue reserves.rings reserves.critical with spares | ⟨member, rings, served, grown⟩
  · obtain ⟨more, grown, others⟩ := spares.trace
    refine ⟨same.trans after, reserves.sameTenants after spares.rings, events' ++ more, by rw [grown, log, append_assoc], ?_⟩
    rw [spares.queue]
    exact other _ _ _ holds others
  · rw [tokenIncrement_sameTenants same] at served grown
    rw [same.managers] at member
    rw [log, append_assoc] at grown
    refine ⟨same.trans after, reserves.sameTenants after rings, _, grown, ?_⟩
    rw [served]
    exact own member _ _ holds

/-- The round of thread `cpu` has a turn for queue `q`. -/
def NvmeState.Schedules (s : NvmeState) (cpu q : Nat) : Prop :=
  (s.nvmeTenantManager cpu).numTenants ≠ 0 ∧ q ∈ (s.nvmeTenantManager cpu).tenantSwq

instance (s : NvmeState) (cpu q : Nat) : Decidable (s.Schedules cpu q) := inferInstanceAs (Decidable (_ ∧ _))

theorem nvmeSched_critical_queue (round : nvmeSched cfg s cpu now tsc = some t) (reserves : Reserves s q)
    (other : ∀ events b more, P events b → (∀ e ∈ more, e.queue ≠ some q) → P (events ++ more) b)
    (own : s.Schedules cpu q → ∀ events b, P events b →
      P (events ++ lcEvents cfg q (s.tokenIncrement q (wsub 64 now (s.lastSchedTime cpu))) b)
        (lcRound cfg (s.tokenIncrement q (wsub 64 now (s.lastSchedTime cpu))) b))
    (trace : s.trace = old ++ events) (start : P events (s.swqs q).onCredit) :
    Reserves t q ∧ ∃ events', t.trace = old ++ events' ∧ P events' (t.swqs q).onCredit := by
  rcases em ((s.nvmeTenantManager cpu).numTenants = 0) with none | counted
  · have idles := nvmeSched_idle none round
    refine ⟨reserves.sameTenants (nvmeSched_sameTenants round) (idles.queues ▸ reserves.rings), events, idles.trace.trans trace, ?_⟩
    rw [idles.queues]
    exact start
  · have clocked : Reserves (s.atTime cpu now) q := reserves.sameTenants ⟨rfl, rfl, rfl, fun _ => rfl⟩ reserves.rings
    exact (nvmeSched_services round).critical_queue clocked other (fun member => own ⟨counted, member⟩) trace start

theorem Submits.critical_queue {request ret} (submits : Submits cfg s request ret t) (reserves : Reserves s q) :
    Reserves t q ∧ ∃ more, t.trace = s.trace ++ more ∧ (∀ e ∈ more, e.queue ≠ some q) ∧
      ((t.swqs q).onCredit = (s.swqs q).onCredit ∨
        ∃ ctx, request = some ctx ∧ (t.swqs q).onCredit = ⟨(s.swqs q).pending ++ [ctx], (s.swqs q).tokenCredit⟩) := by
  have same := submits.sameTenants
  cases submits with
  | refused => exact ⟨reserves, [], (append_nil _).symm, fun e mem => absurd mem not_mem_nil, .inl rfl⟩
  | @queued ctx k swq built queue push =>
    obtain ⟨ring, waiting, -, -, credit⟩ := pushBack_spec (reserves.rings k) push
    refine ⟨reserves.sameTenants same fun j => ?_, [], (append_nil _).symm, fun e mem => absurd mem not_mem_nil, ?_⟩
    · rcases eq_or_ne j k with rfl | different
      · simpa [setSwq] using ring
      · simpa [setSwq, different] using reserves.rings j
    · rcases eq_or_ne q k with rfl | different
      · refine .inr ⟨ctx, built, ?_⟩
        simp [setSwq, NvmeSwQueue.onCredit, waiting, credit]
      · left
        simp [setSwq, different]
  | @direct ctx cmd lba lbaCount payload off =>
    refine ⟨reserves.sameTenants same reserves.rings, [.direct ctx cmd lba lbaCount payload], rfl, fun e mem => ?_, .inl rfl⟩
    rw [mem_singleton.1 mem]
    exact Option.some_ne_none q ∘ Eq.symm

theorem Submits.credit {request ret} (submits : Submits cfg s request ret t) (reserves : Reserves s q) :
    (t.swqs q).tokenCredit = (s.swqs q).tokenCredit := by
  obtain ⟨-, -, -, -, kept | ⟨ctx, -, pushed⟩⟩ := submits.critical_queue reserves
  · exact congrArg CreditQueue.credit kept
  · exact congrArg CreditQueue.credit pushed

end Reserves

/-! ## Runs -/

/-- The values of `token_increment` that a call computes for queue `q`. -/
def IoOp.increments (q : Nat) (s : NvmeState) : IoOp → List ℚ
  | .sched cpu now _ => if s.Schedules cpu q then [s.tokenIncrement q (wsub 64 now (s.lastSchedTime cpu))] else []
  | _ => []

/-- Rounds and submissions of non-negative cost, with the values of `token_increment`
computed for queue `q` so far. -/
def MeteredStep (cfg : Cfg) (q : Nat) (a : NvmeState × List ℚ) (op : IoOp) (b : NvmeState × List ℚ) : Prop :=
  Guarded (IoStep cfg) (IoOp.Serves cfg) a.1 op b.1 ∧ b.2 = a.2 ++ op.increments q a.1

/-- The bounds of a run that starts with the trace `old`. -/
structure Bounded (cfg : Cfg) (q : Nat) (old : List SchedEvent) (a : NvmeState × List ℚ) : Prop where
  reserves : Reserves a.1 q
  metered : ∃ events, a.1.trace = old ++ events ∧ Metered cfg q events (a.1.swqs q).onCredit
  capped : Capped a.2 (a.1.swqs q).tokenCredit
  nonneg : ∀ x ∈ a.2, 0 ≤ x

theorem increments_nonneg (reserves : Reserves s q) (op : IoOp) : ∀ x ∈ op.increments q s, 0 ≤ x := by
  intro x mem
  cases op with
  | sched cpu now tsc =>
    rw [IoOp.increments] at mem
    split at mem
    · rw [mem_singleton.1 mem]
      exact reserves.tokenIncrement_nonneg _
    · exact absurd mem not_mem_nil
  | _ => exact absurd mem not_mem_nil

theorem MeteredStep.bounded {a b op}
    (step : MeteredStep cfg q a op b) (before : Bounded cfg q old a) : Bounded cfg q old b := by
  obtain ⟨s, xs⟩ := a
  obtain ⟨t, ys⟩ := b
  obtain ⟨⟨⟨ret, returns⟩, serves⟩, rfl : ys = xs ++ op.increments q s⟩ := step
  obtain ⟨reserves, ⟨events, log, metered⟩, capped, nonneg⟩ := before
  have computed : ∀ x ∈ xs ++ op.increments q s, 0 ≤ x := by
    intro x mem
    rcases mem_append.1 mem with earlier | now
    · exact nonneg x earlier
    · exact increments_nonneg reserves op x now
  have capped : Capped (xs ++ op.increments q s) (s.swqs q).onCredit.credit := capped.mono (subset_append_left _ _)
  rcases returns.inv with ⟨r, reg, -⟩ | submits | ⟨cpu, now, tsc, rfl, round⟩
  · exact absurd reg (serves.fixed r)
  · obtain ⟨after, more, grown, others, change⟩ := submits.critical_queue reserves
    have credit := submits.credit reserves
    refine ⟨after, ⟨events ++ more, by rw [grown, log, append_assoc], ?_⟩, credit ▸ capped, computed⟩
    rcases change with kept | ⟨ctx, built, pushed⟩
    · rw [kept]
      exact metered.other others
    · rw [pushed]
      exact (metered.push (serves.cost ctx built)).other others
  · have rate := reserves.tokenIncrement_nonneg (wsub 64 now (s.lastSchedTime cpu))
    have known : s.Schedules cpu q → s.tokenIncrement q (wsub 64 now (s.lastSchedTime cpu)) ∈
        xs ++ (IoOp.sched cpu now tsc).increments q s := by
      intro turn
      rw [IoOp.increments, if_pos turn]
      exact mem_append_right _ (mem_singleton_self _)
    obtain ⟨after, events', log', metered', capped'⟩ := nvmeSched_critical_queue round reserves
      (P := fun events b => Metered cfg q events b ∧ Capped (xs ++ (IoOp.sched cpu now tsc).increments q s) b.credit)
      (fun _ _ _ holds others => ⟨holds.1.other others, holds.2⟩)
      (fun turn _ _ holds => ⟨holds.1.round rate, holds.2.round (known turn) rate holds.1.costs⟩) log ⟨metered, capped⟩
    exact ⟨after, ⟨events', log', metered'⟩, capped', computed⟩

/-- The call is a round that has a turn for queue `q`. -/
def IoOp.Turn (q : Nat) (s : NvmeState) (op : IoOp) : Prop := ∃ cpu now tsc, op = .sched cpu now tsc ∧ s.Schedules cpu q

/-- Rounds and submissions of non-negative cost; each round that serves queue `q` leaves
requests in it. -/
def BacklogStep (cfg : Cfg) (q : Nat) (s : NvmeState) (op : IoOp) (t : NvmeState) : Prop :=
  Guarded (IoStep cfg) (IoOp.Serves cfg) s op t ∧ (op.Turn q s → (t.swqs q).pending ≠ [])

section

variable (limit : 0 ≤ cfg.tokenDeficitLimit)
include limit

theorem nvmeSched_owed {cpu} (reserves : Reserves s q) (round : nvmeSched cfg s cpu now tsc = some t)
    (waits : s.Schedules cpu q → (t.swqs q).pending ≠ [])
    {served} (log : s.trace = old ++ events)
    (owed : Owed cfg q c₀ served events (s.swqs q).tokenCredit) :
    Reserves t q ∧ ∃ events', t.trace = old ++ events' ∧ Owed cfg q c₀ (served ∨ s.Schedules cpu q) events' (t.swqs q).tokenCredit := by
  have rate := reserves.tokenIncrement_nonneg (wsub 64 now (s.lastSchedTime cpu))
  rcases em (s.Schedules cpu q) with turn | never
  · -- the chain is cut at the queue's turn, after which the deficit is certain
    obtain ⟨u, n, before, after⟩ := nvmeSched_serves turn.2 reserves.critical turn.1 round
    have clocked : Reserves (s.atTime cpu now) q := reserves.sameTenants ⟨rfl, rfl, rfl, fun _ => rfl⟩ reserves.rings
    obtain ⟨first, events₁, log₁, backlogged₁⟩ := before.critical_queue clocked (P := Backlogged cfg q c₀ served)
      (fun _ _ _ => .other) (fun _ _ _ holds => holds.round limit rate served) log (.inr owed)
    have same : u.tokenIncrement q (wsub 64 now (s.lastSchedTime cpu)) = s.tokenIncrement q (wsub 64 now (s.lastSchedTime cpu)) :=
      tokenIncrement_sameTenants before.sameTenants _
    obtain ⟨-, -, credit, -⟩ := serveLc_spec cfg cpu (wsub 64 now (s.lastSchedTime cpu)) (first.rings q) n
    have serves := serveLc_serving cfg cpu (wsub 64 now (s.lastSchedTime cpu)) n (first.rings q)
    rw [same] at serves credit
    generalize (serveLc cfg cpu (wsub 64 now (s.lastSchedTime cpu)) q u n).1 = v at after serves credit
    have second : Reserves v q := first.sameTenants serves.tenants (serves.rings first.rings)
    have rate' : 0 ≤ v.tokenIncrement q (wsub 64 now (s.lastSchedTime cpu)) := second.tokenIncrement_nonneg _
    have log₂ := serves.trace
    rw [log₁, append_assoc] at log₂
    obtain ⟨third, events₂, log₃, backlogged₂⟩ := after.critical_queue second
      (P := Backlogged cfg q c₀ (served ∨ s.Schedules cpu q)) (fun _ _ _ => .other) (fun _ _ _ holds => holds.round limit rate' _)
      log₂ (credit ▸ backlogged₁.round limit rate _)
    exact ⟨third, events₂, log₃, backlogged₂.resolve_left (waits turn)⟩
  · obtain ⟨after, events', log', owed'⟩ := nvmeSched_critical_queue round reserves
      (P := fun events b => Owed cfg q c₀ served events b.credit) (fun _ _ _ => .other) (fun turn => absurd turn never) log owed
    exact ⟨after, events', log', owed'.balance, owed'.none, fun either => owed'.deficit (either.resolve_right never)⟩

theorem BacklogStep.owed {op} (step : BacklogStep cfg q s op t) (reserves : Reserves s q) {served}
    (log : s.trace = old ++ events) (owed : Owed cfg q c₀ served events (s.swqs q).tokenCredit) :
    SameTenants s t ∧ Reserves t q ∧ ∃ events', t.trace = old ++ events' ∧
      Owed cfg q c₀ (served ∨ op.Turn q s) events' (t.swqs q).tokenCredit := by
  obtain ⟨⟨⟨ret, returns⟩, serves⟩, waits⟩ := step
  rcases em (∃ cpu now tsc, op = .sched cpu now tsc) with ⟨cpu, now, tsc, rfl⟩ | call
  · obtain ⟨u, round, same⟩ := Option.map_eq_some_iff.1 returns.2
    cases same
    obtain ⟨after, events', log', owed'⟩ := nvmeSched_owed limit reserves round (fun turn => waits ⟨cpu, now, tsc, rfl, turn⟩) log owed
    refine ⟨nvmeSched_sameTenants round, after, events', log', owed'.balance, owed'.none, fun either => owed'.deficit ?_⟩
    rcases either with earlier | ⟨_, _, _, same, turn⟩
    · exact .inl earlier
    · cases same
      exact .inr turn
  · rcases returns.inv with ⟨r, reg, -⟩ | submits | ⟨cpu, now, tsc, round, -⟩
    · exact absurd reg (serves.fixed r)
    · obtain ⟨after, more, grown, others, change⟩ := submits.critical_queue reserves
      have credit := submits.credit reserves
      have owed' := owed.other others
      refine ⟨submits.sameTenants, after, events ++ more, by rw [grown, log, append_assoc], ?_⟩
      rw [credit]
      refine ⟨owed'.balance, owed'.none, fun either => owed'.deficit ?_⟩
      rcases either with earlier | ⟨cpu, now, tsc, round, -⟩
      · exact earlier
      · exact absurd ⟨cpu, now, tsc, round⟩ call
    · exact absurd ⟨cpu, now, tsc, round⟩ call

end

/-- What the registration of `loneFlow` leaves: with no best-effort tenant the flow is
boosted to the whole rate of the device. -/
structure LoneFlow (s : NvmeState) : Prop where
  live : s.Live 1
  critical : (s.nvmeFgs 1).latencyCriticalFlag = true
  rate : (s.nvmeFgs 1).scaledIOPuSLimit = 4294967295 / 10 ^ 6
  handle : (s.nvmeFgs 1).nvmeSwq = some 0
  managers : s.nvmeTenantManager = Function.update (fun _ => .empty) 0 ⟨[0], 1, 0⟩
  queue : s.swqs 0 = nvmeSwQueueInit .zero 1
  clock : s.lastSchedTime 0 = 0

theorem loneFlow_of_cold (table : s.toRegistry = .init) (managers : s.nvmeTenantManager = fun _ => .empty)
    (allocated : s.swqAllocated = fun _ => false) (queue : s.swqs 0 = .zero) (clock : s.lastSchedTime 0 = 0) :
    RegStep flatCfg s loneFlow (loneFlow.next flatCfg s) ∧ LoneFlow (loneFlow.next flatCfg s) := by
  have found : s.search 0 1 = .nextAvail 1 := table ▸ search_init 0 1
  have admitted : ¬ s.Refused flatCfg 0 1 0 ⟨1000, 0, 100⟩ := by
    rw [Registry.Refused, candidate_of_new found, slotFor_of_new found, table]
    decide +kernel
  have granted := congrArg Prod.snd (register_granted admitted 0)
  rw [prepareFlow_of_new found, Registry.slotFor, found] at granted
  have entry := congrArg (fun r => r.nvmeFgs 1) ((next_register flatCfg s 0 1 0 ⟨1000, 0, 100⟩ (some 0)).trans
    (registered_granted admitted 0))
  rw [slotFor_of_new found, candidate_of_new found, table, Registry.connected, publishRates_fg] at entry
  simp only [setFg_self] at entry
  refine ⟨⟨fresh_of_free (by rw [allocated]), rfl⟩, ?_, ?_, ?_, ?_, ?_, ?_, ?_⟩
  · rw [loneFlow, Registry.Live, entry]
    decide +kernel
  · rw [loneFlow, entry]
    decide +kernel
  · rw [loneFlow, entry]
    decide +kernel
  · rw [loneFlow, entry]
  · rw [loneFlow, RegOp.next, RegOp.run, granted]
    simp [linkFlow, post, setManager, setSwq, managers, TenantMgmt.empty]
  · rw [loneFlow, RegOp.next, RegOp.run, granted]
    simp [linkFlow, post, setManager, setSwq, queue, SlotSearch.handle]
  · rw [loneFlow, RegOp.next, RegOp.run, granted]
    exact clock

theorem sched_step {cpu} (round : nvmeSched cfg s cpu now tsc = some t) :
    IoStep cfg s (.sched cpu now tsc) t := by
  refine ⟨0, fun r same => ?_, ?_⟩
  · cases same
  · rw [IoOp.run, round]
    rfl

theorem LoneFlow.reserves (lone : LoneFlow s) (rings : ∀ k, (s.swqs k).Wf) : Reserves s 0 := by
  refine ⟨rings, ?_, ?_⟩
  · rw [NvmeState.critical, lone.queue]
    exact lone.critical
  · rw [lone.queue]
    exact lone.rate ▸ by norm_num

end Reflex.Nvme
