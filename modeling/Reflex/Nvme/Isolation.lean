import Reflex.Lib.Unwinding
import Reflex.Nvme.Housing
import Reflex.Nvme.Reserved

/-!
# Isolation of latency-critical tenants

What the scheduler issues for a latency-critical tenant in the rounds of its thread depends on what is
registered, on the clock and on the tenant's own submissions.
-/

namespace Reflex.Nvme
open Lib List NvmeCtx NvmeSwQueue Option

variable {s t : NvmeState} {op v : IoOp} {ret : Int} {family : NvmeCtx → Option Bool}

/-- A vectored submission, which writes other buffer words than a plain one. -/
def IoOp.vectored : IoOp → Bool
  | .writev _ _ _ _ _ _ _ _ | .readv _ _ _ _ _ _ _ _ => true
  | _ => false

/-- The words of a request that every submission writes. -/
def NvmeCtx.bare (ctx : NvmeCtx) : NvmeCtx := { ctx with userBuf := 0, numSgls := 0, currentSgl := 0, paddr := 0 }

/-- A request without what an earlier use of its context left there: the buffer words that its submission does not write.
The context does not say whether that was a vectored one; `family` does, where it is known. -/
def NvmeCtx.identity (family : NvmeCtx → Option Bool) (ctx : NvmeCtx) : NvmeCtx :=
  match family ctx.bare, ctx.cmd with
  | none, _ => ctx.bare
  | some true, _ => { ctx with currentSgl := 0, paddr := 0 }
  | some false, .read => { ctx with numSgls := 0, currentSgl := 0 }
  | some false, .write => { ctx with userBuf := 0, numSgls := 0, currentSgl := 0 }

theorem NvmeCtx.identity_reqCost (family : NvmeCtx → Option Bool) (ctx : NvmeCtx) : (ctx.identity family).reqCost = ctx.reqCost := by
  unfold identity
  split <;> rfl

/-- The tenant of slot `h` cannot tell the states apart: what is registered and the clock
of thread `cpu` agree, and so do its queues in the list of the thread. -/
structure Alike (family : NvmeCtx → Option Bool) (cpu h : Nat) (s t : NvmeState) : Prop where
  tenants : SameTenants s t
  device : t.device = s.device
  clock : t.lastSchedTime cpu = s.lastSchedTime cpu
  queues : ∀ q ∈ (s.nvmeTenantManager cpu).tenantSwq, (s.swqs q).fgHandle = h →
    (t.swqs q).onCredit.map (NvmeCtx.identity family) = (s.swqs q).onCredit.map (NvmeCtx.identity family)

theorem SameTenants.symm (same : SameTenants s t) : SameTenants t s :=
  ⟨same.registry.symm, same.managers.symm, same.pool.symm, fun q => (same.handles q).symm⟩

namespace Alike

variable {cpu h : Nat} {u : NvmeState}

theorem symm (alike : Alike family cpu h s t) : Alike family cpu h t s := by
  refine ⟨alike.tenants.symm, alike.device.symm, alike.clock.symm, fun q member handle => (alike.queues q ?_ ?_).symm⟩
  · rwa [alike.tenants.managers] at member
  · rwa [alike.tenants.handles] at handle

theorem trans (first : Alike family cpu h s t) (second : Alike family cpu h t u) : Alike family cpu h s u := by
  refine ⟨first.tenants.trans second.tenants, second.device.trans first.device, second.clock.trans first.clock,
    fun q member handle => (second.queues q ?_ ?_).trans (first.queues q member handle)⟩
  · rwa [first.tenants.managers]
  · rwa [first.tenants.handles]

theorem of_unchanged (tenants : SameTenants s t) (device : t.device = s.device) (clock : t.lastSchedTime cpu = s.lastSchedTime cpu)
    (queues : ∀ q ∈ (s.nvmeTenantManager cpu).tenantSwq, (s.swqs q).fgHandle = h → t.swqs q = s.swqs q) : Alike family cpu h s t :=
  ⟨tenants, device, clock, fun q member handle => by rw [queues q member handle]⟩

theorem of_idles (idles : Idles s t) : Alike family cpu h s t :=
  .of_unchanged idles.tenants idles.device (by rw [idles.clock]) fun q _ _ => by rw [idles.queues]

theorem of_serving {k events} (serving : Serving k events s t)
    (other : k ∈ (s.nvmeTenantManager cpu).tenantSwq → (s.swqs k).fgHandle ≠ h) : Alike family cpu h s t := by
  refine .of_unchanged serving.tenants serving.device (by rw [serving.clock]) fun q member handle => serving.others q ?_
  rintro rfl
  exact other member handle

end Alike

/-! ## What the tenant does not see -/

section Unseen

variable {cfg : Cfg} {cpu h : Nat}

theorem nvmeSched_unseen (sound : Sound cfg s) {i now tsc} (other : i ≠ cpu) (round : nvmeSched cfg s i now tsc = some t) :
    Sound cfg t ∧ Alike family cpu h s t := by
  have clocked : Sound cfg (s.atTime i now) := sound.sameTenants ⟨rfl, rfl, rfl, fun _ => rfl⟩ sound.rings sound.own
  have start : Alike family cpu h s (s.atTime i now) :=
    .of_unchanged ⟨rfl, rfl, rfl, fun _ => rfl⟩ rfl (by simp [NvmeState.atTime, other.symm]) fun _ _ _ => rfl
  refine (nvmeSched_services round).invariant (I := fun u => Sound cfg u ∧ Alike family cpu h s u) (fun u v service before => ?_)
    ⟨clocked, start⟩
  obtain ⟨sound, alike⟩ := before
  rcases service.inv sound.rings with ⟨k, events, member, serving⟩ | idles
  · have elsewhere : k ∉ (u.nvmeTenantManager cpu).tenantSwq := fun here => other (sound.housed.disjoint i cpu k member here)
    exact ⟨sound.serving serving, alike.trans (.of_serving serving fun here => absurd here elsewhere)⟩
  · exact ⟨sound.idles idles, alike.trans (.of_idles idles)⟩

theorem Submits.unseen (sound : Sound cfg s) {request} (submits : Submits cfg s request ret t)
    (connected : ∀ ctx, request = some ctx → s.Live ctx.fgHandle) (other : ∀ ctx, request = some ctx → ctx.fgHandle ≠ h) :
    Alike family cpu h s t := by
  have same := submits.sameTenants
  cases submits with
  | refused => exact .of_unchanged same rfl rfl fun _ _ _ => rfl
  | @queued ctx k swq built queue push =>
    refine .of_unchanged same rfl rfl fun q _ handle => ?_
    obtain ⟨j, own, place, -⟩ := sound.housed.slots _ (connected ctx built)
    obtain rfl : k = j := some.inj (queue.symm.trans own)
    have away : q ≠ k := by
      rintro rfl
      exact other ctx built (place.symm.trans handle)
    simp [NvmeState.setSwq, away]
  | direct off => exact .of_unchanged same rfl rfl fun _ _ _ => rfl

end Unseen

/-! ## The rounds of the thread -/

theorem lcServe_identity (family : NvmeCtx → Option Bool) (cfg : Cfg) (x : ℚ) (b : CreditQueue NvmeCtx) :
    lcServe cfg x (b.map (identity family)) =
      ((lcServe cfg x b).1.map (identity family), (lcServe cfg x b).2.map (identity family)) := by
  have costs : NvmeCtx.reqCost ∘ identity family = NvmeCtx.reqCost := funext (identity_reqCost family)
  have served : lcServe cfg x (b.map (identity family)) = _ := serve_map (identity family) b.waiting (b.credit + truncToInt 64 x)
  rw [costs] at served
  exact served

theorem lcRound_identity (cfg : Cfg) (x : ℚ) (b : CreditQueue NvmeCtx) :
    lcRound cfg x (b.map (identity family)) = (lcRound cfg x b).map (identity family) := by
  rw [lcRound, lcServe_identity]
  rfl

/-- Two runs of a round, with what has been issued for slot `h` since they started. -/
structure Lockstep (family : NvmeCtx → Option Bool) (cfg : Cfg) (cpu h : Nat) (old old' : List SchedEvent) (s t : NvmeState) : Prop where
  left : Sound cfg s
  right : Sound cfg t
  alike : Alike family cpu h s t
  issued : ∃ events events', s.trace = old ++ events ∧ t.trace = old' ++ events' ∧
    (issuedFor h events).map (NvmeCtx.identity family) = (issuedFor h events').map (NvmeCtx.identity family)

theorem issuedFor_append (h : Nat) (trace events : List SchedEvent) :
    issuedFor h (trace ++ events) = issuedFor h trace ++ issuedFor h events := by
  simp [issuedFor]

namespace Lockstep

variable {cfg : Cfg} {cpu h : Nat} {old old' : List SchedEvent} {s' t' : NvmeState}

section

variable (both : Lockstep family cfg cpu h old old' s t)
include both

theorem symm : Lockstep family cfg cpu h old' old t s := by
  obtain ⟨events, events', log, log', same⟩ := both.issued
  exact ⟨both.right, both.left, both.alike.symm, events', events, log', log, same.symm⟩

theorem idles (idles : Idles s s') : Lockstep family cfg cpu h old old' s' t := by
  obtain ⟨events, events', log, log', same⟩ := both.issued
  exact ⟨both.left.idles idles, both.right, (Alike.of_idles idles).symm.trans both.alike, events, events', idles.trace.trans log, log',
    same⟩

theorem aside {k more} (serving : Serving k more s s')
    (other : (s.swqs k).fgHandle ≠ h) : Lockstep family cfg cpu h old old' s' t := by
  obtain ⟨events, events', log, log', same⟩ := both.issued
  have silent : issuedFor h more = [] := by
    apply filter_eq_nil_iff.2
    intro ctx mem
    rw [both.left.issued serving ctx mem]
    simpa using other
  refine ⟨both.left.serving serving, both.right, (Alike.of_serving serving fun _ => other).symm.trans both.alike, events ++ more,
    events', ?_, log', ?_⟩
  · rw [serving.trace, log, append_assoc]
  · rw [issuedFor_append, silent, append_nil]
    exact same

theorem effort (services : EffortServices cfg cpu s s')
    (critical : ∀ q ∈ (s.nvmeTenantManager cpu).tenantSwq, (s.swqs q).fgHandle = h → s.critical q = true) :
    Lockstep family cfg cpu h old old' s' t := by
  suffices SameTenants s s' ∧ Lockstep family cfg cpu h old old' s' t from this.2
  induction services with
  | refl => exact ⟨.refl s, both⟩
  | @tail u v _ service ih =>
    obtain ⟨same, both⟩ := ih
    refine ⟨same.trans service.sameTenants, ?_⟩
    rcases service.inv both.left.rings with ⟨k, events, member, kind, serving⟩ | idles
    · refine both.aside serving fun handle => ?_
      rw [same.managers] at member
      rw [same.handles] at handle
      rw [same.critical, critical k member handle] at kind
      cases kind
    · exact both.idles idles

theorem tenant {q} (member : q ∈ (s.nvmeTenantManager cpu).tenantSwq)
    (handle : (s.swqs q).fgHandle = h) (timeDelta leftover leftover' : Nat) :
    Lockstep family cfg cpu h old old' (serveLc cfg cpu timeDelta q s leftover).1 (serveLc cfg cpu timeDelta q t leftover').1 := by
  have serving := serveLc_serving cfg cpu timeDelta leftover (both.left.rings q)
  have serving' := serveLc_serving cfg cpu timeDelta leftover' (both.right.rings q)
  obtain ⟨-, -, credit, -⟩ := serveLc_spec cfg cpu timeDelta (both.left.rings q) leftover
  obtain ⟨-, -, credit', -⟩ := serveLc_spec cfg cpu timeDelta (both.right.rings q) leftover'
  have increment : t.tokenIncrement q timeDelta = s.tokenIncrement q timeDelta := tokenIncrement_sameTenants both.alike.tenants _
  have queues := both.alike.queues q member handle
  rw [increment] at serving' credit'
  generalize (serveLc cfg cpu timeDelta q s leftover).1 = u at serving credit ⊢
  generalize (serveLc cfg cpu timeDelta q t leftover').1 = v at serving' credit' ⊢
  generalize s.tokenIncrement q timeDelta = x at serving serving' credit credit'
  have alike : Alike family cpu h u v := by
    refine ⟨serving.tenants.symm.trans (both.alike.tenants.trans serving'.tenants),
      serving'.device.trans (both.alike.device.trans serving.device.symm), ?_, fun k here own => ?_⟩
    · rw [serving'.clock, both.alike.clock, serving.clock]
    · rcases eq_or_ne k q with rfl | away
      · rw [credit, credit', ← lcRound_identity, queues, lcRound_identity]
      · rw [serving.others k away, serving'.others k away]
        apply both.alike.queues k
        · rwa [serving.tenants.managers] at here
        · rwa [serving.tenants.handles] at own
  -- all that is issued is the tenant's, and it is the same up to the identity
  have whole : ∀ {a b : NvmeState} {more : List SchedEvent}, Sound cfg a → Serving q more a b → (a.swqs q).fgHandle = h →
      issuedFor h more = more.filterMap SchedEvent.issued := by
    intro a b more sound serving handle
    apply filter_eq_self.2
    intro ctx mem
    rw [sound.issued serving ctx mem]
    simpa using handle
  obtain ⟨events, events', log, log', same⟩ := both.issued
  refine ⟨both.left.serving serving, both.right.serving serving', alike, events ++ lcEvents cfg q x (s.swqs q).onCredit,
    events' ++ lcEvents cfg q x (t.swqs q).onCredit, ?_, ?_, ?_⟩
  · rw [serving.trace, log, append_assoc]
  · rw [serving'.trace, log', append_assoc]
  · have served := congrArg Prod.fst (lcServe_identity family cfg x (s.swqs q).onCredit)
    have served' := congrArg Prod.fst (lcServe_identity family cfg x (t.swqs q).onCredit)
    rw [issuedFor_append, issuedFor_append, map_append, map_append, same, whole both.left serving handle,
      whole both.right serving' ((both.alike.tenants.handles q).trans handle), lcEvents_filterMap, lcEvents_filterMap]
    rw [queues] at served'
    exact congrArg _ (served.symm.trans served')

end

theorem list (timeDelta : Nat) (l : List Nat) {s t} (both : Lockstep family cfg cpu h old old' s t)
    (members : ∀ q ∈ l, q ∈ (s.nvmeTenantManager cpu).tenantSwq) (n m n' m' : Nat) :
    Lockstep family cfg cpu h old old' (l.foldl (subround1Queue cfg cpu timeDelta) (s, n, m)).1
      (l.foldl (subround1Queue cfg cpu timeDelta) (t, n', m')).1 := by
  induction l generalizing s t n m n' m' with
  | nil => exact both
  | cons q l ih =>
    have here := members q mem_cons_self
    have later : ∀ {u : NvmeState}, SameTenants s u → ∀ k ∈ l, k ∈ (u.nvmeTenantManager cpu).tenantSwq := by
      intro u same k mem
      rw [same.managers]
      exact members k (mem_cons_of_mem q mem)
    have kind := both.alike.tenants.critical q
    rw [foldl_cons, foldl_cons]
    cases critical : s.critical q with
    | false =>
      rw [critical] at kind
      rw [subround1Queue_effort cfg cpu timeDelta critical, subround1Queue_effort cfg cpu timeDelta kind]
      exact ih both (later (.refl s)) _ _ _ _
    | true =>
      rw [critical] at kind
      rw [subround1Queue_critical cfg cpu timeDelta critical, subround1Queue_critical cfg cpu timeDelta kind]
      have serving := serveLc_serving cfg cpu timeDelta n (both.left.rings q)
      rcases eq_or_ne (s.swqs q).fgHandle h with own | other
      · exact ih (both.tenant here own timeDelta n n') (later serving.tenants) _ _ _ _
      · have serving' := serveLc_serving cfg cpu timeDelta n' (both.right.rings q)
        have first := both.aside serving other
        have second := (first.symm.aside serving' (by rwa [both.alike.tenants.handles])).symm
        exact ih second (later serving.tenants) _ _ _ _

theorem round {now tsc tsc'} (both : Lockstep family cfg cpu h old old' s t)
    (critical : ∀ q ∈ (s.nvmeTenantManager cpu).tenantSwq, (s.swqs q).fgHandle = h → s.critical q = true)
    (round : nvmeSched cfg s cpu now tsc = some s') (round' : nvmeSched cfg t cpu now tsc' = some t') :
    Lockstep family cfg cpu h old old' s' t' := by
  have tenants := both.alike.tenants
  have clocked : Lockstep family cfg cpu h old old' (s.atTime cpu now) (t.atTime cpu now) := by
    obtain ⟨left, right, alike, issued⟩ := both
    refine ⟨left.sameTenants ⟨rfl, rfl, rfl, fun _ => rfl⟩ left.rings left.own, right.sameTenants ⟨rfl, rfl, rfl, fun _ => rfl⟩
      right.rings right.own, ⟨⟨alike.tenants.registry, alike.tenants.managers, alike.tenants.pool, alike.tenants.handles⟩,
        alike.device, ?_, alike.queues⟩, issued⟩
    simp [NvmeState.atTime]
  rcases em ((s.nvmeTenantManager cpu).numTenants = 0) with none | counted
  · have none' : (t.nvmeTenantManager cpu).numTenants = 0 := by rwa [tenants.managers]
    exact ((clocked.idles (nvmeSched_idle none round)).symm.idles (nvmeSched_idle none' round')).symm
  · have counted' : (t.nvmeTenantManager cpu).numTenants ≠ 0 := by rwa [tenants.managers]
    have first : Lockstep family cfg cpu h old old' (criticalServed cfg s cpu now) (criticalServed cfg t cpu now) := by
      unfold criticalServed
      rw [both.alike.clock, tenants.managers]
      exact clocked.list _ _ (fun _ mem => mem) 0 0 0 0
    have served : Services cfg cpu (wsub 64 now (s.lastSchedTime cpu)) (s.atTime cpu now) (criticalServed cfg s cpu now) :=
      subround1_services _ 0 0 fun _ mem => mem
    have same : SameTenants s (criticalServed cfg s cpu now) :=
      SameTenants.trans (t := s.atTime cpu now) ⟨rfl, rfl, rfl, fun _ => rfl⟩ served.sameTenants
    have kept : ∀ {u : NvmeState}, SameTenants s u → ∀ q ∈ (u.nvmeTenantManager cpu).tenantSwq, (u.swqs q).fgHandle = h →
        u.critical q = true := by
      intro u same q member handle
      rw [same.managers] at member
      rw [same.handles] at handle
      rw [same.critical]
      exact critical q member handle
    have second := first.effort (nvmeSched_effort counted round) (kept same)
    exact (second.symm.effort (nvmeSched_effort counted' round') (kept (same.trans first.alike.tenants))).symm

end Lockstep

/-! ## What the tenant does -/

/-- A call without what an earlier use of the allocated context left there. -/
def IoOp.plain : IoOp → IoOp
  | .write cpu h vaddr lba lbaCount cookie alloc => .write cpu h vaddr lba lbaCount cookie (alloc.map fun _ => .zero)
  | .read cpu h vaddr lba lbaCount cookie alloc => .read cpu h vaddr lba lbaCount cookie (alloc.map fun _ => .zero)
  | .writev cpu h buf numSgls lba lbaCount cookie alloc => .writev cpu h buf numSgls lba lbaCount cookie (alloc.map fun _ => .zero)
  | .readv cpu h buf numSgls lba lbaCount cookie alloc => .readv cpu h buf numSgls lba lbaCount cookie (alloc.map fun _ => .zero)
  | op => op

/-- What the tenant of slot `h` on thread `cpu` sees of a call: registration calls, the
rounds of its thread with their clocks, and its own submissions. -/
def IoOp.view (cpu h : Nat) (op : IoOp) : Option IoOp :=
  match op with
  | .reg r => some (.reg r)
  | .sched i now tsc => if i = cpu then some (.sched i now tsc) else none
  | op => if op.target = some h then some op.plain else none

section Submissions

variable {cfg : Cfg} {cpu h : Nat}

theorem request_target {ctx} (built : op.request cfg s = some ctx) : op.target = some ctx.fgHandle := by
  have handle : ∀ {cpu cmd fill h lba lbaCount cookie alloc},
      requested cfg s cpu cmd fill h lba lbaCount cookie alloc = some ctx → some h = some ctx.fgHandle := by
    intro cpu cmd fill h lba lbaCount cookie alloc request
    obtain ⟨_, _, rfl⟩ := map_eq_some_iff.1 request
    rfl
  cases op with
  | reg r => cases built
  | sched cpu now tsc => cases built
  | write => exact handle built
  | read => exact handle built
  | writev => exact handle built
  | readv => exact handle built

theorem identity_eq {ctx ctx' : NvmeCtx} {vectored : Bool} (bare : ctx.bare = ctx'.bare) (known : ∀ v, family ctx.bare = some v → v = vectored)
    (lists : vectored = true → ctx.userBuf = ctx'.userBuf ∧ ctx.numSgls = ctx'.numSgls)
    (buffers : vectored = false → ctx.paddr = ctx'.paddr ∧ (ctx.cmd = .read → ctx.userBuf = ctx'.userBuf)) :
    ctx.identity family = ctx'.identity family := by
  cases ctx
  cases ctx'
  simp only [NvmeCtx.bare, NvmeCtx.mk.injEq, true_and] at bare
  obtain ⟨rfl, rfl, rfl, rfl, rfl, rfl, rfl⟩ := bare
  unfold identity
  split <;> simp_all [NvmeCtx.bare]

/-- The identity of a request depends on the call only, not on the allocated context. -/
theorem plain_identity (on : cfg.nvmeSchedFlag = true) (known : ∀ ctx, op.request cfg s = some ctx → ∀ v, family ctx.bare = some v → v = op.vectored) :
    (op.request cfg s).map (identity family) = (op.plain.request cfg s).map (identity family) := by
  cases op with
  | reg r => rfl
  | sched cpu now tsc => rfl
  | write cpu h vaddr lba lbaCount cookie alloc =>
    cases alloc with
    | none => rfl
    | some ctx =>
      refine congrArg some (identity_eq ?_ (known _ rfl) ?_ ?_) <;> simp [NvmeCtx.bare, requestCtx, fillWrite, on, IoOp.vectored]
  | read cpu h vaddr lba lbaCount cookie alloc =>
    cases alloc with
    | none => rfl
    | some ctx =>
      refine congrArg some (identity_eq ?_ (known _ rfl) ?_ ?_) <;> simp [NvmeCtx.bare, requestCtx, fillRead, on, IoOp.vectored]
  | writev cpu h buf numSgls lba lbaCount cookie alloc =>
    cases alloc with
    | none => rfl
    | some ctx =>
      refine congrArg some (identity_eq ?_ (known _ rfl) ?_ ?_) <;> simp [NvmeCtx.bare, requestCtx, fillSgl, IoOp.vectored]
  | readv cpu h buf numSgls lba lbaCount cookie alloc =>
    cases alloc with
    | none => rfl
    | some ctx =>
      refine congrArg some (identity_eq ?_ (known _ rfl) ?_ ?_) <;> simp [NvmeCtx.bare, requestCtx, fillSgl, IoOp.vectored]

theorem request_identity (cfg : Cfg) (on : cfg.nvmeSchedFlag = true) (device : t.device = s.device) {op' : IoOp} (same : op'.plain = op.plain)
    (known : ∀ ctx, op.request cfg s = some ctx → ∀ v, family ctx.bare = some v → v = op.vectored)
    (known' : ∀ ctx, op'.request cfg t = some ctx → ∀ v, family ctx.bare = some v → v = op'.vectored) :
    (op'.request cfg t).map (identity family) = (op.request cfg s).map (identity family) := by
  have sector : t.globalNsSectorSize = s.globalNsSectorSize := congrArg Prod.snd device
  have table : ∀ op : IoOp, op.request cfg t = op.request cfg s := by
    intro op
    cases op <;> simp only [IoOp.request, requested, requestCtx, sector]
  rw [plain_identity on known', same, table, ← plain_identity on known]

/-- The queue after a push that may be refused. -/
def NvmeSwQueue.pushed (q : NvmeSwQueue) (ctx : NvmeCtx) : NvmeSwQueue := (nvmeSwQueuePushBack q ctx).getD q

theorem pushed_identity {q q' : NvmeSwQueue} (wf : q.Wf) (wf' : q'.Wf)
    (same : q'.onCredit.map (identity family) = q.onCredit.map (identity family)) {ctx ctx' : NvmeCtx}
    (request : ctx'.identity family = ctx.identity family) :
    (q'.pushed ctx').onCredit.map (identity family) = (q.pushed ctx).onCredit.map (identity family) := by
  have waiting : q'.pending.map (identity family) = q.pending.map (identity family) := congrArg CreditQueue.waiting same
  have credit : q'.tokenCredit = q.tokenCredit := congrArg CreditQueue.credit same
  have count : q'.count = q.count := by
    have lengths := congrArg length waiting
    rwa [length_map, length_map, pending_length, pending_length] at lengths
  rcases eq_or_ne q.count nvmeSwQueueSize with full | room
  · have stays : q.pushed ctx = q ∧ q'.pushed ctx' = q' := by
      simp [pushed, nvmeSwQueuePushBack, full, count]
    rw [stays.1, stays.2]
    exact same
  · obtain ⟨a, push⟩ : ∃ a, nvmeSwQueuePushBack q ctx = some a := by simp [nvmeSwQueuePushBack, room]
    obtain ⟨b, push'⟩ : ∃ b, nvmeSwQueuePushBack q' ctx' = some b := by simp [nvmeSwQueuePushBack, room, count]
    obtain ⟨-, more, -, -, kept⟩ := pushBack_spec wf push
    obtain ⟨-, more', -, -, kept'⟩ := pushBack_spec wf' push'
    rw [pushed, pushed, push, push', getD_some, getD_some]
    simp only [onCredit, CreditQueue.map, more, more', kept, kept', map_append, waiting, credit, map_cons, request]

theorem submission_queues (target : op.target = some h) (call : op.run cfg s = some (ret, t)) :
    t.swqs = s.swqs ∧ (cfg.nvmeSchedFlag = true → op.request cfg s = none) ∨
      cfg.nvmeSchedFlag = true ∧ ∃ ctx q, op.request cfg s = some ctx ∧ (s.nvmeFgs h).nvmeSwq = some q ∧
        t.swqs = Function.update s.swqs q ((s.swqs q).pushed ctx) := by
  obtain ⟨cpu, cmd, fill, payload, lba, lbaCount, cookie, alloc, submit, built⟩ := IoOp.submission target call
  rw [built]
  unfold submitRequest at submit
  split at submit
  · cases submit
    exact Or.inl ⟨rfl, fun _ => rfl⟩
  · simp only at submit
    split at submit
    · rename_i scheduled
      refine Or.inr ⟨scheduled, ?_⟩
      split at submit
      · cases submit
      · rename_i q queue
        refine ⟨_, q, rfl, queue, ?_⟩
        split at submit
        · rename_i full
          cases submit
          rw [pushed, full, getD_none, Function.update_eq_self]
        · rename_i swq push
          cases submit
          rw [pushed, push]
          rfl
    · rename_i off
      cases submit
      exact Or.inl ⟨rfl, fun on => absurd on off⟩

theorem Submits.frame {request} (submits : Submits cfg s request ret t) :
    t.device = s.device ∧ t.lastSchedTime = s.lastSchedTime := by
  cases submits with
  | refused => exact ⟨rfl, rfl⟩
  | queued built queue push => exact ⟨rfl, rfl⟩
  | direct off => exact ⟨rfl, rfl⟩

theorem submission_lockstep (left : Sound cfg s) (right : Sound cfg t) (alike : Alike family cpu h s t) {op' : IoOp}
    (same : op'.plain = op.plain) (target : op.target = some h) (target' : op'.target = some h) {ret' s' t'}
    (call : IoReturns cfg s op ret s') (call' : IoReturns cfg t op' ret' t')
    (known : ∀ ctx, op.request cfg s = some ctx → ∀ v, family ctx.bare = some v → v = op.vectored)
    (known' : ∀ ctx, op'.request cfg t = some ctx → ∀ v, family ctx.bare = some v → v = op'.vectored) : Alike family cpu h s' t' := by
  have submits := call.submits target
  have submits' := call'.submits target'
  have tenants := submits.sameTenants
  have tenants' := submits'.sameTenants
  have identity := fun on => request_identity cfg on alike.device same known known'
  refine ⟨tenants.symm.trans (alike.tenants.trans tenants'),
    submits'.frame.1.trans (alike.device.trans submits.frame.1.symm), ?_, fun k member handle => ?_⟩
  · rw [submits'.frame.2, alike.clock, submits.frame.2]
  · rw [tenants.managers] at member
    rw [tenants.handles] at handle
    have before := alike.queues k member handle
    rcases submission_queues target call.2 with ⟨kept, none⟩ | ⟨on, ctx, q, built, queue, pushed⟩
    · rcases submission_queues target' call'.2 with ⟨kept', -⟩ | ⟨on, ctx, q, built, -, -⟩
      · rw [kept, kept']
        exact before
      · have identity := identity on
        rw [none on, built] at identity
        cases identity
    · rcases submission_queues target' call'.2 with ⟨-, none⟩ | ⟨-, ctx', q', built', queue', pushed'⟩
      · have identity := identity on
        rw [none on, built] at identity
        cases identity
      · have identity := identity on
        rw [built, built', map_some, map_some, some.injEq] at identity
        rw [alike.tenants.registry, queue, some.injEq] at queue'
        obtain rfl := queue'
        rw [pushed, pushed']
        rcases eq_or_ne k q with rfl | away
        · rw [Function.update_self, Function.update_self]
          exact pushed_identity (left.rings k) (right.rings k) before identity
        · rw [Function.update_of_ne away, Function.update_of_ne away]
          exact before

end Submissions

/-! ## Registration calls -/

/-- The tenant cannot tell the thread lists and the queues apart. -/
structure Books.Alike (family : NvmeCtx → Option Bool) (cpu h : Nat) (b b' : Books) : Prop where
  managers : b'.managers = b.managers
  pool : b'.pool = b.pool
  handles : ∀ q, (b'.swqs q).fgHandle = (b.swqs q).fgHandle
  queues : ∀ q ∈ (b.managers cpu).tenantSwq, (b.swqs q).fgHandle = h →
    (b'.swqs q).onCredit.map (NvmeCtx.identity family) = (b.swqs q).onCredit.map (NvmeCtx.identity family)

namespace Books.Alike

variable {cpu h : Nat} {b b' : Books}

section

variable (alike : Books.Alike family cpu h b b')
include alike

theorem leave (r : Registry) (i j : Nat) : Books.Alike family cpu h (b.leave r i j) (b'.leave r i j) := by
  unfold Books.leave
  split
  · split
    · refine ⟨by rw [alike.managers], by rw [alike.pool], alike.handles, fun q member => alike.queues q ?_⟩
      simp only [leaveThread_list] at member
      exact mem_of_mem_erase member
    · exact alike
  · exact alike

theorem prepare (r : Registry) (i : Nat) (flowGroupId : Int64) (slo : SLO) :
    Books.Alike family cpu h (b.prepare r i flowGroupId slo) (b'.prepare r i flowGroupId slo) := by
  unfold Books.prepare
  split
  · split
    · exact alike
    · exact alike.leave r i _
  · exact alike

theorem join (i q : Nat) (slo : SLO) (j : Nat) :
    Books.Alike family cpu h (b.join i q slo j) (b'.join i q slo j) := by
  refine ⟨by simp only [Books.join, alike.managers], by simp only [Books.join, alike.pool], fun k => ?_, fun k member handle => ?_⟩
  · rcases eq_or_ne k q with rfl | other
    · simp [Books.join, nvmeSwQueueInit]
    · simpa [Books.join, other] using alike.handles k
  · rcases eq_or_ne k q with rfl | other
    · simp [Books.join, onCredit, nvmeSwQueueInit, pending, RingBuf.contents]
    · simp only [Books.join, Function.update_of_ne other] at handle ⊢
      refine alike.queues k ?_ handle
      rcases mem_joinThread.1 member with ⟨-, same⟩ | old
      · exact absurd same other
      · exact old

theorem enrol (cfg : Cfg) (r : Registry) (op : RegOp) :
    Books.Alike family cpu h (op.enrol cfg r b) (op.enrol cfg r b') := by
  cases op with
  | register i flowGroupId cookie slo swq =>
    have prepared := alike.prepare r i flowGroupId slo
    cases swq with
    | none => exact prepared
    | some q =>
      rw [RegOp.enrol, RegOp.enrol]
      split
      · exact prepared
      · exact prepared.join i q slo _
  | unregister i j => exact alike.leave r i j
  | nvmeOpen i nsSize nsSectorSize => exact alike

end

end Books.Alike

theorem Alike.registered {cfg cpu h s' t' r} (alike : Alike family cpu h s t) (left : Sound cfg s)
    (right : Sound cfg t) (step : RegStep cfg s r s') (step' : RegStep cfg t r t') : Alike family cpu h s' t' := by
  obtain ⟨-, rfl⟩ := step
  obtain ⟨-, rfl⟩ := step'
  obtain ⟨clock, table, device⟩ := next_frame cfg alike.tenants.registry alike.device r
  obtain ⟨clock', -⟩ := next_frame cfg (s := t) rfl rfl r
  have before : Books.Alike family cpu h s.books t.books :=
    ⟨alike.tenants.managers, alike.tenants.pool, alike.tenants.handles, alike.queues⟩
  have after := before.enrol cfg s.toRegistry r
  have enrolled := next_books cfg right.housed r
  rw [alike.tenants.registry] at enrolled
  rw [← next_books cfg left.housed, ← enrolled] at after
  exact ⟨⟨table, after.managers, after.pool, after.handles⟩, device, by rw [clock, clock', alike.clock], after.queues⟩

/-! ## Runs -/

/-- Submissions are for connected slots, those of slot `h` are of the families that are known, and whenever thread `cpu` has a
round the tenant of slot `h` is latency critical. -/
structure IoOp.Tenanted (family : NvmeCtx → Option Bool) (cfg : Cfg) (cpu h : Nat) (s : NvmeState) (op : IoOp) : Prop where
  connected : ∀ ctx, op.request cfg s = some ctx → s.Live ctx.fgHandle
  known : ∀ ctx, op.request cfg s = some ctx → ctx.fgHandle = h → ∀ v, family ctx.bare = some v → v = op.vectored
  critical : ∀ now tsc, op = .sched cpu now tsc → ∀ q ∈ (s.nvmeTenantManager cpu).tenantSwq, (s.swqs q).fgHandle = h →
    s.critical q = true

/-- What a call issues for the tenant, if it is a round of its thread. -/
def IoOp.issues (family : NvmeCtx → Option Bool) (cpu h : Nat) (events : List SchedEvent) : IoOp → List (List NvmeCtx)
  | .sched i _ _ => if i = cpu then [(issuedFor h events).map (NvmeCtx.identity family)] else []
  | _ => []

/-- A call, with what the rounds of thread `cpu` have issued for slot `h`, round by round. -/
def WatchedStep (family : NvmeCtx → Option Bool) (cfg : Cfg) (cpu h : Nat) (a : NvmeState × List (List NvmeCtx)) (op : IoOp) (b : NvmeState × List (List NvmeCtx)) :
    Prop :=
  Guarded (IoStep cfg) (IoOp.Tenanted family cfg cpu h) a.1 op b.1 ∧
    ∃ events, b.1.trace = a.1.trace ++ events ∧ b.2 = a.2 ++ op.issues family cpu h events

structure Indistinct (family : NvmeCtx → Option Bool) (cfg : Cfg) (cpu h : Nat) (a b : NvmeState × List (List NvmeCtx)) : Prop where
  left : Sound cfg a.1
  right : Sound cfg b.1
  alike : Alike family cpu h a.1 b.1
  issued : a.2 = b.2

section Steps

variable {cfg : Cfg} {cpu h : Nat} {a a' b b' : NvmeState × List (List NvmeCtx)} {op' : IoOp}

theorem Indistinct.symm (both : Indistinct family cfg cpu h a b) : Indistinct family cfg cpu h b a :=
  ⟨both.right, both.left, both.alike.symm, both.issued.symm⟩

theorem view_of_target {j} (target : op.target = some j) : op.view cpu h = if j = h then some op.plain else none := by
  cases op with
  | reg r => cases target
  | sched i now tsc => cases target
  | _ =>
    cases target
    simp [IoOp.view, IoOp.target]

theorem issues_of_target {j} (target : op.target = some j) (events : List SchedEvent) : op.issues family cpu h events = [] := by
  cases op with
  | sched i now tsc => cases target
  | _ => rfl

theorem plain_target (op : IoOp) : op.plain.target = op.target := by
  cases op with
  | _ => rfl

theorem view_cases (seen : op.view cpu h = some v) :
    v.target = op.target ∧ (op.target = none → op = v) ∧ (op.target ≠ none → op.target = some h ∧ op.plain = v) := by
  rcases op_cases op with ⟨r, rfl⟩ | ⟨i, now, tsc, rfl⟩ | ⟨j, target⟩
  · cases seen
    exact ⟨rfl, fun _ => rfl, fun some => absurd rfl some⟩
  · rw [IoOp.view] at seen
    split at seen
    · cases seen
      exact ⟨rfl, fun _ => rfl, fun some => absurd rfl some⟩
    · cases seen
  · rw [view_of_target target] at seen
    split at seen
    · rename_i own
      cases seen
      refine ⟨plain_target op, fun none => ?_, fun _ => ⟨own ▸ target, rfl⟩⟩
      rw [none] at target
      cases target
    · cases seen

theorem view_untargeted (seen : op.view cpu h = some v) (none : v.target = none) : op = v :=
  (view_cases seen).2.1 ((view_cases seen).1.symm.trans none)

theorem view_submission {op' : IoOp} (target : op.target = some h) (seen : op'.view cpu h = some op.plain) :
    op'.target = some h ∧ op'.plain = op.plain := by
  obtain ⟨same, -, plain⟩ := view_cases seen
  rw [plain_target, target] at same
  apply plain
  rw [← same]
  exact some_ne_none h

theorem Indistinct.hidden (step : WatchedStep family cfg cpu h a op a') (unseen : op.view cpu h = none)
    (both : Indistinct family cfg cpu h a b) : Indistinct family cfg cpu h a' b := by
  obtain ⟨⟨⟨ret, returns⟩, tenanted⟩, events, -, issues⟩ := step
  suffices Sound cfg a'.1 ∧ Alike family cpu h a.1 a'.1 ∧ op.issues family cpu h events = [] by
    obtain ⟨sound, alike, silent⟩ := this
    refine ⟨sound, both.right, alike.symm.trans both.alike, ?_⟩
    rw [issues, silent, append_nil]
    exact both.issued
  rcases op_cases op with ⟨r, rfl⟩ | ⟨i, now, tsc, rfl⟩ | ⟨j, target⟩
  · cases unseen
  · have other : i ≠ cpu := by
      rintro rfl
      simp [IoOp.view] at unseen
    obtain ⟨u, round, same⟩ := map_eq_some_iff.1 returns.2
    cases same
    obtain ⟨sound, alike⟩ := nvmeSched_unseen (h := h) both.left other round
    exact ⟨sound, alike, by simp [IoOp.issues, other]⟩
  · have submits := returns.submits target
    refine ⟨both.left.submitted submits tenanted.connected, submits.unseen both.left tenanted.connected fun ctx built same => ?_,
      issues_of_target target events⟩
    rw [view_of_target ((request_target built).trans (by rw [same])), if_pos rfl] at unseen
    cases unseen

theorem Indistinct.visible (step : WatchedStep family cfg cpu h a op a') (step' : WatchedStep family cfg cpu h b op' b')
    (seen : op.view cpu h = some v) (seen' : op'.view cpu h = some v) (both : Indistinct family cfg cpu h a b) :
    Indistinct family cfg cpu h a' b' := by
  obtain ⟨⟨⟨ret, returns⟩, tenanted⟩, events, grown, issues⟩ := step
  obtain ⟨⟨⟨ret', returns'⟩, tenanted'⟩, events', grown', issues'⟩ := step'
  suffices Sound cfg a'.1 ∧ Sound cfg b'.1 ∧ Alike family cpu h a'.1 b'.1 ∧ op.issues family cpu h events = op'.issues family cpu h events' by
    obtain ⟨left, right, alike, same⟩ := this
    refine ⟨left, right, alike, ?_⟩
    rw [issues, issues', both.issued, same]
  rcases op_cases op with ⟨r, rfl⟩ | ⟨i, now, tsc, rfl⟩ | ⟨j, target⟩
  · cases seen
    obtain rfl : op' = .reg r := view_untargeted seen' rfl
    have call := returns.registers
    have call' := returns'.registers
    exact ⟨both.left.registered call, both.right.registered call', both.alike.registered both.left both.right call call', rfl⟩
  · obtain ⟨rfl, rfl⟩ : i = cpu ∧ op' = .sched i now tsc := by
      rw [IoOp.view] at seen
      split at seen
      · rename_i own
        cases seen
        exact ⟨own, view_untargeted seen' rfl⟩
      · cases seen
    obtain ⟨u, round, same⟩ := map_eq_some_iff.1 returns.2
    cases same
    obtain ⟨u', round', same⟩ := map_eq_some_iff.1 returns'.2
    cases same
    have start : Lockstep family cfg i h a.1.trace b.1.trace a.1 b.1 :=
      ⟨both.left, both.right, both.alike, [], [], (append_nil _).symm, (append_nil _).symm, rfl⟩
    obtain ⟨left, right, alike, more, more', log, log', issued⟩ := start.round (tenanted.critical now tsc rfl) round round'
    obtain rfl : events = more := append_cancel_left (grown.symm.trans log)
    obtain rfl : events' = more' := append_cancel_left (grown'.symm.trans log')
    refine ⟨left, right, alike, ?_⟩
    simp only [IoOp.issues, if_true, issued]
  · rw [view_of_target target] at seen
    split at seen
    · rename_i own
      subst own
      cases seen
      obtain ⟨target', same⟩ := view_submission target seen'
      have own : ∀ {u : NvmeState} {op : IoOp} {ctx}, op.target = some j → op.request cfg u = some ctx → ctx.fgHandle = j :=
        fun target built => some.inj ((request_target built).symm.trans target)
      refine ⟨both.left.submitted (returns.submits target) tenanted.connected,
        both.right.submitted (returns'.submits target') tenanted'.connected,
        submission_lockstep both.left both.right both.alike same target target' returns returns'
          (fun ctx built => tenanted.known ctx built (own target built)) fun ctx built => tenanted'.known ctx built (own target' built), ?_⟩
      rw [issues_of_target target, issues_of_target target']
    · cases seen

end Steps

/-- Two runs with the same registrations, the same rounds of thread `cpu` and the same submissions by the
latency-critical tenant of slot `h`: the rounds issue the same requests for the tenant, with all words that their submissions wrote,
whatever else happens.
-/
theorem critical_tenant_isolated {family : NvmeCtx → Option Bool} {cfg : Cfg} {cpu h : Nat} {now now' tsc tsc' : Nat → Nat} (clock : now' cpu = now cpu)
    {ops ops' : List IoOp} {s s' : NvmeState} {issued issued' : List (List NvmeCtx)}
    (run : Run (WatchedStep family cfg cpu h) (NvmeState.init now tsc, []) ops (s, issued))
    (run' : Run (WatchedStep family cfg cpu h) (NvmeState.init now' tsc', []) ops' (s', issued'))
    (same : ops.filterMap (IoOp.view cpu h) = ops'.filterMap (IoOp.view cpu h)) : issued = issued' := by
  have start : Indistinct family cfg cpu h (NvmeState.init now tsc, []) (NvmeState.init now' tsc', []) :=
    ⟨.init cfg now tsc, .init cfg now' tsc', ⟨⟨rfl, rfl, rfl, fun _ => rfl⟩, rfl, clock, fun _ _ _ => rfl⟩, rfl⟩
  have left : ∀ a op a' b, WatchedStep family cfg cpu h a op a' → op.view cpu h = none → Indistinct family cfg cpu h a b →
      Indistinct family cfg cpu h a' b := fun _ _ _ _ step unseen before => before.hidden step unseen
  have right : ∀ a b op b', WatchedStep family cfg cpu h b op b' → op.view cpu h = none → Indistinct family cfg cpu h a b →
      Indistinct family cfg cpu h a b' := fun _ _ _ _ step unseen before => (before.symm.hidden step unseen).symm
  have both := run.unwinding left right
    (fun _ _ _ _ _ _ _ step step' seen seen' before => before.visible step step' seen seen') run' same start
  exact both.issued

/-! ## A tenant with neighbours -/

/-- All requests of slot 1 are vectored, slot 1 is latency critical and the trace grows. -/
def watches (s : NvmeState) (op : IoOp) (t : NvmeState) : Bool :=
  ((op.request modelCfg s).all fun ctx => decide (s.Live ctx.fgHandle) && (ctx.fgHandle != 1 || op.vectored)) &&
    decide (∀ q ∈ (s.nvmeTenantManager 0).tenantSwq, (s.swqs q).fgHandle = 1 → s.critical q = true) && s.trace.isPrefixOf t.trace

theorem watches_sound (pass : watches s op t = true) : op.Tenanted (fun _ => some true) modelCfg 0 1 s ∧ s.trace <+: t.trace := by
  simp only [watches, Bool.and_eq_true, List.isPrefixOf_iff_prefix] at pass
  refine ⟨⟨fun ctx built => ?_, fun ctx built own v same => ?_, fun _ _ _ => of_decide_eq_true pass.1.2⟩, pass.2⟩
  · have both := pass.1.1
    rw [built] at both
    simp only [Option.all_some, Bool.and_eq_true] at both
    exact of_decide_eq_true both.1
  · have both := pass.1.1
    rw [built] at both
    simp only [Option.all_some, Bool.and_eq_true, own, bne_self_eq_false, Bool.false_or] at both
    rw [both.2]
    exact (some.inj same).symm

theorem run_watched {ops : List IoOp} (watched : List (List NvmeCtx))
    (run : Run (fun s op t => IoStep modelCfg s op t ∧ watches s op t = true) s ops t) :
    ∃ issued, Run (WatchedStep (fun _ => some true) modelCfg 0 1) (s, watched) ops (t, issued) := by
  induction run generalizing watched with
  | nil => exact ⟨watched, .nil _⟩
  | @cons s u t op ops step _ ih =>
    obtain ⟨tenanted, events, grown⟩ := watches_sound step.2
    obtain ⟨issued, rest⟩ := ih (watched ++ op.issues (fun _ => some true) 0 1 events)
    exact ⟨issued, .cons ⟨⟨step.1, tenanted⟩, events, grown.symm, rfl⟩ rest⟩

def readerRead (stale : NvmeCtx) : IoOp := .readv 0 1 4096 1 0 8 7 (some stale)

/-- The reader's requests and the rounds of its thread; then the same with a used context, with reads and writes of both
neighbours and with a round of another thread. -/
def quietOps : List IoOp := [readerRead .zero, .sched 0 10 400]

def busyOps : List IoOp :=
  [.read 0 2 0 0 1 7 (some .zero), readerRead { NvmeCtx.zero with currentSgl := 3, paddr := 5 }, .writev 0 3 8192 1 0 8 7 (some .zero),
    .sched 1 5 300, .sched 0 10 400]

theorem reader_undisturbed :
    ∃ s s' issued issued', Run (WatchedStep (fun _ => some true) modelCfg 0 1) (coldState, []) (trioCalls.map .reg ++ quietOps) (s, issued) ∧
      Run (WatchedStep (fun _ => some true) modelCfg 0 1) (coldState, []) (trioCalls.map .reg ++ busyOps) (s', issued') ∧
      (issuedFor 1 s.trace).length = 1 ∧ s.trace ≠ s'.trace ∧ issued = issued' := by
  have registered : Run (WatchedStep (fun _ => some true) modelCfg 0 1) (coldState, []) (trioCalls.map .reg) (trioState, []) := by
    refine (trio_registered (P := fun _ _ => True) fun _ _ _ => trivial).map (f := fun u => (u, [])) fun u r v step => ?_
    obtain ⟨⟨fresh, rfl⟩, -⟩ := step
    refine ⟨⟨RegStep.io ⟨fresh, rfl⟩, fun ctx built => ?_, fun ctx built => ?_, fun now tsc same => ?_⟩, [], ?_, rfl⟩
    · cases built
    · cases built
    · cases same
    · rw [List.append_nil]
      exact (RegOp.next_queues modelCfg u r).1
  have value : (exec modelCfg watches trioState quietOps).bind (fun s => (exec modelCfg watches trioState busyOps).map fun s' =>
      ((issuedFor 1 s.trace).length, decide (s.trace = s'.trace))) = some (1, false) := by decide +kernel
  obtain ⟨s, quiet, later⟩ := Option.bind_eq_some_iff.1 value
  obtain ⟨s', busy, values⟩ := exec_computes later
  simp only [Prod.mk.injEq, decide_eq_false_iff_not] at values
  obtain ⟨issued, run⟩ := run_watched [] (run_of_exec quiet fun _ _ _ pass _ step => ⟨step, pass⟩)
  obtain ⟨issued', run'⟩ := run_watched [] (run_of_exec busy fun _ _ _ pass _ step => ⟨step, pass⟩)
  exact ⟨s, s', issued, issued', registered.append run, registered.append run', values.1, values.2,
    critical_tenant_isolated rfl (registered.append run) (registered.append run') rfl⟩

end Reflex.Nvme
