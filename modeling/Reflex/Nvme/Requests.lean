import Reflex.Lib.Channel
import Reflex.Nvme.Roster

/-!
# Requests reach the device once and in order

A connected flow group is a channel: submissions that return `RET_OK` append to it, and
the scheduler issues its oldest request. `channels` reads the channels off the state, and
every call that keeps the tenants linked and drops no pending request is a chain of
channel steps.
-/

namespace Reflex.Nvme
open Lib Function NvmeState NvmeSwQueue RegOp

variable {cfg : Cfg} {s t : NvmeState} {op : RegOp}

/-- The request that the scheduler hands to the device. -/
def SchedEvent.issued : SchedEvent → Option NvmeCtx
  | .lcIssue _ ctx => some ctx
  | .beIssue _ ctx _ => some ctx
  | _ => none

/-- The requests of slot `h` issued so far, in order. -/
def issuedFor (h : Nat) (trace : List SchedEvent) : List NvmeCtx :=
  (trace.filterMap SchedEvent.issued).filter fun ctx => ctx.fgHandle = h

theorem issuedFor_quiet {trace} {e : SchedEvent} (quiet : e.issued = none) (h : Nat) :
    issuedFor h (trace ++ [e]) = issuedFor h trace := by
  simp [issuedFor, quiet]

theorem issuedFor_issue {trace} {e : SchedEvent} {ctx} (issue : e.issued = some ctx) :
    (fun h => issuedFor h (trace ++ [e])) =
      update (fun h => issuedFor h trace) ctx.fgHandle (issuedFor ctx.fgHandle trace ++ [ctx]) := by
  funext h
  rcases eq_or_ne h (ctx.fgHandle) with rfl | same
  · simp [issuedFor, issue]
  · have other : ¬ ctx.fgHandle = h := fun eq => same eq.symm
    simp [issuedFor, issue, same, other]

/-- The requests that wait in the queue of slot `h`, oldest first. -/
def NvmeState.queued (s : NvmeState) (h : Nat) : List NvmeCtx :=
  if s.Live h then ((s.nvmeFgs h).nvmeSwq.map fun q => (s.swqs q).pending).getD [] else []

def channels (s : NvmeState) (accepted : Nat → List NvmeCtx) : Channels Nat NvmeCtx :=
  { accepted := accepted, served := fun h => issuedFor h s.trace, waiting := s.queued }

section Queued

variable {h q : Nat}

theorem queued_of_live (live : s.Live h) (queue : (s.nvmeFgs h).nvmeSwq = some q) : s.queued h = (s.swqs q).pending := by
  simp [queued, live, queue]

theorem queued_of_idle (idle : ¬ s.Live h) : s.queued h = [] := by
  simp [queued, idle]

theorem queued_congr (links : SameLinks s.toRegistry t.toRegistry)
    (rings : ∀ h q, s.Live h → (s.nvmeFgs h).nvmeSwq = some q → (t.swqs q).pending = (s.swqs q).pending) :
    t.queued = s.queued := by
  funext h
  by_cases live : s.Live h
  · have queue := links.queue h live
    cases own : (s.nvmeFgs h).nvmeSwq with
    | none => simp [queued, live, (links.live h).2 live, queue, own]
    | some q =>
      rw [queued_of_live live own, queued_of_live ((links.live h).2 live) (queue.trans own)]
      exact rings h q live own
  · rw [queued_of_idle live, queued_of_idle fun after => live ((links.live h).1 after)]

theorem Linked.queued_member (linked : Linked s) {i} (member : q ∈ (s.nvmeTenantManager i).tenantSwq) :
    s.queued (s.swqs q).fgHandle = (s.swqs q).pending := by
  obtain ⟨live, queue, -, -⟩ := linked.owner i q member
  exact queued_of_live live queue

theorem Linked.queued_update (linked : Linked s) (same : SameTenants s t) {i}
    (member : q ∈ (s.nvmeTenantManager i).tenantSwq) (others : ∀ k, k ≠ q → (t.swqs k).pending = (s.swqs k).pending) :
    t.queued = update s.queued (s.swqs q).fgHandle (t.swqs q).pending := by
  funext h
  rcases eq_or_ne h ((s.swqs q).fgHandle) with rfl | own
  · rw [update_self, ← same.handles q]
    apply (linked.sameTenants same).queued_member (i := i)
    rw [same.managers]
    exact member
  · rw [update_of_ne own]
    by_cases live : s.Live h
    · obtain ⟨k, queue, handle, -⟩ := linked.listed h live
      have other : k ≠ q := fun eq => own (eq ▸ handle).symm
      rw [queued_of_live live queue, queued_of_live (by rwa [same.registry]) (by rwa [same.registry]), others k other]
    · rw [queued_of_idle live, queued_of_idle (by rwa [same.registry])]

end Queued

/-- The tenants are linked, their queues well formed, and each holds its own requests. -/
structure Tidy (cfg : Cfg) (s : NvmeState) : Prop where
  wf : s.Wf cfg
  linked : Linked s
  rings : ∀ q, (s.swqs q).Wf
  own : ∀ h, ∀ ctx ∈ s.queued h, ctx.fgHandle = h

/-! ## Rounds -/

namespace Tidy

variable {q i : Nat} {ctx : NvmeCtx} {swq : NvmeSwQueue} {e : SchedEvent}

theorem quiet (tidy : Tidy cfg s) (same : SameTenants s t) (rings : ∀ q, (t.swqs q).toRingBuf = (s.swqs q).toRingBuf)
    (log : ∀ h, issuedFor h t.trace = issuedFor h s.trace) (accepted : Nat → List NvmeCtx) :
    Tidy cfg t ∧ channels t accepted = channels s accepted := by
  have queued : t.queued = s.queued := by
    apply queued_congr (.of_fgs (by rw [same.registry]))
    intro h q _ _
    rw [pending, pending, rings q]
  refine ⟨⟨same.registry ▸ tidy.wf, tidy.linked.sameTenants same, fun q => ?_, ?_⟩, ?_⟩
  · rw [NvmeSwQueue.Wf, rings q]
    exact tidy.rings q
  · rw [queued]
    exact tidy.own
  · rw [channels, channels, queued]
    simp only [log]

theorem issue (tidy : Tidy cfg s) (same : SameTenants s t) (member : q ∈ (s.nvmeTenantManager i).tenantSwq)
    (pop : nvmeSwQueuePopFront (s.swqs q) = some (ctx, swq)) (ring : (t.swqs q).toRingBuf = swq.toRingBuf)
    (others : ∀ k, k ≠ q → t.swqs k = s.swqs k) (log : t.trace = s.trace ++ [e]) (issued : e.issued = some ctx)
    (accepted : Nat → List NvmeCtx) :
    Tidy cfg t ∧ Channels.Step (channels s accepted) (channels t accepted) := by
  obtain ⟨wf, oldest, -⟩ := popFront_spec (tidy.rings q) pop
  have rest : (t.swqs q).pending = swq.pending := by rw [pending, ring, pending]
  have before : s.queued (s.swqs q).fgHandle = ctx :: swq.pending := (tidy.linked.queued_member member).trans oldest
  have handle : ctx.fgHandle = (s.swqs q).fgHandle := by
    apply tidy.own _ ctx
    rw [before]
    exact List.mem_cons_self
  have after := tidy.linked.queued_update same member fun k other => by rw [others k other]
  refine ⟨⟨same.registry ▸ tidy.wf, tidy.linked.sameTenants same, fun k => ?_, fun h x mem => ?_⟩, ?_⟩
  · rcases eq_or_ne k q with rfl | own
    · rw [NvmeSwQueue.Wf, ring]
      exact wf
    · rw [others k own]
      exact tidy.rings k
  · rw [after] at mem
    rcases eq_or_ne h ((s.swqs q).fgHandle) with rfl | own
    · rw [update_self, rest] at mem
      apply tidy.own _ x
      rw [before]
      exact List.mem_cons_of_mem ctx mem
    · rw [update_of_ne own] at mem
      exact tidy.own h x mem
  · have target : channels t accepted = { channels s accepted with
        served := update (fun h => issuedFor h s.trace) ctx.fgHandle (issuedFor ctx.fgHandle s.trace ++ [ctx])
        waiting := update s.queued ctx.fgHandle swq.pending } := by
      rw [channels, log, issuedFor_issue issued, after, rest, ← handle]
      rfl
    rw [target]
    exact .serve (handle ▸ before)

end Tidy

theorem Act.refines {cpu a b} (act : Act cfg cpu a b) (tidy : Tidy cfg a.1)
    (accepted : Nat → List NvmeCtx) :
    Tidy cfg b.1 ∧ Channels.Steps (channels a.1 accepted) (channels b.1 accepted) := by
  have same := act.sameTenants
  have silent : (∀ q, (b.1.swqs q).toRingBuf = (a.1.swqs q).toRingBuf) → (∀ h, issuedFor h b.1.trace = issuedFor h a.1.trace) →
      Tidy cfg b.1 ∧ Channels.Steps (channels a.1 accepted) (channels b.1 accepted) := by
    intro rings log
    obtain ⟨after, unchanged⟩ := tidy.quiet same rings log accepted
    rw [unchanged]
    exact ⟨after, .refl⟩
  cases act with
  | lcCredit q tokens => exact silent (setSwq_rings rfl) (issuedFor_quiet rfl)
  | @lcIssue s n q ctx swq member pop =>
    obtain ⟨usys, answered⟩ := issueNvmeReq_usys cfg (s.setSwq q { swq with tokenCredit := swq.tokenCredit - ctx.reqCost }) cpu ctx
    rw [answered] at same ⊢
    obtain ⟨after, step⟩ := tidy.issue same member pop (by simp [log, setSwq])
      (fun k other => by simp [log, setSwq, other]) rfl rfl accepted
    exact ⟨after, .single step⟩
  | lcDonate q credit gain fits => exact silent (setSwq_rings rfl) (issuedFor_quiet rfl)
  | acquire available => exact silent (fun _ => rfl) fun _ => rfl
  | beTake member effort => exact silent (setSwq_rings rfl) fun _ => rfl
  | beIncrement q tokens => exact silent (fun _ => rfl) (issuedFor_quiet rfl)
  | @beIssue s n q ctx swq member pop paid =>
    obtain ⟨usys, answered⟩ := issueNvmeReq_usys cfg (s.setSwq q swq) cpu ctx
    rw [answered] at same ⊢
    obtain ⟨after, step⟩ := tidy.issue same member pop (by simp [log, setSwq])
      (fun k other => by simp [log, setSwq, other]) rfl rfl accepted
    exact ⟨after, .single step⟩
  | beSave member effort => exact silent (setSwq_rings (saveTokens_ring _ _)) (issuedFor_quiet rfl)
  | give => exact silent (fun _ => rfl) fun _ => rfl
  | tick now tsc demand leftover scheduled less inList => exact silent (fun _ => rfl) fun _ => rfl

theorem nvmeSched_refines {cpu now tsc} (round : nvmeSched cfg s cpu now tsc = some t)
    (tidy : Tidy cfg s) (accepted : Nat → List NvmeCtx) :
    Tidy cfg t ∧ Channels.Steps (channels s accepted) (channels t accepted) := by
  refine (nvmeSched_acts round).invariant
    (I := fun c => Tidy cfg c.1 ∧ Channels.Steps (channels s accepted) (channels c.1 accepted)) ?_ ⟨tidy, .refl⟩
  intro a b act before
  obtain ⟨after, steps⟩ := act.refines before.1 accepted
  exact ⟨after, before.2.trans steps⟩

/-! ## Submissions -/

/-- What has been accepted once a call has returned `ret`. -/
def accept (cfg : Cfg) (s : NvmeState) (op : IoOp) (ret : Int) (accepted : Nat → List NvmeCtx) : Nat → List NvmeCtx :=
  match op.request cfg s with
  | some ctx => if ret = retOk then Function.update accepted ctx.fgHandle (accepted ctx.fgHandle ++ [ctx]) else accepted
  | none => accepted

theorem Tidy.push (tidy : Tidy cfg s) {ctx : NvmeCtx} {q swq}
    (live : s.Live ctx.fgHandle) (queue : (s.nvmeFgs ctx.fgHandle).nvmeSwq = some q)
    (push : nvmeSwQueuePushBack (s.swqs q) ctx = some swq) (accepted : Nat → List NvmeCtx) :
    Tidy cfg (s.setSwq q swq) ∧ Channels.Step (channels s accepted)
      (channels (s.setSwq q swq) (update accepted ctx.fgHandle (accepted ctx.fgHandle ++ [ctx]))) := by
  obtain ⟨wf, appended, -⟩ := pushBack_spec (tidy.rings q) push
  have same := SameTenants.setSwq s (pushBack_handle push)
  obtain ⟨k, own, handle, member⟩ := tidy.linked.listed ctx.fgHandle live
  obtain rfl : q = k := Option.some.inj (queue.symm.trans own)
  have before : s.queued ctx.fgHandle = (s.swqs q).pending := queued_of_live live queue
  have after : (s.setSwq q swq).queued = update s.queued ctx.fgHandle (s.queued ctx.fgHandle ++ [ctx]) := by
    have updated := tidy.linked.queued_update same member fun k other => by simp [setSwq, other]
    rw [handle] at updated
    rw [updated, before, ← appended]
    simp [setSwq]
  refine ⟨⟨tidy.wf, tidy.linked.sameTenants same, fun k => ?_, fun h x mem => ?_⟩, ?_⟩
  · rcases eq_or_ne k q with rfl | here
    · simpa [setSwq] using wf
    · simpa [setSwq, here] using tidy.rings k
  · rw [after] at mem
    rcases eq_or_ne h (ctx.fgHandle) with rfl | here
    · rw [update_self, List.mem_append, List.mem_singleton] at mem
      rcases mem with old | rfl
      · exact tidy.own _ x old
      · rfl
    · rw [update_of_ne here] at mem
      exact tidy.own h x mem
  · rw [channels, channels, after]
    exact .accept ctx.fgHandle ctx

/-! ## Registration calls -/

/-- No pending request is in a queue that the call gives back. -/
def RegOp.Drained (s : NvmeState) : RegOp → Prop
  | .unregister _ h => s.queued h = []
  | .register cpu flowGroupId _ slo _ => ∀ i, s.search cpu flowGroupId = .already i → (s.nvmeFgs i).slo ≠ slo → s.queued i = []
  | .nvmeOpen _ _ _ => True

section Registration

theorem unregister_queued (wf : s.Wf cfg) {h} (drained : s.queued h = []) (cpu : Nat) :
    (bsysNvmeUnregisterFlow cfg s cpu h).2.queued = s.queued := by
  have table := unregister_toRegistry cfg s cpu h
  obtain ⟨queues, -⟩ := unregister_queues cfg s cpu h
  generalize (bsysNvmeUnregisterFlow cfg s cpu h).2 = t at table queues ⊢
  have lives : ∀ j, t.Live j ↔ j ≠ h ∧ s.Live j := fun j => table ▸ disconnected_live wf j
  funext j
  rcases eq_or_ne j h with rfl | own
  · rw [drained, queued_of_idle fun live => ((lives j).1 live).1 rfl]
  · by_cases live : s.Live j
    · obtain ⟨credit, entry⟩ := disconnected_fg_of_ne cfg s.toRegistry own
      rw [queued, if_pos ((lives j).2 ⟨own, live⟩), queued, if_pos live]
      simp only [table, entry, queues]
    · rw [queued_of_idle live, queued_of_idle fun after => live ((lives j).1 after).2]

variable {cpu : Nat} {flowGroupId : Int64} {cookie : UInt64} {slo : SLO}

theorem prepareFlow_queued (wf : s.Wf cfg)
    (drained : ∀ i, s.search cpu flowGroupId = .already i → (s.nvmeFgs i).slo ≠ slo → s.queued i = []) :
    (prepareFlow cfg s cpu flowGroupId slo).2.queued = s.queued := by
  cases found : s.search cpu flowGroupId with
  | nextAvail i =>
    rw [prepareFlow_of_new found]
    rfl
  | already i =>
    by_cases same : (s.nvmeFgs i).slo = slo
    · rw [prepareFlow_of_same found same]
    · rw [prepareFlow_of_changed found same]
      exact unregister_queued wf (drained i found same) cpu

theorem joined_queued (wf : s.Wf cfg) (linked : Linked s) (admitted : ¬ s.Refused cfg cpu flowGroupId cookie slo)
    (spare : s.SpareSlot cpu flowGroupId) (new : ¬ s.Reconnects cpu flowGroupId slo) {q}
    (fresh : (register cpu flowGroupId cookie slo (some q)).Fresh cfg s) :
    ((register cpu flowGroupId cookie slo (some q)).next cfg s).queued =
      (prepareFlow cfg s cpu flowGroupId slo).2.queued := by
  have before : Linked (prepareFlow cfg s cpu flowGroupId slo).2 := linked.prepared wf flowGroupId slo
  have table := prepareFlow_toRegistry cfg s cpu flowGroupId slo
  have idle : ¬ (s.prepared cfg cpu flowGroupId slo).Live (s.slotFor cpu flowGroupId) := not_lt.2 (prepared_idle wf spare new)
  obtain ⟨credit, own⟩ := registered_entry_of_granted admitted q
  rw [next, run, register_linked admitted q]
  rw [RegOp.Fresh] at fresh
  generalize (prepareFlow cfg s cpu flowGroupId slo).2 = p at before table fresh ⊢
  rw [← table] at idle
  funext j
  rcases eq_or_ne j (s.slotFor cpu flowGroupId) with rfl | slot
  · rw [queued_of_idle idle]
    refine (queued_of_live (q := q) ?_ ?_).trans ?_
    · simp only [post, Registry.Live, own]
      decide
    · simp only [post, own]
    · simp [post]
  · obtain ⟨_, prepared⟩ := prepared_fg_of_ne cfg s.toRegistry slo slot
    obtain ⟨credit, after⟩ := registered_fg_of_ne cfg s.toRegistry cookie slo (some q) slot
    have entry : (s.registered cfg cpu flowGroupId cookie slo (some q)).nvmeFgs j =
        { p.nvmeFgs j with scaledIOPuSLimit := credit } := by rw [after, table, prepared]
    by_cases live : p.Live j
    · obtain ⟨k, queue, -, member⟩ := before.listed j live
      have other : k ≠ q := fun same => before.not_listed fresh _ (same ▸ member)
      rw [queued_of_live live queue]
      refine (queued_of_live (q := k) ?_ ?_).trans ?_
      · simp only [post, Registry.Live, entry]
        exact live
      · simp only [post, entry, queue]
      · simp [post, other]
    · rw [queued_of_idle live, queued_of_idle]
      simp only [post, Registry.Live, entry]
      exact live

end Registration

theorem RegStep.queued (step : RegStep cfg s op t) (wf : s.Wf cfg) (linked : Linked s)
    (once : op.LinksOnce cfg s) (drained : op.Drained s) : t.queued = s.queued := by
  obtain ⟨fresh, rfl⟩ := step
  cases op with
  | register cpu flowGroupId cookie slo swq =>
    have before := prepareFlow_queued wf drained
    by_cases failed : s.Refused cfg cpu flowGroupId cookie slo ∨ swq = none
    · have links := sameLinks_of_failed wf once.1 failed
      rw [← prepareFlow_toRegistry] at links
      rw [next, run, register_failed failed, ← before]
      exact queued_congr links fun _ _ _ _ => rfl
    · rw [not_or] at failed
      obtain ⟨q, rfl⟩ := Option.ne_none_iff_exists'.1 failed.2
      exact (joined_queued wf linked failed.1 once.1 (once.2 failed.1 failed.2) fresh).trans before
  | unregister cpu h => exact unregister_queued wf drained cpu
  | nvmeOpen cpu nsSize nsSectorSize =>
    simp only [next, run, bsysNvmeOpen]
    split <;> rfl

theorem RegStep.channels (step : RegStep cfg s op t) (tidy : Tidy cfg s)
    (once : op.LinksOnce cfg s) (own : op.OnOwnThread s) (drained : op.Drained s) (accepted : Nat → List NvmeCtx) :
    Tidy cfg t ∧ Nvme.channels t accepted = Nvme.channels s accepted := by
  have queued := step.queued tidy.wf tidy.linked once drained
  have wf := step.wf tidy.wf
  have linked := step.linked tidy.wf once own tidy.linked
  obtain ⟨-, rfl⟩ := step
  obtain ⟨trace, -, queues⟩ := next_queues cfg s op
  refine ⟨⟨wf, linked, fun q => ?_, queued ▸ tidy.own⟩, ?_⟩
  · rcases queues q with same | ⟨k, h, init⟩
    · exact same ▸ tidy.rings q
    · exact init ▸ nvmeSwQueueInit_wf k h
  · rw [Nvme.channels, Nvme.channels, queued, trace]

/-! ## Runs -/

/-- A call, with what the submissions have been told. -/
def RequestStep (cfg : Cfg) (a : NvmeState × (Nat → List NvmeCtx)) (op : IoOp) (b : NvmeState × (Nat → List NvmeCtx)) : Prop :=
  ∃ ret, IoReturns cfg a.1 op ret b.1 ∧ b.2 = accept cfg a.1 op ret a.2

/-- Registration calls link a flow once, are made on its thread and find the queues they
give back empty; requests are submitted for connected flows. -/
structure IoOp.Orderly (cfg : Cfg) (a : NvmeState × (Nat → List NvmeCtx)) (op : IoOp) : Prop where
  calls : ∀ r, op = .reg r → r.LinksOnce cfg a.1 ∧ r.OnOwnThread a.1 ∧ r.Drained a.1
  connected : ∀ ctx, op.request cfg a.1 = some ctx → a.1.Live ctx.fgHandle

theorem RequestStep.refines (scheduled : cfg.nvmeSchedFlag = true) {a b op}
    (step : Guarded (RequestStep cfg) (IoOp.Orderly cfg) a op b) (tidy : Tidy cfg a.1) :
    Tidy cfg b.1 ∧ Channels.Steps (channels a.1 a.2) (channels b.1 b.2) := by
  obtain ⟨⟨ret, returns, told⟩, orderly⟩ := step
  obtain ⟨t, accepted⟩ := b
  simp only at returns told ⊢
  rcases returns.inv with ⟨r, rfl, call⟩ | submits | ⟨cpu, now, tsc, rfl, round⟩
  · obtain ⟨once, own, drained⟩ := orderly.calls r rfl
    obtain ⟨after, same⟩ := call.channels tidy once own drained a.2
    obtain rfl : accepted = a.2 := told
    exact ⟨after, same ▸ .refl⟩
  · cases submits with
    | refused =>
      have kept : accepted = a.2 := by
        rw [told, accept]
        split
        · rfl
        · rfl
      exact ⟨tidy, kept ▸ .refl⟩
    | queued built queue push =>
      obtain ⟨after, step⟩ := tidy.push (orderly.connected _ built) queue push a.2
      rw [accept, built] at told
      obtain rfl := told
      exact ⟨after, .single step⟩
    | direct off =>
      rw [scheduled] at off
      cases off
  · obtain rfl : accepted = a.2 := told
    exact nvmeSched_refines round tidy a.2

theorem init_queued (now tsc : Nat → Nat) (h : Nat) : (init now tsc).queued h = [] :=
  queued_of_idle (show ¬ (init now tsc).Live h from lt_irrefl (0 : Int))

theorem init_tidy (cfg : Cfg) (now tsc : Nat → Nat) : Tidy cfg (init now tsc) := by
  refine ⟨Registry.init_wf cfg, init_linked now tsc, fun q => ?_, fun h ctx mem => ?_⟩
  · exact nvmeSwQueueInit_wf .zero 0
  · rw [init_queued] at mem
    exact absurd mem List.not_mem_nil

/-- In every run whose calls are orderly the requests of a connected flow that have been
issued, followed by those in its queue, are those accepted, in the order of submission;
of a flow that is not connected all have been issued. -/
theorem requests_issued_once_in_order {cfg : Cfg} (scheduled : cfg.nvmeSchedFlag = true) {now tsc : Nat → Nat} {ops : List IoOp}
    {s : NvmeState} {accepted : Nat → List NvmeCtx}
    (run : Run (Guarded (RequestStep cfg) (IoOp.Orderly cfg)) (NvmeState.init now tsc, fun _ => []) ops (s, accepted)) (h : Nat) :
    (s.Live h → ∃ q, (s.nvmeFgs h).nvmeSwq = some q ∧ issuedFor h s.trace ++ (s.swqs q).pending = accepted h) ∧
      (¬ s.Live h → issuedFor h s.trace = accepted h) := by
  have refined := run.invariant
    (I := fun a => Tidy cfg a.1 ∧ Channels.Steps (channels (NvmeState.init now tsc) fun _ => []) (channels a.1 a.2))
    (fun a op b step before => (RequestStep.refines scheduled step before.1).imp_right before.2.trans)
    ⟨init_tidy cfg now tsc, .refl⟩
  have start : (channels (NvmeState.init now tsc) fun _ => []).Faithful := by
    intro j
    simp only [channels, init_queued]
    rfl
  have faithful := refined.2.faithful start h
  simp only [channels] at faithful
  constructor
  · intro live
    obtain ⟨q, queue, -⟩ := refined.1.linked.listed h live
    rw [queued_of_live live queue] at faithful
    exact ⟨q, queue, faithful⟩
  · intro idle
    rwa [queued_of_idle idle, List.append_nil] at faithful

/-- A first read of the flow that `firstFlow` connects. -/
def firstRead : IoOp := .read 0 1 0 0 1 7 (some .zero)

theorem firstRead_waits (link : (s.nvmeFgs 1).nvmeSwq = some 0) (fresh : s.swqs 0 = nvmeSwQueueInit .zero 1)
    (accepted : Nat → List NvmeCtx) :
    ∃ ctx t, firstRead.request flatCfg s = some ctx ∧ ctx.fgHandle = 1 ∧ SameTenants s t ∧ t.trace = s.trace ∧
      RequestStep flatCfg (s, accepted) firstRead (t, update accepted 1 (accepted 1 ++ [ctx])) := by
  obtain ⟨ctx, built⟩ : ∃ ctx, firstRead.request flatCfg s = some ctx := ⟨_, rfl⟩
  have handle : ctx.fgHandle = 1 := by
    cases built
    rfl
  obtain ⟨swq, push⟩ : ∃ swq, nvmeSwQueuePushBack (s.swqs 0) ctx = some swq := by
    rw [fresh]
    exact ⟨_, rfl⟩
  have call : firstRead.run flatCfg s = some (retOk, s.setSwq 0 swq) := IoOp.run_queued rfl built (handle ▸ link) push
  refine ⟨ctx, s.setSwq 0 swq, built, handle, .setSwq s (pushBack_handle push), rfl, retOk, ⟨fun r same => ?_, call⟩, ?_⟩
  · cases same
  · rw [accept, built]
    simp [handle]

theorem oneFlow_read (one : OneFlow s) (accepted : Nat → List NvmeCtx) :
    ∃ ctx t, firstRead.request flatCfg s = some ctx ∧ ctx.fgHandle = 1 ∧ SameTenants s t ∧ t.trace = s.trace ∧
      RequestStep flatCfg (s, accepted) firstRead (t, update accepted 1 (accepted 1 ++ [ctx])) :=
  firstRead_waits (by rw [one.table]; rfl) one.queue accepted

theorem RegStep.request (step : RegStep cfg s op t) (accepted : Nat → List NvmeCtx) :
    RequestStep cfg (s, accepted) (.reg op) (t, accepted) := by
  obtain ⟨ret, returns⟩ := step.io
  exact ⟨ret, returns, rfl⟩

theorem first_read_waits :
    ∃ s accepted ctx, Run (Guarded (RequestStep flatCfg) (IoOp.Orderly flatCfg)) (coldState, fun _ => [])
        [.reg firstFlow, firstRead] (s, accepted) ∧ accepted 1 = [ctx] ∧
      ∃ q, (s.nvmeFgs 1).nvmeSwq = some q ∧ issuedFor 1 s.trace ++ (s.swqs q).pending = accepted 1 := by
  obtain ⟨first, one⟩ := oneFlow_of_cold (s := coldState) rfl rfl rfl rfl
  obtain ⟨ctx, t, built, handle, same, -, second⟩ := oneFlow_read one fun _ => []
  have live : (firstFlow.next flatCfg coldState).Live 1 := by
    rw [one.table]
    decide
  have opening : IoOp.Orderly flatCfg (coldState, fun _ => []) (.reg firstFlow) := by
    refine ⟨fun r call => ?_, fun ctx built => ?_⟩
    · cases call
      exact ⟨firstFlow_linksOnce, trivial, fun i _ _ => init_queued _ _ i⟩
    · cases built
  have reading : IoOp.Orderly flatCfg (firstFlow.next flatCfg coldState, fun _ => []) firstRead := by
    refine ⟨fun r call => ?_, fun x again => ?_⟩
    · cases call
    · cases built.symm.trans again
      exact handle ▸ live
  have run : Run (Guarded (RequestStep flatCfg) (IoOp.Orderly flatCfg)) (coldState, fun _ => []) [.reg firstFlow, firstRead] _ :=
    .cons ⟨first.request _, opening⟩ (.single ⟨second, reading⟩)
  exact ⟨t, _, ctx, run, by simp, (requests_issued_once_in_order rfl run 1).1 (same.registry ▸ live)⟩

/-- A best-effort flow with a pending read is unregistered: the read was accepted, its
queue goes back to the pool, no list holds it any more, and it has not been issued. -/
theorem unregister_discards_accepted_read :
    ∃ s accepted ctx, Run (RequestStep flatCfg) (coldState, fun _ => [])
        [.reg firstFlow, firstRead, .reg (.unregister 0 1)] (s, accepted) ∧
      accepted 1 = [ctx] ∧ issuedFor 1 s.trace = [] ∧ ¬ s.Live 1 ∧
      (s.nvmeTenantManager 0).tenantSwq = [] ∧ s.swqAllocated 0 = false := by
  obtain ⟨first, one⟩ := oneFlow_of_cold (s := coldState) rfl rfl rfl rfl
  have silent := (RegOp.next_queues flatCfg coldState firstFlow).1
  generalize firstFlow.next flatCfg coldState = u at first one silent
  obtain ⟨ctx, t, -, -, same, trace, second⟩ := oneFlow_read one fun _ => []
  have last : (t.nvmeFgs 1).connRefCount = 1 := by rw [same.registry, one.table]; rfl
  have queue : (t.nvmeFgs 1).nvmeSwq = some 0 := by rw [same.registry, one.table]; rfl
  have third : RegStep flatCfg t (.unregister 0 1) _ := ⟨trivial, rfl⟩
  refine ⟨_, _, ctx, .cons (first.request _) (.cons second (.single (third.request _))), by simp, ?_, ?_, ?_, ?_⟩
  · rw [(RegOp.next_queues flatCfg t (.unregister 0 1)).1, trace, silent]
    rfl
  · rw [next_unregister, Registry.Live, disconnected_conns, last]
    decide
  · rw [RegOp.next, RegOp.run, unregister_released flatCfg 0 last queue]
    simp [NvmeState.post, leaveThread_list, same.managers, one.manager]
  · rw [RegOp.next, RegOp.run, unregister_released flatCfg 0 last queue]
    simp [NvmeState.post]

end Reflex.Nvme
