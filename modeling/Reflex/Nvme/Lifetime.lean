import Reflex.Nvme.Threads

/-!
# A tenant and its connections

The contract of a tenant that several connections share: the first one brings a queue, all of them use it, and
the last one takes it away.
-/

namespace Reflex.Nvme
open Lib RegOp Function NvmeState

/-- The open connections of a tenant and the queue they share. -/
structure Tenancy where
  conns : Nat
  queue : Option Nat
  deriving DecidableEq

def Tenancy.vacant : Tenancy := ⟨0, none⟩

/-- A connection more; the first one brings its queue. -/
def Tenancy.join (a : Tenancy) (q : Nat) : Tenancy := ⟨a.conns + 1, if a.conns = 0 then some q else a.queue⟩

/-- A connection less; with the last one the queue is gone. -/
def Tenancy.leave (a : Tenancy) : Tenancy := if a.conns ≤ 1 then .vacant else ⟨a.conns - 1, a.queue⟩

/-- What a call means for the tenancy: a successful registration joins, an unregister call leaves. -/
def RegOp.tenancy (cfg : Cfg) (s : NvmeState) (a : Tenancy) : RegOp → Tenancy
  | .register cpu flowGroupId cookie slo (some q) => if s.Refused cfg cpu flowGroupId cookie slo then a else a.join q
  | .register _ _ _ _ none => a
  | .unregister _ _ => a.leave
  | .nvmeOpen _ _ _ => a

section Tenant

variable (cpu : Nat) (flowGroupId : Int64) (slo : SLO) (h : Nat)

/-- The calls that the tenant's connections make. -/
inductive OfTenant : RegOp → Prop where
  | register (cookie : UInt64) (swq : Option Nat) : OfTenant (.register cpu flowGroupId cookie slo swq)
  | unregister : OfTenant (.unregister cpu h)

def LifeStep (cfg : Cfg) (s : NvmeState × Tenancy) (op : RegOp) (t : NvmeState × Tenancy) : Prop :=
  OfTenant cpu flowGroupId slo h op ∧ RegStep cfg s.1 op t.1 ∧ t.2 = op.tenancy cfg s.1 s.2

/-- The state has the tenancy's queue, and no other, beyond what `base` had: in front of
the thread's list and taken from the pool. While a connection is open the tenant's slot
is allocated and points to that queue. -/
structure Follows (base : NvmeState) (s : NvmeState × Tenancy) : Prop where
  list : (s.1.nvmeTenantManager cpu).tenantSwq = s.2.queue.toList ++ (base.nvmeTenantManager cpu).tenantSwq
  pool : s.1.swqAllocated = fun q => decide (s.2.queue = some q) || base.swqAllocated q
  slot : 0 < s.2.conns → s.1.nvmeFgsBitmap h = true ∧ s.2.queue.isSome ∧ (s.1.nvmeFgs h).nvmeSwq = s.2.queue

end Tenant

/-- The flow is not in the table, and the first free handle is `h`. -/
structure Vacant (r : Registry) (cpu : Nat) (flowGroupId : Int64) (h : Nat) : Prop where
  found : r.search cpu flowGroupId = .nextAvail h
  lower : 1 ≤ h
  idle : ¬ r.Live h

/-- The flow id fits its field, and no registration succeeds while a connection is open. -/
def RegOp.OneAtATime (cfg : Cfg) (s : NvmeState × Tenancy) : RegOp → Prop
  | .register cpu flowGroupId cookie slo swq =>
    flowGroupId.toInt32.toInt64 = flowGroupId ∧
      (s.1.Live (s.1.slotFor cpu flowGroupId) → s.1.Refused cfg cpu flowGroupId cookie slo ∨ swq = none)
  | _ => True

/-- The invariant of such runs. The bitmap differs from the start at most in `h`, and a
set bit there is this flow's. -/
structure Living (base : NvmeState) (cpu : Nat) (flowGroupId : Int64) (slo : SLO) (h : Nat) (s : NvmeState × Tenancy) : Prop
    extends Follows cpu h base s where
  bits : s.1.nvmeFgsBitmap = Function.update base.nvmeFgsBitmap h (s.1.nvmeFgsBitmap h)
  own : s.1.nvmeFgsBitmap h = true →
    (s.1.nvmeFgs h).flowGroupId.toInt64 = flowGroupId ∧ (s.1.nvmeFgs h).tid = cpu ∧ (s.1.nvmeFgs h).slo = slo
  others : ∀ j ≠ h, (s.1.nvmeFgs j).flowGroupId = (base.nvmeFgs j).flowGroupId ∧ (s.1.nvmeFgs j).tid = (base.nvmeFgs j).tid
  conns : s.2 = .vacant ∧ (s.1.nvmeFgs h).connRefCount ≤ 0 ∨
    ∃ q, s.2 = ⟨1, some q⟩ ∧ (s.1.nvmeFgs h).connRefCount = 1 ∧ base.swqAllocated q = false

namespace Living

variable {cfg : Cfg} {base : NvmeState} {cpu : Nat} {flowGroupId : Int64} {slo : SLO} {h : Nat} {s : NvmeState × Tenancy}

section

variable (living : Living base cpu flowGroupId slo h s)
include living

section

variable (vacant : Vacant base.toRegistry cpu flowGroupId h)
include vacant

theorem holds_of_ne {j} (lower : 1 ≤ j) (upper : j < maxNvmeFlowGroups) (other : j ≠ h) : s.1.holds cpu flowGroupId j = false := by
  have new := search_nextAvail_new vacant.found j lower upper
  obtain ⟨flow, thread⟩ := living.others j other
  have bit : s.1.nvmeFgsBitmap j = base.nvmeFgsBitmap j := by rw [living.bits, update_of_ne other]
  rw [Registry.holds] at new ⊢
  rw [flow, thread, bit]
  exact new

/-- The search finds the flow in slot `h`, or slot `h` free for it. -/
theorem search :
    s.1.search cpu flowGroupId = if s.1.nvmeFgsBitmap h = true then .already h else .nextAvail h := by
  have upper : h < maxNvmeFlowGroups := by
    rcases search_nextAvail vacant.found with ⟨-, upper, -⟩ | ⟨zero, -⟩
    · exact upper
    · have := vacant.lower
      omega
  split
  · rename_i bit
    obtain ⟨flow, thread, -⟩ := living.own bit
    apply search_eq_already vacant.lower upper (holds_iff.2 ⟨bit, flow, thread⟩)
    intro j lower before
    exact living.holds_of_ne vacant lower (before.trans upper) (Nat.ne_of_lt before)
  · rename_i clear
    have free : s.1.nvmeFgsBitmap h = false := by simpa using clear
    refine search_eq_nextAvail vacant.lower upper free (fun j lower before => ?_) fun j lower bound => ?_
    · rw [living.bits, update_of_ne (Nat.ne_of_lt before)]
      exact search_nextAvail_first vacant.found j lower before
    · rcases eq_or_ne j h with rfl | same
      · simp [Registry.holds, free]
      · exact living.holds_of_ne vacant lower bound same

theorem slotFor :
    s.1.slotFor cpu flowGroupId = h := by
  rw [Registry.slotFor, living.search vacant]
  split <;> rfl

theorem prepareFlow :
    (prepareFlow cfg s.1 cpu flowGroupId slo).2 = { s.1 with toRegistry := s.1.setBit h true } := by
  have found := living.search vacant
  by_cases bit : s.1.nvmeFgsBitmap h = true
  · rw [if_pos bit] at found
    rw [prepareFlow_of_same found (living.own bit).2.2, Registry.setBit, ← bit, update_eq_self]
  · rw [if_neg bit] at found
    rw [prepareFlow_of_new found]

theorem prepared :
    s.1.prepared cfg cpu flowGroupId slo = s.1.setBit h true := by
  rw [← prepareFlow_toRegistry, living.prepareFlow vacant]

theorem registered_bits (cfg : Cfg) (cookie : UInt64) (swq : Option Nat) :
    (s.1.registered cfg cpu flowGroupId cookie slo swq).nvmeFgsBitmap = update base.nvmeFgsBitmap h true := by
  rw [registered_bitmap, living.prepared vacant, setBit_bitmap, living.bits, update_idem]

theorem registered_others (cookie : UInt64) (swq : Option Nat) :
    ∀ j ≠ h, ((s.1.registered cfg cpu flowGroupId cookie slo swq).nvmeFgs j).flowGroupId = (base.nvmeFgs j).flowGroupId ∧
      ((s.1.registered cfg cpu flowGroupId cookie slo swq).nvmeFgs j).tid = (base.nvmeFgs j).tid := by
  intro j other
  have other : j ≠ s.1.slotFor cpu flowGroupId := by rwa [living.slotFor vacant]
  obtain ⟨credit, entry⟩ := registered_fg_of_ne cfg s.1.toRegistry cookie slo swq other
  rw [living.slotFor vacant] at other
  rw [entry]
  exact living.others j other

theorem failed (fits : flowGroupId.toInt32.toInt64 = flowGroupId) {cookie swq}
    (failed : s.1.Refused cfg cpu flowGroupId cookie slo ∨ swq = none) :
    Living base cpu flowGroupId slo h ((register cpu flowGroupId cookie slo swq).next cfg s.1, s.2) := by
  obtain ⟨credit, entry⟩ := registered_entry_of_failed failed
  rw [living.slotFor vacant, living.prepared vacant, setBit_nvmeFgs] at entry
  have bits := living.registered_bits vacant cfg cookie swq
  have next : (register cpu flowGroupId cookie slo swq).next cfg s.1 = { s.1 with
      toRegistry := s.1.registered cfg cpu flowGroupId cookie slo swq } := by
    rw [next, run, register_failed failed, living.prepareFlow vacant]
  rw [next]
  refine ⟨⟨living.list, living.pool, fun opened => ?_⟩, ?_, fun _ => ?_, living.registered_others vacant cookie swq, ?_⟩
  · obtain ⟨-, shared, queue⟩ := living.slot opened
    refine ⟨by simp [bits], shared, ?_⟩
    rw [entry]
    exact queue
  · simp [bits]
  · rw [entry]
    exact ⟨fits, rfl, rfl⟩
  · rw [entry]
    exact living.conns

theorem joined (fits : flowGroupId.toInt32.toInt64 = flowGroupId) {cookie q}
    (admitted : ¬ s.1.Refused cfg cpu flowGroupId cookie slo) (first : s.2 = .vacant) (free : s.1.swqAllocated q = false) :
    Living base cpu flowGroupId slo h
      ((RegOp.register cpu flowGroupId cookie slo (some q)).next cfg s.1, ⟨1, some q⟩) := by
  obtain ⟨credit, entry⟩ := registered_entry_of_granted admitted q
  rw [living.slotFor vacant, living.prepared vacant, setBit_nvmeFgs] at entry
  have bits := living.registered_bits vacant cfg cookie (some q)
  have list := living.list
  have pool := living.pool
  rw [first] at list pool
  have unused : base.swqAllocated q = false := by
    rw [pool] at free
    simpa [Tenancy.vacant] using free
  have next := register_linked admitted q
  rw [living.prepareFlow vacant] at next
  rw [RegOp.next, RegOp.run, next]
  refine ⟨⟨?_, ?_, fun _ => ⟨?_, rfl, ?_⟩⟩, ?_, fun _ => ?_, living.registered_others vacant cookie (some q), ?_⟩
  · simp [post, joinThread, list, Tenancy.vacant]
  · simp only [post, pool]
    funext k
    by_cases same : k = q
    · subst same; simp
    · simp [same, Tenancy.vacant, Ne.symm same]
  · simp [post, bits]
  · rw [post_toRegistry, entry]
  · simp [post, bits]
  · rw [post_toRegistry, entry]
    exact ⟨fits, rfl, rfl⟩
  · rw [post_toRegistry, entry]
    exact .inr ⟨q, rfl, rfl, unused⟩

end

theorem left {q} (single : s.2 = ⟨1, some q⟩)
    (conns : (s.1.nvmeFgs h).connRefCount = 1) (unused : base.swqAllocated q = false) :
    Living base cpu flowGroupId slo h ((unregister cpu h).next cfg s.1, .vacant) := by
  obtain ⟨-, -, queue⟩ := living.slot (by rw [single]; exact Nat.one_pos)
  have list := living.list
  have pool := living.pool
  rw [single] at list pool queue
  obtain ⟨credit, entry⟩ := disconnected_fg_self cfg s.1.toRegistry h
  have bits : (s.1.disconnected cfg h).nvmeFgsBitmap = update base.nvmeFgsBitmap h false := by
    rw [disconnected_bitmap, if_pos conns, living.bits, update_idem]
  rw [next, run, unregister_released cfg cpu conns queue]
  refine ⟨⟨?_, ?_, fun opened => absurd opened (Nat.lt_irrefl 0)⟩, ?_, fun set => ?_, fun j other => ?_, .inl ⟨rfl, ?_⟩⟩
  · simp [post, leaveThread, list, Tenancy.vacant]
  · simp only [post, pool]
    funext k
    by_cases same : k = q
    · subst same; simp [Tenancy.vacant, unused]
    · simp [same, Ne.symm same, Tenancy.vacant]
  · rw [post_toRegistry, bits]
    simp
  · rw [post_toRegistry, bits] at set
    simp at set
  · obtain ⟨credit, entry⟩ := disconnected_fg_of_ne cfg s.1.toRegistry other
    rw [post_toRegistry, entry]
    exact living.others j other
  · rw [post_toRegistry, entry]
    simp [conns]

theorem stray (closed : s.2 = .vacant)
    (conns : (s.1.nvmeFgs h).connRefCount ≤ 0) :
    Living base cpu flowGroupId slo h ((unregister cpu h).next cfg s.1, .vacant) := by
  have list := living.list
  have pool := living.pool
  rw [closed] at list pool
  obtain ⟨credit, entry⟩ := disconnected_fg_self cfg s.1.toRegistry h
  have bits : (s.1.disconnected cfg h).nvmeFgsBitmap = s.1.nvmeFgsBitmap := by rw [disconnected_bitmap, if_neg (by omega)]
  rw [next, run, unregister_kept cfg cpu (by omega)]
  refine ⟨⟨list, pool, fun opened => absurd opened (Nat.lt_irrefl 0)⟩, ?_, fun set => ?_, fun j other => ?_, .inl ⟨rfl, ?_⟩⟩
  · rw [post_toRegistry, bits]
    exact living.bits
  · rw [post_toRegistry, bits] at set
    rw [post_toRegistry, entry]
    exact living.own set
  · obtain ⟨credit, entry⟩ := disconnected_fg_of_ne cfg s.1.toRegistry other
    rw [post_toRegistry, entry]
    exact living.others j other
  · rw [post_toRegistry, entry]
    simp only
    omega

end

end Living

theorem living_start {base : NvmeState} {cpu flowGroupId h}
    (vacant : Vacant base.toRegistry cpu flowGroupId h) (slo : SLO) : Living base cpu flowGroupId slo h (base, .vacant) where
  list := rfl
  pool := by funext q; simp [Tenancy.vacant]
  slot := fun opened => absurd opened (Nat.lt_irrefl 0)
  bits := (update_eq_self h base.nvmeFgsBitmap).symm
  own := by
    intro bit
    rcases search_nextAvail vacant.found with ⟨-, -, free⟩ | ⟨zero, -⟩
    · exact absurd (free.symm.trans bit) Bool.false_ne_true
    · have := vacant.lower
      omega
  others := fun j _ => ⟨rfl, rfl⟩
  conns := .inl ⟨rfl, not_lt.1 vacant.idle⟩

theorem LifeStep.living {cfg} {base : NvmeState} {cpu flowGroupId slo h}
    (vacant : Vacant base.toRegistry cpu flowGroupId h) {s t op}
    (step : Guarded (LifeStep cpu flowGroupId slo h cfg) (RegOp.OneAtATime cfg) s op t)
    (living : Living base cpu flowGroupId slo h s) : Living base cpu flowGroupId slo h t := by
  obtain ⟨t, a⟩ := t
  obtain ⟨⟨calls, ⟨fresh, next⟩, tenancy⟩, ok⟩ := step
  simp only at next tenancy
  subst next tenancy
  cases calls with
  | register cookie swq =>
    obtain ⟨fits, alone⟩ := ok
    by_cases refused : s.1.Refused cfg cpu flowGroupId cookie slo
    · have same : (register cpu flowGroupId cookie slo swq).tenancy cfg s.1 s.2 = s.2 := by
        cases swq <;> simp [tenancy, refused]
      rw [same]
      exact living.failed vacant fits (.inl refused)
    · cases swq with
      | none => exact living.failed vacant fits (.inr rfl)
      | some q =>
        have idle : ¬ s.1.Live h := by
          intro live
          rw [living.slotFor vacant] at alone
          rcases alone live with contra | contra
          · exact refused contra
          · cases contra
        rcases living.conns with ⟨closed, -⟩ | ⟨q', -, conns, -⟩
        · have first : (register cpu flowGroupId cookie slo (some q)).tenancy cfg s.1 s.2 = ⟨1, some q⟩ := by
            simp [tenancy, refused, closed, Tenancy.vacant, Tenancy.join]
          rw [first]
          have free : s.1.swqAllocated q = false := by
            rw [RegOp.Fresh, living.prepareFlow vacant] at fresh
            exact fresh
          exact living.joined vacant fits refused closed free
        · exact absurd (by rw [Registry.Live, conns]; exact Int.zero_lt_one) idle
  | unregister =>
    rcases living.conns with ⟨closed, conns⟩ | ⟨q, single, conns, unused⟩
    · have same : (unregister cpu h).tenancy cfg s.1 s.2 = .vacant := by rw [closed]; rfl
      rw [same]
      exact living.stray closed conns
    · have last : (unregister cpu h).tenancy cfg s.1 s.2 = .vacant := by rw [single]; rfl
      rw [last]
      exact living.left single conns unused

/-- In every run of a tenant's own calls in which no registration succeeds beside an open
connection, the tenant follows its connections: one queue, linked and taken from the pool
with the first, unlinked and given back with the last. -/
theorem tenant_follows_connections {cfg : Cfg} {base : NvmeState} {cpu : Nat} {flowGroupId : Int64} {slo : SLO} {h : Nat}
    (vacant : Vacant base.toRegistry cpu flowGroupId h) {ops : List RegOp} {s : NvmeState × Tenancy}
    (run : Run (Guarded (LifeStep cpu flowGroupId slo h cfg) (RegOp.OneAtATime cfg)) (base, .vacant) ops s) :
    Follows cpu h base s :=
  (run.invariant (I := Living base cpu flowGroupId slo h) (fun _ _ _ => LifeStep.living vacant) (living_start vacant slo)).toFollows

theorem coldState_vacant : Vacant coldState.toRegistry 0 1 1 where
  found := search_init 0 1
  lower := le_refl 1
  idle := lt_irrefl (0 : Int)

theorem firstFlow_step (s : NvmeState) (admitted : ¬ s.Refused flatCfg 0 1 0 bestEffortSLO)
    (step : RegStep flatCfg s firstFlow (firstFlow.next flatCfg s)) :
    LifeStep 0 1 bestEffortSLO 1 flatCfg (s, .vacant) firstFlow (firstFlow.next flatCfg s, ⟨1, some 0⟩) := by
  refine ⟨.register 0 (some 0), step, ?_⟩
  simp [firstFlow, tenancy, admitted, Tenancy.vacant, Tenancy.join]

theorem one_connection_follows :
    ∃ s, Run (Guarded (LifeStep 0 1 bestEffortSLO 1 flatCfg) (RegOp.OneAtATime flatCfg)) (coldState, .vacant) [firstFlow]
      (s, ⟨1, some 0⟩) ∧ Follows 0 1 coldState (s, ⟨1, some 0⟩) := by
  obtain ⟨step, -⟩ := oneFlow_of_cold (s := coldState) rfl rfl rfl rfl
  have life := firstFlow_step coldState (fun refused => refused_critical refused rfl) step
  have alone : firstFlow.OneAtATime flatCfg (coldState, .vacant) := ⟨rfl, fun live => absurd live (lt_irrefl (0 : Int))⟩
  exact ⟨_, .single ⟨life, alone⟩, tenant_follows_connections coldState_vacant (.single ⟨life, alone⟩)⟩

theorem second_connection {s} (one : OneFlow s) :
    ∃ t, LifeStep 0 1 bestEffortSLO 1 flatCfg (s, ⟨1, some 0⟩) (.register 0 1 0 bestEffortSLO (some 1)) (t, ⟨2, some 0⟩) ∧
      (t.nvmeFgs 1).connRefCount = 1 := by
  have admitted : ¬ s.Refused flatCfg 0 1 0 bestEffortSLO := fun refused => refused_critical refused rfl
  have fresh : (register 0 1 0 bestEffortSLO (some 1)).Fresh flatCfg s := fresh_of_free (by simp [one.allocated])
  refine ⟨(register 0 1 0 bestEffortSLO (some 1)).next flatCfg s, ⟨.register 0 (some 1), ⟨fresh, rfl⟩, ?_⟩, ?_⟩
  · simp [tenancy, admitted, Tenancy.join]
  · obtain ⟨credit, entry⟩ := registered_entry_of_granted admitted 1
    rw [slotFor_of_already (oneFlow_search one)] at entry
    rw [next_register, entry]

/-- Two connections of a tenant register, one unregisters: the other is left without
the handle. -/
theorem shared_tenant_released_early :
    ∃ s, Run (LifeStep 0 1 bestEffortSLO 1 flatCfg) (coldState, .vacant)
        [firstFlow, .register 0 1 0 bestEffortSLO (some 1), .unregister 0 1] (s, ⟨1, some 0⟩) ∧
      s.nvmeFgsBitmap 1 = false ∧ ¬ Follows 0 1 coldState (s, ⟨1, some 0⟩) := by
  obtain ⟨step, one⟩ := oneFlow_of_cold (s := coldState) rfl rfl rfl rfl
  have first := firstFlow_step coldState (fun refused => refused_critical refused rfl) step
  obtain ⟨t, second, conns⟩ := second_connection one
  have third : LifeStep 0 1 bestEffortSLO 1 flatCfg (t, ⟨2, some 0⟩) (.unregister 0 1)
      ((RegOp.unregister 0 1).next flatCfg t, ⟨1, some 0⟩) := ⟨.unregister, ⟨trivial, rfl⟩, rfl⟩
  have bit : ((RegOp.unregister 0 1).next flatCfg t).nvmeFgsBitmap 1 = false := by
    rw [next_unregister, disconnected_bitmap, if_pos conns]
    simp
  refine ⟨_, .cons first (.cons second (.single third)), bit, fun follows => ?_⟩
  have allocated := (follows.slot Nat.one_pos).1
  exact Bool.false_ne_true (bit.symm.trans allocated)

end Reflex.Nvme
