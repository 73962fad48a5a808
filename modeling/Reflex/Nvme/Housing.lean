import Reflex.Nvme.Service

/-!
# Where the queues are

The thread lists, the queue pool and the queues, apart from the registry: `Books`.
-/

namespace Reflex.Nvme
open Lib NvmeState RegOp Function

structure Books where
  managers : Nat → TenantMgmt
  pool : Nat → Bool
  swqs : Nat → NvmeSwQueue

def NvmeState.books (s : NvmeState) : Books := ⟨s.nvmeTenantManager, s.swqAllocated, s.swqs⟩

/-! ## What registration calls do -/

/-- A connection of slot `h` leaves on thread `cpu`; with the last one goes the queue. -/
def Books.leave (r : Registry) (cpu h : Nat) (b : Books) : Books :=
  match (r.nvmeFgs h).nvmeSwq with
  | some q =>
    if (r.nvmeFgs h).connRefCount = 1 then
      { b with
        managers := leaveThread b.managers cpu q (r.nvmeFgs h).latencyCriticalFlag
        pool := Function.update b.pool q false }
    else b
  | none => b

/-- A flow that changes its SLO leaves first. -/
def Books.prepare (r : Registry) (cpu : Nat) (flowGroupId : Int64) (slo : SLO) (b : Books) : Books :=
  match r.search cpu flowGroupId with
  | .already i => if (r.nvmeFgs i).slo = slo then b else b.leave r cpu i
  | .nextAvail _ => b

/-- Queue `q` is taken from the pool for slot `h` on thread `cpu`. -/
def Books.join (cpu q : Nat) (slo : SLO) (h : Nat) (b : Books) : Books where
  managers := joinThread b.managers cpu q slo
  pool := Function.update b.pool q true
  swqs := Function.update b.swqs q (nvmeSwQueueInit (b.swqs q) h)

def RegOp.enrol (cfg : Cfg) (r : Registry) : RegOp → Books → Books
  | .register cpu flowGroupId cookie slo (some q), b =>
    if r.Refused cfg cpu flowGroupId cookie slo then b.prepare r cpu flowGroupId slo
    else (b.prepare r cpu flowGroupId slo).join cpu q slo (r.slotFor cpu flowGroupId)
  | .register cpu flowGroupId _ slo none, b => b.prepare r cpu flowGroupId slo
  | .unregister cpu h, b => b.leave r cpu h
  | .nvmeOpen _ _ _, b => b

/-- Connected slots have a queue of their own, and the lists share none. -/
structure Housed (r : Registry) (b : Books) : Prop where
  slots : ∀ h, r.Live h → ∃ q, (r.nvmeFgs h).nvmeSwq = some q ∧ (b.swqs q).fgHandle = h ∧ b.pool q = true
  listed : ∀ i q, q ∈ (b.managers i).tenantSwq → b.pool q = true
  nodup : ∀ i, (b.managers i).tenantSwq.Nodup
  disjoint : ∀ i j q, q ∈ (b.managers i).tenantSwq → q ∈ (b.managers j).tenantSwq → i = j

section Calls

variable {cfg : Cfg} {s : NvmeState} {b : Books} {r : Registry} {cpu h : Nat} {flowGroupId : Int64} {slo : SLO}

theorem unregister_books (housed : Housed s.toRegistry s.books) (cpu h : Nat) :
    (bsysNvmeUnregisterFlow cfg s cpu h).2.books = s.books.leave s.toRegistry cpu h := by
  rcases eq_or_ne (s.nvmeFgs h).connRefCount 1 with last | more
  · obtain ⟨q, queue, -⟩ := housed.slots h (by rw [Registry.Live, last]; exact Int.one_pos)
    rw [unregister_released cfg cpu last queue, Books.leave, queue]
    simp only [last, if_true]
    rfl
  · rw [unregister_kept cfg cpu more, Books.leave]
    cases (s.nvmeFgs h).nvmeSwq with
    | none => rfl
    | some q =>
      simp only [more, if_false]
      rfl

theorem prepareFlow_books (cfg : Cfg) (housed : Housed s.toRegistry s.books) (cpu : Nat) (flowGroupId : Int64) (slo : SLO) :
    (prepareFlow cfg s cpu flowGroupId slo).2.books = s.books.prepare s.toRegistry cpu flowGroupId slo := by
  unfold Books.prepare
  cases found : s.search cpu flowGroupId with
  | nextAvail i =>
    rw [prepareFlow_of_new found]
    rfl
  | already i =>
    rcases eq_or_ne (s.nvmeFgs i).slo slo with same | changed
    · rw [prepareFlow_of_same found same]
      simp only [same, if_true]
    · rw [prepareFlow_of_changed found changed, unregister_books housed]
      simp only [changed, if_false]

theorem next_books (cfg : Cfg) (housed : Housed s.toRegistry s.books) (op : RegOp) :
    (op.next cfg s).books = op.enrol cfg s.toRegistry s.books := by
  cases op with
  | register cpu flowGroupId cookie slo swq =>
    have prepared := prepareFlow_books cfg housed cpu flowGroupId slo
    cases swq with
    | none =>
      rw [next, run, register_failed (Or.inr rfl), enrol, ← prepared]
      rfl
    | some q =>
      rcases em (s.Refused cfg cpu flowGroupId cookie slo) with refused | admitted
      · rw [next, run, register_failed (Or.inl refused), enrol, if_pos refused, ← prepared]
        rfl
      · rw [next, run, register_linked admitted q, enrol, if_neg admitted, ← prepared]
        rfl
  | unregister cpu h => exact unregister_books housed cpu h
  | nvmeOpen cpu nsSize nsSectorSize =>
    simp only [next, run, bsysNvmeOpen, enrol]
    split <;> rfl

/-- The device queues, the clocks and the shared bucket are as they were. -/
structure Steady (s t : NvmeState) : Prop where
  device : t.device = s.device
  clock : t.lastSchedTime = s.lastSchedTime
  cycles : t.lastSchedTimeBe = s.lastSchedTimeBe
  bucket : t.globalLeftoverTokens = s.globalLeftoverTokens
  scheduled : t.scheduledBitVector = s.scheduledBitVector

theorem unregister_steady (cfg : Cfg) (s : NvmeState) (cpu h : Nat) : Steady s (bsysNvmeUnregisterFlow cfg s cpu h).2 := by
  have dropped : ∀ (u : NvmeState) fg, Steady u (dropQueue u fg) := by
    intro u fg
    unfold dropQueue
    split
    · exact ⟨rfl, rfl, rfl, rfl, rfl⟩
    · exact ⟨rfl, rfl, rfl, rfl, rfl⟩
  simp only [bsysNvmeUnregisterFlow, post]
  split
  · obtain ⟨device, clock, cycles, bucket, scheduled⟩ := dropped _ _
    exact ⟨device, clock, cycles, bucket, scheduled⟩
  · exact ⟨rfl, rfl, rfl, rfl, rfl⟩

theorem prepareFlow_steady (cfg : Cfg) (s : NvmeState) (cpu : Nat) (flowGroupId : Int64) (slo : SLO) :
    Steady s (prepareFlow cfg s cpu flowGroupId slo).2 := by
  unfold prepareFlow
  simp only
  split
  · obtain ⟨device, clock, cycles, bucket, scheduled⟩ := unregister_steady cfg _ cpu _
    exact ⟨device, clock, cycles, bucket, scheduled⟩
  · exact ⟨rfl, rfl, rfl, rfl, rfl⟩

theorem register_steady (cfg : Cfg) (s : NvmeState) (cpu : Nat) (flowGroupId : Int64) (cookie : UInt64) (slo : SLO) (swq : Option Nat) :
    Steady s ((register cpu flowGroupId cookie slo swq).next cfg s) := by
  obtain ⟨device, clock, cycles, bucket, scheduled⟩ := prepareFlow_steady cfg s cpu flowGroupId slo
  rcases em (s.Refused cfg cpu flowGroupId cookie slo ∨ swq = none) with failed | granted
  · rw [next, run, register_failed failed]
    exact ⟨device, clock, cycles, bucket, scheduled⟩
  · rw [not_or] at granted
    obtain ⟨q, rfl⟩ := Option.ne_none_iff_exists'.1 granted.2
    rw [next, run, register_linked granted.1 q]
    exact ⟨device, clock, cycles, bucket, scheduled⟩

/-- A registration call reads no clock, and what it does to the table and the device queues
depends on these alone. -/
theorem next_frame (cfg : Cfg) {s t : NvmeState} (table : t.toRegistry = s.toRegistry) (device : t.device = s.device) (op : RegOp) :
    (op.next cfg s).lastSchedTime = s.lastSchedTime ∧ (op.next cfg t).toRegistry = (op.next cfg s).toRegistry ∧
      (op.next cfg t).device = (op.next cfg s).device := by
  cases op with
  | register cpu flowGroupId cookie slo swq =>
    have steady := fun u => register_steady cfg u cpu flowGroupId cookie slo swq
    refine ⟨(steady s).clock, ?_, ?_⟩
    · rw [next_register, next_register, table]
    · rw [(steady s).device, (steady t).device, device]
  | unregister cpu h =>
    refine ⟨(unregister_steady cfg s cpu h).clock, ?_, ?_⟩
    · rw [next_unregister, next_unregister, table]
    · exact (unregister_steady cfg t cpu h).device.trans (device.trans (unregister_steady cfg s cpu h).device.symm)
  | nvmeOpen cpu nsSize nsSectorSize =>
    have queues : t.ioqBitmap = s.ioqBitmap := congrArg Prod.fst device
    have same : allocateNvmeIoq t = allocateNvmeIoq s := by rw [allocateNvmeIoq, queues, allocateNvmeIoq]
    simp only [next, run, bsysNvmeOpen, same]
    cases allocateNvmeIoq s with
    | none => exact ⟨rfl, table, device⟩
    | some ioq =>
      refine ⟨rfl, ?_, ?_⟩
      · simp only [table]
      · simp only [NvmeState.device, queues]

end Calls

/-! ## The queues stay where they belong -/

namespace Housed

variable {cfg : Cfg} {b : Books} {r r' : Registry} {cpu h : Nat} {flowGroupId : Int64} {cookie : UInt64} {slo : SLO}

theorem congr (housed : Housed r b) (live : ∀ j, r'.Live j → r.Live j)
    (queue : ∀ j, r'.Live j → (r'.nvmeFgs j).nvmeSwq = (r.nvmeFgs j).nvmeSwq) : Housed r' b := by
  refine ⟨fun j alive => ?_, housed.listed, housed.nodup, housed.disjoint⟩
  rw [queue j alive]
  exact housed.slots j (live j alive)

theorem leave (housed : Housed r b) (wf : r.Wf cfg) (cpu h : Nat) : Housed (r.disconnected cfg h) (b.leave r cpu h) := by
  have others : ∀ j, (r.disconnected cfg h).Live j → j ≠ h ∧ r.Live j ∧
      ((r.disconnected cfg h).nvmeFgs j).nvmeSwq = (r.nvmeFgs j).nvmeSwq := by
    intro j live
    obtain ⟨other, alive⟩ := (disconnected_live wf j).1 live
    obtain ⟨credit, entry⟩ := disconnected_fg_of_ne cfg r other
    exact ⟨other, alive, by rw [entry]⟩
  have stays : Housed (r.disconnected cfg h) b := housed.congr (fun j live => (others j live).2.1) fun j live => (others j live).2.2
  unfold Books.leave
  split
  · rename_i q queue
    split
    · rename_i last
      obtain ⟨k, own, handle, -⟩ := housed.slots h (by rw [Registry.Live, last]; exact Int.one_pos)
      obtain rfl : q = k := Option.some.inj (queue.symm.trans own)
      refine ⟨fun j live => ?_, fun i k mem => ?_, fun i => ?_, fun i j k mem mem' => ?_⟩
      · obtain ⟨k, theirs, place, allocated⟩ := stays.slots j live
        have other : k ≠ q := by
          rintro rfl
          exact (others j live).1 (place.symm.trans handle)
        exact ⟨k, theirs, place, by simp only [update_of_ne other, allocated]⟩
      · simp only [leaveThread_list] at mem
        obtain ⟨other, mem⟩ := (housed.nodup i).mem_erase_iff.1 mem
        simp only [update_of_ne other]
        exact housed.listed i k mem
      · simp only [leaveThread_list]
        exact (housed.nodup i).erase q
      · simp only [leaveThread_list] at mem mem'
        exact housed.disjoint i j k (List.mem_of_mem_erase mem) (List.mem_of_mem_erase mem')
    · exact stays
  · exact stays

theorem prepare (housed : Housed r b) (wf : r.Wf cfg) (cpu : Nat) (flowGroupId : Int64) (slo : SLO) :
    Housed (r.prepared cfg cpu flowGroupId slo) (b.prepare r cpu flowGroupId slo) := by
  unfold Books.prepare
  cases found : r.search cpu flowGroupId with
  | nextAvail i =>
    rw [prepared_of_new found]
    exact housed.congr (fun _ live => live) fun _ _ => rfl
  | already i =>
    rcases eq_or_ne (r.nvmeFgs i).slo slo with same | changed
    · rw [prepared_of_same found same]
      simpa only [same, if_true] using housed
    · rw [prepared_of_changed found changed]
      simpa only [changed, if_false] using housed.leave wf cpu i

theorem failed (housed : Housed (r.prepared cfg cpu flowGroupId slo) b) {swq}
    (failed : r.Refused cfg cpu flowGroupId cookie slo ∨ swq = none) : Housed (r.registered cfg cpu flowGroupId cookie slo swq) b := by
  have same : ∀ j, ((r.registered cfg cpu flowGroupId cookie slo swq).nvmeFgs j).connRefCount =
        ((r.prepared cfg cpu flowGroupId slo).nvmeFgs j).connRefCount ∧
      ((r.registered cfg cpu flowGroupId cookie slo swq).nvmeFgs j).nvmeSwq =
        ((r.prepared cfg cpu flowGroupId slo).nvmeFgs j).nvmeSwq := by
    intro j
    rcases eq_or_ne j (r.slotFor cpu flowGroupId) with rfl | other
    · obtain ⟨credit, entry⟩ := registered_entry_of_failed failed
      rw [entry]
      exact ⟨rfl, rfl⟩
    · obtain ⟨_, before⟩ := prepared_fg_of_ne cfg r slo other
      obtain ⟨_, after⟩ := registered_fg_of_ne cfg r cookie slo swq other
      rw [after, before]
      exact ⟨rfl, rfl⟩
  refine housed.congr (fun j live => ?_) fun j _ => (same j).2
  rwa [Registry.Live, (same j).1] at live

theorem join (housed : Housed (r.prepared cfg cpu flowGroupId slo) b) (admitted : ¬ r.Refused cfg cpu flowGroupId cookie slo) {q}
    (free : b.pool q = false) :
    Housed (r.registered cfg cpu flowGroupId cookie slo (some q)) (b.join cpu q slo (r.slotFor cpu flowGroupId)) := by
  have taken : ∀ k, b.pool k = true → k ≠ q := by
    rintro k allocated rfl
    rw [free] at allocated
    cases allocated
  have absent : ∀ i, q ∉ (b.managers i).tenantSwq := fun i mem => taken q (housed.listed i q mem) rfl
  refine ⟨fun j live => ?_, fun i k mem => ?_, fun i => ?_, fun i j k mem mem' => ?_⟩
  · rcases eq_or_ne j (r.slotFor cpu flowGroupId) with rfl | other
    · obtain ⟨credit, entry⟩ := registered_entry_of_granted admitted q
      refine ⟨q, by rw [entry], ?_, ?_⟩
      · simp [Books.join, nvmeSwQueueInit]
      · simp [Books.join]
    · obtain ⟨_, before⟩ := prepared_fg_of_ne cfg r slo other
      obtain ⟨_, after⟩ := registered_fg_of_ne cfg r cookie slo (some q) other
      obtain ⟨k, queue, handle, allocated⟩ := housed.slots j (by
        rw [Registry.Live, before]
        rwa [Registry.Live, after] at live)
      rw [before] at queue
      refine ⟨k, by rw [after, queue], ?_, ?_⟩
      · simp only [Books.join, update_of_ne (taken k allocated), handle]
      · simp only [Books.join, update_of_ne (taken k allocated), allocated]
  · rcases mem_joinThread.1 mem with ⟨-, rfl⟩ | mem
    · simp [Books.join]
    · have allocated := housed.listed i k mem
      simp only [Books.join, update_of_ne (taken k allocated), allocated]
  · rcases eq_or_ne i cpu with rfl | other
    · simp only [Books.join, joinThread_self]
      exact List.nodup_cons.2 ⟨absent i, housed.nodup i⟩
    · simp only [Books.join, joinThread_of_ne _ _ _ other]
      exact housed.nodup i
  · rcases mem_joinThread.1 mem with ⟨rfl, rfl⟩ | here
    · rcases mem_joinThread.1 mem' with ⟨rfl, -⟩ | there
      · rfl
      · exact absurd there (absent j)
    · rcases mem_joinThread.1 mem' with ⟨-, rfl⟩ | there
      · exact absurd here (absent i)
      · exact housed.disjoint i j k here there

end Housed

theorem RegStep.housed {cfg s t op} (step : RegStep cfg s op t) (wf : s.Wf cfg)
    (housed : Housed s.toRegistry s.books) : Housed t.toRegistry t.books := by
  obtain ⟨fresh, rfl⟩ := step
  rw [next_books cfg housed]
  cases op with
  | register cpu flowGroupId cookie slo swq =>
    have prepared := housed.prepare wf cpu flowGroupId slo
    rw [next_register]
    cases swq with
    | none => exact prepared.failed (Or.inr rfl)
    | some q =>
      rw [enrol]
      split
      · rename_i refused
        exact prepared.failed (Or.inl refused)
      · rename_i admitted
        have free : (s.books.prepare s.toRegistry cpu flowGroupId slo).pool q = false := by
          rw [← prepareFlow_books cfg housed]
          exact fresh
        exact prepared.join admitted free
  | unregister cpu h =>
    rw [next_unregister]
    exact housed.leave wf cpu h
  | nvmeOpen cpu nsSize nsSectorSize =>
    rw [enrol]
    simp only [next, run, bsysNvmeOpen]
    split
    · exact housed
    · exact housed.congr (fun _ live => live) fun _ _ => rfl

theorem Housed.sameTenants {s t : NvmeState} (housed : Housed s.toRegistry s.books) (same : SameTenants s t) :
    Housed t.toRegistry t.books := by
  refine ⟨fun h live => ?_, ?_, ?_, ?_⟩
  · rw [same.registry] at live ⊢
    obtain ⟨q, queue, handle, allocated⟩ := housed.slots h live
    refine ⟨q, queue, (same.handles q).trans handle, ?_⟩
    simp only [books] at allocated ⊢
    rw [same.pool]
    exact allocated
  · simp only [books, same.managers, same.pool]
    exact housed.listed
  · simp only [books, same.managers]
    exact housed.nodup
  · simp only [books, same.managers]
    exact housed.disjoint

/-! ## Requests wait in their own queues -/

/-- The table and the queues are in order, and every queue holds requests of its slot. -/
structure Sound (cfg : Cfg) (s : NvmeState) : Prop where
  wf : s.Wf cfg
  housed : Housed s.toRegistry s.books
  rings : ∀ q, (s.swqs q).Wf
  own : ∀ q, ∀ ctx ∈ (s.swqs q).pending, ctx.fgHandle = (s.swqs q).fgHandle

namespace Sound

variable {cfg : Cfg} {s t : NvmeState} {cpu q : Nat}

theorem init (cfg : Cfg) (now tsc : Nat → Nat) : Sound cfg (init now tsc) := by
  refine ⟨Registry.init_wf cfg, ⟨fun h live => ?_, fun i q mem => ?_, fun i => List.nodup_nil, fun i j q mem => ?_⟩, fun q => ?_,
    fun q ctx mem => ?_⟩
  · exact absurd live (lt_irrefl (0 : Int))
  · exact absurd mem List.not_mem_nil
  · exact absurd mem List.not_mem_nil
  · exact nvmeSwQueueInit_wf .zero 0
  · exact absurd mem List.not_mem_nil

section

variable (sound : Sound cfg s)
include sound

theorem sameTenants (same : SameTenants s t) (rings : ∀ q, (t.swqs q).Wf)
    (own : ∀ q, ∀ ctx ∈ (t.swqs q).pending, ctx.fgHandle = (s.swqs q).fgHandle) : Sound cfg t := by
  refine ⟨same.registry ▸ sound.wf, sound.housed.sameTenants same, rings, fun q ctx mem => ?_⟩
  rw [same.handles q]
  exact own q ctx mem

theorem registered {op} (step : RegStep cfg s op t) : Sound cfg t := by
  have housed := step.housed sound.wf sound.housed
  have wf := step.wf sound.wf
  obtain ⟨-, rfl⟩ := step
  obtain ⟨-, -, queues⟩ := next_queues cfg s op
  refine ⟨wf, housed, fun q => ?_, fun q => ?_⟩
  · rcases queues q with same | ⟨k, h, empty⟩
    · exact same ▸ sound.rings q
    · exact empty ▸ nvmeSwQueueInit_wf k h
  · rcases queues q with same | ⟨k, h, empty⟩
    · exact same ▸ sound.own q
    · rw [empty, pending_init]
      exact fun ctx mem => absurd mem List.not_mem_nil

theorem serving {events} (serving : Serving q events s t) : Sound cfg t := by
  refine sound.sameTenants serving.tenants (serving.rings sound.rings) fun k ctx mem => sound.own k ctx ?_
  rcases eq_or_ne k q with rfl | other
  · rw [← serving.order]
    exact List.mem_append_right _ mem
  · rwa [serving.others k other] at mem

theorem idles (idles : Idles s t) : Sound cfg t := by
  refine sound.sameTenants idles.tenants ?_ ?_
  · rw [idles.queues]
    exact sound.rings
  · rw [idles.queues]
    exact sound.own

theorem issued {events} (serving : Serving q events s t) :
    ∀ ctx ∈ events.filterMap SchedEvent.issued, ctx.fgHandle = (s.swqs q).fgHandle := by
  intro ctx mem
  apply sound.own q ctx
  rw [← serving.order]
  exact List.mem_append_left _ mem

theorem submitted {request ret} (submits : Submits cfg s request ret t)
    (connected : ∀ ctx, request = some ctx → s.Live ctx.fgHandle) : Sound cfg t := by
  have same := submits.sameTenants
  cases submits with
  | refused => exact sound
  | @queued ctx q swq built queue push =>
    obtain ⟨k, own, handle, -⟩ := sound.housed.slots _ (connected ctx built)
    obtain rfl : q = k := Option.some.inj (queue.symm.trans own)
    obtain ⟨ring, waiting, -⟩ := pushBack_spec (sound.rings q) push
    refine sound.sameTenants same (fun j => ?_) fun j x mem => ?_
    · rcases eq_or_ne j q with rfl | other
      · simpa [setSwq] using ring
      · simpa [setSwq, other] using sound.rings j
    · rcases eq_or_ne j q with rfl | other
      · simp only [setSwq, update_self, waiting, List.mem_append, List.mem_singleton] at mem
        rcases mem with old | rfl
        · exact sound.own j x old
        · exact handle.symm
      · simp only [setSwq, update_of_ne other] at mem
        exact sound.own j x mem
  | direct off => exact sound.sameTenants same sound.rings sound.own

end

end Sound

end Reflex.Nvme
