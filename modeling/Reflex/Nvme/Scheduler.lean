import Reflex.Lib.Orbit
import Reflex.Nvme.State

/-!
# Requests and scheduling rounds

The submission calls and `nvme_sched` of `nvme/nvmedev.c`. The contexts that
`alloc_local_nvme_ctx` returns and the two clocks are arguments. A request handed to the
device is an event of the trace; the device accepts it (the code panics otherwise). The
round-robin search of `nvme_sched_subround2` is an unbounded loop: it is given as many
steps as the thread has tenants, after which it starts over, and `none` is a call that
never returns.
-/

namespace Reflex.Nvme
open Lib

/-! ## Submission -/

/-- The context of a scheduled request, from the one that the pool returned. -/
def requestCtx (cfg : Cfg) (s : NvmeState) (cpu : Nat) (cmd : NvmeCmd) (fgHandle : Nat) (lba : UInt64) (lbaCount : UInt32)
    (ctx : NvmeCtx) : NvmeCtx :=
  { ctx with
    tid := cpu
    fgHandle := fgHandle
    cmd := cmd
    reqCost := nvmeComputeReqCost cfg cmd (wofInt 64 (lbaCount.toNat * s.globalNsSectorSize))
    lba := lba
    lbaCount := lbaCount }

/-- The four submission calls. They differ in the command, in what `fill` stores of the
buffer and in the `payload` that the device is given at once; `none` is the use of a slot
that has no queue. -/
def submitRequest (cfg : Cfg) (s : NvmeState) (cpu : Nat) (cmd : NvmeCmd) (fill : NvmeCtx → NvmeCtx) (payload : Option UInt64)
    (fgHandle : Nat) (lba : UInt64) (lbaCount : UInt32) (cookie : UInt64) (alloc : Option NvmeCtx) : Option (Int × NvmeState) :=
  match alloc with
  | none => some (-retNomem, s)
  | some ctx =>
    let ctx := fill { ctx with cookie := cookie }
    if cfg.nvmeSchedFlag then
      match (s.nvmeFgs fgHandle).nvmeSwq with
      | none => none
      | some q =>
        match nvmeSwQueuePushBack (s.swqs q) (requestCtx cfg s cpu cmd fgHandle lba lbaCount ctx) with
        | none => some (-retNomem, s)
        | some swq => some (retOk, s.setSwq q swq)
    else some (retOk, s.log (.direct ctx cmd lba lbaCount payload))

/-- A write stores the address only for the scheduler. -/
def fillWrite (cfg : Cfg) (vaddr : UInt64) (ctx : NvmeCtx) : NvmeCtx :=
  if cfg.nvmeSchedFlag then { ctx with paddr := vaddr } else ctx

def fillRead (cfg : Cfg) (vaddr : UInt64) (ctx : NvmeCtx) : NvmeCtx :=
  let ctx := { ctx with userBuf := vaddr }
  if cfg.nvmeSchedFlag then { ctx with paddr := vaddr } else ctx

def fillSgl (buf : UInt64) (numSgls : Int32) (ctx : NvmeCtx) : NvmeCtx := { ctx with userBuf := buf, numSgls := numSgls }

def bsysNvmeWrite (cfg : Cfg) (s : NvmeState) (cpu fgHandle : Nat) (vaddr : UInt64) (lba : UInt64) (lbaCount : UInt32)
    (cookie : UInt64) (alloc : Option NvmeCtx) : Option (Int × NvmeState) :=
  submitRequest cfg s cpu .write (fillWrite cfg vaddr) (some vaddr) fgHandle lba lbaCount cookie alloc

/-- What the direct path of a plain read asserts. A division by zero is zero, as on ARM. -/
def alignedRead (lba : UInt64) (lbaCount : UInt32) : Bool := lba / lbaCount.toUInt64 * lbaCount.toUInt64 == lba

/-- `none` is also the failed assertion. -/
def bsysNvmeRead (cfg : Cfg) (s : NvmeState) (cpu fgHandle : Nat) (vaddr : UInt64) (lba : UInt64) (lbaCount : UInt32)
    (cookie : UInt64) (alloc : Option NvmeCtx) : Option (Int × NvmeState) :=
  if cfg.nvmeSchedFlag = false ∧ alloc ≠ none ∧ alignedRead lba lbaCount = false then none
  else submitRequest cfg s cpu .read (fillRead cfg vaddr) (some vaddr) fgHandle lba lbaCount cookie alloc

theorem bsysNvmeRead_scheduled {cfg : Cfg} (scheduled : cfg.nvmeSchedFlag = true) (s : NvmeState) (cpu fgHandle : Nat)
    (vaddr lba : UInt64) (lbaCount : UInt32) (cookie : UInt64) (alloc : Option NvmeCtx) :
    bsysNvmeRead cfg s cpu fgHandle vaddr lba lbaCount cookie alloc =
      submitRequest cfg s cpu .read (fillRead cfg vaddr) (some vaddr) fgHandle lba lbaCount cookie alloc := by
  rw [bsysNvmeRead, if_neg (by simp [scheduled])]

def bsysNvmeWritev (cfg : Cfg) (s : NvmeState) (cpu fgHandle : Nat) (buf : UInt64) (numSgls : Int32) (lba : UInt64)
    (lbaCount : UInt32) (cookie : UInt64) (alloc : Option NvmeCtx) : Option (Int × NvmeState) :=
  submitRequest cfg s cpu .write (fillSgl buf numSgls) none fgHandle lba lbaCount cookie alloc

def bsysNvmeReadv (cfg : Cfg) (s : NvmeState) (cpu fgHandle : Nat) (buf : UInt64) (numSgls : Int32) (lba : UInt64)
    (lbaCount : UInt32) (cookie : UInt64) (alloc : Option NvmeCtx) : Option (Int × NvmeState) :=
  submitRequest cfg s cpu .read (fillSgl buf numSgls) none fgHandle lba lbaCount cookie alloc

/-! ## The first sub-round: latency-critical tenants -/

/-- A fake flash device answers at once. -/
def issueNvmeReq (cfg : Cfg) (s : NvmeState) (cpu : Nat) (ctx : NvmeCtx) : NvmeState :=
  match cfg.nvmeDevModel with
  | .fakeFlash =>
    match ctx.cmd with
    | .read => s.post cpu (.nvmeResponse ctx.cookie ctx.userBuf retOk)
    | .write => s.post cpu (.nvmeWritten ctx.cookie retOk)
  | _ => s

theorem issueNvmeReq_usys (cfg : Cfg) (s : NvmeState) (cpu : Nat) (ctx : NvmeCtx) :
    ∃ usys, issueNvmeReq cfg s cpu ctx = { s with usys := usys } := by
  unfold issueNvmeReq
  split
  · split
    · exact ⟨_, rfl⟩
    · exact ⟨_, rfl⟩
  · exact ⟨s.usys, rfl⟩

def tokenFracGiveaway : ℚ := 9 / 10

/-- The flow group that a queue serves is latency critical. -/
def NvmeState.critical (s : NvmeState) (q : Nat) : Bool := (s.nvmeFgs (s.swqs q).fgHandle).latencyCriticalFlag

/-- Issue requests while the queue has credit. Each iteration removes one request. -/
def lcDrain (cfg : Cfg) (cpu q : Nat) : Nat → NvmeState → NvmeState
  | 0, s => s
  | fuel + 1, s =>
    if nvmeSwQueueIsempty (s.swqs q) = false ∧ -cfg.tokenDeficitLimit < (s.swqs q).tokenCredit then
      match nvmeSwQueuePopFront (s.swqs q) with
      | none => s
      | some (ctx, swq) =>
        let s := issueNvmeReq cfg (s.setSwq q { swq with tokenCredit := swq.tokenCredit - ctx.reqCost }) cpu ctx
        lcDrain cfg cpu q fuel (s.log (.lcIssue q ctx))
    else s

/-- The round of one latency-critical queue; `leftover` collects what such queues give away. -/
def serveLc (cfg : Cfg) (cpu timeDelta q : Nat) (s : NvmeState) (leftover : Nat) : NvmeState × Nat :=
  let tokenIncrement : ℚ := (s.nvmeFgs (s.swqs q).fgHandle).scaledIOPuSLimit * timeDelta + 1 / 2
  let s := (s.setSwq q { s.swqs q with tokenCredit := (s.swqs q).tokenCredit + truncToInt 64 tokenIncrement }).log
    (.lcIncrement q (truncToInt 64 tokenIncrement))
  let s := lcDrain cfg cpu q (s.swqs q).count s
  let posLimit := truncToInt 64 (3 * tokenIncrement)
  let credit := (s.swqs q).tokenCredit
  if posLimit < credit then
    let given : ℚ := credit * tokenFracGiveaway
    ((s.setSwq q { s.swqs q with tokenCredit := truncToInt 64 (credit - given) }).log (.lcDonate q (truncToNat 64 given)),
      truncToNat 64 (leftover + given))
  else (s, leftover)

/-- One queue of the list: the demand of a best-effort queue is only added up. -/
def subround1Queue (cfg : Cfg) (cpu timeDelta : Nat) (acc : NvmeState × Nat × Nat) (q : Nat) : NvmeState × Nat × Nat :=
  let (s, leftover, demand) := acc
  if s.critical q then
    let (s, leftover) := serveLc cfg cpu timeDelta q s leftover
    (s, leftover, demand)
  else (s, leftover, wadd 64 demand (wsub 64 (s.swqs q).totalTokenDemand (s.swqs q).savedTokens))

theorem subround1Queue_critical (cfg : Cfg) (cpu timeDelta : Nat) {s : NvmeState} {q : Nat}
    (kind : s.critical q = true) (leftover demand : Nat) :
    subround1Queue cfg cpu timeDelta (s, leftover, demand) q =
      ((serveLc cfg cpu timeDelta q s leftover).1, (serveLc cfg cpu timeDelta q s leftover).2, demand) := by
  simp only [subround1Queue, kind, if_true]

theorem subround1Queue_effort (cfg : Cfg) (cpu timeDelta : Nat) {s : NvmeState} {q : Nat} (kind : s.critical q = false)
    (leftover demand : Nat) :
    subround1Queue cfg cpu timeDelta (s, leftover, demand) q =
      (s, leftover, wadd 64 demand (wsub 64 (s.swqs q).totalTokenDemand (s.swqs q).savedTokens)) := by
  simp only [subround1Queue, kind, Bool.false_eq_true, if_false]

def nvmeSchedSubround1 (cfg : Cfg) (s : NvmeState) (cpu now : Nat) : NvmeState :=
  let timeDelta := wsub 64 now (s.lastSchedTime cpu)
  let s := { s with lastSchedTime := Function.update s.lastSchedTime cpu now }
  let (s, leftover, demand) := (s.nvmeTenantManager cpu).tenantSwq.foldl (subround1Queue cfg cpu timeDelta) (s, 0, 0)
  { s with
    localExtraDemand := Function.update s.localExtraDemand cpu demand
    localLeftoverTokens := Function.update s.localLeftoverTokens cpu leftover }

/-! ## The second sub-round: best-effort tenants -/

/-- The compare-and-swap succeeds at once: rounds are not interleaved. -/
def tryAcquireGlobalTokens (s : NvmeState) (tokenDemand : Nat) : Nat × NvmeState :=
  if s.globalLeftoverTokens < tokenDemand then (s.globalLeftoverTokens, { s with globalLeftoverTokens := 0 })
  else (tokenDemand, { s with globalLeftoverTokens := wsub 64 s.globalLeftoverTokens tokenDemand })

/-- `atomic_u64_fetch_and_add` on the shared bucket. -/
def giveGlobalTokens (s : NvmeState) (tokens : Nat) : NvmeState :=
  { s with globalLeftoverTokens := wadd 64 s.globalLeftoverTokens tokens }

/-- Issue requests while the tokens in hand pay for the oldest one. The `int` cost is
compared and subtracted as an unsigned word. -/
def beDrain (cfg : Cfg) (cpu q : Nat) : Nat → NvmeState → Nat → NvmeState × Nat
  | 0, s, beTokens => (s, beTokens)
  | fuel + 1, s, beTokens =>
    if nvmeSwQueueIsempty (s.swqs q) = false ∧ wofInt 64 (nvmeSwQueuePeakHeadCost (s.swqs q)) ≤ beTokens then
      match nvmeSwQueuePopFront (s.swqs q) with
      | none => (s, beTokens)
      | some (ctx, swq) =>
        let s := issueNvmeReq cfg (s.setSwq q swq) cpu ctx
        beDrain cfg cpu q fuel (s.log (.beIssue q ctx beTokens)) (wsub 64 beTokens (wofInt 64 ctx.reqCost))
    else (s, beTokens)

/-- A best-effort tenant's share of the time that has passed. The `int` rate is multiplied
as an unsigned word. -/
def beTokenIncrement (cfg : Cfg) (s : NvmeState) (timeDeltaCycles : Nat) : ℚ :=
  (wmul 64 (wofInt 64 s.globalBeTokenRatePerTenant.toInt) timeDeltaCycles : ℚ) / (cfg.cyclesPerUs * 10 ^ 6)

/-- A best-effort queue adds its saved tokens and its share to the tokens in hand. -/
def fundBe (cfg : Cfg) (timeDeltaCycles q : Nat) (s : NvmeState) (beTokens : Nat) : NvmeState × Nat :=
  let (saved, swq) := nvmeSwQueueTakeSavedTokens (s.swqs q)
  let s := s.setSwq q swq
  let increment := wofInt 64 (truncToInt 64 (beTokenIncrement cfg s timeDeltaCycles + 1 / 2))
  (s.log (.beIncrement q increment), wadd 64 (wadd 64 beTokens saved) increment)

def keepBe (q : Nat) (s : NvmeState) (beTokens : Nat) : NvmeState × Nat :=
  let (kept, swq) := nvmeSwQueueSaveTokens (s.swqs q) beTokens
  ((s.setSwq q swq).log (.beSave q kept beTokens), wsub 64 beTokens kept)

/-- One queue of the list; a latency-critical one has had its round. -/
def serveBe (cfg : Cfg) (cpu timeDeltaCycles : Nat) (acc : NvmeState × Nat) (q : Nat) : NvmeState × Nat :=
  let (s, beTokens) := acc
  if s.critical q then (s, beTokens)
  else
    let (s, beTokens) := fundBe cfg timeDeltaCycles q s beTokens
    let (s, beTokens) := beDrain cfg cpu q (s.swqs q).count s beTokens
    keepBe q s beTokens

/-- Position `rr` of the thread's list holds a best-effort queue. -/
def NvmeState.bestEffortAt (s : NvmeState) (cpu : Nat) (rr : Int) : Bool :=
  match (s.nvmeTenantManager cpu).tenantSwq[rr.toNat]? with
  | some q => decide (0 ≤ rr) && !s.critical q
  | none => false

/-- One step of the search: `(roundrobin_start + 1) % num_tenants`. -/
def roundrobinNext (numTenants rr : Int) : Int := (rr + 1).tmod numTenants

/-- The loop that moves `roundrobin_start` to the next best-effort tenant. -/
def nextRoundrobinStart (s : NvmeState) (cpu : Nat) : Option Int :=
  orbitFind (roundrobinNext (s.nvmeTenantManager cpu).numTenants) (s.bestEffortAt cpu)
    (s.nvmeTenantManager cpu).numTenants.natAbs (s.roundrobinStart cpu)

/-- The end of the sub-round: the next start and the tokens that are left. -/
def endSubround2 (s : NvmeState) (cpu beTokens : Nat) : Option NvmeState :=
  let s? :=
    if 0 < (s.nvmeTenantManager cpu).numBestEffortTenants then
      (nextRoundrobinStart s cpu).map fun rr => { s with roundrobinStart := Function.update s.roundrobinStart cpu rr }
    else some s
  s?.map fun s => if 0 < beTokens then giveGlobalTokens s beTokens else s

/-- The tokens a thread starts with: its leftover, and what it lacks from the shared bucket. -/
def beTokensInHand (s : NvmeState) (localLeftover localDemand : Nat) : NvmeState × Nat :=
  if localLeftover < localDemand then
    let (acquired, s) := tryAcquireGlobalTokens s (wsub 64 localDemand localLeftover)
    (s, wadd 64 localLeftover acquired)
  else (s, localLeftover)

/-- The two passes over the list: from position `roundrobin_start` to the end, then from
the front. -/
def serveAllBe (cfg : Cfg) (cpu timeDeltaCycles : Nat) (s : NvmeState) (beTokens : Nat) : NvmeState × Nat :=
  let queues := (s.nvmeTenantManager cpu).tenantSwq
  let start := (s.roundrobinStart cpu).toNat
  let acc := (queues.drop start).foldl (serveBe cfg cpu timeDeltaCycles) (s, beTokens)
  (queues.take start).foldl (serveBe cfg cpu timeDeltaCycles) acc

def nvmeSchedSubround2 (cfg : Cfg) (s : NvmeState) (cpu tsc : Nat) : Option NvmeState :=
  let localLeftover := s.localLeftoverTokens cpu
  let localDemand := s.localExtraDemand cpu
  if 0 < localLeftover ∧ localDemand = 0 then some (giveGlobalTokens s localLeftover)
  else
    let (s, beTokens) := beTokensInHand s localLeftover localDemand
    let timeDeltaCycles := wsub 64 tsc (s.lastSchedTimeBe cpu)
    let s := { s with lastSchedTimeBe := Function.update s.lastSchedTimeBe cpu tsc }
    let (s, beTokens) := serveAllBe cfg cpu timeDeltaCycles s beTokens
    endSubround2 s cpu beTokens

/-! ## The round -/

/-- When every active thread has had a round the shared bucket is emptied. -/
def updateScheduledBitvector (cfg : Cfg) (s : NvmeState) (cpu : Nat) : NvmeState :=
  let scheduled := Function.update s.scheduledBitVector cpu (s.scheduledBitVector cpu + 1)
  if (List.range cfg.cpusActive).all fun i => decide (scheduled i ≠ 0) then
    { s with
      globalLeftoverTokens := 0
      scheduledBitVector := fun i => if i < cfg.cpusActive then 0 else scheduled i }
  else { s with scheduledBitVector := scheduled }

def nvmeSched (cfg : Cfg) (s : NvmeState) (cpu now tsc : Nat) : Option NvmeState :=
  if (s.nvmeTenantManager cpu).numTenants = 0 then
    some (updateScheduledBitvector cfg { s with
      lastSchedTime := Function.update s.lastSchedTime cpu now
      lastSchedTimeBe := Function.update s.lastSchedTimeBe cpu tsc } cpu)
  else
    (nvmeSchedSubround2 cfg (nvmeSchedSubround1 cfg s cpu now) cpu tsc).map fun s =>
      updateScheduledBitvector cfg { s with
        localLeftoverTokens := Function.update s.localLeftoverTokens cpu 0
        localExtraDemand := Function.update s.localExtraDemand cpu 0 } cpu

end Reflex.Nvme
