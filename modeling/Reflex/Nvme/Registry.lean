import Reflex.Nvme.State

/-!
# Registration of flow groups

`bsys_nvme_open`, `bsys_nvme_register_flow` and `bsys_nvme_unregister_flow` of
`nvme/nvmedev.c` with the functions they call: the handle search, the admission check
and the recomputation of the scheduling rates. The result of the queue pool's
`alloc_local_nvme_swq` is an argument of the registration.
-/

namespace Reflex.Nvme
open Lib

/-- Result of the search for a flow group's handle. -/
inductive SlotSearch where
  | already (i : Nat)
  | nextAvail (i : Nat)
  deriving DecidableEq

/-- The loop of `set_nvme_flow_group_id` over the handles left to visit. -/
def searchFlowGroup (r : Registry) (cpu : Nat) (flowGroupId : Int64) : List Nat → Nat → SlotSearch
  | [], nextAvail => .nextAvail nextAvail
  | i :: rest, nextAvail =>
    if r.nvmeFgsBitmap i then
      if (r.nvmeFgs i).flowGroupId.toInt64 = flowGroupId ∧ (r.nvmeFgs i).tid = cpu then .already i
      else searchFlowGroup r cpu flowGroupId rest nextAvail
    else searchFlowGroup r cpu flowGroupId rest (if nextAvail = 0 then i else nextAvail)

/-- The handles visited: `1 .. MAX_NVME_FLOW_GROUPS - 1`. -/
def searchHandles : List Nat := List.range' 1 (maxNvmeFlowGroups - 1)

def Registry.search (r : Registry) (cpu : Nat) (flowGroupId : Int64) : SlotSearch :=
  searchFlowGroup r cpu flowGroupId searchHandles 0

def enomem : Int := 12

/-- The return value, the handle stored through the pointer (zero before the call) and
the table. -/
def setNvmeFlowGroupId (r : Registry) (cpu : Nat) (flowGroupId : Int64) : Int × Nat × Registry :=
  match r.search cpu flowGroupId with
  | .already i => (1, i, r)
  | .nextAvail i => if i = maxNvmeFlowGroups then (-enomem, 0, r) else (0, i, r.setBit i true)

/-- The loop of `readjust_lc_tenant_token_limits`, which stops at the `numLc`-th slot. -/
def readjustLoop (boost numLc : Nat) (bitmap : Nat → Bool) :
    List Nat → Nat → (Nat → FlowGroup) → Nat → FlowGroup
  | [], _, fgs => fgs
  | i :: rest, j, fgs =>
    if bitmap i && (fgs i).latencyCriticalFlag then
      let fgs := Function.update fgs i
        { fgs i with scaledIOPuSLimit := (wadd 64 (fgs i).scaledIOPSLimit boost : ℚ) / 10 ^ 6 }
      if j + 1 = numLc then fgs else readjustLoop boost numLc bitmap rest (j + 1) fgs
    else readjustLoop boost numLc bitmap rest j fgs

def readjustLcTenantTokenLimits (r : Registry) : Registry :=
  { r with
    nvmeFgs := readjustLoop r.globalLcBoostNoBE r.globalNumLcTenants r.nvmeFgsBitmap
      (List.range maxNvmeFlowGroups) 0 r.nvmeFgs }

/-- `be_token_rate_per_tenant`, an `unsigned int`. -/
def beTokenRatePerTenant (rate sum numBe : Nat) : UInt32 :=
  if numBe ≠ 0 then UInt32.ofNat (wsub 64 rate sum / numBe) else 0

def lcTokenRateBoostWhenNoBE (rate sum numLc numBe : Nat) : Nat :=
  if numBe ≠ 0 then 0 else if numLc ≠ 0 then wsub 64 rate sum / numLc else 0

/-- The best-effort rate that the counters call for. -/
def Registry.beRateDue (r : Registry) : UInt32 :=
  beTokenRatePerTenant r.globalTokenRate r.globalLCSumTokenRate r.globalNumBestEffortTenants

def Registry.boostDue (r : Registry) : Nat :=
  lcTokenRateBoostWhenNoBE r.globalTokenRate r.globalLCSumTokenRate r.globalNumLcTenants r.globalNumBestEffortTenants

/-- The common end of both `recalculate_weights` functions. -/
def publishRates (r : Registry) : Registry :=
  let r' := { r with globalBeTokenRatePerTenant := r.beRateDue.toInt32 }
  if r.boostDue ≠ r.globalLcBoostNoBE then readjustLcTenantTokenLimits { r' with globalLcBoostNoBE := r.boostDue }
  else r'

/-- The read-only flag once a latency-critical tenant with this SLO has arrived. -/
def Registry.readonlyWith (r : Registry) (slo : SLO) : Bool :=
  if slo.rwRatioSLO.toInt < 100 then false else r.globalReadonlyFlag

/-- The token rate that the admission check of a latency-critical tenant compares with. -/
def Registry.rateWith (cfg : Cfg) (r : Registry) (slo : SLO) : Nat :=
  let looked := lookupDeviceTokenRate cfg (r.readonlyWith slo) slo.latencyUsSLO.toNat
  if r.globalTokenRate < looked then r.globalTokenRate else looked

def recalculateWeightsAdd (cfg : Cfg) (r : Registry) (idx : Nat) : Int × Registry :=
  let fg := r.nvmeFgs idx
  if fg.latencyCriticalFlag then
    let newSum := wadd 64 r.globalLCSumTokenRate fg.scaledIOPSLimit
    let newRate := r.rateWith cfg fg.slo
    let r := { r with globalReadonlyFlag := r.readonlyWith fg.slo }
    if newRate < newSum then (-retCantmeetslo, r)
    else (1, publishRates { r with
      globalTokenRate := newRate
      globalLCSumTokenRate := newSum
      globalNumLcTenants := wadd 64 r.globalNumLcTenants 1 })
  else (1, publishRates { r with
      globalNumBestEffortTenants := wadd 64 r.globalNumBestEffortTenants 1
      globalReadonlyFlag := false })

/-- The scan of `recalculate_weights_remove` for the strictest latency and the read-only
flag of the other latency-critical slots. -/
def remainingSLOs (r : Registry) (idx : Nat) : Nat × Bool :=
  (List.range maxNvmeFlowGroups).foldl
    (fun acc i =>
      if r.nvmeFgsBitmap i && i ≠ idx && (r.nvmeFgs i).latencyCriticalFlag then
        let lat := (r.nvmeFgs i).slo.latencyUsSLO.toNat
        (if lat < acc.1 then lat else acc.1, if (r.nvmeFgs i).slo.rwRatioSLO.toInt < 100 then false else acc.2)
      else acc)
    (uintMax, true)

def recalculateWeightsRemove (cfg : Cfg) (r : Registry) (idx : Nat) : Registry :=
  let fg := r.nvmeFgs idx
  let r :=
    if fg.latencyCriticalFlag then
      let (strictest, readonly) := remainingSLOs r idx
      { r with
        globalReadonlyFlag := readonly
        globalLCSumTokenRate := wsub 64 r.globalLCSumTokenRate fg.scaledIOPSLimit
        globalTokenRate := lookupDeviceTokenRate cfg readonly strictest
        globalNumLcTenants := wsub 64 r.globalNumLcTenants 1 }
    else { r with globalNumBestEffortTenants := wsub 64 r.globalNumBestEffortTenants 1 }
  publishRates { r with globalReadonlyFlag := if r.globalNumBestEffortTenants ≠ 0 then false else r.globalReadonlyFlag }

/-- `list_del` unlinks a queue from whichever list holds it. -/
def listDel (managers : Nat → TenantMgmt) (q : Nat) : Nat → TenantMgmt :=
  fun t => { managers t with tenantSwq := (managers t).tenantSwq.erase q }

/-- Unlink and free the queue of a released flow group. -/
def dropQueue (s : NvmeState) (fg : FlowGroup) : NvmeState :=
  match fg.nvmeSwq with
  | some q => { s with
      nvmeTenantManager := listDel s.nvmeTenantManager q
      swqAllocated := Function.update s.swqAllocated q false }
  | none => s

/-- The part of `bsys_nvme_unregister_flow` that runs when the last connection leaves. -/
def releaseFlow (cfg : Cfg) (s : NvmeState) (cpu : Nat) (fgHandle : Nat) : NvmeState :=
  let fg := s.nvmeFgs fgHandle
  let mgr := s.nvmeTenantManager cpu
  let s := s.setManager cpu { mgr with
    numBestEffortTenants := if fg.latencyCriticalFlag then mgr.numBestEffortTenants else mgr.numBestEffortTenants - 1 }
  let s := dropQueue s fg
  let mgr := s.nvmeTenantManager cpu
  let s := s.setManager cpu { mgr with numTenants := mgr.numTenants - 1 }
  { s with toRegistry := (recalculateWeightsRemove cfg s.toRegistry fgHandle).setBit fgHandle false }

def bsysNvmeUnregisterFlow (cfg : Cfg) (s : NvmeState) (cpu : Nat) (fgHandle : Nat) : Int × NvmeState :=
  let fg := s.nvmeFgs fgHandle
  let s := { s with toRegistry := s.setFg fgHandle { fg with connRefCount := fg.connRefCount - 1 } }
  let s := if fg.connRefCount - 1 = 0 then releaseFlow cfg s cpu fgHandle else s
  (retOk, s.post cpu (.nvmeUnregisteredFlow fgHandle retOk))

/-- The fields that a registration writes before the admission check. -/
def fillFlowGroup (cfg : Cfg) (fg : FlowGroup) (cpu : Nat) (flowGroupId : Int64) (cookie : UInt64) (slo : SLO) :
    FlowGroup :=
  { fg with
    flowGroupId := flowGroupId.toInt32
    cookie := cookie
    slo := slo
    tid := cpu
    scaledIOPSLimit := truncToNat 64 ((scaledIOPS cfg slo.iopsSLO slo.rwRatioSLO : ℚ) / (10 ^ 6 : Nat))
    latencyCriticalFlag := slo.latencyUsSLO ≠ 0 }

/-- The end of a registration: link the queue into the thread's list, first connection. -/
def linkFlow (s : NvmeState) (cpu : Nat) (fgHandle : Nat) (cookie : UInt64) (slo : SLO) (q : Nat) : NvmeState :=
  let mgr := s.nvmeTenantManager cpu
  let s := { s with
    toRegistry := s.setFg fgHandle { s.nvmeFgs fgHandle with nvmeSwq := some q, connRefCount := 1 }
    swqAllocated := Function.update s.swqAllocated q true
    roundrobinStart := Function.update s.roundrobinStart cpu 0 }
  let s := s.setSwq q (nvmeSwQueueInit (s.swqs q) fgHandle)
  let s := s.setManager cpu
    { tenantSwq := q :: mgr.tenantSwq
      numTenants := mgr.numTenants + 1
      numBestEffortTenants :=
        if slo.latencyUsSLO = 0 then mgr.numBestEffortTenants + 1 else mgr.numBestEffortTenants }
  s.post cpu (.nvmeRegisteredFlow fgHandle cookie retOk)

/-- The handle a registration works on, and the state once the flow's old SLO is gone: a
flow found with another SLO is unregistered first. -/
def prepareFlow (cfg : Cfg) (s : NvmeState) (cpu : Nat) (flowGroupId : Int64) (slo : SLO) : Nat × NvmeState :=
  let (already, fgHandle, r) := setNvmeFlowGroupId s.toRegistry cpu flowGroupId
  let s := { s with toRegistry := r }
  if already = 1 ∧ (s.nvmeFgs fgHandle).slo ≠ slo then (fgHandle, (bsysNvmeUnregisterFlow cfg s cpu fgHandle).2)
  else (fgHandle, s)

def bsysNvmeRegisterFlow (cfg : Cfg) (s : NvmeState) (cpu : Nat) (flowGroupId : Int64) (cookie : UInt64) (slo : SLO)
    (swq : Option Nat) : Int × NvmeState :=
  let (fgHandle, s) := prepareFlow cfg s cpu flowGroupId slo
  let r := s.setFg fgHandle (fillFlowGroup cfg (s.nvmeFgs fgHandle) cpu flowGroupId cookie slo)
  let (ret, r) := recalculateWeightsAdd cfg r fgHandle
  let s := { s with toRegistry := r }
  if ret < 0 then (-retCantmeetslo, s)
  else match swq with
    | none => (-retNomem, s)
    | some q => (retOk, linkFlow s cpu fgHandle cookie slo q)

/-- `allocate_nvme_ioq`: the first free device queue. -/
def allocateNvmeIoq (s : NvmeState) : Option Nat := (List.range' 1 (maxNumIoQueues - 1)).find? fun q => !s.ioqBitmap q

/-- Opening a namespace also reinitialises the flow-group bitmap. -/
def bsysNvmeOpen (s : NvmeState) (cpu : Nat) (nsSize nsSectorSize : Int) : Int × NvmeState :=
  match allocateNvmeIoq s with
  | none => (-retNobufs, s)
  | some ioq => (retOk, { s with
      ioqBitmap := Function.update s.ioqBitmap ioq true
      nvmeFgsBitmap := fun _ => false
      openEv := Function.update s.openEv cpu (s.openEv cpu ++ [ioq])
      globalNsSize := nsSize
      globalNsSectorSize := nsSectorSize })

end Reflex.Nvme
