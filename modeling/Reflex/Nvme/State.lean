import Reflex.Nvme.SwQueue

/-!
# State of the NVMe layer

The static and per-core variables of `nvme/nvmedev.c`. Threads are named by their
`cpu_nr`; a per-core variable is a function of the thread. Software queues live in a
memory pool and are named by their pool element, so that the table, the thread lists
and the pool can disagree exactly where the C pointers can.
-/

namespace Reflex.Nvme
open Lib

@[irreducible] def maxNvmeFlowGroups : Nat := 16384
def maxNumIoQueues : Nat := 31

def retOk : Int := 0
def retNomem : Int := 1
def retNobufs : Int := 2
def retCantmeetslo : Int := 11

/-- A service level objective: a zero latency means best effort. -/
structure SLO where
  latencyUsSLO : UInt32
  iopsSLO : UInt64
  rwRatioSLO : Int32
  deriving DecidableEq, Repr

@[ext] structure FlowGroup where
  flowGroupId : Int32
  cookie : UInt64
  slo : SLO
  scaledIOPSLimit : Nat
  scaledIOPuSLimit : ℚ
  latencyCriticalFlag : Bool
  nvmeSwq : Option Nat
  tid : Nat
  connRefCount : Int
  deriving DecidableEq

structure TenantMgmt where
  tenantSwq : List Nat
  numTenants : Int
  numBestEffortTenants : Int
  deriving DecidableEq

/-- Events the NVMe layer posts to the application's user-level array. -/
inductive UsysEvent where
  | nvmeRegisteredFlow (fgHandle : Nat) (cookie : UInt64) (ret : Int)
  | nvmeUnregisteredFlow (fgHandle : Nat) (ret : Int)
  | nvmeWritten (cookie : UInt64) (ret : Int)
  | nvmeResponse (cookie : UInt64) (buf : UInt64) (ret : Int)
  deriving DecidableEq

/-- What is done with tokens and requests, in order. The amounts are the ones the code
adds or subtracts; `beIssue` and `beSave` also record the `be_tokens` held at that point.
`direct` is a request that goes to the device without being scheduled, with the buffer of a
plain call. -/
inductive SchedEvent where
  | direct (ctx : NvmeCtx) (cmd : NvmeCmd) (lba : UInt64) (lbaCount : UInt32) (payload : Option UInt64)
  | lcIncrement (q : Nat) (tokens : Int)
  | lcIssue (q : Nat) (ctx : NvmeCtx)
  | lcDonate (q : Nat) (tokens : Nat)
  | beIncrement (q : Nat) (tokens : Nat)
  | beIssue (q : Nat) (ctx : NvmeCtx) (beTokens : Nat)
  | beSave (q : Nat) (tokens : Nat) (beTokens : Nat)
  deriving DecidableEq

/-- The flow-group table and the scheduling rates: what `nvme_bitmap_lock` protects. -/
structure Registry where
  nvmeFgs : Nat → FlowGroup
  nvmeFgsBitmap : Nat → Bool
  globalTokenRate : Nat
  globalLCSumTokenRate : Nat
  globalNumBestEffortTenants : Nat
  globalNumLcTenants : Nat
  globalBeTokenRatePerTenant : Int32
  globalLcBoostNoBE : Nat
  globalReadonlyFlag : Bool

structure NvmeState extends Registry where
  ioqBitmap : Nat → Bool
  globalLeftoverTokens : Nat
  globalNsSize : Int
  globalNsSectorSize : Int
  scheduledBitVector : Nat → Int32
  nvmeTenantManager : Nat → TenantMgmt
  roundrobinStart : Nat → Int
  lastSchedTime : Nat → Nat
  lastSchedTimeBe : Nat → Nat
  localExtraDemand : Nat → Nat
  localLeftoverTokens : Nat → Nat
  openEv : Nat → List Nat
  swqs : Nat → NvmeSwQueue
  swqAllocated : Nat → Bool
  usys : Nat → List UsysEvent
  trace : List SchedEvent

def FlowGroup.zero : FlowGroup where
  flowGroupId := 0
  cookie := 0
  slo := ⟨0, 0, 0⟩
  scaledIOPSLimit := 0
  scaledIOPuSLimit := 0
  latencyCriticalFlag := false
  nvmeSwq := none
  tid := 0
  connRefCount := 0

def TenantMgmt.empty : TenantMgmt := ⟨[], 0, 0⟩

def NvmeCtx.zero : NvmeCtx := ⟨0, 0, 0, 0, 0, 0, .read, 0, 0, 0, 0⟩

def NvmeSwQueue.zero : NvmeSwQueue :=
  { buf := fun _ => .zero, count := 0, head := 0, tail := 0, totalTokenDemand := 0, savedTokens := 0,
    fgHandle := 0, tokenCredit := 0 }

def Registry.init : Registry where
  nvmeFgs := fun _ => .zero
  nvmeFgsBitmap := fun _ => false
  globalTokenRate := uintMax
  globalLCSumTokenRate := 0
  globalNumBestEffortTenants := 0
  globalNumLcTenants := 0
  globalBeTokenRatePerTenant := 0
  globalLcBoostNoBE := 0
  globalReadonlyFlag := true

/-- After `init_nvme_request` and `init_nvme_request_cpu` on every core, which read the
two clocks. -/
def NvmeState.init (now tsc : Nat → Nat) : NvmeState where
  toRegistry := .init
  ioqBitmap := fun _ => false
  globalLeftoverTokens := 0
  globalNsSize := 1
  globalNsSectorSize := 1
  scheduledBitVector := fun _ => 0
  nvmeTenantManager := fun _ => .empty
  roundrobinStart := fun _ => 0
  lastSchedTime := now
  lastSchedTimeBe := tsc
  localExtraDemand := fun _ => 0
  localLeftoverTokens := fun _ => 0
  openEv := fun _ => []
  swqs := fun _ => .zero
  swqAllocated := fun _ => false
  usys := fun _ => []
  trace := []

/-- A flow group with a connection: registered and not yet released. -/
def Registry.Live (r : Registry) (h : Nat) : Prop := 0 < (r.nvmeFgs h).connRefCount

instance (r : Registry) (h : Nat) : Decidable (r.Live h) := inferInstanceAs (Decidable (0 < _))

/-- Allocated and latency critical: the slots that the rate computations visit. -/
def Registry.lcSlot (r : Registry) (h : Nat) : Bool := r.nvmeFgsBitmap h && (r.nvmeFgs h).latencyCriticalFlag

def Registry.setFg (r : Registry) (h : Nat) (fg : FlowGroup) : Registry :=
  { r with nvmeFgs := Function.update r.nvmeFgs h fg }

@[simp] theorem setFg_self (r : Registry) (h : Nat) (fg : FlowGroup) : (r.setFg h fg).nvmeFgs h = fg := by
  simp [Registry.setFg]

@[simp] theorem setFg_of_ne (r : Registry) {h j : Nat} (fg : FlowGroup) (other : j ≠ h) :
    (r.setFg h fg).nvmeFgs j = r.nvmeFgs j := by
  simp [Registry.setFg, other]

@[simp] theorem setFg_bitmap (r : Registry) (h : Nat) (fg : FlowGroup) : (r.setFg h fg).nvmeFgsBitmap = r.nvmeFgsBitmap := rfl

def Registry.setBit (r : Registry) (h : Nat) (b : Bool) : Registry :=
  { r with nvmeFgsBitmap := Function.update r.nvmeFgsBitmap h b }

@[simp] theorem setBit_nvmeFgs (r : Registry) (h : Nat) (b : Bool) : (r.setBit h b).nvmeFgs = r.nvmeFgs := rfl

@[simp] theorem setBit_bitmap (r : Registry) (h : Nat) (b : Bool) :
    (r.setBit h b).nvmeFgsBitmap = Function.update r.nvmeFgsBitmap h b := rfl

def NvmeState.setManager (s : NvmeState) (cpu : Nat) (mgr : TenantMgmt) : NvmeState :=
  { s with nvmeTenantManager := Function.update s.nvmeTenantManager cpu mgr }

def NvmeState.setSwq (s : NvmeState) (q : Nat) (swq : NvmeSwQueue) : NvmeState :=
  { s with swqs := Function.update s.swqs q swq }

def NvmeState.log (s : NvmeState) (e : SchedEvent) : NvmeState := { s with trace := s.trace ++ [e] }

def NvmeState.post (s : NvmeState) (cpu : Nat) (e : UsysEvent) : NvmeState :=
  { s with usys := Function.update s.usys cpu (s.usys cpu ++ [e]) }

@[simp] theorem setSwq_trace (s : NvmeState) (q : Nat) (swq : NvmeSwQueue) : (s.setSwq q swq).trace = s.trace := rfl

@[simp] theorem log_trace (s : NvmeState) (e : SchedEvent) : (s.log e).trace = s.trace ++ [e] := rfl

end Reflex.Nvme
