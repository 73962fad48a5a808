import Reflex.Lib.Lifecycle
import Reflex.Nvme.Roster
import Reflex.Server.Session

/-!
# State of a server thread

One thread of the server: the event library of `libix/ixev.c`, the application over it and the
part of the kernel that it calls. The application puts system calls into a batch, the kernel
answers them with return values and posts events, and `ixev_wait` hands both to the
application.

A connection of the application is memory from a pool and is named by its address, which the
kernel keeps as a cookie. A connection of the kernel is an entry of `handle2pcb_array` and is
named by its handle. Addresses and handles are used again.
-/

namespace Reflex.Thread
open Lib Server

/-- The device model, the number of the thread, the namespace that was opened, and what the pools
of requests and pages give to each connection. -/
structure Machine where
  cfg : Nvme.Cfg
  cpu : Nat
  nsSize : Nat
  nsSectorSize : Nat
  pools : UInt64 → Nat → Option (Nat → Option (Nat → UInt8))

def Machine.env (m : Machine) (a : UInt64) : Env := ⟨m.nsSize, m.nsSectorSize, m.pools a⟩

/-- The batched system calls of the server. The cookie of a request is its address; here it is
the connection and the request. `flow` is the tenant for whom it was submitted. -/
inductive Ksys where
  | tcpAccept (handle : Nat) (cookie : UInt64)
  | tcpReject (handle : Nat)
  | tcpSendv (handle : Nat)
  | tcpRecvDone (handle : Nat)
  | tcpClose (handle : Nat)
  | nvmeWritev (fgHandle numSgls : Int) (flow : Int) (conn : UInt64) (req : NvmeReq)
  | nvmeReadv (fgHandle numSgls : Int) (flow : Int) (conn : UInt64) (req : NvmeReq)
  | nvmeRegisterFlow (flowGroupId : Int) (cookie : UInt64) (slo : Nvme.SLO)
  | nvmeUnregisterFlow (fgHandle : Int)

def Ksys.isClose : Ksys → Bool
  | .tcpClose _ => true
  | _ => false

/-- What `receive_req` asks for, as a call. -/
def ServerEvent.call (a : UInt64) (flow : Int) : ServerEvent → Option Ksys
  | .registerFlow flowGroupId latencyUsSLO iopsSLO rwRatioSLO =>
    some (.nvmeRegisterFlow flowGroupId a ⟨latencyUsSLO, iopsSLO, rwRatioSLO.toInt32⟩)
  | .readv fgHandle numSgls req => some (.nvmeReadv fgHandle numSgls flow a req)
  | .writev fgHandle numSgls req => some (.nvmeWritev fgHandle numSgls flow a req)
  | .slot _ | .fill _ => none

/-- `struct bsys_ret`. -/
structure Ret where
  call : Ksys
  cookie : UInt64
  ret : Int

/-- The events of the kernel. `tcp_sent` has the number of references whose bytes have been
acknowledged; `nvmeDone` is `nvme_written` or `nvme_response`. -/
inductive Event where
  | tcpKnock (handle : Nat) (srcPort : UInt16)
  | tcpRecv (cookie : UInt64) (bytes : List UInt8)
  | tcpSent (cookie : UInt64) (refs : Nat)
  | tcpDead (cookie : UInt64)
  | nvmeRegisteredFlow (fgHandle : Nat) (cookie : UInt64)
  | nvmeUnregisteredFlow (fgHandle : Nat)
  | nvmeDone (conn : UInt64) (req : NvmeReq) (buf : Nat → Nat → UInt8)

/-- `struct pp_conn` with its `struct ixev_ctx`. `refs` are the requests whose
`send_completed_cb` is due, `completed` those whose completion was handled. The events are
enabled just while the connection is established. -/
structure Conn where
  pp : PpConn
  queue : List (List UInt8)
  completed : List NvmeReq
  refs : List NvmeReq
  handle : Nat
  isDead : Bool
  generation : Nat
  recvDoneDesc : Bool
  sendvDesc : Bool

/-- `struct tcpapi_pcb`. `recvd` are the segments that came before the connection was accepted,
when the cookie is zero. -/
structure Pcb where
  cookie : UInt64
  accepted : Bool
  alive : Bool
  recvd : List (List UInt8)

/-- The functions of the application that the library calls. -/
inductive Callback where
  | mainHandler
  | nvmeDone
  | registeredFlow
  | sendCompleted
  deriving DecidableEq

/-- `fatal` is `ixev_bad_ret`, `aborted` a failed assertion of the server, `crashed` the use of a
null pointer. -/
inductive Mode where
  | kernel
  | user
  | fatal
  | aborted
  | crashed
  deriving DecidableEq

/-- `device` are the requests that the NVMe layer has accepted and not returned; `taken` is the
memory that is not in the pool of connections. -/
structure Loop where
  mode : Mode
  conns : UInt64 → Conn
  taken : UInt64 → Bool
  karr : List Ksys
  generation : Nat
  pcbs : Nat → Option Pcb
  nvme : Nvme.NvmeState
  device : List (UInt64 × NvmeReq)
  rets : List Ret
  events : List Event
  marks : List (Mark UInt64 Callback)

/-- `pp_main` once the namespace is open. -/
def Loop.boot (memory : UInt64 → Conn) (nvme : Nvme.NvmeState) : Loop where
  mode := .kernel
  conns := memory
  taken := fun _ => false
  karr := []
  generation := 0
  pcbs := fun _ => none
  nvme := nvme
  device := []
  rets := []
  events := []
  marks := []

/-- `pp_accept`, `ixev_ctx_init` and the handle. Each connection asks the pools anew. -/
def accepted (memory : Conn) (handle : Nat) (srcPort : UInt16) : Conn where
  pp := ppAccept { memory.pp with allocs := memory.pp.allocs + 1 } srcPort
  queue := []
  completed := []
  refs := []
  handle := handle
  isDead := false
  generation := 0
  recvDoneDesc := false
  sendvDesc := false

end Reflex.Thread
