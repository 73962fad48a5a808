import Mathlib.Logic.Function.Basic
import Reflex.Lib.Run
import Reflex.Lib.Scan
import Reflex.Lib.Word

/-!
# The kernel's side of a TCP connection

The system calls `bsys_tcp_*` of `net/tcp_api.c` and the callbacks through which the TCP stack reports to them. The
library keeps an object of its own for each connection; the application names it by a handle, in whose low bits is the
object's place in the array `handle2pcb_array` of the core and in whose high bits is the flow group.

The stack itself is an argument: the objects that the pools hand out, how much `tcp_write` took, and whether a
connection attempt succeeded. Following a null pointer and a failed assertion both end the process (`faulted`).
-/

namespace Reflex.Tcp
open Lib

def maxPcbs : Nat := 512 * 1024
def ethMaxTotalFg : Nat := 128 * 16
def ncpu : Nat := 128

def retNomem : Int := 1
def retFault : Int := 5
def retBadh : Int := 8
def retClosed : Int := 9

/-- A packet as the stack hands it over: a chain of buffers, each with the bytes it holds. -/
abbrev Chain := List (List UInt8)

/-- `p->len` of a chain is the length of its first buffer. -/
def Chain.len (chain : Chain) : Nat := (chain.headD []).length

def Chain.totLen (chain : Chain) : Nat := chain.flatten.length

/-- `struct tcpapi_pcb`. Of the stack's control block and of the address tuple it matters only whether there is one; the
list of received packets is linked through `tcp_api_next`. -/
structure TcpapiPcb where
  alive : Bool
  pcb : Bool
  cookie : Nat
  id : Bool
  handle : Nat
  recvd : List Chain
  accepted : Bool
deriving DecidableEq, Repr

/-- The events that are posted to the application. -/
inductive Usys where
  | knock (handle : Nat)
  | connected (handle cookie : Nat) (refused : Bool)
  | recv (handle cookie : Nat) (bytes : List UInt8)
  | sent (handle cookie len : Nat)
  | dead (handle cookie : Nat)
deriving DecidableEq, Repr

structure Core where
  apis : Nat → TcpapiPcb
  handle2pcb : Nat → Option Nat
  syscallCookie : Nat
  usys : List Usys
  faulted : Bool

namespace Core

variable (s : Core)

def setApi (api : Nat) (p : TcpapiPcb) : Core := { s with apis := Function.update s.apis api p }

def post (events : List Usys) : Core := { s with usys := s.usys ++ events }

end Core

/-! ## Handles -/

def handleFg (handle : Nat) : Nat := handle / 2 ^ 48 % 2 ^ 16
def handleIdx (handle : Nat) : Nat := handle % 2 ^ 48

/-- The two tests of `handle_to_tcpapi`. -/
def Malformed (handle : Nat) : Prop := ethMaxTotalFg + ncpu ≤ handleFg handle ∨ maxPcbs ≤ handleIdx handle

instance (handle : Nat) : Decidable (Malformed handle) := inferInstanceAs (Decidable (_ ∨ _))

/-- `handle_to_tcpapi`: the object is not checked before its cookie is read. -/
def Core.handleToTcpapi (s : Core) (handle : Nat) : Option Nat × Core :=
  if Malformed handle then (none, s)
  else
    match s.handle2pcb (handleIdx handle) with
    | none => (none, { s with faulted := true })
    | some api => (some api, { s with syscallCookie := (s.apis api).cookie })

/-- `tcpapi_to_handle`: the first free place of the array. -/
def Core.tcpapiToHandle (s : Core) (fg api : Nat) : Nat × Core :=
  match search (fun i => (s.handle2pcb i).isNone) maxPcbs with
  | none => (0, { s with faulted := true })
  | some i => (i + fg * 2 ^ 48, { s with handle2pcb := Function.update s.handle2pcb i (some api) })

/-! ## The callbacks of the stack -/

/-- `recv_a_pbuf`: an event for each buffer of the chain. -/
def recvAPbuf (p : TcpapiPcb) (chain : Chain) : List Usys := chain.map (Usys.recv p.handle p.cookie)

def Core.markDead (s : Core) (api : Nat) : Core :=
  (s.setApi api { s.apis api with alive := false }).post [.dead (s.apis api).handle (s.apis api).cookie]

/-- `on_recv`; no packet is the peer's end of the stream. -/
def Core.onRecv (s : Core) (api : Nat) : Option Chain → Core
  | none => s.markDead api
  | some chain =>
    let p := { s.apis api with recvd := (s.apis api).recvd ++ [chain] }
    (s.setApi api p).post (if p.accepted then recvAPbuf p chain else [])

/-- `on_err` with one of the three errors it looks at. -/
def Core.onErr (s : Core) (api : Nat) : Core :=
  (s.markDead api).setApi api { s.apis api with alive := false, pcb := false }

/-- `on_accept`, with the object that the pool gave. -/
def Core.onAccept (s : Core) (api fg : Nat) : Core :=
  let t := s.tcpapiToHandle fg api
  (t.2.setApi api
    { alive := true, pcb := true, cookie := 0, id := true, handle := t.1, recvd := [], accepted := false }).post
    [.knock t.1]

/-! ## The system calls -/

def Core.bsysTcpAccept (s : Core) (handle cookie : Nat) : Int × Core :=
  match s.handleToTcpapi handle with
  | (none, s) => (-retBadh, s)
  | (some api, s) =>
    let p := { s.apis api with id := false, cookie := cookie, accepted := true }
    (0, (s.setApi api p).post (p.recvd.flatMap (recvAPbuf p)))

/-- `bsys_tcp_sendv`; `sent` is what `tcp_write` takes of the entries. -/
def Core.bsysTcpSendv (s : Core) (handle sent : Nat) : Int × Core :=
  match s.handleToTcpapi handle with
  | (none, s) => (-retBadh, s)
  | (some api, s) => (if (s.apis api).alive then sent else -retClosed, s)

/-- The loop of `bsys_tcp_recv_done` over the packets: those it keeps. -/
def keepRecvd : Nat → List Chain → List Chain
  | _, [] => []
  | len, chain :: rest => if len < chain.len then chain :: rest else keepRecvd (len - chain.len) rest

def Core.bsysTcpRecvDone (s : Core) (handle len : Nat) : Int × Core :=
  match s.handleToTcpapi handle with
  | (none, s) => (-retBadh, s)
  | (some api, s) => (0, s.setApi api { s.apis api with recvd := keepRecvd len (s.apis api).recvd })

/-- `bsys_tcp_close`: the place is found again by the object. -/
def Core.bsysTcpClose (s : Core) (handle : Nat) : Int × Core :=
  match s.handleToTcpapi handle with
  | (none, s) => (-retBadh, s)
  | (some api, s) =>
    match search (fun i => s.handle2pcb i = some api) maxPcbs with
    | none => (0, { s with faulted := true })
    | some i => (0, { s with handle2pcb := Function.update s.handle2pcb i none })

inductive Attempt where
  /-- no flow group -/
  | noGroup
  /-- no control block -/
  | noMemory
  /-- `tcp_connect` fails, and `tcp_abort` reports it -/
  | refused (api fg : Nat)
  | started (api fg : Nat)
deriving DecidableEq, Repr

/-- The object that a connection attempt fills; `id`, which the source leaves unset, is null. -/
def dialed (cookie handle : Nat) : TcpapiPcb :=
  { alive := true, pcb := true, cookie := cookie, id := false, handle := handle, recvd := [], accepted := true }

def Core.bsysTcpConnect (s : Core) (cookie : Nat) : Attempt → Int × Core
  | .noGroup => (-retFault, { s with syscallCookie := cookie })
  | .noMemory => (-retNomem, { s with syscallCookie := cookie })
  | .refused api fg =>
    let t := Core.tcpapiToHandle { s with syscallCookie := cookie } fg api
    (-retNomem, (t.2.setApi api (dialed cookie t.1)).onErr api)
  | .started api fg =>
    let t := Core.tcpapiToHandle { s with syscallCookie := cookie } fg api
    (t.1, t.2.setApi api (dialed cookie t.1))

end Reflex.Tcp
