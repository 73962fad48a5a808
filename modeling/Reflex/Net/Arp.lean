import Mathlib.Data.Multiset.AddSub
import Mathlib.Logic.Function.Basic
import Reflex.Lib.Run

/-!
# Packets that wait for an address

`ip_send_one` of `net/ip.c` with the ARP table of `net/arp.c` and the run lists of `core/cpu.c`. A packet
whose next hop is not resolved is put on the pending list of the hop's entry; when the entry is resolved, each
packet of the list is handed to the core it came from as a runner, and the core sends it when it does its
bookkeeping. An entry that is asked for three times in vain dies and takes its packets with it. What the pools
answer is an argument of the step: whether there is an ARP entry, which object for a pending packet, if any,
and whether there is memory for a runner. `rte_eth_tx_buffer` returns a `uint16_t`, so that the test for a
negative result never fires; it takes the buffer in every case. An ARP request is sent in a buffer of its own
and is left out.
-/

namespace Reflex.Net
open Lib

/-- The addresses of `CFG`, and `cpu_count`. -/
structure Config where
  mask : Nat
  hostAddr : Nat
  gatewayAddr : Nat
  cpuCount : Nat
deriving Repr

/-- The hop that `ip_send_one` asks for. -/
def Config.nextHop (cfg : Config) (dst : Nat) : Nat :=
  if dst &&& cfg.mask = cfg.hostAddr &&& cfg.mask then dst else cfg.gatewayAddr

/-- `struct pending_pkt`. -/
structure PendingPkt where
  dstAddr : Nat
  mbuf : Nat
  len : Nat
  cpu : Nat
  dispatched : Bool
deriving DecidableEq, Repr

/-- `struct arp_entry`, with its flags apart. -/
structure ArpEntry where
  mac : Nat
  valid : Bool
  resolving : Bool
  static : Bool
  retries : Nat
  timerPending : Bool
  pendingPkts : List Nat
deriving DecidableEq, Repr

/-- A buffer handed to the NIC; `late` if it was on a pending list. -/
structure Sent where
  cpu : Nat
  hop : Nat
  mbuf : Nat
  len : Nat
  mac : Nat
  late : Bool
deriving DecidableEq, Repr

/-- A packet that was put on a pending list. -/
structure Queued where
  cpu : Nat
  hop : Nat
  mbuf : Nat
  len : Nat
deriving DecidableEq, Repr

/-- The ARP table, the objects for pending packets (those in use in `pool`), the run lists, and what has happened to
the buffers: `passed` by the callers of `ip_send_one`, given to the `nic`, `queued` or `freed`. A runner whose packet
has been freed, and waiting for a lock that is never released, are faults. -/
structure Stack where
  entries : Nat → Option ArpEntry
  pkts : Nat → PendingPkt
  pool : List Nat
  runlists : Nat → List Nat
  nic : List Sent
  queued : List Queued
  passed : List Nat
  freed : List Nat
  arpLocked : Bool
  faulted : Bool

/-- The answers of the pools to one call of `ip_send_one`. -/
structure Alloc where
  entry : Bool
  pkt : Option Nat
deriving Repr

def enoent : Int := 2
def enomem : Int := 12

def arpMaxAttempts : Nat := 3

namespace Stack

variable (cfg : Config) (s : Stack)

def setEntry (addr : Nat) (e : ArpEntry) : Stack := { s with entries := Function.update s.entries addr (some e) }

/-- The entry that `arp_lookup` creates. -/
def freshEntry : ArpEntry := ⟨0, false, false, false, 0, false, []⟩

/-- `arp_lookup`: whether there is an entry. When the pool has none, the function returns with the lock held. -/
def arpLookup (addr : Nat) (createOkay alloc : Bool) : Bool × Stack :=
  match s.entries addr with
  | some _ => (true, s)
  | none =>
    if createOkay then
      if s.arpLocked then (false, { s with faulted := true })
      else if alloc then (true, s.setEntry addr freshEntry)
      else (false, { s with arpLocked := true })
    else (false, s)

def arpLookupMac (addr : Nat) (alloc : Bool) : Option Nat × Stack :=
  match s.arpLookup addr true alloc with
  | (false, s) => (none, s)
  | (true, s) =>
    match s.entries addr with
    | none => (none, s)
    | some e =>
      if e.valid then (some e.mac, s)
      else if e.timerPending then (none, s)
      else (none, s.setEntry addr { e with resolving := true, timerPending := true })

/-- `arp_add_pending_pkt`, on core `cpu`. -/
def arpAddPendingPkt (hop cpu mbuf len : Nat) (pkt : Option Nat) : Int × Stack :=
  match s.entries hop with
  | none => (-enoent, s)
  | some e =>
    match pkt with
    | none => (-enomem, s)
    | some p =>
      (0, { s.setEntry hop { e with pendingPkts := p :: e.pendingPkts } with
        pkts := Function.update s.pkts p ⟨hop, mbuf, len, cpu, false⟩
        pool := p :: s.pool
        queued := s.queued ++ [⟨cpu, hop, mbuf, len⟩] })

/-- `ip_send_one`: what `arp_add_pending_pkt` returns is not looked at. -/
def ipSendOne (cpu dst mbuf len : Nat) (late : Bool) (alloc : Alloc) : Int × Stack :=
  let hop := cfg.nextHop dst
  match s.arpLookupMac hop alloc.entry with
  | (none, s) => (0, (s.arpAddPendingPkt hop cpu mbuf len alloc.pkt).2)
  | (some mac, s) => (0, { s with nic := s.nic ++ [⟨cpu, hop, mbuf, len, mac, late⟩] })

/-- The end of `tcp_output_packet` and `ip_output_hinted`: the buffer is freed if an error is returned. -/
def outputPacket (cpu dst mbuf len : Nat) (alloc : Alloc) : Stack :=
  let r := ipSendOne cfg { s with passed := mbuf :: s.passed } cpu dst mbuf len false alloc
  if r.1 = 0 then r.2 else { r.2 with freed := mbuf :: r.2.freed }

/-- `hlist_del` of a pending packet and `mempool_free`. -/
def unlinkPkt (p : Nat) : Stack :=
  match s.entries (s.pkts p).dstAddr with
  | none => s
  | some e => { s.setEntry (s.pkts p).dstAddr { e with pendingPkts := e.pendingPkts.erase p } with pool := s.pool.erase p }

/-- `send_pending_pkt`, on core `cpu`. -/
def sendPendingPkt (alloc : Nat → Alloc) (cpu : Nat) (s : Stack) (p : Nat) : Stack :=
  if p ∈ s.pool then
    let pkt := s.pkts p
    (ipSendOne cfg s cpu pkt.dstAddr pkt.mbuf pkt.len true (alloc p)).2.unlinkPkt p
  else { s with faulted := true }

/-- One turn of the loop of `arp_update_mac`, with `cpu_run_on_one`: the packet counts as dispatched also when there was
no memory for a runner. -/
def dispatch (malloc : Nat → Bool) (s : Stack) (p : Nat) : Stack :=
  let pkt := s.pkts p
  if pkt.dispatched then s
  else
    { s with
      pkts := Function.update s.pkts p { pkt with dispatched := true }
      runlists := if pkt.cpu < cfg.cpuCount ∧ malloc p = true then
          Function.update s.runlists pkt.cpu (p :: s.runlists pkt.cpu)
        else s.runlists }

def arpUpdateMac (addr mac : Nat) (createOkay alloc : Bool) (malloc : Nat → Bool) : Stack :=
  match s.arpLookup addr createOkay alloc with
  | (false, s) => s
  | (true, s) =>
    match s.entries addr with
    | none => s
    | some e =>
      if e.static then s
      else
        let resolved := s.setEntry addr { e with mac := mac, valid := true, resolving := false, retries := 0, timerPending := true }
        e.pendingPkts.foldl (dispatch cfg malloc) resolved

/-- `arp_input` behind its checks of the header. -/
def arpInput (senderIp senderMac targetIp : Nat) (multicast alloc : Bool) (malloc : Nat → Bool) : Stack :=
  if multicast then s else s.arpUpdateMac cfg senderIp senderMac (targetIp = cfg.hostAddr) alloc malloc

/-- `arp_timer_handler`. The timer is not started again. -/
def arpTimerHandler (addr : Nat) : Stack :=
  match s.entries addr with
  | none => s
  | some e =>
    if arpMaxAttempts ≤ e.retries + 1 then
      { s with
        entries := Function.update s.entries addr none
        pool := s.pool.filter (· ∉ e.pendingPkts)
        freed := e.pendingPkts.map (fun p => (s.pkts p).mbuf) ++ s.freed }
    else s.setEntry addr { e with retries := e.retries + 1, resolving := true, timerPending := false }

/-- `timer_run_bucket` takes a timer that belongs to no flow group off its wheel without calling the handler. -/
def timerExpires (addr : Nat) : Stack :=
  match s.entries addr with
  | none => s
  | some e => s.setEntry addr { e with timerPending := false }

def cpuDoBookkeeping (alloc : Nat → Alloc) (cpu : Nat) : Stack :=
  (s.runlists cpu).foldl (sendPendingPkt cfg alloc cpu) { s with runlists := Function.update s.runlists cpu [] }

end Stack

inductive NetStep where
  | output (cpu dst mbuf len : Nat) (alloc : Alloc)
  | arp (senderIp senderMac targetIp : Nat) (multicast alloc : Bool) (malloc : Nat → Bool)
  | bookkeeping (cpu : Nat) (alloc : Nat → Alloc)
  | timer (addr : Nat)
  | expire (addr : Nat)

namespace Stack

def next (cfg : Config) (s : Stack) : NetStep → Stack
  | .output cpu dst mbuf len alloc => s.outputPacket cfg cpu dst mbuf len alloc
  | .arp ip mac target multicast alloc malloc => s.arpInput cfg ip mac target multicast alloc malloc
  | .bookkeeping cpu alloc => s.cpuDoBookkeeping cfg alloc cpu
  | .timer addr => s.arpTimerHandler addr
  | .expire addr => s.timerExpires addr

/-- The pool hands out objects that are not in use; a timer fires only while it is pending. -/
def Valid (cfg : Config) (s : Stack) : NetStep → Prop
  | .output cpu _ _ _ alloc => cpu < cfg.cpuCount ∧ ∀ p, alloc.pkt = some p → p ∉ s.pool
  | .arp .. => True
  | .bookkeeping cpu _ => cpu < cfg.cpuCount
  | .timer addr | .expire addr => ∃ e, s.entries addr = some e ∧ e.timerPending = true

def Resolved (s : Stack) (addr : Nat) : Prop := ∃ e, s.entries addr = some e ∧ e.valid = true

/-- The pools have what a step asks for: an entry and an object for a packet that has to wait, an entry for a sender
that is to be recorded, and runners for the packets that are resolved. -/
def Supplied (cfg : Config) (s : Stack) : NetStep → Prop
  | .output _ dst _ _ alloc =>
    s.Resolved (cfg.nextHop dst) ∨ ((s.entries (cfg.nextHop dst) = none → alloc.entry = true) ∧ alloc.pkt ≠ none)
  | .arp ip _ target multicast alloc malloc =>
    multicast = true ∨ ((s.entries ip = none → target = cfg.hostAddr → alloc = true) ∧
      ∀ e, s.entries ip = some e → ∀ p ∈ e.pendingPkts, malloc p = true)
  | .bookkeeping .. | .timer _ | .expire _ => True

/-- A table in which nothing waits and nothing has happened to a buffer. -/
structure Quiet (s : Stack) : Prop where
  entries : ∀ a e, s.entries a = some e → e.pendingPkts = [] ∧ e.retries = 0 ∧ (e.static = true → e.valid = true)
  pool : s.pool = []
  runlists : ∀ c, s.runlists c = []
  nic : s.nic = []
  queued : s.queued = []
  passed : s.passed = []
  freed : s.freed = []
  unlocked : s.arpLocked = false
  running : s.faulted = false

/-! ## What waits -/

def pending (s : Stack) (addr : Nat) : List Nat := ((s.entries addr).map (·.pendingPkts)).getD []

/-- The pending list of an address that is resolved. -/
def ready (s : Stack) (addr : Nat) : List Nat :=
  ((s.entries addr).map fun e => if e.valid then e.pendingPkts else []).getD []

/-- The packets that core `c` has queued for `addr`, in order. -/
def queuedFor (s : Stack) (c addr : Nat) : List (Nat × Nat) :=
  (s.queued.filter fun q => q.cpu = c ∧ q.hop = addr).map fun q => (q.mbuf, q.len)

/-- The queued packets for `addr` that core `c` has handed to the NIC, in order. -/
def lateFor (s : Stack) (c addr : Nat) : List (Nat × Nat) :=
  (s.nic.filter fun f => f.late = true ∧ f.cpu = c ∧ f.hop = addr).map fun f => (f.mbuf, f.len)

/-- The packets of core `c` on a list, from the end of the list on. -/
def oldestFirst (pkts : Nat → PendingPkt) (c : Nat) (list : List Nat) : List (Nat × Nat) :=
  (list.filter fun p => (pkts p).cpu = c).reverse.map fun p => ((pkts p).mbuf, (pkts p).len)

/-- The packets of core `c` that wait for `addr`, the oldest first. -/
def waitingFor (s : Stack) (c addr : Nat) : List (Nat × Nat) := oldestFirst s.pkts c (s.pending addr)

/-- Every buffer that was passed is at the NIC, with a pending packet or freed, and each once; a pending packet is on
the list of its entry, and also on the run list of its core if the entry is resolved. -/
structure Accounted (s : Stack) : Prop where
  running : s.faulted = false
  buffers : (s.passed : Multiset Nat) = ↑(s.nic.map (·.mbuf)) + ↑(s.pool.map fun p => (s.pkts p).mbuf) + ↑s.freed
  once : s.pool.Nodup
  linked : ∀ p ∈ s.pool, p ∈ s.pending (s.pkts p).dstAddr ∧ (s.pending (s.pkts p).dstAddr).Nodup
  ready : ∀ p ∈ s.pool, s.Resolved (s.pkts p).dstAddr → (s.runlists (s.pkts p).cpu).count p = 1
  runners : ∀ c, ∀ p ∈ s.runlists c, p ∈ s.pool ∧ (s.pkts p).cpu = c

end Stack

end Reflex.Net
