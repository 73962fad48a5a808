import Reflex.Thread.Outcomes

/-!
# Who refers to a connection

The memory of a connection, its handle and the entry of the kernel are leases of `Reflex.Lib.Leases`; each
call in the batch, each return value, each event and each request at the device is a claim on them.
-/

namespace Reflex.Thread
open Lib Server Function Multiset List

/-! ## Leases and claims -/

/-- The connection that the kernel knows by its cookie. -/
def Pcb.object (p : Pcb) : Option UInt64 := if p.cookie = 0 then none else some p.cookie

def Loop.leases (s : Loop) : Leases UInt64 Nat where
  taken := s.taken
  handle := fun a => (s.conns a).handle
  closed := fun a => decide ((s.conns a).pp.status = .closed)
  entry := fun h => (s.pcbs h).map Pcb.object

def Event.claim : Event → Option (Claim UInt64 Nat)
  | .tcpKnock handle _ => some (.knock handle)
  | .tcpRecv a _ | .tcpSent a _ => some (.heard a)
  | .tcpDead a => if a = 0 then none else some (.heard a)
  | .nvmeRegisteredFlow _ a | .nvmeDone a _ _ => some (.user a)
  | .nvmeUnregisteredFlow _ => none

def Ret.claim (r : Ret) : Option (Claim UInt64 Nat) :=
  match r.call with
  | .tcpClose _ => some (.leaving r.cookie)
  | _ => none

def tally (karr : List Ksys) (events : List Event) (rets : List Ret) (device : List (UInt64 × NvmeReq)) : Multiset (Claim UInt64 Nat) :=
  (karr.filterMap Ksys.claim : Multiset (Claim UInt64 Nat)) + (events.filterMap Event.claim : Multiset (Claim UInt64 Nat)) +
    (rets.filterMap Ret.claim : Multiset (Claim UInt64 Nat)) + (device.map fun x => .user x.1 : List (Claim UInt64 Nat))

def Loop.claims (s : Loop) : Multiset (Claim UInt64 Nat) := tally s.karr s.events s.rets s.device

/-- Nothing under way in the NVMe layer refers to the connection. -/
def Loop.Settled (s : Loop) (a : UInt64) : Prop := Claim.user a ∉ s.claims

/-! ## The condition -/

/-- An event closes a connection only if it is settled, and no response that waits is refused at `nvme_pending` zero:
`pp_main_handler` goes on after such a refusal has closed the connection. -/
def Event.Settles (m : Machine) (s : Loop) (args : EventArgs) : Event → Prop
  | .tcpRecv a bytes => (s.conns a).pp.status = .established → (s.conns a).Unrefused (m.env a) args.send ∧
      Conn.Hears (m.env a) (s.Settled a) { s.conns a with queue := (s.conns a).queue ++ [bytes] }
  | .tcpSent a _ => (s.conns a).pp.status = .established →
      (s.conns a).Unrefused (m.env a) args.send ∧ (s.conns a).Hears (m.env a) (s.Settled a)
  | .tcpDead a => (s.conns a).pp.status = .established →
      Conn.Unrefused (m.env a) args.send { s.conns a with isDead := true } ∧ s.Settled a
  | .nvmeRegisteredFlow _ a => (s.conns a).pp.nvmePending = 0 →
      (s.conns a).isDead = false ∧ accepts (headerSize - (s.conns a).pp.txSent) args.send.accepts = true ∨ s.Settled a
  | .nvmeDone a req buf => ((s.conns a).done (req.filled buf)).Unrefused (m.env a) args.send ∨ s.Settled a
  | .tcpKnock _ _ | .nvmeUnregisteredFlow _ => True

def Loop.Settles (m : Machine) (s : Loop) : Op → Prop
  | .event args => ∀ e rest, s.events = e :: rest → e.Settles m { s with events := rest } args
  | .call _ | .sched _ _ | .knock _ _ | .segment _ _ | .acked _ _ | .hangUp _ | .finish _ _ | .leave | .ret | .enter => True

/-! ## The invariant -/

structure Conn.Fine (env : Env) (taken : Bool) (x : Conn) : Prop where
  up : taken = true → x.pp.status ≠ .aborted
  idle : taken = false → x.pp.status ≠ .established ∧ x.refs = []
  ready : Ready env x.pp

/-- Between two steps no claim is in hand; during a step it is the claim that is being dealt with. -/
structure Loop.Held (m : Machine) (hand : Multiset (Claim UInt64 Nat)) (s : Loop) : Prop where
  sound : s.leases.Sound (hand + s.claims)
  zero : s.taken 0 = false
  entries : ∀ h p, s.pcbs h = some p → (p.accepted = true ↔ p.cookie ≠ 0)
  quiet : s.mode = .kernel → ∀ a, .heard a ∈ s.claims → (s.conns a).pp.status ≠ .closed
  conns : ∀ a, (s.conns a).Fine (m.env a) (s.taken a)

section Tally

variable {karr : List Ksys} {events : List Event} {rets : List Ret} {device : List (UInt64 × NvmeReq)}

theorem coe_filterMap_cons {α β : Type} (f : α → Option β) (x : α) (l : List α) :
    ((x :: l).filterMap f : Multiset β) = ((f x).toList : Multiset β) + (l.filterMap f : Multiset β) := by
  cases claim : f x with
  | none =>
    rw [filterMap_cons_none claim, Option.toList_none, coe_nil, zero_add]
  | some c =>
    rw [filterMap_cons_some claim, ← cons_coe, Option.toList_some, coe_singleton, singleton_add]

theorem tally_call (k : Ksys) : tally (k :: karr) events rets device = (k.claim.toList : Multiset _) + tally karr events rets device := by
  rw [tally, coe_filterMap_cons, tally]
  abel

theorem tally_calls (more : List Ksys) :
    tally (karr ++ more) events rets device = (more.filterMap Ksys.claim : Multiset _) + tally karr events rets device := by
  rw [tally, filterMap_append, ← coe_add, tally]
  abel

theorem tally_event (e : Event) : tally karr (e :: events) rets device = (e.claim.toList : Multiset _) + tally karr events rets device := by
  rw [tally, coe_filterMap_cons, tally]
  abel

theorem tally_events (more : List Event) :
    tally karr (events ++ more) rets device = (more.filterMap Event.claim : Multiset _) + tally karr events rets device := by
  rw [tally, filterMap_append, ← coe_add, tally]
  abel

theorem tally_ret (r : Ret) : tally karr events (r :: rets) device = (r.claim.toList : Multiset _) + tally karr events rets device := by
  rw [tally, coe_filterMap_cons, tally]
  abel

theorem tally_rets (more : List Ret) :
    tally karr events (rets ++ more) device = (more.filterMap Ret.claim : Multiset _) + tally karr events rets device := by
  rw [tally, filterMap_append, ← coe_add, tally]
  abel

theorem tally_device (more : List (UInt64 × NvmeReq)) :
    tally karr events rets (device ++ more) = (more.map fun x => .user x.1 : List (Claim UInt64 Nat)) + tally karr events rets device := by
  rw [tally, map_append, ← coe_add, tally]
  abel

theorem mem_tally {c} : c ∈ tally karr events rets device ↔
    (∃ k ∈ karr, k.claim = some c) ∨ (∃ e ∈ events, e.claim = some c) ∨ (∃ r ∈ rets, r.claim = some c) ∨ ∃ x ∈ device, .user x.1 = c := by
  simp only [tally, mem_add, mem_coe, List.mem_filterMap, List.mem_map, or_assoc]

theorem heard_mem_tally {a} : .heard a ∈ tally karr events rets device ↔ ∃ e ∈ events, e.claim = some (.heard a) := by
  rw [mem_tally]
  constructor
  · rintro (⟨k, -, claim⟩ | event | ⟨r, -, claim⟩ | ⟨x, -, claim⟩)
    · cases k <;> cases claim
    · exact event
    · unfold Ret.claim at claim
      split at claim <;> cases claim
    · cases claim
  · exact fun event => Or.inr (Or.inl event)

theorem closing_mem_tally {h} : .closing h ∈ tally karr events rets device ↔ .tcpClose h ∈ karr := by
  rw [mem_tally]
  constructor
  · rintro (⟨k, member, claim⟩ | ⟨e, -, claim⟩ | ⟨r, -, claim⟩ | ⟨x, -, claim⟩)
    · cases k <;> cases claim
      exact member
    · unfold Event.claim at claim
      split at claim
      case h_4 =>
        split_ifs at claim
        cases claim
      all_goals cases claim
    · unfold Ret.claim at claim
      split at claim <;> cases claim
    · cases claim
  · exact fun member => Or.inl ⟨_, member, rfl⟩

end Tally

section Views

variable {m : Machine} {s t : Loop} {a : UInt64} {x : Conn}

theorem Loop.leases_setPcb (s : Loop) (h : Nat) (p : Option Pcb) :
    Loop.leases { s with pcbs := update s.pcbs h p } = s.leases.setEntry h (p.map Pcb.object) :=
  congrArg (fun entry => { s.leases with entry := entry }) (comp_update (Option.map Pcb.object) s.pcbs h p)

/-- The view of a loop with another connection. -/
theorem Loop.leases_update (s : Loop) (a : UInt64) (x : Conn) : (s.setConn a x).leases = { s.leases with
    handle := update s.leases.handle a x.handle
    closed := update s.leases.closed a (decide (x.pp.status = .closed)) } :=
  congrArg₂ (fun handle closed => { s.leases with handle := handle, closed := closed }) (comp_update Conn.handle s.conns a x)
    (comp_update (fun c : Conn => decide (c.pp.status = .closed)) s.conns a x)

theorem Loop.leases_setConn (handle : x.handle = (s.conns a).handle) (status : x.pp.status = .closed ↔ (s.conns a).pp.status = .closed) :
    (s.setConn a x).leases = s.leases := by
  rw [leases_update, handle, decide_eq_decide.2 status]
  exact congrArg₂ (fun handle closed => { s.leases with handle := handle, closed := closed }) (update_eq_self a s.leases.handle)
    (update_eq_self a s.leases.closed)

theorem Loop.leases_closeConn (handle : x.handle = (s.conns a).handle) (status : x.pp.status = .closed) :
    (s.setConn a x).leases = s.leases.close a := by
  rw [leases_update, handle, decide_eq_true status]
  exact congrArg (fun handle => { s.leases.close a with handle := handle }) (update_eq_self a s.leases.handle)

theorem Loop.leases_open {h} (handle : x.handle = h) (status : x.pp.status ≠ .closed) :
    Loop.leases { s.setConn a x with taken := update s.taken a true } = s.leases.take h a := by
  have view := leases_update s a x
  rw [handle, decide_eq_false status] at view
  exact congrArg (fun v : Leases UInt64 Nat => { v with taken := update s.taken a true }) view

theorem Loop.leases_release (s : Loop) (a : UInt64) : (s.release a).leases = s.leases.free a := by
  have same : (s.setConn a { s.conns a with refs := [] }).leases = s.leases := Loop.leases_setConn rfl Iff.rfl
  rw [← same]
  rfl

end Views

end Reflex.Thread
