import Reflex.Thread.Custody

/-!
# The claims stay justified

Each step deals with one claim: it takes it from the batch, the return values, the events or the device, and
what it does next it does with the claim in hand.
-/

namespace Reflex.Thread
open Lib Server Function List Loop Status

variable {m : Machine} {s : Loop} {a : UInt64} {h : Nat} {x : Conn} {p : Pcb} {k : Ksys} {hand : Multiset (Claim UInt64 Nat)}

namespace Loop.Held

/-! ## What is in hand -/

theorem drop {c} (held : s.Held m {c}) (other : ∀ h, c ≠ .closing h) : s.Held m 0 where
  __ := held
  sound := by
    rw [zero_add]
    exact held.sound.drop other

theorem gain {more} (held : s.Held m 0) (justified : ∀ c ∈ more, c.Holds s.leases ∧ c.key = none) :
    s.Held m more where
  __ := held
  sound := by
    have sound := held.sound
    rw [zero_add] at sound
    exact sound.add_all justified

theorem holds {c} (held : s.Held m {c}) : c.Holds s.leases :=
  held.sound.holds c (Multiset.mem_add.2 (.inl (Multiset.mem_singleton_self c)))

theorem quiet_of_events {t : Loop} (held : s.Held m hand) (mode : t.mode = s.mode) (events : t.events = s.events)
    (conns : t.conns = s.conns) :
    t.mode = .kernel → ∀ b, .heard b ∈ t.claims → (t.conns b).pp.status ≠ .closed := by
  intro kernel b heard
  rw [mode] at kernel
  rw [conns]
  apply held.quiet kernel b
  apply heard_mem_tally.2
  rw [← events]
  exact heard_mem_tally.1 heard

/-! ## Taking -/

theorem popCall {rest} (held : s.Held m 0) (karr : s.karr = k :: rest) :
    Loop.Held m k.claim.toList { s with karr := rest } where
  sound := by
    have sound := held.sound
    rw [zero_add, claims, karr, tally_call] at sound
    exact sound
  __ := held
  quiet := held.quiet_of_events rfl rfl rfl

theorem popEvent {e rest} (held : s.Held m 0) (events : s.events = e :: rest) :
    Loop.Held m e.claim.toList { s with events := rest } where
  sound := by
    have sound := held.sound
    rw [zero_add, claims, events, tally_event] at sound
    exact sound
  __ := held
  quiet := by
    intro mode b heard
    apply held.quiet mode b
    obtain ⟨e', later, claim⟩ := heard_mem_tally.1 heard
    apply heard_mem_tally.2
    rw [events]
    exact ⟨e', mem_cons_of_mem _ later, claim⟩

theorem popRet {r rest} (held : s.Held m 0) (rets : s.rets = r :: rest) :
    Loop.Held m r.claim.toList { s with rets := rest } where
  sound := by
    have sound := held.sound
    rw [zero_add, claims, rets, tally_ret] at sound
    exact sound
  __ := held
  quiet := held.quiet_of_events rfl rfl rfl

theorem popDevice {i req} (held : s.Held m 0) (found : s.device[i]? = some (a, req)) :
    Loop.Held m {.user a} { s with device := s.device.eraseIdx i } where
  sound := by
    obtain ⟨inside, here⟩ := List.getElem?_eq_some_iff.1 found
    have parted : s.device.Perm ((a, req) :: s.device.eraseIdx i) := by
      rw [← here]
      exact (List.getElem_cons_eraseIdx_perm inside).symm
    have users := Multiset.coe_eq_coe.2 (parted.map fun x => (Claim.user x.1 : Claim UInt64 Nat))
    have sound := held.sound
    rw [zero_add, claims, tally, users, List.map_cons, ← Multiset.cons_coe, Multiset.add_cons, ← Multiset.singleton_add] at sound
    exact sound
  __ := held
  quiet := held.quiet_of_events rfl rfl rfl

/-! ## Putting -/

theorem calls {more : List Ksys} (held : s.Held m (more.filterMap Ksys.claim)) :
    Loop.Held m 0 { s with karr := s.karr ++ more } where
  sound := by
    rw [zero_add, claims, tally_calls]
    exact held.sound
  __ := held
  quiet := held.quiet_of_events rfl rfl rfl

theorem posts {more : List Event} (held : s.Held m (more.filterMap Event.claim))
    (unclosed : s.mode = .kernel → ∀ e ∈ more, ∀ b, e.claim = some (.heard b) → (s.conns b).pp.status ≠ .closed) :
    Loop.Held m 0 { s with events := s.events ++ more } where
  sound := by
    rw [zero_add, claims, tally_events]
    exact held.sound
  __ := held
  quiet := by
    intro mode b heard
    obtain ⟨e, there, claim⟩ := heard_mem_tally.1 heard
    rcases mem_append.1 there with old | new
    · exact held.quiet mode b (heard_mem_tally.2 ⟨e, old, claim⟩)
    · exact unclosed mode e new b claim

theorem returns {cookie ret} (held : s.Held m (Ret.claim ⟨k, cookie, ret⟩).toList) : (s.returns k cookie ret).Held m 0 where
  sound := by
    have one : [(⟨k, cookie, ret⟩ : Ret)].filterMap Ret.claim = (Ret.claim ⟨k, cookie, ret⟩).toList := by
      cases claim : Ret.claim ⟨k, cookie, ret⟩ with
      | none => exact filterMap_cons_none claim
      | some c => exact filterMap_cons_some claim
    rw [zero_add, Loop.claims, Loop.returns, tally_rets, one]
    exact held.sound
  __ := held
  quiet := held.quiet_of_events rfl rfl rfl

theorem submits {more : List (UInt64 × NvmeReq)} (held : s.Held m (more.map fun x => .user x.1 : List (Claim UInt64 Nat))) :
    Loop.Held m 0 { s with device := s.device ++ more } where
  sound := by
    rw [zero_add, claims, tally_device]
    exact held.sound
  __ := held
  quiet := held.quiet_of_events rfl rfl rfl

/-! ## Entries and connections -/

theorem entries_update {e} (held : s.Held m hand) (new : ∀ q, e = some q → (q.accepted = true ↔ q.cookie ≠ 0)) :
    ∀ h' q, update s.pcbs h e h' = some q → (q.accepted = true ↔ q.cookie ≠ 0) := by
  intro h' q found
  by_cases here : h' = h
  · rw [here, update_self] at found
    exact new q found
  · rw [update_of_ne here] at found
    exact held.entries h' q found

theorem setPcb {q : Pcb} (held : s.Held m 0) (found : s.pcbs h = some p) (cookie : q.cookie = p.cookie)
    (accepted : q.accepted = p.accepted) :
    Loop.Held m 0 { s with pcbs := update s.pcbs h (some q) } where
  __ := held
  sound := by
    have same : s.leases.setEntry h ((some q).map Pcb.object) = s.leases := by
      have object : (some q).map Pcb.object = s.leases.entry h := by
        show some q.object = (s.pcbs h).map Pcb.object
        rw [found, Option.map_some, Pcb.object, Pcb.object, cookie]
      rw [object]
      exact congrArg (fun entry => { s.leases with entry := entry }) (update_eq_self h _)
    rw [leases_setPcb, same]
    exact held.sound
  entries := by
    apply held.entries_update
    rintro _ ⟨⟩
    rw [cookie, accepted]
    exact held.entries h p found

theorem conns_update {taken : UInt64 → Bool} (held : s.Held m hand) (fine : x.Fine (m.env a) (taken a))
    (same : ∀ b, b ≠ a → taken b = s.taken b) :
    ∀ b, (update s.conns a x b).Fine (m.env b) (taken b) := by
  intro b
  by_cases here : b = a
  · rw [here, update_self]
    exact fine
  · rw [update_of_ne here, same b here]
    exact held.conns b

theorem setConn (held : s.Held m hand) (handle : x.handle = (s.conns a).handle)
    (status : x.pp.status = .closed ↔ (s.conns a).pp.status = .closed) (fine : x.Fine (m.env a) (s.taken a)) : (s.setConn a x).Held m hand where
  sound := by
    rw [leases_setConn handle status]
    exact held.sound
  __ := held
  quiet := by
    intro mode b heard
    show (update s.conns a x b).pp.status ≠ .closed
    by_cases same : b = a
    · rw [same, update_self]
      intro closed
      rw [same] at heard
      exact held.quiet mode a heard (status.1 closed)
    · rw [update_of_ne same]
      exact held.quiet mode b heard
  conns := held.conns_update fine fun _ _ => rfl

/-! ## The kernel -/

theorem pcb_of_entry {o} (entry : s.leases.entry h = some o) : ∃ p, s.pcbs h = some p ∧ p.object = o :=
  Option.map_eq_some_iff.1 entry

theorem object_of_ne (known : p.cookie ≠ 0) : p.object = some p.cookie := if_neg known

theorem cookie_of_object (object : p.object = some a) : p.cookie = a := by
  unfold Pcb.object at object
  split_ifs at object
  exact Option.some.inj object

section

variable (held : s.Held m 0)
include held

theorem attached (found : s.pcbs h = some p) (known : p.cookie ≠ 0) : s.leases.Attached p.cookie := by
  have entry : s.leases.entry h = some (some p.cookie) := by
    show (s.pcbs h).map Pcb.object = _
    rw [found, Option.map_some, object_of_ne known]
  exact held.sound.attached entry

theorem unclosed (found : s.pcbs h = some p) (known : p.cookie ≠ 0) (karr : s.karr = []) :
    (s.conns p.cookie).pp.status ≠ .closed := by
  intro closed
  have entry : s.leases.entry h = some (some p.cookie) := by
    show (s.pcbs h).map Pcb.object = _
    rw [found, Option.map_some, object_of_ne known]
  have leaving := held.sound.closing h p.cookie entry (decide_eq_true closed)
  rw [zero_add] at leaving
  have call : .tcpClose h ∈ s.karr := closing_mem_tally.1 leaving
  rw [karr] at call
  cases call

theorem hears {e : Event} (found : s.pcbs h = some p) (known : p.cookie ≠ 0) (karr : s.karr = [])
    (claim : e.claim = some (.heard p.cookie)) : (s.post e).Held m 0 := by
  have hand : s.Held m ([e].filterMap Event.claim) := by
    rw [filterMap_cons_some claim]
    refine held.gain fun c member => ?_
    rw [Multiset.mem_singleton.1 member]
    exact ⟨held.attached found known, rfl⟩
  refine hand.posts fun _ => forall_mem_singleton.2 fun b heard => ?_
  rw [claim] at heard
  cases heard
  exact held.unclosed found known karr

theorem unheard {e : Event} (claim : e.claim = none) : (s.post e).Held m 0 := by
  have hand : s.Held m ([e].filterMap Event.claim) := by
    rw [filterMap_cons_none claim]
    exact held
  refine hand.posts fun _ => forall_mem_singleton.2 fun b heard => ?_
  rw [claim] at heard
  cases heard

theorem knock {srcPort} (free : s.pcbs h = none) :
    Loop.Held m 0 (post { s with pcbs := update s.pcbs h (some ⟨0, false, true, []⟩) } (.tcpKnock h srcPort)) := by
  have hand : Loop.Held m ([Event.tcpKnock h srcPort].filterMap Event.claim)
      { s with pcbs := update s.pcbs h (some ⟨0, false, true, []⟩) } := by
    refine ⟨?_, held.zero, held.entries_update ?_, held.quiet, held.conns⟩
    · have sound := held.sound
      rw [zero_add] at sound
      rw [leases_setPcb]
      refine sound.knock ?_
      show (s.pcbs h).map Pcb.object = none
      rw [free, Option.map_none]
    · rintro _ ⟨⟩
      exact ⟨fun accepted => absurd accepted Bool.false_ne_true, fun known => absurd rfl known⟩
  refine hand.posts fun _ => forall_mem_singleton.2 fun b heard => ?_
  cases heard

theorem finish {i req} (found : s.device[i]? = some (a, req)) (buf : Nat → Nat → UInt8) :
    Loop.Held m 0 (post { s with device := s.device.eraseIdx i } (.nvmeDone a req buf)) := by
  have hand : Loop.Held m ([Event.nvmeDone a req buf].filterMap Event.claim) { s with device := s.device.eraseIdx i } := held.popDevice found
  refine hand.posts fun _ => forall_mem_singleton.2 fun b heard => ?_
  cases heard

end

/-- `bsys_tcp_accept` finds the entry that waits and hands on what came before. -/
theorem accept {args} (held : s.Held m {.opening h a}) : (s.call m args (.tcpAccept h a)).Held m 0 := by
  obtain ⟨taken, isOpen, handle, waits⟩ := held.holds
  obtain ⟨p, found, object⟩ := pcb_of_entry waits
  have known : a ≠ 0 := by
    rintro rfl
    exact absurd (held.zero.symm.trans taken) Bool.false_ne_true
  have entered : Loop.Held m 0 { s with pcbs := update s.pcbs h (some { p with cookie := a, accepted := true }) } := by
    refine ⟨?_, held.zero, held.entries_update ?_, held.quiet, held.conns⟩
    · have object : Pcb.object { p with cookie := a, accepted := true } = some a := if_neg known
      rw [zero_add, leases_setPcb, Option.map_some, object]
      exact held.sound.attach
    · rintro _ ⟨⟩
      exact ⟨fun _ => known, fun _ => rfl⟩
  have waiting : ∀ e ∈ p.recvd.map (Event.tcpRecv a), e.claim = some (.heard a) := by
    intro e member
    obtain ⟨bytes, -, rfl⟩ := mem_map.1 member
    rfl
  have heard : Loop.Held m ((p.recvd.map (Event.tcpRecv a)).filterMap Event.claim)
      { s with pcbs := update s.pcbs h (some { p with cookie := a, accepted := true }) } := by
    refine entered.gain fun c member => ?_
    obtain ⟨e, there, claim⟩ := mem_filterMap.1 (Multiset.mem_coe.1 member)
    rw [waiting e there] at claim
    cases claim
    exact ⟨entered.attached (h := h) (p := { p with cookie := a, accepted := true }) (update_self _ _ _) known, rfl⟩
  have told := heard.posts fun _ e there b claim => by
    rw [waiting e there] at claim
    cases claim
    exact of_decide_eq_false isOpen
  simp only [call, tcpCall, found]
  exact returns told

/-- `bsys_tcp_close` finds the entry of a connection of which no event is left. -/
theorem close {args} (held : s.Held m {.closing h}) (mode : s.mode = .kernel) : (s.call m args (.tcpClose h)).Held m 0 := by
  obtain ⟨a, attached, rfl, closed⟩ := held.holds
  obtain ⟨p, found, object⟩ := pcb_of_entry attached.2
  have unheard : .heard a ∉ s.claims := fun heard => held.quiet mode a heard (of_decide_eq_true closed)
  simp only [call, tcpCall, found]
  refine returns (s := { s with pcbs := update s.pcbs (s.leases.handle a) none })
    ⟨?_, held.zero, held.entries_update fun _ none => ?_, held.quiet, held.conns⟩
  · rw [leases_setPcb, cookie_of_object object]
    exact held.sound.detach attached.2 unheard
  · cases none

theorem silent_claim {before : List Event} (silent : ∀ e ∈ before, e.silent = true) :
    (∀ e ∈ before, e.claim = none) ∧ before.filterMap Event.claim = [] := by
  have none : ∀ e ∈ before, e.claim = none := by
    intro e member
    cases e <;> cases silent _ member
    rfl
  exact ⟨none, filterMap_eq_nil_iff.2 none⟩

theorem nvmeCall {args : CallArgs} {ret : Int} {nvme : Nvme.NvmeState} (held : s.Held m k.claim.toList)
    (ran : (k.ioOp m args).bind (Nvme.IoOp.run m.cfg s.nvme) = some (ret, nvme)) : (s.nvmeCall m args k).Held m 0 := by
  have dropped : s.Held m 0 := by
    cases k with
    | nvmeWritev | nvmeReadv | nvmeRegisterFlow => exact held.drop fun h same => by cases same
    | nvmeUnregisterFlow => exact held
    | tcpAccept | tcpReject | tcpSendv | tcpRecvDone | tcpClose => cases ran
  have unclaimed : Ret.claim ⟨k, 0, ret⟩ = none := by
    cases k with
    | tcpAccept | tcpReject | tcpSendv | tcpRecvDone | tcpClose => cases ran
    | nvmeWritev | nvmeReadv | nvmeRegisterFlow | nvmeUnregisterFlow => rfl
  simp only [Loop.nvmeCall, ran]
  apply returns
  rw [unclaimed]
  obtain ⟨before, silent, ⟨post, others⟩ | ⟨id, a, slo, rfl, zero, post⟩⟩ := call_posted ran
  · have submitted : Loop.Held m 0 { s with device := if ret = 0 then s.device ++ k.request.toList else s.device } := by
      split_ifs with zero
      · refine submits ?_
        cases k with
        | nvmeRegisterFlow id a slo => exact absurd zero (others id a slo rfl)
        | nvmeWritev | nvmeReadv | nvmeUnregisterFlow => exact held
        | tcpAccept | tcpReject | tcpSendv | tcpRecvDone | tcpClose => cases ran
      · exact dropped
    obtain ⟨nothing, unclaimed⟩ := silent_claim silent
    rw [post]
    refine posts (s := { s with nvme := nvme, device := if ret = 0 then s.device ++ k.request.toList else s.device })
      ?_ fun _ e there b claim => ?_
    · rw [unclaimed]
      exact ⟨submitted.sound, submitted.zero, submitted.entries, submitted.quiet, submitted.conns⟩
    · rw [nothing e there] at claim
      cases claim
  · obtain ⟨nothing, unclaimed⟩ := silent_claim silent
    have same : (if ret = 0 then s.device ++ (Ksys.nvmeRegisterFlow id a slo).request.toList else s.device) = s.device := by
      rw [if_pos zero]
      exact append_nil _
    rw [post, same]
    refine posts (s := { s with nvme := nvme }) ?_ fun _ e there b claim => ?_
    · rw [filterMap_append, unclaimed]
      exact ⟨held.sound, held.zero, held.entries, held.quiet, held.conns⟩
    · rcases mem_append.1 there with earlier | reply
      · rw [nothing e earlier] at claim
        cases claim
      · rw [mem_singleton.1 reply] at claim
        cases claim

/-! ## The event library -/

theorem quiet_of_user {t : Loop} (mode : t.mode = .user) :
    t.mode = .kernel → ∀ a, .heard a ∈ t.claims → (t.conns a).pp.status ≠ .closed := by
  intro kernel
  rw [mode] at kernel
  cases kernel

theorem release (held : s.Held m {.leaving a}) (mode : s.mode = .user) : (s.release a).Held m 0 := by
  obtain ⟨-, closed, -⟩ := held.holds
  have status : (s.conns a).pp.status = .closed := of_decide_eq_true closed
  have fine := held.conns a
  refine ⟨?_, ?_, held.entries, quiet_of_user mode, ?_⟩
  · rw [zero_add, leases_release]
    exact held.sound.free
  · show update s.taken a false 0 = false
    by_cases same : 0 = a
    · rw [same, update_self]
    · rw [update_of_ne same]
      exact held.zero
  · refine held.conns_update ?_ fun b other => update_of_ne other _ _
    show Conn.Fine (m.env a) (update s.taken a false a) _
    rw [update_self]
    refine ⟨fun taken => ?_, fun _ => ⟨?_, rfl⟩, ⟨fine.ready.payload⟩⟩
    · cases taken
    · rw [status]
      exact noConfusion

theorem take {srcPort : UInt16} (held : s.Held m {.knock h}) (mode : s.mode = .user) (memory : a ≠ 0) (free : s.taken a = false) :
    (s.tcpKnock (some a) h srcPort).Held m 0 := by
  have fine := held.conns a
  have taken : Loop.Held m ([Ksys.tcpAccept h a].filterMap Ksys.claim)
      { s.setConn a (accepted (s.conns a) h srcPort) with taken := update s.taken a true } := by
    refine ⟨?_, ?_, held.entries, quiet_of_user mode, ?_⟩
    · have knocks : s.leases.Sound (.knock h ::ₘ s.claims) := held.sound
      rw [leases_open rfl noConfusion]
      exact knocks.take free
    · show update s.taken a true 0 = false
      rw [update_of_ne memory.symm]
      exact held.zero
    · refine held.conns_update ?_ fun b other => update_of_ne other _ _
      show Conn.Fine (m.env a) (update s.taken a true a) _
      rw [update_self]
      refine ⟨fun _ => noConfusion, fun free => ?_, .of_not_pending (.inr rfl)⟩
      cases free
  have called := taken.calls
  exact ⟨called.sound, called.zero, called.entries, called.quiet, called.conns⟩

/-! ## Callbacks -/

theorem fine_of_keeps {y : Conn} (taken : s.taken a = true) (keeps : y.Keeps (m.env a) x)
    (up : x.pp.status ≠ .aborted) :
    x.Fine (m.env a) (s.taken a) := by
  refine ⟨fun _ => up, fun free => ?_, keeps.ready⟩
  exact absurd (free.symm.trans taken) Bool.false_ne_true

theorem stays {t : Turn} (held : s.Held m 0) (attached : s.leases.Attached a) (up : (s.conns a).pp.status = .established)
    (status : t.conn.pp.status = .established) (keeps : (s.conns a).Keeps (m.env a) t.conn)
    (own : ∀ k ∈ t.calls, k.claim = none ∨ k.claim = some (.user a)) :
    Loop.Held m 0 { s.setConn a t.conn with karr := s.karr ++ t.calls } := by
  have same : t.conn.pp.status = .closed ↔ (s.conns a).pp.status = .closed := by rw [status, up]
  have running : t.conn.pp.status ≠ .aborted := Status.ne_aborted status
  have isOpen : s.leases.closed a = false := decide_eq_false (Status.ne_closed up)
  have moved := held.setConn keeps.handle same (fine_of_keeps attached.1 keeps running)
  have asked : (s.setConn a t.conn).Held m (t.calls.filterMap Ksys.claim) := by
    refine moved.gain fun c member => ?_
    obtain ⟨k, there, claim⟩ := mem_filterMap.1 (Multiset.mem_coe.1 member)
    rw [leases_setConn keeps.handle same]
    rcases own k there with none | user
    · rw [none] at claim
      cases claim
    · rw [user] at claim
      cases claim
      exact ⟨⟨attached, isOpen⟩, rfl⟩
  exact asked.calls

theorem closes {t : Turn} (held : s.Held m 0) (mode : s.mode = .user) (attached : s.leases.Attached a)
    (up : (s.conns a).pp.status = .established) (status : t.conn.pp.status = .closed) (keeps : (s.conns a).Keeps (m.env a) t.conn)
    (settled : s.Settled a) (own : t.calls.filterMap Ksys.claim = [.closing (s.conns a).handle]) :
    Loop.Held m 0 { s.setConn a t.conn with karr := s.karr ++ t.calls } := by
  have running : t.conn.pp.status ≠ .aborted := by
    rw [status]
    exact noConfusion
  have isOpen : s.leases.closed a = false := decide_eq_false (Status.ne_closed up)
  have closed : (s.setConn a t.conn).Held m (t.calls.filterMap Ksys.claim) := by
    refine ⟨?_, held.zero, held.entries, quiet_of_user mode, held.conns_update (fine_of_keeps attached.1 keeps running) fun _ _ => rfl⟩
    have sound := held.sound
    rw [zero_add] at sound
    rw [leases_closeConn keeps.handle status, own]
    exact sound.close attached isOpen settled
  exact closed.calls

end Loop.Held

end Reflex.Thread
