import Reflex.Tcp.Returns

/-!
# Data and hang-ups around the accept call

One incoming connection, from the stack's callbacks to the context that the application accepts it with. The stack
completes the handshake by itself (`on_accept`); the application learns of it by an event, and its accept call reaches
the kernel in a later batch. Segments, the end of the stream and resets may come at any time before, between and after.
Events of other connections may stand between those of this one.

`Mask` is a set of the reasons for which a handler is called. The fields from `calls` on are history: the reasons of the
handler's calls, the bytes given to `ixev_tcp_recv`, the bytes that arrived, and for each hang-up whether the accept call
had been executed.
-/

namespace Reflex.Tcp
open Lib Function List

structure Mask where
  hup : Bool
  input : Bool
deriving DecidableEq, Repr

structure Arrival where
  core : Core
  /-- the accept call is in the batch -/
  asked : Bool
  enMask : Mask
  trigMask : Mask
  isDead : Bool
  calls : List Mask
  received : List UInt8
  arrived : List UInt8
  hangUps : List Bool

namespace Arrival

/-- `ixev_tcp_dead` on the context. -/
def ixevTcpDead (s : Arrival) : Arrival :=
  let s := { s with isDead := true }
  let s :=
    if s.enMask.hup then { s with calls := s.calls ++ [⟨true, false⟩] }
    else if s.enMask.input then { s with calls := s.calls ++ [⟨true, true⟩] }
    else { s with trigMask := { s.trigMask with hup := true } }
  { s with enMask := ⟨false, false⟩ }

/-- `ixev_tcp_recv` on the context. -/
def ixevTcpRecv (s : Arrival) (bytes : List UInt8) : Arrival :=
  let s := { s with received := s.received ++ bytes }
  if s.enMask.input then { s with calls := s.calls ++ [⟨false, true⟩] }
  else { s with trigMask := { s.trigMask with input := true } }

/-- The application handles an event; the cookie is the context it is for. -/
def handleEvent (handle ctx : Nat) (s : Arrival) : Usys → Arrival
  | .knock h => if h = handle then { s with asked := true } else s
  | .recv _ cookie bytes => if cookie = ctx then s.ixevTcpRecv bytes else s
  | .dead _ cookie => if cookie = ctx then s.ixevTcpDead else s
  | .sent _ _ _ | .connected _ _ _ => s

inductive Step where
  | data (chain : Chain)
  | fin
  | rst
  /-- an event of another connection -/
  | other (event : Usys)
  | accept
  | recvDone (len : Nat)
  | event
  /-- `ixev_set_handler` -/
  | setHandler (mask : Mask)

variable (api handle ctx : Nat)

def accepted (s : Arrival) : Bool := (s.core.apis api).accepted

def next (s : Arrival) : Step → Arrival
  | .data chain => { s with core := s.core.onRecv api (some chain), arrived := s.arrived ++ chain.flatten }
  | .fin => { s with core := s.core.onRecv api none, hangUps := s.hangUps ++ [s.accepted api] }
  | .rst => { s with core := s.core.onErr api, hangUps := s.hangUps ++ [s.accepted api] }
  | .other event => { s with core := s.core.post [event] }
  | .accept => { s with core := (s.core.bsysTcpAccept handle ctx).2 }
  | .recvDone len => { s with core := (s.core.bsysTcpRecvDone handle len).2 }
  | .event =>
    match s.core.usys with
    | [] => s
    | e :: usys => handleEvent handle ctx { s with core := { s.core with usys := usys } } e
  | .setHandler mask => { s with enMask := mask }

/-- An event that concerns neither the context nor the handle. -/
def Foreign : Usys → Prop
  | .knock h => h ≠ handle
  | .connected _ cookie _ | .recv _ cookie _ | .sent _ cookie _ | .dead _ cookie => cookie ≠ ctx

/-- The stack reports on a control block only while there is one, and the application accepts once. -/
def Valid (s : Arrival) : Step → Prop
  | .data _ | .fin | .rst => (s.core.apis api).pcb = true
  | .other event => Foreign handle ctx event
  | .accept => s.asked = true ∧ s.accepted api = false
  | .recvDone _ => s.accepted api = true
  | .event | .setHandler _ => True

def start (core : Core) (fg : Nat) (mask : Mask) : Arrival where
  core := { core.onAccept api fg with usys := [.knock (core.tcpapiToHandle fg api).1] }
  asked := false
  enMask := mask
  trigMask := ⟨false, false⟩
  isDead := false
  calls := []
  received := []
  arrived := []
  hangUps := []

/-- The bytes of the events that wait for the context. -/
def waiting : List Usys → List UInt8
  | [] => []
  | .recv _ cookie bytes :: usys => (if cookie = ctx then bytes else []) ++ waiting usys
  | _ :: usys => waiting usys

/-- The handler was called with `IXEVHUP`, or the event is recorded. -/
def Notified (s : Arrival) : Prop := (∃ call ∈ s.calls, call.hup = true) ∨ s.trigMask.hup = true

def HangUpWaits (s : Arrival) : Prop := ∃ h, Usys.dead h ctx ∈ s.core.usys

/-- Every byte that arrived is, exactly once and in order, with the context or on its way to it; before the accept call
all of them are held back. -/
def Delivers (s : Arrival) : Prop :=
  if s.accepted api then s.received ++ waiting ctx s.core.usys = s.arrived
  else s.received = [] ∧ waiting ctx s.core.usys = [] ∧ (s.core.apis api).recvd.flatten.flatten = s.arrived

/-! ## The invariant -/

variable {api handle ctx} {s : Arrival}

theorem waiting_append (xs ys : List Usys) : waiting ctx (xs ++ ys) = waiting ctx xs ++ waiting ctx ys := by
  induction xs with
  | nil => rfl
  | cons e xs ih => cases e <;> simp [waiting, ih]

theorem waiting_recvAPbuf (p : TcpapiPcb) (chain : Chain) :
    waiting ctx (recvAPbuf p chain) = if p.cookie = ctx then chain.flatten else [] := by
  induction chain with
  | nil => simp [recvAPbuf, waiting]
  | cons bytes chain ih =>
    have split : recvAPbuf p (bytes :: chain) = .recv p.handle p.cookie bytes :: recvAPbuf p chain := rfl
    rw [split, waiting, ih]
    split_ifs with same <;> simp

theorem waiting_replay (p : TcpapiPcb) (chains : List Chain) (mine : p.cookie = ctx) :
    waiting ctx (chains.flatMap (recvAPbuf p)) = chains.flatten.flatten := by
  induction chains with
  | nil => rfl
  | cons chain chains ih =>
    rw [flatMap_cons, waiting_append, ih, waiting_recvAPbuf, if_pos mine, flatten_cons, flatten_append]

theorem dead_not_mem_recvAPbuf (p : TcpapiPcb) (chain : Chain) (h c : Nat) : Usys.dead h c ∉ recvAPbuf p chain := by
  intro member
  obtain ⟨bytes, -, impossible⟩ := mem_map.1 member
  cases impossible

structure Tracked (api handle ctx : Nat) (s : Arrival) : Prop where
  formed : ¬ Malformed handle
  place : s.core.handle2pcb (handleIdx handle) = some api
  cookie : (s.core.apis api).cookie = if s.accepted api then ctx else 0
  delivers : Delivers api ctx s
  early : s.accepted api = false → true ∉ s.hangUps
  hangs : (Notified s ∨ HangUpWaits ctx s) ↔ true ∈ s.hangUps

section

variable (tracked : Tracked api handle ctx s)
include tracked

theorem Tracked.posts {p} {core : Core} {arrived} (events : List Usys) (object : core.apis api = p)
    (places : core.handle2pcb = s.core.handle2pcb)
    (queue : core.usys = s.core.usys ++ events) (cookie : p.cookie = if p.accepted then ctx else 0) (alive : ∀ h, Usys.dead h ctx ∉ events)
    (keeps : p.accepted = false → s.accepted api = false)
    (delivers : Delivers api ctx { s with core := core, arrived := arrived }) :
    Tracked api handle ctx { s with core := core, arrived := arrived } := by
  refine ⟨tracked.formed, ?_, ?_, delivers, ?_, ?_⟩
  · show core.handle2pcb _ = _
    rw [places]
    exact tracked.place
  · unfold accepted
    rw [object]
    exact cookie
  · intro waits
    apply tracked.early
    apply keeps
    rw [← object]
    exact waits
  · rw [← tracked.hangs]
    refine or_congr Iff.rfl (exists_congr fun h => ?_)
    show _ ∈ core.usys ↔ _
    rw [queue, mem_append]
    exact or_iff_left (alive h)

theorem Tracked.data (chain : Chain) :
    Tracked api handle ctx (s.next api handle ctx (.data chain)) := by
  have cookie := tracked.cookie
  have delivers := tracked.delivers
  unfold accepted at cookie
  refine tracked.posts (p := { s.core.apis api with recvd := (s.core.apis api).recvd ++ [chain] }) _
    (update_self _ _ _) rfl rfl cookie ?_ id ?_
  · intro h member
    dsimp only at member
    split_ifs at member
    · exact dead_not_mem_recvAPbuf _ _ _ _ member
    · cases member
  · unfold Delivers accepted at delivers ⊢
    simp only [Core.onRecv, Core.post, Core.setApi, update_self]
    cases waits : (s.core.apis api).accepted with
    | true =>
      simp only [waits, if_true] at cookie delivers ⊢
      rw [waiting_append, waiting_recvAPbuf, if_pos cookie, ← append_assoc, delivers]
    | false =>
      simp only [waits, Bool.false_eq_true, if_false, append_nil] at delivers ⊢
      obtain ⟨none, nothing, held⟩ := delivers
      refine ⟨none, nothing, ?_⟩
      rw [flatten_append, flatten_append, held, flatten_singleton]

theorem Tracked.other {event} (foreign : Foreign handle ctx event) :
    Tracked api handle ctx (s.next api handle ctx (.other event)) := by
  refine tracked.posts (p := s.core.apis api) [event] rfl rfl rfl tracked.cookie ?_ id ?_
  · intro h member
    rw [← mem_singleton.1 member] at foreign
    exact foreign rfl
  · have silent : waiting ctx [event] = [] := by
      cases event with
      | recv h cookie bytes =>
        have other : cookie ≠ ctx := foreign
        rw [waiting, if_neg other]
        rfl
      | knock | connected | sent | dead => rfl
    have delivers := tracked.delivers
    unfold Delivers accepted at delivers ⊢
    simp only [Core.post, waiting_append, silent, append_nil]
    exact delivers

theorem Tracked.recvDone (live : s.accepted api = true) (len : Nat) :
    Tracked api handle ctx (s.next api handle ctx (.recvDone len)) := by
  have cookie := tracked.cookie
  have delivers := tracked.delivers
  unfold accepted at cookie live
  have done : (s.core.bsysTcpRecvDone handle len).2 =
      Core.setApi { s.core with syscallCookie := (s.core.apis api).cookie } api
        { s.core.apis api with recvd := keepRecvd len (s.core.apis api).recvd } := by
    simp only [Core.bsysTcpRecvDone, handleToTcpapi_some tracked.formed tracked.place]
  unfold next
  dsimp only
  rw [done]
  refine tracked.posts [] (update_self _ _ _) rfl (append_nil _).symm cookie
    (fun _ => not_mem_nil) id ?_
  unfold Delivers accepted at delivers ⊢
  simp only [Core.setApi, update_self, live, if_true] at delivers ⊢
  exact delivers

theorem Tracked.accept (waits : s.accepted api = false) :
    Tracked api handle ctx (s.next api handle ctx .accept) := by
  have delivers := tracked.delivers
  unfold Delivers accepted at *
  rw [waits] at delivers
  obtain ⟨none, nothing, held⟩ := delivers
  have done : (s.core.bsysTcpAccept handle ctx).2 =
      (Core.setApi { s.core with syscallCookie := (s.core.apis api).cookie } api
        { s.core.apis api with id := false, cookie := ctx, accepted := true }).post
        ((s.core.apis api).recvd.flatMap
          (recvAPbuf { s.core.apis api with id := false, cookie := ctx, accepted := true })) := by
    simp only [Core.bsysTcpAccept, handleToTcpapi_some tracked.formed tracked.place]
  unfold next
  dsimp only
  rw [done]
  refine tracked.posts _ (update_self _ _ _) rfl rfl rfl ?_ (fun impossible => absurd impossible.symm Bool.false_ne_true) ?_
  · intro h member
    obtain ⟨chain, -, inside⟩ := mem_flatMap.1 member
    exact dead_not_mem_recvAPbuf _ _ _ _ inside
  · unfold Delivers accepted
    simp only [Core.setApi, Core.post, update_self, if_true]
    rw [waiting_append, nothing, none, nil_append, nil_append, waiting_replay]
    · exact held
    · rfl

/-- A hang-up is posted with the cookie of the object, which is the context's only after the accept call. -/
theorem Tracked.hangUp {p} {core : Core} (nonnull : ctx ≠ 0)
    (object : core.apis api = p) (places : core.handle2pcb = s.core.handle2pcb)
    (queue : core.usys = s.core.usys ++ [.dead (s.core.apis api).handle (s.core.apis api).cookie])
    (cookie : p.cookie = (s.core.apis api).cookie) (same : p.accepted = s.accepted api)
    (held : p.recvd = (s.core.apis api).recvd) :
    Tracked api handle ctx { s with core := core, hangUps := s.hangUps ++ [s.accepted api] } := by
  have early := tracked.early
  have delivers := tracked.delivers
  have before := tracked.cookie
  refine ⟨tracked.formed, ?_, ?_, ?_, ?_, ?_⟩
  · show core.handle2pcb _ = _
    rw [places]
    exact tracked.place
  · unfold accepted at *
    rw [object, cookie, same]
    exact before
  · unfold Delivers accepted at *
    simp only [object, same, held, queue, waiting_append, waiting, append_nil]
    exact delivers
  · unfold accepted at *
    intro waits
    rw [object, same] at waits
    rw [waits]
    simpa using early waits
  · have hangs := tracked.hangs
    have queued : HangUpWaits ctx { s with core := core, hangUps := s.hangUps ++ [s.accepted api] } ↔
        HangUpWaits ctx s ∨ s.accepted api = true := by
      unfold HangUpWaits
      simp only [queue, mem_append, mem_singleton, exists_or, Usys.dead.injEq, before]
      refine or_congr Iff.rfl ?_
      cases s.accepted api with
      | true => simp
      | false => simpa using nonnull
    rw [queued, ← or_assoc]
    show (Notified s ∨ HangUpWaits ctx s) ∨ _ ↔ true ∈ s.hangUps ++ [s.accepted api]
    rw [hangs, mem_append, mem_singleton, eq_comm]

end

theorem notified_recv (bytes : List UInt8) : Notified (s.ixevTcpRecv bytes) ↔ Notified s := by
  unfold Notified ixevTcpRecv
  dsimp only
  split_ifs with enabled
  · simp
  · exact Iff.rfl

theorem notified_dead : Notified s.ixevTcpDead := by
  unfold Notified ixevTcpDead
  dsimp only
  split_ifs with hup input
  · exact .inl ⟨_, mem_append_right _ (mem_singleton_self _), rfl⟩
  · exact .inl ⟨_, mem_append_right _ (mem_singleton_self _), rfl⟩
  · exact .inr rfl

def popped (s : Arrival) (usys : List Usys) : Arrival := { s with core := { s.core with usys := usys } }

section

variable (tracked : Tracked api handle ctx s)
include tracked

theorem Tracked.pop {e usys} (queue : s.core.usys = e :: usys)
    (silent : waiting ctx [e] = []) (alive : ∀ h, Usys.dead h ctx ≠ e) : Tracked api handle ctx (s.popped usys) := by
  have delivers := tracked.delivers
  have split : waiting ctx s.core.usys = waiting ctx usys := by
    rw [queue, ← singleton_append, waiting_append, silent, nil_append]
  refine ⟨tracked.formed, tracked.place, tracked.cookie, ?_, tracked.early, ?_⟩
  · unfold Delivers accepted at delivers ⊢
    rw [split] at delivers
    exact delivers
  · rw [← show _ ↔ true ∈ (s.popped usys).hangUps from tracked.hangs]
    refine or_congr Iff.rfl (exists_congr fun h => ?_)
    rw [queue, mem_cons]
    exact (or_iff_right (alive h)).symm

theorem Tracked.handled {t : Arrival} {usys} (core : t.core = (s.popped usys).core)
    (hangUps : t.hangUps = s.hangUps) (delivers : Delivers api ctx t) (hangs : (Notified t ∨ HangUpWaits ctx t) ↔ true ∈ t.hangUps) :
    Tracked api handle ctx t := by
  refine ⟨tracked.formed, ?_, ?_, delivers, ?_, hangs⟩
  · rw [core]
    exact tracked.place
  · unfold accepted
    rw [core]
    exact tracked.cookie
  · unfold accepted
    rw [core, hangUps]
    exact tracked.early

theorem Tracked.received {h bytes usys} (queue : s.core.usys = .recv h ctx bytes :: usys) :
    Tracked api handle ctx ((s.popped usys).ixevTcpRecv bytes) := by
  have delivers := tracked.delivers
  have frame : ((s.popped usys).ixevTcpRecv bytes).core = (s.popped usys).core ∧
      ((s.popped usys).ixevTcpRecv bytes).received = s.received ++ bytes ∧
      ((s.popped usys).ixevTcpRecv bytes).arrived = s.arrived ∧
      ((s.popped usys).ixevTcpRecv bytes).hangUps = s.hangUps := by
    unfold ixevTcpRecv
    dsimp only
    split_ifs <;> exact ⟨rfl, rfl, rfl, rfl⟩
  obtain ⟨core, got, arrived, hangUps⟩ := frame
  apply tracked.handled core hangUps
  · unfold Delivers accepted at delivers ⊢
    rw [core, got, arrived]
    rw [queue, waiting, if_pos rfl] at delivers
    show if (s.core.apis api).accepted = true then s.received ++ bytes ++ waiting ctx usys = s.arrived
      else s.received ++ bytes = [] ∧ waiting ctx usys = [] ∧ (s.core.apis api).recvd.flatten.flatten = s.arrived
    by_cases live : (s.core.apis api).accepted = true
    · rw [if_pos live] at delivers ⊢
      rw [append_assoc]
      exact delivers
    · -- before the accept call no bytes wait, so these are none
      rw [if_neg live, append_eq_nil_iff] at delivers
      rw [if_neg live, append_eq_nil_iff]
      exact ⟨⟨delivers.1, delivers.2.1.1⟩, delivers.2.1.2, delivers.2.2⟩
  · rw [hangUps, notified_recv, ← tracked.hangs]
    refine or_congr Iff.rfl (exists_congr fun h => ?_)
    rw [core, queue, mem_cons]
    exact (or_iff_right (fun impossible => nomatch impossible)).symm

theorem Tracked.died {h usys} (queue : s.core.usys = .dead h ctx :: usys) : Tracked api handle ctx (s.popped usys).ixevTcpDead := by
  have delivers := tracked.delivers
  have frame : (s.popped usys).ixevTcpDead.core = (s.popped usys).core ∧
      (s.popped usys).ixevTcpDead.received = s.received ∧ (s.popped usys).ixevTcpDead.arrived = s.arrived ∧
      (s.popped usys).ixevTcpDead.hangUps = s.hangUps := by
    unfold ixevTcpDead
    dsimp only
    split_ifs <;> exact ⟨rfl, rfl, rfl, rfl⟩
  obtain ⟨core, got, arrived, hangUps⟩ := frame
  apply tracked.handled core hangUps
  · unfold Delivers accepted at delivers ⊢
    rw [core, got, arrived]
    have split : waiting ctx (.dead h ctx :: usys) = waiting ctx usys := rfl
    rw [queue, split] at delivers
    exact delivers
  · rw [hangUps]
    refine ⟨fun _ => tracked.hangs.1 (.inr ⟨h, ?_⟩), fun _ => .inl notified_dead⟩
    rw [queue]
    exact mem_cons_self

theorem Tracked.event : Tracked api handle ctx (s.next api handle ctx .event) := by
  unfold next
  cases queue : s.core.usys with
  | nil => exact tracked
  | cons e usys =>
    show Tracked api handle ctx (handleEvent handle ctx (s.popped usys) e)
    cases e with
    | knock h =>
      have passed := tracked.pop queue rfl (fun _ impossible => nomatch impossible)
      dsimp only [handleEvent]
      split_ifs with mine
      · exact ⟨passed.formed, passed.place, passed.cookie, passed.delivers, passed.early, passed.hangs⟩
      · exact passed
    | connected h cookie refused => exact tracked.pop queue rfl (fun _ impossible => nomatch impossible)
    | sent h cookie len => exact tracked.pop queue rfl (fun _ impossible => nomatch impossible)
    | recv h cookie bytes =>
      dsimp only [handleEvent]
      split_ifs with mine
      · rw [mine] at queue
        exact tracked.received queue
      · exact tracked.pop queue (by rw [waiting, if_neg mine]; rfl) (fun _ impossible => nomatch impossible)
    | dead h cookie =>
      dsimp only [handleEvent]
      split_ifs with mine
      · rw [mine] at queue
        exact tracked.died queue
      · refine tracked.pop queue rfl (fun _ same => ?_)
        rw [Usys.dead.injEq] at same
        exact mine same.2.symm

theorem Tracked.next (nonnull : ctx ≠ 0) {step}
    (valid : s.Valid api handle ctx step) : Tracked api handle ctx (s.next api handle ctx step) := by
  cases step with
  | data chain => exact tracked.data chain
  | fin => exact tracked.hangUp nonnull (update_self _ _ _) rfl rfl rfl rfl rfl
  | rst => exact tracked.hangUp nonnull (update_self _ _ _) rfl rfl rfl rfl rfl
  | other event => exact tracked.other valid
  | accept => exact tracked.accept valid.2
  | recvDone len => exact tracked.recvDone valid len
  | event => exact tracked.event
  | setHandler mask =>
    exact ⟨tracked.formed, tracked.place, tracked.cookie, tracked.delivers, tracked.early, tracked.hangs⟩

end

theorem Tracked.start {core fg} (place : Batch.HasPlace core) (group : fg < ethMaxTotalFg + ncpu)
    (running : core.faulted = false) (mask : Mask) :
    Tracked api (core.tcpapiToHandle fg api).1 ctx (start api core fg mask) := by
  have still : (core.onAccept api fg).faulted = false := (tcpapiToHandle_running place).1.trans running
  rcases tcpapiToHandle_cases (s := core) fg api with full | ⟨i, below, empty, placed⟩
  · exact absurd (still.symm.trans full) Bool.false_ne_true
  · obtain ⟨index, formed⟩ := handle_parts below group
    have object : (core.onAccept api fg).apis api =
        ⟨true, true, 0, true, (core.tcpapiToHandle fg api).1, [], false⟩ := update_self _ _ _
    rw [placed]
    refine ⟨formed, ?_, ?_, ?_, ?_, ?_⟩
    · simp only [Arrival.start, Core.onAccept, Core.setApi, Core.post, placed, index, update_self]
    · simp only [Arrival.start, accepted, object, Bool.false_eq_true, if_false]
    · simp only [Delivers, Arrival.start, accepted, object, Bool.false_eq_true, if_false]
      exact ⟨trivial, rfl, rfl⟩
    · exact fun _ => not_mem_nil
    · simp [Notified, HangUpWaits, Arrival.start]

/-- Every byte is delivered once and in order; and a peer that hung up is noticed, or the notice is on its way, exactly if
it hung up (again) after the accept call. -/
theorem arrivals_reach_context {core : Core} {fg : Nat} {mask : Mask} {steps : List Step} (nonnull : ctx ≠ 0)
    (place : Batch.HasPlace core) (group : fg < ethMaxTotalFg + ncpu) (running : core.faulted = false)
    (run : Run (Applies (Arrival.next api (core.tcpapiToHandle fg api).1 ctx) (Valid api (core.tcpapiToHandle fg api).1 ctx))
      (Arrival.start api core fg mask) steps s) :
    Delivers api ctx s ∧
      ((s.hangUps ≠ [] → Notified s ∨ HangUpWaits ctx s) ↔ (s.hangUps ≠ [] → true ∈ s.hangUps)) := by
  have tracked : Tracked api (core.tcpapiToHandle fg api).1 ctx s := by
    apply run.invariant (I := Tracked api (core.tcpapiToHandle fg api).1 ctx)
    · rintro s step _ ⟨valid, rfl⟩ tracked
      exact tracked.next nonnull valid
    · exact .start place group running mask
  exact ⟨tracked.delivers, imp_congr_right fun _ => tracked.hangs⟩

def blankCore : Core where
  apis _ := dialed 0 0
  handle2pcb _ := none
  syscallCookie := 0
  usys := []
  faulted := false

theorem blankCore_place : Batch.HasPlace blankCore := ⟨0, by decide, rfl⟩

/-- The steps of one connection of an empty core, at flow group 1 and for context 1. -/
def firstNext : Arrival → Step → Arrival := Arrival.next 0 (blankCore.tcpapiToHandle 1 0).1 1

def firstValid : Arrival → Step → Prop := Valid 0 (blankCore.tcpapiToHandle 1 0).1 1

/-- Data before and after the accept call, and a hang-up after it. -/
theorem late_hangUp_is_noticed : ∃ s, Run (Applies firstNext firstValid) (Arrival.start 0 blankCore 1 ⟨true, true⟩)
    [.data [[1]], .event, .accept, .data [[2]], .fin, .event, .event, .event] s ∧
      s.received = [1, 2] ∧ s.arrived = [1, 2] ∧ s.hangUps = [true] ∧ (Notified s ∨ HangUpWaits 1 s) := by
  have run : Run (Applies firstNext firstValid) (Arrival.start 0 blankCore 1 ⟨true, true⟩)
      [.data [[1]], .event, .accept, .data [[2]], .fin, .event, .event, .event] _ :=
    .cons ⟨show _ = true by decide +kernel, rfl⟩ (.cons ⟨trivial, rfl⟩
      (.cons ⟨⟨by decide +kernel, by decide +kernel⟩, rfl⟩ (.cons ⟨show _ = true by decide +kernel, rfl⟩
      (.cons ⟨show _ = true by decide +kernel, rfl⟩ (.cons ⟨trivial, rfl⟩ (.cons ⟨trivial, rfl⟩
      (.single ⟨trivial, rfl⟩)))))))
  obtain ⟨-, noticed⟩ := arrivals_reach_context (by decide) blankCore_place (by decide) rfl run
  exact ⟨_, run, by decide +kernel, by decide +kernel, by decide +kernel,
    noticed.2 (fun _ => by decide +kernel) (by decide +kernel)⟩

/-- The peer hangs up before the accept call: the event has no cookie, and none follows. -/
theorem early_hangUp_is_missed : ∃ steps s,
    Run (Applies firstNext firstValid) (Arrival.start 0 blankCore 1 ⟨true, true⟩) steps s ∧
      s.accepted 0 = true ∧ s.hangUps ≠ [] ∧ s.core.usys = [] ∧ ¬ Notified s := by
  have run : Run (Applies firstNext firstValid) (Arrival.start 0 blankCore 1 ⟨true, true⟩)
      [.fin, .event, .accept, .event] _ :=
    .cons ⟨show _ = true by decide +kernel, rfl⟩ (.cons ⟨trivial, rfl⟩
      (.cons ⟨⟨by decide +kernel, by decide +kernel⟩, rfl⟩ (.single ⟨trivial, rfl⟩)))
  refine ⟨_, _, run, by decide +kernel, by decide +kernel, by decide +kernel, ?_⟩
  unfold Notified
  decide +kernel

end Arrival

end Reflex.Tcp
