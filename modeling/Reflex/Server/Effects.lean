import Reflex.Server.Session

/-!
# What the functions of the server leave alone

Sending changes the cursors, the buffer, what was accepted, the list of pending requests and the status of a
connection (`SendEffect`).
-/

namespace Reflex.Server
open Lib List

/-! ## Sending -/

/-- Only a refusal closes the connection, and only if no request was ever handed over. -/
structure SendEffect (c d : PpConn) : Prop where
  frame : d = { c with
    txSent := d.txSent, txPending := d.txPending, dataSend := d.dataSend, wire := d.wire, pendingRequests := d.pendingRequests
    status := d.status }
  status : d.status = c.status ∨ d.status = .aborted ∨ d.status = .closed ∧ c.nvmePending = 0

section Sending

variable {env : Env} {c d e : PpConn}

namespace SendEffect

theorem refl (c : PpConn) : SendEffect c c := ⟨rfl, .inl rfl⟩

theorem nvmePending (effect : SendEffect c d) : d.nvmePending = c.nvmePending := by rw [effect.frame]

theorem log (effect : SendEffect c d) : d.log = c.log := by rw [effect.frame]

theorem trans (first : SendEffect c d) (second : SendEffect d e) : SendEffect c e := by
  refine ⟨?_, ?_⟩
  · conv_lhs => rw [second.frame, first.frame]
  · rcases second.status with same | aborted | ⟨closed, none⟩
    · rw [same]
      exact first.status
    · exact .inr (.inl aborted)
    · exact .inr (.inr ⟨closed, first.nvmePending.symm.trans none⟩)

theorem of_fields (txSent : Nat) (txPending : Bool) (dataSend : Nat → UInt8) (wire : List UInt8) (pendingRequests : List NvmeReq) :
    SendEffect c { c with
      txSent := txSent, txPending := txPending, dataSend := dataSend, wire := wire, pendingRequests := pendingRequests } :=
  ⟨rfl, .inl rfl⟩

section

variable (effect : SendEffect c d)
include effect

theorem accept (bytes : List UInt8) : SendEffect c (d.accept bytes) :=
  effect.trans (of_fields _ _ _ _ _)

theorem abort : SendEffect c d.abort :=
  effect.trans ⟨rfl, .inr (.inl rfl)⟩

theorem refused : SendEffect c d.refused := by
  unfold PpConn.refused
  split_ifs with none
  · exact effect.trans ⟨rfl, .inr (.inr ⟨rfl, none⟩)⟩
  · exact effect

theorem ready (up : c.status = .established) (ready : Ready env c) : Ready env d := by
  constructor
  intro _ pending
  rw [effect.frame] at pending ⊢
  exact ready.payload up pending

end

end SendEffect

theorem header_loop_effect (answers : List (Option Nat)) (effect : SendEffect c d) :
    SendEffect c (sendLoop offerHeader PpConn.accept answers d).state :=
  (sendLoop_rule (P := SendEffect c) (fun _ bytes effect _ _ => effect.accept bytes) answers effect).1

theorem sendHeader_effect (req : NvmeReq) (answers : List (Option Nat)) (effect : SendEffect c d) :
    SendEffect c (sendHeader req answers d).state := by
  have loaded : SendEffect c { d with dataSend := store d.dataSend 0 (responseHeader req).bytes } :=
    effect.trans (.of_fields _ _ _ _ _)
  have loop := header_loop_effect answers loaded
  simp only [sendHeader]
  split_ifs
  · exact loaded.abort
  · exact loop.trans (.of_fields _ _ _ _ _)
  · exact loop.refused

theorem sendPayload_effect (req : NvmeReq) (answers : List (Option Nat)) (effect : SendEffect c d) :
    SendEffect c (sendPayload env answers (d, req)).state.1 := by
  have loop := (@sendLoop_rule _ _ (offerPage env) acceptPage (fun s => SendEffect c s.1)
    (fun _ bytes effect _ _ => effect.accept bytes) answers (d, req) effect).1
  have finish : ∀ {e : PpConn}, SendEffect c e → SendEffect c e.finish := fun effect => effect.trans (.of_fields _ _ _ _ _)
  simp only [sendPayload]
  split_ifs
  · exact loop.abort
  · exact finish loop
  · exact loop.refused
  · exact finish effect

theorem sendReq_effect (req : NvmeReq) (answers : List (Option Nat)) (effect : SendEffect c d) :
    SendEffect c (sendReq env req answers d).state.1 := by
  have header := sendHeader_effect req answers effect
  simp only [sendReq]
  split_ifs
  · exact sendPayload_effect req answers effect
  · exact sendPayload_effect req _ header
  · exact header

theorem sendPendingReqs_effect (env : Env) (answers : List (Option Nat)) (c : PpConn) :
    SendEffect c (sendPendingReqs env answers c) := by
  have rule := @drain_rule _ _ (sendTop env) (fun _ s => SendEffect c s.1) (fun req _ s effect _ => sendReq_effect req s.2 effect)
    (fun req _ s effect _ => sendReq_effect req s.2 effect) c.pendingRequests (c, answers) (SendEffect.refl c)
  exact rule.trans (.of_fields _ _ _ _ _)

theorem sendHeader_status {req answers} (taken : (sendHeader req answers c).done = true) : (sendHeader req answers c).state.status = c.status := by
  have kept : ∀ d : PpConn, (sendLoop offerHeader PpConn.accept answers d).state.status = d.status := fun d =>
    (@sendLoop_rule _ _ offerHeader PpConn.accept (fun s => s.status = d.status) (fun _ _ same _ _ => same) answers d rfl).1
  simp only [sendHeader] at taken ⊢
  split_ifs at taken ⊢
  exact kept _

theorem sendPayload_status {req answers} (taken : (sendPayload env answers (c, req)).done = true) :
    (sendPayload env answers (c, req)).state.1.status = c.status := by
  have kept := (@sendLoop_rule _ _ (offerPage env) acceptPage (fun s => s.1.status = c.status) (fun _ _ same _ _ => same) answers (c, req) rfl).1
  simp only [sendPayload] at taken ⊢
  split_ifs at taken ⊢
  · exact kept
  · rfl

theorem sendReq_status {req answers} (taken : (sendReq env req answers c).done = true) : (sendReq env req answers c).state.1.status = c.status := by
  simp only [sendReq] at taken ⊢
  split_ifs at taken ⊢ with pending header
  · exact sendPayload_status taken
  · exact (sendPayload_status taken).trans (sendHeader_status header)

/-- Responses that are all taken do not close the connection. -/
theorem sendPendingReqs_status {answers} (taken : (sendPendingReqs env answers c).pendingRequests = []) :
    (sendPendingReqs env answers c).status = c.status := by
  have drained : ∀ (reqs : List NvmeReq) (s : PpConn × List (Option Nat)), (drain (sendTop env) reqs s).1 = [] →
      (drain (sendTop env) reqs s).2.1.status = s.1.status := by
    intro reqs
    induction reqs with
    | nil => exact fun s _ => rfl
    | cons req reqs ih =>
      intro s empty
      rw [drain] at empty ⊢
      split_ifs at empty ⊢ with sent
      exact (ih _ empty).trans (sendReq_status sent)
  exact drained _ _ taken

theorem nvmeRegisteredFlowCb_effect (fgHandle : Int) (answers : List (Option Nat)) (c : PpConn) :
    SendEffect { c with nvmeFgHandle := fgHandle } (nvmeRegisteredFlowCb fgHandle answers c) := by
  have loop := header_loop_effect answers (c := { c with nvmeFgHandle := fgHandle })
    (.of_fields c.txSent c.txPending (store (store (store c.dataSend 0 (leBytes 2 24)) 2 (leBytes 2 cmdReg.toNat)) 20 (leBytes 4 respOk.toNat))
      c.wire c.pendingRequests)
  simp only [nvmeRegisteredFlowCb]
  split_ifs
  · exact loop.trans (.of_fields _ _ _ _ _)
  · exact loop.refused

theorem nvmeRegisteredFlowCb_status (fgHandle : Int) {answers} (all : accepts (headerSize - c.txSent) answers = true) :
    (nvmeRegisteredFlowCb fgHandle answers c).status = c.status := by
  have shrinks : ∀ (d : PpConn) (bytes : List UInt8), bytes <+: offerHeader d →
      (offerHeader (d.accept bytes)).length = (offerHeader d).length - bytes.length := by
    intro d bytes _
    rw [offerHeader, offerHeader, slice_length, slice_length]
    exact Nat.sub_add_eq _ _ _
  simp only [nvmeRegisteredFlowCb]
  generalize loaded : ({ c with nvmeFgHandle := fgHandle, dataSend := _ } : PpConn) = d
  have same : d.status = c.status := by rw [← loaded]
  have done : (sendLoop offerHeader PpConn.accept answers d).done = true := by
    apply sendLoop_done shrinks
    rw [offerHeader, slice_length, ← loaded]
    exact all
  have kept : (sendLoop offerHeader PpConn.accept answers d).state.status = d.status :=
    (@sendLoop_rule _ _ offerHeader PpConn.accept (fun s => s.status = d.status) (fun _ _ same _ _ => same) answers d rfl).1
  rw [if_pos done]
  exact kept.trans same

end Sending

/-! ## Receiving -/

/-- A property that each part of `receive_req` keeps. -/
theorem receiveReq_rule {env : Env} {P : PpConn → Prop} (header : ∀ c bytes, P c → P (storeHeader c bytes))
    (received : ∀ c, P c → P (receivedHeader env c)) (payload : ∀ c bytes, P c → P (storePayload c bytes))
    (dispatched : ∀ c, P c → P (dispatch env c)) (aborted : ∀ c : PpConn, P c → P c.abort) (closed : ∀ c : PpConn, P c → P c.close)
    {c : PpConn} (start : P c) (queue : List (List UInt8)) : P (receiveReq env c queue).1 := by
  have blocks : ∀ fuel c queue, P c → P (receivePayload env fuel c queue).1 := by
    intro fuel
    induction fuel with
    | zero => exact fun c queue start => start
    | succ fuel ih =>
      intro c queue start
      simp only [receivePayload]
      split_ifs
      · exact start
      · exact ih _ _ (payload _ _ start)
      · exact start
  have message : ∀ c, P c → P (receivedPayload env c) := by
    intro c start
    unfold receivedPayload
    split_ifs
    · exact aborted c start
    · exact dispatched c start
  have loop : ∀ fuel c queue, P c → P (receiveLoop env fuel c queue).1 := by
    intro fuel
    induction fuel with
    | zero => exact fun c queue start => start
    | succ fuel ih =>
      intro c queue start
      simp only [receiveLoop]
      split_ifs
      · exact start
      · exact blocks _ _ _ start
      · exact ih _ _ (message _ (blocks _ _ _ start))
      · exact ih _ _ (dispatched _ start)
      · exact closed c start
      · exact start
      · exact header _ _ start
      · exact ih _ _ (received _ (header _ _ start))
  exact loop _ c queue start

/-- A registration is for the flow of the connection, and a request for its handle. -/
def ServerEvent.Of (c : PpConn) : ServerEvent → Prop
  | .registerFlow flowGroupId _ _ _ => flowGroupId = c.connFgHandle
  | .readv fgHandle _ _ | .writev fgHandle _ _ => fgHandle = c.nvmeFgHandle
  | .slot _ | .fill _ => True

/-- `new` was asked of the NVMe layer. -/
structure Asked (c d : PpConn) (new : List ServerEvent) : Prop where
  log : d.log = c.log ++ new
  own : ∀ e ∈ new, e.Of c
  flow : d.connFgHandle = c.connFgHandle
  handle : d.nvmeFgHandle = c.nvmeFgHandle

section Receiving

variable {env : Env} {c d e : PpConn} {new more : List ServerEvent}

namespace Asked

theorem refl (c : PpConn) : Asked c c [] := ⟨(append_nil _).symm, forall_mem_nil _, rfl, rfl⟩

theorem trans (first : Asked c d new) (second : Asked d e more) : Asked c e (new ++ more) where
  log := by rw [second.log, first.log, append_assoc]
  own := by
    refine forall_mem_append.2 ⟨first.own, fun event later => ?_⟩
    have own := second.own event later
    cases event with
    | registerFlow flowGroupId latencyUsSLO iopsSLO rwRatioSLO => exact Eq.trans own first.flow
    | readv fgHandle numSgls req => exact Eq.trans own first.handle
    | writev fgHandle numSgls req => exact Eq.trans own first.handle
    | slot i => trivial
    | fill i => trivial
  flow := second.flow.trans first.flow
  handle := second.handle.trans first.handle

theorem quiet (log : d.log = c.log) (flow : d.connFgHandle = c.connFgHandle) (handle : d.nvmeFgHandle = c.nvmeFgHandle) :
    Asked c d [] where
  log := by rw [log, append_nil]
  own := forall_mem_nil _
  flow := flow
  handle := handle

theorem entry {event} (log : d.log = c.log ++ [event]) (own : event.Of c) (flow : d.connFgHandle = c.connFgHandle)
    (handle : d.nvmeFgHandle = c.nvmeFgHandle) : Asked c d [event] where
  log := log
  own := forall_mem_singleton.2 own
  flow := flow
  handle := handle

theorem of_send (effect : SendEffect c d) : Asked c d [] := by
  rw [effect.frame]
  exact .quiet rfl rfl rfl

end Asked

theorem allocBufs_asked (supply : Nat → Option (Nat → UInt8)) (n i : Nat) (c : PpConn) :
    ∃ new, Asked c (allocBufs supply n i c) new := by
  induction n generalizing i c with
  | zero => exact ⟨[], .refl c⟩
  | succ n ih =>
    rw [allocBufs]
    cases supply i with
    | none => exact ⟨[], .quiet rfl rfl rfl⟩
    | some page =>
      obtain ⟨new, rest⟩ := ih (i + 1) { c with
        currentReq := { c.currentReq with buf := Function.update c.currentReq.buf i page }, log := c.log ++ [.slot i] }
      have slot : Asked c { c with
          currentReq := { c.currentReq with buf := Function.update c.currentReq.buf i page }, log := c.log ++ [.slot i] } [.slot i] :=
        .entry rfl trivial rfl rfl
      exact ⟨_, slot.trans rest⟩

theorem receivedHeader_asked (env : Env) (c : PpConn) : ∃ new, Asked c (receivedHeader env c) new := by
  have start : Asked c (startRequest c) [] := .quiet rfl rfl rfl
  unfold receivedHeader
  cases env.alloc c.allocs with
  | none =>
    simp only
    split_ifs
    · exact ⟨[], .quiet rfl rfl rfl⟩
    · exact ⟨_, .entry rfl rfl rfl rfl⟩
    · exact ⟨[], .refl c⟩
  | some supply =>
    obtain ⟨new, pages⟩ := allocBufs_asked supply (num4k env c.header.lbaCount).toNat 0 (startRequest c)
    have all := start.trans pages
    simp only [startPayload]
    split_ifs
    · exact ⟨[], .quiet rfl rfl rfl⟩
    · exact ⟨_, .entry rfl rfl rfl rfl⟩
    · exact ⟨_, start.trans (.quiet rfl rfl rfl)⟩
    · exact ⟨_, all⟩
    · exact ⟨_, all.trans (.quiet rfl rfl rfl)⟩

theorem storePayload_asked (c : PpConn) (bytes : List UInt8) : ∃ new, Asked c (storePayload c bytes) new := by
  by_cases first : c.rxReceived % pageSize = 0
  · exact ⟨_, .entry (if_pos first) trivial rfl rfl⟩
  · exact ⟨[], .quiet (if_neg first) rfl rfl⟩

theorem dispatch_asked (env : Env) (c : PpConn) : ∃ new, Asked c (dispatch env c) new := by
  unfold dispatch
  split_ifs
  · exact ⟨[], .quiet rfl rfl rfl⟩
  · have own : (submission env c).Of c := by
      unfold submission
      split_ifs <;> rfl
    exact ⟨[submission env c], rfl, forall_mem_singleton.2 own, rfl, rfl⟩

theorem receiveReq_asked (env : Env) (c : PpConn) (queue : List (List UInt8)) :
    ∃ new, Asked c (receiveReq env c queue).1 new := by
  have after : ∀ {f : PpConn → PpConn}, (∀ d, ∃ more, Asked d (f d) more) →
      ∀ d, (∃ new, Asked c d new) → ∃ new, Asked c (f d) new := by
    intro f part d effect
    obtain ⟨new, first⟩ := effect
    obtain ⟨more, second⟩ := part d
    exact ⟨_, first.trans second⟩
  have quiet : ∀ {f : PpConn → PpConn}, (∀ d, Asked d (f d) []) → ∀ d, (∃ new, Asked c d new) → ∃ new, Asked c (f d) new :=
    fun part => after fun d => ⟨[], part d⟩
  refine receiveReq_rule (P := fun d => ∃ new, Asked c d new) ?_ ?_ ?_ ?_ ?_ ?_ ?_ queue
  · exact fun d bytes => quiet (f := fun d => storeHeader d bytes) (fun d => .quiet rfl rfl rfl) d
  · exact after (receivedHeader_asked env)
  · exact fun d bytes => after (fun d => storePayload_asked d bytes) d
  · exact after (dispatch_asked env)
  · exact quiet fun d => .quiet rfl rfl rfl
  · exact quiet fun d => .quiet rfl rfl rfl
  · exact ⟨[], .refl c⟩

end Receiving

end Reflex.Server
