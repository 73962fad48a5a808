import Reflex.Tcp.Handles

/-!
# Who gets the result of a batched call

The event library puts calls of its contexts into a batch; `bsys_dispatch` executes them and writes into each
descriptor the result and the core's `syscall_cookie`, and `ixev_handle_one_ret` takes the cookie for the context that
the result belongs to. The variable is set by `bsys_tcp_connect`, and by `handle_to_tcpapi` when it finds an object.

A context is a number, its address. A batch goes through three stages: calls join it, the kernel executes them in order,
and their returns are handled in order.
-/

namespace Reflex.Tcp
open Lib

/-- The fields of `struct ixev_ctx` that the handlers of returns change: `send` has the lengths of the entries. -/
structure BatchCtx where
  handle : Nat
  isDead : Bool
  send : List Nat
  released : Bool
deriving DecidableEq, Repr

/-- The calls that the event library makes for a context. -/
inductive BatchCall where
  | connect
  | accept (handle : Nat)
  | sendv (handle : Nat)
  | recvDone (handle len : Nat)
  | close (handle : Nat)
deriving DecidableEq, Repr

/-- A descriptor, with the context that put it into the batch. -/
structure BatchDesc where
  issuer : Nat
  call : BatchCall
deriving DecidableEq, Repr

structure BatchRet where
  issuer : Nat
  call : BatchCall
  cookie : Nat
  ret : Int
deriving DecidableEq, Repr

/-- The loop of `ixev_handle_sendv_ret` and `ixev_shift_sends`. -/
def shiftSends : Nat → List Nat → List Nat
  | _, [] => []
  | ret, len :: send => if ret < len then (len - ret) :: send else shiftSends (ret - len) send

/-- `ixev_handle_one_ret` on the context that the cookie names. -/
def BatchCtx.handleOneRet (ctx : BatchCtx) (ret : Int) : BatchCall → BatchCtx
  | .connect => { ctx with handle := wofInt 64 ret }
  | .sendv _ => if ret < 0 then { ctx with isDead := true } else { ctx with send := shiftSends ret.toNat ctx.send }
  | .close _ => if ret < 0 then ctx else { ctx with released := true }
  | .accept _ | .recvDone _ _ => ctx

/-- Any other call that fails ends the process. -/
def BatchRet.fatal (r : BatchRet) : Bool :=
  match r.call with
  | .accept _ | .recvDone _ _ => r.ret ≠ 0
  | _ => false

structure Batch where
  core : Core
  ctxs : Nat → BatchCtx
  karr : List BatchDesc
  kernel : Bool
  rets : List BatchRet
  exited : Bool
  /-- every return so far -/
  answered : List BatchRet

inductive BatchStep where
  /-- a call on the handle that the context has -/
  | connect (ctx : Nat)
  | sendv (ctx : Nat)
  | recvDone (ctx len : Nat)
  | close (ctx : Nat)
  /-- an entry joins the send array -/
  | append (ctx len : Nat)
  /-- `ixev_tcp_knock` with the context that the application chose -/
  | knock (ctx handle : Nat)
  | poll
  /-- the kernel executes the next call -/
  | dispatch (attempt : Attempt) (sent : Nat)
  /-- the stack accepts a connection -/
  | arrive (api fg : Nat)
  | leave
  | handleRet

namespace Batch

def enqueue (s : Batch) (issuer : Nat) (call : BatchCall) : Batch := { s with karr := s.karr ++ [⟨issuer, call⟩] }

/-- A system call, with what the stack makes of it. -/
def execute (core : Core) (d : BatchDesc) (attempt : Attempt) (sent : Nat) : Int × Core :=
  match d.call with
  | .connect => core.bsysTcpConnect d.issuer attempt
  | .accept handle => core.call handle (.accept d.issuer)
  | .sendv handle => core.call handle (.sendv sent)
  | .recvDone handle len => core.call handle (.recvDone len)
  | .close handle => core.call handle .close

/-- `bsys_dispatch_one`. -/
def dispatchOne (s : Batch) (attempt : Attempt) (sent : Nat) : Batch :=
  match s.karr with
  | [] => s
  | d :: karr =>
    let result := execute s.core d attempt sent
    let r : BatchRet := ⟨d.issuer, d.call, result.2.syscallCookie, result.1⟩
    { s with core := result.2, karr := karr, rets := s.rets ++ [r], answered := s.answered ++ [r] }

/-- `ixev_handle_one_ret`. -/
def handleOneRet (s : Batch) : Batch :=
  match s.rets with
  | [] => s
  | r :: rets =>
    { s with
      rets := rets
      exited := r.fatal
      ctxs := Function.update s.ctxs r.cookie ((s.ctxs r.cookie).handleOneRet r.ret r.call) }

def next (s : Batch) : BatchStep → Batch
  | .connect ctx => s.enqueue ctx .connect
  | .sendv ctx => s.enqueue ctx (.sendv (s.ctxs ctx).handle)
  | .recvDone ctx len => s.enqueue ctx (.recvDone (s.ctxs ctx).handle len)
  | .close ctx => s.enqueue ctx (.close (s.ctxs ctx).handle)
  | .append ctx len =>
    { s with ctxs := Function.update s.ctxs ctx { s.ctxs ctx with send := (s.ctxs ctx).send ++ [len] } }
  | .knock ctx handle =>
    enqueue { s with ctxs := Function.update s.ctxs ctx { s.ctxs ctx with handle := handle } } ctx (.accept handle)
  | .poll => { s with kernel := true }
  | .dispatch attempt sent => s.dispatchOne attempt sent
  | .arrive api fg => { s with core := s.core.onAccept api fg }
  | .leave => { s with kernel := false }
  | .handleRet => s.handleOneRet

/-- A place of the array is free: `tcpapi_to_handle` asserts it. -/
def HasPlace (core : Core) : Prop := ∃ i < maxPcbs, core.handle2pcb i = none

def Valid (s : Batch) (step : BatchStep) : Prop :=
  s.exited = false ∧ s.core.faulted = false ∧
    match step with
    | .dispatch _ _ => s.kernel = true ∧ s.karr ≠ [] ∧ HasPlace s.core
    | .arrive _ _ => s.kernel = true ∧ s.karr = [] ∧ HasPlace s.core
    | .leave => s.kernel = true ∧ s.karr = []
    | .handleRet => s.kernel = false ∧ s.rets ≠ []
    | .knock _ handle => s.kernel = false ∧ s.rets = [] ∧ Usys.knock handle ∈ s.core.usys
    | _ => s.kernel = false ∧ s.rets = []

def boot (apis : Nat → TcpapiPcb) (ctxs : Nat → BatchCtx) : Batch where
  core := { apis := apis, handle2pcb := fun _ => none, syscallCookie := 0, usys := [], faulted := false }
  ctxs := ctxs
  karr := []
  kernel := false
  rets := []
  exited := false
  answered := []

end Batch

/-- Returns of calls that the library handles for a context. -/
def BatchCall.answers : BatchCall → Bool
  | .accept _ => false
  | _ => true

/-- A return is handled for the context that made the call. -/
def BatchRet.Home (r : BatchRet) : Prop := r.call.answers = true → r.cookie = r.issuer

instance (r : BatchRet) : Decidable r.Home := inferInstanceAs (Decidable (_ → _))

/-! ## What a call leaves behind -/

variable {s : Core}

/-- The cookie of the connection at each place of the array. -/
def Core.owner (core : Core) (i : Nat) : Option Nat := (core.handle2pcb i).map fun api => (core.apis api).cookie

theorem tcpapiToHandle_places (place : Batch.HasPlace s) (fg api : Nat) :
    ∃ j < maxPcbs, s.owner j = none ∧
      s.tcpapiToHandle fg api = (j + fg * 2 ^ 48, { s with handle2pcb := Function.update s.handle2pcb j (some api) }) := by
  unfold Core.tcpapiToHandle
  cases found : search (fun i => (s.handle2pcb i).isNone) maxPcbs with
  | none =>
    obtain ⟨i, below, empty⟩ := place
    have missed := search_none found below
    rw [empty] at missed
    cases missed
  | some j =>
    obtain ⟨empty, below⟩ := search_some found
    exact ⟨j, below, by simp [Core.owner, Option.isNone_iff_eq_none.1 empty], rfl⟩

theorem tcpapiToHandle_running {fg api} (place : Batch.HasPlace s) :
    (s.tcpapiToHandle fg api).2.faulted = s.faulted ∧ (s.tcpapiToHandle fg api).2.syscallCookie = s.syscallCookie := by
  obtain ⟨j, -, -, placed⟩ := tcpapiToHandle_places place fg api
  rw [placed]
  exact ⟨rfl, rfl⟩

namespace Batch

/-- Every call has come back to the context that made it. -/
def AllHome (s : Batch) : Prop := s.core.faulted = false ∧ ∀ r ∈ s.answered, r.Home

instance (s : Batch) : Decidable s.AllHome := inferInstanceAs (Decidable (_ ∧ _))

/-- The steps of a core whose last place is never taken, for runs that are given in full. -/
def admits (s : Batch) (step : BatchStep) : Bool :=
  !s.exited && !s.core.faulted &&
    match step with
    | .dispatch _ _ => s.kernel && !s.karr.isEmpty && (s.core.handle2pcb (maxPcbs - 1)).isNone
    | .arrive _ _ => s.kernel && s.karr.isEmpty && (s.core.handle2pcb (maxPcbs - 1)).isNone
    | .leave => s.kernel && s.karr.isEmpty
    | .handleRet => !s.kernel && !s.rets.isEmpty
    | .knock _ handle => !s.kernel && s.rets.isEmpty && decide (Usys.knock handle ∈ s.core.usys)
    | _ => !s.kernel && s.rets.isEmpty

theorem admits_valid (s : Batch) (step : BatchStep) (admits : s.admits step = true) : s.Valid step ∧ True := by
  obtain ⟨runs, rules⟩ := (Bool.and_eq_true _ _).mp admits
  rw [Bool.and_eq_true, Bool.not_eq_true', Bool.not_eq_true'] at runs
  refine ⟨⟨runs.1, runs.2, ?_⟩, trivial⟩
  have last : maxPcbs - 1 < maxPcbs := by decide
  cases step <;> simp only [Bool.and_eq_true, Bool.not_eq_true', List.isEmpty_iff, List.isEmpty_eq_false_iff,
    Option.isNone_iff_eq_none, decide_eq_true_eq] at rules
  case dispatch | arrive => exact ⟨rules.1.1, rules.1.2, _, last, rules.2⟩
  case knock => exact ⟨rules.1.1, rules.1.2, rules.2⟩
  all_goals exact rules

/-! ## Who has which connection -/

end Batch

/-- The pool hands out an object that no place of the array refers to, and the flow group exists. -/
def Attempt.Fresh (core : Core) : Attempt → Prop
  | .noGroup | .noMemory => True
  | .refused api fg | .started api fg => (∀ i, core.handle2pcb i ≠ some api) ∧ fg < ethMaxTotalFg + ncpu

/-- An object that no place refers to takes place `j`. -/
theorem owner_placed {core : Core} {api j cookie : Nat} (distinct : Distinct s.handle2pcb) (fresh : ∀ i, s.handle2pcb i ≠ some api)
    (places : core.handle2pcb = Function.update s.handle2pcb j (some api)) (apis : ∀ a, a ≠ api → core.apis a = s.apis a)
    (own : (core.apis api).cookie = cookie) :
    Distinct core.handle2pcb ∧ core.owner = Function.update s.owner j (some cookie) := by
  refine ⟨places ▸ Table.distinct_insert distinct fresh, funext fun i => ?_⟩
  rcases eq_or_ne i j with rfl | other
  · simp [Core.owner, places, own]
  · rw [Function.update_of_ne other, Core.owner, Core.owner, places, Function.update_of_ne other]
    cases there : s.handle2pcb i with
    | none => rfl
    | some a => rw [Option.map_some, Option.map_some, apis a fun same => fresh i (same ▸ there)]

theorem onAccept_owner {api} (fg : Nat) (place : Batch.HasPlace s) (distinct : Distinct s.handle2pcb)
    (fresh : ∀ i, s.handle2pcb i ≠ some api) :
    ∃ j < maxPcbs, s.owner j = none ∧
      (Distinct (s.onAccept api fg).handle2pcb ∧ (s.onAccept api fg).owner = Function.update s.owner j (some 0)) ∧
      ((s.onAccept api fg).apis api).handle = j + fg * 2 ^ 48 := by
  obtain ⟨j, below, free, placed⟩ := tcpapiToHandle_places place fg api
  refine ⟨j, below, free, owner_placed distinct fresh ?_ (fun a other => ?_) ?_, ?_⟩ <;>
    simp only [Core.onAccept, placed, Core.setApi, Core.post]
  · rw [Function.update_of_ne other]
  · rw [Function.update_self]
  · rw [Function.update_self]

/-- A dial leaves the places alone and fails, or takes a free one for the context; then it fails or returns the handle. -/
theorem connect_owner {cookie : Nat} {attempt : Attempt} {ret : Int} {core : Core} (place : Batch.HasPlace s)
    (distinct : Distinct s.handle2pcb) (fresh : attempt.Fresh s) (result : s.bsysTcpConnect cookie attempt = (ret, core)) :
    (core.faulted = s.faulted ∧ core.syscallCookie = cookie) ∧ (ret < 0 ∧ Distinct core.handle2pcb ∧ core.owner = s.owner ∨
      ∃ j fg, j < maxPcbs ∧ fg < ethMaxTotalFg + ncpu ∧ s.owner j = none ∧
        (Distinct core.handle2pcb ∧ core.owner = Function.update s.owner j (some cookie)) ∧
        (ret < 0 ∨ ret = ((j + fg * 2 ^ 48 : Nat) : Int))) := by
  have place := @tcpapiToHandle_places { s with syscallCookie := cookie } place
  cases attempt with
  | noGroup | noMemory =>
    cases result
    exact ⟨⟨rfl, rfl⟩, .inl ⟨by decide, distinct, rfl⟩⟩
  | refused api fg =>
    obtain ⟨j, below, free, placed⟩ := place fg api
    simp only [Core.bsysTcpConnect, placed, Core.setApi, Core.onErr, Core.markDead, Core.post] at result
    cases result
    refine ⟨⟨rfl, rfl⟩, .inr ⟨j, fg, below, fresh.2, free, owner_placed distinct fresh.1 rfl (fun a other => ?_) ?_, .inl (by decide)⟩⟩
    · simp only [Function.update_of_ne other]
    · simp only [Function.update_self, dialed]
  | started api fg =>
    obtain ⟨j, below, free, placed⟩ := place fg api
    simp only [Core.bsysTcpConnect, placed, Core.setApi] at result
    cases result
    refine ⟨⟨rfl, rfl⟩, .inr ⟨j, fg, below, fresh.2, free, owner_placed distinct fresh.1 rfl (fun a other => ?_) ?_, .inr rfl⟩⟩
    · simp only [Function.update_of_ne other]
    · simp only [Function.update_self, dialed]

/-- What a call on a connection makes of its owner. -/
def HandleCall.leaves (o : Option Nat) : HandleCall → Option Nat
  | .accept cookie => some cookie
  | .sendv _ | .recvDone _ => o
  | .close => none

theorem call_owner {handle api} (distinct : Distinct s.handle2pcb) (formed : ¬ Malformed handle)
    (there : s.handle2pcb (handleIdx handle) = some api) (call : HandleCall) :
    Distinct (s.call handle call).2.handle2pcb ∧
      (s.call handle call).2.owner = Function.update s.owner (handleIdx handle) (call.leaves (s.owner (handleIdx handle))) := by
  have cookies : ∀ p : TcpapiPcb, (fun i => (s.handle2pcb i).map fun a => (Function.update s.apis api p a).cookie) =
      Function.update s.owner (handleIdx handle) (some p.cookie) := by
    intro p
    funext i
    rcases eq_or_ne i (handleIdx handle) with rfl | other
    · simp [there]
    · rw [Function.update_of_ne other, Core.owner]
      cases here : s.handle2pcb i with
      | none => rfl
      | some a =>
        have away : a ≠ api := fun same => other (distinct i _ api (same ▸ here) there)
        simp [away]
  have own : s.owner (handleIdx handle) = some (s.apis api).cookie := by simp [Core.owner, there]
  cases call with
  | accept cookie =>
    refine ⟨?_, ?_⟩
    · rw [call_handle2pcb (by simp)]
      exact distinct
    · simp only [Core.call, Core.bsysTcpAccept, handleToTcpapi_some formed there, Core.setApi, Core.post, HandleCall.leaves]
      exact cookies _
  | sendv sent =>
    refine ⟨?_, ?_⟩
    · rw [call_handle2pcb (by simp)]
      exact distinct
    · simp only [Core.call, Core.bsysTcpSendv, handleToTcpapi_some formed there, HandleCall.leaves, Function.update_eq_self]
      rfl
  | recvDone len =>
    refine ⟨?_, ?_⟩
    · rw [call_handle2pcb (by simp)]
      exact distinct
    · simp only [Core.call, Core.bsysTcpRecvDone, handleToTcpapi_some formed there, Core.setApi, HandleCall.leaves]
      rw [own]
      exact cookies _
  | close =>
    rw [close_found distinct formed there]
    refine ⟨fun i j a here also => ?_, ?_⟩
    · simp only [Function.update_apply] at here also
      split_ifs at here also
      exact distinct i j a here also
    · funext i
      rcases eq_or_ne i (handleIdx handle) with rfl | other
      · simp [Core.owner, HandleCall.leaves]
      · simp [Core.owner, other]

def BatchCall.handle : BatchCall → Option Nat
  | .connect => none
  | .accept handle | .sendv handle | .recvDone handle _ | .close handle => some handle

/-- What a call of the batch makes of the owner of its place. The place must be the caller's, or wait to be accepted. -/
def BatchDesc.turn (o : Option Nat) (d : BatchDesc) : Option (Option Nat) :=
  match d.call with
  | .connect => some o
  | .accept _ => if o = some 0 then some (some d.issuer) else none
  | .sendv _ | .recvDone _ _ => if o = some d.issuer then some o else none
  | .close _ => if o = some d.issuer then some none else none

namespace Batch

/-- The owner of place `i` when the batch is done, if every call on it finds the place as it must. -/
def fate (core : Core) (karr : List BatchDesc) (i : Nat) : Option (Option Nat) :=
  (karr.filter fun d => d.call.handle.map handleIdx = some i).foldlM BatchDesc.turn (core.owner i)

/-- The handle is that of a connection that is the context's when the batch is done. -/
def Belongs (s : Batch) (handle ctx : Nat) : Prop := ¬ Malformed handle ∧ fate s.core s.karr (handleIdx handle) = some (some ctx)

/-- What the application knows: the contexts that have a connection, and the connections that wait to be accepted. -/
structure Watch where
  opened : Nat → Bool
  waiting : List Nat

/-- A context has a connection from the return of a dial or the accept of a connection up to its next dial or close. -/
def Watch.next (w : Watch) (s : Batch) : BatchStep → Watch
  | .connect ctx | .close ctx => { w with opened := Function.update w.opened ctx false }
  | .knock ctx handle => ⟨Function.update w.opened ctx true, w.waiting.erase handle⟩
  | .arrive api fg => { w with waiting := ((s.core.onAccept api fg).apis api).handle :: w.waiting }
  | .handleRet =>
    match s.rets with
    | ⟨issuer, .connect, _, ret⟩ :: _ => { w with opened := Function.update w.opened issuer (decide (0 ≤ ret)) }
    | _ => w
  | _ => w

/-- A context, whose address is not null, sends, receives and closes only while it has a connection, and accepts a
connection that nobody has accepted. The pools hand out free objects. -/
def Watch.Allows (w : Watch) (s : Batch) : BatchStep → Prop
  | .connect ctx => ctx ≠ 0
  | .knock ctx handle => ctx ≠ 0 ∧ handle ∈ w.waiting
  | .sendv ctx | .recvDone ctx _ | .close ctx => w.opened ctx = true
  | .dispatch attempt _ => attempt.Fresh s.core
  | .arrive api fg => (Attempt.started api fg).Fresh s.core
  | _ => True

/-- The steps of the library and the kernel, with what the application knows. -/
def watch (a : Batch × Watch) (step : BatchStep) : Batch × Watch := (a.1.next step, a.2.next a.1 step)

def WatchStep : Batch × Watch → BatchStep → Batch × Watch → Prop :=
  Guarded (Applies watch fun a step => a.1.Valid step) fun a step => a.2.Allows a.1 step

/-- Everyone's connection is at the place that the handle names, also when the calls of the batch are done. -/
structure Tidy (a : Batch × Watch) : Prop where
  home : AllHome a.1
  back : ∀ r ∈ a.1.rets, r.Home
  distinct : Distinct a.1.core.handle2pcb
  batch : ∀ i, (fate a.1.core a.1.karr i).isSome = true
  formed : ∀ d ∈ a.1.karr, ∀ handle ∈ d.call.handle, ¬ Malformed handle
  dialing : ∀ d ∈ a.1.karr, d.call = .connect → d.issuer ≠ 0
  opens : ∀ ctx, a.2.opened ctx = true → ctx ≠ 0 ∧ a.1.Belongs (a.1.ctxs ctx).handle ctx
  dialed : ∀ r ∈ a.1.rets, r.call = .connect → 0 ≤ r.ret → r.issuer ≠ 0 ∧ a.1.Belongs (wofInt 64 r.ret) r.issuer
  waits : ∀ handle ∈ a.2.waiting, a.1.Belongs handle 0
  apart : (a.2.waiting.map handleIdx).Nodup

theorem turn_none {d : BatchDesc} (calls : d.call.handle ≠ none) : d.turn none = none := by
  obtain ⟨issuer, call⟩ := d
  cases call <;> simp_all [BatchDesc.turn, BatchCall.handle]

/-- No call of the batch is on a free place. -/
theorem fate_free {core : Core} {karr : List BatchDesc} {i : Nat} (free : core.owner i = none) (batch : (fate core karr i).isSome = true) :
    (karr.filter fun d => d.call.handle.map handleIdx = some i) = [] ∧ fate core karr i = some none := by
  cases calls : karr.filter fun d => d.call.handle.map handleIdx = some i with
  | nil =>
    rw [fate, calls, free]
    exact ⟨rfl, rfl⟩
  | cons d rest =>
    have here : d ∈ karr.filter fun d => d.call.handle.map handleIdx = some i := calls ▸ List.mem_cons_self
    have place := of_decide_eq_true (List.mem_filter.1 here).2
    rw [fate, calls, free, List.foldlM_cons, turn_none fun none => by simp [none] at place] at batch
    cases batch

/-- A connection on a place that was free. -/
theorem fate_placed {core core' : Core} {karr : List BatchDesc} {j cookie : Nat} (free : core.owner j = none)
    (placed : core'.owner = Function.update core.owner j (some cookie)) (batch : ∀ i, (fate core karr i).isSome = true) :
    fate core' karr j = some (some cookie) ∧ ∀ i ≠ j, fate core' karr i = fate core karr i := by
  refine ⟨?_, fun i other => ?_⟩
  · rw [fate, (fate_free free (batch j)).1, placed, Function.update_self]
    rfl
  · rw [fate, fate, placed, Function.update_of_ne other]

theorem fate_joined (core : Core) (karr : List BatchDesc) (d : BatchDesc) (i : Nat) :
    fate core (karr ++ [d]) i = if d.call.handle.map handleIdx = some i then (fate core karr i).bind fun o => d.turn o else fate core karr i := by
  unfold fate
  rw [List.filter_append, List.foldlM_append]
  split_ifs with here
  · rw [List.filter_cons_of_pos (by simpa using here), List.filter_nil]
    simp
  · rw [List.filter_cons_of_neg (by simpa using here), List.filter_nil]
    simp

theorem Tidy.boot (apis : Nat → TcpapiPcb) (ctxs : Nat → BatchCtx) : Tidy (Batch.boot apis ctxs, ⟨fun _ => false, []⟩) where
  home := ⟨rfl, List.forall_mem_nil _⟩
  back := List.forall_mem_nil _
  distinct _ _ _ here := nomatch here
  batch _ := rfl
  formed := List.forall_mem_nil _
  dialing := List.forall_mem_nil _
  opens _ never := nomatch never
  dialed := List.forall_mem_nil _
  waits := List.forall_mem_nil _
  apart := List.nodup_nil

section Steps

variable {s : Batch} {w : Watch}

/-- The calls of a core that has other objects with the same owners. -/
theorem fate_congr {core core' : Core} (same : core'.owner = core.owner) (karr : List BatchDesc) : fate core' karr = fate core karr := by
  funext i
  rw [fate, fate, same]

theorem Tidy.forget (tidy : Tidy (s, w)) (ctx : Nat) : Tidy (s, { w with opened := Function.update w.opened ctx false }) where
  home := tidy.home
  back := tidy.back
  distinct := tidy.distinct
  batch := tidy.batch
  formed := tidy.formed
  dialing := tidy.dialing
  dialed := tidy.dialed
  waits := tidy.waits
  apart := tidy.apart
  opens c opened := by
    refine tidy.opens c ?_
    simp only [Function.update_apply] at opened
    split_ifs at opened
    exact opened

/-- A call that changes nobody's place joins the batch. -/
theorem Tidy.joined (tidy : Tidy (s, w)) {d : BatchDesc} (same : ∀ i, fate s.core (s.karr ++ [d]) i = fate s.core s.karr i)
    (formed : ∀ handle ∈ d.call.handle, ¬ Malformed handle) (dialing : d.call = .connect → d.issuer ≠ 0) :
    Tidy (s.enqueue d.issuer d.call, w) where
  home := tidy.home
  back := tidy.back
  distinct := tidy.distinct
  batch i := (congrArg Option.isSome (same i)).trans (tidy.batch i)
  formed := List.forall_mem_append.2 ⟨tidy.formed, List.forall_mem_singleton.2 formed⟩
  dialing := List.forall_mem_append.2 ⟨tidy.dialing, List.forall_mem_singleton.2 dialing⟩
  opens c opened := ⟨(tidy.opens c opened).1, (tidy.opens c opened).2.1, (same _).trans (tidy.opens c opened).2.2⟩
  dialed r mem connect success := by
    obtain ⟨real, formed, fate⟩ := tidy.dialed r mem connect success
    exact ⟨real, formed, (same _).trans fate⟩
  waits h mem := ⟨(tidy.waits h mem).1, (same _).trans (tidy.waits h mem).2⟩
  apart := tidy.apart

theorem Tidy.uses (tidy : Tidy (s, w)) {ctx : Nat} (opened : w.opened ctx = true) {call : BatchCall}
    (calls : call.handle = some (s.ctxs ctx).handle) (keeps : BatchDesc.turn (some ctx) ⟨ctx, call⟩ = some (some ctx)) :
    Tidy (s.enqueue ctx call, w) := by
  obtain ⟨-, formed, own⟩ := tidy.opens ctx opened
  refine tidy.joined (d := ⟨ctx, call⟩) (fun i => ?_) (fun handle mem => ?_) fun connect => ?_
  · rw [fate_joined, calls]
    split_ifs with here
    · obtain rfl := Option.some.inj here
      rw [own]
      exact keeps
    · rfl
  · rw [calls] at mem
    obtain rfl := Option.some.inj mem
    exact formed
  · rw [show call = .connect from connect] at calls
    cases calls

/-- A context gives up its connection, or gets one that waits: place `i` goes from `o` to `o'`. -/
theorem fate_moves {d : BatchDesc} {handle : Nat} {o o' : Option Nat} (calls : d.call.handle = some handle)
    (before : fate s.core s.karr (handleIdx handle) = some o) (turn : d.turn o = some o') (i : Nat) :
    fate s.core (s.karr ++ [d]) i = if i = handleIdx handle then some o' else fate s.core s.karr i := by
  rw [fate_joined, calls, Option.map_some]
  by_cases here : i = handleIdx handle
  · rw [if_pos (congrArg some here.symm), if_pos here, here, before]
    exact turn
  · rw [if_neg fun same => here (Option.some.inj same).symm, if_neg here]

theorem Tidy.closes (tidy : Tidy (s, w)) (idle : s.rets = []) {ctx : Nat} (opened : w.opened ctx = true) :
    Tidy (s.enqueue ctx (.close (s.ctxs ctx).handle), { w with opened := Function.update w.opened ctx false }) := by
  obtain ⟨real, formed, own⟩ := tidy.opens ctx opened
  have fates := fate_moves (s := s) (d := ⟨ctx, .close (s.ctxs ctx).handle⟩) rfl own (if_pos rfl)
  have away : ∀ {handle c}, s.Belongs handle c → c ≠ ctx → Belongs (s.enqueue ctx (.close (s.ctxs ctx).handle)) handle c := by
    intro handle c belongs other
    refine ⟨belongs.1, (fates _).trans ?_⟩
    rw [if_neg fun same => ?_]
    · exact belongs.2
    · have place := belongs.2
      rw [same] at place
      exact other (Option.some.inj (Option.some.inj (place.symm.trans own)))
  refine ⟨tidy.home, tidy.back, tidy.distinct, fun i => ?_, ?_, ?_, fun c still => ?_, ?_, fun handle mem => ?_, tidy.apart⟩
  · refine (congrArg Option.isSome (fates i)).trans ?_
    split_ifs
    · rfl
    · exact tidy.batch i
  · refine List.forall_mem_append.2 ⟨tidy.formed, List.forall_mem_singleton.2 fun handle mem => ?_⟩
    obtain rfl := Option.some.inj mem
    exact formed
  · exact List.forall_mem_append.2 ⟨tidy.dialing, List.forall_mem_singleton.2 fun impossible => nomatch impossible⟩
  · simp only [Function.update_apply] at still
    split_ifs at still with same
    exact ⟨(tidy.opens c still).1, away (tidy.opens c still).2 same⟩
  · intro r mem
    rw [show (s.enqueue ctx (.close (s.ctxs ctx).handle)).rets = [] from idle] at mem
    cases mem
  · exact away (tidy.waits handle mem) real.symm

theorem Tidy.accepts (tidy : Tidy (s, w)) (idle : s.rets = []) {ctx handle : Nat} (real : ctx ≠ 0) (waiting : handle ∈ w.waiting) :
    Tidy (s.next (.knock ctx handle), w.next s (.knock ctx handle)) := by
  obtain ⟨formed, own⟩ := tidy.waits handle waiting
  have fates := fate_moves (s := s) (d := ⟨ctx, .accept handle⟩) rfl own
    (show BatchDesc.turn (some 0) ⟨ctx, .accept handle⟩ = some (some ctx) by simp [BatchDesc.turn])
  have away : ∀ {h c}, s.Belongs h c → handleIdx h ≠ handleIdx handle → Belongs (s.next (.knock ctx handle)) h c := by
    intro h c belongs other
    exact ⟨belongs.1, (fates _).trans ((if_neg other).trans belongs.2)⟩
  have perm := (List.perm_cons_erase waiting).map handleIdx
  have others := List.nodup_cons.1 (perm.nodup_iff.1 tidy.apart)
  refine ⟨tidy.home, tidy.back, tidy.distinct, fun i => ?_, ?_, ?_, fun c still => ?_, ?_, fun h mem => ?_, others.2⟩
  · refine (congrArg Option.isSome (fates i)).trans ?_
    split_ifs
    · rfl
    · exact tidy.batch i
  · refine List.forall_mem_append.2 ⟨tidy.formed, List.forall_mem_singleton.2 fun h mem => ?_⟩
    obtain rfl := Option.some.inj mem
    exact formed
  · exact List.forall_mem_append.2 ⟨tidy.dialing, List.forall_mem_singleton.2 fun impossible => nomatch impossible⟩
  · by_cases same : c = ctx
    · subst same
      refine ⟨real, ?_⟩
      simp only [Batch.next, enqueue, Function.update_self]
      exact ⟨formed, (fates _).trans (if_pos rfl)⟩
    · simp only [Watch.next, Function.update_of_ne same] at still
      obtain ⟨nonzero, belongs⟩ := tidy.opens c still
      refine ⟨nonzero, ?_⟩
      simp only [Batch.next, enqueue, Function.update_of_ne same]
      refine away belongs fun place => ?_
      have here := belongs.2
      rw [place] at here
      exact nonzero (Option.some.inj (Option.some.inj (here.symm.trans own)))
  · intro r mem
    rw [show (s.next (.knock ctx handle)).rets = [] from idle] at mem
    cases mem
  · refine away (tidy.waits h (List.mem_of_mem_erase mem)) fun place => others.1 ?_
    rw [← place]
    exact List.mem_map_of_mem mem

/-- A connection takes a free place. -/
theorem Belongs.placed {t : Batch} {j cookie handle c : Nat} (free : s.core.owner j = none) (batch : ∀ i, (fate s.core t.karr i).isSome = true)
    (placed : t.core.owner = Function.update s.core.owner j (some cookie)) (formed : ¬ Malformed handle)
    (before : fate s.core t.karr (handleIdx handle) = some (some c)) : t.Belongs handle c := by
  refine ⟨formed, ((fate_placed free placed batch).2 _ fun here => ?_).trans before⟩
  rw [here, (fate_free free (batch j)).2] at before
  cases before

theorem Tidy.arrives (tidy : Tidy (s, w)) {api fg : Nat} (place : HasPlace s.core) (fresh : (Attempt.started api fg).Fresh s.core) :
    Tidy (s.next (.arrive api fg), w.next s (.arrive api fg)) := by
  obtain ⟨j, below, free, ⟨distinct, placed⟩, handle⟩ := onAccept_owner fg place tidy.distinct fresh.1
  obtain ⟨index, formed⟩ := handle_parts below fresh.2
  have fates := fate_placed free placed tidy.batch
  have keeps : ∀ {h c}, s.Belongs h c → Belongs (s.next (.arrive api fg)) h c := fun belongs =>
    Belongs.placed (s := s) free tidy.batch placed belongs.1 belongs.2
  refine ⟨⟨(tcpapiToHandle_running place).1.trans tidy.home.1, tidy.home.2⟩, tidy.back, distinct, fun i => ?_, tidy.formed, tidy.dialing,
    fun c opened => ⟨(tidy.opens c opened).1, keeps (tidy.opens c opened).2⟩, fun r mem connect success =>
      ⟨(tidy.dialed r mem connect success).1, keeps (tidy.dialed r mem connect success).2⟩, ?_, ?_⟩
  · rcases eq_or_ne i j with rfl | other
    · exact congrArg Option.isSome fates.1
    · exact (congrArg Option.isSome (fates.2 i other)).trans (tidy.batch i)
  · simp only [Watch.next, handle]
    refine List.forall_mem_cons.2 ⟨⟨formed, ?_⟩, fun h mem => keeps (tidy.waits h mem)⟩
    rw [index]
    exact fates.1
  · simp only [Watch.next, handle, List.map_cons, index]
    refine List.nodup_cons.2 ⟨fun mem => ?_, tidy.apart⟩
    obtain ⟨h, waiting, here⟩ := List.mem_map.1 mem
    have belongs := (tidy.waits h waiting).2
    rw [here, (fate_free free (tidy.batch j)).2] at belongs
    cases belongs

theorem Tidy.handles (tidy : Tidy (s, w)) {r : BatchRet} {rest : List BatchRet} (rets : s.rets = r :: rest) :
    Tidy (s.handleOneRet, w.next s .handleRet) := by
  have fewer : ∀ r' ∈ rest, r' ∈ s.rets := fun r' mem => rets ▸ List.mem_cons_of_mem r mem
  have here : r ∈ s.rets := rets ▸ List.mem_cons_self
  have next : s.handleOneRet = { s with
      rets := rest
      exited := r.fatal
      ctxs := Function.update s.ctxs r.cookie ((s.ctxs r.cookie).handleOneRet r.ret r.call) } := by
    simp only [handleOneRet, rets]
  have opens : (w.next s .handleRet).waiting = w.waiting ∧ ∀ c, (w.next s .handleRet).opened c = true →
      c ≠ 0 ∧ s.Belongs (s.handleOneRet.ctxs c).handle c := by
    obtain ⟨issuer, call, cookie, ret⟩ := r
    rw [next]
    cases call with
    | connect =>
      have home : cookie = issuer := tidy.back _ here rfl
      subst home
      simp only [Watch.next, rets, true_and]
      intro c opened
      rcases eq_or_ne c cookie with rfl | other
      · rw [Function.update_self] at opened ⊢
        exact tidy.dialed _ here rfl (of_decide_eq_true opened)
      · rw [Function.update_of_ne other] at opened ⊢
        exact tidy.opens c opened
    | accept | sendv | recvDone | close =>
      simp only [Watch.next, rets, true_and]
      intro c opened
      rcases eq_or_ne c cookie with rfl | other
      · rw [Function.update_self]
        have handle : ∀ (ctx : BatchCtx) (call : BatchCall), call ≠ .connect → (ctx.handleOneRet ret call).handle = ctx.handle := by
          intro ctx call other
          cases call with
          | connect => exact absurd rfl other
          | accept | recvDone => rfl
          | sendv | close =>
            simp only [BatchCtx.handleOneRet]
            split <;> rfl
        rw [handle _ _ (by simp)]
        exact tidy.opens c opened
      · rw [Function.update_of_ne other]
        exact tidy.opens c opened
  obtain ⟨waiting, opens⟩ := opens
  rw [next] at opens ⊢
  refine ⟨tidy.home, fun r' mem => tidy.back r' (fewer r' mem), tidy.distinct, tidy.batch, tidy.formed, tidy.dialing, opens,
    fun r' mem => tidy.dialed r' (fewer r' mem), ?_, ?_⟩
  · rw [waiting]
    exact tidy.waits
  · rw [waiting]
    exact tidy.apart

/-- A call of the batch is executed: the core is another one, and the return waits. -/
theorem Tidy.dispatched (tidy : Tidy (s, w)) {d : BatchDesc} {karr : List BatchDesc} (batch : s.karr = d :: karr) {core : Core} {ret : Int}
    (leads : core.faulted = false ∧ BatchRet.Home ⟨d.issuer, d.call, core.syscallCookie, ret⟩) (distinct : Distinct core.handle2pcb)
    (fates : ∀ i c, fate s.core s.karr i = some (some c) → fate core karr i = some (some c)) (done : ∀ i, (fate core karr i).isSome = true)
    (dials : d.call = .connect → 0 ≤ ret → ¬ Malformed (wofInt 64 ret) ∧ fate core karr (handleIdx (wofInt 64 ret)) = some (some d.issuer)) :
    let r : BatchRet := ⟨d.issuer, d.call, core.syscallCookie, ret⟩
    Tidy ({ s with core := core, karr := karr, rets := s.rets ++ [r], answered := s.answered ++ [r] }, w) := by
  intro r
  have fewer : ∀ d' ∈ karr, d' ∈ s.karr := fun d' mem => batch ▸ List.mem_cons_of_mem d mem
  have here : d ∈ s.karr := batch ▸ List.mem_cons_self
  refine ⟨⟨leads.1, List.forall_mem_append.2 ⟨tidy.home.2, List.forall_mem_singleton.2 leads.2⟩⟩,
    List.forall_mem_append.2 ⟨tidy.back, List.forall_mem_singleton.2 leads.2⟩, distinct, done, fun d' mem => tidy.formed d' (fewer d' mem),
    fun d' mem => tidy.dialing d' (fewer d' mem), fun c opened => ?_, List.forall_mem_append.2 ⟨fun r' mem connect success => ?_,
      List.forall_mem_singleton.2 fun connect success => ⟨tidy.dialing d here connect, dials connect success⟩⟩, fun h mem => ?_, tidy.apart⟩
  · obtain ⟨real, formed, own⟩ := tidy.opens c opened
    exact ⟨real, formed, fates _ _ own⟩
  · obtain ⟨real, formed, own⟩ := tidy.dialed r' mem connect success
    exact ⟨real, formed, fates _ _ own⟩
  · exact ⟨(tidy.waits h mem).1, fates _ _ (tidy.waits h mem).2⟩

/-- A call on a handle is one of the kernel's, and makes the owner of its place what the batch says. -/
theorem execute_call {d : BatchDesc} {handle : Nat} (calls : d.call.handle = some handle) (core : Core) (attempt : Attempt) (sent : Nat) :
    ∃ call : HandleCall, execute core d attempt sent = core.call handle call ∧
      ∀ o v, d.turn o = some v → call.leaves o = v ∧ (d.call = .accept handle ∨ o = some d.issuer) := by
  obtain ⟨issuer, call⟩ := d
  cases call with
  | connect => cases calls
  | accept h =>
    obtain rfl := Option.some.inj calls
    refine ⟨.accept issuer, rfl, fun o v turn => ?_⟩
    exact ⟨Option.some.inj (Option.ite_none_right_eq_some.1 turn).2, .inl rfl⟩
  | sendv h =>
    obtain rfl := Option.some.inj calls
    refine ⟨.sendv sent, rfl, fun o v turn => ?_⟩
    obtain ⟨own, after⟩ := Option.ite_none_right_eq_some.1 turn
    exact ⟨Option.some.inj after, .inr own⟩
  | recvDone h len =>
    obtain rfl := Option.some.inj calls
    refine ⟨.recvDone len, rfl, fun o v turn => ?_⟩
    obtain ⟨own, after⟩ := Option.ite_none_right_eq_some.1 turn
    exact ⟨Option.some.inj after, .inr own⟩
  | close h =>
    obtain rfl := Option.some.inj calls
    refine ⟨.close, rfl, fun o v turn => ?_⟩
    obtain ⟨own, after⟩ := Option.ite_none_right_eq_some.1 turn
    exact ⟨Option.some.inj after, .inr own⟩

theorem Tidy.executes (tidy : Tidy (s, w)) {attempt : Attempt} {sent : Nat} {d : BatchDesc} {karr : List BatchDesc} (batch : s.karr = d :: karr)
    (place : HasPlace s.core) (fresh : attempt.Fresh s.core) : Tidy (s.dispatchOne attempt sent, w) := by
  have running := tidy.home.1
  have next : s.dispatchOne attempt sent =
      let result := execute s.core d attempt sent
      let r : BatchRet := ⟨d.issuer, d.call, result.2.syscallCookie, result.1⟩
      { s with core := result.2, karr := karr, rets := s.rets ++ [r], answered := s.answered ++ [r] } := by
    simp only [dispatchOne, batch]
  rw [next]
  cases calls : d.call.handle with
  | none =>
    have connect : d.call = .connect := by
      cases call : d.call with
      | connect => rfl
      | _ =>
        rw [call] at calls
        cases calls
    have skipped : ∀ i, fate s.core s.karr i = fate s.core karr i := by
      intro i
      rw [fate, fate, batch, List.filter_cons_of_neg (by simp [calls])]
    have left : ∀ i, (fate s.core karr i).isSome = true := fun i => (congrArg Option.isSome (skipped i)).symm.trans (tidy.batch i)
    have result : execute s.core d attempt sent = s.core.bsysTcpConnect d.issuer attempt := by rw [execute, connect]
    obtain ⟨⟨still, cookie⟩, owner⟩ := connect_owner place tidy.distinct fresh (Prod.eta (s.core.bsysTcpConnect d.issuer attempt)).symm
    have leads : (s.core.bsysTcpConnect d.issuer attempt).2.faulted = false ∧ BatchRet.Home ⟨d.issuer, d.call,
        (s.core.bsysTcpConnect d.issuer attempt).2.syscallCookie, (s.core.bsysTcpConnect d.issuer attempt).1⟩ :=
      ⟨still.trans running, fun _ => cookie⟩
    rw [result]
    rcases owner with ⟨failed, distinct, same⟩ | ⟨j, fg, below, group, free, ⟨distinct, placed⟩, ret⟩
    · refine tidy.dispatched batch leads distinct (fun i c before => ?_) (fun i => ?_) fun _ success => absurd failed (not_lt.2 success)
      · rw [fate_congr same, ← skipped]
        exact before
      · rw [fate_congr same]
        exact left i
    · have fates := fate_placed free placed left
      refine tidy.dispatched batch leads distinct (fun i c before => ?_) (fun i => ?_) fun _ success => ?_
      · rw [skipped] at before
        rw [fates.2 i, before]
        rintro rfl
        rw [(fate_free free (left i)).2] at before
        cases before
      · rcases eq_or_ne i j with rfl | other
        · rw [fates.1]
          rfl
        · rw [fates.2 i other]
          exact left i
      · rcases ret with failed | handle
        · exact absurd failed (not_lt.2 success)
        · obtain ⟨index, formed⟩ := handle_parts below group
          have word : wofInt 64 ((j + fg * 2 ^ 48 : Nat) : Int) = j + fg * 2 ^ 48 := by
            unfold wofInt
            unfold maxPcbs at below
            unfold ethMaxTotalFg ncpu at group
            omega
          rw [handle, word, index]
          exact ⟨formed, fates.1⟩
  | some handle =>
    have formed := tidy.formed d (batch ▸ List.mem_cons_self) handle calls
    obtain ⟨call, result, turns⟩ := execute_call calls s.core attempt sent
    have begun := tidy.batch (handleIdx handle)
    have first : fate s.core s.karr (handleIdx handle) = (d.turn (s.core.owner (handleIdx handle))).bind fun o =>
        (karr.filter fun d => d.call.handle.map handleIdx = some (handleIdx handle)).foldlM BatchDesc.turn o := by
      rw [fate, batch, List.filter_cons_of_pos (by simp [calls]), List.foldlM_cons]
      rfl
    obtain ⟨v, turn⟩ : ∃ v, d.turn (s.core.owner (handleIdx handle)) = some v := by
      cases turn : d.turn (s.core.owner (handleIdx handle)) with
      | none =>
        rw [first, turn] at begun
        cases begun
      | some v => exact ⟨v, rfl⟩
    obtain ⟨api, there⟩ : ∃ api, s.core.handle2pcb (handleIdx handle) = some api := by
      cases there : s.core.handle2pcb (handleIdx handle) with
      | none =>
        rw [show s.core.owner (handleIdx handle) = none by simp [Core.owner, there], turn_none (by simp [calls])] at turn
        cases turn
      | some api => exact ⟨api, rfl⟩
    obtain ⟨leaves, own⟩ := turns _ _ turn
    obtain ⟨distinct, owner⟩ := call_owner tidy.distinct formed there call
    rw [leaves] at owner
    obtain ⟨still, cookie⟩ := call_cookie formed there call
    have leads : (s.core.call handle call).2.faulted = false ∧ BatchRet.Home ⟨d.issuer, d.call,
        (s.core.call handle call).2.syscallCookie, (s.core.call handle call).1⟩ := by
      refine ⟨still.trans running, fun answers => cookie.trans ?_⟩
      rcases own with accept | own
      · rw [accept] at answers
        cases answers
      · simpa [Core.owner, there] using own
    rw [result]
    have fates : ∀ i, fate (s.core.call handle call).2 karr i = fate s.core s.karr i := by
      intro i
      rcases eq_or_ne i (handleIdx handle) with rfl | other
      · rw [first, turn, fate, owner, Function.update_self]
        rfl
      · rw [fate, fate, owner, Function.update_of_ne other, batch, List.filter_cons_of_neg (by simpa [calls] using other.symm)]
    refine tidy.dispatched batch leads distinct (fun i c before => (fates i).trans before) (fun i => ?_) fun connect => ?_
    · rw [fates]
      exact tidy.batch i
    · rw [connect] at calls
      cases calls

theorem WatchStep.tidy {a b : Batch × Watch} {op : BatchStep} (step : WatchStep a op b) (tidy : Tidy a) : Tidy b := by
  obtain ⟨s, w⟩ := a
  obtain ⟨⟨valid, rfl⟩, allows⟩ := step
  cases op with
  | connect ctx =>
    refine (tidy.joined (d := ⟨ctx, .connect⟩) (fun i => ?_) (fun _ none => nomatch none) fun _ => allows).forget ctx
    rw [fate_joined, if_neg (by simp [BatchCall.handle])]
  | sendv ctx => exact tidy.uses allows rfl (if_pos rfl)
  | recvDone ctx len => exact tidy.uses allows rfl (if_pos rfl)
  | close ctx => exact tidy.closes valid.2.2.2 allows
  | append ctx len =>
    refine ⟨tidy.home, tidy.back, tidy.distinct, tidy.batch, tidy.formed, tidy.dialing, fun c opened => ?_, tidy.dialed, tidy.waits, tidy.apart⟩
    have same : ((s.next (.append ctx len)).ctxs c).handle = (s.ctxs c).handle := by
      simp only [Batch.next, Function.update_apply]
      split_ifs with own
      · rw [own]
      · rfl
    show c ≠ 0 ∧ Belongs (s.next (.append ctx len)) ((s.next (.append ctx len)).ctxs c).handle c
    rw [same]
    exact tidy.opens c opened
  | knock ctx handle => exact tidy.accepts valid.2.2.2.1 allows.1 allows.2
  | dispatch attempt sent =>
    obtain ⟨-, -, -, some, place⟩ := valid
    obtain ⟨d, karr, batch⟩ := List.exists_cons_of_ne_nil some
    exact tidy.executes batch place allows
  | arrive api fg => exact tidy.arrives valid.2.2.2.2 allows
  | poll | leave =>
    exact ⟨tidy.home, tidy.back, tidy.distinct, tidy.batch, tidy.formed, tidy.dialing, tidy.opens, tidy.dialed, tidy.waits, tidy.apart⟩
  | handleRet =>
    obtain ⟨r, rest, rets⟩ := List.exists_cons_of_ne_nil valid.2.2.2
    exact tidy.handles rets

end Steps

/-- In any run in which contexts send, receive and close only while they have a connection, and accept only connections that
nobody has accepted, every result goes to the context that made the call. -/
theorem returns_reach_issuers {apis : Nat → TcpapiPcb} {ctxs : Nat → BatchCtx} {steps : List BatchStep} {a : Batch × Watch}
    (run : Run WatchStep (Batch.boot apis ctxs, ⟨fun _ => false, []⟩) steps a) : a.1.AllHome :=
  (run.invariant (I := Tidy) (fun _ _ _ => WatchStep.tidy) (Tidy.boot apis ctxs)).home

def blank : Batch := boot (fun _ => dialed 0 0) fun _ => ⟨0, false, [], false⟩

/-- Two contexts dial in one batch, of which the second fails. -/
def twoDials : List BatchStep :=
  [.connect 1, .connect 2, .poll, .dispatch (.started 0 1) 0, .dispatch (.refused 1 1) 0, .leave, .handleRet, .handleRet]

/-- The steps that keep the rules and take no object from a pool, for runs that are given in full. -/
def keepsRules (a : Batch × Watch) (step : BatchStep) : Bool :=
  a.1.admits step &&
    match step with
    | .connect ctx => ctx != 0
    | .knock ctx handle => ctx != 0 && decide (handle ∈ a.2.waiting)
    | .sendv ctx | .recvDone ctx _ | .close ctx => a.2.opened ctx
    | .dispatch .noGroup _ | .dispatch .noMemory _ => true
    | .dispatch _ _ | .arrive _ _ => false
    | _ => true

theorem keepsRules_sound (a : Batch × Watch) (step : BatchStep) (keeps : keepsRules a step = true) : a.1.Valid step ∧ a.2.Allows a.1 step := by
  obtain ⟨admits, rules⟩ := (Bool.and_eq_true _ _).mp keeps
  refine ⟨(admits_valid a.1 step admits).1, ?_⟩
  cases step with
  | dispatch attempt sent =>
    cases attempt with
    | noGroup | noMemory => trivial
    | refused | started => cases rules
  | arrive => cases rules
  | connect | knock => simpa [Watch.Allows] using rules
  | sendv | recvDone | close => exact rules
  | append | poll | leave | handleRet => trivial

def dialingState : Batch × Watch := [.connect 1, .connect 2, .poll].foldl watch (blank, ⟨fun _ => false, []⟩)

/-- The first of two dials has started, and the second has failed. -/
def dialedState : Batch × Watch := [.dispatch .noMemory 0].foldl watch (watch dialingState (.dispatch (.started 0 1) 0))

/-- The context that dialed sends, and a third one accepts the connection that arrived, reads and closes. -/
def mixedBatches : List BatchStep :=
  [.leave, .handleRet, .handleRet, .append 1 5, .knock 3 (1 + 2 ^ 48), .sendv 1, .recvDone 3 4, .close 3, .poll, .dispatch .noGroup 0,
    .dispatch .noGroup 5, .dispatch .noGroup 0, .dispatch .noGroup 0, .leave, .handleRet, .handleRet, .handleRet, .handleRet]

def mixedState : Batch × Watch := mixedBatches.foldl watch (watch dialedState (.arrive 1 1))

theorem mixed_batches_reach_issuers : Run WatchStep (blank, ⟨fun _ => false, []⟩)
      ([.connect 1, .connect 2, .poll] ++ .dispatch (.started 0 1) 0 :: ([.dispatch .noMemory 0] ++ .arrive 1 1 :: mixedBatches))
      mixedState ∧
    mixedState.1.answered.length = 6 ∧ (mixedState.1.ctxs 2).handle = 2 ^ 64 - 1 ∧ (mixedState.1.ctxs 3).released = true ∧ mixedState.1.AllHome := by
  have given : ∀ {a : Batch × Watch} (steps), passes watch keepsRules a steps = true → Run WatchStep a steps (steps.foldl watch a) :=
    fun _ => Run.of_passes keepsRules_sound
  have dials : Run WatchStep (blank, ⟨fun _ => false, []⟩) [.connect 1, .connect 2, .poll] dialingState := given _ (by decide +kernel)
  have started : WatchStep dialingState (.dispatch (.started 0 1) 0) (watch dialingState (.dispatch (.started 0 1) 0)) :=
    ⟨⟨(admits_valid dialingState.1 _ (by decide +kernel)).1, rfl⟩, fun _ here => (nomatch here), by decide⟩
  have failed : Run WatchStep (watch dialingState (.dispatch (.started 0 1) 0)) [.dispatch .noMemory 0] dialedState :=
    given _ (by decide +kernel)
  have places : dialedState.1.core.handle2pcb = Function.update (fun _ => none) 0 (some 0) := by rfl
  have arrives : WatchStep dialedState (.arrive 1 1) (watch dialedState (.arrive 1 1)) := by
    refine ⟨⟨(admits_valid dialedState.1 _ (by decide +kernel)).1, rfl⟩, fun i here => ?_, by decide⟩
    rw [places, Function.update_apply] at here
    split_ifs at here
    exact absurd (Option.some.inj here) (by decide)
  have rest : Run WatchStep (watch dialedState (.arrive 1 1)) mixedBatches mixedState := given _ (by decide +kernel)
  have run := dials.append (.cons started (failed.append (.cons arrives rest)))
  exact ⟨run, by decide +kernel, by decide +kernel, by decide +kernel, returns_reach_issuers run⟩

/-- The context whose dial failed sends on its negative handle, after the other one has sent: the other one is marked
dead. -/
theorem failed_dial_kills_other : ∃ steps s, Run (Applies Batch.next Valid) blank steps s ∧
    (s.ctxs 2).handle = 2 ^ 64 - 1 ∧ (s.ctxs 1).isDead = true ∧ (s.ctxs 2).isDead = false ∧
    s.answered.getLast? = some ⟨2, .sendv (2 ^ 64 - 1), 1, -retBadh⟩ ∧ ¬ s.AllHome := by
  refine ⟨twoDials ++ [.sendv 1, .sendv 2, .poll, .dispatch .noGroup 5, .dispatch .noGroup 5, .leave, .handleRet,
    .handleRet], _, (Run.of_passes admits_valid ?_).unguarded, ?_⟩
  · decide +kernel
  · decide +kernel

end Batch

end Reflex.Tcp
