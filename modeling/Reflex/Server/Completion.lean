import Reflex.Nvme.State
import Reflex.Server.Replies

/-!
# What becomes of the status of a command

A command that the device has finished comes with a status. `nvme_read_cb` and `nvme_write_cb` of
`nvme/nvmedev.c` print it if it is an error and post an event with the return value `RET_OK`;
`ixev_nvme_response` and `ixev_nvme_written` of `libix/ixev.c` call the handler of the request without that
value.
-/

namespace Reflex.Server
open Lib

/-- The status fields of `struct spdk_nvme_cpl`. -/
structure NvmeCpl where
  sct : Nat
  sc : Nat
  deriving DecidableEq

/-- `spdk_nvme_cpl_is_error`. -/
def NvmeCpl.isError (cpl : NvmeCpl) : Bool := cpl.sc != 0 || cpl.sct != 0

/-- The events that report a command to the event library; the cookie is the request. -/
inductive UserEvent where
  | nvmeWritten (req : NvmeReq) (ret : Int)
  | nvmeResponse (req : NvmeReq) (ret : Int)

def nvmeWriteCb (req : NvmeReq) (cpl : NvmeCpl) : List String × UserEvent :=
  (if cpl.isError then ["SPDK Write Failed!"] else [], .nvmeWritten req Nvme.retOk)

def nvmeReadCb (req : NvmeReq) (cpl : NvmeCpl) : List String × UserEvent :=
  (if cpl.isError then ["SPDK Read Failed!"] else [], .nvmeResponse req Nvme.retOk)

/-- The bits of `en_mask` of a request. -/
inductive NvmeReason where
  | read
  | write
  deriving DecidableEq

/-- The handler that `receive_req` has set. -/
def NvmeReq.enMask (req : NvmeReq) : NvmeReason := if req.opcode = cmdSet then .write else .read

/-- `ixev_nvme_written` and `ixev_nvme_response`: the request whose handler is called. -/
def ixevNvmeEvent : UserEvent → Option NvmeReq
  | .nvmeWritten req _ => if req.enMask = .write then some req else none
  | .nvmeResponse req _ => if req.enMask = .read then some req else none

/-- The callback that was given with the command. -/
def commandCb (req : NvmeReq) (cpl : NvmeCpl) : List String × UserEvent :=
  if req.opcode = cmdSet then nvmeWriteCb req cpl else nvmeReadCb req cpl

/-- `statuses` are those of the completed requests, in the same order. -/
structure DeviceSession where
  session : Session
  statuses : List NvmeCpl
  console : List String

def DeviceSession.accept (memory : PpConn) (srcPort : UInt16) : DeviceSession := ⟨.accept memory srcPort, [], []⟩

structure DeviceOp where
  op : SessionOp
  cpl : NvmeCpl

/-- The command of a request is done: the callback of the kernel, the event, the handler. -/
def DeviceSession.finished (env : Env) (s : DeviceSession) (i : Nat) (req : NvmeReq) (cpl : NvmeCpl) (answers : List (Option Nat)) :
    DeviceSession :=
  let rest := { s.session with outstanding := s.session.outstanding.eraseIdx i }
  { session := match ixevNvmeEvent (commandCb req cpl).2 with
      | none => rest
      | some req => rest.complete env req answers
    statuses := s.statuses ++ [cpl]
    console := s.console ++ (commandCb req cpl).1 }

def DeviceSession.next (env : Env) (s : DeviceSession) (o : DeviceOp) : DeviceSession :=
  match o.op with
  | .completion i buf answers =>
    match s.session.outstanding[i]? with
    | none => s
    | some req => s.finished env i (req.filled buf) o.cpl answers
  | op => { s with session := s.session.next env op }

def deviceStep (env : Env) : DeviceSession → DeviceOp → DeviceSession → Prop :=
  Applies (DeviceSession.next env) fun s o => s.session.Valid o.op

/-- What a client takes for success: a write that is acknowledged with `RESP_OK`, or the blocks in
the pages of a read. -/
def IsSuccess (env : Env) (req : NvmeReq) (message : List UInt8) : Prop :=
  if req.opcode = cmdGet then message.drop headerSize = req.contents (accessBytes env req.lbaCount)
  else (Header.ofBuffer (store (fun _ => 0) 0 (message.take headerSize))).lbaCount = respOk

section Status

variable {env : Env} {s t : DeviceSession} {o : DeviceOp}

theorem ixevNvmeEvent_commandCb (req : NvmeReq) (cpl : NvmeCpl) : ixevNvmeEvent (commandCb req cpl).2 = some req := by
  rw [commandCb]
  split_ifs with set
  · rw [nvmeWriteCb, ixevNvmeEvent, NvmeReq.enMask, if_pos set, if_pos rfl]
  · rw [nvmeReadCb, ixevNvmeEvent, NvmeReq.enMask, if_neg set, if_pos rfl]

theorem DeviceSession.finished_eq (env : Env) (s : DeviceSession) (i : Nat) (req : NvmeReq) (cpl : NvmeCpl) (answers : List (Option Nat)) :
    s.finished env i req cpl answers =
      ⟨{ s.session with outstanding := s.session.outstanding.eraseIdx i }.complete env req answers, s.statuses ++ [cpl],
        s.console ++ (commandCb req cpl).1⟩ := by
  rw [DeviceSession.finished, ixevNvmeEvent_commandCb]

theorem DeviceSession.next_session (env : Env) (s : DeviceSession) (o : DeviceOp) :
    (s.next env o).session = s.session.next env o.op := by
  obtain ⟨op, cpl⟩ := o
  cases op with
  | segment bytes => rfl
  | handler answers => rfl
  | registered fgHandle answers => rfl
  | completion i buf answers =>
    simp only [DeviceSession.next, Session.next]
    cases found : s.session.outstanding[i]? with
    | none => rfl
    | some req => exact congrArg DeviceSession.session (s.finished_eq env i (req.filled buf) cpl answers)

theorem deviceStep_session (step : deviceStep env s o t) : sessionStep env s.session o.op t.session := by
  obtain ⟨valid, rfl⟩ := step
  exact ⟨valid, s.next_session env o⟩

theorem Session.receive_completed (env : Env) (s : Session) (c : PpConn) : (s.receive env c).completed = s.completed := by
  rw [Session.receive]
  split_ifs <;> rfl

theorem deviceStep_statuses (step : deviceStep env s o t) (paired : s.statuses.length = s.session.completed.length) :
    t.statuses.length = t.session.completed.length := by
  obtain ⟨valid, rfl⟩ := step
  obtain ⟨op, cpl⟩ := o
  cases op with
  | segment bytes => exact paired
  | handler answers => exact paired.trans (congrArg List.length (Session.receive_completed env s.session _).symm)
  | registered fgHandle answers => exact paired
  | completion i buf answers =>
    simp only [DeviceSession.next]
    cases found : s.session.outstanding[i]? with
    | none => exact paired
    | some req =>
      simp only [DeviceSession.finished_eq]
      show (s.statuses ++ [cpl]).length = (s.session.completed ++ [_]).length
      rw [List.length_append, List.length_append, paired]
      rfl

theorem response_isSuccess (env : Env) (req : NvmeReq) : IsSuccess env req (response env req) := by
  rw [IsSuccess]
  have length : (responseHeader req).bytes.length = headerSize := Header.bytes_length _
  split_ifs with get
  · rw [response, List.drop_left' length, responsePayload, if_pos get]
  · rw [response, List.take_left' length, Header.ofBuffer_store, responseHeader, if_neg get]

end Status

/-- A connection runs as if commands had no status. Of the responses that were sent, those to
commands that have failed do not look like a success just if none has failed. -/
theorem failures_reported_iff {env : Env} {memory : PpConn} {srcPort : UInt16} {ops : List DeviceOp} {t : DeviceSession}
    (run : Run (deviceStep env) (.accept memory srcPort) ops t) :
    Run (sessionStep env) (.accept memory srcPort) (ops.map DeviceOp.op) t.session ∧
      t.statuses.length = t.session.completed.length ∧
      (Run (Guarded (deviceStep env) fun s o => o.op.RepliesAtOnce s.session) (.accept memory srcPort) ops t →
        ∃ (sent : List Outgoing) (waiting : List NvmeReq),
          sent.flatMap (Outgoing.bytes env) <+: t.session.conn.wire ∧
          t.session.conn.wire <+: sent.flatMap (Outgoing.bytes env) ++ waiting.flatMap (response env) ∧
          sent.filterMap Outgoing.request ++ waiting = t.session.completed ∧
          let answers := (sent.filterMap Outgoing.request).map (response env)
          ((∀ (k : Nat) (req : NvmeReq) (cpl : NvmeCpl) (message : List UInt8), t.session.completed[k]? = some req →
              t.statuses[k]? = some cpl → answers[k]? = some message → cpl.isError = true → ¬ IsSuccess env req message) ↔
            ∀ (k : Nat) (cpl : NvmeCpl), k < answers.length → t.statuses[k]? = some cpl → cpl.isError = false)) := by
  have seen := run.map (f := DeviceSession.session) (g := DeviceOp.op) fun _ _ _ step => deviceStep_session step
  have paired := run.invariant (I := fun s => s.statuses.length = s.session.completed.length) (fun _ _ _ => deviceStep_statuses) rfl
  refine ⟨seen, paired, fun atOnce => ?_⟩
  have erased : Run (Guarded (sessionStep env) fun s op => op.RepliesAtOnce s) (.accept memory srcPort) (ops.map DeviceOp.op) t.session :=
    atOnce.map (f := DeviceSession.session) (g := DeviceOp.op) fun _ _ _ step => ⟨deviceStep_session step.1, step.2⟩
  obtain ⟨sent, waiting, whole, -⟩ := (Session.accept_whole env memory srcPort).run erased
  obtain ⟨before, within⟩ := whole.wire
  have completed := whole.completed
  refine ⟨sent, waiting, before, within, completed, ?_⟩
  intro answers
  constructor
  · intro reported k cpl answered status
    rw [List.length_map] at answered
    have request : t.session.completed[k]? = some (sent.filterMap Outgoing.request)[k] := by
      rw [← completed, List.getElem?_append_left answered, List.getElem?_eq_getElem answered]
    have message : answers[k]? = some (response env (sent.filterMap Outgoing.request)[k]) := by
      rw [List.getElem?_map, List.getElem?_eq_getElem answered]
      rfl
    rw [← Bool.not_eq_true]
    intro failed
    exact reported k _ cpl _ request status message failed (response_isSuccess env _)
  · intro fine k req cpl message _ status answered failed
    obtain ⟨inside, -⟩ := List.getElem?_eq_some_iff.1 answered
    exact absurd failed (by rw [fine k cpl inside status]; exact Bool.false_ne_true)

/-- A block is read without an error. -/
theorem read_without_error :
    let env := ampleEnv 1048576 512
    let t := (((DeviceSession.accept blankConn 80).next env ⟨.segment (Header.bytes ⟨24, cmdGet, 1, 8, 1⟩), ⟨0, 0⟩⟩).next env
      ⟨.handler [], ⟨0, 0⟩⟩).next env ⟨.completion 0 (fun _ _ => 7) [some 23, some 511], ⟨0, 0⟩⟩
    t.session.conn.wire = Header.bytes ⟨24, cmdGet, 1, 8, 1⟩ ++ List.replicate 512 7 ∧ t.statuses.length = t.session.completed.length ∧
      ∃ ops, Run (sessionStep env) (.accept blankConn 80) ops t.session := by
  intro env t
  have run : Run (deviceStep env) (.accept blankConn 80) [⟨.segment (Header.bytes ⟨24, cmdGet, 1, 8, 1⟩), ⟨0, 0⟩⟩,
      ⟨.handler [], ⟨0, 0⟩⟩, ⟨.completion 0 (fun _ _ => 7) [some 23, some 511], ⟨0, 0⟩⟩] t :=
    .cons ⟨trivial, rfl⟩ (.cons ⟨by decide +kernel, rfl⟩ (.single ⟨by decide +kernel, rfl⟩))
  obtain ⟨erased, paired, -⟩ := failures_reported_iff run
  exact ⟨by decide +kernel, paired, _, erased⟩

/-- A read and a write that the device has failed are answered like any other. -/
theorem failures_look_like_success :
    let env := ampleEnv 1048576 512
    let t := ((((DeviceSession.accept blankConn 80).next env
      ⟨.segment (Header.bytes ⟨24, cmdGet, 1, 8, 1⟩ ++ Header.bytes ⟨24, cmdSet, 2, 8, 1⟩ ++ List.replicate 512 5), ⟨0, 0⟩⟩).next env
      ⟨.handler [], ⟨0, 0⟩⟩).next env ⟨.completion 0 (fun _ _ => 7) [some 23, some 511], ⟨2, 0x81⟩⟩).next env
      ⟨.completion 0 (fun _ _ => 0) [some 23], ⟨2, 0x80⟩⟩
    t.statuses.all NvmeCpl.isError = true ∧ t.console = ["SPDK Read Failed!", "SPDK Write Failed!"] ∧
      t.session.conn.wire = Header.bytes ⟨24, cmdGet, 1, 8, 1⟩ ++ List.replicate 512 7 ++ Header.bytes ⟨24, cmdSet, 2, 8, respOk⟩ := by
  intro env t
  exact ⟨by decide +kernel, by decide +kernel, by decide +kernel⟩

end Reflex.Server
