import Reflex.Lib.Bytes
import Reflex.Lib.Run
import Reflex.Lib.ScatterList
import Reflex.Lib.Word

/-!
# Sending on a connection of the event library

`ixev_send`, `ixev_send_zc`, `ixev_add_sent_cb` and `ixev_close` of `libix/ixev.c` with the
handlers of their returns and of the kernel's `tcp_sent` events, the copy buffers of
`libix/buf.h` and `bsys_tcp_sendv` of `net/tcp_api.c`. Bytes are copied into buffers of a
pool or left in the application's memory; a list of entries tells the kernel where they are.

Buffers are named by their element of the pool. The pool is shared, so a buffer that this
connection does not hold may change at any time (`TransmitOp.reuse`). Memory that was given
to `ixev_send_zc` is left alone by the application. The reference embedded in a buffer is
part of it, so that the list of references is a list of pointers, as in the source.

The fields from `accepted` on are history: the bytes that were accepted, with the reference of
the buffer that each was copied to, the number of them at each registration of a reference, the
bytes that the kernel has taken, how many were acknowledged, and the callbacks that have run.
-/

namespace Reflex.Ixev
open Lib

def ixevSendDepth : Nat := 16
def ixevSendWinSize : Nat := 131072
def bufSize : Nat := 8192
def maxSgEntries : Nat := 30

/-- The negative returns of the sending functions. -/
inductive Errno where
  | eio
  | eagain
  | enobufs
  deriving DecidableEq

/-- `struct ixev_ref`. `reg` numbers the registrations on a connection. -/
structure IxevRef where
  sendPos : Nat
  reg : Nat

/-- `struct ixev_buf`. -/
structure IxevBuf where
  len : Nat
  ref : IxevRef
  payload : Nat → UInt8

/-- Where the bytes of an entry are: in a copy buffer, or in memory of the application. -/
inductive Place where
  | payload (buf pos : Nat)
  | app (mem : Nat → UInt8) (pos : Nat)

def Place.shift : Place → Nat → Place
  | .payload buf pos, n => .payload buf (pos + n)
  | .app mem pos, n => .app mem (pos + n)

def Place.read (bufs : Nat → IxevBuf) : Place → Nat → List UInt8
  | .payload buf pos, n => slice (bufs buf).payload pos n
  | .app mem pos, n => slice mem pos n

/-- A pointer to a reference: of a copy buffer, or of the application. -/
inductive RefPtr where
  | buf (b : Nat)
  | app (ref : IxevRef)

def RefPtr.ref (bufs : Nat → IxevBuf) : RefPtr → IxevRef
  | .buf b => (bufs b).ref
  | .app ref => ref

/-- A byte that was accepted, and the reference of the copy buffer it went to. -/
structure Sent where
  byte : UInt8
  reg : Option Nat

/-- The sending side of `struct ixev_ctx`, and the buffers. `sendvDesc` is the number of
entries in the descriptor of the current batch. -/
structure IxevCtx where
  isDead : Bool
  send : List (SgEntry Place)
  sendvDesc : Option Nat
  sendTotal : Nat
  sentTotal : Nat
  refs : List RefPtr
  curBuf : Option Nat
  bufs : Nat → IxevBuf
  closing : Bool
  released : Bool
  accepted : List Sent
  marks : List Nat
  taken : List UInt8
  acked : Nat
  fired : List Nat

/-- `ixev_ctx_init`; the buffers hold what they held. -/
def ixevCtxInit (bufs : Nat → IxevBuf) : IxevCtx where
  isDead := false
  send := []
  sendvDesc := none
  sendTotal := 0
  sentTotal := 0
  refs := []
  curBuf := none
  bufs := bufs
  closing := false
  released := false
  accepted := []
  marks := []
  taken := []
  acked := 0
  fired := []

def ixevWindowLen (ctx : IxevCtx) (len : Nat) : Nat :=
  min (wadd 64 (wsub 64 ixevSendWinSize ctx.sendTotal) ctx.sentTotal) len

/-- `ixev_buf_store`: how many bytes were stored, and the buffer. -/
def ixevBufStore (buf : IxevBuf) (data : List UInt8) : Nat × IxevBuf :=
  let avail := min data.length (wsub 32 bufSize buf.len)
  (avail, { buf with len := wadd 32 buf.len avail, payload := store buf.payload buf.len (data.take avail) })

/-- `ixev_buf_alloc` for the element that the pool gives. -/
def ixevBufAlloc (buf : IxevBuf) : IxevBuf := { buf with len := 0 }

/-- More bytes for the current buffer, which the last entry describes. -/
def growBuffer (ctx : IxevCtx) (b : Nat) (data : List UInt8) : IxevCtx × Nat :=
  let (ret, buf) := ixevBufStore (ctx.bufs b) data
  ({ ctx with
      send := growLast ret ctx.send
      bufs := Function.update ctx.bufs b { buf with ref := { buf.ref with sendPos := wadd 64 ctx.sendTotal ret } }
      accepted := ctx.accepted ++ (data.take ret).map fun byte => ⟨byte, some buf.ref.reg⟩ }, ret)

def hotPath (ctx : IxevCtx) (data : List UInt8) : IxevCtx × Nat :=
  match ctx.curBuf with
  | none => (ctx, 0)
  | some b => if ctx.send = [] then (ctx, 0) else growBuffer ctx b data

/-- One round of the cold path, with the buffer `b` from the pool. -/
def fillBuffer (ctx : IxevCtx) (b : Nat) (data : List UInt8) (soFar : Nat) : IxevCtx × Nat :=
  let (ret, buf) := ixevBufStore (ixevBufAlloc (ctx.bufs b)) data
  ({ ctx with
      curBuf := some b
      send := ctx.send ++ [⟨.payload b 0, ret⟩]
      sendvDesc := some (ctx.send.length + 1)
      refs := ctx.refs ++ [.buf b]
      bufs := Function.update ctx.bufs b { buf with ref := ⟨wadd 64 ctx.sendTotal (soFar + ret), ctx.marks.length⟩ }
      accepted := ctx.accepted ++ (data.take ret).map fun byte => ⟨byte, some ctx.marks.length⟩
      marks := ctx.marks ++ [ctx.accepted.length + ret] }, soFar + ret)

/-- The cold path while there is room for entries. `pool` are the buffers that the pool gives
before an allocation fails. -/
def coldPath : Nat → List Nat → IxevCtx → List UInt8 → Nat → IxevCtx × Nat
  | 0, _, ctx, _, soFar => (ctx, soFar)
  | room + 1, pool, ctx, data, soFar =>
    if data = [] then (ctx, soFar)
    else
      match pool with
      | [] => ({ ctx with curBuf := none }, soFar)
      | b :: pool =>
        let (ctx', soFar') := fillBuffer ctx b data soFar
        coldPath room pool ctx' (data.drop (soFar' - soFar)) soFar'

def ixevSend (ctx : IxevCtx) (data : List UInt8) (pool : List Nat) : Except Errno Nat × IxevCtx :=
  let actualLen := ixevWindowLen ctx data.length
  if ctx.isDead then (.error .eio, ctx)
  else if actualLen = 0 then (.error .eagain, ctx)
  else
    let (hot, ret) := hotPath ctx (data.take actualLen)
    let (cold, soFar) := coldPath (ixevSendDepth - hot.send.length) pool hot ((data.take actualLen).drop ret) ret
    if soFar = 0 then (.error .enobufs, cold)
    else (.ok soFar, { cold with sendTotal := wadd 64 cold.sendTotal soFar })

def ixevSendZc (ctx : IxevCtx) (mem : Nat → UInt8) (len : Nat) : Except Errno Nat × IxevCtx :=
  let actualLen := ixevWindowLen ctx len
  if ctx.isDead then (.error .eio, ctx)
  else if actualLen = 0 then (.error .eagain, ctx)
  else if ixevSendDepth ≤ ctx.send.length then (.error .enobufs, ctx)
  else
    (.ok actualLen, { ctx with
      curBuf := none
      send := ctx.send ++ [⟨.app mem 0, actualLen⟩]
      sendvDesc := some (ctx.send.length + 1)
      sendTotal := wadd 64 ctx.sendTotal actualLen
      accepted := ctx.accepted ++ (slice mem 0 actualLen).map fun byte => ⟨byte, none⟩ })

/-- `ixev_add_sent_cb` for a reference of the application. -/
def ixevAddSentCb (ctx : IxevCtx) : IxevCtx :=
  { ctx with
    refs := ctx.refs ++ [.app ⟨ctx.sendTotal, ctx.marks.length⟩]
    marks := ctx.marks ++ [ctx.accepted.length] }

/-- The loop of `bsys_tcp_sendv`: the bytes that it hands to `tcp_write`. `writes` tells which
calls of `tcp_write` succeed. -/
def tcpWrites (bufs : Nat → IxevBuf) : Nat → List Bool → List (SgEntry Place) → List UInt8
  | _, _, [] => []
  | sndBuf, writes, e :: es =>
    let bufFull := min sndBuf 0xFFFF < e.len
    let len := if bufFull then min sndBuf 0xFFFF else e.len
    if len = 0 then []
    else
      match writes with
      | true :: writes => if bufFull then e.base.read bufs len else e.base.read bufs len ++ tcpWrites bufs (sndBuf - len) writes es
      | _ => []

/-- `ixev_handle_sendv_ret`; none is a negative return. -/
def ixevHandleSendvRet (ctx : IxevCtx) : Option Nat → IxevCtx
  | none => { ctx with isDead := true }
  | some ret => { ctx with send := consume Place.shift ret ctx.send }

/-- The kernel runs the batch, and its return is handled. -/
def sendvBatch (ctx : IxevCtx) (nrents : Nat) (alive : Bool) (sndBuf : Nat) (writes : List Bool) : IxevCtx :=
  if alive then
    let bytes := tcpWrites ctx.bufs sndBuf writes (ctx.send.take (min nrents maxSgEntries))
    ixevHandleSendvRet { ctx with sendvDesc := none, taken := ctx.taken ++ bytes } (some bytes.length)
  else ixevHandleSendvRet { ctx with sendvDesc := none } none

def IxevCtx.due (ctx : IxevCtx) (p : RefPtr) : Bool := (p.ref ctx.bufs).sendPos ≤ ctx.sentTotal

def IxevCtx.regs (ctx : IxevCtx) (ps : List RefPtr) : List Nat := ps.map fun p => (p.ref ctx.bufs).reg

/-- The loop of `ixev_tcp_sent` over the references. -/
def runCallbacks (ctx : IxevCtx) : IxevCtx :=
  { ctx with
    refs := ctx.refs.dropWhile ctx.due
    fired := ctx.fired ++ ctx.regs (ctx.refs.takeWhile ctx.due) }

def ixevTcpSent (ctx : IxevCtx) (len : Nat) : IxevCtx :=
  let ctx := runCallbacks { ctx with sentTotal := wadd 64 ctx.sentTotal len, acked := ctx.acked + len }
  { ctx with
    curBuf := if ctx.refs.isEmpty then none else ctx.curBuf
    sendvDesc := if ctx.send.isEmpty then ctx.sendvDesc else some ctx.send.length }

/-- `ixev_handle_close_ret` after a close that succeeded: every callback runs, and the context
goes back to the application's pool. -/
def ixevHandleCloseRet (ctx : IxevCtx) : IxevCtx :=
  { ctx with fired := ctx.fired ++ ctx.regs ctx.refs, released := true }

/-- The connection holds the buffer: its callback has not run. -/
def IxevCtx.Holds (ctx : IxevCtx) (b : Nat) : Prop := RefPtr.buf b ∈ ctx.refs

inductive TransmitOp where
  | send (data : List UInt8) (pool : List Nat)
  | sendZc (mem : Nat → UInt8) (len : Nat)
  | addSentCb
  | sendv (alive : Bool) (sndBuf : Nat) (writes : List Bool)
  | tcpSent (len : Nat)
  | reuse (b : Nat) (buf : IxevBuf)
  | close
  | closeRet

def IxevCtx.next (ctx : IxevCtx) : TransmitOp → IxevCtx
  | .send data pool => (ixevSend ctx data pool).2
  | .sendZc mem len => (ixevSendZc ctx mem len).2
  | .addSentCb => ixevAddSentCb ctx
  | .sendv alive sndBuf writes =>
    match ctx.sendvDesc with
    | none => ctx
    | some nrents => sendvBatch ctx nrents alive sndBuf writes
  | .tcpSent len => ixevTcpSent ctx len
  | .reuse b buf => { ctx with bufs := Function.update ctx.bufs b buf }
  | .close => { ctx with closing := true }
  | .closeRet => ixevHandleCloseRet ctx

/-- The pool gives out and the other connections use only buffers that are not held, the kernel
acknowledges what it has taken, and a context is not used once it was released. -/
def IxevCtx.Valid (ctx : IxevCtx) (op : TransmitOp) : Prop :=
  ctx.released = false ∧
    match op with
    | .send _ pool => pool.Nodup ∧ ∀ b ∈ pool, ¬ ctx.Holds b
    | .tcpSent len => ctx.acked + len ≤ ctx.taken.length
    | .reuse b _ => ¬ ctx.Holds b
    | .closeRet => ctx.closing = true
    | .sendZc _ _ | .addSentCb | .sendv _ _ _ | .close => True

def transmitStep : IxevCtx → TransmitOp → IxevCtx → Prop := Applies IxevCtx.next IxevCtx.Valid

end Reflex.Ixev
