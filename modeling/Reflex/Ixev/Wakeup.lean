import Mathlib.Algebra.BigOperators.Group.List.Basic
import Reflex.Ixev.Sending

/-!
# What is not sent yet will be tried again

A connection of the event library together with the kernel's send buffer: the space `pcb->snd_buf` that
`tcp_write` uses up and an acknowledgement gives back, and the `tcp_sent` events that are on their way to the
application. Here `tcp_write` never fails; it is given no more than there is space for.
-/

namespace Reflex.Ixev
open Lib List

def tcpSndBuf : Nat := 131072

/-- The loop of `tcp_input` over the bytes acknowledged: the callback takes at most `0xffff` of them. -/
def sentEvents : Nat → Nat → List Nat
  | 0, _ => []
  | fuel + 1, acked => if acked = 0 then [] else min acked 0xffff :: sentEvents fuel (acked - min acked 0xffff)

/-- A connection: the library's context, the kernel's send space and the events that wait. -/
structure Link where
  ctx : IxevCtx
  sndBuf : Nat
  events : List Nat

inductive LinkStep where
  /-- the application or the pool -/
  | app (op : TransmitOp)
  /-- the kernel executes the batch -/
  | sendv (alive : Bool)
  /-- the peer acknowledges -/
  | ack (len : Nat)
  /-- the library handles an event -/
  | tcpSent

/-- The kernel's steps have their own places. -/
def TransmitOp.ofApp : TransmitOp → Bool
  | .sendv .. | .tcpSent .. => false
  | _ => true

namespace Link

def start (bufs : Nat → IxevBuf) : Link := ⟨ixevCtxInit bufs, tcpSndBuf, []⟩

def acknowledged (s : Link) : Nat := s.ctx.acked + s.events.sum

/-- The outcomes of `tcp_write`, which does not fail. -/
def writes (s : Link) : List Bool := List.replicate s.ctx.send.length true

def next (s : Link) : LinkStep → Link
  | .app op => { s with ctx := s.ctx.next op }
  | .sendv alive =>
    let ctx := s.ctx.next (.sendv alive s.sndBuf s.writes)
    { s with ctx := ctx, sndBuf := s.sndBuf - (ctx.taken.length - s.ctx.taken.length) }
  | .ack len => { s with sndBuf := s.sndBuf + len, events := s.events ++ sentEvents len len }
  | .tcpSent =>
    match s.events with
    | [] => s
    | len :: rest => { s with ctx := s.ctx.next (.tcpSent len), events := rest }

def Valid (s : Link) : LinkStep → Prop
  | .app op => s.ctx.Valid op ∧ op.ofApp = true
  | .sendv _ => s.ctx.released = false
  | .ack len => s.acknowledged + len ≤ s.ctx.taken.length
  | .tcpSent => s.ctx.released = false

end Link

def linkStep : Link → LinkStep → Link → Prop := Applies Link.next Link.Valid

/-! ## The library -/

/-- Every entry describes something, a descriptor covers an entry, and entries of a live connection will be tried again. -/
structure Ready (ctx : IxevCtx) : Prop where
  positive : ∀ e ∈ ctx.send, 0 < e.len
  covers : ctx.sendvDesc ≠ some 0
  moving : ctx.isDead = false → ctx.send ≠ [] → ctx.sendvDesc ≠ none ∨ ctx.acked < ctx.taken.length

section Library

variable {ctx : IxevCtx}

theorem Ready.start (bufs : Nat → IxevBuf) : Ready (ixevCtxInit bufs) := by
  constructor
  · exact forall_mem_nil _
  · exact (Option.some_ne_none 0).symm
  · intro _ some
    exact absurd rfl some

theorem Ready.push {ctx' : IxevCtx} {e : SgEntry Place} (ready : Ready ctx) (positive : 0 < e.len) (send : ctx'.send = ctx.send ++ [e])
    (desc : ctx'.sendvDesc = some (ctx.send.length + 1)) : Ready ctx' := by
  constructor
  · rw [send]
    intro f member
    rcases mem_append.1 member with old | new
    · exact ready.positive f old
    · obtain rfl := mem_singleton.1 new
      exact positive
  · rw [desc]
    simp
  · intro _ _
    rw [desc]
    exact .inl (Option.some_ne_none _)

theorem Ready.grown {ctx' : IxevCtx} (ready : Ready ctx) (positive : ∀ e ∈ ctx'.send, 0 < e.len) (some : ctx'.send ≠ [] → ctx.send ≠ [])
    (desc : ctx'.sendvDesc = ctx.sendvDesc) (dead : ctx'.isDead = ctx.isDead) (acked : ctx'.acked = ctx.acked)
    (taken : ctx'.taken = ctx.taken) : Ready ctx' := by
  refine ⟨positive, ?_, fun live more => ?_⟩
  · rw [desc]
    exact ready.covers
  · rw [desc, acked, taken]
    exact ready.moving (dead ▸ live) (some more)

theorem Ready.frame {ctx' : IxevCtx} (ready : Ready ctx) (send : ctx'.send = ctx.send) (desc : ctx'.sendvDesc = ctx.sendvDesc)
    (dead : ctx'.isDead = ctx.isDead) (acked : ctx'.acked = ctx.acked) (taken : ctx'.taken = ctx.taken) : Ready ctx' :=
  ready.grown (send ▸ ready.positive) (fun some => send ▸ some) desc dead acked taken

section

variable (ready : Ready ctx)
include ready

theorem Ready.hotPath (data : List UInt8) : Ready (hotPath ctx data).1 := by
  rcases hotPath_cases ctx data with same | ⟨b, -, some, grown⟩
  · rw [same]
    exact ready
  · rw [grown]
    exact ready.grown (growLast_positive _ ready.positive) (fun _ => some) rfl rfl rfl rfl

theorem Ready.fillBuffer {b soFar data} (more : data ≠ []) :
    Ready (fillBuffer ctx b data soFar).1 := by
  have byte := length_pos_iff.2 more
  have stores : 0 < (ixevBufStore (ixevBufAlloc (ctx.bufs b)) data).1 := by
    show 0 < min data.length (wsub 32 bufSize 0)
    have space : wsub 32 bufSize 0 = 8192 := by decide
    omega
  exact ready.push stores rfl rfl

theorem Ready.ixevSend {data} {pool : List Nat} (depth : ctx.send.length ≤ ixevSendDepth)
    (distinct : pool.Nodup) (free : ∀ b ∈ pool, ¬ ctx.Holds b) : Ready (ixevSend ctx data pool).2 := by
  have hot : ∀ chunk : List UInt8, Ready ctx → Ready (Ixev.hotPath ctx chunk).1 := fun chunk ready => ready.hotPath chunk
  have fill : KeptByFill fun _ _ c => Ready c := fun _ _ _ _ ready more _ _ => ready.fillBuffer more
  have fails : ∀ (soFar : Nat) (data : List UInt8) (c : IxevCtx), Ready c → Ready { c with curBuf := none } :=
    fun _ _ _ ready => ready.frame rfl rfl rfl rfl rfl
  rcases ixevSend_rule hot fill fails depth distinct free ready with same | ⟨soFar, left, cold, kept, ⟨same, -⟩ | same⟩
  · rw [same]
    exact ready
  · rw [same]
    exact kept
  · rw [same]
    exact kept.frame rfl rfl rfl rfl rfl

theorem Ready.ixevSendZc (mem : Nat → UInt8) (len : Nat) : Ready (ixevSendZc ctx mem len).2 := by
  rw [Ixev.ixevSendZc]
  split_ifs with dead full deep
  · exact ready
  · exact ready
  · exact ready
  · exact ready.push (e := ⟨.app mem 0, ixevWindowLen ctx len⟩) (Nat.pos_of_ne_zero full) rfl rfl

theorem Ready.app {op} (depth : ctx.send.length ≤ ixevSendDepth) (valid : ctx.Valid op)
    (app : op.ofApp = true) : Ready (ctx.next op) := by
  cases op with
  | send data pool => exact ready.ixevSend depth valid.2.1 valid.2.2
  | sendZc mem len => exact ready.ixevSendZc mem len
  | addSentCb | reuse | close | closeRet => exact ready.frame rfl rfl rfl rfl rfl
  | sendv | tcpSent => cases app

end

theorem app_frame {op} (depth : ctx.send.length ≤ ixevSendDepth) (valid : ctx.Valid op) (app : op.ofApp = true) :
    (ctx.next op).taken = ctx.taken ∧ (ctx.next op).acked = ctx.acked := by
  let I : Nat → List UInt8 → IxevCtx → Prop := fun _ _ c => c.taken = ctx.taken ∧ c.acked = ctx.acked
  cases op with
  | send data pool =>
    have hot : ∀ chunk, I 0 chunk ctx → I (Ixev.hotPath ctx chunk).2 (chunk.drop (Ixev.hotPath ctx chunk).2) (Ixev.hotPath ctx chunk).1 := by
      intro chunk same
      rcases hotPath_cases ctx chunk with kept | ⟨b, -, -, grown⟩
      · rw [kept]
        exact same
      · rw [grown]
        exact same
    have fill : KeptByFill I := fun _ _ _ _ same _ _ _ => same
    have start : I 0 (data.take (ixevWindowLen ctx data.length)) ctx := ⟨rfl, rfl⟩
    rcases ixevSend_rule hot fill (fun _ _ _ same => same) depth valid.2.1 valid.2.2 start with
      kept | ⟨soFar, left, cold, same, ⟨result, -⟩ | result⟩
    · rw [IxevCtx.next, kept]
      exact ⟨rfl, rfl⟩
    · rw [IxevCtx.next, result]
      exact same
    · rw [IxevCtx.next, result]
      exact same
  | sendZc mem len =>
    rw [IxevCtx.next, Ixev.ixevSendZc]
    split_ifs <;> exact ⟨rfl, rfl⟩
  | addSentCb | reuse | close | closeRet => exact ⟨rfl, rfl⟩
  | sendv | tcpSent => cases app

theorem Ready.ixevTcpSent (ready : Ready ctx) (len : Nat) : Ready (ixevTcpSent ctx len) := by
  cases entries : ctx.send with
  | nil =>
    have send : (Ixev.ixevTcpSent ctx len).send = [] := entries
    have desc : (Ixev.ixevTcpSent ctx len).sendvDesc = ctx.sendvDesc := by
      simp [Ixev.ixevTcpSent, runCallbacks, entries]
    refine ⟨?_, ?_, fun _ some => absurd send some⟩
    · rw [send]
      exact forall_mem_nil _
    · rw [desc]
      exact ready.covers
  | cons e es =>
    have desc : (Ixev.ixevTcpSent ctx len).sendvDesc = some (es.length + 1) := by
      simp [Ixev.ixevTcpSent, runCallbacks, entries]
    refine ⟨ready.positive, ?_, fun _ _ => .inl ?_⟩
    · rw [desc]
      simp
    · rw [desc]
      exact Option.some_ne_none _

end Library

/-! ## The kernel -/

theorem tcpWrites_some (bufs : Nat → IxevBuf) {sndBuf} (writes : List Bool) {e : SgEntry Place} (es : List (SgEntry Place))
    (space : 0 < sndBuf) (positive : 0 < e.len) : 0 < (tcpWrites bufs sndBuf (true :: writes) (e :: es)).length := by
  have read : ∀ n, (e.base.read bufs n).length = n := (medium bufs).length_read e.base
  rw [tcpWrites]
  by_cases full : min sndBuf 0xFFFF < e.len
  · simp only [full, if_true]
    rw [if_neg (by omega), read]
    omega
  · simp only [full, if_false]
    rw [if_neg (by omega), length_append, read]
    omega

theorem tcpWrites_within (bufs : Nat → IxevBuf) (sndBuf : Nat) (writes : List Bool) (es : List (SgEntry Place)) :
    (tcpWrites bufs sndBuf writes es).length ≤ sndBuf := by
  have read : ∀ (e : SgEntry Place) n, (e.base.read bufs n).length = n := fun e => (medium bufs).length_read e.base
  induction es generalizing sndBuf writes with
  | nil =>
    rw [tcpWrites]
    exact Nat.zero_le _
  | cons e es ih =>
    rw [tcpWrites.eq_def]
    simp only
    split_ifs with full none none
    · exact Nat.zero_le _
    · split
      · rw [read]
        exact Nat.min_le_left _ _
      · exact Nat.zero_le _
    · exact Nat.zero_le _
    · split
      · have rest := ih (sndBuf - e.len) ‹_›
        rw [length_append, read]
        omega
      · exact Nat.zero_le _

/-- The library is ready, and the space is what no acknowledgement was received for. -/
structure Awake (s : Link) : Prop where
  sound : Sound s.ctx
  ready : Ready s.ctx
  space : s.sndBuf + s.ctx.taken.length = tcpSndBuf + s.acknowledged
  within : s.acknowledged ≤ s.ctx.taken.length

section Kernel

variable {s : Link}

theorem sum_sentEvents (fuel acked : Nat) (enough : acked ≤ fuel) : (sentEvents fuel acked).sum = acked := by
  induction fuel generalizing acked with
  | zero => simp [sentEvents, Nat.le_zero.1 enough]
  | succ fuel ih =>
    rw [sentEvents]
    split_ifs with none
    · rw [none]
      rfl
    · rw [sum_cons, ih _ (by omega)]
      omega

theorem Awake.ready_sendv (awake : Awake s) (alive : Bool) : Ready (s.ctx.next (.sendv alive s.sndBuf s.writes)) := by
  rw [IxevCtx.next]
  cases desc : s.ctx.sendvDesc with
  | none => exact awake.ready
  | some nrents =>
    simp only [sendvBatch]
    cases alive with
    | false =>
      refine ⟨awake.ready.positive, (Option.some_ne_none 0).symm, fun live => ?_⟩
      cases live
    | true =>
      refine ⟨consume_positive awake.ready.positive, (Option.some_ne_none 0).symm, fun _ more => .inr ?_⟩
      show s.ctx.acked < (s.ctx.taken ++ _).length
      have within := awake.within
      have space := awake.space
      unfold Link.acknowledged at within space
      rw [length_append]
      rcases Nat.eq_zero_or_pos s.sndBuf with none | some
      · -- the send buffer is full of bytes that were not acknowledged
        have full : 0 < tcpSndBuf := by decide
        omega
      · cases entries : s.ctx.send with
        | nil =>
          simp [ixevHandleSendvRet, entries, consume] at more
        | cons e es =>
          have positive := awake.ready.positive e (by rw [entries]; exact mem_cons_self)
          obtain ⟨n, rfl⟩ : ∃ n, nrents = n + 1 :=
            Nat.exists_eq_succ_of_ne_zero fun zero => awake.ready.covers (by rw [desc, zero])
          have first : (e :: es).take (min (n + 1) maxSgEntries) = e :: es.take (min n 29) := by
            have count : min (n + 1) maxSgEntries = min n 29 + 1 := by
              unfold maxSgEntries
              omega
            rw [count, take_succ_cons]
          have takes := tcpWrites_some s.ctx.bufs (replicate es.length true) (es.take (min n 29)) some positive
          rw [Link.writes, entries, first, length_cons, replicate_succ]
          omega

theorem Awake.sendv (awake : Awake s) (alive : Bool) (live : s.ctx.released = false) : Awake (s.next (.sendv alive)) := by
  have grows : ∃ n ≤ s.sndBuf, (s.ctx.next (.sendv alive s.sndBuf s.writes)).taken.length = s.ctx.taken.length + n ∧
      (s.ctx.next (.sendv alive s.sndBuf s.writes)).acked = s.ctx.acked := by
    rw [IxevCtx.next]
    cases desc : s.ctx.sendvDesc with
    | none => exact ⟨0, Nat.zero_le _, rfl, rfl⟩
    | some nrents =>
      cases alive with
      | false => exact ⟨0, Nat.zero_le _, rfl, rfl⟩
      | true => exact ⟨_, tcpWrites_within s.ctx.bufs s.sndBuf s.writes _, length_append, rfl⟩
  obtain ⟨n, fits, taken, acked⟩ := grows
  have space := awake.space
  have within := awake.within
  unfold Link.acknowledged at space within
  have sound : Sound (s.ctx.next (.sendv alive s.sndBuf s.writes)) := awake.sound.next ⟨⟨live, trivial⟩, rfl⟩
  refine ⟨sound, awake.ready_sendv alive, ?_, ?_⟩
  · simp only [Link.next, Link.acknowledged, taken, acked]
    omega
  · simp only [Link.next, Link.acknowledged, taken, acked]
    omega

theorem Awake.next {step} (awake : Awake s) (valid : s.Valid step) : Awake (s.next step) := by
  have space := awake.space
  have within := awake.within
  unfold Link.acknowledged at space within
  cases step with
  | app op =>
    obtain ⟨allowed, app⟩ := valid
    have frame := app_frame awake.sound.counted.depth allowed app
    refine ⟨awake.sound.next ⟨allowed, rfl⟩, awake.ready.app awake.sound.counted.depth allowed app, ?_, ?_⟩
    · simp only [Link.next, Link.acknowledged, frame.1, frame.2]
      exact space
    · simp only [Link.next, Link.acknowledged, frame.1, frame.2]
      exact within
  | sendv alive => exact awake.sendv alive valid
  | ack len =>
    have sum := sum_sentEvents len len (Nat.le_refl _)
    simp only [Link.Valid, Link.acknowledged] at valid
    refine ⟨awake.sound, awake.ready, ?_, ?_⟩
    · simp only [Link.next, Link.acknowledged, sum_append, sum]
      omega
    · simp only [Link.next, Link.acknowledged, sum_append, sum]
      omega
  | tcpSent =>
    cases events : s.events with
    | nil =>
      simp only [Link.next, events]
      exact awake
    | cons len rest =>
      rw [events, sum_cons] at space within
      have taken : s.ctx.acked + len ≤ s.ctx.taken.length := by omega
      have sound : Sound (s.ctx.next (.tcpSent len)) := awake.sound.next ⟨⟨valid, taken⟩, rfl⟩
      simp only [Link.next, events]
      refine ⟨sound, awake.ready.ixevTcpSent len, ?_, ?_⟩
      · show s.sndBuf + s.ctx.taken.length = tcpSndBuf + (s.ctx.acked + len + rest.sum)
        omega
      · show s.ctx.acked + len + rest.sum ≤ s.ctx.taken.length
        omega

theorem Awake.start (bufs : Nat → IxevBuf) : Awake (Link.start bufs) := by
  constructor
  · exact .start bufs
  · exact .start bufs
  · exact Nat.add_zero _
  · exact Nat.le_refl _

end Kernel

/-- Between passes no event waits: entries of a live connection have a descriptor in the batch, or bytes of the connection
are not acknowledged; and the event of an acknowledgement puts a descriptor for all entries into the batch. -/
theorem unsent_entries_are_retried {bufs : Nat → IxevBuf} {steps : List LinkStep} {s : Link}
    (run : Run linkStep (Link.start bufs) steps s) (between : s.events = []) (live : s.ctx.isDead = false)
    (unsent : s.ctx.send ≠ []) :
    (s.ctx.sendvDesc ≠ none ∨ s.acknowledged < s.ctx.taken.length) ∧
      ∀ len, (ixevTcpSent s.ctx len).sendvDesc = some s.ctx.send.length := by
  have awake : Awake s := by
    apply run.invariant (I := Awake)
    · rintro s step _ ⟨valid, rfl⟩ awake
      exact awake.next valid
    · exact .start bufs
  constructor
  · rw [Link.acknowledged, between, List.sum_nil, Nat.add_zero]
    exact awake.ready.moving live unsent
  · intro len
    simp [ixevTcpSent, runCallbacks, List.isEmpty_iff, unsent]

/-- Two bytes are accepted, taken and acknowledged; a third is accepted. -/
def threeBytes : List LinkStep := [.app (.send [1, 2] [0]), .sendv true, .ack 2, .tcpSent, .app (.send [3] [1])]

/-- The third byte waits for the next batch. -/
theorem third_byte_is_retried :
    let s := threeBytes.foldl Link.next (Link.start blankBufs)
    Run linkStep (Link.start blankBufs) threeBytes s ∧ s.events = [] ∧ s.ctx.isDead = false ∧ s.ctx.send ≠ [] ∧
      (s.ctx.sendvDesc ≠ none ∨ s.acknowledged < s.ctx.taken.length) := by
  intro s
  have run : Run linkStep (Link.start blankBufs) threeBytes s := by
    refine .cons ⟨⟨⟨rfl, List.nodup_singleton 0, fun b _ held => ?_⟩, rfl⟩, rfl⟩ (.cons ⟨?_, rfl⟩
      (.cons ⟨?_, rfl⟩ (.cons ⟨?_, rfl⟩
      (.single ⟨⟨⟨by decide +kernel, List.nodup_singleton 1, fun b _ held => ?_⟩, rfl⟩, rfl⟩))))
    · cases held
    · show _ = _
      decide +kernel
    · show _ ≤ _
      decide +kernel
    · show _ = _
      decide +kernel
    · cases held
  have between : s.events = [] := by decide +kernel
  have live : s.ctx.isDead = false := by decide +kernel
  have unsent : s.ctx.send ≠ [] := by
    intro none
    have length := congrArg List.length none
    revert length
    decide +kernel
  exact ⟨run, between, live, unsent, (unsent_entries_are_retried run between live unsent).1⟩

end Reflex.Ixev
