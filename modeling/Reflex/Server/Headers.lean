import Reflex.Server.Effects

/-!
# The headers that arrive

Which headers a list of bytes completes depends on where the connection stands in its stream, and on nothing
that is sent.
-/

namespace Reflex.Server
open Lib List PpConn Status

/-- The next byte completes a header. -/
def PpConn.completes (c : PpConn) : Bool := c.status = .established && !c.rxPending && c.rxReceived + 1 = headerSize

def arriving (env : Env) : PpConn → List UInt8 → List Header
  | _, [] => []
  | c, b :: bytes => (if c.completes then [(storeHeader c [b]).header] else []) ++ arriving env (feed env c b) bytes

def Header.Known (h : Header) : Prop := h.opcode = cmdGet ∨ h.opcode = cmdSet ∨ h.opcode = cmdReg

instance (h : Header) : Decidable h.Known := inferInstanceAs (Decidable (_ ∨ _ ∨ _))

section Opcodes

variable {env : Env} {c d : PpConn} {b : UInt8} {bytes : List UInt8}

theorem dispatch_open (up : c.status ≠ .closed) : (dispatch env c).status ≠ .closed := by
  unfold dispatch
  split_ifs
  · exact noConfusion
  · exact up

theorem receivedPayload_open (up : c.status ≠ .closed) : (receivedPayload env c).status ≠ .closed := by
  unfold receivedPayload
  split_ifs
  · exact noConfusion
  · exact dispatch_open up

theorem allocBufs_open (supply : Nat → Option (Nat → UInt8)) (n i : Nat) (up : c.status ≠ .closed) :
    (allocBufs supply n i c).status ≠ .closed ∧ (allocBufs supply n i c).dataRecv = c.dataRecv := by
  induction n generalizing i c with
  | zero => exact ⟨up, rfl⟩
  | succ n ih =>
    rw [allocBufs]
    cases supply i with
    | none => exact ⟨noConfusion, rfl⟩
    | some page =>
      apply ih
      exact up

theorem receivedHeader_open (env : Env) (up : c.status ≠ .closed) :
    (receivedHeader env c).status ≠ .closed ∧ (receivedHeader env c).header = c.header := by
  unfold receivedHeader
  cases env.alloc c.allocs with
  | none =>
    simp only
    split_ifs
    · exact ⟨noConfusion, rfl⟩
    · exact ⟨up, rfl⟩
    · exact ⟨up, rfl⟩
  | some supply =>
    obtain ⟨still, data⟩ := allocBufs_open supply (num4k env c.header.lbaCount).toNat 0 (c := startRequest c) up
    have header : (allocBufs supply (num4k env c.header.lbaCount).toNat 0 (startRequest c)).header = c.header := congrArg Header.ofBuffer data
    simp only [startPayload]
    split_ifs
    · exact ⟨noConfusion, rfl⟩
    · exact ⟨up, rfl⟩
    · exact ⟨noConfusion, rfl⟩
    · exact ⟨still, header⟩
    · exact ⟨still, header⟩

theorem settle_open (up : c.status ≠ .closed) (known : c.rxPending = true → c.header.opcode = cmdSet ∨ c.header.opcode = cmdGet) :
    (settle env c).status ≠ .closed := by
  unfold settle
  split_ifs with pending set waits get
  · exact up
  · exact receivedPayload_open up
  · exact dispatch_open up
  · rcases known pending.2 with isSet | isGet
    · exact absurd isSet set
    · exact absurd isGet get
  · exact up

theorem receivedHeader_reg (reg : c.header.opcode = cmdReg) : (receivedHeader env c).rxPending = c.rxPending := by
  rw [receivedHeader]
  split_ifs <;> rfl

/-- A byte closes the connection only if it completes a header with an unknown opcode. -/
theorem feed_open (ready : Ready env c) (up : c.status = .established)
    (known : c.completes = true → (storeHeader c [b]).header.Known) : (feed env c b).status ≠ .closed := by
  have still : c.status ≠ .closed := Status.ne_closed up
  rw [feed, if_neg (not_not.2 up)]
  split_ifs with pending short last
  · exact settle_open still fun _ => .inl (ready.payload up pending).1
  · exact still
  · obtain ⟨after, header⟩ := receivedHeader_open env (c := storeHeader c [b]) still
    apply settle_open after
    intro starts
    have completes : c.completes = true := by
      have idle : c.rxPending = false := Bool.eq_false_iff.2 pending
      simp only [completes, up, idle, Bool.not_false, Bool.and_true, decide_true, Bool.true_and, decide_eq_true_eq]
      omega
    rw [header]
    rcases known completes with get | set | reg
    · exact .inr get
    · exact .inl set
    · rw [receivedHeader_reg reg] at starts
      exact absurd starts pending
  · exact still

theorem foldl_feed_open (ready : Ready env c) (up : c.status ≠ .closed) (known : ∀ h ∈ arriving env c bytes, h.Known) :
    (bytes.foldl (feed env) c).status ≠ .closed := by
  induction bytes generalizing c with
  | nil => exact up
  | cons b bytes ih =>
    obtain ⟨here, later⟩ := forall_mem_append.1 known
    by_cases open' : c.status = .established
    · refine ih (feed_ready ready b) (feed_open ready open' fun completes => ?_) later
      apply here
      rw [if_pos completes]
      exact mem_singleton_self _
    · rw [foldl_feed_deaf (.inl open')]
      exact up

/-- Pages may be taken, but nothing is asked of the NVMe layer. -/
def OnlySlots (new : List ServerEvent) : Prop := ∀ e ∈ new, ∃ i, e = .slot i

theorem allocBufs_slots (supply : Nat → Option (Nat → UInt8)) (n i : Nat) (c : PpConn) :
    ∃ new, (allocBufs supply n i c).log = c.log ++ new ∧ OnlySlots new := by
  induction n generalizing i c with
  | zero => exact ⟨[], (append_nil _).symm, forall_mem_nil _⟩
  | succ n ih =>
    rw [allocBufs]
    cases supply i with
    | none => exact ⟨[], (append_nil _).symm, forall_mem_nil _⟩
    | some page =>
      obtain ⟨new, log, slots⟩ := ih (i + 1) { c with
        currentReq := { c.currentReq with buf := Function.update c.currentReq.buf i page }, log := c.log ++ [.slot i] }
      refine ⟨.slot i :: new, ?_, forall_mem_cons.2 ⟨⟨i, rfl⟩, slots⟩⟩
      rw [log, append_assoc, singleton_append]

theorem settle_unknown (env : Env) (unknown : ¬ c.header.Known) :
    (settle env c).log = c.log ∧ ((settle env c).status ≠ .established ∨ c.rxPending = false ∧ settle env c = c) := by
  by_cases pending : c.status = .established ∧ c.rxPending = true
  · rw [settle, if_pos pending, if_neg fun set => unknown (.inr (.inl set)), if_neg fun get => unknown (.inl get)]
    exact ⟨rfl, .inl noConfusion⟩
  · rw [settle, if_neg pending]
    refine ⟨rfl, ?_⟩
    by_cases up : c.status = .established
    · exact .inr ⟨Bool.eq_false_iff.2 fun waits => pending ⟨up, waits⟩, rfl⟩
    · exact .inl up

theorem receivedHeader_unknown (env : Env) (unknown : ¬ c.header.Known) (up : c.status = .established)
    (whole : c.rxReceived = headerSize) :
    (settle env (receivedHeader env c)).Deaf ∧ ∃ new, (settle env (receivedHeader env c)).log = c.log ++ new ∧ OnlySlots new := by
  have other : c.header.opcode ≠ cmdReg := fun reg => unknown (.inr (.inr reg))
  have still : c.status ≠ .closed := Status.ne_closed up
  have header := (receivedHeader_open env still).2
  obtain ⟨log, ends⟩ := settle_unknown env (c := receivedHeader env c) (by rw [header]; exact unknown)
  have parts : ((receivedHeader env c).status ≠ .established ∨ (receivedHeader env c).rxPending = true ∨
      (receivedHeader env c).rxReceived = headerSize) ∧ ∃ new, (receivedHeader env c).log = c.log ++ new ∧ OnlySlots new := by
    have nothing : ∃ new, c.log = c.log ++ new ∧ OnlySlots new := ⟨[], (append_nil _).symm, forall_mem_nil _⟩
    unfold receivedHeader
    cases env.alloc c.allocs with
    | none =>
      simp only [if_neg other]
      split_ifs
      · exact ⟨.inl noConfusion, nothing⟩
      · exact ⟨.inr (.inr whole), nothing⟩
    | some supply =>
      have pages := allocBufs_slots supply (num4k env c.header.lbaCount).toNat 0 (startRequest c)
      simp only [if_neg other, startPayload]
      split_ifs with magic large aborted
      · exact ⟨.inl noConfusion, nothing⟩
      · exact ⟨.inl noConfusion, nothing⟩
      · exact ⟨.inl (by rw [aborted]; exact noConfusion), pages⟩
      · exact ⟨.inr (.inl rfl), pages⟩
  refine ⟨?_, by rw [log]; exact parts.2⟩
  rcases ends with down | ⟨none, same⟩
  · exact .inl down
  · rw [same]
    rcases parts.1 with down | waits | full
    · exact .inl down
    · rw [none] at waits
      cases waits
    · exact .inr ⟨none, full.ge⟩

theorem foldl_feed_unknown {h : Header} (up : c.status = .established) (idle : c.rxPending = false)
    (first : (arriving env c bytes).head? = some h) (unknown : ¬ h.Known) :
    ∃ new, (bytes.foldl (feed env) c).log = c.log ++ new ∧ OnlySlots new := by
  induction bytes generalizing c with
  | nil => cases first
  | cons b bytes ih =>
    rw [foldl_cons]
    rw [arriving] at first
    by_cases short : c.rxReceived + 1 < headerSize
    · have next : feed env c b = storeHeader c [b] := by
        rw [feed, if_neg (not_not.2 up), idle, if_neg Bool.false_ne_true, if_pos short]
      have incomplete : c.completes = false := by
        rw [completes, decide_eq_false (by omega : ¬ c.rxReceived + 1 = headerSize), Bool.and_false]
      rw [incomplete, if_neg Bool.false_ne_true, nil_append, next] at first
      rw [next]
      exact ih up idle first
    · by_cases last : c.rxReceived < headerSize
      · have next : feed env c b = settle env (receivedHeader env (storeHeader c [b])) := by
          rw [feed, if_neg (not_not.2 up), idle, if_neg Bool.false_ne_true, if_neg short, if_pos last]
        have completes : c.completes = true := by
          rw [completes, up, idle, decide_eq_true (by omega : c.rxReceived + 1 = headerSize)]
          rfl
        rw [completes, if_pos rfl] at first
        cases first
        have whole : (storeHeader c [b]).rxReceived = headerSize := by
          show c.rxReceived + 1 = headerSize
          omega
        obtain ⟨deaf, new, log, slots⟩ := receivedHeader_unknown env (c := storeHeader c [b]) unknown up whole
        rw [next, foldl_feed_deaf deaf]
        exact ⟨new, log, slots⟩
      · have deaf : c.Deaf := .inr ⟨idle, not_lt.1 last⟩
        refine ⟨[], ?_, forall_mem_nil _⟩
        rw [← foldl_cons (f := feed env), foldl_feed_deaf deaf, append_nil]

end Opcodes

/-! ## What is sent does not matter -/

/-- A connection without what belongs to sending. -/
def PpConn.muted (c : PpConn) : PpConn :=
  { c with txSent := 0, txPending := false, dataSend := fun _ => 0, wire := [], pendingRequests := [] }

section Muted

variable {env : Env} {c d : PpConn}

theorem SendEffect.muted (effect : SendEffect c d) (same : d.status = c.status) : d.muted = c.muted := by
  rw [effect.frame, same]
  rfl

theorem dispatch_muted (env : Env) (c : PpConn) : (dispatch env c).muted = dispatch env c.muted := by
  rw [dispatch, apply_ite muted]
  rfl

theorem receivedPayload_muted (env : Env) (c : PpConn) : (receivedPayload env c).muted = receivedPayload env c.muted := by
  rw [receivedPayload, apply_ite muted, dispatch_muted]
  rfl

theorem allocBufs_muted (supply : Nat → Option (Nat → UInt8)) (n i : Nat) (c : PpConn) :
    (allocBufs supply n i c).muted = allocBufs supply n i c.muted := by
  induction n generalizing i c with
  | zero => rfl
  | succ n ih =>
    rw [allocBufs, allocBufs]
    cases supply i with
    | none => rfl
    | some page => exact ih (i + 1) _

theorem receivedHeader_muted (env : Env) (c : PpConn) : (receivedHeader env c).muted = receivedHeader env c.muted := by
  have pool : c.muted.allocs = c.allocs := rfl
  unfold receivedHeader
  rw [pool]
  cases env.alloc c.allocs with
  | none =>
    rw [apply_ite muted, apply_ite muted]
    rfl
  | some supply =>
    have pages := allocBufs_muted supply (num4k env c.header.lbaCount).toNat 0 (startRequest c)
    have rest : (startPayload (allocBufs supply (num4k env c.header.lbaCount).toNat 0 (startRequest c))).muted =
        startPayload (allocBufs supply (num4k env c.header.lbaCount).toNat 0 (startRequest c.muted)) := by
      rw [show startRequest c.muted = (startRequest c).muted from rfl, ← pages, startPayload, apply_ite muted]
      rfl
    simp only
    rw [apply_ite muted, apply_ite muted, apply_ite muted, rest]
    rfl

theorem settle_muted (env : Env) (c : PpConn) : (settle env c).muted = settle env c.muted := by
  rw [settle, apply_ite muted, apply_ite muted, apply_ite muted, apply_ite muted, receivedPayload_muted, dispatch_muted]
  rfl

theorem feed_muted (env : Env) (c : PpConn) (b : UInt8) : (feed env c b).muted = feed env c.muted b := by
  rw [feed, apply_ite muted, apply_ite muted, apply_ite muted, apply_ite muted, settle_muted, settle_muted, receivedHeader_muted]
  rfl

theorem arriving_muted (env : Env) (c : PpConn) (bytes : List UInt8) : arriving env c.muted bytes = arriving env c bytes := by
  induction bytes generalizing c with
  | nil => rfl
  | cons b bytes ih =>
    rw [arriving, arriving, ← feed_muted, ih]
    rfl

end Muted

end Reflex.Server
