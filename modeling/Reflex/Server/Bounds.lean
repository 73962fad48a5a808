import Reflex.Server.Framing

/-!
# Bounds of requests

Which headers keep the server within the 256 pages of a request and the device within the
namespace. `receive_req` compares the number of whole pages with the limit before it adds
the page of the remainder, stores that number in an `int`, and compares the start of the
access, in units of 512 bytes, with the size of the namespace.
-/

namespace Reflex.Server
open Lib List ServerEvent

/-- The pages exist in `buf`, and the blocks in the namespace. -/
def ServerEvent.InBounds (env : Env) : ServerEvent → Prop
  | .slot i | .fill i => i < maxPagesPerAccess
  | .readv _ _ req | .writev _ _ req =>
    req.lbaCount.toNat * env.nsSectorSize ≤ maxPagesPerAccess * pageSize ∧
      (req.lba.toNat + req.lbaCount.toNat) * env.nsSectorSize ≤ env.nsSize
  | .registerFlow _ _ _ _ => True

section Header

variable (nsSize nsSectorSize : Nat) (h : Header)

/-- The whole pages of the access, whose number of bytes is an `unsigned long`. -/
def Header.pages : Nat := h.lbaCount.toNat * nsSectorSize % 2 ^ 64 / pageSize

/-- The header ends before a page is taken. -/
def Header.Stopped : Prop :=
  h.magic ≠ 24 ∨ h.opcode = cmdReg ∨ maxPagesPerAccess < h.pages nsSectorSize % 2 ^ 32 ∧ h.pages nsSectorSize % 2 ^ 32 < 2 ^ 31

def Header.Admitted : Prop :=
  (h.opcode = cmdGet ∨ h.opcode = cmdSet ∧ h.pages nsSectorSize % 2 ^ 32 ≤ h.lbaCount.toNat * 8 % 2 ^ 32) ∧
    h.lba.toNat * 512 % 2 ^ 64 < nsSize

/-- A header that takes pages stays within them, and within the namespace if it is admitted. -/
structure Header.Confined : Prop where
  slots : h.pages nsSectorSize % 2 ^ 32 = maxPagesPerAccess → h.lbaCount.toNat * nsSectorSize % pageSize = 0
  payload : h.opcode = cmdSet → h.lbaCount.toNat * nsSectorSize % 2 ^ 64 ≤ maxPagesPerAccess * pageSize
  device : h.Admitted nsSize nsSectorSize → h.lbaCount.toNat * nsSectorSize ≤ maxPagesPerAccess * pageSize ∧
    (h.lba.toNat + h.lbaCount.toNat) * nsSectorSize ≤ nsSize

end Header

section Arithmetic

variable {env : Env} {h : Header}

theorem within_limit_iff : num4kWhole env h.lbaCount ≤ maxPagesPerAccess ↔
    h.pages env.nsSectorSize % 2 ^ 32 ≤ maxPagesPerAccess ∨ 2 ^ 31 ≤ h.pages env.nsSectorSize % 2 ^ 32 := by
  show Int.bmod (h.pages env.nsSectorSize : Nat) (2 ^ 32) ≤ _ ↔ _
  rw [bmod_word]
  unfold maxPagesPerAccess
  split_ifs <;> omega

theorem not_stopped_iff : ¬ h.Stopped env.nsSectorSize ↔
    h.magic = 24 ∧ h.opcode ≠ cmdReg ∧ num4kWhole env h.lbaCount ≤ maxPagesPerAccess := by
  rw [within_limit_iff, Header.Stopped]
  constructor
  · intro goesOn
    refine ⟨?_, ?_, ?_⟩
    · by_contra magic
      exact goesOn (.inl magic)
    · exact fun register => goesOn (.inr (.inl register))
    · by_contra beyond
      exact goesOn (.inr (.inr (by omega)))
  · rintro ⟨magic, request, limit⟩ (other | register | beyond)
    · exact other magic
    · exact request register
    · omega

theorem accessBytes_mod (env : Env) (lbaCount : UInt32) :
    accessBytes env lbaCount % pageSize = lbaCount.toNat * env.nsSectorSize % pageSize :=
  Nat.mod_mod_of_dvd _ (by decide)

theorem num4k_toNat : (num4k env h.lbaCount).toNat =
    if h.pages env.nsSectorSize % 2 ^ 32 < 2 ^ 31 then
      h.pages env.nsSectorSize % 2 ^ 32 + if h.lbaCount.toNat * env.nsSectorSize % pageSize = 0 then 0 else 1
    else 0 := by
  have whole : num4kWhole env h.lbaCount = Int.bmod (h.pages env.nsSectorSize : Nat) (2 ^ 32) := rfl
  rw [num4k, accessBytes_mod, whole, bmod_word]
  split_ifs <;> omega

theorem slots_within (limit : num4kWhole env h.lbaCount ≤ maxPagesPerAccess) : (num4k env h.lbaCount).toNat ≤ maxPagesPerAccess ↔
    (h.pages env.nsSectorSize % 2 ^ 32 = maxPagesPerAccess → h.lbaCount.toNat * env.nsSectorSize % pageSize = 0) := by
  rw [within_limit_iff] at limit
  rw [num4k_toNat]
  unfold maxPagesPerAccess at *
  split_ifs <;> omega

theorem pageCount_le {bytes} : pageCount bytes ≤ maxPagesPerAccess ↔ bytes ≤ maxPagesPerAccess * pageSize := by
  unfold pageCount maxPagesPerAccess pageSize
  omega

end Arithmetic

section Outcome

variable {env : Env} {c d : PpConn} {h : Header} {payload : List UInt8}

theorem slots_inBounds_iff {n} :
    (∀ e ∈ (range' 0 n).map slot, e.InBounds env) ↔ n ≤ maxPagesPerAccess := by
  rw [forall_mem_map]
  constructor
  · intro all
    by_contra beyond
    exact Nat.lt_irrefl _ (all maxPagesPerAccess (mem_range'_1.2 (by omega)))
  · intro few i inside
    have below := (mem_range'_1.1 inside).2
    show i < maxPagesPerAccess
    omega

theorem fills_inBounds_iff {n} : (∀ e ∈ (range n).map fill, e.InBounds env) ↔ n ≤ maxPagesPerAccess := by
  have same := @slots_inBounds_iff env n
  rw [forall_mem_map] at same ⊢
  rw [range_eq_range']
  exact same

theorem allocBufs_refused {supply n i} (short : ¬ ∀ j < n, supply (i + j) ≠ none) (c : PpConn) :
    (allocBufs supply n i c).status = .aborted ∧ ∃ k < n, (allocBufs supply n i c).log = c.log ++ (range' i k).map .slot := by
  induction n generalizing i c with
  | zero => exact absurd (fun j below => absurd below (Nat.not_lt_zero j)) short
  | succ n ih =>
    rw [allocBufs]
    cases found : supply i with
    | none => exact ⟨rfl, 0, n.succ_pos, (append_nil _).symm⟩
    | some page =>
      have later : ¬ ∀ j < n, supply (i + 1 + j) ≠ none := by
        intro all
        apply short
        intro j below
        cases j with
        | zero => rw [Nat.add_zero, found]; exact Option.some_ne_none _
        | succ j =>
          have next := all j (by omega)
          rwa [Nat.add_right_comm] at next
      obtain ⟨aborted, k, below, log⟩ := ih later { c with
        currentReq := { c.currentReq with buf := Function.update c.currentReq.buf i page }
        log := c.log ++ [.slot i] }
      refine ⟨aborted, k + 1, by omega, log.trans ?_⟩
      rw [range'_succ, map_cons, append_assoc, singleton_append]

theorem PpConn.Idle.feed_deaf (idle : c.Idle) (deaf : (receivedHeader env (storeHeader c h.bytes)).Deaf) (payload : List UInt8) :
    (h.bytes ++ payload).foldl (feed env) c = receivedHeader env (storeHeader c h.bytes) := by
  rw [foldl_append, idle.feed_header, settle_of_not_pending, foldl_feed_deaf deaf]
  exact deaf.imp_right And.left

/-- A request beyond the limit or without its pages is refused; slots are taken only within the limit. -/
theorem PpConn.Idle.refused (idle : c.Idle) (magic : h.magic = 24) (request : h.opcode ≠ cmdReg)
    (refused : ¬ (num4kWhole env h.lbaCount ≤ maxPagesPerAccess ∧ env.Grants c.allocs (num4k env h.lbaCount).toNat)) :
    (receivedHeader env (storeHeader c h.bytes)).Deaf ∧
      ∃ k, (receivedHeader env (storeHeader c h.bytes)).log = c.log ++ (range' 0 k).map .slot ∧
        k ≤ (num4k env h.lbaCount).toNat ∧ (0 < k → num4kWhole env h.lbaCount ≤ maxPagesPerAccess) := by
  have header := storeHeader_header idle.received h
  have nothing : c.log = c.log ++ (range' 0 0).map slot := (append_nil _).symm
  rw [receivedHeader, header, if_neg (not_not.2 magic), if_neg request]
  cases found : env.alloc (storeHeader c h.bytes).allocs with
  | none =>
    refine ⟨.inr ⟨idle.pending, ?_⟩, 0, nothing, Nat.zero_le _, fun some => absurd some (Nat.lt_irrefl 0)⟩
    show headerSize ≤ c.rxReceived + h.bytes.length
    rw [idle.received, h.bytes_length, Nat.zero_add]
  | some supply =>
    by_cases limit : num4kWhole env h.lbaCount ≤ maxPagesPerAccess
    · have short : ¬ ∀ j < (num4k env h.lbaCount).toNat, supply (0 + j) ≠ none := by
        intro all
        simp only [Nat.zero_add] at all
        exact refused ⟨limit, supply, found, all⟩
      obtain ⟨aborted, k, below, log⟩ := allocBufs_refused short (startRequest (storeHeader c h.bytes))
      simp only [if_neg (not_lt.2 limit), startPayload, if_pos aborted]
      exact ⟨.inl (by rw [aborted]; decide), k, log, below.le, fun _ => limit⟩
    · simp only [if_pos (not_le.1 limit)]
      exact ⟨.inl (by show Status.aborted ≠ .established; decide), 0, nothing, Nat.zero_le _,
        fun some => absurd some (Nat.lt_irrefl 0)⟩

theorem PpConn.Idle.stopped (idle : c.Idle) (stopped : h.Stopped env.nsSectorSize)
    (within : h.Carries env payload) :
    ∃ new, ((h.bytes ++ payload).foldl (feed env) c).log = c.log ++ new ∧ ∀ e ∈ new, e.InBounds env := by
  have header := storeHeader_header idle.received h
  by_cases magic : h.magic = 24
  · by_cases register : h.opcode = cmdReg
    · have only : payload = [] := within.resolve_right fun set => absurd (register.symm.trans set.1) (by decide)
      refine ⟨[.registerFlow c.connFgHandle (h.lbaCount >>> 7) h.lba (h.lbaCount &&& 0x7f)], ?_, forall_mem_singleton.2 trivial⟩
      rw [only, append_nil, idle.feed_header,
        receivedHeader_register (by rw [header]; exact magic) (by rw [header]; exact register), header, settle_of_not_pending]
      · rfl
      · exact .inr idle.pending
    · have beyond : ¬ num4kWhole env h.lbaCount ≤ maxPagesPerAccess := fun limit =>
        not_stopped_iff.2 ⟨magic, register, limit⟩ stopped
      obtain ⟨deaf, k, log, -, some⟩ := idle.refused magic register fun both => beyond both.1
      have none : k = 0 := Nat.eq_zero_of_not_pos (mt some beyond)
      refine ⟨[], ?_, forall_mem_nil _⟩
      rw [idle.feed_deaf deaf, log, none]
      rfl
  · have aborts : receivedHeader env (storeHeader c h.bytes) = (storeHeader c h.bytes).abort := by
      rw [receivedHeader, header, if_pos magic]
    refine ⟨[], ?_, forall_mem_nil _⟩
    rw [idle.feed_deaf, aborts, append_nil]
    · rfl
    · rw [aborts]
      exact .inl (by show Status.aborted ≠ .established; decide)

theorem dispatch_log (env : Env) (d : PpConn) :
    d.header.lba.toNat * 512 % 2 ^ 64 < env.nsSize ∧ (dispatch env d).log = d.log ++ [submission env d] ∨
      ¬ d.header.lba.toNat * 512 % 2 ^ 64 < env.nsSize ∧ (dispatch env d).log = d.log := by
  by_cases passes : d.header.lba.toNat * 512 % 2 ^ 64 < env.nsSize
  · exact .inl ⟨passes, by rw [dispatch_passes passes]⟩
  · exact .inr ⟨passes, by rw [dispatch_aborts (not_lt.1 passes)]; rfl⟩

theorem Receiving.settle_log (r : Receiving env c h payload d)
    (within : h.Carries env payload) :
    let complete := h.opcode = cmdSet → payload.length = accessBytes env h.lbaCount
    (h.Admitted env.nsSize env.nsSectorSize ∧ complete) ∧ (settle env d).log = d.log ++ [submission env d] ∨
      ¬ (h.Admitted env.nsSize env.nsSectorSize ∧ complete) ∧ (settle env d).log = d.log := by
  intro complete
  have sent := dispatch_log env d
  rw [r.header] at sent
  by_cases set : h.opcode = cmdSet
  · have write : h.opcode ≠ cmdGet := by rw [set]; decide
    by_cases whole : payload.length = accessBytes env h.lbaCount
    · rw [r.settle_set set whole, whole]
      split_ifs with few
      · refine .inr ⟨fun both => ?_, rfl⟩
        exact absurd (both.1.1.resolve_left write).2 (not_le.2 few)
      · have admitted : h.Admitted env.nsSize env.nsSectorSize ∧ complete ↔ h.lba.toNat * 512 % 2 ^ 64 < env.nsSize :=
          ⟨fun both => both.1.2, fun passes => ⟨⟨.inr ⟨set, not_lt.1 few⟩, passes⟩, fun _ => whole⟩⟩
        rwa [admitted]
    · have waits : payload.length < accessBytes env h.lbaCount := by
        rcases within with rfl | ⟨-, within⟩
        · exact Nat.pos_of_ne_zero (Ne.symm whole)
        · omega
      rw [settle_of_waiting (by rw [r.header]; exact set) (by rw [r.header, r.received]; exact waits)]
      exact .inr ⟨fun both => whole (both.2 set), rfl⟩
  · by_cases get : h.opcode = cmdGet
    · have admitted : h.Admitted env.nsSize env.nsSectorSize ∧ complete ↔ h.lba.toNat * 512 % 2 ^ 64 < env.nsSize :=
        ⟨fun both => both.1.2, fun passes => ⟨⟨.inl get, passes⟩, fun write => absurd write set⟩⟩
      rwa [r.settle_get get, admitted]
    · refine .inr ⟨fun both => both.1.1.elim get fun write => set write.1, ?_⟩
      rw [settle, if_pos ⟨r.up, r.pending⟩, r.header, if_neg set, if_neg get]
      rfl

theorem Receiving.submission_inBounds (r : Receiving env c h payload d) : (submission env d).InBounds env ↔
    h.lbaCount.toNat * env.nsSectorSize ≤ maxPagesPerAccess * pageSize ∧
      (h.lba.toNat + h.lbaCount.toNat) * env.nsSectorSize ≤ env.nsSize := by
  rw [submission, PpConn.request, r.header]
  split_ifs <;> rfl

theorem PpConn.Idle.confined (idle : c.Idle) (goesOn : ¬ h.Stopped env.nsSectorSize) (confined : h.Confined env.nsSize env.nsSectorSize)
    (within : h.Carries env payload) :
    ∃ new, ((h.bytes ++ payload).foldl (feed env) c).log = c.log ++ new ∧ ∀ e ∈ new, e.InBounds env := by
  obtain ⟨magic, request, limit⟩ := not_stopped_iff.1 goesOn
  have few := (slots_within limit).2 confined.slots
  by_cases granted : env.Grants c.allocs (num4k env h.lbaCount).toNat
  · obtain ⟨d, fed, r, -⟩ := idle.receiving granted magic request limit within
    have room : payload.length ≤ maxPagesPerAccess * pageSize := by
      rcases within with rfl | ⟨set, within⟩
      · exact Nat.zero_le _
      · exact within.trans (confined.payload set)
    have pages : ∀ e ∈ (range' 0 (num4k env h.lbaCount).toNat).map slot ++
        (range (pageCount payload.length)).map fill, e.InBounds env :=
      forall_mem_append.2 ⟨slots_inBounds_iff.2 few, fills_inBounds_iff.2 (pageCount_le.2 room)⟩
    rw [fed]
    rcases r.settle_log within with ⟨⟨admitted, -⟩, log⟩ | ⟨-, log⟩
    · rw [log, r.log, append_assoc, append_assoc, ← append_assoc (map _ _)]
      refine ⟨_, rfl, forall_mem_append.2 ⟨pages, forall_mem_singleton.2 ?_⟩⟩
      exact r.submission_inBounds.2 (confined.device admitted)
    · rw [log, r.log, append_assoc]
      exact ⟨_, rfl, pages⟩
  · obtain ⟨deaf, k, log, below, -⟩ := idle.refused magic request fun both => granted both.2
    rw [idle.feed_deaf deaf, log]
    exact ⟨_, rfl, slots_inBounds_iff.2 (below.trans few)⟩

/-- What a request that stays in bounds shows: on its slots, on the pages that the payload
reaches and, if it is complete, on the blocks. -/
structure Shown (env : Env) (h : Header) (payload : List UInt8) : Prop where
  slots : (num4k env h.lbaCount).toNat ≤ maxPagesPerAccess
  fills : payload.length ≤ maxPagesPerAccess * pageSize
  blocks : h.Admitted env.nsSize env.nsSectorSize → (h.opcode = cmdSet → payload.length = accessBytes env h.lbaCount) →
    h.lbaCount.toNat * env.nsSectorSize ≤ maxPagesPerAccess * pageSize ∧
      (h.lba.toNat + h.lbaCount.toNat) * env.nsSectorSize ≤ env.nsSize

theorem Receiving.shown (r : Receiving env c h payload d) (within : h.Carries env payload)
    (safe : ∀ e ∈ (settle env d).log.drop c.log.length, e.InBounds env) : Shown env h payload := by
  rcases r.settle_log within with ⟨-, log⟩ | ⟨not, log⟩
  · rw [log, r.log, append_assoc, append_assoc, drop_left, forall_mem_append, forall_mem_append,
      slots_inBounds_iff, fills_inBounds_iff, pageCount_le, forall_mem_singleton, r.submission_inBounds] at safe
    exact ⟨safe.1, safe.2.1, fun _ _ => safe.2.2⟩
  · rw [log, r.log, append_assoc, drop_left, forall_mem_append, slots_inBounds_iff, fills_inBounds_iff,
      pageCount_le] at safe
    exact ⟨safe.1, safe.2, fun admitted complete => absurd ⟨admitted, complete⟩ not⟩

theorem PpConn.Idle.confined_of_inBounds (idle : c.Idle) (supplies : env.Supplies) (goesOn : ¬ h.Stopped env.nsSectorSize)
    (safe : ∀ payload, h.Carries env payload →
      ∀ e ∈ ((h.bytes ++ payload).foldl (feed env) c).log.drop c.log.length, e.InBounds env) :
    h.Confined env.nsSize env.nsSectorSize := by
  obtain ⟨magic, request, limit⟩ := not_stopped_iff.1 goesOn
  have shown : ∀ payload, h.Carries env payload → Shown env h payload := by
    intro payload within
    obtain ⟨d, fed, r, -⟩ := idle.receiving (supplies _ _) magic request limit within
    apply r.shown within
    rw [← fed]
    exact safe payload within
  constructor
  · exact (slots_within limit).1 (shown [] (.inl rfl)).slots
  · -- one byte more than fits reaches a page that does not exist
    intro set
    by_contra beyond
    have length : (replicate (maxPagesPerAccess * pageSize + 1) (0 : UInt8)).length = maxPagesPerAccess * pageSize + 1 :=
      length_replicate
    have reached := (shown _ (.inr ⟨set, length.le.trans (not_le.1 beyond)⟩)).fills
    omega
  · intro admitted
    rcases admitted.1 with get | ⟨set, -⟩
    · exact (shown [] (.inl rfl)).blocks admitted fun set => absurd (get.symm.trans set) (by decide)
    · have length : (replicate (accessBytes env h.lbaCount) (0 : UInt8)).length = accessBytes env h.lbaCount :=
        length_replicate
      exact (shown _ (.inr ⟨set, length.le⟩)).blocks admitted fun _ => length

end Outcome

/-- A header keeps the server within the pages of the request and the device within the
namespace, whatever payload follows, in whatever segments, and whatever the pools return,
just if it is stopped early or confined. -/
theorem header_in_bounds_iff {c : PpConn} (idle : c.Idle) (nsSize nsSectorSize : Nat) (h : Header) :
    (∀ (alloc : Nat → Option (Nat → Option (Nat → UInt8))) (payload : List UInt8) (events : List NetEvent),
      let env : Env := ⟨nsSize, nsSectorSize, alloc⟩
      h.Carries env payload →
      delivered events = h.bytes ++ payload →
      ∀ e ∈ ((events ++ [NetEvent.input]).foldl (netStep env) (c, [])).1.log.drop c.log.length, e.InBounds env) ↔
      h.Stopped nsSectorSize ∨ h.Confined nsSize nsSectorSize := by
  constructor
  · intro safe
    by_contra neither
    obtain ⟨goesOn, loose⟩ := not_or.1 neither
    apply loose
    refine idle.confined_of_inBounds (ampleEnv_supplies nsSize nsSectorSize) goesOn fun payload within => ?_
    have all := safe _ payload [.segment (h.bytes ++ payload)] within (List.flatMap_singleton _ _)
    rwa [net_input _ idle.ready, delivered, List.flatMap_singleton] at all
  · intro kept alloc payload events env within stream
    rw [net_input events idle.ready, stream]
    obtain ⟨new, log, inBounds⟩ : ∃ new, ((h.bytes ++ payload).foldl (feed env) c).log = c.log ++ new ∧ ∀ e ∈ new, e.InBounds env := by
      by_cases stopped : h.Stopped nsSectorSize
      · exact idle.stopped stopped within
      · exact idle.confined stopped (kept.resolve_left stopped) within
    rw [log, List.drop_left]
    exact inBounds

/-- A read of the last block. -/
theorem last_block_in_bounds :
    let h : Header := ⟨24, cmdGet, 1, 2047, 1⟩
    let env := ampleEnv 1048576 512
    let s := [.segment (h.bytes.take 10), .input, .segment (h.bytes.drop 10), .input].foldl (netStep env) (ppAccept blankConn 80, [])
    h.Confined 1048576 512 ∧ ∀ e ∈ s.1.log, e.InBounds env := by
  intro h env s
  have confined : h.Confined 1048576 512 := ⟨by decide, by decide, fun _ => by decide⟩
  refine ⟨confined, ?_⟩
  apply (header_in_bounds_iff (ppAccept_idle blankConn 80) 1048576 512 h).2 (Or.inr confined) _ []
    [.segment (h.bytes.take 10), .input, .segment (h.bytes.drop 10)] (Or.inl rfl)
  show h.bytes.take 10 ++ ([] ++ (h.bytes.drop 10 ++ [])) = h.bytes ++ []
  rw [List.append_nil, List.nil_append, List.take_append_drop, List.append_nil]

/-- A read that starts at the last block goes on behind it, and one of 256 pages and a
block takes a slot behind the last. -/
theorem requests_out_of_bounds :
    let env := ampleEnv 1048576 512
    let run (h : Header) := [.segment h.bytes, .input].foldl (netStep env) (ppAccept blankConn 80, [])
    (∃ fgHandle numSgls req, .readv fgHandle numSgls req ∈ (run ⟨24, cmdGet, 1, 2047, 2⟩).1.log ∧
      req.lba = 2047 ∧ req.lbaCount = 2 ∧ ¬ (2047 + 2) * 512 ≤ env.nsSize) ∧
      .slot maxPagesPerAccess ∈ (run ⟨24, cmdGet, 1, 0, 2049⟩).1.log := by
  intro env run
  have idle := ppAccept_idle blankConn 80
  have fed : ∀ h : Header, (run h).1 = (h.bytes ++ []).foldl (feed env) (ppAccept blankConn 80) := by
    intro h
    have same := net_input [.segment h.bytes] (idle.ready : Ready env _)
    rw [delivered, List.flatMap_singleton] at same
    rw [List.append_nil]
    exact same
  have supplies := ampleEnv_supplies 1048576 512
  constructor
  · obtain ⟨d, settled, r, -⟩ := idle.receiving (h := ⟨24, cmdGet, 1, 2047, 2⟩) (supplies _ _) rfl (by decide)
      (num4kWhole_within (by decide)) (Or.inl rfl)
    rw [fed, settled, r.settle_get rfl, dispatch_passes (by rw [r.header]; decide)]
    have read : submission env d = .readv d.nvmeFgHandle (num4k env d.header.lbaCount) d.request := by
      rw [submission, if_neg (by rw [r.header]; decide)]
    refine ⟨_, _, d.request, List.mem_append_right _ (List.mem_singleton.2 read.symm), ?_, ?_, by decide⟩
    · rw [PpConn.request, r.header]
    · rw [PpConn.request, r.header]
  · obtain ⟨d, settled, r, -⟩ := idle.receiving (h := ⟨24, cmdGet, 1, 0, 2049⟩) (supplies _ _) rfl (by decide)
      (within_limit_iff.2 (by decide)) (Or.inl rfl)
    rw [fed, settled, r.settle_get rfl, dispatch_passes (by rw [r.header]; decide)]
    apply List.mem_append_left
    rw [r.log, num4k_toNat]
    exact List.mem_append_left _ (List.mem_append_right _ (List.mem_map_of_mem (List.mem_range'_1.2 (by decide))))

end Reflex.Server
