import Reflex.Server.Framing

/-!
# Without a request object

`receive_req` returns when the pool has no request for a complete header, and leaves `rx_received` at 24 with
`rx_pending` clear. The next call asks `ixev_recv` for no bytes, which is answered with `-EAGAIN` whatever has
arrived and whatever the pool holds by then.
-/

namespace Reflex.Server
open Lib List Message

/-- The pools hold something else than before. -/
def Env.refilled (env : Env) (pool : Nat → Option (Nat → Option (Nat → UInt8))) : Env := { env with alloc := pool }

/-- Whether the message needs a request from the pool. -/
def Message.requests (m : Message) : Nat := if m.header.opcode = cmdReg then 0 else 1

/-- How many requests the first `n` bytes of a stream ask for, up to a message that fails an
assertion. -/
def askedWithin (env : Env) : List Message → Nat → Nat
  | [], _ => 0
  | m :: messages, n =>
    if m.Passes env ∧ headerSize ≤ n then m.requests + askedWithin env messages (n - m.bytes.length) else 0

section Refilled

variable {env : Env} {c : PpConn} {m : Message} {pool : Nat → Option (Nat → Option (Nat → UInt8))}

theorem settle_refilled (env : Env) (pool : Nat → Option (Nat → Option (Nat → UInt8))) (c : PpConn) :
    settle (env.refilled pool) c = settle env c := rfl

theorem Ready.refilled (ready : Ready env c) : Ready (env.refilled pool) c := ⟨ready.payload⟩

theorem Message.WellFormed.refilled (wellFormed : m.WellFormed env) : m.WellFormed (env.refilled pool) := by
  cases m with
  | get reqHandle lba lbaCount => exact ⟨wellFormed.pages, wellFormed.first, wellFormed.last⟩
  | set reqHandle lba lbaCount payload => exact ⟨⟨wellFormed.1.pages, wellFormed.1.first, wellFormed.1.last⟩, wellFormed.2⟩
  | reg reqHandle iopsSLO slo => trivial

theorem PpConn.Idle.starved (idle : c.Idle) {h : Header} (magic : h.magic = 24) (request : h.opcode ≠ cmdReg)
    (empty : env.alloc c.allocs = none) :
    h.bytes.foldl (feed env) c = storeHeader c h.bytes ∧ (storeHeader c h.bytes).Deaf := by
  have header := storeHeader_header idle.received h
  have stuck : receivedHeader env (storeHeader c h.bytes) = storeHeader c h.bytes := by
    rw [receivedHeader, header, if_neg (not_not.2 magic), if_neg request, show env.alloc (storeHeader c h.bytes).allocs = none from empty]
  refine ⟨?_, .inr ⟨idle.pending, ?_⟩⟩
  · rw [idle.feed_header, stuck]
    exact settle_of_not_pending (.inr idle.pending)
  · show headerSize ≤ c.rxReceived + h.bytes.length
    rw [h.bytes_length]
    exact Nat.le_add_left _ _

theorem Message.header_magic (m : Message) : m.header.magic = 24 := by
  cases m <;> rfl

theorem Message.WellFormed.carries (wellFormed : m.WellFormed env) (request : m.header.opcode ≠ cmdReg) :
    num4kWhole env m.header.lbaCount ≤ maxPagesPerAccess ∧ m.header.Carries env m.payload := by
  cases m with
  | get reqHandle lba lbaCount => exact ⟨num4kWhole_within wellFormed.pages, .inl rfl⟩
  | set reqHandle lba lbaCount payload =>
    refine ⟨num4kWhole_within wellFormed.1.pages, .inr ⟨rfl, ?_⟩⟩
    show payload.length ≤ accessBytes env lbaCount
    rw [accessBytes_of_le wellFormed.1.pages, wellFormed.2]
  | reg reqHandle iopsSLO slo => exact absurd rfl request

theorem Message.Granted.of_some {allocs} (pages : ∀ k supply, env.alloc k = some supply → ∀ i, supply i ≠ none)
    (found : env.alloc allocs ≠ none) (m : Message) : m.Granted env allocs := by
  intro _
  obtain ⟨supply, same⟩ := Option.ne_none_iff_exists'.1 found
  exact ⟨supply, same, fun i _ => pages allocs supply same i⟩

theorem settle_allocs (env : Env) (c : PpConn) : (settle env c).allocs = c.allocs := by
  unfold settle receivedPayload dispatch
  split_ifs <;> rfl

theorem PpConn.Idle.message_allocs (idle : c.Idle) (granted : m.Granted env c.allocs) (wellFormed : m.WellFormed env) :
    (m.bytes.foldl (feed env) c).allocs = c.allocs + m.requests := by
  unfold requests
  split_ifs with register
  · have header := storeHeader_header idle.received m.header
    have plain : m.payload = [] := by
      cases m with
      | reg reqHandle iopsSLO slo => rfl
      | get reqHandle lba lbaCount => rfl
      | set reqHandle lba lbaCount payload => exact absurd register (show cmdSet ≠ cmdReg by decide)
    rw [bytes, plain, append_nil, idle.feed_header,
      receivedHeader_register (by rw [header]; exact m.header_magic) (by rw [header]; exact register), settle_allocs]
    rfl
  · obtain ⟨limit, carries⟩ := wellFormed.carries register
    obtain ⟨d, fed, -, taken⟩ := idle.receiving (granted register) m.header_magic register limit carries
    rw [bytes, fed, settle_allocs, taken]

theorem PpConn.Idle.rest_refilled (idle : c.Idle) (granted : env.alloc c.allocs ≠ none → m.Granted env c.allocs)
    (wellFormed : m.WellFormed env) {x y} (parts : m.bytes = x ++ y) (whole : headerSize ≤ x.length) :
    y.foldl (feed (env.refilled pool)) (x.foldl (feed env) c) = m.bytes.foldl (feed env) c := by
  obtain ⟨p, rfl, payload⟩ : ∃ p, x = m.header.bytes ++ p ∧ m.payload = p ++ y := by
    rcases append_eq_append_iff.1 (show m.header.bytes ++ m.payload = x ++ y from parts) with ⟨p, front, back⟩ | ⟨p, front, back⟩
    · exact ⟨p, front, back⟩
    · -- the header cannot go on behind `x`
      have length := congrArg length front
      rw [m.header.bytes_length, length_append] at length
      have none : p = [] := length_eq_zero_iff.1 (by omega)
      rw [none, append_nil] at front
      rw [none, nil_append] at back
      exact ⟨[], by rw [append_nil, front], back.symm⟩
  have cut : m.bytes.foldl (feed env) c = y.foldl (feed env) ((m.header.bytes ++ p).foldl (feed env) c) := by
    rw [parts, foldl_append]
  rw [cut]
  by_cases request : m.header.opcode = cmdReg
  · have plain : y = [] := by
      cases m with
      | reg reqHandle iopsSLO slo => exact (append_eq_nil_iff.1 payload.symm).2
      | get reqHandle lba lbaCount => exact (append_eq_nil_iff.1 payload.symm).2
      | set reqHandle lba lbaCount payload => exact absurd request (show cmdSet ≠ cmdReg by decide)
    rw [plain, foldl_nil, foldl_nil]
  by_cases empty : env.alloc c.allocs = none
  · obtain ⟨stuck, deaf⟩ := idle.starved m.header_magic request empty
    rw [foldl_append, stuck, foldl_feed_deaf deaf, foldl_feed_deaf deaf, foldl_feed_deaf deaf]
  · obtain ⟨limit, carries⟩ := wellFormed.carries request
    rcases carries with none | ⟨set, length⟩
    · rw [none] at payload
      rw [(append_eq_nil_iff.1 payload.symm).2, foldl_nil, foldl_nil]
    · rw [payload, length_append] at length
      obtain ⟨d, fed, r, -⟩ := idle.receiving (granted empty request) m.header_magic request limit
        (.inr ⟨set, Nat.le_of_add_right_le length⟩ : m.header.Carries env p)
      have opcode : d.header.opcode = cmdSet := by rw [r.header, set]
      have within : d.rxReceived + y.length ≤ accessBytes env d.header.lbaCount := by
        rw [r.received, r.header]
        exact length
      rw [fed, foldl_feed_storeBytes r.up r.pending opcode within, ← settle_refilled env pool d]
      exact foldl_feed_storeBytes r.up r.pending opcode within

theorem PpConn.Idle.header_refilled (idle : c.Idle) {x : List UInt8} (short : x.length < headerSize) :
    x.foldl (feed env) c = x.foldl (feed (env.refilled pool)) c := by
  rw [foldl_feed_header idle.up idle.pending (by rw [idle.received]; omega),
    foldl_feed_header idle.up idle.pending (by rw [idle.received]; omega)]

theorem PpConn.Idle.split_message (idle : c.Idle) (granted : env.alloc c.allocs ≠ none → m.Granted env c.allocs)
    (wellFormed : m.WellFormed env) {x y rest} (parts : x ++ y = m.bytes ++ rest) (whole : headerSize ≤ x.length) :
    ∃ x' y', x' ++ y' = rest ∧ x'.length = x.length - m.bytes.length ∧
      y.foldl (feed (env.refilled pool)) (x.foldl (feed env) c) =
        y'.foldl (feed (env.refilled pool)) (x'.foldl (feed env) (m.bytes.foldl (feed env) c)) := by
  rcases append_eq_append_iff.1 parts with ⟨tail, front, back⟩ | ⟨more, front, back⟩
  · refine ⟨[], rest, rfl, ?_, ?_⟩
    · rw [front, length_append, length_nil]
      omega
    · rw [back, foldl_append, idle.rest_refilled granted wellFormed front whole, foldl_nil]
  · refine ⟨more, y, back.symm, ?_, ?_⟩
    · rw [front, length_append]
      omega
    · rw [front, foldl_append]

theorem PpConn.Idle.split_stream (idle : c.Idle) (supplies : (env.refilled pool).Supplies)
    (pages : ∀ k supply, env.alloc k = some supply → ∀ i, supply i ≠ none) {messages}
    (wellFormed : ∀ m ∈ messages, m.WellFormed env) {x y} (stream : x ++ y = messages.flatMap bytes) :
    (y.foldl (feed (env.refilled pool)) (x.foldl (feed env) c)).operations env =
        c.operations env ++ (messages.takeWhile (fun m => decide (m.Passes env))).map (operation env) ↔
      ∀ k < askedWithin env messages x.length, env.alloc (c.allocs + k) ≠ none := by
  induction messages generalizing c x y with
  | nil =>
    obtain ⟨rfl, rfl⟩ := append_eq_nil_iff.1 stream
    exact iff_of_true (append_nil _).symm fun k inside => absurd inside (Nat.not_lt_zero k)
  | cons m messages ih =>
    rw [askedWithin]
    rcases lt_or_ge x.length headerSize with short | whole
    · -- no header is complete before the pools are refilled
      rw [if_neg (by omega), idle.header_refilled short, ← foldl_append, stream]
      exact iff_of_true (idle.feed_operations supplies fun m member => (wellFormed m member).refilled)
        fun k inside => absurd inside (Nat.not_lt_zero k)
    · obtain ⟨first, rest⟩ := forall_mem_cons.1 wellFormed
      have supplied : env.alloc c.allocs ≠ none → m.Granted env c.allocs := fun found => .of_some pages found m
      obtain ⟨x', y', stream', length, split⟩ := idle.split_message supplied first stream whole
      rw [split, ← length]
      by_cases refused : m.header.opcode ≠ cmdReg ∧ env.alloc c.allocs = none
      · obtain ⟨stuck, deaf⟩ := idle.starved m.header_magic refused.1 refused.2
        have same : m.bytes.foldl (feed env) c = storeHeader c m.header.bytes := by
          rw [bytes, foldl_append, stuck, foldl_feed_deaf deaf]
        rw [same, foldl_feed_deaf deaf, foldl_feed_deaf deaf]
        by_cases passes : m.Passes env
        · rw [if_pos ⟨passes, whole⟩, takeWhile_cons_of_pos (by rwa [decide_eq_true_eq])]
          refine iff_of_false (fun none => absurd (self_eq_append_right.1 none) (cons_ne_nil _ _)) fun all => ?_
          apply all 0 _ refused.2
          rw [requests, if_neg refused.1]
          omega
        · rw [if_neg fun both => passes both.1, takeWhile_cons_of_neg (by rw [decide_eq_true_eq]; exact passes)]
          exact iff_of_true (append_nil _).symm fun k inside => absurd inside (Nat.not_lt_zero k)
      · have granted : m.Granted env c.allocs := fun request => supplied (fun none => refused ⟨request, none⟩) request
        have handled := idle.handled granted first
        have taken := idle.message_allocs granted first
        generalize m.bytes.foldl (feed env) c = next at handled taken ⊢
        by_cases passes : m.Passes env
        · obtain ⟨idle', done⟩ := handled.passes passes
          rw [if_pos ⟨passes, whole⟩, takeWhile_cons_of_pos (by rwa [decide_eq_true_eq]), map_cons, ← singleton_append,
            ← append_assoc, ← done, ih idle' rest stream', taken]
          unfold requests
          split_ifs with register
          · rw [Nat.zero_add, Nat.add_zero]
          · constructor
            · intro all k inside
              rcases Nat.eq_zero_or_pos k with rfl | positive
              · exact fun none => refused ⟨register, none⟩
              · have later := all (k - 1) (by omega)
                rwa [Nat.add_assoc, Nat.add_sub_cancel' positive] at later
            · intro all k inside
              rw [Nat.add_assoc]
              exact all (1 + k) (by omega)
        · obtain ⟨aborted, same⟩ := handled.fails passes
          have deaf : next.Deaf := .inl (by rw [aborted]; decide)
          rw [foldl_feed_deaf deaf, foldl_feed_deaf deaf, same, if_neg fun both => passes both.1,
            takeWhile_cons_of_neg (by rw [decide_eq_true_eq]; exact passes)]
          exact iff_of_true (append_nil _).symm fun k inside => absurd inside (Nat.not_lt_zero k)

end Refilled

/-- The operations that a stream leads to are those without a shortage just if no header was
complete while the pool had no request for it. -/
theorem shortage_only_delays_iff {env : Env} {c : PpConn} {pool : Nat → Option (Nat → Option (Nat → UInt8))} (idle : c.Idle)
    (supplies : (env.refilled pool).Supplies) (pages : ∀ k supply, env.alloc k = some supply → ∀ i, supply i ≠ none)
    (messages : List Message) (wellFormed : ∀ m ∈ messages, m.WellFormed env) (during after : List NetEvent)
    (stream : delivered during ++ delivered after = messages.flatMap Message.bytes) :
    let short := (during ++ [NetEvent.input]).foldl (netStep env) (c, [])
    let resumed := (after ++ [NetEvent.input]).foldl (netStep (env.refilled pool)) short
    let ample := (during ++ [NetEvent.input] ++ after ++ [NetEvent.input]).foldl (netStep (env.refilled pool)) (c, [])
    resumed.1.operations env = ample.1.operations env ↔
      ∀ k < askedWithin env messages (delivered during).length, env.alloc (c.allocs + k) ≠ none := by
  intro short resumed ample
  obtain ⟨conn, rest, ready⟩ := net_input_from during (idle.ready : Ready env c) []
  -- what is queued when the pool is refilled is either nothing or never read
  have resume : resumed.1 = (delivered after).foldl (feed (env.refilled pool)) ((delivered during).foldl (feed env) c) := by
    rw [(net_input_from after ready.refilled _).1, conn]
    rw [conn] at rest
    rcases rest with deaf | empty
    · rw [List.flatten_nil, List.nil_append] at deaf ⊢
      rw [foldl_feed_deaf deaf, foldl_feed_deaf deaf]
    · rw [empty, List.nil_append]
      rfl
  have whole : ample.1.operations env =
      c.operations env ++ (messages.takeWhile (fun m => decide (m.Passes env))).map (Message.operation env) := by
    have bytes : delivered (during ++ [NetEvent.input] ++ after) = messages.flatMap Message.bytes := by
      rw [← stream, delivered, List.flatMap_append, List.flatMap_append]
      exact congrArg (· ++ _) (List.append_nil _)
    have fed : ample.1 = (messages.flatMap Message.bytes).foldl (feed (env.refilled pool)) c := by
      rw [← bytes]
      exact net_input _ idle.ready
    rw [fed]
    exact idle.feed_operations supplies fun m member => (wellFormed m member).refilled
  rw [whole, resume]
  exact idle.split_stream supplies pages wellFormed stream

/-- The pool is empty while a header is not complete yet. -/
theorem shortage_before_header :
    let env : Env := ⟨1048576, 512, fun k => if k = 0 then some fun _ => some fun _ => 0 else none⟩
    let pool : Nat → Option (Nat → Option (Nat → UInt8)) := fun _ => some fun _ => some fun _ => 0
    let messages := [Message.get 1 8 1, Message.get 2 16 1]
    let stream := messages.flatMap Message.bytes
    let short := [.segment (stream.take 40), .input].foldl (netStep env) (ppAccept blankConn 80, [])
    let resumed := [.segment (stream.drop 40), .input].foldl (netStep (env.refilled pool)) short
    let ample := [.segment (stream.take 40), .input, .segment (stream.drop 40), .input].foldl (netStep (env.refilled pool))
      (ppAccept blankConn 80, [])
    env.alloc 1 = none ∧ resumed.1.operations env = ample.1.operations env ∧ ample.1.operations env = [.read 8 1 1 1, .read 16 1 2 1] := by
  intro env pool messages stream short resumed ample
  have wellFormed : ∀ m ∈ messages, m.WellFormed env := by
    simp only [messages, List.forall_mem_cons]
    exact ⟨⟨by decide, by decide, by decide⟩, ⟨by decide, by decide, by decide⟩, List.forall_mem_nil _⟩
  have pages : ∀ k supply, env.alloc k = some supply → ∀ i, supply i ≠ none := by
    intro k supply found i
    simp only [env] at found
    split_ifs at found
    cases found
    exact Option.some_ne_none _
  have asked : askedWithin env messages (delivered [.segment (stream.take 40)]).length = 1 := by decide +kernel
  have supplies : (env.refilled pool).Supplies := fun _ _ => ⟨_, rfl, fun _ _ => Option.some_ne_none _⟩
  have same := (shortage_only_delays_iff (ppAccept_idle blankConn 80) supplies pages messages wellFormed
    [.segment (stream.take 40)] [.segment (stream.drop 40)] (by decide +kernel)).2 (by
      rw [asked]
      intro k first
      obtain rfl := Nat.lt_one_iff.1 first
      exact Option.some_ne_none _)
  exact ⟨rfl, same, by decide +kernel⟩

/-- A read that finds the pool empty is lost, and the connection with it. -/
theorem shortage_is_final :
    let env : Env := ⟨1048576, 512, fun _ => none⟩
    let pool : Nat → Option (Nat → Option (Nat → UInt8)) := fun _ => some fun _ => some fun _ => 0
    let messages := [Message.get 1 8 1, Message.get 2 16 1]
    let stream := messages.flatMap Message.bytes
    let short := [.segment (stream.take 24), .input].foldl (netStep env) (ppAccept blankConn 80, [])
    let resumed := [.input, .segment (stream.drop 24), .input].foldl (netStep (env.refilled pool)) short
    let ample := [.segment (stream.take 24), .input, .input, .segment (stream.drop 24), .input].foldl (netStep (env.refilled pool))
      (ppAccept blankConn 80, [])
    resumed.1.operations env = [] ∧ ample.1.operations env = [.read 8 1 1 1, .read 16 1 2 1] := by
  intro env pool messages stream short resumed ample
  exact ⟨by decide +kernel, by decide +kernel⟩

end Reflex.Server
