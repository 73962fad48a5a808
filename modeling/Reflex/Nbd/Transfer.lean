import Mathlib.Tactic.Common

/-!
# Transfers of the kernel client

`sock_xmit` of `reflex_nbd/reflex_nbd.c` and how its callers judge what it returns. The loop asks the socket
until all bytes are moved and returns the last answer: the size of the last piece.
-/

namespace Reflex.Nbd

open List

def eio : Int := 5
def einval : Int := 22

/-- `sizeof(binary_header_blk_t)`. -/
def headerSize : Nat := 24

/-- What the socket answers to one call, and whether the thread is told to stop by then. -/
structure Answer where
  result : Int
  shouldStop : Bool
  deriving DecidableEq

/-- The loop of `sock_xmit` on the bytes that are left: the value returned and the bytes moved; `none` if it still
loops after these answers. -/
def xmitLoop (send : Bool) : List Answer → List UInt8 → Option (Int × List UInt8)
  | [], _ => none
  | answer :: answers, buf =>
    let moved := buf.take answer.result.toNat
    if send = false ∧ answer.shouldStop then some (-eio, moved)
    else if (buf.drop answer.result.toNat).length = 0 then some (answer.result, moved)
    else (xmitLoop send answers (buf.drop answer.result.toNat)).map fun later => (later.1, moved ++ later.2)

/-- `sock` is whether there is a socket. -/
def sockXmit (sock send : Bool) (answers : List Answer) (buf : List UInt8) : Option (Int × List UInt8) :=
  if sock then xmitLoop send answers buf else some (-einval, [])

/-- The calls: header and data of a request in `reflex_send_req`, of a reply in `reflex_read_stat`. -/
inductive Site where
  | sendHeader
  | sendData
  | readHeader
  | readData
  deriving DecidableEq

def Site.send : Site → Bool
  | .sendHeader | .sendData => true
  | .readHeader | .readData => false

/-- The caller goes on. -/
def Site.accepts : Site → Int → Bool
  | .sendHeader, result => result = headerSize
  | .readHeader, result => 0 ≤ result
  | .sendData, result | .readData, result => 0 < result

/-- The bytes that these answers move, if there are as many. -/
def received : List Answer → Nat
  | [] => 0
  | answer :: answers => answer.result.toNat + received answers

/-- The answer `last` decides a transfer of `size` bytes: no answer before it ended the loop, and this one does. -/
structure Decides (send : Bool) (size : Nat) (before : List Answer) (last : Answer) : Prop where
  waiting : send = false → ∀ a ∈ before, a.shouldStop = false
  short : received before < size
  ends : send = false ∧ last.shouldStop = true ∨ size ≤ received before + last.result.toNat

/-- What the loop gives when `last` has decided it. -/
def verdict (send : Bool) (before : List Answer) (last : Answer) (buf : List UInt8) : Int × List UInt8 :=
  if send = false ∧ last.shouldStop then (-eio, buf.take (received before + last.result.toNat)) else (last.result, buf)

variable {send : Bool} {buf : List UInt8} {answers before after : List Answer} {last : Answer} {site : Site}

/-- The loop goes on to the answer that decides it. -/
theorem xmitLoop_decided (after : List Answer) (decides : Decides send buf.length before last) :
    xmitLoop send (before ++ last :: after) buf = some (verdict send before last buf) := by
  induction before generalizing buf with
  | nil =>
    have ends := decides.ends
    simp only [received, Nat.zero_add] at ends
    rw [nil_append, xmitLoop, verdict]
    by_cases stop : send = false ∧ last.shouldStop = true
    · simp only [if_pos stop, received, Nat.zero_add]
    · have all := ends.resolve_left stop
      simp only [if_neg stop, length_drop, Nat.sub_eq_zero_of_le all, if_true, take_of_length_le all]
  | cons first before ih =>
    have short := decides.short
    simp only [received] at short
    have go : ¬ (send = false ∧ first.shouldStop = true) := fun ⟨receives, stop⟩ => by
      have wait := decides.waiting receives first mem_cons_self
      simp [wait] at stop
    have left : (buf.drop first.result.toNat).length = buf.length - first.result.toNat := length_drop
    have rest : Decides send (buf.drop first.result.toNat).length before last := by
      refine ⟨fun receives a mem => decides.waiting receives a (mem_cons_of_mem first mem), by omega, decides.ends.imp_right fun all => ?_⟩
      simp only [received] at all
      omega
    rw [cons_append, xmitLoop, if_neg go, if_neg (by omega), ih rest, Option.map_some]
    simp only [verdict, received]
    by_cases stop : send = false ∧ last.shouldStop = true
    · simp only [if_pos stop, ← take_add, Nat.add_assoc]
    · simp only [if_neg stop, take_append_drop]

/-- A loop that ends was decided by one of the answers. -/
theorem xmitLoop_ends {result : Int × List UInt8} (some' : buf ≠ []) (ends : xmitLoop send answers buf = some result) :
    ∃ before last after, answers = before ++ last :: after ∧ Decides send buf.length before last := by
  induction answers generalizing buf result with
  | nil => cases ends
  | cons first answers ih =>
    have size := length_pos_iff.2 some'
    by_cases stop : send = false ∧ first.shouldStop = true
    · exact ⟨[], first, answers, rfl, nofun, size, .inl stop⟩
    by_cases all : (buf.drop first.result.toNat).length = 0
    · rw [length_drop] at all
      exact ⟨[], first, answers, rfl, nofun, size, .inr (by simp only [received]; omega)⟩
    · rw [xmitLoop, if_neg stop, if_neg all] at ends
      obtain ⟨later, ended, -⟩ := Option.map_eq_some_iff.1 ends
      obtain ⟨before, last, after, rfl, decides⟩ := ih (ne_nil_of_length_pos (Nat.pos_of_ne_zero all)) ended
      have short := decides.short
      rw [length_drop] at short decides
      refine ⟨first :: before, last, after, rfl, fun receives a mem => ?_, by simp only [received]; omega, decides.ends.imp_right fun _ => ?_⟩
      · rcases mem_cons.1 mem with rfl | mem
        · simpa [receives] using stop
        · exact decides.waiting receives a mem
      · simp only [received]
        omega

theorem received_append (first later : List Answer) : received (first ++ later) = received first + received later := by
  induction first with
  | nil => simp [received]
  | cons answer answers ih => simp only [cons_append, received, ih, Nat.add_assoc]

theorem received_pos (positive : ∀ a ∈ answers, 0 < a.result) (some' : answers ≠ []) : 0 < received answers := by
  obtain ⟨first, later, rfl⟩ := exists_cons_of_ne_nil some'
  have step := positive first mem_cons_self
  simp only [received]
  omega

/-- Whether the caller goes on with what the deciding answer gives. -/
theorem accepts_verdict (decides : Decides site.send buf.length before last) :
    site.accepts (verdict site.send before last buf).1 = true ↔
      ¬ (site.send = false ∧ last.shouldStop = true) ∧ (site = .sendHeader → last.result = headerSize) := by
  have moved := decides.ends
  have short := decides.short
  unfold verdict
  split_ifs with stop
  · obtain ⟨receives, -⟩ := id stop
    simp only [show ¬ ¬ (site.send = false ∧ last.shouldStop = true) from not_not.2 stop, false_and, iff_false]
    cases site with
    | sendHeader | sendData => cases receives
    | readHeader | readData => decide
  · have all := moved.resolve_left stop
    simp only [stop, not_false_eq_true, true_and]
    cases site with
    | sendHeader => simp [Site.accepts]
    | sendData | readHeader | readData => simp only [Site.accepts, decide_eq_true_eq, reduceCtorEq, false_implies, iff_true]; omega

/-- Positive pieces that add up are moved and taken for a success exactly if a receiving thread is not told to stop in
between and the header of a request goes in one piece. Whatever the answers, a transfer is taken for a failure exactly if a
receiving thread is told to stop before all is there, or the header of a request ends with a piece that is not the whole
header. Without a socket every caller sees a failure. -/
theorem transfers_judged (site : Site) (buf : List UInt8) (some' : buf ≠ []) (header : site = .sendHeader → buf.length = headerSize) :
    (∀ answers : List Answer, (∀ a ∈ answers, 0 < a.result) → received answers = buf.length →
      ((∃ r, sockXmit true site.send answers buf = some (r, buf) ∧ site.accepts r = true) ↔
        (site.send = false → ∀ a ∈ answers, a.shouldStop = false) ∧ (site = .sendHeader → answers.length = 1))) ∧
    (∀ answers : List Answer, (∃ r moved, sockXmit true site.send answers buf = some (r, moved) ∧ site.accepts r = false) ↔
      ∃ before last after, answers = before ++ last :: after ∧ received before < buf.length ∧
        (site.send = false ∧ (∀ a ∈ before, a.shouldStop = false) ∧ last.shouldStop = true ∨
          site = .sendHeader ∧ buf.length ≤ received before + last.result.toNat ∧ last.result ≠ (headerSize : Int))) ∧
    ∀ answers : List Answer, ∃ r moved, sockXmit false site.send answers buf = some (r, moved) ∧ site.accepts r = false := by
  refine ⟨fun answers positive whole => ⟨?_, ?_⟩, fun answers => ⟨?_, ?_⟩, fun answers => ⟨-einval, [], rfl, by cases site <;> decide⟩⟩
  · rintro ⟨r, value, good⟩
    obtain ⟨before, last, after, rfl, decides⟩ := xmitLoop_ends some' value
    obtain rfl : r = (verdict site.send before last buf).1 := by
      have same := (xmitLoop_decided after decides).symm.trans value
      rw [Option.some.inj same]
    obtain ⟨quiet, one⟩ := (accepts_verdict decides).1 good
    have all := decides.ends.resolve_left quiet
    rw [received_append, received] at whole
    -- Nothing is left for a piece behind the last one.
    obtain rfl : after = [] := by
      by_contra more
      have := received_pos (fun a mem => positive a (by simp [mem])) more
      omega
    refine ⟨fun receives a mem => ?_, fun request => ?_⟩
    · rcases mem_append.1 mem with early | here
      · exact decides.waiting receives a early
      · rw [mem_singleton.1 here]
        simpa [receives] using quiet
    · obtain rfl : before = [] := by
        by_contra early
        have := received_pos (fun a mem => positive a (mem_append_left _ mem)) early
        have := one request
        have := header request
        omega
      rfl
  · rintro ⟨quiet, one⟩
    have size := length_pos_iff.2 some'
    rcases eq_nil_or_concat answers with rfl | ⟨before, last, rfl⟩
    · simp [received] at whole
      omega
    rw [concat_eq_append] at positive whole quiet one ⊢
    have step := positive last (by simp)
    have split := received_append before [last]
    simp only [received] at split
    have stays : ¬ (site.send = false ∧ last.shouldStop = true) := fun ⟨receives, stop⟩ => by
      have := quiet receives last (by simp)
      simp [this] at stop
    have decides : Decides site.send buf.length before last :=
      ⟨fun receives a mem => quiet receives a (mem_append_left _ mem), by omega, .inr (by omega)⟩
    refine ⟨last.result, ?_, ?_⟩
    · show xmitLoop site.send (before ++ [last]) buf = _
      rw [xmitLoop_decided [] decides, verdict, if_neg stays]
    · have good := (accepts_verdict decides).2 ⟨stays, fun request => by
        have single := one request
        have length := header request
        rw [length_append, length_singleton, Nat.add_eq_right, length_eq_zero_iff] at single
        subst single
        simp only [received] at split
        omega⟩
      rwa [verdict, if_neg stays] at good
  · rintro ⟨r, moved, value, bad⟩
    obtain ⟨before, last, after, rfl, decides⟩ := xmitLoop_ends some' value
    obtain rfl : r = (verdict site.send before last buf).1 := by
      have same := (xmitLoop_decided after decides).symm.trans value
      rw [Option.some.inj same]
    have refused := mt (accepts_verdict decides).2 (by simp [bad])
    refine ⟨before, last, after, rfl, decides.short, ?_⟩
    by_cases stop : site.send = false ∧ last.shouldStop = true
    · exact .inl ⟨stop.1, decides.waiting stop.1, stop.2⟩
    · obtain ⟨request, other⟩ := Classical.not_imp.1 (not_and.1 refused stop)
      exact .inr ⟨request, decides.ends.resolve_left stop, other⟩
  · rintro ⟨before, last, after, rfl, short, ⟨receives, waiting, stop⟩ | ⟨rfl, all, other⟩⟩
    · have decides : Decides site.send buf.length before last := ⟨fun _ => waiting, short, .inl ⟨receives, stop⟩⟩
      refine ⟨_, _, xmitLoop_decided after decides, Bool.eq_false_iff.2 fun good => ?_⟩
      exact ((accepts_verdict decides).1 good).1 ⟨receives, stop⟩
    · have decides : Decides Site.sendHeader.send buf.length before last := ⟨nofun, short, .inr all⟩
      refine ⟨_, _, xmitLoop_decided after decides, Bool.eq_false_iff.2 fun good => ?_⟩
      exact other (((accepts_verdict decides).1 good).2 rfl)

/-- The header of a request in two pieces is taken for a failure, and one that the socket first
refuses for a success. -/
theorem pieces_and_errors_misjudged :
    (sockXmit true true [⟨10, false⟩, ⟨14, false⟩] (List.replicate headerSize 0) = some (14, List.replicate headerSize 0) ∧
      Site.sendHeader.accepts 14 = false) ∧
    sockXmit true true [⟨-11, false⟩, ⟨24, false⟩] (List.replicate headerSize 0) = some (24, List.replicate headerSize 0) ∧
      Site.sendHeader.accepts 24 = true := by
  decide

/-- A reply in two pieces is taken, and refused if the thread is told to stop with the second. -/
theorem reply_in_two_pieces :
    (∃ r, sockXmit true false [⟨1, false⟩, ⟨2, false⟩] [7, 8, 9] = some (r, [7, 8, 9]) ∧ Site.readData.accepts r = true) ∧
      ∃ r moved, sockXmit true false [⟨1, false⟩, ⟨-11, true⟩] [7, 8, 9] = some (r, moved) ∧ Site.readData.accepts r = false :=
  ⟨((transfers_judged .readData [7, 8, 9] (by decide) (by decide)).1 [⟨1, false⟩, ⟨2, false⟩] (by decide) (by decide)).2 (by decide),
    ((transfers_judged .readData [7, 8, 9] (by decide) (by decide)).2.1 [⟨1, false⟩, ⟨-11, true⟩]).2
      ⟨[⟨1, false⟩], ⟨-11, true⟩, [], rfl, by decide, .inl ⟨rfl, by decide, rfl⟩⟩⟩

end Reflex.Nbd
