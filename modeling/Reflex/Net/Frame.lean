import Reflex.Net.Input

/-!
# A frame is handled by its own bytes

Two buffers that hold the same frame may differ behind it. The checks of the input functions cover what they
read, but for the time stamp of an echo reply and the length of a request that is sent back.
-/

namespace Reflex.Net

open Lib

structure Mbuf.Alike (p q : Mbuf) : Prop where
  dataLen : q.dataLen = p.dataLen
  pktLen : q.pktLen = p.pktLen
  agree : Agree p.dataLen p.data q.data

section Reads

variable {n pos : Nat} {b c : Nat → UInt8} (agree : Agree n b c)

include agree

theorem byte_eq (inside : pos + 1 ≤ n) : byte c pos = byte b pos := by rw [byte, byte, agree.slice_eq inside]

theorem ntoh16_eq (inside : pos + 2 ≤ n) : ntoh16 c pos = ntoh16 b pos := by rw [ntoh16, ntoh16, agree.slice_eq inside]

theorem ntoh32_eq (inside : pos + 4 ≤ n) : ntoh32 c pos = ntoh32 b pos := by rw [ntoh32, ntoh32, agree.slice_eq inside]

end Reads

namespace Mbuf

variable {host : Host} {p q : Mbuf}

theorem Alike.enoughSpace (alike : Alike p q) (pos sz : Nat) : q.EnoughSpace pos sz = p.EnoughSpace pos sz := by
  rw [EnoughSpace, EnoughSpace, alike.dataLen]

theorem Alike.tcpInput (alike : Alike p q) {tcp len : Nat} (header : 34 ≤ p.dataLen) (inside : tcp + len ≤ p.dataLen) :
    tcpInput host q tcp len = tcpInput host p tcp len := by
  have agree := alike.agree
  have eth : ethHdrLen = 14 := rfl
  have size : tcpHdrLen = 20 := rfl
  unfold Mbuf.tcpInput
  by_cases short : len < tcpHdrLen
  · rw [if_pos short, if_pos short]
  · rw [if_neg short, if_neg short]
    have offset : ntoh16 q.data (tcp + 12) = ntoh16 p.data (tcp + 12) := ntoh16_eq agree (by omega)
    dsimp only
    rw [offset]
    generalize ntoh16 p.data (tcp + 12) = word
    by_cases long : len < word / 2 ^ 12 * 4
    · rw [if_pos long, if_pos long]
    · rw [if_neg long, if_neg long]
      rw [ntoh32_eq agree (show ethHdrLen + 12 + 4 ≤ _ by omega), ntoh32_eq agree (show ethHdrLen + 16 + 4 ≤ _ by omega),
        ntoh16_eq agree (show tcp + 2 ≤ _ by omega), ntoh16_eq agree (show tcp + 2 + 2 ≤ _ by omega),
        ntoh32_eq agree (show tcp + 4 + 4 ≤ _ by omega), ntoh32_eq agree (show tcp + 8 + 4 ≤ _ by omega),
        ntoh16_eq agree (show tcp + 14 + 2 ≤ _ by omega), agree.slice_eq (show tcp + word / 2 ^ 12 * 4 ≤ _ by omega),
        agree.slice_eq (show tcp + word / 2 ^ 12 * 4 + (len - word / 2 ^ 12 * 4) ≤ _ by omega)]

theorem Alike.icmpReflect (alike : Alike p q) {icmp len : Nat} (header : 34 ≤ p.dataLen)
    (inside : icmp + len ≤ p.dataLen) (whole : p.pktLen ≤ p.dataLen) (reports : List Report) :
    icmpReflect host q icmp len reports = icmpReflect host p icmp len reports := by
  have eth : ethHdrLen = 14 := rfl
  have swapped := (alike.agree.store 0 (alike.agree.slice_eq (show 6 + 6 ≤ _ by omega))).store 6 (Eq.refl host.mac)
  have sender : ethHdrLen + 12 + 4 ≤ p.dataLen := by omega
  have addressed := ((swapped.store (ethHdrLen + 16) (swapped.slice_eq sender)).store (ethHdrLen + 12)
    (Eq.refl (beBytes 4 host.hostAddr))).store (icmp + 2) (Eq.refl [0, 0])
  have summed := addressed.store (icmp + 2)
    (congrArg (fun message => leBytes 2 (chksumInternet message)) (addressed.slice_eq inside))
  have hosts := swapped.slice_eq (show 0 + 12 ≤ _ by omega)
  have reply := summed.slice_eq (show 0 + p.pktLen ≤ _ by omega)
  have target := summed.slice_eq (show ethHdrLen + 16 + 4 ≤ _ by omega)
  unfold Mbuf.icmpReflect
  dsimp only
  rw [alike.pktLen, hosts, reply, target]

theorem Alike.icmpInput (alike : Alike p q) {icmp len : Nat} (header : 34 ≤ p.dataLen)
    (inside : icmp + len ≤ p.dataLen)
    (contained : icmpMinlen ≤ len → chksumInternet (slice p.data icmp len) = 0 →
      (byte p.data icmp = icmpEcho → p.pktLen ≤ p.dataLen) ∧ (byte p.data icmp = icmpEchoreply → icmp + 16 ≤ p.dataLen)) :
    icmpInput host q icmp len = icmpInput host p icmp len := by
  have agree := alike.agree
  have min : icmpMinlen = 8 := rfl
  have size : icmpHdrLen = 4 := rfl
  unfold Mbuf.icmpInput
  by_cases short : len < icmpMinlen
  · rw [if_pos short, if_pos short]
  · rw [if_neg short, if_neg short, ← agree.slice_eq inside, byte_eq agree (show icmp + 1 ≤ _ by omega),
      byte_eq agree (show icmp + 1 + 1 ≤ _ by omega)]
    split
    · rfl
    · next sum =>
      obtain ⟨reflected, stamped⟩ := contained (not_lt.1 short) (not_not.1 sum)
      dsimp only
      split
      · next echo =>
        have retyped : Alike { p with data := store p.data icmp (leBytes 1 icmpEchoreply) }
            { q with data := store q.data icmp (leBytes 1 icmpEchoreply) } :=
          ⟨alike.dataLen, alike.pktLen, agree.store icmp rfl⟩
        exact retyped.icmpReflect header inside (reflected echo) _
      · split
        · next reply =>
          have room := stamped reply
          rw [ntoh16_eq agree (show icmp + icmpHdrLen + 2 + 2 ≤ _ by omega),
            agree.slice_eq (show icmp + icmpHdrLen + 4 + 8 ≤ _ by omega)]
        · rfl

/-- Where `ip_input` finds an ICMP message. -/
def icmp (pkt : Mbuf) : Nat := ethHdrLen + byte pkt.data ethHdrLen % 16 * 4

def icmpLen (pkt : Mbuf) : Nat := ntoh16 pkt.data (ethHdrLen + 2) - byte pkt.data ethHdrLen % 16 * 4

/-- The frame holds an ICMP message that passes the checks of `ip_input` and `icmp_input`. -/
structure Message (pkt : Mbuf) : Prop where
  type : ntoh16 pkt.data 12 = ethtypeIp
  header : pkt.EnoughSpace ethHdrLen ipHdrLen
  version : byte pkt.data ethHdrLen / 16 = 4
  words : 5 ≤ byte pkt.data ethHdrLen % 16
  unfragmented : ntoh16 pkt.data (ethHdrLen + 6) % 2 ^ 14 = 0
  total : byte pkt.data ethHdrLen % 16 * 4 ≤ ntoh16 pkt.data (ethHdrLen + 2)
  room : pkt.EnoughSpace ethHdrLen (ntoh16 pkt.data (ethHdrLen + 2))
  protocol : byte pkt.data (ethHdrLen + 9) = ipprotoIcmp
  enough : icmpMinlen ≤ pkt.icmpLen
  sum : chksumInternet (slice pkt.data pkt.icmp pkt.icmpLen) = 0

/-- What is read of a message lies in the frame: an echo request is sent back as long as the packet is, and an echo reply
has room for the time stamp. -/
def Contained (pkt : Mbuf) : Prop :=
  pkt.Message → (byte pkt.data pkt.icmp = icmpEcho → pkt.pktLen ≤ pkt.dataLen) ∧
    (byte pkt.data pkt.icmp = icmpEchoreply → pkt.EnoughSpace pkt.icmp (icmpHdrLen + 12))

theorem Alike.ipInput (alike : Alike p q) (ip : ntoh16 p.data 12 = ethtypeIp) (contained : p.Contained) :
    ipInput host q = ipInput host p := by
  have agree := alike.agree
  have eth : ethHdrLen = 14 := rfl
  have size : ipHdrLen = 20 := rfl
  unfold Mbuf.ipInput
  dsimp only
  simp only [alike.enoughSpace]
  by_cases short : ¬ p.EnoughSpace ethHdrLen ipHdrLen
  · rw [if_pos short, if_pos short]
  · have header : 34 ≤ p.dataLen := by
      unfold EnoughSpace at short
      omega
    rw [if_neg short, if_neg short, byte_eq agree (show ethHdrLen + 1 ≤ _ by omega),
      ntoh16_eq agree (show ethHdrLen + 6 + 2 ≤ _ by omega), ntoh16_eq agree (show ethHdrLen + 2 + 2 ≤ _ by omega),
      byte_eq agree (show ethHdrLen + 9 + 1 ≤ _ by omega)]
    split
    · rfl
    split
    · rfl
    split
    · rfl
    split
    · rfl
    split
    · rfl
    · next version words unfragmented enough inFrame =>
      have inside : ethHdrLen + byte p.data ethHdrLen % 16 * 4 +
          (ntoh16 p.data (ethHdrLen + 2) - byte p.data ethHdrLen % 16 * 4) ≤ p.dataLen := by
        unfold EnoughSpace at inFrame
        omega
      split
      · exact alike.tcpInput header inside
      · split
        · next protocol =>
          refine alike.icmpInput header inside fun long sum => ?_
          exact contained ⟨ip, not_not.1 short, not_not.1 version, not_lt.1 words, not_not.1 unfragmented, not_lt.1 enough,
            not_not.1 inFrame, protocol, long, sum⟩
        · rfl

theorem Alike.arpSendResponseReuse (alike : Alike p q) (room : 42 ≤ p.dataLen) (update : ArpUpdate) :
    arpSendResponseReuse host q update = arpSendResponseReuse host p update := by
  have eth : ethHdrLen = 14 := rfl
  have arp : arpHdrLen = 8 := rfl
  have size : arpPktSize = 42 := rfl
  have answered := (alike.agree.store 0 (alike.agree.slice_eq (show 6 + 6 ≤ _ by omega))).store (ethHdrLen + 6)
    (Eq.refl (beBytes 2 arpOpReply))
  have mac : ethHdrLen + arpHdrLen + 6 ≤ p.dataLen := by omega
  have targeted := answered.store (ethHdrLen + arpHdrLen + 10) (answered.slice_eq mac)
  have addr : ethHdrLen + arpHdrLen + 6 + 4 ≤ p.dataLen := by omega
  have signed := (((targeted.store (ethHdrLen + arpHdrLen + 16) (targeted.slice_eq addr)).store 6
    (Eq.refl host.mac)).store (ethHdrLen + arpHdrLen + 6) (Eq.refl (beBytes 4 host.hostAddr))).store
    (ethHdrLen + arpHdrLen) (Eq.refl host.mac)
  have reply := signed.slice_eq (show 0 + arpPktSize ≤ _ by omega)
  unfold Mbuf.arpSendResponseReuse
  dsimp only
  rw [reply]

theorem Alike.arpInput (alike : Alike p q) : arpInput host q = arpInput host p := by
  have agree := alike.agree
  have eth : ethHdrLen = 14 := rfl
  have arp : arpHdrLen = 8 := rfl
  have size : ethIpLen = 20 := rfl
  unfold Mbuf.arpInput
  dsimp only
  simp only [alike.enoughSpace]
  by_cases short : ¬ p.EnoughSpace ethHdrLen arpHdrLen
  · rw [if_pos short, if_pos short]
  · have header : 22 ≤ p.dataLen := by
      unfold EnoughSpace at short
      omega
    rw [if_neg short, if_neg short, ntoh16_eq agree (show ethHdrLen + 2 ≤ _ by omega),
      ntoh16_eq agree (show ethHdrLen + 2 + 2 ≤ _ by omega), byte_eq agree (show ethHdrLen + 4 + 1 ≤ _ by omega),
      byte_eq agree (show ethHdrLen + 5 + 1 ≤ _ by omega)]
    split
    · rfl
    by_cases cut : ¬ p.EnoughSpace (ethHdrLen + arpHdrLen) ethIpLen
    · rw [if_pos cut, if_pos cut]
    · have room : 42 ≤ p.dataLen := by
        unfold EnoughSpace at cut
        omega
      rw [if_neg cut, if_neg cut, byte_eq agree (show ethHdrLen + arpHdrLen + 1 ≤ _ by omega),
        ntoh32_eq agree (show ethHdrLen + arpHdrLen + 16 + 4 ≤ _ by omega),
        ntoh32_eq agree (show ethHdrLen + arpHdrLen + 6 + 4 ≤ _ by omega),
        ntoh16_eq agree (show ethHdrLen + 6 + 2 ≤ _ by omega),
        ← agree.slice_eq (show ethHdrLen + arpHdrLen + 6 ≤ _ by omega), alike.arpSendResponseReuse room]

theorem ethInputProcess_short (short : p.dataLen < 14) : ethInputProcess host p = .dropped := by
  have ip : ¬ p.EnoughSpace ethHdrLen ipHdrLen := fun enough => absurd (show 14 + 20 ≤ p.dataLen from enough) (by omega)
  have arp : ¬ p.EnoughSpace ethHdrLen arpHdrLen := fun enough => absurd (show 14 + 8 ≤ p.dataLen from enough) (by omega)
  unfold ethInputProcess
  split
  · rw [Mbuf.ipInput, if_pos ip]
  · split
    · rw [Mbuf.arpInput, if_pos arp]
    · rfl

theorem frame_outcome (alike : Alike p q) (contained : p.Contained) : ethInputProcess host p = ethInputProcess host q := by
  by_cases short : p.dataLen < 14
  · rw [ethInputProcess_short short, ethInputProcess_short (alike.dataLen.trans_lt short)]
  · rw [ethInputProcess, ethInputProcess, ntoh16_eq alike.agree (show 12 + 2 ≤ _ by omega)]
    split
    · next ip => exact (alike.ipInput ip contained).symm
    · rw [alike.arpInput]

/-! ## What lies behind the frame -/

/-- Another byte at `pos`. -/
def touched (pkt : Mbuf) (pos : Nat) : Mbuf :=
  { pkt with data := Function.update pkt.data pos (if pkt.data pos = 0 then 1 else 0) }

theorem touched_alike {pos} (behind : p.dataLen ≤ pos) : Alike p (p.touched pos) := by
  refine ⟨rfl, rfl, fun i inside => ?_⟩
  exact (Function.update_of_ne (by omega) _ _).symm

theorem touched_ne (p : Mbuf) (pos : Nat) : p.data pos ≠ (p.touched pos).data pos := by
  show p.data pos ≠ Function.update p.data pos _ pos
  rw [Function.update_self]
  split_ifs with zero
  · rw [zero]
    decide
  · exact zero

namespace Message

variable (msg : p.Message)
include msg

theorem bounds : 34 ≤ p.dataLen ∧ 34 ≤ p.icmp ∧ 8 ≤ p.icmpLen ∧ p.icmp + p.icmpLen ≤ p.dataLen := by
  have header : 14 + 20 ≤ p.dataLen := msg.header
  have room : 14 + ntoh16 p.data (ethHdrLen + 2) ≤ p.dataLen := msg.room
  have words := msg.words
  have total := msg.total
  have enough : 8 ≤ p.icmpLen := msg.enough
  have length : p.icmpLen = ntoh16 p.data (ethHdrLen + 2) - byte p.data ethHdrLen % 16 * 4 := rfl
  have start : p.icmp = 14 + byte p.data ethHdrLen % 16 * 4 := rfl
  omega

theorem alike (alike : Alike p q) : q.Message ∧ q.icmp = p.icmp ∧ q.icmpLen = p.icmpLen ∧ byte q.data p.icmp = byte p.data p.icmp := by
  obtain ⟨header, -, long, inside⟩ := msg.bounds
  have agree := alike.agree
  have eth : ethHdrLen = 14 := rfl
  have first : byte q.data ethHdrLen = byte p.data ethHdrLen := byte_eq agree (by omega)
  have length : ntoh16 q.data (ethHdrLen + 2) = ntoh16 p.data (ethHdrLen + 2) := ntoh16_eq agree (by omega)
  have start : q.icmp = p.icmp := by rw [icmp, icmp, first]
  have size : q.icmpLen = p.icmpLen := by rw [icmpLen, icmpLen, first, length]
  refine ⟨?_, start, size, byte_eq agree (by omega)⟩
  constructor
  · exact (ntoh16_eq agree (by omega)).trans msg.type
  · rw [alike.enoughSpace]
    exact msg.header
  · rw [first]
    exact msg.version
  · rw [first]
    exact msg.words
  · rw [ntoh16_eq agree (by omega)]
    exact msg.unfragmented
  · rw [first, length]
    exact msg.total
  · rw [length, alike.enoughSpace]
    exact msg.room
  · exact (byte_eq agree (by omega)).trans msg.protocol
  · rw [size]
    exact msg.enough
  · rw [start, size, ← agree.slice_eq inside]
    exact msg.sum

theorem outcome (host : Host) : ethInputProcess host p = icmpInput host p p.icmp p.icmpLen := by
  have other : byte p.data (ethHdrLen + 9) ≠ ipprotoTcp := by
    rw [msg.protocol]
    decide
  rw [ethInputProcess, if_pos msg.type]
  unfold Mbuf.ipInput
  dsimp only
  rw [if_neg (not_not_intro msg.header), if_neg (not_not_intro msg.version), if_neg (not_lt.2 msg.words),
    if_neg (not_not_intro msg.unfragmented), if_neg (not_lt.2 msg.total), if_neg (not_not_intro msg.room), if_neg other, if_pos msg.protocol]
  rfl

/-- The bytes that an echo request is answered with are those of the buffer from the end of the message on. -/
theorem reflected (host : Host) (echo : byte p.data p.icmp = icmpEcho) {k} (behind : p.dataLen ≤ k) :
    ∃ m : Nat → UInt8, (ethInputProcess host p).verdict = .sent (slice m 0 p.pktLen) ∧ m k = p.data k := by
  obtain ⟨header, -, long, inside⟩ := msg.bounds
  have eth : ethHdrLen = 14 := rfl
  rw [msg.outcome, Mbuf.icmpInput, if_neg (not_lt.2 msg.enough), if_neg (not_not_intro msg.sum)]
  dsimp only
  rw [if_pos echo]
  refine ⟨_, rfl, ?_⟩
  rw [store_past _ _ (by simp; omega), store_past _ _ (by simp; omega), store_past _ _ (by simp [beBytes]; omega),
    store_past _ _ (by simp; omega), store_past _ _ (by simp [host.mac_length]; omega), store_past _ _ (by simp; omega)]
  exact store_past _ _ (by simp; omega)

theorem stamped (host : Host) (reply : byte p.data p.icmp = icmpEchoreply) : (ethInputProcess host p).reports.getLast? =
    some (.echoReply p.icmpLen (ntoh16 p.data (p.icmp + icmpHdrLen + 2))
      (wsub 64 host.tsc (leValue (slice p.data (p.icmp + icmpHdrLen + 4) 8)) / host.cyclesPerUs)) := by
  have other : byte p.data p.icmp ≠ icmpEcho := by
    rw [reply]
    decide
  rw [msg.outcome, Mbuf.icmpInput, if_neg (not_lt.2 msg.enough), if_neg (not_not_intro msg.sum)]
  dsimp only
  rw [if_neg other, if_pos reply]
  rfl

end Message

/-- Time stamps that differ in their last byte give different times. -/
theorem stamp_matters {host : Host} {low x y : Nat} (left : x < 256) (right : y < 256) (differ : x ≠ y) :
    wsub 64 host.tsc (low + 2 ^ 56 * x) / host.cyclesPerUs ≠ wsub 64 host.tsc (low + 2 ^ 56 * y) / host.cyclesPerUs := by
  obtain ⟨positive, small⟩ := host.clock
  have apart : ∀ {a b : Nat}, a + 2 ^ 31 ≤ b → a / host.cyclesPerUs ≠ b / host.cyclesPerUs := by
    intro a b far same
    have step : (a + host.cyclesPerUs) / host.cyclesPerUs ≤ b / host.cyclesPerUs := Nat.div_le_div_right (by omega)
    rw [Nat.add_div_right _ positive, ← same] at step
    omega
  have far : wsub 64 host.tsc (low + 2 ^ 56 * x) + 2 ^ 31 ≤ wsub 64 host.tsc (low + 2 ^ 56 * y) ∨
      wsub 64 host.tsc (low + 2 ^ 56 * y) + 2 ^ 31 ≤ wsub 64 host.tsc (low + 2 ^ 56 * x) := by
    unfold wsub
    omega
  rcases far with less | more
  · exact apart less
  · exact (apart more).symm

/-- All buffers with the same frame have the same outcome exactly if what is read of a message lies in the frame. -/
theorem frame_determines_outcome_iff (host : Host) (p : Mbuf) :
    (∀ q, Alike p q → ethInputProcess host p = ethInputProcess host q) ↔ p.Contained := by
  refine ⟨fun same msg => ⟨fun echo => ?_, fun reply => ?_⟩, fun contained q alike => frame_outcome alike contained⟩
  · by_contra long
    have alike : Alike p (p.touched p.dataLen) := touched_alike le_rfl
    obtain ⟨msg', start, -, type⟩ := msg.alike alike
    obtain ⟨m, sent, kept⟩ := msg.reflected host echo (le_refl p.dataLen)
    obtain ⟨m', sent', kept'⟩ := msg'.reflected host (by rw [start, type, echo]) (le_refl p.dataLen)
    rw [← same _ alike, sent] at sent'
    have answer : slice m 0 p.pktLen = slice m' 0 p.pktLen := Verdict.sent.inj sent'
    have bytes := congrArg (fun l => l[p.dataLen]?) answer
    have inside : p.dataLen < p.pktLen := not_le.1 long
    simp only [slice, List.getElem?_map, List.getElem?_range inside, Option.map_some, Nat.zero_add, Option.some.injEq] at bytes
    exact touched_ne p p.dataLen (kept.symm.trans (bytes.trans kept'))
  · by_contra short
    obtain ⟨-, -, -, inside⟩ := msg.bounds
    have behind : p.dataLen ≤ p.icmp + 15 := by
      have past : ¬ p.icmp + 16 ≤ p.dataLen := short
      omega
    have alike := touched_alike behind
    obtain ⟨msg', start, size, type⟩ := msg.alike alike
    have mine := msg.stamped host reply
    have other := msg'.stamped host (by rw [start, type, reply])
    rw [← same _ alike, mine, start, size] at other
    have times := (Report.echoReply.inj (Option.some.inj other)).2.2
    have parts : ∀ m : Nat → UInt8, leValue (slice m (p.icmp + icmpHdrLen + 4) 8) =
        leValue (slice m (p.icmp + 8) 7) + 2 ^ 56 * (m (p.icmp + 15)).toNat := by
      intro m
      rw [show p.icmp + icmpHdrLen + 4 = p.icmp + 8 from rfl, show (8 : Nat) = 7 + 1 from rfl, slice_add, show slice m (p.icmp + 8 + 7) 1 = [m (p.icmp + 15)] from rfl,
        leValue_concat, slice_length]
      rfl
    have low : slice (p.touched (p.icmp + 15)).data (p.icmp + 8) 7 = slice p.data (p.icmp + 8) 7 := by
      apply List.map_congr_left
      intro i small
      rw [List.mem_range] at small
      exact Function.update_of_ne (by omega) _ _
    rw [parts, parts, low] at times
    refine stamp_matters (UInt8.toNat_lt _) (UInt8.toNat_lt _) (fun equal => ?_) times
    exact touched_ne p (p.icmp + 15) (UInt8.toNat_inj.1 equal)

/-- An echo message of eight bytes in a frame, and a byte behind the frame. -/
def echoFrame (type sum behind : UInt8) : Mbuf where
  data := store (fun _ => 0) 12 [8, 0, 0x45, 0, 0, 28, 0, 0, 0, 0, 64, 1, 0, 0, 10, 0, 0, 2, 10, 0, 0, 1,
    type, 0, sum, 0xff, 0, 0, 0, 0, behind]
  dataLen := 42
  pktLen := 42

def someHost : Host where
  mac := [2, 0, 0, 0, 0, 1]
  mac_length := rfl
  hostAddr := 0x0a000001
  tsc := 1000
  cyclesPerUs := 1
  clock := by decide
  pbufLeft := true

/-- An echo request is answered with the same bytes. -/
theorem echo_request_same_answer : Alike (echoFrame 8 0xf7 0) (echoFrame 8 0xf7 1) ∧
    (ethInputProcess someHost (echoFrame 8 0xf7 0)).verdict ≠ .freed ∧
    ethInputProcess someHost (echoFrame 8 0xf7 0) = ethInputProcess someHost (echoFrame 8 0xf7 1) := by
  have alike : Alike (echoFrame 8 0xf7 0) (echoFrame 8 0xf7 1) := ⟨rfl, rfl, by unfold Agree; decide +kernel⟩
  have contained : (echoFrame 8 0xf7 0).Contained := fun _ => ⟨fun _ => le_rfl, fun reply => absurd reply (by decide +kernel)⟩
  exact ⟨alike, by decide +kernel, (frame_determines_outcome_iff someHost _).2 contained _ alike⟩

/-- The time of an echo reply of eight bytes is computed from what lies behind the frame. -/
theorem short_reply_reports_stale_bytes : ¬ ∀ host p q, Alike p q → p.pktLen = p.dataLen →
    ethInputProcess host p = ethInputProcess host q := by
  intro same
  have alike : Alike (echoFrame 0 0xff 0) (echoFrame 0 0xff 1) := ⟨rfl, rfl, by unfold Agree; decide +kernel⟩
  have equal := same someHost _ _ alike rfl
  revert equal
  decide +kernel

end Mbuf

end Reflex.Net
