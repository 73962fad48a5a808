import Reflex.Lib.Bytes
import Reflex.Lib.Word

/-!
# What a received frame does

`eth_input_process` and the functions it hands a frame to: `ip_input` with `icmp_input` and `icmp_reflect`,
`arp_input` with `arp_send_response_reuse`, and `tcp_input` up to the search for a connection. The buffer that
a frame lies in is larger than the frame, and behind the frame it holds what earlier packets left there. A
read is a read of the buffer; only the checks of the functions keep it inside the frame. Offsets are from the
start of the frame.
-/

namespace Reflex.Net

open Lib

/-- `struct rte_mbuf` with the memory from the start of its data. -/
structure Mbuf where
  data : Nat → UInt8
  dataLen : Nat
  pktLen : Nat

/-- What the functions read besides the frame: `CFG`, the cycle counter and its frequency, an int that is not zero, and
whether a `pbuf` is left. -/
structure Host where
  mac : List UInt8
  mac_length : mac.length = 6
  hostAddr : Nat
  tsc : Nat
  cyclesPerUs : Nat
  clock : 0 < cyclesPerUs ∧ cyclesPerUs < 2 ^ 31
  pbufLeft : Bool

inductive Report where
  | request (type code : Nat)
  | echoReply (len seq time : Nat)
  | reflect (hosts : List UInt8) (len : Nat) (dstAddr : List UInt8)
deriving DecidableEq, Repr

structure ArpUpdate where
  addr : Nat
  mac : List UInt8
  createOkay : Bool
deriving DecidableEq, Repr

/-- What `tcp_input` knows of a segment when it begins to look for the connection. -/
structure TcpSegment where
  srcAddr : Nat
  dstAddr : Nat
  src : Nat
  dest : Nat
  seqno : Nat
  ackno : Nat
  wnd : Nat
  flags : Nat
  tcplen : Nat
  header : List UInt8
  payload : List UInt8
deriving DecidableEq, Repr

inductive Verdict where
  | freed
  | sent (bytes : List UInt8)
  | segment (seg : TcpSegment)
  | fault
deriving DecidableEq, Repr

structure Outcome where
  verdict : Verdict
  update : Option ArpUpdate
  reports : List Report
deriving DecidableEq, Repr

def Outcome.dropped : Outcome := ⟨.freed, none, []⟩

/-! ## Reading the buffer -/

def byte (m : Nat → UInt8) (pos : Nat) : Nat := leValue (slice m pos 1)
def ntoh16 (m : Nat → UInt8) (pos : Nat) : Nat := beValue (slice m pos 2)
def ntoh32 (m : Nat → UInt8) (pos : Nat) : Nat := beValue (slice m pos 4)

/-- `mbuf_enough_space`. -/
def Mbuf.EnoughSpace (pkt : Mbuf) (pos sz : Nat) : Prop := pos + sz ≤ pkt.dataLen

instance (pkt : Mbuf) (pos sz : Nat) : Decidable (pkt.EnoughSpace pos sz) := inferInstanceAs (Decidable (_ ≤ _))

/-- The sum of `chksum_internet`, two bytes at a time. -/
def chksumSum : List UInt8 → Nat
  | [] => 0
  | [x] => x.toNat
  | x :: y :: rest => x.toNat + 256 * y.toNat + chksumSum rest

/-- The folding loop; each turn makes the sum smaller. -/
def foldCarry : Nat → Nat → Nat
  | 0, sum => sum
  | fuel + 1, sum => if sum < 65536 then sum else foldCarry fuel (sum % 65536 + sum / 65536)

def chksumInternet (bytes : List UInt8) : Nat := 65535 - foldCarry (chksumSum bytes) (chksumSum bytes)

/-! ## The functions -/

def ethHdrLen : Nat := 14
def ipHdrLen : Nat := 20
def arpHdrLen : Nat := 8
def ethIpLen : Nat := 20
def arpPktSize : Nat := ethHdrLen + arpHdrLen + ethIpLen
def tcpHdrLen : Nat := 20
def icmpHdrLen : Nat := 4
def icmpMinlen : Nat := 8
def icmpEchoreply : Nat := 0
def icmpEcho : Nat := 8
def ethtypeIp : Nat := 0x0800
def ethtypeArp : Nat := 0x0806
def ipprotoIcmp : Nat := 1
def ipprotoTcp : Nat := 6
def arpHtypeEther : Nat := 1
def arpOpRequest : Nat := 1
def arpOpReply : Nat := 2

namespace Mbuf

variable (host : Host) (pkt : Mbuf)

/-- `tcp_input_tmp` and `tcp_input` up to the search for the connection. -/
def tcpInput (tcp len : Nat) : Outcome :=
  if !host.pbufLeft then ⟨.fault, none, []⟩
  else if len < tcpHdrLen then .dropped
  else
    let hdrlen := ntoh16 pkt.data (tcp + 12) / 2 ^ 12
    -- `pbuf_header` does not return: its `LWIP_ERROR` aborts
    if len < hdrlen * 4 then ⟨.fault, none, []⟩
    else
      let flags := ntoh16 pkt.data (tcp + 12) % 2 ^ 6
      let totLen := len - hdrlen * 4
      ⟨.segment
        { srcAddr := ntoh32 pkt.data (ethHdrLen + 12)
          dstAddr := ntoh32 pkt.data (ethHdrLen + 16)
          src := ntoh16 pkt.data tcp
          dest := ntoh16 pkt.data (tcp + 2)
          seqno := ntoh32 pkt.data (tcp + 4)
          ackno := ntoh32 pkt.data (tcp + 8)
          wnd := ntoh16 pkt.data (tcp + 14)
          flags := flags
          -- one for a FIN or a SYN
          tcplen := (totLen + if flags % 4 = 0 then 0 else 1) % 2 ^ 16
          header := slice pkt.data tcp (hdrlen * 4)
          payload := slice pkt.data (tcp + hdrlen * 4) totLen }, none, []⟩

/-- `icmp_reflect`: the reply is made in the buffer and is as long as the packet. -/
def icmpReflect (icmp len : Nat) (reports : List Report) : Outcome :=
  let m := store pkt.data 0 (slice pkt.data 6 6)
  let m := store m 6 host.mac
  let hosts := slice m 0 12
  let m := store m (ethHdrLen + 16) (slice m (ethHdrLen + 12) 4)
  let m := store m (ethHdrLen + 12) (beBytes 4 host.hostAddr)
  let m := store m (icmp + 2) [0, 0]
  let m := store m (icmp + 2) (leBytes 2 (chksumInternet (slice m icmp len)))
  ⟨.sent (slice m 0 pkt.pktLen), none, reports ++ [.reflect hosts len (slice m (ethHdrLen + 16) 4)]⟩

/-- `icmp_input`. The time stamp of a reply is read wherever the message ends. -/
def icmpInput (icmp len : Nat) : Outcome :=
  if len < icmpMinlen then .dropped
  else if chksumInternet (slice pkt.data icmp len) ≠ 0 then .dropped
  else
    let reports := [.request (byte pkt.data icmp) (byte pkt.data (icmp + 1))]
    if byte pkt.data icmp = icmpEcho then
      icmpReflect host { pkt with data := store pkt.data icmp (leBytes 1 icmpEchoreply) } icmp len reports
    else if byte pkt.data icmp = icmpEchoreply then
      let seq := ntoh16 pkt.data (icmp + icmpHdrLen + 2)
      let icmptimestamp := leValue (slice pkt.data (icmp + icmpHdrLen + 4) 8)
      ⟨.freed, none, reports ++ [.echoReply len seq (wsub 64 host.tsc icmptimestamp / host.cyclesPerUs)]⟩
    else ⟨.freed, none, reports⟩

def ipInput : Outcome :=
  let hdr := ethHdrLen
  if ¬ pkt.EnoughSpace hdr ipHdrLen then .dropped
  else if byte pkt.data hdr / 16 ≠ 4 then .dropped
  else if byte pkt.data hdr % 16 < 5 then .dropped
  -- fragments: the offset or the flag for more
  else if ntoh16 pkt.data (hdr + 6) % 2 ^ 14 ≠ 0 then .dropped
  else
    let hdrlen := byte pkt.data hdr % 16 * 4
    let pktlen := ntoh16 pkt.data (hdr + 2)
    if pktlen < hdrlen then .dropped
    else if ¬ pkt.EnoughSpace hdr pktlen then .dropped
    else if byte pkt.data (hdr + 9) = ipprotoTcp then tcpInput host pkt (hdr + hdrlen) (pktlen - hdrlen)
    else if byte pkt.data (hdr + 9) = ipprotoIcmp then icmpInput host pkt (hdr + hdrlen) (pktlen - hdrlen)
    else .dropped

def arpSendResponseReuse (update : ArpUpdate) : Outcome :=
  let arphdr := ethHdrLen
  let ethip := ethHdrLen + arpHdrLen
  let m := store pkt.data 0 (slice pkt.data 6 6)
  let m := store m (arphdr + 6) (beBytes 2 arpOpReply)
  let m := store m (ethip + 10) (slice m ethip 6)
  let m := store m (ethip + 16) (slice m (ethip + 6) 4)
  let m := store m 6 host.mac
  let m := store m (ethip + 6) (beBytes 4 host.hostAddr)
  let m := store m ethip host.mac
  ⟨.sent (slice m 0 arpPktSize), some update, []⟩

def arpInput : Outcome :=
  let hdr := ethHdrLen
  let ethip := ethHdrLen + arpHdrLen
  if ¬ pkt.EnoughSpace hdr arpHdrLen then .dropped
  else if ntoh16 pkt.data hdr ≠ arpHtypeEther ∨ ntoh16 pkt.data (hdr + 2) ≠ ethtypeIp ∨ byte pkt.data (hdr + 4) ≠ 6 ∨
      byte pkt.data (hdr + 5) ≠ 4 then .dropped
  else if ¬ pkt.EnoughSpace ethip ethIpLen then .dropped
  else if byte pkt.data ethip % 2 = 1 then .dropped
  else
    let amTarget := host.hostAddr == ntoh32 pkt.data (ethip + 16)
    let update := ⟨ntoh32 pkt.data (ethip + 6), slice pkt.data ethip 6, amTarget⟩
    if amTarget && ntoh16 pkt.data (hdr + 6) == arpOpRequest then arpSendResponseReuse host pkt update
    else ⟨.freed, some update, []⟩

/-- `eth_input_process`. The length of the frame is not looked at here. -/
def ethInputProcess : Outcome :=
  if ntoh16 pkt.data 12 = ethtypeIp then ipInput host pkt
  else if ntoh16 pkt.data 12 = ethtypeArp then arpInput host pkt
  else .dropped

end Mbuf

end Reflex.Net
