import Reflex.Lib.Bytes
import Reflex.Lib.Word

/-!
# State of the ReFlex server

The message format of `inc/reflex.h` and the connection of `apps/reflex_server.c`. A
message is a packed 24-byte header, followed by the blocks to write for `CMD_SET`. What
the server asks of the NVMe layer, and which entries of `buf` it touches, is logged.
-/

namespace Reflex.Server
open Lib

def cmdGet : UInt16 := 0x00
def cmdSet : UInt16 := 0x01
def cmdReg : UInt16 := 0x03

def respOk : UInt32 := 0x00

def maxPagesPerAccess : Nat := 256
def pageSize : Nat := 4096

/-- `binary_header_blk_t`. -/
structure Header where
  magic : UInt16
  opcode : UInt16
  reqHandle : UInt64
  lba : UInt64
  lbaCount : UInt32
  deriving DecidableEq

/-- `sizeof(BINARY_HEADER)`. -/
def headerSize : Nat := 24

def Header.bytes (h : Header) : List UInt8 :=
  leBytes 2 h.magic.toNat ++ leBytes 2 h.opcode.toNat ++ leBytes 8 h.reqHandle.toNat ++ leBytes 8 h.lba.toNat ++
    leBytes 4 h.lbaCount.toNat

def Header.ofBuffer (b : Nat → UInt8) : Header where
  magic := UInt16.ofNat (leValue (slice b 0 2))
  opcode := UInt16.ofNat (leValue (slice b 2 2))
  reqHandle := UInt64.ofNat (leValue (slice b 4 8))
  lba := UInt64.ofNat (leValue (slice b 12 8))
  lbaCount := UInt32.ofNat (leValue (slice b 20 4))

@[simp] theorem Header.bytes_length (h : Header) : h.bytes.length = headerSize := by simp [Header.bytes, headerSize]

theorem Header.ofBuffer_store (b : Nat → UInt8) (h : Header) : Header.ofBuffer (store b 0 h.bytes) = h := by
  have part : ∀ i n, i + n ≤ headerSize → slice (store b 0 h.bytes) i n = (h.bytes.drop i).take n := by
    intro i n inside
    have read := slice_store b 0 (show i + n ≤ h.bytes.length by rw [h.bytes_length]; exact inside)
    rwa [Nat.zero_add] at read
  have magic : slice (store b 0 h.bytes) 0 2 = leBytes 2 h.magic.toNat := part 0 2 (by decide)
  have opcode : slice (store b 0 h.bytes) 2 2 = leBytes 2 h.opcode.toNat := part 2 2 (by decide)
  have reqHandle : slice (store b 0 h.bytes) 4 8 = leBytes 8 h.reqHandle.toNat := part 4 8 (by decide)
  have lba : slice (store b 0 h.bytes) 12 8 = leBytes 8 h.lba.toNat := part 12 8 (by decide)
  have lbaCount : slice (store b 0 h.bytes) 20 4 = leBytes 4 h.lbaCount.toNat := part 20 4 (by decide)
  have word16 : ∀ x : UInt16, UInt16.ofNat (leValue (leBytes 2 x.toNat)) = x := fun x => by
    rw [leValue_leBytes, Nat.mod_eq_of_lt (show x.toNat < 256 ^ 2 from x.toNat_lt), UInt16.ofNat_toNat]
  have word32 : ∀ x : UInt32, UInt32.ofNat (leValue (leBytes 4 x.toNat)) = x := fun x => by
    rw [leValue_leBytes, Nat.mod_eq_of_lt (show x.toNat < 256 ^ 4 from x.toNat_lt), UInt32.ofNat_toNat]
  have word64 : ∀ x : UInt64, UInt64.ofNat (leValue (leBytes 8 x.toNat)) = x := fun x => by
    rw [leValue_leBytes, Nat.mod_eq_of_lt (show x.toNat < 256 ^ 8 from x.toNat_lt), UInt64.ofNat_toNat]
  rw [Header.ofBuffer, magic, opcode, reqHandle, lba, lbaCount, word16, word16, word64, word64, word32]

theorem Header.bytes_ofBuffer (b : Nat → UInt8) : (Header.ofBuffer b).bytes = slice b 0 headerSize := by
  have word : ∀ pos w, leValue (slice b pos w) % 256 ^ w = leValue (slice b pos w) := by
    intro pos w
    have same := congrArg leValue (leBytes_leValue (slice b pos w))
    rwa [leValue_leBytes, slice_length] at same
  have field : ∀ pos w, leBytes w (leValue (slice b pos w)) = slice b pos w := by
    intro pos w
    have same := leBytes_leValue (slice b pos w)
    rwa [slice_length] at same
  have parts : slice b 0 headerSize = slice b 0 2 ++ slice b 2 2 ++ slice b 4 8 ++ slice b 12 8 ++ slice b 20 4 := by
    rw [← slice_add b 0 2 2, ← slice_add b 0 4 8, ← slice_add b 0 12 8, ← slice_add b 0 20 4]
    rfl
  have word16 : ∀ pos, (UInt16.ofNat (leValue (slice b pos 2))).toNat = leValue (slice b pos 2) := fun pos => by
    rw [UInt16.toNat_ofNat', ← word pos 2]
    exact Nat.mod_mod _ _
  have word32 : ∀ pos, (UInt32.ofNat (leValue (slice b pos 4))).toNat = leValue (slice b pos 4) := fun pos => by
    rw [UInt32.toNat_ofNat', ← word pos 4]
    exact Nat.mod_mod _ _
  have word64 : ∀ pos, (UInt64.ofNat (leValue (slice b pos 8))).toNat = leValue (slice b pos 8) := fun pos => by
    rw [UInt64.toNat_ofNat', ← word pos 8]
    exact Nat.mod_mod _ _
  rw [Header.bytes, Header.ofBuffer, word16, word16, word64, word64, word32, field, field, field, field, field, parts]

/-- `struct nvme_req`: the request, and its pages by slot and offset. -/
structure NvmeReq where
  opcode : UInt16
  lba : UInt64
  lbaCount : UInt32
  remoteReqHandle : UInt64
  buf : Nat → Nat → UInt8
  currentSglBuf : Nat

/-- What the server asks of the NVMe layer. `slot` is an entry of `buf` that is given a
page, `fill` a page that the payload reaches. -/
inductive ServerEvent where
  | registerFlow (flowGroupId : Int) (latencyUsSLO : UInt32) (iopsSLO : UInt64) (rwRatioSLO : UInt32)
  | slot (i : Nat)
  | fill (i : Nat)
  | readv (fgHandle : Int) (numSgls : Int) (req : NvmeReq)
  | writev (fgHandle : Int) (numSgls : Int) (req : NvmeReq)

/-- A connection that was closed gets no more events; a failed assertion ends the process. -/
inductive Status where
  | established
  | closed
  | aborted
  deriving DecidableEq

theorem Status.ne_aborted {status : Status} (up : status = .established) : status ≠ .aborted := up ▸ noConfusion

theorem Status.ne_closed {status : Status} (up : status = .established) : status ≠ .closed := up ▸ noConfusion

/-- `struct pp_conn`. `nvmePending` counts the requests that were ever handed over, in a C int. `wire` are the bytes that the library has accepted for sending, and
`allocs` counts the requests taken from the pool. -/
structure PpConn where
  rxReceived : Nat
  rxPending : Bool
  dataRecv : Nat → UInt8
  currentReq : NvmeReq
  txSent : Nat
  txPending : Bool
  dataSend : Nat → UInt8
  pendingRequests : List NvmeReq
  nvmePending : Int32
  nvmeFgHandle : Int
  connFgHandle : Int
  status : Status
  allocs : Nat
  wire : List UInt8
  log : List ServerEvent

/-- The globals that `nvme_opened_cb` sets, and what the pools return: a request, if there
is one, and its pages. -/
structure Env where
  nsSize : Nat
  nsSectorSize : Nat
  alloc : Nat → Option (Nat → Option (Nat → UInt8))

def PpConn.abort (c : PpConn) : PpConn := { c with status := .aborted }

/-- `ixev_close`. -/
def PpConn.close (c : PpConn) : PpConn := { c with status := .closed }

/-- `pp_accept`: the other fields keep what the memory from the pool held. -/
def ppAccept (memory : PpConn) (srcPort : UInt16) : PpConn :=
  { memory with
    rxReceived := 0
    rxPending := false
    txSent := 0
    txPending := false
    pendingRequests := []
    nvmeFgHandle := 0
    connFgHandle := srcPort.toNat
    status := .established
    wire := []
    log := [] }

def blankReq : NvmeReq := ⟨0, 0, 0, 0, fun _ _ => 0, 0⟩

def blankConn : PpConn := ⟨0, false, fun _ => 0, blankReq, 0, false, fun _ => 0, [], 0, 0, 0, .closed, 0, [], []⟩

/-- A namespace of blocks of this size, and pools that never run dry. -/
def ampleEnv (nsSize nsSectorSize : Nat) : Env := ⟨nsSize, nsSectorSize, fun _ => some fun _ => some fun _ => 0⟩

def PpConn.header (c : PpConn) : Header := .ofBuffer c.dataRecv

/-- `lba_count * ns_sector_size`, an `unsigned long`. -/
def accessBytes (env : Env) (lbaCount : UInt32) : Nat := wmul 64 lbaCount.toNat env.nsSectorSize

/-- The pages of a buffer of so many bytes. -/
def pageCount (bytes : Nat) : Nat := (bytes + pageSize - 1) / pageSize

/-- The bytes in the pages of a request, in order. -/
def NvmeReq.contents (req : NvmeReq) (bytes : Nat) : List UInt8 :=
  (List.range bytes).map fun k => req.buf (k / pageSize) (k % pageSize)

end Reflex.Server
