import Mathlib.Data.List.Basic
import Reflex.Lib.Run

/-!
# Which control block a segment goes to

The lists of control blocks of a core and the search of `tcp_input` through them: the bucket of the table of active
connections that the segment's addresses and ports hash to, the list of connections in TIME-WAIT, and the list of
listeners. The hash is any function. A control block is taken out of the table, or put into the list of TIME-WAIT, by
the state machine, by the timers or by the application; here these may happen at any time.

`tcp_bind` and `tcp_connect` follow each other in one system call, so that the list of bound control blocks is empty
whenever a segment comes in.
-/

namespace Reflex.Tcp
open Lib List

/-- The addresses and ports of a connection, as seen from this host. -/
structure FourTuple where
  localIp : Nat
  remoteIp : Nat
  localPort : Nat
  remotePort : Nat
deriving DecidableEq, Repr

/-- `struct tcp_pcb`: a name, and the fields that the search compares. -/
structure TcpPcb where
  id : Nat
  tuple : FourTuple
deriving DecidableEq, Repr

/-- `struct tcp_pcb_listen`; the address zero is any. -/
structure Listener where
  localIp : Nat
  localPort : Nat
deriving DecidableEq, Repr

/-- The header of a segment: its destination is the local side. -/
structure Segment where
  tuple : FourTuple
  syn : Bool
  ack : Bool
  rst : Bool
deriving DecidableEq, Repr

/-- The test of the loop over the listeners. -/
def Listener.Serves (l : Listener) (seg : Segment) : Prop :=
  l.localPort = seg.tuple.localPort ∧ (l.localIp = seg.tuple.localIp ∨ l.localIp = 0)

instance (l : Listener) (seg : Segment) : Decidable (l.Serves seg) := inferInstanceAs (Decidable (_ ∧ _))

inductive Target where
  | active (pcb : TcpPcb)
  | timeWait (pcb : TcpPcb)
  | listener (l : Listener)
  | nobody
deriving DecidableEq, Repr

structure Outcome where
  target : Target
  rst : Bool
  created : Option TcpPcb
deriving DecidableEq, Repr

structure Lists where
  active : Nat → List TcpPcb
  tw : List TcpPcb
  listeners : List Listener

/-- `tcp_input_find_list`. -/
def findList (pcbs : List TcpPcb) (seg : Segment) : Option TcpPcb := pcbs.find? fun p => p.tuple = seg.tuple

/-- The loop over the listeners: the cursor keeps the last entry when the list ends. -/
def scanListeners (seg : Segment) : Option Listener → List Listener → Option Listener
  | lpcb, [] => lpcb
  | _, l :: rest => if l.Serves seg then some l else scanListeners seg (some l) rest

namespace Lists

variable (idx : FourTuple → Nat)

/-- `TCP_REG_ACTIVE`. -/
def regActive (s : Lists) (i : Nat) (pcb : TcpPcb) : Lists :=
  { s with active := Function.update s.active i (pcb :: s.active i) }

/-- `tcp_listen_input`: a new control block has the listener's port and the bucket of the segment. -/
def tcpListenInput (s : Lists) (l : Listener) (seg : Segment) (alloc : Option Nat) : Outcome × Lists :=
  if seg.rst then (⟨.listener l, false, none⟩, s)
  else if seg.ack then (⟨.listener l, true, none⟩, s)
  else if seg.syn then
    match alloc with
    | none => (⟨.listener l, false, none⟩, s)
    | some id =>
      let npcb : TcpPcb := ⟨id, { seg.tuple with localPort := l.localPort }⟩
      (⟨.listener l, false, some npcb⟩, s.regActive (idx seg.tuple) npcb)
  else (⟨.listener l, false, none⟩, s)

/-- `tcp_input`, as far as the choice of the control block goes. -/
def tcpInput (s : Lists) (seg : Segment) (alloc : Option Nat) : Outcome × Lists :=
  match findList (s.active (idx seg.tuple)) seg with
  | some p => (⟨.active p, false, none⟩, s)
  | none =>
    match findList s.tw seg with
    | some p => (⟨.timeWait p, false, none⟩, s)
    | none =>
      match scanListeners seg none s.listeners with
      | some l => s.tcpListenInput idx l seg alloc
      | none => (⟨.nobody, !seg.rst, none⟩, s)

end Lists

inductive ListStep where
  | listen (l : Listener)
  /-- `tcp_bind` and `tcp_connect` -/
  | connect (pcb : TcpPcb)
  | input (seg : Segment) (alloc : Option Nat)
  | remove (id : Nat)
  | timeWait (pcb : TcpPcb)
  | expire (id : Nat)

namespace Lists

variable (idx : FourTuple → Nat)

/-- `TCP_RMV_ACTIVE`. -/
def rmvActive (s : Lists) (id : Nat) : Lists := { s with active := fun i => (s.active i).filter fun p => p.id ≠ id }

def next (s : Lists) : ListStep → Lists
  | .listen l => { s with listeners := l :: s.listeners }
  | .connect pcb => s.regActive (idx pcb.tuple) pcb
  | .input seg alloc => (s.tcpInput idx seg alloc).2
  | .remove id => s.rmvActive id
  | .timeWait pcb => { s.rmvActive pcb.id with tw := pcb :: s.tw }
  | .expire id => { s with tw := s.tw.filter fun p => p.id ≠ id }

def Active (s : Lists) (p : TcpPcb) : Prop := ∃ i, p ∈ s.active i

/-- `tcp_bind_checklist`: the address and port are free. -/
def Unbound (pcb p : TcpPcb) : Prop :=
  ¬ (p.tuple.localPort = pcb.tuple.localPort ∧
    (p.tuple.localIp = 0 ∨ pcb.tuple.localIp = 0 ∨ p.tuple.localIp = pcb.tuple.localIp))

/-- A connection is opened from an address and port that `tcp_bind` found free; what goes to TIME-WAIT is active. -/
def Valid (s : Lists) : ListStep → Prop
  | .connect pcb => (∀ p, s.Active p → Unbound pcb p) ∧ ∀ p ∈ s.tw, Unbound pcb p
  | .timeWait pcb => s.Active pcb
  | _ => True

def empty : Lists := ⟨fun _ => [], [], []⟩

/-! ## What the search should find -/

def ForActive (s : Lists) (seg : Segment) : Prop := ∃ p, s.Active p ∧ p.tuple = seg.tuple
def ForTimeWait (s : Lists) (seg : Segment) : Prop := ∃ p ∈ s.tw, p.tuple = seg.tuple
def ForListener (s : Lists) (seg : Segment) : Prop := ∃ l ∈ s.listeners, l.Serves seg

/-- The segment goes to the active connection with its addresses and ports, else to the one in TIME-WAIT, else to a
listener on its destination; else it is answered with a reset and no connection comes to be. -/
structure Right (s : Lists) (seg : Segment) (outcome : Outcome) : Prop where
  active : s.ForActive seg → ∃ p, s.Active p ∧ p.tuple = seg.tuple ∧ outcome.target = .active p
  timeWait : ¬ s.ForActive seg → s.ForTimeWait seg → ∃ p ∈ s.tw, p.tuple = seg.tuple ∧ outcome.target = .timeWait p
  listener : ¬ s.ForActive seg → ¬ s.ForTimeWait seg → s.ForListener seg →
    ∃ l ∈ s.listeners, l.Serves seg ∧ outcome.target = .listener l
  reset : ¬ s.ForActive seg → ¬ s.ForTimeWait seg → ¬ s.ForListener seg → outcome.rst = true ∧ outcome.created = none

/-- The segment has somebody to go to; or it is no reset, and there are no listeners or it carries an acknowledgement. -/
def Served (s : Lists) (seg : Segment) : Prop :=
  s.ForActive seg ∨ s.ForTimeWait seg ∨ s.ForListener seg ∨ (seg.rst = false ∧ (s.listeners = [] ∨ seg.ack = true))

/-- The condition on a step: a segment that comes in is served. -/
def Admits (s : Lists) : ListStep → Prop
  | .input seg _ => s.Served seg
  | _ => True

/-! ## The invariant of the table -/

variable {idx} {s : Lists} {seg : Segment}

/-- Each active control block is in the bucket of its own addresses and ports, and no two have the same. -/
structure Homed (idx : FourTuple → Nat) (s : Lists) : Prop where
  bucket : ∀ i, ∀ p ∈ s.active i, i = idx p.tuple
  single : ∀ p q, s.Active p → s.Active q → p.tuple = q.tuple → p = q

theorem findList_some {pcbs p} (found : findList pcbs seg = some p) :
    p ∈ pcbs ∧ p.tuple = seg.tuple := by
  have meets := find?_some found
  exact ⟨mem_of_find?_eq_some found, of_decide_eq_true meets⟩

theorem findList_none {pcbs} : findList pcbs seg = none ↔ ∀ p ∈ pcbs, p.tuple ≠ seg.tuple := by
  simp [findList]

theorem scanListeners_some (cursor : Option Listener) {ls} (serves : ∃ l ∈ ls, l.Serves seg) :
    ∃ l ∈ ls, l.Serves seg ∧ scanListeners seg cursor ls = some l := by
  induction ls generalizing cursor with
  | nil =>
    obtain ⟨l, member, -⟩ := serves
    cases member
  | cons first rest ih =>
    rw [scanListeners]
    split_ifs with here
    · exact ⟨first, mem_cons_self, here, rfl⟩
    · obtain ⟨l, member, fits⟩ := serves
      rcases mem_cons.1 member with rfl | later
      · exact absurd fits here
      · obtain ⟨found, inside, meets, scan⟩ := ih (some first) ⟨l, later, fits⟩
        exact ⟨found, mem_cons_of_mem _ inside, meets, scan⟩

theorem scanListeners_none {cursor ls} (none : ¬ ∃ l ∈ ls, l.Serves seg) :
    scanListeners seg cursor ls = (ls.getLast?).or cursor := by
  induction ls generalizing cursor with
  | nil => simp [scanListeners]
  | cons first rest ih =>
    have here : ¬ first.Serves seg := fun fits => none ⟨first, mem_cons_self, fits⟩
    have later : ¬ ∃ l ∈ rest, l.Serves seg := fun ⟨l, member, fits⟩ => none ⟨l, mem_cons_of_mem _ member, fits⟩
    rw [scanListeners, if_neg here, ih later]
    cases rest with
    | nil => rfl
    | cons second rest => simp [getLast?_cons]

theorem Homed.find_iff (homed : Homed idx s) : findList (s.active (idx seg.tuple)) seg = none ↔ ¬ s.ForActive seg := by
  rw [findList_none]
  constructor
  · rintro nowhere ⟨p, ⟨i, member⟩, same⟩
    rw [homed.bucket i p member, same] at member
    exact nowhere p member same
  · intro nobody p member same
    exact nobody ⟨p, ⟨_, member⟩, same⟩

theorem Homed.find_active (homed : Homed idx s) {p} (active : s.Active p) (same : p.tuple = seg.tuple) :
    findList (s.active (idx seg.tuple)) seg = some p := by
  cases found : findList (s.active (idx seg.tuple)) seg with
  | none => exact absurd ⟨p, active, same⟩ (homed.find_iff.1 found)
  | some q =>
    obtain ⟨member, tuple⟩ := findList_some found
    rw [homed.single q p ⟨_, member⟩ active (tuple.trans same.symm)]

/-- The four ways through `tcp_input`. -/
theorem Homed.tcpInput_cases (homed : Homed idx s) (seg : Segment) (alloc : Option Nat) :
    (∃ p, s.Active p ∧ p.tuple = seg.tuple ∧ s.tcpInput idx seg alloc = (⟨.active p, false, none⟩, s)) ∨
    (¬ s.ForActive seg ∧ ∃ p ∈ s.tw, p.tuple = seg.tuple ∧ s.tcpInput idx seg alloc = (⟨.timeWait p, false, none⟩, s)) ∨
    (¬ s.ForActive seg ∧ ¬ s.ForTimeWait seg ∧ ∃ l, scanListeners seg none s.listeners = some l ∧
      s.tcpInput idx seg alloc = s.tcpListenInput idx l seg alloc) ∨
    (¬ s.ForActive seg ∧ ¬ s.ForTimeWait seg ∧ scanListeners seg none s.listeners = none ∧
      s.tcpInput idx seg alloc = (⟨.nobody, !seg.rst, none⟩, s)) := by
  cases found : findList (s.active (idx seg.tuple)) seg with
  | some p =>
    obtain ⟨member, tuple⟩ := findList_some found
    exact .inl ⟨p, ⟨_, member⟩, tuple, by simp only [tcpInput, found]⟩
  | none =>
    have nobody := homed.find_iff.1 found
    cases waiting : findList s.tw seg with
    | some p =>
      obtain ⟨member, tuple⟩ := findList_some waiting
      exact .inr (.inl ⟨nobody, p, member, tuple, by simp only [tcpInput, found, waiting]⟩)
    | none =>
      have gone : ¬ s.ForTimeWait seg := fun ⟨p, member, same⟩ => findList_none.1 waiting p member same
      cases scan : scanListeners seg none s.listeners with
      | some l =>
        exact .inr (.inr (.inl ⟨nobody, gone, l, rfl, by simp only [tcpInput, found, waiting, scan]⟩))
      | none => exact .inr (.inr (.inr ⟨nobody, gone, rfl, by simp only [tcpInput, found, waiting, scan]⟩))

/-- A listener that gets a segment it does not serve resets it only if it is an acknowledgement. -/
theorem tcpListenInput_resets_iff (l : Listener) (alloc : Option Nat) :
    ((s.tcpListenInput idx l seg alloc).1.rst = true ∧ (s.tcpListenInput idx l seg alloc).1.created = none) ↔
      seg.rst = false ∧ seg.ack = true := by
  unfold tcpListenInput
  cases seg.rst <;> cases seg.ack <;> cases seg.syn <;> cases alloc <;> simp

theorem tcpListenInput_target (l : Listener) (alloc : Option Nat) :
    (s.tcpListenInput idx l seg alloc).1.target = .listener l := by
  unfold tcpListenInput
  cases seg.rst <;> cases seg.ack <;> cases seg.syn <;> cases alloc <;> rfl

/-- In a table in order, a segment is treated right exactly if it is served. -/
theorem Homed.right_iff (homed : Homed idx s) (seg : Segment) (alloc : Option Nat) :
    s.Right seg (s.tcpInput idx seg alloc).1 ↔ s.Served seg := by
  rcases homed.tcpInput_cases seg alloc with ⟨p, active, tuple, result⟩ | ⟨nobody, p, member, tuple, result⟩ |
    ⟨nobody, gone, l, scan, result⟩ | ⟨nobody, gone, scan, result⟩
  · rw [result]
    have mine : s.ForActive seg := ⟨p, active, tuple⟩
    exact ⟨fun _ => .inl mine, fun _ => ⟨fun _ => ⟨p, active, tuple, rfl⟩, fun other => absurd mine other,
      fun other => absurd mine other, fun other => absurd mine other⟩⟩
  · rw [result]
    have mine : s.ForTimeWait seg := ⟨p, member, tuple⟩
    exact ⟨fun _ => .inr (.inl mine), fun _ => ⟨fun other => absurd other nobody, fun _ _ => ⟨p, member, tuple, rfl⟩,
      fun _ other => absurd mine other, fun _ other => absurd mine other⟩⟩
  · rw [result]
    by_cases listened : s.ForListener seg
    · obtain ⟨m, inside, serves, found⟩ := scanListeners_some none listened
      obtain rfl := Option.some.inj (found.symm.trans scan)
      exact ⟨fun _ => .inr (.inr (.inl listened)), fun _ => ⟨fun other => absurd other nobody,
        fun _ other => absurd other gone, fun _ _ _ => ⟨m, inside, serves, tcpListenInput_target m alloc⟩,
        fun _ _ other => absurd listened other⟩⟩
    · have some : s.listeners ≠ [] := by
        intro none
        rw [none] at scan
        cases scan
      constructor
      · intro right
        obtain ⟨noRst, ack⟩ := (tcpListenInput_resets_iff l alloc).1 (right.reset nobody gone listened)
        exact .inr (.inr (.inr ⟨noRst, .inr ack⟩))
      · rintro (other | other | other | ⟨noRst, other | ack⟩)
        · exact absurd other nobody
        · exact absurd other gone
        · exact absurd other listened
        · exact absurd other some
        · exact ⟨fun other => absurd other nobody, fun _ other => absurd other gone, fun _ _ other => absurd other listened,
            fun _ _ _ => (tcpListenInput_resets_iff l alloc).2 ⟨noRst, ack⟩⟩
  · rw [result]
    have unheard : ¬ s.ForListener seg := by
      intro listened
      obtain ⟨m, -, -, found⟩ := scanListeners_some none listened
      cases found.symm.trans scan
    have none : s.listeners = [] := by
      rw [scanListeners_none unheard, Option.or_none] at scan
      exact getLast?_eq_none_iff.1 scan
    constructor
    · intro right
      have reset := (right.reset nobody gone unheard).1
      exact .inr (.inr (.inr ⟨by simpa using reset, .inl none⟩))
    · rintro (other | other | other | ⟨noRst, -⟩)
      · exact absurd other nobody
      · exact absurd other gone
      · exact absurd other unheard
      · exact ⟨fun other => absurd other nobody, fun _ other => absurd other gone, fun _ _ other => absurd other unheard,
          fun _ _ _ => ⟨by simp [noRst], rfl⟩⟩

/-! ## The steps keep the table in order -/

theorem Homed.regActive (homed : Homed idx s) (pcb : TcpPcb) (fresh : ∀ p, s.Active p → p.tuple ≠ pcb.tuple) :
    Homed idx (s.regActive (idx pcb.tuple) pcb) := by
  have members : ∀ i p, p ∈ (s.regActive (idx pcb.tuple) pcb).active i ↔
      (i = idx pcb.tuple ∧ p = pcb) ∨ p ∈ s.active i := by
    intro i p
    simp only [Lists.regActive, Function.update_apply]
    split_ifs with here
    · subst here
      simp
    · simp [here]
  constructor
  · intro i p member
    rcases (members i p).1 member with ⟨rfl, rfl⟩ | old
    · rfl
    · exact homed.bucket i p old
  · rintro p q ⟨i, hp⟩ ⟨j, hq⟩ same
    rcases (members i p).1 hp with ⟨-, new⟩ | old <;> rcases (members j q).1 hq with ⟨-, other⟩ | other
    · exact new.trans other.symm
    · exact absurd (same.symm.trans (congrArg TcpPcb.tuple new)) (fresh q ⟨j, other⟩)
    · exact absurd (same.trans (congrArg TcpPcb.tuple other)) (fresh p ⟨i, old⟩)
    · exact homed.single p q ⟨i, old⟩ ⟨j, other⟩ same

theorem Homed.rmvActive (homed : Homed idx s) (id : Nat) : Homed idx (s.rmvActive id) := by
  have members : ∀ i p, p ∈ (s.rmvActive id).active i → p ∈ s.active i :=
    fun i p member => (mem_filter.1 member).1
  constructor
  · intro i p member
    exact homed.bucket i p (members i p member)
  · rintro p q ⟨i, hp⟩ ⟨j, hq⟩ same
    exact homed.single p q ⟨i, members i p hp⟩ ⟨j, members j q hq⟩ same

theorem Homed.tcpListenInput (homed : Homed idx s) {l : Listener} (serves : l.Serves seg) (fresh : ¬ s.ForActive seg)
    (alloc : Option Nat) : Homed idx (s.tcpListenInput idx l seg alloc).2 := by
  have tuple : { seg.tuple with localPort := l.localPort } = seg.tuple := by
    rw [serves.1]
  unfold Lists.tcpListenInput
  split_ifs with rst ack syn
  · exact homed
  · exact homed
  · cases alloc with
    | none => exact homed
    | some id =>
      dsimp only
      rw [tuple]
      exact homed.regActive ⟨id, seg.tuple⟩ fun p active same => fresh ⟨p, active, same⟩
  · exact homed

theorem tcpListenInput_ack (l : Listener) (alloc : Option Nat) (noRst : seg.rst = false) (ack : seg.ack = true) :
    (s.tcpListenInput idx l seg alloc).2 = s := by
  simp [Lists.tcpListenInput, noRst, ack]

theorem Homed.tcpInput (homed : Homed idx s) (served : s.Served seg) (alloc : Option Nat) :
    Homed idx (s.tcpInput idx seg alloc).2 := by
  rcases homed.tcpInput_cases seg alloc with ⟨p, -, -, result⟩ | ⟨-, p, -, -, result⟩ |
    ⟨nobody, gone, l, scan, result⟩ | ⟨-, -, -, result⟩ <;> rw [result]
  · exact homed
  · exact homed
  · by_cases listened : s.ForListener seg
    · obtain ⟨m, -, serves, found⟩ := scanListeners_some none listened
      obtain rfl := Option.some.inj (found.symm.trans scan)
      exact homed.tcpListenInput serves nobody alloc
    · rcases served with other | other | other | ⟨noRst, none | ack⟩
      · exact absurd other nobody
      · exact absurd other gone
      · exact absurd other listened
      · rw [none] at scan
        cases scan
      · rw [tcpListenInput_ack l alloc noRst ack]
        exact homed
  · exact homed

theorem Homed.next (homed : Homed idx s) {step} (valid : s.Valid step) (admits : s.Admits step) :
    Homed idx (s.next idx step) := by
  cases step with
  | listen l => exact ⟨homed.bucket, homed.single⟩
  | connect pcb =>
    apply homed.regActive
    intro p active same
    exact valid.1 p active ⟨by rw [same], .inr (.inr (by rw [same]))⟩
  | input seg alloc => exact homed.tcpInput admits alloc
  | remove id => exact homed.rmvActive id
  | timeWait pcb => exact ⟨(homed.rmvActive pcb.id).bucket, (homed.rmvActive pcb.id).single⟩
  | expire id => exact ⟨homed.bucket, homed.single⟩

/-- While every segment that came in was served: each active connection is found for its own addresses and ports, and the
next segment is treated right exactly if it is served. -/
theorem segments_reach_connections (idx : FourTuple → Nat) {steps : List ListStep}
    (run : Run (Guarded (Applies (Lists.next idx) Valid) Admits) Lists.empty steps s) :
    (∀ p, s.Active p → ∀ seg : Segment, p.tuple = seg.tuple → ∀ alloc,
      (s.tcpInput idx seg alloc).1.target = .active p) ∧
    ∀ seg alloc, s.Right seg (s.tcpInput idx seg alloc).1 ↔ s.Served seg := by
  have homed : Homed idx s := by
    apply run.invariant (I := Homed idx)
    · rintro s step _ ⟨⟨valid, rfl⟩, admits⟩ homed
      exact homed.next valid admits
    · refine ⟨fun i p member => (nomatch member), ?_⟩
      rintro p q ⟨i, member⟩
      cases member
  refine ⟨fun p active seg same alloc => ?_, homed.right_iff⟩
  have found := homed.find_active active same
  simp only [Lists.tcpInput, found]

/-- A connection request to a port that is served. -/
def knockAt (port : Nat) : Segment := ⟨⟨1, 2, port, 1000⟩, true, false, false⟩

/-- A request to a listener's port, and the segment after it. -/
theorem request_is_found : ∃ s, Run (Guarded (Applies (Lists.next FourTuple.localPort) Valid) Admits) Lists.empty
    [.listen ⟨0, 80⟩, .input (knockAt 80) (some 7)] s ∧
      s.Active ⟨7, (knockAt 80).tuple⟩ ∧
      (s.tcpInput FourTuple.localPort (knockAt 80) none).1.target = .active ⟨7, (knockAt 80).tuple⟩ := by
  have run : Run (Guarded (Applies (Lists.next FourTuple.localPort) Valid) Admits) Lists.empty
      [.listen ⟨0, 80⟩, .input (knockAt 80) (some 7)] _ :=
    .cons ⟨⟨trivial, rfl⟩, trivial⟩ (.single ⟨⟨trivial, rfl⟩,
      .inr (.inr (.inl ⟨⟨0, 80⟩, List.mem_cons_self, by decide⟩))⟩)
  have active : Active (Lists.next FourTuple.localPort (Lists.next FourTuple.localPort Lists.empty (.listen ⟨0, 80⟩))
      (.input (knockAt 80) (some 7))) ⟨7, (knockAt 80).tuple⟩ := ⟨80, by decide⟩
  exact ⟨_, run, active, (segments_reach_connections _ run).1 _ active (knockAt 80) rfl none⟩

/-- A request to a port without a listener goes to the last listener of the list, and the connection that it opens, with
that listener's port, is not found for its own addresses and ports. -/
theorem unserved_request_opens_connection : ∃ s p,
    Run (Applies (Lists.next FourTuple.localPort) Valid) Lists.empty [.listen ⟨0, 80⟩, .input (knockAt 81) (some 7)] s ∧
      s.Active p ∧ p.tuple.localPort = 80 ∧
      (s.tcpInput FourTuple.localPort ⟨p.tuple, false, true, false⟩ none).1 = ⟨.listener ⟨0, 80⟩, true, none⟩ := by
  have run : Run (Applies (Lists.next FourTuple.localPort) Valid) Lists.empty
      [.listen ⟨0, 80⟩, .input (knockAt 81) (some 7)] _ := .cons ⟨trivial, rfl⟩ (.single ⟨trivial, rfl⟩)
  exact ⟨_, ⟨7, ⟨1, 2, 80, 1000⟩⟩, run, ⟨81, by decide⟩, rfl, by decide⟩

end Lists

end Reflex.Tcp
