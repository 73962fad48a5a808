import Reflex.Lib.Hlist
import Reflex.Lib.Run

/-!
# The table of active connections

`TCP_REG`, `TCP_REG_ACTIVE` and `__TCP_RMV` of `lwip/tcp_impl.h` on the lists of a flow group (`ix/ethfg.h`). A control
block is on the list of bound blocks, on the TIME-WAIT list or in a chain of the hash table; the buckets whose chain is
not empty are linked in a list of their own. All lists are linked through pointers inside the objects, and `__TCP_RMV`
tells from the address in the back pointer whether the block is alone in a chain of the table.
-/

namespace Reflex.Tcp
open Lib Function List

/-- `TCP_ACTIVE_PCBS_MAX_BUCKETS`. -/
def maxBuckets : Nat := 512

/-- `sizeof(struct tcp_hash_entry)`: the head of the chain, then the two pointers of `hash_link`. -/
def entrySize : Nat := 24

/-- The objects that list pointers lead to. -/
inductive Cell where
  | activeBuckets
  | twPcbs
  | boundPcbs
  | pcbs (bucket : Nat)
  | hashLink (bucket : Nat)
  | link (pcb : Nat)
deriving DecidableEq, Repr

/-- Where the table of a flow group and the control blocks lie. The three heads stand before the table in
`struct eth_fg`, the control blocks come from a pool. -/
structure Layout where
  activeTbl : Nat
  linkAddr : Nat → Nat
  heads_fit : entrySize < activeTbl
  links_outside : ∀ pcb, linkAddr pcb < activeTbl ∨ activeTbl + maxBuckets * entrySize ≤ linkAddr pcb

def Layout.addr (layout : Layout) : Cell → Nat
  | .activeBuckets => layout.activeTbl - 24
  | .twPcbs => layout.activeTbl - 16
  | .boundPcbs => layout.activeTbl - 8
  | .pcbs i => layout.activeTbl + i * entrySize
  | .hashLink i => layout.activeTbl + i * entrySize + 8
  | .link pcb => layout.linkAddr pcb

/-! ## The macros

There is no result where an assertion fails or a null pointer is followed. -/

def tcpReg (m : Links Cell) (list : Cell) (pcb : Nat) : Option (Links Cell) :=
  if m.prev (.link pcb) = none then some (m.addHead list (.link pcb)) else none

def tcpRegActive (m : Links Cell) (pcb idx : Nat) : Option (Links Cell) :=
  let listed := if m.next (.pcbs idx) = none then
      if m.prev (.hashLink idx) = none then m.addHead .activeBuckets (.hashLink idx) else m
    else m
  tcpReg listed (.pcbs idx) pcb

/-- The test of `__TCP_RMV`: the block is alone in its list, and the list is a chain of the table. -/
def LastOfChain (layout : Layout) (m : Links Cell) (pcb : Nat) (prev : Cell) : Prop :=
  layout.activeTbl ≤ layout.addr prev ∧ layout.addr prev < layout.activeTbl + maxBuckets * entrySize ∧ m.next (.link pcb) = none

instance (layout : Layout) (m : Links Cell) (pcb : Nat) (prev : Cell) : Decidable (LastOfChain layout m pcb prev) :=
  inferInstanceAs (Decidable (_ ∧ _ ∧ _))

/-- Takes the bucket at an address out of the list of buckets. -/
def rmvBucket (layout : Layout) (m : Links Cell) (he2 : Nat) : Option (Links Cell) :=
  let idx := (he2 - layout.activeTbl) / entrySize
  if idx < maxBuckets ∧ layout.activeTbl + idx * entrySize = he2 then
    (m.del (.hashLink idx)).map fun m => m.setPrev (.hashLink idx) none
  else none

def tcpRmv (layout : Layout) (m : Links Cell) (pcb : Nat) : Option (Links Cell) :=
  match m.prev (.link pcb) with
  | none => none
  | some prev =>
    (if LastOfChain layout m pcb prev then rmvBucket layout m (layout.addr prev) else some m).bind fun m =>
      (m.del (.link pcb)).map fun m => m.setPrev (.link pcb) none

/-! ## A flow group -/

/-- The lists a control block can be registered on. -/
inductive Home where
  | active (bucket : Nat)
  | bound
  | timeWait
deriving DecidableEq, Repr

def Home.head : Home → Cell
  | .active i => .pcbs i
  | .bound => .boundPcbs
  | .timeWait => .twPcbs

/-- The pointers of a flow group; `home` records where each block was registered last and not removed since. -/
structure FlowGroup where
  links : Links Cell
  home : Nat → Option Home
  failed : Bool

inductive TableOp where
  | regActive (pcb bucket : Nat)
  | regBound (pcb : Nat)
  | regTimeWait (pcb : Nat)
  | rmv (pcb : Nat)
deriving Repr

namespace FlowGroup

def empty : FlowGroup := ⟨.blank, fun _ => none, false⟩

/-- The outcome of a macro that leaves the block `pcb` at `home`. -/
def settle (s : FlowGroup) (pcb : Nat) (home : Option Home) : Option (Links Cell) → FlowGroup
  | none => { s with failed := true }
  | some links => { s with links := links, home := Function.update s.home pcb home }

def next (layout : Layout) (s : FlowGroup) : TableOp → FlowGroup
  | .regActive pcb i => s.settle pcb (some (.active i)) (tcpRegActive s.links pcb i)
  | .regBound pcb => s.settle pcb (some .bound) (tcpReg s.links .boundPcbs pcb)
  | .regTimeWait pcb => s.settle pcb (some .timeWait) (tcpReg s.links .twPcbs pcb)
  | .rmv pcb => s.settle pcb none (tcpRmv layout s.links pcb)

/-- A block is registered on one list at a time, in a bucket that exists; only a registered block is removed. -/
def Valid (s : FlowGroup) : TableOp → Prop
  | .regActive pcb i => s.home pcb = none ∧ i < maxBuckets
  | .regBound pcb => s.home pcb = none
  | .regTimeWait pcb => s.home pcb = none
  | .rmv pcb => s.home pcb ≠ none

/-- The shape of the table: the list of buckets has the buckets with a chain, each once, and the chain of a bucket has
the connections that are active there, each once. -/
structure Shaped (s : FlowGroup) : Prop where
  running : s.failed = false
  buckets : ∃ bs : List Nat, s.links.Chain .activeBuckets (bs.map .hashLink) ∧ bs.Nodup ∧
    ∀ i, i ∈ bs ↔ i < maxBuckets ∧ s.links.next (.pcbs i) ≠ none
  chains : ∀ i < maxBuckets, ∃ ids : List Nat, s.links.Chain (.pcbs i) (ids.map .link) ∧ ids.Nodup ∧
    ∀ pcb, pcb ∈ ids ↔ s.home pcb = some (.active i)

/-- The list of buckets is the same, pointer by pointer. -/
def SameBuckets (s t : FlowGroup) : Prop :=
  (∀ i, t.links.next (.hashLink i) = s.links.next (.hashLink i) ∧ t.links.prev (.hashLink i) = s.links.prev (.hashLink i)) ∧
    t.links.next .activeBuckets = s.links.next .activeBuckets

/-! ## The lists behind the pointers -/

def heads : Set Cell := fun c => c = .activeBuckets ∨ ∃ home : Home, c = home.head

/-- What the lists hold: the buckets `bs`, and the control blocks `ids` of each list. -/
def content (bs : List Nat) (ids : Home → List Nat) : Cell → List Cell
  | .activeBuckets => bs.map .hashLink
  | .twPcbs => (ids .timeWait).map .link
  | .boundPcbs => (ids .bound).map .link
  | .pcbs i => (ids (.active i)).map .link
  | .hashLink _ => []
  | .link _ => []

@[simp] theorem content_head (bs : List Nat) (ids : Home → List Nat) (home : Home) :
    content bs ids home.head = (ids home).map .link := by
  cases home <;> rfl

theorem head_mem (home : Home) : home.head ∈ heads := .inr ⟨home, rfl⟩

theorem activeBuckets_mem : Cell.activeBuckets ∈ heads := .inl rfl

theorem link_not_mem (pcb : Nat) : Cell.link pcb ∉ heads := by
  rintro (same | ⟨home, same⟩)
  · cases same
  · cases home <;> cases same

theorem hashLink_not_mem (i : Nat) : Cell.hashLink i ∉ heads := by
  rintro (same | ⟨home, same⟩)
  · cases same
  · cases home <;> cases same

theorem head_ne_activeBuckets (home : Home) : home.head ≠ .activeBuckets := by
  cases home <;> intro same <;> cases same

variable {bs : List Nat} {ids : Home → List Nat}

theorem content_update_ids (home : Home) (list : List Nat) :
    update (content bs ids) home.head (list.map .link) = content bs (update ids home list) := by
  funext c
  by_cases same : c = home.head
  · subst same
    simp
  · rw [update_of_ne same]
    have other : ∀ g : Home, c = g.head → update ids home list g = ids g := by
      rintro g rfl
      exact update_of_ne (fun eq => same (congrArg Home.head eq)) ..
    cases c with
    | twPcbs => rw [content, content, other .timeWait rfl]
    | boundPcbs => rw [content, content, other .bound rfl]
    | pcbs i => rw [content, content, other (.active i) rfl]
    | activeBuckets => rfl
    | hashLink i => rfl
    | link pcb => rfl

theorem content_update_buckets (list : List Nat) :
    update (content bs ids) .activeBuckets (list.map .hashLink) = content list ids := by
  funext c
  by_cases same : c = .activeBuckets
  · subst same
    simp [content]
  · rw [update_of_ne same]
    cases c <;> first | rfl | exact absurd rfl same

theorem link_mem_content {pcb c} (head : c ∈ heads) (inside : Cell.link pcb ∈ content bs ids c) :
    ∃ home : Home, c = home.head ∧ pcb ∈ ids home := by
  rcases head with rfl | ⟨home, rfl⟩
  · simp [content] at inside
  · rw [content_head] at inside
    obtain ⟨other, member, same⟩ := mem_map.1 inside
    cases same
    exact ⟨home, rfl, member⟩

theorem hashLink_mem_content {i c} (head : c ∈ heads) (inside : Cell.hashLink i ∈ content bs ids c) :
    c = .activeBuckets ∧ i ∈ bs := by
  rcases head with rfl | ⟨home, rfl⟩
  · obtain ⟨other, member, same⟩ := mem_map.1 inside
    cases same
    exact ⟨rfl, member⟩
  · rw [content_head] at inside
    obtain ⟨other, -, same⟩ := mem_map.1 inside
    cases same

/-- The invariant: the pointers lay out lists, which hold what was registered, and the list of buckets those with a
chain. -/
structure Held (s : FlowGroup) (bs : List Nat) (ids : Home → List Nat) : Prop where
  running : s.failed = false
  laid : Links.Laid heads s.links (content bs ids)
  homes : ∀ home pcb, pcb ∈ ids home ↔ s.home pcb = some home
  listed : ∀ i, i ∈ bs ↔ ids (.active i) ≠ []
  exist : ∀ i, i ∈ bs → i < maxBuckets

theorem Held.empty : Held empty [] fun _ => [] where
  running := rfl
  laid := by
    have none : content [] (fun _ => []) = fun _ => [] := by
      funext c
      cases c <;> rfl
    rw [none]
    exact Links.Laid.blank heads
  homes _ _ := by simp [FlowGroup.empty]
  listed _ := by simp
  exist _ here := absurd here not_mem_nil

variable {s : FlowGroup} {layout : Layout} {pcb : Nat}

theorem Held.shaped (held : Held s bs ids) : Shaped s where
  running := held.running
  buckets := by
    have chain := held.laid.chain .activeBuckets activeBuckets_mem
    refine ⟨bs, chain, List.Nodup.of_map _ (held.laid.nodup .activeBuckets activeBuckets_mem), fun i => ?_⟩
    have first : s.links.next (.pcbs i) = ((ids (.active i)).map .link).head? := (held.laid.chain _ (head_mem (.active i))).next_eq
    have filled : s.links.next (.pcbs i) ≠ none ↔ i ∈ bs := by
      rw [first, held.listed i, head?_map]
      cases ids (.active i) <;> simp
    rw [filled]
    exact ⟨fun here => ⟨held.exist i here, here⟩, And.right⟩
  chains i _ :=
    ⟨ids (.active i), held.laid.chain _ (head_mem (.active i)), List.Nodup.of_map _ (held.laid.nodup _ (head_mem (.active i))),
      held.homes (.active i)⟩

/-- The block's back pointer is null exactly when it is registered nowhere. -/
theorem Held.prev_none_iff (held : Held s bs ids) (pcb : Nat) : s.links.prev (.link pcb) = none ↔ s.home pcb = none := by
  rw [held.laid.prev_none_iff (link_not_mem pcb)]
  constructor
  · intro nowhere
    cases home : s.home pcb with
    | none => rfl
    | some l =>
      refine absurd ?_ (nowhere l.head (head_mem l))
      rw [content_head]
      exact mem_map_of_mem ((held.homes l pcb).2 home)
  · intro none c head inside
    obtain ⟨l, -, member⟩ := link_mem_content head inside
    rw [(held.homes l pcb).1 member] at none
    cases none

theorem Laid.tcpReg {m} (laid : Links.Laid heads m (content bs ids)) (home : Home)
    (nowhere : ∀ l, pcb ∉ ids l) :
    ∃ m', tcpReg m home.head pcb = some m' ∧
      Links.Laid heads m' (content bs (update ids home (pcb :: ids home))) := by
  have fresh : ∀ c ∈ heads, Cell.link pcb ∉ content bs ids c := by
    intro c head inside
    obtain ⟨l, -, member⟩ := link_mem_content head inside
    exact nowhere l member
  refine ⟨m.addHead home.head (.link pcb), if_pos (laid.free _ (link_not_mem pcb) fresh), ?_⟩
  have added := laid.addHead (head_mem home) (link_not_mem pcb) fresh
  rwa [content_head, ← map_cons, content_update_ids] at added

theorem homes_reg (held : Held s bs ids) {home} (free : s.home pcb = none) (l : Home) (id : Nat) :
    id ∈ update ids home (pcb :: ids home) l ↔ update s.home pcb (some home) id = some l := by
  have old := held.homes l id
  by_cases same : l = home
  · subst same
    rw [update_self, mem_cons]
    by_cases mine : id = pcb
    · subst mine
      simp
    · rw [update_of_ne mine, ← old]
      simp [mine]
  · rw [update_of_ne same, old]
    by_cases mine : id = pcb
    · subst mine
      rw [update_self, free]
      simp [Ne.symm same]
    · rw [update_of_ne mine]

theorem Held.nowhere (held : Held s bs ids) (free : s.home pcb = none) (l : Home) : pcb ∉ ids l := by
  rw [held.homes, free]
  simp

theorem Held.regOther (held : Held s bs ids) {home} (free : s.home pcb = none) (other : ∀ i, home ≠ .active i) :
    ∃ ids', Held (s.settle pcb (some home) (tcpReg s.links home.head pcb)) bs ids' := by
  obtain ⟨m', registered, laid⟩ := Laid.tcpReg held.laid home (held.nowhere free)
  rw [registered]
  refine ⟨_, held.running, laid, homes_reg held free, fun i => ?_, held.exist⟩
  rw [update_of_ne (Ne.symm (other i))]
  exact held.listed i

theorem Held.regActive (held : Held s bs ids) {i} (free : s.home pcb = none) (bucket : i < maxBuckets) :
    ∃ bs' ids', Held (s.settle pcb (some (.active i)) (tcpRegActive s.links pcb i)) bs' ids' := by
  have first : s.links.next (.pcbs i) = ((ids (.active i)).map .link).head? := (held.laid.chain _ (head_mem (.active i))).next_eq
  by_cases vacant : ids (.active i) = []
  · have fresh : i ∉ bs := by
      rw [held.listed]
      exact fun filled => filled vacant
    have unlisted : ∀ c ∈ heads, Cell.hashLink i ∉ content bs ids c := fun c head inside =>
      fresh (hashLink_mem_content head inside).2
    have added := held.laid.addHead activeBuckets_mem (hashLink_not_mem i) unlisted
    rw [show Cell.hashLink i :: content bs ids .activeBuckets = (i :: bs).map .hashLink from rfl, content_update_buckets] at added
    obtain ⟨m', registered, laid⟩ := Laid.tcpReg added (.active i) (held.nowhere free)
    have whole : tcpRegActive s.links pcb i = some m' := by
      have start : s.links.next (.pcbs i) = none := by rw [first, vacant, map_nil, head?_nil]
      rw [tcpRegActive, if_pos start, if_pos (held.laid.free _ (hashLink_not_mem i) unlisted)]
      exact registered
    rw [whole]
    refine ⟨i :: bs, _, held.running, laid, homes_reg held free, fun j => ?_, fun j here => ?_⟩
    · by_cases same : j = i
      · subst same
        simp
      · rw [update_of_ne (by simpa using same), mem_cons, held.listed]
        simp [same]
    · rcases mem_cons.1 here with rfl | here
      · exact bucket
      · exact held.exist j here
  · obtain ⟨m', registered, laid⟩ := Laid.tcpReg held.laid (.active i) (held.nowhere free)
    have filled : s.links.next (.pcbs i) ≠ none := by
      rw [first, head?_map]
      cases shape : ids (.active i) with
      | nil => exact absurd shape vacant
      | cons id rest => simp
    have whole : tcpRegActive s.links pcb i = some m' := by
      rw [tcpRegActive, if_neg filled]
      exact registered
    rw [whole]
    refine ⟨bs, _, held.running, laid, homes_reg held free, fun j => ?_, held.exist⟩
    by_cases same : j = i
    · subst same
      simp [held.listed, vacant]
    · rw [update_of_ne (by simpa using same), held.listed]

/-! ## Removal -/

theorem addr_in_table (layout : Layout) {c} (lower : layout.activeTbl ≤ layout.addr c)
    (upper : layout.addr c < layout.activeTbl + maxBuckets * entrySize) :
    ∃ i, c = .pcbs i ∨ c = .hashLink i := by
  have fit := layout.heads_fit
  cases c with
  | pcbs i => exact ⟨i, .inl rfl⟩
  | hashLink i => exact ⟨i, .inr rfl⟩
  | link pcb =>
    have outside := layout.links_outside pcb
    simp only [Layout.addr] at lower upper
    omega
  | activeBuckets =>
    simp only [Layout.addr, entrySize] at lower fit
    omega
  | twPcbs =>
    simp only [Layout.addr, entrySize] at lower fit
    omega
  | boundPcbs =>
    simp only [Layout.addr, entrySize] at lower fit
    omega

/-- The test of `__TCP_RMV` is right: it passes exactly for the only block of a chain. -/
theorem Held.lastOfChain_iff (held : Held s bs ids) {home} (there : s.home pcb = some home) {prev}
    (back : s.links.prev (.link pcb) = some prev) :
    LastOfChain layout s.links pcb prev ↔ ∃ i, home = .active i ∧ prev = .pcbs i ∧ ids home = [pcb] := by
  have chain := held.laid.chain home.head (head_mem home)
  rw [content_head] at chain
  have inside : Cell.link pcb ∈ (ids home).map Cell.link := mem_map_of_mem ((held.homes home pcb).2 there)
  constructor
  · rintro ⟨lower, upper, last⟩
    obtain ⟨i, table⟩ := addr_in_table layout lower upper
    rcases chain.prev_cases inside with ⟨first, rest, shape⟩ | ⟨q, member, first⟩
    · rw [back] at first
      cases first
      rw [shape] at chain
      have alone : rest = [] := chain.2.2.next_none_iff.1 last
      rw [alone] at shape
      have only : ids home = [pcb] := by
        obtain ⟨id, single, same⟩ := map_eq_singleton_iff.1 shape
        cases same
        exact single
      cases home with
      | active j =>
        rcases table with same | same
        · cases same
          exact ⟨_, rfl, rfl, only⟩
        · cases same
      | bound => rcases table with same | same <;> cases same
      | timeWait => rcases table with same | same <;> cases same
    · rw [back] at first
      cases first
      obtain ⟨id, -, same⟩ := mem_map.1 member
      subst same
      rcases table with same | same <;> cases same
  · rintro ⟨i, rfl, rfl, only⟩
    have listed : i ∈ bs := by
      rw [held.listed, only]
      simp
    have small := held.exist i listed
    refine ⟨?_, ?_, ?_⟩
    · simp [Layout.addr]
    · simp only [Layout.addr, entrySize]
      omega
    · rw [only] at chain
      exact chain.2.2.next_none_iff.2 rfl

theorem Laid.del_pcb {m} (laid : Links.Laid heads m (content bs ids)) {home} (member : pcb ∈ ids home) :
    ∃ m', (m.del (.link pcb)).map (fun m => m.setPrev (.link pcb) none) = some m' ∧
      Links.Laid heads m' (content bs (update ids home ((ids home).erase pcb))) ∧
      (∀ i, m'.next (.hashLink i) = m.next (.hashLink i) ∧ m'.prev (.hashLink i) = m.prev (.hashLink i)) ∧
      m'.next .activeBuckets = m.next .activeBuckets := by
  have inside : Cell.link pcb ∈ content bs ids home.head := by
    rw [content_head]
    exact mem_map_of_mem member
  obtain ⟨m', deleted, after, frame⟩ := laid.del (head_mem home) inside
  have erased : ((ids home).map Cell.link).erase (.link pcb) = ((ids home).erase pcb).map .link :=
    (map_erase (fun _ _ same => Cell.link.inj same) _).symm
  rw [content_head, erased, content_update_ids] at after
  refine ⟨m'.setPrev (.link pcb) none, by rw [deleted]; rfl, after, fun i => ?_, ?_⟩
  · have apart : Cell.hashLink i ≠ home.head := by
      intro same
      exact hashLink_not_mem i (same ▸ head_mem home)
    have outside : Cell.hashLink i ∉ content bs ids home.head := by
      intro here
      exact head_ne_activeBuckets home (hashLink_mem_content (head_mem home) here).1
    obtain ⟨next, prev⟩ := frame _ apart outside
    refine ⟨next, ?_⟩
    have other : Cell.hashLink i ≠ .link pcb := by simp
    rw [← prev]
    show update m'.prev (.link pcb) none (.hashLink i) = m'.prev (.hashLink i)
    exact update_of_ne other ..
  · refine (frame _ (Ne.symm (head_ne_activeBuckets home)) ?_).1
    intro here
    exact laid.inner _ (head_mem home) _ here activeBuckets_mem

theorem homes_rmv (held : Held s bs ids) {home} (there : s.home pcb = some home) (l : Home) (id : Nat) :
    id ∈ update ids home ((ids home).erase pcb) l ↔ update s.home pcb none id = some l := by
  have old := held.homes l id
  have ones : (ids home).Nodup := by
    have distinct := held.laid.nodup home.head (head_mem home)
    rw [content_head] at distinct
    exact List.Nodup.of_map _ distinct
  by_cases same : l = home
  · subst same
    rw [update_self, ones.mem_erase_iff, old]
    by_cases mine : id = pcb
    · subst mine
      simp
    · rw [update_of_ne mine]
      simp [mine]
  · rw [update_of_ne same, old]
    by_cases mine : id = pcb
    · subst mine
      rw [update_self, there]
      simp [Ne.symm same]
    · rw [update_of_ne mine]

theorem Held.rmv_rest (held : Held s bs ids) {home} (there : s.home pcb = some home) {prev}
    (back : s.links.prev (.link pcb) = some prev) (more : ¬ ∃ i, home = .active i ∧ prev = .pcbs i ∧ ids home = [pcb]) (i : Nat) :
    i ∈ bs ↔ update ids home ((ids home).erase pcb) (.active i) ≠ [] := by
  rw [held.listed]
  by_cases same : home = .active i
  · subst same
    rw [update_self]
    have member := (held.homes (.active i) pcb).2 there
    constructor
    · intro _ vacant
      have only : ids (.active i) = [pcb] := by
        have length := length_erase_of_mem member
        rw [vacant, length_nil] at length
        have positive := length_pos_of_mem member
        have one : (ids (.active i)).length = 1 := by omega
        obtain ⟨id, single⟩ := length_eq_one_iff.1 one
        rw [single, mem_singleton] at member
        rw [single, member]
      refine more ⟨i, rfl, ?_, only⟩
      have chain := held.laid.chain _ (head_mem (.active i))
      rw [content_head, only] at chain
      have first : s.links.prev (.link pcb) = some (.pcbs i) := chain.2.1
      rw [back] at first
      exact Option.some.inj first
    · intro _
      exact ne_nil_of_mem member
  · rw [update_of_ne (Ne.symm same)]

/-- `__TCP_RMV` of a registered block, and what it does to the list of buckets. -/
theorem Held.rmv (held : Held s bs ids) {home} (there : s.home pcb = some home) :
    (∃ bs' ids', Held (s.next layout (.rmv pcb)) bs' ids') ∧
      ((∀ i, home ≠ .active i) → SameBuckets s (s.next layout (.rmv pcb))) := by
  have member := (held.homes home pcb).2 there
  cases back : s.links.prev (.link pcb) with
  | none =>
    rw [held.prev_none_iff, there] at back
    cases back
  | some prev =>
    have test : LastOfChain layout s.links pcb prev ↔ _ := held.lastOfChain_iff there back
    by_cases last : LastOfChain layout s.links pcb prev
    · obtain ⟨i, rfl, rfl, only⟩ := test.1 last
      have listed : i ∈ bs := by
        rw [held.listed, only]
        simp
      have small := held.exist i listed
      have ones : bs.Nodup := List.Nodup.of_map _ (held.laid.nodup .activeBuckets activeBuckets_mem)
      have inside : Cell.hashLink i ∈ content bs ids .activeBuckets := mem_map_of_mem listed
      obtain ⟨m₁, unlisted, between, -⟩ := held.laid.del activeBuckets_mem inside
      have erased : (bs.map Cell.hashLink).erase (.hashLink i) = (bs.erase i).map .hashLink :=
        (map_erase (fun _ _ same => Cell.hashLink.inj same) _).symm
      rw [show content bs ids .activeBuckets = bs.map .hashLink from rfl, erased, content_update_buckets] at between
      obtain ⟨m₂, removed, laid, -⟩ := Laid.del_pcb between member
      have bucket : rmvBucket layout s.links (layout.addr (.pcbs i)) = some (m₁.setPrev (.hashLink i) none) := by
        have index : (layout.addr (.pcbs i) - layout.activeTbl) / entrySize = i := by
          simp only [Layout.addr, entrySize]
          omega
        rw [rmvBucket, index, if_pos ⟨small, rfl⟩, unlisted]
        rfl
      have whole : tcpRmv layout s.links pcb = some m₂ := by
        simp only [tcpRmv, back, if_pos last, bucket, Option.bind_some, removed]
      refine ⟨⟨bs.erase i, update ids (.active i) ((ids (.active i)).erase pcb), ?_⟩, fun other => absurd rfl (other i)⟩
      rw [FlowGroup.next, whole]
      refine ⟨held.running, laid, homes_rmv held there, fun j => ?_, fun j here => held.exist j (mem_of_mem_erase here)⟩
      rw [ones.mem_erase_iff]
      by_cases same : j = i
      · subst same
        simp [only]
      · rw [update_of_ne (by simpa using same), held.listed]
        simp [same]
    · obtain ⟨m', removed, laid, same⟩ := Laid.del_pcb held.laid member
      have whole : tcpRmv layout s.links pcb = some m' := by
        simp only [tcpRmv, back, if_neg last, Option.bind_some, removed]
      rw [FlowGroup.next, whole]
      refine ⟨⟨bs, _, held.running, laid, homes_rmv held there, ?_, held.exist⟩, fun _ => same⟩
      exact held.rmv_rest there back fun alone => last (test.2 alone)

theorem Held.next (held : Held s bs ids) {op} (valid : s.Valid op) :
    ∃ bs' ids', Held (s.next layout op) bs' ids' := by
  cases op with
  | regActive pcb i => exact held.regActive valid.1 valid.2
  | regBound pcb =>
    obtain ⟨ids', registered⟩ := held.regOther valid (show ∀ i, Home.bound ≠ .active i by simp)
    exact ⟨bs, ids', registered⟩
  | regTimeWait pcb =>
    obtain ⟨ids', registered⟩ := held.regOther valid (show ∀ i, Home.timeWait ≠ .active i by simp)
    exact ⟨bs, ids', registered⟩
  | rmv pcb =>
    obtain ⟨home, there⟩ := Option.ne_none_iff_exists'.1 valid
    exact (held.rmv there).1

/-- In every state of a flow group the table has its shape and no assertion fails, and removing a connection from the
list of bound or of TIME-WAIT blocks leaves the list of buckets as it is. -/
theorem active_table_keeps_shape (layout : Layout) {ops : List TableOp} {s : FlowGroup}
    (run : Run (Applies (FlowGroup.next layout) Valid) empty ops s) :
    Shaped s ∧ ∀ pcb, s.home pcb = some .bound ∨ s.home pcb = some .timeWait → SameBuckets s (s.next layout (.rmv pcb)) := by
  have invariant : ∃ bs ids, Held s bs ids := by
    refine run.invariant (I := fun s => ∃ bs ids, Held s bs ids) ?_ ⟨_, _, Held.empty⟩
    rintro s op t ⟨valid, rfl⟩ ⟨bs, ids, held⟩
    exact held.next valid
  obtain ⟨bs, ids, held⟩ := invariant
  refine ⟨held.shaped, fun pcb outside => ?_⟩
  rcases outside with there | there
  · exact (held.rmv there).2 fun _ => by simp
  · exact (held.rmv there).2 fun _ => by simp

/-- Control blocks of 16 bytes behind a table at address 4096. -/
def plainLayout : Layout where
  activeTbl := 4096
  linkAddr pcb := 32768 + 16 * pcb
  heads_fit := by decide
  links_outside pcb := by
    right
    show 4096 + 512 * 24 ≤ _
    omega

/-- Two connections in one chain, one of which goes to TIME-WAIT and is removed there. -/
theorem two_connections_shaped : ∃ s, Run (Applies (FlowGroup.next plainLayout) Valid) empty
      [.regActive 0 7, .regActive 1 7, .rmv 1, .regTimeWait 1, .rmv 1] s ∧ Shaped s ∧
    ∀ pcb, s.home pcb = some .bound ∨ s.home pcb = some .timeWait → SameBuckets s (s.next plainLayout (.rmv pcb)) := by
  have run : Run (Applies (FlowGroup.next plainLayout) Valid) empty
      [.regActive 0 7, .regActive 1 7, .rmv 1, .regTimeWait 1, .rmv 1]
      ([.regActive 0 7, .regActive 1 7, .rmv 1, .regTimeWait 1, .rmv 1].foldl (FlowGroup.next plainLayout) empty) := by
    refine .cons ⟨⟨rfl, by decide⟩, rfl⟩ (.cons ⟨⟨rfl, by decide⟩, rfl⟩ (.cons ⟨?_, rfl⟩ (.cons ⟨?_, rfl⟩ (.cons ⟨?_, rfl⟩ (.nil _)))))
    · show _ ≠ none
      decide
    · show _ = none
      decide
    · show _ ≠ none
      decide
  exact ⟨_, run, active_table_keeps_shape plainLayout run⟩

end FlowGroup

end Reflex.Tcp
