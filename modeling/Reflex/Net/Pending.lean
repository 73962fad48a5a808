import Mathlib.Data.List.Nodup
import Mathlib.Data.List.Perm.Basic
import Reflex.Net.Arp

/-!
# Where a packet is while it waits

The invariant of the ARP table: which packets are on which pending list, that exactly those of the resolved
entries are on the run lists and in which order, and the balance of the buffers.
-/

namespace Reflex.Net
open Lib Function List

theorem Config.nextHop_idem (cfg : Config) (dst : Nat) : cfg.nextHop (cfg.nextHop dst) = cfg.nextHop dst := by
  by_cases direct : dst &&& cfg.mask = cfg.hostAddr &&& cfg.mask
  · simp only [nextHop, if_pos direct]
  · simp only [nextHop, if_neg direct, ite_self]

namespace Stack

/-- What holds of an entry and its pending list. -/
structure EntryOk (cfg : Config) (pkts : Nat → PendingPkt) (a : Nat) (e : ArpEntry) : Prop where
  nodup : e.pendingPkts.Nodup
  pkt : ∀ p ∈ e.pendingPkts, (pkts p).dstAddr = a ∧ (pkts p).cpu < cfg.cpuCount ∧ (pkts p).dispatched = e.valid
  hop : e.pendingPkts ≠ [] → cfg.nextHop a = a
  static : e.static = true → e.valid = true ∧ e.pendingPkts = []
  settled : e.valid = true → e.retries = 0 ∨ (e.retries = 1 ∧ e.timerPending = false)

structure Kept (cfg : Config) (R : Nat → List Nat) (hand : Multiset Nat) (s : Stack) : Prop where
  running : s.faulted = false
  unlocked : s.arpLocked = false
  entry : ∀ a e, s.entries a = some e → EntryOk cfg s.pkts a e
  pooled : ∀ p, p ∈ s.pool ↔ p ∈ s.pending (s.pkts p).dstAddr
  once : s.pool.Nodup
  runs : ∀ c a, ((R c).filter fun p => (s.pkts p).dstAddr = a) = ((s.ready a).filter fun p => (s.pkts p).cpu = c).reverse
  buffers : (s.passed : Multiset Nat) = ↑(s.nic.map (·.mbuf)) + ↑(s.pool.map fun p => (s.pkts p).mbuf) + ↑s.freed + hand

/-- The queued packets of each core for an address are sent in order, and the rest waits in order. -/
def Ordered (d : Nat) (s : Stack) : Prop := ∀ c, s.queuedFor c d = s.lateFor c d ++ s.waitingFor c d

variable {cfg : Config} {R : Nat → List Nat} {hand : Multiset Nat} {s : Stack} {a d p : Nat} {e : ArpEntry}

theorem pending_some (there : s.entries a = some e) : s.pending a = e.pendingPkts := by
  simp [pending, there]

theorem ready_some (there : s.entries a = some e) : s.ready a = if e.valid then e.pendingPkts else [] := by
  simp [ready, there]

theorem mem_pending_iff : p ∈ s.pending a ↔ ∃ e, s.entries a = some e ∧ p ∈ e.pendingPkts := by
  cases there : s.entries a <;> simp [pending, there]

theorem mem_ready_iff : p ∈ s.ready a ↔ ∃ e, s.entries a = some e ∧ e.valid = true ∧ p ∈ e.pendingPkts := by
  cases there : s.entries a with
  | none => simp [ready, there]
  | some e => cases valid : e.valid <;> simp [ready, there, valid]

theorem pending_setEntry (a : Nat) (e : ArpEntry) : (s.setEntry a e).pending = update s.pending a e.pendingPkts := by
  funext b
  by_cases same : b = a
  · subst same
    simp [pending, setEntry]
  · simp [pending, setEntry, same]

theorem ready_setEntry (a : Nat) (e : ArpEntry) :
    (s.setEntry a e).ready = update s.ready a (if e.valid then e.pendingPkts else []) := by
  funext b
  by_cases same : b = a
  · subst same
    simp [ready, setEntry]
  · simp [ready, setEntry, same]

theorem oldestFirst_cons (pkts : Nat → PendingPkt) (c p : Nat) (list : List Nat) : oldestFirst pkts c (p :: list) =
    oldestFirst pkts c list ++ if (pkts p).cpu = c then [((pkts p).mbuf, (pkts p).len)] else [] := by
  by_cases mine : (pkts p).cpu = c <;> simp [oldestFirst, mine]

theorem oldestFirst_congr {pkts pkts' c list} (same : ∀ q ∈ list,
    (pkts' q).cpu = (pkts q).cpu ∧ (pkts' q).mbuf = (pkts q).mbuf ∧ (pkts' q).len = (pkts q).len) :
    oldestFirst pkts' c list = oldestFirst pkts c list := by
  induction list with
  | nil => rfl
  | cons p list ih =>
    obtain ⟨cpu, mbuf, len⟩ := same p (mem_cons_self ..)
    rw [oldestFirst_cons, oldestFirst_cons, cpu, mbuf, len, ih fun q inside => same q (mem_cons_of_mem _ inside)]

theorem Kept.mem_pool (kept : Kept cfg R hand s) (inside : p ∈ s.pending a) : (s.pkts p).dstAddr = a ∧ p ∈ s.pool := by
  obtain ⟨e, there, member⟩ := mem_pending_iff.1 inside
  have mine := ((kept.entry a e there).pkt p member).1
  refine ⟨mine, (kept.pooled p).2 ?_⟩
  rwa [mine]

theorem ready_sub (inside : p ∈ s.ready a) : p ∈ s.pending a := by
  obtain ⟨e, there, -, member⟩ := mem_ready_iff.1 inside
  exact mem_pending_iff.2 ⟨e, there, member⟩

theorem Kept.of_runner (kept : Kept cfg R hand s) {c} (inside : p ∈ R c) :
    p ∈ s.ready (s.pkts p).dstAddr ∧ (s.pkts p).cpu = c := by
  have here : p ∈ (R c).filter fun q => (s.pkts q).dstAddr = (s.pkts p).dstAddr := mem_filter.2 ⟨inside, by simp⟩
  rw [kept.runs, mem_reverse, mem_filter] at here
  exact ⟨here.1, by simpa using here.2⟩

theorem Kept.runner_pool (kept : Kept cfg R hand s) {c} (inside : p ∈ R c) : p ∈ s.pool :=
  (kept.mem_pool (ready_sub (kept.of_runner inside).1)).2

theorem Kept.start {s} (quiet : Quiet s) : Kept cfg s.runlists 0 s where
  __ := quiet
  entry a e there := by
    obtain ⟨none, fresh, static⟩ := quiet.entries a e there
    refine ⟨by simp [none], by simp [none], by simp [none], fun flag => ⟨static flag, none⟩, fun _ => .inl fresh⟩
  pooled p := by
    rw [quiet.pool]
    constructor
    · intro inside
      cases inside
    · intro inside
      obtain ⟨e, there, member⟩ := mem_pending_iff.1 inside
      rw [(quiet.entries _ e there).1] at member
      cases member
  once := by simp [quiet.pool]
  runs c a := by
    have none : s.ready a = [] := by
      refine eq_nil_iff_forall_not_mem.2 fun p inside => ?_
      obtain ⟨e, there, -, member⟩ := mem_ready_iff.1 inside
      rw [(quiet.entries a e there).1] at member
      cases member
    simp [quiet.runlists c, none]
  buffers := by simp [quiet.passed, quiet.nic, quiet.pool, quiet.freed]

theorem Ordered.start {s} (quiet : Quiet s) : Ordered d s := by
  intro c
  have none : s.pending d = [] := by
    refine eq_nil_iff_forall_not_mem.2 fun p inside => ?_
    obtain ⟨e, there, member⟩ := mem_pending_iff.1 inside
    rw [(quiet.entries d e there).1] at member
    cases member
  simp [queuedFor, lateFor, waitingFor, oldestFirst, quiet.queued, quiet.nic, none]

/-! ## Looking up an address -/

/-- The entries after one of them has changed. -/
theorem Kept.entry_update {pkts : Nat → PendingPkt} (kept : Kept cfg R hand s) (ok : EntryOk cfg pkts a e)
    (same : ∀ b ≠ a, ∀ q ∈ s.pending b, pkts q = s.pkts q) (b : Nat) (f : ArpEntry) (there : update s.entries a (some e) b = some f) :
    EntryOk cfg pkts b f := by
  by_cases here : b = a
  · rw [here, update_self] at there
    cases there
    rw [here]
    exact ok
  · rw [update_of_ne here] at there
    have ok := kept.entry b f there
    refine ⟨ok.nodup, fun q inside => ?_, ok.hop, ok.static, ok.settled⟩
    rw [same b here q (by rwa [pending_some there])]
    exact ok.pkt q inside

theorem Kept.touch (kept : Kept cfg R hand s) (ok : EntryOk cfg s.pkts a e) (list : e.pendingPkts = s.pending a)
    (flag : (if e.valid then e.pendingPkts else []) = s.ready a) : Kept cfg R hand (s.setEntry a e) := by
  have pendings : (s.setEntry a e).pending = s.pending := by
    rw [pending_setEntry, list, update_eq_self]
  have readies : (s.setEntry a e).ready = s.ready := by
    rw [ready_setEntry, flag, update_eq_self]
  refine ⟨kept.running, kept.unlocked, kept.entry_update ok fun _ _ _ _ => rfl, fun p => ?_, kept.once, fun c b => ?_, kept.buffers⟩
  · rw [pendings]
    exact kept.pooled p
  · rw [readies]
    exact kept.runs c b

theorem ordered_touch (list : e.pendingPkts = s.pending a) : Ordered d (s.setEntry a e) ↔ Ordered d s := by
  have pendings : (s.setEntry a e).pending = s.pending := by
    rw [pending_setEntry, list, update_eq_self]
  simp only [Ordered, waitingFor, pendings]
  exact Iff.rfl

/-- The two states that `arp_lookup` leads to when the pool has an entry. -/
theorem arpLookup_cases (kept : Kept cfg R hand s) (a : Nat) (createOkay alloc : Bool)
    (supply : s.entries a = none → createOkay = true → alloc = true) :
    (s.arpLookup a createOkay alloc = (false, s) ∧ s.entries a = none) ∨
      (s.entries a ≠ none ∧ s.arpLookup a createOkay alloc = (true, s)) ∨
      (s.entries a = none ∧ s.arpLookup a createOkay alloc = (true, s.setEntry a freshEntry)) := by
  cases there : s.entries a with
  | some e => exact .inr (.inl ⟨by simp, by simp [arpLookup, there]⟩)
  | none =>
    cases createOkay with
    | false => exact .inl ⟨by simp [arpLookup, there], rfl⟩
    | true => exact .inr (.inr ⟨rfl, by simp [arpLookup, there, kept.unlocked, supply there rfl]⟩)

theorem freshEntry_ok (pkts : Nat → PendingPkt) (a : Nat) : EntryOk cfg pkts a freshEntry where
  nodup := nodup_nil
  pkt _ here := absurd here not_mem_nil
  hop some := absurd rfl some
  static flag := by cases flag
  settled flag := by cases flag

theorem Kept.create (kept : Kept cfg R hand s) (there : s.entries a = none) : Kept cfg R hand (s.setEntry a freshEntry) :=
  kept.touch (freshEntry_ok _ a) (by simp [freshEntry, pending, there]) (by simp [freshEntry, ready, there])

/-- The part of the state that a lookup leaves alone. -/
structure Alike (s t : Stack) : Prop where
  pkts : t.pkts = s.pkts
  pool : t.pool = s.pool
  runlists : t.runlists = s.runlists
  nic : t.nic = s.nic
  ordered : ∀ d, Ordered d s → Ordered d t

theorem arpLookupMac_resolved (there : s.entries a = some e) (valid : e.valid = true) (alloc : Bool) :
    s.arpLookupMac a alloc = (some e.mac, s) := by
  simp [arpLookupMac, arpLookup, there, valid]

theorem Kept.arpLookupMac (kept : Kept cfg R hand s) (open' : ¬ s.Resolved a) {alloc}
    (supply : s.entries a = none → alloc = true) :
    ∃ t e, s.arpLookupMac a alloc = (none, t) ∧ Kept cfg R hand t ∧ t.entries a = some e ∧ e.valid = false ∧ Alike s t := by
  -- first the entry, then the request for it
  obtain ⟨u, e, lookup, here, unresolved, kept, alike⟩ : ∃ u e, s.arpLookup a true alloc = (true, u) ∧
      u.entries a = some e ∧ e.valid = false ∧ Kept cfg R hand u ∧ Alike s u := by
    cases there : s.entries a with
    | some e =>
      have unresolved : e.valid = false := by
        cases flag : e.valid with
        | false => rfl
        | true => exact absurd ⟨e, there, flag⟩ open'
      exact ⟨s, e, by simp [arpLookup, there], there, unresolved, kept, ⟨rfl, rfl, rfl, rfl, fun _ => id⟩⟩
    | none =>
      refine ⟨s.setEntry a freshEntry, freshEntry, ?_, by simp [setEntry], rfl, kept.create there, rfl, rfl, rfl, rfl, fun d => ?_⟩
      · simp [arpLookup, there, kept.unlocked, supply there]
      · exact (ordered_touch (by simp [freshEntry, pending, there])).2
  have ok := kept.entry a e here
  cases timer : e.timerPending with
  | true => exact ⟨u, e, by simp [Stack.arpLookupMac, lookup, here, unresolved, timer], kept, here, unresolved, alike⟩
  | false =>
    have list : e.pendingPkts = u.pending a := (pending_some here).symm
    let asked : ArpEntry := { e with resolving := true, timerPending := true }
    refine ⟨u.setEntry a asked, asked, ?_, kept.touch ?_ list ?_, by simp [setEntry], unresolved, ?_⟩
    · simp [Stack.arpLookupMac, lookup, here, unresolved, timer, asked]
    · exact ⟨ok.nodup, ok.pkt, ok.hop, ok.static, fun flag => by rw [unresolved] at flag; cases flag⟩
    · exact (ready_some here).symm
    · refine ⟨alike.pkts, alike.pool, alike.runlists, alike.nic, fun d ordered => ?_⟩
      exact (ordered_touch (e := asked) list).2 (alike.ordered d ordered)

/-! ## Queueing a packet -/

theorem Kept.queue {mbuf cpu len hop} (kept : Kept cfg R (mbuf ::ₘ hand) s) (there : s.entries hop = some e)
    (unresolved : e.valid = false) (fresh : p ∉ s.pool) (core : cpu < cfg.cpuCount) (fixed : cfg.nextHop hop = hop) :
    Kept cfg R hand (s.arpAddPendingPkt hop cpu mbuf len (some p)).2 ∧
      (Ordered d s → Ordered d (s.arpAddPendingPkt hop cpu mbuf len (some p)).2) := by
  have ok := kept.entry hop e there
  have list := pending_some there
  let new : PendingPkt := ⟨hop, mbuf, len, cpu, false⟩
  let t : Stack := { s.setEntry hop { e with pendingPkts := p :: e.pendingPkts } with
    pkts := update s.pkts p new, pool := p :: s.pool, queued := s.queued ++ [⟨cpu, hop, mbuf, len⟩] }
  have result : (s.arpAddPendingPkt hop cpu mbuf len (some p)).2 = t := by simp [arpAddPendingPkt, there, t, new]
  have unused : ∀ b, p ∉ s.pending b := fun b inside => fresh (kept.mem_pool inside).2
  have other : ∀ b, ∀ q ∈ s.pending b, update s.pkts p new q = s.pkts q := by
    intro b q inside
    refine update_of_ne ?_ ..
    rintro rfl
    exact unused b inside
  have pendings : t.pending = update s.pending hop (p :: e.pendingPkts) := pending_setEntry (s := s) hop _
  have readies : t.ready = s.ready := by
    have same : t.ready = update s.ready hop _ := ready_setEntry (s := s) hop _
    rw [same]
    refine update_eq_iff.2 ⟨?_, fun _ _ => rfl⟩
    rw [ready_some there]
    simp [unresolved]
  rw [result]
  refine ⟨⟨kept.running, kept.unlocked, kept.entry_update ?_ fun b _ => other b, fun q => ?_, ?_, fun c b => ?_, ?_⟩, fun ordered c => ?_⟩
  · refine ⟨nodup_cons.2 ⟨?_, ok.nodup⟩, fun q inside => ?_, fun _ => fixed, fun flag => ?_, ok.settled⟩
    · rw [← list]
      exact unused hop
    · rcases mem_cons.1 inside with rfl | inside
      · simp only [t, update_self]
        exact ⟨rfl, core, unresolved.symm⟩
      · simp only [t]
        rw [other hop q (by rwa [list])]
        exact ok.pkt q inside
    · rw [(ok.static flag).1] at unresolved
      cases unresolved
  · rw [pendings]
    show q ∈ p :: s.pool ↔ q ∈ update s.pending hop (p :: e.pendingPkts) (update s.pkts p new q).dstAddr
    by_cases mine : q = p
    · subst mine
      simp [new]
    · rw [update_of_ne mine, mem_cons, kept.pooled q]
      by_cases same : (s.pkts q).dstAddr = hop
      · rw [same, update_self, list, mem_cons]
      · rw [update_of_ne same]
        simp [mine]
  · exact nodup_cons.2 ⟨fresh, kept.once⟩
  · have runners : ∀ q ∈ R c, update s.pkts p new q = s.pkts q := by
      intro q inside
      refine update_of_ne ?_ ..
      rintro rfl
      exact fresh (kept.runner_pool inside)
    rw [readies]
    refine (filter_congr fun q inside => ?_).trans ((kept.runs c b).trans (congrArg reverse (filter_congr fun q inside => ?_)))
    · exact congrArg (fun pkt : PendingPkt => decide (pkt.dstAddr = b)) (runners q inside)
    · exact congrArg (fun pkt : PendingPkt => decide (pkt.cpu = c)) (other b q (ready_sub inside)).symm
  · have same : ∀ q ∈ s.pool, (update s.pkts p new q).mbuf = (s.pkts q).mbuf := by
      intro q inside
      rw [other _ q ((kept.pooled q).1 inside)]
    show (s.passed : Multiset Nat) = ↑(s.nic.map (·.mbuf)) + ↑((p :: s.pool).map fun q => (update s.pkts p new q).mbuf) + ↑s.freed + hand
    rw [map_cons, map_congr_left same, update_self, kept.buffers, ← Multiset.cons_coe]
    show _ + _ + _ + mbuf ::ₘ hand = _ + mbuf ::ₘ _ + _ + hand
    simp only [Multiset.add_cons, Multiset.cons_add]
  · have before := ordered c
    have queued : t.queuedFor c d = s.queuedFor c d ++ if cpu = c ∧ hop = d then [(mbuf, len)] else [] := by
      simp only [queuedFor, t, filter_append, map_append]
      by_cases mine : cpu = c ∧ hop = d <;> simp [mine]
    have waiting : t.waitingFor c d = s.waitingFor c d ++ if cpu = c ∧ hop = d then [(mbuf, len)] else [] := by
      have rest : oldestFirst t.pkts c (s.pending d) = s.waitingFor c d :=
        oldestFirst_congr fun q inside => by
          have same : t.pkts q = s.pkts q := other d q inside
          rw [same]
          exact ⟨rfl, rfl, rfl⟩
      have mine : t.pkts p = new := update_self ..
      rw [waitingFor, pendings]
      by_cases here : hop = d
      · subst here
        rw [update_self, oldestFirst_cons, mine, ← list, rest]
        simp [new]
      · rw [update_of_ne (Ne.symm here), rest]
        simp [here]
    rw [queued, waiting, before, append_assoc]
    rfl

theorem Kept.transmit {mbuf} (kept : Kept cfg R (mbuf ::ₘ hand) s) (f : Sent) (buffer : f.mbuf = mbuf) :
    Kept cfg R hand { s with nic := s.nic ++ [f] } := by
  refine ⟨kept.running, kept.unlocked, kept.entry, kept.pooled, kept.once, kept.runs, ?_⟩
  show (s.passed : Multiset Nat) = ↑((s.nic ++ [f]).map (·.mbuf)) + _ + _ + hand
  rw [kept.buffers, map_append, ← Multiset.coe_add, map_singleton, buffer, Multiset.coe_singleton]
  simp only [← Multiset.cons_zero, Multiset.add_cons, Multiset.cons_add, Multiset.add_zero]

theorem Kept.output {cpu dst mbuf len alloc} (kept : Kept cfg s.runlists 0 s)
    (valid : Valid cfg s (.output cpu dst mbuf len alloc)) (supplied : Supplied cfg s (.output cpu dst mbuf len alloc)) :
    Kept cfg (s.next cfg (.output cpu dst mbuf len alloc)).runlists 0 (s.next cfg (.output cpu dst mbuf len alloc)) ∧
      (Ordered d s → Ordered d (s.next cfg (.output cpu dst mbuf len alloc))) := by
  let u : Stack := { s with passed := mbuf :: s.passed }
  have held : Kept cfg s.runlists (mbuf ::ₘ 0) u := by
    refine ⟨kept.running, kept.unlocked, kept.entry, kept.pooled, kept.once, kept.runs, ?_⟩
    · show ((mbuf :: s.passed : List Nat) : Multiset Nat) = _
      rw [← Multiset.cons_coe, kept.buffers, Multiset.add_cons]
  have result : ∀ t, ipSendOne cfg u cpu dst mbuf len false alloc = (0, t) → s.next cfg (.output cpu dst mbuf len alloc) = t := by
    intro t sent
    simp only [next, outputPacket]
    rw [show ipSendOne cfg { s with passed := mbuf :: s.passed } cpu dst mbuf len false alloc = (0, t) from sent, if_pos rfl]
  by_cases resolved : s.Resolved (cfg.nextHop dst)
  · obtain ⟨e, there, flag⟩ := resolved
    have sent : ipSendOne cfg u cpu dst mbuf len false alloc =
        (0, { u with nic := u.nic ++ [⟨cpu, cfg.nextHop dst, mbuf, len, e.mac, false⟩] }) := by
      simp only [ipSendOne]
      rw [arpLookupMac_resolved (s := u) there flag]
    rw [result _ sent]
    refine ⟨held.transmit _ rfl, fun ordered c => ?_⟩
    have late : lateFor { u with nic := u.nic ++ [⟨cpu, cfg.nextHop dst, mbuf, len, e.mac, false⟩] } c d = s.lateFor c d := by
      simp [lateFor, u]
    rw [late]
    exact ordered c
  · obtain ⟨entry, pkt⟩ := supplied.resolve_left resolved
    obtain ⟨p, given⟩ := Option.ne_none_iff_exists'.1 pkt
    obtain ⟨t, e, looked, held, there, unresolved, alike⟩ := held.arpLookupMac (a := cfg.nextHop dst) resolved entry
    have fresh : p ∉ t.pool := by
      rw [alike.pool]
      exact valid.2 p given
    have sent : ipSendOne cfg u cpu dst mbuf len false alloc = (0, (t.arpAddPendingPkt (cfg.nextHop dst) cpu mbuf len (some p)).2) := by
      simp only [ipSendOne, looked, given]
    obtain ⟨after, order⟩ : Kept cfg s.runlists 0 (t.arpAddPendingPkt (cfg.nextHop dst) cpu mbuf len (some p)).2 ∧
        (Ordered d t → Ordered d (t.arpAddPendingPkt (cfg.nextHop dst) cpu mbuf len (some p)).2) :=
      held.queue there unresolved fresh valid.1 (cfg.nextHop_idem dst)
    rw [result _ sent]
    have lists : (t.arpAddPendingPkt (cfg.nextHop dst) cpu mbuf len (some p)).2.runlists = s.runlists := by
      rw [arpAddPendingPkt, there]
      exact alike.runlists
    rw [lists]
    exact ⟨after, fun ordered => order (alike.ordered d ordered)⟩

/-! ## Sending a packet that has waited -/

theorem oldestFirst_erase {pkts : Nat → PendingPkt} {c : Nat} {list rest : List Nat}
    (distinct : list.Nodup) (first : (list.filter fun q => (pkts q).cpu = c).reverse = p :: rest) (k : Nat) :
    ((list.erase p).filter fun q => (pkts q).cpu = k).reverse =
      if k = c then rest else (list.filter fun q => (pkts q).cpu = k).reverse := by
  have member : p ∈ list.filter fun q => (pkts q).cpu = c := by
    rw [← mem_reverse, first]
    exact mem_cons_self ..
  have mine : (pkts p).cpu = c := by simpa using (mem_filter.1 member).2
  rw [distinct.erase_eq_filter, filter_filter]
  by_cases same : k = c
  · subst same
    rw [if_pos rfl]
    have ones : ((list.filter fun q => (pkts q).cpu = k).reverse).Nodup := nodup_reverse.2 (distinct.filter _)
    rw [first] at ones
    have fresh := (nodup_cons.1 ones).1
    have swap : (list.filter fun q => decide ((pkts q).cpu = k) && (q != p)) =
        (list.filter fun q => decide ((pkts q).cpu = k)).filter (· != p) := by
      rw [filter_filter]
      refine filter_congr fun q _ => ?_
      exact Bool.and_comm ..
    rw [swap, ← filter_reverse, first, filter_cons_of_neg (by simp)]
    refine filter_eq_self.2 fun q inside => ?_
    have apart : q ≠ p := by
      rintro rfl
      exact fresh inside
    simp [apart]
  · rw [if_neg same]
    refine congrArg reverse (filter_congr fun q _ => ?_)
    by_cases apart : q = p
    · subst apart
      simp [mine, Ne.symm same]
    · simp [apart]

/-- What sending a packet that has waited leaves as it is. -/
structure Remains (runners : List Nat) (s t : Stack) : Prop where
  nic : t.nic.map (·.mbuf) = s.nic.map (·.mbuf) ++ runners.map fun p => (s.pkts p).mbuf
  pool : t.pool = s.pool.diff runners
  pkts : t.pkts = s.pkts
  freed : t.freed = s.freed
  runlists : t.runlists = s.runlists
  queued : t.queued = s.queued
  resolved : ∀ a, s.Resolved a → t.Resolved a

theorem Kept.sendPendingPkt {c : Nat} {rest : List Nat} (alloc : Nat → Alloc) (kept : Kept cfg (update R c (p :: rest)) 0 s) :
    Kept cfg (update R c rest) 0 (sendPendingPkt cfg alloc c s p) ∧
      Remains [p] s (sendPendingPkt cfg alloc c s p) ∧ (Ordered d s → Ordered d (sendPendingPkt cfg alloc c s p)) := by
  have inside : p ∈ update R c (p :: rest) c := by
    rw [update_self]
    exact mem_cons_self ..
  obtain ⟨ready, mine⟩ := kept.of_runner inside
  have pooled := kept.runner_pool inside
  let b := (s.pkts p).dstAddr
  obtain ⟨e, there, flag, member⟩ := mem_ready_iff.1 ready
  have ok := kept.entry b e there
  have hop : cfg.nextHop b = b := ok.hop (ne_nil_of_mem member)
  have list := pending_some there
  have listed : s.ready b = e.pendingPkts := by rw [ready_some there, if_pos flag]
  let f : Sent := ⟨c, b, (s.pkts p).mbuf, (s.pkts p).len, e.mac, true⟩
  let gone : ArpEntry := { e with pendingPkts := e.pendingPkts.erase p }
  let t : Stack := { s.setEntry b gone with nic := s.nic ++ [f], pool := s.pool.erase p }
  have result : Stack.sendPendingPkt cfg alloc c s p = t := by
    simp only [Stack.sendPendingPkt, if_pos pooled, ipSendOne]
    rw [show cfg.nextHop (s.pkts p).dstAddr = b from hop, arpLookupMac_resolved there flag]
    simp only [unlinkPkt]
    rw [show s.entries (s.pkts p).dstAddr = some e from there]
    rfl
  have runs := kept.runs c b
  rw [update_self, filter_cons_of_pos (by simp [b]), listed] at runs
  have split := fun k => oldestFirst_erase ok.nodup runs.symm k
  have pendings : t.pending = update s.pending b (e.pendingPkts.erase p) := pending_setEntry (s := s) b gone
  have readies : t.ready = update s.ready b (e.pendingPkts.erase p) := by
    have same : t.ready = update s.ready b _ := ready_setEntry (s := s) b gone
    rw [same, if_pos flag]
  have remains : Remains [p] s t := by
    refine ⟨map_append .., by rw [diff_cons, diff_nil], rfl, rfl, rfl, rfl, fun a resolved => ?_⟩
    by_cases same : a = b
    · subst same
      exact ⟨gone, by simp [t, setEntry], flag⟩
    · obtain ⟨g, here, valid⟩ := resolved
      exact ⟨g, by simpa [t, setEntry, same] using here, valid⟩
  rw [result]
  refine ⟨⟨kept.running, kept.unlocked, kept.entry_update ?_ fun _ _ _ _ => rfl, fun q => ?_, kept.once.erase p, fun k a => ?_, ?_⟩,
    remains, fun ordered k => ?_⟩
  · refine ⟨ok.nodup.erase p, fun q inside => ok.pkt q (mem_of_mem_erase inside), fun _ => hop, fun flag => ?_, ok.settled⟩
    exact ⟨(ok.static flag).1, by simp [gone, (ok.static flag).2]⟩
  · rw [pendings]
    show q ∈ s.pool.erase p ↔ q ∈ update s.pending b (e.pendingPkts.erase p) (s.pkts q).dstAddr
    rw [kept.once.mem_erase_iff, kept.pooled q]
    by_cases same : (s.pkts q).dstAddr = b
    · rw [same, update_self, ok.nodup.mem_erase_iff, list]
    · rw [update_of_ne same]
      have apart : q ≠ p := by
        rintro rfl
        exact same rfl
      simp [apart]
  · rw [readies]
    show ((update R c rest k).filter fun q => decide ((s.pkts q).dstAddr = a)) = _
    have before := kept.runs k a
    by_cases same : a = b
    · subst same
      rw [update_self]
      refine Eq.trans ?_ (split k).symm
      by_cases core : k = c
      · subst core
        rw [update_self, if_pos rfl]
      · rw [update_of_ne core, if_neg core, ← listed]
        rwa [update_of_ne core] at before
    · rw [update_of_ne same]
      refine Eq.trans ?_ before
      by_cases core : k = c
      · subst core
        rw [update_self, update_self, filter_cons_of_neg (by simpa [b] using Ne.symm same)]
      · rw [update_of_ne core, update_of_ne core]
  · show (s.passed : Multiset Nat) = ↑((s.nic ++ [f]).map (·.mbuf)) + ↑((s.pool.erase p).map fun q => (s.pkts q).mbuf) + ↑s.freed + 0
    have split : ((s.pool.map fun q => (s.pkts q).mbuf : List Nat) : Multiset Nat) =
        (s.pkts p).mbuf ::ₘ ((s.pool.erase p).map fun q => (s.pkts q).mbuf : List Nat) := by
      rw [Multiset.cons_coe, Multiset.coe_eq_coe]
      exact (perm_cons_erase pooled).map _
    rw [kept.buffers, split, map_append, ← Multiset.coe_add, map_singleton, Multiset.coe_singleton]
    simp only [← Multiset.cons_zero, Multiset.add_cons, Multiset.cons_add, Multiset.add_zero, f]
  · have before := ordered k
    have queued : t.queuedFor k d = s.queuedFor k d := rfl
    rw [queued, before]
    by_cases here : b = d ∧ k = c
    · obtain ⟨rfl, rfl⟩ := here
      have late : t.lateFor k b = s.lateFor k b ++ [((s.pkts p).mbuf, (s.pkts p).len)] := by
        simp [lateFor, t, f]
      have now : t.waitingFor k b = (rest.filter fun q => (s.pkts q).dstAddr = b).map fun q => ((s.pkts q).mbuf, (s.pkts q).len) := by
        rw [waitingFor, pendings, update_self]
        show oldestFirst s.pkts k (e.pendingPkts.erase p) = _
        rw [oldestFirst, split k, if_pos rfl]
      rw [late, now, append_assoc, waitingFor, list, oldestFirst, ← runs]
      rfl
    · have late : t.lateFor k d = s.lateFor k d := by
        have other : ¬ (c = k ∧ b = d) := fun both => here ⟨both.2, both.1.symm⟩
        simp [lateFor, t, f, other]
      have now : t.waitingFor k d = s.waitingFor k d := by
        rw [waitingFor, pendings]
        show oldestFirst s.pkts k _ = _
        by_cases same : b = d
        · have core : k ≠ c := fun core => here ⟨same, core⟩
          rw [← same, update_self, oldestFirst, split k, if_neg core, waitingFor, list]
          rfl
        · rw [update_of_ne (Ne.symm same)]
          rfl
      rw [late, now]

theorem Kept.bookkeeping (kept : Kept cfg s.runlists 0 s) (alloc : Nat → Alloc) (c : Nat) :
    Kept cfg (s.cpuDoBookkeeping cfg alloc c).runlists 0 (s.cpuDoBookkeeping cfg alloc c) ∧
      Remains (s.runlists c) { s with runlists := update s.runlists c [] } (s.cpuDoBookkeeping cfg alloc c) ∧
      (Ordered d s → Ordered d (s.cpuDoBookkeeping cfg alloc c)) := by
  have loop : ∀ (runners : List Nat) (t : Stack), Kept cfg (update s.runlists c runners) 0 t →
      Kept cfg (update s.runlists c []) 0 (runners.foldl (Stack.sendPendingPkt cfg alloc c) t) ∧
        Remains runners t (runners.foldl (Stack.sendPendingPkt cfg alloc c) t) ∧
        (Ordered d t → Ordered d (runners.foldl (Stack.sendPendingPkt cfg alloc c) t)) := by
    intro runners
    induction runners with
    | nil => exact fun t kept => ⟨kept, ⟨(append_nil _).symm, rfl, rfl, rfl, rfl, rfl, fun _ => id⟩, id⟩
    | cons p rest ih =>
      intro t kept
      obtain ⟨after, one, order⟩ := kept.sendPendingPkt (d := d) alloc
      obtain ⟨final, more, last⟩ := ih _ after
      refine ⟨final, ⟨?_, ?_, more.pkts.trans one.pkts, more.freed.trans one.freed, more.runlists.trans one.runlists,
        more.queued.trans one.queued, fun a resolved => more.resolved a (one.resolved a resolved)⟩, fun ordered => last (order ordered)⟩
      · rw [foldl_cons, more.nic, one.nic, one.pkts, append_assoc]
        rfl
      · rw [foldl_cons, more.pool, one.pool, diff_cons, diff_nil, diff_cons]
  have taken : Kept cfg (update s.runlists c (s.runlists c)) 0 { s with runlists := update s.runlists c [] } := by
    rw [update_eq_self]
    exact ⟨kept.running, kept.unlocked, kept.entry, kept.pooled, kept.once, kept.runs, kept.buffers⟩
  obtain ⟨final, remains, order⟩ := loop (s.runlists c) _ taken
  have lists : (s.cpuDoBookkeeping cfg alloc c).runlists = update s.runlists c [] := remains.runlists
  rw [lists]
  exact ⟨final, remains, order⟩

/-! ## Resolving an address -/

/-- The loop of `arp_update_mac` over packets that have not been dispatched. -/
theorem foldl_dispatch {malloc} {ps : List Nat} (distinct : ps.Nodup)
    (able : ∀ p ∈ ps, (s.pkts p).dispatched = false ∧ (s.pkts p).cpu < cfg.cpuCount ∧ malloc p = true) :
    ps.foldl (dispatch cfg malloc) s = { s with
      pkts := fun q => if q ∈ ps then { s.pkts q with dispatched := true } else s.pkts q
      runlists := fun c => (ps.filter fun p => (s.pkts p).cpu = c).reverse ++ s.runlists c } := by
  induction ps generalizing s with
  | nil => simp
  | cons p ps ih =>
    obtain ⟨fresh, distinct⟩ := nodup_cons.1 distinct
    obtain ⟨waits, core, memory⟩ := able p (mem_cons_self ..)
    let t : Stack := { s with
      pkts := update s.pkts p { s.pkts p with dispatched := true }
      runlists := update s.runlists (s.pkts p).cpu (p :: s.runlists (s.pkts p).cpu) }
    have one : dispatch cfg malloc s p = t := by simp [dispatch, waits, core, memory, t]
    have old : ∀ q ∈ ps, t.pkts q = s.pkts q := by
      intro q inside
      refine update_of_ne ?_ ..
      rintro rfl
      exact fresh inside
    have rest : ∀ q ∈ ps, (t.pkts q).dispatched = false ∧ (t.pkts q).cpu < cfg.cpuCount ∧ malloc q = true := by
      intro q inside
      rw [old q inside]
      exact able q (mem_cons_of_mem _ inside)
    rw [foldl_cons, one, ih distinct rest]
    simp only [t, mk.injEq, true_and, and_true]
    constructor
    · funext q
      by_cases same : q = p
      · subst same
        simp [fresh]
      · simp [same]
    · funext c
      have cores : (ps.filter fun q => decide ((t.pkts q).cpu = c)) = ps.filter fun q => decide ((s.pkts q).cpu = c) :=
        filter_congr fun q inside => congrArg (fun pkt : PendingPkt => decide (pkt.cpu = c)) (old q inside)
      rw [show (ps.filter fun q => decide ((update s.pkts p { s.pkts p with dispatched := true } q).cpu = c)) = _ from cores]
      by_cases mine : (s.pkts p).cpu = c
      · subst mine
        simp
      · rw [update_of_ne (Ne.symm mine)]
        simp [mine]

theorem foldl_dispatch_keeps (malloc : Nat → Bool) (ps : List Nat) (s : Stack) :
    (ps.foldl (dispatch cfg malloc) s).entries = s.entries ∧ (ps.foldl (dispatch cfg malloc) s).pool = s.pool ∧
      (ps.foldl (dispatch cfg malloc) s).nic = s.nic ∧ (ps.foldl (dispatch cfg malloc) s).freed = s.freed := by
  induction ps generalizing s with
  | nil => exact ⟨rfl, rfl, rfl, rfl⟩
  | cons p ps ih =>
    have one : (dispatch cfg malloc s p).entries = s.entries ∧ (dispatch cfg malloc s p).pool = s.pool ∧
        (dispatch cfg malloc s p).nic = s.nic ∧ (dispatch cfg malloc s p).freed = s.freed := by
      simp only [dispatch]
      split_ifs <;> exact ⟨rfl, rfl, rfl, rfl⟩
    obtain ⟨entries, pool, nic, freed⟩ := ih (dispatch cfg malloc s p)
    exact ⟨entries.trans one.1, pool.trans one.2.1, nic.trans one.2.2.1, freed.trans one.2.2.2⟩

theorem foldl_dispatch_done {malloc : Nat → Bool} {ps : List Nat} (done : ∀ p ∈ ps, (s.pkts p).dispatched = true) :
    ps.foldl (dispatch cfg malloc) s = s := by
  induction ps with
  | nil => rfl
  | cons p ps ih =>
    have one : dispatch cfg malloc s p = s := by simp [dispatch, done p (mem_cons_self ..)]
    rw [foldl_cons, one]
    exact ih fun q inside => done q (mem_cons_of_mem _ inside)

theorem Kept.resolve {malloc : Nat → Bool} {f : ArpEntry} (kept : Kept cfg s.runlists 0 s) (there : s.entries a = some e)
    (memory : ∀ p ∈ e.pendingPkts, malloc p = true) (list : f.pendingPkts = e.pendingPkts) (flag : f.valid = true)
    (plain : f.static = false) (fresh : f.retries = 0) :
    Kept cfg (e.pendingPkts.foldl (dispatch cfg malloc) (s.setEntry a f)).runlists 0
        (e.pendingPkts.foldl (dispatch cfg malloc) (s.setEntry a f)) ∧
      (Ordered d s → Ordered d (e.pendingPkts.foldl (dispatch cfg malloc) (s.setEntry a f))) := by
  have ok := kept.entry a e there
  have here := pending_some there
  cases before : e.valid with
  | true =>
    have done : ∀ p ∈ e.pendingPkts, ((s.setEntry a f).pkts p).dispatched = true := by
      intro p inside
      rw [← before]
      exact (ok.pkt p inside).2.2
    rw [foldl_dispatch_done done]
    refine ⟨kept.touch ?_ (list.trans here.symm) ?_, (ordered_touch (list.trans here.symm)).2⟩
    · refine ⟨list ▸ ok.nodup, fun p inside => ?_, fun some => ok.hop (list ▸ some), fun static => ?_, fun _ => .inl fresh⟩
      · obtain ⟨mine, core, dispatched⟩ := ok.pkt p (list ▸ inside)
        exact ⟨mine, core, by rw [dispatched, before, flag]⟩
      · rw [plain] at static
        cases static
    · rw [ready_some there, before, flag, list]
  | false =>
    have able : ∀ p ∈ e.pendingPkts, ((s.setEntry a f).pkts p).dispatched = false ∧ ((s.setEntry a f).pkts p).cpu < cfg.cpuCount ∧
        malloc p = true := by
      intro p inside
      obtain ⟨-, core, dispatched⟩ := ok.pkt p inside
      exact ⟨dispatched.trans before, core, memory p inside⟩
    rw [foldl_dispatch ok.nodup able]
    let pkts : Nat → PendingPkt := fun q => if q ∈ e.pendingPkts then { s.pkts q with dispatched := true } else s.pkts q
    let lists : Nat → List Nat := fun c => (e.pendingPkts.filter fun p => (s.pkts p).cpu = c).reverse ++ s.runlists c
    let t : Stack := { s.setEntry a f with pkts := pkts, runlists := lists }
    show Kept cfg t.runlists 0 t ∧ (Ordered d s → Ordered d t)
    have texts : ∀ q, (pkts q).dstAddr = (s.pkts q).dstAddr ∧ (pkts q).cpu = (s.pkts q).cpu ∧ (pkts q).mbuf = (s.pkts q).mbuf ∧
        (pkts q).len = (s.pkts q).len := by
      intro q
      by_cases inside : q ∈ e.pendingPkts <;> simp [pkts, inside]
    have pendings : t.pending = s.pending := by
      have same : t.pending = update s.pending a f.pendingPkts := pending_setEntry (s := s) a f
      rw [same, list, ← here, update_eq_self]
    have readies : t.ready = update s.ready a e.pendingPkts := by
      have same : t.ready = update s.ready a _ := ready_setEntry (s := s) a f
      rw [same, if_pos flag, list]
    refine ⟨⟨kept.running, kept.unlocked, kept.entry_update ?_ fun b other q inside => if_neg fun both => ?_, fun q => ?_, kept.once,
      fun c b => ?_, ?_⟩, fun ordered c => ?_⟩
    · refine ⟨list ▸ ok.nodup, fun q inside => ?_, fun some => ok.hop (list ▸ some), fun static => ?_, fun _ => .inl fresh⟩
      · rw [list] at inside
        obtain ⟨mine, core, -⟩ := ok.pkt q inside
        simp only [t, pkts, if_pos inside]
        exact ⟨mine, core, flag.symm⟩
      · rw [plain] at static
        cases static
    · exact other ((kept.mem_pool inside).1.symm.trans (ok.pkt q both).1)
    · rw [pendings]
      show q ∈ s.pool ↔ q ∈ s.pending (pkts q).dstAddr
      rw [(texts q).1]
      exact kept.pooled q
    · have runs := kept.runs c b
      show ((lists c).filter fun q => decide ((pkts q).dstAddr = b)) = ((t.ready b).filter fun q => decide ((pkts q).cpu = c)).reverse
      simp only [(texts _).1, (texts _).2.1]
      rw [readies, filter_append, runs]
      by_cases same : b = a
      · subst same
        have none : s.ready b = [] := by rw [ready_some there, before]; rfl
        rw [update_self, none, filter_nil, reverse_nil, append_nil]
        refine filter_eq_self.2 fun q inside => ?_
        have member := (mem_filter.1 (mem_reverse.1 inside)).1
        simp [(ok.pkt q member).1]
      · rw [update_of_ne same]
        have none : ((e.pendingPkts.filter fun p => decide ((s.pkts p).cpu = c)).reverse.filter fun q =>
            decide ((s.pkts q).dstAddr = b)) = [] := by
          refine filter_eq_nil_iff.2 fun q inside => ?_
          have member := (mem_filter.1 (mem_reverse.1 inside)).1
          simp [(ok.pkt q member).1, Ne.symm same]
        rw [none, nil_append]
    · show (s.passed : Multiset Nat) = ↑(s.nic.map (·.mbuf)) + ↑(s.pool.map fun q => (pkts q).mbuf) + ↑s.freed + 0
      simp only [(texts _).2.2.1]
      exact kept.buffers
    · have waiting : t.waitingFor c d = s.waitingFor c d := by
        rw [waitingFor, pendings]
        exact oldestFirst_congr fun q _ => ⟨(texts q).2.1, (texts q).2.2.1, (texts q).2.2.2⟩
      rw [waiting]
      exact ordered c

theorem Kept.arp {ip mac target multicast alloc malloc} (kept : Kept cfg s.runlists 0 s)
    (supplied : Supplied cfg s (.arp ip mac target multicast alloc malloc)) :
    Kept cfg (s.next cfg (.arp ip mac target multicast alloc malloc)).runlists 0 (s.next cfg (.arp ip mac target multicast alloc malloc)) ∧
      (Ordered d s → Ordered d (s.next cfg (.arp ip mac target multicast alloc malloc))) := by
  cases foreign : multicast with
  | true =>
    have same : s.next cfg (.arp ip mac target true alloc malloc) = s := by simp [next, arpInput]
    rw [same]
    exact ⟨kept, id⟩
  | false =>
    rcases supplied with flag | ⟨entry, memory⟩
    · rw [foreign] at flag
      cases flag
    have known : s.next cfg (.arp ip mac target false alloc malloc) =
        s.arpUpdateMac cfg ip mac (decide (target = cfg.hostAddr)) alloc malloc := by simp [next, arpInput]
    rw [known]
    have supply : s.entries ip = none → decide (target = cfg.hostAddr) = true → alloc = true := fun none mine =>
      entry none (of_decide_eq_true mine)
    rcases arpLookup_cases kept ip (decide (target = cfg.hostAddr)) alloc supply with
      ⟨looked, -⟩ | ⟨there, looked⟩ | ⟨there, looked⟩
    · simp only [arpUpdateMac, looked]
      exact ⟨kept, id⟩
    · obtain ⟨e, there⟩ := Option.ne_none_iff_exists'.1 there
      cases static : e.static with
      | true =>
        simp only [arpUpdateMac, looked, there, static, if_true]
        exact ⟨kept, id⟩
      | false =>
        simp only [arpUpdateMac, looked, there, static, Bool.false_eq_true, if_false]
        exact kept.resolve there (memory e there) rfl rfl rfl rfl
    · have created : (s.setEntry ip freshEntry).entries ip = some freshEntry := by simp [setEntry]
      have plain : freshEntry.static = false := rfl
      simp only [arpUpdateMac, looked, created, plain, Bool.false_eq_true, if_false]
      let resolved : ArpEntry := { freshEntry with mac := mac, valid := true, timerPending := true }
      have memory : ∀ p ∈ freshEntry.pendingPkts, malloc p = true := fun p inside => absurd inside not_mem_nil
      have after := (kept.create there).resolve (d := d) (f := resolved) created memory rfl rfl rfl rfl
      refine ⟨after.1, fun ordered => after.2 ?_⟩
      exact (ordered_touch (by simp [freshEntry, pending, there])).2 ordered

/-! ## The timer of an entry -/

theorem perm_filter_not_mem {pool list : List Nat} (once : pool.Nodup) (distinct : list.Nodup) (sub : ∀ p ∈ list, p ∈ pool) :
    pool.Perm (pool.filter (fun p => decide (p ∉ list)) ++ list) := by
  refine (perm_ext_iff_of_nodup once ?_).2 fun p => ?_
  · refine List.Nodup.append (once.filter _) distinct ?_
    intro p outside inside
    simpa [inside] using (mem_filter.1 outside).2
  · rw [mem_append, mem_filter]
    constructor
    · intro member
      by_cases inside : p ∈ list
      · exact .inr inside
      · exact .inl ⟨member, by simp [inside]⟩
    · rintro (⟨member, -⟩ | inside)
      · exact member
      · exact sub p inside

/-- The timer of an entry fires: only an entry that is not resolved can die. -/
theorem Kept.timer {R} (kept : Kept cfg R 0 s) (valid : Valid cfg s (.timer a)) :
    Kept cfg R 0 (s.arpTimerHandler a) ∧
      ((a = d → ∀ e, s.entries d = some e → e.retries + 1 < arpMaxAttempts) → Ordered d s → Ordered d (s.arpTimerHandler a)) := by
  obtain ⟨e, there, runs⟩ := valid
  have ok := kept.entry a e there
  have list := pending_some there
  by_cases last : arpMaxAttempts ≤ e.retries + 1
  · have unresolved : e.valid = false := by
      cases flag : e.valid with
      | false => rfl
      | true =>
        rcases ok.settled flag with zero | ⟨-, off⟩
        · rw [zero] at last
          exact absurd last (by decide)
        · rw [runs] at off
          cases off
    let t : Stack := { s with
      entries := update s.entries a none
      pool := s.pool.filter (· ∉ e.pendingPkts)
      freed := e.pendingPkts.map (fun p => (s.pkts p).mbuf) ++ s.freed }
    have result : s.arpTimerHandler a = t := by simp only [arpTimerHandler, there, if_pos last, t]
    have pendings : t.pending = update s.pending a [] := by
      funext b
      by_cases same : b = a
      · subst same
        simp [pending, t]
      · simp [pending, t, same]
    have readies : t.ready = s.ready := by
      funext b
      by_cases same : b = a
      · subst same
        rw [ready_some there]
        simp [ready, t, unresolved]
      · simp [ready, t, same]
    rw [result]
    refine ⟨⟨kept.running, kept.unlocked, fun b g found => ?_, fun q => ?_, kept.once.filter _, fun c b => ?_, ?_⟩, fun lives ordered c => ?_⟩
    · by_cases same : b = a
      · subst same
        simp [t] at found
      · exact kept.entry b g (by rw [← found]; simp [t, same])
    · rw [pendings]
      show q ∈ s.pool.filter (fun p => decide (p ∉ e.pendingPkts)) ↔ q ∈ update s.pending a [] (s.pkts q).dstAddr
      rw [mem_filter, kept.pooled q]
      by_cases same : (s.pkts q).dstAddr = a
      · rw [same, update_self, list]
        simp
      · rw [update_of_ne same]
        have outside : q ∉ e.pendingPkts := fun inside => same (ok.pkt q inside).1
        simp [outside]
    · rw [readies]
      exact kept.runs c b
    · show (s.passed : Multiset Nat) = ↑(s.nic.map (·.mbuf)) + ↑((s.pool.filter fun p => decide (p ∉ e.pendingPkts)).map fun q => (s.pkts q).mbuf) +
        ↑(e.pendingPkts.map (fun p => (s.pkts p).mbuf) ++ s.freed) + 0
      have split : s.pool.Perm (s.pool.filter (fun p => decide (p ∉ e.pendingPkts)) ++ e.pendingPkts) :=
        perm_filter_not_mem kept.once ok.nodup fun p inside => (kept.mem_pool (a := a) (by rwa [list])).2
      have mapped : ((s.pool.map fun q => (s.pkts q).mbuf : List Nat) : Multiset Nat) =
          ↑((s.pool.filter fun p => decide (p ∉ e.pendingPkts)).map fun q => (s.pkts q).mbuf) + ↑(e.pendingPkts.map fun p => (s.pkts p).mbuf) := by
        rw [Multiset.coe_add, ← map_append, Multiset.coe_eq_coe]
        exact split.map _
      rw [kept.buffers, mapped, ← Multiset.coe_add, Multiset.add_assoc, Multiset.add_assoc, Multiset.add_assoc]
      simp only [Multiset.add_assoc]
    · have other : d ≠ a := by
        intro same
        have early := lives same.symm e (same ▸ there)
        omega
      have waiting : t.waitingFor c d = s.waitingFor c d := by
        rw [waitingFor, pendings, update_of_ne other]
        rfl
      rw [waiting]
      exact ordered c
  · let tried : ArpEntry := { e with retries := e.retries + 1, resolving := true, timerPending := false }
    have result : s.arpTimerHandler a = s.setEntry a tried := by
      simp only [arpTimerHandler, there, if_neg last, tried]
    rw [result]
    refine ⟨kept.touch ?_ list.symm (ready_some there).symm, fun _ => (ordered_touch (e := tried) list.symm).2⟩
    refine ⟨ok.nodup, ok.pkt, ok.hop, ok.static, fun flag => .inr ⟨?_, rfl⟩⟩
    rcases ok.settled flag with zero | ⟨-, off⟩
    · show e.retries + 1 = 1
      rw [zero]
    · rw [runs] at off
      cases off

/-- A timer that expires in silence leaves the list alone. -/
theorem Kept.expires {R} (kept : Kept cfg R 0 s) : Kept cfg R 0 (s.timerExpires a) ∧ (Ordered d s → Ordered d (s.timerExpires a)) := by
  unfold timerExpires
  cases there : s.entries a with
  | none => exact ⟨kept, id⟩
  | some e =>
    have ok := kept.entry a e there
    have list := pending_some there
    refine ⟨kept.touch ⟨ok.nodup, ok.pkt, ok.hop, ok.static, fun flag => ?_⟩ list.symm (ready_some there).symm,
      (ordered_touch (e := { e with timerPending := false }) list.symm).2⟩
    rcases ok.settled flag with zero | ⟨one, -⟩
    · exact .inl zero
    · exact .inr ⟨one, rfl⟩

end Stack

end Reflex.Net
