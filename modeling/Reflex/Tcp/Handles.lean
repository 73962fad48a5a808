import Reflex.Tcp.Api

/-!
# Handles as names of connections

The handles of a core over any run of connection attempts, accepted connections and system calls, also calls with
handles that were never issued or whose connection is closed. Connections are numbered in the order in which their
handles are issued; an object of the pool serves many of them, one after the other.
-/

namespace Reflex.Tcp
open Lib Function Tcp.Core Option

variable {api handle fg i : Nat} {core : Core}

inductive HandleCall where
  | accept (cookie : Nat)
  | sendv (sent : Nat)
  | recvDone (len : Nat)
  | close
deriving DecidableEq, Repr

def Core.call (s : Core) (handle : Nat) : HandleCall → Int × Core
  | .accept cookie => s.bsysTcpAccept handle cookie
  | .sendv sent => s.bsysTcpSendv handle sent
  | .recvDone len => s.bsysTcpRecvDone handle len
  | .close => s.bsysTcpClose handle

/-- A core with the history of its connections: the one that each object serves, if its handle was issued, the handles
issued, and the numbers of the connections that are closed. -/
structure Table where
  core : Core
  owner : Nat → Option Nat
  issued : List Nat
  closed : List Nat

inductive TableStep where
  | knock (api fg : Nat)
  | connect (cookie : Nat) (attempt : Attempt)
  | call (handle : Nat) (call : HandleCall)

namespace Table

/-- An object takes the place that the array gives it, and its handle is issued. -/
def issue (t : Table) (core : Core) (api : Nat) : Table :=
  { t with
    core := core
    owner := Function.update t.owner api (some t.issued.length)
    issued := t.issued ++ [(core.apis api).handle] }

def next (t : Table) : TableStep → Table
  | .knock api fg => t.issue (t.core.onAccept api fg) api
  | .connect cookie attempt =>
    let core := (t.core.bsysTcpConnect cookie attempt).2
    match attempt with
    | .noGroup | .noMemory => { t with core := core }
    -- the place is taken, and the caller gets an error
    | .refused api _ => { t with core := core, owner := Function.update t.owner api none }
    | .started api _ => t.issue core api
  | .call handle call =>
    let core := (t.core.call handle call).2
    match call, (t.core.handleToTcpapi handle).1 with
    | .close, some api => { t with core := core, closed := t.closed ++ (t.owner api).toList }
    | _, _ => { t with core := core }

/-- The pool hands out an object that no place of the array refers to, and the flow group exists. -/
def Fresh (t : Table) (api fg : Nat) : Prop :=
  (∀ i, t.core.handle2pcb i ≠ some api) ∧ fg < ethMaxTotalFg + ncpu

def Valid (t : Table) : TableStep → Prop
  | .knock api fg => t.core.faulted = false ∧ t.Fresh api fg
  | .connect _ (.refused api fg) | .connect _ (.started api fg) => t.core.faulted = false ∧ t.Fresh api fg
  | .connect _ _ => t.core.faulted = false
  | .call handle _ => t.core.faulted = false ∧ handle < 2 ^ 64

theorem Valid.running {t : Table} {step} (valid : t.Valid step) : t.core.faulted = false := by
  cases step with
  | knock => exact valid.1
  | connect cookie attempt =>
    cases attempt with
    | noGroup | noMemory => exact valid
    | refused | started => exact valid.1
  | call => exact valid.1

/-- The handle was issued for a connection that has not been closed since. -/
def Open (t : Table) (handle n : Nat) : Prop := t.issued[n]? = some handle ∧ n ∉ t.closed

/-- Who uses a handle: the holder of a connection that it was issued for, or nobody who ever got it. -/
def Held (t : Table) (handle : Nat) : Option Nat → Prop
  | some n => t.issued[n]? = some handle
  | none => handle ∉ t.issued

/-- A call acts on the connection of the handle's holder, which is not closed, or fails and leaves the core alone. -/
def Safe (t : Table) (handle : Nat) (holder : Option Nat) (call : HandleCall) : Prop :=
  (t.core.call handle call).2.faulted = false ∧
    (t.core.call handle call = (-retBadh, t.core) ∨
      ∃ api n, holder = some n ∧ (t.core.handleToTcpapi handle).1 = some api ∧ t.owner api = some n ∧ n ∉ t.closed)

def boot (apis : Nat → TcpapiPcb) : Table where
  core := { apis := apis, handle2pcb := fun _ => none, syscallCookie := 0, usys := [], faulted := false }
  owner _ := none
  issued := []
  closed := []

end Table

/-! ## What the calls do to the array -/

variable {s : Core}

theorem handleToTcpapi_none (formed : ¬ Malformed handle) (empty : s.handle2pcb (handleIdx handle) = none) :
    s.handleToTcpapi handle = (none, { s with faulted := true }) := by
  simp only [handleToTcpapi, if_neg formed, empty]

theorem handleToTcpapi_some (formed : ¬ Malformed handle)
    (there : s.handle2pcb (handleIdx handle) = some api) :
    s.handleToTcpapi handle = (some api, { s with syscallCookie := (s.apis api).cookie }) := by
  simp only [handleToTcpapi, if_neg formed, there]

theorem handleToTcpapi_malformed (malformed : Malformed handle) :
    s.handleToTcpapi handle = (none, s) := if_pos malformed

theorem call_malformed (malformed : Malformed handle) (call : HandleCall) :
    s.call handle call = (-retBadh, s) := by
  cases call <;>
    simp only [call, bsysTcpAccept, bsysTcpSendv, bsysTcpRecvDone, bsysTcpClose,
      handleToTcpapi_malformed malformed]

theorem call_empty (formed : ¬ Malformed handle) (empty : s.handle2pcb (handleIdx handle) = none)
    (call : HandleCall) : (s.call handle call).2 = { s with faulted := true } := by
  cases call <;>
    simp only [call, bsysTcpAccept, bsysTcpSendv, bsysTcpRecvDone, bsysTcpClose,
      handleToTcpapi_none formed empty]

theorem call_found (formed : ¬ Malformed handle)
    (there : s.handle2pcb (handleIdx handle) = some api) (call : HandleCall) : (s.call handle call).1 ≠ -retBadh := by
  cases call with
  | accept | recvDone =>
    simp only [call, bsysTcpAccept, bsysTcpRecvDone, handleToTcpapi_some formed there]
    decide
  | sendv sent =>
    simp only [call, bsysTcpSendv, handleToTcpapi_some formed there]
    unfold retBadh retClosed
    split_ifs <;> omega
  | close =>
    simp only [call, bsysTcpClose, handleToTcpapi_some formed there]
    split <;> exact (by decide : (0 : Int) ≠ -retBadh)

theorem call_handle2pcb {call} (other : call ≠ .close) :
    (s.call handle call).2.handle2pcb = s.handle2pcb := by
  by_cases malformed : Malformed handle
  · rw [call_malformed malformed]
  · cases there : s.handle2pcb (handleIdx handle) with
    | none => rw [call_empty malformed there]
    | some api =>
      cases call with
      | close => exact absurd rfl other
      | accept | sendv | recvDone =>
        simp only [call, bsysTcpAccept, bsysTcpSendv, bsysTcpRecvDone,
          handleToTcpapi_some malformed there, setApi, post]

/-- A call that finds an object makes its cookie the core's. -/
theorem call_cookie {handle api} (formed : ¬ Malformed handle) (there : s.handle2pcb (handleIdx handle) = some api)
    (call : HandleCall) :
    (s.call handle call).2.faulted = s.faulted ∧ (s.call handle call).2.syscallCookie = (s.apis api).cookie := by
  have inside : handleIdx handle < maxPcbs := Nat.lt_of_not_le fun past => formed (.inr past)
  cases call with
  | accept | sendv | recvDone =>
    simp only [Core.call, Core.bsysTcpAccept, Core.bsysTcpSendv, Core.bsysTcpRecvDone,
      handleToTcpapi_some formed there, Core.setApi, Core.post, and_self]
  | close =>
    simp only [Core.call, Core.bsysTcpClose, handleToTcpapi_some formed there]
    cases found : search (fun i => s.handle2pcb i = some api) maxPcbs with
    | none =>
      have missed := search_none found inside
      simp [there] at missed
    | some i => exact ⟨rfl, rfl⟩

def Distinct (places : Nat → Option Nat) : Prop := ∀ i j api, places i = some api → places j = some api → i = j

theorem close_found (distinct : Distinct s.handle2pcb) (formed : ¬ Malformed handle)
    (there : s.handle2pcb (handleIdx handle) = some api) :
    (s.call handle .close).2 =
      { s with
        syscallCookie := (s.apis api).cookie
        handle2pcb := update s.handle2pcb (handleIdx handle) none } := by
  have inside : handleIdx handle < maxPcbs := Nat.lt_of_not_le fun past => formed (.inr past)
  simp only [call, bsysTcpClose, handleToTcpapi_some formed there]
  cases found : search (fun i => s.handle2pcb i = some api) maxPcbs with
  | none =>
    have missed := search_none found inside
    simp [there] at missed
  | some i =>
    obtain ⟨meets, -⟩ := search_some found
    rw [distinct i (handleIdx handle) api (of_decide_eq_true meets) there]

theorem tcpapiToHandle_cases (fg api : Nat) :
    (s.tcpapiToHandle fg api).2.faulted = true ∨
      ∃ i < maxPcbs, s.handle2pcb i = none ∧
        s.tcpapiToHandle fg api = (i + fg * 2 ^ 48, { s with handle2pcb := update s.handle2pcb i (some api) }) := by
  unfold tcpapiToHandle
  cases found : search (fun i => (s.handle2pcb i).isNone) maxPcbs with
  | none => exact .inl rfl
  | some i =>
    obtain ⟨empty, below⟩ := search_some found
    exact .inr ⟨i, below, isNone_iff_eq_none.1 empty, rfl⟩

theorem handle_parts (place : i < maxPcbs) (group : fg < ethMaxTotalFg + ncpu) :
    handleIdx (i + fg * 2 ^ 48) = i ∧ ¬ Malformed (i + fg * 2 ^ 48) := by
  unfold Malformed handleFg handleIdx
  unfold maxPcbs at *
  unfold ethMaxTotalFg ncpu at *
  omega

/-- An object was given a free place, and its handle says which. -/
def Placed (s core : Core) (api fg : Nat) : Prop :=
  ∃ i < maxPcbs, s.handle2pcb i = none ∧ core.handle2pcb = Function.update s.handle2pcb i (some api) ∧
    (core.apis api).handle = i + fg * 2 ^ 48

/-- The other objects stay where they are. -/
theorem Placed.keeps {j a : Nat} (placed : Placed s core api fg) (there : s.handle2pcb j = some a) : core.handle2pcb j = some a := by
  obtain ⟨i, -, empty, places, -⟩ := placed
  rw [places, update_of_ne, there]
  rintro rfl
  cases there.symm.trans empty

theorem placed_of_handle {core : Core} (running : (s.tcpapiToHandle fg api).2.faulted = false)
    (places : core.handle2pcb = (s.tcpapiToHandle fg api).2.handle2pcb) (handle : (core.apis api).handle = (s.tcpapiToHandle fg api).1) :
    Placed s core api fg := by
  rcases tcpapiToHandle_cases (s := s) fg api with full | ⟨i, below, empty, placed⟩
  · exact absurd (running.symm.trans full) Bool.false_ne_true
  · rw [placed] at places handle
    exact ⟨i, below, empty, places, handle⟩

theorem onAccept_placed (running : (s.onAccept api fg).faulted = false) : Placed s (s.onAccept api fg) api fg :=
  placed_of_handle running rfl (by simp only [onAccept, setApi, post, update_self])

theorem started_placed {cookie} (running : (s.bsysTcpConnect cookie (.started api fg)).2.faulted = false) :
    Placed s (s.bsysTcpConnect cookie (.started api fg)).2 api fg :=
  placed_of_handle (s := { s with syscallCookie := cookie }) running rfl (by simp only [bsysTcpConnect, setApi, update_self, dialed])

theorem refused_placed {cookie} (running : (s.bsysTcpConnect cookie (.refused api fg)).2.faulted = false) :
    Placed s (s.bsysTcpConnect cookie (.refused api fg)).2 api fg :=
  placed_of_handle (s := { s with syscallCookie := cookie }) running rfl
    (by simp only [bsysTcpConnect, setApi, onErr, markDead, post, update_self, dialed])

/-! ## The invariant of the table -/

namespace Table

variable {t : Table}

/-- The occupied places with an issued handle are the open connections. -/
structure Ordered (t : Table) : Prop where
  distinct : Distinct t.core.handle2pcb
  owned : ∀ i api n, t.core.handle2pcb i = some api → t.owner api = some n →
    n ∉ t.closed ∧ i < maxPcbs ∧ ∃ fg < ethMaxTotalFg + ncpu, t.issued[n]? = some (i + fg * 2 ^ 48)
  opens : ∀ handle n, t.Open handle n → ∃ i api fg, t.core.handle2pcb i = some api ∧ t.owner api = some n ∧
    i < maxPcbs ∧ fg < ethMaxTotalFg + ncpu ∧ handle = i + fg * 2 ^ 48
  past : ∀ n ∈ t.closed, n < t.issued.length

theorem Ordered.boot (apis : Nat → TcpapiPcb) : Ordered (boot apis) where
  distinct _ _ _ here := nomatch here
  owned _ _ _ here := nomatch here
  opens _ _ here := nomatch here.1
  past _ member := nomatch member

theorem Ordered.congr (ordered : Ordered t) (same : core.handle2pcb = t.core.handle2pcb) :
    Ordered { t with core := core } where
  distinct := by
    show Distinct core.handle2pcb
    rw [same]
    exact ordered.distinct
  owned i api n here := ordered.owned i api n (same ▸ here)
  opens handle n here := by
    obtain ⟨i, api, fg, there, rest⟩ := ordered.opens handle n here
    exact ⟨i, api, fg, (congrFun same i).trans there, rest⟩
  past := ordered.past

theorem distinct_insert {places} (distinct : Distinct places)
    (fresh : ∀ j, places j ≠ some api) : Distinct (update places i (some api)) := by
  intro j k a here there
  simp only [update_apply] at here there
  split_ifs at here there with hj hk hk
  · rw [hj, hk]
  · exact absurd (there.trans here.symm) (fresh k)
  · exact absurd (here.trans there.symm) (fresh j)
  · exact distinct j k a here there

section

variable (ordered : Ordered t)
include ordered

theorem Ordered.leak (fresh : ∀ i, t.core.handle2pcb i ≠ some api)
    (placed : Placed t.core core api fg) :
    Ordered { t with core := core, owner := update t.owner api none } := by
  have ⟨i, _, _, places, _⟩ := placed
  refine ⟨?_, ?_, ?_, ordered.past⟩
  · show Distinct core.handle2pcb
    rw [places]
    exact distinct_insert ordered.distinct fresh
  · intro j a n here owner
    change core.handle2pcb j = some a at here
    rw [places, update_apply] at here
    simp only [update_apply] at owner
    split_ifs at here owner with hj ha
    · exact absurd (some.inj here).symm ha
    · exact ordered.owned j a n here owner
  · intro handle n here
    obtain ⟨j, a, g, there, owner, rest⟩ := ordered.opens handle n here
    refine ⟨j, a, g, placed.keeps there, ?_, rest⟩
    show update t.owner api none a = some n
    rw [update_of_ne, owner]
    rintro rfl
    exact fresh j there

theorem Ordered.issue (fresh : t.Fresh api fg)
    (placed : Placed t.core core api fg) : Ordered (t.issue core api) := by
  obtain ⟨fresh, group⟩ := fresh
  have ⟨i, below, _, places, handle⟩ := placed
  have last : (t.issued ++ [(core.apis api).handle])[t.issued.length]? = some (i + fg * 2 ^ 48) := by
    rw [handle]
    exact List.getElem?_concat_length
  refine ⟨?_, ?_, ?_, ?_⟩
  · show Distinct core.handle2pcb
    rw [places]
    exact distinct_insert ordered.distinct fresh
  · intro j a n here owner
    change core.handle2pcb j = some a at here
    rw [places, update_apply] at here
    simp only [Table.issue, update_apply] at owner
    split_ifs at here owner with hj ha ha
    · obtain rfl := some.inj owner
      rw [hj]
      exact ⟨fun early => absurd (ordered.past _ early) (Nat.lt_irrefl _), below, fg, group, last⟩
    · exact absurd (some.inj here).symm ha
    · exact absurd (ha ▸ here) (fresh j)
    · obtain ⟨live, inside, g, bound, issued⟩ := ordered.owned j a n here owner
      obtain ⟨early, -⟩ := List.getElem?_eq_some_iff.1 issued
      exact ⟨live, inside, g, bound, (List.getElem?_append_left early).trans issued⟩
  · rintro h n ⟨issued, live⟩
    change (t.issued ++ [(core.apis api).handle])[n]? = some h at issued
    change n ∉ t.closed at live
    by_cases early : n < t.issued.length
    · rw [List.getElem?_append_left early] at issued
      obtain ⟨j, a, g, there, owner, rest⟩ := ordered.opens h n ⟨issued, live⟩
      refine ⟨j, a, g, placed.keeps there, ?_, rest⟩
      show update t.owner api _ a = some n
      rw [update_of_ne, owner]
      rintro rfl
      exact fresh j there
    · obtain ⟨bound, -⟩ := List.getElem?_eq_some_iff.1 issued
      rw [List.length_append, List.length_singleton] at bound
      obtain rfl : n = t.issued.length := by omega
      refine ⟨i, api, fg, ?_, ?_, below, group, some.inj (issued.symm.trans last)⟩
      · show core.handle2pcb i = some api
        rw [places, update_self]
      · exact update_self _ _ _
  · intro n member
    show n < (t.issued ++ _).length
    have := ordered.past n member
    rw [List.length_append]
    omega

theorem Ordered.close (there : t.core.handle2pcb i = some api)
    (places : core.handle2pcb = update t.core.handle2pcb i none) :
    Ordered { t with core := core, closed := t.closed ++ (t.owner api).toList } := by
  refine ⟨?_, ?_, ?_, ?_⟩
  · intro j k a hj hk
    change core.handle2pcb j = some a at hj
    change core.handle2pcb k = some a at hk
    rw [places, update_apply] at hj hk
    split_ifs at hj hk
    exact ordered.distinct j k a hj hk
  · intro j a n here owner
    change core.handle2pcb j = some a at here
    rw [places, update_apply] at here
    split_ifs at here with hj
    obtain ⟨live, inside, fg, group, issued⟩ := ordered.owned j a n here owner
    refine ⟨fun member => ?_, inside, fg, group, issued⟩
    rcases List.mem_append.1 member with early | now
    · exact live early
    · -- the closed connection has its handle at the place that was emptied
      obtain ⟨-, inside', fg', group', issued'⟩ := ordered.owned i api n there (mem_toList.1 now)
      have same := some.inj (issued.symm.trans issued')
      have place := congrArg handleIdx same
      rw [(handle_parts inside group).1, (handle_parts inside' group').1] at place
      exact hj place
  · rintro handle n ⟨issued, live⟩
    change n ∉ t.closed ++ _ at live
    rw [List.mem_append, not_or] at live
    obtain ⟨j, a, fg, here, owner, rest⟩ := ordered.opens handle n ⟨issued, live.1⟩
    refine ⟨j, a, fg, ?_, owner, rest⟩
    show core.handle2pcb j = some a
    rw [places, update_of_ne, here]
    rintro rfl
    obtain rfl := some.inj (there.symm.trans here)
    exact live.2 (mem_toList.2 owner)
  · intro n member
    rcases List.mem_append.1 member with early | now
    · exact ordered.past n early
    · obtain ⟨-, -, fg, -, issued⟩ := ordered.owned i api n there (mem_toList.1 now)
      exact (List.getElem?_eq_some_iff.1 issued).1

theorem Ordered.call {call}
    (running : (t.next (.call handle call)).core.faulted = false) : Ordered (t.next (.call handle call)) := by
  by_cases closes : call = .close
  · subst closes
    by_cases malformed : Malformed handle
    · simp only [next, handleToTcpapi_malformed malformed]
      exact ordered.congr (by rw [call_malformed malformed])
    · cases there : t.core.handle2pcb (handleIdx handle) with
      | none =>
        simp only [next, handleToTcpapi_none malformed there] at running
        exact absurd (running.symm.trans (congrArg faulted (call_empty malformed there .close))) Bool.false_ne_true
      | some api =>
        simp only [next, handleToTcpapi_some malformed there]
        exact ordered.close there (by rw [close_found ordered.distinct malformed there])
  · have same : t.next (.call handle call) = { t with core := (t.core.call handle call).2 } := by
      cases call with
      | close => exact absurd rfl closes
      | accept | sendv | recvDone => rfl
    rw [same]
    exact ordered.congr (call_handle2pcb closes)

theorem Ordered.next {step} (valid : t.Valid step)
    (running : (t.next step).core.faulted = false) : Ordered (t.next step) := by
  cases step with
  | knock api fg => exact ordered.issue valid.2 (onAccept_placed running)
  | connect cookie attempt =>
    cases attempt with
    | noGroup => exact ordered.congr rfl
    | noMemory => exact ordered.congr rfl
    | refused api fg => exact ordered.leak valid.2.1 (refused_placed running)
    | started api fg => exact ordered.issue valid.2 (started_placed running)
  | call handle call => exact ordered.call running

end

/-- In any state that a core reaches, a call with a handle is safe exactly if its holder has not closed the connection,
or the range of the handle gives it away. -/
theorem call_safe_iff {apis : Nat → TcpapiPcb} {steps : List TableStep}
    (run : Run (Applies Table.next Valid) (Table.boot apis) steps t) (running : t.core.faulted = false) (handle : Nat)
    (holder : Option Nat) (held : t.Held handle holder) (call : HandleCall) :
    t.Safe handle holder call ↔ (∃ n, holder = some n ∧ n ∉ t.closed) ∨ Malformed handle := by
  have ordered : t.core.faulted = false → Ordered t := by
    apply run.invariant (I := fun t => t.core.faulted = false → Ordered t)
    · rintro t step _ ⟨valid, rfl⟩ ordered running
      exact (ordered valid.running).next valid running
    · exact fun _ => Ordered.boot apis
  have ordered := ordered running
  constructor
  · rintro ⟨alive, failed | ⟨api, n, holds, -, -, live⟩⟩
    · by_cases malformed : Malformed handle
      · exact .inr malformed
      · cases there : t.core.handle2pcb (handleIdx handle) with
        | none => exact absurd (alive.symm.trans (congrArg Core.faulted (call_empty malformed there call))) Bool.false_ne_true
        | some api => exact absurd (congrArg Prod.fst failed) (call_found malformed there call)
    · exact .inl ⟨n, holds, live⟩
  · rintro (⟨n, rfl, live⟩ | malformed)
    · obtain ⟨i, api, fg, there, owner, place, group, rfl⟩ := ordered.opens handle n ⟨held, live⟩
      obtain ⟨index, formed⟩ := handle_parts place group
      rw [← index] at there
      exact ⟨(call_cookie formed there call).1.trans running, .inr ⟨api, n, rfl, by rw [handleToTcpapi_some formed there], owner, live⟩⟩
    · rw [Safe, call_malformed malformed]
      exact ⟨running, .inl rfl⟩

def blank : Table := boot fun _ => dialed 0 0

/-- The first connection of a core is served through its handle. -/
theorem first_handle_is_safe : ∃ t, Run (Applies Table.next Valid) blank [.knock 0 1] t ∧
    t.issued = [2 ^ 48] ∧ t.Safe (2 ^ 48) (some 0) .close := by
  have run : Run (Applies Table.next Valid) blank [.knock 0 1] (blank.next (.knock 0 1)) :=
    .single ⟨⟨rfl, fun _ here => (nomatch here), by decide⟩, rfl⟩
  refine ⟨_, run, by decide +kernel, ?_⟩
  refine (call_safe_iff run (by decide +kernel) (2 ^ 48) (some 0) ?_ .close).2 (.inl ⟨0, rfl, List.not_mem_nil⟩)
  show (blank.next (.knock 0 1)).issued[0]? = some (2 ^ 48)
  decide +kernel

/-- A handle used after its close: the process dies if the place is empty, and if a new connection has it, that one is
closed. -/
theorem closed_handle_resolves :
    (∃ t, Run (Applies Table.next Valid) blank [.knock 0 1, .call (2 ^ 48) .close] t ∧ t.core.faulted = false ∧
      (t.core.call (2 ^ 48) (.recvDone 0)).2.faulted = true) ∧
    (∃ t, Run (Applies Table.next Valid) blank [.knock 0 1, .call (2 ^ 48) .close, .knock 1 1] t ∧
      t.Held (2 ^ 48) (some 0) ∧ 0 ∈ t.closed ∧ t.core.faulted = false ∧
      (t.next (.call (2 ^ 48) .close)).closed = [0, 1] ∧ ¬ t.Safe (2 ^ 48) (some 0) .close) := by
  have opened : Run (Applies Table.next Valid) blank [.knock 0 1] (blank.next (.knock 0 1)) :=
    .single ⟨⟨rfl, fun _ here => (nomatch here), by decide⟩, rfl⟩
  have closed : Run (Applies Table.next Valid) blank [.knock 0 1, .call (2 ^ 48) .close] _ :=
    opened.append (.single ⟨⟨by decide +kernel, by decide⟩, rfl⟩)
  have places : ((blank.next (.knock 0 1)).next (.call (2 ^ 48) .close)).core.handle2pcb =
      Function.update (Function.update (fun _ => none) 0 (some 0)) 0 none := by rfl
  have reopened : Run (Applies Table.next Valid) blank [.knock 0 1, .call (2 ^ 48) .close, .knock 1 1]
      (((blank.next (.knock 0 1)).next (.call (2 ^ 48) .close)).next (.knock 1 1)) := by
    refine closed.append (.single ⟨⟨by decide +kernel, fun i here => ?_, by decide⟩, rfl⟩)
    rw [places, Function.update_idem, Function.update_apply] at here
    split_ifs at here
  have stale : 0 ∈ (((blank.next (.knock 0 1)).next (.call (2 ^ 48) .close)).next (.knock 1 1)).closed := by
    decide +kernel
  refine ⟨⟨_, closed, by decide +kernel, by decide +kernel⟩,
    ⟨_, reopened, ?_, stale, by decide +kernel, by decide +kernel, ?_⟩⟩
  · show (((blank.next (.knock 0 1)).next (.call (2 ^ 48) .close)).next (.knock 1 1)).issued[0]? = some (2 ^ 48)
    decide +kernel
  · rintro ⟨-, failed | ⟨api, n, holds, -, -, live⟩⟩
    · exact absurd (congrArg Prod.fst failed) (by decide +kernel)
    · obtain rfl := Option.some.inj holds
      exact live stale

end Table

end Reflex.Tcp
