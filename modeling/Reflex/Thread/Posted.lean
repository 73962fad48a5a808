import Reflex.Thread.Turns

/-!
# What a call of the NVMe layer posts

A registration that returns zero posts one reply, with the cookie of the call, and any other return posts
none; a flow whose SLO has changed is unregistered before.
-/

namespace Reflex.Thread
open Lib Server List

/-- An event that no connection hears of. -/
def Event.silent : Event → Bool
  | .nvmeUnregisteredFlow _ => true
  | _ => false

section Usys

open Nvme

variable {cfg : Cfg} {s t : NvmeState} {cpu : Nat}

theorem dropQueue_usys (s : NvmeState) (fg : FlowGroup) : (dropQueue s fg).usys = s.usys := by
  unfold dropQueue
  split <;> rfl

theorem unregister_usys (cfg : Cfg) (s : NvmeState) (cpu h : Nat) :
    (bsysNvmeUnregisterFlow cfg s cpu h).2.usys cpu = s.usys cpu ++ [.nvmeUnregisteredFlow h retOk] := by
  have kept : ∀ u : NvmeState, (releaseFlow cfg u cpu h).usys = u.usys := by
    intro u
    exact dropQueue_usys _ _
  simp only [bsysNvmeUnregisterFlow, NvmeState.post, Function.update_self]
  split_ifs
  · rw [kept]
  · rfl

theorem prepareFlow_usys (cfg : Cfg) (s : NvmeState) (cpu : Nat) (flowGroupId : Int64) (slo : SLO) :
    ∃ before, (prepareFlow cfg s cpu flowGroupId slo).2.usys cpu = s.usys cpu ++ before ∧
      ∀ e ∈ before, ∃ h, e = .nvmeUnregisteredFlow h retOk := by
  unfold prepareFlow
  generalize setNvmeFlowGroupId s.toRegistry cpu flowGroupId = found
  obtain ⟨already, fgHandle, r⟩ := found
  simp only
  split_ifs
  · refine ⟨[.nvmeUnregisteredFlow fgHandle retOk], ?_, forall_mem_singleton.2 ⟨fgHandle, rfl⟩⟩
    rw [unregister_usys]
  · exact ⟨[], (append_nil _).symm, forall_mem_nil _⟩

theorem register_usys (cfg : Cfg) (s : NvmeState) (cpu : Nat) (flowGroupId : Int64) (cookie : UInt64) (slo : SLO) (swq : Option Nat) :
    ∃ before, (∀ e ∈ before, ∃ h, e = UsysEvent.nvmeUnregisteredFlow h retOk) ∧
      (bsysNvmeRegisterFlow cfg s cpu flowGroupId cookie slo swq).2.usys cpu = s.usys cpu ++ before ++
        if (bsysNvmeRegisterFlow cfg s cpu flowGroupId cookie slo swq).1 = 0 then [.nvmeRegisteredFlow (s.slotFor cpu flowGroupId) cookie retOk]
        else [] := by
  obtain ⟨before, grown, silent⟩ := prepareFlow_usys cfg s cpu flowGroupId slo
  rw [← prepareFlow_fst cfg s cpu flowGroupId slo]
  unfold bsysNvmeRegisterFlow
  generalize prepareFlow cfg s cpu flowGroupId slo = prepared at grown ⊢
  obtain ⟨fgHandle, u⟩ := prepared
  -- the last state is linked, or it has posted no more than the preparation
  have ends : ∀ (ret ok : Int) (v w : NvmeState), v.usys cpu = u.usys cpu →
      (w.usys cpu = u.usys cpu ++ if ok = 0 then [.nvmeRegisteredFlow fgHandle cookie retOk] else []) →
      let result := if ret < 0 then (-retCantmeetslo, v) else (ok, w)
      result.2.usys cpu = u.usys cpu ++ if result.1 = 0 then [.nvmeRegisteredFlow fgHandle cookie retOk] else [] := by
    intro ret ok v w same last
    by_cases refused : ret < 0
    · simp only [if_pos refused]
      rw [if_neg (by decide), append_nil, same]
    · simp only [if_neg refused]
      exact last
  refine ⟨before, silent, ?_⟩
  rw [← grown]
  cases swq with
  | none =>
    have silent : u.usys cpu = u.usys cpu ++ if -retNomem = 0 then [.nvmeRegisteredFlow fgHandle cookie retOk] else [] := by
      rw [if_neg (by decide), append_nil]
    exact ends _ (-retNomem) _ _ rfl silent
  | some q => exact ends _ retOk _ _ rfl (Function.update_self _ _ _)

theorem submitRequest_usys {cmd fill payload h lba lbaCount cookie alloc ret}
    (submit : submitRequest cfg s cpu cmd fill payload h lba lbaCount cookie alloc = some (ret, t)) : t.usys = s.usys := by
  unfold submitRequest at submit
  cases alloc with
  | none =>
    cases submit
    rfl
  | some ctx =>
    simp only at submit
    split at submit
    · split at submit
      · cases submit
      · split at submit
        · cases submit
          rfl
        · cases submit
          rfl
    · cases submit
      rfl

end Usys

section Posted

variable {m : Machine} {s : Nvme.NvmeState} {cpu : Nat}

theorem posted_of_append {t : Nvme.NvmeState} {more} (grown : t.usys cpu = s.usys cpu ++ more) :
    posted cpu s t = more.filterMap usysEvent := by
  rw [posted, grown, drop_left]

theorem silent_events {more : List Nvme.UsysEvent} (unregistered : ∀ e ∈ more, ∃ h, e = .nvmeUnregisteredFlow h Nvme.retOk) :
    ∀ e ∈ more.filterMap usysEvent, e.silent = true := by
  intro e member
  obtain ⟨u, there, known⟩ := mem_filterMap.1 member
  obtain ⟨h, rfl⟩ := unregistered u there
  cases known
  rfl

theorem call_posted {args : CallArgs} {k : Ksys} {ret : Int} {nvme : Nvme.NvmeState}
    (call : (k.ioOp m args).bind (Nvme.IoOp.run m.cfg s) = some (ret, nvme)) :
    ∃ before, (∀ e ∈ before, e.silent = true) ∧ (posted m.cpu s nvme = before ∧ (∀ id a slo, k = .nvmeRegisterFlow id a slo → ret ≠ 0) ∨
      ∃ id a slo, k = .nvmeRegisterFlow id a slo ∧ ret = 0 ∧
        posted m.cpu s nvme = before ++ [.nvmeRegisteredFlow (s.slotFor m.cpu (Int64.ofInt id)) a]) := by
  have nothing : ∀ {t : Nvme.NvmeState}, t.usys = s.usys → posted m.cpu s t = [] := by
    intro t same
    have grown : t.usys m.cpu = s.usys m.cpu ++ [] := by rw [same, append_nil]
    exact posted_of_append grown
  cases k with
  | tcpAccept | tcpReject | tcpSendv | tcpRecvDone | tcpClose => cases call
  | nvmeWritev fgHandle numSgls flow conn req =>
    exact ⟨[], forall_mem_nil _, .inl ⟨nothing (submitRequest_usys call), nofun⟩⟩
  | nvmeReadv fgHandle numSgls flow conn req =>
    exact ⟨[], forall_mem_nil _, .inl ⟨nothing (submitRequest_usys call), nofun⟩⟩
  | nvmeUnregisterFlow fgHandle =>
    have result : nvme = (Nvme.bsysNvmeUnregisterFlow m.cfg s m.cpu fgHandle.toNat).2 := (Prod.mk.inj (Option.some.inj call)).2.symm
    refine ⟨_, ?_, .inl ⟨posted_of_append (by rw [result]; exact unregister_usys m.cfg s m.cpu fgHandle.toNat), nofun⟩⟩
    exact silent_events (forall_mem_singleton.2 ⟨_, rfl⟩)
  | nvmeRegisterFlow flowGroupId cookie slo =>
    have result : (ret, nvme) = Nvme.bsysNvmeRegisterFlow m.cfg s m.cpu (Int64.ofInt flowGroupId) cookie slo args.swq := (Option.some.inj call).symm
    obtain ⟨before, unregistered, grown⟩ := register_usys m.cfg s m.cpu (Int64.ofInt flowGroupId) cookie slo args.swq
    rw [← result, append_assoc] at grown
    refine ⟨_, silent_events unregistered, ?_⟩
    rw [posted_of_append grown, filterMap_append]
    by_cases zero : ret = 0
    · rw [if_pos zero]
      exact .inr ⟨flowGroupId, cookie, slo, rfl, zero, rfl⟩
    · rw [if_neg zero, filterMap_nil, append_nil]
      exact .inl ⟨rfl, fun _ _ _ _ => zero⟩

end Posted

end Reflex.Thread
