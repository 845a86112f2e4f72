import FiveStage.Proofs.Schedule.Basic
import FiveStage.Proofs.Ticks.Exchange

/-!
# Handles are used once

A handle that has been issued and is not pending is spent: handles are issued in rising order, so it
never becomes pending again, and its delivery is ignored. Whatever drove a cycle is spent, and so is
what the simulator gave up, and what the host scheduled for itself.
-/
namespace FiveStage

/-- Whether an action makes the simulator give up its pending tick. -/
def Action.disarms (s : Simulator TickQueue) : Action → Bool
  | .pause | .init | .reset => true
  | .step => s.state.status = .running
  | .load source => (s.load source).1.isOk
  | _ => false

namespace Simulator

/-- A handle that is issued and not pending. -/
def Spent (s : Simulator TickQueue) (handle : TickHandle) : Prop :=
  handle ≤ s.ticks.issued ∧ s.pending ≠ some handle

theorem onTick_of_stale {s : Simulator TickQueue} {handle : TickHandle}
    (h : s.pending ≠ some handle) : s.onTick handle = (.ignored, s) := if_neg h

namespace Paced

variable {s t : Simulator TickQueue} {e : Exchange} {handle : TickHandle}

theorem issued_le (h : s.Paced e t) : s.ticks.issued ≤ t.ticks.issued := by
  cases h with
  | kept _ _ hticks _ => exact Nat.le_of_eq (by rw [hticks])
  | released _ _ hticks _ => exact Nat.le_of_eq (by rw [hticks, issued_release])
  | armed _ _ _ hticks _ =>
    rw [hticks, ← s.issued_release]
    exact Nat.le_succ _
  | stale _ => exact Nat.le_refl _
  | used _ _ hticks _ => exact Nat.le_of_eq (by rw [hticks])
  | rearmed _ _ hticks _ =>
    rw [hticks]
    exact Nat.le_succ _
  | scheduled => exact Nat.le_succ _
  | cancelled _ => exact Nat.le_refl _
  | fired => exact Nat.le_refl _

/-- A handle that becomes pending is the one that was issued last. -/
theorem of_pending (h : s.Paced e t) (hpending : t.pending = some handle) :
    s.pending = some handle ∨ handle = s.ticks.issued + 1 ∧ t.ticks.issued = handle := by
  have hnew : ∀ {issued : Nat}, t.pending = some (issued + 1) → issued + 1 = handle := by
    intro issued hissued
    exact Option.some.inj (hissued.symm.trans hpending)
  cases h with
  | kept _ hsame _ _ => exact .inl (hsame.symm.trans hpending)
  | released _ hnone _ _ =>
    rw [hnone] at hpending
    cases hpending
  | armed _ _ hissued hticks _ =>
    obtain rfl := hnew hissued
    refine .inr ⟨rfl, ?_⟩
    rw [hticks, ← s.issued_release]
    rfl
  | stale _ => exact .inl hpending
  | used _ hnone _ _ =>
    rw [hnone] at hpending
    cases hpending
  | rearmed _ hissued hticks _ =>
    obtain rfl := hnew hissued
    refine .inr ⟨rfl, ?_⟩
    rw [hticks]
    rfl
  | scheduled => exact .inl hpending
  | cancelled _ => exact .inl hpending
  | fired => exact .inl hpending

/-- The queue loses some handles, and gains the one that was issued last or none. -/
theorem waiting (h : s.Paced e t) : ∃ rest : List TickHandle, rest.Sublist s.ticks.waiting ∧
    (t.ticks.waiting = rest ∨
      t.ticks.waiting = rest ++ [s.ticks.issued + 1] ∧ t.ticks.issued = s.ticks.issued + 1) := by
  cases h with
  | kept _ _ hticks _ => exact ⟨_, .refl _, .inl (by rw [hticks])⟩
  | released _ _ hticks _ => exact ⟨_, s.sublist_waiting_release, .inl (by rw [hticks])⟩
  | armed _ _ _ hticks _ =>
    refine ⟨_, s.sublist_waiting_release, .inr ?_⟩
    rw [hticks, ← s.issued_release]
    exact ⟨rfl, rfl⟩
  | stale _ => exact ⟨_, .refl _, .inl rfl⟩
  | used _ _ hticks _ => exact ⟨_, .refl _, .inl (by rw [hticks])⟩
  | rearmed _ _ hticks _ =>
    refine ⟨_, .refl _, .inr ?_⟩
    rw [hticks]
    exact ⟨rfl, rfl⟩
  | scheduled => exact ⟨_, .refl _, .inr ⟨rfl, rfl⟩⟩
  | cancelled _ => exact ⟨_, List.filter_sublist, .inl rfl⟩
  | fired => exact ⟨_, List.tail_sublist _, .inl rfl⟩

theorem of_waiting (h : s.Paced e t) (hin : handle ∈ t.ticks.waiting) :
    handle ∈ s.ticks.waiting ∨ handle = s.ticks.issued + 1 ∧ t.ticks.issued = handle := by
  obtain ⟨rest, hrest, heq | ⟨heq, hissued⟩⟩ := h.waiting
  · rw [heq] at hin
    exact .inl (hrest.subset hin)
  · rw [heq, List.mem_append, List.mem_singleton] at hin
    rcases hin with hold | rfl
    · exact .inl (hrest.subset hold)
    · exact .inr ⟨rfl, hissued⟩

/-- An issued handle does not become pending again. -/
theorem old_pending (h : s.Paced e t) (hle : handle ≤ s.ticks.issued)
    (hpending : t.pending = some handle) : s.pending = some handle := by
  rcases h.of_pending hpending with hold | ⟨rfl, _⟩
  · exact hold
  · exact absurd hle (Nat.not_succ_le_self _)

theorem old_waiting (h : s.Paced e t) (hle : handle ≤ s.ticks.issued)
    (hin : handle ∈ t.ticks.waiting) : handle ∈ s.ticks.waiting := by
  rcases h.of_waiting hin with hold | ⟨rfl, _⟩
  · exact hold
  · exact absurd hle (Nat.not_succ_le_self _)

/-- A tick of the host never becomes the pending one. -/
theorem of_hosted (h : s.Paced e t) (he : e.hosted? = some handle) :
    handle = s.ticks.issued + 1 ∧ t.ticks.issued = handle ∧ t.pending = s.pending := by
  cases h with
  | kept hsilent _ _ _ => cases hsilent.1.symm.trans he
  | released hsilent _ _ _ => cases hsilent.1.symm.trans he
  | armed hsilent _ _ _ _ => cases hsilent.1.symm.trans he
  | stale _ => cases he
  | used _ _ _ _ => cases he
  | rearmed _ _ _ _ => cases he
  | scheduled =>
    obtain rfl := Option.some.inj he
    exact ⟨rfl, rfl, rfl⟩
  | cancelled _ => cases he
  | fired => cases he

/-- Only the pending handle drives a cycle. -/
theorem of_driving (h : s.Paced e t) (he : e.driving? = some handle) : s.pending = some handle := by
  have hdelivered := Exchange.delivered?_of_driving? he
  cases h with
  | kept hsilent _ _ _ => cases hsilent.driving?.symm.trans he
  | released hsilent _ _ _ => cases hsilent.driving?.symm.trans he
  | armed hsilent _ _ _ _ => cases hsilent.driving?.symm.trans he
  | stale _ => cases he
  | used hbefore _ _ _ => exact hbefore.trans hdelivered
  | rearmed hbefore _ _ _ => exact hbefore.trans hdelivered
  | scheduled => cases he
  | cancelled _ => cases he
  | fired => cases he

theorem of_fired (h : s.Paced e t) (he : e.fired? = some handle) :
    s.ticks.waiting = handle :: t.ticks.waiting := by
  cases h with
  | kept hsilent _ _ _ => cases hsilent.2.1.symm.trans he
  | released hsilent _ _ _ => cases hsilent.2.1.symm.trans he
  | armed hsilent _ _ _ _ => cases hsilent.2.1.symm.trans he
  | stale _ => cases he
  | used _ _ _ _ => cases he
  | rearmed _ _ _ _ => cases he
  | scheduled => cases he
  | cancelled _ => cases he
  | fired => exact (List.cons_head?_tail he).symm

theorem spent (h : s.Paced e t) (hs : s.Spent handle) : t.Spent handle :=
  ⟨Nat.le_trans hs.1 h.issued_le, fun hagain => hs.2 (h.old_pending hs.1 hagain)⟩

/-- Delivery spends a handle, whether it drives a cycle or not. -/
theorem spent_of_delivered (h : s.Paced e t) (he : e.delivered? = some handle)
    (hle : handle ≤ s.ticks.issued) : t.Spent handle := by
  refine ⟨Nat.le_trans hle h.issued_le, ?_⟩
  cases h with
  | kept hsilent _ _ _ => cases hsilent.2.2.symm.trans he
  | released hsilent _ _ _ => cases hsilent.2.2.symm.trans he
  | armed hsilent _ _ _ _ => cases hsilent.2.2.symm.trans he
  | stale hbefore =>
    obtain rfl := Option.some.inj he
    exact hbefore
  | used _ hnone _ _ =>
    rw [hnone]
    exact nofun
  | rearmed _ hnew _ _ =>
    rw [hnew]
    intro heq
    obtain rfl := Option.some.inj heq
    exact Nat.not_succ_le_self _ hle
  | scheduled => cases he
  | cancelled _ => cases he
  | fired => cases he

/-- A handle of the host is spent from the start. -/
theorem spent_of_hosted (h : s.Paced e t) (he : e.hosted? = some handle)
    (hle : ∀ pending, s.pending = some pending → pending ≤ s.ticks.issued) : t.Spent handle := by
  obtain ⟨rfl, hissued, hsame⟩ := h.of_hosted he
  refine ⟨Nat.le_of_eq hissued.symm, ?_⟩
  rw [hsame]
  exact fun hpending => Nat.not_succ_le_self _ (hle _ hpending)

theorem nodup_waiting (h : s.Paced e t) (hnodup : s.ticks.waiting.Nodup)
    (hle : ∀ handle ∈ s.ticks.waiting, handle ≤ s.ticks.issued) : t.ticks.waiting.Nodup := by
  obtain ⟨rest, hrest, heq | ⟨heq, _⟩⟩ := h.waiting
  · rw [heq]
    exact hnodup.sublist hrest
  · rw [heq, List.nodup_append]
    refine ⟨hnodup.sublist hrest, List.nodup_singleton _, ?_⟩
    intro old hold new hnew hsame
    obtain rfl := hsame.trans (List.mem_singleton.mp hnew)
    exact Nat.not_succ_le_self _ (hle _ (hrest.subset hold))

end Paced

/-- What the exchanges so far say about the handles that were issued. -/
structure Account (s : Simulator TickQueue) (past : List Exchange) : Prop where
  pending_le : ∀ handle, s.pending = some handle → handle ≤ s.ticks.issued
  waiting_le : ∀ handle ∈ s.ticks.waiting, handle ≤ s.ticks.issued
  nodup : s.ticks.waiting.Nodup
  fired : ∀ handle ∈ past.filterMap Exchange.fired?,
    handle ≤ s.ticks.issued ∧ handle ∉ s.ticks.waiting
  hosted : ∀ handle ∈ past.filterMap Exchange.hosted?, s.Spent handle
  driving : ∀ handle ∈ past.filterMap Exchange.driving?, s.Spent handle
  apart : ∀ handle ∈ past.filterMap Exchange.hosted?, handle ∉ past.filterMap Exchange.driving?
  once : (past.filterMap Exchange.driving?).Nodup

namespace Account

variable {s t : Simulator TickQueue} {past : List Exchange} {e : Exchange}

theorem initial (config : Config) (program : Program) : (new config program).Account [] where
  pending_le := fun _ h => nomatch h
  waiting_le := fun _ h => nomatch h
  nodup := List.nodup_nil
  fired := fun _ h => nomatch h
  hosted := fun _ h => nomatch h
  driving := fun _ h => nomatch h
  apart := fun _ h => nomatch h
  once := List.nodup_nil

theorem fired_step (h : s.Account past) (hp : s.Paced e t) :
    ∀ handle ∈ (past ++ [e]).filterMap Exchange.fired?,
      handle ≤ t.ticks.issued ∧ handle ∉ t.ticks.waiting := by
  intro handle hin
  rcases Exchange.mem_filterMap_concat.mp hin with hold | hnow
  · obtain ⟨hle, hout⟩ := h.fired handle hold
    exact ⟨Nat.le_trans hle hp.issued_le, fun hagain => hout (hp.old_waiting hle hagain)⟩
  · have hcons := hp.of_fired hnow
    have hhead : handle ∈ s.ticks.waiting := hcons ▸ List.mem_cons_self
    have hnodup := h.nodup
    rw [hcons, List.nodup_cons] at hnodup
    exact ⟨Nat.le_trans (h.waiting_le handle hhead) hp.issued_le, hnodup.1⟩

theorem apart_step (h : s.Account past) (hp : s.Paced e t) :
    ∀ handle ∈ (past ++ [e]).filterMap Exchange.hosted?,
      handle ∉ (past ++ [e]).filterMap Exchange.driving? := by
  intro handle hhosted hdriving
  -- of the two the later one is the exchange at hand, or both are earlier
  rcases Exchange.mem_filterMap_concat.mp hdriving with hold | hnow
  · rcases Exchange.mem_filterMap_concat.mp hhosted with hearlier | hlater
    · exact h.apart handle hearlier hold
    · obtain ⟨rfl, _⟩ := hp.of_hosted hlater
      exact Nat.not_succ_le_self _ (h.driving _ hold).1
  · have hpending := hp.of_driving hnow
    rcases Exchange.mem_filterMap_concat.mp hhosted with hearlier | hlater
    · exact (h.hosted handle hearlier).2 hpending
    · obtain ⟨rfl, _⟩ := hp.of_hosted hlater
      exact Nat.not_succ_le_self _ (h.pending_le _ hpending)

theorem once_step (h : s.Account past) (hp : s.Paced e t) :
    ((past ++ [e]).filterMap Exchange.driving?).Nodup := by
  rw [List.filterMap_append]
  cases he : e.driving? with
  | none => simpa [he] using h.once
  | some handle =>
    have hfirst : handle ∉ past.filterMap Exchange.driving? :=
      fun hold => (h.driving handle hold).2 (hp.of_driving he)
    rw [List.filterMap_cons_some he, List.filterMap_nil, List.nodup_append]
    refine ⟨h.once, List.nodup_singleton _, ?_⟩
    intro old hold new hnew hsame
    obtain rfl := hsame.trans (List.mem_singleton.mp hnew)
    exact hfirst hold

theorem step (h : s.Account past) (hp : s.Paced e t) : t.Account (past ++ [e]) where
  pending_le := by
    intro handle hpending
    rcases hp.of_pending hpending with hold | ⟨_, hissued⟩
    · exact Nat.le_trans (h.pending_le handle hold) hp.issued_le
    · exact Nat.le_of_eq hissued.symm
  waiting_le := by
    intro handle hin
    rcases hp.of_waiting hin with hold | ⟨_, hissued⟩
    · exact Nat.le_trans (h.waiting_le handle hold) hp.issued_le
    · exact Nat.le_of_eq hissued.symm
  nodup := hp.nodup_waiting h.nodup h.waiting_le
  fired := h.fired_step hp
  hosted := by
    intro handle hin
    rcases Exchange.mem_filterMap_concat.mp hin with hold | hnow
    · exact hp.spent (h.hosted handle hold)
    · exact hp.spent_of_hosted hnow h.pending_le
  driving := by
    intro handle hin
    rcases Exchange.mem_filterMap_concat.mp hin with hold | hnow
    · exact hp.spent (h.driving handle hold)
    · exact hp.spent_of_delivered (Exchange.delivered?_of_driving? hnow)
        (h.pending_le handle (hp.of_driving hnow))
  apart := h.apart_step hp
  once := h.once_step hp

theorem performAll (actions : List Action) (h : s.Account past) :
    (s.performAll actions).2.Account (past ++ s.exchanges actions) := by
  induction actions generalizing s past with
  | nil => exact (List.append_nil past).symm ▸ h
  | cons action rest ih =>
    have hrest := ih (h.step (s.paced_perform action))
    rwa [List.append_assoc, List.singleton_append, ← exchanges_cons] at hrest

theorem ofActions (config : Config) (program : Program) (actions : List Action) :
    (ofActions config program actions).Account (exchangesOf config program actions) :=
  (initial config program).performAll actions

end Account

theorem pending_of_disarms {s : Simulator TickQueue} {action : Action}
    (h : action.disarms s = true) : (s.perform action).2.pending = none := by
  cases action with
  | pause => exact s.pending_pause
  | step =>
    show s.step.2.pending = none
    rw [step, if_pos (of_decide_eq_true h), pending_advance, pending_pause]
  | init => exact s.pending_release
  | reset => exact s.pending_release
  | load source =>
    simp only [Action.disarms, load] at h
    simp only [perform, load]
    split at h
    · cases h
    · exact s.pending_release
  | _ => cases h

/-- What was issued before the simulator gave up its tick is spent. -/
theorem spent_of_disarms {s : Simulator TickQueue} {action : Action} {handle : TickHandle}
    (h : action.disarms s = true) (hle : handle ≤ s.ticks.issued) :
    (s.perform action).2.Spent handle := by
  refine ⟨Nat.le_trans hle (s.paced_perform action).issued_le, ?_⟩
  rw [pending_of_disarms h]
  exact nofun

theorem Spent.performAll (actions : List Action) {s : Simulator TickQueue} {handle : TickHandle}
    (h : s.Spent handle) : (s.performAll actions).2.Spent handle := by
  induction actions generalizing s with
  | nil => exact h
  | cons action rest ih => exact ih ((s.paced_perform action).spent h)

theorem ignored_of_spent {actions : List Action} {s : Simulator TickQueue} {handle : TickHandle}
    (h : s.Spent handle) {answer : Answer}
    (hin : (.deliver handle, answer) ∈ s.exchanges actions) : answer = .outcome .ignored := by
  obtain ⟨before, _, _, rfl⟩ := exists_of_mem_exchanges actions hin
  have hstale := (h.performAll before).2
  exact congrArg (fun answered => Answer.outcome answered.1) (onTick_of_stale hstale)

theorem ignored_of_not_driving {actions : List Action} {s : Simulator TickQueue}
    {handle : TickHandle} (h : handle ∉ (s.exchanges actions).filterMap Exchange.driving?)
    {answer : Answer} (hin : (.deliver handle, answer) ∈ s.exchanges actions) :
    answer = .outcome .ignored := by
  obtain ⟨before, _, _, rfl⟩ := exists_of_mem_exchanges actions hin
  by_contra hdrives
  exact h (List.mem_filterMap.mpr ⟨_, hin, if_neg fun heq => hdrives (congrArg Answer.outcome heq)⟩)

/-- Whatever is done with handles, each of them drives one cycle at most. A tick of the host is
ignored whenever it is delivered. So is, from then on, every handle that is pending or still in the
queue when the simulator gives up its tick. And a tick that is not the pending one changes nothing
at all. -/
theorem handle_drives_once (config : Config) (program : Program) (actions : List Action) :
    let run := exchangesOf config program actions
    (run.filterMap Exchange.driving?).Nodup ∧
      (∀ handle ∈ run.filterMap Exchange.hosted?, ∀ answer,
        (.deliver handle, answer) ∈ run → answer = .outcome .ignored) ∧
      (∀ before action after, actions = before ++ action :: after →
        let s := ofActions config program before
        action.disarms s = true → ∀ handle, s.pending = some handle ∨ handle ∈ s.ticks.waiting →
          ∀ answer, (.deliver handle, answer) ∈ (s.perform action).2.exchanges after →
            answer = .outcome .ignored) ∧
      ∀ (s : Simulator TickQueue) handle, s.pending ≠ some handle →
        s.onTick handle = (.ignored, s) := by
  intro run
  have h := Account.ofActions config program actions
  refine ⟨h.once, ?_, ?_, fun s handle => onTick_of_stale⟩
  · intro handle hhosted answer hin
    exact ignored_of_not_driving (h.apart handle hhosted) hin
  · intro before action after _ s hdisarms handle hissued answer hin
    have hbefore := Account.ofActions config program before
    have hle : handle ≤ s.ticks.issued := by
      rcases hissued with hpending | hwaiting
      · exact hbefore.pending_le handle hpending
      · exact hbefore.waiting_le handle hwaiting
    exact ignored_of_spent (spent_of_disarms hdisarms hle) hin

/-- The first tick is delivered before it is fired and once more after that, the second one is fired
and still under way when the run is paused, and the fourth one is the host's. -/
theorem handle_drives_once_across_pause :
    let before : List Action := [.start, .deliver 1, .fire, .deliver 1, .fire]
    let after : List Action := [.start, .deliver 2, .schedule, .deliver 4, .deliver 3]
    let s := ofActions .standard .chain before
    let run := exchangesOf .standard .chain (before ++ .pause :: after)
    let later := (s.perform .pause).2.exchanges after
    run.filterMap Exchange.driving? = [1, 3] ∧ [1, 3].Nodup ∧ s.pending = some 2 ∧
      later.filterMap Exchange.delivered? = [2, 4, 3] ∧
      (∀ answer, (.deliver 2, answer) ∈ later → answer = .outcome .ignored) ∧
      (∀ answer, (.deliver 4, answer) ∈ run → answer = .outcome .ignored) ∧
      s.onTick 1 = (.ignored, s) := by
  intro before after s run later
  obtain ⟨honce, hhost, hgiven, hstale⟩ :=
    handle_drives_once .standard .chain (before ++ .pause :: after)
  have hdriving : run.filterMap Exchange.driving? = [1, 3] := by decide +kernel
  have hpending : s.pending = some 2 := by decide +kernel
  refine ⟨hdriving, ?_, hpending, by decide +kernel, ?_, ?_, ?_⟩
  · rw [← hdriving]
    exact honce
  · exact hgiven before .pause after rfl rfl 2 (.inl hpending)
  · exact hhost 4 (by decide +kernel)
  · exact hstale s 1 (by rw [hpending]; decide)

end Simulator

end FiveStage
