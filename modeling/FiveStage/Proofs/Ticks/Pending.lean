import FiveStage.Proofs.Ticks.Handles

/-!
# A tick is pending just while a run goes on

Under an orderly host, which delivers only what it fired and leaves both the cycles and the ticks of
the simulator to the simulator, a tick is pending just if the status is running. It is in the queue
until it is fired, and then under way until it is delivered. Nothing else of the simulator's is ever
in the queue.
-/
namespace FiveStage.Simulator

/-- The ticks in the queue that the simulator asked for: all that the host did not schedule. -/
def ownTicks (s : Simulator TickQueue) (past : List Exchange) : List TickHandle :=
  s.ticks.waiting.filter fun handle => handle ∉ past.filterMap Exchange.hosted?

/-- What an orderly host does: it advances by steps and ticks only, delivers what it fired, and
cancels no tick of the simulator. -/
def permits (s : Simulator TickQueue) (past : List Exchange) : Action → Bool
  | .advance => false
  | .deliver handle => handle ∈ past.filterMap Exchange.fired?
  | .cancel handle => handle ∉ s.ownTicks past
  | _ => true

/-- Each action of a run that follows on earlier exchanges is one of an orderly host. -/
def orderly (s : Simulator TickQueue) (past : List Exchange) : List Action → Bool
  | [] => true
  | action :: rest =>
    s.permits past action &&
      (s.perform action).2.orderly (past ++ [(action, (s.perform action).1)]) rest

theorem mem_ownTicks {s : Simulator TickQueue} {past : List Exchange} {handle : TickHandle} :
    handle ∈ s.ownTicks past ↔
      handle ∈ s.ticks.waiting ∧ handle ∉ past.filterMap Exchange.hosted? := by
  rw [ownTicks, List.mem_filter, decide_eq_true_iff]

/-- A queue of the host's ticks and the pending one stays so, unless a tick is delivered that is
still in it. -/
theorem Paced.single {s t : Simulator TickQueue} {past : List Exchange} {e : Exchange}
    (hp : s.Paced e t)
    (hsingle : ∀ handle ∈ s.ticks.waiting,
      handle ∈ past.filterMap Exchange.hosted? ∨ s.pending = some handle)
    (hout : ∀ handle, e.delivered? = some handle → handle ∉ s.ticks.waiting) :
    ∀ handle ∈ t.ticks.waiting,
      handle ∈ (past ++ [e]).filterMap Exchange.hosted? ∨ t.pending = some handle := by
  intro handle hin
  rw [Exchange.mem_filterMap_concat]
  -- what was in the queue before is the host's, unless it was the pending tick
  have hold : handle ∈ s.ticks.waiting → s.pending ≠ some handle →
      handle ∈ past.filterMap Exchange.hosted? :=
    fun hwaiting hother => (hsingle handle hwaiting).resolve_right hother
  have hsame : handle ∈ s.ticks.waiting →
      (handle ∈ past.filterMap Exchange.hosted? ∨ e.hosted? = some handle) ∨
        s.pending = some handle :=
    fun hwaiting => (hsingle handle hwaiting).imp_left .inl
  -- and the pending tick is not in the queue when it is delivered
  have hgone : ∀ {used answer}, e = (.deliver used, answer) → s.pending = some used →
      handle ∈ s.ticks.waiting → s.pending ≠ some handle := by
    rintro used answer rfl hused hwaiting hagain
    obtain rfl := Option.some.inj (hused.symm.trans hagain)
    exact hout used rfl hwaiting
  cases hp with
  | kept _ hpending hticks _ =>
    rw [hticks] at hin
    rw [hpending]
    exact hsame hin
  | released _ _ hticks _ =>
    rw [hticks, mem_waiting_release] at hin
    exact .inl (.inl (hold hin.1 hin.2))
  | armed _ _ hpending hticks _ =>
    rw [hticks] at hin
    rcases List.mem_append.mp hin with hearlier | hnew
    · rw [mem_waiting_release] at hearlier
      exact .inl (.inl (hold hearlier.1 hearlier.2))
    · right
      rw [hpending, List.mem_singleton.mp hnew, issued_release]
  | stale _ => exact hsame hin
  | used hbefore _ hticks _ =>
    rw [hticks] at hin
    exact .inl (.inl (hold hin (hgone rfl hbefore hin)))
  | rearmed hbefore hpending hticks _ =>
    rw [hticks] at hin
    rcases List.mem_append.mp hin with hearlier | hnew
    · exact .inl (.inl (hold hearlier (hgone rfl hbefore hearlier)))
    · right
      rw [hpending, List.mem_singleton.mp hnew]
  | scheduled =>
    rcases List.mem_append.mp hin with hearlier | hnew
    · exact hsame hearlier
    · obtain rfl := List.mem_singleton.mp hnew
      exact .inl (.inr rfl)
  | cancelled _ => exact hsame (List.mem_filter.mp hin).1
  | fired => exact hsame (List.mem_of_mem_tail hin)

/-- What holds of the pending tick and of the queue under an orderly host. -/
structure Regular (s : Simulator TickQueue) (past : List Exchange) : Prop where
  account : s.Account past
  delivered : ∀ handle ∈ past.filterMap Exchange.delivered?, s.Spent handle
  single : ∀ handle ∈ s.ticks.waiting,
    handle ∈ past.filterMap Exchange.hosted? ∨ s.pending = some handle
  live : ∀ handle, s.pending = some handle →
    handle ∈ s.ticks.waiting ∨ handle ∈ past.filterMap Exchange.fired?
  running : s.state.status = .running ↔ s.pending.isSome = true

namespace Regular

variable {s t : Simulator TickQueue} {past : List Exchange} {e : Exchange} {handle : TickHandle}

theorem initial (config : Config) (program : Program) : (new config program).Regular [] where
  account := .initial config program
  delivered := fun _ h => nomatch h
  single := fun _ h => nomatch h
  live := fun _ h => nomatch h
  running := iff_of_false State.initial_not_running nofun

theorem fired_of_delivered (hpermits : s.permits past e.1 = true)
    (he : e.delivered? = some handle) : handle ∈ past.filterMap Exchange.fired? := by
  unfold Exchange.delivered? at he
  split at he
  · obtain rfl := Option.some.inj he
    exact of_decide_eq_true hpermits
  · cases he

theorem not_waiting_of_delivered (h : s.Regular past) (hpermits : s.permits past e.1 = true)
    (he : e.delivered? = some handle) : handle ∉ s.ticks.waiting :=
  (h.account.fired handle (fired_of_delivered hpermits he)).2

theorem single_step (h : s.Regular past) (hpermits : s.permits past e.1 = true)
    (hp : s.Paced e t) : ∀ handle ∈ t.ticks.waiting,
      handle ∈ (past ++ [e]).filterMap Exchange.hosted? ∨ t.pending = some handle :=
  hp.single h.single fun _ he => h.not_waiting_of_delivered hpermits he

theorem live_step (h : s.Regular past) (hpermits : s.permits past e.1 = true)
    (hp : s.Paced e t) : ∀ handle, t.pending = some handle →
      handle ∈ t.ticks.waiting ∨ handle ∈ (past ++ [e]).filterMap Exchange.fired? := by
  intro handle hpending
  rw [Exchange.mem_filterMap_concat]
  have hsame : s.pending = some handle → handle ∈ s.ticks.waiting ∨
      handle ∈ past.filterMap Exchange.fired? ∨ e.fired? = some handle :=
    fun hbefore => (h.live handle hbefore).imp_right .inl
  cases hp with
  | kept _ hold hticks _ =>
    rw [hticks]
    exact hsame (hold.symm.trans hpending)
  | released _ hnone _ _ => cases hnone.symm.trans hpending
  | armed _ _ hnew hticks _ =>
    obtain rfl := Option.some.inj (hnew.symm.trans hpending)
    left
    rw [hticks, ← s.issued_release]
    exact List.mem_append_right _ (List.mem_singleton_self _)
  | stale _ => exact hsame hpending
  | used _ hnone _ _ => cases hnone.symm.trans hpending
  | rearmed _ hnew hticks _ =>
    obtain rfl := Option.some.inj (hnew.symm.trans hpending)
    left
    rw [hticks]
    exact List.mem_append_right _ (List.mem_singleton_self _)
  | scheduled => exact (hsame hpending).imp_left (List.mem_append_left _)
  | cancelled cancelled =>
    refine (hsame hpending).imp_left fun hwaiting => ?_
    -- the pending tick is the simulator's own, and so not the one that the host cancels
    have hhost : handle ∉ past.filterMap Exchange.hosted? :=
      fun hhosted => (h.account.hosted handle hhosted).2 hpending
    have hother : cancelled ∉ s.ownTicks past := of_decide_eq_true hpermits
    refine List.mem_filter.mpr ⟨hwaiting, ?_⟩
    rw [bne_iff_ne]
    rintro rfl
    exact hother (mem_ownTicks.mpr ⟨hwaiting, hhost⟩)
  | fired =>
    rcases hsame hpending with hwaiting | hfired
    · cases hw : s.ticks.waiting with
      | nil =>
        rw [hw] at hwaiting
        cases hwaiting
      | cons first rest =>
        rw [hw] at hwaiting
        rcases List.mem_cons.mp hwaiting with rfl | hlater
        · exact .inr (.inr rfl)
        · left
          show handle ∈ s.ticks.waiting.tail
          rwa [hw]
    · exact .inr hfired

theorem running_step (h : s.Regular past) (hpermits : s.permits past e.1 = true)
    (hp : s.Paced e t) : t.state.status = .running ↔ t.pending.isSome = true := by
  cases hp with
  | kept _ hpending _ hstatus =>
    have hcycle : e.1 ≠ .advance := by
      intro he
      rw [he] at hpermits
      cases hpermits
    rw [hstatus hcycle, hpending]
    exact h.running
  | released _ hpending _ hstatus => exact iff_of_false hstatus (by rw [hpending]; decide)
  | armed _ _ hpending _ hstatus => exact iff_of_true hstatus (by rw [hpending]; rfl)
  | stale _ => exact h.running
  | used _ hpending _ hstatus => exact iff_of_false hstatus (by rw [hpending]; decide)
  | rearmed _ hpending _ hstatus => exact iff_of_true hstatus (by rw [hpending]; rfl)
  | scheduled => exact h.running
  | cancelled _ => exact h.running
  | fired => exact h.running

theorem step (h : s.Regular past) (hpermits : s.permits past e.1 = true) (hp : s.Paced e t) :
    t.Regular (past ++ [e]) where
  account := h.account.step hp
  delivered := by
    intro handle hin
    rcases Exchange.mem_filterMap_concat.mp hin with hold | hnow
    · exact hp.spent (h.delivered handle hold)
    · exact hp.spent_of_delivered hnow
        (h.account.fired handle (fired_of_delivered hpermits hnow)).1
  single := h.single_step hpermits hp
  live := h.live_step hpermits hp
  running := h.running_step hpermits hp

theorem performAll (actions : List Action) (h : s.Regular past)
    (horderly : s.orderly past actions = true) :
    (s.performAll actions).2.Regular (past ++ s.exchanges actions) := by
  induction actions generalizing s past with
  | nil => exact (List.append_nil past).symm ▸ h
  | cons action rest ih =>
    rw [orderly, Bool.and_eq_true] at horderly
    have hrest := ih (h.step horderly.1 (s.paced_perform action)) horderly.2
    rwa [List.append_assoc, List.singleton_append, ← exchanges_cons] at hrest

theorem ownTicks_of_stopped (h : s.Regular past) (hs : s.state.status ≠ .running) :
    s.ownTicks past = [] := by
  rw [List.eq_nil_iff_forall_not_mem]
  intro handle hin
  obtain ⟨hwaiting, hown⟩ := mem_ownTicks.mp hin
  have hpending := (h.single handle hwaiting).resolve_left hown
  exact hs (h.running.mpr (by rw [hpending]; rfl))

/-- The pending tick is the only one of the simulator's in the queue, or it has been fired. -/
theorem ownTicks_of_pending (h : s.Regular past) (hpending : s.pending = some handle) :
    s.ownTicks past = [handle] ∨ s.ownTicks past = [] ∧
      handle ∈ past.filterMap Exchange.fired? ∧ handle ∉ past.filterMap Exchange.delivered? := by
  have hall : ∀ own ∈ s.ownTicks past, own = handle := by
    intro own hin
    obtain ⟨hwaiting, hown⟩ := mem_ownTicks.mp hin
    have hsame := (h.single own hwaiting).resolve_left hown
    exact Option.some.inj (hsame.symm.trans hpending)
  have hnodup : (s.ownTicks past).Nodup := h.account.nodup.sublist List.filter_sublist
  rcases h.live handle hpending with hwaiting | hfired
  · left
    have hhost : handle ∉ past.filterMap Exchange.hosted? :=
      fun hhosted => (h.account.hosted handle hhosted).2 hpending
    have hin := mem_ownTicks.mpr ⟨hwaiting, hhost⟩
    cases hown : s.ownTicks past with
    | nil =>
      rw [hown] at hin
      cases hin
    | cons first rest =>
      rw [hown] at hall hnodup
      obtain ⟨rfl, hrest⟩ := List.forall_mem_cons.mp hall
      have hnil : rest = [] := by
        rw [List.eq_nil_iff_forall_not_mem]
        intro other hother
        obtain rfl := hrest other hother
        exact (List.nodup_cons.mp hnodup).1 hother
      rw [hnil]
  · right
    refine ⟨?_, hfired, fun hdelivered => (h.delivered handle hdelivered).2 hpending⟩
    rw [List.eq_nil_iff_forall_not_mem]
    intro own hin
    obtain rfl := hall own hin
    exact (h.account.fired own hfired).2 (mem_ownTicks.mp hin).1

end Regular

/-- Under an orderly host the simulator has one tick in the queue at most, and none unless it runs.
While it runs its pending tick is in the queue, or has been fired and is still to be delivered. -/
theorem tick_pending_while_running (config : Config) (program : Program) (actions : List Action)
    (horderly : (new config program).orderly [] actions = true) :
    let s := ofActions config program actions
    let run := exchangesOf config program actions
    (s.ownTicks run).length ≤ 1 ∧
      (s.state.status ≠ .running → s.ownTicks run = []) ∧
      (s.state.status = .running → ∃ handle, s.pending = some handle ∧
        (s.ownTicks run = [handle] ∨ s.ownTicks run = [] ∧
          handle ∈ run.filterMap Exchange.fired? ∧
          handle ∉ run.filterMap Exchange.delivered?)) := by
  intro s run
  have h : s.Regular run := (Regular.initial config program).performAll actions horderly
  have hrunning : s.state.status = .running → ∃ handle, s.pending = some handle ∧
      (s.ownTicks run = [handle] ∨ s.ownTicks run = [] ∧
        handle ∈ run.filterMap Exchange.fired? ∧
        handle ∉ run.filterMap Exchange.delivered?) := by
    intro hs
    obtain ⟨handle, hpending⟩ := Option.isSome_iff_exists.mp (h.running.mp hs)
    exact ⟨handle, hpending, h.ownTicks_of_pending hpending⟩
  refine ⟨?_, h.ownTicks_of_stopped, hrunning⟩
  by_cases hs : s.state.status = .running
  · obtain ⟨handle, _, hone | ⟨hnone, _⟩⟩ := hrunning hs
    · exact Nat.le_of_eq (congrArg List.length hone)
    · rw [hnone]
      exact Nat.zero_le 1
  · rw [h.ownTicks_of_stopped hs]
    exact Nat.zero_le 1

/-- A tick is under way when the host schedules and cancels one of its own. -/
theorem tick_pending_under_way :
    let actions : List Action :=
      [.start, .schedule, .fire, .deliver 1, .cancel 2, .deliver 1, .pause, .start, .fire]
    let s := ofActions .standard .chain actions
    let run := exchangesOf .standard .chain actions
    (new .standard .chain).orderly [] actions = true ∧ s.state.status = .running ∧
      s.pending = some 4 ∧ s.ownTicks run = [] ∧ 4 ∈ run.filterMap Exchange.fired? ∧
      4 ∉ run.filterMap Exchange.delivered? := by
  intro actions s run
  have horderly : (new .standard .chain).orderly [] actions = true := by decide +kernel
  have hs : s.state.status = .running := by decide +kernel
  have hpending : s.pending = some 4 := by decide +kernel
  have hnone : s.ownTicks run = [] := by decide +kernel
  obtain ⟨_, _, hrunning⟩ := tick_pending_while_running .standard .chain actions horderly
  obtain ⟨handle, hhandle, hone | ⟨_, hfired, hdelivered⟩⟩ := hrunning hs
  · rw [hnone] at hone
    cases hone
  · obtain rfl := Option.some.inj (hpending.symm.trans hhandle)
    exact ⟨horderly, hs, hpending, hnone, hfired, hdelivered⟩

end FiveStage.Simulator
