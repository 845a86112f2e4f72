import FiveStage.Proofs.Ticks.Timers

/-!
# Deliveries under any timing

The owner of the timers schedules, cancels and waits, and the timers take their steps in between. A
handle is outstanding when it was scheduled and since then neither cancelled nor returned. Whatever
the order of it all, the live handles are the outstanding ones, so that nothing is returned that was
cancelled since it was scheduled, and nothing twice.
-/
namespace FiveStage.TimerPool

/-- What the owner of the timers sees of a call. -/
inductive Entry
  | scheduled (handle : TickHandle)
  | cancelled (handle : TickHandle)
  | waited (answer : Delivery)
  deriving DecidableEq, Repr

def Entry.delivered? : Entry → Option TickHandle
  | waited (.tick handle) => some handle
  | _ => none

theorem Entry.delivered?_eq_some_iff {e : Entry} {handle : TickHandle} :
    e.delivered? = some handle ↔ e = .waited (.tick handle) := by
  unfold delivered?
  split <;> simp_all

/-- The calls on new timers in any order, with any steps of timers between and within them. -/
inductive History : List Entry → TimerPool → Prop
  | start : History [] {}
  | schedule {past : List Entry} {p : TimerPool} (h : History past p) (delay : Nat) :
      History (past ++ [.scheduled (p.schedule delay).1]) (p.schedule delay).2
  | cancel {past : List Entry} {p : TimerPool} (h : History past p) (handle : TickHandle) :
      History (past ++ [.cancelled handle]) (p.cancel handle)
  | move {past : List Entry} {p : TimerPool} (h : History past p) (move : TimerStep) :
      History past (p.step move)
  | wait {past : List Entry} {p q : TimerPool} {answer : Delivery} (h : History past p)
      (hwait : p.Waited answer q) : History (past ++ [.waited answer]) q

/-- A handle that was scheduled and, since then, neither cancelled nor returned. -/
def Outstanding (past : List Entry) (handle : TickHandle) : Prop :=
  ∃ before after, past = before ++ .scheduled handle :: after ∧
    .cancelled handle ∉ after ∧ .waited (.tick handle) ∉ after

theorem concat_eq_iff {past before after : List Entry} {e x : Entry} :
    past ++ [e] = before ++ x :: after ↔
      (after = [] ∧ past = before ∧ e = x) ∨
        ∃ earlier, after = earlier ++ [e] ∧ past = before ++ x :: earlier := by
  rcases List.eq_nil_or_concat after with rfl | ⟨earlier, last, rfl⟩
  · constructor
    · intro h
      obtain ⟨hpast, he⟩ := List.append_inj' h rfl
      exact .inl ⟨rfl, hpast, (List.cons.inj he).1⟩
    · rintro (⟨_, rfl, rfl⟩ | ⟨earlier, hnil, _⟩)
      · rfl
      · cases earlier <;> cases hnil
  · rw [List.concat_eq_append]
    constructor
    · intro h
      have hsplit : past ++ [e] = (before ++ x :: earlier) ++ [last] := by
        rw [h, List.append_assoc, List.cons_append]
      obtain ⟨hpast, he⟩ := List.append_inj' hsplit rfl
      rw [(List.cons.inj he).1]
      exact .inr ⟨earlier, rfl, hpast⟩
    · rintro (⟨hnil, _, _⟩ | ⟨earlier', hafter, rfl⟩)
      · cases earlier <;> cases hnil
      · rw [hafter, List.append_assoc, List.cons_append]

theorem outstanding_concat {past : List Entry} {e : Entry} {handle : TickHandle} :
    Outstanding (past ++ [e]) handle ↔ e = .scheduled handle ∨
      Outstanding past handle ∧ e ≠ .cancelled handle ∧ e ≠ .waited (.tick handle) := by
  constructor
  · rintro ⟨before, after, hsplit, hcancelled, hwaited⟩
    rcases concat_eq_iff.mp hsplit with ⟨_, _, rfl⟩ | ⟨earlier, rfl, rfl⟩
    · exact .inl rfl
    · rw [List.mem_append, List.mem_singleton, not_or] at hcancelled hwaited
      exact .inr ⟨⟨before, earlier, rfl, hcancelled.1, hwaited.1⟩, Ne.symm hcancelled.2,
        Ne.symm hwaited.2⟩
  · rintro (rfl | ⟨⟨before, after, rfl, hcancelled, hwaited⟩, hnot, hnone⟩)
    · exact ⟨past, [], rfl, List.not_mem_nil, List.not_mem_nil⟩
    · refine ⟨before, after ++ [e], by rw [List.append_assoc, List.cons_append], ?_, ?_⟩
      · rw [List.mem_append, List.mem_singleton, not_or]
        exact ⟨hcancelled, Ne.symm hnot⟩
      · rw [List.mem_append, List.mem_singleton, not_or]
        exact ⟨hwaited, Ne.symm hnone⟩

/-- What one entry says about the live handles. -/
structure Effect (p : TimerPool) (e : Entry) (q : TimerPool) : Prop where
  live : ∀ h, h ∈ q.live ↔
    e = .scheduled h ∨ h ∈ p.live ∧ e ≠ .cancelled h ∧ e ≠ .waited (.tick h)
  issued : p.issued ≤ q.issued
  fresh : ∀ h, e = .scheduled h → p.issued < h ∧ h ≤ q.issued
  delivered : ∀ h, e.delivered? = some h → h ∈ p.live

/-- A handle that was issued and is not live. -/
def Spent (p : TimerPool) (handle : TickHandle) : Prop := handle ≤ p.issued ∧ handle ∉ p.live

section Effects

variable {p q : TimerPool}

theorem effect_schedule (p : TimerPool) (delay : Nat) :
    p.Effect (.scheduled (p.schedule delay).1) (p.schedule delay).2 where
  live h := by
    simp [TimerPool.schedule, eq_comm, or_comm]
  issued := Nat.le_succ _
  fresh h he := by
    cases he
    exact ⟨Nat.lt_succ_self _, Nat.le_refl _⟩
  delivered h he := nomatch he

theorem effect_cancel (p : TimerPool) (handle : TickHandle) :
    p.Effect (.cancelled handle) (p.cancel handle) where
  live h := by
    simp [mem_live_cancel, eq_comm]
  issued := by
    unfold TimerPool.cancel
    split <;> exact Nat.le_refl _
  fresh h he := nomatch he
  delivered h he := nomatch he

theorem Waited.effect {answer : Delivery} (h : p.Waited answer q) :
    p.Effect (.waited answer) q where
  live h' := by
    cases h.answered_of with
    | nothing hp hq => simp [hp, hq]
    | @tick _ handle hp hq => simp [hq, @eq_comm _ handle h']
    | blocked hp hq _ => simp [hq]
  issued := Nat.le_of_eq h.issued.symm
  fresh h' he := nomatch he
  delivered h' he := by
    cases h.answered_of with
    | nothing _ _ => cases he
    | tick hp _ => exact Option.some.inj he ▸ hp
    | blocked _ _ _ => cases he

/-- A spent handle stays spent. -/
theorem Effect.spent {e : Entry} (he : p.Effect e q) {handle : TickHandle}
    (h : p.Spent handle) : q.Spent handle := by
  refine ⟨Nat.le_trans h.1 he.issued, fun hin => ?_⟩
  rcases (he.live handle).mp hin with hnew | ⟨hold, _⟩
  · exact absurd h.1 (Nat.not_le_of_lt (he.fresh handle hnew).1)
  · exact h.2 hold

end Effects

/-- What a past says about the timers that it led to. -/
structure Tracked (past : List Entry) (p : TimerPool) : Prop where
  sound : p.Sound
  live : ∀ handle, handle ∈ p.live ↔ Outstanding past handle
  issued : ∀ handle, .scheduled handle ∈ past → handle ≤ p.issued
  once : (past.filterMap Entry.delivered?).Nodup
  spent : ∀ handle ∈ past.filterMap Entry.delivered?, p.Spent handle

theorem Tracked.record {past : List Entry} {p q : TimerPool} {e : Entry} (h : Tracked past p)
    (he : p.Effect e q) (hq : q.Sound) : Tracked (past ++ [e]) q where
  sound := hq
  live handle := by rw [outstanding_concat, he.live, h.live]
  issued handle hin := by
    rcases List.mem_append.mp hin with hold | hnew
    · exact Nat.le_trans (h.issued handle hold) he.issued
    · exact (he.fresh handle (List.mem_singleton.mp hnew).symm).2
  once := by
    rw [List.filterMap_append]
    cases hnew : e.delivered? with
    | none => simpa [hnew] using h.once
    | some handle =>
      -- What is delivered now was live, and what was delivered before is not.
      have hlate : handle ∉ past.filterMap Entry.delivered? :=
        fun hin => (h.spent handle hin).2 (he.delivered handle hnew)
      rw [List.filterMap_cons_some hnew, List.filterMap_nil]
      exact List.nodup_append_comm.mp (List.nodup_cons.mpr ⟨hlate, h.once⟩)
  spent handle hin := by
    rw [List.filterMap_append, List.mem_append] at hin
    rcases hin with hold | hnew
    · exact he.spent (h.spent handle hold)
    · have hdelivered : e.delivered? = some handle := by simpa using hnew
      have hlive := he.delivered handle hdelivered
      refine ⟨Nat.le_trans (h.sound.issued handle hlive) he.issued, fun hin => ?_⟩
      obtain rfl := Entry.delivered?_eq_some_iff.mp hdelivered
      rcases (he.live handle).mp hin with hscheduled | ⟨_, _, hnot⟩
      · cases hscheduled
      · exact hnot rfl

theorem History.tracked {past : List Entry} {p : TimerPool} (h : History past p) :
    Tracked past p := by
  induction h with
  | start =>
    refine ⟨sound_empty, fun handle => iff_of_false List.not_mem_nil ?_, nofun, .nil, nofun⟩
    rintro ⟨before, after, hsplit, _⟩
    cases before <;> cases hsplit
  | @schedule past p h delay ih =>
    exact ih.record (p.effect_schedule delay) (ih.sound.schedule delay)
  | @cancel past p h handle ih => exact ih.record (p.effect_cancel handle) (ih.sound.cancel handle)
  | @move past p h move ih =>
    exact ⟨ih.sound.step move, by simpa using ih.live, by simpa using ih.issued, ih.once,
      by simpa [Spent] using ih.spent⟩
  | wait h hwait ih => exact ih.record hwait.effect (hwait.sound ih.sound)

/-- What was cancelled is spent, and one more entry does not deliver it. -/
theorem Tracked.stays_cancelled {past : List Entry} {p q : TimerPool} {e : Entry}
    (h : Tracked past p) (he : p.Effect e q)
    (hpast : ∀ before after handle, past = before ++ .cancelled handle :: after →
      .scheduled handle ∈ before → .waited (.tick handle) ∉ after ∧ p.Spent handle)
    {before after : List Entry} {handle : TickHandle}
    (hsplit : past ++ [e] = before ++ .cancelled handle :: after)
    (hscheduled : .scheduled handle ∈ before) :
    .waited (.tick handle) ∉ after ∧ q.Spent handle := by
  -- Either the last entry is the cancel, or the cancel is older.
  rcases concat_eq_iff.mp hsplit with ⟨rfl, rfl, rfl⟩ | ⟨earlier, rfl, rfl⟩
  · refine ⟨List.not_mem_nil, Nat.le_trans (h.issued handle hscheduled) he.issued, fun hin => ?_⟩
    rcases (he.live handle).mp hin with hnew | ⟨_, hnot, _⟩
    · cases hnew
    · exact hnot rfl
  · obtain ⟨hbefore, hspent⟩ := hpast before earlier handle rfl hscheduled
    refine ⟨?_, he.spent hspent⟩
    rw [List.mem_append, List.mem_singleton, not_or]
    refine ⟨hbefore, fun hnow => ?_⟩
    exact hspent.2 (he.delivered handle (Entry.delivered?_eq_some_iff.mpr hnow.symm))

/-- A handle that was cancelled after it was scheduled is not delivered later. -/
theorem History.stays_cancelled {past : List Entry} {p : TimerPool} (h : History past p) :
    ∀ before after handle, past = before ++ .cancelled handle :: after →
      .scheduled handle ∈ before → .waited (.tick handle) ∉ after ∧ p.Spent handle := by
  induction h with
  | start =>
    intro before after handle hsplit
    cases before <;> cases hsplit
  | @schedule past p h delay ih =>
    exact fun _ _ _ => h.tracked.stays_cancelled (p.effect_schedule delay) ih
  | @cancel past p h handle ih =>
    exact fun _ _ _ => h.tracked.stays_cancelled (p.effect_cancel handle) ih
  | @move past p h move ih => simpa [Spent] using ih
  | wait h hwait ih => exact fun _ _ _ => h.tracked.stays_cancelled hwait.effect ih

/-- Whatever the order of the calls and of the steps of timers: a handle that was cancelled after it
was scheduled is not returned later, and none is returned twice. As many handles are pending as were
scheduled and since then neither cancelled nor returned, a wait answers none exactly when there are
no such handles, and it returns when the timers are left to finish. Each such handle whose timer is
done is in the channel, so a wait is blocked only by a live timer that has not sent yet. -/
theorem safe_under_any_timing {past : List Entry} {p : TimerPool} (h : History past p) :
    (∀ before after handle, past = before ++ .cancelled handle :: after →
        .scheduled handle ∈ before → .waited (.tick handle) ∉ after) ∧
      (past.filterMap Entry.delivered?).Nodup ∧
      (∃ handles : List TickHandle, handles.Nodup ∧
        (∀ handle, handle ∈ handles ↔ Outstanding past handle) ∧ p.pending = handles.length) ∧
      (∀ handle, Outstanding past handle → (∀ t ∈ p.timers, t.handle ≠ handle) →
        handle ∈ p.channel) ∧
      (∀ answer q, p.Waited answer q →
        (answer = .nothing ↔ ∀ handle, ¬ Outstanding past handle) ∧
        (∀ handle, answer = .tick handle → Outstanding past handle) ∧
        (answer = .blocked → ∃ t ∈ q.timers, Outstanding past t.handle ∧ t.cancelled = false)) ∧
      (p.await.1 = none ↔ ∀ handle, ¬ Outstanding past handle) := by
  have htracked := h.tracked
  have hempty : p.live = [] ↔ ∀ handle, ¬ Outstanding past handle := by
    rw [List.eq_nil_iff_forall_not_mem]
    exact forall_congr' fun handle => not_congr (htracked.live handle)
  refine ⟨fun _ _ _ hpast hscheduled => (h.stays_cancelled _ _ _ hpast hscheduled).1, htracked.once,
    ⟨p.live, htracked.sound.nodup, htracked.live, rfl⟩, ?_, ?_, ?_⟩
  · intro handle hout hdone
    refine (htracked.sound.pledged handle ((htracked.live handle).mpr hout)).resolve_right ?_
    rintro ⟨t, ht, hhandle, _⟩
    exact hdone t ht hhandle
  · intro answer q hwait
    cases hwait.answered_of with
    | nothing hp _ => exact ⟨iff_of_true rfl (hempty.mp hp), nofun, nofun⟩
    | @tick _ handle hp _ =>
      have hout := (htracked.live handle).mp hp
      refine ⟨iff_of_false nofun fun hnone => hnone handle hout, ?_, nofun⟩
      rintro _ ⟨⟩
      exact hout
    | blocked hp hq hchannel =>
      refine ⟨iff_of_false nofun (mt hempty.mpr hp), nofun, fun _ => ?_⟩
      obtain ⟨handle, hlive⟩ := List.exists_mem_of_ne_nil _ hp
      rcases (hwait.sound htracked.sound).pledged handle (hq ▸ hlive) with hsent | hunsent
      · rw [hchannel] at hsent
        cases hsent
      · obtain ⟨t, ht, rfl, hcancelled⟩ := hunsent
        exact ⟨t, ht, (htracked.live t.handle).mp hlive, hcancelled⟩
  · rcases waited_await htracked.sound with ⟨hnone, hlive, _⟩ | ⟨handle, hsome, hwait⟩
    · exact iff_of_true hnone (hempty.mp hlive)
    · refine iff_of_false (by rw [hsome]; exact nofun) fun hnone => ?_
      cases hwait.answered_of with
      | tick hp _ => exact hnone handle ((htracked.live handle).mp hp)

/-- The first handle is cancelled after its timer checked, the third after its timer sent. -/
theorem safe_under_any_timing_of_late_cancels :
    let after : List Entry :=
      [.scheduled 3, .cancelled 3, .waited .blocked, .waited (.tick 2), .scheduled 4]
    ∃ p, History ([.scheduled 1, .scheduled 2] ++ .cancelled 1 :: after) p ∧
      .waited (.tick 1) ∉ after ∧ p.pending = 1 ∧ p.await.1 ≠ none := by
  intro after
  have blocked := ((((((((History.start.schedule 5).schedule 9).move (.check 1)).cancel 1).move
    (.send 1)).schedule 1).move (.check 3)).move (.send 3)).cancel 3 |>.wait (waited_receive _)
  have h := ((blocked.move (.check 2)).move (.send 2)).wait (waited_receive _) |>.schedule 7
  obtain ⟨hcancelled, _, _, _, _, hawait⟩ := safe_under_any_timing h
  refine ⟨_, h, hcancelled [.scheduled 1, .scheduled 2] after 1 rfl List.mem_cons_self, rfl, ?_⟩
  intro hnone
  exact hawait.mp hnone 4 ⟨_, [], rfl, List.not_mem_nil, List.not_mem_nil⟩

/-- A cancel does not reach a handle that is scheduled later: the handle is returned all the
same. -/
theorem returned_despite_early_cancel :
    let after : List Entry := [.scheduled 1, .waited (.tick 1)]
    ∃ p, History (.cancelled 1 :: after) p ∧ .waited (.tick 1) ∈ after := by
  intro after
  have sent := (((History.start.cancel 1).schedule 0).move (.check 1)).move (.send 1)
  exact ⟨_, sent.wait (waited_receive _), List.mem_cons_of_mem _ List.mem_cons_self⟩

end FiveStage.TimerPool
