import Mathlib.Data.List.Induction
import FiveStage.Proofs.Ticks.Deliveries
import FiveStage.Tick.Queue

/-!
# Ticks fired in order

The host keeps the same account of its queue as the owner of timers does, only that a fire answers
at once. Handles are issued in rising order and wait in that order, so the ones that were fired and
then the ones that wait are one rising row. Hence a fire returns the least outstanding handle.
-/
namespace FiveStage

/-- A fire is a wait that is never blocked. -/
def Delivery.ofOption : Option TickHandle → Delivery
  | some handle => .tick handle
  | none => .nothing

def TimerPool.Entry.scheduled? : TimerPool.Entry → Option TickHandle
  | scheduled handle => some handle
  | _ => none

namespace TickQueue

open TimerPool (Entry Outstanding outstanding_concat concat_eq_iff)

/-- What the host asks of its queue. -/
inductive Call
  | schedule (delay : Nat)
  | cancel (handle : TickHandle)
  | fire
  deriving DecidableEq, Repr

def Call.isSchedule : Call → Bool
  | schedule _ => true
  | _ => false

/-- Performs a call and answers the entry for it. -/
def perform (q : TickQueue) : Call → Entry × TickQueue
  | .schedule delay =>
    let (handle, q) := TickSource.schedule q delay
    (.scheduled handle, q)
  | .cancel handle => (.cancelled handle, TickSource.cancel q handle)
  | .fire => (.waited (.ofOption q.fire.1), q.fire.2)

/-- Performs a call and adds the entry for it to the account. -/
def record (run : List Entry × TickQueue) (call : Call) : List Entry × TickQueue :=
  (run.1 ++ [(run.2.perform call).1], (run.2.perform call).2)

/-- The account of the calls on a new queue, and the queue after them. -/
def ofCalls (calls : List Call) : List Entry × TickQueue := calls.foldl record ([], {})

theorem ofCalls_concat (calls : List Call) (call : Call) :
    ofCalls (calls ++ [call]) = record (ofCalls calls) call :=
  List.foldl_concat ..

/-- What a call does. -/
inductive Performed (q : TickQueue) : Entry → TickQueue → Prop
  | scheduled : Performed q (.scheduled (q.issued + 1))
      { issued := q.issued + 1, waiting := q.waiting ++ [q.issued + 1] }
  | cancelled (handle : TickHandle) : Performed q (.cancelled handle) (q.cancel handle)
  | fired {handle : TickHandle} {rest : List TickHandle} (hq : q.waiting = handle :: rest) :
      Performed q (.waited (.tick handle)) { q with waiting := rest }
  | nothing (hq : q.waiting = []) : Performed q (.waited .nothing) q

theorem performed_perform (q : TickQueue) (call : Call) :
    q.Performed (q.perform call).1 (q.perform call).2 := by
  cases call with
  | schedule delay => exact .scheduled
  | cancel handle => exact .cancelled handle
  | fire =>
    obtain ⟨issued, _ | ⟨handle, rest⟩⟩ := q
    · exact .nothing rfl
    · exact .fired rfl

theorem issued_ofCalls (calls : List Call) :
    (ofCalls calls).2.issued = calls.countP Call.isSchedule := by
  induction calls using List.reverseRecOn with
  | nil => rfl
  | append_singleton calls call ih =>
    rw [ofCalls_concat, List.countP_append, ← ih]
    cases call <;> rfl

section Calls

variable {q r : TickQueue} {e : Entry}

theorem Performed.issued (h : q.Performed e r) :
    (e.scheduled? = none ∧ r.issued = q.issued) ∨
      (e.scheduled? = some (q.issued + 1) ∧ r.issued = q.issued + 1) := by
  cases h with
  | scheduled => exact .inr ⟨rfl, rfl⟩
  | cancelled _ => exact .inl ⟨rfl, rfl⟩
  | fired _ => exact .inl ⟨rfl, rfl⟩
  | nothing _ => exact .inl ⟨rfl, rfl⟩

theorem Performed.issued_le (h : q.Performed e r) : q.issued ≤ r.issued := by
  rcases h.issued with ⟨_, hissued⟩ | ⟨_, hissued⟩
  · exact Nat.le_of_eq hissued.symm
  · exact hissued ▸ Nat.le_succ _

/-- A fire takes the first handle off the queue, and a cancel takes one from anywhere. -/
theorem Performed.sublist (h : q.Performed e r) :
    (e.delivered?.toList ++ r.waiting).Sublist (q.waiting ++ e.scheduled?.toList) := by
  cases h with
  | scheduled => exact .refl _
  | cancelled handle => exact List.filter_sublist.trans (List.sublist_append_left _ _)
  | @fired handle rest hq =>
    rw [hq]
    exact List.sublist_append_left (handle :: rest) []
  | nothing _ => exact List.sublist_append_left q.waiting []

/-- A queue without repetitions keeps what is neither cancelled nor fired. -/
theorem Performed.mem_waiting_iff (h : q.Performed e r) (hnodup : q.waiting.Nodup)
    (handle : TickHandle) : handle ∈ r.waiting ↔ e = .scheduled handle ∨
      handle ∈ q.waiting ∧ e ≠ .cancelled handle ∧ e ≠ .waited (.tick handle) := by
  cases h with
  | scheduled => simp [@eq_comm _ handle, or_comm]
  | cancelled other => simp [cancel, @eq_comm _ handle]
  | @fired first rest hq =>
    rw [hq, List.nodup_cons] at hnodup
    rw [hq, List.mem_cons]
    constructor
    · intro hin
      refine .inr ⟨.inr hin, ?_, ?_⟩
      · intro hcancelled
        cases hcancelled
      · rintro ⟨⟩
        exact hnodup.1 hin
    · rintro (hnew | ⟨rfl | hin, _, hnot⟩)
      · cases hnew
      · exact absurd rfl hnot
      · exact hin
  | nothing hq => simp [hq]

theorem Performed.mem_of_fired (h : q.Performed e r) {handle : TickHandle}
    (he : e = .waited (.tick handle)) : handle ∈ q.waiting := by
  subst he
  cases h with
  | fired hq => exact hq ▸ List.mem_cons_self

end Calls

/-- What the account says about the queue. -/
structure Tracked (past : List Entry) (q : TickQueue) : Prop where
  scheduled : past.filterMap Entry.scheduled? = List.range' 1 q.issued
  /-- What was fired and then what waits: a fire only moves the cut between the two. -/
  rising : (past.filterMap Entry.delivered? ++ q.waiting).Pairwise (· < ·)
  issued : ∀ handle ∈ past.filterMap Entry.delivered? ++ q.waiting, handle ≤ q.issued
  waiting : ∀ handle, handle ∈ q.waiting ↔ Outstanding past handle
  /-- What was cancelled after it was issued is gone for good. -/
  cancelled : ∀ before after handle, past = before ++ .cancelled handle :: after →
    .scheduled handle ∈ before → .waited (.tick handle) ∉ after ∧ handle ∉ q.waiting

section Tracked

variable {past : List Entry} {q r : TickQueue} {e : Entry}

theorem Tracked.sorted (h : Tracked past q) : q.waiting.Pairwise (· < ·) :=
  (List.pairwise_append.mp h.rising).2.1

theorem Tracked.le_issued (h : Tracked past q) {handle : TickHandle}
    (hin : .scheduled handle ∈ past) : handle ≤ q.issued := by
  have hscheduled : handle ∈ past.filterMap Entry.scheduled? :=
    List.mem_filterMap.mpr ⟨_, hin, rfl⟩
  rw [h.scheduled, List.mem_range'_1] at hscheduled
  exact Nat.le_of_lt_add_one (Nat.add_comm 1 _ ▸ hscheduled.2)

/-- The row of what was fired and what waits loses some handles and gains the scheduled one. -/
theorem Tracked.row_sublist (he : q.Performed e r) :
    ((past ++ [e]).filterMap Entry.delivered? ++ r.waiting).Sublist
      (past.filterMap Entry.delivered? ++ q.waiting ++ e.scheduled?.toList) := by
  have hlast : [e].filterMap Entry.delivered? = e.delivered?.toList := by
    cases h : e.delivered? <;> simp [h]
  rw [List.filterMap_append, hlast, List.append_assoc, List.append_assoc]
  exact he.sublist.append_left _

theorem Tracked.perform (h : Tracked past q) (he : q.Performed e r) : Tracked (past ++ [e]) r where
  scheduled := by
    rw [List.filterMap_append, h.scheduled]
    rcases he.issued with ⟨hnone, hissued⟩ | ⟨hsome, hissued⟩
    · rw [List.filterMap_cons_none hnone, hissued, List.filterMap_nil, List.append_nil]
    · rw [List.filterMap_cons_some hsome, hissued, List.range'_1_concat, Nat.add_comm 1]
      rfl
  rising := by
    refine List.Pairwise.sublist (row_sublist he) ?_
    rcases he.issued with ⟨hnone, _⟩ | ⟨hsome, _⟩
    · simpa [hnone] using h.rising
    · rw [hsome, Option.toList_some, List.pairwise_append]
      refine ⟨h.rising, List.pairwise_singleton _ _, fun handle hin next hnext => ?_⟩
      rw [List.mem_singleton.mp hnext]
      exact Nat.lt_succ_of_le (h.issued handle hin)
  issued handle hin := by
    rcases List.mem_append.mp ((row_sublist he).subset hin) with hold | hnew
    · exact Nat.le_trans (h.issued handle hold) he.issued_le
    · rcases he.issued with ⟨hnone, _⟩ | ⟨hsome, hissued⟩
      · simp [hnone] at hnew
      · rw [hsome, Option.toList_some, List.mem_singleton] at hnew
        exact Nat.le_of_eq (hnew.trans hissued.symm)
  waiting handle := by
    rw [outstanding_concat, he.mem_waiting_iff h.sorted.nodup, h.waiting]
  cancelled before after handle hsplit hscheduled := by
    -- Either the last entry is the cancel, or the cancel is older.
    rcases concat_eq_iff.mp hsplit with ⟨rfl, rfl, rfl⟩ | ⟨earlier, rfl, rfl⟩
    · cases he with
      | cancelled => exact ⟨List.not_mem_nil, q.not_mem_cancel handle⟩
    · obtain ⟨hearlier, hgone⟩ := h.cancelled before earlier handle rfl hscheduled
      refine ⟨?_, fun hin => ?_⟩
      · rw [List.mem_append, List.mem_singleton, not_or]
        exact ⟨hearlier, fun hnow => hgone (he.mem_of_fired hnow.symm)⟩
      · rcases (he.mem_waiting_iff h.sorted.nodup handle).mp hin with hnew | ⟨hold, _⟩
        · -- What is scheduled now was not issued when it was cancelled.
          have hle := h.le_issued (List.mem_append_left _ hscheduled)
          subst hnew
          cases he
          exact absurd hle (Nat.not_succ_le_self _)
        · exact hgone hold

theorem tracked_ofCalls (calls : List Call) : Tracked (ofCalls calls).1 (ofCalls calls).2 := by
  induction calls using List.reverseRecOn with
  | nil =>
    refine ⟨rfl, .nil, nofun, fun handle => iff_of_false List.not_mem_nil ?_, ?_⟩
    · rintro ⟨before, after, hsplit, _⟩
      cases before <;> cases hsplit
    · intro before after handle hsplit
      cases before <;> cases hsplit
  | append_singleton calls call ih =>
    rw [ofCalls_concat]
    exact ih.perform (performed_perform _ call)

/-- A sorted queue has its least handle at the front. -/
theorem fire_eq_some_iff (hsorted : q.waiting.Pairwise (· < ·)) {handle : TickHandle} :
    q.fire.1 = some handle ↔
      handle ∈ q.waiting ∧ ∀ other ∈ q.waiting, handle ≤ other := by
  show q.waiting.head? = some handle ↔ _
  cases hq : q.waiting with
  | nil => exact iff_of_false nofun fun h => absurd h.1 List.not_mem_nil
  | cons first rest =>
    rw [hq, List.pairwise_cons] at hsorted
    rw [List.head?_cons, Option.some.injEq]
    constructor
    · rintro rfl
      refine ⟨List.mem_cons_self, List.forall_mem_cons.mpr ⟨Nat.le_refl _, ?_⟩⟩
      exact fun other hother => Nat.le_of_lt (hsorted.1 other hother)
    · rintro ⟨hin, hleast⟩
      rcases List.mem_cons.mp hin with rfl | hrest
      · rfl
      · have hlt := hsorted.1 handle hrest
        exact absurd hlt (Nat.not_lt_of_le (hleast first List.mem_cons_self))

theorem fire_eq_none_iff : q.fire.1 = none ↔ ∀ handle, handle ∉ q.waiting := by
  show q.waiting.head? = none ↔ _
  rw [List.head?_eq_none_iff, List.eq_nil_iff_forall_not_mem]

theorem cancel_of_not_mem {handle : TickHandle} (h : handle ∉ q.waiting) :
    q.cancel handle = q := by
  have hkeep : q.waiting.filter (· != handle) = q.waiting := by
    rw [List.filter_eq_self]
    intro other hother
    have hne : other ≠ handle := fun heq => h (heq ▸ hother)
    simpa using hne
  rw [cancel, hkeep]

end Tracked

/-- After any calls on a new queue: the handles were issued from 1 on without a gap, and those that
were fired rise. The next fire returns the least handle that was scheduled and, since then, neither
cancelled nor fired, and none exactly when there is no such handle. A handle that was cancelled
after it was scheduled was not fired later. As many handles are pending as are outstanding, and to
cancel any other one changes nothing. -/
theorem fires_least_outstanding (calls : List Call) :
    let past := (ofCalls calls).1
    let q := (ofCalls calls).2
    past.filterMap Entry.scheduled? = List.range' 1 (calls.countP Call.isSchedule) ∧
      (past.filterMap Entry.delivered?).Pairwise (· < ·) ∧
      (∀ handle, q.fire.1 = some handle ↔
        Outstanding past handle ∧ ∀ other, Outstanding past other → handle ≤ other) ∧
      (q.fire.1 = none ↔ ∀ handle, ¬ Outstanding past handle) ∧
      (∀ before after handle, past = before ++ .cancelled handle :: after →
        .scheduled handle ∈ before → .waited (.tick handle) ∉ after) ∧
      (∃ handles : List TickHandle, handles.Nodup ∧
        (∀ handle, handle ∈ handles ↔ Outstanding past handle) ∧ q.pending = handles.length) ∧
      ∀ handle, ¬ Outstanding past handle → q.cancel handle = q := by
  intro past q
  have h : Tracked past q := tracked_ofCalls calls
  refine ⟨?_, (List.pairwise_append.mp h.rising).1, fun handle => ?_, ?_,
    fun _ _ _ hsplit hscheduled => (h.cancelled _ _ _ hsplit hscheduled).1,
    ⟨q.waiting, h.sorted.nodup, h.waiting, rfl⟩, fun handle hnot => ?_⟩
  · rw [← issued_ofCalls]
    exact h.scheduled
  · simp only [fire_eq_some_iff h.sorted, h.waiting]
  · simp only [fire_eq_none_iff, h.waiting]
  · exact cancel_of_not_mem (mt (h.waiting handle).mp hnot)

/-- The first handle is cancelled twice, a handle is cancelled that was never issued, and the second
one is cancelled after it was fired. -/
theorem fires_least_outstanding_after_stray_cancels :
    let calls : List Call :=
      [.schedule 5, .schedule 0, .cancel 1, .cancel 1, .cancel 9, .schedule 7, .fire, .cancel 2,
       .schedule 1]
    let after : List Entry :=
      [.cancelled 1, .cancelled 9, .scheduled 3, .waited (.tick 2), .cancelled 2, .scheduled 4]
    let past := (ofCalls calls).1
    let q := (ofCalls calls).2
    past = [.scheduled 1, .scheduled 2] ++ .cancelled 1 :: after ∧ .waited (.tick 1) ∉ after ∧
      Outstanding past 3 ∧ ¬ Outstanding past 2 ∧ q.cancel 2 = q ∧ q.pending = 2 := by
  intro calls after past q
  have hpast : past = [.scheduled 1, .scheduled 2] ++ .cancelled 1 :: after := rfl
  obtain ⟨_, _, hfire, _, hcancelled, _, hstray⟩ := fires_least_outstanding calls
  obtain ⟨hthree, hleast⟩ := (hfire 3).mp rfl
  have htwo : ¬ Outstanding past 2 := fun hout => absurd (hleast 2 hout) (by decide)
  exact ⟨hpast, hcancelled _ _ 1 hpast List.mem_cons_self, hthree, htwo, hstray 2 htwo, rfl⟩

/-- A cancel does not reach a handle that is scheduled later: the handle is fired all the same. -/
theorem fired_despite_early_cancel :
    let after : List Entry := [.scheduled 1, .waited (.tick 1)]
    (ofCalls [.cancel 1, .schedule 0, .fire]).1 = .cancelled 1 :: after ∧
      .waited (.tick 1) ∈ after := by
  intro after
  exact ⟨rfl, List.mem_cons_of_mem _ List.mem_cons_self⟩

end TickQueue

end FiveStage
