import Mathlib.Data.List.Nodup
import Mathlib.Data.List.TakeWhile
import FiveStage.Tick.TimerPool

/-!
# Timers that go their own pace

A timer checks whether it was cancelled and sends its handle later, so a handle may be cancelled in
between, or after it was sent. Whatever the order of the steps, a live handle has a timer that will
send it or is in the channel, and only live handles are delivered.
-/
namespace FiveStage

/-- A check lets a timer go on that was not cancelled. -/
theorem Timer.afterCheck_of_not_cancelled {t : Timer} (handle : TickHandle)
    (hcancelled : t.cancelled = false) : ∃ u, t.afterCheck handle = some u ∧
      u.handle = t.handle ∧ u.cancelled = false ∧ (t.handle = handle → u.checked = true) := by
  by_cases hdue : t.handle = handle ∧ t.checked = false
  · refine ⟨{ t with checked := true }, ?_, rfl, hcancelled, fun _ => rfl⟩
    rw [afterCheck, if_pos hdue, if_neg (by simp [hcancelled])]
  · exact ⟨t, if_neg hdue, rfl, hcancelled, fun h => by simpa [h] using hdue⟩

namespace TimerPool

/-- What holds of the timers and the channel between any two steps. -/
structure Sound (p : TimerPool) : Prop where
  nodup : p.live.Nodup
  issued : ∀ h ∈ p.live, h ≤ p.issued
  /-- A live handle was sent, or its timer is going to send it. -/
  pledged : ∀ h ∈ p.live, h ∈ p.channel ∨ ∃ t ∈ p.timers, t.handle = h ∧ t.cancelled = false

section Steps

variable {p : TimerPool}

theorem sound_empty : ({} : TimerPool).Sound := ⟨.nil, nofun, nofun⟩

theorem Sound.schedule (hp : p.Sound) (delay : Nat) : (p.schedule delay).2.Sound where
  nodup := by
    refine List.nodup_append.mpr ⟨hp.nodup, List.nodup_singleton _, ?_⟩
    rintro a ha b hb rfl
    rw [List.mem_singleton.mp hb] at ha
    exact Nat.not_succ_le_self _ (hp.issued _ ha)
  issued h hin := by
    rcases List.mem_append.mp hin with hold | hnew
    · exact Nat.le_succ_of_le (hp.issued h hold)
    · exact Nat.le_of_eq (List.mem_singleton.mp hnew)
  pledged h hin := by
    rcases List.mem_append.mp hin with hold | hnew
    · refine (hp.pledged h hold).imp_right ?_
      rintro ⟨t, ht, hhandle⟩
      exact ⟨t, List.mem_append_left _ ht, hhandle⟩
    · refine .inr ⟨_, List.mem_append_right _ (List.mem_singleton_self _), ?_, rfl⟩
      exact (List.mem_singleton.mp hnew).symm

theorem mem_live_cancel {h handle : TickHandle} :
    h ∈ (p.cancel handle).live ↔ h ∈ p.live ∧ h ≠ handle := by
  unfold cancel
  split
  · simp [List.mem_filter]
  · next hdead =>
    refine ⟨fun hin => ⟨hin, ?_⟩, And.left⟩
    rintro rfl
    exact hdead hin

/-- A cancelled timer is not that of another handle. -/
theorem Sound.cancel (hp : p.Sound) (handle : TickHandle) : (p.cancel handle).Sound := by
  have hlive (h : TickHandle) (hin : h ∈ (p.cancel handle).live) := mem_live_cancel.mp hin
  unfold TimerPool.cancel at hlive ⊢
  split
  · next hin =>
    rw [if_pos hin] at hlive
    refine ⟨hp.nodup.filter _, fun h hh => hp.issued h (hlive h hh).1, fun h hh => ?_⟩
    obtain ⟨hold, hne⟩ := hlive h hh
    refine (hp.pledged h hold).imp_right ?_
    rintro ⟨t, ht, rfl, hcancelled⟩
    have hkeep : t.markCancelled handle = t := if_neg hne
    exact ⟨t, List.mem_map.mpr ⟨t, ht, hkeep⟩, rfl, hcancelled⟩
  · exact hp

theorem mem_channel_send {t : Timer} {handle : TickHandle} (ht : t ∈ p.timers)
    (hsending : t.isSending handle = true) : handle ∈ (p.step (.send handle)).channel := by
  refine List.mem_append_right _ ?_
  rw [if_pos (List.any_eq_true.mpr ⟨t, ht, hsending⟩)]
  exact List.mem_singleton_self _

/-- A timer that was not cancelled goes on, or has sent its handle. -/
theorem pledged_step {h : TickHandle} (move : TimerStep)
    (hp : h ∈ p.channel ∨ ∃ t ∈ p.timers, t.handle = h ∧ t.cancelled = false) :
    h ∈ (p.step move).channel ∨
      ∃ t ∈ (p.step move).timers, t.handle = h ∧ t.cancelled = false := by
  -- The channel only grows, so what was sent stays sent.
  rcases hp with hsent | ⟨t, ht, rfl, hcancelled⟩
  · cases move with
    | check handle => exact .inl hsent
    | send handle => exact .inl (List.mem_append_left _ hsent)
  · cases move with
    | check handle =>
      obtain ⟨u, hafter, hhandle, hlive, _⟩ := Timer.afterCheck_of_not_cancelled handle hcancelled
      exact .inr ⟨u, List.mem_filterMap.mpr ⟨t, ht, hafter⟩, hhandle, hlive⟩
    | send handle =>
      by_cases hsending : t.isSending handle = true
      · have hsent := mem_channel_send ht hsending
        simp only [Timer.isSending, Bool.and_eq_true, beq_iff_eq] at hsending
        exact .inl (hsending.1 ▸ hsent)
      · exact .inr ⟨t, List.mem_filter.mpr ⟨ht, by simpa using hsending⟩, rfl, hcancelled⟩

@[simp] theorem live_step (move : TimerStep) : (p.step move).live = p.live := by cases move <;> rfl

@[simp] theorem issued_step (move : TimerStep) : (p.step move).issued = p.issued := by
  cases move <;> rfl

theorem Sound.step (hp : p.Sound) (move : TimerStep) : (p.step move).Sound where
  nodup := by simpa using hp.nodup
  issued := by simpa using hp.issued
  pledged h hin := pledged_step move (hp.pledged h (by simpa using hin))

@[simp] theorem live_steps (moves : List TimerStep) : (p.steps moves).live = p.live := by
  induction moves generalizing p with
  | nil => rfl
  | cons move rest ih => exact ih.trans (live_step move)

@[simp] theorem issued_steps (moves : List TimerStep) : (p.steps moves).issued = p.issued := by
  induction moves generalizing p with
  | nil => rfl
  | cons move rest ih => exact ih.trans (issued_step move)

theorem Sound.steps (hp : p.Sound) (moves : List TimerStep) : (p.steps moves).Sound := by
  induction moves generalizing p with
  | nil => exact hp
  | cons move rest ih => exact ih (hp.step move)

end Steps

section Waiting

/-- One pass of a wait: an answer, or none where the wait goes on, after a stale handle or with
nothing to read yet. -/
def readOnce (p : TimerPool) : Option Delivery × TimerPool :=
  if p.live.isEmpty then (some .nothing, p)
  else
    match p.channel with
    | [] => (none, p)
    | handle :: rest =>
      if handle ∈ p.live then
        (some (.tick handle), { p with live := p.live.filter (· != handle), channel := rest })
      else (none, { p with channel := rest })

/-- To receive is to pass until there is an answer or nothing left to read. -/
theorem receive_eq (p : TimerPool) : p.receive =
    match p.readOnce with
    | (some answer, q) => (answer, q)
    | (none, q) => if p.channel.isEmpty then (.blocked, q) else q.receive := by
  obtain ⟨issued, live, timers, channel⟩ := p
  unfold readOnce
  by_cases hlive : live.isEmpty = true
  · simp only [receive, if_pos hlive]
  · cases channel with
    | nil => simp only [receive, if_neg hlive, List.dropWhile_nil, List.isEmpty_nil, if_true]
    | cons handle rest =>
      by_cases hin : handle ∈ live
      · simp [receive, hlive, hin]
      · simp [receive, hlive, hin]

/-- What one pass finds. -/
inductive Passed (p : TimerPool) : Option Delivery → TimerPool → Prop
  | nothing (hlive : p.live = []) : Passed p (some .nothing) p
  | tick {handle : TickHandle} {rest : List TickHandle} (hchannel : p.channel = handle :: rest)
      (hlive : handle ∈ p.live) : Passed p (some (.tick handle))
        { p with live := p.live.filter (· != handle), channel := rest }
  | stale {handle : TickHandle} {rest : List TickHandle} (hchannel : p.channel = handle :: rest)
      (hlive : handle ∉ p.live) (hne : p.live ≠ []) : Passed p none { p with channel := rest }
  | unread (hchannel : p.channel = []) (hne : p.live ≠ []) : Passed p none p

theorem passed_readOnce (p : TimerPool) : p.Passed p.readOnce.1 p.readOnce.2 := by
  unfold readOnce
  split
  · next hlive => exact .nothing (List.isEmpty_iff.mp hlive)
  · next hlive =>
    have hne : p.live ≠ [] := mt List.isEmpty_iff.mpr hlive
    split
    · next hchannel => exact .unread hchannel hne
    · next handle rest hchannel =>
      split
      · next hin => exact .tick hchannel hin
      · next hin => exact .stale hchannel hin hne

/-- A wait is a row of passes with any steps of timers in between. It has not returned as long as
it is blocked. -/
inductive Waited : TimerPool → Delivery → TimerPool → Prop
  | answered {p q : TimerPool} {answer : Delivery} (h : p.Passed (some answer) q) :
      Waited p answer q
  | blocked {p : TimerPool} (hchannel : p.channel = []) (hne : p.live ≠ []) : Waited p .blocked p
  | goesOn {p q r : TimerPool} {answer : Delivery} (h : p.Passed none q) (moves : List TimerStep)
      (hrest : Waited (q.steps moves) answer r) : Waited p answer r

/-- The wait without any steps of timers. -/
theorem waited_receive (p : TimerPool) : p.Waited p.receive.1 p.receive.2 := by
  have hpass := p.passed_readOnce
  rw [receive_eq]
  rcases hread : p.readOnce with ⟨_ | answer, q⟩
  · rw [hread] at hpass
    cases hpass with
    | @stale handle rest hchannel hlive hne =>
      have hrest := waited_receive { p with channel := rest }
      rw [hchannel]
      exact .goesOn (.stale hchannel hlive hne) [] hrest
    | unread hchannel hne =>
      rw [hchannel]
      exact .blocked hchannel hne
  · rw [hread] at hpass
    exact .answered hpass
termination_by p.channel.length
decreasing_by
  rw [hchannel]
  exact Nat.lt_succ_self _

variable {p q : TimerPool} {answer : Delivery}

theorem Passed.sound {found : Option Delivery} (h : p.Passed found q) (hp : p.Sound) : q.Sound := by
  cases h with
  | nothing hlive => exact hp
  | @tick handle rest hchannel hlive =>
    have hin (k : TickHandle) (hk : k ∈ p.live.filter (· != handle)) : k ∈ p.live ∧ k ≠ handle := by
      simpa using hk
    refine ⟨hp.nodup.filter _, fun k hk => hp.issued k (hin k hk).1, fun k hk => ?_⟩
    refine (hp.pledged k (hin k hk).1).imp_left fun hsent => ?_
    rw [hchannel, List.mem_cons] at hsent
    exact hsent.resolve_left (hin k hk).2
  | @stale handle rest hchannel hlive hne =>
    refine ⟨hp.nodup, hp.issued, fun k hk => (hp.pledged k hk).imp_left fun hsent => ?_⟩
    rw [hchannel, List.mem_cons] at hsent
    refine hsent.resolve_left ?_
    rintro rfl
    exact hlive hk
  | unread hchannel hne => exact hp

theorem Waited.sound (h : p.Waited answer q) (hp : p.Sound) : q.Sound := by
  induction h with
  | answered hpass => exact hpass.sound hp
  | blocked _ _ => exact hp
  | goesOn hpass moves _ ih => exact ih ((hpass.sound hp).steps moves)

theorem Passed.issued {found : Option Delivery} (h : p.Passed found q) : q.issued = p.issued := by
  cases h <;> rfl

theorem Waited.issued (h : p.Waited answer q) : q.issued = p.issued := by
  induction h with
  | answered hpass => exact hpass.issued
  | blocked _ _ => rfl
  | goesOn hpass moves _ ih => rw [ih, issued_steps, hpass.issued]

/-- What a wait answers, and what it does to the live handles. -/
inductive Answered (p : TimerPool) : Delivery → TimerPool → Prop
  | nothing {q : TimerPool} (hp : p.live = []) (hq : q.live = []) : Answered p .nothing q
  | tick {q : TimerPool} {handle : TickHandle} (hp : handle ∈ p.live)
      (hq : q.live = p.live.filter (· != handle)) : Answered p (.tick handle) q
  | blocked {q : TimerPool} (hp : p.live ≠ []) (hq : q.live = p.live) (hchannel : q.channel = []) :
      Answered p .blocked q

theorem Waited.answered_of (h : p.Waited answer q) : p.Answered answer q := by
  induction h with
  | answered hpass =>
    cases hpass with
    | nothing hlive => exact .nothing hlive hlive
    | tick hchannel hlive => exact .tick hlive rfl
  | blocked hchannel hne => exact .blocked hne rfl hchannel
  | @goesOn p q r answer hpass moves _ ih =>
    have hlive : (q.steps moves).live = p.live := by
      rw [live_steps]
      cases hpass <;> rfl
    cases ih with
    | nothing hp hq => exact .nothing (hlive ▸ hp) hq
    | tick hp hq => exact .tick (hlive ▸ hp) (hlive ▸ hq)
    | blocked hp hq hchannel => exact .blocked (hlive ▸ hp) (hlive ▸ hq) hchannel

/-- A wait that is blocked goes on after any steps of timers. -/
theorem Waited.resume (h : p.Waited .blocked q) (moves : List TimerStep) {r : TimerPool}
    (hrest : (q.steps moves).Waited answer r) : p.Waited answer r := by
  generalize hblocked : Delivery.blocked = first at h
  induction h with
  | answered hpass => subst hblocked; cases hpass
  | blocked hchannel hne => exact .goesOn (.unread hchannel hne) moves hrest
  | goesOn hpass moves' _ ih => exact .goesOn hpass moves' (ih hrest hblocked)

theorem receive_of_sent {handle : TickHandle} (hsent : handle ∈ p.channel)
    (hlive : handle ∈ p.live) : ∃ first, p.receive.1 = .tick first := by
  have hne : ¬ p.live.isEmpty = true := by
    rw [List.isEmpty_iff]
    exact List.ne_nil_of_mem hlive
  have hfound : p.channel.dropWhile (fun k => !p.live.contains k) ≠ [] := by
    rw [Ne, List.dropWhile_eq_nil_iff]
    intro hstale
    simpa [hlive] using hstale handle hsent
  rw [receive, if_neg hne]
  cases hdrop : p.channel.dropWhile fun k => !p.live.contains k with
  | nil => exact absurd hdrop hfound
  | cons first rest => exact ⟨first, rfl⟩

/-- A timer that was not cancelled sends its handle if it is left to finish. -/
theorem mem_channel_finish {t : Timer} (ht : t ∈ p.timers) (hcancelled : t.cancelled = false) :
    t.handle ∈ (p.finish t.handle).channel := by
  obtain ⟨u, hafter, hhandle, _, hchecked⟩ :=
    Timer.afterCheck_of_not_cancelled t.handle hcancelled
  have hu : u ∈ (p.step (.check t.handle)).timers := List.mem_filterMap.mpr ⟨t, ht, hafter⟩
  exact mem_channel_send hu (by simp [Timer.isSending, hhandle, hchecked rfl])

theorem foldl_earlier_mem (t : Timer) (rest : List Timer) :
    rest.foldl Timer.earlier t ∈ t :: rest := by
  induction rest generalizing t with
  | nil => exact List.mem_singleton_self t
  | cons u rest ih =>
    have hfirst : t.earlier u ∈ [t, u] := by
      unfold Timer.earlier
      split <;> simp
    rcases List.mem_cons.mp (ih (t.earlier u)) with heq | hlater
    · rw [List.foldl_cons, heq]
      exact List.mem_append_left rest hfirst
    · exact List.mem_cons_of_mem _ (List.mem_cons_of_mem _ hlater)

theorem exists_earliest (hne : p.live ≠ [])
    (hpledged : ∀ h ∈ p.live, ∃ t ∈ p.timers, t.handle = h ∧ t.cancelled = false) :
    ∃ t ∈ p.timers, p.earliest? = some t ∧ t.handle ∈ p.live := by
  unfold earliest?
  cases hfilter : p.timers.filter fun t => p.live.contains t.handle with
  | nil =>
    obtain ⟨h, hh⟩ := List.exists_mem_of_ne_nil _ hne
    obtain ⟨t, ht, rfl, _⟩ := hpledged h hh
    exact absurd (by simpa using hh) (List.filter_eq_nil_iff.mp hfilter t ht)
  | cons t rest =>
    have hmem : rest.foldl Timer.earlier t ∈ p.timers.filter fun t => p.live.contains t.handle := by
      rw [hfilter]
      exact foldl_earlier_mem t rest
    obtain ⟨ht, hlive⟩ := List.mem_filter.mp hmem
    exact ⟨_, ht, rfl, by simpa using hlive⟩

/-- A wait whose first live timer is left to finish returns, and answers none only where nothing is
live. -/
theorem waited_await (hp : p.Sound) :
    (p.await.1 = none ∧ p.live = [] ∧ p.Waited .nothing p.await.2) ∨
      ∃ handle, p.await.1 = some handle ∧ p.Waited (.tick handle) p.await.2 := by
  have hwaited := p.waited_receive
  unfold await
  rcases hreceive : p.receive with ⟨handle | _ | _, q⟩
  · rw [hreceive] at hwaited
    exact .inr ⟨handle, rfl, hwaited⟩
  · rw [hreceive] at hwaited
    cases hwaited.answered_of with
    | nothing hlive _ => exact .inl ⟨rfl, hlive, hwaited⟩
  · rw [hreceive] at hwaited
    have hq := hwaited.sound hp
    cases hwaited.answered_of with
    | blocked hne hlive hchannel =>
      rw [← hlive] at hne
      -- Nothing is left to read, so every live handle still has a timer that will send it.
      have hunsent (h : TickHandle) (hh : h ∈ q.live) :
          ∃ t ∈ q.timers, t.handle = h ∧ t.cancelled = false := by
        refine (hq.pledged h hh).resolve_left ?_
        rw [hchannel]
        exact List.not_mem_nil
      obtain ⟨t, ht, hearliest, hin⟩ := exists_earliest hne hunsent
      obtain ⟨u, hu, hhandle, hcancelled⟩ := hunsent t.handle hin
      have hsent : t.handle ∈ (q.finish t.handle).channel :=
        hhandle ▸ mem_channel_finish hu hcancelled
      have hstill : t.handle ∈ (q.finish t.handle).live := by
        rw [finish, live_steps]
        exact hin
      obtain ⟨first, hfirst⟩ := receive_of_sent hsent hstill
      have hlast := (q.finish t.handle).waited_receive
      simp only [hearliest]
      rcases hagain : (q.finish t.handle).receive with ⟨answer, r⟩
      rw [hagain] at hfirst hlast
      obtain rfl : answer = .tick first := hfirst
      exact .inr ⟨first, rfl, hwaited.resume _ hlast⟩

end Waiting

end TimerPool

end FiveStage
