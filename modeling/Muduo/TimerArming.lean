import Muduo.TimerLoop

/-!
# The timerfd is armed for the earliest timer

Between loop steps, if `timers_` is not empty,

    the last `resetTimerfd` was for `timers_.begin()`, and its event is still to come    (timerfd_armed)

`insert` keeps this whenever the earliest timer changes.  Inside `handleRead` the expiry has been
read, and `reset` arms the timerfd again, but only for a positive expiration.  With a positive clock
reading the timers left by `getExpired` are positive, so an earliest timer that is not has been
inserted by a callback, and that insertion armed the timerfd.
-/

namespace Muduo
namespace TimerLoop

open Transition

variable {T C : Type*} {s s' : TimerLoop T C} {timer : Nat} {now : Timestamp}

/-- The timerfd will tell of `e`. -/
def ArmedFor (s : TimerLoop T C) (e : Entry) : Prop :=
  s.queue.timerfd.expiration = some e.first ∧ s.queue.timerfd.Coming

/-- Inside `handleRead` only an earliest timer that `reset` would pass over has to be armed for. -/
def EarliestArmed (s : TimerLoop T C) : Prop :=
  ∀ e, s.queue.timers.toList.head? = some e →
    (s.reading.isSome → e.first.microSecondsSinceEpoch ≤ 0) → s.ArmedFor e

structure Armed (s : TimerLoop T C) : Prop where
  sound : Sound s []
  armed : EarliestArmed s

theorem armed_start (numCreated : Nat) : Armed (start numCreated : TimerLoop T C) := by
  refine ⟨sound_start numCreated, ?_⟩
  intro e he
  cases he

theorem EarliestArmed.of_queue (h : EarliestArmed s) (hqueue : s'.queue = s.queue)
    (hreading : s'.reading.isSome = s.reading.isSome) : EarliestArmed s' := by
  unfold EarliestArmed ArmedFor
  rw [hqueue, hreading]
  exact h

theorem EarliestArmed.addTimerInLoop (harmed : EarliestArmed s)
    (hs : s.addTimerInLoop timer now = some s') : EarliestArmed s' := by
  obtain ⟨queue, hq, rfl⟩ := Option.map_eq_some_iff.mp hs
  obtain ⟨t, ht, -⟩ := Option.map_eq_some_iff.mp hq
  intro e he hpos
  rcases TimerQueue.addTimerInLoop_earliest ht hq with ⟨hhead, hfd⟩ | ⟨hfd, e₀, e₁, hhead, hhead', hfirst⟩
  · cases hhead.symm.trans he
    unfold ArmedFor
    show queue.timerfd.expiration = _ ∧ queue.timerfd.Coming
    rw [hfd]
    exact ⟨rfl, Timerfd.coming_reset _ _ _⟩
  · cases hhead'.symm.trans he
    obtain ⟨hexp, hcoming⟩ := harmed e₀ hhead fun hr => hfirst ▸ hpos hr
    unfold ArmedFor
    show queue.timerfd.expiration = _ ∧ queue.timerfd.Coming
    rw [hfd, hfirst]
    exact ⟨hexp, hcoming⟩

variable [DecidableEq T]

theorem armed_callFunctor (h : Armed s) (hs : s.step (.callFunctor now) = some s') : Armed s' := by
  have hsound := sound_step s _ s' h.sound hs
  simp only [step] at hs
  split at hs
  · cases hs
  · next task functors hf =>
    split at hs
    · obtain ⟨loop, -, htask⟩ := Option.bind_eq_some_iff.mp hs
      cases task with
      | none =>
        cases htask
        exact ⟨hsound, h.armed.of_queue rfl rfl⟩
      | some timer =>
        have hloop : EarliestArmed { s with loop } := h.armed.of_queue rfl rfl
        exact ⟨hsound, hloop.addTimerInLoop htask⟩
    · cases hs

theorem armed_addTimer {cb : C} {when_ : Timestamp} {interval : Int} (h : Armed s)
    (hs : s.step (.addTimer timer cb when_ interval now) = some s') : Armed s' := by
  have hsound := sound_step s _ s' h.sound hs
  simp only [step] at hs
  split at hs
  · obtain ⟨s₁, hnew, hadd⟩ := Option.bind_eq_some_iff.mp hs
    have harmed : EarliestArmed s₁ := by
      obtain ⟨-, -, rfl⟩ := newTimer_eq_some hnew
      exact h.armed.of_queue rfl rfl
    exact ⟨hsound, harmed.addTimerInLoop hadd⟩
  · cases hs

/-- The timers left by `getExpired` are after a positive clock reading. -/
theorem armed_handleRead (h : Armed s) (hpos : 0 < now.microSecondsSinceEpoch)
    (hs : s.step (.handleRead now) = some s') : Armed s' := by
  have hsound := sound_step s _ s' h.sound hs
  obtain ⟨-, rfl⟩ := handleRead_eq_some hs
  obtain ⟨-, hleft⟩ := h.sound.getExpired now
  refine ⟨hsound, ?_⟩
  intro e he hle
  exfalso
  have hmem : e ∈ (s.queue.getExpired now).2.timers.toList := List.mem_of_head? he
  rw [hleft, List.mem_filter, decide_eq_true_eq, Timestamp.lt_iff] at hmem
  have := hle rfl
  omega

theorem armed_reset (h : Armed s) (hs : s.step (.reset now) = some s') : Armed s' := by
  have hsound := sound_step s _ s' h.sound hs
  obtain ⟨now₀, ran, objs, queue, hread, hdelete, hrearm, rfl⟩ := reset_eq_some hs
  obtain ⟨objs', hdelete', -, -, -, hheap⟩ := h.sound.deleteAll hread
  cases hdelete.symm.trans hdelete'
  refine ⟨hsound, ?_⟩
  intro e he _
  replace he : queue.timers.toList.head? = some e := he
  rw [TimerQueue.rearm_timers hrearm] at he
  have hmem := List.mem_of_head? he
  obtain ⟨t, ht, hexp⟩ := h.sound.entries e (List.mem_append_left _ hmem)
  have hhead : s.queue.timers.toList.head? = some ⟨t.expiration, e.second⟩ := by
    rw [he, hexp]
  have ht' : objs.heap e.second = some t := (hheap e hmem).trans ht
  unfold ArmedFor
  show queue.timerfd.expiration = _ ∧ queue.timerfd.Coming
  rcases (TimerQueue.rearm_of_head hhead ht' hrearm).2 with ⟨-, hfd⟩ | ⟨hle, hfd⟩
  · rw [hfd, ← hexp]
    exact ⟨rfl, Timerfd.coming_reset _ _ _⟩
  · rw [hfd]
    exact h.armed e he fun _ => hexp ▸ hle

/-- The clock is positive whenever `handleRead` reads it. -/
def PositiveClock (_ : TimerLoop T C) (a : TimerAction T C) : Prop :=
  ∀ now, a = .handleRead now → 0 < now.microSecondsSinceEpoch

theorem armed_step (s : TimerLoop T C) (a : TimerAction T C) (s' : TimerLoop T C) (h : Armed s)
    (hpos : PositiveClock s a) (hs : s.step a = some s') : Armed s' := by
  have hsound := sound_step s a s' h.sound hs
  cases a with
  | loop a =>
    simp only [step] at hs
    split at hs
    · obtain ⟨loop, -, rfl⟩ := Option.map_eq_some_iff.mp hs
      exact ⟨hsound, h.armed.of_queue rfl rfl⟩
    · cases hs
  | callFunctor now => exact armed_callFunctor h hs
  | newTimer t timer cb when_ interval =>
    simp only [step] at hs
    split at hs
    · obtain ⟨s₁, hnew, rfl⟩ := Option.map_eq_some_iff.mp hs
      obtain ⟨-, -, rfl⟩ := newTimer_eq_some hnew
      exact ⟨hsound, h.armed.of_queue rfl rfl⟩
    · cases hs
  | push t =>
    simp only [step] at hs
    split at hs
    · cases hs
    · obtain ⟨loop, -, rfl⟩ := Option.map_eq_some_iff.mp hs
      exact ⟨hsound, h.armed.of_queue rfl rfl⟩
  | addTimer timer cb when_ interval now => exact armed_addTimer h hs
  | handleRead now => exact armed_handleRead h (hpos now rfl) hs
  | runExpired =>
    obtain ⟨now, ran, it, rest, timer, hread, -, rfl⟩ := runExpired_eq_some hs
    refine ⟨hsound, h.armed.of_queue rfl ?_⟩
    rw [hread]
    rfl
  | reset now => exact armed_reset h hs
  | elapse =>
    cases hs
    refine ⟨hsound, fun e he hle => ?_⟩
    obtain ⟨hexp, hcoming⟩ := h.armed e he hle
    exact ⟨(Timerfd.expiration_elapse _).trans hexp, hcoming.elapse⟩
  | otherTimer =>
    cases hs
    exact ⟨hsound, h.armed.of_queue rfl rfl⟩

/-- **The timerfd is armed for the earliest timer.**  In every run with positive clock readings, in
every state outside `handleRead`, the last `resetTimerfd` was for the expiration of the timer at
`timers_.begin()`, and the timerfd has not elapsed since or nobody has read that it has. -/
theorem timerfd_armed (numCreated : Nat) (as : List (TimerAction T C)) (s : TimerLoop T C) (e : Entry)
    (hrun : run step (start numCreated) as = some s)
    (hpos : ∀ now, TimerAction.handleRead now ∈ as → 0 < now.microSecondsSinceEpoch)
    (hbetween : s.reading = none) (he : s.queue.timers.toList.head? = some e) :
    ∃ t, s.objs.heap e.second = some t ∧ s.queue.timerfd.expiration = some t.expiration ∧
      s.queue.timerfd.Coming := by
  have hall : AllSteps step PositiveClock (start numCreated) as := by
    apply allSteps_of_forall (G := fun a => ∀ now, a = TimerAction.handleRead now → _)
    rintro a ha now rfl
    exact hpos now ha
  have harmed := run_inv_of_allSteps armed_step (armed_start numCreated) hall hrun
  obtain ⟨t, ht, hexp⟩ :=
    harmed.sound.entries e (List.mem_append_left _ (List.mem_of_head? he))
  obtain ⟨hlast, hcoming⟩ := harmed.armed e he fun hr => by simp [hbetween] at hr
  exact ⟨t, ht, hexp ▸ hlast, hcoming⟩

/-- A callback adds a timer before the epoch, which `reset` passes over. -/
theorem timerfd_armed_run :
    ∃ s : TimerLoop Bool Nat,
      run step (start 0)
        [.addTimer 32 8 ⟨200⟩ 0 ⟨100⟩, .addTimer 48 9 ⟨900⟩ 0 ⟨100⟩, .loop .enterLoop,
          .loop .resetQuit, .loop .testQuit, .elapse, .loop (.pollReturns false),
          .handleRead ⟨250⟩, .runExpired, .addTimer 16 5 ⟨-4⟩ 0 ⟨260⟩, .reset ⟨270⟩] = some s ∧
      s.queue.timers.toList.head? = some ⟨⟨-4⟩, 16⟩ ∧
      s.queue.timerfd.expiration = some ⟨-4⟩ ∧ s.queue.timerfd.Coming := by
  refine exists_run_eq
    (fun s => (s.reading.isNone, s.queue.timers.toList.head?,
      (s.objs.heap 16).map Timer.expiration))
    (true, some ⟨⟨-4⟩, 16⟩, some ⟨-4⟩) (by decide +kernel) fun s hs hf => ?_
  simp only [Prod.mk.injEq, Option.isNone_iff_eq_none] at hf
  obtain ⟨hread, hhead, hheap⟩ := hf
  obtain ⟨t, ht, hlast, hcoming⟩ := timerfd_armed 0 _ s _ hs (by
    intro now hnow
    simp only [List.mem_cons, TimerAction.handleRead.injEq, reduceCtorEq, false_or, or_false,
      List.not_mem_nil] at hnow
    rw [hnow]
    decide) hread hhead
  refine ⟨hhead, ?_, hcoming⟩
  rw [ht, Option.map_some] at hheap
  rw [hlast, hheap]

end TimerLoop
end Muduo
