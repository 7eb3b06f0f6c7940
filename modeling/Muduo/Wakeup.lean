import Muduo.EventLoop

/-!
# No lost wakeup

The loop must not wait in `epoll_wait` with a functor pending unless the eventfd is readable or
another thread is about to write it.

`queueInLoop` writes the eventfd when another thread calls it and when a functor being called
calls it.  What the loop thread pushes in a handler is swapped out before the next wait.  Two
places are left out: the loop thread before `loop()`, and the destructors of a batch, which run
after `callingPendingFunctors_ = false`.  A functor pushed there waits out the poll
(`lost_wakeup_before_loop`).

    every push of the loop thread made in a handler or a functor, or while a wakeup is under way
      ⇒ no lost wakeup                                                       (no_lost_wakeup)

and from every push that does not meet the condition the loop thread alone goes on to lose it.
-/

namespace Muduo
namespace EventLoop

open Transition

variable {T F : Type*}

/-- The eventfd is readable, or another thread is between its push and its `wakeup()`. -/
def WakeupUnderWay (s : EventLoop T F) : Prop :=
  0 < s.wakeupFd ∨ ∃ t, s.caller t = .pushed

/-- Waiting in `epoll_wait` with a functor pending, the loop is woken. -/
def NoLostWakeup (s : EventLoop T F) : Prop :=
  s.pc = .polling → s.pendingFunctors ≠ [] → WakeupUnderWay s

/-- The condition on a step: `queueInLoop` on the loop thread is called by a handler or a functor,
or while a wakeup is under way. -/
def QueuesInTime (s : EventLoop T F) : LoopAction T F → Prop
  | .loopQueueInLoop _ => s.pc = .handling ∨ s.pc = .running ∨ WakeupUnderWay s
  | _ => True

/-- The invariant: a pending functor has a wakeup under way, or the loop is on its way to the
swap. -/
structure Wakeful (s : EventLoop T F) : Prop extends Consistent s where
  pending : s.pendingFunctors ≠ [] → WakeupUnderWay s ∨ s.pc = .handling ∨ s.pc = .swapping

theorem Wakeful.noLostWakeup {s : EventLoop T F} (hs : Wakeful s) : NoLostWakeup s := by
  intro hpc hne
  rcases hs.pending hne with hway | hpc' | hpc'
  · exact hway
  · rw [hpc] at hpc'
    cases hpc'
  · rw [hpc] at hpc'
    cases hpc'

variable [DecidableEq T]

/-! ## Steps -/

/-- A thread that is not in `queueInLoop` does not take part in the wakeups under way. -/
theorem WakeupUnderWay.update {s s' : EventLoop T F} (h : WakeupUnderWay s) {t : T} {pc : CallerPc}
    (hidle : s.caller t = .idle) (hfd : s'.wakeupFd = s.wakeupFd)
    (hcaller : s'.caller = Function.update s.caller t pc) : WakeupUnderWay s' := by
  rcases h with hpos | ⟨t', ht'⟩
  · exact Or.inl (hfd ▸ hpos)
  · have hne : t' ≠ t := by
      rintro rfl
      rw [hidle] at ht'
      cases ht'
    exact Or.inr ⟨t', by rw [hcaller, Function.update_of_ne hne, ht']⟩

theorem wakeful_step (s : EventLoop T F) (a : LoopAction T F) (s' : EventLoop T F)
    (hs : Wakeful s) (hg : QueuesInTime s a) (h : s.step a = some s') : Wakeful s' := by
  refine ⟨consistent_step s a s' hs.toConsistent h, ?_⟩
  obtain ⟨he, rfl⟩ := step_eq_some.mp h
  have hpending := hs.pending
  cases a with
  | queueInLoop t cb =>
    intro _
    exact Or.inl (Or.inr ⟨t, by simp [next]⟩)
  | wakeup t =>
    intro _
    exact Or.inl (Or.inl (eventfdWrite_pos _))
  | quit t =>
    intro hne
    simp only [enabled, beq_iff_eq] at he
    rcases hpending hne with hway | hpc
    · exact Or.inl (hway.update he rfl rfl)
    · exact Or.inr hpc
  | loopQueueInLoop cb =>
    intro _
    rcases hg with hpc | hpc | hway
    · exact Or.inr (Or.inl hpc)
    · have hcalling : s.callingPendingFunctors = true := hs.calling.mpr (Or.inr hpc)
      refine Or.inl (Or.inl ?_)
      simp only [next, hcalling, if_true]
      exact eventfdWrite_pos _
    · refine Or.inl ?_
      rcases hway with hpos | hpushed
      · refine Or.inl ?_
        simp only [next]
        split
        · exact eventfdWrite_pos _
        · exact hpos
      · exact Or.inr hpushed
  | swapFunctors =>
    intro hne
    exact absurd rfl hne
  | handleRead =>
    intro _
    simp only [enabled, Bool.and_eq_true, beq_iff_eq] at he
    exact Or.inr (Or.inl he.1)
  | pollReturns wakeupActive =>
    intro _
    exact Or.inr (Or.inl rfl)
  | beginFunctors =>
    intro _
    exact Or.inr (Or.inr rfl)
  | loopQuit => exact hpending
  | callFunctor => exact hpending
  | enterLoop | resetQuit | testQuit | destroyFunctors =>
    intro hne
    simp only [enabled, beq_iff_eq] at he
    rcases hpending hne with hway | hpc | hpc
    · exact Or.inl hway
    · rw [he] at hpc
      cases hpc
    · rw [he] at hpc
      cases hpc
  | endFunctors =>
    intro hne
    simp only [enabled, Bool.and_eq_true, beq_iff_eq] at he
    rcases hpending hne with hway | hpc | hpc
    · exact Or.inl hway
    · rw [he.1] at hpc
      cases hpc
    · rw [he.1] at hpc
      cases hpc

/-! ## The condition is exact -/

/-- What the loop thread does next after a push outside `loop()`. -/
def toPollFromOutside : List (LoopAction T F) := [.enterLoop, .resetQuit, .testQuit]

/-- From outside `loop()` the loop thread comes to `epoll_wait` without looking at the functors. -/
theorem run_toPollFromOutside {s : EventLoop T F} (hpc : s.pc = .outside) :
    run step s toPollFromOutside = some { s with pc := .polling, quit := false } := by
  simp [toPollFromOutside, step, enabled, next, hpc]

/-- So it does from the end of a batch, when need be by way of a second call of `loop()`. -/
theorem exists_run_toPoll {s : EventLoop T F} (hpc : s.pc = .outside ∨ s.pc = .leaving) :
    ∃ as, run step s as = some { s with pc := .polling, quit := false } := by
  rcases hpc with hpc | hpc
  · exact ⟨_, run_toPollFromOutside hpc⟩
  · cases hquit : s.quit
    · refine ⟨[.destroyFunctors, .testQuit], ?_⟩
      simp [step, enabled, next, hpc, hquit]
    · have hout : run step s [.destroyFunctors, .testQuit] = some { s with pc := .outside } := by
        simp [step, enabled, next, hpc, hquit]
      exact ⟨_, run_append_of_eq_some hout (run_toPollFromOutside rfl)⟩

theorem exists_lost_wakeup {s s' : EventLoop T F} {a : LoopAction T F} (hs : Consistent s)
    (hg : ¬ QueuesInTime s a) (h : s.step a = some s') :
    ∃ as t, run step s' as = some t ∧ ¬ NoLostWakeup t := by
  obtain ⟨he, rfl⟩ := step_eq_some.mp h
  cases a with
  | loopQueueInLoop cb =>
    simp only [QueuesInTime, not_or] at hg
    obtain ⟨hhandling, hrunning, hway⟩ := hg
    have hpc : s.pc = .outside ∨ s.pc = .leaving := by
      simp only [enabled, LoopPc.runsUserCode, Bool.or_eq_true, beq_iff_eq] at he
      rcases he with ((he | he) | he) | he
      · exact Or.inl he
      · exact absurd he hhandling
      · exact absurd he hrunning
      · exact Or.inr he
    have hcalling : s.callingPendingFunctors = false := by
      rw [Bool.eq_false_iff, Ne, hs.calling]
      rcases hpc with hpc | hpc <;> simp [hpc]
    obtain ⟨as, has⟩ := exists_run_toPoll (s := s.next (.loopQueueInLoop cb)) hpc
    refine ⟨as, _, has, fun hlost => hway ?_⟩
    have := hlost rfl (by simp [next])
    simpa [WakeupUnderWay, next, hcalling] using this
  | queueInLoop | quit | wakeup | loopQuit | enterLoop | resetQuit | testQuit | pollReturns
  | handleRead | beginFunctors | swapFunctors | callFunctor | endFunctors | destroyFunctors =>
    exact absurd trivial hg

/-- **No lost wakeup.**  In every run whose pushes by the loop thread are made by a handler or a
functor, or while a wakeup is under way, the loop never waits in `epoll_wait` with a functor
pending and no wakeup under way; and any other push of the loop thread can be lost. -/
theorem no_lost_wakeup :
    (∀ (as : List (LoopAction T F)) (s : EventLoop T F), AllSteps step QueuesInTime new as →
        run step new as = some s → NoLostWakeup s) ∧
      ∀ (s s' : EventLoop T F) (a : LoopAction T F), Reachable step (· = new) s →
        ¬ QueuesInTime s a → s.step a = some s' →
          ∃ as t, run step s' as = some t ∧ ¬ NoLostWakeup t := by
  have hnew : Wakeful (new : EventLoop T F) := ⟨consistent_new, fun h => absurd rfl h⟩
  refine ⟨fun as s hall h => (run_inv_of_allSteps wakeful_step hnew hall h).noLostWakeup, ?_⟩
  intro s s' a hreach hg h
  refine exists_lost_wakeup ?_ hg h
  refine reachable_inv ?_ consistent_step hreach
  rintro _ rfl
  exact consistent_new

/-- A functor pushed by a functor wakes the loop before its next wait. -/
theorem no_lost_wakeup_run :
    ∃ s : EventLoop Unit Nat,
      run step new [.queueInLoop () 1, .wakeup (), .enterLoop, .resetQuit, .testQuit,
        .pollReturns true, .handleRead, .beginFunctors, .swapFunctors, .callFunctor,
        .loopQueueInLoop 2, .endFunctors, .destroyFunctors, .testQuit] = some s ∧
      s.pendingFunctors = [2] ∧ NoLostWakeup s := by
  refine exists_run rfl fun s hs => ⟨?_, no_lost_wakeup.1 _ s ?_ hs⟩
  · cases hs
    rfl
  · simp [AllSteps, QueuesInTime, step, enabled, next, new, LoopPc.runsUserCode, eventfdWrite]

/-- A functor queued on the loop thread before `loop()`: the loop waits with the functor pending,
the eventfd at zero and nobody about to write it. -/
theorem lost_wakeup_before_loop :
    ∃ s : EventLoop Unit Nat,
      run step new [.loopQueueInLoop 1, .enterLoop, .resetQuit, .testQuit] = some s ∧
      s.pc = .polling ∧ s.pendingFunctors = [1] ∧ ¬ NoLostWakeup s := by
  refine exists_run rfl fun s hs => ?_
  cases hs
  refine ⟨rfl, rfl, fun h => ?_⟩
  rcases h rfl (List.cons_ne_nil 1 []) with hpos | ⟨t, ht⟩
  · exact absurd hpos (by decide)
  · cases ht

end EventLoop
end Muduo
