import Muduo.Wakeup
import Muduo.FunctorQueue

/-!
# One iteration of loop()

How long a functor and a quit request wait.

* `Served quota`: what has been pushed when `epoll_wait` returns is called in the same iteration, so that

      pushed before the return  ≤  called, when the loop tests quit_ or waits again     (pushed_served)

* `quit_` set while the loop waits has a wakeup under way, and once it is set the loop waits no further
  time (`quit_prompt`).
-/

namespace Muduo
namespace EventLoop

open Transition

variable {T F : Type*}

/-! ## Functors -/

/-- `quota` has been called, but for functors that this iteration is still to call. -/
def Served (quota : List F) (s : EventLoop T F) : Prop :=
  Consistent s ∧ (quota <+: s.ran ++ s.functors ∨
    (s.pc = .handling ∨ s.pc = .swapping) ∧ quota <+: s.ran ++ s.queue)

theorem Served.called {quota : List F} {s : EventLoop T F} (hs : Served quota s)
    (hpc : s.pc = .testing ∨ s.pc = .polling ∨ s.pc = .outside) : quota <+: s.ran := by
  obtain ⟨hcons, hquota | ⟨hbefore, -⟩⟩ := hs
  · have hbatch : s.functors = [] := hcons.batch (by rcases hpc with h | h | h <;> simp [h])
    rwa [hbatch, List.append_nil] at hquota
  · rcases hbefore with hbefore | hbefore
    · simp [hbefore] at hpc
    · simp [hbefore] at hpc

variable [DecidableEq T]

theorem served_step {quota : List F} (s : EventLoop T F) (a : LoopAction T F) (s' : EventLoop T F)
    (hs : Served quota s) (h : s.step a = some s') : Served quota s' := by
  obtain ⟨hcons, hquota⟩ := hs
  refine ⟨consistent_step s a s' hcons h, ?_⟩
  obtain ⟨he, rfl⟩ := step_eq_some.mp h
  -- steps that are not made in the two places before the swap
  have hpast : s.pc ≠ .handling → s.pc ≠ .swapping → quota <+: s.ran ++ s.functors := by
    intro hhandling hswapping
    rcases hquota with hquota | ⟨hpc | hpc, -⟩
    · exact hquota
    · exact absurd hpc hhandling
    · exact absurd hpc hswapping
  cases a with
  | queueInLoop t cb | loopQueueInLoop cb =>
    rcases hquota with hquota | ⟨hpc, hquota⟩
    · exact Or.inl hquota
    · refine Or.inr ⟨hpc, hquota.trans ?_⟩
      simp only [next, queue, ← List.append_assoc]
      exact List.prefix_append _ _
  | quit t => exact hquota
  | wakeup t => exact hquota
  | loopQuit => exact hquota
  | handleRead => exact hquota
  | enterLoop | resetQuit | testQuit | destroyFunctors =>
    simp only [enabled, beq_iff_eq] at he
    exact Or.inl (hpast (by simp [he]) (by simp [he]))
  | pollReturns wakeupActive =>
    simp only [enabled, Bool.and_eq_true, beq_iff_eq] at he
    exact Or.inl (hpast (by simp [he.1]) (by simp [he.1]))
  | beginFunctors =>
    rcases hquota with hquota | ⟨-, hquota⟩
    · exact Or.inl hquota
    · exact Or.inr ⟨Or.inr rfl, hquota⟩
  | swapFunctors =>
    -- the batch is everything that was pending
    simp only [enabled, beq_iff_eq] at he
    have hbatch : s.functors = [] := hcons.batch (by simp [he])
    rw [queue, hbatch, List.append_nil, List.nil_append] at hquota
    left
    rcases hquota with hquota | ⟨-, hquota⟩
    · exact hquota.trans (List.prefix_append _ _)
    · exact hquota
  | callFunctor =>
    simp only [enabled, Bool.and_eq_true, beq_iff_eq] at he
    left
    simp only [next]
    rw [List.append_assoc, List.take_append_drop]
    exact hpast (by simp [he.1]) (by simp [he.1])
  | endFunctors =>
    simp only [enabled, Bool.and_eq_true, beq_iff_eq] at he
    exact Or.inl (hpast (by simp [he.1]) (by simp [he.1]))

/-- **A functor waits for one `epoll_wait` at most.**  Whatever has been pushed, by any thread, when
`epoll_wait` returns has been called when the loop thread next comes to the test of `quit_`, waits again
or has left `loop()`. -/
theorem pushed_served (s s' t : EventLoop T F) (h : Reachable step (· = new) s) (wakeupActive : Bool)
    (hreturn : s.step (.pollReturns wakeupActive) = some s') (as : List (LoopAction T F))
    (hrun : run step s' as = some t)
    (hpc : t.pc = .testing ∨ t.pc = .polling ∨ t.pc = .outside) : s.pushed <+: t.ran := by
  have hord := ordered_of_reachable h
  have hcons := consistent_step s _ s' hord.toConsistent hreturn
  obtain ⟨-, rfl⟩ := step_eq_some.mp hreturn
  have hstart : Served s.pushed (s.next (.pollReturns wakeupActive)) := by
    refine ⟨hcons, Or.inr ⟨Or.inl rfl, ?_⟩⟩
    rw [← hord.history]
    exact List.prefix_rfl
  exact (run_inv served_step hstart hrun).called hpc

/-- A functor that is pushed while the loop waits, and one pushed by a handler. -/
theorem pushed_served_run :
    ∃ s s' t : EventLoop Unit Nat,
      (run step new [.enterLoop, .resetQuit, .testQuit, .queueInLoop () 1] = some s ∧
        s.step (.pollReturns false) = some s' ∧
        run step s' [.loopQueueInLoop 2, .beginFunctors, .swapFunctors, .callFunctor, .callFunctor,
          .endFunctors, .destroyFunctors, .testQuit] = some t) ∧
      s.pushed = [1] ∧ s.pushed <+: t.ran := by
  refine ⟨_, _, _, ⟨rfl, rfl, rfl⟩, rfl, ?_⟩
  exact pushed_served _ _ _
    ⟨new, [.enterLoop, .resetQuit, .testQuit, .queueInLoop () 1], rfl, rfl⟩ false rfl
    [.loopQueueInLoop 2, .beginFunctors, .swapFunctors, .callFunctor, .callFunctor, .endFunctors,
      .destroyFunctors, .testQuit] rfl (Or.inr (Or.inl rfl))

/-! ## Quit -/

/-- A quit request that the loop has not seen, while it waits, has a wakeup under way. -/
def QuitHeard (s : EventLoop T F) : Prop :=
  s.pc = .polling → s.quit = true → 0 < s.wakeupFd ∨ ∃ t, s.caller t = .quitting

theorem quitHeard_step (s : EventLoop T F) (a : LoopAction T F) (s' : EventLoop T F)
    (hs : QuitHeard s) (h : s.step a = some s') : QuitHeard s' := by
  obtain ⟨he, rfl⟩ := step_eq_some.mp h
  intro hpc hquit
  cases a with
  | queueInLoop t cb =>
    simp only [enabled, beq_iff_eq] at he
    rcases hs hpc hquit with hfd | ⟨t', ht'⟩
    · exact Or.inl hfd
    · refine Or.inr ⟨t', ?_⟩
      have hne : t' ≠ t := by
        rintro rfl
        rw [he] at ht'
        cases ht'
      simpa [next, hne] using ht'
  | quit t => exact Or.inr ⟨t, by simp [next]⟩
  | wakeup t => exact Or.inl (eventfdWrite_pos _)
  | testQuit =>
    -- the loop waits only if `quit_` was false
    simp only [next] at hpc hquit
    rw [hquit] at hpc
    cases hpc
  | loopQueueInLoop | loopQuit =>
    simp only [enabled, LoopPc.runsUserCode] at he
    simp only [next] at hpc
    rw [hpc] at he
    cases he
  | handleRead | callFunctor =>
    simp only [enabled, Bool.and_eq_true, beq_iff_eq] at he
    simp only [next] at hpc
    rw [hpc] at he
    cases he.1
  | enterLoop | resetQuit | pollReturns | beginFunctors | swapFunctors | endFunctors
  | destroyFunctors => cases hpc

/-- The action is a return of `epoll_wait`. -/
def isReturn : LoopAction T F → Bool
  | .pollReturns _ => true
  | _ => false

/-- How many times `epoll_wait` can still return before `loop()` does, when `quit_` is set. -/
def returnsLeft (s : EventLoop T F) : Nat := if s.pc = .polling then 1 else 0

/-- `quit_` is set in `loop()`, behind `quit_ = false`. -/
def Quitting (s : EventLoop T F) : Prop := s.quit = true ∧ s.pc ≠ .entered

theorem quitting_step (s : EventLoop T F) (a : LoopAction T F) (s' : EventLoop T F)
    (hs : Quitting s) (ha : a ≠ .enterLoop) (h : s.step a = some s') :
    Quitting s' ∧ (isReturn a).toNat + returnsLeft s' ≤ returnsLeft s := by
  obtain ⟨he, rfl⟩ := step_eq_some.mp h
  obtain ⟨hquit, hpc⟩ := hs
  cases a with
  | enterLoop => exact absurd rfl ha
  | resetQuit =>
    simp only [enabled, beq_iff_eq] at he
    exact absurd he hpc
  | testQuit =>
    refine ⟨⟨hquit, by simp [next, hquit]⟩, ?_⟩
    simp [isReturn, returnsLeft, next, hquit]
  | pollReturns wakeupActive =>
    simp only [enabled, Bool.and_eq_true, beq_iff_eq] at he
    refine ⟨⟨hquit, by simp [next]⟩, ?_⟩
    simp [isReturn, returnsLeft, next, he.1]
  -- the loop thread stays where it is
  | quit | loopQuit => exact ⟨⟨rfl, hpc⟩, Nat.le_of_eq (Nat.zero_add (returnsLeft s))⟩
  | queueInLoop | wakeup | loopQueueInLoop | handleRead | callFunctor =>
    exact ⟨⟨hquit, hpc⟩, Nat.le_of_eq (Nat.zero_add (returnsLeft s))⟩
  | beginFunctors | swapFunctors | endFunctors | destroyFunctors =>
    exact ⟨⟨hquit, by simp [next]⟩, by simp [isReturn, returnsLeft, next]⟩

/-- **A quit request is answered at once.**  In every reachable state in which the loop waits with `quit_`
set, the eventfd is readable or a thread in `quit()` is about to write it.  And from every state behind
`quit_ = false` with `quit_` set, whatever the threads do, `epoll_wait` returns at most once more before
`loop()` does, and not at all if the loop is not waiting. -/
theorem quit_prompt (s : EventLoop T F) (h : Reachable step (· = new) s) :
    (s.pc = .polling → s.quit = true → 0 < s.wakeupFd ∨ ∃ t, s.caller t = .quitting) ∧
      (s.quit = true → s.pc ≠ .entered → ∀ as t, (∀ a ∈ as, a ≠ LoopAction.enterLoop) →
        run step s as = some t →
        countSteps step (fun _ a => isReturn a) s as + returnsLeft t ≤ returnsLeft s) := by
  constructor
  · have hheard : QuitHeard s := by
      refine reachable_inv ?_ quitHeard_step h
      rintro _ rfl
      intro hpc
      cases hpc
    exact hheard
  · intro hquit hpc as t has hrun
    exact countSteps_add_le (I := Quitting) (C := fun _ a => a ≠ LoopAction.enterLoop)
      (fun s a s' hs ha hstep => (quitting_step s a s' hs ha hstep).1)
      (fun s a s' hs ha hstep => (quitting_step s a s' hs ha hstep).2) ⟨hquit, hpc⟩
      (allSteps_of_forall has) hrun

/-- `quit()` from another thread while the loop waits. -/
theorem quit_prompt_run :
    ∃ s : EventLoop Unit Nat,
      run step new [.enterLoop, .resetQuit, .testQuit, .quit ()] = some s ∧
      (0 < s.wakeupFd ∨ ∃ t, s.caller t = .quitting) := by
  refine exists_run rfl fun s hs => (quit_prompt s ⟨new, _, rfl, hs⟩).1 ?_ ?_
  · cases hs
    rfl
  · cases hs
    rfl

end EventLoop
end Muduo
