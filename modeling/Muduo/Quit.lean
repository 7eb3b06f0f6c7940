import Muduo.FunctorQueue
import Muduo.TcpConnection

/-!
# Functors queued before quit

`quit()` from another thread while the loop runs: which of the functors pushed before it are
called before `loop()` returns?  `loop()` tests `quit_` between iterations, and the batch of an
iteration was swapped out before.

    all of them, in every continuation
      ⇔ none is pending, or the swap of this iteration is still to come  (functors_before_quit_run_iff)

`P` selects the functors asked about.  `~TcpServer` and `~EventLoopThread` queue `connectDestroyed`
and call `quit()` without waiting, so a connection may never be destroyed
(`connectDestroyed_lost_at_quit`).
-/

namespace Muduo

/-- This iteration has not swapped out its batch yet. -/
def LoopPc.BeforeSwap (pc : LoopPc) : Prop := pc = .polling ∨ pc = .handling ∨ pc = .swapping

namespace EventLoop

open Transition

variable {T F : Type*}

/-! ## What will be called -/

/-- `quota` has been called, but for functors that the loop calls before it tests `quit_`. -/
def Carried (quota : List F) (s : EventLoop T F) : Prop :=
  Consistent s ∧ (quota <+: s.ran ++ s.functors ∨ s.pc.BeforeSwap ∧ quota <+: s.ran ++ s.queue)

theorem Carried.ran {quota : List F} {s : EventLoop T F} (hs : Carried quota s)
    (hpc : s.pc = .outside) : quota <+: s.ran := by
  obtain ⟨hcons, hq | ⟨hbefore, -⟩⟩ := hs
  · rwa [hcons.batch (by simp [hpc]), List.append_nil] at hq
  · simp [LoopPc.BeforeSwap, hpc] at hbefore

variable [DecidableEq T]

theorem carried_step {quota : List F} (s : EventLoop T F) (a : LoopAction T F) (s' : EventLoop T F)
    (hs : Carried quota s) (h : s.step a = some s') : Carried quota s' := by
  obtain ⟨hcons, hq⟩ := hs
  refine ⟨consistent_step s a s' hcons h, ?_⟩
  obtain ⟨he, rfl⟩ := step_eq_some.mp h
  cases a with
  | queueInLoop t cb | loopQueueInLoop cb =>
    rcases hq with hq | ⟨hpc, hq⟩
    · exact Or.inl hq
    · refine Or.inr ⟨hpc, hq.trans ?_⟩
      simp only [next, queue, ← List.append_assoc]
      exact List.prefix_append _ _
  | quit t => exact hq
  | wakeup t => exact hq
  | loopQuit => exact hq
  | handleRead => exact hq
  | enterLoop | resetQuit | testQuit | destroyFunctors =>
    simp only [enabled, beq_iff_eq] at he
    rcases hq with hq | ⟨hpc, -⟩
    · exact Or.inl hq
    · simp [LoopPc.BeforeSwap, he] at hpc
  | pollReturns wakeupActive =>
    rcases hq with hq | ⟨-, hq⟩
    · exact Or.inl hq
    · exact Or.inr ⟨Or.inr (Or.inl rfl), hq⟩
  | beginFunctors =>
    rcases hq with hq | ⟨-, hq⟩
    · exact Or.inl hq
    · exact Or.inr ⟨Or.inr (Or.inr rfl), hq⟩
  | swapFunctors =>
    -- the batch swapped out holds everything that was pending
    simp only [enabled, beq_iff_eq] at he
    have hbatch : s.functors = [] := hcons.batch (by simp [he])
    rw [queue, hbatch, List.append_nil, List.nil_append] at hq
    refine Or.inl ?_
    rcases hq with hq | ⟨-, hq⟩
    · exact hq.trans (List.prefix_append _ _)
    · exact hq
  | callFunctor =>
    simp only [enabled, Bool.and_eq_true, beq_iff_eq] at he
    rcases hq with hq | ⟨hpc, -⟩
    · refine Or.inl ?_
      simp only [next]
      rw [List.append_assoc, List.take_append_drop]
      exact hq
    · simp [LoopPc.BeforeSwap, he.1] at hpc
  | endFunctors =>
    simp only [enabled, Bool.and_eq_true, beq_iff_eq] at he
    rcases hq with hq | ⟨hpc, -⟩
    · exact Or.inl hq
    · simp [LoopPc.BeforeSwap, he.1] at hpc

/-! ## What will not be called -/

/-- `quit_` is set and the batch has been swapped out: `done` is all that will have been called
when `loop()` returns, and `rest` stays pending. -/
structure Abandoned (done rest : List F) (s : EventLoop T F) : Prop where
  quit : s.quit = true
  pc : s.pc = .running ∨ s.pc = .leaving ∨ s.pc = .testing ∨ s.pc = .outside
  batch : s.ran ++ s.functors = done
  pending : rest <+: s.pendingFunctors

theorem abandoned_step {done rest : List F} (s : EventLoop T F) (a : LoopAction T F)
    (s' : EventLoop T F) (hs : Abandoned done rest s) (ha : a ≠ .enterLoop)
    (h : s.step a = some s') : Abandoned done rest s' := by
  obtain ⟨he, rfl⟩ := step_eq_some.mp h
  obtain ⟨hquit, hpc, hbatch, hpending⟩ := hs
  cases a with
  | queueInLoop t cb | loopQueueInLoop cb =>
    exact ⟨hquit, hpc, hbatch, hpending.trans (List.prefix_append _ _)⟩
  | quit t => exact ⟨rfl, hpc, hbatch, hpending⟩
  | loopQuit => exact ⟨rfl, hpc, hbatch, hpending⟩
  | wakeup t => exact ⟨hquit, hpc, hbatch, hpending⟩
  | handleRead => exact ⟨hquit, hpc, hbatch, hpending⟩
  | testQuit => exact ⟨hquit, by simp [next, hquit], hbatch, hpending⟩
  | endFunctors => exact ⟨hquit, by simp [next], hbatch, hpending⟩
  | destroyFunctors => exact ⟨hquit, by simp [next], hbatch, hpending⟩
  | callFunctor =>
    refine ⟨hquit, hpc, ?_, hpending⟩
    simp only [next]
    rw [List.append_assoc, List.take_append_drop, hbatch]
  | enterLoop => exact absurd rfl ha
  | resetQuit | swapFunctors =>
    simp only [enabled, beq_iff_eq] at he
    simp [he] at hpc
  | pollReturns | beginFunctors =>
    simp only [enabled, Bool.and_eq_true, beq_iff_eq] at he
    simp [he.1] at hpc

/-- The loop thread calls the rest of its batch. -/
theorem run_batch (s : EventLoop T F) (hpc : s.pc = .running) :
    run step s (List.replicate s.functors.length .callFunctor) =
      some { s with functors := [], ran := s.ran ++ s.functors } := by
  generalize hfs : s.functors = fs
  induction fs generalizing s with
  | nil =>
    obtain ⟨⟩ := s
    simp_all
  | cons f fs ih =>
    have hcall : s.step .callFunctor = some { s with functors := fs, ran := s.ran ++ [f] } := by
      simp [step, enabled, next, hpc, hfs]
    have hrest := ih { s with functors := fs, ran := s.ran ++ [f] } hpc rfl
    rw [List.length_cons, List.replicate_succ, run_cons, hcall, Option.bind_some, hrest]
    simp

/-- With `quit_` set and its batch swapped out, the loop can return. -/
theorem exists_return {s : EventLoop T F} (hquit : s.quit = true)
    (hpc : s.pc = .running ∨ s.pc = .leaving ∨ s.pc = .testing) :
    ∃ as s', (∀ a ∈ as, a ≠ LoopAction.enterLoop) ∧ run step s as = some s' ∧ s'.pc = .outside := by
  rcases hpc with hpc | hpc | hpc
  · have hend : run step { s with functors := [], ran := s.ran ++ s.functors }
        [.endFunctors, .destroyFunctors, .testQuit] =
        some { s with pc := .outside, callingPendingFunctors := false, functors := [],
                      ran := s.ran ++ s.functors } := by
      simp [step, enabled, next, hpc, hquit]
    refine ⟨_, _, ?_, run_append_of_eq_some (run_batch s hpc) hend, rfl⟩
    intro a ha
    simp only [List.mem_append, List.mem_replicate, List.mem_cons, List.not_mem_nil, or_false] at ha
    rcases ha with ⟨-, rfl⟩ | rfl | rfl | rfl <;> simp
  · refine ⟨[.destroyFunctors, .testQuit], { s with pc := .outside }, by simp, ?_, rfl⟩
    simp [step, enabled, next, hpc, hquit]
  · refine ⟨[.testQuit], { s with pc := .outside }, by simp, ?_, rfl⟩
    simp [step, enabled, next, hpc, hquit]

/-! ## Quit -/

/-- `quit()` with a functor pending that the loop does not come to: it can return without calling
it. -/
theorem exists_return_without {s s₁ : EventLoop T F} {t : T} {P : F → Bool} (hord : Ordered s)
    (hpc : s.pc ≠ .outside) (hbefore : ¬ s.pc.BeforeSwap) (hP : s.pendingFunctors.filter P ≠ [])
    (hquit : s.step (.quit t) = some s₁) :
    ∃ as s₂, (∀ a ∈ as, a ≠ LoopAction.enterLoop) ∧ run step s₁ as = some s₂ ∧
      s₂.pc = .outside ∧ ¬ s.pushed.filter P <+: s₂.ran.filter P := by
  obtain ⟨-, rfl⟩ := step_eq_some.mp hquit
  -- what has been called in the end is at most what had been swapped out
  have hshort : ∀ s₂ : EventLoop T F, s₂.ran = s.ran ++ s.functors →
      ¬ s.pushed.filter P <+: s₂.ran.filter P := by
    intro s₂ hran hprefix
    have hlen := hprefix.length_le
    rw [hran, ← hord.history, queue, ← List.append_assoc, List.filter_append _ s.pendingFunctors,
      List.length_append] at hlen
    exact hP (List.eq_nil_of_length_eq_zero (by omega))
  have hrest : s.pc = .entered ∨ s.pc = .running ∨ s.pc = .leaving ∨ s.pc = .testing := by
    revert hpc hbefore
    unfold LoopPc.BeforeSwap
    cases s.pc <;> simp
  rcases hrest with hpc' | hpc'
  · -- `quit_ = false` is still to come; a second `quit()` meets the first test
    have hbatch : s.functors = [] := hord.batch (by simp [hpc'])
    refine ⟨[.resetQuit, .wakeup t, .quit t, .testQuit],
      { s with
        pc := .outside
        quit := true
        wakeupFd := eventfdWrite s.wakeupFd
        caller := Function.update s.caller t .quitting }, by simp, ?_, rfl, hshort _ ?_⟩
    · simp [step, enabled, next, hpc']
    · simp [hbatch]
  · have hquit' : (s.next (.quit t)).quit = true := rfl
    have hstart : Abandoned (s.ran ++ s.functors) s.pendingFunctors (s.next (.quit t)) :=
      ⟨rfl, by rcases hpc' with h | h | h <;> simp [next, h], rfl, List.prefix_rfl⟩
    obtain ⟨as, s₂, has, hrun, hout⟩ := exists_return hquit' hpc'
    have hend := run_inv_of_allSteps abandoned_step hstart (allSteps_of_forall has) hrun
    have hcons : Consistent s₂ := by
      refine run_inv consistent_step ?_ hrun
      exact consistent_step s _ _ hord.toConsistent hquit
    refine ⟨as, s₂, has, hrun, hout, hshort s₂ ?_⟩
    rw [← hend.batch, hcons.batch (by simp [hout]), List.append_nil]

/-- **Functors queued before quit.**  Another thread calls `quit()` while the loop is in `loop()`.
Every functor in `P` pushed before is called before `loop()` returns, in every continuation, iff
none of them is pending or this iteration has not swapped out its batch yet. -/
theorem functors_before_quit_run_iff (s s₁ : EventLoop T F) (t : T) (P : F → Bool)
    (h : Reachable step (· = new) s) (hpc : s.pc ≠ .outside) (hquit : s.step (.quit t) = some s₁) :
    (∀ as s₂, (∀ a ∈ as, a ≠ LoopAction.enterLoop) → run step s₁ as = some s₂ →
        s₂.pc = .outside → s.pushed.filter P <+: s₂.ran.filter P) ↔
      s.pendingFunctors.filter P = [] ∨ s.pc.BeforeSwap := by
  have hord := ordered_of_reachable h
  have hcons := consistent_step s _ s₁ hord.toConsistent hquit
  constructor
  · intro hall
    by_contra hnot
    rw [not_or] at hnot
    obtain ⟨as, s₂, has, hrun, hout, hlost⟩ := exists_return_without hord hpc hnot.2 hnot.1 hquit
    exact hlost (hall as s₂ has hrun hout)
  · obtain ⟨-, rfl⟩ := step_eq_some.mp hquit
    intro hgood as s₂ _ hrun hout
    have hcarried : ∀ {quota : List F}, Carried quota (s.next (.quit t)) → quota <+: s₂.ran :=
      fun hc => (run_inv carried_step hc hrun).ran hout
    rcases hgood with hnone | hbefore
    · have hprefix := hcarried ⟨hcons, Or.inl (List.prefix_refl (s.ran ++ s.functors))⟩
      rw [← hord.history, queue, ← List.append_assoc, List.filter_append _ s.pendingFunctors, hnone,
        List.append_nil]
      exact hprefix.filter P
    · have hprefix := hcarried ⟨hcons, Or.inr ⟨hbefore, List.prefix_refl (s.ran ++ s.queue)⟩⟩
      rw [← hord.history]
      exact hprefix.filter P

/-- Pushed and followed by `quit()` while the loop polls: called in every continuation. -/
theorem functors_before_quit_run_while_polling :
    ∃ s : EventLoop Unit Nat,
      run step new [.enterLoop, .resetQuit, .testQuit, .queueInLoop () 1, .wakeup ()] = some s ∧
      ∃ s₁, s.step (.quit ()) = some s₁ ∧
        ∀ as s₂, (∀ a ∈ as, a ≠ LoopAction.enterLoop) → run step s₁ as = some s₂ →
          s₂.pc = .outside → s.pushed.filter (· == 1) <+: s₂.ran.filter (· == 1) := by
  refine exists_run rfl fun s hs => ⟨s.next (.quit ()), ?_, ?_⟩
  · cases hs
    rfl
  · have hpc : s.pc = .polling := by
      cases hs
      rfl
    refine (functors_before_quit_run_iff s _ () _ ⟨new, _, rfl, hs⟩ (by simp [hpc]) ?_).mpr
      (Or.inr (Or.inl hpc))
    cases hs
    rfl

/-- `connectDestroyed` queued, and `quit()` called, while the loop calls an earlier batch: `loop()`
returns without calling it. -/
theorem connectDestroyed_lost_at_quit :
    ∃ s : EventLoop Unit ConnFunctor,
      run step new [.enterLoop, .resetQuit, .testQuit, .pollReturns false, .beginFunctors,
        .swapFunctors, .queueInLoop () .connectDestroyed, .wakeup (), .quit (), .wakeup (),
        .endFunctors, .destroyFunctors, .testQuit] = some s ∧
      s.pc = .outside ∧ s.pushed = [.connectDestroyed] ∧ s.ran = [] ∧
        s.pendingFunctors = [.connectDestroyed] := by
  refine exists_run rfl fun s hs => ?_
  cases hs
  exact ⟨rfl, rfl, rfl, rfl⟩

end EventLoop
end Muduo
