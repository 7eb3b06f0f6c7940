import Muduo.EventLoop

/-!
# The functor queue

`queueInLoop` by any threads, the loop thread included, against `doPendingFunctors`.

    called ++ rest of the batch ++ pendingFunctors_ = pushed            (functor_queue_fifo)

A functor that is queued while a batch runs waits for the next swap: between two swaps the loop
calls functors of the batch only (`batch_step`).
-/

namespace Muduo
namespace EventLoop

open Transition

variable {T F : Type*} [DecidableEq T]

/-! ## The history -/

/-- Nothing is lost, nothing is duplicated, and the order is kept. -/
structure Ordered (s : EventLoop T F) : Prop extends Consistent s where
  history : s.ran ++ s.queue = s.pushed

theorem ordered_step (s : EventLoop T F) (a : LoopAction T F) (s' : EventLoop T F)
    (hs : Ordered s) (h : s.step a = some s') : Ordered s' := by
  obtain ⟨hqueue, hran, hpushed⟩ := step_queue hs.toConsistent h
  refine ⟨consistent_step s a s' hs.toConsistent h, ?_⟩
  rw [hqueue, hran, hpushed, ← hs.history]
  simp only [List.append_assoc]
  rw [← List.append_assoc (s.queue.take a.calls), List.take_append_drop]

theorem ordered_of_reachable {s : EventLoop T F} (h : Reachable step (· = new) s) : Ordered s := by
  refine reachable_inv ?_ ordered_step h
  rintro _ rfl
  exact ⟨consistent_new, rfl⟩

/-! ## One batch -/

/-- `done` is the part of `batch` called so far; `before` was called before the batch. -/
def InBatch (before batch : List F) (s : EventLoop T F) : Prop :=
  Consistent s ∧ ∃ done, s.ran = before ++ done ∧ done ++ s.functors = batch

/-- Only a swap changes the batch: any other step calls its next functor or none. -/
theorem batch_step {before batch : List F} (s : EventLoop T F) (a : LoopAction T F)
    (s' : EventLoop T F) (hs : InBatch before batch s) (ha : a ≠ .swapFunctors)
    (h : s.step a = some s') : InBatch before batch s' := by
  obtain ⟨hcons, done, hran, hbatch⟩ := hs
  refine ⟨consistent_step s a s' hcons h, ?_⟩
  obtain ⟨he, rfl⟩ := step_eq_some.mp h
  cases a with
  | callFunctor =>
    refine ⟨done ++ s.functors.take 1, ?_, ?_⟩
    · simp only [next, hran, List.append_assoc]
    · simp only [next]
      rw [List.append_assoc, List.take_append_drop, hbatch]
  | swapFunctors => exact absurd rfl ha
  | queueInLoop | quit | wakeup | loopQueueInLoop | loopQuit | enterLoop | resetQuit | testQuit
  | pollReturns | handleRead | beginFunctors | endFunctors | destroyFunctors =>
    exact ⟨done, hran, hbatch⟩

/-- **No loss, no duplication, first in first out.**  In every reachable state the functors
called, the rest of the batch and `pendingFunctors_` are the functors pushed, in order; and from a
swap to the next one the loop calls, in order, only functors that were pending at the swap. -/
theorem functor_queue_fifo (s : EventLoop T F) (h : Reachable step (· = new) s) :
    s.ran ++ s.functors ++ s.pendingFunctors = s.pushed ∧
      ∀ s₁ as s₂, s.step .swapFunctors = some s₁ → (∀ a ∈ as, a ≠ LoopAction.swapFunctors) →
        run step s₁ as = some s₂ →
          ∃ done, s₂.ran = s.ran ++ done ∧ done ++ s₂.functors = s.pendingFunctors := by
  have hord := ordered_of_reachable h
  constructor
  · rw [List.append_assoc]
    exact hord.history
  · intro s₁ as s₂ hswap has hrun
    have hcons := consistent_step s _ s₁ hord.toConsistent hswap
    obtain ⟨-, rfl⟩ := step_eq_some.mp hswap
    have hstart : InBatch s.ran s.pendingFunctors (s.next .swapFunctors) :=
      ⟨hcons, [], by simp [next], by simp [next]⟩
    exact (run_inv_of_allSteps batch_step hstart (allSteps_of_forall has) hrun).2

/-- Two threads, a functor that queues another while it runs, and a push during the batch. -/
theorem functor_queue_fifo_run :
    ∃ s : EventLoop Bool Nat,
      run step new [.queueInLoop true 1, .queueInLoop false 2, .wakeup true, .enterLoop, .resetQuit,
        .testQuit, .pollReturns true, .handleRead, .beginFunctors, .swapFunctors, .callFunctor,
        .loopQueueInLoop 3, .wakeup false, .queueInLoop true 4, .callFunctor] = some s ∧
      s.ran ++ s.functors ++ s.pendingFunctors = [1, 2, 3, 4] := by
  refine exists_run rfl fun s hs => ?_
  have := (functor_queue_fifo s ⟨new, _, rfl, hs⟩).1
  cases hs
  exact this

end EventLoop
end Muduo
