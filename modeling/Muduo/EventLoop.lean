import Muduo.Lib.Transition
import Mathlib.Logic.Function.Basic

/-!
# EventLoop

`EventLoop.cc` as a transition system: the loop thread, any number of other threads `T`, and
functors `F`.  Each access to the shared data (`quit_`, `callingPendingFunctors_`, the vector under
`mutex_`, the eventfd) is a step of its own.

* `LoopPc`: where the loop thread is in `loop()` and `doPendingFunctors()`.
* `CallerPc`: what another thread still has to do of its `queueInLoop` or `quit`.
* `EventLoop.step`: `enabled` says when an action can be taken, `next` what it does.
* User code runs on the loop thread in four places (`LoopPc.runsUserCode`): outside `loop()`, in a
  handler, in a functor, and in the destructors of the batch.  There the loop thread may call
  `queueInLoop` and `quit` itself; its `runInLoop` calls the functor at once.

The functors not yet run form a FIFO queue, whatever the threads do (`step_queue`).
-/

namespace Muduo

open Transition

/-! ## The eventfd -/

/-- The largest value of an eventfd counter. -/
def eventfdMax : Nat := 0xfffffffffffffffe

/-- `::write` of 1 to a non-blocking eventfd; it fails rather than pass the maximum. -/
def eventfdWrite (counter : Nat) : Nat := if counter + 1 ≤ eventfdMax then counter + 1 else counter

theorem eventfdWrite_pos (counter : Nat) : 0 < eventfdWrite counter := by
  unfold eventfdWrite
  split
  · omega
  · next h =>
    rw [eventfdMax] at h
    omega

/-! ## The state -/

/-- The loop thread's place in `loop()`. -/
inductive LoopPc
  /-- not in `loop()` -/
  | outside
  /-- before `quit_ = false` -/
  | entered
  /-- before `while (!quit_)` -/
  | testing
  /-- in `epoll_wait` -/
  | polling
  /-- in the `for` over `activeChannels_` -/
  | handling
  /-- in `doPendingFunctors`, after `callingPendingFunctors_ = true` -/
  | swapping
  /-- in the `for` over `functors` -/
  | running
  /-- after `callingPendingFunctors_ = false`, where `functors` is destroyed -/
  | leaving
deriving DecidableEq, Repr

def LoopPc.runsUserCode (pc : LoopPc) : Bool :=
  pc == .outside || pc == .handling || pc == .running || pc == .leaving

/-- What another thread is doing. -/
inductive CallerPc
  | idle
  /-- in `queueInLoop`, between the push and `wakeup()` -/
  | pushed
  /-- in `quit`, between `quit_ = true` and `wakeup()` -/
  | quitting
deriving DecidableEq, Repr

structure EventLoop (T F : Type*) where
  pc : LoopPc
  quit : Bool
  callingPendingFunctors : Bool
  pendingFunctors : List F
  /-- the local `functors` of `doPendingFunctors`, without those already called -/
  functors : List F
  /-- the counter of `wakeupFd_` -/
  wakeupFd : Nat
  /-- `wakeupChannel_` is among the `activeChannels_` still to be handled -/
  wakeupActive : Bool
  caller : T → CallerPc
  /-- history: all functors pushed, in order -/
  pushed : List F
  /-- history: all functors called, in order -/
  ran : List F

inductive LoopAction (T F : Type*)
  /-- another thread pushes in `queueInLoop` -/
  | queueInLoop (t : T) (cb : F)
  /-- another thread stores `quit_ = true` -/
  | quit (t : T)
  /-- another thread calls `wakeup`, or comes to it in `queueInLoop` or `quit` -/
  | wakeup (t : T)
  | loopQueueInLoop (cb : F)
  | loopQuit
  | enterLoop
  | resetQuit
  | testQuit
  /-- `epoll_wait` returns, with or without the eventfd among the ready ones -/
  | pollReturns (wakeupActive : Bool)
  | handleRead
  | beginFunctors
  | swapFunctors
  | callFunctor
  | endFunctors
  | destroyFunctors
deriving DecidableEq

namespace LoopAction

variable {T F : Type*}

/-- The thread that takes a step, `none` for the loop thread. -/
def thread : LoopAction T F → Option T
  | .queueInLoop t _ | .quit t | .wakeup t => some t
  | _ => none

/-- The functor an action pushes. -/
def push : LoopAction T F → List F
  | .queueInLoop _ cb | .loopQueueInLoop cb => [cb]
  | _ => []

/-- How many functors an action calls. -/
def calls : LoopAction T F → Nat
  | .callFunctor => 1
  | _ => 0

end LoopAction

namespace EventLoop

variable {T F : Type*}

/-- `EventLoop()`. -/
def new : EventLoop T F where
  pc := .outside
  quit := false
  callingPendingFunctors := false
  pendingFunctors := []
  functors := []
  wakeupFd := 0
  wakeupActive := false
  caller := fun _ => .idle
  pushed := []
  ran := []

/-- The functors not yet called, in the order in which they will be. -/
def queue (s : EventLoop T F) : List F := s.functors ++ s.pendingFunctors

/-- What the flags say about the loop thread's place. -/
structure Consistent (s : EventLoop T F) : Prop where
  calling : s.callingPendingFunctors = true ↔ s.pc = .swapping ∨ s.pc = .running
  batch : s.pc ≠ .running → s.functors = []

theorem consistent_new : Consistent (new : EventLoop T F) :=
  ⟨by simp [new], fun _ => rfl⟩

/-! ## Steps -/

def enabled (s : EventLoop T F) : LoopAction T F → Bool
  | .queueInLoop t _ | .quit t => s.caller t == .idle
  | .wakeup _ => true
  | .loopQueueInLoop _ | .loopQuit => s.pc.runsUserCode
  | .enterLoop => s.pc == .outside
  | .resetQuit => s.pc == .entered
  | .testQuit => s.pc == .testing
  -- the eventfd is reported only when its counter is positive; any wait may also time out
  | .pollReturns wakeupActive => s.pc == .polling && (!wakeupActive || decide (0 < s.wakeupFd))
  | .handleRead => s.pc == .handling && s.wakeupActive
  | .beginFunctors => s.pc == .handling && !s.wakeupActive
  | .swapFunctors => s.pc == .swapping
  | .callFunctor => s.pc == .running && !s.functors.isEmpty
  | .endFunctors => s.pc == .running && s.functors.isEmpty
  | .destroyFunctors => s.pc == .leaving

variable [DecidableEq T]

def next (s : EventLoop T F) : LoopAction T F → EventLoop T F
  | .queueInLoop t cb =>
    { s with
      pendingFunctors := s.pendingFunctors ++ [cb]
      pushed := s.pushed ++ [cb]
      caller := Function.update s.caller t .pushed }
  | .quit t => { s with quit := true, caller := Function.update s.caller t .quitting }
  | .wakeup t =>
    { s with wakeupFd := eventfdWrite s.wakeupFd, caller := Function.update s.caller t .idle }
  -- on the loop thread `queueInLoop` wakes only while functors are being called
  | .loopQueueInLoop cb =>
    { s with
      pendingFunctors := s.pendingFunctors ++ [cb]
      pushed := s.pushed ++ [cb]
      wakeupFd := if s.callingPendingFunctors then eventfdWrite s.wakeupFd else s.wakeupFd }
  | .loopQuit => { s with quit := true }
  | .enterLoop => { s with pc := .entered }
  | .resetQuit => { s with pc := .testing, quit := false }
  | .testQuit => { s with pc := if s.quit then .outside else .polling }
  | .pollReturns wakeupActive => { s with pc := .handling, wakeupActive }
  | .handleRead => { s with wakeupFd := 0, wakeupActive := false }
  | .beginFunctors => { s with pc := .swapping, callingPendingFunctors := true }
  | .swapFunctors => { s with pc := .running, functors := s.pendingFunctors, pendingFunctors := [] }
  | .callFunctor => { s with functors := s.functors.drop 1, ran := s.ran ++ s.functors.take 1 }
  | .endFunctors => { s with pc := .leaving, callingPendingFunctors := false }
  | .destroyFunctors => { s with pc := .testing }

def step (s : EventLoop T F) (a : LoopAction T F) : Option (EventLoop T F) :=
  if s.enabled a then some (s.next a) else none

theorem step_eq_some {s s' : EventLoop T F} {a : LoopAction T F} :
    s.step a = some s' ↔ s.enabled a = true ∧ s' = s.next a := by
  unfold step
  split
  · next h => simp [h, eq_comm]
  · next h => simp [h]

/-! ## The functors as a queue -/

theorem consistent_step (s : EventLoop T F) (a : LoopAction T F) (s' : EventLoop T F)
    (hs : Consistent s) (h : s.step a = some s') : Consistent s' := by
  obtain ⟨he, rfl⟩ := step_eq_some.mp h
  obtain ⟨hcalling, hbatch⟩ := hs
  cases a with
  | queueInLoop t cb => exact ⟨hcalling, hbatch⟩
  | quit t => exact ⟨hcalling, hbatch⟩
  | wakeup t => exact ⟨hcalling, hbatch⟩
  | loopQueueInLoop cb => exact ⟨hcalling, hbatch⟩
  | loopQuit => exact ⟨hcalling, hbatch⟩
  | handleRead => exact ⟨hcalling, hbatch⟩
  | testQuit =>
    simp only [enabled, beq_iff_eq] at he
    have hb : s.functors = [] := hbatch (by simp [he])
    refine ⟨?_, fun _ => hb⟩
    simp only [next]
    rw [hcalling, he]
    cases s.quit <;> simp
  | callFunctor =>
    refine ⟨hcalling, fun hpc => ?_⟩
    simp only [enabled, Bool.and_eq_true, beq_iff_eq] at he
    exact absurd he.1 hpc
  | swapFunctors =>
    simp only [enabled, beq_iff_eq] at he
    refine ⟨?_, fun hpc => absurd rfl hpc⟩
    simp only [next]
    rw [hcalling, he]
    simp
  | endFunctors =>
    simp only [enabled, Bool.and_eq_true, beq_iff_eq, List.isEmpty_iff] at he
    exact ⟨by simp [next], fun _ => he.2⟩
  | beginFunctors =>
    simp only [enabled, Bool.and_eq_true, beq_iff_eq] at he
    exact ⟨by simp [next], fun _ => hbatch (by simp [he.1])⟩
  | enterLoop | resetQuit | destroyFunctors =>
    simp only [enabled, beq_iff_eq] at he
    refine ⟨?_, fun _ => hbatch (by simp [he])⟩
    simp only [next]
    rw [hcalling, he]
    simp
  | pollReturns wakeupActive =>
    simp only [enabled, Bool.and_eq_true, beq_iff_eq] at he
    refine ⟨?_, fun _ => hbatch (by simp [he.1])⟩
    simp only [next]
    rw [hcalling, he.1]
    simp

/-- **The functors are a FIFO queue.**  An action adds what it pushes at the end, and only
`callFunctor` takes something, the first functor, which it runs. -/
theorem step_queue {s s' : EventLoop T F} {a : LoopAction T F} (hs : Consistent s)
    (h : s.step a = some s') :
    s'.queue = s.queue.drop a.calls ++ a.push ∧ s'.ran = s.ran ++ s.queue.take a.calls ∧
      s'.pushed = s.pushed ++ a.push := by
  obtain ⟨he, rfl⟩ := step_eq_some.mp h
  cases a with
  | queueInLoop t cb => simp [next, queue, LoopAction.calls, LoopAction.push]
  | loopQueueInLoop cb => simp [next, queue, LoopAction.calls, LoopAction.push]
  | swapFunctors =>
    simp only [enabled, beq_iff_eq] at he
    simp [next, queue, LoopAction.calls, LoopAction.push, hs.batch (by simp [he])]
  | callFunctor =>
    simp only [enabled, Bool.and_eq_true, Bool.not_eq_true', List.isEmpty_eq_false_iff] at he
    obtain ⟨f, fs, hf⟩ := List.exists_cons_of_ne_nil he.2
    simp [next, queue, LoopAction.calls, LoopAction.push, hf]
  | quit | wakeup | loopQuit | enterLoop | resetQuit | testQuit | pollReturns | handleRead
  | beginFunctors | endFunctors | destroyFunctors =>
    simp [next, queue, LoopAction.calls, LoopAction.push]

/-- A functor of the queue was there before, or the action pushed it. -/
theorem mem_queue_of_step {s s' : EventLoop T F} {a : LoopAction T F} {f : F} (hs : Consistent s)
    (h : s.step a = some s') (hf : f ∈ s'.queue) : f ∈ s.queue ∨ f ∈ a.push := by
  rw [(step_queue hs h).1] at hf
  rcases List.mem_append.mp hf with hold | hnew
  · exact Or.inl (List.mem_of_mem_drop hold)
  · exact Or.inr hnew

end EventLoop
end Muduo
