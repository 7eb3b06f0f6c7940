import Muduo.EventLoop

/-!
# EventLoopThread

`EventLoopThread.cc`: the creator runs `startLoop()` and later `~EventLoopThread`, the new thread
runs `threadFunc`.  The loop inside is the `EventLoop` of this development, with `none` as the
creator among the threads that call into it and `some t` for the others.

`loop()` begins with `quit_ = false`, after `loop_` has been published.  A `quit()` in between is
overwritten, and the destructor waits in `join()` for a loop that never ends (`quit_lost`).

    the destructor's quit() comes after loop()'s own quit_ = false
      ⇒ it never joins a loop that runs on                                      (quit_not_lost)
-/

namespace Muduo

open Transition

/-- Where the creator is. -/
inductive CreatorPc
  | ready
  /-- in `startLoop()`, waiting for `loop_` -/
  | waiting
  /-- `startLoop()` has returned -/
  | started
  /-- in `~EventLoopThread`, before `if (loop_ != nullptr)` -/
  | testingLoop
  /-- before `quit_ = true` in `loop_->quit()` -/
  | quitting
  /-- before `wakeup()` in `loop_->quit()` -/
  | waking
  /-- in `thread_.join()` -/
  | joining
  | destroyed
deriving DecidableEq, Repr

/-- Where the new thread is in `threadFunc`. -/
inductive ThreadPc
  | notStarted
  /-- before `EventLoop loop;` -/
  | constructing
  /-- in `callback_(&loop)` -/
  | initCallback
  /-- `loop_` is set, before `loop.loop()` -/
  | published
  /-- in `loop.loop()`, or just returned from it -/
  | looping
  | finished
deriving DecidableEq, Repr

/-- `loop` is kept after the thread has finished, for calls that come too late. -/
structure EventLoopThread (T F : Type*) where
  loop : EventLoop (Option T) F
  /-- `loop_ != nullptr` -/
  loopSet : Bool
  exiting : Bool
  creator : CreatorPc
  thread : ThreadPc

inductive ThreadAction (T F : Type*)
  /-- `thread_.start()` in `startLoop` -/
  | start
  /-- the wait for `loop_` ends and `startLoop` returns -/
  | startLoopReturns
  /-- `exiting_ = true` -/
  | beginDestructor
  | testLoop
  | storeQuit
  | wakeup
  | join
  | construct
  /-- `loop_ = &loop` -/
  | publish
  | callLoop
  /-- `loop_ = nullptr` after `loop.loop()` -/
  | clearLoop
  /-- a step of the loop thread in `loop()` or in `callback_`, or of a further thread -/
  | loop (a : LoopAction (Option T) F)

namespace EventLoopThread

variable {T F : Type*}

/-- `EventLoopThread(cb, name)`. -/
def new : EventLoopThread T F where
  loop := EventLoop.new
  loopSet := false
  exiting := false
  creator := .ready
  thread := .notStarted

/-- Who may act on the loop: the loop thread in `loop()`, and by user code in `callback_`; other
threads while the object lives.  `loop()` itself is called by `threadFunc` only. -/
def mayAct (s : EventLoopThread T F) (a : LoopAction (Option T) F) : Bool :=
  match a with
  | .enterLoop => false
  | .loopQueueInLoop _ | .loopQuit => s.thread == .initCallback || s.thread == .looping
  | .queueInLoop t _ | .quit t | .wakeup t =>
    t.isSome && (s.thread == .initCallback || s.thread == .published || s.thread == .looping)
  | _ => s.thread == .looping

variable [DecidableEq T]

def step (s : EventLoopThread T F) : ThreadAction T F → Option (EventLoopThread T F)
  | .start =>
    if s.creator = .ready then some { s with creator := .waiting, thread := .constructing } else none
  | .startLoopReturns =>
    if s.creator = .waiting ∧ s.loopSet then some { s with creator := .started } else none
  | .beginDestructor =>
    if s.creator = .started then some { s with creator := .testingLoop, exiting := true } else none
  | .testLoop =>
    if s.creator = .testingLoop then
      some { s with creator := if s.loopSet then .quitting else .destroyed }
    else none
  | .storeQuit =>
    if s.creator = .quitting then
      (s.loop.step (.quit none)).map fun loop => { s with loop, creator := .waking }
    else none
  | .wakeup =>
    if s.creator = .waking then
      (s.loop.step (.wakeup none)).map fun loop => { s with loop, creator := .joining }
    else none
  | .join =>
    if s.creator = .joining ∧ s.thread = .finished then some { s with creator := .destroyed }
    else none
  | .construct =>
    if s.thread = .constructing then
      some { s with thread := .initCallback, loop := EventLoop.new }
    else none
  | .publish =>
    if s.thread = .initCallback then some { s with thread := .published, loopSet := true } else none
  | .callLoop =>
    if s.thread = .published then
      (s.loop.step .enterLoop).map fun loop => { s with loop, thread := .looping }
    else none
  | .clearLoop =>
    if s.thread = .looping ∧ s.loop.pc = .outside then
      some { s with thread := .finished, loopSet := false }
    else none
  | .loop a =>
    if s.mayAct a then (s.loop.step a).map fun loop => { s with loop } else none

/-! ## The property -/

/-- The destructor has called `quit()` and waits in `join()`, and the loop thread is in `loop()`
with `quit_` false. -/
def Hangs (s : EventLoopThread T F) : Prop :=
  s.creator = .joining ∧ s.thread = .looping ∧ s.loop.pc ≠ .outside ∧ s.loop.quit = false

/-- `loop()` has executed `quit_ = false`. -/
def QuitReset (s : EventLoopThread T F) : Prop :=
  s.thread = .looping ∧ s.loop.pc ≠ .entered ∨ s.thread = .finished

/-- The condition on a step: the destructor's `quit_ = true` comes after `quit_ = false`. -/
def QuitsAfterReset (s : EventLoopThread T F) : ThreadAction T F → Prop
  | .storeQuit => QuitReset s
  | _ => True

/-- The invariant: once stored, the destructor's `quit_` stays. -/
def QuitKept (s : EventLoopThread T F) : Prop :=
  s.creator = .waking ∨ s.creator = .joining → s.loop.quit = true ∧ QuitReset s

end EventLoopThread

/-! ## Steps of the loop -/

namespace EventLoop

variable {T F : Type*} [DecidableEq T] {s s' : EventLoop T F} {a : LoopAction T F}

/-- Only `quit_ = false` clears `quit_`. -/
theorem quit_of_step (h : s.step a = some s') (hquit : s.quit = true) (ha : s.pc ≠ .entered) :
    s'.quit = true := by
  obtain ⟨he, rfl⟩ := step_eq_some.mp h
  cases a with
  | resetQuit =>
    simp only [enabled, beq_iff_eq] at he
    exact absurd he ha
  | quit => rfl
  | loopQuit => rfl
  | queueInLoop | wakeup | loopQueueInLoop | enterLoop | testQuit | pollReturns | handleRead
  | beginFunctors | swapFunctors | callFunctor | endFunctors | destroyFunctors => exact hquit

/-- Only a call of `loop()` comes before `quit_ = false`. -/
theorem not_entered_of_step (h : s.step a = some s') (ha : a ≠ .enterLoop) (hpc : s.pc ≠ .entered) :
    s'.pc ≠ .entered := by
  obtain ⟨he, rfl⟩ := step_eq_some.mp h
  cases a with
  | enterLoop => exact absurd rfl ha
  | testQuit =>
    simp only [next]
    split <;> simp
  | queueInLoop | quit | wakeup | loopQueueInLoop | loopQuit | handleRead | callFunctor => exact hpc
  | resetQuit | pollReturns | beginFunctors | swapFunctors | endFunctors | destroyFunctors =>
    simp [next]

end EventLoop

/-! ## Runs -/

namespace EventLoopThread

variable {T F : Type*} [DecidableEq T]

theorem quitKept_step (s : EventLoopThread T F) (a : ThreadAction T F) (s' : EventLoopThread T F)
    (hs : QuitKept s) (hg : QuitsAfterReset s a) (h : s.step a = some s') : QuitKept s' := by
  cases a with
  | start | startLoopReturns | beginDestructor | join =>
    simp only [step, Option.ite_none_right_eq_some, Option.some.injEq] at h
    obtain ⟨-, rfl⟩ := h
    intro hc
    simp at hc
  | testLoop =>
    simp only [step, Option.ite_none_right_eq_some, Option.some.injEq] at h
    obtain ⟨-, rfl⟩ := h
    intro hc
    simp only at hc
    split at hc <;> simp at hc
  | storeQuit =>
    simp only [step, Option.ite_none_right_eq_some, Option.map_eq_some_iff] at h
    obtain ⟨-, loop, hloop, rfl⟩ := h
    obtain ⟨-, rfl⟩ := EventLoop.step_eq_some.mp hloop
    exact fun _ => ⟨rfl, hg⟩
  | wakeup =>
    simp only [step, Option.ite_none_right_eq_some, Option.map_eq_some_iff] at h
    obtain ⟨hc, loop, hloop, rfl⟩ := h
    obtain ⟨-, rfl⟩ := EventLoop.step_eq_some.mp hloop
    exact fun _ => hs (Or.inl hc)
  | construct | publish =>
    simp only [step, Option.ite_none_right_eq_some, Option.some.injEq] at h
    obtain ⟨ht, rfl⟩ := h
    intro hc
    have := (hs hc).2
    simp [QuitReset, ht] at this
  | callLoop =>
    simp only [step, Option.ite_none_right_eq_some, Option.map_eq_some_iff] at h
    obtain ⟨ht, loop, -, rfl⟩ := h
    intro hc
    have := (hs hc).2
    simp [QuitReset, ht] at this
  | clearLoop =>
    simp only [step, Option.ite_none_right_eq_some, Option.some.injEq] at h
    obtain ⟨-, rfl⟩ := h
    exact fun hc => ⟨(hs hc).1, Or.inr rfl⟩
  | loop a =>
    simp only [step, Option.ite_none_right_eq_some, Option.map_eq_some_iff] at h
    obtain ⟨hmay, loop, hloop, rfl⟩ := h
    intro hc
    obtain ⟨hquit, hreset⟩ := hs hc
    have ha : a ≠ .enterLoop := by
      rintro rfl
      simp [mayAct] at hmay
    rcases hreset with ⟨ht, hpc⟩ | ht
    · exact ⟨EventLoop.quit_of_step hloop hquit hpc,
        Or.inl ⟨ht, EventLoop.not_entered_of_step hloop ha hpc⟩⟩
    · cases a <;> simp [mayAct, ht] at hmay

/-! ## The condition is exact -/

/-- The order of `threadFunc`: `loop_` is set after the construction and before `loop()`. -/
structure PublishedFirst (s : EventLoopThread T F) : Prop where
  ready : s.creator = .ready → s.thread = .notStarted
  outside : s.thread = .initCallback ∨ s.thread = .published → s.loop.pc = .outside
  loopSet : s.loopSet = true → s.thread = .published ∨ s.thread = .looping
  quitting : s.creator = .quitting → s.thread = .published ∨ s.thread = .looping ∨ s.thread = .finished

theorem publishedFirst_step (s : EventLoopThread T F) (a : ThreadAction T F)
    (s' : EventLoopThread T F) (hs : PublishedFirst s) (h : s.step a = some s') :
    PublishedFirst s' := by
  obtain ⟨hready, houtside, hset, hquitting⟩ := hs
  cases a with
  | start =>
    simp only [step, Option.ite_none_right_eq_some, Option.some.injEq] at h
    obtain ⟨hc, rfl⟩ := h
    have hns := hready hc
    refine ⟨by simp, by simp, fun hl => ?_, by simp⟩
    have := hset hl
    simp [hns] at this
  | startLoopReturns | beginDestructor | join =>
    simp only [step, Option.ite_none_right_eq_some, Option.some.injEq] at h
    obtain ⟨-, rfl⟩ := h
    exact ⟨by simp, houtside, hset, by simp⟩
  | testLoop =>
    simp only [step, Option.ite_none_right_eq_some, Option.some.injEq] at h
    obtain ⟨-, rfl⟩ := h
    refine ⟨fun hc => ?_, houtside, hset, fun hc => ?_⟩
    · simp only at hc
      split at hc <;> simp at hc
    · simp only at hc
      split at hc
      · next hl => exact (hset hl).imp id Or.inl
      · cases hc
  | storeQuit | wakeup =>
    simp only [step, Option.ite_none_right_eq_some, Option.map_eq_some_iff] at h
    obtain ⟨-, loop, hloop, rfl⟩ := h
    obtain ⟨-, rfl⟩ := EventLoop.step_eq_some.mp hloop
    exact ⟨by simp, houtside, hset, by simp⟩
  | construct =>
    simp only [step, Option.ite_none_right_eq_some, Option.some.injEq] at h
    obtain ⟨ht, rfl⟩ := h
    refine ⟨fun hc => ?_, fun _ => rfl, fun hl => ?_, fun hc => ?_⟩
    · simp [ht] at hready
      exact absurd hc hready
    · have := hset hl
      simp [ht] at this
    · have := hquitting hc
      simp [ht] at this
  | publish =>
    simp only [step, Option.ite_none_right_eq_some, Option.some.injEq] at h
    obtain ⟨ht, rfl⟩ := h
    refine ⟨fun hc => ?_, fun _ => houtside (Or.inl ht), fun _ => Or.inl rfl, fun _ => Or.inl rfl⟩
    have := hready hc
    simp [ht] at this
  | callLoop =>
    simp only [step, Option.ite_none_right_eq_some, Option.map_eq_some_iff] at h
    obtain ⟨ht, loop, -, rfl⟩ := h
    refine ⟨fun hc => ?_, by simp, fun _ => Or.inr rfl, fun _ => Or.inr (Or.inl rfl)⟩
    have := hready hc
    simp [ht] at this
  | clearLoop =>
    simp only [step, Option.ite_none_right_eq_some, Option.some.injEq] at h
    obtain ⟨⟨ht, -⟩, rfl⟩ := h
    refine ⟨fun hc => ?_, by simp, by simp, fun _ => Or.inr (Or.inr rfl)⟩
    have := hready hc
    simp [ht] at this
  | loop a =>
    simp only [step, Option.ite_none_right_eq_some, Option.map_eq_some_iff] at h
    obtain ⟨hmay, loop, hloop, rfl⟩ := h
    refine ⟨hready, fun ht => ?_, hset, hquitting⟩
    obtain ⟨-, rfl⟩ := EventLoop.step_eq_some.mp hloop
    change s.thread = .initCallback ∨ s.thread = .published at ht
    have hpc := houtside ht
    cases a with
    | queueInLoop | quit | wakeup | loopQueueInLoop | loopQuit => exact hpc
    | enterLoop => simp [mayAct] at hmay
    | resetQuit | testQuit | pollReturns | handleRead | beginFunctors | swapFunctors | callFunctor
    | endFunctors | destroyFunctors =>
      rcases ht with ht | ht <;> simp [mayAct, ht] at hmay

/-- Before `quit_ = false` the destructor's `quit()` can still be overwritten. -/
theorem exists_hang {s s' : EventLoopThread T F} {a : ThreadAction T F} (hs : PublishedFirst s)
    (hg : ¬ QuitsAfterReset s a) (h : s.step a = some s') :
    ∃ as t, run step s' as = some t ∧ Hangs t := by
  cases a with
  | storeQuit =>
    simp only [step, Option.ite_none_right_eq_some, Option.map_eq_some_iff] at h
    obtain ⟨hc, loop, hloop, rfl⟩ := h
    obtain ⟨-, rfl⟩ := EventLoop.step_eq_some.mp hloop
    simp only [QuitsAfterReset, QuitReset, not_or, not_and, not_not] at hg
    rcases hs.quitting hc with ht | ht | ht
    · have hpc := hs.outside (Or.inr ht)
      refine ⟨[.wakeup, .callLoop, .loop .resetQuit], exists_run ?_ fun t hrun => ?_⟩
      · simp [step, mayAct, EventLoop.step, EventLoop.enabled, EventLoop.next, ht, hpc]
      · simp [step, mayAct, EventLoop.step, EventLoop.enabled, EventLoop.next, ht, hpc] at hrun
        subst hrun
        exact ⟨rfl, rfl, by simp, rfl⟩
    · have hpc := hg.1 ht
      refine ⟨[.wakeup, .loop .resetQuit], exists_run ?_ fun t hrun => ?_⟩
      · simp [step, mayAct, EventLoop.step, EventLoop.enabled, EventLoop.next, ht, hpc]
      · simp [step, mayAct, EventLoop.step, EventLoop.enabled, EventLoop.next, ht, hpc] at hrun
        subst hrun
        exact ⟨rfl, rfl, by simp, rfl⟩
    · exact absurd ht hg.2
  | start | startLoopReturns | beginDestructor | testLoop | wakeup | join | construct | publish
  | callLoop | clearLoop | loop => exact absurd trivial hg

/-- **A quit request is not lost** in any run in which the destructor's `quit()` comes after the
loop's own `quit_ = false`: no state is reached in which it joins a loop that runs on.  A `quit()`
that comes earlier can be lost. -/
theorem quit_not_lost :
    (∀ (as : List (ThreadAction T F)) (s : EventLoopThread T F), AllSteps step QuitsAfterReset new as →
        run step new as = some s → ¬ Hangs s) ∧
      ∀ (s s' : EventLoopThread T F) (a : ThreadAction T F), Reachable step (· = new) s →
        ¬ QuitsAfterReset s a → s.step a = some s' →
          ∃ as t, run step s' as = some t ∧ Hangs t := by
  constructor
  · intro as s hall h hhang
    have hnew : QuitKept (new : EventLoopThread T F) := by simp [QuitKept, new]
    have hkept := run_inv_of_allSteps quitKept_step hnew hall h (Or.inr hhang.1)
    rw [hhang.2.2.2] at hkept
    exact absurd hkept.1 (by simp)
  · intro s s' a hreach hg h
    refine exists_hang ?_ hg h
    refine reachable_inv ?_ publishedFirst_step hreach
    rintro _ rfl
    exact ⟨by simp [new], by simp [new], by simp [new], by simp [new]⟩

/-- The destructor's `quit()` reaches a polling loop, which returns. -/
theorem quit_not_lost_run :
    ∃ s : EventLoopThread Unit Nat,
      run step new [.start, .construct, .publish, .startLoopReturns, .callLoop, .loop .resetQuit,
        .loop .testQuit, .beginDestructor, .testLoop, .storeQuit, .wakeup] = some s ∧
      s.creator = .joining ∧ ¬ Hangs s := by
  refine exists_run rfl fun s hs => ⟨?_, quit_not_lost.1 _ s ?_ hs⟩
  · cases hs
    rfl
  · simp [AllSteps, QuitsAfterReset, QuitReset, step, mayAct, EventLoop.step, EventLoop.enabled,
      EventLoop.next, new, EventLoop.new]

/-- `quit()` between the publication of `loop_` and `quit_ = false`: the destructor joins a loop
that runs on. -/
theorem quit_lost :
    ∃ s : EventLoopThread Unit Nat,
      run step new [.start, .construct, .publish, .startLoopReturns, .beginDestructor, .testLoop,
        .storeQuit, .wakeup, .callLoop, .loop .resetQuit, .loop .testQuit] = some s ∧
      s.loop.pc = .polling ∧ Hangs s := by
  refine exists_run rfl fun s hs => ?_
  cases hs
  exact ⟨rfl, rfl, rfl, by simp [EventLoop.next], rfl⟩

end EventLoopThread
end Muduo
