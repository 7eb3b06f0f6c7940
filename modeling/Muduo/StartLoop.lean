import Muduo.EventLoopThread
import Mathlib.Tactic.SplitIfs

/-!
# Thread::start and startLoop

`Thread::start`, `EventLoopThread::startLoop` and `EventLoopThread::threadFunc` one operation on the
semaphore, the mutex or the condition variable at a time.  `cond_.wait` may wake up without a notification.

* `StartLoop.abs`: the state seen as an `EventLoopThread`, whose `start`, `publish` and
  `startLoopReturns` are single steps.  Every run here is a run there (`startLoop_refines`).
* `Handshake`: the invariant.  The mutex is held by the party that is between its `lock` and its `unlock`,
  and what `startLoop` returns is the loop (`startLoop_returns_loop`).
* `startLoop` returns after a bounded number of steps, but for the spurious wakeups, as long as `loop()`
  has not come to its end (`startLoop_bounded`); a loop that ends before `startLoop` has seen it leaves the
  creator waiting for ever (`startLoop_misses`).
-/

namespace Muduo

open Transition

/-- Where the creator is. -/
inductive StarterPc
  /-- before `startLoop()` -/
  | ready
  /-- in `thread_.start()`, before the `std::thread` is made -/
  | creatingThread
  /-- before `sem_wait` -/
  | semWaiting
  /-- before `lock(mutex_)` -/
  | locking
  /-- at `while (loop_ == nullptr)`, with the mutex -/
  | testing
  /-- in `cond_.wait`, asleep -/
  | waiting
  /-- in `cond_.wait`, awake and about to take the mutex again -/
  | relocking
  /-- before `loop = loop_`, with the mutex -/
  | reading
  /-- behind `startLoop()`, and in the destructor -/
  | behind (pc : CreatorPc)
deriving DecidableEq, Repr

/-- Where the new thread is. -/
inductive RunnerPc
  | notStarted
  /-- before `tid_ = CurrentThread::tid()` -/
  | settingTid
  /-- before `sem_post` -/
  | posting
  /-- before `EventLoop loop;` -/
  | constructing
  | initCallback
  /-- before the first `lock(mutex_)` -/
  | locking
  /-- before `loop_ = &loop`, with the mutex -/
  | setting
  /-- before `cond_.notify_one()`, with the mutex -/
  | notifying
  /-- at the end of the block, with the mutex -/
  | unlocking
  /-- before `loop.loop()` -/
  | published
  | looping
  /-- before the second `lock(mutex_)` -/
  | lockingAgain
  /-- before `loop_ = nullptr`, with the mutex -/
  | clearing
  /-- at the end of `threadFunc`, with the mutex -/
  | releasing
  /-- before `~EventLoop` -/
  | destructing
  | finished
deriving DecidableEq, Repr

inductive Party
  | creator | thread
deriving DecidableEq, Repr

structure StartLoop (T F : Type*) where
  loop : EventLoop (Option T) F
  /-- `loop_ != nullptr` -/
  loopSet : Bool
  exiting : Bool
  /-- `Thread::started_` -/
  started : Bool
  /-- `tid_ != 0` -/
  tidSet : Bool
  /-- the count of the semaphore in `Thread::start` -/
  sem : Nat
  /-- who holds `mutex_` -/
  mutex : Option Party
  creator : StarterPc
  thread : RunnerPc
  /-- whether what `startLoop` returned is `&loop` -/
  result : Option Bool

inductive StartAction (T F : Type*)
  /-- the next operation of the creator in `startLoop` -/
  | creator
  /-- the next operation of the new thread outside `loop()` -/
  | thread
  /-- `cond_.wait` wakes up without a notification -/
  | spurious
  /-- a step of the destructor -/
  | destructor (a : ThreadAction T F)
  /-- a step of the loop thread in `loop()` or in `callback_`, or of a further thread -/
  | loop (a : LoopAction (Option T) F)

namespace StartLoop

variable {T F : Type*}

def new : StartLoop T F where
  loop := EventLoop.new
  loopSet := false
  exiting := false
  started := false
  tidSet := false
  sem := 0
  mutex := none
  creator := .ready
  thread := .notStarted
  result := none

/-! ## Seen as an EventLoopThread -/

end StartLoop

def StarterPc.abs : StarterPc → CreatorPc
  | .ready | .creatingThread => .ready
  | .semWaiting | .locking | .testing | .waiting | .relocking | .reading => .waiting
  | .behind pc => pc

def RunnerPc.abs : RunnerPc → ThreadPc
  | .notStarted => .notStarted
  | .settingTid | .posting | .constructing => .constructing
  | .initCallback | .locking | .setting => .initCallback
  | .notifying | .unlocking | .published => .published
  | .looping | .lockingAgain | .clearing => .looping
  | .releasing | .destructing | .finished => .finished

/-- What the creator has still to do, if it is woken up once more. -/
def StarterPc.left : StarterPc → Nat
  | .ready => 8
  | .creatingThread => 7
  | .semWaiting => 6
  | .locking | .relocking => 5
  | .testing => 4
  | .waiting | .reading => 3
  | .behind _ => 0

/-- How far the new thread has come. -/
def RunnerPc.rank : RunnerPc → Nat
  | .notStarted => 0
  | .settingTid => 1
  | .posting => 2
  | .constructing => 3
  | .initCallback => 4
  | .locking => 5
  | .setting => 6
  | .notifying => 7
  | .unlocking => 8
  | .published => 9
  | .looping => 10
  | .lockingAgain => 11
  | .clearing => 12
  | .releasing => 13
  | .destructing => 14
  | .finished => 15

theorem RunnerPc.rank_le (pc : RunnerPc) : pc.rank ≤ 15 := by
  cases pc <;> decide

namespace StartLoop

def abs (s : StartLoop T F) : EventLoopThread T F where
  loop := s.loop
  loopSet := s.loopSet
  exiting := s.exiting
  creator := s.creator.abs
  thread := s.thread.abs

/-! ## Steps -/

/-- Who may act on the loop: the loop thread itself only in `callback_` and in `loop()`. -/
def mayAct (s : StartLoop T F) (a : LoopAction (Option T) F) : Bool :=
  s.abs.mayAct a && (a.thread.isSome || s.thread == .initCallback || s.thread == .looping)

def creatorStep (s : StartLoop T F) : Option (StartLoop T F) :=
  match s.creator with
  | .ready => some { s with started := true, creator := .creatingThread }
  | .creatingThread => some { s with thread := .settingTid, creator := .semWaiting }
  | .semWaiting =>
    if 0 < s.sem then some { s with sem := s.sem - 1, creator := .locking } else none
  | .locking | .relocking =>
    if s.mutex = none then some { s with mutex := some .creator, creator := .testing } else none
  | .testing =>
    if s.loopSet then some { s with creator := .reading }
    else some { s with mutex := none, creator := .waiting }
  | .reading => some { s with mutex := none, creator := .behind .started, result := some s.loopSet }
  | .waiting | .behind _ => none

/-- `cond_.notify_one()`. -/
def notifyOne (pc : StarterPc) : StarterPc := if pc = .waiting then .relocking else pc

variable [DecidableEq T]

def threadStep (s : StartLoop T F) : Option (StartLoop T F) :=
  match s.thread with
  | .settingTid => some { s with tidSet := true, thread := .posting }
  | .posting => some { s with sem := s.sem + 1, thread := .constructing }
  | .constructing => some { s with loop := EventLoop.new, thread := .initCallback }
  | .initCallback => some { s with thread := .locking }
  | .locking =>
    if s.mutex = none then some { s with mutex := some .thread, thread := .setting } else none
  | .setting => some { s with loopSet := true, thread := .notifying }
  | .notifying => some { s with creator := notifyOne s.creator, thread := .unlocking }
  | .unlocking => some { s with mutex := none, thread := .published }
  | .published => (s.loop.step .enterLoop).map fun loop => { s with loop, thread := .looping }
  | .looping => if s.loop.pc = .outside then some { s with thread := .lockingAgain } else none
  | .lockingAgain =>
    if s.mutex = none then some { s with mutex := some .thread, thread := .clearing } else none
  | .clearing => some { s with loopSet := false, thread := .releasing }
  | .releasing => some { s with mutex := none, thread := .destructing }
  | .destructing => some { s with thread := .finished }
  | .notStarted | .finished => none

/-- The steps of `~EventLoopThread`; `join` waits for the end of the thread. -/
def mayDestroy (s : StartLoop T F) : ThreadAction T F → Bool
  | .beginDestructor | .testLoop | .storeQuit | .wakeup => true
  | .join => s.thread == .finished
  | _ => false

def step (s : StartLoop T F) : StartAction T F → Option (StartLoop T F)
  | .creator => s.creatorStep
  | .thread => s.threadStep
  | .spurious => if s.creator = .waiting then some { s with creator := .relocking } else none
  | .destructor a =>
    match s.creator with
    | .behind _ =>
      if s.mayDestroy a then
        (s.abs.step a).map fun e =>
          { s with loop := e.loop, exiting := e.exiting, creator := .behind e.creator }
      else none
    | _ => none
  | .loop a => if s.mayAct a then (s.loop.step a).map fun loop => { s with loop } else none

/-! ## What an operation does -/

variable {s s' : StartLoop T F}

/-- The operations of the creator. -/
inductive CreatorMoves (s : StartLoop T F) : StartLoop T F → Prop
  | ready (hpc : s.creator = .ready) :
      CreatorMoves s { s with started := true, creator := .creatingThread }
  | creatingThread (hpc : s.creator = .creatingThread) :
      CreatorMoves s { s with thread := .settingTid, creator := .semWaiting }
  | semWaiting (hpc : s.creator = .semWaiting) (hsem : 0 < s.sem) :
      CreatorMoves s { s with sem := s.sem - 1, creator := .locking }
  | lock (hpc : s.creator = .locking ∨ s.creator = .relocking) (hmutex : s.mutex = none) :
      CreatorMoves s { s with mutex := some .creator, creator := .testing }
  | found (hpc : s.creator = .testing) (hset : s.loopSet = true) :
      CreatorMoves s { s with creator := .reading }
  | wait (hpc : s.creator = .testing) (hset : s.loopSet = false) :
      CreatorMoves s { s with mutex := none, creator := .waiting }
  | reading (hpc : s.creator = .reading) :
      CreatorMoves s { s with mutex := none, creator := .behind .started, result := some s.loopSet }

omit [DecidableEq T] in
theorem moves_of_creatorStep (h : s.creatorStep = some s') : CreatorMoves s s' := by
  unfold creatorStep at h
  split at h
  · next hpc =>
    cases h
    exact .ready hpc
  · next hpc =>
    cases h
    exact .creatingThread hpc
  · next hpc =>
    split at h
    · next hsem =>
      cases h
      exact .semWaiting hpc hsem
    · cases h
  · next hpc =>
    split at h
    · next hmutex =>
      cases h
      exact .lock (Or.inl hpc) hmutex
    · cases h
  · next hpc =>
    split at h
    · next hmutex =>
      cases h
      exact .lock (Or.inr hpc) hmutex
    · cases h
  · next hpc =>
    split at h
    · next hset =>
      cases h
      exact .found hpc hset
    · next hset =>
      cases h
      exact .wait hpc (by simpa using hset)
  · next hpc =>
    cases h
    exact .reading hpc
  · cases h
  · cases h

/-- The operations of the thread. -/
inductive ThreadMoves (s : StartLoop T F) : StartLoop T F → Prop
  | settingTid (hpc : s.thread = .settingTid) :
      ThreadMoves s { s with tidSet := true, thread := .posting }
  | posting (hpc : s.thread = .posting) :
      ThreadMoves s { s with sem := s.sem + 1, thread := .constructing }
  | constructing (hpc : s.thread = .constructing) :
      ThreadMoves s { s with loop := EventLoop.new, thread := .initCallback }
  | initCallback (hpc : s.thread = .initCallback) : ThreadMoves s { s with thread := .locking }
  | locking (hpc : s.thread = .locking) (hmutex : s.mutex = none) :
      ThreadMoves s { s with mutex := some .thread, thread := .setting }
  | setting (hpc : s.thread = .setting) : ThreadMoves s { s with loopSet := true, thread := .notifying }
  | notifying (hpc : s.thread = .notifying) :
      ThreadMoves s { s with creator := notifyOne s.creator, thread := .unlocking }
  | unlocking (hpc : s.thread = .unlocking) :
      ThreadMoves s { s with mutex := none, thread := .published }
  | published {loop : EventLoop (Option T) F} (hpc : s.thread = .published)
      (hloop : s.loop.step .enterLoop = some loop) : ThreadMoves s { s with loop, thread := .looping }
  | looping (hpc : s.thread = .looping) (hout : s.loop.pc = .outside) :
      ThreadMoves s { s with thread := .lockingAgain }
  | lockingAgain (hpc : s.thread = .lockingAgain) (hmutex : s.mutex = none) :
      ThreadMoves s { s with mutex := some .thread, thread := .clearing }
  | clearing (hpc : s.thread = .clearing) :
      ThreadMoves s { s with loopSet := false, thread := .releasing }
  | releasing (hpc : s.thread = .releasing) :
      ThreadMoves s { s with mutex := none, thread := .destructing }
  | destructing (hpc : s.thread = .destructing) : ThreadMoves s { s with thread := .finished }

theorem moves_of_threadStep (h : s.threadStep = some s') : ThreadMoves s s' := by
  unfold threadStep at h
  split at h
  · next hpc =>
    cases h
    exact .settingTid hpc
  · next hpc =>
    cases h
    exact .posting hpc
  · next hpc =>
    cases h
    exact .constructing hpc
  · next hpc =>
    cases h
    exact .initCallback hpc
  · next hpc =>
    split at h
    · next hmutex =>
      cases h
      exact .locking hpc hmutex
    · cases h
  · next hpc =>
    cases h
    exact .setting hpc
  · next hpc =>
    cases h
    exact .notifying hpc
  · next hpc =>
    cases h
    exact .unlocking hpc
  · next hpc =>
    obtain ⟨loop, hloop, rfl⟩ := Option.map_eq_some_iff.mp h
    exact .published hpc hloop
  · next hpc =>
    split at h
    · next hout =>
      cases h
      exact .looping hpc hout
    · cases h
  · next hpc =>
    split at h
    · next hmutex =>
      cases h
      exact .lockingAgain hpc hmutex
    · cases h
  · next hpc =>
    cases h
    exact .clearing hpc
  · next hpc =>
    cases h
    exact .releasing hpc
  · next hpc =>
    cases h
    exact .destructing hpc
  · cases h
  · cases h

/-! ## The invariant -/

/-- Behind `startLoop()`. -/
def isBehind (s : StartLoop T F) : Bool :=
  match s.creator with
  | .behind _ => true
  | _ => false

/-- The semaphore and the mutex order the two parties. -/
structure Handshake (s : StartLoop T F) : Prop where
  made : s.creator = .ready ∨ s.creator = .creatingThread → s.thread = .notStarted ∧ s.sem = 0
  /-- the thread counts the semaphore up once, before the creator counts it down -/
  counting : s.creator = .semWaiting →
    1 ≤ s.thread.rank ∧ s.sem = if s.thread.rank ≤ 2 then 0 else 1
  counted : s.creator ≠ .ready → s.creator ≠ .creatingThread → s.creator ≠ .semWaiting →
    3 ≤ s.thread.rank
  tid : 2 ≤ s.thread.rank → s.tidSet = true
  creatorHolds : s.mutex = some .creator ↔ s.creator = .testing ∨ s.creator = .reading
  threadHolds : s.mutex = some .thread ↔
    6 ≤ s.thread.rank ∧ s.thread.rank ≤ 8 ∨ s.thread.rank = 12 ∨ s.thread.rank = 13
  loopSet : s.loopSet = true ↔ 7 ≤ s.thread.rank ∧ s.thread.rank ≤ 12
  reading : s.creator = .reading → s.loopSet = true
  /-- a creator that sleeps has not been passed over -/
  waiting : s.creator = .waiting → s.thread.rank ≤ 7 ∨ 13 ≤ s.thread.rank
  result : s.isBehind = true → s.result = some true ∧ 7 ≤ s.thread.rank
  outside : 4 ≤ s.thread.rank ∧ s.thread.rank ≤ 9 ∨ 11 ≤ s.thread.rank → s.loop.pc = .outside

omit [DecidableEq T] in
theorem handshake_new : Handshake (new : StartLoop T F) := by
  constructor <;> simp [new, RunnerPc.rank, isBehind]

variable {s s' : StartLoop T F}

omit [DecidableEq T] in
/-- The creator goes on behind `sem_wait`, the thread standing still. -/
theorem Handshake.creator (h : Handshake s) (hthread : s'.thread = s.thread) (hloop : s'.loop = s.loop)
    (hset : s'.loopSet = s.loopSet) (htid : s'.tidSet = s.tidSet) (hcounted : 3 ≤ s.thread.rank)
    (hpc : s'.creator ≠ .ready ∧ s'.creator ≠ .creatingThread ∧ s'.creator ≠ .semWaiting)
    (hholds : s'.mutex = some .creator ↔ s'.creator = .testing ∨ s'.creator = .reading)
    (hmutex : s'.mutex = some .thread ↔ s.mutex = some .thread)
    (hreading : s'.creator = .reading → s.loopSet = true)
    (hwaiting : s'.creator = .waiting → s.thread.rank ≤ 7 ∨ 13 ≤ s.thread.rank)
    (hresult : s'.isBehind = true → s'.result = some true ∧ 7 ≤ s.thread.rank) : Handshake s' := by
  constructor
  · rintro (hready | hcreating)
    · exact absurd hready hpc.1
    · exact absurd hcreating hpc.2.1
  · exact fun hsem => absurd hsem hpc.2.2
  · rw [hthread]
    exact fun _ _ _ => hcounted
  · rw [hthread, htid]
    exact h.tid
  · exact hholds
  · rw [hmutex, hthread]
    exact h.threadHolds
  · rw [hset, hthread]
    exact h.loopSet
  · rw [hset]
    exact hreading
  · rw [hthread]
    exact hwaiting
  · rw [hthread]
    exact hresult
  · rw [hthread, hloop]
    exact h.outside

omit [DecidableEq T] in
/-- An operation of the creator. -/
theorem handshake_creatorMoves (h : Handshake s) (hmove : CreatorMoves s s') : Handshake s' := by
  have hfree : ∀ {pc}, s.creator = pc → pc ≠ .testing → pc ≠ .reading → s.mutex ≠ some .creator := by
    rintro pc hpc htesting hreading hmutex
    rcases h.creatorHolds.mp hmutex with he | he
    · exact htesting (hpc.symm.trans he)
    · exact hreading (hpc.symm.trans he)
  have hheld : s.creator = .testing ∨ s.creator = .reading → s.mutex = some .creator :=
    h.creatorHolds.mpr
  cases hmove with
  | ready hpc =>
    have hmutex := hfree hpc (by decide) (by decide)
    obtain ⟨hthread, hsem⟩ := h.made (Or.inl hpc)
    exact ⟨fun _ => ⟨hthread, hsem⟩, by simp, by simp, h.tid, by simp [hmutex], h.threadHolds, h.loopSet,
      by simp, by simp, by simp [isBehind], h.outside⟩
  | creatingThread hpc =>
    have hmutex := hfree hpc (by decide) (by decide)
    obtain ⟨hthread, hsem⟩ := h.made (Or.inr hpc)
    have hholds := h.threadHolds
    have hset := h.loopSet
    simp only [hthread, RunnerPc.rank] at hholds hset
    exact ⟨by simp, by simp [hsem, RunnerPc.rank], by simp, by simp [RunnerPc.rank], by simp [hmutex],
      by simpa [RunnerPc.rank] using hholds, by simpa [RunnerPc.rank] using hset, by simp, by simp,
      by simp [isBehind], by simp [RunnerPc.rank]⟩
  | semWaiting hpc hsem =>
    have hmutex := hfree hpc (by decide) (by decide)
    have hposted : 3 ≤ s.thread.rank := by
      obtain ⟨-, hcount⟩ := h.counting hpc
      split at hcount
      · omega
      · omega
    exact h.creator rfl rfl rfl rfl hposted (by simp) (by simp [hmutex]) Iff.rfl (by simp) (by simp)
      (by simp [isBehind])
  | lock hpc hmutex =>
    have hcounted : 3 ≤ s.thread.rank := by
      rcases hpc with hpc | hpc
      · exact h.counted (by simp [hpc]) (by simp [hpc]) (by simp [hpc])
      · exact h.counted (by simp [hpc]) (by simp [hpc]) (by simp [hpc])
    exact h.creator rfl rfl rfl rfl hcounted (by simp) (by simp) (by simp [hmutex]) (by simp) (by simp)
      (by simp [isBehind])
  | found hpc hset =>
    have hmutex := hheld (Or.inl hpc)
    have hcounted := h.counted (by simp [hpc]) (by simp [hpc]) (by simp [hpc])
    exact h.creator rfl rfl rfl rfl hcounted (by simp) (by simp [hmutex]) Iff.rfl (fun _ => hset) (by simp)
      (by simp [isBehind])
  | wait hpc hnull =>
    have hmutex := hheld (Or.inl hpc)
    have hcounted := h.counted (by simp [hpc]) (by simp [hpc]) (by simp [hpc])
    -- `loop_` is null before the thread sets it and after it has cleared it
    have hrank : s.thread.rank ≤ 7 ∨ 13 ≤ s.thread.rank := by
      have hle := s.thread.rank_le
      have hset := h.loopSet
      simp only [hnull, Bool.false_eq_true, false_iff] at hset
      omega
    exact h.creator rfl rfl rfl rfl hcounted (by simp) (by simp) (by simp [hmutex]) (by simp)
      (fun _ => hrank) (by simp [isBehind])
  | reading hpc =>
    have hmutex := hheld (Or.inr hpc)
    have hcounted := h.counted (by simp [hpc]) (by simp [hpc]) (by simp [hpc])
    have hset := h.reading hpc
    exact h.creator rfl rfl rfl rfl hcounted (by simp) (by simp) (by simp [hmutex]) (by simp) (by simp)
      (fun _ => ⟨by simp [hset], (h.loopSet.mp hset).1⟩)

/-- What the thread's next operation does, by how far the thread has come. -/
structure Advances (s s' : StartLoop T F) : Prop where
  started : 1 ≤ s.thread.rank
  rank : s'.thread.rank = s.thread.rank + 1
  sem : s'.sem = if s.thread.rank = 2 then s.sem + 1 else s.sem
  tid : s.tidSet = true ∨ s.thread.rank = 1 → s'.tidSet = true
  mutex : s'.mutex =
    if s.thread.rank = 5 ∨ s.thread.rank = 11 then some .thread
    else if s.thread.rank = 8 ∨ s.thread.rank = 13 then none else s.mutex
  free : s.thread.rank = 5 ∨ s.thread.rank = 11 → s.mutex = none
  loopSet : s'.loopSet =
    if s.thread.rank = 6 then true else if s.thread.rank = 12 then false else s.loopSet
  result : s'.result = s.result
  creator : s'.creator = if s.thread.rank = 7 then notifyOne s.creator else s.creator
  outside : s.loop.pc = .outside ∨ s.thread.rank = 3 ∨ s.thread.rank = 10 →
    s.thread.rank ≠ 9 → s'.loop.pc = .outside

theorem ThreadMoves.advances (h : ThreadMoves s s') : Advances s s' := by
  cases h with
  | settingTid hpc | posting hpc | constructing hpc | initCallback hpc | setting hpc | notifying hpc
  | unlocking hpc | clearing hpc | releasing hpc | destructing hpc =>
    constructor <;> simp [hpc, RunnerPc.rank, EventLoop.new]
  | locking hpc hmutex | lockingAgain hpc hmutex =>
    constructor <;> simp [hpc, hmutex, RunnerPc.rank]
  | published hpc =>
    constructor <;> simp [hpc, RunnerPc.rank]
  | looping hpc hout =>
    constructor <;> simp [hpc, hout, RunnerPc.rank]

omit [DecidableEq T] in
/-- A notification changes nothing but that a creator that sleeps wakes up. -/
theorem Advances.creator_eq (h : Advances s s') {pc : StarterPc} (hwaiting : pc ≠ .waiting)
    (hrelocking : pc ≠ .relocking) : s'.creator = pc ↔ s.creator = pc := by
  rw [h.creator]
  unfold notifyOne
  split
  · split
    · next hasleep => simp [hasleep, hwaiting.symm, hrelocking.symm]
    · exact Iff.rfl
  · exact Iff.rfl

omit [DecidableEq T] in
theorem Advances.waiting (h : Advances s s') (hasleep : s'.creator = .waiting) :
    s.creator = .waiting ∧ s.thread.rank ≠ 7 := by
  rw [h.creator] at hasleep
  unfold notifyOne at hasleep
  split at hasleep
  · split at hasleep
    · cases hasleep
    · next hawake => exact absurd hasleep hawake
  · next hrank => exact ⟨hasleep, hrank⟩

omit [DecidableEq T] in
theorem Advances.isBehind_eq (h : Advances s s') : s'.isBehind = s.isBehind := by
  unfold isBehind
  rw [h.creator]
  by_cases hseven : s.thread.rank = 7 ∧ s.creator = .waiting
  · rw [if_pos hseven.1, notifyOne, if_pos hseven.2, hseven.2]
  · have hsame : (if s.thread.rank = 7 then notifyOne s.creator else s.creator) = s.creator := by
      unfold notifyOne
      split_ifs with hrank hasleep
      · exact absurd ⟨hrank, hasleep⟩ hseven
      · rfl
      · rfl
    rw [hsame]

omit [DecidableEq T] in
/-- An operation of the new thread. -/
theorem handshake_advances (h : Handshake s) (ha : Advances s s') : Handshake s' := by
  have hrank := ha.rank
  have hle := s'.thread.rank_le
  have hstarted := ha.started
  -- the creator does not hold the mutex while the thread takes or releases it
  have hnot : (5 ≤ s.thread.rank ∧ s.thread.rank ≤ 8) ∧ s.thread.rank ≠ 6 ∧ s.thread.rank ≠ 7 ∨
      11 ≤ s.thread.rank ∧ s.thread.rank ≤ 13 → s.mutex ≠ some .creator := by
    intro hrange hmutex
    by_cases hfree : s.thread.rank = 5 ∨ s.thread.rank = 11
    · rw [ha.free hfree] at hmutex
      cases hmutex
    · rw [h.threadHolds.mpr (by omega)] at hmutex
      cases hmutex
  constructor
  · rintro (hready | hcreating)
    · have hthread := (h.made (Or.inl ((ha.creator_eq (by decide) (by decide)).mp hready))).1
      rw [hthread] at hstarted
      simp [RunnerPc.rank] at hstarted
    · have hthread := (h.made (Or.inr ((ha.creator_eq (by decide) (by decide)).mp hcreating))).1
      rw [hthread] at hstarted
      simp [RunnerPc.rank] at hstarted
  · intro hsem
    have hcount := (h.counting ((ha.creator_eq (by decide) (by decide)).mp hsem)).2
    refine ⟨by omega, ?_⟩
    rw [ha.sem, hcount, hrank]
    split_ifs <;> omega
  · intro hready hcreating hsem
    rw [ne_eq, ha.creator_eq (by decide) (by decide)] at hready hcreating hsem
    have hcounted := h.counted hready hcreating hsem
    omega
  · intro htwo
    apply ha.tid
    by_cases hone : s.thread.rank = 1
    · exact Or.inr hone
    · exact Or.inl (h.tid (by omega))
  · rw [ha.creator_eq (by decide) (by decide), ha.creator_eq (by decide) (by decide), ← h.creatorHolds,
      ha.mutex]
    split_ifs with htake hrelease
    · simp [hnot (by omega)]
    · simp [hnot (by omega)]
    · exact Iff.rfl
  · have hholds := h.threadHolds
    rw [ha.mutex, hrank]
    split_ifs with htake hrelease
    · simp only [true_iff]
      omega
    · simp only [false_iff]
      omega
    · rw [hholds]
      omega
  · have hset := h.loopSet
    rw [ha.loopSet, hrank]
    split_ifs with hsetting hclearing
    · simp only [true_iff]
      omega
    · simp only [false_iff]
      omega
    · rw [hset]
      omega
  · intro hreading
    have hpc := (ha.creator_eq (by decide) (by decide)).mp hreading
    have hset := h.reading hpc
    rw [ha.loopSet]
    split_ifs with hsetting hclearing
    · rfl
    · exact absurd (h.creatorHolds.mpr (Or.inr hpc)) (hnot (by omega))
    · exact hset
  · intro hasleep
    obtain ⟨hpc, hseven⟩ := ha.waiting hasleep
    have := h.waiting hpc
    omega
  · intro hbehind
    rw [ha.isBehind_eq] at hbehind
    obtain ⟨hresult, hseven⟩ := h.result hbehind
    exact ⟨ha.result.trans hresult, by omega⟩
  · intro hrange
    refine ha.outside ?_ (by omega)
    by_cases hmake : s.thread.rank = 3 ∨ s.thread.rank = 10
    · exact Or.inr hmake
    · exact Or.inl (h.outside (by omega))

/-- A step of the destructor changes neither the thread nor `loop_`. -/
theorem destructor_step {e e' : EventLoopThread T F} {a : ThreadAction T F}
    (ha : s.mayDestroy a = true) (h : e.step a = some e') :
    e'.thread = e.thread ∧ e'.loopSet = e.loopSet ∧ e'.loop.pc = e.loop.pc := by
  cases a with
  | beginDestructor | testLoop | join =>
    simp only [EventLoopThread.step, Option.ite_none_right_eq_some, Option.some.injEq] at h
    obtain ⟨-, rfl⟩ := h
    exact ⟨rfl, rfl, rfl⟩
  | storeQuit | wakeup =>
    simp only [EventLoopThread.step, Option.ite_none_right_eq_some, Option.map_eq_some_iff] at h
    obtain ⟨-, loop, hloop, rfl⟩ := h
    obtain ⟨-, rfl⟩ := EventLoop.step_eq_some.mp hloop
    exact ⟨rfl, rfl, rfl⟩
  | start | startLoopReturns | construct | publish | callLoop | clearLoop | loop => cases ha

/-- Outside `loop()` the loop stays outside. -/
theorem outside_of_mayAct {a : LoopAction (Option T) F} {loop : EventLoop (Option T) F}
    (hmay : s.mayAct a = true) (hstep : s.loop.step a = some loop) (hthread : s.thread ≠ .looping)
    (hpc : s.loop.pc = .outside) : loop.pc = .outside := by
  obtain ⟨-, rfl⟩ := EventLoop.step_eq_some.mp hstep
  cases a with
  | queueInLoop | quit | wakeup | loopQueueInLoop | loopQuit => exact hpc
  | enterLoop => cases hmay
  | resetQuit | testQuit | pollReturns | handleRead | beginFunctors | swapFunctors | callFunctor
  | endFunctors | destroyFunctors =>
    obtain ⟨hlooping, hown⟩ := Bool.and_eq_true_iff.mp hmay
    have hinit : s.thread = .initCallback := by
      simpa [LoopAction.thread, hthread] using hown
    simp [EventLoopThread.mayAct, abs, RunnerPc.abs, hinit] at hlooping

/-- **Every step** keeps the invariant. -/
theorem handshake_step (s : StartLoop T F) (a : StartAction T F) (s' : StartLoop T F)
    (h : Handshake s) (hstep : s.step a = some s') : Handshake s' := by
  cases a with
  | creator => exact handshake_creatorMoves h (moves_of_creatorStep hstep)
  | thread => exact handshake_advances h (moves_of_threadStep hstep).advances
  | spurious =>
    simp only [step, Option.ite_none_right_eq_some, Option.some.injEq] at hstep
    obtain ⟨hasleep, rfl⟩ := hstep
    obtain ⟨hmade, hcounting, hcounted, htid, hcreator, hthread, hset, hreading, hwaiting, hresult,
      houtside⟩ := h
    constructor <;> simp_all [isBehind]
  | destructor a =>
    simp only [step] at hstep
    split at hstep
    · next pc hbehind =>
      simp only [Option.ite_none_right_eq_some, Option.map_eq_some_iff] at hstep
      obtain ⟨ha, e, he, rfl⟩ := hstep
      have hpc : e.loop.pc = s.loop.pc := (destructor_step ha he).2.2
      obtain ⟨hmade, hcounting, hcounted, htid, hcreator, hthread, hset, hreading, hwaiting, hresult,
        houtside⟩ := h
      constructor <;> simp_all [isBehind]
    · cases hstep
  | loop a =>
    simp only [step, Option.ite_none_right_eq_some, Option.map_eq_some_iff] at hstep
    obtain ⟨hmay, loop, hloop, rfl⟩ := hstep
    refine ⟨h.made, h.counting, h.counted, h.tid, h.creatorHolds, h.threadHolds, h.loopSet, h.reading,
      h.waiting, h.result, fun hrange => ?_⟩
    refine outside_of_mayAct hmay hloop ?_ (h.outside hrange)
    intro hlooping
    simp only [hlooping, RunnerPc.rank] at hrange
    omega

theorem handshake_of_run {as : List (StartAction T F)} (hrun : run step new as = some s) : Handshake s :=
  run_inv handshake_step handshake_new hrun

/-! ## The refinement -/

/-- An operation of the creator: `start` when it makes the thread, `startLoopReturns` when it reads
`loop_`. -/
theorem creatorMoves_refines (h : Handshake s) (hmove : CreatorMoves s s') :
    s'.abs = s.abs ∨ ∃ b, s.abs.step b = some s'.abs := by
  cases hmove with
  | ready hpc | semWaiting hpc | found hpc | wait hpc =>
    left
    simp [abs, hpc, StarterPc.abs]
  | creatingThread hpc =>
    refine Or.inr ⟨.start, ?_⟩
    have hthread := (h.made (Or.inr hpc)).1
    simp [EventLoopThread.step, abs, hpc, StarterPc.abs, RunnerPc.abs]
  | lock hpc =>
    left
    rcases hpc with hpc | hpc
    · simp [abs, hpc, StarterPc.abs]
    · simp [abs, hpc, StarterPc.abs]
  | reading hpc =>
    refine Or.inr ⟨.startLoopReturns, ?_⟩
    simp [EventLoopThread.step, abs, hpc, h.reading hpc, StarterPc.abs]

/-- An operation of the thread: the constructor, the writes of `loop_` and the call of `loop()`. -/
theorem threadMoves_refines (h : Handshake s) (hmove : ThreadMoves s s') :
    s'.abs = s.abs ∨ ∃ b, s.abs.step b = some s'.abs := by
  cases hmove with
  | settingTid hpc | posting hpc | initCallback hpc | locking hpc | unlocking hpc | looping hpc
  | lockingAgain hpc | releasing hpc | destructing hpc =>
    left
    simp [abs, hpc, RunnerPc.abs]
  | constructing hpc =>
    refine Or.inr ⟨.construct, ?_⟩
    simp [EventLoopThread.step, abs, hpc, RunnerPc.abs]
  | setting hpc =>
    refine Or.inr ⟨.publish, ?_⟩
    simp [EventLoopThread.step, abs, hpc, RunnerPc.abs]
  | notifying hpc =>
    left
    have hsame : (notifyOne s.creator).abs = s.creator.abs := by
      unfold notifyOne
      split
      · next hasleep =>
        rw [hasleep]
        rfl
      · rfl
    simp [abs, hpc, hsame, RunnerPc.abs]
  | published hpc hloop =>
    refine Or.inr ⟨.callLoop, ?_⟩
    simp [EventLoopThread.step, abs, hpc, RunnerPc.abs, hloop]
  | clearing hpc =>
    refine Or.inr ⟨.clearLoop, ?_⟩
    have hout := h.outside (Or.inr (by simp [hpc, RunnerPc.rank]))
    simp [EventLoopThread.step, abs, hpc, RunnerPc.abs, hout]

/-- **One operation** is one step of `EventLoopThread`, or none. -/
theorem step_refines (s : StartLoop T F) (a : StartAction T F) (s' : StartLoop T F) (h : Handshake s)
    (hstep : s.step a = some s') : ∃ bs, run EventLoopThread.step s.abs bs = some s'.abs := by
  have hnone : s'.abs = s.abs → ∃ bs, run EventLoopThread.step s.abs bs = some s'.abs := fun heq =>
    ⟨[], by rw [heq]; rfl⟩
  have hone : ∀ b, s.abs.step b = some s'.abs →
      ∃ bs, run EventLoopThread.step s.abs bs = some s'.abs := fun b hb =>
    ⟨[b], run_cons_eq_some.mpr ⟨_, hb, rfl⟩⟩
  cases a with
  | creator =>
    rcases creatorMoves_refines h (moves_of_creatorStep hstep) with heq | ⟨b, hb⟩
    · exact hnone heq
    · exact hone b hb
  | thread =>
    rcases threadMoves_refines h (moves_of_threadStep hstep) with heq | ⟨b, hb⟩
    · exact hnone heq
    · exact hone b hb
  | spurious =>
    simp only [step, Option.ite_none_right_eq_some, Option.some.injEq] at hstep
    obtain ⟨hasleep, rfl⟩ := hstep
    apply hnone
    simp [abs, hasleep, StarterPc.abs]
  | destructor a =>
    simp only [step] at hstep
    split at hstep
    · simp only [Option.ite_none_right_eq_some, Option.map_eq_some_iff] at hstep
      obtain ⟨ha, e, he, rfl⟩ := hstep
      obtain ⟨hthread, hset, -⟩ := destructor_step ha he
      apply hone a
      rw [he]
      simp only [abs, StarterPc.abs, Option.some.injEq]
      obtain ⟨loop, loopSet, exiting, creator, thread⟩ := e
      simp only at hthread hset
      rw [hthread, hset]
      rfl
    · cases hstep
  | loop a =>
    simp only [step, Option.ite_none_right_eq_some, Option.map_eq_some_iff] at hstep
    obtain ⟨hmay, loop, hloop, rfl⟩ := hstep
    apply hone (.loop a)
    have hbase := (Bool.and_eq_true_iff.mp hmay).1
    have habs : s.abs.loop = s.loop := rfl
    simp only [EventLoopThread.step, hbase, if_true, habs, hloop, Option.map_some]
    rfl

/-- A run of `startLoop` with a spurious wakeup, up to its return. -/
def usualStart : List (StartAction Unit Nat) :=
  [.creator, .creator, .thread, .thread, .creator, .creator, .creator, .spurious, .creator, .creator,
    .thread, .thread, .thread, .thread, .thread, .thread, .creator, .creator, .creator]

/-- **The handshake implements `EventLoopThread`**: every run of the operations on the semaphore, the
mutex and the condition variable, seen with `abs`, is a run in which `startLoop` waits for `loop_` and
returns in one step. -/
theorem startLoop_refines (as : List (StartAction T F)) (s : StartLoop T F)
    (hrun : run step new as = some s) : ∃ bs, run EventLoopThread.step EventLoopThread.new bs = some s.abs :=
  run_refines abs handshake_step step_refines handshake_new hrun

theorem startLoop_refines_run :
    ∃ s, run step new usualStart = some s ∧ s.abs.creator = .started ∧
      ∃ bs, run EventLoopThread.step EventLoopThread.new bs = some s.abs := by
  refine exists_run_eq (fun s : StartLoop Unit Nat => s.abs.creator) CreatorPc.started
    (by decide +kernel) fun s hs hcreator => ?_
  exact ⟨hcreator, startLoop_refines usualStart s hs⟩

/-! ## What startLoop returns -/

/-- **`startLoop` returns the loop.**  In every run, whenever `startLoop` has returned, it has returned a
pointer that is not null; the thread has set `tid_`, constructed the loop, called the callback on it and
published it.  And no two threads ever hold the mutex: who is between `lock` and `unlock` holds it. -/
theorem startLoop_returns_loop (as : List (StartAction T F)) (s : StartLoop T F)
    (hrun : run step new as = some s) :
    (s.isBehind = true → s.result = some true ∧ s.tidSet = true ∧ RunnerPc.notifying.rank ≤ s.thread.rank) ∧
      ¬ ((s.creator = .testing ∨ s.creator = .reading) ∧
        (s.thread = .setting ∨ s.thread = .notifying ∨ s.thread = .unlocking ∨ s.thread = .clearing ∨
          s.thread = .releasing)) := by
  have h := handshake_of_run hrun
  refine ⟨fun hbehind => ?_, ?_⟩
  · obtain ⟨hresult, hrank⟩ := h.result hbehind
    exact ⟨hresult, h.tid (by omega), hrank⟩
  · rintro ⟨hcreator, hthread⟩
    have hholds := h.creatorHolds.mpr hcreator
    have hrank : 6 ≤ s.thread.rank ∧ s.thread.rank ≤ 8 ∨ s.thread.rank = 12 ∨ s.thread.rank = 13 := by
      rcases hthread with hpc | hpc | hpc | hpc | hpc <;> simp [hpc, RunnerPc.rank]
    rw [h.threadHolds.mpr hrank] at hholds
    cases hholds

theorem startLoop_returns_loop_run :
    ∃ s, run step new usualStart = some s ∧ s.isBehind = true ∧ s.result = some true := by
  refine exists_run_eq (fun s : StartLoop Unit Nat => s.isBehind) true (by decide +kernel) fun s hs hbehind => ?_
  exact ⟨hbehind, ((startLoop_returns_loop usualStart s hs).1 hbehind).1⟩

/-! ## When startLoop returns -/

/-- What both have still to do; the notification pays for the test that follows it. -/
def left (s : StartLoop T F) : Nat := s.creator.left + 3 * (15 - s.thread.rank)

/-- The action is an operation of the handshake. -/
def isOperation : StartAction T F → Bool
  | .creator | .thread => true
  | _ => false

def isSpurious : StartAction T F → Bool
  | .spurious => true
  | _ => false

theorem left_step (s : StartLoop T F) (a : StartAction T F) (s' : StartLoop T F) (h : Handshake s)
    (hstep : s.step a = some s') :
    (isOperation a).toNat + s'.left ≤ s.left + 2 * (isSpurious a).toNat := by
  cases a with
  | creator =>
    cases moves_of_creatorStep hstep with
    | ready hpc | semWaiting hpc | found hpc | wait hpc | reading hpc =>
      simp only [left, hpc, StarterPc.left, isOperation, isSpurious, Bool.toNat_true, Bool.toNat_false]
      omega
    | creatingThread hpc =>
      have hthread := (h.made (Or.inr hpc)).1
      simp [left, hpc, hthread, StarterPc.left, RunnerPc.rank, isOperation, isSpurious]
    | lock hpc =>
      have hleft : s.creator.left = 5 := by
        rcases hpc with hpc | hpc
        · rw [hpc]
          rfl
        · rw [hpc]
          rfl
      have htesting : StarterPc.testing.left = 4 := rfl
      simp only [left, hleft, htesting, isOperation, isSpurious, Bool.toNat_true, Bool.toNat_false]
      omega
  | thread =>
    have hadvances := (moves_of_threadStep hstep).advances
    have hrank := hadvances.rank
    have hle := s'.thread.rank_le
    have hwake : s'.creator.left ≤ s.creator.left + 2 := by
      rw [hadvances.creator]
      unfold notifyOne
      split
      · split
        · next hasleep =>
          rw [hasleep]
          exact Nat.le_refl _
        · exact Nat.le_add_right _ _
      · exact Nat.le_add_right _ _
    simp only [left, isOperation, isSpurious, Bool.toNat_true, Bool.toNat_false]
    omega
  | spurious =>
    simp only [step, Option.ite_none_right_eq_some, Option.some.injEq] at hstep
    obtain ⟨hasleep, rfl⟩ := hstep
    simp only [left, hasleep, StarterPc.left, isOperation, isSpurious, Bool.toNat_true, Bool.toNat_false]
    omega
  | destructor a =>
    simp only [step] at hstep
    split at hstep
    · next pc hbehind =>
      simp only [Option.ite_none_right_eq_some, Option.map_eq_some_iff] at hstep
      obtain ⟨-, e, -, rfl⟩ := hstep
      simp [left, hbehind, StarterPc.left, isOperation, isSpurious]
    · cases hstep
  | loop a =>
    simp only [step, Option.ite_none_right_eq_some, Option.map_eq_some_iff] at hstep
    obtain ⟨-, loop, -, rfl⟩ := hstep
    simp [left, isOperation, isSpurious]

/-- While `loop()` has not returned, a creator in `startLoop` can go on, or waits for a thread that can. -/
theorem exists_operation (h : Handshake s) (hbehind : s.isBehind = false)
    (hloop : s.thread.rank ≤ 10) : (s.step .creator).isSome ∨ s.thread ≠ .looping ∧ (s.step .thread).isSome := by
  have hholder : s.creator ≠ .testing → s.creator ≠ .reading → s.mutex ≠ none →
      6 ≤ s.thread.rank ∧ s.thread.rank ≤ 8 := by
    intro htesting hreading hmutex
    cases hm : s.mutex with
    | none => exact absurd hm hmutex
    | some party =>
      cases party with
      | creator => exact absurd (h.creatorHolds.mp hm) (by simp [htesting, hreading])
      | thread =>
        have := h.threadHolds.mp hm
        omega
  have hthread : 6 ≤ s.thread.rank ∧ s.thread.rank ≤ 8 →
      s.thread ≠ .looping ∧ (s.step .thread).isSome := by
    intro hrank
    cases hpc : s.thread <;> simp [hpc, RunnerPc.rank] at hrank <;> simp [step, threadStep, hpc]
  cases hpc : s.creator with
  | ready | creatingThread | reading =>
    left
    simp only [step, creatorStep, hpc]
    rfl
  | testing =>
    left
    simp only [step, creatorStep, hpc]
    split
    · rfl
    · rfl
  | semWaiting =>
    obtain ⟨hmade, hcount⟩ := h.counting hpc
    by_cases hposted : s.thread.rank ≤ 2
    · right
      cases hthreadPc : s.thread <;> simp [hthreadPc, RunnerPc.rank] at hmade hposted <;>
        simp [step, threadStep, hthreadPc]
    · left
      rw [if_neg hposted] at hcount
      simp [step, creatorStep, hpc, hcount]
  | locking | relocking =>
    by_cases hmutex : s.mutex = none
    · left
      simp [step, creatorStep, hpc, hmutex]
    · exact Or.inr (hthread (hholder (by simp [hpc]) (by simp [hpc]) hmutex))
  | waiting =>
    right
    have hmade := h.counted (by simp [hpc]) (by simp [hpc]) (by simp [hpc])
    have hasleep := h.waiting hpc
    by_cases hmutex : s.mutex = none
    · cases hthreadPc : s.thread <;>
        simp [hthreadPc, RunnerPc.rank] at hmade hasleep hloop <;>
        simp [step, threadStep, hthreadPc, hmutex]
    · exact hthread (hholder (by simp [hpc]) (by simp [hpc]) hmutex)
  | behind pc => simp [isBehind, hpc] at hbehind

/-- **`startLoop` returns.**  From every state that a run reaches, the operations of the two threads are
bounded: at most two more for each spurious wakeup than `left`, which is 53 at the beginning.  And as long
as `startLoop` has not returned and `loop()` has not come to its end, one of the two can go on, the new
thread in its part before `loop()`. -/
theorem startLoop_bounded (as : List (StartAction T F)) (s : StartLoop T F)
    (hrun : run step new as = some s) :
    (∀ bs t, run step s bs = some t →
        countSteps step (fun _ a => isOperation a) s bs + t.left ≤
          s.left + 2 * countSteps step (fun _ a => isSpurious a) s bs) ∧
      (s.isBehind = false → s.thread.rank ≤ RunnerPc.looping.rank →
        (s.step .creator).isSome ∨ s.thread ≠ .looping ∧ (s.step .thread).isSome) := by
  have h := handshake_of_run hrun
  refine ⟨fun bs t hbs => ?_, exists_operation h⟩
  exact countSteps_add_le_of_setbacks (C := fun _ _ => True) (fun s a s' hs _ => handshake_step s a s' hs)
    (fun s a s' hs _ hstep => left_step s a s' hs hstep) h
    (allSteps_inv (I := fun _ => True) (fun _ _ _ => trivial) (fun _ _ _ _ _ => trivial) trivial) hbs

/-- The creator sleeps in `cond_.wait`, and the new thread can go on. -/
theorem startLoop_bounded_run :
    ∃ s, run step new (usualStart.take 10) = some s ∧ s.creator = .waiting ∧
      ((s.step .creator).isSome ∨ s.thread ≠ .looping ∧ (s.step .thread).isSome) := by
  refine exists_run_eq (fun s : StartLoop Unit Nat => (s.creator, s.thread))
    (StarterPc.waiting, RunnerPc.constructing) (by decide +kernel)
    fun s hs hlook => ?_
  simp only [Prod.mk.injEq] at hlook
  refine ⟨hlook.1, (startLoop_bounded _ s hs).2 ?_ ?_⟩
  · simp [isBehind, hlook.1]
  · simp [hlook.2, RunnerPc.rank]

/-- The creator has come too late. -/
structure Missed (s : StartLoop T F) : Prop where
  handshake : Handshake s
  cleared : RunnerPc.clearing.rank < s.thread.rank
  inside : s.isBehind = false

theorem missed_step (s : StartLoop T F) (a : StartAction T F) (s' : StartLoop T F) (h : Missed s)
    (hstep : s.step a = some s') : Missed s' := by
  have hhandshake := handshake_step s a s' h.handshake hstep
  have hnull : s.loopSet = false := by
    by_contra hset
    exact absurd (h.handshake.loopSet.mp (by simpa using hset)).2 (Nat.not_le.mpr h.cleared)
  cases a with
  | creator =>
    cases moves_of_creatorStep hstep with
    | ready | lock | semWaiting | wait => exact ⟨hhandshake, h.cleared, rfl⟩
    | creatingThread hpc =>
      have hcleared := h.cleared
      rw [(h.handshake.made (Or.inr hpc)).1] at hcleared
      cases hcleared
    | found _ hset =>
      rw [hnull] at hset
      cases hset
    | reading hpc =>
      have hset := h.handshake.reading hpc
      rw [hnull] at hset
      cases hset
  | thread =>
    have hadvances := (moves_of_threadStep hstep).advances
    refine ⟨hhandshake, ?_, ?_⟩
    · rw [hadvances.rank]
      exact Nat.lt_succ_of_lt h.cleared
    · rw [hadvances.isBehind_eq]
      exact h.inside
  | spurious =>
    simp only [step, Option.ite_none_right_eq_some, Option.some.injEq] at hstep
    obtain ⟨-, rfl⟩ := hstep
    exact ⟨hhandshake, h.cleared, rfl⟩
  | destructor a =>
    simp only [step] at hstep
    split at hstep
    · next pc hbehind =>
      have hinside := h.inside
      simp [isBehind, hbehind] at hinside
    · cases hstep
  | loop a =>
    simp only [step, Option.ite_none_right_eq_some, Option.map_eq_some_iff] at hstep
    obtain ⟨-, loop, -, rfl⟩ := hstep
    exact ⟨hhandshake, h.cleared, h.inside⟩

/-- **A loop that ends too early is missed.**  If `loop()` has returned and `loop_` is null again before
`startLoop` has returned, it never returns: it has not read `loop_`, and nobody will set it again. -/
theorem startLoop_misses (as : List (StartAction T F)) (s : StartLoop T F)
    (hrun : run step new as = some s) (hcleared : RunnerPc.clearing.rank < s.thread.rank)
    (hinside : s.isBehind = false) (bs : List (StartAction T F)) (t : StartLoop T F)
    (hbs : run step s bs = some t) : t.isBehind = false :=
  (run_inv missed_step ⟨handshake_of_run hrun, hcleared, hinside⟩ hbs).inside

/-- A run of the thread in which `callback_` queues a functor that calls `quit`, and the loop runs it
before the creator takes the mutex. -/
def earlyQuit : List (StartAction Unit Nat) :=
  [.creator, .creator, .thread, .thread, .thread, .loop (.loopQueueInLoop 0), .thread, .thread, .thread,
    .thread, .thread, .thread, .loop .resetQuit, .loop .testQuit, .loop (.pollReturns false),
    .loop .beginFunctors, .loop .swapFunctors, .loop .callFunctor, .loop .loopQuit,
    .loop .endFunctors, .loop .destroyFunctors, .loop .testQuit, .thread, .thread, .thread, .thread]

theorem startLoop_misses_run :
    ∃ s t, run step new earlyQuit = some s ∧
      run step s [.creator, .creator, .creator, .spurious, .creator, .creator] = some t ∧
      t.creator = .waiting ∧ t.isBehind = false := by
  have hrun : ((run step new earlyQuit).bind fun s =>
      (run step s [.creator, .creator, .creator, .spurious, .creator, .creator]).map fun t =>
        (s.thread, s.isBehind, t.creator)) = some (.destructing, false, .waiting) := by
    decide +kernel
  obtain ⟨s, hs, hrun⟩ := Option.bind_eq_some_iff.mp hrun
  obtain ⟨t, ht, hlook⟩ := Option.map_eq_some_iff.mp hrun
  simp only [Prod.mk.injEq] at hlook
  refine ⟨s, t, hs, ht, hlook.2.2, startLoop_misses _ s hs ?_ hlook.2.1 _ t ht⟩
  rw [hlook.1]
  decide

end StartLoop
end Muduo
