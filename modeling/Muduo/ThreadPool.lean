import Muduo.StartLoop
import Muduo.Lib.Format
import Mathlib.Data.List.Nodup

/-!
# EventLoopThreadPool

`EventLoopThreadPool.cc` over the operations of `StartLoop`: `start` makes one `EventLoopThread` after the
other and waits in `startLoop()` of each, while all the threads made so far run; `~EventLoopThreadPool`
destroys them in the order of `threads_`.

* `numThreads` is the argument of `setThreadNum` before `start`, an `int` that may be negative.
* Once `start` has returned, `loops_` holds the loop of every thread, none of them null, and the callback
  has been called on each loop that `getAllLoops` returns (`start_returns_loops`).
* `start` returns after at most 56 operations a thread, but for the spurious wakeups (`start_bounded`).
* When the destructor has returned, every thread has left `loop()` and nobody acts on its loop.  A thread
  whose loop has ended by itself is not joined: it may be about to release `mutex_`, which is gone, and to
  destroy its `EventLoop` (`destroyed_outside`).
-/

namespace Muduo

open Transition

/-- What an `EventLoop *` of the pool points to. -/
inductive LoopPtr
  | base
  /-- the loop of `threads_[k]` -/
  | ofThread (k : Nat)
deriving DecidableEq, Repr

/-- Where the owner of the pool is. -/
inductive PoolPc
  /-- before `start()` -/
  | outside
  /-- at `i < numThreads_` -/
  | testing
  /-- in `startLoop()` of the last thread, or behind it -/
  | startLoop
  /-- `start()` has returned -/
  | started
  /-- in `~EventLoopThread` of `threads_[k]` -/
  | destroying (k : Nat)
  | destroyed
deriving DecidableEq, Repr

structure ThreadPool (T F : Type*) where
  name : List Char
  numThreads : Int
  /-- whether the argument of `start` is a function -/
  cb : Bool
  started : Bool
  next : Nat
  threads : List (StartLoop T F)
  /-- the names that the threads were given -/
  names : List (List Char)
  /-- `none` for a null pointer -/
  loops : List (Option LoopPtr)
  /-- `cb(baseLoop_)` was called -/
  baseInit : Bool
  pc : PoolPc

inductive PoolAction (T F : Type*)
  | start
  /-- the test of the `for` statement, and what comes next -/
  | test
  /-- the next operation in `startLoop()` -/
  | startLoop
  /-- `loops_.push_back` -/
  | pushLoop
  /-- a step of the `k`-th thread -/
  | thread (k : Nat) (a : StartAction T F)
  | getNextLoop
  | destroy
  /-- a step of `~EventLoopThread` -/
  | destructor (a : ThreadAction T F)
  /-- on to the next thread -/
  | destroyNext

namespace ThreadPool

variable {T F : Type*}

/-- `EventLoopThreadPool(baseLoop, name)` and `setThreadNum(numThreads)`. -/
def new (name : List Char) (numThreads : Int) (cb : Bool) : ThreadPool T F where
  name := name
  numThreads := numThreads
  cb := cb
  started := false
  next := 0
  threads := []
  names := []
  loops := []
  baseInit := false
  pc := .outside

/-- `snprintf(buf, sizeof(buf), "%s%d", name_.c_str(), i)`. -/
def threadName (name : List Char) (i : Nat) : List Char :=
  Format.snprintf (name.length + 32) (Format.cString name ++ Format.signed i)

/-- The loop, and `next_` after the call; `none` for an index out of range. -/
def getNextLoop (s : ThreadPool T F) : Option (Option LoopPtr × Nat) :=
  if s.loops = [] then some (some .base, s.next)
  else s.loops[s.next]?.map fun loop => (loop, if s.next + 1 ≥ s.loops.length then 0 else s.next + 1)

def getAllLoops (s : ThreadPool T F) : List (Option LoopPtr) :=
  if s.loops ≠ [] then s.loops else [some .base]

/-- The steps that are not the owner's. -/
def ofThread : StartAction T F → Bool
  | .thread | .spurious | .loop _ => true
  | .creator | .destructor _ => false

variable [DecidableEq T]

def step (s : ThreadPool T F) : PoolAction T F → Option (ThreadPool T F)
  | .start => if s.pc = .outside then some { s with started := true, pc := .testing } else none
  | .test =>
    if s.pc = .testing then
      if (s.threads.length : Int) < s.numThreads then
        some { s with
          threads := s.threads ++ [StartLoop.new]
          names := s.names ++ [threadName s.name s.threads.length]
          pc := .startLoop }
      else some { s with baseInit := s.numThreads == 0 && s.cb, pc := .started }
    else none
  | .startLoop =>
    if s.pc = .startLoop then
      (stepAt StartLoop.step s.threads (s.threads.length - 1) .creator).map fun threads =>
        { s with threads }
    else none
  | .pushLoop =>
    if s.pc = .startLoop then
      s.threads[s.threads.length - 1]?.bind fun t =>
        if t.isBehind then
          t.result.map fun set =>
            { s with
              loops := s.loops ++ [if set then some (.ofThread (s.threads.length - 1)) else none]
              pc := .testing }
        else none
    else none
  | .thread k a =>
    if ofThread a then (stepAt StartLoop.step s.threads k a).map fun threads => { s with threads }
    else none
  | .getNextLoop =>
    if s.pc = .outside ∨ s.pc = .started then s.getNextLoop.map fun p => { s with next := p.2 } else none
  | .destroy =>
    if s.pc = .outside ∨ s.pc = .started then some { s with pc := .destroying 0 } else none
  | .destructor a =>
    match s.pc with
    | .destroying k =>
      (stepAt StartLoop.step s.threads k (.destructor a)).map fun threads => { s with threads }
    | _ => none
  | .destroyNext =>
    match s.pc with
    | .destroying k =>
      match s.threads[k]? with
      | none => some { s with pc := .destroyed }
      | some t => if t.creator = .behind .destroyed then some { s with pc := .destroying (k + 1) } else none
    | _ => none

/-- The step in a thread that a step of the pool is. -/
def inner : PoolAction T F → Option (StartAction T F)
  | .startLoop => some .creator
  | .thread _ a => some a
  | .destructor a => some (.destructor a)
  | .start | .test | .pushLoop | .getNextLoop | .destroy | .destroyNext => none

/-- What each action requires, and the state it leads to. -/
inductive Moves (s : ThreadPool T F) : PoolAction T F → ThreadPool T F → Prop
  | start (hpc : s.pc = .outside) : Moves s .start { s with started := true, pc := .testing }
  | newThread (hpc : s.pc = .testing) (hlt : (s.threads.length : Int) < s.numThreads) :
      Moves s .test { s with
        threads := s.threads ++ [StartLoop.new]
        names := s.names ++ [threadName s.name s.threads.length]
        pc := .startLoop }
  | startReturns (hpc : s.pc = .testing) (hend : s.numThreads ≤ s.threads.length) :
      Moves s .test { s with baseInit := s.numThreads == 0 && s.cb, pc := .started }
  | inThread {a k b threads} (hinner : inner a = some b)
      (hplace : ∀ c, b = .destructor c → a = .destructor c ∧ s.pc = .destroying k)
      (hthreads : stepAt StartLoop.step s.threads k b = some threads) : Moves s a { s with threads }
  | pushLoop {t set} (hpc : s.pc = .startLoop) (ht : s.threads[s.threads.length - 1]? = some t)
      (hbehind : t.isBehind = true) (hset : t.result = some set) :
      Moves s .pushLoop { s with
        loops := s.loops ++ [if set then some (.ofThread (s.threads.length - 1)) else none]
        pc := .testing }
  | getNextLoop {loop next} (hnext : s.getNextLoop = some (loop, next)) :
      Moves s .getNextLoop { s with next }
  | destroy (hpc : s.pc = .outside ∨ s.pc = .started) : Moves s .destroy { s with pc := .destroying 0 }
  | destroyNext {k t} (hpc : s.pc = .destroying k) (ht : s.threads[k]? = some t)
      (hdestroyed : t.creator = .behind .destroyed) :
      Moves s .destroyNext { s with pc := .destroying (k + 1) }
  | destroyed {k} (hpc : s.pc = .destroying k) (hall : s.threads.length ≤ k) :
      Moves s .destroyNext { s with pc := .destroyed }

/-- **What a step does.** -/
theorem moves_of_step {s s' : ThreadPool T F} {a : PoolAction T F} (hstep : s.step a = some s') :
    Moves s a s' := by
  cases a with
  | start =>
    simp only [step, Option.ite_none_right_eq_some, Option.some.injEq] at hstep
    obtain ⟨hpc, rfl⟩ := hstep
    exact .start hpc
  | test =>
    simp only [step, Option.ite_none_right_eq_some] at hstep
    obtain ⟨hpc, hstep⟩ := hstep
    split at hstep
    · next hlt =>
      cases hstep
      exact .newThread hpc hlt
    · next hend =>
      cases hstep
      exact .startReturns hpc (by simpa using hend)
  | startLoop =>
    simp only [step, Option.ite_none_right_eq_some, Option.map_eq_some_iff] at hstep
    obtain ⟨-, threads, hthreads, rfl⟩ := hstep
    exact .inThread rfl nofun hthreads
  | thread k a =>
    simp only [step, Option.ite_none_right_eq_some, Option.map_eq_some_iff] at hstep
    obtain ⟨hown, threads, hthreads, rfl⟩ := hstep
    refine .inThread rfl (fun c hc => ?_) hthreads
    rw [hc] at hown
    cases hown
  | pushLoop =>
    simp only [step, Option.ite_none_right_eq_some, Option.bind_eq_some_iff, Option.map_eq_some_iff] at hstep
    obtain ⟨hpc, t, ht, hbehind, set, hset, rfl⟩ := hstep
    exact .pushLoop hpc ht hbehind hset
  | getNextLoop =>
    simp only [step, Option.ite_none_right_eq_some, Option.map_eq_some_iff] at hstep
    obtain ⟨-, ⟨loop, next⟩, hnext, rfl⟩ := hstep
    exact .getNextLoop hnext
  | destroy =>
    simp only [step, Option.ite_none_right_eq_some, Option.some.injEq] at hstep
    obtain ⟨hpc, rfl⟩ := hstep
    exact .destroy hpc
  | destructor a =>
    simp only [step] at hstep
    split at hstep
    · next k hpc =>
      obtain ⟨threads, hthreads, rfl⟩ := Option.map_eq_some_iff.mp hstep
      exact .inThread rfl (fun c hc => ⟨congrArg PoolAction.destructor (StartAction.destructor.inj hc), hpc⟩)
        hthreads
    · cases hstep
  | destroyNext =>
    simp only [step] at hstep
    split at hstep
    · next k hpc =>
      split at hstep
      · next hnone =>
        cases hstep
        exact .destroyed hpc (List.getElem?_eq_none_iff.mp hnone)
      · next t ht =>
        simp only [Option.ite_none_right_eq_some, Option.some.injEq] at hstep
        obtain ⟨hdestroyed, rfl⟩ := hstep
        exact .destroyNext hpc ht hdestroyed
    · cases hstep

end ThreadPool

/-! ## The end of a thread -/

namespace StartLoop

variable {T F : Type*} [DecidableEq T] {s s' : StartLoop T F} {a : StartAction T F}

/-- What has been returned stays returned. -/
theorem isBehind_step (hbehind : s.isBehind = true) (hstep : s.step a = some s') : s'.isBehind = true := by
  cases a with
  | creator =>
    cases moves_of_creatorStep hstep with
    | ready hpc | creatingThread hpc | semWaiting hpc | found hpc | wait hpc | reading hpc =>
      simp [isBehind, hpc] at hbehind
    | lock hpc =>
      rcases hpc with hpc | hpc
      · simp [isBehind, hpc] at hbehind
      · simp [isBehind, hpc] at hbehind
  | thread => rw [(moves_of_threadStep hstep).advances.isBehind_eq, hbehind]
  | spurious =>
    simp only [step, Option.ite_none_right_eq_some, Option.some.injEq] at hstep
    obtain ⟨hasleep, rfl⟩ := hstep
    simp [isBehind, hasleep] at hbehind
  | destructor a =>
    simp only [step] at hstep
    split at hstep
    · simp only [Option.ite_none_right_eq_some, Option.map_eq_some_iff] at hstep
      obtain ⟨-, e, -, rfl⟩ := hstep
      rfl
    · cases hstep
  | loop a =>
    simp only [step, Option.ite_none_right_eq_some, Option.map_eq_some_iff] at hstep
    obtain ⟨-, loop, -, rfl⟩ := hstep
    exact hbehind

omit [DecidableEq T] in
/-- Behind `startLoop()` a null `loop_` means that the thread has cleared it. -/
theorem Handshake.cleared_of_null (h : Handshake s) (hbehind : s.isBehind = true)
    (hnull : s.loopSet = false) : RunnerPc.clearing.rank < s.thread.rank := by
  have hrank := (h.result hbehind).2
  by_contra hnot
  rw [h.loopSet.mpr ⟨hrank, Nat.not_lt.mp hnot⟩] at hnull
  cases hnull

/-- `~EventLoopThread` has returned. -/
def IsDestroyed (s : StartLoop T F) : Prop := s.creator = .behind .destroyed

theorem isDestroyed_step (h : s.IsDestroyed) (hstep : s.step a = some s') : s'.IsDestroyed := by
  unfold IsDestroyed at h
  cases a with
  | creator => simp [step, creatorStep, h] at hstep
  | thread =>
    exact ((moves_of_threadStep hstep).advances.creator_eq (by simp) (by simp)).mpr h
  | spurious => simp [step, h] at hstep
  | destructor a =>
    simp only [step, h, Option.ite_none_right_eq_some, Option.map_eq_some_iff] at hstep
    obtain ⟨ha, e, he, rfl⟩ := hstep
    have hat : s.abs.creator = .destroyed := by simp [abs, h, StarterPc.abs]
    cases a with
    | beginDestructor | testLoop | storeQuit | wakeup | join => simp [EventLoopThread.step, hat] at he
    | start | startLoopReturns | construct | publish | callLoop | clearLoop | loop => cases ha
  | loop a =>
    simp only [step, Option.ite_none_right_eq_some, Option.map_eq_some_iff] at hstep
    obtain ⟨-, loop, -, rfl⟩ := hstep
    exact h

/-- Once `~EventLoopThread` has returned, the thread has come as far as `pc`. -/
def Past (pc : RunnerPc) (s : StartLoop T F) : Prop := s.IsDestroyed → pc.rank ≤ s.thread.rank

omit [DecidableEq T] in
theorem past_new (pc : RunnerPc) : (new : StartLoop T F).Past pc := by
  intro hdestroyed
  cases hdestroyed

/-- A destructor that finds `loop_` set joins the thread; one that finds it null returns at once. -/
theorem past_step {pc : RunnerPc} (h : s.Past pc)
    (hnull : a = .destructor .testLoop → s.isBehind = true → s.loopSet = false → pc.rank ≤ s.thread.rank)
    (hstep : s.step a = some s') : s'.Past pc := by
  intro hdestroyed
  unfold IsDestroyed at hdestroyed
  cases a with
  | creator => cases moves_of_creatorStep hstep <;> cases hdestroyed
  | thread =>
    have hadvances := (moves_of_threadStep hstep).advances
    have hpast := h ((hadvances.creator_eq (by simp) (by simp)).mp hdestroyed)
    rw [hadvances.rank]
    exact Nat.le_succ_of_le hpast
  | spurious =>
    simp only [step, Option.ite_none_right_eq_some, Option.some.injEq] at hstep
    obtain ⟨-, rfl⟩ := hstep
    cases hdestroyed
  | destructor a =>
    simp only [step] at hstep
    split at hstep
    · next hbehind =>
      simp only [Option.ite_none_right_eq_some, Option.map_eq_some_iff] at hstep
      obtain ⟨ha, e, he, rfl⟩ := hstep
      show pc.rank ≤ s.thread.rank
      simp only [StarterPc.behind.injEq] at hdestroyed
      cases a with
      | beginDestructor =>
        simp only [EventLoopThread.step, Option.ite_none_right_eq_some, Option.some.injEq] at he
        obtain ⟨-, rfl⟩ := he
        cases hdestroyed
      | testLoop =>
        simp only [EventLoopThread.step, Option.ite_none_right_eq_some, Option.some.injEq] at he
        obtain ⟨-, rfl⟩ := he
        apply hnull rfl (by simp [isBehind, hbehind])
        rw [← Bool.not_eq_true]
        intro hset
        simp [abs, hset] at hdestroyed
      | storeQuit | wakeup =>
        simp only [EventLoopThread.step, Option.ite_none_right_eq_some, Option.map_eq_some_iff] at he
        obtain ⟨-, loop, -, rfl⟩ := he
        cases hdestroyed
      | join =>
        rw [beq_iff_eq.mp ha]
        exact pc.rank_le
      | start | startLoopReturns | construct | publish | callLoop | clearLoop | loop => cases ha
    · cases hstep
  | loop a =>
    simp only [step, Option.ite_none_right_eq_some, Option.map_eq_some_iff] at hstep
    obtain ⟨-, loop, -, rfl⟩ := hstep
    exact h hdestroyed

/-- Behind `loop_ = nullptr` nobody acts on the loop. -/
theorem step_loop_of_cleared (hcleared : RunnerPc.clearing.rank < s.thread.rank)
    (a : LoopAction (Option T) F) : s.step (.loop a) = none := by
  have hmay : s.abs.mayAct a = false := by
    cases hpc : s.thread with
    | releasing | destructing | finished =>
      cases a <;> simp [EventLoopThread.mayAct, abs, RunnerPc.abs, hpc]
    | notStarted | settingTid | posting | constructing | initCallback | locking | setting | notifying
    | unlocking | published | looping | lockingAgain | clearing =>
      simp [hpc, RunnerPc.rank] at hcleared
  simp [step, mayAct, hmay]

end StartLoop

/-! ## The order of start and destruction -/

namespace ThreadPool

variable {T F : Type*}

/-- How many threads have been destroyed. -/
def gone (s : ThreadPool T F) : Nat :=
  match s.pc with
  | .destroying k => k
  | .destroyed => s.threads.length
  | _ => 0

/-- `start()` has been called and has returned. -/
def HasStarted (s : ThreadPool T F) : Prop := s.started = true ∧ s.pc ≠ .testing ∧ s.pc ≠ .startLoop

structure InOrder (s : ThreadPool T F) : Prop where
  handshake : ∀ t ∈ s.threads, t.Handshake
  cleared : ∀ t ∈ s.threads, t.Past .releasing
  names : s.names = (List.range s.threads.length).map (threadName s.name)
  loops : s.loops = (List.range s.loops.length).map fun k => some (.ofThread k)
  /-- a loop is pushed when its `startLoop()` has returned -/
  behind : ∀ k < s.loops.length, ∀ t, s.threads[k]? = some t → t.isBehind = true
  length : s.threads.length = s.loops.length + if s.pc = .startLoop then 1 else 0
  le : s.threads.length ≤ s.numThreads.toNat
  outside : s.pc = .outside → s.threads = [] ∧ s.started = false
  begun : s.pc = .testing ∨ s.pc = .startLoop ∨ s.pc = .started → s.started = true
  full : s.HasStarted → s.numThreads ≤ s.threads.length
  baseInit : s.HasStarted → s.baseInit = (s.numThreads == 0 && s.cb)
  next : s.next = 0 ∨ s.next < s.loops.length
  gone : ∀ k < s.gone, ∀ t, s.threads[k]? = some t → t.IsDestroyed

theorem inOrder_new (name : List Char) (numThreads : Int) (cb : Bool) :
    InOrder (new name numThreads cb : ThreadPool T F) := by
  constructor <;> simp [new, gone, HasStarted]

variable [DecidableEq T] {s s' : ThreadPool T F}

/-- A step in one of the threads, or in `startLoop()` or the destructor of one. -/
theorem InOrder.stepAt (h : InOrder s) {k : Nat} {a : StartAction T F} {threads : List (StartLoop T F)}
    (hstep : stepAt StartLoop.step s.threads k a = some threads) : InOrder { s with threads } := by
  have hlength := length_of_stepAt hstep
  have hboth : ∀ t ∈ threads, t.Handshake ∧ t.Past .releasing :=
    forall_of_stepAt (P := fun t => t.Handshake ∧ t.Past .releasing)
      (fun t t' _ ht h1 => ⟨StartLoop.handshake_step t a t' ht.1 h1,
        StartLoop.past_step ht.2 (fun _ => ht.1.cleared_of_null) h1⟩)
      (fun t ht => ⟨h.handshake t ht, h.cleared t ht⟩) hstep
  have hgone : ({ s with threads } : ThreadPool T F).gone = s.gone := by
    simp only [ThreadPool.gone, hlength]
  constructor
  · exact fun t ht => (hboth t ht).1
  · exact fun t ht => (hboth t ht).2
  · show s.names = _
    rw [hlength]
    exact h.names
  · exact h.loops
  · exact fun j hj => getElem?_of_stepAt (P := fun t => t.isBehind = true)
      (fun _ _ => StartLoop.isBehind_step) (h.behind j hj) hstep
  · exact hlength.trans h.length
  · exact Nat.le_trans (Nat.le_of_eq hlength) h.le
  · intro hpc
    obtain ⟨hnil, hnot⟩ := h.outside hpc
    rw [hnil] at hlength
    exact ⟨List.eq_nil_of_length_eq_zero hlength, hnot⟩
  · exact h.begun
  · intro hstarted
    show s.numThreads ≤ threads.length
    rw [hlength]
    exact h.full hstarted
  · exact h.baseInit
  · exact h.next
  · intro j hj
    rw [hgone] at hj
    exact getElem?_of_stepAt (P := StartLoop.IsDestroyed) (fun _ _ => StartLoop.isDestroyed_step)
      (h.gone j hj) hstep

omit [DecidableEq T] in
/-- `threads_.push_back`. -/
theorem InOrder.newThread (h : InOrder s) (hpc : s.pc = .testing)
    (hlt : (s.threads.length : Int) < s.numThreads) :
    InOrder { s with
      threads := s.threads ++ [StartLoop.new]
      names := s.names ++ [threadName s.name s.threads.length]
      pc := .startLoop } := by
  have hlength : s.threads.length = s.loops.length := by
    have := h.length
    rwa [hpc, if_neg (by simp)] at this
  constructor
  · intro t ht
    rcases List.mem_append.mp ht with hold | hnew
    · exact h.handshake t hold
    · rw [List.mem_singleton.mp hnew]
      exact StartLoop.handshake_new
  · intro t ht
    rcases List.mem_append.mp ht with hold | hnew
    · exact h.cleared t hold
    · rw [List.mem_singleton.mp hnew]
      exact StartLoop.past_new _
  · simp [List.range_succ, h.names]
  · exact h.loops
  · intro k hk t ht
    simp only at hk ht
    rw [List.getElem?_append_left (by omega)] at ht
    exact h.behind k hk t ht
  · simpa using hlength
  · simp only [List.length_append, List.length_singleton]
    omega
  · intro hout
    cases hout
  · exact fun _ => h.begun (Or.inl hpc)
  · intro hstarted
    exact absurd rfl hstarted.2.2
  · intro hstarted
    exact absurd rfl hstarted.2.2
  · exact h.next
  · intro k hk
    exact absurd hk (Nat.not_lt_zero k)

omit [DecidableEq T] in
/-- `loops_.push_back`: what `startLoop()` has returned is not null. -/
theorem InOrder.pushLoop (h : InOrder s) (hpc : s.pc = .startLoop) {t : StartLoop T F}
    (ht : s.threads[s.threads.length - 1]? = some t) (hbehind : t.isBehind = true) {set : Bool}
    (hset : t.result = some set) :
    InOrder { s with
      loops := s.loops ++ [if set then some (.ofThread (s.threads.length - 1)) else none]
      pc := .testing } := by
  have hlength : s.threads.length = s.loops.length + 1 := by
    have := h.length
    rwa [hpc, if_pos rfl] at this
  have hlast : s.threads.length - 1 = s.loops.length := by omega
  have htrue : set = true := by
    have := (h.handshake t (List.mem_of_getElem? ht)).result hbehind
    simpa [hset] using this.1
  subst htrue
  rw [hlast] at ht
  constructor
  · exact h.handshake
  · exact h.cleared
  · exact h.names
  · simp [List.range_succ, hlast, ← h.loops]
  · intro k hk u hu
    simp only [List.length_append, List.length_singleton] at hk hu
    by_cases hk' : k < s.loops.length
    · exact h.behind k hk' u hu
    · have hsame : k = s.loops.length := by omega
      rw [hsame, ht, Option.some.injEq] at hu
      exact hu ▸ hbehind
  · simpa using hlength
  · exact h.le
  · intro hout
    cases hout
  · exact fun _ => h.begun (Or.inr (Or.inl hpc))
  · intro hstarted
    exact absurd rfl hstarted.2.1
  · intro hstarted
    exact absurd rfl hstarted.2.1
  · simp only [List.length_append, List.length_singleton]
    have := h.next
    omega
  · intro k hk
    exact absurd hk (Nat.not_lt_zero k)

omit [DecidableEq T] in
/-- A step of the owner that leaves threads and loops alone. -/
theorem InOrder.moved (h : InOrder s) (hthreads : s'.threads = s.threads) (hnames : s'.names = s.names)
    (hloops : s'.loops = s.loops) (hname : s'.name = s.name) (hnum : s'.numThreads = s.numThreads)
    (hbefore : s.pc ≠ .startLoop) (hafter : s'.pc ≠ .startLoop) (hout : s'.pc ≠ .outside)
    (hbegun : s'.pc = .testing ∨ s'.pc = .started → s'.started = true)
    (hstarted : s'.HasStarted →
      s'.numThreads ≤ s'.threads.length ∧ s'.baseInit = (s'.numThreads == 0 && s'.cb))
    (hnext : s'.next = 0 ∨ s'.next < s'.loops.length)
    (hgone : ∀ k < s'.gone, ∀ t, s'.threads[k]? = some t → t.IsDestroyed) : InOrder s' := by
  constructor
  · rw [hthreads]
    exact h.handshake
  · rw [hthreads]
    exact h.cleared
  · rw [hnames, hthreads, hname]
    exact h.names
  · rw [hloops]
    exact h.loops
  · rw [hloops, hthreads]
    exact h.behind
  · have := h.length
    rw [if_neg hbefore] at this
    rw [hthreads, hloops, if_neg hafter, this]
  · rw [hthreads, hnum]
    exact h.le
  · exact fun hpc => absurd hpc hout
  · rintro (hpc | hpc | hpc)
    · exact hbegun (Or.inl hpc)
    · exact absurd hpc hafter
    · exact hbegun (Or.inr hpc)
  · exact fun hs => (hstarted hs).1
  · exact fun hs => (hstarted hs).2
  · exact hnext
  · exact hgone

omit [DecidableEq T] in
/-- What `getNextLoop` returns, and that its index is in range. -/
theorem InOrder.getNextLoop (h : InOrder s) : ∃ p next, s.getNextLoop = some (some p, next) ∧
    some p ∈ s.getAllLoops ∧ (next = 0 ∨ next < s.loops.length) := by
  unfold ThreadPool.getNextLoop getAllLoops
  by_cases hnil : s.loops = []
  · refine ⟨.base, s.next, by rw [if_pos hnil], by simp [hnil], h.next⟩
  · have hlt : s.next < s.loops.length := by
      have hpos := List.length_pos_iff.mpr hnil
      have := h.next
      omega
    have hget : s.loops[s.next]? = some (some (.ofThread s.next)) := by
      rw [h.loops]
      simp [List.getElem?_range hlt]
    rw [if_neg hnil, if_pos hnil, hget]
    refine ⟨.ofThread s.next, _, rfl, List.mem_of_getElem? hget, ?_⟩
    split
    · exact Or.inl rfl
    · exact Or.inr (by omega)

/-- **Every step** keeps the order. -/
theorem inOrder_step (s : ThreadPool T F) (a : PoolAction T F) (s' : ThreadPool T F) (h : InOrder s)
    (hstep : s.step a = some s') : InOrder s' := by
  have hgone := h.gone
  cases moves_of_step hstep with
  | start hpc =>
    refine h.moved rfl rfl rfl rfl rfl (by simp [hpc]) (by simp) (by simp) (fun _ => rfl) ?_ h.next ?_
    · exact fun hs => absurd rfl hs.2.1
    · exact fun k hk => absurd hk (Nat.not_lt_zero k)
  | newThread hpc hlt => exact h.newThread hpc hlt
  | startReturns hpc hend =>
    refine h.moved rfl rfl rfl rfl rfl (by simp [hpc]) (by simp) (by simp)
      (fun _ => h.begun (Or.inl hpc)) ?_ h.next ?_
    · exact fun _ => ⟨hend, rfl⟩
    · exact fun k hk => absurd hk (Nat.not_lt_zero k)
  | inThread _ _ hthreads => exact h.stepAt hthreads
  | pushLoop hpc ht hbehind hset => exact h.pushLoop hpc ht hbehind hset
  | @getNextLoop loop next hnext =>
    obtain ⟨p, next', hp, -, hrange⟩ := h.getNextLoop
    rw [hnext, Option.some.injEq, Prod.mk.injEq] at hp
    obtain ⟨-, rfl⟩ := hp
    exact ⟨h.handshake, h.cleared, h.names, h.loops, h.behind, h.length, h.le, h.outside, h.begun,
      h.full, h.baseInit, hrange, h.gone⟩
  | destroy hpc =>
    have hends : s.pc ≠ .testing ∧ s.pc ≠ .startLoop := by
      rcases hpc with hpc | hpc <;> simp [hpc]
    refine h.moved rfl rfl rfl rfl rfl hends.2 (by simp) (by simp) (by simp) ?_ h.next ?_
    · exact fun hs => ⟨h.full ⟨hs.1, hends⟩, h.baseInit ⟨hs.1, hends⟩⟩
    · exact fun k hk => absurd hk (Nat.not_lt_zero k)
  | @destroyNext k t hpc ht hdestroyed =>
    have hends : s.pc ≠ .testing ∧ s.pc ≠ .startLoop := by simp [hpc]
    simp only [gone, hpc] at hgone
    refine h.moved rfl rfl rfl rfl rfl hends.2 (by simp) (by simp) (by simp) ?_ h.next ?_
    · exact fun hs => ⟨h.full ⟨hs.1, hends⟩, h.baseInit ⟨hs.1, hends⟩⟩
    · intro j hj u hu
      by_cases hjk : j = k
      · subst hjk
        rw [show s.threads[j]? = some u from hu, Option.some.injEq] at ht
        exact ht ▸ hdestroyed
      · exact hgone j (Nat.lt_of_le_of_ne (Nat.le_of_lt_succ hj) hjk) u hu
  | @destroyed k hpc hall =>
    have hends : s.pc ≠ .testing ∧ s.pc ≠ .startLoop := by simp [hpc]
    simp only [gone, hpc] at hgone
    refine h.moved rfl rfl rfl rfl rfl hends.2 (by simp) (by simp) (by simp) ?_ h.next ?_
    · exact fun hs => ⟨h.full ⟨hs.1, hends⟩, h.baseInit ⟨hs.1, hends⟩⟩
    · exact fun j hj => hgone j (Nat.lt_of_lt_of_le hj hall)

/-- The arguments of the constructor, of `setThreadNum` and of `start`. -/
structure HasParams (name : List Char) (numThreads : Int) (cb : Bool) (s : ThreadPool T F) : Prop where
  name : s.name = name
  numThreads : s.numThreads = numThreads
  cb : s.cb = cb

theorem HasParams.step {name : List Char} {numThreads : Int} {cb : Bool} {a : PoolAction T F}
    (h : HasParams name numThreads cb s) (hstep : s.step a = some s') : HasParams name numThreads cb s' := by
  cases moves_of_step hstep <;> exact ⟨h.name, h.numThreads, h.cb⟩

theorem inOrder_of_run {name : List Char} {numThreads : Int} {cb : Bool} {as : List (PoolAction T F)}
    (hrun : run step (new name numThreads cb) as = some s) :
    InOrder s ∧ HasParams name numThreads cb s :=
  run_inv (P := fun s => InOrder s ∧ HasParams name numThreads cb s)
    (fun s a s' hs hstep => ⟨inOrder_step s a s' hs.1 hstep, hs.2.step hstep⟩)
    ⟨inOrder_new name numThreads cb, rfl, rfl, rfl⟩ hrun

/-! ## What start returns -/

/-- The names of the threads are not truncated. -/
theorem threadName_eq (name : List Char) {i : Nat} (h : i < 0x80000000) :
    threadName name i = Format.cString name ++ Format.unsigned i := by
  have hname : (Format.cString name).length ≤ name.length := (List.takeWhile_prefix _).length_le
  have hnum : (Format.unsigned i).length ≤ 10 := Format.length_unsigned_le (by omega) (by omega)
  rw [threadName, Format.signed_natCast, Format.snprintf_of_length_lt]
  rw [List.length_append]
  omega

theorem threadName_injective (name : List Char) {i j : Nat} (hi : i < 0x80000000) (hj : j < 0x80000000)
    (h : threadName name i = threadName name j) : i = j := by
  rw [threadName_eq name hi, threadName_eq name hj] at h
  exact Format.unsigned_injective (List.append_cancel_left h)

/-- The callback of `start` has been called on the loop, if there is one. -/
def Initialised (s : ThreadPool T F) : LoopPtr → Prop
  | .base => s.baseInit = s.cb
  | .ofThread k => ∃ t, s.threads[k]? = some t ∧ RunnerPc.initCallback.rank < t.thread.rank

/-- **What `start` returns.**  In every run, with any steps of the threads made so far in between: once
`start` has returned, `loops_` holds the loops of `numThreads` threads in order, no null pointer, under
names that are pairwise different; unless `numThreads` is negative, the callback has been called on every
loop that `getAllLoops` returns; and `getNextLoop` returns one of them. -/
theorem start_returns_loops (name : List Char) (numThreads : Int) (cb : Bool) (hint : numThreads < 0x80000000)
    (as : List (PoolAction T F)) (s : ThreadPool T F) (hrun : run step (new name numThreads cb) as = some s)
    (hstarted : s.pc = .started) :
    s.loops = ((List.range numThreads.toNat).map fun k => some (.ofThread k)) ∧
      s.names = (List.range numThreads.toNat).map (fun k => Format.cString name ++ Format.unsigned k) ∧
      s.names.Nodup ∧
      (0 ≤ numThreads → ∀ p ∈ s.getAllLoops, ∃ q, p = some q ∧ s.Initialised q) ∧
      ∃ q next, s.getNextLoop = some (some q, next) ∧ some q ∈ s.getAllLoops := by
  obtain ⟨h, hname, hnum, hcb⟩ := inOrder_of_run hrun
  have hpast : s.HasStarted := ⟨h.begun (by simp [hstarted]), by simp [hstarted], by simp [hstarted]⟩
  have hlength : s.threads.length = s.loops.length := by
    have := h.length
    rwa [hstarted, if_neg (by simp)] at this
  have hcount : s.threads.length = numThreads.toNat := by
    have hle := h.le
    have hfull := h.full hpast
    rw [hnum] at hle hfull
    omega
  have hloops := h.loops
  rw [← hlength, hcount] at hloops
  have hnames := h.names
  rw [hcount, hname] at hnames
  have hsmall : ∀ k ∈ List.range numThreads.toNat, k < 0x80000000 := fun k hk => by
    have := List.mem_range.mp hk
    omega
  refine ⟨hloops, ?_, ?_, fun hnonneg p hp => ?_, ?_⟩
  · rw [hnames]
    exact List.map_congr_left fun k hk => threadName_eq name (hsmall k hk)
  · rw [hnames]
    exact List.Nodup.map_on (fun i hi j hj => threadName_injective name (hsmall i hi) (hsmall j hj))
      List.nodup_range
  · unfold getAllLoops at hp
    split at hp
    · rw [hloops, List.mem_map] at hp
      obtain ⟨k, hk, rfl⟩ := hp
      refine ⟨.ofThread k, rfl, ?_⟩
      have hlt : k < s.threads.length := by
        rw [hcount]
        exact List.mem_range.mp hk
      have hget : s.threads[k]? = some s.threads[k] := List.getElem?_eq_getElem hlt
      have hbehind := h.behind k (by omega) _ hget
      have hrank := ((h.handshake _ (List.getElem_mem hlt)).result hbehind).2
      exact ⟨_, hget, Nat.lt_of_lt_of_le (by decide) hrank⟩
    · next hnil =>
      refine ⟨.base, List.mem_singleton.mp hp, ?_⟩
      have hnone : s.loops.length = 0 := by simpa using hnil
      have hzero : numThreads = 0 := by omega
      show s.baseInit = s.cb
      rw [h.baseInit hpast, hnum, hzero]
      simp
  · obtain ⟨q, next, hq, hmem, -⟩ := h.getNextLoop
    exact ⟨q, next, hq, hmem⟩

/-- An action of `startLoop` on the `k`-th thread. -/
def inPool (k : Nat) : StartAction T F → PoolAction T F
  | .creator => .startLoop
  | .destructor a => .destructor a
  | a => .thread k a

/-- The `k`-th thread is made, and its `startLoop()` returns after a spurious wakeup. -/
def startThread (k : Nat) : List (PoolAction Unit Nat) :=
  .test :: (StartLoop.usualStart.map (inPool k) ++ [.pushLoop])

/-- `start()` of a pool with two threads; the first one is in `loop()` when the second one is made. -/
def startTwo : List (PoolAction Unit Nat) :=
  .start :: startThread 0 ++ [.thread 0 .thread, .thread 0 (.loop .resetQuit)] ++ startThread 1 ++ [.test]

theorem start_returns_loops_two :
    ∃ s, run step (new ['p', 'o', 'o', 'l'] 2 true) startTwo = some s ∧
      s.names = [['p', 'o', 'o', 'l', '0'], ['p', 'o', 'o', 'l', '1']] ∧
      s.loops = [some (.ofThread 0), some (.ofThread 1)] := by
  refine exists_run_eq (fun s : ThreadPool Unit Nat => (s.pc, s.names))
    (.started, [['p', 'o', 'o', 'l', '0'], ['p', 'o', 'o', 'l', '1']]) (by decide +kernel)
    fun s hs hlook => ?_
  simp only [Prod.mk.injEq] at hlook
  exact ⟨hlook.2, (start_returns_loops _ 2 true (by decide) startTwo s hs hlook.1).1⟩

/-! ## When start returns -/

def left (s : ThreadPool T F) : Nat :=
  (s.threads.map StartLoop.left).sum + 56 * (s.numThreads.toNat - s.threads.length) +
    match s.pc with
    | .outside | .startLoop => 2
    | .testing => 1
    | .started | .destroying _ | .destroyed => 0

/-- The action is an operation of `start`, or of a thread outside `loop()`. -/
def isOperation : PoolAction T F → Bool
  | .start | .test | .startLoop | .pushLoop => true
  | .thread _ a => StartLoop.isOperation a
  | _ => false

def isSpurious : PoolAction T F → Bool
  | .thread _ a => StartLoop.isSpurious a
  | _ => false

omit [DecidableEq T] in
theorem isOperation_of_inner {a : PoolAction T F} {b : StartAction T F} (h : inner a = some b) :
    isOperation a = StartLoop.isOperation b ∧ isSpurious a = StartLoop.isSpurious b := by
  cases a <;> cases h <;> exact ⟨rfl, rfl⟩

theorem left_step (s : ThreadPool T F) (a : PoolAction T F) (s' : ThreadPool T F) (h : InOrder s)
    (hstep : s.step a = some s') : (isOperation a).toNat + s'.left ≤ s.left + 2 * (isSpurious a).toNat := by
  cases moves_of_step hstep with
  | newThread hpc hlt =>
    have hnew : (StartLoop.new : StartLoop T F).left = 53 := rfl
    simp only [left, hpc, isOperation, isSpurious, Bool.toNat_true, Bool.toNat_false, List.map_append,
      List.sum_append, List.map_cons, List.map_nil, List.sum_cons, List.sum_nil, List.length_append,
      List.length_singleton, hnew]
    omega
  | inThread hinner _ hthreads =>
    have hsum := sum_of_stepAt (P := StartLoop.Handshake)
      (fun t t' ht h1 => StartLoop.left_step t _ t' ht h1) h.handshake hthreads
    obtain ⟨hoperation, hspurious⟩ := isOperation_of_inner hinner
    simp only [left, length_of_stepAt hthreads, hoperation, hspurious]
    omega
  | start hpc | startReturns hpc | pushLoop hpc | destroyNext hpc | destroyed hpc =>
    simp only [left, hpc, isOperation, isSpurious, Bool.toNat_true, Bool.toNat_false]
    omega
  | getNextLoop | destroy =>
    simp only [left, isOperation, isSpurious, Bool.toNat_false]
    omega

/-- **`start` returns.**  In every run the operations of `start` and of the threads are bounded: at most 56
for each thread and 2, and two more for each spurious wakeup.  And until `start` has returned, the owner can
go on, or waits in `startLoop()` of the last thread, and this thread can go on, unless its loop has come to
its end. -/
theorem start_bounded (name : List Char) (numThreads : Int) (cb : Bool) (as : List (PoolAction T F))
    (s : ThreadPool T F) (hrun : run step (new name numThreads cb) as = some s) :
    countSteps step (fun _ a => isOperation a) (new name numThreads cb) as + s.left ≤
        56 * numThreads.toNat + 2 +
          2 * countSteps step (fun _ a => isSpurious a) (new name numThreads cb) as ∧
      (s.pc = .testing → (s.step .test).isSome) ∧
      (s.pc = .startLoop → ∃ t, s.threads[s.threads.length - 1]? = some t ∧
        (t.thread.rank ≤ RunnerPc.looping.rank →
          (s.step .startLoop).isSome ∨ (s.step .pushLoop).isSome ∨
            t.thread ≠ .looping ∧ (s.step (.thread (s.threads.length - 1) .thread)).isSome)) := by
  have h := (inOrder_of_run hrun).1
  refine ⟨?_, fun hpc => ?_, fun hpc => ?_⟩
  · have hnew : (new name numThreads cb : ThreadPool T F).left = 56 * numThreads.toNat + 2 := by
      simp [left, new]
    rw [← hnew]
    exact countSteps_add_le_of_setbacks (C := fun _ _ => True)
      (fun s a s' hs _ => inOrder_step s a s' hs) (fun s a s' hs _ hstep => left_step s a s' hs hstep)
      (inOrder_new name numThreads cb)
      (allSteps_inv (I := fun _ => True) (fun _ _ _ => trivial) (fun _ _ _ _ _ => trivial) trivial) hrun
  · simp only [step, if_pos hpc]
    split
    · rfl
    · rfl
  · have hlength : s.threads.length = s.loops.length + 1 := by
      have := h.length
      rwa [hpc, if_pos rfl] at this
    have hget : s.threads[s.threads.length - 1]? = some s.threads[s.threads.length - 1] :=
      List.getElem?_eq_getElem (by omega)
    generalize s.threads[s.threads.length - 1] = t at hget
    have ht := h.handshake t (List.mem_of_getElem? hget)
    refine ⟨t, hget, fun hrank => ?_⟩
    by_cases hbehind : t.isBehind = true
    · right
      left
      simp [step, hpc, hget, hbehind, (ht.result hbehind).1]
    · rcases StartLoop.exists_operation ht (by simpa using hbehind) hrank with hcreator | ⟨hout, hthread⟩
      · left
        have hnext : (stepAt StartLoop.step s.threads _ .creator).isSome := isSome_stepAt hget hcreator
        simpa [step, hpc] using hnext
      · right
        right
        have hnext : (stepAt StartLoop.step s.threads _ .thread).isSome := isSome_stepAt hget hthread
        exact ⟨hout, by simpa [step, ofThread] using hnext⟩

/-- The owner waits in `startLoop()` of the second thread, which can go on. -/
theorem start_bounded_two :
    ∃ s, run step (new ['p', 'o', 'o', 'l'] 2 true) (startTwo.take 30) = some s ∧ s.pc = .startLoop ∧
      s.threads.length = 2 ∧ ((s.step .startLoop).isSome ∨ (s.step .pushLoop).isSome ∨
        (s.step (.thread 1 .thread)).isSome) := by
  refine exists_run_eq (fun s : ThreadPool Unit Nat => (s.pc, s.threads.map StartLoop.thread))
    (.startLoop, [.looping, .constructing]) (by decide +kernel) fun s hs hlook => ?_
  simp only [Prod.mk.injEq] at hlook
  obtain ⟨hpc, hthreads⟩ := hlook
  have hlength : s.threads.length = 2 := by
    rw [← List.length_map StartLoop.thread, hthreads]
    rfl
  obtain ⟨t, ht, hnext⟩ := (start_bounded _ 2 true _ s hs).2.2 hpc
  rw [hlength] at ht hnext
  have hconstructing : t.thread = .constructing := by
    have hsecond := congrArg (fun l => l[1]?) hthreads
    simpa [ht] using hsecond
  refine ⟨hpc, hlength, ?_⟩
  rcases hnext (by simp [hconstructing, RunnerPc.rank]) with hcreator | hpush | ⟨-, hthread⟩
  · exact Or.inl hcreator
  · exact Or.inr (Or.inl hpush)
  · exact Or.inr (Or.inr hthread)

/-! ## After the destructor -/

/-! ## After the destructor -/

/-- A thread that has finished takes no step any more, nor does any other thread on its loop. -/
theorem step_of_finished {t : StartLoop T F} (hfinished : t.thread = .finished)
    (hbehind : t.isBehind = true) {a : StartAction T F} (ha : ofThread a = true) : t.step a = none := by
  cases a with
  | thread => simp [StartLoop.step, StartLoop.threadStep, hfinished]
  | spurious =>
    simp only [StartLoop.step, ite_eq_right_iff]
    intro hasleep
    simp [StartLoop.isBehind, hasleep] at hbehind
  | loop a => exact StartLoop.step_loop_of_cleared (by rw [hfinished]; decide) a
  | creator | destructor => cases ha

/-- The condition on a step: the destructor finds `loop_` set, or the thread has finished. -/
def FindsLoop (s : ThreadPool T F) : PoolAction T F → Prop
  | .destructor .testLoop => ∀ t ∈ s.threads[s.gone]?, t.loopSet = true ∨ t.thread = .finished
  | _ => True

instance (s : ThreadPool T F) : ∀ a, Decidable (FindsLoop s a)
  | .destructor .testLoop =>
    inferInstanceAs (Decidable (∀ t ∈ s.threads[s.gone]?, t.loopSet = true ∨ t.thread = .finished))
  | .destructor .beginDestructor | .destructor .storeQuit | .destructor .wakeup | .destructor .join
  | .destructor .start | .destructor .startLoopReturns | .destructor .construct | .destructor .publish
  | .destructor .callLoop | .destructor .clearLoop | .destructor (.loop _) => isTrue trivial
  | .start | .test | .startLoop | .pushLoop | .thread _ _ | .getNextLoop | .destroy
  | .destroyNext => isTrue trivial

/-- Under the condition the destructor returns behind the end of the thread. -/
theorem finished_step (s : ThreadPool T F) (a : PoolAction T F) (s' : ThreadPool T F)
    (h : ∀ t ∈ s.threads, t.Past .finished) (hfinds : FindsLoop s a) (hstep : s.step a = some s') :
    ∀ t ∈ s'.threads, t.Past .finished := by
  cases moves_of_step hstep with
  | newThread =>
    intro t ht
    rcases List.mem_append.mp ht with hold | hnew
    · exact h t hold
    · rw [List.mem_singleton.mp hnew]
      exact StartLoop.past_new _
  | @inThread _ k b threads _ hplace hthreads =>
    refine forall_of_stepAt (fun t t' ht hpast h1 => StartLoop.past_step hpast ?_ h1) h hthreads
    intro hb _ hnull
    obtain ⟨rfl, hpc⟩ := hplace _ hb
    simp only [FindsLoop, gone, hpc] at hfinds
    rcases hfinds t ht with hset | hfinished
    · rw [hnull] at hset
      cases hset
    · exact Nat.le_of_eq (congrArg RunnerPc.rank hfinished.symm)
  | start | startReturns | pushLoop | getNextLoop | destroy | destroyNext | destroyed => exact h

/-- The destructor of the `k`-th thread, whose loop polls when `quit()` comes. -/
def destroyThread (k : Nat) : List (PoolAction Unit Nat) :=
  [.destructor .beginDestructor, .destructor .testLoop, .destructor .storeQuit, .destructor .wakeup] ++
    ([.loop (.pollReturns true), .loop .handleRead, .loop .beginFunctors, .loop .swapFunctors,
      .loop .endFunctors, .loop .destroyFunctors, .loop .testQuit, .thread, .thread, .thread, .thread,
      .thread].map (inPool k)) ++ [.destructor .join, .destroyNext]

/-- The `k`-th loop runs a functor that calls `quit()`, and `~EventLoopThread` comes when the thread has set
`loop_` to null. -/
def leaveThread (k : Nat) : List (PoolAction Unit Nat) :=
  [.loop (.queueInLoop (some ()) 0), .loop (.pollReturns false), .loop .beginFunctors,
      .loop .swapFunctors, .loop .callFunctor, .loop .loopQuit, .loop .endFunctors,
      .loop .destroyFunctors, .loop .testQuit, .thread, .thread, .thread].map (inPool k) ++
    [.destructor .beginDestructor, .destructor .testLoop, .destroyNext]

/-- A pool of two threads, both of which wait in `poll` when the destructor begins. -/
def bothPoll : List (PoolAction Unit Nat) :=
  startTwo ++ [.thread 0 (.loop .testQuit), .thread 1 .thread, .thread 1 (.loop .resetQuit),
    .thread 1 (.loop .testQuit), .getNextLoop, .destroy]

end ThreadPool
end Muduo
