import Muduo.TimerQueue
import Muduo.EventLoop

/-!
# A timer queue on its loop

`TimerQueue` and `EventLoop` together: `addTimer` on the loop thread (also from inside a timer
callback) and on any number of other threads `T`, the functors `addTimerInLoop`, and `handleRead`
with the callbacks it runs.

* A functor is `some timer` for `addTimerInLoop(timer)` and `none` when it belongs to another object.
* `handleRead` is taken apart at the callbacks: `handleRead` is the part up to `getExpired`,
  `runExpired` calls one callback, which then acts by further steps, and `reset` is the end.
* Every clock reading is part of the action and may be anything.
-/

namespace Muduo

open Transition

/-- A `handleRead` in progress: the entries of `expired` called, and those to be called. -/
structure HandleRead where
  now : Timestamp
  ran : List Entry
  rest : List Entry

structure TimerLoop (T C : Type*) where
  loop : EventLoop T (Option Nat)
  queue : TimerQueue
  objs : Objects (Timer C)
  /-- `s_numCreated_`, which all timer queues share -/
  numCreated : Nat
  /-- threads in `addTimer`, between `new Timer` and the push, each with its timer -/
  calls : List (T × Nat)
  reading : Option HandleRead
  /-- history: the timers run, each with the clock reading of its `handleRead` -/
  fired : List (Timer C × Timestamp)

inductive TimerAction (T C : Type*)
  /-- a step of the loop or of a thread that does not concern the timer queue -/
  | loop (a : LoopAction T (Option Nat))
  | callFunctor (now : Timestamp)
  /-- another thread in `addTimer`: `new Timer` at the address `timer` -/
  | newTimer (t : T) (timer : Nat) (cb : C) (when_ : Timestamp) (interval : Int)
  | push (t : T)
  /-- `addTimer` on the loop thread -/
  | addTimer (timer : Nat) (cb : C) (when_ : Timestamp) (interval : Int) (now : Timestamp)
  | handleRead (now : Timestamp)
  | runExpired
  | reset (now : Timestamp)
  /-- the timerfd elapses -/
  | elapse
  /-- another timer queue creates a timer -/
  | otherTimer

namespace TimerLoop

variable {T C : Type*}

/-- The queue of a new loop. -/
def start (numCreated : Nat) : TimerLoop T C where
  loop := EventLoop.new
  queue := TimerQueue.new
  objs := .empty
  numCreated := numCreated
  calls := []
  reading := none
  fired := []

/-- User code runs on the loop thread; inside `handleRead`, once a callback has been called. -/
def runsUserCode (s : TimerLoop T C) : Bool :=
  match s.reading with
  | none => s.loop.pc.runsUserCode
  | some r => !r.ran.isEmpty

/-- `new Timer`: an address of no live timer. -/
def newTimer (s : TimerLoop T C) (timer : Nat) (cb : C) (when_ : Timestamp) (interval : Int) :
    Option (TimerLoop T C) :=
  if timer < uintptrMax ∧ (s.objs.heap timer).isNone then
    some { s with
      objs := s.objs.new timer
        { callback := cb, expiration := when_, interval, sequence := s.numCreated + 1 }
      numCreated := s.numCreated + 1 }
  else none

def addTimerInLoop (s : TimerLoop T C) (timer : Nat) (now : Timestamp) : Option (TimerLoop T C) :=
  (s.queue.addTimerInLoop s.objs timer now).map fun queue => { s with queue }

def runTask (s : TimerLoop T C) (task : Option Nat) (now : Timestamp) : Option (TimerLoop T C) :=
  match task with
  | none => some s
  | some timer => s.addTimerInLoop timer now

variable [DecidableEq T]

/-- Inside `handleRead` the loop thread stays where it is. -/
def mayTake (s : TimerLoop T C) : LoopAction T (Option Nat) → Bool
  | .callFunctor => false
  | .loopQueueInLoop f => f.isNone && s.runsUserCode
  | .loopQuit => s.runsUserCode
  | .queueInLoop t f => f.isNone && (s.calls.lookup t).isNone
  | .quit t => (s.calls.lookup t).isNone
  | .wakeup _ => true
  | _ => s.reading.isNone

def step (s : TimerLoop T C) : TimerAction T C → Option (TimerLoop T C)
  | .loop a => if s.mayTake a then (s.loop.step a).map fun loop => { s with loop } else none
  | .callFunctor now =>
    match s.loop.functors with
    | [] => none
    | task :: _ =>
      if s.reading.isNone then
        (s.loop.step .callFunctor).bind fun loop => { s with loop }.runTask task now
      else none
  | .newTimer t timer cb when_ interval =>
    if (s.calls.lookup t).isNone ∧ s.loop.caller t = .idle then
      (s.newTimer timer cb when_ interval).map fun s => { s with calls := (t, timer) :: s.calls }
    else none
  | .push t =>
    match s.calls.lookup t with
    | none => none
    | some timer => (s.loop.step (.queueInLoop t (some timer))).map fun loop =>
        { s with loop, calls := s.calls.erase (t, timer) }
  | .addTimer timer cb when_ interval now =>
    if s.runsUserCode then
      (s.newTimer timer cb when_ interval).bind fun s => s.addTimerInLoop timer now
    else none
  | .handleRead now =>
    if s.loop.pc == .handling && s.reading.isNone then
      let queue := { s.queue with timerfd := s.queue.timerfd.read }
      let (expired, queue) := queue.getExpired now
      some { s with queue, reading := some { now, ran := [], rest := expired } }
    else none
  | .runExpired =>
    match s.reading with
    | some { now, ran, rest := it :: rest } => (s.objs.heap it.second).map fun timer =>
        { s with
          reading := some { now, ran := ran ++ [it], rest }
          fired := s.fired ++ [(timer, now)] }
    | _ => none
  | .reset now =>
    match s.reading with
    | some { now := _, ran, rest := [] } => (s.queue.reset s.objs ran now).map fun (objs, queue) =>
        { s with objs, queue, reading := none }
    | _ => none
  | .elapse => some { s with queue := { s.queue with timerfd := s.queue.timerfd.elapse } }
  | .otherTimer => some { s with numCreated := s.numCreated + 1 }

/-! ## The places of a timer -/

/-- The timers waiting to be inserted. -/
def waiting (s : TimerLoop T C) : List Nat := s.calls.map Prod.snd ++ s.loop.queue.filterMap id

/-- The entries of the batch being run: its timers are deleted at the end of `handleRead`. -/
def batch (s : TimerLoop T C) : List Entry :=
  match s.reading with
  | none => []
  | some r => r.ran ++ r.rest

/-- The entries of the batch that have been called. -/
def ran (s : TimerLoop T C) : List Entry :=
  match s.reading with
  | none => []
  | some r => r.ran

/-- The timers at these addresses. -/
def timersAt (s : TimerLoop T C) (ptrs : List Nat) : List (Timer C) := ptrs.filterMap s.objs.heap

/-- All pointers to live timers. -/
def ptrs (s : TimerLoop T C) : List Nat :=
  s.waiting ++ (s.queue.timers.toList.map Entry.second ++ s.batch.map Entry.second)

omit [DecidableEq T] in
theorem batch_of_reading {s : TimerLoop T C} {r : HandleRead} (h : s.reading = some r) :
    s.batch = r.ran ++ r.rest := by
  rw [batch, h]

omit [DecidableEq T] in
theorem ran_of_reading {s : TimerLoop T C} {r : HandleRead} (h : s.reading = some r) :
    s.ran = r.ran := by
  rw [ran, h]

/-- Every timer is in one place, and the history tells what has been run.  The timers in `hand` are
those of a call in progress. -/
structure Sound (s : TimerLoop T C) (hand : List Nat) : Prop where
  consistent : s.loop.Consistent
  owned : s.objs.Owned (hand ++ s.ptrs)
  address : ∀ p ∈ hand ++ s.ptrs, p < uintptrMax
  entries : ∀ e ∈ s.queue.timers.toList ++ s.batch,
    ∃ t, s.objs.heap e.second = some t ∧ t.expiration = e.first
  due : ∀ r, s.reading = some r → ∀ e ∈ r.ran ++ r.rest, e.first ≤ r.now
  history : s.fired.map Prod.fst = s.objs.deleted ++ s.timersAt (s.ran.map Entry.second)
  early : ∀ x ∈ s.fired, x.1.expiration ≤ x.2
  distinct : (s.objs.made.map Timer.sequence).Nodup
  numbered : ∀ t ∈ s.objs.made, t.sequence ≤ s.numCreated

omit [DecidableEq T] in
theorem sound_start (numCreated : Nat) : Sound (start numCreated : TimerLoop T C) [] := by
  constructor
  · exact EventLoop.consistent_new
  · exact Objects.owned_empty
  · intro p hp
    cases hp
  · intro e he
    cases he
  · intro r hr
    cases hr
  · rfl
  · intro x hx
    cases hx
  · exact List.nodup_nil
  · intro t ht
    cases ht

variable {s s' : TimerLoop T C} {hand hand' : List Nat} {timer : Nat} {now : Timestamp}

omit [DecidableEq T] in
/-- Pointers move between the calls in progress, the functors and the hand. -/
theorem Sound.moved (h : Sound s hand) (hc : s'.loop.Consistent) (hobjs : s'.objs = s.objs)
    (htimers : s'.queue.timers = s.queue.timers) (hreading : s'.reading = s.reading)
    (hfired : s'.fired = s.fired) (hnum : s.numCreated ≤ s'.numCreated)
    (hw : (hand ++ s.waiting).Perm (hand' ++ s'.waiting)) : Sound s' hand' := by
  have hbatch : s'.batch = s.batch := by
    unfold batch
    rw [hreading]
  have hran : s'.ran = s.ran := by
    unfold ran
    rw [hreading]
  have hptrs : (hand ++ s.ptrs).Perm (hand' ++ s'.ptrs) := by
    have := hw.append_right (s.queue.timers.toList.map Entry.second ++ s.batch.map Entry.second)
    simpa only [ptrs, htimers, hbatch, List.append_assoc] using this
  constructor
  · exact hc
  · rw [hobjs]
    exact h.owned.perm hptrs
  · intro p hp
    exact h.address p (hptrs.mem_iff.mpr hp)
  · rw [htimers, hbatch, hobjs]
    exact h.entries
  · rw [hreading]
    exact h.due
  · unfold timersAt
    rw [hfired, hran, hobjs]
    exact h.history
  · rw [hfired]
    exact h.early
  · rw [hobjs]
    exact h.distinct
  · intro t ht
    rw [hobjs] at ht
    exact Nat.le_trans (h.numbered t ht) hnum

/-! ## Calls -/

omit [DecidableEq T] in
theorem newTimer_eq_some {cb : C} {when_ : Timestamp} {interval : Int}
    (h : s.newTimer timer cb when_ interval = some s') :
    timer < uintptrMax ∧ s.objs.heap timer = none ∧ s' =
      { s with
        objs := s.objs.new timer
          { callback := cb, expiration := when_, interval, sequence := s.numCreated + 1 }
        numCreated := s.numCreated + 1 } := by
  unfold newTimer at h
  split at h
  · next hg =>
    simp only [Option.isNone_iff_eq_none] at hg
    exact ⟨hg.1, hg.2, (Option.some.inj h).symm⟩
  · cases h

omit [DecidableEq T] in
theorem Sound.newTimer {cb : C} {when_ : Timestamp} {interval : Int} (h : Sound s hand)
    (hs : s.newTimer timer cb when_ interval = some s') : Sound s' (timer :: hand) := by
  obtain ⟨haddr, hfree, rfl⟩ := newTimer_eq_some hs
  have hnot : timer ∉ hand ++ s.ptrs := h.owned.notMem_of_heap hfree
  have hheap : ∀ p ∈ hand ++ s.ptrs, ∀ t : Timer C,
      (s.objs.new timer t).heap p = s.objs.heap p := by
    intro p hp t
    have hne : p ≠ timer := fun heq => hnot (heq ▸ hp)
    exact Function.update_of_ne hne _ _
  have hentry : ∀ e ∈ s.queue.timers.toList ++ s.batch, e.second ∈ hand ++ s.ptrs := by
    intro e he
    have := List.mem_map_of_mem (f := Entry.second) he
    rw [List.map_append] at this
    exact List.mem_append_right _ (List.mem_append_right _ this)
  constructor
  · exact h.consistent
  · exact h.owned.new hfree _
  · intro p hp
    rcases List.mem_cons.mp hp with rfl | hp
    · exact haddr
    · exact h.address p hp
  · intro e he
    obtain ⟨t, ht, hexp⟩ := h.entries e he
    refine ⟨t, ?_, hexp⟩
    rw [← ht]
    exact hheap _ (hentry e he) _
  · exact h.due
  · rw [h.history]
    congr 1
    apply List.filterMap_congr
    intro p hp
    symm
    apply hheap
    obtain ⟨e, he, rfl⟩ := List.mem_map.mp hp
    apply hentry e
    refine List.mem_append_right _ ?_
    show e ∈ s.batch
    unfold batch ran at *
    cases hr : s.reading with
    | none =>
      rw [hr] at he
      cases he
    | some r =>
      rw [hr] at he
      exact List.mem_append_left _ he
  · exact h.early
  · show ((s.objs.made ++ [_]).map Timer.sequence).Nodup
    rw [List.map_append, List.nodup_append]
    refine ⟨h.distinct, List.nodup_singleton _, ?_⟩
    intro n hn m hm
    obtain ⟨t, ht, rfl⟩ := List.mem_map.mp hn
    rw [List.map_singleton, List.mem_singleton] at hm
    have := h.numbered t ht
    simp only at hm
    omega
  · intro t ht
    rcases List.mem_append.mp ht with ht | ht
    · have := h.numbered t ht
      show t.sequence ≤ s.numCreated + 1
      omega
    · rw [List.mem_singleton] at ht
      subst ht
      exact Nat.le_refl _

omit [DecidableEq T] in
theorem Sound.addTimerInLoop (h : Sound s (timer :: hand)) (hs : s.addTimerInLoop timer now = some s') :
    Sound s' hand := by
  obtain ⟨t, ht⟩ := h.owned.exists_heap List.mem_cons_self
  obtain ⟨queue, hq, rfl⟩ := Option.map_eq_some_iff.mp hs
  have htimers := TimerQueue.addTimerInLoop_timers ht hq
  have hnot : (⟨t.expiration, timer⟩ : Entry) ∉ s.queue.timers.toList := by
    intro hmem
    have hnodup := h.owned.nodup
    rw [List.cons_append, List.nodup_cons] at hnodup
    apply hnodup.1
    refine List.mem_append_right _ (List.mem_append_right _ (List.mem_append_left _ ?_))
    exact List.mem_map_of_mem (f := Entry.second) hmem
  have hperm := OrderedSet.perm_insert hnot
  have hptrs : (timer :: hand ++ s.ptrs).Perm (hand ++ ({ s with queue } : TimerLoop T C).ptrs) := by
    have hmap := hperm.map Entry.second
    rw [List.map_cons] at hmap
    unfold ptrs
    show (timer :: hand ++ (s.waiting ++ _)).Perm (hand ++ (s.waiting ++
      (queue.timers.toList.map Entry.second ++ s.batch.map Entry.second)))
    rw [htimers, List.perm_iff_count]
    intro p
    have := hmap.count_eq p
    simp only [List.cons_append, List.count_cons, List.count_append] at this ⊢
    omega
  constructor
  · exact h.consistent
  · exact h.owned.perm hptrs
  · intro p hp
    exact h.address p (hptrs.mem_iff.mpr hp)
  · intro e he
    rcases List.mem_append.mp he with he | he
    · replace he : e ∈ queue.timers.toList := he
      rw [htimers, OrderedSet.mem_insert] at he
      rcases he with rfl | he
      · exact ⟨t, ht, rfl⟩
      · exact h.entries e (List.mem_append_left _ he)
    · exact h.entries e (List.mem_append_right _ he)
  · exact h.due
  · exact h.history
  · exact h.early
  · exact h.distinct
  · exact h.numbered

/-! ## Steps of the loop -/

/-- A step that does not concern the timer queue leaves the waiting timers where they are. -/
theorem waiting_of_mayTake {a : LoopAction T (Option Nat)} {loop : EventLoop T (Option Nat)}
    (hc : s.loop.Consistent) (ha : s.mayTake a = true) (h : s.loop.step a = some loop) :
    loop.queue.filterMap id = s.loop.queue.filterMap id := by
  obtain ⟨hqueue, -, -⟩ := EventLoop.step_queue hc h
  have hcalls : a.calls = 0 := by
    unfold LoopAction.calls
    split
    · cases ha
    · rfl
  have hpush : a.push.filterMap id = [] := by
    cases a with
    | queueInLoop t f =>
      simp only [mayTake, Bool.and_eq_true, Option.isNone_iff_eq_none] at ha
      rw [ha.1]
      rfl
    | loopQueueInLoop f =>
      simp only [mayTake, Bool.and_eq_true, Option.isNone_iff_eq_none] at ha
      rw [ha.1]
      rfl
    | _ => rfl
  rw [hqueue, hcalls, List.drop_zero, List.filterMap_append, hpush, List.append_nil]

theorem sound_loop {a : LoopAction T (Option Nat)} (h : Sound s [])
    (hs : s.step (.loop a) = some s') : Sound s' [] := by
  simp only [step] at hs
  split at hs
  · next ha =>
    obtain ⟨loop, hloop, rfl⟩ := Option.map_eq_some_iff.mp hs
    have hc := EventLoop.consistent_step _ _ _ h.consistent hloop
    refine h.moved hc rfl rfl rfl rfl (Nat.le_refl _) ?_
    show s.waiting.Perm (s.calls.map Prod.snd ++ loop.queue.filterMap id)
    rw [waiting_of_mayTake h.consistent ha hloop]
    exact List.Perm.refl _
  · cases hs

theorem sound_callFunctor (h : Sound s []) (hs : s.step (.callFunctor now) = some s') :
    Sound s' [] := by
  simp only [step] at hs
  split at hs
  · cases hs
  · next task functors hf =>
    split at hs
    · obtain ⟨loop, hloop, htask⟩ := Option.bind_eq_some_iff.mp hs
      have hc := EventLoop.consistent_step _ _ _ h.consistent hloop
      obtain ⟨hqueue, -, -⟩ := EventLoop.step_queue h.consistent hloop
      have hhead : s.loop.queue = task :: loop.queue := by
        rw [hqueue]
        simp [EventLoop.queue, hf, LoopAction.calls, LoopAction.push]
      cases task with
      | none =>
        cases htask
        refine h.moved hc rfl rfl rfl rfl (Nat.le_refl _) ?_
        show s.waiting.Perm (s.calls.map Prod.snd ++ loop.queue.filterMap id)
        rw [waiting, hhead]
        exact List.Perm.refl _
      | some timer =>
        have hhand : Sound { s with loop } [timer] := by
          refine h.moved hc rfl rfl rfl rfl (Nat.le_refl _) ?_
          show s.waiting.Perm (timer :: (s.calls.map Prod.snd ++ loop.queue.filterMap id))
          rw [waiting, hhead]
          exact List.perm_middle
        exact hhand.addTimerInLoop htask
    · cases hs

theorem mem_of_lookup_eq_some {calls : List (T × Nat)} {t : T} (h : calls.lookup t = some timer) :
    (t, timer) ∈ calls := by
  obtain ⟨l₁, l₂, heq, -⟩ := List.lookup_eq_some_iff.mp h
  rw [heq]
  exact List.mem_append_right _ List.mem_cons_self

theorem sound_push {t : T} (h : Sound s []) (hs : s.step (.push t) = some s') : Sound s' [] := by
  simp only [step] at hs
  split at hs
  · cases hs
  · next timer hcall =>
    obtain ⟨loop, hloop, rfl⟩ := Option.map_eq_some_iff.mp hs
    have hc := EventLoop.consistent_step _ _ _ h.consistent hloop
    obtain ⟨hqueue, -, -⟩ := EventLoop.step_queue h.consistent hloop
    refine h.moved hc rfl rfl rfl rfl (Nat.le_refl _) ?_
    have hcalls := (List.perm_cons_erase (mem_of_lookup_eq_some hcall)).map Prod.snd
    have hpush : loop.queue.filterMap id = s.loop.queue.filterMap id ++ [timer] := by
      rw [hqueue]
      simp [LoopAction.calls, LoopAction.push]
    show s.waiting.Perm ((s.calls.erase (t, timer)).map Prod.snd ++ loop.queue.filterMap id)
    rw [waiting, hpush, List.perm_iff_count]
    intro p
    have := hcalls.count_eq p
    simp only [List.map_cons, List.count_cons, List.count_append, List.count_nil] at this ⊢
    omega

theorem sound_newTimer {t : T} {cb : C} {when_ : Timestamp} {interval : Int} (h : Sound s [])
    (hs : s.step (.newTimer t timer cb when_ interval) = some s') : Sound s' [] := by
  simp only [step] at hs
  split at hs
  · obtain ⟨s₁, hnew, rfl⟩ := Option.map_eq_some_iff.mp hs
    have hhand := h.newTimer hnew
    exact hhand.moved hhand.consistent rfl rfl rfl rfl (Nat.le_refl _) (List.Perm.refl _)
  · cases hs

theorem sound_addTimer {cb : C} {when_ : Timestamp} {interval : Int} (h : Sound s [])
    (hs : s.step (.addTimer timer cb when_ interval now) = some s') : Sound s' [] := by
  simp only [step] at hs
  split at hs
  · obtain ⟨s₁, hnew, hadd⟩ := Option.bind_eq_some_iff.mp hs
    exact (h.newTimer hnew).addTimerInLoop hadd
  · cases hs

/-! ## Steps of `handleRead` -/

theorem handleRead_eq_some (hs : s.step (.handleRead now) = some s') :
    s.reading = none ∧ s' =
      { s with
        queue := (TimerQueue.getExpired { s.queue with timerfd := s.queue.timerfd.read } now).2
        reading := some
          { now, ran := [], rest := (s.queue.getExpired now).1 } } := by
  simp only [step] at hs
  split at hs
  · next hg =>
    simp only [Bool.and_eq_true, Option.isNone_iff_eq_none] at hg
    exact ⟨hg.2, (Option.some.inj hs).symm⟩
  · cases hs

omit [DecidableEq T] in
/-- The entries' addresses are below the sentry's. -/
theorem Sound.second_lt (h : Sound s hand) {e : Entry} (he : e ∈ s.queue.timers.toList) :
    e.second < uintptrMax := by
  apply h.address
  refine List.mem_append_right _ (List.mem_append_right _ (List.mem_append_left _ ?_))
  exact List.mem_map_of_mem (f := Entry.second) he

omit [DecidableEq T] in
theorem Sound.getExpired (h : Sound s hand) (now : Timestamp) :
    (s.queue.getExpired now).1 = s.queue.timers.toList.filter (·.first ≤ now) ∧
      (s.queue.getExpired now).2.timers.toList = s.queue.timers.toList.filter (now < ·.first) :=
  TimerQueue.getExpired_eq fun _ he => h.second_lt he

theorem sound_handleRead (h : Sound s []) (hs : s.step (.handleRead now) = some s') :
    Sound s' [] := by
  obtain ⟨hread, rfl⟩ := handleRead_eq_some hs
  obtain ⟨hexp, -⟩ := h.getExpired now
  have hcut := OrderedSet.below_append_dropBelow s.queue.timers (sentry now)
  have hbatch : s.batch = [] := by
    rw [batch, hread]
  have hran : s.ran = [] := by
    rw [ran, hread]
  constructor
  · exact h.consistent
  · refine h.owned.perm ?_
    show s.ptrs.Perm (s.waiting ++ ((s.queue.timers.dropBelow (sentry now)).toList.map Entry.second ++
      ([] ++ s.queue.timers.below (sentry now)).map Entry.second))
    rw [ptrs, hbatch, ← hcut, List.nil_append, List.map_append, List.map_nil, List.append_nil]
    exact List.perm_append_comm.append_left _
  · intro p hp
    apply h.address
    show p ∈ s.ptrs
    rw [ptrs, hbatch, ← hcut]
    replace hp : p ∈ s.waiting ++ ((s.queue.timers.dropBelow (sentry now)).toList.map Entry.second ++
      ([] ++ s.queue.timers.below (sentry now)).map Entry.second) := hp
    simp only [List.mem_append, List.map_append, List.map_nil, List.nil_append] at hp ⊢
    tauto
  · intro e he
    apply h.entries
    rw [hbatch, List.append_nil, ← hcut]
    replace he : e ∈ (s.queue.timers.dropBelow (sentry now)).toList ++
      ([] ++ s.queue.timers.below (sentry now)) := he
    simp only [List.mem_append, List.nil_append] at he ⊢
    tauto
  · rintro r hr e he
    cases hr
    replace he : e ∈ (s.queue.getExpired now).1 := he
    rw [hexp, List.mem_filter, decide_eq_true_eq] at he
    exact he.2
  · rw [h.history, hran]
    rfl
  · exact h.early
  · exact h.distinct
  · exact h.numbered

theorem runExpired_eq_some (hs : s.step .runExpired = some s') :
    ∃ now ran it rest timer, s.reading = some ⟨now, ran, it :: rest⟩ ∧
      s.objs.heap it.second = some timer ∧ s' =
        { s with
          reading := some ⟨now, ran ++ [it], rest⟩
          fired := s.fired ++ [(timer, now)] } := by
  simp only [step] at hs
  split at hs
  · next now ran it rest hread =>
    obtain ⟨timer, htimer, rfl⟩ := Option.map_eq_some_iff.mp hs
    exact ⟨now, ran, it, rest, timer, hread, htimer, rfl⟩
  · cases hs

theorem sound_runExpired (h : Sound s []) (hs : s.step .runExpired = some s') : Sound s' [] := by
  obtain ⟨now, ran', it, rest, timer, hread, htimer, rfl⟩ := runExpired_eq_some hs
  have hbatch : s.batch = ran' ++ it :: rest := batch_of_reading hread
  have hran : s.ran = ran' := ran_of_reading hread
  have hsame : (ran' ++ [it]) ++ rest = s.batch := by
    rw [hbatch, List.append_assoc, List.singleton_append]
  have hit : it ∈ ran' ++ it :: rest := List.mem_append_right _ List.mem_cons_self
  constructor
  · exact h.consistent
  · show s.objs.Owned (s.waiting ++ (s.queue.timers.toList.map Entry.second ++
      ((ran' ++ [it]) ++ rest).map Entry.second))
    rw [hsame]
    exact h.owned
  · show ∀ p ∈ s.waiting ++ (s.queue.timers.toList.map Entry.second ++
      ((ran' ++ [it]) ++ rest).map Entry.second), p < uintptrMax
    rw [hsame]
    exact h.address
  · show ∀ e ∈ s.queue.timers.toList ++ ((ran' ++ [it]) ++ rest), _
    rw [hsame]
    exact h.entries
  · rintro r hr e he
    cases hr
    rw [hsame, hbatch] at he
    exact h.due _ hread e he
  · show (s.fired ++ [(timer, now)]).map Prod.fst =
      s.objs.deleted ++ s.timersAt ((ran' ++ [it]).map Entry.second)
    rw [List.map_append, h.history, hran, timersAt, timersAt, List.map_append, List.filterMap_append,
      List.append_assoc]
    simp [htimer]
  · intro x hx
    rcases List.mem_append.mp hx with hx | hx
    · exact h.early x hx
    · rw [List.mem_singleton] at hx
      subst hx
      obtain ⟨t, ht, hexp⟩ := h.entries it (List.mem_append_right _ (hbatch ▸ hit))
      have heq : timer = t := Option.some.inj (htimer.symm.trans ht)
      show timer.expiration ≤ now
      rw [heq, hexp]
      exact h.due _ hread it hit
  · exact h.distinct
  · exact h.numbered

theorem reset_eq_some (hs : s.step (.reset now) = some s') :
    ∃ now₀ ran objs queue, s.reading = some ⟨now₀, ran, []⟩ ∧
      s.objs.deleteAll (ran.map Entry.second) = some objs ∧ s.queue.rearm objs now = some queue ∧
      s' = { s with objs, queue, reading := none } := by
  simp only [step] at hs
  split at hs
  · next now₀ ran hread =>
    obtain ⟨⟨objs, queue⟩, hreset, rfl⟩ := Option.map_eq_some_iff.mp hs
    obtain ⟨objs', hdelete, hmap⟩ := Option.bind_eq_some_iff.mp hreset
    obtain ⟨queue', hrearm, hpair⟩ := Option.map_eq_some_iff.mp hmap
    cases hpair
    exact ⟨now₀, ran, objs, queue, hread, hdelete, hrearm, rfl⟩
  · cases hs

omit [DecidableEq T] in
/-- The batch that has been called can be deleted, and nothing else goes. -/
theorem Sound.deleteAll {now₀ : Timestamp} {ran : List Entry} (h : Sound s [])
    (hread : s.reading = some ⟨now₀, ran, []⟩) :
    ∃ objs, s.objs.deleteAll (ran.map Entry.second) = some objs ∧
      objs.deleted = s.objs.deleted ++ s.timersAt (ran.map Entry.second) ∧
      objs.made = s.objs.made ∧
      objs.Owned (s.waiting ++ s.queue.timers.toList.map Entry.second) ∧
      ∀ e ∈ s.queue.timers.toList, objs.heap e.second = s.objs.heap e.second := by
  have hbatch : s.batch = ran := (batch_of_reading hread).trans (List.append_nil ran)
  have hperm : s.ptrs.Perm (ran.map Entry.second ++
      (s.waiting ++ s.queue.timers.toList.map Entry.second)) := by
    rw [ptrs, hbatch, ← List.append_assoc]
    exact List.perm_append_comm
  have howned := h.owned.perm hperm
  obtain ⟨objs, hdelete, hdeleted, hmade, hheap, hrest⟩ := howned.deleteAll
  refine ⟨objs, hdelete, hdeleted, hmade, hrest, fun e he => hheap _ fun hmem => ?_⟩
  have hdisj := (List.nodup_append.mp howned.nodup).2.2 _ hmem e.second
  apply hdisj _ rfl
  exact List.mem_append_right _ (List.mem_map_of_mem (f := Entry.second) he)

theorem sound_reset (h : Sound s []) (hs : s.step (.reset now) = some s') : Sound s' [] := by
  obtain ⟨now₀, ran, objs, queue, hread, hdelete, hrearm, rfl⟩ := reset_eq_some hs
  obtain ⟨objs', hdelete', hdeleted, hmade, howned, hheap⟩ := h.deleteAll hread
  cases hdelete.symm.trans hdelete'
  have htimers := TimerQueue.rearm_timers hrearm
  have hran : s.ran = ran := ran_of_reading hread
  constructor
  · exact h.consistent
  · show objs.Owned (s.waiting ++ (queue.timers.toList.map Entry.second ++ []))
    rw [htimers, List.append_nil]
    exact howned
  · show ∀ p ∈ s.waiting ++ (queue.timers.toList.map Entry.second ++ []), p < uintptrMax
    rw [htimers, List.append_nil]
    intro p hp
    apply h.address
    show p ∈ s.waiting ++ (s.queue.timers.toList.map Entry.second ++ s.batch.map Entry.second)
    rw [← List.append_assoc]
    exact List.mem_append_left _ hp
  · intro e he
    replace he : e ∈ queue.timers.toList ++ [] := he
    rw [htimers, List.append_nil] at he
    obtain ⟨t, ht, hexp⟩ := h.entries e (List.mem_append_left _ he)
    exact ⟨t, (hheap e he).trans ht, hexp⟩
  · intro r hr
    cases hr
  · show s.fired.map Prod.fst = objs.deleted ++ []
    rw [h.history, hran, hdeleted, List.append_nil]
  · exact h.early
  · show (objs.made.map Timer.sequence).Nodup
    rw [hmade]
    exact h.distinct
  · show ∀ t ∈ objs.made, t.sequence ≤ s.numCreated
    rw [hmade]
    exact h.numbered

/-- **No pointer dangles.**  A `handleRead` goes on to its end: the next callback can be called, and
once all have been, `reset` can be. -/
theorem Sound.handleRead_progress {r : HandleRead} (h : Sound s []) (hread : s.reading = some r) :
    (r.rest ≠ [] → ∃ s', s.step .runExpired = some s') ∧
      (r.rest = [] → ∀ now, ∃ s', s.step (.reset now) = some s') := by
  obtain ⟨now₀, ran, rest⟩ := r
  constructor
  · intro hne
    obtain ⟨it, rest, rfl⟩ := List.exists_cons_of_ne_nil hne
    have hit : it ∈ s.batch := by
      rw [batch_of_reading hread]
      exact List.mem_append_right _ List.mem_cons_self
    obtain ⟨t, ht, -⟩ := h.entries it (List.mem_append_right _ hit)
    simp [step, hread, ht]
  · rintro rfl now
    obtain ⟨objs, hdelete, -, -, -, hheap⟩ := h.deleteAll hread
    cases hhead : s.queue.timers.toList.head? with
    | none =>
      have hrearm := TimerQueue.rearm_of_empty objs now hhead
      simp [step, hread, TimerQueue.reset, hdelete, hrearm]
    | some e =>
      have he := List.mem_of_head? hhead
      obtain ⟨t, ht, -⟩ := h.entries e (List.mem_append_left _ he)
      simp [step, hread, TimerQueue.reset, hdelete, TimerQueue.rearm, hhead, hheap e he, ht]

theorem sound_step (s : TimerLoop T C) (a : TimerAction T C) (s' : TimerLoop T C) (h : Sound s [])
    (hs : s.step a = some s') : Sound s' [] := by
  cases a with
  | loop a => exact sound_loop h hs
  | callFunctor now => exact sound_callFunctor h hs
  | newTimer t timer cb when_ interval => exact sound_newTimer h hs
  | push t => exact sound_push h hs
  | addTimer timer cb when_ interval now => exact sound_addTimer h hs
  | handleRead now => exact sound_handleRead h hs
  | runExpired => exact sound_runExpired h hs
  | reset now => exact sound_reset h hs
  | elapse =>
    cases hs
    exact h.moved h.consistent rfl rfl rfl rfl (Nat.le_refl _) (List.Perm.refl _)
  | otherTimer =>
    cases hs
    exact h.moved h.consistent rfl rfl rfl rfl (Nat.le_succ _) (List.Perm.refl _)

theorem sound_of_run {numCreated : Nat} {as : List (TimerAction T C)}
    (h : run step (start numCreated) as = some s) : Sound s [] :=
  run_inv sound_step (sound_start numCreated) h

end TimerLoop
end Muduo
