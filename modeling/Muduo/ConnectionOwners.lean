import Muduo.ConnectionDown
import Muduo.Lib.Batches

/-!
# The owners of a connection

`ConnectionLoop` with everything that keeps the `TcpConnection` object: the entry of the server's map or
the client's `connection_`, the users' handles, the functors that bind a `TcpConnectionPtr` until their
batch is destroyed, and the pointers on the stack.  Without an owner the connection is gone.

* `send` and `shutdown` bind `this`.  Between their test of `stat_` and the push the loop may close the
  connection and destroy it, and afterwards the thread gives up its handle.
* `serverThread`: a server on another loop has `removeConnectionInLoop` queued there, which binds a
  pointer as well.
* `Lasting`: an owner other than a functor of this loop.  The removal of a connection replaces its entry
  by a functor behind everything queued, so only two steps can take the last owner away from a functor
  that needs one: a user giving up a handle, and `~TcpServer` on the connection's own loop.

    if these two leave an owner, functors find their connection owned        (functors_find_owner)
-/

namespace Muduo

open Transition

/-- The functor keeps the connection. -/
def Task.owns {T : Type*} (task : Task T) : Bool :=
  match task.functor with
  | none => false
  | some f => f.owns

/-- The functor is bound to the connection by `this`. -/
def Task.bindsThis {T : Type*} (task : Task T) : Bool :=
  match task.functor with
  | none => false
  | some f => !f.owns

/-- The functors of a loop, with those of the batch that have been called. -/
def EventLoop.batches {T F : Type*} (loop : EventLoop T F) (called : List F) : Batches F :=
  ⟨called, loop.functors, loop.pendingFunctors⟩

inductive Owner (T : Type*)
  /-- the entry of `connections_`, or `connection_` -/
  | entry
  /-- of a user, kept by a thread -/
  | handle (holder : Option T)
  /-- of this loop -/
  | functor (task : Task T)
  /-- `removeConnectionInLoop` on the server's loop -/
  | removal
  /-- `connPtr` in `handleClose` -/
  | connPtr
  /-- `guard` in `Channel::handleEvent` -/
  | guard

structure OwnedConnection (T : Type*) where
  base : ConnectionLoop T
  /-- the thread of the server's loop; `none` for a client, or if the loops are the same -/
  serverThread : Option T
  /-- the server or the client is there -/
  alive : Bool
  listed : Bool
  handles : List (Option T)
  /-- the functors of the batch that have been called -/
  called : List (Task T)
  /-- `handleClose` is in `closeCallback_`, or before it -/
  closing : Nat
  /-- `removeConnectionInLoop` in the queue of the server's loop -/
  removals : Nat
  /-- `removeConnectionInLoop` in that loop's batch, and called -/
  removed : Nat

inductive OwnerAction (T : Type*)
  /-- a step of the connection and its loop -/
  | base (a : ConnectionAction T)
  /-- `newConnection` of the server or the client -/
  | newConnection
  /-- `removeConnection`, bound to `closeCallback_` -/
  | removeConnection
  /-- on the server's loop -/
  | removeConnectionInLoop
  /-- the batch of the server's loop is destroyed -/
  | endBatch
  /-- `~TcpServer` -/
  | destroyServer
  /-- `handleEvent` finds that `tie_` has expired -/
  | expired
  /-- a callback copies its `TcpConnectionPtr` -/
  | keep
  /-- a handle is copied to another thread -/
  | share (source target : Option T)
  | drop (source : Option T)

namespace OwnedConnection

variable {T : Type*}

/-- A connection made by a server or a client, on a new loop. -/
def start (serverThread : Option T) (conn : TcpConnection) : OwnedConnection T where
  base := ConnectionLoop.start conn false
  serverThread := serverThread
  alive := true
  listed := false
  handles := []
  called := []
  closing := 0
  removals := 0
  removed := 0

/-! ## Owners -/

def batches (s : OwnedConnection T) : Batches (Task T) := s.base.loop.batches s.called

def owners (s : OwnedConnection T) : List (Owner T) :=
  (if s.listed then [.entry] else []) ++ s.handles.map .handle ++
    (s.batches.items.filter Task.owns).map .functor ++
    List.replicate (s.removals + s.removed) .removal ++ List.replicate s.closing .connPtr ++
    (if s.base.dispatch.isEmpty then [] else [.guard])

/-! ## Steps -/

variable [DecidableEq T]

/-- How often `closeCallback_` has been called. -/
def closeCallbacks (c : ConnectionLoop T) : Nat := c.history.count (.did .closeCallback)

/-- The connection and its loop go on. -/
def advance (s : OwnedConnection T) (base : ConnectionLoop T) : OwnedConnection T :=
  { s with
    base
    closing := s.closing + (closeCallbacks base - closeCallbacks s.base) }

/-- The steps of the connection that may be taken.  A thread calls through a handle of its own, and the
loop thread does nothing else while it is in `closeCallback_`. -/
def mayTake (s : OwnedConnection T) : ConnectionAction T → Bool
  | .establish _ | .destroy _ | .remove _ => false
  | .test t _ => s.handles.contains (some t)
  | .store _ | .push _ | .otherChannels _ => true
  | .userCall _ _ => !s.owners.isEmpty
  | .handleEvent => s.closing == 0 && !s.owners.isEmpty
  | .loop a => a.thread.isSome || s.closing == 0
  | .poll _ _ | .callback _ _ | .callFunctor _ => s.closing == 0

/-- What a step does to the functors already called. -/
def calledAfter (s : OwnedConnection T) : ConnectionAction T → List (Task T)
  | .callFunctor _ => s.called ++ s.base.loop.functors.take 1
  | .loop .destroyFunctors => []
  | _ => s.called

/-- The thread is not in a call. -/
def isFree (s : OwnedConnection T) : Option T → Bool
  | none => s.base.loop.pc.runsUserCode
  | some t => s.base.calls t == .idle && s.base.loop.caller t == .idle

def step (s : OwnedConnection T) : OwnerAction T → Option (OwnedConnection T)
  | .base a =>
    if s.mayTake a then
      (s.base.step a).map fun base => { s.advance base with called := s.calledAfter a }
    else none
  | .newConnection =>
    if s.alive && s.isFree s.serverThread then
      (s.base.step (.establish s.serverThread)).map fun base => { s.advance base with listed := true }
    else none
  | .removeConnection =>
    if s.alive && decide (0 < s.closing) then
      match s.serverThread with
      | none =>
        (s.base.step (.remove none)).map fun base =>
          { s.advance base with listed := false, closing := s.closing - 1 }
      | some _ => some { s with closing := s.closing - 1, removals := s.removals + 1 }
    else none
  | .removeConnectionInLoop =>
    if s.alive && decide (0 < s.removals) && s.isFree s.serverThread then
      (s.base.step (.remove s.serverThread)).map fun base =>
        { s.advance base with
          listed := false
          removals := s.removals - 1
          removed := s.removed + 1 }
    else none
  | .endBatch => some { s with removed := 0 }
  | .destroyServer =>
    if s.alive && s.listed && s.closing == 0 && s.isFree s.serverThread then
      (s.base.step (.destroy s.serverThread)).map fun base =>
        { s.advance base with alive := false, listed := false }
    else none
  | .expired =>
    if s.base.active && s.owners.isEmpty then some { s with base := { s.base with active := false } }
    else none
  | .keep =>
    if s.base.loop.pc.runsUserCode && !s.owners.isEmpty then
      some { s with handles := none :: s.handles }
    else none
  | .share source target =>
    if s.handles.contains source then some { s with handles := target :: s.handles } else none
  | .drop source =>
    if s.handles.contains source && s.isFree source then
      some { s with handles := s.handles.erase source }
    else none

/-! ## The property -/

/-- The functor that the loop calls next, if it is bound by `this`, finds the connection owned. -/
def RunsOwned (s : OwnedConnection T) (a : OwnerAction T) : Prop :=
  ∀ w, a = .base (.callFunctor w) →
    ∀ task ∈ s.base.loop.functors.head?, task.bindsThis = true → s.owners ≠ []

/-- An owner that is no functor of this loop. -/
def Lasting (s : OwnedConnection T) : Prop :=
  s.listed = true ∨ s.handles ≠ [] ∨ 0 < s.removals ∨ 0 < s.closing

/-- Every functor bound by `this` will find an owner. -/
def Covered (s : OwnedConnection T) : Prop := Lasting s ∨ s.batches.Guarded Task.owns Task.bindsThis

/-- The condition on a step: what gives up a handle, or the entry without a functor in its place,
leaves the functors an owner. -/
def LeavesOwner (s : OwnedConnection T) : OwnerAction T → Prop
  | .drop source => Covered { s with handles := s.handles.erase source }
  | .destroyServer => s.serverThread = none → Covered { s with listed := false }
  | _ => True

end OwnedConnection

/-! ## What a step does to the functors -/

/-- Every functor that a call queues binds a `TcpConnectionPtr`. -/
theorem TcpConnection.exec_queues_owns {c c' : TcpConnection} {call : ConnCall} {es : List Effect}
    (h : c.exec call = some (c', es)) {f : ConnFunctor} (hf : .queueInLoop f ∈ es) :
    f.owns = true := by
  rcases exec_accountable h _ hf with htame | ⟨heq, -⟩ | ⟨heq, -⟩
  · cases f with
    | sendInLoop data | shutdownInLoop => cases htame
    | connectEstablished | connectDestroyed | forceCloseInLoop | writeComplete | highWaterMark => rfl
  · cases heq
  · cases heq
    rfl

namespace EventLoop

variable {T F : Type*} [DecidableEq T] {loop loop' : EventLoop T F}

/-- Only three of the loop's own steps do more to its functors than push. -/
theorem batches_step {a : LoopAction T F} (h : loop.step a = some loop') (called : List F)
    (hswap : a ≠ .swapFunctors) (hcall : a ≠ .callFunctor) :
    loop'.batches called = (loop.batches called).push a.push := by
  obtain ⟨-, rfl⟩ := step_eq_some.mp h
  have hnone : loop.pendingFunctors = loop.pendingFunctors ++ [] := (List.append_nil _).symm
  cases a with
  | swapFunctors => exact absurd rfl hswap
  | callFunctor => exact absurd rfl hcall
  | queueInLoop | loopQueueInLoop => rfl
  | quit | wakeup | loopQuit | enterLoop | resetQuit | testQuit | pollReturns | handleRead
  | beginFunctors | endFunctors | destroyFunctors =>
    exact congrArg (Batches.mk called loop.functors) hnone

theorem batches_callFunctor (h : loop.step .callFunctor = some loop') (called : List F) :
    loop'.batches (loop.batches called).call.called = (loop.batches called).call := by
  obtain ⟨-, rfl⟩ := step_eq_some.mp h
  rfl

end EventLoop

namespace ConnectionLoop

variable {T : Type*} [DecidableEq T] {s s' : ConnectionLoop T} {a : ConnectionAction T}

/-- What a step does to the functors that there are. -/
def turn (a : ConnectionAction T) (b : Batches (Task T)) : Batches (Task T) :=
  match a with
  | .callFunctor _ => b.call
  | .loop .swapFunctors => b.swap
  | .loop .destroyFunctors => b.finish
  | _ => b

theorem batches_post (loop : EventLoop T (Task T)) (es : List Effect) (called : List (Task T)) :
    (post loop es).batches called = (loop.batches called).push (queuedTasks T es) := by
  unfold post
  generalize queuedTasks T es = tasks
  induction tasks generalizing loop with
  | nil => exact congrArg (Batches.mk called loop.functors) (List.append_nil _).symm
  | cons task tasks ih =>
    rw [List.foldl_cons, ih]
    show Batches.mk called loop.functors (loop.pendingFunctors ++ [task] ++ tasks) = _
    rw [List.append_assoc]
    rfl

/-- A step turns the batches and pushes; only a thread that pushes pushes a functor bound by `this`. -/
structure Turns (s : ConnectionLoop T) (a : ConnectionAction T) (s' : ConnectionLoop T) : Prop where
  consistent : s'.loop.Consistent
  calls : ∀ t, s'.calls t ≠ .idle → s.calls t ≠ .idle ∨ ∃ c, a = .test t c
  batches : ∀ called, ∃ tasks, s'.loop.batches (turn a (s.loop.batches called)).called =
    (turn a (s.loop.batches called)).push tasks ∧
      ∀ task ∈ tasks, task.bindsThis = true → ∃ t, a = .push t ∧ s.calls t ≠ .idle

omit [DecidableEq T] in
/-- The step leaves the loop's functors as they are. -/
theorem Turns.of_eq (hs : s.loop.Consistent) (hloop : s'.loop = s.loop)
    (hturn : ∀ b, turn a b = b)
    (hcalls : ∀ t, s'.calls t ≠ .idle → s.calls t ≠ .idle ∨ ∃ c, a = .test t c) : Turns s a s' := by
  refine ⟨hloop ▸ hs, hcalls, fun called => ⟨[], ?_, fun task htask => by cases htask⟩⟩
  rw [hturn, hloop]
  exact congrArg (Batches.mk called s.loop.functors) (List.append_nil _).symm

/-- A call on the connection, after a step that has turned the batches. -/
theorem Turns.perform {s₀ : ConnectionLoop T} {call : ConnCall} {c : TcpConnection}
    (h : s₀.perform (c.exec call) = some s') (hconsistent : s₀.loop.Consistent)
    (hcalls : s₀.calls = s.calls)
    (hbatches : ∀ called, s₀.loop.batches (turn a (s.loop.batches called)).called =
      turn a (s.loop.batches called)) : Turns s a s' := by
  obtain ⟨conn, es, hexec, rfl⟩ := perform_eq_some h
  refine ⟨consistent_post hconsistent es, ?_, fun called => ⟨queuedTasks T es, ?_, ?_⟩⟩
  · intro t ht
    rw [← hcalls]
    exact Or.inl ht
  · rw [← hbatches called]
    exact batches_post s₀.loop es _
  · intro task htask hbinds
    obtain ⟨e, he, heq⟩ := List.mem_filterMap.mp htask
    cases e with
    | queueInLoop f =>
      cases heq
      have howns := TcpConnection.exec_queues_owns hexec he
      simp [Task.bindsThis, howns] at hbinds
    | write | shutdownWrite | connectionCallback | messageCallback | closeCallback => cases heq

/-- `queueInLoop` of a functor bound to the connection. -/
theorem batches_queueInLoop {source : Option T} {f : ConnFunctor}
    (h : s.queueInLoop source f = some s') (called : List (Task T)) :
    s'.loop.batches called = (s.loop.batches called).push [⟨source, some f⟩] := by
  cases source with
  | none | some t =>
    obtain ⟨loop, hloop, rfl⟩ := Option.map_eq_some_iff.mp h
    exact EventLoop.batches_step hloop called (by simp) (by simp)

theorem Turns.queueInLoop {source : Option T} {f : ConnFunctor} {s₀ : ConnectionLoop T}
    (h : s₀.queueInLoop source f = some s') (hs : s.loop.Consistent) (hloop : s₀.loop = s.loop)
    (hcalls : ∀ t, s₀.calls t ≠ .idle → s.calls t ≠ .idle) (hturn : ∀ b, turn a b = b)
    (hf : f.owns = false → ∃ t, a = .push t ∧ s.calls t ≠ .idle) : Turns s a s' := by
  have hcalls' : s'.calls = s₀.calls := (Apart.queueInLoop (a := a) h).2.2
  obtain ⟨loop, rfl, hconsistent, -⟩ := queueInLoop_eq_some (hloop ▸ hs) h
  refine ⟨hconsistent, fun t ht => Or.inl (hcalls t ht), fun called => ⟨[⟨source, some f⟩], ?_, ?_⟩⟩
  · rw [hturn, batches_queueInLoop h, hloop]
    rfl
  · intro task htask hbinds
    rw [List.mem_singleton] at htask
    subst htask
    exact hf (by simpa [Task.bindsThis] using hbinds)

/-- A step of the loop that is not `callFunctor`. -/
theorem Turns.loop (hs : s.loop.Consistent) {la : LoopAction T (Task T)} {loop : EventLoop T (Task T)}
    (hloop : s.loop.step la = some loop) (hcall : la ≠ .callFunctor)
    (hpush : ∀ task ∈ la.push, task.functor = none) : Turns s (.loop la) { s with loop } := by
  have hbinds : ∀ task ∈ la.push, task.bindsThis = true →
      ∃ t, ConnectionAction.loop la = .push t ∧ s.calls t ≠ .idle := by
    intro task htask hbinds
    simp [Task.bindsThis, hpush task htask] at hbinds
  refine ⟨EventLoop.consistent_step _ _ _ hs hloop, fun t ht => Or.inl ht,
    fun called => ⟨la.push, ?_, hbinds⟩⟩
  by_cases hswap : la = .swapFunctors
  · subst hswap
    obtain ⟨-, rfl⟩ := EventLoop.step_eq_some.mp hloop
    rfl
  by_cases hdestroy : la = .destroyFunctors
  · subst hdestroy
    obtain ⟨henabled, rfl⟩ := EventLoop.step_eq_some.mp hloop
    have hpc : s.loop.pc = .leaving := beq_iff_eq.mp henabled
    have hfunctors : s.loop.functors = [] := hs.batch (by rw [hpc]; decide)
    simp [turn, EventLoop.batches, Batches.finish, Batches.push, EventLoop.next, LoopAction.push,
      hfunctors]
  · have hturn : turn (.loop la) (s.loop.batches called) = s.loop.batches called := by
      cases la with
      | swapFunctors => exact absurd rfl hswap
      | destroyFunctors => exact absurd rfl hdestroy
      | queueInLoop | quit | wakeup | loopQueueInLoop | loopQuit | enterLoop | resetQuit | testQuit
      | pollReturns | handleRead | beginFunctors | callFunctor | endFunctors => rfl
    rw [hturn]
    exact EventLoop.batches_step hloop called hswap hcall

/-- A thread whose call goes on was in a call. -/
theorem ne_idle_of_update {calls : T → CallPc} {t : T} {pc : CallPc} (hcalls : calls t ≠ .idle)
    (t' : T) (ht' : Function.update calls t pc t' ≠ .idle) : calls t' ≠ .idle := by
  by_cases hne : t' = t
  · rw [hne]
    exact hcalls
  · rwa [Function.update_of_ne hne] at ht'

/-- **What a step does to the functors.** -/
theorem turns_of_step (hs : s.loop.Consistent) (h : s.step a = some s') : Turns s a s' := by
  cases moves_of_step h with
  | loop hmay hloop =>
    exact Turns.loop hs hloop (ne_callFunctor_of_mayTake hmay) (push_of_mayTake hmay)
  | pollOther hloop | poll _ hloop =>
    refine ⟨(queue_of_poll hs hloop).1, fun t ht => Or.inl ht, fun called => ⟨[], ?_, ?_⟩⟩
    · exact EventLoop.batches_step hloop called (by simp) (by simp)
    · simp
  | handleEvent | sendRefused | testFailed | otherChannels =>
    exact Turns.of_eq hs rfl (fun _ => rfl) fun t ht => Or.inl ht
  | @callback r w cb rest _ _ hcall =>
    have hevent : { s with dispatch := rest }.perform (s.conn.exec (.event cb r w)) = some s' := hcall
    exact Turns.perform hevent hs rfl fun _ => rfl
  | callOther hfunctors htask hloop =>
    refine ⟨(queue_of_callFunctor hs hfunctors hloop).1, fun t ht => Or.inl ht,
      fun called => ⟨[], ?_, by simp⟩⟩
    exact (EventLoop.batches_callFunctor hloop called).trans
      (congrArg (Batches.mk _ _) (List.append_nil _).symm)
  | @callFunctor w task f _ loop _ hfunctors htask hloop hcall =>
    have hrun : ({ s with loop }.record [.ran task.source f]).perform (s.conn.exec (.functor f w)) =
        some s' := hcall
    exact Turns.perform hrun (queue_of_callFunctor hs hfunctors hloop).1 rfl
      (EventLoop.batches_callFunctor hloop)
  | @send data w _ hstat hcall =>
    have hexec : s.conn.exec (.user (.send data) w) = s.conn.sendInLoop data w := if_pos hstat
    rw [← hexec] at hcall
    exact Turns.perform hcall hs rfl fun _ => rfl
  | @shutdown w _ hcall =>
    have huser : s.perform (s.conn.exec (.user .shutdown w)) = some s' := hcall
    exact Turns.perform huser hs rfl fun _ => rfl
  | @forceClose w _ hcall =>
    have huser : s.perform (s.conn.exec (.user .forceClose w)) = some s' := hcall
    exact Turns.perform huser hs rfl fun _ => rfl
  | @testPassed t c =>
    refine Turns.of_eq hs rfl (fun _ => rfl) fun t' ht' => ?_
    by_cases hne : t' = t
    · exact Or.inr ⟨c, by rw [hne]⟩
    · simp only [Function.update_of_ne hne] at ht'
      exact Or.inl ht'
  | store hstoring =>
    refine Turns.of_eq hs rfl (fun _ => rfl) fun t' ht' => Or.inl ?_
    exact ne_idle_of_update (by simp [hstoring]) t' ht'
  | @push t c _ hpushing hqueue =>
    exact Turns.queueInLoop hqueue hs rfl (ne_idle_of_update (by simp [hpushing])) (fun _ => rfl)
      fun _ => ⟨t, rfl, by simp [hpushing]⟩
  | establishNow _ hcall =>
    have hrun : ({ s with created := true }.record [.ran none .connectEstablished]).perform
        (s.conn.exec (.functor .connectEstablished (.count 0))) = some s' := hcall
    exact Turns.perform hrun hs rfl fun _ => rfl
  | destroyNow _ _ hcall =>
    have hrun : (s.record [.ran none .connectDestroyed]).perform
        (s.conn.exec (.functor .connectDestroyed (.count 0))) = some s' := hcall
    exact Turns.perform hrun hs rfl fun _ => rfl
  | establish _ hqueue | destroy _ hqueue | remove _ hqueue =>
    exact Turns.queueInLoop hqueue hs rfl (fun _ ht => ht) (fun _ => rfl) fun hf => by cases hf

end ConnectionLoop

/-! ## The invariant -/

namespace OwnedConnection

variable {T : Type*} [DecidableEq T] {s s' : OwnedConnection T} {base : ConnectionLoop T}

/-- The invariant: who is in a call has a handle, and the functors are covered. -/
structure Kept (s : OwnedConnection T) : Prop where
  consistent : s.base.loop.Consistent
  holding : ∀ t, s.base.calls t ≠ .idle → some t ∈ s.handles
  covered : Covered s

omit [DecidableEq T] in
theorem Lasting.owners (h : Lasting s) : s.owners ≠ [] := by
  unfold OwnedConnection.owners
  rcases h with hlisted | hhandles | hremovals | hclosing
  · simp [hlisted]
  · simp [hhandles]
  · simp [List.append_eq_nil_iff]
    omega
  · simp [List.append_eq_nil_iff]
    omega

/-- `closeCallback_` may have been called in addition. -/
theorem Lasting.advance (h : Lasting s) (base : ConnectionLoop T) : Lasting (s.advance base) := by
  rcases h with hlisted | hhandles | hremovals | hclosing
  · exact Or.inl hlisted
  · exact Or.inr (Or.inl hhandles)
  · exact Or.inr (Or.inr (Or.inl hremovals))
  · refine Or.inr (Or.inr (Or.inr ?_))
    exact Nat.lt_of_lt_of_le hclosing (Nat.le_add_right _ _)

omit [DecidableEq T] in
/-- **A covered functor finds an owner.** -/
theorem Covered.runsOwned (h : Covered s) (a : OwnerAction T) : RunsOwned s a := by
  rintro w - task htask hbinds
  rcases h with hlasting | hguarded
  · exact hlasting.owners
  · have hwaiting : task ∈ s.batches.waiting := List.mem_of_mem_head? htask
    obtain ⟨owner, howner, howns⟩ := hguarded.head hwaiting hbinds
    have hmem : Owner.functor owner ∈ s.owners := by
      unfold OwnedConnection.owners
      simp only [List.mem_append, List.mem_map, List.mem_filter]
      exact Or.inl (Or.inl (Or.inl (Or.inr ⟨owner, ⟨howner, howns⟩, rfl⟩)))
    exact List.ne_nil_of_mem hmem

/-- The loop's part of the invariant, after a step of the connection. -/
theorem Kept.advance (h : Kept s) {a : ConnectionAction T} (hstep : s.base.step a = some base)
    (htest : ∀ t c, a = .test t c → some t ∈ s.handles) :
    base.loop.Consistent ∧ (∀ t, base.calls t ≠ .idle → some t ∈ s.handles) ∧
      (Lasting s ∨ (base.loop.batches (s.calledAfter a)).Guarded Task.owns Task.bindsThis) := by
  obtain ⟨hconsistent, hcalls, hbatches⟩ := ConnectionLoop.turns_of_step h.consistent hstep
  refine ⟨hconsistent, fun t ht => ?_, ?_⟩
  · rcases hcalls t ht with hcall | ⟨c, rfl⟩
    · exact h.holding t hcall
    · exact htest t c rfl
  · rcases h.covered with hlasting | hguarded
    · exact Or.inl hlasting
    by_cases hhandles : s.handles = []
    · right
      obtain ⟨tasks, heq, hbinds⟩ := hbatches s.called
      have hcalled : s.calledAfter a = (ConnectionLoop.turn a s.batches).called := by
        cases a with
        | loop la => cases la <;> rfl
        | poll | handleEvent | callback | callFunctor | userCall | test | store | push
        | otherChannels | establish | destroy | remove => rfl
      have hturn : (ConnectionLoop.turn a s.batches).Guarded Task.owns Task.bindsThis := by
        unfold ConnectionLoop.turn
        split
        · exact hguarded.call
        · exact hguarded.swap
        · exact hguarded.finish
        · exact hguarded
      rw [hcalled, show s.batches = s.base.loop.batches s.called from rfl, heq]
      refine hturn.push fun task htask => ?_
      by_contra hthis
      obtain ⟨t, -, hcall⟩ := hbinds task htask (by simpa using hthis)
      have hmem := h.holding t hcall
      rw [hhandles] at hmem
      cases hmem
    · exact Or.inl (Or.inr (Or.inl hhandles))

/-- The connection's removal from the list puts a functor behind everything queued. -/
theorem guarded_of_remove {source : Option T} (hstep : s.base.step (.remove source) = some base)
    (called : List (Task T)) : (base.loop.batches called).Guarded Task.owns Task.bindsThis := by
  simp only [ConnectionLoop.step, Option.ite_none_right_eq_some] at hstep
  rw [ConnectionLoop.batches_queueInLoop hstep.2]
  exact Batches.guarded_push_owner ⟨_, List.mem_singleton_self _, rfl⟩

/-- **Every step that leaves an owner** keeps the functors covered. -/
theorem kept_step (s : OwnedConnection T) (a : OwnerAction T) (s' : OwnedConnection T) (h : Kept s)
    (hleaves : LeavesOwner s a) (hstep : s.step a = some s') : Kept s' := by
  cases a with
  | base a =>
    simp only [step, Option.ite_none_right_eq_some, Option.map_eq_some_iff] at hstep
    obtain ⟨hmay, base, hbase, rfl⟩ := hstep
    obtain ⟨hconsistent, hholding, hcovered⟩ := h.advance hbase fun t c ha => by
      subst ha
      simpa [mayTake] using hmay
    exact ⟨hconsistent, hholding, hcovered.imp (fun hlasting => hlasting.advance base) id⟩
  | newConnection =>
    simp only [step, Option.ite_none_right_eq_some, Option.map_eq_some_iff] at hstep
    obtain ⟨-, base, hbase, rfl⟩ := hstep
    obtain ⟨hconsistent, hholding, -⟩ := h.advance hbase fun t c ha => by cases ha
    exact ⟨hconsistent, hholding, Or.inl (Or.inl rfl)⟩
  | removeConnection =>
    simp only [step, Option.ite_none_right_eq_some] at hstep
    obtain ⟨-, hstep⟩ := hstep
    split at hstep
    · obtain ⟨base, hbase, rfl⟩ := Option.map_eq_some_iff.mp hstep
      obtain ⟨hconsistent, hholding, -⟩ := h.advance hbase fun t c ha => by cases ha
      exact ⟨hconsistent, hholding, Or.inr (guarded_of_remove hbase _)⟩
    · cases hstep
      exact ⟨h.consistent, h.holding, Or.inl (Or.inr (Or.inr (Or.inl (Nat.succ_pos _))))⟩
  | removeConnectionInLoop =>
    simp only [step, Option.ite_none_right_eq_some, Option.map_eq_some_iff] at hstep
    obtain ⟨-, base, hbase, rfl⟩ := hstep
    obtain ⟨hconsistent, hholding, -⟩ := h.advance hbase fun t c ha => by cases ha
    exact ⟨hconsistent, hholding, Or.inr (guarded_of_remove hbase _)⟩
  | endBatch =>
    cases hstep
    exact ⟨h.consistent, h.holding, h.covered⟩
  | destroyServer =>
    simp only [step, Option.ite_none_right_eq_some, Option.map_eq_some_iff] at hstep
    obtain ⟨-, base, hbase, rfl⟩ := hstep
    obtain ⟨hconsistent, hholding, -⟩ := h.advance hbase fun t c ha => by cases ha
    refine ⟨hconsistent, hholding, ?_⟩
    cases hserver : s.serverThread with
    | none =>
      -- `connectDestroyed` has run at once, and the entry is gone
      have hstruck : Kept { s with listed := false } := ⟨h.consistent, h.holding, hleaves hserver⟩
      obtain ⟨-, -, hcovered⟩ := hstruck.advance hbase fun t c ha => by cases ha
      exact hcovered.imp (fun hlasting => hlasting.advance base) id
    | some t =>
      rw [hserver] at hbase
      simp only [ConnectionLoop.step, Option.ite_none_right_eq_some] at hbase
      have hqueue : s.base.queueInLoop (some t) .connectDestroyed = some base := hbase.2
      refine Or.inr ?_
      show (base.loop.batches s.called).Guarded Task.owns Task.bindsThis
      rw [ConnectionLoop.batches_queueInLoop hqueue]
      exact Batches.guarded_push_owner ⟨_, List.mem_singleton_self _, rfl⟩
  | expired =>
    simp only [step, Option.ite_none_right_eq_some, Option.some.injEq] at hstep
    obtain ⟨-, rfl⟩ := hstep
    exact ⟨h.consistent, h.holding, h.covered⟩
  | keep =>
    simp only [step, Option.ite_none_right_eq_some, Option.some.injEq] at hstep
    obtain ⟨-, rfl⟩ := hstep
    exact ⟨h.consistent, fun t ht => List.mem_cons_of_mem _ (h.holding t ht),
      Or.inl (Or.inr (Or.inl (List.cons_ne_nil _ _)))⟩
  | share source target =>
    simp only [step, Option.ite_none_right_eq_some, Option.some.injEq] at hstep
    obtain ⟨-, rfl⟩ := hstep
    exact ⟨h.consistent, fun t ht => List.mem_cons_of_mem _ (h.holding t ht),
      Or.inl (Or.inr (Or.inl (List.cons_ne_nil _ _)))⟩
  | drop source =>
    simp only [step, Option.ite_none_right_eq_some, Option.some.injEq] at hstep
    obtain ⟨hfree, rfl⟩ := hstep
    refine ⟨h.consistent, fun t ht => ?_, hleaves⟩
    have hne : some t ≠ source := by
      rintro rfl
      simp only [isFree, Bool.and_eq_true, beq_iff_eq] at hfree
      exact ht hfree.2.1
    exact (List.mem_erase_of_ne hne).mpr (h.holding t ht)

omit [DecidableEq T] in
theorem kept_start (serverThread : Option T) (conn : TcpConnection) : Kept (start serverThread conn) := by
  refine ⟨EventLoop.consistent_new, fun t ht => absurd rfl ht, Or.inr (Or.inr ⟨?_, Or.inl ?_⟩)⟩
  · intro task htask
    cases htask
  · intro task htask
    cases htask

/-! ## Runs -/

/-- **The functors of `send` and `shutdown` find their connection owned**, whatever the threads and the
loop do and in whatever order, as long as a user who gives up a handle, and a server destroyed on the
connection's own loop, leave an owner to the functors queued. -/
theorem functors_find_owner (serverThread : Option T) (conn : TcpConnection)
    (as : List (OwnerAction T)) (hleaves : AllSteps step LeavesOwner (start serverThread conn) as) :
    AllSteps step RunsOwned (start serverThread conn) as :=
  allSteps_inv_of_allSteps (fun _ a h _ => h.covered.runsOwned a) kept_step
    (kept_start serverThread conn) hleaves

instance decidableRunsOwned (s : OwnedConnection T) : ∀ a, Decidable (RunsOwned s a)
  | .base (.callFunctor w) =>
    decidable_of_iff (∀ task ∈ s.base.loop.functors.head?, task.bindsThis = true →
        s.owners.isEmpty = false)
      ⟨fun h _ _ task htask hbinds => List.isEmpty_eq_false_iff.mp (h task htask hbinds),
        fun h task htask hbinds => List.isEmpty_eq_false_iff.mpr (h w rfl task htask hbinds)⟩
  | .base (.loop _) | .base (.poll _ _) | .base .handleEvent | .base (.callback _ _)
  | .base (.userCall _ _) | .base (.test _ _) | .base (.store _) | .base (.push _)
  | .base (.otherChannels _) | .base (.establish _) | .base (.destroy _) | .base (.remove _)
  | .newConnection | .removeConnection | .removeConnectionInLoop | .endBatch | .destroyServer
  | .expired | .keep | .share _ _ | .drop _ => isTrue fun _ h => by cases h

instance decidableCovered (s : OwnedConnection T) : Decidable (Covered s) :=
  inferInstanceAs (Decidable ((s.listed = true ∨ s.handles ≠ [] ∨ 0 < s.removals ∨ 0 < s.closing) ∨
    (∃ f ∈ s.batches.pending, f.owns = true) ∨ (∀ f ∈ s.batches.pending, f.bindsThis = false) ∧
      ((∀ f ∈ s.batches.waiting, f.bindsThis = false) ∨
        ∃ f ∈ s.batches.called ++ s.batches.waiting, f.owns = true)))

instance decidableLeavesOwner (s : OwnedConnection T) : ∀ a, Decidable (LeavesOwner s a)
  | .drop source => inferInstanceAs (Decidable (Covered { s with handles := s.handles.erase source }))
  | .destroyServer =>
    inferInstanceAs (Decidable (s.serverThread = none → Covered { s with listed := false }))
  | .base _ | .newConnection | .removeConnection | .removeConnectionInLoop | .endBatch | .expired
  | .keep | .share _ _ => isTrue trivial

/-- A new connection of a server on the same loop; a thread gets a handle and is in `send`, past the
test of `stat_`, when the peer closes. -/
def closedInSend : List (OwnerAction Unit) :=
  [.newConnection, .keep, .share none (some ()), .drop none, .base (.loop .enterLoop),
    .base (.loop .resetQuit), .base (.loop .testQuit), .base (.test () (.send [1])),
    .base (.poll false (some EPOLLHUP)), .base .handleEvent, .base (.callback (.data []) (.count 0)),
    .removeConnection]

/-- The next batch, with one functor. -/
def nextBatch : List (OwnerAction Unit) :=
  [.base (.loop .testQuit), .base (.poll true none), .base (.loop .handleRead),
    .base (.loop .beginFunctors), .base (.loop .swapFunctors), .base (.callFunctor (.count 0))]

/-- The thread pushes before the loop comes to `connectDestroyed`, in the same batch. -/
def pushedBefore : List (OwnerAction Unit) :=
  closedInSend ++ [.base (.push ()), .base (.loop (.wakeup ())), .drop (some ()),
    .base (.loop .beginFunctors), .base (.loop .swapFunctors), .base (.callFunctor (.count 0)),
    .base (.callFunctor (.count 0))]

/-- The thread pushes when `connectDestroyed` has run, and gives up its handle after the batch. -/
def pushedAfterwards : List (OwnerAction Unit) :=
  closedInSend ++ [.base (.loop .beginFunctors), .base (.loop .swapFunctors),
    .base (.callFunctor (.count 0)), .base (.push ()), .base (.loop (.wakeup ())),
    .base (.loop .endFunctors), .base (.loop .destroyFunctors), .drop (some ())] ++ nextBatch

def accepted : TcpConnection := TcpConnection.new EPollPoller.empty 100 5 false false

theorem functors_find_owner_pushed_before :
    (run step (start none accepted) pushedBefore).isSome = true ∧
      AllSteps step RunsOwned (start none accepted) pushedBefore :=
  ⟨by decide +kernel, functors_find_owner none accepted pushedBefore (by decide +kernel)⟩

/-- **`sendInLoop` runs on a connection that is gone.** -/
theorem sendInLoop_without_owner :
    (run step (start none accepted) pushedAfterwards).isSome = true ∧
      ¬ AllSteps step RunsOwned (start none accepted) pushedAfterwards :=
  ⟨by decide +kernel, by decide +kernel⟩

end OwnedConnection
end Muduo
