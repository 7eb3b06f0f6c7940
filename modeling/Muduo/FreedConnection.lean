import Muduo.ConnectionOwners

/-!
# A connection that is gone

What `OwnedConnection` does once a connection that was made has lost its last owner, in runs in which that
leaves no functor bound by `this` behind (`LeavesOwner`).

* `Freed`: nothing that is left refers to the connection: no functor that waits is bound to it, no thread is in
  one of its functions, no callback of its channel is under way.
* It stays so, whatever else runs on the loop (`freed_step`):

      owners = []  →  owners = [] for ever, no function of the connection runs      (gone_stays_gone)
-/

namespace Muduo

open Transition

namespace OwnedConnection

variable {T : Type*}

structure Freed (s : OwnedConnection T) : Prop where
  consistent : s.base.loop.Consistent
  created : s.base.created = true
  listed : s.listed = false
  handles : s.handles = []
  removals : s.removals = 0
  removed : s.removed = 0
  closing : s.closing = 0
  dispatch : s.base.dispatch = []
  idle : ∀ t, s.base.calls t = .idle
  /-- functors of the running batch that have been called -/
  called : ∀ task ∈ s.called, task.owns = false
  waiting : ∀ task ∈ s.base.loop.queue, task.functor = none

/-- No function of the connection has run in between. -/
structure Untouched (s s' : OwnedConnection T) : Prop where
  history : s'.base.history = s.base.history
  stat : s'.base.conn.stat = s.base.conn.stat
  inputBuffer : s'.base.conn.inputBuffer = s.base.conn.inputBuffer
  outputBuffer : s'.base.conn.outputBuffer = s.base.conn.outputBuffer

theorem Untouched.trans {s s' s'' : OwnedConnection T} (h : Untouched s s') (h' : Untouched s' s'') :
    Untouched s s'' where
  history := h'.history.trans h.history
  stat := h'.stat.trans h.stat
  inputBuffer := h'.inputBuffer.trans h.inputBuffer
  outputBuffer := h'.outputBuffer.trans h.outputBuffer

variable {s s' : OwnedConnection T}

theorem items_eq (s : OwnedConnection T) : s.batches.items = s.called ++ s.base.loop.queue :=
  List.append_assoc _ _ _

theorem Freed.owners (h : Freed s) : s.owners = [] := by
  have hitems : s.batches.items.filter Task.owns = [] := by
    rw [items_eq, List.filter_eq_nil_iff]
    intro task htask
    rcases List.mem_append.mp htask with hcalled | hqueued
    · simp [h.called task hcalled]
    · simp [Task.owns, h.waiting task hqueued]
  simp [OwnedConnection.owners, h.listed, h.handles, hitems, h.removals, h.removed, h.closing, h.dispatch]

variable [DecidableEq T]

omit [DecidableEq T] in
/-- **Nothing is left** of a connection without owners, as its functors would have found one. -/
theorem Kept.freed (h : Kept s) (hcreated : s.base.created = true) (hnone : s.owners = []) : Freed s := by
  have hlasting : ¬ Lasting s := fun hlasting => hlasting.owners hnone
  simp only [Lasting, not_or, not_lt, Nat.le_zero, Bool.not_eq_true, ne_eq, not_not] at hlasting
  obtain ⟨hlisted, hhandles, hremovals, hclosing⟩ := hlasting
  have hparts := hnone
  simp only [OwnedConnection.owners, List.append_eq_nil_iff, List.map_eq_nil_iff] at hparts
  obtain ⟨⟨⟨⟨-, hitems⟩, hbatch⟩, -⟩, hguard⟩ := hparts
  rw [List.replicate_eq_nil_iff] at hbatch
  have howns : ∀ task ∈ s.batches.items, task.owns = false := by
    intro task htask
    simpa using List.filter_eq_nil_iff.mp hitems task htask
  have hthis : ∀ task ∈ s.base.loop.queue, task.bindsThis = false := by
    rcases h.covered with hlasting | hguarded
    · exact absurd hnone hlasting.owners
    · exact hguarded.needs_eq_false howns
  rw [items_eq] at howns
  refine ⟨h.consistent, hcreated, hlisted, hhandles, by omega, by omega, hclosing, ?_, ?_, ?_, ?_⟩
  · by_contra hdispatch
    simp [hdispatch] at hguard
  · intro t
    by_contra hbusy
    have hholds := h.holding t hbusy
    rw [hhandles] at hholds
    cases hholds
  · exact fun task htask => howns task (List.mem_append_left _ htask)
  · intro task htask
    have hnot := howns task (List.mem_append_right _ htask)
    have hbinds := hthis task htask
    cases hf : task.functor with
    | none => rfl
    | some f =>
      simp only [Task.owns, hf] at hnot
      simp [Task.bindsThis, hf, hnot] at hbinds

/-! ## Steps -/

/-- A step of the loop that leaves the connection alone. -/
theorem Freed.advance (h : Freed s) {base : ConnectionLoop T} {called : List (Task T)}
    (hconsistent : base.loop.Consistent) (hcreated : base.created = s.base.created)
    (hdispatch : base.dispatch = s.base.dispatch) (hcalls : base.calls = s.base.calls)
    (hhistory : base.history = s.base.history) (hstat : base.conn.stat = s.base.conn.stat)
    (hinput : base.conn.inputBuffer = s.base.conn.inputBuffer)
    (houtput : base.conn.outputBuffer = s.base.conn.outputBuffer)
    (hwaiting : ∀ task ∈ base.loop.queue, task.functor = none)
    (hcalled : ∀ task ∈ called, task.owns = false) :
    Freed { s.advance base with called } ∧ Untouched s { s.advance base with called } := by
  have hclosing : (s.advance base).closing = 0 := by
    simp [OwnedConnection.advance, closeCallbacks, hhistory, h.closing]
  refine ⟨⟨hconsistent, hcreated.trans h.created, h.listed, h.handles, h.removals, h.removed, hclosing,
    hdispatch.trans h.dispatch, fun t => ?_, hcalled, hwaiting⟩, hhistory, hstat, hinput, houtput⟩
  show base.calls t = .idle
  rw [hcalls]
  exact h.idle t

/-- The steps of the connection and its loop. -/
theorem freed_base {a : ConnectionAction T} {base : ConnectionLoop T} (h : Freed s)
    (hmay : s.mayTake a = true) (hbase : s.base.step a = some base) :
    Freed { s.advance base with called := s.calledAfter a } ∧
      Untouched s { s.advance base with called := s.calledAfter a } := by
  have hempty : s.owners.isEmpty = true := by simp [h.owners]
  cases ConnectionLoop.moves_of_step hbase with
  | @loop la loop hmay' hloop =>
    obtain ⟨hconsistent, hqueue⟩ := ConnectionLoop.queue_of_mayTake h.consistent hmay' hloop
    refine h.advance hconsistent rfl rfl rfl rfl rfl rfl rfl ?_ ?_
    · intro task htask
      rw [show loop.queue = _ from hqueue] at htask
      rcases List.mem_append.mp htask with hold | hnew
      · exact h.waiting task hold
      · exact ConnectionLoop.push_of_mayTake hmay' task hnew
    · intro task htask
      apply h.called task
      cases la with
      | destroyFunctors => cases htask
      | queueInLoop | quit | wakeup | loopQueueInLoop | loopQuit | enterLoop | resetQuit | testQuit
      | pollReturns | handleRead | beginFunctors | swapFunctors | callFunctor | endFunctors => exact htask
  | pollOther hloop | poll _ hloop =>
    obtain ⟨hconsistent, hqueue⟩ := ConnectionLoop.queue_of_poll h.consistent hloop
    exact h.advance hconsistent rfl rfl rfl rfl rfl rfl rfl
      (fun task htask => h.waiting task (hqueue ▸ htask)) h.called
  | handleEvent => simp [mayTake, hempty] at hmay
  | callback hdispatch =>
    rw [h.dispatch] at hdispatch
    cases hdispatch
  | @callOther w task rest loop hfunctors htask hloop =>
    obtain ⟨hconsistent, hqueue⟩ := ConnectionLoop.queue_of_callFunctor h.consistent hfunctors hloop
    refine h.advance hconsistent rfl rfl rfl rfl rfl rfl rfl (fun u hu => ?_) (fun u hu => ?_)
    · apply h.waiting u
      rw [hqueue]
      exact List.mem_cons_of_mem _ hu
    · simp only [calledAfter, hfunctors] at hu
      rcases List.mem_append.mp hu with hold | hnew
      · exact h.called u hold
      · have hsame : u = task := by simpa using hnew
        simp [hsame, Task.owns, htask]
  | @callFunctor w task f rest loop _ hfunctors htask =>
    have hmem : task ∈ s.base.loop.queue := by
      rw [EventLoop.queue, hfunctors]
      exact List.mem_append_left _ List.mem_cons_self
    rw [h.waiting task hmem] at htask
    cases htask
  | send | sendRefused | shutdown | forceClose => simp [mayTake, hempty] at hmay
  | testPassed | testFailed => simp [mayTake, h.handles] at hmay
  | store hstoring =>
    rw [h.idle] at hstoring
    cases hstoring
  | push hpushing =>
    rw [h.idle] at hpushing
    cases hpushing
  | otherChannels => exact h.advance h.consistent rfl rfl rfl rfl rfl rfl rfl h.waiting h.called
  | establishNow | establish | destroyNow | destroy | remove => cases hmay

/-- **A freed connection stays freed**, and no step touches it. -/
theorem freed_step (s : OwnedConnection T) (a : OwnerAction T) (s' : OwnedConnection T) (h : Freed s)
    (hstep : s.step a = some s') : Freed s' ∧ Untouched s s' := by
  have hempty : s.owners.isEmpty = true := by simp [h.owners]
  cases a with
  | base a =>
    simp only [step, Option.ite_none_right_eq_some, Option.map_eq_some_iff] at hstep
    obtain ⟨hmay, base, hbase, rfl⟩ := hstep
    exact freed_base h hmay hbase
  | newConnection =>
    simp only [step, Option.ite_none_right_eq_some, Option.map_eq_some_iff] at hstep
    obtain ⟨-, base, hbase, -⟩ := hstep
    simp [ConnectionLoop.step, h.created] at hbase
  | removeConnection => simp [step, h.closing] at hstep
  | removeConnectionInLoop => simp [step, h.removals] at hstep
  | endBatch =>
    cases hstep
    exact ⟨⟨h.consistent, h.created, h.listed, h.handles, h.removals, rfl, h.closing, h.dispatch, h.idle,
      h.called, h.waiting⟩, rfl, rfl, rfl, rfl⟩
  | destroyServer => simp [step, h.listed] at hstep
  | expired =>
    simp only [step, Option.ite_none_right_eq_some, Option.some.injEq] at hstep
    obtain ⟨-, rfl⟩ := hstep
    exact ⟨⟨h.consistent, h.created, h.listed, h.handles, h.removals, h.removed, h.closing, h.dispatch,
      h.idle, h.called, h.waiting⟩, rfl, rfl, rfl, rfl⟩
  | keep => simp [step, hempty] at hstep
  | share | drop => simp [step, h.handles] at hstep

/-! ## Runs -/

/-- **What is gone stays gone.**  In every run in which a handle given up, and a server destroyed on the
connection's own loop, leave an owner to the functors queued: once a connection has no owner left it never
has one again, however the run goes on, and none of its functions runs, no callback is called for it, and its
state and its buffers stay as they are. -/
theorem gone_stays_gone (serverThread : Option T) (conn : TcpConnection) (as : List (OwnerAction T))
    (s : OwnedConnection T) (hrun : run step (start serverThread conn) as = some s)
    (hleaves : AllSteps step LeavesOwner (start serverThread conn) as) (hcreated : s.base.created = true)
    (hnone : s.owners = []) (bs : List (OwnerAction T)) (t : OwnedConnection T)
    (hbs : run step s bs = some t) : t.owners = [] ∧ Untouched s t := by
  have hkept : Kept s := run_inv_of_allSteps kept_step (kept_start serverThread conn) hleaves hrun
  have hfreed := hkept.freed hcreated hnone
  have hend : Freed t ∧ Untouched s t :=
    run_inv (P := fun t => Freed t ∧ Untouched s t)
      (fun u a u' hu hstep =>
        have hnext := freed_step u a u' hu.1 hstep
        ⟨hnext.1, hu.2.trans hnext.2⟩)
      ⟨hfreed, rfl, rfl, rfl, rfl⟩ hbs
  exact ⟨hend.1.owners, hend.2⟩

/-- The batch of `pushedBefore` is destroyed, and with it the last owner. -/
def freedWithBatch : List (OwnerAction Unit) :=
  pushedBefore ++ [.base (.loop .endFunctors), .base (.loop .destroyFunctors)]

theorem gone_stays_gone_after_batch :
    ∃ s t, run step (start none accepted) freedWithBatch = some s ∧ s.base.created = true ∧
      run step s [.base (.loop .testQuit), .base (.poll true none), .base (.loop .handleRead), .endBatch] =
        some t ∧ t.owners = [] := by
  have hrun : ((run step (start none accepted) freedWithBatch).bind fun s =>
      (run step s [.base (.loop .testQuit), .base (.poll true none), .base (.loop .handleRead),
        .endBatch]).map fun _ => (s.base.created, s.owners.isEmpty)) = some (true, true) := by
    decide +kernel
  obtain ⟨s, hs, hrun⟩ := Option.bind_eq_some_iff.mp hrun
  obtain ⟨t, ht, hlook⟩ := Option.map_eq_some_iff.mp hrun
  simp only [Prod.mk.injEq] at hlook
  exact ⟨s, t, hs, hlook.1, ht, (gone_stays_gone none accepted freedWithBatch s hs (by decide +kernel) hlook.1
    (List.isEmpty_iff.mp hlook.2) _ t ht).1⟩

end OwnedConnection
end Muduo
