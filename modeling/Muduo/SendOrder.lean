import Muduo.ConnectionStreams
import Muduo.GracefulShutdown

/-!
# Messages of several senders

Any number of threads call `send` on one connection, with nothing else excluded: `shutdown`,
`forceClose`, reads, closes, `connectDestroyed`, and every result of `::write`.  As in `ConnectionLoop` a
string stays as it is until its functor has run; `BorrowedString` has the runs in which it does not.

* A message is `called` when `send` has passed its test, then on its way to the loop, and `taken` by
  `sendInLoop`.  For each sender

      taken ++ queued ++ about to be pushed = called                       (SendOrder.order)

* `takes`, `drops`, `keeps`: the message that a step hands to `sendInLoop`, whether it is dropped there, and
  what is kept.  What `::write` has taken, with what is left in the buffer, grows by what the step keeps
  (`step_bytes`): a message is transmitted once, in one piece, or dropped by its own step.

      bytes written ++ outputBuffer = initial output ++ messages kept      (send_order)
-/

namespace Muduo

open Transition

/-! ## The messages of a run -/

/-- A message with its sender, `none` for the loop thread. -/
abbrev Message (T : Type*) := Option T × List UInt8

section Messages

variable {T : Type*}

def ConnFunctor.message : ConnFunctor → Option (List UInt8)
  | .sendInLoop data => some data
  | _ => none

/-- The messages that `send` was called with, in state `kConnected`. -/
def calledMessages (history : List (HistoryEntry T)) : List (Message T) :=
  history.filterMap fun
    | .called source data => some (source, data)
    | _ => none

/-- The messages that `sendInLoop` was called with. -/
def takenMessages (history : List (HistoryEntry T)) : List (Message T) :=
  history.filterMap fun
    | .ran source f => f.message.map fun data => (source, data)
    | _ => none

/-- The messages in a queue of functors. -/
def queuedMessages (tasks : List (Task T)) : List (Message T) :=
  tasks.filterMap fun task =>
    (task.functor.bind ConnFunctor.message).map fun data => (task.source, data)

/-- The message of the `send` that a thread is in. -/
def CallPc.message (t : T) : CallPc → List (Message T)
  | .storing (.send data) | .pushing (.send data) => [(some t, data)]
  | _ => []

/-- The message that `source` is about to push. -/
def waitingMessages (source : Option T) (calls : T → CallPc) : List (Message T) :=
  source.elim [] fun t => (calls t).message t

/-- The messages of one sender. -/
def sentBy [DecidableEq T] (source : Option T) (ms : List (Message T)) : List (Message T) :=
  ms.filter fun m => m.1 = source

@[simp] theorem calledMessages_append (h h' : List (HistoryEntry T)) :
    calledMessages (h ++ h') = calledMessages h ++ calledMessages h' := List.filterMap_append

@[simp] theorem takenMessages_append (h h' : List (HistoryEntry T)) :
    takenMessages (h ++ h') = takenMessages h ++ takenMessages h' := List.filterMap_append

@[simp] theorem queuedMessages_append (tasks tasks' : List (Task T)) :
    queuedMessages (tasks ++ tasks') = queuedMessages tasks ++ queuedMessages tasks' :=
  List.filterMap_append

@[simp] theorem sentBy_append [DecidableEq T] (source : Option T) (ms ms' : List (Message T)) :
    sentBy source (ms ++ ms') = sentBy source ms ++ sentBy source ms' := List.filter_append ..

@[simp] theorem calledMessages_did (es : List Effect) :
    calledMessages (es.map (HistoryEntry.did : Effect → HistoryEntry T)) = [] := by
  simp [calledMessages]

@[simp] theorem takenMessages_did (es : List Effect) :
    takenMessages (es.map (HistoryEntry.did : Effect → HistoryEntry T)) = [] := by
  simp [takenMessages]

/-- Functors of other objects, and those that are not `sendInLoop`. -/
theorem queuedMessages_append_of_none {tasks : List (Task T)}
    (h : ∀ task ∈ tasks, task.functor.bind ConnFunctor.message = none) (before : List (Task T)) :
    queuedMessages (before ++ tasks) = queuedMessages before := by
  have hnil : queuedMessages tasks = [] := by
    rw [queuedMessages, List.filterMap_eq_nil_iff]
    intro task htask
    rw [h task htask]
    rfl
  rw [queuedMessages_append, hnil, List.append_nil]

end Messages

namespace TcpConnection

variable {c c' : TcpConnection} {es : List Effect} {call : ConnCall}

/-- No call on the connection pushes `sendInLoop` from the loop thread. -/
theorem exec_queues_no_message {T : Type*} (h : c.exec call = some (c', es)) :
    ∀ task ∈ queuedTasks T es, task.functor.bind ConnFunctor.message = none := by
  intro task htask
  obtain ⟨e, he, htask⟩ := List.mem_filterMap.mp htask
  split at htask
  · next f =>
    cases htask
    rcases exec_accountable h _ he with htame | ⟨hclose, -⟩ | ⟨hforce, -⟩
    · cases f with
      | sendInLoop => cases htame
      | connectEstablished | connectDestroyed | shutdownInLoop | forceCloseInLoop | writeComplete
      | highWaterMark => rfl
    · cases hclose
    · cases hforce
      rfl
  · cases htask

end TcpConnection

/-! ## What a step takes and keeps -/

namespace ConnectionLoop

variable {T : Type*}

/-- The messages that the step hands to `sendInLoop`. -/
def takes (s : ConnectionLoop T) (a : ConnectionAction T) : List (Message T) :=
  match s.callOf a with
  | some (.functor (.sendInLoop data) _) => [(s.loop.functors.head?.bind Task.source, data)]
  | some (.user (.send data) _) => if s.conn.stat = .kConnected then [(none, data)] else []
  | _ => []

/-- The step hands a message to `sendInLoop` and it is dropped: the connection is down, or the message
is given up behind a failed direct `::write`. -/
def drops (s : ConnectionLoop T) (a : ConnectionAction T) : Bool :=
  match s.callOf a with
  | some (.functor (.sendInLoop _) w) => s.conn.stat == .kDisconnected || s.conn.directFailure w
  | some (.user (.send _) w) => s.conn.stat == .kConnected && s.conn.directFailure w
  | _ => false

/-- The messages that the step hands to `sendInLoop` and does not drop. -/
def keeps (s : ConnectionLoop T) (a : ConnectionAction T) : List (Message T) :=
  if s.drops a then [] else s.takes a

theorem keeps_sublist (s : ConnectionLoop T) (a : ConnectionAction T) :
    (s.keeps a).Sublist (s.takes a) := by
  unfold keeps
  split
  · exact List.nil_sublist _
  · exact List.Sublist.refl _

theorem takes_of_callOf_none {s : ConnectionLoop T} {a : ConnectionAction T} (h : s.callOf a = none) :
    s.takes a = [] := by
  simp [takes, h]

theorem keeps_of_callOf_none {s : ConnectionLoop T} {a : ConnectionAction T} (h : s.callOf a = none) :
    s.keeps a = [] := by
  simp [keeps, takes_of_callOf_none h]

/-- The bytes that the step keeps are those that its call takes over. -/
theorem flatMap_keeps {s : ConnectionLoop T} {a : ConnectionAction T} {call : ConnCall}
    (h : s.callOf a = some call) : (s.keeps a).flatMap Prod.snd = s.conn.keeps call := by
  unfold keeps drops takes TcpConnection.keeps
  simp only [h]
  cases call with
  | functor f w =>
    cases f with
    | sendInLoop data =>
      by_cases hdown : s.conn.stat = .kDisconnected <;> cases hf : s.conn.directFailure w <;>
        simp [hdown, hf]
    | connectEstablished | connectDestroyed | shutdownInLoop | forceCloseInLoop | writeComplete
    | highWaterMark => rfl
  | event => rfl
  | user call w =>
    cases call with
    | send data =>
      by_cases hopen : s.conn.stat = .kConnected <;> cases hf : s.conn.directFailure w <;>
        simp [hopen, hf]
    | shutdown | forceClose => rfl

theorem writtenBytes_eq_nil {entries : List (HistoryEntry T)} (h : ∀ e, .did e ∉ entries) :
    writtenBytes entries = [] := by
  rw [writtenBytes, List.flatMap_eq_nil_iff]
  intro entry hentry
  split
  · next e => exact absurd hentry (h e)
  · rfl

variable [DecidableEq T] {s s' : ConnectionLoop T} {a : ConnectionAction T}

/-- A step that makes no call leaves the buffers alone and writes nothing. -/
theorem buffers_of_callOf_none (hcall : s.callOf a = none) (h : s.step a = some s') :
    s'.conn.inputBuffer = s.conn.inputBuffer ∧ s'.conn.outputBuffer = s.conn.outputBuffer ∧
      writtenBytes s'.history = writtenBytes s.history := by
  obtain ⟨hapart, -⟩ := step_of_callOf_none hcall h
  obtain ⟨entries, hhistory, hentries, -⟩ := hapart.history
  have hwritten : writtenBytes s'.history = writtenBytes s.history := by
    rw [hhistory, writtenBytes_append, writtenBytes_eq_nil hentries, List.append_nil]
  have hqueue : ∀ {s₀ : ConnectionLoop T} {source : Option T} {f : ConnFunctor},
      s₀.queueInLoop source f = some s' → s'.conn = s₀.conn := by
    intro s₀ source f hf
    exact (Apart.queueInLoop (a := a) hf).2.1
  suffices hbuffers : s'.conn.inputBuffer = s.conn.inputBuffer ∧
      s'.conn.outputBuffer = s.conn.outputBuffer from ⟨hbuffers.1, hbuffers.2, hwritten⟩
  cases moves_of_step h with
  | loop | pollOther | poll | handleEvent | callOther | testPassed | testFailed | store
  | otherChannels => exact ⟨rfl, rfl⟩
  | push _ hcall | establish _ hcall | destroy _ hcall | remove _ hcall =>
    rw [hqueue hcall]
    exact ⟨rfl, rfl⟩
  | callback hdispatch => simp [callOf, hdispatch] at hcall
  | callFunctor hfunctors htask => simp [callOf, hfunctors, htask] at hcall
  | send | sendRefused | shutdown | forceClose | establishNow | destroyNow => cases hcall

/-- **One step** adds the bytes it keeps to what is written and queued. -/
theorem step_bytes (hs : s.loop.Consistent) (h : s.step a = some s') :
    writtenBytes s'.history ++ s'.conn.outputBuffer.toQueue =
      writtenBytes s.history ++ s.conn.outputBuffer.toQueue ++ (s.keeps a).flatMap Prod.snd := by
  cases hcall : s.callOf a with
  | none =>
    obtain ⟨-, hbuffer, hwritten⟩ := buffers_of_callOf_none hcall h
    rw [hbuffer, hwritten, keeps_of_callOf_none hcall, List.flatMap_nil, List.append_nil]
  | some call =>
    obtain ⟨es, hcalls⟩ := step_of_callOf hs hcall h
    obtain ⟨entries, hhistory, hentries, -⟩ := hcalls.history
    have hstream := TcpConnection.exec_output hcalls.exec
    rw [hhistory, writtenBytes_append, writtenBytes_append, writtenBytes_eq_nil hentries,
      writtenBytes_did, List.append_nil, List.append_assoc, hstream, flatMap_keeps hcall,
      List.append_assoc]

/-! ## The invariant -/

/-- The messages of a connection. -/
structure SendOrder (s : ConnectionLoop T) : Prop where
  consistent : s.loop.Consistent
  /-- the loop thread calls `sendInLoop` at once -/
  direct : sentBy none (queuedMessages s.loop.queue) = []
  order : ∀ source, sentBy source (takenMessages s.history) ++
      (sentBy source (queuedMessages s.loop.queue) ++ waitingMessages source s.calls) =
    sentBy source (calledMessages s.history)

/-- A thread other than `t` is not concerned by what `t` does. -/
theorem waitingMessages_update {source : Option T} {calls : T → CallPc} {t : T} {pc : CallPc} :
    waitingMessages source (Function.update calls t pc) =
      if source = some t then pc.message t else waitingMessages source calls := by
  cases source with
  | none => rfl
  | some t' =>
    by_cases ht : t' = t
    · subst ht
      simp [waitingMessages]
    · simp [waitingMessages, ht]

namespace SendOrder

/-- What a step has to add up to, when it records `entries`. -/
theorem advance (h : SendOrder s) (entries : List (HistoryEntry T))
    (hhistory : s'.history = s.history ++ entries) (hconsistent : s'.loop.Consistent)
    (hdirect : sentBy none (queuedMessages s'.loop.queue) = [])
    (horder : ∀ source, sentBy source (takenMessages entries) ++
        (sentBy source (queuedMessages s'.loop.queue) ++ waitingMessages source s'.calls) =
      sentBy source (queuedMessages s.loop.queue) ++ waitingMessages source s.calls ++
        sentBy source (calledMessages entries)) : SendOrder s' := by
  refine ⟨hconsistent, hdirect, ?_⟩
  intro source
  rw [hhistory, takenMessages_append, calledMessages_append, sentBy_append, sentBy_append,
    List.append_assoc, horder source, ← List.append_assoc, h.order source]

/-- Nothing is sent. -/
theorem frame (h : SendOrder s) (hhistory : s'.history = s.history)
    (hconsistent : s'.loop.Consistent)
    (hmessages : queuedMessages s'.loop.queue = queuedMessages s.loop.queue)
    (hcalls : s'.calls = s.calls) : SendOrder s' := by
  refine h.advance [] (by rw [hhistory, List.append_nil]) hconsistent ?_ ?_
  · rw [hmessages]
    exact h.direct
  · intro source
    rw [hmessages, hcalls]
    exact (List.append_nil _).symm

/-- A call on the connection, behind the entries that a step records for it. -/
theorem perform (h : SendOrder s) (call : ConnCall) (s₀ : ConnectionLoop T)
    (entries : List (HistoryEntry T)) (hhistory : s₀.history = s.history ++ entries)
    (hconsistent : s₀.loop.Consistent)
    (hdirect : sentBy none (queuedMessages s₀.loop.queue) = [])
    (horder : ∀ source, sentBy source (takenMessages entries) ++
        (sentBy source (queuedMessages s₀.loop.queue) ++ waitingMessages source s₀.calls) =
      sentBy source (queuedMessages s.loop.queue) ++ waitingMessages source s.calls ++
        sentBy source (calledMessages entries))
    (hcall : s₀.perform (s₀.conn.exec call) = some s') : SendOrder s' := by
  obtain ⟨conn, es, hexec, rfl⟩ := perform_eq_some hcall
  have hqueue : queuedMessages (post s₀.loop es).queue = queuedMessages s₀.loop.queue := by
    rw [queue_post]
    exact queuedMessages_append_of_none (TcpConnection.exec_queues_no_message hexec) _
  refine h.advance (entries ++ es.map .did) ?_ (consistent_post hconsistent es) ?_ ?_
  · rw [← List.append_assoc, ← hhistory]
  · rw [hqueue]
    exact hdirect
  · intro source
    rw [hqueue]
    simpa using horder source

/-- A call on the connection that sends nothing. -/
theorem perform_frame (h : SendOrder s) (call : ConnCall) (s₀ : ConnectionLoop T)
    (entries : List (HistoryEntry T)) (hhistory : s₀.history = s.history ++ entries)
    (hentries : takenMessages entries = [] ∧ calledMessages entries = [])
    (hconsistent : s₀.loop.Consistent)
    (hqueue : queuedMessages s₀.loop.queue = queuedMessages s.loop.queue)
    (hcalls : s₀.calls = s.calls) (hcall : s₀.perform (s₀.conn.exec call) = some s') :
    SendOrder s' := by
  refine h.perform call s₀ entries hhistory hconsistent ?_ ?_ hcall
  · rw [hqueue]
    exact h.direct
  · intro source
    rw [hqueue, hcalls, hentries.1, hentries.2]
    exact (List.append_nil _).symm

/-- A functor of another object, or one that is bound to the connection and not a message. -/
theorem queue (h : SendOrder s) {source : Option T} {f : ConnFunctor} (hf : f.message = none)
    (hcall : s.queueInLoop source f = some s') : SendOrder s' := by
  obtain ⟨loop, rfl, hconsistent, hqueue⟩ := queueInLoop_eq_some h.consistent hcall
  refine h.frame rfl hconsistent ?_ rfl
  show queuedMessages loop.queue = _
  rw [hqueue]
  refine queuedMessages_append_of_none ?_ _
  intro task htask
  rw [List.mem_singleton] at htask
  rw [htask]
  exact hf

/-- `send` on the loop thread, in state `kConnected`. -/
theorem send (h : SendOrder s) {data : List UInt8} {w : WriteResult} (hstat : s.conn.stat = .kConnected)
    (hcall : (s.record [.called none data, .ran none (.sendInLoop data)]).perform
      (s.conn.sendInLoop data w) = some s') : SendOrder s' := by
  have hexec : s.conn.exec (.user (.send data) w) = s.conn.sendInLoop data w := if_pos hstat
  rw [← hexec] at hcall
  refine h.perform _ (s.record [.called none data, .ran none (.sendInLoop data)]) _ rfl
    h.consistent h.direct ?_ hcall
  intro source
  cases source with
  | none =>
    show sentBy none [(none, data)] ++ (sentBy none (queuedMessages s.loop.queue) ++ []) =
      sentBy none (queuedMessages s.loop.queue) ++ [] ++ sentBy none [(none, data)]
    rw [h.direct]
    rfl
  | some t => simp [record, takenMessages, calledMessages, ConnFunctor.message, sentBy]

/-- A functor called by the loop. -/
theorem callFunctor (h : SendOrder s) {w : WriteResult} {loop : EventLoop T (Task T)} {task : Task T}
    {f : ConnFunctor} (hconsistent : loop.Consistent) (hqueue : s.loop.queue = task :: loop.queue)
    (hf : task.functor = some f)
    (hcall : ({ s with loop }.record [.ran task.source f]).perform (s.conn.callFunctor w f) =
      some s') : SendOrder s' := by
  have hmoved : takenMessages [.ran task.source f] ++ queuedMessages loop.queue =
      queuedMessages s.loop.queue := by
    rw [hqueue]
    cases hmessage : f.message with
    | none => simp [takenMessages, queuedMessages, hf, hmessage]
    | some data => simp [takenMessages, queuedMessages, hf, hmessage]
  have hsent : ∀ source, sentBy source (takenMessages [.ran task.source f]) ++
      sentBy source (queuedMessages loop.queue) = sentBy source (queuedMessages s.loop.queue) := by
    intro source
    rw [← sentBy_append, hmoved]
  refine h.perform (.functor f w) ({ s with loop }.record [.ran task.source f]) _ rfl
    hconsistent ?_ ?_ hcall
  · have hnone := hsent none
    rw [h.direct] at hnone
    exact (List.append_eq_nil_iff.mp hnone).2
  · intro source
    rw [← List.append_assoc]
    show sentBy source (takenMessages [.ran task.source f]) ++ sentBy source (queuedMessages loop.queue) ++
      waitingMessages source s.calls = _
    rw [hsent source]
    exact (List.append_nil _).symm

/-- Another thread goes on in its call and pushes nothing. -/
theorem advanceCall (h : SendOrder s) (t : T) (pc : CallPc) (conn : TcpConnection)
    (entries : List (HistoryEntry T)) (hentries : takenMessages entries = [])
    (hmessage : pc.message t = (s.calls t).message t ++ calledMessages entries)
    (hcalled : ∀ m ∈ calledMessages entries, m.1 = some t) :
    SendOrder { s with
      conn, calls := Function.update s.calls t pc, history := s.history ++ entries } := by
  refine h.advance entries rfl h.consistent h.direct ?_
  intro source
  rw [hentries, waitingMessages_update, List.append_assoc]
  show sentBy source (queuedMessages s.loop.queue) ++ _ = _
  congr 1
  by_cases hsource : source = some t
  · subst hsource
    rw [if_pos rfl, hmessage]
    congr 1
    exact (List.filter_eq_self.mpr fun m hm => decide_eq_true (hcalled m hm)).symm
  · rw [if_neg hsource]
    have hnone : sentBy source (calledMessages entries) = [] := by
      refine List.filter_eq_nil_iff.mpr fun m hm hm' => hsource ?_
      rw [← of_decide_eq_true hm', hcalled m hm]
    rw [hnone, List.append_nil]

/-- The push in `queueInLoop`. -/
theorem push (h : SendOrder s) {t : T} {c : UserCall} (hpushing : s.calls t = .pushing c)
    (hcall : { s with calls := Function.update s.calls t .idle }.queueInLoop (some t) c.functor =
      some s') : SendOrder s' := by
  obtain ⟨loop, rfl, hconsistent, hqueue⟩ := queueInLoop_eq_some (by exact h.consistent) hcall
  replace hqueue : loop.queue = s.loop.queue ++ [⟨some t, some c.functor⟩] := hqueue
  have hpushed : queuedMessages [(⟨some t, some c.functor⟩ : Task T)] = (s.calls t).message t := by
    rw [hpushing]
    cases c <;> rfl
  have hmine : ∀ m ∈ (s.calls t).message t, m.1 = some t := by
    rw [hpushing]
    cases c <;> simp [CallPc.message]
  have hother : ∀ source, source ≠ some t → sentBy source ((s.calls t).message t) = [] := by
    intro source hsource
    refine List.filter_eq_nil_iff.mpr fun m hm hm' => hsource ?_
    rw [← of_decide_eq_true hm', hmine m hm]
  refine h.advance [] (List.append_nil _).symm hconsistent ?_ ?_
  · show sentBy none (queuedMessages loop.queue) = []
    rw [hqueue, queuedMessages_append, sentBy_append, h.direct, hpushed, hother none (by simp)]
    rfl
  · intro source
    show sentBy source (queuedMessages loop.queue) ++ waitingMessages source (Function.update s.calls t .idle) =
      sentBy source (queuedMessages s.loop.queue) ++ waitingMessages source s.calls ++ []
    rw [hqueue, queuedMessages_append, sentBy_append, hpushed, waitingMessages_update,
      List.append_nil, List.append_assoc]
    congr 1
    by_cases hsource : source = some t
    · subst hsource
      rw [if_pos rfl]
      show sentBy (some t) ((s.calls t).message t) ++ [] = (s.calls t).message t
      rw [List.append_nil]
      exact List.filter_eq_self.mpr fun m hm => decide_eq_true (hmine m hm)
    · rw [if_neg hsource, hother source hsource]
      rfl

end SendOrder

/-! ## Steps -/

theorem sendOrder_step (s : ConnectionLoop T) (a : ConnectionAction T) (s' : ConnectionLoop T)
    (h : SendOrder s) (hstep : s.step a = some s') : SendOrder s' := by
  cases moves_of_step hstep with
  | loop hmay hloop =>
    obtain ⟨hconsistent, hqueue⟩ := queue_of_mayTake h.consistent hmay hloop
    refine h.frame rfl hconsistent ?_ rfl
    rw [hqueue]
    refine queuedMessages_append_of_none ?_ _
    intro task htask
    rw [push_of_mayTake hmay task htask]
    rfl
  | pollOther hloop | poll _ hloop =>
    obtain ⟨hconsistent, hqueue⟩ := queue_of_poll h.consistent hloop
    exact h.frame rfl hconsistent (congrArg queuedMessages hqueue) rfl
  | handleEvent | otherChannels =>
    exact h.frame rfl h.consistent rfl rfl
  | @callback r w cb rest _ hdispatch hcall =>
    exact h.perform_frame (.event cb r w) { s with dispatch := rest } []
      (List.append_nil _).symm ⟨rfl, rfl⟩ h.consistent rfl rfl hcall
  | callOther hfunctors htask hloop =>
    obtain ⟨hconsistent, hqueue⟩ := queue_of_callFunctor h.consistent hfunctors hloop
    refine h.frame rfl hconsistent ?_ rfl
    simp [hqueue, queuedMessages, htask]
  | callFunctor hfunctors htask hloop hcall =>
    obtain ⟨hconsistent, hqueue⟩ := queue_of_callFunctor h.consistent hfunctors hloop
    exact h.callFunctor hconsistent hqueue htask hcall
  | send hstat hcall => exact h.send hstat hcall
  | sendRefused | testFailed => exact h
  | @shutdown w _ hcall =>
    exact h.perform_frame (.user .shutdown w) s [] (List.append_nil _).symm ⟨rfl, rfl⟩ h.consistent
      rfl rfl hcall
  | @forceClose w _ hcall =>
    exact h.perform_frame (.user .forceClose w) s [] (List.append_nil _).symm ⟨rfl, rfl⟩ h.consistent
      rfl rfl hcall
  | @testPassed t c hidle =>
    refine h.advanceCall t _ _ _ ?_ ?_ ?_
    · cases c <;> rfl
    · rw [hidle]
      cases c <;> rfl
    · cases c <;> simp [UserCall.entries, calledMessages]
  | @store t c hstoring =>
    have hstore := h.advanceCall t (.pushing c) (s.conn.setState .kDisconnecting) [] rfl
      (by rw [hstoring]; cases c <;> rfl) (by simp [calledMessages])
    rwa [List.append_nil] at hstore
  | push hpushing hqueue => exact h.push hpushing hqueue
  | establishNow _ hcall =>
    exact h.perform_frame (.functor .connectEstablished (.count 0))
      (record { s with created := true } [.ran none .connectEstablished]) _ rfl ⟨rfl, rfl⟩
      h.consistent rfl rfl hcall
  | establish _ hqueue =>
    exact SendOrder.queue (s := { s with created := true }) ⟨h.consistent, h.direct, h.order⟩ rfl hqueue
  | destroyNow _ _ hcall =>
    exact h.perform_frame (.functor .connectDestroyed (.count 0))
      (s.record [.ran none .connectDestroyed]) _ rfl ⟨rfl, rfl⟩ h.consistent rfl rfl hcall
  | destroy _ hqueue | remove _ hqueue => exact h.queue rfl hqueue

/-- **One step** hands what it takes to `sendInLoop`. -/
theorem step_taken (h : s.step a = some s') :
    takenMessages s'.history = takenMessages s.history ++ s.takes a := by
  have hsame : s'.history = s.history → s.takes a = [] →
      takenMessages s'.history = takenMessages s.history ++ s.takes a := by
    intro hhistory htakes
    rw [hhistory, htakes, List.append_nil]
  have hperform : ∀ {s₀ : ConnectionLoop T} {entries : List (HistoryEntry T)} {r : TcpConnection.Result},
      s₀.perform r = some s' → s₀.history = s.history ++ entries → takenMessages entries = s.takes a →
      takenMessages s'.history = takenMessages s.history ++ s.takes a := by
    intro s₀ entries r hcall hhistory htakes
    obtain ⟨conn, es, -, rfl⟩ := perform_eq_some hcall
    simp only [hhistory, takenMessages_append, takenMessages_did, List.append_nil, htakes]
  have hqueue : ∀ {s₀ : ConnectionLoop T} {source : Option T} {f : ConnFunctor},
      s₀.queueInLoop source f = some s' → s₀.history = s.history → s.takes a = [] →
      takenMessages s'.history = takenMessages s.history ++ s.takes a := by
    intro s₀ source f hf hhistory htakes
    refine hsame ?_ htakes
    cases source <;> obtain ⟨loop, -, rfl⟩ := Option.map_eq_some_iff.mp hf <;> exact hhistory
  cases moves_of_step h with
  | loop | pollOther | poll | handleEvent | otherChannels | testFailed | store => exact hsame rfl rfl
  | callOther hfunctors htask => exact hsame rfl (by simp [takes, callOf, hfunctors, htask])
  | callback hdispatch hcall =>
    exact hperform hcall (List.append_nil _).symm (by simp [takes, callOf, hdispatch, takenMessages])
  | @callFunctor w task f rest loop _ hfunctors htask hloop hcall =>
    refine hperform hcall rfl ?_
    cases f <;> simp [takes, callOf, hfunctors, htask, takenMessages, ConnFunctor.message]
  | send hstat hcall =>
    refine hperform hcall rfl ?_
    simp [takes, callOf, hstat, takenMessages, ConnFunctor.message]
  | sendRefused hstat => exact hsame rfl (by simp [takes, callOf, hstat])
  | shutdown hcall | forceClose hcall => exact hperform hcall (List.append_nil _).symm rfl
  | @testPassed t c =>
    show takenMessages (s.history ++ c.entries t) = _ ++ []
    cases c <;> simp [UserCall.entries, takenMessages]
  | push _ hf | establish _ hf | destroy _ hf | remove _ hf => exact hqueue hf rfl rfl
  | establishNow _ hcall | destroyNow _ _ hcall => exact hperform hcall rfl rfl

/-! ## Runs -/

theorem sendOrder_start (conn : TcpConnection) (created : Bool) :
    SendOrder (start conn created : ConnectionLoop T) := by
  refine ⟨EventLoop.consistent_new, rfl, ?_⟩
  intro source
  cases source <;> rfl

/-- **Messages of concurrent senders.**  In every run, whatever the threads and the peer do, as long as a
string stays as it is until its functor has run and the connection is alive: what the socket has taken
and what is left to write are the messages handed to `sendInLoop`, whole, once each and in this order,
but for those that their own step has dropped, which found the connection down or gave the message up
behind a failed direct `::write`.  Each sender's messages are handed to `sendInLoop` in the order of its
calls of `send`, those not handed over yet being in the queue of the loop or about to be pushed. -/
theorem send_order (conn : TcpConnection) (created : Bool) (as : List (ConnectionAction T))
    (s : ConnectionLoop T) (hrun : run step (start conn created) as = some s) :
    writtenBytes s.history ++ s.conn.outputBuffer.toQueue =
        conn.outputBuffer.toQueue ++ (collect step keeps (start conn created) as).flatMap Prod.snd ∧
      takenMessages s.history = collect step takes (start conn created) as ∧
      ∀ source, (sentBy source (collect step keeps (start conn created) as)).Sublist
          (sentBy source (calledMessages s.history)) ∧
        sentBy source (takenMessages s.history) ++
            (sentBy source (queuedMessages s.loop.queue) ++ waitingMessages source s.calls) =
          sentBy source (calledMessages s.history) := by
  have hs : SendOrder s := run_inv sendOrder_step (sendOrder_start conn created) hrun
  have htaken : takenMessages s.history = collect step takes (start conn created) as :=
    run_collect (I := fun _ => True) (fun _ _ _ _ _ => trivial) (fun _ _ _ _ hstep => step_taken hstep)
      trivial hrun
  have hbytes := run_collect (I := SendOrder)
    (G := fun s : ConnectionLoop T => writtenBytes s.history ++ s.conn.outputBuffer.toQueue)
    sendOrder_step (fun _ _ _ hs hstep => step_bytes hs.consistent hstep)
    (sendOrder_start conn created) hrun
  refine ⟨?_, htaken, fun source => ⟨?_, hs.order source⟩⟩
  · rw [hbytes, flatMap_collect]
    rfl
  · rw [← hs.order source, htaken]
    exact ((collect_sublist keeps_sublist).filter _).trans (List.sublist_append_left _ _)

/-- Two threads send while the loop writes what the first has sent. -/
def twoSenders : List (ConnectionAction Bool) :=
  [.establish (some true), .loop .enterLoop, .loop .resetQuit, .loop .testQuit, .loop (.wakeup true),
    .poll true none, .loop .handleRead, .loop .beginFunctors, .loop .swapFunctors, .callFunctor (.count 0),
    .test true (.send [1, 2]), .test false (.send [3]), .push false, .push true, .loop .endFunctors,
    .loop .destroyFunctors, .loop .testQuit, .loop (.wakeup false), .poll false none,
    .loop .beginFunctors, .loop .swapFunctors, .test false (.send [4]), .callFunctor (.count 0),
    .callFunctor (.count 0)]

theorem send_order_run :
    ∃ s : ConnectionLoop Bool,
      run step (start (TcpConnection.new EPollPoller.empty 0 5 false false) false) twoSenders = some s ∧
      s.conn.outputBuffer.toQueue = [3, 1, 2] ∧
      sentBy (some false) (takenMessages s.history) ++
          (sentBy (some false) (queuedMessages s.loop.queue) ++ waitingMessages (some false) s.calls) =
        sentBy (some false) (calledMessages s.history) := by
  refine exists_run_eq (fun s => s.conn.outputBuffer.toQueue) [3, 1, 2] (by decide +kernel) ?_
  intro s hs houtput
  exact ⟨houtput, ((send_order _ false _ s hs).2.2 (some false)).2⟩

end ConnectionLoop
end Muduo
