import Muduo.ConnectionLoop
import Muduo.WriteInterest

/-!
# Graceful shutdown

One thread, the `caller` (`none` for the loop thread), calls `send` any number of times and then
`shutdown`; other threads and the loop thread go on sending.  Nobody closes the connection, and
`::write` fails with `EAGAIN` only.

* `Delivered`: everything handed to `sendInLoop` has been written, and all that the caller has sent
  has been handed to it.
* `Overtaken`: the step in which this fails.  `shutdown` stores `kDisconnecting` at once while the
  caller's messages may still be in the functor queue; `handleWrite`, having written earlier output,
  finds `kDisconnecting` and shuts the socket before them (`send_overtaken_by_shutdown`).

    delivered before every ::shutdown(fd, SHUT_WR)  ⇔  no step is overtaken    (graceful_shutdown_iff)
-/

namespace Muduo

open Transition

/-! ## The bytes of a run -/

section Bytes

variable {T : Type*}

/-- All bytes handed to `sendInLoop`. -/
def allTakenBytes (history : List (HistoryEntry T)) : List UInt8 :=
  history.flatMap fun
    | .ran _ (.sendInLoop data) => data
    | _ => []

/-- The bytes that `::write` has taken. -/
def writtenBytes (history : List (HistoryEntry T)) : List UInt8 :=
  history.flatMap fun
    | .did e => e.written
    | _ => []

/-- What has passed the test of `send` and is about to be pushed. -/
def CallPc.bytes : CallPc → List UInt8
  | .pushing (.send data) => data
  | _ => []

/-- What `caller` is about to push. -/
def pushingBytes (caller : Option T) (calls : T → CallPc) : List UInt8 :=
  caller.elim [] fun t => (calls t).bytes

@[simp] theorem allTakenBytes_append (h h' : List (HistoryEntry T)) :
    allTakenBytes (h ++ h') = allTakenBytes h ++ allTakenBytes h' := by
  simp [allTakenBytes]

@[simp] theorem writtenBytes_append (h h' : List (HistoryEntry T)) :
    writtenBytes (h ++ h') = writtenBytes h ++ writtenBytes h' := by
  simp [writtenBytes]

@[simp] theorem allTakenBytes_did (es : List Effect) :
    allTakenBytes (es.map (HistoryEntry.did : Effect → HistoryEntry T)) = [] := by
  simp [allTakenBytes]

@[simp] theorem writtenBytes_did (es : List Effect) :
    writtenBytes (es.map (HistoryEntry.did : Effect → HistoryEntry T)) = acceptedBytes es := by
  simp [writtenBytes, acceptedBytes, List.flatMap_map]

variable [DecidableEq T] (caller : Option T)

/-- The message of a queued `sendInLoop`, if it comes from `caller`. -/
def Task.bytesOf (task : Task T) : List UInt8 :=
  match task.functor with
  | some (.sendInLoop data) => if task.source = caller then data else []
  | _ => []

/-- The bytes of `caller` in a queue of functors. -/
def queuedBytes (tasks : List (Task T)) : List UInt8 := tasks.flatMap (Task.bytesOf caller)

/-- The bytes passed to `send` by `caller`. -/
def calledBytes (history : List (HistoryEntry T)) : List UInt8 :=
  history.flatMap fun
    | .called source data => if source = caller then data else []
    | _ => []

/-- The bytes of `caller` handed to `sendInLoop`. -/
def takenBytes (history : List (HistoryEntry T)) : List UInt8 :=
  history.flatMap fun
    | .ran source (.sendInLoop data) => if source = caller then data else []
    | _ => []

@[simp] theorem queuedBytes_append (tasks tasks' : List (Task T)) :
    queuedBytes caller (tasks ++ tasks') = queuedBytes caller tasks ++ queuedBytes caller tasks' := by
  simp [queuedBytes]

@[simp] theorem queuedBytes_cons (task : Task T) (tasks : List (Task T)) :
    queuedBytes caller (task :: tasks) = task.bytesOf caller ++ queuedBytes caller tasks := by
  simp [queuedBytes]

@[simp] theorem calledBytes_append (h h' : List (HistoryEntry T)) :
    calledBytes caller (h ++ h') = calledBytes caller h ++ calledBytes caller h' := by
  simp [calledBytes]

@[simp] theorem takenBytes_append (h h' : List (HistoryEntry T)) :
    takenBytes caller (h ++ h') = takenBytes caller h ++ takenBytes caller h' := by
  simp [takenBytes]

@[simp] theorem calledBytes_did (es : List Effect) :
    calledBytes caller (es.map HistoryEntry.did) = [] := by
  simp [calledBytes]

@[simp] theorem takenBytes_did (es : List Effect) :
    takenBytes caller (es.map HistoryEntry.did) = [] := by
  simp [takenBytes]

end Bytes

/-! ## The runs -/

/-- `::write` does not fail but with `EAGAIN`. -/
def WriteResult.mild : WriteResult → Bool
  | .count _ => true
  | .error e _ => e == .EAGAIN

/-- The functors of a connection that nobody shuts down or closes yet.  A message is queued by
another thread only: on the loop thread `send` calls `sendInLoop` at once. -/
def Task.Ordinary {T : Type*} (task : Task T) : Prop :=
  match task.functor with
  | none | some .writeComplete | some (.highWaterMark _) => True
  | some (.sendInLoop _) => task.source ≠ none
  | some .shutdownInLoop | some .forceCloseInLoop | some .connectEstablished
  | some .connectDestroyed => False

/-- The functors of a connection that only the caller shuts down. -/
def Task.Live {T : Type*} (task : Task T) : Prop := task.functor = some .shutdownInLoop ∨ task.Ordinary

/-- A functor that is no message and shuts nothing down. -/
def Task.Inert {T : Type*} (task : Task T) : Prop :=
  task.functor = none ∨ task.functor = some .writeComplete ∨
    ∃ len, task.functor = some (.highWaterMark len)

namespace Task.Inert

variable {T : Type*} {task : Task T}

theorem bytesOf [DecidableEq T] (h : task.Inert) (caller : Option T) : task.bytesOf caller = [] := by
  rcases h with h | h | ⟨len, h⟩ <;> simp [Task.bytesOf, h]

theorem live (h : task.Inert) : task.Live := by
  rcases h with h | h | ⟨len, h⟩ <;> simp [Task.Live, Task.Ordinary, h]

theorem ne_shutdownInLoop (h : task.Inert) : task.functor ≠ some .shutdownInLoop := by
  rcases h with h | h | ⟨len, h⟩ <;> simp [h]

end Task.Inert

namespace ConnectionLoop

variable {T : Type*} [DecidableEq T]

/-- Only the caller shuts down, nobody closes. -/
def permitted (caller : Option T) (s : ConnectionLoop T) : ConnectionAction T → Bool
  | .callback r w => s.dispatch.head? != some .close && r != .data [] && w.mild
  | .callFunctor w => w.mild
  | .userCall (.send _) w => w.mild
  | .userCall .shutdown _ => caller == none
  | .userCall .forceClose _ => false
  | .test _ (.send _) => true
  | .test t .shutdown => caller == some t
  | .test _ .forceClose => false
  | .establish _ | .destroy _ | .remove _ => false
  | .loop _ | .poll _ _ | .handleEvent | .store _ | .push _ | .otherChannels _ => true

def gracefulStep (caller : Option T) (s : ConnectionLoop T) (a : ConnectionAction T) :
    Option (ConnectionLoop T) :=
  if permitted caller s a then s.step a else none

/-- A connection in state `kConnected`, in any state of its output, of its loop and of the functors
in the queue. -/
structure Connected (fd : Nat) (s : ConnectionLoop T) : Prop where
  stat : s.conn.stat = .kConnected
  established : Established fd s.conn
  consistent : s.loop.Consistent
  calls : ∀ t, s.calls t = .idle ∨ ∃ data, s.calls t = .pushing (.send data)
  ordinary : ∀ task ∈ s.loop.queue, task.Ordinary
  history : s.history = []

/-! ## The property -/

/-- In `history`, everything handed to `sendInLoop` is written, after the `output` that was there
before; and all of the caller's messages are handed to it, those `queued` before included. -/
def Delivered (caller : Option T) (output queued : List UInt8) (history : List (HistoryEntry T)) :
    Prop :=
  writtenBytes history = output ++ allTakenBytes history ∧
    takenBytes caller history = queued ++ calledBytes caller history

/-- Delivered before every `::shutdown(fd, SHUT_WR)`. -/
def DeliveredBeforeShutdown (caller : Option T) (output queued : List UInt8) (s : ConnectionLoop T) :
    Prop :=
  ∀ before, before ++ [.did .shutdownWrite] <+: s.history → Delivered caller output queued before

/-- The step is a `handleWrite` that empties the buffer in state `kDisconnecting`, with bytes of the
caller still in the functor queue. -/
def Overtaken (caller : Option T) (s : ConnectionLoop T) : ConnectionAction T → Prop
  | .callback _ w => s.dispatch.head? = some .write ∧ s.conn.stat = .kDisconnecting ∧
      s.conn.emptiedBy w = true ∧ queuedBytes caller s.loop.queue ≠ []
  | _ => False

instance (caller : Option T) (s : ConnectionLoop T) :
    DecidablePred (Overtaken caller s) := fun a =>
  match a with
  | .callback _ w => inferInstanceAs (Decidable (s.dispatch.head? = some .write ∧
      s.conn.stat = .kDisconnecting ∧ s.conn.emptiedBy w = true ∧
      queuedBytes caller s.loop.queue ≠ []))
  | .loop _ | .poll _ _ | .handleEvent | .callFunctor _ | .userCall _ _ | .test _ _ | .store _
  | .push _ | .otherChannels _ | .establish _ | .destroy _ | .remove _ => isFalse fun h => h

/-! ## The invariant -/

/-- No message of the caller is behind its `shutdownInLoop`. -/
def NotBehind (caller : Option T) (first second : Task T) : Prop :=
  first.functor = some .shutdownInLoop → second.bytesOf caller = []

/-- The invariant; `owed` is what `sendInLoop` has been handed in the current step. -/
structure Graceful (caller : Option T) (fd : Nat) (output queued owed : List UInt8)
    (s : ConnectionLoop T) : Prop where
  stat : s.conn.stat = .kConnected ∨ s.conn.stat = .kDisconnecting
  established : Established fd s.conn
  consistent : s.loop.Consistent
  calls : ∀ t, s.calls t = .idle ∨ (∃ data, s.calls t = .pushing (.send data)) ∨
    caller = some t ∧ (s.calls t = .storing .shutdown ∨ s.calls t = .pushing .shutdown)
  live : ∀ task ∈ s.loop.queue, task.Live
  /-- before `shutdown` there is no trace of it -/
  before : s.conn.stat = .kConnected →
    (∀ task ∈ s.loop.queue, task.functor ≠ some .shutdownInLoop) ∧
      ∀ t, s.calls t ≠ .pushing .shutdown
  /-- after it the caller does not send -/
  after : s.conn.stat ≠ .kConnected → pushingBytes caller s.calls = []
  order : s.loop.queue.Pairwise (NotBehind caller)
  flow : takenBytes caller s.history ++ queuedBytes caller s.loop.queue ++ pushingBytes caller s.calls =
    queued ++ calledBytes caller s.history
  stream : writtenBytes s.history ++ s.conn.outputBuffer.toQueue ++ owed =
    output ++ allTakenBytes s.history
  delivered : DeliveredBeforeShutdown caller output queued s

/-! ## What keeps the invariant -/

/-- An element that is not among the new ones was there before. -/
theorem prefix_of_not_mem {α : Type*} {before h new : List α} {x : α} (hx : x ∉ new)
    (hp : before ++ [x] <+: h ++ new) : before ++ [x] <+: h := by
  rcases List.prefix_or_prefix_of_prefix hp (List.prefix_append h new) with hph | hph
  · exact hph
  · obtain ⟨rest, hrest⟩ := hph
    rw [← hrest, List.prefix_append_right_inj] at hp
    rcases List.eq_nil_or_concat rest with rfl | ⟨rest', y, rfl⟩
    · rw [← hrest, List.append_nil]
    · rw [List.concat_eq_append, ← List.append_assoc] at hrest
      obtain rfl : y = x := by simpa using (List.append_inj' hrest rfl).2
      exact absurd (hp.subset (by simp)) hx

omit [DecidableEq T] in
theorem inert_of_isOutput {es : List Effect} (h : ∀ e ∈ es, e.isOutput = true) :
    ∀ task ∈ queuedTasks T es, task.Inert := by
  intro task htask
  obtain ⟨e, he, heq⟩ := List.mem_filterMap.mp htask
  have hout := h e he
  cases e with
  | queueInLoop f =>
    obtain rfl := Option.some.inj heq
    cases f with
    | writeComplete => exact Or.inr (Or.inl rfl)
    | highWaterMark len => exact Or.inr (Or.inr ⟨len, rfl⟩)
    | _ => cases hout
  | _ => cases heq

theorem not_mem_of_isOutput {es : List Effect} (h : ∀ e ∈ es, e.isOutput = true) :
    Effect.shutdownWrite ∉ es := fun hmem => by
  have := h _ hmem
  cases this

namespace Graceful

variable {caller : Option T} {fd : Nat} {output queued owed owed' : List UInt8}
  {s s' : ConnectionLoop T}

/-- Inert functors are pushed and effects happen, but no `::shutdown`. -/
theorem effects (h : Graceful caller fd output queued owed s) {tasks : List (Task T)}
    {es : List Effect} (hstat : s'.conn.stat = s.conn.stat) (hest : Established fd s'.conn)
    (hcons : s'.loop.Consistent) (hcalls : s'.calls = s.calls)
    (hqueue : s'.loop.queue = s.loop.queue ++ tasks) (htasks : ∀ task ∈ tasks, task.Inert)
    (hhistory : s'.history = s.history ++ es.map .did) (hes : .shutdownWrite ∉ es)
    (hstream : acceptedBytes es ++ s'.conn.outputBuffer.toQueue ++ owed' =
      s.conn.outputBuffer.toQueue ++ owed) : Graceful caller fd output queued owed' s' := by
  have hbytes : queuedBytes caller tasks = [] := by
    rw [queuedBytes, List.flatMap_eq_nil_iff]
    exact fun task htask => (htasks task htask).bytesOf caller
  constructor
  · rw [hstat]
    exact h.stat
  · exact hest
  · exact hcons
  · rw [hcalls]
    exact h.calls
  · rw [hqueue]
    intro task htask
    rcases List.mem_append.mp htask with htask | htask
    · exact h.live task htask
    · exact (htasks task htask).live
  · rw [hstat, hqueue, hcalls]
    intro hconn
    refine ⟨fun task htask => ?_, (h.before hconn).2⟩
    rcases List.mem_append.mp htask with htask | htask
    · exact (h.before hconn).1 task htask
    · exact (htasks task htask).ne_shutdownInLoop
  · rw [hstat, hcalls]
    exact h.after
  · rw [hqueue, List.pairwise_append]
    refine ⟨h.order, ?_, fun _ _ task htask _ => (htasks task htask).bytesOf caller⟩
    exact List.pairwise_of_forall_mem_list fun _ _ task htask _ => (htasks task htask).bytesOf caller
  · rw [hqueue, hhistory, hcalls]
    simpa [hbytes] using h.flow
  · rw [hhistory]
    simp only [writtenBytes_append, writtenBytes_did, allTakenBytes_append, allTakenBytes_did,
      List.append_nil]
    rw [← h.stream]
    simp only [List.append_assoc] at hstream ⊢
    rw [hstream]
  · intro before hbefore
    rw [hhistory] at hbefore
    exact h.delivered before (prefix_of_not_mem (by simpa using hes) hbefore)

/-- Inert functors are pushed, and nothing else that matters changes. -/
theorem frame (h : Graceful caller fd output queued owed s) {tasks : List (Task T)}
    (hstat : s'.conn.stat = s.conn.stat) (hest : Established fd s'.conn)
    (hout : s'.conn.outputBuffer = s.conn.outputBuffer) (hcons : s'.loop.Consistent)
    (hcalls : s'.calls = s.calls) (hqueue : s'.loop.queue = s.loop.queue ++ tasks)
    (htasks : ∀ task ∈ tasks, task.Inert) (hhistory : s'.history = s.history) :
    Graceful caller fd output queued owed s' := by
  refine h.effects hstat hest hcons hcalls hqueue htasks
    (?_ : s'.history = s.history ++ List.map HistoryEntry.did []) (by simp) ?_
  · rw [hhistory, List.map_nil, List.append_nil]
  · rw [hout]
    rfl

/-- A call on the connection with output effects only. -/
theorem perform (h : Graceful caller fd output queued owed s) {conn : TcpConnection} {es : List Effect}
    (hstat : conn.stat = s.conn.stat) (hest : Established fd conn)
    (hes : ∀ e ∈ es, e.isOutput = true)
    (hstream : acceptedBytes es ++ conn.outputBuffer.toQueue = s.conn.outputBuffer.toQueue ++ owed) :
    Graceful caller fd output queued []
      { s with conn, loop := post s.loop es, history := s.history ++ es.map .did } := by
  refine h.effects hstat hest (consistent_post h.consistent es) rfl (queue_post s.loop es)
    (inert_of_isOutput hes) rfl (not_mem_of_isOutput hes) ?_
  rw [List.append_nil]
  exact hstream

/-- The caller's messages are delivered when none is queued and no output is pending. -/
theorem delivered_of_empty (h : Graceful caller fd output queued [] s)
    (hqueue : queuedBytes caller s.loop.queue = []) (hpushing : pushingBytes caller s.calls = [])
    (hout : s.conn.outputBuffer.toQueue = []) : Delivered caller output queued s.history := by
  have hflow := h.flow
  have hstream := h.stream
  rw [hqueue, hpushing, List.append_nil, List.append_nil] at hflow
  rw [hout, List.append_nil, List.append_nil] at hstream
  exact ⟨hstream, hflow⟩

/-- `::shutdown` when everything is delivered. -/
theorem shutdownWrite (h : Graceful caller fd output queued [] s)
    (hdelivered : Delivered caller output queued s.history) :
    Graceful caller fd output queued [] (s.record [.did .shutdownWrite]) := by
  constructor
  · exact h.stat
  · exact h.established
  · exact h.consistent
  · exact h.calls
  · exact h.live
  · exact h.before
  · exact h.after
  · exact h.order
  · simpa [record, takenBytes, calledBytes] using h.flow
  · simpa [record, writtenBytes, allTakenBytes, Effect.written] using h.stream
  · intro before hbefore
    simp only [record] at hbefore
    rw [List.prefix_concat_iff] at hbefore
    rcases hbefore with hbefore | hbefore
    · rw [(List.append_inj' hbefore rfl).1]
      exact hdelivered
    · exact h.delivered before hbefore

/-- A functor is taken from the queue, and a message in it is handed to `sendInLoop`. -/
theorem take (h : Graceful caller fd output queued [] s) {task : Task T}
    {entries : List (HistoryEntry T)} (hconn : s'.conn = s.conn) (hcalls : s'.calls = s.calls)
    (hcons : s'.loop.Consistent) (hqueue : s.loop.queue = task :: s'.loop.queue)
    (hhistory : s'.history = s.history ++ entries)
    (htaken : takenBytes caller entries = task.bytesOf caller)
    (hcalled : calledBytes caller entries = []) (hwritten : writtenBytes entries = [])
    (hshut : .did .shutdownWrite ∉ entries) :
    Graceful caller fd output queued (allTakenBytes entries) s' := by
  have hlive := h.live
  have horder := h.order
  have hflow := h.flow
  have hbefore := h.before
  have hstream := h.stream
  rw [hqueue] at hlive horder hflow hbefore
  constructor
  · rw [hconn]
    exact h.stat
  · rw [hconn]
    exact h.established
  · exact hcons
  · rw [hcalls]
    exact h.calls
  · exact fun task' htask => hlive task' (List.mem_cons_of_mem task htask)
  · rw [hconn, hcalls]
    exact fun hstat => ⟨fun task' htask => (hbefore hstat).1 task' (List.mem_cons_of_mem task htask),
      (hbefore hstat).2⟩
  · rw [hconn, hcalls]
    exact h.after
  · exact (List.pairwise_cons.mp horder).2
  · rw [queuedBytes_cons, ← List.append_assoc] at hflow
    rw [hhistory, hcalls, takenBytes_append, calledBytes_append, htaken, hcalled, List.append_nil]
    exact hflow
  · rw [List.append_nil] at hstream
    rw [hhistory, hconn, writtenBytes_append, allTakenBytes_append, hwritten, List.append_nil, hstream,
      List.append_assoc]
  · intro before hprefix
    rw [hhistory] at hprefix
    exact h.delivered before (prefix_of_not_mem hshut hprefix)

end Graceful

/-! ## Calls of the loop thread -/

namespace Graceful

variable {caller : Option T} {fd : Nat} {output queued : List UInt8} {s s' : ConnectionLoop T}

theorem sendInLoop {data : List UInt8} {w : WriteResult}
    (h : Graceful caller fd output queued data s) (hw : w.mild = true)
    (hcall : s.perform (s.conn.sendInLoop data w) = some s') :
    Graceful caller fd output queued [] s' := by
  obtain ⟨conn, es, hsend, rfl⟩ := perform_eq_some hcall
  obtain ⟨hstream, hstat⟩ := TcpConnection.sendInLoop_stream h.established.live hsend
  have hkept : s.conn.directFailure w = false := by
    cases w with
    | count n => simp [TcpConnection.directFailure, WriteResult.faultError]
    | error e logged =>
      obtain rfl : e = .EAGAIN := by simpa [WriteResult.mild] using hw
      simp [TcpConnection.directFailure, WriteResult.faultError]
  rw [hkept, if_neg Bool.false_ne_true] at hstream
  exact h.perform hstat (h.established.sendInLoop hsend) (TcpConnection.sendInLoop_effects hsend) hstream

/-- The functor queue holds nothing of the caller any more. -/
theorem shutdownInLoop (h : Graceful caller fd output queued [] s)
    (hqueue : queuedBytes caller s.loop.queue = []) (hpushing : pushingBytes caller s.calls = [])
    (hcall : s.perform s.conn.shutdownInLoop = some s') :
    Graceful caller fd output queued [] s' := by
  obtain ⟨conn, es, hshut, rfl⟩ := perform_eq_some hcall
  unfold TcpConnection.shutdownInLoop at hshut
  split at hshut
  · next hwriting =>
    cases hshut
    refine h.shutdownWrite (h.delivered_of_empty hqueue hpushing ?_)
    by_contra hne
    rw [h.established.isWriting_iff.mpr hne] at hwriting
    cases hwriting
  · cases hshut
    exact h.perform rfl h.established (by simp) (by simp)

theorem handleWrite (h : Graceful caller fd output queued [] s) {w : WriteResult}
    (hg : s.conn.stat = .kDisconnecting → s.conn.emptiedBy w = true →
      queuedBytes caller s.loop.queue = [])
    (hcall : s.perform (s.conn.handleWrite w) = some s') :
    Graceful caller fd output queued [] s' := by
  obtain ⟨conn, es, hwrite, rfl⟩ := perform_eq_some hcall
  obtain ⟨hstream, hstat⟩ := TcpConnection.handleWrite_stream hwrite
  have hest := h.established.handleWrite hwrite
  obtain ⟨hempty, out, hout, hes⟩ :=
    TcpConnection.handleWrite_effects h.established.isWriting_iff.mp hwrite
  split at hes
  · next hshut =>
    obtain ⟨hemptied, hdisc, -⟩ := hshut
    subst hes
    have hmid := h.perform hstat hest hout (by simpa [Effect.written] using hstream)
    have hqueue : queuedBytes caller (post s.loop out).queue = [] := by
      rw [queue_post, queuedBytes_append, hg hdisc hemptied, List.nil_append, queuedBytes,
        List.flatMap_eq_nil_iff]
      exact fun task htask => (inert_of_isOutput hout task htask).bytesOf caller
    have hpushing : pushingBytes caller s.calls = [] := h.after (by simp [hdisc])
    have hdone := hmid.shutdownWrite (hmid.delivered_of_empty hqueue hpushing (hempty hemptied))
    rw [post_append, List.map_append, ← List.append_assoc]
    exact hdone
  · rw [List.append_nil] at hes
    subst hes
    exact h.perform hstat hest hout (by simpa using hstream)

theorem handleRead (h : Graceful caller fd output queued [] s) {r : ReadvResult} (hr : r ≠ .data [])
    (hcall : s.perform (s.conn.handleRead r) = some s') :
    Graceful caller fd output queued [] s' := by
  obtain ⟨conn, es, hread, rfl⟩ := perform_eq_some hcall
  have hest := h.established.loopStep (.handleRead r) (by
    rw [TcpConnection.loopStep, if_neg hr]
    exact hread)
  obtain ⟨inputBuffer, ⟨heof, -⟩ | ⟨-, -, rfl, rfl⟩ | ⟨-, -, rfl, rfl⟩⟩ :=
    TcpConnection.handleRead_cases hread
  · exact absurd heof hr
  · refine h.effects rfl hest (consistent_post h.consistent _) rfl (queue_post s.loop _) ?_ rfl ?_ ?_
    · intro task htask
      cases htask
    · simp
    · simp [Effect.written]
  · exact h.perform rfl hest (by simp) (by simp)

/-- The loop thread queues no messages. -/
theorem queuedBytes_none (h : Graceful none fd output queued [] s) :
    queuedBytes none s.loop.queue = [] := by
  rw [queuedBytes, List.flatMap_eq_nil_iff]
  intro task htask
  rcases h.live task htask with hf | hord
  · simp [Task.bytesOf, hf]
  · unfold Task.bytesOf
    split
    · next hf =>
      simp only [Task.Ordinary, hf] at hord
      rw [if_neg hord]
    · rfl

/-- `shutdown` of the loop thread. -/
theorem shutdown (h : Graceful none fd output queued [] s)
    (hcall : s.perform (s.conn.shutdown true) = some s') :
    Graceful none fd output queued [] s' := by
  unfold TcpConnection.shutdown at hcall
  split at hcall
  · have hset : Graceful none fd output queued []
        { s with conn := s.conn.setState .kDisconnecting } :=
      { h with
        stat := Or.inr rfl
        established := h.established.of_stat (by simp)
        before := fun hconn => by cases hconn
        after := fun _ => rfl }
    exact hset.shutdownInLoop h.queuedBytes_none rfl hcall
  · obtain ⟨conn, es, hes, rfl⟩ := perform_eq_some hcall
    cases hes
    exact h.perform rfl h.established (by simp) (by simp)

/-- A functor called by the loop. -/
theorem callFunctor (h : Graceful caller fd output queued [] s) {w : WriteResult} (hw : w.mild = true)
    {loop : EventLoop T (Task T)} {task : Task T} {f : ConnFunctor} (hcons : loop.Consistent)
    (hqueue : s.loop.queue = task :: loop.queue) (hf : task.functor = some f)
    (hcall : ({ s with loop }.record [.ran task.source f]).perform (s.conn.callFunctor w f) = some s') :
    Graceful caller fd output queued [] s' := by
  have hlive := h.live task (by simp [hqueue])
  have htake : Graceful caller fd output queued (allTakenBytes [.ran task.source f])
      ({ s with loop }.record [.ran task.source f]) := by
    refine h.take rfl rfl hcons hqueue rfl ?_ rfl rfl (by simp)
    cases f <;> simp [takenBytes, Task.bytesOf, hf]
  cases f with
  | sendInLoop data =>
    have howed : allTakenBytes [HistoryEntry.ran task.source (.sendInLoop data)] = data := by
      simp [allTakenBytes]
    rw [howed] at htake
    exact htake.sendInLoop hw hcall
  | shutdownInLoop =>
    have horder := h.order
    rw [hqueue, List.pairwise_cons] at horder
    refine htake.shutdownInLoop ?_ (h.after fun hconn => ?_) hcall
    · rw [queuedBytes, List.flatMap_eq_nil_iff]
      exact fun task' htask => horder.1 task' htask hf
    · exact (h.before hconn).1 task (by simp [hqueue]) hf
  | writeComplete | highWaterMark =>
    obtain ⟨conn, es, hes, rfl⟩ := perform_eq_some hcall
    cases hes
    exact htake.perform rfl h.established (by simp) (List.append_nil _).symm
  | connectEstablished | connectDestroyed | forceCloseInLoop =>
    simp [Task.Live, Task.Ordinary, hf] at hlive

/-- `send` of the loop thread, in state `kConnected`. -/
theorem send (h : Graceful caller fd output queued [] s) {data : List UInt8} {w : WriteResult}
    (hw : w.mild = true)
    (hcall : (s.record [.called none data, .ran none (.sendInLoop data)]).perform
      (s.conn.sendInLoop data w) = some s') : Graceful caller fd output queued [] s' := by
  have hsent : Graceful caller fd output queued data
      (s.record [.called none data, .ran none (.sendInLoop data)]) := by
    refine { h with flow := ?_, stream := ?_, delivered := ?_ }
    · have hflow := h.flow
      simp only [record, takenBytes_append, calledBytes_append]
      cases caller with
      | none =>
        rw [h.queuedBytes_none] at hflow ⊢
        simp only [pushingBytes, Option.elim_none, List.append_nil] at hflow ⊢
        rw [hflow]
        simp [takenBytes, calledBytes]
      | some t =>
        simpa [takenBytes, calledBytes] using hflow
    · have hstream := h.stream
      rw [List.append_nil] at hstream
      simp only [record, writtenBytes_append, allTakenBytes_append]
      rw [← List.append_assoc output, ← hstream]
      simp [writtenBytes, allTakenBytes]
    · exact fun before hprefix => h.delivered before (prefix_of_not_mem (by simp) hprefix)
  exact hsent.sendInLoop hw hcall

end Graceful

/-! ## Calls of other threads -/

namespace Graceful

variable {caller : Option T} {fd : Nat} {output queued : List UInt8} {s s' : ConnectionLoop T}

theorem pushingBytes_update {calls : T → CallPc} {t : T} {pc : CallPc} :
    pushingBytes caller (Function.update calls t pc) =
      if caller = some t then pc.bytes else pushingBytes caller calls := by
  cases caller with
  | none => simp [pushingBytes]
  | some t' =>
    by_cases ht : t' = t
    · subst ht
      simp [pushingBytes]
    · simp [pushingBytes, ht]

/-- A thread has passed the test of `stat_`, in a connection not shut down yet. -/
theorem enter (h : Graceful caller fd output queued [] s) {t : T} {pc : CallPc}
    {entries : List (HistoryEntry T)} (hidle : s.calls t = .idle) (hconn : s.conn.stat = .kConnected)
    (hpc : (∃ data, pc = .pushing (.send data)) ∨ caller = some t ∧ pc = .storing .shutdown)
    (hcalled : calledBytes caller entries = if caller = some t then pc.bytes else [])
    (htaken : takenBytes caller entries = [])
    (hbytes : writtenBytes entries = [] ∧ allTakenBytes entries = [])
    (hshut : .did .shutdownWrite ∉ entries) :
    Graceful caller fd output queued []
      { s with calls := Function.update s.calls t pc, history := s.history ++ entries } := by
  refine { h with calls := ?_, before := ?_, after := ?_, flow := ?_, stream := ?_, delivered := ?_ }
  · intro t'
    by_cases ht : t' = t
    · subst ht
      simp only [Function.update_self]
      exact Or.inr (hpc.imp id fun ⟨hcaller, hstoring⟩ => ⟨hcaller, Or.inl hstoring⟩)
    · simp only [Function.update_of_ne ht]
      exact h.calls t'
  · intro _
    refine ⟨(h.before hconn).1, fun t' => ?_⟩
    by_cases ht : t' = t
    · subst ht
      rcases hpc with ⟨data, rfl⟩ | ⟨-, rfl⟩ <;> simp
    · simp only [Function.update_of_ne ht]
      exact (h.before hconn).2 t'
  · exact fun hne => absurd hconn hne
  · have hflow := h.flow
    simp only [takenBytes_append, calledBytes_append, pushingBytes_update, hcalled, htaken,
      List.append_nil]
    by_cases ht : caller = some t
    · have hnone : pushingBytes caller s.calls = [] := by
        rw [ht]
        simp [pushingBytes, hidle, CallPc.bytes]
      rw [hnone, List.append_nil] at hflow
      rw [if_pos ht, if_pos ht, ← List.append_assoc queued, ← hflow]
    · rw [if_neg ht, if_neg ht, List.append_nil]
      exact hflow
  · simpa [hbytes.1, hbytes.2] using h.stream
  · exact fun before hprefix => h.delivered before (prefix_of_not_mem hshut hprefix)

/-- The test of a call of another thread succeeds. -/
theorem test (h : Graceful caller fd output queued [] s) {t : T} {c : UserCall}
    (hclose : c ≠ .forceClose) (hcaller : c = .shutdown → caller = some t) (hidle : s.calls t = .idle)
    (htest : c.test s.conn.stat = true) : Graceful caller fd output queued [] { s with
      calls := Function.update s.calls t (if c.stores then .storing c else .pushing c)
      history := s.history ++ c.entries t } := by
  cases c with
  | send data =>
    have hconn : s.conn.stat = .kConnected := by simpa [UserCall.test] using htest
    refine h.enter hidle hconn (Or.inl ⟨data, rfl⟩) ?_ rfl ⟨rfl, rfl⟩ (by simp [UserCall.entries])
    simp [calledBytes, CallPc.bytes, UserCall.stores, UserCall.entries, eq_comm]
  | shutdown =>
    have hconn : s.conn.stat = .kConnected := by simpa [UserCall.test] using htest
    refine h.enter hidle hconn (Or.inr ⟨hcaller rfl, rfl⟩) ?_ rfl ⟨rfl, rfl⟩
      (by simp [UserCall.entries])
    simp [calledBytes, CallPc.bytes, UserCall.stores, UserCall.entries]
  | forceClose => exact absurd rfl hclose

theorem store (h : Graceful caller fd output queued [] s) {t : T} {c : UserCall}
    (hc : s.calls t = .storing c) : Graceful caller fd output queued [] { s with
      conn := s.conn.setState .kDisconnecting
      calls := Function.update s.calls t (.pushing c) } := by
  obtain ⟨ht, rfl⟩ : caller = some t ∧ c = .shutdown := by
    rcases h.calls t with hi | ⟨data, hi⟩ | ⟨ht, hi | hi⟩
    · simp [hc] at hi
    · simp [hc] at hi
    · exact ⟨ht, by simpa [hc] using hi⟩
    · simp [hc] at hi
  have hnone : pushingBytes caller s.calls = [] := by
    rw [ht]
    simp [pushingBytes, hc, CallPc.bytes]
  refine { h with
    stat := Or.inr rfl
    established := h.established.of_stat (by simp)
    calls := ?_
    before := fun hconn => by cases hconn
    after := ?_
    flow := ?_ }
  · intro t'
    by_cases ht' : t' = t
    · subst ht'
      exact Or.inr (Or.inr ⟨ht, Or.inr (by simp)⟩)
    · simp only [Function.update_of_ne ht']
      exact h.calls t'
  · intro _
    rw [pushingBytes_update, if_pos ht]
    rfl
  · rw [pushingBytes_update, if_pos ht]
    simpa [hnone, CallPc.bytes] using h.flow

theorem push (h : Graceful caller fd output queued [] s) {t : T} {c : UserCall}
    (hc : s.calls t = .pushing c)
    (hcall : { s with calls := Function.update s.calls t .idle }.queueInLoop (some t) c.functor =
      some s') : Graceful caller fd output queued [] s' := by
  obtain ⟨loop, rfl, hcons, hqueue⟩ := queueInLoop_eq_some (by exact h.consistent) hcall
  change loop.queue = s.loop.queue ++ [⟨some t, some c.functor⟩] at hqueue
  have hbytes : queuedBytes caller [⟨some t, some c.functor⟩] ++
      (if caller = some t then [] else pushingBytes caller s.calls) = pushingBytes caller s.calls := by
    by_cases ht : caller = some t
    · rw [if_pos ht, ht]
      cases c <;> simp [queuedBytes, Task.bytesOf, UserCall.functor, pushingBytes, hc, CallPc.bytes]
    · rw [if_neg ht]
      cases c <;> simp [queuedBytes, Task.bytesOf, UserCall.functor, Ne.symm ht]
  constructor
  · exact h.stat
  · exact h.established
  · exact hcons
  · intro t'
    by_cases ht : t' = t
    · subst ht
      exact Or.inl (by simp)
    · simp only [Function.update_of_ne ht]
      exact h.calls t'
  · rw [hqueue]
    intro task htask
    rcases List.mem_append.mp htask with htask | htask
    · exact h.live task htask
    · rw [List.mem_singleton] at htask
      subst htask
      cases c with
      | send data => exact Or.inr (by simp [Task.Ordinary, UserCall.functor])
      | shutdown => exact Or.inl rfl
      | forceClose =>
        rcases h.calls t with hi | ⟨data, hi⟩ | ⟨-, hi | hi⟩ <;> simp [hc] at hi
  · intro hconn
    have hnot := (h.before hconn).2 t
    rw [hqueue]
    refine ⟨fun task htask => ?_, fun t' => ?_⟩
    · rcases List.mem_append.mp htask with htask | htask
      · exact (h.before hconn).1 task htask
      · rw [List.mem_singleton] at htask
        subst htask
        cases c <;> simp_all [UserCall.functor]
    · by_cases ht : t' = t
      · subst ht
        simp
      · simp only [Function.update_of_ne ht]
        exact (h.before hconn).2 t'
  · intro hne
    rw [pushingBytes_update, h.after hne]
    simp [CallPc.bytes]
  · rw [hqueue, List.pairwise_append]
    refine ⟨h.order, List.pairwise_singleton _ _, fun first hfirst second hsecond hshut => ?_⟩
    -- the caller has stored `kDisconnecting` before its functor, so it no longer sends
    have hne : s.conn.stat ≠ .kConnected := fun hconn => (h.before hconn).1 first hfirst hshut
    rw [h.after hne] at hbytes
    rw [List.mem_singleton] at hsecond
    subst hsecond
    simpa [queuedBytes] using (List.append_eq_nil_iff.mp hbytes).1
  · rw [hqueue, queuedBytes_append, pushingBytes_update]
    have hflow := h.flow
    rw [← hbytes] at hflow
    simpa [CallPc.bytes] using hflow
  · exact h.stream
  · exact h.delivered

end Graceful

/-! ## Runs -/

theorem graceful_step {caller : Option T} {fd : Nat} {output queued : List UInt8}
    (s : ConnectionLoop T) (a : ConnectionAction T) (s' : ConnectionLoop T)
    (h : Graceful caller fd output queued [] s) (hg : ¬ Overtaken caller s a)
    (hstep : gracefulStep caller s a = some s') : Graceful caller fd output queued [] s' := by
  simp only [gracefulStep, Option.ite_none_right_eq_some] at hstep
  obtain ⟨hperm, hstep⟩ := hstep
  cases moves_of_step hstep with
  | loop hmay hloop =>
    obtain ⟨hcons, hqueue⟩ := queue_of_mayTake h.consistent hmay hloop
    exact h.frame rfl h.established rfl hcons rfl hqueue
      (fun task htask => Or.inl (push_of_mayTake hmay task htask)) rfl
  | pollOther hloop =>
    obtain ⟨hcons, hqueue⟩ := queue_of_poll h.consistent hloop
    exact h.frame rfl h.established rfl hcons rfl (hqueue.trans (List.append_nil _).symm) (by simp) rfl
  | @poll _ revents _ _ hloop =>
    obtain ⟨hcons, hqueue⟩ := queue_of_poll h.consistent hloop
    have hest : Established fd { s.conn with channel := { s.conn.channel with revents } } :=
      h.established.of_eq rfl rfl rfl rfl h.established.watched
    exact h.frame rfl hest rfl hcons rfl (hqueue.trans (List.append_nil _).symm) (by simp) rfl
  | handleEvent => exact { h with }
  | @callback r w cb rest _ hdispatch hcall =>
    have hs : Graceful caller fd output queued [] { s with dispatch := rest } := { h with }
    simp only [permitted, hdispatch, List.head?_cons, Bool.and_eq_true, bne_iff_ne, ne_eq,
      Option.some.injEq] at hperm
    cases cb with
    | close => exact absurd rfl hperm.1.1
    | error =>
      obtain ⟨conn, es, hes, rfl⟩ := perform_eq_some hcall
      cases hes
      exact hs.perform rfl h.established (by simp) (by simp)
    | read => exact hs.handleRead hperm.1.2 hcall
    | write =>
      refine hs.handleWrite (fun hdisc hemptied => ?_) hcall
      by_contra hne
      exact hg ⟨by rw [hdispatch]; rfl, hdisc, hemptied, hne⟩
  | @callOther _ task _ loop hfunctors htask hloop =>
    obtain ⟨hcons, hqueue⟩ := queue_of_callFunctor h.consistent hfunctors hloop
    have hinert : task.Inert := Or.inl htask
    have htake : Graceful caller fd output queued (allTakenBytes []) { s with loop } :=
      h.take rfl rfl hcons hqueue (List.append_nil _).symm (hinert.bytesOf caller).symm rfl rfl (by simp)
    exact htake
  | callFunctor hfunctors htask hloop hcall =>
    obtain ⟨hcons, hqueue⟩ := queue_of_callFunctor h.consistent hfunctors hloop
    exact h.callFunctor hperm hcons hqueue htask hcall
  | send _ hcall => exact h.send hperm hcall
  | sendRefused | testFailed => exact h
  | shutdown hcall =>
    obtain rfl : caller = none := by simpa [permitted] using hperm
    exact h.shutdown hcall
  | testPassed hidle htest =>
    refine h.test (fun hc => ?_) (fun hc => ?_) hidle htest
    · simp [hc, permitted] at hperm
    · simpa [hc, permitted] using hperm
  | store hstoring => exact h.store hstoring
  | push hpushing hqueue => exact h.push hpushing hqueue
  | @otherChannels poller hinterest =>
    have hest : Established fd { s.conn with poller } :=
      h.established.loopStep (.otherChannels poller) (if_pos hinterest)
    exact h.frame rfl hest rfl h.consistent rfl (List.append_nil _).symm (by simp) rfl
  | forceClose | establishNow | establish | destroyNow | destroy | remove => simp [permitted] at hperm

/-- An overtaken step shuts the socket before a message of the caller. -/
theorem not_delivered_of_overtaken {caller : Option T} {fd : Nat} {output queued : List UInt8}
    (s : ConnectionLoop T) (a : ConnectionAction T) (s' : ConnectionLoop T)
    (h : Graceful caller fd output queued [] s) (hg : Overtaken caller s a)
    (hstep : gracefulStep caller s a = some s') :
    ¬ DeliveredBeforeShutdown caller output queued s' := by
  simp only [gracefulStep, Option.ite_none_right_eq_some] at hstep
  obtain ⟨-, hstep⟩ := hstep
  cases moves_of_step hstep with
  | callback hdispatch hcall =>
    obtain ⟨hhead, hdisc, hemptied, hne⟩ := hg
    obtain rfl := Option.some.inj ((congrArg List.head? hdispatch).symm.trans hhead)
    obtain ⟨conn, es, hwrite, rfl⟩ := perform_eq_some hcall
    have hest := h.established.handleWrite hwrite
    obtain ⟨hempty, out, hout, rfl⟩ :=
      TcpConnection.handleWrite_effects h.established.isWriting_iff.mp hwrite
    have hnot : conn.channel.isWriting = false := by
      rw [Bool.eq_false_iff, Ne, hest.isWriting_iff, not_not]
      exact hempty hemptied
    rw [if_pos ⟨hemptied, hdisc, hnot⟩]
    intro hdelivered
    have htaken := (hdelivered (s.history ++ out.map .did) (by simp)).2
    rw [takenBytes_append, calledBytes_append, takenBytes_did, calledBytes_did, List.append_nil,
      List.append_nil] at htaken
    have hflow := congrArg List.length h.flow
    rw [← htaken, List.length_append, List.length_append] at hflow
    exact hne (List.eq_nil_of_length_eq_zero (by omega))
  | _ => exact hg.elim

/-- **Graceful shutdown.**  From any connection in state `kConnected`, in every run in which the
caller alone shuts down, nobody closes and `::write` fails with `EAGAIN` only: every byte of the
caller has been written before each `::shutdown(fd, SHUT_WR)` iff in no step does `handleWrite`
empty the buffer in state `kDisconnecting` while bytes of the caller are in the functor queue. -/
theorem graceful_shutdown_iff (caller : Option T) (fd : Nat) (s : ConnectionLoop T)
    (hs : Connected fd s) (as : List (ConnectionAction T)) (t : ConnectionLoop T)
    (h : run (gracefulStep caller) s as = some t) :
    Along (gracefulStep caller)
        (DeliveredBeforeShutdown caller s.conn.outputBuffer.toQueue
          (queuedBytes caller s.loop.queue ++ pushingBytes caller s.calls)) s as ↔
      AllSteps (gracefulStep caller) (fun s a => ¬ Overtaken caller s a) s as := by
  have hnot : ∀ task ∈ s.loop.queue, task.functor ≠ some .shutdownInLoop := by
    intro task htask hf
    have := hs.ordinary task htask
    simp [Task.Ordinary, hf] at this
  have hstart : Graceful caller fd s.conn.outputBuffer.toQueue
      (queuedBytes caller s.loop.queue ++ pushingBytes caller s.calls) [] s := by
    constructor
    · exact Or.inl hs.stat
    · exact hs.established
    · exact hs.consistent
    · exact fun t => (hs.calls t).imp id Or.inl
    · exact fun task htask => Or.inr (hs.ordinary task htask)
    · refine fun _ => ⟨hnot, fun t ht => ?_⟩
      rcases hs.calls t with hi | ⟨data, hi⟩ <;> simp [ht] at hi
    · exact fun hne => absurd hs.stat hne
    · exact List.pairwise_of_forall_mem_list fun task htask _ _ hf => absurd hf (hnot task htask)
    · simp [hs.history, takenBytes, calledBytes]
    · simp [hs.history, writtenBytes, allTakenBytes]
    · intro before hprefix
      rw [hs.history] at hprefix
      simp at hprefix
  exact along_iff_allSteps (fun _ hinv => hinv.delivered) graceful_step
    (fun s a s' hinv hg => not_delivered_of_overtaken s a s' hinv (not_not.mp hg)) hstart h

omit [DecidableEq T] in
theorem connected_start {fd : Nat} {c : TcpConnection} (hstat : c.stat = .kConnected)
    (h : Established fd c) : Connected fd (start c true : ConnectionLoop T) :=
  ⟨hstat, h, EventLoop.consistent_new, fun _ => Or.inl rfl, by simp [start, EventLoop.queue, EventLoop.new],
    rfl⟩

/-- What another thread sends before `shutdown`, and how the loop comes to it. -/
def sendAndShutdown : List (ConnectionAction Unit) :=
  [.test () (.send [3]), .push (), .loop (.wakeup ()), .test () .shutdown, .store (), .push (),
    .loop .enterLoop, .loop .resetQuit, .loop .testQuit, .poll true none, .loop .handleRead,
    .loop .beginFunctors, .loop .swapFunctors, .callFunctor (.count 1), .callFunctor (.count 0)]

/-- Without earlier output the message is written before the socket is shut. -/
theorem graceful_shutdown_run :
    ∃ c es t, (TcpConnection.new EPollPoller.empty 0 5 false false).connectEstablished = some (c, es) ∧
      run (gracefulStep (some ())) (start c true) sendAndShutdown = some t ∧
      t.history = [.called (some ()) [3], .ran (some ()) (.sendInLoop [3]), .did (.write [3]),
        .ran (some ()) .shutdownInLoop, .did .shutdownWrite] ∧
      DeliveredBeforeShutdown (some ()) c.outputBuffer.toQueue [] t := by
  have hrun : ((TcpConnection.new EPollPoller.empty 0 5 false false).connectEstablished.bind
      fun r => (run (gracefulStep (some ())) (start r.1 true) sendAndShutdown).map fun t =>
        (r.1.stat, t.history, decide (AllSteps (gracefulStep (some ()))
          (fun s a => ¬ Overtaken (some ()) s a) (start r.1 true) sendAndShutdown))) =
      some (.kConnected, [.called (some ()) [3], .ran (some ()) (.sendInLoop [3]), .did (.write [3]),
        .ran (some ()) .shutdownInLoop, .did .shutdownWrite], true) := by
    decide +kernel
  obtain ⟨⟨c, es⟩, hc, hrun⟩ := Option.bind_eq_some_iff.mp hrun
  obtain ⟨t, ht, hend⟩ := Option.map_eq_some_iff.mp hrun
  simp only [Prod.mk.injEq, decide_eq_true_eq] at hend
  obtain ⟨hstat, hhistory, hall⟩ := hend
  have hconn : Connected 5 (start c true : ConnectionLoop Unit) :=
    connected_start hstat (established_connectEstablished hc)
  exact ⟨c, es, t, hc, ht, hhistory,
    along_last ((graceful_shutdown_iff (some ()) 5 _ hconn _ t ht).mpr hall) ht⟩

/-- `handleWrite` writes earlier output between the caller's `setState(kDisconnecting)` and the
functor with its message: the socket is shut before the message. -/
theorem send_overtaken_by_shutdown :
    ∃ c es t, (TcpConnection.new EPollPoller.empty 0 5 false false).connectEstablished = some (c, es) ∧
      run (gracefulStep (some ())) (start c true)
        [.userCall (.send [1, 2]) (.count 1), .loop .enterLoop, .loop .resetQuit, .loop .testQuit,
          .test () (.send [3]), .push (), .loop (.wakeup ()), .test () .shutdown, .store (),
          .poll false (some EPOLLOUT), .handleEvent, .callback (.data [0]) (.count 1)] = some t ∧
      Connected 5 (start c true : ConnectionLoop Unit) ∧
      t.history = [.called none [1, 2], .ran none (.sendInLoop [1, 2]), .did (.write [1]),
        .called (some ()) [3], .did (.write [2]), .did .shutdownWrite] ∧
      ¬ DeliveredBeforeShutdown (some ()) [] [] t := by
  have hrun : ((TcpConnection.new EPollPoller.empty 0 5 false false).connectEstablished.bind
      fun r => (run (gracefulStep (some ())) (start r.1 true)
        [.userCall (.send [1, 2]) (.count 1), .loop .enterLoop, .loop .resetQuit, .loop .testQuit,
          .test () (.send [3]), .push (), .loop (.wakeup ()), .test () .shutdown, .store (),
          .poll false (some EPOLLOUT), .handleEvent, .callback (.data [0]) (.count 1)]).map
        fun t => (r.1.stat, t.history)) =
      some (.kConnected, [.called none [1, 2], .ran none (.sendInLoop [1, 2]), .did (.write [1]),
        .called (some ()) [3], .did (.write [2]), .did .shutdownWrite]) := by
    decide +kernel
  obtain ⟨⟨c, es⟩, hc, hrun⟩ := Option.bind_eq_some_iff.mp hrun
  obtain ⟨t, ht, hhistory⟩ := Option.map_eq_some_iff.mp hrun
  simp only [Prod.mk.injEq] at hhistory
  refine ⟨c, es, t, hc, ht, ?_, hhistory.2, fun hdelivered => ?_⟩
  · exact connected_start hhistory.1 (established_connectEstablished hc)
  · have := (hdelivered [.called none [1, 2], .ran none (.sendInLoop [1, 2]), .did (.write [1]),
      .called (some ()) [3], .did (.write [2])] (by rw [hhistory.2]; exact List.prefix_rfl)).2
    exact absurd this (by decide)

end ConnectionLoop
end Muduo
