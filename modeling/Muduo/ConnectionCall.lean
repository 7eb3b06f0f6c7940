import Muduo.CallbackProtocol

/-!
# The calls on a connection

What a step of the loop thread, or of another thread, does to the connection.

* `ConnCall`, `callOf`: the call on the connection that a step of the loop thread makes; `Calls`
  says what such a step does (`step_of_callOf`).
* `Apart`: a step that makes no call (`step_of_callOf_none`).
* `Placed`: `connectEstablished` is the first call and is made once (`Placed.step`).
-/

namespace Muduo

open Transition

/-! ## The calls -/

/-- A call on the connection made by the loop thread. -/
inductive ConnCall
  | functor (f : ConnFunctor) (w : WriteResult)
  | event (cb : EventCallback) (r : ReadvResult) (w : WriteResult)
  | user (c : UserCall) (w : WriteResult)

/-- The thread that takes a step, `none` for the loop thread. -/
def ConnectionAction.thread {T : Type*} : ConnectionAction T → Option T
  | .loop a => a.thread
  | .test t _ | .store t | .push t => some t
  | .establish source | .destroy source | .remove source => source
  | _ => none

def TcpConnection.exec (c : TcpConnection) : ConnCall → Result
  | .functor f w => c.callFunctor w f
  | .event cb r w => c.callEvent r w cb
  | .user call w => c.callInLoop w call

namespace TcpConnection

/-- A call that tests the state and returns, or that has nothing to do. -/
def skips (c : TcpConnection) : ConnCall → Bool
  | .functor (.sendInLoop _) _ => c.stat == .kDisconnected
  | .functor .forceCloseInLoop _ | .user .forceClose _ =>
    c.stat != .kConnected && c.stat != .kDisconnecting
  | .user (.send _) _ | .user .shutdown _ => c.stat != .kConnected
  | .functor .writeComplete _ | .functor (.highWaterMark _) _ | .event .error _ _ => true
  | _ => false

/-- What a call comes to: which function does the work, and on which connection. -/
inductive Executes (c : TcpConnection) : ConnCall → TcpConnection → List Effect → Prop
  | skip {call} (hskip : c.skips call = true) : Executes c call c []
  | connectEstablished {w c' es} (h : c.connectEstablished = some (c', es)) :
      Executes c (.functor .connectEstablished w) c' es
  | connectDestroyed {w c' es} (h : c.connectDestroyed = some (c', es)) :
      Executes c (.functor .connectDestroyed w) c' es
  | sendInLoop {call data w c' es} (hstat : c.stat ≠ .kDisconnected)
      (hcall : call = .functor (.sendInLoop data) w ∨
        call = .user (.send data) w ∧ c.stat = .kConnected)
      (h : c.sendInLoop data w = some (c', es)) : Executes c call c' es
  | shutdownInLoop {w c' es} (h : c.shutdownInLoop = some (c', es)) :
      Executes c (.functor .shutdownInLoop w) c' es
  | shutdown {w c' es} (hstat : c.stat = .kConnected)
      (h : (c.setState .kDisconnecting).shutdownInLoop = some (c', es)) :
      Executes c (.user .shutdown w) c' es
  | forceClose {w} (hstat : c.stat = .kConnected ∨ c.stat = .kDisconnecting) :
      Executes c (.user .forceClose w) (c.setState .kDisconnecting) [.queueInLoop .forceCloseInLoop]
  | forceCloseInLoop {w c' es} (hstat : c.stat = .kConnected ∨ c.stat = .kDisconnecting)
      (h : c.handleClose = some (c', es)) : Executes c (.functor .forceCloseInLoop w) c' es
  | close {r w c' es} (h : c.handleClose = some (c', es)) : Executes c (.event .close r w) c' es
  | endOfStream {w c' es} (inputBuffer : ValidBuffer)
      (h : { c with inputBuffer }.handleClose = some (c', es)) :
      Executes c (.event .read (.data []) w) c' es
  | message {r w} (inputBuffer : ValidBuffer) (hr : r ≠ .data []) (hbytes : r.bytes ≠ []) :
      Executes c (.event .read r w) { c with inputBuffer } [.messageCallback]
  | readError {r w} (inputBuffer : ValidBuffer) (hr : r ≠ .data []) (hbytes : r.bytes = []) :
      Executes c (.event .read r w) { c with inputBuffer } []
  | write {r w c' es} (h : c.handleWrite w = some (c', es)) : Executes c (.event .write r w) c' es

/-- **What the calls come to.** -/
theorem executes_of_exec {c c' : TcpConnection} {call : ConnCall} {es : List Effect}
    (h : c.exec call = some (c', es)) : Executes c call c' es := by
  cases call with
  | functor f w =>
    cases f with
    | connectEstablished => exact .connectEstablished h
    | connectDestroyed => exact .connectDestroyed h
    | sendInLoop data =>
      by_cases hstat : c.stat = .kDisconnected
      · simp only [exec, callFunctor, TcpConnection.sendInLoop, if_pos hstat] at h
        cases h
        exact .skip (by simp [skips, hstat])
      · exact .sendInLoop hstat (Or.inl rfl) h
    | shutdownInLoop => exact .shutdownInLoop h
    | forceCloseInLoop =>
      simp only [exec, callFunctor, TcpConnection.forceCloseInLoop] at h
      split at h
      · next hstat => exact .forceCloseInLoop hstat h
      · next hstat =>
        cases h
        exact .skip (by simpa [skips] using hstat)
    | writeComplete | highWaterMark =>
      cases h
      exact .skip rfl
  | event cb r w =>
    cases cb with
    | close => exact .close h
    | error =>
      cases h
      exact .skip rfl
    | read =>
      obtain ⟨inputBuffer, ⟨rfl, hclose⟩ | ⟨hr, hbytes, rfl, rfl⟩ | ⟨hbytes, hr, rfl, rfl⟩⟩ :=
        handleRead_cases h
      · exact .endOfStream inputBuffer hclose
      · exact .message inputBuffer hr hbytes
      · exact .readError inputBuffer hr hbytes
    | write => exact .write h
  | user call w =>
    cases call with
    | send data =>
      simp only [exec, callInLoop, send] at h
      split at h
      · next hstat => exact .sendInLoop (by simp [hstat]) (Or.inr ⟨rfl, hstat⟩) h
      · next hstat =>
        cases h
        exact .skip (by simpa [skips] using hstat)
    | shutdown =>
      simp only [exec, callInLoop, TcpConnection.shutdown] at h
      split at h
      · next hstat => exact .shutdown hstat h
      · next hstat =>
        cases h
        exact .skip (by simpa [skips] using hstat)
    | forceClose =>
      simp only [exec, callInLoop, TcpConnection.forceClose] at h
      split at h
      · next hstat =>
        cases h
        exact .forceClose hstat
      · next hstat =>
        cases h
        exact .skip (by simpa [skips] using hstat)

end TcpConnection

namespace ConnectionLoop

variable {T : Type*}

/-- The call that a step makes. -/
def callOf (s : ConnectionLoop T) : ConnectionAction T → Option ConnCall
  | .callback r w => s.dispatch.head?.map fun cb => .event cb r w
  | .callFunctor w => (s.loop.functors.head?.bind Task.functor).map fun f => .functor f w
  | .userCall c w => some (.user c w)
  | .establish none => some (.functor .connectEstablished (.count 0))
  | .destroy none => some (.functor .connectDestroyed (.count 0))
  | _ => none

/-- The step runs `connectDestroyed`. -/
def destroys (s : ConnectionLoop T) : ConnectionAction T → Bool
  | .callFunctor _ => s.loop.functors.head?.bind Task.functor == some .connectDestroyed
  | .destroy none => true
  | _ => false

/-- What the step takes from the queue. -/
def taken (s : ConnectionLoop T) : ConnectionAction T → List ConnFunctor
  | .callFunctor _ => (s.loop.functors.head?.bind Task.functor).toList
  | _ => []

/-- A step that calls the connection. -/
structure Calls (s : ConnectionLoop T) (a : ConnectionAction T) (call : ConnCall)
    (s' : ConnectionLoop T) (es : List Effect) : Prop where
  exec : s.conn.exec call = some (s'.conn, es)
  history : ∃ entries, s'.history = s.history ++ entries ++ es.map .did ∧ (∀ e, .did e ∉ entries) ∧
    (Destroyed entries → s.destroys a = true)
  consistent : s'.loop.Consistent
  queue : ∃ rest, own s.loop.queue = s.taken a ++ rest ∧
    own s'.loop.queue = rest ++ own (queuedTasks T es)
  created : s.created = true → s'.created = true
  calls : s'.calls = s.calls

variable [DecidableEq T] {s s' : ConnectionLoop T} {a : ConnectionAction T}

theorem Calls.of_perform {call : ConnCall} (s₀ : ConnectionLoop T)
    (entries : List (HistoryEntry T)) (hconsistent : s₀.loop.Consistent)
    (hhistory : s₀.history = s.history ++ entries) (hentries : ∀ e, .did e ∉ entries)
    (hdestroyed : Destroyed entries → s.destroys a = true)
    (hown : own s.loop.queue = s.taken a ++ own s₀.loop.queue)
    (hcreated : s.created = true → s₀.created = true) (hcalls : s₀.calls = s.calls)
    (h : s₀.perform (s.conn.exec call) = some s') : ∃ es, Calls s a call s' es := by
  obtain ⟨conn, es, hexec, rfl⟩ := perform_eq_some h
  refine ⟨es, hexec, ⟨entries, by rw [hhistory], hentries, hdestroyed⟩, consistent_post hconsistent es,
    ⟨own s₀.loop.queue, hown, ?_⟩, hcreated, hcalls⟩
  rw [queue_post, own_append]

omit [DecidableEq T] in
theorem callOf_of_destroys (h : s.destroys a = true) :
    ∃ w, s.callOf a = some (.functor .connectDestroyed w) := by
  cases a with
  | callFunctor w =>
    refine ⟨w, ?_⟩
    rw [callOf, beq_iff_eq.mp h]
    rfl
  | destroy source =>
    cases source with
    | none => exact ⟨_, rfl⟩
    | some t => cases h
  | loop | poll | handleEvent | callback | userCall | test | store | push | otherChannels | establish
  | remove => cases h

omit [DecidableEq T] in
theorem not_destroyed_nil : ¬ Destroyed ([] : List (HistoryEntry T)) := by
  rintro ⟨_, hmem⟩
  cases hmem

omit [DecidableEq T] in
theorem own_cons (task : Task T) (tasks : List (Task T)) :
    own (task :: tasks) = task.functor.toList ++ own tasks := by
  rw [own, List.filterMap_cons]
  cases task.functor <;> rfl

/-- **Steps that call the connection.** -/
theorem step_of_callOf (hs : s.loop.Consistent) {call : ConnCall} (hcall : s.callOf a = some call)
    (h : s.step a = some s') : ∃ es, Calls s a call s' es := by
  have hnil : Destroyed ([] : List (HistoryEntry T)) → s.destroys a = true :=
    fun hd => absurd hd not_destroyed_nil
  cases moves_of_step h with
  | @callback _ _ _ rest _ hdispatch hperform =>
    simp only [callOf, hdispatch, List.head?_cons, Option.map_some, Option.some.injEq] at hcall
    subst hcall
    exact Calls.of_perform { s with dispatch := rest } [] hs (List.append_nil _).symm (by simp) hnil
      rfl id rfl hperform
  | callOther hfunctors htask => simp [callOf, hfunctors, htask] at hcall
  | @callFunctor w task f rest loop _ hfunctors htask hloop hperform =>
    have hhead : s.loop.functors.head?.bind Task.functor = some f := by
      rw [hfunctors, List.head?_cons, Option.bind_some, htask]
    simp only [callOf, hhead, Option.map_some, Option.some.injEq] at hcall
    subst hcall
    obtain ⟨hconsistent, hqueue⟩ := queue_of_callFunctor hs hfunctors hloop
    refine Calls.of_perform (record { s with loop } [.ran task.source f]) [.ran task.source f]
      hconsistent rfl (by simp) ?_ ?_ id rfl hperform
    · rintro ⟨source, hmem⟩
      simp only [List.mem_singleton, HistoryEntry.ran.injEq] at hmem
      simp [destroys, hhead, hmem.2]
    · rw [hqueue, own_cons, htask, taken, hhead]
      rfl
  | @send data w _ hstat hperform =>
    obtain rfl := Option.some.inj hcall
    have hexec : s.conn.exec (.user (.send data) w) = s.conn.sendInLoop data w := if_pos hstat
    refine Calls.of_perform (s.record [.called none data, .ran none (.sendInLoop data)])
      [.called none data, .ran none (.sendInLoop data)] hs rfl (by simp) ?_ rfl id rfl
      (hexec ▸ hperform)
    rintro ⟨source, hmem⟩
    simp at hmem
  | sendRefused hstat =>
    obtain rfl := Option.some.inj hcall
    exact ⟨[], if_neg hstat, ⟨[], by simp, by simp, hnil⟩, hs, ⟨_, rfl, (List.append_nil _).symm⟩, id,
      rfl⟩
  | shutdown hperform | forceClose hperform =>
    obtain rfl := Option.some.inj hcall
    exact Calls.of_perform s [] hs (List.append_nil _).symm (by simp) hnil rfl id rfl hperform
  | establishNow hcreated hperform =>
    obtain rfl := Option.some.inj hcall
    refine Calls.of_perform (record { s with created := true } [.ran none .connectEstablished])
      [.ran none .connectEstablished] hs rfl (by simp) ?_ rfl (fun _ => rfl) rfl hperform
    rintro ⟨source, hmem⟩
    simp at hmem
  | destroyNow _ _ hperform =>
    obtain rfl := Option.some.inj hcall
    exact Calls.of_perform (s.record [.ran none .connectDestroyed]) [.ran none .connectDestroyed] hs
      rfl (by simp) (fun _ => rfl) rfl id rfl hperform
  | loop | pollOther | poll | handleEvent | testPassed | testFailed | store | push | otherChannels
  | establish | destroy | remove => cases hcall

/-- Nothing happens to the connection but a change of `revents` or of `stat_`. -/
structure Apart (s : ConnectionLoop T) (a : ConnectionAction T) (s' : ConnectionLoop T) : Prop where
  history : ∃ entries, s'.history = s.history ++ entries ∧ (∀ e, .did e ∉ entries) ∧
    ¬ Destroyed entries
  channel : ∃ revents, s'.conn.channel = { s.conn.channel with revents }
  interest : s'.conn.poller.interest s.conn.channel.fd = s.conn.poller.interest s.conn.channel.fd
  /-- a thread goes on in its call by its own steps, and is about to store after a test -/
  calls : ∀ t, s'.calls t = s.calls t ∨
    a.thread = some t ∧ ∀ c, s'.calls t = .storing c → c.test s.conn.stat = true

omit [DecidableEq T] in
/-- Nothing is recorded. -/
theorem records_nothing (hhistory : s'.history = s.history) :
    ∃ entries, s'.history = s.history ++ entries ∧ (∀ e, .did e ∉ entries) ∧ ¬ Destroyed entries :=
  ⟨[], by rw [hhistory, List.append_nil], by simp, not_destroyed_nil⟩

omit [DecidableEq T] in
theorem Apart.of_eq (hhistory : s'.history = s.history) (hconn : s'.conn = s.conn)
    (hcalls : s'.calls = s.calls) : Apart s a s' := by
  constructor
  · exact records_nothing hhistory
  · exact ⟨s.conn.channel.revents, by rw [hconn]⟩
  · rw [hconn]
  · intro t
    rw [hcalls]
    exact Or.inl rfl

theorem Apart.queueInLoop {source : Option T} {f : ConnFunctor} (h : s.queueInLoop source f = some s') :
    Apart s a s' ∧ s'.conn = s.conn ∧ s'.calls = s.calls := by
  cases source with
  | none | some t =>
    obtain ⟨loop, -, rfl⟩ := Option.map_eq_some_iff.mp h
    exact ⟨Apart.of_eq rfl rfl rfl, rfl, rfl⟩

theorem calls_of_update {calls : T → CallPc} {t : T} {pc : CallPc} {stat : StateE} {thread : Option T}
    (hthread : thread = some t) (hpc : ∀ c, pc = .storing c → c.test stat = true) (t' : T) :
    Function.update calls t pc t' = calls t' ∨
      thread = some t' ∧ ∀ c, Function.update calls t pc t' = .storing c → c.test stat = true := by
  by_cases ht : t' = t
  · subst ht
    rw [Function.update_self]
    exact Or.inr ⟨hthread, hpc⟩
  · rw [Function.update_of_ne ht]
    exact Or.inl rfl

/-- **A step that does not call the connection.**  Its state changes by the store of another thread
only. -/
theorem step_of_callOf_none (hcall : s.callOf a = none) (h : s.step a = some s') :
    Apart s a s' ∧ (s'.conn.stat = s.conn.stat ∨
      s'.conn.stat = .kDisconnecting ∧ ∃ t c, s.calls t = .storing c ∧ a = .store t) := by
  have hsame : Apart s a s' ∧ s'.conn = s.conn → Apart s a s' ∧ (s'.conn.stat = s.conn.stat ∨
      s'.conn.stat = .kDisconnecting ∧ ∃ t c, s.calls t = .storing c ∧ a = .store t) := by
    rintro ⟨hapart, hconn⟩
    exact ⟨hapart, Or.inl (by rw [hconn])⟩
  cases moves_of_step h with
  | loop | pollOther | handleEvent | testFailed => exact hsame ⟨Apart.of_eq rfl rfl rfl, rfl⟩
  | callOther => exact hsame ⟨Apart.of_eq rfl rfl rfl, rfl⟩
  | @poll _ revents =>
    exact ⟨⟨records_nothing rfl, ⟨revents, rfl⟩, rfl, fun _ => Or.inl rfl⟩, Or.inl rfl⟩
  | @testPassed t c _ htest =>
    refine ⟨⟨⟨_, rfl, ?_, ?_⟩, ⟨s.conn.channel.revents, rfl⟩, rfl, ?_⟩, Or.inl rfl⟩
    · intro e
      cases c <;> simp [UserCall.entries]
    · rintro ⟨source, hmem⟩
      cases c <;> simp [UserCall.entries] at hmem
    · apply calls_of_update rfl
      intro c' hpc
      cases c <;> simp only [UserCall.stores, if_true, Bool.false_eq_true, if_false] at hpc <;>
        cases hpc <;> exact htest
  | @store t c hstoring =>
    exact ⟨⟨records_nothing rfl, ⟨s.conn.channel.revents, rfl⟩, rfl,
      calls_of_update rfl fun _ hpc => by cases hpc⟩, Or.inr ⟨rfl, t, c, hstoring, rfl⟩⟩
  | @push t _ _ _ hqueue =>
    obtain ⟨hapart, hconn, hcalls⟩ := Apart.queueInLoop (a := .push t) hqueue
    refine hsame ⟨⟨hapart.history, hapart.channel, hapart.interest, fun t' => ?_⟩, hconn⟩
    rw [hcalls]
    exact calls_of_update rfl (fun _ hpc => by cases hpc) t'
  | otherChannels hinterest =>
    exact ⟨⟨records_nothing rfl, ⟨s.conn.channel.revents, rfl⟩, hinterest, fun _ => Or.inl rfl⟩,
      Or.inl rfl⟩
  | @establish t _ _ hqueue =>
    obtain ⟨hapart, hconn, -⟩ := Apart.queueInLoop (a := .establish (some t)) hqueue
    exact hsame ⟨⟨hapart.history, hapart.channel, hapart.interest, hapart.calls⟩, hconn⟩
  | destroy _ hqueue | remove _ hqueue =>
    obtain ⟨hapart, hconn, -⟩ := Apart.queueInLoop hqueue
    exact hsame ⟨hapart, hconn⟩
  | callback hdispatch => simp [callOf, hdispatch] at hcall
  | callFunctor hfunctors htask => simp [callOf, hfunctors, htask] at hcall
  | send | sendRefused | shutdown | forceClose | establishNow | destroyNow => cases hcall

end ConnectionLoop

/-! ## The first call -/

namespace ConnectionLoop

open TcpConnection

variable {T : Type*} [DecidableEq T] {s s' : ConnectionLoop T} {a : ConnectionAction T}

/-- A new connection, on a loop in any state whose functors belong to other objects. -/
structure Fresh (s : ConnectionLoop T) : Prop where
  stat : s.conn.stat = .kConnecting
  consistent : s.loop.Consistent
  own : own s.loop.queue = []
  unwatched : s.conn.poller.interest s.conn.channel.fd = none
  active : s.active = false
  dispatch : s.dispatch = []
  created : s.created = false
  calls : ∀ t, s.calls t = .idle
  history : s.history = []

omit [DecidableEq T] in
theorem fresh_start (sockfd : Nat) :
    Fresh (start (.new .empty 0 sockfd false false) false : ConnectionLoop T) :=
  ⟨rfl, EventLoop.consistent_new, rfl, rfl, rfl, rfl, rfl, fun _ => rfl, rfl⟩

/-- The channel cannot be dispatched. -/
structure Unwatched (s : ConnectionLoop T) : Prop where
  interest : s.conn.poller.interest s.conn.channel.fd = none
  active : s.active = false
  dispatch : s.dispatch = []

/-- `connectEstablished` is the first call on the connection, and is not called again. -/
structure Placed (s : ConnectionLoop T) : Prop where
  consistent : s.loop.Consistent
  notCreated : s.created = false → s.conn.stat = .kConnecting ∧ own s.loop.queue = []
  connecting : s.conn.stat = .kConnecting → Unwatched s ∧ ¬ Destroyed s.history ∧
    (∀ t, s.calls t = .idle) ∧
    (s.created = true → ∃ rest, own s.loop.queue = .connectEstablished :: rest ∧
      ∀ f ∈ rest, f = .connectDestroyed)
  established : s.conn.stat ≠ .kConnecting → .connectEstablished ∉ own s.loop.queue

namespace Placed

section
omit [DecidableEq T]

theorem of_fresh (h : Fresh s) : Placed s := by
  refine ⟨h.consistent, fun _ => ⟨h.stat, h.own⟩, fun _ => ⟨⟨h.unwatched, h.active, h.dispatch⟩, ?_,
    h.calls, fun hc => ?_⟩, fun hne => absurd h.stat hne⟩
  · rw [h.history]
    rintro ⟨source, hmem⟩
    cases hmem
  · rw [h.created] at hc
    cases hc

theorem created (h : Placed s) (hstat : s.conn.stat ≠ .kConnecting) : s.created = true := by
  by_contra hc
  exact hstat (h.notCreated (by simpa using hc)).1

/-- A step of an established connection. -/
theorem advance (hstat' : s'.conn.stat ≠ .kConnecting) (hconsistent : s'.loop.Consistent)
    (hcreated : s'.created = true) (hown : .connectEstablished ∉ own s'.loop.queue) : Placed s' := by
  refine ⟨hconsistent, fun hc => ?_, fun hc => absurd hc hstat', fun _ => hown⟩
  rw [hcreated] at hc
  cases hc

/-- A step of a connection not established yet, which may queue `connectDestroyed`. -/
theorem wait (h : Placed s) (hstat : s.conn.stat = .kConnecting) {tasks : List ConnFunctor}
    (hstat' : s'.conn.stat = .kConnecting) (hunwatched : Unwatched s') (hcalls : s'.calls = s.calls)
    (hconsistent : s'.loop.Consistent) (hcreated : s'.created = s.created)
    (hhistory : s'.history = s.history) (hown : own s'.loop.queue = own s.loop.queue ++ tasks)
    (htasks : ∀ f ∈ tasks, s.created = true ∧ f = .connectDestroyed) : Placed s' := by
  obtain ⟨-, hdestroyed, hidle, hconnecting⟩ := h.connecting hstat
  refine ⟨hconsistent, fun hc => ⟨hstat', ?_⟩, fun _ => ⟨hunwatched, ?_, ?_, fun hc => ?_⟩,
    fun hc => absurd hstat' hc⟩
  · rw [hcreated] at hc
    rw [hown, (h.notCreated hc).2, List.nil_append, List.eq_nil_iff_forall_not_mem]
    intro f hf
    rw [(htasks f hf).1] at hc
    cases hc
  · rw [hhistory]
    exact hdestroyed
  · rw [hcalls]
    exact hidle
  · rw [hcreated] at hc
    obtain ⟨rest, hrest, hall⟩ := hconnecting hc
    refine ⟨rest ++ tasks, by rw [hown, hrest]; rfl, fun f hf => ?_⟩
    rcases List.mem_append.mp hf with hf | hf
    · exact hall f hf
    · exact (htasks f hf).2

/-- A step that queues nothing of the connection. -/
theorem unchanged (h : Placed s) (hstat : s'.conn.stat = s.conn.stat)
    (hunwatched : Unwatched s → Unwatched s') (hcalls : s.conn.stat = .kConnecting → s'.calls = s.calls)
    (hconsistent : s'.loop.Consistent) (hcreated : s'.created = s.created)
    (hown : own s'.loop.queue = own s.loop.queue)
    (hhistory : s.conn.stat = .kConnecting → s'.history = s.history) : Placed s' := by
  by_cases hc : s.conn.stat = .kConnecting
  · exact h.wait hc (hstat.trans hc) (hunwatched (h.connecting hc).1) (hcalls hc) hconsistent hcreated
      (hhistory hc) (hown.trans (List.append_nil _).symm) (by simp)
  · refine advance (hstat ▸ hc) hconsistent (hcreated.trans (h.created hc)) ?_
    rw [hown]
    exact h.established hc

end

omit [DecidableEq T] in
/-- No call brings a connection back to `kConnecting`, or queues `connectEstablished`. -/
theorem exec_live {c c' : TcpConnection} {es : List Effect} {call : ConnCall}
    (hstat : c.stat ≠ .kConnecting ∨ ∃ w, call = .functor .connectEstablished w)
    (h : c.exec call = some (c', es)) :
    c'.stat ≠ .kConnecting ∧ .connectEstablished ∉ own (queuedTasks T es) := by
  have hphase : c.stat ≠ .kConnecting → c'.stat.phase = c.stat.phase → c'.stat ≠ .kConnecting := by
    intro hstat hphase hc
    rw [hc] at hphase
    revert hphase hstat
    cases c.stat <;> simp [StateE.phase]
  have hclose : ∀ {c₀ : TcpConnection}, c₀.handleClose = some (c', es) →
      c'.stat ≠ .kConnecting ∧ .connectEstablished ∉ own (queuedTasks T es) := by
    intro c₀ hclose
    obtain ⟨hstat', rfl⟩ := handleClose_eq_some hclose
    exact ⟨by simp [hstat'], by simp [queuedTasks, own]⟩
  rcases hstat with hstat | ⟨w, rfl⟩
  · have hquiet : c'.stat.phase = c.stat.phase → (∀ e ∈ es, e.isQuiet = true) →
        c'.stat ≠ .kConnecting ∧ .connectEstablished ∉ own (queuedTasks T es) :=
      fun hp hes => ⟨hphase hstat hp, own_queuedTasks_of_isQuiet hes⟩
    cases executes_of_exec h with
    | skip => exact hquiet rfl (by simp)
    | connectEstablished h =>
      obtain ⟨hstat', rfl⟩ := connectEstablished_eq_some h
      exact ⟨by simp [hstat'], by simp [queuedTasks, own]⟩
    | connectDestroyed h =>
      rcases connectDestroyed_eq_some h with ⟨-, hstat', rfl⟩ | ⟨-, hstat', rfl⟩
      · exact ⟨by simp [hstat'], by simp [queuedTasks, own]⟩
      · exact ⟨by rw [hstat']; exact hstat, by simp [queuedTasks, own]⟩
    | sendInLoop _ _ h =>
      exact hquiet (sendInLoop_phase h)
        fun e he => Effect.isQuiet_of_isOutput (sendInLoop_effects h e he)
    | shutdownInLoop h =>
      obtain ⟨rfl, hes⟩ := shutdownInLoop_quiet h
      exact hquiet rfl hes
    | shutdown hconn h =>
      obtain ⟨rfl, hes⟩ := shutdownInLoop_quiet h
      exact hquiet (by rw [hconn]; rfl) hes
    | forceClose hopen =>
      refine hquiet ?_ (by simp [Effect.isQuiet])
      rcases hopen with hopen | hopen <;> simp [setState, hopen, StateE.phase]
    | forceCloseInLoop _ h | close h => exact hclose h
    | endOfStream _ h => exact hclose h
    | message => exact ⟨hstat, by simp [queuedTasks, own]⟩
    | readError => exact ⟨hstat, by simp [queuedTasks, own]⟩
    | write h => exact hquiet (by rw [(handleWrite_stream h).2]) (handleWrite_quiet h)
  · obtain ⟨hstat', rfl⟩ := connectEstablished_eq_some h
    exact ⟨by simp [hstat'], by simp [queuedTasks, own]⟩

theorem perform_nothing (h : s.perform (some (s.conn, [])) = some s') : s' = s := by
  simpa [perform, post, queuedTasks] using h.symm

/-- The calls on a connection that is not established yet. -/
theorem first_call (h : Placed s) (hstat : s.conn.stat = .kConnecting) {call : ConnCall}
    (hcall : s.callOf a = some call) (hstep : s.step a = some s') :
    (∃ c w, call = .user c w) ∧ s' = s ∨
      (∃ w, call = .functor .connectEstablished w) ∧ s'.created = true ∧
      ∀ f ∈ (own s.loop.queue).drop (s.taken a).length, f = .connectDestroyed := by
  obtain ⟨hunwatched, -, -, hconnecting⟩ := h.connecting hstat
  cases moves_of_step hstep with
  | callback hdispatch =>
    rw [hunwatched.dispatch] at hdispatch
    cases hdispatch
  | callOther hfunctors htask => simp [callOf, hfunctors, htask] at hcall
  | @callFunctor w task f rest loop _ hfunctors htask hloop hperform =>
    have hhead : s.loop.functors.head?.bind Task.functor = some f := by
      rw [hfunctors, List.head?_cons, Option.bind_some, htask]
    simp only [callOf, hhead, Option.map_some, Option.some.injEq] at hcall
    have hown : own s.loop.queue = f :: own loop.queue := by
      rw [(queue_of_callFunctor h.consistent hfunctors hloop).2, own_cons, htask]
      rfl
    have hcreated : s.created = true := by
      by_contra hc
      rw [(h.notCreated (by simpa using hc)).2] at hown
      cases hown
    obtain ⟨rest', hrest, hall⟩ := hconnecting hcreated
    obtain ⟨conn, es, -, rfl⟩ := perform_eq_some hperform
    rw [hrest, List.cons.injEq] at hown
    refine Or.inr ⟨⟨w, ?_⟩, hcreated, ?_⟩
    · rw [← hcall, ← hown.1]
    · rw [hrest, taken, hhead]
      exact hall
  | sendRefused => exact Or.inl ⟨⟨_, _, (Option.some.inj hcall).symm⟩, rfl⟩
  | send hconn =>
    rw [hstat] at hconn
    cases hconn
  | shutdown hperform =>
    rw [TcpConnection.shutdown, if_neg (by simp [hstat])] at hperform
    exact Or.inl ⟨⟨_, _, (Option.some.inj hcall).symm⟩, perform_nothing hperform⟩
  | forceClose hperform =>
    rw [TcpConnection.forceClose, if_neg (by simp [hstat])] at hperform
    exact Or.inl ⟨⟨_, _, (Option.some.inj hcall).symm⟩, perform_nothing hperform⟩
  | establishNow hcreated hperform =>
    obtain ⟨conn, es, -, rfl⟩ := perform_eq_some hperform
    refine Or.inr ⟨⟨_, (Option.some.inj hcall).symm⟩, rfl, ?_⟩
    rw [(h.notCreated hcreated).2]
    simp
  | destroyNow _ hne => exact absurd hstat hne
  | loop | pollOther | poll | handleEvent | testPassed | testFailed | store | push | otherChannels
  | establish | destroy | remove => cases hcall

/-- `connectEstablished` is not called again. -/
theorem not_establish (h : Placed s) (hstat : s.conn.stat ≠ .kConnecting) {call : ConnCall}
    (hcall : s.callOf a = some call) (hstep : s.step a = some s') :
    ∀ w, call ≠ .functor .connectEstablished w := by
  rintro w' rfl
  cases moves_of_step hstep with
  | callOther hfunctors htask => simp [callOf, hfunctors, htask] at hcall
  | callFunctor hfunctors htask hloop =>
    simp only [callOf, hfunctors, List.head?_cons, Option.bind_some, htask, Option.map_some,
      Option.some.injEq, ConnCall.functor.injEq] at hcall
    apply h.established hstat
    rw [(queue_of_callFunctor h.consistent hfunctors hloop).2, own_cons, htask, hcall.1]
    exact List.mem_cons_self
  | establishNow hcreated => exact hstat (h.notCreated hcreated).1
  | callback hdispatch => simp [callOf, hdispatch] at hcall
  | destroyNow | send | sendRefused | shutdown | forceClose => cases hcall
  | loop | pollOther | poll | handleEvent | testPassed | testFailed | store | push | otherChannels
  | establish | destroy | remove => cases hcall

theorem step_call (h : Placed s) {call : ConnCall} (hcall : s.callOf a = some call)
    (hstep : s.step a = some s') : Placed s' := by
  obtain ⟨es, hcalls⟩ := step_of_callOf h.consistent hcall hstep
  obtain ⟨rest, hown, hown'⟩ := hcalls.queue
  by_cases hstat : s.conn.stat = .kConnecting
  · rcases h.first_call hstat hcall hstep with ⟨-, rfl⟩ | ⟨hfirst, hcreated, hall⟩
    · exact h
    · obtain ⟨hlive, hes⟩ := exec_live (T := T) (Or.inr hfirst) hcalls.exec
      refine advance hlive hcalls.consistent hcreated ?_
      rw [hown', List.mem_append, not_or]
      refine ⟨fun hmem => ?_, hes⟩
      rw [hown, List.drop_left] at hall
      cases hall _ hmem
  · obtain ⟨hlive, hes⟩ := exec_live (T := T) (Or.inl hstat) hcalls.exec
    refine advance hlive hcalls.consistent (hcalls.created (h.created hstat)) ?_
    have hestablished := h.established hstat
    rw [hown, List.mem_append, not_or] at hestablished
    rw [hown', List.mem_append, not_or]
    exact ⟨hestablished.2, hes⟩

/-- `connectDestroyed` is queued. -/
theorem queueDestroyed (h : Placed s) (hcreated : s.created = true) {source : Option T}
    (hcall : s.queueInLoop source .connectDestroyed = some s') : Placed s' := by
  obtain ⟨loop, rfl, hconsistent, hqueue⟩ := queueInLoop_eq_some h.consistent hcall
  have hown : own loop.queue = own s.loop.queue ++ [.connectDestroyed] := by
    rw [hqueue, own_append]
    rfl
  by_cases hstat : s.conn.stat = .kConnecting
  · obtain ⟨hinterest, hactive, hdispatch⟩ := (h.connecting hstat).1
    exact h.wait hstat hstat ⟨hinterest, hactive, hdispatch⟩ rfl hconsistent rfl rfl hown
      fun f hf => ⟨hcreated, List.mem_singleton.mp hf⟩
  · refine advance hstat hconsistent hcreated ?_
    rw [hown]
    simpa using h.established hstat

/-- `connectEstablished` is queued. -/
theorem queueEstablished (h : Placed s) (hcreated : s.created = false) {source : Option T}
    (hcall : { s with created := true }.queueInLoop source .connectEstablished = some s') :
    Placed s' := by
  obtain ⟨hstat, hown⟩ := h.notCreated hcreated
  obtain ⟨hunwatched, hdestroyed, hidle, -⟩ := h.connecting hstat
  have hloop : ({ s with created := true } : ConnectionLoop T).loop.Consistent := h.consistent
  obtain ⟨loop, rfl, hconsistent, hqueue⟩ := queueInLoop_eq_some hloop hcall
  have hrest : own loop.queue = [.connectEstablished] := by
    rw [hqueue, own_append, hown]
    rfl
  refine ⟨hconsistent, fun hc => ?_, fun _ => ⟨?_, hdestroyed, hidle, fun _ => ⟨[], hrest, by simp⟩⟩,
    fun hc => absurd hstat hc⟩
  · cases hc
  · exact ⟨hunwatched.interest, hunwatched.active, hunwatched.dispatch⟩

theorem step_other (h : Placed s) (hcall : s.callOf a = none) (hstep : s.step a = some s') :
    Placed s' := by
  have hidle : ∀ {t}, s.calls t ≠ .idle → s.conn.stat ≠ .kConnecting :=
    fun hne hstat => hne ((h.connecting hstat).2.2.1 _)
  cases moves_of_step hstep with
  | loop hmay hloop =>
    obtain ⟨hconsistent, hqueue⟩ := queue_of_mayTake h.consistent hmay hloop
    have hnone : own (LoopAction.push _) = [] :=
      List.filterMap_eq_nil_iff.mpr (push_of_mayTake hmay)
    refine h.unchanged rfl (fun hu => ⟨hu.interest, hu.active, hu.dispatch⟩) (fun _ => rfl) hconsistent
      rfl ?_ fun _ => rfl
    rw [hqueue, own_append, hnone, List.append_nil]
  | pollOther hloop =>
    obtain ⟨hconsistent, hqueue⟩ := queue_of_poll h.consistent hloop
    exact h.unchanged rfl (fun hu => ⟨hu.interest, hu.active, hu.dispatch⟩) (fun _ => rfl) hconsistent
      rfl (congrArg own hqueue) fun _ => rfl
  | poll hwatched hloop =>
    obtain ⟨hconsistent, hqueue⟩ := queue_of_poll h.consistent hloop
    refine h.unchanged rfl (fun hu => ?_) (fun _ => rfl) hconsistent rfl (congrArg own hqueue)
      fun _ => rfl
    simp [hu.interest] at hwatched
  | handleEvent hactive =>
    refine h.unchanged rfl (fun hu => ?_) (fun _ => rfl) h.consistent rfl rfl fun _ => rfl
    simp [hu.active] at hactive
  | callOther hfunctors htask hloop =>
    obtain ⟨hconsistent, hqueue⟩ := queue_of_callFunctor h.consistent hfunctors hloop
    refine h.unchanged rfl (fun hu => ⟨hu.interest, hu.active, hu.dispatch⟩) (fun _ => rfl) hconsistent
      rfl ?_ fun _ => rfl
    rw [hqueue, own_cons, htask]
    rfl
  | @testPassed t c _ htest =>
    have hne : s.conn.stat ≠ .kConnecting := by
      intro hstat
      rw [hstat] at htest
      cases c <;> cases htest
    exact h.unchanged rfl (fun hu => ⟨hu.interest, hu.active, hu.dispatch⟩) (fun hc => absurd hc hne)
      h.consistent rfl rfl fun hc => absurd hc hne
  | testFailed => exact h
  | store hstoring =>
    have hne := hidle (by rw [hstoring]; simp)
    exact advance (by simp [TcpConnection.setState]) h.consistent (h.created hne) (h.established hne)
  | @push t c _ hpushing hpush =>
    have hne := hidle (by rw [hpushing]; simp)
    have hloop : { s with calls := Function.update s.calls t .idle }.loop.Consistent := h.consistent
    obtain ⟨loop, rfl, hconsistent, hqueue⟩ := queueInLoop_eq_some hloop hpush
    refine advance hne hconsistent (h.created hne) ?_
    rw [hqueue, own_append, List.mem_append, not_or]
    refine ⟨h.established hne, ?_⟩
    cases c <;> simp [own, UserCall.functor]
  | otherChannels hinterest =>
    exact h.unchanged rfl (fun hu => ⟨hinterest.trans hu.interest, hu.active, hu.dispatch⟩)
      (fun _ => rfl) h.consistent rfl rfl fun _ => rfl
  | establish hcreated hqueue => exact h.queueEstablished hcreated hqueue
  | destroy hcreated hqueue | remove hcreated hqueue => exact h.queueDestroyed hcreated hqueue
  | callback hdispatch => simp [callOf, hdispatch] at hcall
  | callFunctor hfunctors htask => simp [callOf, hfunctors, htask] at hcall
  | send | sendRefused | shutdown | forceClose | establishNow | destroyNow => cases hcall

/-- **Every step** keeps the connection placed. -/
theorem step (h : Placed s) (hstep : s.step a = some s') : Placed s' := by
  cases hcall : s.callOf a with
  | none => exact h.step_other hcall hstep
  | some call => exact h.step_call hcall hstep

end Placed

end ConnectionLoop
end Muduo
