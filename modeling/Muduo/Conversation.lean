import Muduo.EndToEnd
import Muduo.SendOrder

/-!
# Two loops over one socket pair

A whole `ConnectionLoop` on either side of a stream socket: its functor queue, the calls of any number
of other threads, and the loop thread, with the stream between them as in `EndToEnd`.

    received ++ in flight ++ lost ++ outputBuffer of the sender = messages kept     (messages_delivered)

* The messages kept are whole messages that threads of the sender passed to `send`, each thread's in the
  order of its calls; the others were dropped by the step that handed them to `sendInLoop`.
* When nothing is under way, all that were passed to `send` have been handed to `sendInLoop`, and what was
  kept has been received (`messages_delivered`).
* As in `ConnectionLoop` a string stays as it is until its functor has run, and the connection is alive;
  its destructor, on a side that is down, is the last step that concerns it (`gone`).
-/

namespace Muduo

open Transition

/-- The call comes to `::write`, if it writes. -/
def ConnCall.mayWrite : ConnCall → Bool
  | .functor (.sendInLoop _) _ | .event .write _ _ | .user (.send _) _ => true
  | _ => false

/-- Two sides, and what each has written to the other. -/
structure Conversation (T : Type*) where
  loops : Bool → ConnectionLoop T
  /-- the bytes that the user has taken from `inputBuffer_` -/
  consumed : Bool → List UInt8
  pipes : Bool → Pipe UInt8
  /-- the destructor has run and closed the descriptor -/
  gone : Bool → Bool

/-- `handleClose` or `connectDestroyed` has run. -/
def ConnectionLoop.isDown {T : Type*} (s : ConnectionLoop T) : Bool :=
  s.conn.stat == .kDisconnected || s.history.any fun
    | .ran _ .connectDestroyed => true
    | _ => false

inductive ConversationAction (T : Type*)
  | act (i : Bool) (a : ConnectionAction T)
  /-- the user on the loop thread takes bytes from `inputBuffer_` -/
  | take (i : Bool) (call : BufferCall)
  /-- `~TcpConnection` closes the descriptor -/
  | close (i : Bool)
  | reset

namespace Conversation

variable {T : Type*}

/-- Two loops, each with its new connection. -/
def start (conns : Bool → TcpConnection) : Conversation T where
  loops i := ConnectionLoop.start (conns i) false
  consumed _ := []
  pipes _ := Pipe.empty
  gone _ := false

/-- The kernel's answers in a call of side `i` are possible. -/
def possible (s : Conversation T) (i : Bool) (call : ConnCall) : Bool :=
  (!call.mayWrite || EndToEnd.writes (s.pipes i) call.writeResult) &&
    EndToEnd.reads (s.pipes !i) call.readResult

def setLoop (s : Conversation T) (i : Bool) (loop : ConnectionLoop T) : Conversation T :=
  { s with loops := Function.update s.loops i loop }

/-- Side `i` has made a call with these effects. -/
def called (s : Conversation T) (i : Bool) (loop : ConnectionLoop T) (call : ConnCall)
    (es : List Effect) : Conversation T :=
  { s.setLoop i loop with
    pipes := fun j => if j = i then EndToEnd.written (s.pipes i) es
      else (s.pipes j).pull call.bytesRead.length }

/-- The bytes that have arrived, taken by the user or not. -/
def received (s : Conversation T) (i : Bool) : List UInt8 :=
  s.consumed i ++ (s.loops i).conn.inputBuffer.toQueue

def output (s : Conversation T) (i : Bool) : List UInt8 := (s.loops i).conn.outputBuffer.toQueue

variable [DecidableEq T]

def take (s : Conversation T) (i : Bool) (call : BufferCall) : Option (Conversation T) :=
  let conn := (s.loops i).conn
  if ((s.loops i).loop.pc.runsUserCode && !s.gone i) &&
      (call.takes && decide (conn.inputBuffer.1.Admissible call)) then
    (conn.inputBuffer.call call).map fun inputBuffer =>
      { s.setLoop i { s.loops i with conn := { conn with inputBuffer } } with
        consumed := Function.update s.consumed i (s.consumed i ++
          conn.inputBuffer.toQueue.take (conn.inputBuffer.toQueue.length - inputBuffer.toQueue.length)) }
  else none

def step (s : Conversation T) : ConversationAction T → Option (Conversation T)
  | .act i a =>
    match (s.loops i).callOf a with
    | none => ((s.loops i).step a).map (s.setLoop i)
    | some call =>
      if !s.gone i && s.possible i call then
        ((s.loops i).step a).bind fun loop =>
          ((s.loops i).conn.exec call).map fun (_, es) => s.called i loop call es
      else none
  | .take i call => s.take i call
  | .close i =>
    if (s.loops i).isDown && !s.gone i then
      some
        { s with
          pipes := Function.update s.pipes i (s.pipes i).finish
          gone := Function.update s.gone i true }
    else none
  | .reset => some { s with pipes := fun i => (s.pipes i).reset }

end Conversation

/-! ## One step of a side -/

namespace TcpConnection

variable {c c' : TcpConnection} {es : List Effect} {call : ConnCall}

/-- A call that does not come to `::write` writes nothing. -/
theorem exec_writes_nothing (hcall : call.mayWrite = false) (h : c.exec call = some (c', es)) :
    acceptedBytes es = [] := by
  have hclose : ∀ {c₀ : TcpConnection}, c₀.handleClose = some (c', es) → acceptedBytes es = [] := by
    intro c₀ h
    rw [(handleClose_eq_some h).2]
    rfl
  cases executes_of_exec h with
  | skip | readError => rfl
  | forceClose | message => rfl
  | connectEstablished h =>
    rw [(connectEstablished_eq_some h).2]
    rfl
  | connectDestroyed h =>
    rcases connectDestroyed_eq_some h with ⟨-, -, rfl⟩ | ⟨-, -, rfl⟩ <;> rfl
  | sendInLoop _ hsend =>
    rcases hsend with rfl | ⟨rfl, -⟩ <;> cases hcall
  | shutdownInLoop h | shutdown _ h => exact (shutdownInLoop_spec h).2
  | forceCloseInLoop _ h | close h | endOfStream _ h => exact hclose h
  | write h => cases hcall

end TcpConnection

/-! ## The invariant -/

namespace Conversation

variable {T : Type*} [DecidableEq T]

/-- Each stream carries what its writer has written. -/
structure Carried (s : Conversation T) : Prop where
  order : ∀ i, ConnectionLoop.SendOrder (s.loops i)
  flow : ∀ i, (s.pipes i).Flow (writtenBytes (s.loops i).history) (s.received !i) []

variable {s s' : Conversation T} {i : Bool}

omit [DecidableEq T] in
@[simp] theorem setLoop_self (s : Conversation T) (i : Bool) (loop : ConnectionLoop T) :
    (s.setLoop i loop).loops i = loop := Function.update_self ..

omit [DecidableEq T] in
theorem setLoop_ne {j : Bool} (s : Conversation T) (loop : ConnectionLoop T) (hj : j ≠ i) :
    (s.setLoop i loop).loops j = s.loops j := Function.update_of_ne hj ..

/-- Side `i` has gone on, and its streams have not. -/
theorem Carried.setLoop (h : Carried s) {loop : ConnectionLoop T} (consumed : Bool → List UInt8)
    (horder : ConnectionLoop.SendOrder loop)
    (hwritten : writtenBytes loop.history = writtenBytes (s.loops i).history)
    (hreceived : consumed i ++ loop.conn.inputBuffer.toQueue = s.received i)
    (hconsumed : ∀ j, j ≠ i → consumed j = s.consumed j) :
    Carried { s.setLoop i loop with consumed } := by
  have hother : ∀ j, ({ s.setLoop i loop with consumed } : Conversation T).received j = s.received j := by
    intro j
    by_cases hj : j = i
    · subst hj
      show consumed j ++ ((s.setLoop j loop).loops j).conn.inputBuffer.toQueue = _
      rw [setLoop_self]
      exact hreceived
    · show consumed j ++ ((s.setLoop i loop).loops j).conn.inputBuffer.toQueue = _
      rw [setLoop_ne s loop hj, hconsumed j hj]
      rfl
  constructor
  · intro j
    by_cases hj : j = i
    · subst hj
      simpa using horder
    · show ConnectionLoop.SendOrder ((s.setLoop i loop).loops j)
      rw [setLoop_ne s loop hj]
      exact h.order j
  · intro j
    rw [hother]
    show (s.pipes j).Flow (writtenBytes ((s.setLoop i loop).loops j).history) _ []
    by_cases hj : j = i
    · subst hj
      rw [setLoop_self, hwritten]
      exact h.flow j
    · rw [setLoop_ne s loop hj]
      exact h.flow j

/-- What a step of side `i` with a call does to the two streams. -/
theorem Carried.called (h : Carried s) {a : ConnectionAction T} {call : ConnCall}
    {loop : ConnectionLoop T} {es : List Effect} (hpossible : s.possible i call = true)
    (hstep : (s.loops i).step a = some loop)
    (hexec : (s.loops i).conn.exec call = some (loop.conn, es))
    (hwritten : writtenBytes loop.history = writtenBytes (s.loops i).history ++ acceptedBytes es) :
    Carried (s.called i loop call es) := by
  obtain ⟨hwrites, hreads⟩ := Bool.and_eq_true_iff.mp hpossible
  have hself : (s.called i loop call es).loops i = loop := Function.update_self ..
  have hother : ∀ {j}, j ≠ i → (s.called i loop call es).loops j = s.loops j :=
    fun hj => Function.update_of_ne hj ..
  constructor
  · intro j
    by_cases hj : j = i
    · subst hj
      rw [hself]
      exact ConnectionLoop.sendOrder_step _ a _ (h.order j) hstep
    · rw [hother hj]
      exact h.order j
  · intro j
    rcases Bool.eq_or_eq_not j i with rfl | rfl
    · -- the stream that the side writes
      have hopen : acceptedBytes es = [] ∨ (s.pipes j).broken = false := by
        cases hmay : call.mayWrite with
        | false => exact Or.inl (TcpConnection.exec_writes_nothing hmay hexec)
        | true =>
          rw [hmay, Bool.not_true, Bool.false_or] at hwrites
          exact (EndToEnd.accepted_of_writes hexec hwrites).imp_right EndToEnd.broken_of_isOpen
      have hflow := (h.flow j).write (acceptedBytes es) [] (acceptedBytes es) hopen (by simp)
      have hreceived : (s.called j loop call es).received (!j) = s.received !j := by
        show s.consumed (!j) ++ ((s.called j loop call es).loops !j).conn.inputBuffer.toQueue = _
        rw [hother (by simp)]
        rfl
      have hpipe : (s.called j loop call es).pipes j = EndToEnd.written (s.pipes j) es := if_pos rfl
      rw [hself, hreceived, hwritten, hpipe]
      unfold EndToEnd.written
      split
      · exact hflow.finish
      · exact hflow
    · -- the stream that the side reads
      have hflow := (h.flow !i).read (EndToEnd.prefix_of_reads hreads)
      have hreceived : (s.called i loop call es).received (!!i) = s.received (!!i) ++ call.bytesRead := by
        rw [Bool.not_not]
        show s.consumed i ++ ((s.called i loop call es).loops i).conn.inputBuffer.toQueue = _
        rw [hself, TcpConnection.exec_input hexec, ← List.append_assoc]
        rfl
      have hpipe : (s.called i loop call es).pipes (!i) = (s.pipes !i).pull call.bytesRead.length :=
        if_neg (by simp)
      rw [hother (by simp), hreceived, hpipe]
      exact hflow

/-- **A step of one side's loop**, with a call on its connection or without. -/
theorem step_act {a : ConnectionAction T} (hs : (s.loops i).loop.Consistent)
    (h : s.step (.act i a) = some s') :
    (∃ loop, (s.loops i).callOf a = none ∧ (s.loops i).step a = some loop ∧ s' = s.setLoop i loop) ∨
      ∃ call loop es, (s.loops i).callOf a = some call ∧ s.possible i call = true ∧
        (s.loops i).step a = some loop ∧ ConnectionLoop.Calls (s.loops i) a call loop es ∧
        s' = s.called i loop call es := by
  simp only [step] at h
  split at h
  · next hcall =>
    obtain ⟨loop, hloop, rfl⟩ := Option.map_eq_some_iff.mp h
    exact Or.inl ⟨loop, hcall, hloop, rfl⟩
  · next call hcall =>
    split at h
    · next hcond =>
      have hpossible := (Bool.and_eq_true_iff.mp hcond).2
      obtain ⟨loop, hloop, h⟩ := Option.bind_eq_some_iff.mp h
      obtain ⟨⟨conn, es⟩, hexec, rfl⟩ := Option.map_eq_some_iff.mp h
      obtain ⟨es', hcalls⟩ := ConnectionLoop.step_of_callOf hs hcall hloop
      have hsame := hexec.symm.trans hcalls.exec
      rw [Option.some.injEq, Prod.mk.injEq] at hsame
      obtain ⟨rfl, rfl⟩ := hsame
      exact Or.inr ⟨call, loop, es, hcall, hpossible, hloop, hcalls, rfl⟩
    · cases h

theorem carried_step (s : Conversation T) (a : ConversationAction T) (s' : Conversation T)
    (h : Carried s) (hstep : s.step a = some s') : Carried s' := by
  cases a with
  | act i a =>
    rcases step_act (h.order i).consistent hstep with ⟨loop, hcall, hloop, rfl⟩ |
      ⟨call, loop, es, hcall, hpossible, hloop, hcalls, rfl⟩
    · obtain ⟨hin, -, hwritten⟩ := ConnectionLoop.buffers_of_callOf_none hcall hloop
      refine h.setLoop s.consumed
        (ConnectionLoop.sendOrder_step _ a _ (h.order i) hloop) hwritten ?_ fun _ _ => rfl
      rw [hin]
      rfl
    · obtain ⟨entries, hhistory, hentries, -⟩ := hcalls.history
      refine h.called hpossible hloop hcalls.exec ?_
      rw [hhistory, writtenBytes_append, writtenBytes_append,
        ConnectionLoop.writtenBytes_eq_nil hentries, writtenBytes_did, List.append_nil]
  | take i call =>
    simp only [step, take] at hstep
    split at hstep
    · next hcond =>
      obtain ⟨inputBuffer, hbuffer, rfl⟩ := Option.map_eq_some_iff.mp hstep
      obtain ⟨-, hcall⟩ := Bool.and_eq_true_iff.mp hcond
      have ho := h.order i
      refine h.setLoop _ ⟨ho.consistent, ho.direct, ho.order⟩ rfl ?_ fun j hj =>
        Function.update_of_ne hj ..
      rw [Function.update_self, List.append_assoc]
      exact congrArg (s.consumed i ++ ·) (ValidBuffer.toQueue_call hcall hbuffer)
    · cases hstep
  | close i =>
    simp only [step] at hstep
    split at hstep
    · cases hstep
      refine ⟨h.order, fun j => ?_⟩
      by_cases hj : j = i
      · subst hj
        simp only [Function.update_self]
        exact (h.flow j).finish
      · simp only [Function.update_of_ne hj]
        exact h.flow j
    · cases hstep
  | reset =>
    cases hstep
    exact ⟨h.order, fun i => (h.flow i).reset⟩

/-! ## The messages of a side -/

/-- What the steps of side `i` contribute. -/
def ofSide {B : Type*} (f : ConnectionLoop T → ConnectionAction T → List B) (i : Bool)
    (s : Conversation T) : ConversationAction T → List B
  | .act j a => if j = i then f (s.loops i) a else []
  | _ => []

/-- The messages that a step hands to `sendInLoop` on side `i`. -/
abbrev takesOn (i : Bool) : Conversation T → ConversationAction T → List (Message T) :=
  ofSide ConnectionLoop.takes i

/-- Those that it does not drop. -/
abbrev keepsOn (i : Bool) : Conversation T → ConversationAction T → List (Message T) :=
  ofSide ConnectionLoop.keeps i

omit [DecidableEq T] in
theorem keepsOn_sublist (i : Bool) (s : Conversation T) (a : ConversationAction T) :
    (keepsOn i s a).Sublist (takesOn i s a) := by
  cases a with
  | act j a =>
    simp only [keepsOn, takesOn, ofSide]
    split
    · exact ConnectionLoop.keeps_sublist ..
    · exact List.Sublist.refl _
  | take | close | reset => exact List.Sublist.refl _

/-- The step drops a message on side `i`. -/
def dropsOn (i : Bool) (s : Conversation T) : ConversationAction T → Bool
  | .act j a => j == i && (s.loops j).drops a
  | _ => false

omit [DecidableEq T] in
theorem keepsOn_of_dropsOn {a : ConversationAction T} (h : s.dropsOn i a = false) :
    keepsOn i s a = takesOn i s a := by
  cases a with
  | act j a =>
    by_cases hj : j = i
    · subst hj
      simp only [dropsOn, beq_self_eq_true, Bool.true_and] at h
      simp [ofSide, ConnectionLoop.keeps, h]
    · simp [ofSide, hj]
  | take | close | reset => rfl

/-- **What a step does to a side**: a step of its loop, or at most the user takes some of its input. -/
theorem side_of_step {a : ConversationAction T} (h : s.step a = some s') (i : Bool) :
    (∃ b, a = .act i b ∧ (s.loops i).step b = some (s'.loops i)) ∨
      (∀ b, a ≠ .act i b) ∧ ∃ inputBuffer,
        s'.loops i = { s.loops i with conn := { (s.loops i).conn with inputBuffer } } := by
  have hsame : s'.loops i = s.loops i → ∃ inputBuffer,
      s'.loops i = { s.loops i with conn := { (s.loops i).conn with inputBuffer } } :=
    fun hs' => ⟨(s.loops i).conn.inputBuffer, hs'⟩
  cases a with
  | act j b =>
    obtain ⟨loop, hloop, hs'⟩ : ∃ loop, (s.loops j).step b = some loop ∧
        s'.loops = (s.setLoop j loop).loops := by
      simp only [step] at h
      split at h
      · obtain ⟨loop, hloop, rfl⟩ := Option.map_eq_some_iff.mp h
        exact ⟨loop, hloop, rfl⟩
      · split at h
        · obtain ⟨loop, hloop, h⟩ := Option.bind_eq_some_iff.mp h
          obtain ⟨-, -, rfl⟩ := Option.map_eq_some_iff.mp h
          exact ⟨loop, hloop, rfl⟩
        · cases h
    by_cases hj : i = j
    · subst hj
      exact Or.inl ⟨b, rfl, by rw [hs', setLoop_self]; exact hloop⟩
    · refine Or.inr ⟨fun c hc => hj ?_, hsame (by rw [hs', setLoop_ne s loop hj])⟩
      cases hc
      rfl
  | take j call =>
    refine Or.inr ⟨by simp, ?_⟩
    simp only [step, take] at h
    split at h
    · obtain ⟨inputBuffer, -, rfl⟩ := Option.map_eq_some_iff.mp h
      by_cases hj : i = j
      · subst hj
        exact ⟨inputBuffer, setLoop_self ..⟩
      · exact hsame (setLoop_ne s _ hj)
    · cases h
  | close j =>
    simp only [step] at h
    split at h
    · refine Or.inr ⟨by simp, hsame ?_⟩
      rw [← Option.some.inj h]
    · cases h
  | reset =>
    refine Or.inr ⟨by simp, hsame ?_⟩
    rw [← Option.some.inj h]

/-- What each step of the side adds to `G`, the steps of the whole add. -/
theorem ledger_of_step {B : Type*} {f : ConnectionLoop T → ConnectionAction T → List B}
    {G : ConnectionLoop T → List B} (hs : (s.loops i).loop.Consistent)
    (hG : ∀ {l l' : ConnectionLoop T} {b}, l.loop.Consistent → l.step b = some l' → G l' = G l ++ f l b)
    (hinput : ∀ (l : ConnectionLoop T) inputBuffer, G { l with conn := { l.conn with inputBuffer } } = G l)
    {a : ConversationAction T} (h : s.step a = some s') :
    G (s'.loops i) = G (s.loops i) ++ ofSide f i s a := by
  rcases side_of_step h i with ⟨b, rfl, hstep⟩ | ⟨hne, inputBuffer, hs'⟩
  · rw [hG hs hstep, ofSide, if_pos rfl]
  · have hnone : ofSide f i s a = [] := by
      cases a with
      | act j b => exact if_neg fun hj => hne b (by rw [hj])
      | take | close | reset => rfl
    rw [hs', hinput, hnone, List.append_nil]

omit [DecidableEq T] in
theorem ofSide_flatMap {B C : Type*} (f : ConnectionLoop T → ConnectionAction T → List B)
    (k : B → List C) (i : Bool) (s : Conversation T) (a : ConversationAction T) :
    (ofSide f i s a).flatMap k = ofSide (fun l b => (f l b).flatMap k) i s a := by
  cases a with
  | act j b =>
    simp only [ofSide]
    split
    · rfl
    · rfl
  | take | close | reset => rfl

/-! ## Runs -/

/-- Nothing that side `i` has been asked to send is under way. -/
structure Settled (s : Conversation T) (i : Bool) : Prop where
  queued : queuedMessages (s.loops i).loop.queue = []
  waiting : ∀ source, waitingMessages source (s.loops i).calls = []
  output : s.output i = []
  inFlight : (s.pipes i).inFlight = []

/-- A connection as its constructor leaves it. -/
def IsNew (c : TcpConnection) : Prop :=
  ∃ poller addr sockfd writeCompleteCallback highWaterMarkCallback,
    c = TcpConnection.new poller addr sockfd writeCompleteCallback highWaterMarkCallback

theorem IsNew.buffers {c : TcpConnection} (h : IsNew c) :
    c.inputBuffer.toQueue = [] ∧ c.outputBuffer.toQueue = [] := by
  obtain ⟨poller, addr, sockfd, wc, hw, rfl⟩ := h
  exact ⟨ValidBuffer.toQueue_new _, ValidBuffer.toQueue_new _⟩

theorem carried_start {conns : Bool → TcpConnection} (h : ∀ i, IsNew (conns i)) :
    Carried (start conns : Conversation T) := by
  constructor
  · intro i
    exact ConnectionLoop.sendOrder_start _ _
  · intro i
    have hreceived : (start conns : Conversation T).received (!i) = [] := (h !i).buffers.1
    rw [hreceived]
    exact Pipe.flow_empty

/-- The messages that were handed to `sendInLoop` on side `i`, in this order. -/
abbrev takenOn (conns : Bool → TcpConnection) (as : List (ConversationAction T)) (i : Bool) :
    List (Message T) := collect step (takesOn i) (start conns) as

/-- Those that were not dropped by the step that handed them over. -/
abbrev keptOn (conns : Bool → TcpConnection) (as : List (ConversationAction T)) (i : Bool) :
    List (Message T) := collect step (keepsOn i) (start conns) as

/-- No step of the run drops a message on side `i`. -/
abbrev NoneDropped (conns : Bool → TcpConnection) (as : List (ConversationAction T)) (i : Bool) : Prop :=
  AllSteps step (fun s a => s.dropsOn i a = false) (start conns) as

theorem keptOn_of_noneDropped {conns : Bool → TcpConnection} {as : List (ConversationAction T)}
    (h : NoneDropped conns as i) : keptOn conns as i = takenOn conns as i :=
  collect_congr (allSteps_mono (fun _ _ => keepsOn_of_dropsOn) h)

/-- A run adds to the bytes written and queued what it keeps. -/
theorem run_bytes {as : List (ConversationAction T)} (h : Carried s) (hrun : run step s as = some s')
    (i : Bool) : writtenBytes (s'.loops i).history ++ s'.output i =
      writtenBytes (s.loops i).history ++ s.output i ++
        (collect step (keepsOn i) s as).flatMap Prod.snd := by
  have hledger := run_collect (I := Carried) (f := ofSide (fun l b => (l.keeps b).flatMap Prod.snd) i)
    (G := fun s => writtenBytes (s.loops i).history ++ s.output i) carried_step
    (fun _ _ _ hs hstep => ledger_of_step
      (G := fun l => writtenBytes l.history ++ l.conn.outputBuffer.toQueue) (hs.order i).consistent
      ConnectionLoop.step_bytes (fun _ _ => rfl) hstep) h hrun
  rw [hledger, flatMap_collect]
  simp only [keepsOn, ofSide_flatMap]

theorem run_taken {as : List (ConversationAction T)} (h : Carried s) (hrun : run step s as = some s')
    (i : Bool) : takenMessages (s'.loops i).history =
      takenMessages (s.loops i).history ++ collect step (takesOn i) s as :=
  run_collect (I := Carried) (G := fun s => takenMessages (s.loops i).history) carried_step
    (fun _ _ _ hs hstep => ledger_of_step (G := fun l => takenMessages l.history)
      (hs.order i).consistent (fun _ => ConnectionLoop.step_taken) (fun _ _ => rfl) hstep) h hrun

/-- What is written and queued on a side is what it has kept. -/
theorem bytes_of_run {conns : Bool → TcpConnection} (h : ∀ i, IsNew (conns i))
    {as : List (ConversationAction T)} (hrun : run step (start conns) as = some s) (i : Bool) :
    writtenBytes (s.loops i).history ++ s.output i = (keptOn conns as i).flatMap Prod.snd := by
  have houtput : (start conns : Conversation T).output i = [] := (h i).buffers.2
  rw [run_bytes (carried_start h) hrun i, houtput]
  rfl

/-- Each thread's messages are kept in the order of its calls. -/
theorem kept_sublist {conns : Bool → TcpConnection} (h : ∀ i, IsNew (conns i))
    {as : List (ConversationAction T)} (hrun : run step (start conns) as = some s) (i : Bool)
    (source : Option T) : (sentBy source (keptOn conns as i)).Sublist
      (sentBy source (calledMessages (s.loops i).history)) := by
  have hs := run_inv carried_step (carried_start h) hrun
  have htaken : takenMessages (s.loops i).history = takenOn conns as i :=
    run_taken (carried_start h) hrun i
  rw [← (hs.order i).order source, htaken]
  exact ((collect_sublist (keepsOn_sublist i)).filter _).trans (List.sublist_append_left _ _)

/-- **Messages between two loops.**  Whatever the loop threads, the other threads, the users and the
kernel do on either side, as long as a string stays as it is until its functor has run and a connection
is alive while its functors are called: the bytes that a side has received, then those in flight, then
those thrown away by a reset, then those in the sender's `outputBuffer_`, are the messages that the other
side has kept, whole.  These are messages that passed the test of `send` there, each thread's in the
order of its calls and none of them twice, and all that were handed to `sendInLoop` but those that their
own step has dropped.  When the connection was not reset and nothing is under way, the receiver has
every message kept, and every message that passed the test has been handed over; so it has every one of
them if none was dropped. -/
theorem messages_delivered (conns : Bool → TcpConnection) (h : ∀ i, IsNew (conns i))
    (as : List (ConversationAction T)) (s : Conversation T) (hrun : run step (start conns) as = some s)
    (i : Bool) :
    s.received (!i) ++ (s.pipes i).inFlight ++ (s.pipes i).lost ++ s.output i =
        (keptOn conns as i).flatMap Prod.snd ∧
      (∀ source, (sentBy source (keptOn conns as i)).Sublist
        (sentBy source (calledMessages (s.loops i).history))) ∧
      takenMessages (s.loops i).history = takenOn conns as i ∧
      ((s.pipes i).broken = false → s.Settled i →
        s.received (!i) = (keptOn conns as i).flatMap Prod.snd ∧
          (∀ source, sentBy source (takenOn conns as i) =
            sentBy source (calledMessages (s.loops i).history)) ∧
          (NoneDropped conns as i → ∀ source, sentBy source (keptOn conns as i) =
            sentBy source (calledMessages (s.loops i).history))) := by
  have hs := run_inv carried_step (carried_start h) hrun
  have htaken : takenMessages (s.loops i).history = takenOn conns as i :=
    run_taken (carried_start h) hrun i
  have hbytes := bytes_of_run h hrun i
  rw [← (hs.flow i).order, List.append_nil] at hbytes
  refine ⟨hbytes, kept_sublist h hrun i, htaken, fun hbroken hsettled => ?_⟩
  have hall : ∀ source, sentBy source (takenOn conns as i) =
      sentBy source (calledMessages (s.loops i).history) := by
    intro source
    rw [← (hs.order i).order source, hsettled.queued, hsettled.waiting, htaken]
    exact (List.append_nil _).symm
  refine ⟨?_, hall, fun hnone source => ?_⟩
  · rw [hsettled.output, hsettled.inFlight, (hs.flow i).lost hbroken] at hbytes
    simpa using hbytes
  · rw [keptOn_of_noneDropped hnone]
    exact hall source

/-- The steps of a loop that calls one functor. -/
def oneFunctor (i : Bool) : List (ConversationAction Bool) :=
  [.act i (.loop .enterLoop), .act i (.loop .resetQuit), .act i (.loop .testQuit),
    .act i (.poll true none), .act i (.loop .handleRead), .act i (.loop .beginFunctors),
    .act i (.loop .swapFunctors)]

/-- Two threads send on one side; the messages are written one after the other and read together. -/
def twoMessages : List (ConversationAction Bool) :=
  [.act false (.establish none), .act true (.establish none), .act false (.test true (.send [1, 2])),
    .act false (.test false (.send [3])), .act false (.push false), .act false (.push true),
    .act false (.loop (.wakeup true)), .act false (.loop (.wakeup false))] ++
  oneFunctor false ++
  [.act false (.callFunctor (.count 1)), .act false (.callFunctor (.count 1)),
    .act false (.loop .endFunctors), .act false (.loop .destroyFunctors), .act false (.loop .testQuit),
    .act false (.poll false (some EPOLLOUT)), .act false .handleEvent,
    .act false (.callback (.data []) (.count 2)), .act true (.loop .enterLoop),
    .act true (.loop .resetQuit), .act true (.loop .testQuit), .act true (.poll false (some EPOLLIN)),
    .act true .handleEvent, .act true (.callback (.data [3, 1, 2]) (.count 0)), .take true (.retrieve 1)]

def twoNew (i : Bool) : TcpConnection := TcpConnection.new .empty 0 (if i then 6 else 5) false false

theorem messages_delivered_run :
    ∃ s : Conversation Bool, run step (start twoNew) twoMessages = some s ∧
      s.consumed true = [3] ∧ s.received true = (keptOn twoNew twoMessages false).flatMap Prod.snd ∧
      ∀ source, sentBy source (keptOn twoNew twoMessages false) =
        sentBy source (calledMessages (s.loops false).history) := by
  have hnew : ∀ i, IsNew (twoNew i) := fun i => ⟨.empty, 0, if i then 6 else 5, false, false, rfl⟩
  have hnone : NoneDropped twoNew twoMessages false := by decide +kernel
  have hend : ∃ s : Conversation Bool, run step (start twoNew) twoMessages = some s ∧
      (s.consumed true = [3] ∧ (s.pipes false).broken = false) ∧
        (queuedMessages (s.loops false).loop.queue = [] ∧ (s.loops false).calls false = .idle ∧
          (s.loops false).calls true = .idle ∧ s.output false = [] ∧ (s.pipes false).inFlight = []) :=
    exists_run_decide (by decide +kernel)
  obtain ⟨s, hs, ⟨hconsumed, hbroken⟩, hqueued, hfalse, htrue, houtput, hflight⟩ := hend
  have hwaiting : ∀ source, waitingMessages source (s.loops false).calls = [] := by
    intro source
    match source with
    | none => rfl
    | some false => simp [waitingMessages, hfalse, CallPc.message]
    | some true => simp [waitingMessages, htrue, CallPc.message]
  obtain ⟨-, -, -, hall⟩ := messages_delivered twoNew hnew twoMessages s hs false
  obtain ⟨hreceived, -, hsent⟩ := hall hbroken ⟨hqueued, hwaiting, houtput, hflight⟩
  exact ⟨s, hs, hconsumed, hreceived, hsent hnone⟩

end Conversation
end Muduo
