import Muduo.ConnectionStreams
import Muduo.Lib.Pipe

/-!
# Two connections over one socket pair

A `TcpConnection` on either side of a stream socket, and between them the two directions of the stream.

* A side makes any call of its loop thread, in any order; another thread stores `kDisconnecting`, other
  channels change the poller, and the user takes bytes from `inputBuffer_`.
* The kernel answers as the stream allows: a read delivers a prefix of what is in flight, or nothing at
  the end of the stream; a write fails with `EPIPE` or `ECONNRESET` once the stream has ended.  It may
  reset the connection at any time.
* `Joined`: the invariant.  One lemma for each action keeps it (`joined_step`).

    received ++ in flight ++ outputBuffer of the sender = kept              (end_to_end_order)
    at the end of the stream : received ++ outputBuffer of the sender = kept,
                               received = kept when `::shutdown` was called
                               if the sender is open                       (end_of_stream_complete)
-/

namespace Muduo

open Transition

/-! ## The two sides -/

/-- The calls that take bytes off a buffer. -/
def BufferCall.takes : BufferCall → Bool
  | .retrieve _ | .retrieveAll | .retrieveAllAsString | .retrieveAsString _ => true
  | .append _ | .ensureWritableBytes _ | .readFd _ => false

def ValidBuffer.call (b : ValidBuffer) (call : BufferCall) : Option ValidBuffer :=
  match h : b.1.call call with
  | none => none
  | some (b', _) => some ⟨b', Buffer.call_wf b.2 h⟩

/-- What is taken comes off the front. -/
theorem ValidBuffer.toQueue_call {b b' : ValidBuffer} {call : BufferCall}
    (hcall : (call.takes && decide (b.1.Admissible call)) = true) (h : b.call call = some b') :
    b.toQueue.take (b.toQueue.length - b'.toQueue.length) ++ b'.toQueue = b.toQueue := by
  rw [Bool.and_eq_true, decide_eq_true_eq] at hcall
  obtain ⟨b₁, h₁, -, hread⟩ := Buffer.call_spec b.2 call hcall.2
  have hb' : b'.toQueue = (queueCall b.toQueue call).1 := by
    unfold ValidBuffer.call at h
    split at h
    · cases h
    · next b₂ _ heq =>
      rw [h₁, Option.some.injEq, Prod.mk.injEq] at heq
      cases h
      rw [heq.1] at hread
      exact hread
  have hdrop : ∃ n, (queueCall b.toQueue call).1 = b.toQueue.drop n := by
    cases call with
    | retrieve len => exact ⟨_, rfl⟩
    | retrieveAll | retrieveAllAsString => exact ⟨b.toQueue.length, List.drop_length.symm⟩
    | retrieveAsString len => exact ⟨len, rfl⟩
    | append | ensureWritableBytes | readFd => cases hcall.1
  obtain ⟨n, hn⟩ := hdrop
  rw [hb', hn, List.length_drop]
  rcases Nat.le_total n b.toQueue.length with hle | hle
  · rw [Nat.sub_sub_self hle, List.take_append_drop]
  · rw [List.drop_of_length_le hle, Nat.sub_eq_zero_of_le hle, Nat.sub_zero, List.take_length,
      List.append_nil]

/-- One side: its connection, and what has gone through it. -/
structure Endpoint where
  conn : TcpConnection
  /-- the bytes of the messages that were handed to `sendInLoop` and not dropped -/
  kept : List UInt8
  /-- the bytes that the user has taken from `inputBuffer_` -/
  consumed : List UInt8
  /-- it has been disconnected or destroyed -/
  down : Bool
  /-- `::shutdown` was called before that -/
  shut : Bool
  /-- what it had kept when `::shutdown` was first called -/
  ended : List UInt8
  /-- the destructor has run and closed the descriptor -/
  gone : Bool

namespace Endpoint

def start (conn : TcpConnection) : Endpoint := ⟨conn, [], [], false, false, [], false⟩

/-- The bytes that have arrived, taken by the user or not. -/
def received (e : Endpoint) : List UInt8 := e.consumed ++ e.conn.inputBuffer.toQueue

def output (e : Endpoint) : List UInt8 := e.conn.outputBuffer.toQueue

/-- The bytes that the stream carries: what is kept, or what had been kept when it was ended. -/
def carried (e : Endpoint) : List UInt8 := if e.shut then e.ended else e.kept

/-- A call has returned. -/
def after (e : Endpoint) (call : ConnCall) (conn : TcpConnection) (es : List Effect) : Endpoint :=
  { e with
    conn := conn
    kept := e.kept ++ e.conn.keeps call
    down := e.down || conn.stat == .kDisconnected || ConnCall.destroys call
    shut := e.shut || !e.down && es.contains .shutdownWrite
    ended := if !e.shut && !e.down && es.contains .shutdownWrite then e.kept ++ e.conn.keeps call
      else e.ended }

/-- The user takes bytes from `inputBuffer_`. -/
def take (e : Endpoint) (call : BufferCall) : Option Endpoint :=
  if call.takes && decide (e.conn.inputBuffer.1.Admissible call) then
    (e.conn.inputBuffer.call call).map fun inputBuffer =>
      { e with
        conn := { e.conn with inputBuffer }
        consumed := e.consumed ++ e.conn.inputBuffer.toQueue.take
          (e.conn.inputBuffer.toQueue.length - inputBuffer.toQueue.length) }
  else none

end Endpoint

/-! ## Runs -/

inductive EndToEndAction
  | call (i : Bool) (call : ConnCall)
  /-- another thread stores `kDisconnecting` -/
  | store (i : Bool)
  | otherChannels (i : Bool) (poller : EPollPoller)
  | take (i : Bool) (call : BufferCall)
  /-- `~TcpConnection` closes the descriptor -/
  | close (i : Bool)
  | reset

/-- The two sides, and what each has written to the other. -/
structure EndToEnd where
  ends : Bool → Endpoint
  pipes : Bool → Pipe UInt8

namespace EndToEnd

/-- Both connections are established and nothing has been sent. -/
def start (conns : Bool → TcpConnection) : EndToEnd where
  ends i := Endpoint.start (conns i)
  pipes _ := Pipe.empty

/-- What the effects of a call do to the stream that the side writes. -/
def written (p : Pipe UInt8) (es : List Effect) : Pipe UInt8 :=
  if es.contains .shutdownWrite then (p.push (acceptedBytes es)).finish else p.push (acceptedBytes es)

/-- `::write` answers as the stream allows; what is logged behind it may leave any `errno`. -/
def writes (p : Pipe UInt8) : WriteResult → Bool
  | .count _ => p.isOpen
  | .error e _ => p.isOpen || e.isFault

/-- `::readv` answers as the stream allows. -/
def reads (p : Pipe UInt8) : Option ReadvResult → Bool
  | some (.data []) => p.atEnd || p.broken
  | some (.data bs) => decide (bs <+: p.inFlight)
  | some (.error _) | none => true

/-- The kernel's answers in a call of side `i` are possible. -/
def possible (s : EndToEnd) (i : Bool) (call : ConnCall) : Bool :=
  writes (s.pipes i) call.writeResult && reads (s.pipes !i) call.readResult

def setEnd (s : EndToEnd) (i : Bool) (e : Endpoint) : EndToEnd :=
  { s with ends := Function.update s.ends i e }

/-- Side `i` has made a call with these effects. -/
def called (s : EndToEnd) (i : Bool) (call : ConnCall) (conn : TcpConnection) (es : List Effect) :
    EndToEnd where
  ends := Function.update s.ends i ((s.ends i).after call conn es)
  pipes j := if j = i then written (s.pipes i) es else (s.pipes j).pull call.bytesRead.length

def step (s : EndToEnd) : EndToEndAction → Option EndToEnd
  | .call i call =>
    if !(s.ends i).gone && s.possible i call then
      ((s.ends i).conn.exec call).map fun (conn, es) => s.called i call conn es
    else none
  | .store i =>
    if (s.ends i).gone then none
    else some (s.setEnd i { s.ends i with conn := (s.ends i).conn.setState .kDisconnecting })
  | .otherChannels i poller =>
    let conn := (s.ends i).conn
    if poller.interest conn.channel.fd = conn.poller.interest conn.channel.fd then
      some (s.setEnd i { s.ends i with conn := { conn with poller } })
    else none
  | .take i call =>
    if (s.ends i).gone then none else ((s.ends i).take call).map (s.setEnd i)
  | .close i =>
    if (s.ends i).down && !(s.ends i).gone then
      some
        { ends := Function.update s.ends i { s.ends i with gone := true }
          pipes := Function.update s.pipes i (s.pipes i).finish }
    else none
  | .reset => some { s with pipes := fun i => (s.pipes i).reset }

/-! ## One action -/

/-- The invariant. -/
structure Joined (s : EndToEnd) : Prop where
  flow : ∀ i, (s.pipes i).Flow (s.ends i).kept (s.ends !i).received (s.ends i).output
  open_ : ∀ i, (s.ends i).down = false →
    Established (s.ends i).conn.channel.fd (s.ends i).conn
  shut : ∀ i, (s.ends i).shut = true →
    (s.pipes i).fin = true ∧ (s.ends i).ended ++ (s.ends i).output = (s.ends i).kept
  fin : ∀ i, (s.pipes i).fin = true → (s.ends i).shut = true ∨ (s.ends i).down = true
  gone : ∀ i, (s.ends i).gone = true → (s.ends i).down = true

variable {s s' : EndToEnd} {i : Bool}

/-- A write of nothing, or to a stream that is open. -/
theorem accepted_of_writes {c c' : TcpConnection} {call : ConnCall} {es : List Effect} {p : Pipe UInt8}
    (h : c.exec call = some (c', es)) (hw : writes p call.writeResult = true) :
    acceptedBytes es = [] ∨ p.isOpen = true := by
  cases hopen : p.isOpen
  · left
    cases hr : call.writeResult with
    | count n => simp [writes, hr, hopen] at hw
    | error e logged => exact TcpConnection.exec_writeError hr h
  · exact Or.inr rfl

theorem broken_of_isOpen {p : Pipe UInt8} (h : p.isOpen = true) : p.broken = false := by
  simpa [Pipe.isOpen] using (Bool.and_eq_true_iff.mp h).2

/-- A stream that has ended takes nothing. -/
theorem accepted_of_fin {c c' : TcpConnection} {call : ConnCall} {es : List Effect} {p : Pipe UInt8}
    (h : c.exec call = some (c', es)) (hw : writes p call.writeResult = true) (hfin : p.fin = true) :
    acceptedBytes es = [] := by
  rcases accepted_of_writes h hw with hnone | hopen
  · exact hnone
  · simp [Pipe.isOpen, hfin] at hopen

theorem prefix_of_reads {call : ConnCall} {p : Pipe UInt8} (hr : reads p call.readResult = true) :
    call.bytesRead <+: p.inFlight := by
  unfold ConnCall.bytesRead
  cases h : call.readResult with
  | none => exact List.nil_prefix
  | some r =>
    rw [h] at hr
    cases r with
    | error e => exact List.nil_prefix
    | data bs =>
      cases bs with
      | nil => exact List.nil_prefix
      | cons b bs => exact of_decide_eq_true hr

/-- The side has gone on without a change of its streams. -/
structure Unmoved (e e' : Endpoint) : Prop where
  kept : e'.kept = e.kept
  received : e'.received = e.received
  output : e'.output = e.output
  down : e'.down = e.down
  shut : e'.shut = e.shut
  ended : e'.ended = e.ended
  open_ : Established e.conn.channel.fd e.conn → Established e'.conn.channel.fd e'.conn
  gone : (e.gone = true → e.down = true) → e'.gone = true → e.down = true

theorem Joined.setEnd (h : Joined s) {e : Endpoint} (he : Unmoved (s.ends i) e) :
    Joined (s.setEnd i e) := by
  have hother : ∀ {j}, j ≠ i → (s.setEnd i e).ends j = s.ends j := fun hj =>
    Function.update_of_ne hj _ _
  have hself : (s.setEnd i e).ends i = e := Function.update_self _ _ _
  have hends : ∀ j, Unmoved (s.ends j) ((s.setEnd i e).ends j) := by
    intro j
    by_cases hj : j = i
    · subst hj
      rw [hself]
      exact he
    · rw [hother hj]
      exact ⟨rfl, rfl, rfl, rfl, rfl, rfl, id, id⟩
  constructor
  · intro j
    rw [(hends j).kept, (hends !j).received, (hends j).output]
    exact h.flow j
  · intro j hdown
    rw [(hends j).down] at hdown
    exact (hends j).open_ (h.open_ j hdown)
  · intro j hshut
    rw [(hends j).shut] at hshut
    rw [(hends j).ended, (hends j).output, (hends j).kept]
    exact h.shut j hshut
  · intro j hfin
    rw [(hends j).shut, (hends j).down]
    exact h.fin j hfin
  · intro j hgone
    rw [(hends j).down]
    exact (hends j).gone (h.gone j) hgone

/-- The user takes bytes off the front of the buffer. -/
theorem unmoved_take {e e' : Endpoint} {call : BufferCall} (h : e.take call = some e') :
    Unmoved e e' := by
  unfold Endpoint.take at h
  split at h
  · next hcall =>
    obtain ⟨inputBuffer, hbuffer, rfl⟩ := Option.map_eq_some_iff.mp h
    refine ⟨rfl, ?_, rfl, rfl, rfl, rfl, fun he => he.of_eq rfl rfl rfl rfl he.watched, id⟩
    have hdrop := ValidBuffer.toQueue_call hcall hbuffer
    simp only [Endpoint.received, List.append_assoc]
    exact congrArg (e.consumed ++ ·) hdrop
  · cases h

/-- The streams after a call: what the caller writes goes on its pipe, and what it reads is off the
other one. -/
theorem flow_called {conn : TcpConnection} {call : ConnCall} {es : List Effect} (h : Joined s)
    (hpossible : s.possible i call = true) (hexec : (s.ends i).conn.exec call = some (conn, es)) :
    ∀ j, ((s.called i call conn es).pipes j).Flow ((s.called i call conn es).ends j).kept
      ((s.called i call conn es).ends !j).received ((s.called i call conn es).ends j).output := by
  obtain ⟨hwrites, hreads⟩ := Bool.and_eq_true_iff.mp hpossible
  intro j
  rcases Bool.eq_or_eq_not j i with rfl | rfl
  · -- the stream that the caller writes
    have hflow := (h.flow j).write _ _ _
      ((accepted_of_writes hexec hwrites).imp_right broken_of_isOpen) (TcpConnection.exec_output hexec)
    have hother : (s.called j call conn es).ends (!j) = s.ends !j :=
      Function.update_of_ne (by simp) _ _
    have hself : (s.called j call conn es).ends j = (s.ends j).after call conn es :=
      Function.update_self _ _ _
    have hpipe : (s.called j call conn es).pipes j = written (s.pipes j) es := if_pos rfl
    rw [hother, hself, hpipe]
    unfold written
    split
    · exact hflow.finish
    · exact hflow
  · -- the stream that the caller reads
    have hflow := (h.flow !i).read (prefix_of_reads hreads)
    have hother : (s.called i call conn es).ends (!i) = s.ends !i :=
      Function.update_of_ne (by simp) _ _
    have hself : (s.called i call conn es).ends (!!i) = (s.ends i).after call conn es := by
      rw [Bool.not_not]
      exact Function.update_self _ _ _
    have hpipe : (s.called i call conn es).pipes (!i) = (s.pipes !i).pull call.bytesRead.length :=
      if_neg (by simp)
    rw [hother, hself, hpipe]
    rw [Bool.not_not] at hflow
    simp only [Endpoint.received, Endpoint.after, TcpConnection.exec_input hexec]
    rw [← List.append_assoc]
    exact hflow

theorem fin_written (p : Pipe UInt8) (es : List Effect) :
    (written p es).fin = (p.fin || es.contains .shutdownWrite) := by
  unfold written
  split
  · next hes =>
    rw [hes, Bool.or_true]
    rfl
  · next hes =>
    rw [Bool.not_eq_true] at hes
    rw [hes, Bool.or_false]
    rfl

/-- **What is kept after `::shutdown`** stays in the buffer. -/
theorem Joined.shut_after {conn : TcpConnection} {call : ConnCall} {es : List Effect} (h : Joined s)
    (hpossible : s.possible i call = true) (hexec : (s.ends i).conn.exec call = some (conn, es))
    (hshut : ((s.ends i).after call conn es).shut = true) :
    ((s.pipes i).fin || es.contains .shutdownWrite) = true ∧
      ((s.ends i).after call conn es).ended ++ ((s.ends i).after call conn es).output =
        ((s.ends i).after call conn es).kept := by
  by_cases hbefore : (s.ends i).shut = true
  · -- the stream has ended, and nothing is taken from the buffer any more
    obtain ⟨hfin, hended⟩ := h.shut i hbefore
    have houtput := TcpConnection.exec_output hexec
    rw [accepted_of_fin hexec (Bool.and_eq_true_iff.mp hpossible).1 hfin, List.nil_append] at houtput
    refine ⟨by rw [hfin]; rfl, ?_⟩
    simp only [Endpoint.after, hbefore, Bool.not_true, Bool.false_and, Bool.false_eq_true, if_false,
      Endpoint.output, houtput, ← hended, List.append_assoc]
  · -- it ends now, with nothing in the buffer
    simp only [Endpoint.after, hbefore, Bool.false_or, Bool.and_eq_true, Bool.not_eq_true'] at hshut
    obtain ⟨hdown, hes⟩ := hshut
    have hmem := List.contains_iff_mem.mp hes
    have hidle := TcpConnection.exec_shutdownWrite (h.open_ i hdown) hexec hmem
    have hempty : conn.outputBuffer.toQueue = [] := ((TcpConnection.idle_iff _).mp hidle).2
    refine ⟨by rw [hes, Bool.or_true], ?_⟩
    simp [Endpoint.after, Endpoint.output, hbefore, hdown, hmem, hempty]

theorem joined_called {conn : TcpConnection} {call : ConnCall} {es : List Effect} (h : Joined s)
    (hpossible : s.possible i call = true) (hexec : (s.ends i).conn.exec call = some (conn, es)) :
    Joined (s.called i call conn es) := by
  have hself : (s.called i call conn es).ends i = (s.ends i).after call conn es :=
    Function.update_self _ _ _
  have hother : ∀ {j}, j ≠ i → (s.called i call conn es).ends j = s.ends j := fun hj =>
    Function.update_of_ne hj _ _
  have hpipe : (s.called i call conn es).pipes i = written (s.pipes i) es := if_pos rfl
  have hpull : ∀ {j}, j ≠ i → ((s.called i call conn es).pipes j).fin = (s.pipes j).fin := by
    intro j hj
    have : (s.called i call conn es).pipes j = (s.pipes j).pull call.bytesRead.length := if_neg hj
    rw [this]
    rfl
  have hestablished : ((s.ends i).after call conn es).down = false →
      Established conn.channel.fd conn := by
    intro hdown
    simp only [Endpoint.after, Bool.or_eq_false_iff, beq_eq_false_iff_ne] at hdown
    have hc := TcpConnection.exec_established (h.open_ i hdown.1.1) hexec hdown.1.2 hdown.2
    rw [hc.fd_eq]
    exact hc
  constructor
  · exact flow_called h hpossible hexec
  · intro j hdown
    by_cases hj : j = i
    · subst hj
      rw [hself] at hdown ⊢
      exact hestablished hdown
    · rw [hother hj] at hdown ⊢
      exact h.open_ j hdown
  · intro j hshut
    by_cases hj : j = i
    · subst hj
      rw [hself] at hshut ⊢
      rw [hpipe, fin_written]
      exact h.shut_after hpossible hexec hshut
    · rw [hother hj] at hshut ⊢
      rw [hpull hj]
      exact h.shut j hshut
  · intro j hfin
    by_cases hj : j = i
    · subst hj
      rw [hpipe, fin_written] at hfin
      rw [hself]
      simp only [Endpoint.after, Bool.or_eq_true, Bool.and_eq_true, Bool.not_eq_true']
      rcases Bool.or_eq_true_iff.mp hfin with hfin | hes
      · rcases h.fin j hfin with hshut | hdown
        · exact Or.inl (Or.inl hshut)
        · exact Or.inr (Or.inl (Or.inl hdown))
      · cases hdown : (s.ends j).down
        · exact Or.inl (Or.inr ⟨rfl, hes⟩)
        · exact Or.inr (Or.inl (Or.inl rfl))
    · rw [hpull hj] at hfin
      rw [hother hj]
      exact h.fin j hfin
  · intro j hgone
    by_cases hj : j = i
    · subst hj
      rw [hself] at hgone ⊢
      simp only [Endpoint.after, h.gone j hgone, Bool.true_or]
    · rw [hother hj] at hgone ⊢
      exact h.gone j hgone

/-- The destructor of a side that is down ends its stream. -/
theorem Joined.close (h : Joined s) (hdown : (s.ends i).down = true) :
    Joined
      { ends := Function.update s.ends i { s.ends i with gone := true }
        pipes := Function.update s.pipes i (s.pipes i).finish } := by
  have hset : Joined (s.setEnd i { s.ends i with gone := true }) :=
    h.setEnd ⟨rfl, rfl, rfl, rfl, rfl, rfl, id, fun _ _ => hdown⟩
  have hpipe : ∀ j, Function.update s.pipes i (s.pipes i).finish j =
      if j = i then (s.pipes j).finish else s.pipes j := by
    intro j
    by_cases hj : j = i
    · subst hj
      rw [Function.update_self, if_pos rfl]
    · rw [Function.update_of_ne hj, if_neg hj]
  constructor
  · intro j
    simp only [hpipe]
    split
    · exact (hset.flow j).finish
    · exact hset.flow j
  · exact hset.open_
  · intro j hshut
    obtain ⟨hfin, hended⟩ := hset.shut j hshut
    refine ⟨?_, hended⟩
    simp only [hpipe]
    split
    · rfl
    · exact hfin
  · intro j hfin
    by_cases hj : j = i
    · subst hj
      right
      simp only [Function.update_self]
      exact hdown
    · simp only [hpipe, if_neg hj] at hfin
      exact hset.fin j hfin
  · exact hset.gone

theorem Joined.reset (h : Joined s) : Joined { s with pipes := fun i => (s.pipes i).reset } :=
  ⟨fun i => (h.flow i).reset, h.open_, h.shut, h.fin, h.gone⟩

/-- **Every action** keeps the invariant. -/
theorem joined_step (s : EndToEnd) (a : EndToEndAction) (s' : EndToEnd) (h : Joined s)
    (hstep : s.step a = some s') : Joined s' := by
  cases a with
  | call i call =>
    simp only [step] at hstep
    split at hstep
    · next hcond =>
      obtain ⟨⟨conn, es⟩, hexec, rfl⟩ := Option.map_eq_some_iff.mp hstep
      exact joined_called h (Bool.and_eq_true_iff.mp hcond).2 hexec
    · cases hstep
  | store i =>
    simp only [step] at hstep
    split at hstep
    · cases hstep
    · cases hstep
      exact h.setEnd ⟨rfl, rfl, rfl, rfl, rfl, rfl, fun he => he.of_stat (by decide), id⟩
  | otherChannels i poller =>
    simp only [step] at hstep
    split at hstep
    · next hsame =>
      cases hstep
      exact h.setEnd ⟨rfl, rfl, rfl, rfl, rfl, rfl,
        fun he => ⟨he.live, rfl, ⟨he.watched.1, hsame.trans he.watched.2⟩, he.events⟩, id⟩
    · cases hstep
  | take i call =>
    simp only [step] at hstep
    split at hstep
    · cases hstep
    · obtain ⟨e, htake, rfl⟩ := Option.map_eq_some_iff.mp hstep
      exact h.setEnd (unmoved_take htake)
  | close i =>
    simp only [step] at hstep
    split at hstep
    · next hcond =>
      cases hstep
      exact h.close (Bool.and_eq_true_iff.mp hcond).1
    · cases hstep
  | reset =>
    cases hstep
    exact h.reset

end EndToEnd

/-! ## Whole runs -/

/-- A connection as `connectEstablished` leaves a new one. -/
def TcpConnection.Opened (c : TcpConnection) : Prop :=
  ∃ poller addr fd writeCompleteCallback highWaterMarkCallback es,
    (TcpConnection.new poller addr fd writeCompleteCallback highWaterMarkCallback).connectEstablished =
      some (c, es)

namespace EndToEnd

theorem joined_start {conns : Bool → TcpConnection} (h : ∀ i, (conns i).Opened) :
    Joined (start conns) := by
  have hempty : ∀ i, (conns i).inputBuffer.toQueue = [] ∧ (conns i).outputBuffer.toQueue = [] := by
    intro i
    obtain ⟨poller, addr, fd, wc, hw, es, hi⟩ := h i
    have hsame := TcpConnection.sameBuffers_connectEstablished hi
    rw [hsame.input, hsame.output]
    exact ⟨ValidBuffer.toQueue_new _, ValidBuffer.toQueue_new _⟩
  constructor
  · intro i
    have hreceived : ((start conns).ends !i).received = [] := (hempty !i).1
    have houtput : ((start conns).ends i).output = [] := (hempty i).2
    rw [hreceived, houtput]
    exact Pipe.flow_empty
  · intro i _
    obtain ⟨poller, addr, fd, wc, hw, es, hi⟩ := h i
    have hc := established_connectEstablished hi
    have hfd : ((start conns).ends i).conn.channel.fd = fd := hc.fd_eq
    rw [hfd]
    exact hc
  · intro i hshut
    cases hshut
  · intro i hfin
    cases hfin
  · intro i hgone
    cases hgone

theorem joined_of_run {conns : Bool → TcpConnection} (h : ∀ i, (conns i).Opened)
    {as : List EndToEndAction} {s : EndToEnd} (hrun : run step (start conns) as = some s) :
    Joined s := run_inv joined_step (joined_start h) hrun

theorem connectEstablished_pair (i : Bool) :
    (TcpConnection.new .empty 0 (if i then 6 else 5) false false).connectEstablished.isSome := by
  cases i
  · decide
  · decide

/-- Two new connections. -/
def pair (i : Bool) : TcpConnection :=
  (Option.get _ (connectEstablished_pair i)).1

theorem opened_pair (i : Bool) : (pair i).Opened :=
  ⟨.empty, 0, if i then 6 else 5, false, false, _, (Option.some_get (connectEstablished_pair i)).symm⟩

/-- **What arrives is what was sent, in order.**  Whatever the two loop threads, the other threads, the
users and the kernel do, the bytes that a side has received, then those in flight, then those that a reset
has thrown away, then those waiting in the sender's `outputBuffer_`, are the bytes of the messages that
the sender kept, in the order of the `sendInLoop` calls.  So the receiver has a prefix of them, and
without a reset nothing is missing. -/
theorem end_to_end_order (conns : Bool → TcpConnection) (h : ∀ i, (conns i).Opened)
    (as : List EndToEndAction) (s : EndToEnd) (hrun : run step (start conns) as = some s) (i : Bool) :
    (s.ends !i).received <+: (s.ends i).kept ∧
      (s.ends !i).received ++ (s.pipes i).inFlight ++ (s.pipes i).lost ++ (s.ends i).output =
        (s.ends i).kept ∧
      ((s.pipes i).broken = false → (s.pipes i).lost = []) := by
  have hflow := (joined_of_run h hrun).flow i
  exact ⟨hflow.received_prefix, hflow.order, hflow.lost⟩

/-- A message that is written in two parts, and read across them. -/
theorem end_to_end_order_run :
    ∃ s, run step (start pair)
        [.call false (.user (.send [1, 2, 3]) (.count 2)), .call true (.event .read (.data [1]) (.count 0)),
          .take true (.retrieve 1), .call false (.event .write (.data []) (.count 9)),
          .call true (.event .read (.data [2, 3]) (.count 0))] = some s ∧
      (s.ends true).received = [1, 2, 3] := by
  refine exists_run_eq (fun s : EndToEnd => ((s.ends false).kept,
    (s.pipes false).inFlight ++ (s.pipes false).lost, (s.ends false).output)) ([1, 2, 3], [], [])
    (by decide +kernel) fun s hs hlook => ?_
  have horder := (end_to_end_order pair opened_pair _ s hs false).2.1
  simp only [Prod.mk.injEq] at hlook
  rw [List.append_assoc (s.ends !false).received, hlook.1, hlook.2.1, hlook.2.2] at horder
  simpa using horder

/-- What the receiver has, on the way to the end of the stream. -/
theorem Joined.received_of_shut (h : Joined s) (hshut : (s.ends i).shut = true) :
    (s.ends !i).received ++ (s.pipes i).inFlight ++ (s.pipes i).lost = (s.ends i).ended := by
  have horder := (h.flow i).order
  rw [← (h.shut i hshut).2] at horder
  exact List.append_cancel_right horder

end EndToEnd
end Muduo
