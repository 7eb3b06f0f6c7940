import Muduo.TcpConnection
import Muduo.Lib.Transition

/-!
# The output stream of a connection

Runs of the loop thread on a live connection: `sendInLoop`, `handleRead`, `handleWrite`,
`shutdownInLoop`, and the calls `shutdown` and `forceClose`, in any order and with any results of
the system calls.  Other channels of the loop may change the poller in between, but not this
descriptor's entry.  A run ends before `handleClose`, so `handleRead` with an end of stream is
not a step of it.

    bytes written ++ outputBuffer = outputBuffer at the start ++ messages kept     (faithful_step)

`sendInLoop` tests `errno` for `EPIPE` and `ECONNRESET` only after `LOG_ERROR`, which may have changed
it, so two ledgers are kept: the messages that the code did not give up (`kept`), and those whose
direct `::write` did not fail with `EPIPE` or `ECONNRESET` (`due`).  The stream carries the messages due
if and only if the log line never changes on which side of that test an error falls
(`output_stream_fidelity_iff`).
-/

namespace Muduo

open Transition

/-! ## Runs -/

inductive LoopStep
  | sendInLoop (data : List UInt8) (w : WriteResult)
  | handleRead (r : ReadvResult)
  | handleWrite (w : WriteResult)
  | shutdownInLoop
  | shutdown (inLoopThread : Bool)
  | forceClose
  | otherChannels (poller : EPollPoller)

namespace TcpConnection

def loopStep (c : TcpConnection) : LoopStep → Result
  | .sendInLoop data w => c.sendInLoop data w
  | .handleRead r => if r = .data [] then none else c.handleRead r
  | .handleWrite w => c.handleWrite w
  | .shutdownInLoop => c.shutdownInLoop
  | .shutdown inLoopThread => c.shutdown inLoopThread
  | .forceClose => c.forceClose
  | .otherChannels poller =>
    if poller.interest c.channel.fd = c.poller.interest c.channel.fd then some ({ c with poller }, [])
    else none

/-- `sendInLoop` makes a direct `::write` and gives the message up. -/
def directFailure (c : TcpConnection) (w : WriteResult) : Bool := c.idle && w.faultError

end TcpConnection

/-- `::write` failed with `EPIPE` or `ECONNRESET`. -/
def WriteResult.broken : WriteResult → Bool
  | .count _ => false
  | .error e _ => e.isFault

/-- A connection, the effects of its run so far, and of the messages handed to `sendInLoop` so far
those the code did not give up, and those whose direct `::write` did not fail with `EPIPE` or
`ECONNRESET`. -/
structure OutputRun where
  conn : TcpConnection
  effects : List Effect
  kept : List (List UInt8)
  due : List (List UInt8)

namespace OutputRun

def start (c : TcpConnection) : OutputRun := ⟨c, [], [], []⟩

/-- The messages that a step adds to `kept`. -/
def keeps (s : OutputRun) : LoopStep → List (List UInt8)
  | .sendInLoop data w => if s.conn.directFailure w then [] else [data]
  | _ => []

/-- The messages that a step adds to `due`. -/
def owes (s : OutputRun) : LoopStep → List (List UInt8)
  | .sendInLoop data w => if s.conn.idle && w.broken then [] else [data]
  | _ => []

def step (s : OutputRun) (a : LoopStep) : Option OutputRun :=
  (s.conn.loopStep a).map fun (c, es) => ⟨c, s.effects ++ es, s.kept ++ s.keeps a, s.due ++ s.owes a⟩

end OutputRun

/-! ## Bytes written -/

def Effect.written : Effect → List UInt8
  | .write bs => bs
  | _ => []

/-- The bytes that `::write` has taken, in order. -/
def acceptedBytes (es : List Effect) : List UInt8 := es.flatMap Effect.written

@[simp] theorem acceptedBytes_nil : acceptedBytes [] = [] := rfl

@[simp] theorem acceptedBytes_cons (e : Effect) (es : List Effect) :
    acceptedBytes (e :: es) = e.written ++ acceptedBytes es := by
  simp [acceptedBytes]

@[simp] theorem acceptedBytes_append (es es' : List Effect) :
    acceptedBytes (es ++ es') = acceptedBytes es ++ acceptedBytes es' := by
  simp [acceptedBytes]

/-! ## What one call does to the stream -/

namespace TcpConnection

variable {c c' : TcpConnection} {data : List UInt8} {w : WriteResult} {es : List Effect}

theorem directWrite_of_not_idle (h : c.idle = false) :
    c.directWrite data w = ⟨[], 0, false⟩ := by
  simp [directWrite, h]

/-- `directWrite` takes a prefix of the message; `faultError` says that it failed for good. -/
theorem directWrite_spec (c : TcpConnection) (data : List UInt8) (w : WriteResult) :
    acceptedBytes (c.directWrite data w).effects = data.take (c.directWrite data w).nwrote ∧
      (c.directWrite data w).faultError = c.directFailure w ∧
      (c.directFailure w = true → (c.directWrite data w).effects = []) := by
  cases hi : c.idle
  · cases w <;> simp [directWrite_of_not_idle hi, directFailure, hi]
  · cases w with
    | count n =>
      simp only [directWrite, directFailure, hi, if_true]
      refine ⟨?_, by simp [WriteResult.faultError], fun h => by simp [WriteResult.faultError] at h⟩
      rw [acceptedBytes_cons, show acceptedBytes _ = [] by split <;> rfl]
      simp [Effect.written, List.length_take]
    | error e logged => simp [directWrite, directFailure, hi]

theorem watchOutput_spec (h : c.watchOutput = some c') :
    c'.outputBuffer = c.outputBuffer ∧ c'.stat = c.stat := by
  unfold watchOutput at h
  split at h
  · obtain ⟨poller, channel, -, rfl⟩ := withChannel_eq_some.mp h
    exact ⟨rfl, rfl⟩
  · cases h
    exact ⟨rfl, rfl⟩

/-- What `queueOutput` leaves and changes. -/
theorem queueOutput_spec {rest : List UInt8} (h : c.queueOutput rest = some (c', es)) :
    c'.outputBuffer.toQueue = c.outputBuffer.toQueue ++ rest ∧ c'.stat = c.stat ∧
      acceptedBytes es = [] := by
  simp only [queueOutput, Option.bind_eq_bind, Option.bind_eq_some_iff, Option.some.injEq,
    Prod.mk.injEq] at h
  obtain ⟨c₁, hch, rfl, rfl⟩ := h
  obtain ⟨hbuf, hstat⟩ := watchOutput_spec hch
  refine ⟨?_, hstat, by split <;> rfl⟩
  rw [hbuf]
  exact ValidBuffer.toQueue_append _ _

/-- The two ways through `sendInLoop` on a connection that is not disconnected. -/
theorem sendInLoop_cases (hc : c.stat ≠ .kDisconnected) (h : c.sendInLoop data w = some (c', es)) :
    ((c.directFailure w = true ∨ data.length ≤ (c.directWrite data w).nwrote) ∧ c' = c ∧
        es = (c.directWrite data w).effects) ∨
      (c.directFailure w = false ∧ (c.directWrite data w).nwrote < data.length ∧
        ∃ es', es = (c.directWrite data w).effects ++ es' ∧
        c.queueOutput (data.drop (c.directWrite data w).nwrote) = some (c', es')) := by
  rw [sendInLoop, if_neg hc] at h
  simp only [(c.directWrite_spec data w).2.1] at h
  split at h
  · next hcond =>
    simp only [Option.bind_eq_bind, Option.bind_eq_some_iff, Prod.exists, Option.some.injEq,
      Prod.mk.injEq] at h
    obtain ⟨c₁, es', hq, rfl, rfl⟩ := h
    simp only [Bool.and_eq_true, Bool.not_eq_true', decide_eq_true_eq] at hcond
    exact Or.inr ⟨hcond.1, by omega, es', rfl, hq⟩
  · next hcond =>
    simp only [Option.some.injEq, Prod.mk.injEq] at h
    refine Or.inl ⟨?_, h.1.symm, h.2.symm⟩
    simp only [Bool.and_eq_true, Bool.not_eq_true', decide_eq_true_eq, not_and, Nat.not_lt] at hcond
    cases hf : c.directFailure w
    · exact Or.inr (by have := hcond hf; omega)
    · exact Or.inl rfl

/-- **`sendInLoop`** writes or queues the whole message behind what was queued, unless the direct
`::write` failed for good. -/
theorem sendInLoop_stream (hc : c.stat ≠ .kDisconnected) (h : c.sendInLoop data w = some (c', es)) :
    acceptedBytes es ++ c'.outputBuffer.toQueue =
        c.outputBuffer.toQueue ++ (if c.directFailure w then [] else data) ∧
      c'.stat = c.stat := by
  obtain ⟨hacc, -, hfail⟩ := c.directWrite_spec data w
  -- bytes are written directly only when nothing is queued
  have hfront : acceptedBytes (c.directWrite data w).effects ++ c.outputBuffer.toQueue =
      c.outputBuffer.toQueue ++ acceptedBytes (c.directWrite data w).effects := by
    cases hi : c.idle
    · simp [directWrite_of_not_idle hi]
    · simp [((c.idle_iff).mp hi).2]
  rcases sendInLoop_cases hc h with ⟨hdone, rfl, rfl⟩ | ⟨hf, -, es', rfl, hq⟩
  · refine ⟨?_, rfl⟩
    rw [hfront]
    congr 1
    cases hf : c'.directFailure w
    · rw [hf] at hdone
      simp only [Bool.false_eq_true, false_or] at hdone
      rw [hacc, if_neg (by simp), List.take_of_length_le hdone]
    · rw [hfail hf, if_pos rfl, acceptedBytes_nil]
  · obtain ⟨hbuf, hstat, hes⟩ := queueOutput_spec hq
    refine ⟨?_, hstat⟩
    rw [hf, if_neg (by simp), acceptedBytes_append, hes, List.append_nil, hbuf, ← List.append_assoc,
      hfront, hacc, List.append_assoc, List.take_append_drop]

theorem shutdownInLoop_spec (h : c.shutdownInLoop = some (c', es)) :
    c' = c ∧ acceptedBytes es = [] := by
  unfold shutdownInLoop at h
  split at h <;> cases h <;> exact ⟨rfl, rfl⟩

theorem outputDrained_spec (h : c.outputDrained = some (c', es)) :
    c'.outputBuffer = c.outputBuffer ∧ c'.stat = c.stat ∧ acceptedBytes es = [] := by
  simp only [outputDrained, Option.bind_eq_bind, Option.bind_eq_some_iff] at h
  obtain ⟨c₁, hch, h⟩ := h
  obtain ⟨poller, channel, -, rfl⟩ := withChannel_eq_some.mp hch
  have hes : ∀ b : Bool, acceptedBytes
      (if b = true then [Effect.queueInLoop .writeComplete] else []) = [] := by decide
  split at h
  · simp only [Option.bind_eq_some_iff, Prod.exists, Option.some.injEq, Prod.mk.injEq] at h
    obtain ⟨c₂, es', hs, rfl, rfl⟩ := h
    obtain ⟨rfl, hes'⟩ := shutdownInLoop_spec hs
    exact ⟨rfl, rfl, by rw [acceptedBytes_append, hes, hes']; rfl⟩
  · simp only [Option.some.injEq, Prod.mk.injEq] at h
    obtain ⟨rfl, rfl⟩ := h
    exact ⟨rfl, rfl, hes _⟩

/-- **`handleWrite`** moves bytes from the front of the buffer to the socket. -/
theorem handleWrite_stream (h : c.handleWrite w = some (c', es)) :
    acceptedBytes es ++ c'.outputBuffer.toQueue = c.outputBuffer.toQueue ∧ c'.stat = c.stat := by
  unfold handleWrite at h
  split at h
  · cases w with
    | error e logged =>
      cases h
      exact ⟨rfl, rfl⟩
    | count n =>
      simp only at h
      generalize hbs : c.outputBuffer.toQueue.take n = bs at h
      have hsplit : bs ++ c.outputBuffer.toQueue.drop bs.length = c.outputBuffer.toQueue :=
        List.prefix_iff_eq_append.mp (hbs ▸ List.take_prefix n _)
      split at h
      · split at h
        · simp only [Option.bind_eq_bind, Option.bind_eq_some_iff, Prod.exists, Option.some.injEq,
            Prod.mk.injEq] at h
          obtain ⟨c₁, es', hd, rfl, rfl⟩ := h
          obtain ⟨hbuf, hstat, hes⟩ := outputDrained_spec hd
          refine ⟨?_, hstat⟩
          rw [acceptedBytes_cons, hes, hbuf]
          simpa [Effect.written] using hsplit
        · cases h
          refine ⟨?_, rfl⟩
          simpa [Effect.written] using hsplit
      · next hzero =>
        cases h
        have : bs = [] := List.eq_nil_of_length_eq_zero (by omega)
        subst this
        exact ⟨rfl, rfl⟩
  · cases h
    exact ⟨rfl, rfl⟩

theorem handleRead_stream {r : ReadvResult} (hr : r ≠ .data [])
    (h : c.handleRead r = some (c', es)) :
    acceptedBytes es = [] ∧ c'.outputBuffer = c.outputBuffer ∧ c'.stat = c.stat := by
  obtain ⟨inputBuffer, ⟨heof, -⟩ | ⟨-, -, rfl, rfl⟩ | ⟨-, -, rfl, rfl⟩⟩ := handleRead_cases h
  · exact absurd heof hr
  · exact ⟨rfl, rfl, rfl⟩
  · exact ⟨rfl, rfl, rfl⟩

theorem shutdown_stream {inLoopThread : Bool} (h : c.shutdown inLoopThread = some (c', es))
    (hc : c.stat ≠ .kDisconnected) :
    acceptedBytes es = [] ∧ c'.outputBuffer = c.outputBuffer ∧ c'.stat ≠ .kDisconnected := by
  unfold shutdown at h
  split at h
  · cases inLoopThread
    · cases h
      exact ⟨rfl, rfl, by simp [setState]⟩
    · obtain ⟨rfl, hes⟩ := shutdownInLoop_spec h
      exact ⟨hes, rfl, by simp [setState]⟩
  · cases h
    exact ⟨rfl, rfl, hc⟩

theorem forceClose_stream (h : c.forceClose = some (c', es)) (hc : c.stat ≠ .kDisconnected) :
    acceptedBytes es = [] ∧ c'.outputBuffer = c.outputBuffer ∧ c'.stat ≠ .kDisconnected := by
  unfold forceClose at h
  split at h
  · cases h
    exact ⟨rfl, rfl, by simp [setState]⟩
  · cases h
    exact ⟨rfl, rfl, hc⟩

end TcpConnection

/-- **One step**: what is written and queued after it is what was queued before it and the
message it keeps. -/
theorem loopStep_stream (s : OutputRun) (a : LoopStep) (hs : s.conn.stat ≠ .kDisconnected)
    {c' : TcpConnection} {es : List Effect} (h : s.conn.loopStep a = some (c', es)) :
    acceptedBytes es ++ c'.outputBuffer.toQueue =
        s.conn.outputBuffer.toQueue ++ (s.keeps a).flatten ∧
      c'.stat ≠ .kDisconnected := by
  cases a with
  | sendInLoop data w =>
    obtain ⟨hstream, hstat⟩ := TcpConnection.sendInLoop_stream hs h
    refine ⟨hstream.trans ?_, hstat ▸ hs⟩
    simp only [OutputRun.keeps]
    split <;> simp
  | handleRead r =>
    simp only [TcpConnection.loopStep] at h
    split at h
    · cases h
    · next hr =>
      obtain ⟨hes, hbuf, hstat⟩ := TcpConnection.handleRead_stream hr h
      exact ⟨by simp [hes, hbuf, OutputRun.keeps], hstat ▸ hs⟩
  | handleWrite w =>
    obtain ⟨hstream, hstat⟩ := TcpConnection.handleWrite_stream h
    exact ⟨by simp [hstream, OutputRun.keeps], hstat ▸ hs⟩
  | shutdownInLoop =>
    obtain ⟨rfl, hes⟩ := TcpConnection.shutdownInLoop_spec h
    exact ⟨by simp [hes, OutputRun.keeps], hs⟩
  | shutdown inLoopThread =>
    obtain ⟨hes, hbuf, hstat⟩ := TcpConnection.shutdown_stream h hs
    exact ⟨by simp [hes, hbuf, OutputRun.keeps], hstat⟩
  | forceClose =>
    obtain ⟨hes, hbuf, hstat⟩ := TcpConnection.forceClose_stream h hs
    exact ⟨by simp [hes, hbuf, OutputRun.keeps], hstat⟩
  | otherChannels poller =>
    simp only [TcpConnection.loopStep] at h
    split at h
    · cases h
      exact ⟨by simp [OutputRun.keeps], hs⟩
    · cases h

/-! ## Effects of the output calls -/

/-- What the output calls do besides `::shutdown`: they write, and they queue the two notifications
of the user. -/
def Effect.isOutput : Effect → Bool
  | .write _ | .queueInLoop .writeComplete | .queueInLoop (.highWaterMark _) => true
  | _ => false

namespace TcpConnection

variable {c c' : TcpConnection} {data : List UInt8} {w : WriteResult} {es : List Effect}

theorem directWrite_effects (c : TcpConnection) (data : List UInt8) (w : WriteResult) :
    ∀ e ∈ (c.directWrite data w).effects, e.isOutput = true := by
  intro e he
  unfold directWrite at he
  split at he
  · cases w with
    | count n =>
      simp only [List.mem_cons] at he
      rcases he with rfl | he
      · rfl
      · split at he
        · rw [List.mem_singleton] at he
          rw [he]
          rfl
        · cases he
    | error e logged => cases he
  · cases he

theorem sendInLoop_effects (h : c.sendInLoop data w = some (c', es)) :
    ∀ e ∈ es, e.isOutput = true := by
  by_cases hc : c.stat = .kDisconnected
  · rw [sendInLoop, if_pos hc] at h
    cases h
    simp
  rcases sendInLoop_cases hc h with ⟨-, -, rfl⟩ | ⟨-, -, es', rfl, hq⟩
  · exact c.directWrite_effects data w
  · simp only [queueOutput, Option.bind_eq_bind, Option.bind_eq_some_iff, Option.some.injEq,
      Prod.mk.injEq] at hq
    obtain ⟨c₁, -, -, rfl⟩ := hq
    intro e he
    rcases List.mem_append.mp he with he | he
    · exact c.directWrite_effects data w e he
    · split at he
      · rw [List.mem_singleton] at he
        rw [he]
        rfl
      · cases he

/-- This result of `::write` empties the output buffer in `handleWrite`. -/
def emptiedBy (c : TcpConnection) : WriteResult → Bool
  | .count n => c.channel.isWriting && decide (c.outputBuffer.toQueue.length ≤ n)
  | .error _ _ => false

theorem outputDrained_effects (h : c.outputDrained = some (c', es)) :
    ∃ out : List Effect, (∀ e ∈ out, e.isOutput = true) ∧
      es = out ++ if c.stat = .kDisconnecting ∧ c'.channel.isWriting = false then [.shutdownWrite]
        else [] := by
  simp only [outputDrained, Option.bind_eq_bind, Option.bind_eq_some_iff] at h
  obtain ⟨c₁, hch, h⟩ := h
  obtain ⟨poller, channel, -, rfl⟩ := withChannel_eq_some.mp hch
  have hout : ∀ b : Bool, ∀ e ∈ (if b = true then [Effect.queueInLoop .writeComplete] else []),
      e.isOutput = true := by decide
  split at h
  · next hstat =>
    simp only [Option.bind_eq_some_iff, Prod.exists, Option.some.injEq, Prod.mk.injEq] at h
    obtain ⟨c₂, es', hs, rfl, rfl⟩ := h
    refine ⟨_, hout c.writeCompleteCallback, ?_⟩
    unfold shutdownInLoop at hs
    split at hs
    · next hw =>
      cases hs
      congr 1
      exact (if_pos ⟨hstat, by simpa using hw⟩).symm
    · next hw =>
      cases hs
      congr 1
      exact (if_neg fun hc => hw (by simp [hc.2])).symm
  · next hstat =>
    simp only [Option.some.injEq, Prod.mk.injEq] at h
    obtain ⟨rfl, rfl⟩ := h
    refine ⟨_, hout c.writeCompleteCallback, (List.append_nil _).symm.trans ?_⟩
    congr 1
    exact (if_neg fun hc => hstat hc.1).symm

/-- **When `handleWrite` shuts the socket**: it has emptied the buffer in state `kDisconnecting`. -/
theorem handleWrite_effects (hpending : c.channel.isWriting = true → c.outputBuffer.toQueue ≠ [])
    (h : c.handleWrite w = some (c', es)) :
    (c.emptiedBy w = true → c'.outputBuffer.toQueue = []) ∧
      ∃ out : List Effect, (∀ e ∈ out, e.isOutput = true) ∧
        es = out ++ if c.emptiedBy w = true ∧ c.stat = .kDisconnecting ∧ c'.channel.isWriting = false
          then [.shutdownWrite] else [] := by
  unfold handleWrite at h
  split at h
  · next hw =>
    cases w with
    | error e logged =>
      cases h
      exact ⟨by simp [emptiedBy], [], by simp, by simp [emptiedBy]⟩
    | count n =>
      have hne := List.length_pos_of_ne_nil (hpending hw)
      simp only [List.length_take] at h
      have hempty : c.emptiedBy (.count n) = decide (c.outputBuffer.toQueue.length ≤ n) := by
        simp [emptiedBy, hw]
      rw [hempty]
      split at h
      · split at h
        · next hzero =>
          rw [ValidBuffer.readableBytes_eq_zero] at hzero
          have hle : c.outputBuffer.toQueue.length ≤ n := by
            have := congrArg List.length hzero
            simp only [ValidBuffer.toQueue_retrieve, List.length_drop, List.length_nil] at this
            omega
          simp only [Option.bind_eq_bind, Option.bind_eq_some_iff, Prod.exists, Option.some.injEq,
            Prod.mk.injEq] at h
          obtain ⟨c₁, es', hd, rfl, rfl⟩ := h
          obtain ⟨out, hout, rfl⟩ := outputDrained_effects hd
          refine ⟨fun _ => ?_, .write (c.outputBuffer.toQueue.take n) :: out, ?_, ?_⟩
          · rw [(outputDrained_spec hd).1]
            exact hzero
          · intro e he
            rcases List.mem_cons.mp he with rfl | he
            · rfl
            · exact hout e he
          · simp [hle]
        · next hrest =>
          rw [ValidBuffer.readableBytes_eq_zero] at hrest
          have hle : ¬ c.outputBuffer.toQueue.length ≤ n := by
            intro hle
            apply hrest
            rw [ValidBuffer.toQueue_retrieve, Nat.min_eq_right hle, List.drop_length]
          cases h
          refine ⟨by simp [hle], [.write (c.outputBuffer.toQueue.take n)], ?_, by simp [hle]⟩
          simp [Effect.isOutput]
      · next hzero =>
        cases h
        have hle : ¬ c.outputBuffer.toQueue.length ≤ n := by omega
        refine ⟨by simp [hle], [.write (c.outputBuffer.toQueue.take n)], ?_, by simp [hle]⟩
        simp [Effect.isOutput]
  · next hw =>
    cases h
    cases w with
    | error e logged => exact ⟨by simp [emptiedBy], [], by simp, by simp [emptiedBy]⟩
    | count n => exact ⟨by simp [emptiedBy, hw], [], by simp, by simp [emptiedBy, hw]⟩

end TcpConnection

/-! ## Whole runs -/

/-- The invariant of a run that started with `pending` queued. -/
structure Faithful (pending : List UInt8) (s : OutputRun) : Prop where
  live : s.conn.stat ≠ .kDisconnected
  stream : acceptedBytes s.effects ++ s.conn.outputBuffer.toQueue = pending ++ s.kept.flatten

theorem faithful_start (c : TcpConnection) (hc : c.stat ≠ .kDisconnected) :
    Faithful c.outputBuffer.toQueue (OutputRun.start c) :=
  ⟨hc, by simp [OutputRun.start]⟩

theorem faithful_step {pending : List UInt8} (s : OutputRun) (a : LoopStep) (s' : OutputRun)
    (hs : Faithful pending s) (h : s.step a = some s') : Faithful pending s' := by
  obtain ⟨⟨c', es⟩, hcall, rfl⟩ := Option.map_eq_some_iff.mp h
  obtain ⟨hstream, hlive⟩ := loopStep_stream s a hs.live hcall
  refine ⟨hlive, ?_⟩
  rw [acceptedBytes_append, List.append_assoc, hstream, ← List.append_assoc, hs.stream]
  simp

/-! ## The messages due -/

/-- The log line behind a failed direct `::write` of a non-empty message leaves the error on the side
of the test where it was: `EPIPE` and `ECONNRESET` on the one, every other `errno` on the other.  Where
`::write` failed with `EAGAIN` nothing is logged. -/
def LogsAlike (s : OutputRun) : LoopStep → Prop
  | .sendInLoop data (.error e logged) =>
    data ≠ [] → s.conn.idle = true → e ≠ .EAGAIN → logged.isFault = e.isFault
  | _ => True

theorem WriteResult.faultError_eq_broken {e logged : Errno} :
    (WriteResult.error e logged).faultError = (WriteResult.error e logged).broken ↔
      (e ≠ .EAGAIN → logged.isFault = e.isFault) := by
  by_cases he : e = .EAGAIN
  · subst he
    simp [faultError, broken, Errno.isFault]
  · have hne : (e != .EAGAIN) = true := by simpa using he
    simp [faultError, broken, he, hne]

theorem flatten_unless_eq_iff {b b' : Bool} {data : List UInt8} :
    (if b then [] else [data]).flatten = (if b' then [] else [data]).flatten ↔
      (data ≠ [] → b = b') := by
  cases b <;> cases b' <;> simp [eq_comm]

/-- What a step keeps is what it owes, to the byte, if and only if the log line leaves the error
alike. -/
theorem flatten_keeps_eq_iff (s : OutputRun) (a : LoopStep) :
    (s.keeps a).flatten = (s.owes a).flatten ↔ LogsAlike s a := by
  cases a with
  | sendInLoop data w =>
    cases w with
    | count n =>
      simp [OutputRun.keeps, OutputRun.owes, LogsAlike, TcpConnection.directFailure,
        WriteResult.faultError, WriteResult.broken]
    | error e logged =>
      simp only [OutputRun.keeps, OutputRun.owes, LogsAlike, TcpConnection.directFailure,
        ← WriteResult.faultError_eq_broken]
      refine flatten_unless_eq_iff.trans ?_
      cases s.conn.idle <;> simp
  | handleRead | handleWrite | shutdownInLoop | shutdown | forceClose | otherChannels =>
    simp [OutputRun.keeps, OutputRun.owes, LogsAlike]

/-- What `::write` has taken followed by the readable bytes of `outputBuffer_` are the output pending
at the start followed by the messages due. -/
def CarriesDue (pending : List UInt8) (s : OutputRun) : Prop :=
  acceptedBytes s.effects ++ s.conn.outputBuffer.toQueue = pending ++ s.due.flatten

instance (pending : List UInt8) (s : OutputRun) : Decidable (CarriesDue pending s) :=
  inferInstanceAs (Decidable (_ = _))

/-- The stream carries the messages due as long as they are the ones kept. -/
theorem carriesDue_iff {pending : List UInt8} {s : OutputRun} (hs : Faithful pending s) :
    CarriesDue pending s ↔ s.kept.flatten = s.due.flatten := by
  rw [CarriesDue, hs.stream]
  exact List.append_right_inj pending

theorem step_ledgers {s s' : OutputRun} {a : LoopStep} (h : s.step a = some s') :
    s'.kept = s.kept ++ s.keeps a ∧ s'.due = s.due ++ s.owes a := by
  obtain ⟨⟨c', es⟩, -, rfl⟩ := Option.map_eq_some_iff.mp h
  exact ⟨rfl, rfl⟩

/-- **Output stream fidelity.**  In every run before the connection is closed, the following are the
same: in every state of it, the bytes that `::write` has taken followed by the readable bytes of
`outputBuffer_` are the output pending at the start followed by the messages, in the order of the
`sendInLoop` calls, except exactly those whose direct `::write` failed with `EPIPE` or `ECONNRESET`; and
no log line behind a failed direct `::write` takes `errno` to these two or away from them. -/
theorem output_stream_fidelity_iff (c : TcpConnection) (hc : c.stat ≠ .kDisconnected)
    (steps : List LoopStep) (s : OutputRun)
    (h : run OutputRun.step (OutputRun.start c) steps = some s) :
    Along OutputRun.step (CarriesDue c.outputBuffer.toQueue) (OutputRun.start c) steps ↔
      AllSteps OutputRun.step LogsAlike (OutputRun.start c) steps := by
  refine along_iff_allSteps
    (I := fun s => Faithful c.outputBuffer.toQueue s ∧ s.kept.flatten = s.due.flatten)
    (fun s hs => (carriesDue_iff hs.1).mpr hs.2) ?_ ?_ ⟨faithful_start c hc, rfl⟩ h
  · rintro s a s' ⟨hs, heq⟩ hlog hstep
    obtain ⟨hkept, hdue⟩ := step_ledgers hstep
    refine ⟨faithful_step s a s' hs hstep, ?_⟩
    rw [hkept, hdue, List.flatten_append, List.flatten_append, heq,
      (flatten_keeps_eq_iff s a).mpr hlog]
  · rintro s a s' ⟨hs, heq⟩ hlog hstep hcarries
    obtain ⟨hkept, hdue⟩ := step_ledgers hstep
    have hsame := (carriesDue_iff (faithful_step s a s' hs hstep)).mp hcarries
    rw [hkept, hdue, List.flatten_append, List.flatten_append, heq] at hsame
    exact hlog ((flatten_keeps_eq_iff s a).mp (List.append_cancel_left hsame))

/-- A partial direct write, a message queued behind it, a failed and a full drain, and a message
lost to `EPIPE`. -/
theorem output_stream_fidelity_run :
    ∃ s, run OutputRun.step (OutputRun.start (TcpConnection.new EPollPoller.empty 0 5 true true))
        [.sendInLoop [1, 2, 3] (.count 1), .sendInLoop [4] (.count 1),
          .handleWrite (.error .EAGAIN .EAGAIN), .handleWrite (.count 9),
          .sendInLoop [5] (.error .EPIPE .EPIPE)] = some s ∧
      acceptedBytes s.effects ++ s.conn.outputBuffer.toQueue = [1, 2, 3, 4] := by
  refine exists_run_eq OutputRun.due [[1, 2, 3], [4]] (by decide +kernel) fun s hs hdue => ?_
  have hcarries := along_last
    ((output_stream_fidelity_iff _ (by decide) _ s hs).mpr (by simp [AllSteps, LogsAlike])) hs
  rw [CarriesDue, hdue] at hcarries
  exact hcarries

/-- `LOG_ERROR` loses `EPIPE`, and the message stays in the buffer; it leaves `EPIPE` behind another
error (`ENOBUFS`), and a message is lost that the socket may still take. -/
theorem logged_error_decides :
    (∃ s, run OutputRun.step (OutputRun.start (TcpConnection.new EPollPoller.empty 0 5 true true))
        [.sendInLoop [1] (.error .EPIPE .ENOENT)] = some s ∧ ¬ CarriesDue [] s ∧
        s.due = [] ∧ s.conn.outputBuffer.toQueue = [1]) ∧
      ∃ s, run OutputRun.step (OutputRun.start (TcpConnection.new EPollPoller.empty 0 5 true true))
        [.sendInLoop [1] (.error (.other 105) .EPIPE)] = some s ∧ ¬ CarriesDue [] s ∧
        s.due = [[1]] ∧ s.conn.outputBuffer.toQueue = [] :=
  ⟨exists_run_decide (by decide +kernel), exists_run_decide (by decide +kernel)⟩

end Muduo
