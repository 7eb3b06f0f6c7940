import Muduo.ConnectionDown
import Muduo.WriteInterest

/-!
# The two streams of a connection

What one call of the loop thread, whatever it is, does to the input and the output of the connection.

    bytes written ++ outputBuffer' = outputBuffer ++ bytes kept            (exec_output)
    inputBuffer' = inputBuffer ++ bytes read                               (exec_input)

* `Established`, the invariant of an open connection, is kept by every call that does not close or
  destroy it (`exec_established`).
* `::shutdown` is called on an open connection with nothing pending (`exec_shutdownWrite`).  What is handed
  to `sendInLoop` after it is dropped, or stays in the buffer when `LOG_ERROR` has changed `errno`.
-/

namespace Muduo

namespace ConnCall

/-- The result of `::write`, if the call comes to one. -/
def writeResult : ConnCall → WriteResult
  | .functor _ w | .event _ _ w | .user _ w => w

/-- The result of the `::readv` of `handleRead`. -/
def readResult : ConnCall → Option ReadvResult
  | .event .read r _ => some r
  | _ => none

/-- The bytes that the call reads. -/
def bytesRead (call : ConnCall) : List UInt8 := (call.readResult.map ReadvResult.bytes).getD []

/-- The call runs `connectDestroyed`. -/
def destroys : ConnCall → Bool
  | .functor .connectDestroyed _ => true
  | _ => false

end ConnCall

namespace TcpConnection

/-- The bytes that a call takes over: a message handed to `sendInLoop`, unless the connection is down or
the message is given up behind a failed direct `::write`. -/
def keeps (c : TcpConnection) : ConnCall → List UInt8
  | .functor (.sendInLoop data) w =>
    if c.stat = .kDisconnected ∨ c.directFailure w = true then [] else data
  | .user (.send data) w =>
    if c.stat ≠ .kConnected ∨ c.directFailure w = true then [] else data
  | _ => []

variable {c c' : TcpConnection} {es : List Effect} {call : ConnCall} {w : WriteResult}

/-! ## Calls that leave the streams alone -/

/-- Only the state and the channel differ. -/
structure SameBuffers (c c' : TcpConnection) : Prop where
  input : c'.inputBuffer = c.inputBuffer
  output : c'.outputBuffer = c.outputBuffer

theorem SameBuffers.refl (c : TcpConnection) : SameBuffers c c := ⟨rfl, rfl⟩

theorem sameBuffers_withChannel {f : Channel → EPollPoller → Option (EPollPoller × Channel)}
    (h : c.withChannel f = some c') : SameBuffers c c' := by
  obtain ⟨poller, channel, -, rfl⟩ := withChannel_eq_some.mp h
  exact ⟨rfl, rfl⟩

theorem sameBuffers_connectEstablished (h : c.connectEstablished = some (c', es)) :
    SameBuffers c c' := by
  simp only [connectEstablished, Option.bind_eq_bind, Option.bind_eq_some_iff, Option.some.injEq,
    Prod.mk.injEq] at h
  obtain ⟨c₁, hch, rfl, -⟩ := h
  have hsame := sameBuffers_withChannel hch
  exact ⟨hsame.input, hsame.output⟩

theorem sameBuffers_handleClose (h : c.handleClose = some (c', es)) : SameBuffers c c' := by
  simp only [handleClose, Option.bind_eq_bind, Option.bind_eq_some_iff, Option.some.injEq,
    Prod.mk.injEq] at h
  obtain ⟨c₁, hch, rfl, -⟩ := h
  have hsame := sameBuffers_withChannel hch
  exact ⟨hsame.input, hsame.output⟩

theorem sameBuffers_connectDestroyed (h : c.connectDestroyed = some (c', es)) : SameBuffers c c' := by
  simp only [connectDestroyed, Option.bind_eq_bind, Option.bind_eq_some_iff, Prod.exists,
    Option.some.injEq, Prod.mk.injEq] at h
  obtain ⟨c₁, es₁, hdown, c₂, hch, rfl, -⟩ := h
  have hremove := sameBuffers_withChannel hch
  simp only [downIfConnected] at hdown
  split at hdown
  · simp only [Option.bind_eq_bind, Option.bind_eq_some_iff, Option.some.injEq, Prod.mk.injEq] at hdown
    obtain ⟨c₃, hch', rfl, -⟩ := hdown
    have hdisable := sameBuffers_withChannel hch'
    exact ⟨hremove.input.trans hdisable.input, hremove.output.trans hdisable.output⟩
  · cases hdown
    exact hremove

/-! ## The input -/

theorem inputBuffer_watchOutput (h : c.watchOutput = some c') : c'.inputBuffer = c.inputBuffer := by
  unfold watchOutput at h
  split at h
  · exact (sameBuffers_withChannel h).input
  · cases h
    rfl

theorem inputBuffer_sendInLoop {data : List UInt8} (h : c.sendInLoop data w = some (c', es)) :
    c'.inputBuffer = c.inputBuffer := by
  by_cases hstat : c.stat = .kDisconnected
  · rw [sendInLoop, if_pos hstat] at h
    cases h
    rfl
  · rcases sendInLoop_cases hstat h with ⟨-, rfl, -⟩ | ⟨-, -, es', -, hq⟩
    · rfl
    · simp only [queueOutput, Option.bind_eq_bind, Option.bind_eq_some_iff, Option.some.injEq,
        Prod.mk.injEq] at hq
      obtain ⟨c₁, hwatch, rfl, -⟩ := hq
      have hinput := inputBuffer_watchOutput hwatch
      exact hinput

theorem inputBuffer_outputDrained (h : c.outputDrained = some (c', es)) :
    c'.inputBuffer = c.inputBuffer := by
  simp only [outputDrained, Option.bind_eq_bind, Option.bind_eq_some_iff] at h
  obtain ⟨c₁, hch, h⟩ := h
  have hsame := sameBuffers_withChannel hch
  split at h
  · simp only [Option.bind_eq_some_iff, Prod.exists, Option.some.injEq, Prod.mk.injEq] at h
    obtain ⟨c₂, es', hshut, rfl, -⟩ := h
    obtain ⟨rfl, -⟩ := shutdownInLoop_spec hshut
    exact hsame.input
  · cases h
    exact hsame.input

theorem inputBuffer_handleWrite (h : c.handleWrite w = some (c', es)) :
    c'.inputBuffer = c.inputBuffer := by
  unfold handleWrite at h
  split at h
  · cases w with
    | error e logged =>
      cases h
      rfl
    | count n =>
      simp only at h
      split at h
      · split at h
        · simp only [Option.bind_eq_bind, Option.bind_eq_some_iff, Prod.exists, Option.some.injEq,
            Prod.mk.injEq] at h
          obtain ⟨c₁, es', hd, rfl, -⟩ := h
          have hinput := inputBuffer_outputDrained hd
          exact hinput
        · cases h
          rfl
      · cases h
        rfl
  · cases h
    rfl

theorem inputBuffer_handleRead {r : ReadvResult} (h : c.handleRead r = some (c', es)) :
    c'.inputBuffer.toQueue = c.inputBuffer.toQueue ++ r.bytes := by
  simp only [handleRead, Option.bind_eq_bind, Option.bind_eq_some_iff, Prod.exists] at h
  obtain ⟨inputBuffer, n, hr, h⟩ := h
  obtain ⟨rfl, hqueue⟩ := ValidBuffer.readFd_spec hr
  rw [← hqueue]
  cases r with
  | error e =>
    cases h
    rfl
  | data bs =>
    cases bs with
    | nil =>
      have hsame := sameBuffers_handleClose h
      exact congrArg ValidBuffer.toQueue hsame.input
    | cons b bs =>
      cases h
      rfl

/-- **The input stream.**  A call adds what it reads, and only `handleRead` reads. -/
theorem exec_input (h : c.exec call = some (c', es)) :
    c'.inputBuffer.toQueue = c.inputBuffer.toQueue ++ call.bytesRead := by
  have hother : call.bytesRead = [] → c'.inputBuffer = c.inputBuffer →
      c'.inputBuffer.toQueue = c.inputBuffer.toQueue ++ call.bytesRead := by
    intro hbytes hinput
    rw [hbytes, hinput, List.append_nil]
  by_cases hread : ∃ r w, call = .event .read r w
  · obtain ⟨r, w, rfl⟩ := hread
    exact inputBuffer_handleRead h
  have hbytes : call.bytesRead = [] := by
    unfold ConnCall.bytesRead ConnCall.readResult
    split
    · exact absurd ⟨_, _, rfl⟩ hread
    · rfl
  apply hother hbytes
  cases executes_of_exec h with
  | skip => rfl
  | connectEstablished h => exact (sameBuffers_connectEstablished h).input
  | connectDestroyed h => exact (sameBuffers_connectDestroyed h).input
  | sendInLoop _ _ h => exact inputBuffer_sendInLoop h
  | shutdownInLoop h => rw [(shutdownInLoop_spec h).1]
  | shutdown _ h =>
    rw [(shutdownInLoop_spec h).1]
    rfl
  | forceClose => rfl
  | forceCloseInLoop _ h | close h => exact (sameBuffers_handleClose h).input
  | endOfStream | message | readError => exact absurd ⟨_, _, rfl⟩ hread
  | write h => exact inputBuffer_handleWrite h

/-! ## The output -/

/-- **The output stream.**  What a call writes and leaves in the buffer is what the buffer held and what
it takes over. -/
theorem exec_output (h : c.exec call = some (c', es)) :
    acceptedBytes es ++ c'.outputBuffer.toQueue = c.outputBuffer.toQueue ++ c.keeps call := by
  have hclose : ∀ {c₀ : TcpConnection}, c₀.outputBuffer = c.outputBuffer →
      c₀.handleClose = some (c', es) → c.keeps call = [] →
      acceptedBytes es ++ c'.outputBuffer.toQueue = c.outputBuffer.toQueue ++ c.keeps call := by
    intro c₀ hbuffer hclose hkeeps
    rw [(handleClose_eq_some hclose).2, (sameBuffers_handleClose hclose).output, hbuffer, hkeeps]
    simp [Effect.written]
  cases executes_of_exec h with
  | skip hskip =>
    have hkeeps : c.keeps call = [] := by
      unfold keeps
      split
      · exact if_pos (Or.inl (by simpa [skips] using hskip))
      · exact if_pos (Or.inl (by simpa [skips] using hskip))
      · rfl
    rw [hkeeps]
    simp
  | connectEstablished h =>
    rw [(connectEstablished_eq_some h).2, (sameBuffers_connectEstablished h).output]
    simp [keeps, Effect.written]
  | connectDestroyed h =>
    rw [(sameBuffers_connectDestroyed h).output]
    rcases connectDestroyed_eq_some h with ⟨-, -, rfl⟩ | ⟨-, -, rfl⟩
    · simp [keeps, Effect.written]
    · simp [keeps]
  | sendInLoop hstat hcall hsend =>
    rw [(sendInLoop_stream hstat hsend).1]
    congr 1
    rcases hcall with rfl | ⟨rfl, hconn⟩
    · simp [keeps, hstat]
    · simp [keeps, hconn]
  | shutdownInLoop h =>
    obtain ⟨rfl, hes⟩ := shutdownInLoop_spec h
    simp [hes, keeps]
  | shutdown _ h =>
    obtain ⟨rfl, hes⟩ := shutdownInLoop_spec h
    simp [hes, keeps, setState]
  | forceClose => simp [keeps, setState, Effect.written]
  | forceCloseInLoop _ h => exact hclose rfl h rfl
  | close h => exact hclose rfl h rfl
  | endOfStream inputBuffer h =>
    have hbuffer : ({ c with inputBuffer } : TcpConnection).outputBuffer = c.outputBuffer := rfl
    exact hclose hbuffer h rfl
  | message => simp [keeps, Effect.written]
  | readError => simp [keeps]
  | write h =>
    rw [(handleWrite_stream h).1]
    simp [keeps]

theorem acceptedBytes_directWrite_error (c : TcpConnection) (data : List UInt8)
    (e logged : Errno) : acceptedBytes (c.directWrite data (.error e logged)).effects = [] := by
  unfold directWrite
  split
  · rfl
  · rfl

/-- A failed `::write` has taken nothing. -/
theorem exec_writeError {e logged : Errno} (hw : call.writeResult = .error e logged)
    (h : c.exec call = some (c', es)) : acceptedBytes es = [] := by
  have hclose : ∀ {c₀ : TcpConnection}, c₀.handleClose = some (c', es) → acceptedBytes es = [] := by
    intro c₀ hclose
    rw [(handleClose_eq_some hclose).2]
    rfl
  cases executes_of_exec h with
  | skip | readError | forceClose | message => rfl
  | connectEstablished h =>
    rw [(connectEstablished_eq_some h).2]
    rfl
  | connectDestroyed h =>
    rcases connectDestroyed_eq_some h with ⟨-, -, rfl⟩ | ⟨-, -, rfl⟩
    · rfl
    · rfl
  | @sendInLoop _ data w _ _ hstat hcall hsend =>
    obtain rfl : w = .error e logged := by
      rcases hcall with rfl | ⟨rfl, -⟩
      · exact hw
      · exact hw
    have hdirect := c.acceptedBytes_directWrite_error data e logged
    rcases sendInLoop_cases hstat hsend with ⟨-, -, rfl⟩ | ⟨-, -, es', rfl, hq⟩
    · exact hdirect
    · rw [acceptedBytes_append, hdirect, (queueOutput_spec hq).2.2]
      rfl
  | shutdownInLoop h => exact (shutdownInLoop_spec h).2
  | shutdown _ h => exact (shutdownInLoop_spec h).2
  | forceCloseInLoop _ h | close h => exact hclose h
  | endOfStream _ h => exact hclose h
  | write h =>
    obtain rfl := hw
    unfold handleWrite at h
    split at h
    · cases h
      rfl
    · cases h
      rfl

/-! ## An open connection -/

theorem established_enableReading {fd : Nat} (h : Established fd c)
    (hch : c.withChannel Channel.enableReading = some c') : Established fd c' := by
  obtain ⟨poller, channel, hcall, rfl⟩ := withChannel_eq_some.mp hch
  have hev : c.channel.events ||| kReadEvent = c.channel.events := by
    rw [h.events]
    split
    · decide
    · decide
  obtain ⟨p', hup, hwatched, -⟩ := EPollPoller.updateChannel_watched h.watched
    (c.channel.events ||| kReadEvent) (by rw [hev, h.events]; split <;> decide)
  rw [Channel.enableReading, hup, Option.some.injEq, Prod.mk.injEq] at hcall
  obtain ⟨rfl, rfl⟩ := hcall
  exact ⟨h.live, h.fd_eq, hwatched, hev.trans h.events⟩

/-- **An open connection stays established** until it is closed or destroyed. -/
theorem exec_established {fd : Nat} (hc : Established fd c) (h : c.exec call = some (c', es))
    (hopen : c'.stat ≠ .kDisconnected) (hdestroy : ConnCall.destroys call = false) :
    Established fd c' := by
  cases executes_of_exec h with
  | skip => exact hc
  | connectEstablished h =>
    simp only [connectEstablished, Option.bind_eq_bind, Option.bind_eq_some_iff, Option.some.injEq,
      Prod.mk.injEq] at h
    obtain ⟨c₁, hch, rfl, -⟩ := h
    have hbefore : Established fd
        { c.setState .kConnected with channel := { c.channel with tied := true } } :=
      Established.of_eq (c := c.setState .kConnected) (hc.of_stat (by decide)) rfl rfl rfl rfl hc.watched
    exact established_enableReading hbefore hch
  | connectDestroyed => cases hdestroy
  | sendInLoop _ _ h => exact hc.sendInLoop h
  | shutdownInLoop h =>
    rw [(shutdownInLoop_spec h).1]
    exact hc
  | shutdown _ h =>
    rw [(shutdownInLoop_spec h).1]
    exact hc.of_stat (by decide)
  | forceClose => exact hc.of_stat (by decide)
  | forceCloseInLoop _ h | close h => exact absurd (handleClose_eq_some h).1 hopen
  | endOfStream _ h => exact absurd (handleClose_eq_some h).1 hopen
  | message | readError => exact hc.of_eq rfl rfl rfl rfl hc.watched
  | write h => exact hc.handleWrite h

/-! ## The end of the output -/

theorem idle_shutdownInLoop {fd : Nat} (hc : Established fd c) (h : c.shutdownInLoop = some (c', es))
    (hes : .shutdownWrite ∈ es) : c'.idle = true := by
  obtain ⟨rfl, -⟩ := shutdownInLoop_spec h
  rw [idle_iff]
  have hw : c'.channel.isWriting = false := by
    by_contra hw
    simp only [Bool.not_eq_false] at hw
    rw [shutdownInLoop, hw] at h
    cases h
    cases hes
  refine ⟨hw, ?_⟩
  by_contra hq
  rw [hc.isWriting_iff.mpr hq] at hw
  cases hw

theorem idle_handleWrite {fd : Nat} (hc : Established fd c) (h : c.handleWrite w = some (c', es))
    (hes : .shutdownWrite ∈ es) : c'.idle = true := by
  obtain ⟨hempty, out, hout, rfl⟩ := handleWrite_effects hc.isWriting_iff.mp h
  rcases List.mem_append.mp hes with hmem | hmem
  · cases hout _ hmem
  · split at hmem
    · next hdrained =>
      rw [idle_iff]
      exact ⟨hdrained.2.2, hempty hdrained.1⟩
    · cases hmem

/-- **`::shutdown` finds nothing pending** on an open connection. -/
theorem exec_shutdownWrite {fd : Nat} (hc : Established fd c) (h : c.exec call = some (c', es))
    (hes : .shutdownWrite ∈ es) : c'.idle = true := by
  have hnone : ∀ {l : List Effect}, (∀ e ∈ l, e.isOutput = true) → .shutdownWrite ∉ l :=
    fun hl hmem => by cases hl _ hmem
  have hclose : ∀ {c₀ : TcpConnection}, c₀.handleClose = some (c', es) → c'.idle = true := by
    intro c₀ hclose
    rw [(handleClose_eq_some hclose).2] at hes
    simp at hes
  cases executes_of_exec h with
  | skip | readError => cases hes
  | connectEstablished h =>
    rw [(connectEstablished_eq_some h).2] at hes
    simp at hes
  | connectDestroyed h =>
    rcases connectDestroyed_eq_some h with ⟨-, -, rfl⟩ | ⟨-, -, rfl⟩
    · simp at hes
    · cases hes
  | sendInLoop _ _ h => exact absurd hes (hnone (sendInLoop_effects h))
  | shutdownInLoop h => exact idle_shutdownInLoop hc h hes
  | shutdown _ h => exact idle_shutdownInLoop (hc.of_stat (by decide)) h hes
  | forceClose | message => simp at hes
  | forceCloseInLoop _ h | close h => exact hclose h
  | endOfStream _ h => exact hclose h
  | write h => exact idle_handleWrite hc h hes

end TcpConnection
end Muduo
