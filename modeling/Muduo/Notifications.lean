import Muduo.WriteInterest

/-!
# Write-complete and high-water-mark notifications

Both callbacks are set and the mark is any number.  In every run of the loop thread on a live
connection, with any messages and any results of `::write`:

    writeComplete queued        iff  the step has written and the output buffer is empty after it
    highWaterMark(len) queued   iff  the readable length was below the mark and is now len, not below
                                                                    (notifications_exact)

* `Announced c es c'`: what the effects `es` of one call must contain, given the output buffer before
  and after it (`Announced.loopStep`).
* Between two steps that queue `writeComplete` the buffer fills again, and only `sendInLoop` fills
  it, so the second of them is a `sendInLoop` or one lies in between.
-/

namespace Muduo

open Transition

/-! ## The functors queued -/

/-- The number of `writeComplete` functors queued. -/
def writeCompletes (es : List Effect) : Nat := es.count (.queueInLoop .writeComplete)

def Effect.highWaterMark? : Effect → Option Nat
  | .queueInLoop (.highWaterMark len) => some len
  | _ => none

/-- The arguments of the `highWaterMark` functors queued. -/
def highWaterMarks (es : List Effect) : List Nat := es.filterMap Effect.highWaterMark?

def Effect.isWrite : Effect → Bool
  | .write _ => true
  | _ => false

/-- A `::write` was made and returned a non-negative count. -/
def hasWritten (es : List Effect) : Bool := es.any Effect.isWrite

/-- What the effects of a call from `c` to `c'` announce: a drained buffer once, and the crossing of
the mark with the new length. -/
structure Announced (c : TcpConnection) (es : List Effect) (c' : TcpConnection) : Prop where
  writeComplete : writeCompletes es =
    if hasWritten es = true ∧ c'.outputBuffer.readableBytes = 0 then 1 else 0
  highWaterMark : highWaterMarks es =
    if c.outputBuffer.readableBytes < c.highWaterMark ∧
        c.highWaterMark ≤ c'.outputBuffer.readableBytes
      then [c'.outputBuffer.readableBytes] else []

/-- A call that writes nothing, queues neither functor and leaves the output alone. -/
structure Silent (c : TcpConnection) (es : List Effect) (c' : TcpConnection) : Prop where
  written : hasWritten es = false
  complete : writeCompletes es = 0
  mark : highWaterMarks es = []
  output : c'.outputBuffer = c.outputBuffer

/-- Both callbacks are set. -/
structure Notifies (mark : Nat) (c : TcpConnection) : Prop where
  writeComplete : c.writeCompleteCallback = true
  highWaterMark : c.highWaterMarkCallback = true
  mark : c.highWaterMark = mark

/-! ## The callbacks stay set -/

namespace Notifies

variable {mark : Nat} {c c' : TcpConnection} {es : List Effect}

theorem of_settings (h : Notifies mark c) (hs : c'.settings = c.settings) : Notifies mark c' := by
  simp only [TcpConnection.settings, Prod.mk.injEq] at hs
  obtain ⟨hcomplete, hhigh, hmark⟩ := hs
  exact ⟨hcomplete.trans h.writeComplete, hhigh.trans h.highWaterMark, hmark.trans h.mark⟩

theorem loopStep (h : Notifies mark c) (a : LoopStep) (hc : c.loopStep a = some (c', es)) :
    Notifies mark c' := by
  apply h.of_settings
  cases a with
  | sendInLoop data w => exact TcpConnection.settings_sendInLoop hc
  | handleRead r =>
    simp only [TcpConnection.loopStep] at hc
    split at hc
    · cases hc
    · next hr =>
      obtain ⟨inputBuffer, ⟨heof, -⟩ | ⟨-, -, rfl, -⟩ | ⟨-, -, rfl, -⟩⟩ :=
        TcpConnection.handleRead_cases hc
      · exact absurd heof hr
      · rfl
      · rfl
  | handleWrite w => exact TcpConnection.settings_handleWrite hc
  | shutdownInLoop => exact TcpConnection.settings_shutdownInLoop hc
  | shutdown inLoopThread =>
    simp only [TcpConnection.loopStep, TcpConnection.shutdown] at hc
    split at hc
    · cases inLoopThread
      · cases hc
        rfl
      · have hsettings := TcpConnection.settings_shutdownInLoop hc
        exact hsettings
    · cases hc
      rfl
  | forceClose =>
    simp only [TcpConnection.loopStep, TcpConnection.forceClose] at hc
    split at hc
    · cases hc
      rfl
    · cases hc
      rfl
  | otherChannels poller =>
    simp only [TcpConnection.loopStep] at hc
    split at hc
    · cases hc
      rfl
    · cases hc

end Notifies

/-! ## What one call announces -/

@[simp] theorem writeCompletes_append (es es' : List Effect) :
    writeCompletes (es ++ es') = writeCompletes es + writeCompletes es' := List.count_append

@[simp] theorem highWaterMarks_append (es es' : List Effect) :
    highWaterMarks (es ++ es') = highWaterMarks es ++ highWaterMarks es' := List.filterMap_append

namespace Announced

variable {fd mark : Nat} {c c' : TcpConnection} {es : List Effect} {data : List UInt8}
  {w : WriteResult}

/-- A silent call announces nothing. -/
theorem of_silent (h : Silent c es c') : Announced c es c' := by
  constructor
  · rw [h.complete, h.written]
    rfl
  · rw [h.mark, h.output, if_neg]
    omega

/-- The direct `::write` announces a message written whole. -/
theorem directWrite_writeCompletes (h : c.writeCompleteCallback = true) (data : List UInt8)
    (w : WriteResult) :
    writeCompletes (c.directWrite data w).effects =
      (if hasWritten (c.directWrite data w).effects = true ∧
        data.length ≤ (c.directWrite data w).nwrote then 1 else 0) ∧
    (hasWritten (c.directWrite data w).effects = true → c.outputBuffer.readableBytes = 0) ∧
    highWaterMarks (c.directWrite data w).effects = [] := by
  cases hi : c.idle
  · rw [TcpConnection.directWrite_of_not_idle hi]
    exact ⟨rfl, by simp [hasWritten], rfl⟩
  · have hzero : c.outputBuffer.readableBytes = 0 := by
      rw [ValidBuffer.readableBytes_eq_zero]
      exact ((c.idle_iff).mp hi).2
    cases w with
    | error e =>
      simp only [TcpConnection.directWrite, hi, if_true]
      exact ⟨rfl, by simp [hasWritten], rfl⟩
    | count n =>
      simp only [TcpConnection.directWrite, hi, h, if_true, Bool.and_true, beq_iff_eq]
      by_cases hrest : data.length - (data.take n).length = 0
      · rw [if_pos hrest]
        refine ⟨?_, fun _ => hzero, rfl⟩
        rw [if_pos ⟨rfl, by omega⟩]
        rfl
      · rw [if_neg hrest]
        refine ⟨?_, fun _ => hzero, rfl⟩
        rw [if_neg (by rintro ⟨-, hle⟩; omega)]
        rfl

/-- What `queueOutput` adds, and that it announces the crossing of the mark. -/
theorem queueOutput_effects {rest : List UInt8} (h : c.highWaterMarkCallback = true)
    (hq : c.queueOutput rest = some (c', es)) :
    c'.outputBuffer.readableBytes = c.outputBuffer.readableBytes + rest.length ∧
      es = if c.outputBuffer.readableBytes < c.highWaterMark ∧
          c.highWaterMark ≤ c'.outputBuffer.readableBytes
        then [.queueInLoop (.highWaterMark c'.outputBuffer.readableBytes)] else [] := by
  have hlen : c'.outputBuffer.readableBytes = c.outputBuffer.readableBytes + rest.length := by
    rw [← ValidBuffer.length_toQueue, (TcpConnection.queueOutput_spec hq).1, List.length_append,
      ValidBuffer.length_toQueue]
  refine ⟨hlen, ?_⟩
  simp only [TcpConnection.queueOutput, Option.bind_eq_bind, Option.bind_eq_some_iff,
    Option.some.injEq, Prod.mk.injEq] at hq
  obtain ⟨c₁, -, rfl, rfl⟩ := hq
  rw [hlen]
  simp only [h, Bool.and_true, Bool.and_eq_true, decide_eq_true_eq, ge_iff_le, and_comm]

theorem sendInLoop (h : Established fd c) (hn : Notifies mark c)
    (hs : c.sendInLoop data w = some (c', es)) : Announced c es c' := by
  obtain ⟨hcomplete, hempty, hnone⟩ := directWrite_writeCompletes hn.writeComplete data w
  rcases TcpConnection.sendInLoop_cases h.live hs with ⟨hdone, rfl, rfl⟩ | ⟨-, hlt, es', rfl, hq⟩
  · constructor
    · rw [hcomplete]
      congr 1
      rw [eq_iff_iff, and_congr_right_iff]
      intro hwrote
      refine iff_of_true ?_ (hempty hwrote)
      rcases hdone with hfail | hle
      · rw [((c'.directWrite_spec data w).2.2 hfail)] at hwrote
        cases hwrote
      · exact hle
    · rw [hnone, if_neg]
      omega
  · have hrest : 0 < (data.drop (c.directWrite data w).nwrote).length := by
      rw [List.length_drop]
      omega
    obtain ⟨hlen, rfl⟩ := queueOutput_effects hn.highWaterMark hq
    constructor
    · rw [writeCompletes_append, hcomplete, if_neg (by omega), Nat.zero_add]
      rw [if_neg (c := hasWritten _ = true ∧ _) (by omega)]
      split
      · rfl
      · rfl
    · rw [highWaterMarks_append, hnone, List.nil_append]
      split
      · rfl
      · rfl

theorem outputDrained (hc : c.writeCompleteCallback = true)
    (hd : c.outputDrained = some (c', es)) :
    writeCompletes es = 1 ∧ highWaterMarks es = [] ∧ c'.outputBuffer = c.outputBuffer := by
  obtain ⟨hout, -, -⟩ := TcpConnection.outputDrained_spec hd
  refine (and_assoc.mp ⟨?_, hout⟩)
  simp only [TcpConnection.outputDrained, Option.bind_eq_bind, Option.bind_eq_some_iff] at hd
  obtain ⟨c₁, hch, hd⟩ := hd
  obtain ⟨poller, channel, -, rfl⟩ := TcpConnection.withChannel_eq_some.mp hch
  simp only [hc, if_true] at hd
  split at hd
  · simp only [Option.bind_eq_some_iff, Prod.exists, Option.some.injEq, Prod.mk.injEq] at hd
    obtain ⟨c₂, es', hs, -, rfl⟩ := hd
    unfold TcpConnection.shutdownInLoop at hs
    split at hs
    · cases hs
      exact ⟨rfl, rfl⟩
    · cases hs
      exact ⟨rfl, rfl⟩
  · simp only [Option.some.injEq, Prod.mk.injEq] at hd
    rw [← hd.2]
    exact ⟨rfl, rfl⟩

/-- Draining never reaches the mark from below. -/
theorem handleWrite (h : Established fd c) (hn : Notifies mark c)
    (hs : c.handleWrite w = some (c', es)) : Announced c es c' := by
  unfold TcpConnection.handleWrite at hs
  split at hs
  · next hw =>
    have hpending : c.outputBuffer.readableBytes ≠ 0 := by
      rw [ne_eq, ValidBuffer.readableBytes_eq_zero]
      exact h.isWriting_iff.mp hw
    cases w with
    | error e =>
      cases hs
      exact of_silent ⟨rfl, rfl, rfl, rfl⟩
    | count n =>
      simp only at hs
      have hle : ∀ k, (c.outputBuffer.retrieve k).readableBytes ≤ c.outputBuffer.readableBytes := by
        intro k
        rw [← ValidBuffer.length_toQueue, ← ValidBuffer.length_toQueue, ValidBuffer.toQueue_retrieve,
          List.length_drop]
        exact Nat.sub_le _ _
      split at hs
      · have hle' := hle (c.outputBuffer.toQueue.take n).length
        split at hs
        · next hzero =>
          simp only [Option.bind_eq_bind, Option.bind_eq_some_iff, Prod.exists, Option.some.injEq,
            Prod.mk.injEq] at hs
          obtain ⟨c₁, es', hd, rfl, rfl⟩ := hs
          obtain ⟨hcomplete, hmark, hout⟩ := outputDrained (hn.of_settings (by rfl)).writeComplete hd
          have hempty : c₁.outputBuffer.readableBytes = 0 := by
            rw [hout]
            exact hzero
          constructor
          · rw [if_pos ⟨rfl, hempty⟩, ← hcomplete]
            rfl
          · rw [if_neg (by omega), ← hmark]
            rfl
        · next hrest =>
          cases hs
          constructor
          · rw [if_neg fun hc => hrest hc.2]
            rfl
          · rw [if_neg fun hc => absurd (Nat.le_trans hc.2 hle') (Nat.not_le.mpr hc.1)]
            rfl
      · cases hs
        constructor
        · rw [if_neg fun hc => hpending hc.2]
          rfl
        · rw [if_neg (by omega)]
          rfl
  · cases hs
    exact of_silent ⟨rfl, rfl, rfl, rfl⟩

end Announced

/-! ## The other steps -/

def LoopStep.isSend : LoopStep → Bool
  | .sendInLoop _ _ => true
  | _ => false

def LoopStep.isHandleWrite : LoopStep → Bool
  | .handleWrite _ => true
  | _ => false

theorem shutdownInLoop_silent {c c' : TcpConnection} {es : List Effect}
    (h : c.shutdownInLoop = some (c', es)) : Silent c es c' := by
  unfold TcpConnection.shutdownInLoop at h
  split at h
  · cases h
    exact ⟨rfl, rfl, rfl, rfl⟩
  · cases h
    exact ⟨rfl, rfl, rfl, rfl⟩

theorem loopStep_silent {c c' : TcpConnection} {es : List Effect} {a : LoopStep}
    (hsend : a.isSend = false) (hwrite : a.isHandleWrite = false)
    (h : c.loopStep a = some (c', es)) : Silent c es c' := by
  cases a with
  | sendInLoop data w => cases hsend
  | handleWrite w => cases hwrite
  | handleRead r =>
    simp only [TcpConnection.loopStep] at h
    split at h
    · cases h
    · next hr =>
      obtain ⟨inputBuffer, ⟨heof, -⟩ | ⟨-, -, rfl, rfl⟩ | ⟨-, -, rfl, rfl⟩⟩ :=
        TcpConnection.handleRead_cases h
      · exact absurd heof hr
      · exact ⟨rfl, rfl, rfl, rfl⟩
      · exact ⟨rfl, rfl, rfl, rfl⟩
  | shutdownInLoop => exact shutdownInLoop_silent h
  | shutdown inLoopThread =>
    simp only [TcpConnection.loopStep, TcpConnection.shutdown] at h
    split at h
    · cases inLoopThread
      · cases h
        exact ⟨rfl, rfl, rfl, rfl⟩
      · have hsilent := shutdownInLoop_silent h
        exact ⟨hsilent.written, hsilent.complete, hsilent.mark, hsilent.output⟩
    · cases h
      exact ⟨rfl, rfl, rfl, rfl⟩
  | forceClose =>
    simp only [TcpConnection.loopStep, TcpConnection.forceClose] at h
    split at h
    · cases h
      exact ⟨rfl, rfl, rfl, rfl⟩
    · cases h
      exact ⟨rfl, rfl, rfl, rfl⟩
  | otherChannels poller =>
    simp only [TcpConnection.loopStep] at h
    split at h
    · cases h
      exact ⟨rfl, rfl, rfl, rfl⟩
    · cases h

/-- **One step** announces exactly what it should. -/
theorem Announced.loopStep {fd mark : Nat} {c c' : TcpConnection} {es : List Effect}
    (h : Established fd c) (hn : Notifies mark c) (a : LoopStep)
    (hs : c.loopStep a = some (c', es)) : Announced c es c' := by
  cases a with
  | sendInLoop data w => exact sendInLoop h hn hs
  | handleWrite w => exact handleWrite h hn hs
  | handleRead | shutdownInLoop | shutdown | forceClose | otherChannels =>
    exact of_silent (loopStep_silent rfl rfl hs)

/-- With nothing to drain, only `sendInLoop` writes. -/
theorem drained_loopStep {fd : Nat} {c c' : TcpConnection} {es : List Effect} {a : LoopStep}
    (h : Established fd c) (hdrained : c.outputBuffer.readableBytes = 0) (ha : a.isSend = false)
    (hs : c.loopStep a = some (c', es)) :
    writeCompletes es = 0 ∧ c'.outputBuffer.readableBytes = 0 := by
  by_cases hwrite : a.isHandleWrite = false
  · have hsilent := loopStep_silent ha hwrite hs
    refine ⟨hsilent.complete, ?_⟩
    rw [hsilent.output]
    exact hdrained
  · cases a with
    | handleWrite w =>
      have hnot : ¬ c.channel.isWriting = true := by
        rw [h.isWriting_iff]
        exact not_not.mpr ((ValidBuffer.readableBytes_eq_zero _).mp hdrained)
      simp only [TcpConnection.loopStep, TcpConnection.handleWrite, if_neg hnot] at hs
      cases hs
      exact ⟨rfl, hdrained⟩
    | sendInLoop | handleRead | shutdownInLoop | shutdown | forceClose | otherChannels =>
      exact absurd rfl hwrite

/-! ## Whole runs -/

namespace OutputRun

/-- The step `a` queues `writeComplete`. -/
def Completes (s : OutputRun) (a : LoopStep) : Prop :=
  ∃ c' es, s.conn.loopStep a = some (c', es) ∧ writeCompletes es ≠ 0

/-- What the step `a` announces is exact, and `writeComplete` comes only when `::write` has taken all
that was kept. -/
def NotifiedExactly (mark : Nat) (s : OutputRun) (a : LoopStep) : Prop :=
  ∀ c' es, s.conn.loopStep a = some (c', es) →
    s.conn.highWaterMark = mark ∧ Announced s.conn es c' ∧
      (writeCompletes es ≠ 0 → acceptedBytes (s.effects ++ es) = (s.kept ++ s.keeps a).flatten)

/-- The invariant. -/
structure Notifying (fd mark : Nat) (s : OutputRun) : Prop where
  established : Established fd s.conn
  notifies : Notifies mark s.conn
  faithful : Faithful [] s

variable {fd mark : Nat} {s s' : OutputRun} {a : LoopStep}

theorem notifying_step (h : Notifying fd mark s) (hs : s.step a = some s') :
    Notifying fd mark s' := by
  have hfaithful := faithful_step s a s' h.faithful hs
  obtain ⟨⟨c', es⟩, hcall, rfl⟩ := Option.map_eq_some_iff.mp hs
  exact ⟨h.established.loopStep a hcall, h.notifies.loopStep a hcall, hfaithful⟩

theorem notifiedExactly (h : Notifying fd mark s) (a : LoopStep) : NotifiedExactly mark s a := by
  intro c' es hcall
  have hannounced := Announced.loopStep h.established h.notifies a hcall
  refine ⟨h.notifies.mark, hannounced, fun hcomplete => ?_⟩
  have hdrained : c'.outputBuffer.readableBytes = 0 := by
    by_contra hne
    apply hcomplete
    rw [hannounced.writeComplete]
    exact if_neg fun hc => hne hc.2
  have hstep : s.step a = some ⟨c', s.effects ++ es, s.kept ++ s.keeps a, s.due ++ s.owes a⟩ := by
    unfold step
    rw [hcall]
    rfl
  have hstream := (faithful_step s a _ h.faithful hstep).stream
  rw [(ValidBuffer.readableBytes_eq_zero _).mp hdrained, List.append_nil] at hstream
  exact hstream

/-- After a step that queued `writeComplete`, and until the next `sendInLoop`, nothing is pending. -/
theorem drained_run {as : List LoopStep} {t : OutputRun} (h : Notifying fd mark s)
    (hdrained : s.conn.outputBuffer.readableBytes = 0) (has : ∀ a ∈ as, a.isSend = false)
    (hrun : run step s as = some t) :
    Notifying fd mark t ∧ t.conn.outputBuffer.readableBytes = 0 := by
  have hstep : ∀ (s : OutputRun) (a : LoopStep) (s' : OutputRun),
      (Notifying fd mark s ∧ s.conn.outputBuffer.readableBytes = 0) → a.isSend = false →
      s.step a = some s' → Notifying fd mark s' ∧ s'.conn.outputBuffer.readableBytes = 0 := by
    rintro s a s' ⟨hn, hd⟩ ha hs
    refine ⟨notifying_step hn hs, ?_⟩
    obtain ⟨⟨c', es⟩, hcall, rfl⟩ := Option.map_eq_some_iff.mp hs
    exact (drained_loopStep hn.established hd ha hcall).2
  exact run_inv_of_allSteps hstep ⟨h, hdrained⟩ (allSteps_of_forall has) hrun

theorem Completes.drained (h : Notifying fd mark s) (hc : s.Completes a) (hs : s.step a = some s') :
    s'.conn.outputBuffer.readableBytes = 0 := by
  obtain ⟨c', es, hcall, hcomplete⟩ := hc
  have hannounced := Announced.loopStep h.established h.notifies a hcall
  unfold step at hs
  rw [hcall] at hs
  cases hs
  by_contra hne
  apply hcomplete
  rw [hannounced.writeComplete]
  exact if_neg fun hc => hne hc.2

end OutputRun

/-- The mark is a field that no function of the life cycle reads. -/
theorem connectEstablished_highWaterMark (c : TcpConnection) (mark : Nat) :
    TcpConnection.connectEstablished { c with highWaterMark := mark } =
      c.connectEstablished.map fun (c', es) => ({ c' with highWaterMark := mark }, es) := by
  simp only [TcpConnection.connectEstablished, TcpConnection.withChannel, TcpConnection.setState,
    Option.bind_eq_bind, Option.bind_assoc, Option.map_bind]
  rfl

theorem notifying_start {p : EPollPoller} {addr fd mark : Nat} {c : TcpConnection}
    {es : List Effect}
    (hc : TcpConnection.connectEstablished
      { TcpConnection.new p addr fd true true with highWaterMark := mark } = some (c, es)) :
    OutputRun.Notifying fd mark (OutputRun.start c) := by
  rw [connectEstablished_highWaterMark] at hc
  obtain ⟨⟨c₀, es₀⟩, h₀, hc⟩ := Option.map_eq_some_iff.mp hc
  have hestablished := established_connectEstablished h₀
  simp only [TcpConnection.connectEstablished, Option.bind_eq_bind, Option.bind_eq_some_iff,
    Option.some.injEq, Prod.mk.injEq] at h₀
  obtain ⟨c₁, hch, rfl, -⟩ := h₀
  obtain ⟨poller, channel, -, rfl⟩ := TcpConnection.withChannel_eq_some.mp hch
  cases hc
  refine ⟨?_, ⟨rfl, rfl, rfl⟩, ?_⟩
  · exact ⟨hestablished.live, hestablished.fd_eq, hestablished.watched, hestablished.events⟩
  · have hfaithful := faithful_start _ hestablished.live
    refine ⟨hfaithful.live, ?_⟩
    exact ValidBuffer.toQueue_new kInitialSize

/-- **Notifications are exact.**  On a connection with both callbacks set and any mark, every step
queues `writeComplete`, and once, iff it has written and left the output buffer empty, and then
`::write` has taken every byte kept; it queues `highWaterMark` iff it takes the readable length
from below the mark to the mark or beyond, with the new length.  Of two steps that queue
`writeComplete` the second is a `sendInLoop`, or there is one in between. -/
theorem notifications_exact (p : EPollPoller) (addr fd mark : Nat) (c : TcpConnection)
    (es : List Effect)
    (hc : TcpConnection.connectEstablished
      { TcpConnection.new p addr fd true true with highWaterMark := mark } = some (c, es))
    (steps : List LoopStep) :
    AllSteps OutputRun.step (OutputRun.NotifiedExactly mark) (OutputRun.start c) steps ∧
    ∀ before a between b after s₁ s₂ s₃,
      steps = before ++ a :: (between ++ b :: after) →
      run OutputRun.step (OutputRun.start c) before = some s₁ → s₁.Completes a →
      s₁.step a = some s₂ → run OutputRun.step s₂ between = some s₃ → s₃.Completes b →
      b.isSend = true ∨ ∃ m ∈ between, m.isSend = true := by
  have hstart : OutputRun.Notifying fd mark (OutputRun.start c) := notifying_start hc
  refine ⟨?_, ?_⟩
  · exact allSteps_inv (fun _ a h => OutputRun.notifiedExactly h a)
      (fun _ _ _ => OutputRun.notifying_step) hstart
  · intro before a between b after s₁ s₂ s₃ _ h₁ ha h₂ h₃ hb
    by_contra hno
    rw [not_or, not_exists] at hno
    obtain ⟨hbsend, hbetween⟩ := hno
    have hn₁ := run_inv (fun _ _ _ => OutputRun.notifying_step) hstart h₁
    have hn₂ := OutputRun.notifying_step hn₁ h₂
    obtain ⟨hn₃, hdrained⟩ := OutputRun.drained_run hn₂ (ha.drained hn₁ h₂)
      (fun m hm => Bool.eq_false_iff.mpr fun hsend => hbetween m ⟨hm, hsend⟩) h₃
    obtain ⟨c', es', hcall, hcomplete⟩ := hb
    exact hcomplete
      (drained_loopStep hn₃.established hdrained (Bool.eq_false_iff.mpr hbsend) hcall).1

/-- A message written whole, one that crosses the mark of 2 and is drained in two parts. -/
theorem notifications_exact_run :
    ∃ c es s, TcpConnection.connectEstablished
        { TcpConnection.new EPollPoller.empty 0 5 true true with highWaterMark := 2 } =
          some (c, es) ∧
      run OutputRun.step (OutputRun.start c) [.sendInLoop [1] (.count 1),
        .sendInLoop [2, 3, 4] (.count 1), .handleWrite (.count 1), .handleWrite (.count 9)] = some s ∧
      AllSteps OutputRun.step (OutputRun.NotifiedExactly 2) (OutputRun.start c)
        [.sendInLoop [1] (.count 1), .sendInLoop [2, 3, 4] (.count 1), .handleWrite (.count 1),
          .handleWrite (.count 9)] ∧
      s.effects = [.write [1], .queueInLoop .writeComplete, .write [2],
        .queueInLoop (.highWaterMark 2), .write [3], .write [4], .queueInLoop .writeComplete] := by
  have hrun : ((TcpConnection.connectEstablished
      { TcpConnection.new EPollPoller.empty 0 5 true true with highWaterMark := 2 }).bind
        fun r => (run OutputRun.step (OutputRun.start r.1) [.sendInLoop [1] (.count 1),
          .sendInLoop [2, 3, 4] (.count 1), .handleWrite (.count 1), .handleWrite (.count 9)]).map
            OutputRun.effects) =
      some [.write [1], .queueInLoop .writeComplete, .write [2], .queueInLoop (.highWaterMark 2),
        .write [3], .write [4], .queueInLoop .writeComplete] := by
    decide +kernel
  obtain ⟨⟨c, es⟩, hc, hrun⟩ := Option.bind_eq_some_iff.mp hrun
  obtain ⟨s, hs, heffects⟩ := Option.map_eq_some_iff.mp hrun
  exact ⟨c, es, s, hc, hs, (notifications_exact EPollPoller.empty 0 5 2 c es hc _).1, heffects⟩

end Muduo
