import Muduo.EndToEnd

/-!
# Every byte of the stream is delivered

Between two open connections no byte gets stuck: as long as the receiver lacks a byte, the kernel watches
a descriptor for the event that moves one, and the callback of that event moves it.

* `transfers i`: a `handleWrite` of side `i` that writes, or a `handleRead` of the other side that reads.
* `distance i`: what the stream still has to move; a byte in the buffer has to be written and read.
* Once the sender has called `::shutdown` the stream carries what had been kept by then
  (`Endpoint.carried`); what is kept after it stays in the buffer.

    received ≠ carried  →  some transfer is watched for and can be made
    transfers made + distance after  ≤  distance before, if nothing new is kept     (delivery_bounded)
-/

namespace Muduo

open Transition

namespace TcpConnection

variable {c c' : TcpConnection} {es : List Effect} {n : Nat}

/-- What `handleWrite` writes. -/
theorem acceptedBytes_handleWrite (hw : c.channel.isWriting = true)
    (h : c.handleWrite (.count n) = some (c', es)) :
    acceptedBytes es = c.outputBuffer.toQueue.take n := by
  unfold handleWrite at h
  rw [if_pos hw] at h
  simp only at h
  split at h
  · split at h
    · simp only [Option.bind_eq_bind, Option.bind_eq_some_iff, Prod.exists, Option.some.injEq,
        Prod.mk.injEq] at h
      obtain ⟨c₁, es', hd, rfl, rfl⟩ := h
      rw [acceptedBytes_cons, (outputDrained_spec hd).2.2, List.append_nil]
      rfl
    · cases h
      simp [Effect.written]
  · cases h
    simp [Effect.written]

/-- The poller does not abort under an open connection that writes. -/
theorem handleWrite_isSome {fd : Nat} (hc : Established fd c) :
    (c.handleWrite (.count n)).isSome := by
  have hdrained : ∀ len, ({ c with outputBuffer := c.outputBuffer.retrieve len }.outputDrained).isSome := by
    intro len
    have hch : ∃ c₁, withChannel { c with outputBuffer := c.outputBuffer.retrieve len }
        Channel.disableWriting = some c₁ := by
      have hev : c.channel.events &&& ~~~kWriteEvent = kReadEvent := by
        rw [hc.events]
        split
        · decide
        · decide
      obtain ⟨p', hup, -, -⟩ := EPollPoller.updateChannel_watched hc.watched
        (c.channel.events &&& ~~~kWriteEvent) (by rw [hev]; decide)
      exact ⟨_, withChannel_eq_some.mpr ⟨p', _, hup, rfl⟩⟩
    obtain ⟨c₁, hch⟩ := hch
    simp only [outputDrained, Option.bind_eq_bind, hch, Option.bind_some]
    split
    · unfold shutdownInLoop
      split
      · rfl
      · rfl
    · rfl
  unfold handleWrite
  split
  · simp only
    split
    · split
      · obtain ⟨⟨c₁, es⟩, hd⟩ := Option.isSome_iff_exists.mp (hdrained (c.outputBuffer.toQueue.take n).length)
        simp only [Option.bind_eq_bind, hd, Option.bind_some, Option.isSome_some]
      · rfl
    · rfl
  · rfl

/-- There is always room for a byte. -/
theorem handleRead_isSome (c : TcpConnection) (b : UInt8) : (c.handleRead (.data [b])).isSome := by
  have hroom : ([b] : List UInt8).length ≤ c.inputBuffer.1.iov.sum := by
    unfold Buffer.iov Buffer.sizeofExtrabuf
    split
    · simp
    · next hge =>
      simp only [List.length_singleton, List.sum_cons, List.sum_nil]
      omega
  obtain ⟨b', hread, -, -⟩ := Buffer.readFd_spec c.inputBuffer.2 [b] hroom
  unfold handleRead ValidBuffer.readFd
  split
  · next hnone =>
    rw [hread] at hnone
    cases hnone
  · next heq =>
    rw [hread] at heq
    cases heq
    rfl

end TcpConnection

namespace EndToEnd

/-- The action is a callback that moves bytes of the stream that side `i` writes. -/
def transfers (i : Bool) (s : EndToEnd) : EndToEndAction → Bool
  | .call j (.event .write _ (.count n)) =>
    j == i && (s.ends i).conn.channel.isWriting && !(s.ends i).output.isEmpty && decide (0 < n)
  | .call j (.event .read (.data bs) _) => j == (!i) && !bs.isEmpty
  | _ => false

/-- The kernel watches the descriptor of the connection for the event. -/
def watches (c : TcpConnection) (event : EventMask) : Bool :=
  (c.poller.interest c.channel.fd).any fun e => EventMask.has e.events event

/-- The action is a callback for an event that the kernel watches for. -/
def heard (s : EndToEnd) : EndToEndAction → Bool
  | .call i (.event .write _ _) => watches (s.ends i).conn EPOLLOUT
  | .call i (.event .read _ _) => watches (s.ends i).conn EPOLLIN
  | _ => false

/-- What is left to do for the bytes that the stream of side `i` carries: two moves for a byte in its
buffer, if it can still be written, and one for a byte in flight. -/
def distance (i : Bool) (s : EndToEnd) : Nat :=
  (if (s.ends i).shut then 0 else 2 * (s.ends i).output.length) + (s.pipes i).inFlight.length

/-- The action does not hand a new message to side `i`. -/
def Quiet (i : Bool) (s : EndToEnd) (a : EndToEndAction) : Prop :=
  ∀ call, a = .call i call → (s.ends i).conn.keeps call = []

/-! ## Every transfer comes nearer -/

variable {s s' : EndToEnd} {i : Bool}

/-- A call of the side that writes the stream. -/
theorem distance_called {conn : TcpConnection} {call : ConnCall} {es : List Effect} (h : Joined s)
    (hpossible : s.possible i call = true) (hexec : (s.ends i).conn.exec call = some (conn, es))
    (hquiet : (s.ends i).conn.keeps call = []) :
    distance i (s.called i call conn es) + (acceptedBytes es).length ≤ distance i s := by
  have houtput := congrArg List.length (TcpConnection.exec_output hexec)
  have hself : (s.called i call conn es).ends i = (s.ends i).after call conn es :=
    Function.update_self _ _ _
  have hpipe : ((s.called i call conn es).pipes i).inFlight =
      (s.pipes i).inFlight ++ acceptedBytes es := by
    have : (s.called i call conn es).pipes i = written (s.pipes i) es := if_pos rfl
    rw [this]
    unfold written
    split
    · rfl
    · rfl
  rw [hquiet, List.append_nil, List.length_append] at houtput
  simp only [distance, hself, hpipe, List.length_append, Endpoint.output, Endpoint.after]
  cases hshut : (s.ends i).shut
  · -- no more than the buffer lost, whether the stream ends now or not
    simp only [Bool.false_or, Bool.false_eq_true, if_false]
    split
    · omega
    · omega
  · have hnone := accepted_of_fin hexec (Bool.and_eq_true_iff.mp hpossible).1 (h.shut i hshut).1
    simp [hnone]

/-- A call of the side that reads it. -/
theorem distance_called_other (conn : TcpConnection) {call : ConnCall} (es : List Effect)
    (hreads : reads (s.pipes i) call.readResult = true) :
    distance i (s.called (!i) call conn es) + call.bytesRead.length = distance i s := by
  have hother : (s.called (!i) call conn es).ends i = s.ends i := Function.update_of_ne (by simp) _ _
  have hpipe : (s.called (!i) call conn es).pipes i = (s.pipes i).pull call.bytesRead.length :=
    if_neg (by simp)
  have hle := (prefix_of_reads hreads).length_le
  simp only [distance, hother, hpipe, Pipe.pull, List.length_drop]
  omega

/-- A transfer of the writer writes. -/
theorem accepted_pos {conn : TcpConnection} {call : ConnCall} {es : List Effect}
    (ht : transfers i s (.call i call) = true)
    (hexec : (s.ends i).conn.exec call = some (conn, es)) : 0 < (acceptedBytes es).length := by
  unfold transfers at ht
  split at ht
  · next j r n heq =>
    cases heq
    simp only [Bool.and_eq_true, Bool.not_eq_true', List.isEmpty_eq_false_iff, decide_eq_true_eq] at ht
    obtain ⟨⟨⟨-, hw⟩, houtput⟩, hn⟩ := ht
    rw [TcpConnection.acceptedBytes_handleWrite hw hexec, List.length_take]
    have := List.length_pos_of_ne_nil houtput
    unfold Endpoint.output at this
    omega
  · next heq =>
    cases heq
    simp at ht
  · cases ht

/-- A transfer of the reader reads. -/
theorem bytesRead_pos {call : ConnCall} (ht : transfers i s (.call (!i) call) = true) :
    0 < call.bytesRead.length := by
  unfold transfers at ht
  split at ht
  · next heq =>
    cases heq
    simp at ht
  · next bs w heq =>
    cases heq
    simp only [Bool.and_eq_true, Bool.not_eq_true', List.isEmpty_eq_false_iff] at ht
    exact List.length_pos_of_ne_nil ht.2
  · cases ht

/-- A side whose buffer stays as it is. -/
theorem distance_setEnd {j : Bool} {e : Endpoint} (he : e.output = (s.ends j).output)
    (hshut : e.shut = (s.ends j).shut) : distance i (s.setEnd j e) = distance i s := by
  have hends : ((s.setEnd j e).ends i).output = (s.ends i).output ∧
      ((s.setEnd j e).ends i).shut = (s.ends i).shut := by
    by_cases hj : i = j
    · subst hj
      have hself : (s.setEnd i e).ends i = e := Function.update_self _ _ _
      rw [hself]
      exact ⟨he, hshut⟩
    · have hother : (s.setEnd j e).ends i = s.ends i := Function.update_of_ne hj _ _
      rw [hother]
      exact ⟨rfl, rfl⟩
  unfold distance
  rw [hends.1, hends.2]
  rfl

/-- A call of either side. -/
theorem transfers_called {j : Bool} {call : ConnCall} {conn : TcpConnection} {es : List Effect}
    (h : Joined s) (hquiet : Quiet i s (.call j call)) (hpossible : s.possible j call = true)
    (hexec : (s.ends j).conn.exec call = some (conn, es)) :
    (transfers i s (.call j call)).toNat + distance i (s.called j call conn es) ≤ distance i s := by
  rcases Bool.eq_or_eq_not j i with rfl | rfl
  · -- what the side writes
    have hdist := distance_called h hpossible hexec (hquiet call rfl)
    cases ht : transfers j s (.call j call)
    · simp only [Bool.toNat_false]
      omega
    · have := accepted_pos ht hexec
      simp only [Bool.toNat_true]
      omega
  · -- what the other side reads
    have hreads := (Bool.and_eq_true_iff.mp hpossible).2
    rw [Bool.not_not] at hreads
    have hdist := distance_called_other conn es hreads
    cases ht : transfers i s (.call (!i) call)
    · simp only [Bool.toNat_false]
      omega
    · have := bytesRead_pos ht
      simp only [Bool.toNat_true]
      omega

/-- **One action** that keeps no new message does not lengthen the distance, and a transfer shortens
it. -/
theorem transfers_add_distance_le (s : EndToEnd) (a : EndToEndAction) (s' : EndToEnd) (h : Joined s)
    (hquiet : Quiet i s a) (hstep : s.step a = some s') :
    (transfers i s a).toNat + distance i s' ≤ distance i s := by
  cases a with
  | call j call =>
    simp only [step] at hstep
    split at hstep
    · next hcond =>
      obtain ⟨⟨conn, es⟩, hexec, rfl⟩ := Option.map_eq_some_iff.mp hstep
      exact transfers_called h hquiet (Bool.and_eq_true_iff.mp hcond).2 hexec
    · cases hstep
  | store j =>
    simp only [step] at hstep
    split at hstep
    · cases hstep
    · cases hstep
      rw [distance_setEnd (by exact rfl) (by exact rfl)]
      simp [transfers]
  | otherChannels j poller =>
    simp only [step] at hstep
    split at hstep
    · cases hstep
      rw [distance_setEnd (by exact rfl) (by exact rfl)]
      simp [transfers]
    · cases hstep
  | take j call =>
    simp only [step] at hstep
    split at hstep
    · cases hstep
    · obtain ⟨e, htake, rfl⟩ := Option.map_eq_some_iff.mp hstep
      rw [distance_setEnd (unmoved_take htake).output (unmoved_take htake).shut]
      simp [transfers]
  | close j =>
    simp only [step] at hstep
    split at hstep
    · cases hstep
      have hends : (Function.update s.ends j { s.ends j with gone := true } i).output =
            (s.ends i).output ∧
          (Function.update s.ends j { s.ends j with gone := true } i).shut = (s.ends i).shut := by
        by_cases hj : i = j
        · subst hj
          rw [Function.update_self]
          exact ⟨rfl, rfl⟩
        · rw [Function.update_of_ne hj]
          exact ⟨rfl, rfl⟩
      have hpipe : (Function.update s.pipes j (s.pipes j).finish i).inFlight =
          (s.pipes i).inFlight := by
        by_cases hj : i = j
        · subst hj
          rw [Function.update_self]
          rfl
        · rw [Function.update_of_ne hj]
      simp only [transfers, Bool.toNat_false, Nat.zero_add, distance, hends, hpipe, Nat.le_refl]
    · cases hstep
  | reset =>
    cases hstep
    simp [transfers, distance, Pipe.reset]

/-! ## No byte gets stuck -/

theorem watches_out {c : TcpConnection} (h : Established c.channel.fd c)
    (hout : c.outputBuffer.toQueue ≠ []) : watches c EPOLLOUT = true := by
  rw [watches, h.interest_eq, h.events, if_neg hout, Option.any_some]
  show EventMask.has (kReadEvent ||| kWriteEvent) EPOLLOUT = true
  decide

theorem watches_in {c : TcpConnection} (h : Established c.channel.fd c) : watches c EPOLLIN = true := by
  rw [watches, h.interest_eq, h.events, Option.any_some]
  split
  · show EventMask.has kReadEvent EPOLLIN = true
    decide
  · show EventMask.has (kReadEvent ||| kWriteEvent) EPOLLIN = true
    decide

/-- Without a reset, the receiver lacks of what the stream carries what is in flight and, before
`::shutdown`, what is in the buffer. -/
theorem Joined.carried_eq (h : Joined s) (hreset : (s.pipes i).broken = false) :
    (s.ends i).carried = (s.ends !i).received ++ (s.pipes i).inFlight ++
      if (s.ends i).shut then [] else (s.ends i).output := by
  have hlost := (h.flow i).lost hreset
  unfold Endpoint.carried
  split
  · next hshut =>
    rw [← h.received_of_shut hshut, hlost]
  · rw [← (h.flow i).order, hlost, List.append_nil]

/-- **While a byte is missing, a transfer can be made.** -/
theorem exists_transfer (h : Joined s) (hi : (s.ends i).down = false) (hj : (s.ends !i).down = false)
    (hreset : (s.pipes i).broken = false) (hmissing : (s.ends !i).received ≠ (s.ends i).carried) :
    ∃ a, transfers i s a = true ∧ heard s a = true ∧ (s.step a).isSome := by
  have hgone : ∀ j, (s.ends j).down = false → (s.ends j).gone = false := by
    intro j hdown
    cases hg : (s.ends j).gone
    · rfl
    · rw [h.gone j hg] at hdown
      cases hdown
  by_cases hflight : (s.pipes i).inFlight = []
  · -- it is in the sender's buffer, and the sender can write it
    rw [h.carried_eq hreset, hflight, List.append_nil] at hmissing
    have hshut : (s.ends i).shut = false := by
      by_contra hshut
      simp [hshut] at hmissing
    have hout : (s.ends i).output ≠ [] := by
      rintro hout
      simp [hshut, hout] at hmissing
    have hc := h.open_ i hi
    have hw := hc.isWriting_iff.mpr hout
    refine ⟨.call i (.event .write (.data []) (.count 1)), ?_, watches_out hc hout, ?_⟩
    · simp [transfers, hw, hout]
    have hopen : (s.pipes i).isOpen = true := by
      cases hfin : (s.pipes i).fin
      · simp [Pipe.isOpen, hfin, hreset]
      · exfalso
        rcases h.fin i hfin with hshut' | hdown
        · rw [hshut] at hshut'
          cases hshut'
        · rw [hi] at hdown
          cases hdown
    have hpossible : s.possible i (.event .write (.data []) (.count 1)) = true := by
      rw [possible, Bool.and_eq_true]
      exact ⟨hopen, rfl⟩
    have hexec := TcpConnection.handleWrite_isSome (n := 1) hc
    simp only [step, hgone i hi, hpossible, Bool.not_false, Bool.and_self, if_true, Option.isSome_map]
    exact hexec
  · -- it is in flight, and the receiver can read it
    obtain ⟨b, rest, hb⟩ := List.exists_cons_of_ne_nil hflight
    refine ⟨.call (!i) (.event .read (.data [b]) (.error .EPIPE .EPIPE)), by simp [transfers],
      watches_in (h.open_ (!i) hj), ?_⟩
    have hpossible : s.possible (!i) (.event .read (.data [b]) (.error .EPIPE .EPIPE)) = true := by
      rw [possible, Bool.not_not, Bool.and_eq_true]
      refine ⟨?_, ?_⟩
      · simp [writes, ConnCall.writeResult, Errno.isFault]
      · simp [reads, ConnCall.readResult, hb]
    have hexec := TcpConnection.handleRead_isSome (s.ends !i).conn b
    simp only [step, hgone (!i) hj, hpossible, Bool.not_false, Bool.and_self, if_true,
      Option.isSome_map]
    exact hexec

/-- **Delivery within a bound.**  While both sides are open and the connection is not reset, a receiver
that lacks a byte of what the stream carries can always be brought one nearer, by the callback of an
event that the kernel watches for: the stream carries what the sender has kept, or, once it has called
`::shutdown`, what it had kept by then.  However the run goes on, as long as the sender keeps nothing new
no more transfers are made than its distance, and when the distance is used up the receiver has
everything. -/
theorem delivery_bounded (conns : Bool → TcpConnection) (h : ∀ i, (conns i).Opened)
    (as : List EndToEndAction) (s : EndToEnd) (hrun : run step (start conns) as = some s) (i : Bool)
    (hi : (s.ends i).down = false) (hj : (s.ends !i).down = false)
    (hreset : (s.pipes i).broken = false) :
    ((s.ends !i).received ≠ (s.ends i).carried →
        ∃ a, transfers i s a = true ∧ heard s a = true ∧ (s.step a).isSome) ∧
      (distance i s = 0 → (s.ends !i).received = (s.ends i).carried) ∧
      ∀ bs t, run step s bs = some t → AllSteps step (Quiet i) s bs →
        countSteps step (transfers i) s bs + distance i t ≤ distance i s := by
  have hjoined := joined_of_run h hrun
  refine ⟨exists_transfer hjoined hi hj hreset, ?_, ?_⟩
  · intro hzero
    unfold distance at hzero
    obtain ⟨hout, hflight⟩ := Nat.add_eq_zero_iff.mp hzero
    rw [hjoined.carried_eq hreset, List.eq_nil_of_length_eq_zero hflight, List.append_nil]
    split at hout
    · next hshut => rw [if_pos hshut, List.append_nil]
    · next hshut =>
      have hout : (s.ends i).output = [] := List.eq_nil_of_length_eq_zero (by omega)
      rw [if_neg hshut, hout, List.append_nil]
  · intro bs t hbs hquiet
    exact countSteps_add_le (I := Joined) (C := Quiet i) (fun s a s' hs _ hstep => joined_step s a s' hs hstep)
      (fun s a s' hs hq hstep => transfers_add_distance_le s a s' hs hq hstep) hjoined hquiet hbs

/-- One byte is in flight and one in the buffer: three moves are left. -/
theorem delivery_bounded_run :
    ∃ s, run step (start pair) [.call false (.user (.send [1, 2]) (.count 1))] = some s ∧
      distance false s = 3 ∧
      ∃ a, transfers false s a = true ∧ heard s a = true ∧ (s.step a).isSome := by
  refine exists_run_eq (fun s : EndToEnd => (distance false s,
    ((s.ends false).down, (s.ends true).down, (s.pipes false).broken),
    ((s.ends true).received, (s.ends false).carried)))
    (3, (false, false, false), ([], [1, 2])) (by decide +kernel) fun s hs hlook => ?_
  simp only [Prod.mk.injEq] at hlook
  obtain ⟨hdist, ⟨hi, hj, hbroken⟩, hreceived, hcarried⟩ := hlook
  refine ⟨hdist, (delivery_bounded pair opened_pair _ s hs false hi hj hbroken).1 ?_⟩
  rw [Bool.not_false, hreceived, hcarried]
  decide

end EndToEnd
end Muduo
