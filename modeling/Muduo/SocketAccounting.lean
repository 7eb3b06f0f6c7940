import Muduo.ConnectorLoop
import Muduo.Lib.Transition

/-!
# The sockets of a connector

Every socket that `connect` creates is closed once, handed to `newConnectionCallback_` once, or the
one that `channel_` watches, and `state_` says whether there is such a one (`Accounting`).

* `Overlaps`: a step that begins a second attempt, or runs a `resetChannel` left over from an earlier
  one, while an attempt is in progress.  `connect` and `resetChannel` do not test `state_`, so the first
  replaces the channel, or sets `state_` to `kDisconnected`, and the second deletes the channel of the
  new attempt (`second_start_leaks`, `late_reset_leaks`).
* `Accounted`: the invariant, a connector with its ledger.

    the accounting holds throughout a run  ⇔  no step of it overlaps   (socket_accounting_iff)
-/

namespace Muduo

open Transition

/-! ## The accounting -/

namespace ConnectorLoop

variable {T : Type*}

/-- The socket number `id` is the one on which `channel_` is registered. -/
def Current (s : ConnectorLoop T) (id : Nat) : Prop :=
  ∃ fd, s.conn.Registered fd ∧ s.sockets.owner fd = some id

structure Accounting (s : ConnectorLoop T) : Prop where
  situation : ∀ id < s.sockets.count,
    s.sockets.outcomes id = [.closed] ∧ ¬ s.Current id ∨
      s.sockets.outcomes id = [.handed] ∧ ¬ s.Current id ∨ s.sockets.outcomes id = [] ∧ s.Current id
  unique : ∀ id id', s.Current id → s.Current id' → id = id'
  connecting : s.conn.state = .kConnecting ↔ ∃ id < s.sockets.count, s.Current id

/-- The call of `connect` in a step. -/
def attempt (s : ConnectorLoop T) : ConnectorAction T → Option Attempt
  | .start r => some r
  | .restart r | .timer r => if s.conn.connect_ then some r else none
  | .callFunctor r =>
    if s.loop.functors.head? = some (some .startInLoop) ∧ s.conn.connect_ = true then some r else none
  | _ => none

/-- The step calls `resetChannel`. -/
def resets (s : ConnectorLoop T) : ConnectorAction T → Prop
  | .callFunctor _ => s.loop.functors.head? = some (some .resetChannel)
  | _ => False

/-- While an attempt is in progress, `connect` is called, and `::connect` does not fail for good, or
`resetChannel` is called. -/
def Overlaps (s : ConnectorLoop T) (a : ConnectorAction T) : Prop :=
  s.conn.state = .kConnecting ∧ ((∃ r ∈ s.attempt a, r.outcome ≠ .close) ∨ s.resets a)

end ConnectorLoop

/-! ## The invariant -/

/-- An attempt is in progress and its socket is the only one not settled, or all are settled. -/
def Accounted (c : Connector) (l : Ledger Nat SocketOutcome) : Prop :=
  (∃ fd, c.Connecting fd ∧ l.Balanced (some fd)) ∨ c.Idle ∧ l.Balanced none

namespace Connector

variable {c : Connector} {l : Ledger Nat SocketOutcome}

theorem Registered.unique {fd fd' : Nat} (h : c.Registered fd) (h' : c.Registered fd') : fd = fd' := by
  obtain ⟨ch, hch, rfl, -⟩ := h
  obtain ⟨ch', hch', rfl, -⟩ := h'
  rw [hch, Option.some.injEq] at hch'
  rw [hch']

end Connector

namespace Accounted

open Connector

variable {c : Connector} {l : Ledger Nat SocketOutcome}

theorem idle (h : Accounted c l) (hstate : c.state ≠ .kConnecting) : c.Idle ∧ l.Balanced none := by
  rcases h with ⟨fd, hconnecting, -⟩ | h
  · exact absurd hconnecting.1 hstate
  · exact h

theorem connecting (h : Accounted c l) (hstate : c.state = .kConnecting) :
    ∃ fd, c.Registered fd ∧ l.Balanced (some fd) := by
  rcases h with ⟨fd, hconnecting, hbalanced⟩ | h
  · exact ⟨fd, hconnecting.2, hbalanced⟩
  · exact absurd hstate h.1.1

/-- Setting `connect_` changes nothing. -/
theorem setConnect (h : Accounted c l) (b : Bool) : Accounted { c with connect_ := b } l := by
  rcases h with ⟨fd, ⟨hstate, ch, hch, hregistered⟩, hbalanced⟩ | ⟨⟨hstate, hch⟩, hbalanced⟩
  · exact Or.inl ⟨fd, ⟨hstate, ch, hch, hregistered⟩, hbalanced⟩
  · exact Or.inr ⟨⟨hstate, hch⟩, hbalanced⟩

/-- The end of an attempt: the channel is removed and the socket closed. -/
theorem retry {fd : Nat} (hindex : ∀ ch, c.channel = some ch → ch.index ≠ .kAdded)
    (hbalanced : l.Balanced (some fd)) :
    Accounted (c.retry fd).1 ((c.retry fd).2.foldl ConnectorEffect.account l) := by
  refine Or.inr ⟨⟨by simp [Connector.retry, setState], hindex⟩, ?_⟩
  have hclosed := hbalanced.settle SocketOutcome.closed
  simp only [Connector.retry, List.foldl_cons]
  split <;> exact hclosed

theorem connect (h : Accounted c l) {r : Attempt} (hfree : l.free r.sockfd = true)
    (hnew : c.poller.interest r.sockfd = none)
    (hg : c.state = .kConnecting → r.outcome = .close) :
    ∃ c' es, c.connect r = some (c', es) ∧ Accounted c' (es.foldl ConnectorEffect.account l) := by
  cases houtcome : r.outcome with
  | close =>
    refine ⟨c, _, by simp only [Connector.connect, houtcome]; rfl, ?_⟩
    rcases h with ⟨fd, hconnecting, hbalanced⟩ | ⟨hidle, hbalanced⟩
    · exact Or.inl ⟨fd, hconnecting, hbalanced.acquire_settle hfree _⟩
    · exact Or.inr ⟨hidle, hbalanced.acquire_settle hfree _⟩
  | connecting =>
    obtain ⟨-, hbalanced⟩ := h.idle fun hc => by simp [hg hc] at houtcome
    obtain ⟨c', hc', hconnecting⟩ := connecting_eq_some hnew r.addr
    refine ⟨c', [.createNonblocking r.sockfd], ?_, Or.inl ⟨_, hconnecting, hbalanced.acquire _⟩⟩
    simp only [Connector.connect, houtcome, hc']
    rfl
  | retry =>
    obtain ⟨hidle, hbalanced⟩ := h.idle fun hc => by simp [hg hc] at houtcome
    refine ⟨_, _, by simp only [Connector.connect, houtcome]; rfl, ?_⟩
    exact retry hidle.2 (hbalanced.acquire _)

theorem stopInLoop (h : Accounted c l) :
    ∃ c' es, c.stopInLoop = some (c', es) ∧ Accounted c' (es.foldl ConnectorEffect.account l) := by
  unfold Connector.stopInLoop
  split
  · next hstate =>
    obtain ⟨fd, hregistered, hbalanced⟩ := h.connecting hstate
    have hregistered' : (c.setState .kDisconnected).Registered fd := hregistered
    obtain ⟨c', hc', -, -, hindex⟩ := removeAndResetChannel_eq_some hregistered'
    simp only [hc', Option.bind_eq_bind, Option.bind_some]
    exact ⟨_, _, rfl, retry hindex hbalanced⟩
  · exact ⟨c, [], rfl, h⟩

theorem handleError (h : Accounted c l) :
    ∃ c' es, c.handleError = some (c', es) ∧ Accounted c' (es.foldl ConnectorEffect.account l) := by
  unfold Connector.handleError
  split
  · next hstate =>
    obtain ⟨fd, hregistered, hbalanced⟩ := h.connecting hstate
    obtain ⟨c', hc', -, -, hindex⟩ := removeAndResetChannel_eq_some hregistered
    simp only [hc', Option.bind_eq_bind, Option.bind_some]
    exact ⟨_, _, rfl, retry hindex hbalanced⟩
  · exact ⟨c, [], rfl, h⟩

/-- `handleWriter` ends the program in state `kConnected`. -/
theorem handleWriter (h : Accounted c l) (hstate : c.state ≠ .kConnected) (err : Option Errno)
    (selfConnect : Bool) :
    ∃ c' es, c.handleWriter err selfConnect = some (c', es) ∧
      Accounted c' (es.foldl ConnectorEffect.account l) := by
  unfold Connector.handleWriter
  split
  · next hconnecting =>
    obtain ⟨fd, hregistered, hbalanced⟩ := h.connecting hconnecting
    obtain ⟨c', hc', -, -, hindex⟩ := removeAndResetChannel_eq_some hregistered
    have hdone : (c'.setState .kConnected).Idle := ⟨by simp [setState], hindex⟩
    simp only [hc', Option.bind_eq_bind, Option.bind_some]
    split
    · exact ⟨_, _, rfl, retry hindex hbalanced⟩
    · split
      · exact ⟨_, _, rfl, retry hindex hbalanced⟩
      · split
        · exact ⟨_, _, rfl, Or.inr ⟨hdone, hbalanced.settle _⟩⟩
        · exact ⟨_, _, rfl, Or.inr ⟨hdone, hbalanced.settle _⟩⟩
  · next hconnecting =>
    have hdisconnected : c.state = .kDisconnected := by
      revert hstate hconnecting
      cases c.state <;> simp
    rw [if_pos hdisconnected]
    exact ⟨c, [], rfl, h⟩

theorem resetChannel (h : Accounted c l) (hstate : c.state ≠ .kConnecting) :
    Accounted c.resetChannel l := by
  obtain ⟨hidle, hbalanced⟩ := h.idle hstate
  exact Or.inr ⟨⟨hidle.1, fun _ hch => by cases hch⟩, hbalanced⟩

/-- Other channels change the poller. -/
theorem otherChannels (h : Accounted c l) {poller : EPollPoller}
    (hkeeps : c.keepsChannel poller = true) : Accounted { c with poller } l := by
  rcases h with ⟨fd, ⟨hstate, ch, hch, rfl, hwatched, haddr⟩, hbalanced⟩ | ⟨⟨hstate, hch⟩, hbalanced⟩
  · simp only [Connector.keepsChannel, hch, hwatched.1, bne_self_eq_false, Bool.false_or,
      Bool.and_eq_true, beq_iff_eq] at hkeeps
    refine Or.inl ⟨ch.fd, ⟨hstate, ch, hch, rfl, ⟨hwatched.1, ?_⟩, ?_⟩, hbalanced⟩
    · exact hkeeps.1.trans hwatched.2
    · exact hkeeps.2.trans haddr
  · exact Or.inr ⟨⟨hstate, hch⟩, hbalanced⟩

end Accounted

/-! ## The steps -/

namespace ConnectorLoop

variable {T : Type*}

theorem accounting_of_accounted {s : ConnectorLoop T} (h : Accounted s.conn s.sockets) :
    s.Accounting := by
  have hunique : ∀ id id', s.Current id → s.Current id' → id = id' := by
    rintro id id' ⟨fd, hfd, hid⟩ ⟨fd', hfd', hid'⟩
    rw [hfd'.unique hfd, hid, Option.some.injEq] at hid'
    exact hid'
  rcases h with ⟨fd, ⟨hstate, hregistered⟩, hbalanced⟩ | ⟨hidle, hbalanced⟩
  · have hcurrent : ∀ id, s.Current id ↔ s.sockets.owner fd = some id := by
      intro id
      constructor
      · rintro ⟨fd', hfd', hid⟩
        rw [hregistered.unique hfd', hid]
      · exact fun hid => ⟨fd, hregistered, hid⟩
    constructor
    · intro id hlt
      by_cases hid : s.Current id
      · have hnone := hbalanced.unsettled id (Or.inl ((hcurrent id).mp hid))
        exact Or.inr (Or.inr ⟨hnone, hid⟩)
      · obtain ⟨o, ho⟩ := hbalanced.settled id hlt fun hown => hid ((hcurrent id).mpr hown)
        cases o with
        | closed => exact Or.inl ⟨ho, hid⟩
        | handed => exact Or.inr (Or.inl ⟨ho, hid⟩)
    · exact hunique
    · constructor
      · intro _
        obtain ⟨id, hid⟩ := hbalanced.held_owner fd rfl
        exact ⟨id, hbalanced.owner_lt fd id hid, (hcurrent id).mpr hid⟩
      · exact fun _ => hstate
  · have hcurrent : ∀ id, ¬ s.Current id := fun id ⟨fd, hfd, _⟩ => hidle.not_registered fd hfd
    constructor
    · intro id hlt
      obtain ⟨o, ho⟩ := hbalanced.settled id hlt (by simp)
      cases o with
      | closed => exact Or.inl ⟨ho, hcurrent id⟩
      | handed => exact Or.inr (Or.inl ⟨ho, hcurrent id⟩)
    · exact hunique
    · constructor
      · exact fun hstate => absurd hstate hidle.1
      · rintro ⟨id, -, hid⟩
        exact absurd hid (hcurrent id)

variable [DecidableEq T] {s s' : ConnectorLoop T}

omit [DecidableEq T] in
theorem mayAttempt_eq_true {r : Attempt} :
    s.mayAttempt r = true ↔
      s.sockets.free r.sockfd = true ∧ s.conn.poller.interest r.sockfd = none := by
  simp [mayAttempt]

/-- The step that calls `connect`. -/
theorem step_of_attempt {a : ConnectorAction T} {r : Attempt} (hattempt : s.attempt a = some r)
    (hstep : s.step a = some s') :
    s.mayAttempt r = true ∧ ∃ connect_ es,
      { s.conn with connect_ }.connect r = some (s'.conn, es) ∧
      s'.sockets = es.foldl ConnectorEffect.account s.sockets := by
  cases a with
  | start r' =>
    cases hattempt
    simp only [step, Option.ite_none_right_eq_some, Bool.and_eq_true] at hstep
    obtain ⟨⟨-, hmay⟩, hstep⟩ := hstep
    obtain ⟨conn, es, hcall, rfl, hsockets⟩ := perform_eq_some hstep
    exact ⟨hmay, true, es, hcall, hsockets⟩
  | restart r' =>
    simp only [attempt, Option.ite_none_right_eq_some, Option.some.injEq] at hattempt
    obtain ⟨hconnect, rfl⟩ := hattempt
    simp only [step, Option.ite_none_right_eq_some, Bool.and_eq_true] at hstep
    obtain ⟨⟨-, hmay⟩, hstep⟩ := hstep
    obtain ⟨conn, es, hcall, rfl, hsockets⟩ := perform_eq_some hstep
    rw [Connector.restart, if_pos hconnect] at hcall
    exact ⟨hmay, _, es, hcall, hsockets⟩
  | timer r' =>
    simp only [attempt, Option.ite_none_right_eq_some, Option.some.injEq] at hattempt
    obtain ⟨hconnect, rfl⟩ := hattempt
    simp only [step, Option.ite_none_right_eq_some, Bool.and_eq_true] at hstep
    obtain ⟨⟨⟨-, hmay⟩, -⟩, hstep⟩ := hstep
    obtain ⟨conn, es, hcall, rfl, hsockets⟩ := perform_eq_some hstep
    rw [Connector.startInLoop, if_pos hconnect] at hcall
    exact ⟨hmay, _, es, hcall, hsockets⟩
  | callFunctor r' =>
    simp only [attempt, Option.ite_none_right_eq_some, Option.some.injEq] at hattempt
    obtain ⟨⟨hhead, hconnect⟩, rfl⟩ := hattempt
    simp only [step] at hstep
    split at hstep
    · cases hstep
    · next task fs hfs =>
      rw [hfs, List.head?_cons, Option.some.injEq] at hhead
      subst hhead
      simp only [Option.ite_none_right_eq_some, Option.bind_eq_some_iff] at hstep
      obtain ⟨hmay, loop, -, hstep⟩ := hstep
      obtain ⟨conn, es, hcall, rfl, hsockets⟩ := perform_eq_some hstep
      simp only [Connector.callFunctor, Connector.startInLoop, if_pos hconnect] at hcall
      exact ⟨hmay, _, es, hcall, hsockets⟩
  | loop | stop | handleWriter | handleError | storeStart | storeStop | push | otherChannels =>
    cases hattempt

theorem accounted_of_perform {r : Connector.Result}
    (hr : ∃ c es, r = some (c, es) ∧ Accounted c (es.foldl ConnectorEffect.account s.sockets))
    (h : s.perform r = some s') : Accounted s'.conn s'.sockets := by
  obtain ⟨conn, es, hcall, rfl, hsockets⟩ := perform_eq_some h
  obtain ⟨c, es', hr, haccounted⟩ := hr
  rw [hcall, Option.some.injEq, Prod.mk.injEq] at hr
  rw [hsockets, hr.1, hr.2]
  exact haccounted

theorem accounted_step (s : ConnectorLoop T) (a : ConnectorAction T) (s' : ConnectorLoop T)
    (h : Accounted s.conn s.sockets) (hg : ¬ s.Overlaps a) (hstep : s.step a = some s') :
    Accounted s'.conn s'.sockets := by
  cases hattempt : s.attempt a with
  | some r =>
    obtain ⟨hmay, connect_, es, hcall, hsockets⟩ := step_of_attempt hattempt hstep
    obtain ⟨hfree, hnew⟩ := mayAttempt_eq_true.mp hmay
    have houtcome : s.conn.state = .kConnecting → r.outcome = .close := by
      intro hstate
      by_contra hne
      exact hg ⟨hstate, Or.inl ⟨r, hattempt, hne⟩⟩
    obtain ⟨c, es', hcall', haccounted⟩ := (h.setConnect connect_).connect hfree hnew houtcome
    rw [hcall, Option.some.injEq, Prod.mk.injEq] at hcall'
    rw [hsockets, hcall'.1, hcall'.2]
    exact haccounted
  | none =>
    cases a with
    | loop a =>
      simp only [step, Option.ite_none_right_eq_some, Option.map_eq_some_iff] at hstep
      obtain ⟨-, loop, -, rfl⟩ := hstep
      exact h
    | callFunctor r =>
      simp only [step] at hstep
      split at hstep
      · cases hstep
      · next task fs hfs =>
        simp only [Option.ite_none_right_eq_some, Option.bind_eq_some_iff] at hstep
        obtain ⟨-, loop, -, hstep⟩ := hstep
        cases task with
        | none =>
          cases hstep
          exact h
        | some f =>
          refine accounted_of_perform ?_ hstep
          cases f with
          | startInLoop =>
            have hconnect : s.conn.connect_ = false := by simpa [attempt, hfs] using hattempt
            exact ⟨s.conn, [], by simp [Connector.callFunctor, Connector.startInLoop, hconnect], h⟩
          | stopInLoop => exact h.stopInLoop
          | resetChannel =>
            refine ⟨_, [], rfl, h.resetChannel fun hstate => hg ⟨hstate, Or.inr ?_⟩⟩
            simp [resets, hfs]
    | start r => cases hattempt
    | stop =>
      simp only [step, Option.ite_none_right_eq_some] at hstep
      exact accounted_of_perform ⟨_, _, rfl, h.setConnect false⟩ hstep.2
    | restart r =>
      have hconnect : s.conn.connect_ = false := by simpa [attempt] using hattempt
      simp only [step, Option.ite_none_right_eq_some] at hstep
      exact accounted_of_perform ⟨s.conn, [], by simp [Connector.restart, hconnect], h⟩ hstep.2
    | timer r =>
      have hconnect : s.conn.connect_ = false := by simpa [attempt] using hattempt
      simp only [step, Option.ite_none_right_eq_some] at hstep
      refine accounted_of_perform ?_ hstep.2
      exact ⟨s.conn, [], by simp [Connector.startInLoop, hconnect], h⟩
    | handleWriter err selfConnect =>
      simp only [step, Option.ite_none_right_eq_some] at hstep
      obtain ⟨-, hstep⟩ := hstep
      refine accounted_of_perform (h.handleWriter (fun hstate => ?_) err selfConnect) hstep
      simp [Connector.handleWriter, hstate, perform] at hstep
    | handleError =>
      simp only [step, Option.ite_none_right_eq_some] at hstep
      exact accounted_of_perform h.handleError hstep.2
    | storeStart t =>
      simp only [step, Option.ite_none_right_eq_some, Option.some.injEq] at hstep
      obtain ⟨-, rfl⟩ := hstep
      exact h.setConnect true
    | storeStop t =>
      simp only [step, Option.ite_none_right_eq_some, Option.some.injEq] at hstep
      obtain ⟨-, rfl⟩ := hstep
      exact h.setConnect false
    | push t =>
      simp only [step] at hstep
      split at hstep
      · cases hstep
      · obtain ⟨loop, -, rfl⟩ := Option.map_eq_some_iff.mp hstep
        exact h
    | otherChannels poller =>
      simp only [step, Option.ite_none_right_eq_some, Option.some.injEq] at hstep
      obtain ⟨hkeeps, rfl⟩ := hstep
      exact h.otherChannels hkeeps

/-! ## Overlapping attempts -/

omit [DecidableEq T] in
/-- The socket of the attempt in progress. -/
theorem current_of_connecting (h : Accounted s.conn s.sockets) (hstate : s.conn.state = .kConnecting) :
    ∃ fd id, s.conn.Registered fd ∧ s.sockets.Balanced (some fd) ∧ s.sockets.owner fd = some id ∧
      id < s.sockets.count ∧ s.sockets.outcomes id = [] := by
  obtain ⟨fd, hregistered, hbalanced⟩ := h.connecting hstate
  obtain ⟨id, hid⟩ := hbalanced.held_owner fd rfl
  exact ⟨fd, id, hregistered, hbalanced, hid, hbalanced.owner_lt fd id hid,
    hbalanced.unsettled id (Or.inl hid)⟩

omit [DecidableEq T] in
/-- A second attempt replaces the channel, or says that there is none. -/
theorem not_accounting_of_connect (h : Accounted s.conn s.sockets)
    (hstate : s.conn.state = .kConnecting) {r : Attempt} (hmay : s.mayAttempt r = true)
    (houtcome : r.outcome ≠ .close) {connect_ : Bool} {es : List ConnectorEffect}
    (hcall : { s.conn with connect_ }.connect r = some (s'.conn, es))
    (hsockets : s'.sockets = es.foldl ConnectorEffect.account s.sockets) : ¬ s'.Accounting := by
  obtain ⟨fd, id, hregistered, hbalanced, hid, hlt, hnone⟩ := current_of_connecting h hstate
  obtain ⟨hfree, hnew⟩ := mayAttempt_eq_true.mp hmay
  intro hacc
  cases hout : r.outcome with
  | close => exact houtcome hout
  | connecting =>
    have hnew' : { s.conn with connect_ }.poller.interest r.sockfd = none := hnew
    obtain ⟨c', hc', hconnecting⟩ := Connector.connecting_eq_some hnew' r.addr
    simp only [Connector.connect, hout, hc', Option.bind_eq_bind, Option.bind_some, Option.some.injEq,
      Prod.mk.injEq] at hcall
    obtain ⟨rfl, rfl⟩ := hcall
    simp only [List.foldl_cons, List.foldl_nil, ConnectorEffect.account] at hsockets
    have hsituation := hacc.situation id (by rw [hsockets]; exact Nat.lt_succ_of_lt hlt)
    rw [hsockets] at hsituation
    rcases hsituation with ⟨hclosed, -⟩ | ⟨hhanded, -⟩ | ⟨-, fd', hfd', hid'⟩
    · exact absurd (hnone.symm.trans hclosed) (by simp)
    · exact absurd (hnone.symm.trans hhanded) (by simp)
    · rw [hsockets, hfd'.unique hconnecting.2, Ledger.owner_acquire_self, Option.some.injEq] at hid'
      omega
  | retry =>
    simp only [Connector.connect, hout, Connector.retry, Option.some.injEq, Prod.mk.injEq] at hcall
    obtain ⟨hconn, rfl⟩ := hcall
    have howner : s'.sockets.owner fd = some id ∧ s'.sockets.count = s.sockets.count + 1 := by
      have hne := hbalanced.ne_of_free hfree
      rw [hsockets]
      split <;>
        simp [ConnectorEffect.account, Ledger.owner_acquire_of_ne _ hne, hid]
    have hregistered' : s'.conn.Registered fd := by
      rw [← hconn]
      exact hregistered
    have hstate' := hacc.connecting.mpr ⟨id, by omega, fd, hregistered', howner.1⟩
    simp [← hconn, Connector.setState] at hstate'

theorem not_accounting_of_overlaps (h : Accounted s.conn s.sockets) {a : ConnectorAction T}
    (hbad : s.Overlaps a) (hstep : s.step a = some s') : ¬ s'.Accounting := by
  obtain ⟨hstate, ⟨r, hattempt, houtcome⟩ | hresets⟩ := hbad
  · obtain ⟨hmay, connect_, es, hcall, hsockets⟩ := step_of_attempt hattempt hstep
    exact not_accounting_of_connect h hstate hmay houtcome hcall hsockets
  · cases a with
    | callFunctor r =>
      simp only [resets] at hresets
      simp only [step] at hstep
      split at hstep
      · cases hstep
      · next task fs hfs =>
        rw [hfs, List.head?_cons, Option.some.injEq] at hresets
        subst hresets
        simp only [Option.ite_none_right_eq_some, Option.bind_eq_some_iff] at hstep
        obtain ⟨-, loop, -, hstep⟩ := hstep
        obtain ⟨conn, es, hcall, rfl, hsockets⟩ := perform_eq_some hstep
        simp only [Connector.callFunctor, Option.some.injEq, Prod.mk.injEq] at hcall
        obtain ⟨hconn, rfl⟩ := hcall
        obtain ⟨fd, id, -, -, -, hlt, hnone⟩ := current_of_connecting h hstate
        have hsockets' : s'.sockets = s.sockets := hsockets
        intro hacc
        have hsituation := hacc.situation id (hsockets' ▸ hlt)
        rw [hsockets', hnone] at hsituation
        rcases hsituation with ⟨hclosed, -⟩ | ⟨hhanded, -⟩ | ⟨-, fd', ⟨ch, hch, -⟩, -⟩
        · cases hclosed
        · cases hhanded
        · rw [← hconn] at hch
          cases hch
    | _ => cases hresets

/-- **Socket accounting.**  In a run from a new connector, the accounting holds in every state iff no
step overlaps with an attempt in progress. -/
theorem socket_accounting_iff (loop : EventLoop T (Option ConnectorFunctor)) (poller : EPollPoller)
    (as : List (ConnectorAction T)) (t : ConnectorLoop T)
    (h : run step (start loop poller) as = some t) :
    Along step Accounting (start loop poller) as ↔
      AllSteps step (fun s a => ¬ s.Overlaps a) (start loop poller) as := by
  have hstart : Accounted (start loop poller).conn (start loop poller).sockets :=
    Or.inr ⟨Connector.idle_new poller, Ledger.balanced_empty⟩
  exact along_iff_allSteps
    (fun (s : ConnectorLoop T) (hs : Accounted s.conn s.sockets) => accounting_of_accounted hs)
    accounted_step (fun _ _ _ hs hbad => not_accounting_of_overlaps hs (not_not.mp hbad)) hstart h

instance decidableResets (s : ConnectorLoop T) : ∀ a : ConnectorAction T, Decidable (s.resets a)
  | .callFunctor _ => inferInstanceAs (Decidable (s.loop.functors.head? = some (some .resetChannel)))
  | .loop _ | .start _ | .stop | .restart _ | .timer _ | .handleWriter _ _ | .handleError
  | .storeStart _ | .storeStop _ | .push _ | .otherChannels _ => isFalse not_false

instance decidableOverlaps (s : ConnectorLoop T) (a : ConnectorAction T) : Decidable (s.Overlaps a) :=
  decidable_of_iff (s.conn.state = .kConnecting ∧
      ((s.attempt a).any (fun r => r.outcome != .close) = true ∨ s.resets a)) <| by
    simp [Overlaps, Option.any_eq_true]

/-- A connection that is refused, and accepted when the timer expires. -/
def refusedThenAccepted : List (ConnectorAction Unit) :=
  [.start ⟨5, 0, some .EINPROGRESS⟩, .loop .enterLoop, .loop .resetQuit, .loop .testQuit,
    .loop (.pollReturns false), .handleError, .loop .beginFunctors, .loop .swapFunctors,
    .callFunctor ⟨6, 1, none⟩, .loop .endFunctors, .loop .destroyFunctors, .loop .testQuit,
    .loop (.pollReturns false), .timer ⟨5, 1, none⟩, .handleWriter none false]

theorem socket_accounting_run :
    ∃ t, run step (start .new .empty) refusedThenAccepted = some t ∧
      (List.range t.sockets.count).map t.sockets.outcomes = [[.closed], [.handed]] ∧ t.Accounting := by
  have hall : AllSteps step (fun s a => ¬ s.Overlaps a) (start .new .empty) refusedThenAccepted := by
    decide +kernel
  refine exists_run_eq (fun t => (List.range t.sockets.count).map t.sockets.outcomes) _
    (by decide +kernel) fun t ht houtcomes => ⟨houtcomes, ?_⟩
  exact along_last ((socket_accounting_iff _ _ _ t ht).mpr hall) ht

/-- `start` twice, while `::connect` is in progress: the first socket is neither closed nor handed
over, and `channel_` is another's. -/
theorem second_start_leaks :
    ∃ t : ConnectorLoop Unit, run step (start .new .empty)
        [.start ⟨5, 0, some .EINPROGRESS⟩, .start ⟨6, 1, some .EINPROGRESS⟩] = some t ∧
      t.sockets.owner 5 = some 0 ∧ t.sockets.outcomes 0 = [] ∧ t.conn.channel.map Channel.fd = some 6 ∧
      ¬ t.Accounting := by
  refine exists_run_eq (fun t => (t.sockets.count, t.sockets.owner 5, t.sockets.owner 6,
    t.sockets.outcomes 0, t.conn.channel.map Channel.fd)) (2, some 0, some 1, [], some 6)
    (by decide +kernel) fun t _ hend => ?_
  simp only [Prod.mk.injEq] at hend
  obtain ⟨hcount, howner, howner', hnone, hchannel⟩ := hend
  refine ⟨howner, hnone, hchannel, fun hacc => ?_⟩
  rcases hacc.situation 0 (by omega) with ⟨hclosed, -⟩ | ⟨hhanded, -⟩ | ⟨-, fd, ⟨ch, hch, rfl, -⟩, hid⟩
  · exact absurd (hnone.symm.trans hclosed) (by simp)
  · exact absurd (hnone.symm.trans hhanded) (by simp)
  · rw [hch, Option.map_some, Option.some.injEq] at hchannel
    rw [hchannel, howner'] at hid
    cases hid

/-- `handleError` queues `resetChannel` behind a `startInLoop` of another thread: the new attempt loses
its channel, which the poller still watches. -/
theorem late_reset_leaks :
    ∃ t : ConnectorLoop Unit, run step (start .new .empty)
        [.start ⟨5, 0, some .EINPROGRESS⟩, .loop .enterLoop, .loop .resetQuit, .loop .testQuit,
          .storeStart (), .push (), .loop (.wakeup ()), .loop (.pollReturns true), .loop .handleRead,
          .handleError, .loop .beginFunctors, .loop .swapFunctors,
          .callFunctor ⟨5, 1, some .EINPROGRESS⟩, .callFunctor ⟨6, 2, none⟩] = some t ∧
      t.conn.state = .kConnecting ∧ t.conn.channel = none ∧
      t.conn.poller.interest 5 = some ⟨EPOLLOUT, 1⟩ ∧ ¬ t.Accounting := by
  refine exists_run_eq (fun t => (t.conn.state, t.conn.channel, t.conn.poller.interest 5))
    (.kConnecting, none, some ⟨EPOLLOUT, 1⟩) (by decide +kernel) fun t _ hend => ?_
  simp only [Prod.mk.injEq] at hend
  obtain ⟨hstate, hchannel, hinterest⟩ := hend
  refine ⟨hstate, hchannel, hinterest, fun hacc => ?_⟩
  obtain ⟨id, -, fd, ⟨ch, hch, -⟩, -⟩ := hacc.connecting.mp hstate
  rw [hchannel] at hch
  cases hch

end ConnectorLoop
end Muduo
