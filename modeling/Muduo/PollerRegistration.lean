import Muduo.EPollPoller
import Muduo.Lib.Transition

/-!
# Registration in the poller

Any number of channels on one poller, and the six calls of `Channel.h` on them in any order.

* `hasChannel`: `Poller.cc`.
* `ChannelCall.issued`: the `epoll_ctl` that a call makes.  A call is its change of `channels_`,
  this `epoll_ctl`, and the new index, whatever the poller holds (`call_eq_issued`).
* `Registered p ch`: the index, `channels_` and the kernel agree on one channel.

One call from a registered channel makes a legal `epoll_ctl` (`Tracked.issued_legal`), does not abort
(`Tracked.call_eq`), keeps the channel registered (`Registered.call`) and leaves all other descriptors
alone, so

    every state of every run  :  index = kAdded  ↔  fd in the interest list, with events()
                                 index ≠ kNew    ↔  channels_[fd] is the channel
                                                              (registration_consistent)
-/

namespace Muduo

open Transition

/-! ## The calls -/

inductive ChannelCall
  | enableReading | disableReading | enableWriting | disableWriting | disableAll | remove
deriving DecidableEq, Repr

namespace ChannelCall

def call : ChannelCall → Channel → EPollPoller → Option (EPollPoller × Channel)
  | .enableReading => Channel.enableReading
  | .disableReading => Channel.disableReading
  | .enableWriting => Channel.enableWriting
  | .disableWriting => Channel.disableWriting
  | .disableAll => Channel.disableAll
  | .remove => Channel.remove

/-- `events_` when the poller is called. -/
def events : ChannelCall → EventMask → EventMask
  | .enableReading, events => events ||| kReadEvent
  | .disableReading, events => events &&& ~~~kReadEvent
  | .enableWriting, events => events ||| kWriteEvent
  | .disableWriting, events => events &&& ~~~kWriteEvent
  | .disableAll, _ => kNoneEvent
  | .remove, events => events

/-- The operation passed to `epoll_ctl`, if there is one. -/
def issued (c : ChannelCall) (ch : Channel) : Option CtlOp :=
  if ch.index = .kAdded then
    some (if c = .remove ∨ c.events ch.events = kNoneEvent then .EPOLL_CTL_DEL else .EPOLL_CTL_MOD)
  else if c = .remove then none
  else some .EPOLL_CTL_ADD

/-- The entry of `channels_` after the call. -/
def mapped (c : ChannelCall) (ch : Channel) (old : Option Nat) : Option Nat :=
  if c = .remove then none else if ch.index = .kNew then some ch.addr else old

/-- The channel after the call. -/
def after (c : ChannelCall) (ch : Channel) : Channel :=
  { ch with
    events := c.events ch.events
    index :=
      if c = .remove then .kNew
      else if ch.index = .kAdded ∧ c.events ch.events = kNoneEvent then .kDeleted
      else .kAdded }

end ChannelCall

namespace EPollPoller

def hasChannel (p : EPollPoller) (ch : Channel) : Bool := p.channels ch.fd == some ch.addr

end EPollPoller

/-- What the kernel accepts: `ADD` for an absent descriptor, `MOD` and `DEL` for a present one. -/
def CtlOp.Legal (op : CtlOp) (interest : Interest) (fd : Nat) : Prop :=
  match op with
  | .EPOLL_CTL_ADD => interest fd = none
  | .EPOLL_CTL_MOD | .EPOLL_CTL_DEL => (interest fd).isSome

/-- All calls but `remove` go to `updateChannel`. -/
theorem ChannelCall.call_eq_updateChannel {c : ChannelCall} (hc : c ≠ .remove) (ch : Channel)
    (p : EPollPoller) : c.call ch p = p.updateChannel { ch with events := c.events ch.events } := by
  cases c <;> first | rfl | exact absurd rfl hc

/-- **A call is its `epoll_ctl`.**  It changes `channels_`, makes the call that `issued` says with
the new mask, and sets the index. -/
theorem ChannelCall.call_eq_issued (c : ChannelCall) (ch : Channel) (p : EPollPoller) :
    c.call ch p =
      let channels := Function.update p.channels ch.fd (c.mapped ch (p.channels ch.fd))
      ((c.issued ch).elim (some { p with channels }) fun op =>
        EPollPoller.update { p with channels } op { ch with events := c.events ch.events }).bind
          fun p' => some (p', c.after ch) := by
  obtain ⟨addr, fd, old, revents, index, tied⟩ := ch
  by_cases hc : c = .remove
  · subst hc
    cases index <;> rfl
  · rw [call_eq_updateChannel hc]
    unfold EPollPoller.updateChannel Channel.isNoneEvent
    cases index with
    | kNew => simp [issued, mapped, after, hc]
    | kDeleted => simp [issued, mapped, after, hc]
    | kAdded =>
      by_cases he : c.events old = kNoneEvent
      · simp [issued, mapped, after, hc, he]
      · simp [issued, mapped, after, hc, he]

/-! ## One channel -/

/-- The three views of a channel's registration agree. -/
structure Registered (p : EPollPoller) (ch : Channel) : Prop where
  /-- the descriptor is in the interest list iff the index is `kAdded` -/
  tracked : p.Tracked ch
  event : ch.index = .kAdded → p.interest ch.fd = some ⟨ch.events, ch.addr⟩
  mapped : p.hasChannel ch = true ↔ ch.index = .kAdded ∨ ch.index = .kDeleted

/-- The poller after a legal call. -/
def ChannelCall.poller (c : ChannelCall) (ch : Channel) (p : EPollPoller) : EPollPoller where
  channels := Function.update p.channels ch.fd (c.mapped ch (p.channels ch.fd))
  interest := Function.update p.interest ch.fd
    (if (c.after ch).index = .kAdded then some ⟨c.events ch.events, ch.addr⟩ else none)

theorem ChannelCall.poller_of_ne (c : ChannelCall) (ch : Channel) (p : EPollPoller) {fd : Nat}
    (hfd : fd ≠ ch.fd) : (c.poller ch p).interest fd = p.interest fd ∧
      (c.poller ch p).channels fd = p.channels fd :=
  ⟨Function.update_of_ne hfd _ _, Function.update_of_ne hfd _ _⟩

namespace EPollPoller.Tracked

variable {p : EPollPoller} {ch : Channel}

theorem interest_none (h : p.Tracked ch) (hi : ch.index ≠ .kAdded) : p.interest ch.fd = none := by
  rw [← Option.not_isSome_iff_eq_none]
  exact fun hsome => hi (h.mp hsome)

/-- The operation a call asks for is one the kernel accepts. -/
theorem issued_legal (h : p.Tracked ch) {c : ChannelCall} {op : CtlOp}
    (hop : c.issued ch = some op) : op.Legal p.interest ch.fd := by
  unfold ChannelCall.issued at hop
  by_cases hi : ch.index = .kAdded
  · have hsome : (p.interest ch.fd).isSome := h.mpr hi
    rw [if_pos hi, Option.some.injEq] at hop
    subst hop
    split
    · exact hsome
    · exact hsome
  · rw [if_neg hi, Option.ite_none_left_eq_some, Option.some.injEq] at hop
    rw [← hop.2]
    exact h.interest_none hi

/-- **One call on a tracked channel** does not abort. -/
theorem call_eq (h : p.Tracked ch) (c : ChannelCall) :
    c.call ch p = some (c.poller ch p, c.after ch) := by
  rw [ChannelCall.call_eq_issued]
  unfold ChannelCall.poller
  by_cases hi : ch.index = .kAdded
  · have hsome : (p.interest ch.fd).isSome := h.mpr hi
    by_cases hdel : c = .remove ∨ c.events ch.events = kNoneEvent
    · have hafter : (c.after ch).index ≠ .kAdded := by
        simp only [ChannelCall.after, hi, true_and]
        split
        · decide
        · rw [if_pos (hdel.resolve_left ‹_›)]
          decide
      simp only [ChannelCall.issued, if_pos hi, if_pos hdel, Option.elim_some, if_neg hafter]
      rw [update_del (by exact hsome)]
      rfl
    · obtain ⟨hc, he⟩ := not_or.mp hdel
      have hafter : (c.after ch).index = .kAdded := by
        simp [ChannelCall.after, hc, he]
      simp only [ChannelCall.issued, if_pos hi, if_neg hdel, Option.elim_some, if_pos hafter]
      rw [update_mod (by exact hsome)]
      rfl
  · have hnone : p.interest ch.fd = none := h.interest_none hi
    by_cases hc : c = .remove
    · have hafter : (c.after ch).index ≠ .kAdded := by
        simp [ChannelCall.after, hc]
      simp only [ChannelCall.issued, if_neg hi, if_pos hc, Option.elim_none, if_neg hafter]
      rw [← hnone, Function.update_eq_self]
      rfl
    · have hafter : (c.after ch).index = .kAdded := by
        simp [ChannelCall.after, hc, hi]
      simp only [ChannelCall.issued, if_neg hi, if_neg hc, Option.elim_some, if_pos hafter]
      rw [update_add (by exact hnone)]
      rfl

theorem poller (c : ChannelCall) (ch : Channel) (p : EPollPoller) :
    (c.poller ch p).Tracked (c.after ch) := by
  show ((c.poller ch p).interest ch.fd).isSome ↔ _
  have hinterest : (c.poller ch p).interest ch.fd = _ := Function.update_self _ _ _
  rw [hinterest]
  split
  · simp [*]
  · simp [*]

end EPollPoller.Tracked

namespace Registered

variable {p : EPollPoller} {ch : Channel}

theorem call (h : Registered p ch) (c : ChannelCall) : Registered (c.poller ch p) (c.after ch) := by
  have hinterest : (c.poller ch p).interest ch.fd =
      if (c.after ch).index = .kAdded then some ⟨c.events ch.events, ch.addr⟩ else none :=
    Function.update_self _ _ _
  have hchannels : (c.poller ch p).channels ch.fd = c.mapped ch (p.channels ch.fd) :=
    Function.update_self _ _ _
  constructor
  · exact EPollPoller.Tracked.poller c ch p
  · intro hi
    show (c.poller ch p).interest ch.fd = _
    rw [hinterest, if_pos hi]
    rfl
  · show ((c.poller ch p).channels ch.fd == some ch.addr) = true ↔ _
    rw [hchannels, beq_iff_eq]
    unfold ChannelCall.mapped ChannelCall.after
    by_cases hc : c = .remove
    · simp [hc]
    · rw [if_neg hc]
      have hafter : ∀ P : Prop, [Decidable P] → ((if P then Index.kDeleted else .kAdded) = .kAdded ∨
          (if P then Index.kDeleted else .kAdded) = .kDeleted) := by
        intro P _
        by_cases hP : P
        · simp [hP]
        · simp [hP]
      simp only [if_neg hc, hafter, iff_true]
      by_cases hi : ch.index = .kNew
      · rw [if_pos hi]
      · rw [if_neg hi]
        have hmapped := h.mapped.mpr (by cases hindex : ch.index <;> simp_all)
        simpa [EPollPoller.hasChannel] using hmapped

/-- Calls on other descriptors do not matter. -/
theorem of_eq (h : Registered p ch) {p' : EPollPoller} (hi : p'.interest ch.fd = p.interest ch.fd)
    (hc : p'.channels ch.fd = p.channels ch.fd) : Registered p' ch := by
  refine ⟨?_, ?_, ?_⟩
  · unfold EPollPoller.Tracked
    rw [hi]
    exact h.tracked
  · rw [hi]
    exact h.event
  · unfold EPollPoller.hasChannel
    rw [hc]
    exact h.mapped

end Registered

/-! ## Any number of channels -/

structure PollerChannels (ι : Type*) where
  poller : EPollPoller
  channels : ι → Channel

namespace PollerChannels

variable {ι : Type*} [DecidableEq ι]

/-- The call `a.2` on the channel `a.1`; `none` is the `abort()` of `update`. -/
def step (s : PollerChannels ι) (a : ι × ChannelCall) : Option (PollerChannels ι) :=
  (a.2.call (s.channels a.1) s.poller).map fun (poller, channel) =>
    { poller, channels := Function.update s.channels a.1 channel }

/-- No channel has been registered yet, and the descriptors are distinct. -/
structure Unregistered (s : PollerChannels ι) : Prop where
  index : ∀ i, (s.channels i).index = .kNew
  interest : ∀ i, s.poller.interest (s.channels i).fd = none
  channels : ∀ i, s.poller.channels (s.channels i).fd = none
  distinct : ∀ i j, (s.channels i).fd = (s.channels j).fd → i = j

/-- The invariant. -/
structure Consistent (s : PollerChannels ι) : Prop where
  registered : ∀ i, Registered s.poller (s.channels i)
  distinct : ∀ i j, (s.channels i).fd = (s.channels j).fd → i = j

/-- The `epoll_ctl` of a call, if it makes one, is legal. -/
def LegalCall (s : PollerChannels ι) (a : ι × ChannelCall) : Prop :=
  ∀ op, a.2.issued (s.channels a.1) = some op →
    op.Legal s.poller.interest (s.channels a.1).fd

/-- A call changes the channel it is made on, and nothing of another descriptor. -/
def Undisturbed (s : PollerChannels ι) (a : ι × ChannelCall) : Prop :=
  ∀ s', s.step a = some s' →
    (∀ j, j ≠ a.1 → s'.channels j = s.channels j) ∧
    ∀ fd, fd ≠ (s.channels a.1).fd →
      s'.poller.interest fd = s.poller.interest fd ∧ s'.poller.channels fd = s.poller.channels fd

variable {s s' : PollerChannels ι} {a : ι × ChannelCall}

omit [DecidableEq ι] in
theorem Unregistered.consistent (h : s.Unregistered) : s.Consistent := by
  refine ⟨fun i => ⟨?_, ?_, ?_⟩, h.distinct⟩
  · simp [EPollPoller.Tracked, h.interest i, h.index i]
  · intro hi
    rw [h.index i] at hi
    cases hi
  · simp [EPollPoller.hasChannel, h.channels i, h.index i]

theorem Consistent.step_eq (h : s.Consistent) (a : ι × ChannelCall) :
    s.step a = some
      { poller := a.2.poller (s.channels a.1) s.poller
        channels := Function.update s.channels a.1 (a.2.after (s.channels a.1)) } := by
  unfold step
  rw [(h.registered a.1).tracked.call_eq a.2]
  rfl

/-- **One call** keeps every channel registered. -/
theorem consistent_step (h : s.Consistent) (hs : s.step a = some s') : s'.Consistent := by
  rw [h.step_eq, Option.some.injEq] at hs
  subst hs
  have hfd : ∀ i, (Function.update s.channels a.1 (a.2.after (s.channels a.1)) i).fd =
      (s.channels i).fd := by
    intro i
    by_cases hi : i = a.1
    · subst hi
      rw [Function.update_self]
      rfl
    · rw [Function.update_of_ne hi]
  constructor
  · intro i
    show Registered _ (Function.update s.channels a.1 (a.2.after (s.channels a.1)) i)
    by_cases hi : i = a.1
    · subst hi
      rw [Function.update_self]
      exact (h.registered a.1).call a.2
    · rw [Function.update_of_ne hi]
      have hne : (s.channels i).fd ≠ (s.channels a.1).fd := fun he => hi (h.distinct i a.1 he)
      obtain ⟨hinterest, hchannels⟩ := a.2.poller_of_ne (s.channels a.1) s.poller hne
      exact (h.registered i).of_eq hinterest hchannels
  · intro i j he
    apply h.distinct i j
    rw [← hfd i, ← hfd j]
    exact he

omit [DecidableEq ι] in
theorem Consistent.legalCall (h : s.Consistent) (a : ι × ChannelCall) : s.LegalCall a := by
  intro op hop
  exact (h.registered a.1).tracked.issued_legal hop

theorem Consistent.undisturbed (h : s.Consistent) (a : ι × ChannelCall) : s.Undisturbed a := by
  intro s' hs
  rw [h.step_eq, Option.some.injEq] at hs
  subst hs
  refine ⟨fun j hj => Function.update_of_ne hj _ _, fun fd hfd => ?_⟩
  exact a.2.poller_of_ne (s.channels a.1) s.poller hfd

/-- **The registration is consistent.**  From channels that are not registered, every list of calls
runs without an abort; in every state the index, `channels_` and the kernel agree on every
channel; every `epoll_ctl` is legal; and a call leaves the other channels alone. -/
theorem registration_consistent (s : PollerChannels ι) (hs : s.Unregistered)
    (as : List (ι × ChannelCall)) :
    (∃ t, run step s as = some t) ∧
    Along step (fun s => ∀ i, Registered s.poller (s.channels i)) s as ∧
    AllSteps step LegalCall s as ∧
    AllSteps step Undisturbed s as := by
  have hstep : ∀ s a s', Consistent s → step s a = some s' → Consistent (ι := ι) s' :=
    fun _ _ _ => consistent_step
  have hinv : s.Consistent := hs.consistent
  have hrun : ∃ t, run step s as = some t ∧ t.Consistent :=
    run_enabled (fun s a h => ⟨_, h.step_eq a, consistent_step h (h.step_eq a)⟩) hinv
  obtain ⟨t, ht, -⟩ := hrun
  refine ⟨⟨t, ht⟩, ?_, ?_, ?_⟩
  · exact along_inv (fun _ h => h.registered) hstep hinv
  · exact allSteps_inv (fun _ a h => h.legalCall a) hstep hinv
  · exact allSteps_inv (fun _ a h => h.undisturbed a) hstep hinv

/-- Channels on the descriptors 5, 6, …, none of them registered. -/
def fresh : PollerChannels Nat := ⟨EPollPoller.empty, fun i => Channel.new (100 * i) (5 + i)⟩

theorem fresh_unregistered : fresh.Unregistered := by
  refine ⟨fun _ => rfl, fun _ => rfl, fun _ => rfl, fun i j h => ?_⟩
  have h' : 5 + i = 5 + j := h
  omega

theorem registration_consistent_fresh :
    ∃ t, run step fresh [(0, .enableReading), (1, .disableAll), (0, .disableAll), (0, .disableAll),
      (1, .remove), (0, .enableWriting)] = some t ∧
      ∀ i, Registered t.poller (t.channels i) := by
  obtain ⟨⟨t, ht⟩, halong, -, -⟩ := registration_consistent fresh fresh_unregistered
    [(0, .enableReading), (1, .disableAll), (0, .disableAll), (0, .disableAll), (1, .remove),
      (0, .enableWriting)]
  exact ⟨t, ht, along_last halong ht⟩

end PollerChannels

end Muduo
