import Muduo.PollerRegistration

/-!
# Channels without interest

A channel whose mask is empty should not be in the interest list: epoll reports `EPOLLERR` and
`EPOLLHUP` for a descriptor it watches whatever the mask, and `handleEvent` then calls the close and
error callbacks.

`updateChannel` looks at the index first.  Only for an added channel does it look at the mask; a
channel that is new or deleted is added to the interest list, also with an empty mask.  So

    no channel without interest is ever watched   iff
        every call that empties the mask is made on an added channel, or is remove   (quiet_iff)
-/

namespace Muduo

open Transition

/-- What `epoll_wait` may report for `fd`: events asked for, and `EPOLLERR` and `EPOLLHUP` always. -/
def Interest.MayReport (interest : Interest) (fd : Nat) (revents : EventMask) : Prop :=
  ∃ event, interest fd = some event ∧
    revents &&& ~~~(event.events ||| EPOLLERR ||| EPOLLHUP) = kNoneEvent

namespace PollerChannels

variable {ι : Type*}

/-- A channel whose mask is empty is not in the interest list. -/
def Quiet (s : PollerChannels ι) : Prop :=
  ∀ i, (s.channels i).isNoneEvent = true → s.poller.interest (s.channels i).fd = none

/-- The condition on a call: if it empties the mask, the channel is an added one, or is removed. -/
def KeepsQuiet (s : PollerChannels ι) (a : ι × ChannelCall) : Prop :=
  a.2 ≠ .remove → a.2.events (s.channels a.1).events = kNoneEvent →
    (s.channels a.1).index = .kAdded

variable {s s' : PollerChannels ι} {a : ι × ChannelCall}

/-- A watched channel may always be told of a hang-up. -/
theorem mayReport_EPOLLHUP {interest : Interest} {fd : Nat} (h : interest fd ≠ none) :
    interest.MayReport fd EPOLLHUP := by
  obtain ⟨event, hevent⟩ := Option.ne_none_iff_exists'.mp h
  refine ⟨event, hevent, ?_⟩
  apply BitVec.eq_of_getLsbD_eq
  intro i hi
  simp only [BitVec.getLsbD_and, BitVec.getLsbD_not, BitVec.getLsbD_or, hi, decide_true]
  cases hbit : EPOLLHUP.getLsbD i
  · simp [kNoneEvent]
  · simp [kNoneEvent]

/-- Nothing at all can be reported for the channels without interest, or a hang-up can. -/
theorem quiet_iff_not_mayReport : s.Quiet ↔
    ∀ i, (s.channels i).isNoneEvent = true →
      ∀ revents, ¬ s.poller.interest.MayReport (s.channels i).fd revents := by
  constructor
  · intro h i hi revents
    rintro ⟨event, hevent, -⟩
    rw [h i hi] at hevent
    cases hevent
  · intro h i hi
    by_contra hne
    exact h i hi EPOLLHUP (mayReport_EPOLLHUP hne)

theorem Unregistered.quiet (h : s.Unregistered) : s.Quiet := fun i _ => h.interest i

/-! ## One call -/

/-- Whether the channel called is watched afterwards. -/
theorem poller_interest_self (c : ChannelCall) (ch : Channel) (p : EPollPoller) :
    (c.poller ch p).interest ch.fd =
      if (c.after ch).index = .kAdded then some ⟨c.events ch.events, ch.addr⟩ else none :=
  Function.update_self _ _ _

/-- A call leaves its channel with an empty mask and watched iff it breaks the condition. -/
theorem after_watched_iff (c : ChannelCall) (ch : Channel) :
    (c.after ch).isNoneEvent = true ∧ (c.after ch).index = .kAdded ↔
      c ≠ .remove ∧ c.events ch.events = kNoneEvent ∧ ch.index ≠ .kAdded := by
  unfold Channel.isNoneEvent ChannelCall.after
  dsimp only
  rw [beq_iff_eq]
  by_cases hc : c = .remove
  · simp [hc]
  · by_cases hi : ch.index = .kAdded
    · simp [hc, hi]
    · simp [hc, hi]

variable [DecidableEq ι]

/-- **One call on a quiet system** leaves it quiet iff it meets the condition. -/
theorem quiet_step_iff (h : s.Consistent) (hq : s.Quiet) (hs : s.step a = some s') :
    s'.Quiet ↔ s.KeepsQuiet a := by
  have hs' := hs
  rw [h.step_eq, Option.some.injEq] at hs
  have hself : s'.channels a.1 = a.2.after (s.channels a.1) := by
    rw [← hs]
    exact Function.update_self _ _ _
  have hpoller : s'.poller = a.2.poller (s.channels a.1) s.poller := by rw [← hs]
  have hwatched := after_watched_iff a.2 (s.channels a.1)
  have hinterest := poller_interest_self a.2 (s.channels a.1) s.poller
  constructor
  · intro hquiet hc hnone
    by_contra hi
    obtain ⟨hempty, hindex⟩ := hwatched.mpr ⟨hc, hnone, hi⟩
    have hnot := hquiet a.1 (by rw [hself]; exact hempty)
    rw [hself, hpoller] at hnot
    rw [if_pos hindex] at hinterest
    exact absurd (hinterest.symm.trans hnot) (by simp)
  · intro hkeeps i hempty
    by_cases hia : i = a.1
    · subst hia
      rw [hself] at hempty ⊢
      rw [hpoller]
      refine hinterest.trans (if_neg fun hindex => ?_)
      obtain ⟨hc, hnone, hi⟩ := hwatched.mp ⟨hempty, hindex⟩
      exact hi (hkeeps hc hnone)
    · obtain ⟨hother, hfd⟩ := h.undisturbed a s' hs'
      rw [hother i hia] at hempty ⊢
      have hne : (s.channels i).fd ≠ (s.channels a.1).fd := fun he => hia (h.distinct i a.1 he)
      rw [(hfd _ hne).1]
      exact hq i hempty

/-! ## Every run -/

/-- **A channel without interest is not watched.**  From channels that are not registered, every
list of calls can be carried out; throughout it no channel with an empty mask is in the interest
list iff every call that empties a mask is made on an added channel or is `remove`. -/
theorem quiet_iff (s : PollerChannels ι) (hs : s.Unregistered) (as : List (ι × ChannelCall)) :
    (∃ t, run step s as = some t) ∧ (Along step Quiet s as ↔ AllSteps step KeepsQuiet s as) := by
  obtain ⟨⟨t, ht⟩, -⟩ := registration_consistent s hs as
  refine ⟨⟨t, ht⟩, ?_⟩
  have hsafe : ∀ s : PollerChannels ι, s.Consistent ∧ s.Quiet → s.Quiet := fun _ h => h.2
  refine along_iff_allSteps hsafe ?_ ?_ ⟨hs.consistent, hs.quiet⟩ ht
  · rintro s a s' ⟨hc, hq⟩ hkeeps hstep
    exact ⟨consistent_step hc hstep, (quiet_step_iff hc hq hstep).mpr hkeeps⟩
  · rintro s a s' ⟨hc, hq⟩ hkeeps hstep hquiet
    exact hkeeps ((quiet_step_iff hc hq hstep).mp hquiet)

instance decidableKeepsQuiet (s : PollerChannels ι) (a : ι × ChannelCall) :
    Decidable (s.KeepsQuiet a) := inferInstanceAs (Decidable (_ → _ → _))

/-- A channel that is enabled, disabled and removed is never watched with an empty mask. -/
theorem quiet_iff_closed :
    Along step Quiet fresh [(0, .enableReading), (1, .enableWriting), (0, .disableAll),
      (0, .remove)] :=
  (quiet_iff fresh fresh_unregistered _).2.mpr (by decide)

/-- **`disableAll` registers a channel.**  On a channel never registered (`~Acceptor` before
`listen`), and again on one already disabled, `disableAll` puts the descriptor in the interest list
with an empty mask, and a hang-up is dispatched to the close callback. -/
theorem disableAll_watches :
    ∃ t, run step fresh [(0, .disableAll), (1, .enableReading), (1, .disableAll),
        (1, .disableAll)] = some t ∧
      ∀ i, i = 0 ∨ i = 1 → (t.channels i).isNoneEvent = true ∧
        t.poller.interest.MayReport (t.channels i).fd EPOLLHUP ∧
        eventCallbacks EPOLLHUP = [.close] := by
  refine ⟨_, rfl, ?_⟩
  rintro i (rfl | rfl)
  · exact ⟨rfl, mayReport_EPOLLHUP (by decide), rfl⟩
  · exact ⟨rfl, mayReport_EPOLLHUP (by decide), rfl⟩

end PollerChannels
end Muduo
