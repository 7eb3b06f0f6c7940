import Muduo.PollerRegistration
import Muduo.Lib.RoundRobin

/-!
# EPollPoller::poll, round after round

`poll` and `fillActiveChannels` over the kernel's ready list, which `epoll_wait` serves in rounds, and the
growth of `events_`.

* `Kept`: the invariant.  What is ready is watched, and what is watched is a registered channel.
* `poll` hands out registered channels only, each once, with events that were asked for
  (`poll_reports_registered`).
* A descriptor that stays ready is reported, however many others are ready with it (`poll_no_starvation`):

      position < events_.size() * (2 ^ polls - 1)  →  one of these polls reports it

* `events_` grows to at most twice the longest ready list (`eventsSize_le`).
-/

namespace Muduo

open Transition

def kInitEventListSize : Nat := 16

/-- The poller of one loop, with the channels on it. -/
structure PollLoop (ι : Type*) where
  registration : PollerChannels ι
  /-- the descriptors the kernel finds ready, in the order in which it serves them -/
  ready : List Nat
  /-- `events_.size()` -/
  eventsSize : Nat
  /-- the addresses in `activeChannels_` -/
  activeChannels : List Nat

/-- What happens to the poller. -/
inductive PollAction (ι : Type*)
  /-- a call of a channel -/
  | call (i : ι) (c : ChannelCall)
  /-- some descriptors cease to be ready, and others become ready -/
  | change (stay : Nat → Bool) (arrivals : List Nat)
  /-- `poll`, with what has happened on each descriptor -/
  | poll (happened : Nat → EventMask)
  /-- `poll`, in which `epoll_wait` fails with `EINTR` -/
  | interrupted

/-- The events that are reported whether or not they are asked for. -/
def alwaysReported : EventMask := EPOLLERR ||| EPOLLHUP

/-- What `epoll_wait` writes into `events_`. -/
def epollWait (interest : Interest) (ready : List Nat) (maxevents : Nat) (happened : Nat → EventMask) :
    List EpollEvent :=
  (ready.take maxevents).filterMap fun fd => (interest fd).map fun event =>
    { event with events := happened fd &&& (event.events ||| alwaysReported) }

theorem mem_epollWait {interest : Interest} {ready : List Nat} {maxevents fd : Nat} {event : EpollEvent}
    (happened : Nat → EventMask) (hfd : fd ∈ ready.take maxevents) (hevent : interest fd = some event) :
    { event with events := happened fd &&& (event.events ||| alwaysReported) } ∈
      epollWait interest ready maxevents happened := by
  refine List.mem_filterMap.mpr ⟨fd, hfd, ?_⟩
  rw [hevent]
  rfl

namespace PollLoop

variable {ι : Type*}

/-- `channel->set_revents(events_[i].events)`. -/
def setRevents (channels : ι → Channel) (event : EpollEvent) : ι → Channel := fun i =>
  if (channels i).addr = event.ptr then { channels i with revents := event.events } else channels i

/-- The channels afterwards, and what is pushed on `activeChannels`. -/
def fillActiveChannels (channels : ι → Channel) (events : List EpollEvent) :
    (ι → Channel) × List Nat :=
  (events.foldl setRevents channels, events.map EpollEvent.ptr)

/-- `activeChannels_.clear(); poller_->poll(kPollTimeMs, &activeChannels_)`. -/
def poll (s : PollLoop ι) (happened : Nat → EventMask) : Option (PollLoop ι) :=
  let events := epollWait s.registration.poller.interest s.ready s.eventsSize happened
  if events.all fun event => event.events != 0 then
    let (channels, activeChannels) := fillActiveChannels s.registration.channels events
    let numEvents := events.length
    some
      { registration := { s.registration with channels }
        ready := RoundRobin.serve s.eventsSize s.ready
        eventsSize :=
          if numEvents > 0 ∧ numEvents = s.eventsSize then s.eventsSize * 2 else s.eventsSize
        activeChannels }
  -- the kernel reports a descriptor for something that has happened on it
  else none

variable [DecidableEq ι]

def step (s : PollLoop ι) : PollAction ι → Option (PollLoop ι)
  | .call i c => (s.registration.step (i, c)).map fun registration =>
    { s with
      registration
      ready := s.ready.filter fun fd => (registration.poller.interest fd).isSome }
  | .change stay arrivals =>
    if arrivals.Nodup ∧ ∀ fd ∈ arrivals, fd ∉ s.ready ∧
        (s.registration.poller.interest fd).isSome = true then
      some { s with ready := RoundRobin.change stay arrivals s.ready }
    else none
  | .poll happened => s.poll happened
  | .interrupted => some { s with activeChannels := [] }

/-- A new poller, and channels that are not registered. -/
def start (channels : ι → Channel) : PollLoop ι where
  registration := ⟨.empty, channels⟩
  ready := []
  eventsSize := kInitEventListSize
  activeChannels := []

/-! ## The invariant -/

/-- What is ready is watched, and what is watched is a registered channel. -/
structure Kept (s : PollLoop ι) : Prop where
  consistent : s.registration.Consistent
  /-- the channels are different objects -/
  objects : ∀ i j, (s.registration.channels i).addr = (s.registration.channels j).addr → i = j
  nodup : s.ready.Nodup
  ready : ∀ fd ∈ s.ready, (s.registration.poller.interest fd).isSome = true
  owned : ∀ fd, (s.registration.poller.interest fd).isSome = true →
    ∃ i, (s.registration.channels i).fd = fd
  positive : 0 < s.eventsSize

variable {s s' : PollLoop ι}

omit [DecidableEq ι] in
/-- Nothing but `revents_` changes. -/
theorem fill_eq (channels : ι → Channel) (events : List EpollEvent) (i : ι) :
    ∃ revents, (fillActiveChannels channels events).1 i = { channels i with revents } := by
  simp only [fillActiveChannels]
  induction events generalizing channels with
  | nil => exact ⟨(channels i).revents, rfl⟩
  | cons event events ih =>
    obtain ⟨revents, h⟩ := ih (setRevents channels event)
    rw [List.foldl_cons, h]
    by_cases haddr : (channels i).addr = event.ptr
    · exact ⟨revents, by simp only [setRevents, if_pos haddr]⟩
    · exact ⟨revents, by simp only [setRevents, if_neg haddr]⟩

omit [DecidableEq ι] in
/-- The channel of an event gets what the event says. -/
theorem fill_reported {channels : ι → Channel} {events : List EpollEvent} {event : EpollEvent} {i : ι}
    (hnodup : (events.map EpollEvent.ptr).Nodup) (hmem : event ∈ events)
    (haddr : (channels i).addr = event.ptr) :
    (fillActiveChannels channels events).1 i = { channels i with revents := event.events } := by
  simp only [fillActiveChannels]
  induction events generalizing channels with
  | nil => cases hmem
  | cons first events ih =>
    rw [List.map_cons, List.nodup_cons] at hnodup
    rw [List.foldl_cons]
    rcases List.mem_cons.mp hmem with rfl | hmem
    · -- no later event is for this channel
      have hrest : ∀ (rest : List EpollEvent) (chs : ι → Channel), (chs i).addr = event.ptr →
          event.ptr ∉ rest.map EpollEvent.ptr → rest.foldl setRevents chs i = chs i := by
        intro rest
        induction rest with
        | nil => exact fun _ _ _ => rfl
        | cons later rest ihr =>
          intro chs hch hnot
          rw [List.map_cons, List.mem_cons, not_or] at hnot
          have hne : (chs i).addr ≠ later.ptr := fun he => hnot.1 (hch.symm.trans he)
          have hstep : setRevents chs later i = chs i := if_neg hne
          rw [List.foldl_cons, ihr (setRevents chs later) (by rw [hstep]; exact hch) hnot.2, hstep]
      have hset : setRevents channels event i = { channels i with revents := event.events } :=
        if_pos haddr
      rw [hrest events (setRevents channels event) (by rw [hset]; exact haddr) hnodup.1, hset]
    · have hne : (channels i).addr ≠ first.ptr := by
        intro he
        apply hnodup.1
        rw [← he, haddr]
        exact List.mem_map_of_mem hmem
      have hset : setRevents channels first i = channels i := if_neg hne
      rw [ih hnodup.2 hmem (by rw [hset]; exact haddr), hset]

/-! ## What a poll reports -/

omit [DecidableEq ι] in
/-- The channel of a ready descriptor. -/
theorem Kept.reported (h : Kept s) {fd : Nat} (hfd : fd ∈ s.ready) :
    ∃ i, (s.registration.channels i).fd = fd ∧ (s.registration.channels i).index = .kAdded ∧
      s.registration.poller.interest fd =
        some ⟨(s.registration.channels i).events, (s.registration.channels i).addr⟩ := by
  obtain ⟨i, hi⟩ := h.owned fd (h.ready fd hfd)
  have hregistered := h.consistent.registered i
  have hadded : (s.registration.channels i).index = .kAdded := by
    apply hregistered.tracked.mp
    rw [hi]
    exact h.ready fd hfd
  refine ⟨i, hi, hadded, ?_⟩
  rw [← hi]
  exact hregistered.event hadded

omit [DecidableEq ι] in
/-- Every descriptor of the batch makes one event. -/
theorem Kept.length_epollWait (h : Kept s) (happened : Nat → EventMask) :
    (epollWait s.registration.poller.interest s.ready s.eventsSize happened).length =
      (s.ready.take s.eventsSize).length := by
  unfold epollWait
  rw [List.filterMap_length_eq_length]
  intro fd hfd
  rw [Option.isSome_map]
  exact h.ready fd (List.mem_of_mem_take hfd)

omit [DecidableEq ι] in
/-- The events are of different channels. -/
theorem Kept.nodup_ptr (h : Kept s) (happened : Nat → EventMask) :
    ((epollWait s.registration.poller.interest s.ready s.eventsSize happened).map
      EpollEvent.ptr).Nodup := by
  unfold epollWait
  rw [List.map_filterMap]
  have htake : (s.ready.take s.eventsSize).Nodup := h.nodup.sublist (List.take_sublist _ _)
  rw [List.nodup_iff_pairwise_ne] at htake ⊢
  refine List.pairwise_filterMap.mpr (htake.imp_of_mem ?_)
  intro fd fd' hfd hfd' hne ptr hptr ptr' hptr' heq
  obtain ⟨i, hi, -, hinterest⟩ := h.reported (List.mem_of_mem_take hfd)
  obtain ⟨j, hj, -, hinterest'⟩ := h.reported (List.mem_of_mem_take hfd')
  rw [hinterest] at hptr
  rw [hinterest'] at hptr'
  cases hptr
  cases hptr'
  obtain rfl := h.objects i j heq
  exact hne (hi.symm.trans hj)

/-! ## One action -/

omit [DecidableEq ι] in
theorem poll_eq_some {happened : Nat → EventMask} (h : s.poll happened = some s') :
    (∀ event ∈ epollWait s.registration.poller.interest s.ready s.eventsSize happened,
        event.events ≠ 0) ∧
      s' =
        { registration :=
            { s.registration with
              channels := (fillActiveChannels s.registration.channels
                (epollWait s.registration.poller.interest s.ready s.eventsSize happened)).1 }
          ready := RoundRobin.serve s.eventsSize s.ready
          eventsSize :=
            if (epollWait s.registration.poller.interest s.ready s.eventsSize happened).length > 0 ∧
                (epollWait s.registration.poller.interest s.ready s.eventsSize happened).length =
                  s.eventsSize then s.eventsSize * 2 else s.eventsSize
          activeChannels := (epollWait s.registration.poller.interest s.ready s.eventsSize happened).map
            EpollEvent.ptr } := by
  unfold poll at h
  simp only at h
  split at h
  · next hall =>
    cases h
    refine ⟨fun event hevent => ?_, rfl⟩
    simpa using List.all_eq_true.mp hall event hevent
  · cases h

theorem kept_call (h : Kept s) {i : ι} {c : ChannelCall} (hstep : s.step (.call i c) = some s') :
    Kept s' := by
  obtain ⟨registration, hcall, rfl⟩ := Option.map_eq_some_iff.mp hstep
  have hconsistent := PollerChannels.consistent_step h.consistent hcall
  rw [h.consistent.step_eq, Option.some.injEq] at hcall
  subst hcall
  have hchannel : ∀ j, (Function.update s.registration.channels i (c.after (s.registration.channels i)) j).fd =
        (s.registration.channels j).fd ∧
      (Function.update s.registration.channels i (c.after (s.registration.channels i)) j).addr =
        (s.registration.channels j).addr := by
    intro j
    by_cases hj : j = i
    · subst hj
      rw [Function.update_self]
      exact ⟨rfl, rfl⟩
    · rw [Function.update_of_ne hj]
      exact ⟨rfl, rfl⟩
  constructor
  · exact hconsistent
  · intro j k haddr
    apply h.objects j k
    rw [← (hchannel j).2, ← (hchannel k).2]
    exact haddr
  · exact h.nodup.filter _
  · intro fd hfd
    exact (List.mem_filter.mp hfd).2
  · intro fd hfd
    by_cases hi : fd = (s.registration.channels i).fd
    · exact ⟨i, (hchannel i).1.trans hi.symm⟩
    · have hother := (c.poller_of_ne (s.registration.channels i) s.registration.poller hi).1
      rw [hother] at hfd
      obtain ⟨j, hj⟩ := h.owned fd hfd
      exact ⟨j, (hchannel j).1.trans hj⟩
  · exact h.positive

theorem kept_change (h : Kept s) {stay : Nat → Bool} {arrivals : List Nat}
    (hstep : s.step (.change stay arrivals) = some s') : Kept s' := by
  simp only [step] at hstep
  split at hstep
  · next hcond =>
    obtain ⟨hnodup, harrivals⟩ := hcond
    cases hstep
    constructor
    · exact h.consistent
    · exact h.objects
    · refine List.Nodup.append (h.nodup.filter _) hnodup ?_
      intro fd hfd harrive
      exact (harrivals fd harrive).1 (List.mem_filter.mp hfd).1
    · intro fd hfd
      rcases List.mem_append.mp hfd with hfd | harrive
      · exact h.ready fd (List.mem_filter.mp hfd).1
      · exact (harrivals fd harrive).2
    · exact h.owned
    · exact h.positive
  · cases hstep

omit [DecidableEq ι] in
theorem kept_poll (h : Kept s) {happened : Nat → EventMask} (hstep : s.poll happened = some s') :
    Kept s' := by
  obtain ⟨-, rfl⟩ := poll_eq_some hstep
  have hfill := fill_eq s.registration.channels
    (epollWait s.registration.poller.interest s.ready s.eventsSize happened)
  have hsame : ∀ i, ((fillActiveChannels s.registration.channels
        (epollWait s.registration.poller.interest s.ready s.eventsSize happened)).1 i).fd =
          (s.registration.channels i).fd ∧
      ((fillActiveChannels s.registration.channels
        (epollWait s.registration.poller.interest s.ready s.eventsSize happened)).1 i).addr =
          (s.registration.channels i).addr := by
    intro i
    obtain ⟨revents, hi⟩ := hfill i
    rw [hi]
    exact ⟨rfl, rfl⟩
  constructor
  · constructor
    · intro i
      obtain ⟨revents, hi⟩ := hfill i
      have hregistered := h.consistent.registered i
      simp only [hi]
      exact ⟨hregistered.tracked, hregistered.event, hregistered.mapped⟩
    · intro i j hfd
      apply h.consistent.distinct i j
      rw [← (hsame i).1, ← (hsame j).1]
      exact hfd
  · intro i j haddr
    apply h.objects i j
    rw [← (hsame i).2, ← (hsame j).2]
    exact haddr
  · exact RoundRobin.nodup_serve h.nodup
  · intro fd hfd
    exact h.ready fd (RoundRobin.mem_serve.mp hfd)
  · intro fd hfd
    obtain ⟨i, hi⟩ := h.owned fd hfd
    exact ⟨i, (hsame i).1.trans hi⟩
  · have hpositive := h.positive
    simp only
    split
    · omega
    · exact hpositive

/-- **Every action** keeps the invariant. -/
theorem kept_step (s : PollLoop ι) (a : PollAction ι) (s' : PollLoop ι) (h : Kept s)
    (hstep : s.step a = some s') : Kept s' := by
  cases a with
  | call i c => exact kept_call h hstep
  | change stay arrivals => exact kept_change h hstep
  | poll happened => exact kept_poll h hstep
  | interrupted =>
    cases hstep
    exact ⟨h.consistent, h.objects, h.nodup, h.ready, h.owned, h.positive⟩

/-- The channels of a loop before anything is registered: different objects on different
descriptors. -/
structure New (channels : ι → Channel) : Prop where
  index : ∀ i, (channels i).index = .kNew
  distinct : ∀ i j, (channels i).fd = (channels j).fd → i = j
  objects : ∀ i j, (channels i).addr = (channels j).addr → i = j

omit [DecidableEq ι] in
theorem kept_start {channels : ι → Channel} (h : New channels) : Kept (start channels) := by
  constructor
  · exact PollerChannels.Unregistered.consistent ⟨h.index, fun _ => rfl, fun _ => rfl, h.distinct⟩
  · exact h.objects
  · exact List.nodup_nil
  · intro fd hfd
    cases hfd
  · intro fd hfd
    cases hfd
  · show 0 < kInitEventListSize
    decide

theorem kept_of_run {channels : ι → Channel} (h : New channels) {as : List (PollAction ι)}
    (hrun : run step (start channels) as = some s) : Kept s :=
  run_inv kept_step (kept_start h) hrun

/-! ## What the channels are told -/

/-- The channels `0`, `1`, … on the descriptors `5`, `6`, …. -/
def fresh (i : Nat) : Channel := Channel.new (100 * i) (5 + i)

theorem new_fresh : New fresh := by
  refine ⟨fun _ => rfl, fun i j h => ?_, fun i j h => ?_⟩
  · have h' : 5 + i = 5 + j := h
    omega
  · have h' : 100 * i = 100 * j := h
    omega

/-- **Only registered channels are active.**  Whatever the channels have called and whatever has become
ready, a `poll` fills `activeChannels_` with as many channels as are ready and fit into `events_`, each of
them once; each is registered with the poller, and its `revents_` holds some event, and none but those it
asked for, `EPOLLERR` and `EPOLLHUP`. -/
theorem poll_reports_registered (channels : ι → Channel) (h : New channels)
    (as : List (PollAction ι)) (s : PollLoop ι) (hrun : run step (start channels) as = some s)
    (happened : Nat → EventMask) (s' : PollLoop ι) (hpoll : s.step (.poll happened) = some s') :
    s'.activeChannels.Nodup ∧ s'.activeChannels.length = min s.eventsSize s.ready.length ∧
      ∀ addr ∈ s'.activeChannels, ∃ i, (s'.registration.channels i).addr = addr ∧
        (s'.registration.channels i).index = .kAdded ∧
        (s'.registration.channels i).revents ≠ 0 ∧
        (s'.registration.channels i).revents &&&
          ~~~((s'.registration.channels i).events ||| alwaysReported) = 0 := by
  have hkept := kept_of_run h hrun
  obtain ⟨hevents, rfl⟩ := poll_eq_some hpoll
  have hnodup := hkept.nodup_ptr happened
  refine ⟨hnodup, ?_, ?_⟩
  · rw [List.length_map, hkept.length_epollWait, List.length_take]
  · intro addr haddr
    obtain ⟨event, hevent, rfl⟩ := List.mem_map.mp haddr
    have hne := hevents event hevent
    obtain ⟨fd, hfd, hmap⟩ := List.mem_filterMap.mp hevent
    obtain ⟨i, hi, hadded, hinterest⟩ := hkept.reported (List.mem_of_mem_take hfd)
    rw [hinterest, Option.map_some, Option.some.injEq] at hmap
    have hptr : (s.registration.channels i).addr = event.ptr := by rw [← hmap]
    have hfill := fill_reported hnodup hevent hptr
    refine ⟨i, ?_, ?_, ?_, ?_⟩
    · simp only [hfill]
      exact hptr
    · simp only [hfill]
      exact hadded
    · simp only [hfill]
      exact hne
    · simp only [hfill, ← hmap]
      rw [BitVec.and_assoc, BitVec.and_not_self]
      exact BitVec.and_zero

/-- Two channels are ready, one of them for more than it has asked for. -/
theorem poll_reports_registered_run :
    ∃ s s', run step (start fresh) [.call 0 .enableReading, .call 1 .enableWriting,
        .change (fun _ => true) [6, 5]] = some s ∧
      s.step (.poll fun _ => EPOLLIN ||| EPOLLHUP) = some s' ∧
      s'.activeChannels = [100, 0] ∧ s'.activeChannels.Nodup := by
  have hstep : ((run step (start fresh) [.call 0 .enableReading, .call 1 .enableWriting,
      .change (fun _ => true) [6, 5]]).bind fun s =>
      (s.step (.poll fun _ => EPOLLIN ||| EPOLLHUP)).map PollLoop.activeChannels) = some [100, 0] := by
    decide +kernel
  obtain ⟨s, hs, hstep⟩ := Option.bind_eq_some_iff.mp hstep
  obtain ⟨s', hs', hactive⟩ := Option.map_eq_some_iff.mp hstep
  exact ⟨s, s', hs, hs', hactive, (poll_reports_registered fresh new_fresh _ s hs _ s' hs').1⟩

/-! ## Nothing ready is passed over for ever -/

/-- The action is a `poll` that was not interrupted. -/
def isPoll : PollAction ι → Bool
  | .poll _ => true
  | _ => false

/-- The action is a `poll` that makes the channel active. -/
def reports (i : ι) (s : PollLoop ι) (a : PollAction ι) : Bool :=
  isPoll a && (s.step a).any fun s' => s'.activeChannels.contains (s'.registration.channels i).addr

/-- The descriptor is waiting for its turn. -/
abbrev WaitsFor (s : PollLoop ι) (fd bound size n : Nat) : Prop :=
  RoundRobin.Waiting fd bound size n s.ready s.eventsSize

/-- A `poll` that does not report the channel takes a full batch, and `events_` grows. -/
theorem waits_poll (h : Kept s) {i : ι} {bound size n : Nat} {happened : Nat → EventMask}
    (hwaits : s.WaitsFor (s.registration.channels i).fd bound size n)
    (hreports : reports i s (.poll happened) = false) (hpoll : s.poll happened = some s') :
    s'.WaitsFor (s.registration.channels i).fd bound size (n + 1) := by
  have hnot : (s.registration.channels i).fd ∉ s.ready.take s.eventsSize := by
    intro hmem
    obtain ⟨j, hj, -, hinterest⟩ := h.reported (List.mem_of_mem_take hmem)
    obtain rfl := h.consistent.distinct j i hj
    have hstep : s.step (.poll happened) = some s' := hpoll
    obtain ⟨-, rfl⟩ := poll_eq_some hpoll
    obtain ⟨revents, hfill⟩ := fill_eq s.registration.channels
      (epollWait s.registration.poller.interest s.ready s.eventsSize happened) j
    have hactive : (s.registration.channels j).addr ∈
        (epollWait s.registration.poller.interest s.ready s.eventsSize happened).map EpollEvent.ptr := by
      exact List.mem_map.mpr ⟨_, mem_epollWait happened hmem hinterest, rfl⟩
    simp only [reports, isPoll, hstep, Option.any_some, Bool.true_and, hfill] at hreports
    rw [List.contains_iff_mem.mpr hactive] at hreports
    cases hreports
  obtain ⟨hlen, hserve⟩ := hwaits.serve hnot
  obtain ⟨-, rfl⟩ := poll_eq_some hpoll
  have hfull := (h.length_epollWait happened).trans hlen
  simp only [WaitsFor]
  rw [if_pos ⟨by rw [hfull]; exact h.positive, hfull⟩]
  exact hserve

/-- An action other than a `poll` leaves the descriptor where it is, or brings it forward. -/
theorem waits_other {fd bound size n : Nat} (hwaits : s.WaitsFor fd bound size n) {a : PollAction ι}
    (ha : isPoll a = false) (hstep : s.step a = some s') (hready : fd ∈ s'.ready) :
    s'.WaitsFor fd bound size n := by
  cases a with
  | poll happened => cases ha
  | interrupted =>
    cases hstep
    exact hwaits
  | call i c =>
    obtain ⟨registration, -, rfl⟩ := Option.map_eq_some_iff.mp hstep
    have hstay := (List.mem_filter.mp hready).2
    have hchange := hwaits.change [] (fun fd => (registration.poller.interest fd).isSome) hstay
    rw [RoundRobin.change, List.append_nil] at hchange
    exact hchange
  | change stay arrivals =>
    simp only [step] at hstep
    split at hstep
    · next hcond =>
      cases hstep
      have hstay : stay fd = true := by
        rcases List.mem_append.mp hready with hmem | harrive
        · exact (List.mem_filter.mp hmem).2
        · exact absurd hwaits.mem (hcond.2 fd harrive).1
      exact hwaits.change arrivals stay hstay
    · cases hstep

/-- The descriptor of a channel does not change. -/
theorem fd_step {i : ι} {a : PollAction ι} (h : Kept s) (hstep : s.step a = some s') :
    (s'.registration.channels i).fd = (s.registration.channels i).fd := by
  cases a with
  | call j c =>
    obtain ⟨registration, hcall, rfl⟩ := Option.map_eq_some_iff.mp hstep
    rw [h.consistent.step_eq, Option.some.injEq] at hcall
    subst hcall
    by_cases hi : i = j
    · subst hi
      simp only [Function.update_self]
      rfl
    · simp only [Function.update_of_ne hi]
  | change stay arrivals =>
    simp only [step] at hstep
    split at hstep
    · cases hstep
      rfl
    · cases hstep
  | poll happened =>
    obtain ⟨-, rfl⟩ := poll_eq_some hstep
    obtain ⟨revents, hfill⟩ := fill_eq s.registration.channels
      (epollWait s.registration.poller.interest s.ready s.eventsSize happened) i
    simp only [hfill]
  | interrupted =>
    cases hstep
    rfl

/-- **A run without a report**: the descriptor has moved up by all the batches taken. -/
theorem waits_run {i : ι} {fd bound size : Nat} {as : List (PollAction ι)} :
    ∀ {s t : PollLoop ι} {n : Nat}, Kept s → (s.registration.channels i).fd = fd →
      s.WaitsFor fd bound size n → Along step (fun s => fd ∈ s.ready) s as →
      countSteps step (reports i) s as = 0 → run step s as = some t →
      t.WaitsFor fd bound size (n + countSteps step (fun _ a => isPoll a) s as) := by
  induction as with
  | nil =>
    intro s t n _ _ hwaits _ _ hrun
    cases hrun
    exact hwaits
  | cons a as ih =>
    intro s t n hkept hfd hwaits hready hcount hrun
    obtain ⟨s', hstep, hrest⟩ := run_cons_eq_some.mp hrun
    have hready' := hready.2 s' hstep
    rw [countSteps_cons hstep] at hcount ⊢
    have hnone : reports i s a = false := by
      cases hr : reports i s a
      · rfl
      · rw [hr, Bool.toNat_true] at hcount
        omega
    have hfd' : (s'.registration.channels i).fd = fd := (fd_step hkept hstep).trans hfd
    cases hpoll : isPoll a
    · have hwaits' := waits_other hwaits hpoll hstep hready'.head
      have hrec := ih (kept_step s a s' hkept hstep) hfd' hwaits' hready' (by omega) hrest
      rw [Bool.toNat_false, Nat.zero_add]
      exact hrec
    · cases a with
      | poll happened =>
        have hwaits' : s'.WaitsFor fd bound size (n + 1) := by
          rw [← hfd] at hwaits ⊢
          exact waits_poll hkept hwaits hnone hstep
        have hrec := ih (kept_step s _ s' hkept hstep) hfd' hwaits' hready' (by omega) hrest
        rw [Bool.toNat_true, ← Nat.add_assoc]
        exact hrec
      | call | change | interrupted => cases hpoll

/-- **No descriptor starves.**  Take any state that a run reaches, and a channel whose descriptor is in
the kernel's ready list and stays there in a run that goes on.  However many others are ready with it and
become ready meanwhile, one of the first `n` polls reports the channel, as soon as
`events_.size() * (2 ^ n - 1)` exceeds its place in the list: each poll that passes it over was full, so
`events_` has doubled. -/
theorem poll_no_starvation (channels : ι → Channel) (h : New channels) (before : List (PollAction ι))
    (s : PollLoop ι) (hbefore : run step (start channels) before = some s) (i : ι)
    (as : List (PollAction ι)) (t : PollLoop ι) (hrun : run step s as = some t)
    (hready : Along step (fun u => (s.registration.channels i).fd ∈ u.ready) s as)
    (hpolls : s.ready.idxOf (s.registration.channels i).fd <
      s.eventsSize * (2 ^ countSteps step (fun _ a => isPoll a) s as - 1)) :
    0 < countSteps step (reports i) s as := by
  by_contra hzero
  have hkept := kept_of_run h hbefore
  have hwaits := waits_run hkept rfl (RoundRobin.Waiting.start hready.head) hready (by omega) hrun
  have hle := hwaits.le_bound
  rw [Nat.zero_add] at hle
  omega

/-- With seventeen descriptors ready the last one is reported by the second poll. -/
theorem poll_no_starvation_run :
    ∃ s t, run step (start fresh) ((List.range 17).map (fun i => .call i .enableReading) ++
        [.change (fun _ => true) ((List.range 17).map (5 + ·))]) = some s ∧
      run step s [.poll fun _ => EPOLLIN, .poll fun _ => EPOLLIN] = some t ∧
      0 < countSteps step (reports 16) s [.poll fun _ => EPOLLIN, .poll fun _ => EPOLLIN] := by
  have hrun : ((run step (start fresh) ((List.range 17).map (fun i => .call i .enableReading) ++
        [.change (fun _ => true) ((List.range 17).map (5 + ·))])).bind fun s =>
      (run step s [.poll fun _ => EPOLLIN, .poll fun _ => EPOLLIN]).map fun _ =>
        (decide (Along step (fun u => (s.registration.channels 16).fd ∈ u.ready) s
          [.poll fun _ => EPOLLIN, .poll fun _ => EPOLLIN]),
        decide (s.ready.idxOf (s.registration.channels 16).fd < s.eventsSize *
          (2 ^ countSteps step (fun _ a => isPoll a) s [.poll fun _ => EPOLLIN, .poll fun _ => EPOLLIN]
            - 1)))) = some (true, true) := by
    decide +kernel
  obtain ⟨s, hs, hrun⟩ := Option.bind_eq_some_iff.mp hrun
  obtain ⟨t, ht, hlook⟩ := Option.map_eq_some_iff.mp hrun
  simp only [Prod.mk.injEq, decide_eq_true_eq] at hlook
  exact ⟨s, t, hs, ht, poll_no_starvation fresh new_fresh _ s hs 16 _ t ht hlook.1 hlook.2⟩

/-- **`events_` stays small**: at most twice the longest ready list that a poll has found, and never less
than at the start. -/
theorem eventsSize_le (channels : ι → Channel) (longest : Nat) (as : List (PollAction ι))
    (s : PollLoop ι) (hrun : run step (start channels) as = some s)
    (hready : AllSteps step (fun s _ => s.ready.length ≤ longest) (start channels) as) :
    kInitEventListSize ≤ s.eventsSize ∧ s.eventsSize ≤ max kInitEventListSize (2 * longest) := by
  have hstep : ∀ (s : PollLoop ι) a s', (kInitEventListSize ≤ s.eventsSize ∧
        s.eventsSize ≤ max kInitEventListSize (2 * longest)) → s.ready.length ≤ longest →
      s.step a = some s' →
      kInitEventListSize ≤ s'.eventsSize ∧ s'.eventsSize ≤ max kInitEventListSize (2 * longest) := by
    intro s a s' hs hlen hstep
    cases a with
    | call j c =>
      obtain ⟨registration, -, rfl⟩ := Option.map_eq_some_iff.mp hstep
      exact hs
    | change stay arrivals =>
      simp only [step] at hstep
      split at hstep
      · cases hstep
        exact hs
      · cases hstep
    | poll happened =>
      obtain ⟨-, rfl⟩ := poll_eq_some hstep
      have hle : (epollWait s.registration.poller.interest s.ready s.eventsSize happened).length ≤
          s.ready.length := by
        refine Nat.le_trans (List.length_filterMap_le _ _) ?_
        rw [List.length_take]
        exact Nat.min_le_right _ _
      simp only
      split
      · omega
      · exact hs
    | interrupted =>
      cases hstep
      exact hs
  exact run_inv_of_allSteps hstep ⟨Nat.le_refl _, Nat.le_max_left _ _⟩ hready hrun

/-- Seventeen ready descriptors, and two polls: `events_` has doubled once. -/
def seventeenReady : List (PollAction Nat) :=
  (List.range 17).map (fun i => .call i .enableReading) ++
    [.change (fun _ => true) ((List.range 17).map (5 + ·)), .poll fun _ => EPOLLIN, .poll fun _ => EPOLLIN]

theorem eventsSize_le_run : ∃ s, run step (start fresh) seventeenReady = some s ∧ s.eventsSize = 32 ∧
    s.eventsSize ≤ max kInitEventListSize (2 * 17) := by
  have hready : AllSteps step (fun s _ => s.ready.length ≤ 17) (start fresh) seventeenReady := by
    decide +kernel
  refine exists_run_eq PollLoop.eventsSize 32 (by decide +kernel) fun s hs hsize => ?_
  exact ⟨hsize, (eventsSize_le fresh 17 seventeenReady s hs hready).2⟩

end PollLoop
end Muduo
