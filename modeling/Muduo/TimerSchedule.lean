import Muduo.TimerFiring

/-!
# The schedule of the timers

The timers run, followed by those about to be run, as one sequence.

    schedule = fired ++ rest of the batch ++ timers_

* A step inserts timers into the schedule and takes none out; none is moved (`schedule_step`).  So
  whatever is added meanwhile, by other threads and by callbacks, timers that are waiting are run in
  the order in which they wait (`timers_in_order`).
* A timer waits in `timers_` until the first `handleRead` whose clock reading has come to its
  expiration, and that one runs it (`runs_when_due`).
-/

namespace Muduo
namespace TimerLoop

open Transition

variable {T C : Type*}

/-- The entries of the batch that have not been called. -/
def rest (s : TimerLoop T C) : List Entry :=
  match s.reading with
  | none => []
  | some r => r.rest

/-- The timers about to be run, in order. -/
def pending (s : TimerLoop T C) : List (Timer C) :=
  s.timersAt ((s.rest ++ s.queue.timers.toList).map Entry.second)

def schedule (s : TimerLoop T C) : List (Timer C) := s.fired.map Prod.fst ++ s.pending

variable {b s s' : TimerLoop T C} {e : Entry} {t : Timer C} {timer : Nat} {now : Timestamp}

theorem rest_of_reading {r : HandleRead} (h : s.reading = some r) : s.rest = r.rest := by
  rw [rest, h]

theorem batch_eq (s : TimerLoop T C) : s.batch = s.ran ++ s.rest := by
  unfold batch ran rest
  cases s.reading <;> rfl

/-! ## One step -/

theorem timersAt_append (s : TimerLoop T C) (ptrs ptrs' : List Nat) :
    s.timersAt (ptrs ++ ptrs') = s.timersAt ptrs ++ s.timersAt ptrs' := List.filterMap_append

/-- Timers that stay where they are. -/
theorem timersAt_congr {es : List Entry}
    (h : ∀ e ∈ es, s'.objs.heap e.second = s.objs.heap e.second) :
    s'.timersAt (es.map Entry.second) = s.timersAt (es.map Entry.second) := by
  unfold timersAt
  apply List.filterMap_congr
  intro p hp
  obtain ⟨e, he, rfl⟩ := List.mem_map.mp hp
  exact h e he

/-- Outside the steps of `handleRead`, timers are inserted. -/
theorem Grows.schedule (h : Sound s []) (hg : Grows s s') : s.schedule.Sublist s'.schedule := by
  have hrest : s'.rest = s.rest := by
    unfold rest
    rw [hg.reading]
  have hentries : ∀ e ∈ s.rest ++ s.queue.timers.toList,
      s'.objs.heap e.second = s.objs.heap e.second := by
    intro e he
    have hmem : e ∈ s.queue.timers.toList ++ s.batch := by
      rw [batch_eq]
      rcases List.mem_append.mp he with he | he
      · exact List.mem_append_right _ (List.mem_append_right _ he)
      · exact List.mem_append_left _ he
    obtain ⟨t, ht, -⟩ := h.entries e hmem
    rw [ht]
    exact hg.heap _ t ht
  have hsub : (s.rest ++ s.queue.timers.toList).Sublist (s'.rest ++ s'.queue.timers.toList) := by
    rw [hrest]
    exact (OrderedSet.sublist_of_subset hg.timers).append_left _
  unfold TimerLoop.schedule
  rw [hg.fired]
  refine List.Sublist.append_left ?_ _
  unfold pending
  rw [← timersAt_congr hentries]
  exact (hsub.map Entry.second).filterMap _

variable [DecidableEq T]

/-- **One step.**  The schedule grows by insertions. -/
theorem schedule_step {a : TimerAction T C} (h : Sound s []) (hstep : s.step a = some s') :
    s.schedule.Sublist s'.schedule := by
  have hsame : s.schedule = s'.schedule → s.schedule.Sublist s'.schedule :=
    fun heq => heq ▸ List.Sublist.refl _
  by_cases ha : IsHandleRead a
  · cases a with
    | handleRead now =>
      obtain ⟨hnone, rfl⟩ := handleRead_eq_some hstep
      have hcut := OrderedSet.below_append_dropBelow s.queue.timers (sentry now)
      have hrest : s.rest = [] := by
        unfold rest
        rw [hnone]
      apply hsame
      show s.schedule = s.fired.map Prod.fst ++ s.timersAt
        ((s.queue.timers.below (sentry now) ++ (s.queue.timers.dropBelow (sentry now)).toList).map
          Entry.second)
      rw [hcut, TimerLoop.schedule, pending, hrest]
      rfl
    | runExpired =>
      obtain ⟨now, ran, it, rest', timer, hread, htimer, rfl⟩ := runExpired_eq_some hstep
      apply hsame
      show s.schedule = (s.fired ++ [(timer, now)]).map Prod.fst ++
        s.timersAt ((rest' ++ s.queue.timers.toList).map Entry.second)
      rw [TimerLoop.schedule, pending, rest_of_reading hread]
      simp [timersAt, htimer]
    | reset now =>
      obtain ⟨now₀, ran, objs, queue, hread, hdelete, hrearm, rfl⟩ := reset_eq_some hstep
      obtain ⟨objs', hdelete', -, -, -, hheap⟩ := h.deleteAll hread
      cases hdelete.symm.trans hdelete'
      have htimers := TimerQueue.rearm_timers hrearm
      apply hsame
      show s.fired.map Prod.fst ++ s.timersAt ((s.rest ++ s.queue.timers.toList).map Entry.second) =
        s.fired.map Prod.fst ++ ({ s with objs, queue, reading := none } : TimerLoop T C).timersAt
          (queue.timers.toList.map Entry.second)
      rw [rest_of_reading hread, htimers, List.nil_append]
      congr 1
      exact (timersAt_congr hheap).symm
    | loop | callFunctor | newTimer | push | addTimer | elapse | otherTimer => cases ha
  · exact (grows_step ha hstep).schedule h

omit [DecidableEq T] in
/-- A timer is in the schedule once. -/
theorem Sound.schedule_nodup (h : Sound s []) : (s.schedule.map Timer.sequence).Nodup := by
  have hmade := ((h.owned.ledger.map Timer.sequence).nodup_iff).mpr h.distinct
  have hsub : (s.objs.deleted ++
      s.timersAt (s.queue.timers.toList.map Entry.second ++ s.batch.map Entry.second)).Sublist
        (s.objs.deleted ++ s.ptrs.filterMap s.objs.heap) :=
    ((List.sublist_append_right _ _).filterMap _).append_left _
  have hperm : s.schedule.Perm (s.objs.deleted ++
      s.timersAt (s.queue.timers.toList.map Entry.second ++ s.batch.map Entry.second)) := by
    rw [TimerLoop.schedule, pending, h.history, batch_eq, List.map_append, List.map_append,
      timersAt_append, timersAt_append, timersAt_append, List.append_assoc, ← List.append_assoc
        (s.timersAt (s.ran.map Entry.second))]
    exact List.perm_append_comm.append_left _
  exact ((hperm.map Timer.sequence).nodup_iff).mpr (hmade.sublist (hsub.map Timer.sequence))

/-! ## Every run -/

/-- The schedule of a sound state, kept by every run from it. -/
theorem schedule_run {as : List (TimerAction T C)} (h : Sound b []) (hrun : run step b as = some s) :
    Sound s [] ∧ b.schedule.Sublist s.schedule := by
  refine run_inv (P := fun s => Sound s [] ∧ b.schedule.Sublist s.schedule) ?_
    ⟨h, List.Sublist.refl _⟩ hrun
  rintro s a s' ⟨hs, hsub⟩ hstep
  exact ⟨sound_step s a s' hs hstep, hsub.trans (schedule_step hs hstep)⟩

omit [DecidableEq T] in
/-- Outside `handleRead` the timers wait in the order of their expirations. -/
theorem Sound.pending_sorted (h : Sound s []) (hread : s.reading = none) :
    (s.pending.map Timer.expiration).Pairwise (· ≤ ·) := by
  have hexp : s.pending.map Timer.expiration = s.queue.timers.toList.map Entry.first := by
    have hentries : ∀ es : List Entry, (∀ e ∈ es, e ∈ s.queue.timers.toList ++ s.batch) →
        (s.timersAt (es.map Entry.second)).map Timer.expiration = es.map Entry.first := by
      intro es
      induction es with
      | nil => exact fun _ => rfl
      | cons e es ih =>
        intro hes
        obtain ⟨t, ht, htime⟩ := h.entries e (hes e List.mem_cons_self)
        have htail := ih fun e' he' => hes e' (List.mem_cons_of_mem _ he')
        simp only [timersAt, List.map_cons] at htail ⊢
        rw [List.filterMap_cons_some ht, List.map_cons, htail, htime]
    have hrest : s.rest = [] := by
      unfold rest
      rw [hread]
    rw [pending, hrest, List.nil_append]
    exact hentries _ fun e he => List.mem_append_left _ he
  rw [hexp, List.pairwise_map]
  exact s.queue.timers.sorted.imp fun hlt => Entry.first_le_of_le (le_of_lt hlt)

/-- **No timer overtakes another.**  From every reachable state, whatever is added by other threads and
by callbacks and whatever the clock says, those of the timers waiting there that have been run since
are the first ones, in the order in which they were waiting.  Outside `handleRead` that is the order of
their expirations. -/
theorem timers_in_order (b : TimerLoop T C) (h : Reachable step (fun s => ∃ n, s = start n) b)
    (as : List (TimerAction T C)) (s : TimerLoop T C) (hrun : run step b as = some s) :
    (s.fired.map Prod.fst).filter (fun t => t.sequence ∈ b.pending.map Timer.sequence) <+: b.pending ∧
      (b.reading = none → (b.pending.map Timer.expiration).Pairwise (· ≤ ·)) := by
  obtain ⟨_, as₀, ⟨n, rfl⟩, hrun₀⟩ := h
  have hb := sound_of_run hrun₀
  obtain ⟨hs, hsub⟩ := schedule_run hb hrun
  refine ⟨?_, hb.pending_sorted⟩
  have hpending : b.pending.Sublist (s.fired.map Prod.fst ++ s.pending) :=
    (List.sublist_append_right _ _).trans hsub
  exact prefix_of_sublist hpending hs.schedule_nodup

/-- Three timers, and an event of the timerfd. -/
def addThree : List (TimerAction Bool Nat) :=
  [.addTimer 32 8 ⟨200⟩ 0 ⟨100⟩, .addTimer 48 9 ⟨300⟩ 0 ⟨100⟩, .addTimer 64 7 ⟨400⟩ 0 ⟨100⟩,
    .loop .enterLoop, .loop .resetQuit, .loop .testQuit, .elapse, .loop (.pollReturns false)]

/-- A callback adds a timer that is due before those that are waiting. -/
theorem timers_in_order_run :
    ∃ b s : TimerLoop Bool Nat,
      (run step (start 0) addThree = some b ∧
        run step b [.handleRead ⟨350⟩, .runExpired, .addTimer 16 5 ⟨100⟩ 0 ⟨360⟩, .runExpired] =
          some s) ∧
      (b.pending.map Timer.callback, s.pending.map Timer.callback) = ([8, 9, 7], [5, 7]) ∧
      (s.fired.map Prod.fst).filter (fun t => t.sequence ∈ b.pending.map Timer.sequence) <+: b.pending := by
  have hrun : ((run step (start 0) addThree).bind fun b =>
      (run step b [.handleRead ⟨350⟩, .runExpired, .addTimer 16 5 ⟨100⟩ 0 ⟨360⟩, .runExpired]).map
        fun s => (b.pending.map Timer.callback, s.pending.map Timer.callback)) =
      some ([8, 9, 7], [5, 7]) := by
    decide +kernel
  obtain ⟨b, hb, hrun⟩ := Option.bind_eq_some_iff.mp hrun
  obtain ⟨s, hs, hpending⟩ := Option.map_eq_some_iff.mp hrun
  exact ⟨b, s, ⟨hb, hs⟩, hpending, (timers_in_order b ⟨_, _, ⟨0, rfl⟩, hb⟩ _ s hs).1⟩

/-! ## Timers that wait -/

/-- The timer `t` is in `timers_`, at the entry `e`. -/
structure Waits (e : Entry) (t : Timer C) (s : TimerLoop T C) : Prop where
  sound : Sound s []
  entry : e ∈ s.queue.timers.toList
  heap : s.objs.heap e.second = some t

/-- The clock reading of a `handleRead` is before the expiration `when_`. -/
def ReadsBefore (when_ : Timestamp) : TimerAction T C → Prop
  | .handleRead now => now < when_
  | _ => True

theorem waits_step (s : TimerLoop T C) (a : TimerAction T C) (s' : TimerLoop T C) (h : Waits e t s)
    (ha : ReadsBefore e.first a) (hstep : s.step a = some s') : Waits e t s' := by
  have hsound := sound_step s a s' h.sound hstep
  by_cases hown : IsHandleRead a
  · cases a with
    | handleRead now =>
      obtain ⟨-, hleft⟩ := h.sound.getExpired now
      obtain ⟨-, rfl⟩ := handleRead_eq_some hstep
      refine ⟨hsound, ?_, h.heap⟩
      show e ∈ (s.queue.getExpired now).2.timers.toList
      rw [hleft, List.mem_filter, decide_eq_true_eq]
      exact ⟨h.entry, ha⟩
    | runExpired =>
      obtain ⟨_, _, _, _, _, -, -, rfl⟩ := runExpired_eq_some hstep
      exact ⟨hsound, h.entry, h.heap⟩
    | reset now =>
      obtain ⟨now₀, ran, objs, queue, hread, hdelete, hrearm, rfl⟩ := reset_eq_some hstep
      obtain ⟨objs', hdelete', -, -, -, hheap⟩ := h.sound.deleteAll hread
      cases hdelete.symm.trans hdelete'
      refine ⟨hsound, ?_, (hheap e h.entry).trans h.heap⟩
      show e ∈ queue.timers.toList
      rw [TimerQueue.rearm_timers hrearm]
      exact h.entry
    | loop | callFunctor | newTimer | push | addTimer | elapse | otherTimer => cases hown
  · have hg := grows_step hown hstep
    exact ⟨hsound, hg.timers e h.entry, hg.heap _ t h.heap⟩

omit [DecidableEq T] in
/-- A timer that waits has not been run. -/
theorem Waits.not_fired (h : Waits e t s) : ∀ x ∈ s.fired, x.1.sequence ≠ t.sequence := by
  intro x hx heq
  have hnodup := h.sound.schedule_nodup
  rw [TimerLoop.schedule, List.map_append, List.nodup_append] at hnodup
  have hmem : t ∈ s.pending := by
    refine List.mem_filterMap.mpr ⟨e.second, ?_, h.heap⟩
    exact List.mem_map_of_mem (List.mem_append_right _ h.entry)
  exact hnodup.2.2 _ (List.mem_map_of_mem (List.mem_map_of_mem hx)) _ (List.mem_map_of_mem hmem) heq

/-- **No timer is forgotten or late.**  A timer in `timers_` is still there, and has not been run, as
long as no `handleRead` has read a clock at or behind its expiration.  The first one that does runs it
before it ends. -/
theorem runs_when_due (b : TimerLoop T C) (h : Reachable step (fun s => ∃ n, s = start n) b)
    (e : Entry) (he : e ∈ b.queue.timers.toList) :
    ∃ t, b.objs.heap e.second = some t ∧ t.expiration = e.first ∧
      ∀ as s, (∀ a ∈ as, ReadsBefore e.first a) → run step b as = some s →
        e ∈ s.queue.timers.toList ∧ (∀ x ∈ s.fired, x.1.sequence ≠ t.sequence) ∧
        ∀ now s₁ as₁ s₂ now' s₃, e.first ≤ now → s.step (.handleRead now) = some s₁ →
          (∀ a ∈ as₁, ∀ now'', a ≠ TimerAction.reset now'') → run step s₁ as₁ = some s₂ →
          s₂.step (.reset now') = some s₃ → (t, now) ∈ s₃.fired := by
  obtain ⟨_, as₀, ⟨n, rfl⟩, hrun₀⟩ := h
  have hb := sound_of_run hrun₀
  obtain ⟨t, ht, hexp⟩ := hb.entries e (List.mem_append_left _ he)
  refine ⟨t, ht, hexp, fun as s has hrun => ?_⟩
  have hs : Waits e t s :=
    run_inv_of_allSteps waits_step ⟨hb, he, ht⟩ (allSteps_of_forall has) hrun
  refine ⟨hs.entry, hs.not_fired, ?_⟩
  intro now s₁ as₁ s₂ now' s₃ hdue hread has₁ hrun₁ hreset
  have hin : InHandleRead s now s₂ :=
    run_inv_of_allSteps inHandleRead_step (inHandleRead_of_step hs.sound hread)
      (allSteps_of_forall has₁) hrun₁
  obtain ⟨hfired, -⟩ := hin.fires.ends now' s₃ hreset
  rw [hfired]
  refine List.mem_append_right _ (List.mem_map.mpr ⟨t, List.mem_filterMap.mpr ⟨e.second, ?_, hs.heap⟩, rfl⟩)
  have hmem : e ∈ s.due now := List.mem_filter.mpr ⟨hs.entry, decide_eq_true hdue⟩
  exact List.mem_map_of_mem hmem

/-- A `handleRead` that comes too early for the last timer leaves it, and the next one runs it. -/
theorem runs_when_due_run :
    ∃ b s : TimerLoop Bool Nat, ∃ t,
      (run step (start 0) addThree = some b ∧
        run step b [.handleRead ⟨350⟩, .runExpired, .runExpired, .reset ⟨360⟩] = some s) ∧
      b.objs.heap 64 = some t ∧ s.queue.timers.toList = [⟨⟨400⟩, 64⟩] ∧
      ∀ x ∈ s.fired, x.1.sequence ≠ t.sequence := by
  have hrun : ((run step (start 0) addThree).bind fun b =>
      (run step b [.handleRead ⟨350⟩, .runExpired, .runExpired, .reset ⟨360⟩]).map
        fun s => (b.queue.timers.toList, s.queue.timers.toList)) =
      some ([⟨⟨200⟩, 32⟩, ⟨⟨300⟩, 48⟩, ⟨⟨400⟩, 64⟩], [⟨⟨400⟩, 64⟩]) := by
    decide +kernel
  obtain ⟨b, hb, hrun⟩ := Option.bind_eq_some_iff.mp hrun
  obtain ⟨s, hs, hend⟩ := Option.map_eq_some_iff.mp hrun
  rw [Prod.mk.injEq] at hend
  obtain ⟨t, ht, -, hwaits⟩ := runs_when_due b ⟨_, _, ⟨0, rfl⟩, hb⟩ ⟨⟨400⟩, 64⟩ (by simp [hend.1])
  refine ⟨b, s, t, ⟨hb, hs⟩, ht, hend.2, (hwaits _ s ?_ hs).2.1⟩
  simp [ReadsBefore, Timestamp.lt_iff]

end TimerLoop
end Muduo
