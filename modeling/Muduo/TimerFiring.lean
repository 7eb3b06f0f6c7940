import Muduo.TimerLoop

/-!
# Every timer fires once, in time and in order

What holds of every run of a `TimerLoop`:

    deleted ++ waiting ++ timers_ ++ batch  is a permutation of  made     (one_shot)

* A timer that is run is due at the clock reading of its `handleRead`, and is run once.
* A `handleRead` runs all timers that are due, earliest first, and leaves the others in `timers_`,
  whatever the callbacks add meanwhile (`InHandleRead`, kept by every step but `reset`).
-/

namespace Muduo
namespace TimerLoop

open Transition

variable {T C : Type*} [DecidableEq T] {b s s' : TimerLoop T C} {timer : Nat} {now : Timestamp}

/-! ## Steps outside `handleRead` -/

/-- `handleRead` does not go on, and nothing is taken out of `timers_` or deleted. -/
structure Grows (s s' : TimerLoop T C) : Prop where
  reading : s'.reading = s.reading
  fired : s'.fired = s.fired
  timers : ∀ e ∈ s.queue.timers.toList, e ∈ s'.queue.timers.toList
  heap : ∀ p t, s.objs.heap p = some t → s'.objs.heap p = some t

omit [DecidableEq T] in
theorem Grows.trans {s'' : TimerLoop T C} (h : Grows s s') (h' : Grows s' s'') : Grows s s'' where
  reading := h'.reading.trans h.reading
  fired := h'.fired.trans h.fired
  timers e he := h'.timers e (h.timers e he)
  heap p t ht := h'.heap p t (h.heap p t ht)

omit [DecidableEq T] in
theorem grows_of_eq (hreading : s'.reading = s.reading) (hfired : s'.fired = s.fired)
    (htimers : s'.queue.timers = s.queue.timers) (hobjs : s'.objs = s.objs) : Grows s s' := by
  refine ⟨hreading, hfired, ?_, ?_⟩
  · rw [htimers]
    exact fun _ he => he
  · rw [hobjs]
    exact fun _ _ ht => ht

omit [DecidableEq T] in
theorem grows_newTimer {cb : C} {when_ : Timestamp} {interval : Int}
    (h : s.newTimer timer cb when_ interval = some s') : Grows s s' := by
  obtain ⟨-, hfree, rfl⟩ := newTimer_eq_some h
  refine ⟨rfl, rfl, fun _ he => he, ?_⟩
  intro p t ht
  have hne : p ≠ timer := by
    rintro rfl
    rw [hfree] at ht
    cases ht
  exact (Function.update_of_ne hne _ _).trans ht

omit [DecidableEq T] in
theorem grows_addTimerInLoop (h : s.addTimerInLoop timer now = some s') : Grows s s' := by
  obtain ⟨queue, hq, rfl⟩ := Option.map_eq_some_iff.mp h
  refine ⟨rfl, rfl, ?_, fun _ _ ht => ht⟩
  intro e he
  show e ∈ queue.timers.toList
  obtain ⟨t, ht, -⟩ := Option.map_eq_some_iff.mp hq
  rw [TimerQueue.addTimerInLoop_timers ht hq, OrderedSet.mem_insert]
  exact Or.inr he

/-- The steps of `handleRead` itself. -/
def IsHandleRead : TimerAction T C → Prop
  | .handleRead _ | .runExpired | .reset _ => True
  | _ => False

theorem grows_step {a : TimerAction T C} (ha : ¬ IsHandleRead a) (h : s.step a = some s') :
    Grows s s' := by
  cases a with
  | loop a =>
    simp only [step] at h
    split at h
    · obtain ⟨loop, -, rfl⟩ := Option.map_eq_some_iff.mp h
      exact grows_of_eq rfl rfl rfl rfl
    · cases h
  | callFunctor now =>
    simp only [step] at h
    split at h
    · cases h
    · next task functors hf =>
      split at h
      · obtain ⟨loop, -, htask⟩ := Option.bind_eq_some_iff.mp h
        have hloop : Grows s { s with loop } := grows_of_eq rfl rfl rfl rfl
        cases task with
        | none =>
          cases htask
          exact hloop
        | some timer => exact hloop.trans (grows_addTimerInLoop htask)
      · cases h
  | newTimer t timer cb when_ interval =>
    simp only [step] at h
    split at h
    · obtain ⟨s₁, hnew, rfl⟩ := Option.map_eq_some_iff.mp h
      exact (grows_newTimer hnew).trans (grows_of_eq rfl rfl rfl rfl)
    · cases h
  | push t =>
    simp only [step] at h
    split at h
    · cases h
    · obtain ⟨loop, -, rfl⟩ := Option.map_eq_some_iff.mp h
      exact grows_of_eq rfl rfl rfl rfl
  | addTimer timer cb when_ interval now =>
    simp only [step] at h
    split at h
    · obtain ⟨s₁, hnew, hadd⟩ := Option.bind_eq_some_iff.mp h
      exact (grows_newTimer hnew).trans (grows_addTimerInLoop hadd)
    · cases h
  | handleRead | runExpired | reset => exact absurd trivial ha
  | elapse =>
    cases h
    exact grows_of_eq rfl rfl rfl rfl
  | otherTimer =>
    cases h
    exact grows_of_eq rfl rfl rfl rfl

/-! ## One `handleRead` -/

/-- The timers that are due, earliest first. -/
def due (s : TimerLoop T C) (now : Timestamp) : List Entry :=
  s.queue.timers.toList.filter (·.first ≤ now)

omit [DecidableEq T] in
theorem due_sorted (s : TimerLoop T C) (now : Timestamp) :
    (s.due now).Pairwise fun e e' => e.first ≤ e'.first :=
  (s.queue.timers.sorted.filter _).imp fun h => Entry.first_le_of_le (le_of_lt h)

/-- `s` is inside the `handleRead` that found the state `b` and read the clock as `now`: the timers
called, with those still to be called, are the timers due in `b`. -/
structure InHandleRead (b : TimerLoop T C) (now : Timestamp) (s : TimerLoop T C) : Prop where
  sound : Sound s []
  batch : ∃ ran rest, s.reading = some ⟨now, ran, rest⟩ ∧ ran ++ rest = b.due now ∧
    s.fired = b.fired ++ (b.timersAt (ran.map Entry.second)).map fun timer => (timer, now)
  others : ∀ e ∈ b.queue.timers.toList, now < e.first → e ∈ s.queue.timers.toList
  alive : ∀ e ∈ b.due now, s.objs.heap e.second = b.objs.heap e.second

omit [DecidableEq T] in
theorem InHandleRead.entries (h : InHandleRead b now s) {e : Entry} (he : e ∈ b.due now) :
    ∃ t, s.objs.heap e.second = some t ∧ t.expiration = e.first := by
  obtain ⟨ran, rest, hread, hdue, -⟩ := h.batch
  apply h.sound.entries e
  refine List.mem_append_right _ ?_
  rw [batch_of_reading hread]
  exact hdue ▸ he

theorem inHandleRead_of_step (hb : Sound b []) (h : b.step (.handleRead now) = some s) :
    InHandleRead b now s := by
  have hsound := sound_handleRead hb h
  obtain ⟨-, rfl⟩ := handleRead_eq_some h
  obtain ⟨hexp, hleft⟩ := hb.getExpired now
  refine ⟨hsound, ⟨[], _, rfl, hexp, ?_⟩, ?_, fun _ _ => rfl⟩
  · exact (List.append_nil _).symm
  · intro e he hlt
    show e ∈ (b.queue.getExpired now).2.timers.toList
    rw [hleft, List.mem_filter, decide_eq_true_eq]
    exact ⟨he, hlt⟩

theorem inHandleRead_step (s : TimerLoop T C) (a : TimerAction T C) (s' : TimerLoop T C)
    (hs : InHandleRead b now s) (ha : ∀ now', a ≠ .reset now') (h : s.step a = some s') :
    InHandleRead b now s' := by
  have hsound := sound_step s a s' hs.sound h
  obtain ⟨ran, rest, hread, hdue, hfired⟩ := hs.batch
  by_cases hown : IsHandleRead a
  · cases a with
    | handleRead now' =>
      obtain ⟨hnone, -⟩ := handleRead_eq_some h
      rw [hread] at hnone
      cases hnone
    | runExpired =>
      obtain ⟨now', ran', it, rest', timer, hread', htimer, rfl⟩ := runExpired_eq_some h
      cases hread.symm.trans hread'
      refine ⟨hsound, ⟨ran ++ [it], rest', rfl, ?_, ?_⟩, hs.others, hs.alive⟩
      · rw [← hdue, List.append_assoc, List.singleton_append]
      · have hit : it ∈ b.due now := by
          rw [← hdue]
          exact List.mem_append_right _ List.mem_cons_self
        have htimer' : b.objs.heap it.second = some timer := (hs.alive it hit).symm.trans htimer
        show s.fired ++ [(timer, now)] = _
        rw [hfired, timersAt, timersAt, List.map_append, List.filterMap_append, List.map_append,
          List.append_assoc]
        simp [htimer']
    | reset now' => exact absurd rfl (ha now')
    | loop | callFunctor | newTimer | push | addTimer | elapse | otherTimer => cases hown
  · have hg := grows_step hown h
    refine ⟨hsound, ⟨ran, rest, hg.reading.trans hread, hdue, hg.fired.trans hfired⟩, ?_, ?_⟩
    · intro e he hlt
      exact hg.timers e (hs.others e he hlt)
    · intro e he
      obtain ⟨t, ht, -⟩ := hs.entries he
      rw [hg.heap _ t ht, ← hs.alive e he, ht]

/-- What a `handleRead` does: it comes to its end, and there it has run all timers that were due. -/
structure Fires (b : TimerLoop T C) (now : Timestamp) (s : TimerLoop T C) : Prop where
  batch : ∃ ran rest, s.reading = some ⟨now, ran, rest⟩ ∧ ran ++ rest = b.due now ∧
    s.fired = b.fired ++ (b.timersAt (ran.map Entry.second)).map fun timer => (timer, now)
  alive : ∀ e ∈ b.due now, ∃ t, b.objs.heap e.second = some t ∧ t.expiration = e.first
  sorted : (b.due now).Pairwise fun e e' => e.first ≤ e'.first
  others : ∀ e ∈ b.queue.timers.toList, now < e.first → e ∈ s.queue.timers.toList
  goes_on : (∃ s', s.step .runExpired = some s') ∨ ∀ now', ∃ s', s.step (.reset now') = some s'
  ends : ∀ now' s', s.step (.reset now') = some s' →
    s'.fired = b.fired ++ (b.timersAt ((b.due now).map Entry.second)).map (fun timer => (timer, now)) ∧
      s'.queue.timers = s.queue.timers

theorem InHandleRead.fires (h : InHandleRead b now s) : Fires b now s := by
  obtain ⟨ran, rest, hread, hdue, hfired⟩ := h.batch
  refine ⟨h.batch, ?_, due_sorted b now, h.others, ?_, ?_⟩
  · intro e he
    obtain ⟨t, ht, hexp⟩ := h.entries he
    exact ⟨t, (h.alive e he).symm.trans ht, hexp⟩
  · obtain ⟨hnext, hend⟩ := h.sound.handleRead_progress hread
    by_cases hrest : rest = []
    · exact Or.inr (hend hrest)
    · exact Or.inl (hnext hrest)
  · intro now' s' hs'
    obtain ⟨now₀, ran', objs, queue, hread', -, hrearm, rfl⟩ := reset_eq_some hs'
    cases hread.symm.trans hread'
    rw [List.append_nil] at hdue
    refine ⟨?_, TimerQueue.rearm_timers hrearm⟩
    rw [← hdue]
    exact hfired

/-! ## Every run -/

omit [DecidableEq T] in
/-- The timers run are, one for one, some of the timers made. -/
theorem Sound.fired_nodup (h : Sound s []) : (s.fired.map fun x => x.1.sequence).Nodup := by
  have hmade := ((h.owned.ledger.map Timer.sequence).nodup_iff).mpr h.distinct
  have hbatch : s.ran.Sublist s.batch := by
    unfold ran batch
    split
    · exact List.Sublist.refl _
    · exact List.sublist_append_left _ _
  have hptrs : (s.ran.map Entry.second).Sublist s.ptrs :=
    (hbatch.map Entry.second).trans
      ((List.sublist_append_right _ _).trans (List.sublist_append_right _ _))
  have hsub : (s.fired.map Prod.fst).Sublist (s.objs.deleted ++ s.ptrs.filterMap s.objs.heap) := by
    rw [h.history]
    exact (List.Sublist.refl _).append (hptrs.filterMap _)
  have := hmade.sublist (hsub.map Timer.sequence)
  rwa [List.map_map] at this

/-- **One-shot timers.**  In every state of every run each timer made is in exactly one place:
deleted, waiting to be inserted, in `timers_`, or in the batch being run.  No timer is run twice or
early, and none is deleted before it has been run.  A `handleRead` runs the timers that are due, in
order, and leaves the others. -/
theorem one_shot (s : TimerLoop T C) (h : Reachable step (fun s => ∃ n, s = start n) s) :
    (s.objs.deleted ++ s.timersAt s.waiting ++ s.timersAt (s.queue.timers.toList.map Entry.second) ++
        s.timersAt (s.batch.map Entry.second)).Perm s.objs.made ∧
      (s.objs.made.map Timer.sequence).Nodup ∧
      (s.fired.map fun x => x.1.sequence).Nodup ∧
      (∀ x ∈ s.fired, x.1.expiration ≤ x.2) ∧
      (∀ t ∈ s.objs.deleted, ∃ now, (t, now) ∈ s.fired) ∧
      ∀ now s₁ as s₂, s.step (.handleRead now) = some s₁ →
        (∀ a ∈ as, ∀ now', a ≠ TimerAction.reset now') → run step s₁ as = some s₂ →
          Fires s now s₂ := by
  obtain ⟨_, as₀, ⟨n, rfl⟩, hrun⟩ := h
  have hsound := sound_of_run hrun
  refine ⟨?_, hsound.distinct, hsound.fired_nodup, hsound.early, ?_, ?_⟩
  · have hledger := hsound.owned.ledger
    simpa only [timersAt, ptrs, List.nil_append, List.filterMap_append, List.append_assoc]
      using hledger
  · intro t ht
    have hmem : t ∈ s.fired.map Prod.fst := by
      rw [hsound.history]
      exact List.mem_append_left _ ht
    obtain ⟨⟨t', now⟩, hx, rfl⟩ := List.mem_map.mp hmem
    exact ⟨now, hx⟩
  · intro now s₁ as s₂ hread has hrun'
    have hstart := inHandleRead_of_step hsound hread
    have hall : AllSteps step (fun _ a => ∀ now', a ≠ TimerAction.reset now') s₁ as :=
      allSteps_of_forall has
    exact (run_inv_of_allSteps inHandleRead_step hstart hall hrun').fires

/-- Another thread adds a timer; two timers are due at the same time, and the callback of one adds
a timer that is due already. -/
theorem one_shot_run :
    ∃ s : TimerLoop Bool Nat,
      run step (start 0)
        [.newTimer true 64 7 ⟨500⟩ 0, .push true, .addTimer 32 8 ⟨200⟩ 0 ⟨100⟩,
          .addTimer 48 9 ⟨200⟩ 0 ⟨100⟩, .loop .enterLoop, .loop .resetQuit, .loop .testQuit, .elapse,
          .loop (.pollReturns false), .handleRead ⟨250⟩, .runExpired, .addTimer 16 5 ⟨100⟩ 0 ⟨260⟩,
          .runExpired] = some s ∧
      s.fired.map (fun x => x.1.callback) = [8, 9] ∧
      s.queue.timers.toList = [⟨⟨100⟩, 16⟩] ∧
      (s.fired.map fun x => x.1.sequence).Nodup ∧
      ∀ x ∈ s.fired, x.1.expiration ≤ x.2 := by
  refine exists_run_eq
    (fun s => (s.fired.map (fun x => x.1.callback), s.queue.timers.toList))
    ([8, 9], [⟨⟨100⟩, 16⟩]) (by decide +kernel) fun s hs hf => ?_
  obtain ⟨-, -, honce, hearly, -⟩ := one_shot s ⟨_, _, ⟨0, rfl⟩, hs⟩
  rw [Prod.mk.injEq] at hf
  exact ⟨hf.1, hf.2, honce, hearly⟩

end TimerLoop
end Muduo
