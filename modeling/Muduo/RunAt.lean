import Muduo.RunAfter

/-!
# The delay of `runAt`

`howMuchTimeFromNow` over the whole range of `int64_t`: the difference of the expiration and the clock
wraps at `2 ^ 64`, is raised to 100 microseconds, and is split into seconds and nanoseconds.

* `nanoseconds_howMuchTimeFromNow`: the clamp and the split lose nothing.
* `RightDelay`: what the timerfd should be told.  A clock after the epoch leaves no expiration too far
  ahead, but one more than `2 ^ 63` microseconds back appears far ahead (`int64Sub_of_lt`).

    the delay is max(when - now, 100) microseconds
      iff   now - 2 ^ 63 ≤ when   or   when ≤ now - 2 ^ 64 + 100                    (rightDelay_iff)

The second case, where the wrapped difference is below the minimum again, takes a clock in the last 100
microseconds of `int64_t`.
-/

namespace Muduo

/-- The time of a `timespec`. -/
def Timespec.nanoseconds (ts : Timespec) : Int := ts.tv_sec * 1000000000 + ts.tv_nsec

/-- The relative timeout for the expiration `when_` at the clock reading `now`: `timerfd_settime` arms
the timer with it, it is max(when - now, 100) microseconds, which is the minimum for an expiration in
the past, and no later expiration has a shorter one. -/
structure RightDelay (when_ now : Timestamp) : Prop where
  valid : (howMuchTimeFromNow when_ now).valid
  nonzero : howMuchTimeFromNow when_ now ≠ ⟨0, 0⟩
  armed : ∀ fd : Timerfd, (fd.reset when_ now).state = .armed (howMuchTimeFromNow when_ now)
  exact : (howMuchTimeFromNow when_ now).nanoseconds =
    1000 * max (when_.microSecondsSinceEpoch - now.microSecondsSinceEpoch) 100
  past : when_ ≤ now → howMuchTimeFromNow when_ now = ⟨0, 100 * 1000⟩
  monotone : ∀ later : Timestamp, IsInt64 later.microSecondsSinceEpoch → when_ ≤ later →
    (howMuchTimeFromNow when_ now).nanoseconds ≤ (howMuchTimeFromNow later now).nanoseconds

/-! ## The arithmetic -/

theorem nanoseconds_howMuchTimeFromNow (when_ now : Timestamp) :
    (howMuchTimeFromNow when_ now).nanoseconds =
      1000 * max (int64Sub when_.microSecondsSinceEpoch now.microSecondsSinceEpoch) 100 := by
  unfold howMuchTimeFromNow Timespec.nanoseconds
  dsimp only
  generalize int64Sub when_.microSecondsSinceEpoch now.microSecondsSinceEpoch = us
  have hmax : (if us < 100 then 100 else us) = max us 100 := by
    split
    · omega
    · omega
  rw [hmax]
  generalize max us 100 = delay
  have hsplit := Int.mul_tdiv_add_tmod delay Timestamp.kMicroSecondsPerSecond
  have hk : Timestamp.kMicroSecondsPerSecond = 1000000 := rfl
  rw [hk] at hsplit ⊢
  omega

/-- A difference that is an `int64_t` is exact. -/
theorem int64Sub_eq {a b : Int} (h : IsInt64 (a - b)) : int64Sub a b = a - b := by
  obtain ⟨hlow, hhigh⟩ := h
  apply Int.bmod_eq_of_le_mul_two
  · omega
  · omega

/-- One that is below `- 2 ^ 63` comes back at the other end. -/
theorem int64Sub_of_lt {a b : Int} (ha : IsInt64 a) (hb : IsInt64 b) (h : a - b < -0x8000000000000000) :
    int64Sub a b = a - b + 0x10000000000000000 := by
  obtain ⟨hlow, -⟩ := ha
  obtain ⟨-, hhigh⟩ := hb
  have hwrap : int64Sub a b = (a - b + (0x10000000000000000 : Nat)).bmod 0x10000000000000000 :=
    (Int.add_bmod_right _ _).symm
  rw [hwrap]
  apply Int.bmod_eq_of_le_mul_two
  · omega
  · omega

section
variable {when_ now : Timestamp}

/-- When the clamp gives the same for the wrapped difference as for the difference. -/
theorem max_int64Sub_eq_iff {a b : Int} (ha : IsInt64 a) (hb : IsInt64 b) (hpos : 0 < b) :
    max (int64Sub a b) 100 = max (a - b) 100 ↔
      b - 0x8000000000000000 ≤ a ∨ a ≤ b - 0x10000000000000000 + 100 := by
  by_cases h : a - b < -0x8000000000000000
  · rw [int64Sub_of_lt ha hb h]
    constructor
    · intro heq
      omega
    · intro hcond
      omega
  · obtain ⟨-, hhigh⟩ := ha
    rw [int64Sub_eq ⟨by omega, by omega⟩]
    constructor
    · intro _
      omega
    · intro _
      rfl

/-- The minimum delay, in the form that is passed to the timerfd. -/
theorem eq_minimum {ts : Timespec} (hvalid : ts.valid) (h : ts.nanoseconds = 100 * 1000) :
    ts = ⟨0, 100 * 1000⟩ := by
  obtain ⟨hsec, hnsec, hlt⟩ := hvalid
  obtain ⟨sec, nsec⟩ := ts
  simp only [Timespec.nanoseconds] at h hsec hnsec hlt
  rw [Timespec.mk.injEq]
  constructor
  · omega
  · omega

/-- **The relative timeout.**  For every `int64_t` expiration and every clock reading after the epoch,
the delay is right iff the expiration is at most `2 ^ 63` microseconds back, or so far back that the
difference has wrapped to the minimum. -/
theorem rightDelay_iff (hwhen : IsInt64 when_.microSecondsSinceEpoch)
    (hnow : IsInt64 now.microSecondsSinceEpoch) (hpos : 0 < now.microSecondsSinceEpoch) :
    RightDelay when_ now ↔
      now.microSecondsSinceEpoch - 0x8000000000000000 ≤ when_.microSecondsSinceEpoch ∨
        when_.microSecondsSinceEpoch ≤ now.microSecondsSinceEpoch - 0x10000000000000000 + 100 := by
  have hns := nanoseconds_howMuchTimeFromNow when_ now
  constructor
  · intro hright
    have hexact := hright.exact
    exact (max_int64Sub_eq_iff hwhen hnow hpos).mp (by omega)
  · intro hcond
    have hmax := (max_int64Sub_eq_iff hwhen hnow hpos).mpr hcond
    obtain ⟨hvalid, hne⟩ := howMuchTimeFromNow_valid when_ now
    refine ⟨hvalid, hne, fun fd => fd.reset_armed when_ now, by rw [hns, hmax], ?_, ?_⟩
    · intro hpast
      rw [Timestamp.le_iff] at hpast
      exact eq_minimum hvalid (by omega)
    · intro later hlater hlate
      rw [Timestamp.le_iff] at hlate
      have hlaterNs := nanoseconds_howMuchTimeFromNow later now
      rcases hcond with hnear | hfar
      · have hlaterMax := (max_int64Sub_eq_iff hlater hnow hpos).mpr (Or.inl (by omega))
        omega
      · -- the minimum is no more than any delay
        omega

end

/-- An expiration one second ago, and the earliest one that is not too far back. -/
theorem rightDelay_iff_past :
    RightDelay ⟨1700000000000000⟩ ⟨1700000001000000⟩ ∧
      RightDelay ⟨1700000001000000 - 0x8000000000000000⟩ ⟨1700000001000000⟩ :=
  ⟨(rightDelay_iff (by decide) (by decide) (by decide)).mpr (by decide),
    (rightDelay_iff (by decide) (by decide) (by decide)).mpr (by decide)⟩

/-! ## The timer armed -/

namespace TimerLoop

open Transition

variable {T C : Type*} [DecidableEq T] {s s' : TimerLoop T C} {timer : Nat} {cb : C}
  {time clock : Timestamp}

/-- `runAt` on the loop thread arms the timerfd with the delay of its timer if that becomes the
earliest, and leaves it alone otherwise. -/
theorem runAt_timerfd (h : s.step (runAt none timer cb time clock) = some s') :
    (s'.queue.timers.toList.head? = some ⟨time, timer⟩ ∧
        s'.queue.timerfd.state = .armed (howMuchTimeFromNow time clock)) ∨
      s'.queue.timerfd = s.queue.timerfd := by
  simp only [runAt, addTimer, step, Option.ite_none_right_eq_some] at h
  obtain ⟨s₁, hnew, hadd⟩ := Option.bind_eq_some_iff.mp h.2
  obtain ⟨sequence, ht⟩ := heap_newTimer hnew
  obtain ⟨-, -, rfl⟩ := newTimer_eq_some hnew
  obtain ⟨queue, hq, rfl⟩ := Option.map_eq_some_iff.mp hadd
  rcases TimerQueue.addTimerInLoop_earliest ht hq with ⟨hhead, hfd⟩ | ⟨hfd, -⟩
  · refine Or.inl ⟨hhead, ?_⟩
    show queue.timerfd.state = _
    rw [hfd]
    exact Timerfd.reset_armed _ _ _
  · exact Or.inr hfd

/-- **The smallest timestamp.**  It lies in the past, and arms the timerfd some 292000 years
ahead; a timer due in one second is queued behind it and arms nothing. -/
theorem runAt_wraps :
    ¬ RightDelay ⟨-0x8000000000000000⟩ ⟨1700000000000000⟩ ∧
      (run step (start 0 : TimerLoop Unit Unit)
        [runAt none 16 () ⟨-0x8000000000000000⟩ ⟨1700000000000000⟩,
          runAt none 32 () ⟨1700000001000000⟩ ⟨1700000000000000⟩]).map (fun s =>
            (s.queue.timers.toList.map Entry.second, s.queue.timerfd.state)) =
        some ([16, 32], .armed ⟨9221672036854, 775808000⟩) := by
  refine ⟨?_, by decide⟩
  intro h
  exact absurd h.exact (by decide)

end TimerLoop
end Muduo
