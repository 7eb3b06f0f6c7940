import Muduo.TimerLoop

/-!
# The delay of `runAfter`

`Timestamp.h`, `Timestamp.cc`, and `EventLoop::runAt`, `runAfter`, with the widths of the code: a
delay is an `int`, a timestamp an `int64_t`.

* `addTime` forms the product `sec * kMicroSecondsPerSecond` as an `int` and widens it afterwards,
  so the delay it adds is the one asked for only up to 2147 seconds (`addTime_eq_iff`).
* `runAfter` is an action of the timer loop, on the loop thread or on another; the timer it
  creates expires at `addTime(now, delay)` and has interval 0 (`runAfter_timer`).

    the timer expires at now + delay seconds   iff   |delay| ≤ 2147  and the sum is an int64_t
                                                              (runAfter_exact_iff)
-/

namespace Muduo

open Transition

/-! ## The code -/

/-- `int64_t` addition; out of range it wraps. -/
def int64Add (a b : Int) : Int := (a + b).bmod 0x10000000000000000

/-- The value is one of `int64_t`. -/
def IsInt64 (x : Int) : Prop := -0x8000000000000000 ≤ x ∧ x < 0x8000000000000000

instance (x : Int) : Decidable (IsInt64 x) := inferInstanceAs (Decidable (_ ∧ _))

/-- `struct timeval`. -/
structure Timeval where
  tv_sec : Int
  tv_usec : Int
deriving DecidableEq, Repr

namespace Timestamp

/-- `Timestamp::now()`, `tv` being what `gettimeofday` filled in. -/
def now (tv : Timeval) : Timestamp :=
  let seconds := tv.tv_sec
  ⟨int64Add (seconds * kMicroSecondsPerSecond) tv.tv_usec⟩

/-- `static const int kMicroSecondsPerSecond`, as the `int` it is. -/
def kMicroSecondsPerSecond32 : Int32 := 1000 * 1000

/-- `addTime(timestamp, sec)`: both factors are `int`s, and so is their product. -/
def addTime (timestamp : Timestamp) (sec : Int32) : Timestamp :=
  let delta : Int := (sec * kMicroSecondsPerSecond32).toInt
  ⟨int64Add timestamp.microSecondsSinceEpoch delta⟩

/-- `timestamp + sec` seconds, without any width. -/
def after (timestamp : Timestamp) (sec : Int32) : Timestamp :=
  ⟨timestamp.microSecondsSinceEpoch + sec.toInt * 1000000⟩

end Timestamp

namespace TimerLoop

variable {T C : Type*}

/-- `addTimer(cb, when, interval)` by another thread `caller`, or by the loop thread.  `clock` is the
reading that `resetTimerfd` makes when the timer is inserted at once. -/
def addTimer (caller : Option T) (timer : Nat) (cb : C) (when_ : Timestamp) (interval : Int)
    (clock : Timestamp) : TimerAction T C :=
  match caller with
  | some t => .newTimer t timer cb when_ interval
  | none => .addTimer timer cb when_ interval clock

/-- `runAt(time, cb)`. -/
def runAt (caller : Option T) (timer : Nat) (cb : C) (time clock : Timestamp) : TimerAction T C :=
  addTimer caller timer cb time 0 clock

/-- `runAfter(delay, cb)`. -/
def runAfter (caller : Option T) (timer : Nat) (cb : C) (delay : Int32) (tv : Timeval)
    (clock : Timestamp) : TimerAction T C :=
  runAt caller timer cb ((Timestamp.now tv).addTime delay) clock

end TimerLoop

/-! ## The arithmetic -/

namespace Timestamp

/-- The delays whose product is an `int`, from a time that leaves room for them. -/
def Fits (timestamp : Timestamp) (sec : Int32) : Prop :=
  -2147 ≤ sec.toInt ∧ sec.toInt ≤ 2147 ∧ IsInt64 (timestamp.after sec).microSecondsSinceEpoch

instance (timestamp : Timestamp) (sec : Int32) : Decidable (timestamp.Fits sec) :=
  inferInstanceAs (Decidable (_ ∧ _ ∧ _))

/-- The product wraps at `2 ^ 32`. -/
theorem toInt_mul_kMicroSecondsPerSecond (sec : Int32) :
    (sec * kMicroSecondsPerSecond32).toInt = (sec.toInt * 1000000).bmod 0x100000000 :=
  Int32.toInt_mul sec kMicroSecondsPerSecond32

/-- A value wrapped at `m` differs from the value by a multiple of `m`. -/
theorem exists_bmod_eq (x : Int) (m : Nat) : ∃ k, x.bmod m = x - m * k := by
  refine ⟨x.bdiv m, ?_⟩
  have := Int.bmod_add_bdiv x m
  omega

/-- **`addTime` is exact for the delays that fit, and for no others.** -/
theorem addTime_eq_iff (timestamp : Timestamp) (sec : Int32) :
    timestamp.addTime sec = timestamp.after sec ↔ timestamp.Fits sec := by
  have hlow : -0x80000000 ≤ sec.toInt := sec.le_toInt
  have hhigh : sec.toInt < 0x80000000 := sec.toInt_lt
  rw [Timestamp.ext_iff]
  unfold Fits IsInt64 addTime after int64Add
  dsimp only
  rw [toInt_mul_kMicroSecondsPerSecond]
  generalize timestamp.microSecondsSinceEpoch = now
  generalize sec.toInt = d at *
  obtain ⟨k, hk⟩ := exists_bmod_eq (d * 1000000) 0x100000000
  have hple := Int.le_bmod (x := d * 1000000) (m := 0x100000000) (by decide)
  have hplt := Int.bmod_lt (x := d * 1000000) (m := 0x100000000) (by decide)
  generalize (d * 1000000).bmod 0x100000000 = p at *
  obtain ⟨j, hj⟩ := exists_bmod_eq (now + p) 0x10000000000000000
  have hele := Int.le_bmod (x := now + p) (m := 0x10000000000000000) (by decide)
  have helt := Int.bmod_lt (x := now + p) (m := 0x10000000000000000) (by decide)
  generalize (now + p).bmod 0x10000000000000000 = e at *
  constructor
  · intro h
    -- the delay is far below `2 ^ 64`, so neither the sum nor the product has wrapped
    have hj0 : j = 0 := by omega
    have hk0 : k = 0 := by omega
    omega
  · rintro ⟨h₁, h₂, h₃, h₄⟩
    have hk0 : k = 0 := by omega
    have hj0 : j = 0 := by omega
    omega

theorem after_lt_after {timestamp : Timestamp} {sec sec' : Int32} (h : sec < sec') :
    timestamp.after sec < timestamp.after sec' := by
  rw [Int32.lt_iff_toInt_lt] at h
  rw [lt_iff]
  unfold after
  dsimp only
  omega

theorem lt_after {timestamp : Timestamp} {sec : Int32} (h : 0 < sec) :
    timestamp < timestamp.after sec := by
  have h0 : (0 : Int32).toInt = 0 := rfl
  rw [Int32.lt_iff_toInt_lt, h0] at h
  rw [lt_iff]
  unfold after
  dsimp only
  omega

end Timestamp

/-! ## The timer created -/

namespace TimerLoop

variable {T C : Type*} [DecidableEq T] {s s' : TimerLoop T C} {caller : Option T} {timer : Nat}
  {cb : C} {delay : Int32} {tv : Timeval} {clock : Timestamp}

omit [DecidableEq T] in
theorem heap_newTimer {when_ : Timestamp} {interval : Int}
    (h : s.newTimer timer cb when_ interval = some s') :
    ∃ sequence, s'.objs.heap timer = some ⟨cb, when_, interval, sequence⟩ := by
  obtain ⟨-, -, rfl⟩ := newTimer_eq_some h
  exact ⟨_, Function.update_self _ _ _⟩

/-- `addTimer` creates the timer it is given the values of, whichever thread calls it. -/
theorem heap_addTimer {when_ : Timestamp} {interval : Int}
    (h : s.step (addTimer caller timer cb when_ interval clock) = some s') :
    ∃ sequence, s'.objs.heap timer = some ⟨cb, when_, interval, sequence⟩ := by
  cases caller with
  | some t =>
    simp only [addTimer, step] at h
    split at h
    · obtain ⟨s₁, hnew, rfl⟩ := Option.map_eq_some_iff.mp h
      obtain ⟨sequence, ht⟩ := heap_newTimer hnew
      exact ⟨sequence, ht⟩
    · cases h
  | none =>
    simp only [addTimer, step] at h
    split at h
    · obtain ⟨s₁, hnew, hadd⟩ := Option.bind_eq_some_iff.mp h
      obtain ⟨queue, -, rfl⟩ := Option.map_eq_some_iff.mp hadd
      obtain ⟨sequence, ht⟩ := heap_newTimer hnew
      exact ⟨sequence, ht⟩
    · cases h

theorem runAfter_timer (h : s.step (runAfter caller timer cb delay tv clock) = some s') :
    ∃ sequence,
      s'.objs.heap timer = some ⟨cb, (Timestamp.now tv).addTime delay, 0, sequence⟩ :=
  heap_addTimer h

/-- **The delay of `runAfter`.**  The timer created expires exactly `delay` seconds after `now` iff
the delay lies between -2147 and 2147 and the sum is in the range of `int64_t`.  Under this
condition a longer delay gives a later expiration, and a positive one an expiration after `now`. -/
theorem runAfter_exact_iff (h : s.step (runAfter caller timer cb delay tv clock) = some s') :
    ∃ t : Timer C, s'.objs.heap timer = some t ∧ t.callback = cb ∧
      (t.expiration = (Timestamp.now tv).after delay ↔ (Timestamp.now tv).Fits delay) ∧
      ((Timestamp.now tv).Fits delay → 0 < delay → Timestamp.now tv < t.expiration) ∧
      ((Timestamp.now tv).Fits delay → ∀ delay', (Timestamp.now tv).Fits delay' → delay < delay' →
        t.expiration < (Timestamp.now tv).addTime delay') := by
  obtain ⟨sequence, ht⟩ := runAfter_timer h
  have hiff := Timestamp.addTime_eq_iff (Timestamp.now tv) delay
  refine ⟨_, ht, rfl, hiff, ?_, ?_⟩
  · intro hfits hpos
    show Timestamp.now tv < (Timestamp.now tv).addTime delay
    rw [hiff.mpr hfits]
    exact Timestamp.lt_after hpos
  · intro hfits delay' hfits' hlt
    show (Timestamp.now tv).addTime delay < (Timestamp.now tv).addTime delay'
    rw [hiff.mpr hfits, (Timestamp.addTime_eq_iff _ delay').mpr hfits']
    exact Timestamp.after_lt_after hlt

/-- A thread asks for 5 seconds. -/
theorem runAfter_exact_iff_five :
    ∃ s' t, (start 0 : TimerLoop Unit Unit).step
        (runAfter (some ()) 16 () 5 ⟨1700000000, 250⟩ .zero) = some s' ∧
      s'.objs.heap 16 = some t ∧ t.expiration.microSecondsSinceEpoch = 1700000005000250 := by
  have hstep : (start 0 : TimerLoop Unit Unit).step
      (runAfter (some ()) 16 () 5 ⟨1700000000, 250⟩ .zero) = some _ := rfl
  obtain ⟨t, ht, -, hiff, -, -⟩ := runAfter_exact_iff hstep
  refine ⟨_, t, hstep, ht, ?_⟩
  rw [hiff.mpr (by decide)]
  rfl

/-- **2148 seconds are too long.**  The timer expires 2147 seconds before `now`, and so before a timer
of 2147 seconds. -/
theorem runAfter_wraps :
    ∃ s' t, (start 0 : TimerLoop Unit Unit).step
        (runAfter (some ()) 16 () 2148 ⟨1700000000, 250⟩ .zero) = some s' ∧
      s'.objs.heap 16 = some t ∧
      t.expiration.microSecondsSinceEpoch = 1700000000000250 + 2148 * 1000000 - 0x100000000 ∧
      t.expiration.microSecondsSinceEpoch <
        (Timestamp.now ⟨1700000000, 250⟩).microSecondsSinceEpoch ∧
      t.expiration.microSecondsSinceEpoch <
        ((Timestamp.now ⟨1700000000, 250⟩).addTime 2147).microSecondsSinceEpoch := by
  refine ⟨_, _, rfl, rfl, ?_, ?_, ?_⟩
  · decide
  · decide
  · decide

end TimerLoop
end Muduo
