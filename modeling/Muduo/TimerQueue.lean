import Muduo.Lib.OrderedSet
import Muduo.Lib.Objects
import Mathlib.Order.Lattice
import Mathlib.Data.Prod.Lex

/-!
# TimerQueue

`TimerQueue.cc` on one thread: the set `timers_`, the objects it points to, and the timerfd.

* An entry of `timers_` is a pair of an expiration and an address; `UINTPTR_MAX` is no object's
  address.
* `getExpired` cuts the set at the sentry `(now, UINTPTR_MAX)`, which is the cut between the timers
  that are due and the others (`getExpired_eq`).
* `resetTimerfd` always arms the timerfd (`Timerfd.reset_armed`).
-/

namespace Muduo

/-! ## Timestamps -/

@[ext]
structure Timestamp where
  microSecondsSinceEpoch : Int
deriving DecidableEq, Repr

namespace Timestamp

instance : LinearOrder Timestamp :=
  LinearOrder.lift' microSecondsSinceEpoch fun _ _ h => Timestamp.ext h

theorem lt_iff {a b : Timestamp} : a < b ↔ a.microSecondsSinceEpoch < b.microSecondsSinceEpoch :=
  Iff.rfl

theorem le_iff {a b : Timestamp} : a ≤ b ↔ a.microSecondsSinceEpoch ≤ b.microSecondsSinceEpoch :=
  Iff.rfl

/-- `Timestamp()`. -/
def zero : Timestamp := ⟨0⟩

def kMicroSecondsPerSecond : Int := 1000 * 1000

end Timestamp

/-! ## The timerfd -/

structure Timespec where
  tv_sec : Int
  tv_nsec : Int
deriving DecidableEq, Repr

/-- `int64_t` subtraction; C++ leaves a difference out of range undefined, here it wraps. -/
def int64Sub (a b : Int) : Int := (a - b).bmod 0x10000000000000000

def howMuchTimeFromNow (when_ now : Timestamp) : Timespec :=
  let microseconds := int64Sub when_.microSecondsSinceEpoch now.microSecondsSinceEpoch
  let microseconds := if microseconds < 100 then 100 else microseconds
  { tv_sec := microseconds.tdiv Timestamp.kMicroSecondsPerSecond
    tv_nsec := microseconds.tmod Timestamp.kMicroSecondsPerSecond * 1000 }

/-- What `timerfd_settime` accepts. -/
def Timespec.valid (ts : Timespec) : Prop :=
  0 ≤ ts.tv_sec ∧ 0 ≤ ts.tv_nsec ∧ ts.tv_nsec < 1000000000

instance (ts : Timespec) : Decidable ts.valid :=
  inferInstanceAs (Decidable (_ ∧ _ ∧ _))

/-- No delay is shorter than 100 microseconds, and none is malformed. -/
theorem howMuchTimeFromNow_valid (when_ now : Timestamp) :
    (howMuchTimeFromNow when_ now).valid ∧ howMuchTimeFromNow when_ now ≠ ⟨0, 0⟩ := by
  unfold howMuchTimeFromNow
  dsimp only
  generalize int64Sub when_.microSecondsSinceEpoch now.microSecondsSinceEpoch = us
  have hpos : 100 ≤ if us < 100 then 100 else us := by
    split
    · exact Int.le_refl 100
    · omega
  generalize (if us < 100 then 100 else us) = delay at hpos
  have hdiv := Int.mul_tdiv_add_tmod delay Timestamp.kMicroSecondsPerSecond
  have hnonneg := Int.tmod_nonneg Timestamp.kMicroSecondsPerSecond (a := delay) (by omega)
  have hlt := Int.tmod_lt_of_pos delay (b := Timestamp.kMicroSecondsPerSecond) (by decide)
  have hsec := Int.tdiv_nonneg (a := delay) (b := Timestamp.kMicroSecondsPerSecond)
    (by omega) (by decide)
  have hk : Timestamp.kMicroSecondsPerSecond = 1000000 := rfl
  refine ⟨⟨hsec, ?_, ?_⟩, ?_⟩
  · show 0 ≤ delay.tmod Timestamp.kMicroSecondsPerSecond * 1000
    omega
  · show delay.tmod Timestamp.kMicroSecondsPerSecond * 1000 < 1000000000
    omega
  · intro h
    rw [Timespec.mk.injEq] at h
    rw [h.1] at hdiv
    omega

inductive TimerfdState
  | disarmed
  | armed (value : Timespec)
  /-- elapsed, and nobody has read it -/
  | expired
  /-- elapsed, and `readTimerfd` has read it -/
  | consumed
deriving DecidableEq, Repr

structure Timerfd where
  state : TimerfdState
  /-- history: the argument of the last `resetTimerfd` -/
  expiration : Option Timestamp
deriving DecidableEq, Repr

namespace Timerfd

/-- `timerfd_settime`; a malformed value is refused, and zero disarms. -/
def settime (state : TimerfdState) (value : Timespec) : TimerfdState :=
  if value.valid then
    if value = ⟨0, 0⟩ then .disarmed else .armed value
  else state

/-- `resetTimerfd`. -/
def reset (fd : Timerfd) (expiration now : Timestamp) : Timerfd where
  state := settime fd.state (howMuchTimeFromNow expiration now)
  expiration := some expiration

/-- `readTimerfd`; the descriptor is non-blocking. -/
def read (fd : Timerfd) : Timerfd :=
  match fd.state with
  | .expired => { fd with state := .consumed }
  | _ => fd

/-- The time set has passed. -/
def elapse (fd : Timerfd) : Timerfd :=
  match fd.state with
  | .armed _ => { fd with state := .expired }
  | _ => fd

/-- An event is coming: the setting has not elapsed, or nobody has read it. -/
def Coming (fd : Timerfd) : Prop :=
  (∃ value, fd.state = .armed value) ∨ fd.state = .expired

theorem reset_armed (fd : Timerfd) (expiration now : Timestamp) :
    (fd.reset expiration now).state = .armed (howMuchTimeFromNow expiration now) := by
  obtain ⟨hvalid, hne⟩ := howMuchTimeFromNow_valid expiration now
  unfold reset settime
  rw [if_pos hvalid, if_neg hne]

theorem coming_reset (fd : Timerfd) (expiration now : Timestamp) :
    (fd.reset expiration now).Coming := Or.inl ⟨_, reset_armed fd expiration now⟩

theorem Coming.elapse {fd : Timerfd} (h : fd.Coming) : fd.elapse.Coming := by
  unfold Timerfd.elapse
  rcases h with ⟨value, hv⟩ | hv
  · rw [hv]
    exact Or.inr rfl
  · rw [hv]
    exact Or.inr hv

@[simp] theorem expiration_elapse (fd : Timerfd) : fd.elapse.expiration = fd.expiration := by
  unfold elapse
  split <;> rfl

end Timerfd

/-! ## Timers and entries -/

structure Timer (C : Type*) where
  callback : C
  expiration : Timestamp
  interval : Int
  sequence : Nat
deriving DecidableEq

/-- `std::pair<Timestamp, Timer *>`. -/
@[ext]
structure Entry where
  first : Timestamp
  second : Nat
deriving DecidableEq, Repr

namespace Entry

def lex (e : Entry) : Timestamp ×ₗ Nat := toLex (e.first, e.second)

theorem lex_injective : Function.Injective lex := by
  intro a b h
  have hpair : (a.first, a.second) = (b.first, b.second) := toLex.injective h
  rw [Prod.mk.injEq] at hpair
  exact Entry.ext hpair.1 hpair.2

instance : LinearOrder Entry := LinearOrder.lift' lex lex_injective

/-- `operator<` of `std::pair`. -/
theorem lt_iff {a b : Entry} :
    a < b ↔ a.first < b.first ∨ (¬ b.first < a.first ∧ a.second < b.second) := by
  show lex a < lex b ↔ _
  rw [lex, lex, Prod.Lex.toLex_lt_toLex]
  constructor
  · rintro (h | ⟨h, h'⟩)
    · exact Or.inl h
    · exact Or.inr ⟨by simp only at h; rw [h]; exact lt_irrefl _, h'⟩
  · rintro (h | ⟨h, h'⟩)
    · exact Or.inl h
    · rcases lt_or_eq_of_le (not_lt.mp h) with hlt | heq
      · exact Or.inl hlt
      · exact Or.inr ⟨heq, h'⟩

theorem first_le_of_le {a b : Entry} (h : a ≤ b) : a.first ≤ b.first := by
  rcases lt_or_eq_of_le h with h | h
  · rcases lt_iff.mp h with h | ⟨h, -⟩
    · exact le_of_lt h
    · exact not_lt.mp h
  · rw [h]

end Entry

/-- `UINTPTR_MAX`. -/
def uintptrMax : Nat := 0xffffffffffffffff

/-- The sentry of `getExpired`. -/
def sentry (now : Timestamp) : Entry := ⟨now, uintptrMax⟩

/-- **The sentry separates the timers that are due from the others.** -/
theorem lt_sentry_iff {e : Entry} {now : Timestamp} (h : e.second < uintptrMax) :
    e < sentry now ↔ e.first ≤ now := by
  rw [Entry.lt_iff]
  constructor
  · rintro (hlt | ⟨hle, -⟩)
    · exact le_of_lt hlt
    · exact not_lt.mp hle
  · intro hle
    exact Or.inr ⟨not_lt.mpr hle, h⟩

/-! ## The queue -/

structure TimerQueue where
  timers : OrderedSet Entry
  timerfd : Timerfd

namespace TimerQueue

/-- `TimerQueue()`. -/
def new : TimerQueue where
  timers := .empty
  timerfd := { state := .disarmed, expiration := none }

def insert (q : TimerQueue) (timer : Nat) (when_ : Timestamp) : Bool × TimerQueue :=
  let earliestChanged :=
    match q.timers.toList.head? with
    | none => true
    | some it => decide (when_ < it.first)
  (earliestChanged, { q with timers := q.timers.insert ⟨when_, timer⟩ })

variable {C : Type*}

/-- `none` when `timer` dangles. -/
def addTimerInLoop (q : TimerQueue) (objs : Objects (Timer C)) (timer : Nat) (now : Timestamp) :
    Option TimerQueue :=
  (objs.heap timer).map fun t =>
    let (earliestChanged, q) := q.insert timer t.expiration
    if earliestChanged then { q with timerfd := q.timerfd.reset t.expiration now } else q

def getExpired (q : TimerQueue) (now : Timestamp) : List Entry × TimerQueue :=
  (q.timers.below (sentry now), { q with timers := q.timers.dropBelow (sentry now) })

/-- The rest of `reset` after the deletions; `none` when `timers_.begin()` dangles. -/
def rearm (q : TimerQueue) (objs : Objects (Timer C)) (now : Timestamp) : Option TimerQueue :=
  let nextExpire :=
    match q.timers.toList.head? with
    | none => some Timestamp.zero
    | some it => (objs.heap it.second).map Timer.expiration
  nextExpire.map fun nextExpire =>
    if 0 < nextExpire.microSecondsSinceEpoch then
      { q with timerfd := q.timerfd.reset nextExpire now }
    else q

/-- `none` when a pointer of `expired`, or `timers_.begin()`, dangles. -/
def reset (q : TimerQueue) (objs : Objects (Timer C)) (expired : List Entry) (now : Timestamp) :
    Option (Objects (Timer C) × TimerQueue) :=
  (objs.deleteAll (expired.map Entry.second)).bind fun objs =>
    (q.rearm objs now).map fun q => (objs, q)

variable {q q' : TimerQueue} {objs : Objects (Timer C)} {timer : Nat} {t : Timer C} {now : Timestamp}

theorem addTimerInLoop_timers (ht : objs.heap timer = some t)
    (h : q.addTimerInLoop objs timer now = some q') :
    q'.timers = q.timers.insert ⟨t.expiration, timer⟩ := by
  rw [addTimerInLoop, ht, Option.map_some, Option.some.injEq] at h
  subst h
  dsimp only
  split <;> rfl

/-- **The earliest timer and the timerfd.**  An insertion either makes its timer the earliest and
resets the timerfd to it, or leaves the earliest expiration and the timerfd alone. -/
theorem addTimerInLoop_earliest (ht : objs.heap timer = some t)
    (h : q.addTimerInLoop objs timer now = some q') :
    (q'.timers.toList.head? = some ⟨t.expiration, timer⟩ ∧
        q'.timerfd = q.timerfd.reset t.expiration now) ∨
      (q'.timerfd = q.timerfd ∧ ∃ e e', q.timers.toList.head? = some e ∧
        q'.timers.toList.head? = some e' ∧ e'.first = e.first) := by
  have htimers := addTimerInLoop_timers ht h
  rw [addTimerInLoop, ht, Option.map_some, Option.some.injEq] at h
  rw [htimers]
  cases hhead : q.timers.toList.head? with
  | none =>
    left
    refine ⟨OrderedSet.head?_insert_of_lt ?_, ?_⟩
    · rw [hhead]
      intro b hb
      cases hb
    · rw [← h]
      simp [insert, hhead]
  | some e =>
    by_cases hlt : t.expiration < e.first
    · left
      refine ⟨OrderedSet.head?_insert_of_lt ?_, ?_⟩
      · rw [hhead]
        rintro b hb
        cases hb
        exact Entry.lt_iff.mpr (Or.inl hlt)
      · rw [← h]
        simp [insert, hhead, hlt]
    · right
      refine ⟨?_, e, ?_⟩
      · rw [← h]
        simp [insert, hhead, hlt]
      · rcases le_total e ⟨t.expiration, timer⟩ with hle | hle
        · exact ⟨e, rfl, OrderedSet.head?_insert_of_le hhead hle, rfl⟩
        · by_cases heq : (⟨t.expiration, timer⟩ : Entry) = e
          · refine ⟨e, rfl, ?_, rfl⟩
            rw [heq]
            exact OrderedSet.head?_insert_of_le hhead (le_refl e)
          · refine ⟨⟨t.expiration, timer⟩, rfl, OrderedSet.head?_insert_of_lt ?_, ?_⟩
            · rw [hhead]
              intro b hb
              cases hb
              exact lt_of_le_of_ne hle heq
            · exact le_antisymm (Entry.first_le_of_le hle) (not_lt.mp hlt)

/-- `getExpired` takes out the timers that are due, earliest first, and leaves the others. -/
theorem getExpired_eq (h : ∀ e ∈ q.timers.toList, e.second < uintptrMax) :
    (q.getExpired now).1 = q.timers.toList.filter (·.first ≤ now) ∧
      (q.getExpired now).2.timers.toList = q.timers.toList.filter (now < ·.first) := by
  constructor
  · rw [getExpired, OrderedSet.below_eq_filter]
    apply List.filter_congr
    intro e he
    rw [decide_eq_decide]
    exact lt_sentry_iff (h e he)
  · rw [getExpired, OrderedSet.dropBelow_eq_filter]
    apply List.filter_congr
    intro e he
    rw [decide_eq_decide, ← not_lt, lt_sentry_iff (h e he), not_le]

/-- A positive expiration resets the timerfd, another one leaves it alone. -/
theorem rearm_of_head (hhead : q.timers.toList.head? = some ⟨t.expiration, timer⟩)
    (ht : objs.heap timer = some t) (h : q.rearm objs now = some q') :
    q'.timers = q.timers ∧
      ((0 < t.expiration.microSecondsSinceEpoch ∧ q'.timerfd = q.timerfd.reset t.expiration now) ∨
        (t.expiration.microSecondsSinceEpoch ≤ 0 ∧ q'.timerfd = q.timerfd)) := by
  rw [rearm, hhead] at h
  simp only [ht, Option.map_some, Option.some.injEq] at h
  subst h
  split
  · next hpos => exact ⟨rfl, Or.inl ⟨hpos, rfl⟩⟩
  · next hpos => exact ⟨rfl, Or.inr ⟨Int.not_lt.mp hpos, rfl⟩⟩

theorem rearm_timers (h : q.rearm objs now = some q') : q'.timers = q.timers := by
  obtain ⟨nextExpire, -, rfl⟩ := Option.map_eq_some_iff.mp h
  split <;> rfl

theorem rearm_of_empty (objs : Objects (Timer C)) (now : Timestamp)
    (hhead : q.timers.toList.head? = none) : q.rearm objs now = some q := by
  rw [rearm, hhead]
  rfl

end TimerQueue
end Muduo
