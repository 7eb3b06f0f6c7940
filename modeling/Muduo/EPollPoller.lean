import Muduo.Channel
import Muduo.SysCall
import Mathlib.Logic.Function.Basic

/-!
# EPollPoller

`EPollPoller.cc` over the kernel's interest list.

* `epollCtl`: `::epoll_ctl` with its errors, `EEXIST` for adding a present descriptor and
  `ENOENT` for changing or deleting an absent one.
* `update`: `none` is the `abort()` after a failed `ADD` or `MOD`.
* `Tracked p ch`: the kernel watches the descriptor exactly when the channel's index is `kAdded`.
  From a tracked channel `updateChannel` and `removeChannel` never abort and keep it tracked
  (`updateChannel_eq`, `removeChannel_eq`), and other descriptors are left alone.
-/

namespace Muduo

/-! ## The kernel -/

inductive CtlOp
  | EPOLL_CTL_ADD | EPOLL_CTL_MOD | EPOLL_CTL_DEL
deriving DecidableEq, Repr

structure EpollEvent where
  events : EventMask
  ptr : Nat
deriving DecidableEq, Repr

/-- The interest list of one epoll instance. -/
abbrev Interest := Nat → Option EpollEvent

def epollCtl (interest : Interest) (op : CtlOp) (fd : Nat) (event : EpollEvent) :
    Except Errno Interest :=
  match op, interest fd with
  | .EPOLL_CTL_ADD, none => .ok (Function.update interest fd (some event))
  | .EPOLL_CTL_ADD, some _ => .error .EEXIST
  | .EPOLL_CTL_MOD, some _ => .ok (Function.update interest fd (some event))
  | .EPOLL_CTL_MOD, none => .error .ENOENT
  | .EPOLL_CTL_DEL, some _ => .ok (Function.update interest fd none)
  | .EPOLL_CTL_DEL, none => .error .ENOENT

/-! ## The poller -/

structure EPollPoller where
  /-- `channels_`: descriptor to channel address -/
  channels : Nat → Option Nat
  /-- the kernel's side of `epollfd_` -/
  interest : Interest

namespace EPollPoller

/-- A poller that watches nothing. -/
def empty : EPollPoller := ⟨fun _ => none, fun _ => none⟩

def update (p : EPollPoller) (operation : CtlOp) (ch : Channel) : Option EPollPoller :=
  match epollCtl p.interest operation ch.fd ⟨ch.events, ch.addr⟩ with
  | .ok interest => some { p with interest }
  | .error _ => if operation = .EPOLL_CTL_DEL then some p else none

def updateChannel (p : EPollPoller) (ch : Channel) : Option (EPollPoller × Channel) :=
  if ch.index = .kNew ∨ ch.index = .kDeleted then do
    let p := if ch.index = .kNew then
        { p with channels := Function.update p.channels ch.fd (some ch.addr) } else p
    let p ← p.update .EPOLL_CTL_ADD ch
    some (p, { ch with index := .kAdded })
  else if ch.isNoneEvent then do
    let p ← p.update .EPOLL_CTL_DEL ch
    some (p, { ch with index := .kDeleted })
  else do
    let p ← p.update .EPOLL_CTL_MOD ch
    some (p, ch)

def removeChannel (p : EPollPoller) (ch : Channel) : Option (EPollPoller × Channel) := do
  let p := { p with channels := Function.update p.channels ch.fd none }
  let p ← if ch.index = .kAdded then p.update .EPOLL_CTL_DEL ch else some p
  some (p, { ch with index := .kNew })

end EPollPoller

/-! ## The channel's calls into the poller -/

namespace Channel

def enableReading (ch : Channel) (p : EPollPoller) : Option (EPollPoller × Channel) :=
  p.updateChannel { ch with events := ch.events ||| kReadEvent }

def disableReading (ch : Channel) (p : EPollPoller) : Option (EPollPoller × Channel) :=
  p.updateChannel { ch with events := ch.events &&& ~~~kReadEvent }

def enableWriting (ch : Channel) (p : EPollPoller) : Option (EPollPoller × Channel) :=
  p.updateChannel { ch with events := ch.events ||| kWriteEvent }

def disableWriting (ch : Channel) (p : EPollPoller) : Option (EPollPoller × Channel) :=
  p.updateChannel { ch with events := ch.events &&& ~~~kWriteEvent }

def disableAll (ch : Channel) (p : EPollPoller) : Option (EPollPoller × Channel) :=
  p.updateChannel { ch with events := kNoneEvent }

def remove (ch : Channel) (p : EPollPoller) : Option (EPollPoller × Channel) :=
  p.removeChannel ch

end Channel

/-! ## What the calls do -/

namespace EPollPoller

/-- The kernel watches the descriptor exactly when the index is `kAdded`. -/
def Tracked (p : EPollPoller) (ch : Channel) : Prop :=
  (p.interest ch.fd).isSome ↔ ch.index = .kAdded

/-- The channel is in the interest list, with its current events. -/
def Watched (p : EPollPoller) (ch : Channel) : Prop :=
  ch.index = .kAdded ∧ p.interest ch.fd = some ⟨ch.events, ch.addr⟩

theorem Watched.tracked {p : EPollPoller} {ch : Channel} (h : p.Watched ch) : p.Tracked ch := by
  simp [Tracked, h.1, h.2]

theorem update_add {p : EPollPoller} {ch : Channel} (h : p.interest ch.fd = none) :
    p.update .EPOLL_CTL_ADD ch =
      some { p with interest := Function.update p.interest ch.fd (some ⟨ch.events, ch.addr⟩) } := by
  simp only [update, epollCtl, h]

theorem update_mod {p : EPollPoller} {ch : Channel} (h : (p.interest ch.fd).isSome) :
    p.update .EPOLL_CTL_MOD ch =
      some { p with interest := Function.update p.interest ch.fd (some ⟨ch.events, ch.addr⟩) } := by
  obtain ⟨ev, hev⟩ := Option.isSome_iff_exists.mp h
  simp only [update, epollCtl, hev]

theorem update_del {p : EPollPoller} {ch : Channel} (h : (p.interest ch.fd).isSome) :
    p.update .EPOLL_CTL_DEL ch =
      some { p with interest := Function.update p.interest ch.fd none } := by
  obtain ⟨ev, hev⟩ := Option.isSome_iff_exists.mp h
  simp only [update, epollCtl, hev]

/-- Whether `updateChannel` leaves the descriptor watched: not when an added channel has lost its
last event. -/
def staysWatched (ch : Channel) : Bool := !(ch.index == .kAdded && ch.isNoneEvent)

/-- **`updateChannel` on a tracked channel** does not abort. -/
theorem updateChannel_eq {p : EPollPoller} {ch : Channel} (h : p.Tracked ch) :
    p.updateChannel ch = some
      ({ channels := if ch.index = .kNew then Function.update p.channels ch.fd (some ch.addr)
           else p.channels
         interest := Function.update p.interest ch.fd
           (if staysWatched ch then some ⟨ch.events, ch.addr⟩ else none) },
       { ch with index := if staysWatched ch then .kAdded else .kDeleted }) := by
  obtain ⟨addr, fd, events, revents, index, tied⟩ := ch
  unfold Tracked at h
  simp only at h
  unfold updateChannel staysWatched
  cases index with
  | kAdded =>
    have hsome : (p.interest fd).isSome := h.mpr rfl
    cases hn : (Channel.mk addr fd events revents .kAdded tied).isNoneEvent
    · simp only [reduceCtorEq, or_self, if_false, Bool.false_eq_true]
      rw [update_mod (by exact hsome)]
      rfl
    · simp only [reduceCtorEq, or_self, if_false, if_true]
      rw [update_del (by exact hsome)]
      rfl
  | kNew =>
    have hnone : p.interest fd = none := by
      rw [← Option.not_isSome_iff_eq_none, h]
      decide
    simp only [true_or, if_true]
    rw [update_add (by exact hnone)]
    rfl
  | kDeleted =>
    have hnone : p.interest fd = none := by
      rw [← Option.not_isSome_iff_eq_none, h]
      decide
    simp only [or_true, if_true, reduceCtorEq, if_false]
    rw [update_add (by exact hnone)]
    rfl

/-- Changing the events of a watched channel, but not to none, keeps it watched. -/
theorem updateChannel_watched {p : EPollPoller} {ch : Channel} (h : p.Watched ch) (events : EventMask)
    (he : events ≠ kNoneEvent) :
    ∃ p', p.updateChannel { ch with events } = some (p', { ch with events }) ∧
      p'.Watched { ch with events } ∧ ∀ fd, fd ≠ ch.fd → p'.interest fd = p.interest fd := by
  have ht : p.Tracked { ch with events } := h.tracked
  have hstays : staysWatched { ch with events } = true := by
    simp [staysWatched, Channel.isNoneEvent, he]
  have heq := updateChannel_eq ht
  rw [hstays, if_pos rfl, if_pos rfl] at heq
  obtain ⟨addr, fd, old, revents, index, tied⟩ := ch
  obtain rfl : index = .kAdded := h.1
  refine ⟨_, heq, ⟨rfl, Function.update_self _ _ _⟩, fun fd' hfd => ?_⟩
  exact Function.update_of_ne hfd _ _

/-- **`removeChannel` on a tracked channel.** -/
theorem removeChannel_eq {p : EPollPoller} {ch : Channel} (h : p.Tracked ch) :
    p.removeChannel ch = some
      ({ channels := Function.update p.channels ch.fd none
         interest := Function.update p.interest ch.fd none },
       { ch with index := .kNew }) := by
  unfold Tracked at h
  unfold removeChannel
  by_cases hi : ch.index = .kAdded
  · rw [if_pos hi, update_del (by exact h.mpr hi)]
    rfl
  · have hnone : p.interest ch.fd = none := by
      rw [← Option.not_isSome_iff_eq_none, h]
      exact hi
    rw [if_neg hi, ← hnone, Function.update_eq_self]
    rfl

/-- `disableAll` and then `remove`, the way every channel is taken out of the poller. -/
theorem disableAll_remove {p : EPollPoller} {ch : Channel} (h : p.Watched ch) :
    ∃ p₁ ch₁ p₂ ch₂, ch.disableAll p = some (p₁, ch₁) ∧ ch₁.remove p₁ = some (p₂, ch₂) ∧
      ch₂.fd = ch.fd ∧ ch₂.index = .kNew := by
  have htracked : p.Tracked { ch with events := kNoneEvent } := h.tracked
  have hstays : staysWatched { ch with events := kNoneEvent } = false := by
    simp [staysWatched, h.1, Channel.isNoneEvent]
  have hdisable := updateChannel_eq htracked
  have htracked' : Tracked
      ⟨if ch.index = .kNew then Function.update p.channels ch.fd (some ch.addr) else p.channels,
        Function.update p.interest ch.fd none⟩
      { ch with events := kNoneEvent, index := .kDeleted } := by
    simp [Tracked]
  simp only [hstays, Bool.false_eq_true, if_false] at hdisable
  exact ⟨_, _, _, _, hdisable, removeChannel_eq htracked', rfl, rfl⟩

end EPollPoller
end Muduo
