import Mathlib.Data.BitVec

/-!
# Channel

`Channel.h`, `Channel.cc`: a descriptor with the events its owner is interested in and the events
the poller reported.

* `Channel`: the fields of the object; `addr` is its address, what the poller stores.
* `eventCallbacks revents`: the callbacks `handleEventWithGuard` calls, in order.

The methods that call the poller (`enableReading`, …, `remove`) are in `EPollPoller`.
-/

namespace Muduo

/-! ## Event masks -/

abbrev EventMask := BitVec 32

def EPOLLIN : EventMask := 0x001
def EPOLLPRI : EventMask := 0x002
def EPOLLOUT : EventMask := 0x004
def EPOLLERR : EventMask := 0x008
def EPOLLHUP : EventMask := 0x010

def kNoneEvent : EventMask := 0
def kReadEvent : EventMask := EPOLLIN ||| EPOLLPRI
def kWriteEvent : EventMask := EPOLLOUT

/-- `revents & mask`, as a condition. -/
def EventMask.has (revents mask : EventMask) : Bool := revents &&& mask != 0

/-! ## The object -/

/-- The state of a channel in the poller: `kNew`, `kAdded`, `kDeleted`. -/
inductive Index
  | kNew | kAdded | kDeleted
deriving DecidableEq, Repr

structure Channel where
  addr : Nat
  fd : Nat
  events : EventMask
  revents : EventMask
  index : Index
  tied : Bool
deriving DecidableEq, Repr

namespace Channel

/-- `Channel(loop, fd)`, allocated at `addr`. -/
def new (addr fd : Nat) : Channel where
  addr := addr
  fd := fd
  events := 0
  revents := 0
  index := .kNew
  tied := false

def isNoneEvent (ch : Channel) : Bool := ch.events == kNoneEvent
def isWriting (ch : Channel) : Bool := EventMask.has ch.events kWriteEvent
def isReading (ch : Channel) : Bool := EventMask.has ch.events kReadEvent

end Channel

/-! ## Dispatch -/

inductive EventCallback
  | close | error | read | write
deriving DecidableEq, Repr

/-- The test before each callback in `handleEventWithGuard`. -/
def EventCallback.fires (revents : EventMask) : EventCallback → Bool
  | .close => EventMask.has revents EPOLLHUP && !EventMask.has revents EPOLLIN
  | .error => EventMask.has revents EPOLLERR
  | .read => EventMask.has revents (EPOLLIN ||| EPOLLPRI)
  | .write => EventMask.has revents EPOLLOUT

/-- The callbacks called for `revents`, in order. -/
def eventCallbacks (revents : EventMask) : List EventCallback :=
  [.close, .error, .read, .write].filter (EventCallback.fires revents)

end Muduo
