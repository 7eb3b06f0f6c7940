import Mathlib.Algebra.Ring.Nat
import Mathlib.Data.List.Basic

/-!
# System calls

What the kernel answers to the calls the library makes.  An answer is an input of the model:
every result the manual page allows is a value here.

* `WriteResult`: `::write` takes a prefix of what it is offered, or fails, and `errno` may be another
  once a line has been logged.
* `ReadvResult`, `scatter`: `::readv` fills the buffers of its `iovec`s in order.
* `Errno`: the error numbers the source names, and `other` for the rest.
-/

namespace Muduo

inductive Errno
  | EAGAIN | EINTR | EPIPE | ECONNRESET
  | EINPROGRESS | EISCONN
  | EADDRINUSE | EADDRNOTAVAIL | ECONNREFUSED | ENETUNREACH
  | EACCES | EPERM | EAFNOSUPPORT | EALREADY | EBADF | EFAULT | ENOTSOCK
  | EEXIST | ENOENT | EMFILE
  | other (code : Nat)
deriving DecidableEq, Repr

/-- The result of `::write`: the number of bytes taken (`count n` stands for `min n len`, as no
more than the `len` bytes offered can be taken), or `-1` and `errno`.  `logged` is what `errno` holds
once the `LOG_ERROR` behind the failed call has returned: it takes the local time and writes to
`std::cout`, and both may set `errno`. -/
inductive WriteResult
  | count (n : Nat)
  | error (e logged : Errno)
deriving DecidableEq, Repr

/-- The result of `::readv`: the bytes delivered (none at the end of the stream), or `-1` and
`errno`. -/
inductive ReadvResult
  | data (bs : List UInt8)
  | error (e : Errno)
deriving DecidableEq, Repr

namespace ReadvResult

/-- The bytes delivered. -/
def bytes : ReadvResult → List UInt8
  | .data bs => bs
  | .error _ => []

/-- The value returned, an error standing for `-1` and `errno`. -/
def ssize : ReadvResult → Except Errno Nat
  | .data bs => .ok bs.length
  | .error e => .error e

end ReadvResult

/-- Deliver `bs` into buffers of the given lengths, filling each before the next; `none` when
they do not fit, which `::readv` never does. -/
def scatter : List Nat → List UInt8 → Option (List (List UInt8))
  | [], [] => some []
  | [], _ :: _ => none
  | n :: ns, bs => (scatter ns (bs.drop n)).map fun rest => bs.take n :: rest

theorem length_le_of_scatter {ns : List Nat} {bs : List UInt8} {vec : List (List UInt8)}
    (h : scatter ns bs = some vec) : bs.length ≤ ns.sum := by
  induction ns generalizing bs vec with
  | nil =>
    cases bs with
    | nil => exact Nat.le_refl _
    | cons b bs => cases h
  | cons n ns ih =>
    obtain ⟨rest, hrest, -⟩ := Option.map_eq_some_iff.mp h
    have := ih hrest
    rw [List.length_drop] at this
    rw [List.sum_cons]
    omega

end Muduo
