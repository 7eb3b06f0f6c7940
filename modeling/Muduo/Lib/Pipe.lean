import Mathlib.Data.List.Infix

/-!
# One direction of a stream socket

What the manual pages promise of a connected stream: what one side writes, the other side reads, in
order and without loss, until the connection is reset.

* `Pipe`: what has been written and not yet read, and what a reset has thrown away.
* `Flow p sent received pending`: the writer's stream, the reader's stream and the pipe between them.

    received ++ in flight ++ lost ++ pending at the writer = sent
-/

/-- The stream from a writer to a reader. -/
structure Pipe (α : Type*) where
  inFlight : List α
  /-- the writer has ended the stream -/
  fin : Bool
  /-- the connection has been reset -/
  broken : Bool
  /-- in flight when it was reset -/
  lost : List α

namespace Pipe

variable {α : Type*}

def empty : Pipe α := ⟨[], false, false, []⟩

/-- More can be written. -/
def isOpen (p : Pipe α) : Bool := !p.fin && !p.broken

/-- The reader has come to the end of the stream. -/
def atEnd (p : Pipe α) : Bool := p.inFlight.isEmpty && p.fin

def push (p : Pipe α) (bs : List α) : Pipe α := { p with inFlight := p.inFlight ++ bs }

def finish (p : Pipe α) : Pipe α := { p with fin := true }

def pull (p : Pipe α) (n : Nat) : Pipe α := { p with inFlight := p.inFlight.drop n }

def reset (p : Pipe α) : Pipe α :=
  { p with inFlight := [], broken := true, lost := p.inFlight ++ p.lost }

/-- What was sent is, in this order, what the reader has, what is in flight, what is lost and what the
writer has not written yet. -/
structure Flow (p : Pipe α) (sent received pending : List α) : Prop where
  order : received ++ p.inFlight ++ p.lost ++ pending = sent
  lost : p.broken = false → p.lost = []

variable {p : Pipe α} {sent received pending : List α}

theorem flow_empty : Flow (empty : Pipe α) [] [] [] := ⟨rfl, fun _ => rfl⟩

namespace Flow

/-- The writer takes `kept` over and writes `bs`, the rest of what it had still to write coming
after. -/
theorem write (h : Flow p sent received pending) (bs pending' kept : List α)
    (hopen : bs = [] ∨ p.broken = false) (hstream : bs ++ pending' = pending ++ kept) :
    Flow (p.push bs) (sent ++ kept) received pending' := by
  refine ⟨?_, h.lost⟩
  rw [← h.order]
  rcases hopen with rfl | hbroken
  · rw [List.nil_append] at hstream
    simp [push, hstream]
  · simp only [push, h.lost hbroken, List.append_nil, List.append_assoc, hstream]

theorem read (h : Flow p sent received pending) {bs : List α} (hbs : bs <+: p.inFlight) :
    Flow (p.pull bs.length) sent (received ++ bs) pending := by
  obtain ⟨rest, hrest⟩ := hbs
  refine ⟨?_, h.lost⟩
  rw [← h.order, pull, ← hrest, List.drop_left]
  simp

theorem finish (h : Flow p sent received pending) : Flow p.finish sent received pending :=
  ⟨h.order, h.lost⟩

theorem reset (h : Flow p sent received pending) : Flow p.reset sent received pending := by
  refine ⟨?_, fun hbroken => by cases hbroken⟩
  rw [← h.order]
  simp [Pipe.reset]

/-- The reader has a prefix of what was sent. -/
theorem received_prefix (h : Flow p sent received pending) : received <+: sent := by
  rw [← h.order, List.append_assoc, List.append_assoc]
  exact List.prefix_append _ _

/-- What the reader has when nothing is on its way and nothing was lost. -/
theorem received_append_pending (h : Flow p sent received pending) (hflight : p.inFlight = [])
    (hbroken : p.broken = false) : received ++ pending = sent := by
  rw [← h.order, hflight, h.lost hbroken]
  simp

end Flow
end Pipe
