import Muduo.BufferQueue

/-!
# The length of `retrieveAsString`

`retrieve(len)` clamps: from `readableBytes()` on it removes everything there is.  The copy that
`retrieveAsString(len)` makes before it calls `retrieve(len)` does not, and takes `len` bytes from the
vector wherever they lie.

* `Agrees`: the string is what `retrieve` removes, and only readable bytes are read.

    after any calls, `retrieveAsString(len)` agrees with `retrieve(len)`   iff   len ≤ readableBytes()
                                                                       (retrieveAsString_agrees_iff)
-/

namespace Muduo

open Memory Transition

namespace Buffer

variable {b : Buffer} {len : Nat}

/-- The vector without what lies at `writerIndex` and behind it. -/
def withoutFree (b : Buffer) : Buffer := { b with buffer := b.buffer.take b.writerIndex }

/-- `retrieveAsString(len)` returns the bytes that `retrieve(len)` removes from the front, and reads
nothing at `writerIndex` or behind it: it would succeed on a vector that ends there. -/
structure Agrees (b : Buffer) (len : Nat) : Prop where
  returned : ∃ s, b.retrieveAsString len = some (b.retrieve len, s) ∧
    s ++ (b.retrieve len).readable = b.readable
  inside : (b.withoutFree.retrieveAsString len).isSome

/-! ## What is copied -/

theorem retrieveAsString_eq_some {b' : Buffer} {s : List UInt8} :
    b.retrieveAsString len = some (b', s) ↔ b.readerIndex + len ≤ b.buffer.length ∧
      b' = b.retrieve len ∧ s = window b.buffer b.readerIndex (b.readerIndex + len) := by
  unfold retrieveAsString load
  split
  · next hle =>
    simp only [Option.bind_eq_bind, Option.bind_some, Option.some.injEq, Prod.mk.injEq, hle, true_and,
      eq_comm]
  · next hlt => simp [hlt]

/-- The call leaves the readable bytes alone only up to `readableBytes()`. -/
theorem inside_iff (h : b.WF) :
    (b.withoutFree.retrieveAsString len).isSome ↔ len ≤ b.readableBytes := by
  have hr := h.reader_le
  have hw := h.writer_le
  have hlen : (b.buffer.take b.writerIndex).length = b.writerIndex := List.length_take_of_le hw
  rw [Option.isSome_iff_exists]
  constructor
  · rintro ⟨⟨b', s⟩, hsome⟩
    obtain ⟨hle, -⟩ := retrieveAsString_eq_some.mp hsome
    simp only [withoutFree, hlen] at hle
    unfold readableBytes
    omega
  · intro hle
    unfold readableBytes at hle
    exact ⟨_, retrieveAsString_eq_some.mpr ⟨by simp only [withoutFree, hlen]; omega, rfl, rfl⟩⟩

/-- A string of `len` bytes is no part of fewer readable ones. -/
theorem le_of_returned (h : b.WF) {b' : Buffer} {s rest : List UInt8}
    (hs : b.retrieveAsString len = some (b', s)) (hread : s ++ rest = b.readable) :
    len ≤ b.readableBytes := by
  obtain ⟨hle, -, rfl⟩ := retrieveAsString_eq_some.mp hs
  have hlen := congrArg List.length hread
  rw [List.length_append, length_window _ _ _ hle, h.length_readable] at hlen
  omega

theorem agrees_iff (h : b.WF) (len : Nat) : b.Agrees len ↔ len ≤ b.readableBytes := by
  constructor
  · rintro ⟨⟨s, hs, hread⟩, -⟩
    exact le_of_returned h hs hread
  · intro hle
    refine ⟨⟨_, retrieveAsString_spec h len hle, ?_⟩, (inside_iff h).mpr hle⟩
    rw [(retrieve_spec h len).2, List.take_append_drop]

end Buffer

/-! ## Every run -/

theorem wf_bufferStep (s : Buffer × List BufferReturn) (c : BufferCall)
    (s' : Buffer × List BufferReturn) (h : s.1.WF) (hs : bufferStep s c = some s') : s'.1.WF := by
  obtain ⟨⟨b, r⟩, hcall, rfl⟩ := Option.map_eq_some_iff.mp hs
  exact Buffer.call_wf h hcall

/-- **The string is what `retrieve` removes, for the lengths up to `readableBytes()` and for no
others.**  After any sequence of calls, whatever their arguments. -/
theorem retrieveAsString_agrees_iff (initialSize : Nat) (calls : List BufferCall) :
    Along bufferStep (fun s => ∀ len, s.1.Agrees len ↔ len ≤ s.1.readableBytes)
      (Buffer.new initialSize, []) calls :=
  along_inv (fun _ h => Buffer.agrees_iff h) wf_bufferStep (Buffer.wf_new initialSize)

/-- **A string of an earlier message.**  One byte is readable; asked for 4, the call returns it with 3
bytes of a message that was retrieved before, and asked for 5 it reads outside the vector. -/
theorem retrieveAsString_leaks :
    ∃ b returned,
      run bufferStep (Buffer.new 4, []) [.append [1, 2, 3, 4], .retrieveAll, .append [5]] =
        some (b, returned) ∧
      b.readable = [5] ∧ (b.retrieveAsString 4).map Prod.snd = some [5, 2, 3, 4] ∧
      (b.retrieve 4).readable = [] ∧ ¬ b.Agrees 4 ∧ b.retrieveAsString 5 = none := by
  refine ⟨_, _, rfl, by decide, by decide, by decide, ?_, by decide⟩
  intro h
  exact absurd h.inside (by decide)

end Muduo
