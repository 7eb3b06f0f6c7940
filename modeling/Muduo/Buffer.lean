import Muduo.SysCall
import Muduo.Lib.Memory

/-!
# Buffer

`Buffer.h`, `Buffer.cc`: a `std::vector<char>` with two indices.

    0 ≤ kCheapPrepend ≤ readerIndex ≤ writerIndex ≤ buffer.length

Every copy goes through the checked accesses of `Memory`, so an operation returns `none` exactly
when it would touch an index outside the vector.  `size_t` is `Nat`: sums of lengths that fit in
memory.

* `WF`: the order of the indices; `readable`: the bytes between them.
* `append_spec`, `readFd_spec`, …: one lemma per operation; from a well-formed buffer it stays
  inside the vector, keeps `WF`, and changes `readable` as a byte queue.
* `ValidBuffer`: a buffer with its `WF`, and the operations on it.
-/

namespace Muduo

open Memory

def kCheapPrepend : Nat := 8
def kInitialSize : Nat := 1024

structure Buffer where
  buffer : List UInt8
  readerIndex : Nat
  writerIndex : Nat
deriving DecidableEq, Repr

namespace Buffer

/-! ## The code -/

/-- `Buffer(initialSize)`. -/
def new (initialSize : Nat) : Buffer where
  buffer := List.replicate (kCheapPrepend + initialSize) 0
  readerIndex := kCheapPrepend
  writerIndex := kCheapPrepend

def prependableBytes (b : Buffer) : Nat := b.readerIndex
def readableBytes (b : Buffer) : Nat := b.writerIndex - b.readerIndex
def writableBytes (b : Buffer) : Nat := b.buffer.length - b.writerIndex

def retrieveAll (b : Buffer) : Buffer :=
  { b with readerIndex := kCheapPrepend, writerIndex := kCheapPrepend }

def retrieve (b : Buffer) (len : Nat) : Buffer :=
  if len < b.readableBytes then { b with readerIndex := b.readerIndex + len } else b.retrieveAll

/-- `std::string result(peek(), len); retrieve(len); return result;` -/
def retrieveAsString (b : Buffer) (len : Nat) : Option (Buffer × List UInt8) := do
  let result ← load b.buffer b.readerIndex len
  some (b.retrieve len, result)

def retrieveAllAsString (b : Buffer) : Option (Buffer × List UInt8) :=
  b.retrieveAsString b.readableBytes

def makeSpace (b : Buffer) (len : Nat) : Option Buffer :=
  if b.writableBytes + b.prependableBytes < len + kCheapPrepend then
    some { b with buffer := resize b.buffer (b.writerIndex + len) 0 }
  else do
    let readable := b.readableBytes
    let buffer ← copyForward b.buffer b.readerIndex kCheapPrepend readable
    some { buffer, readerIndex := kCheapPrepend, writerIndex := kCheapPrepend + readable }

def ensureWritableBytes (b : Buffer) (len : Nat) : Option Buffer :=
  if b.writableBytes < len then b.makeSpace len else some b

/-- `append(data, len)`, `len` being the length of `data`. -/
def append (b : Buffer) (data : List UInt8) : Option Buffer := do
  let b ← b.ensureWritableBytes data.length
  let buffer ← store b.buffer b.writerIndex data
  some { b with buffer, writerIndex := b.writerIndex + data.length }

/-- `sizeof(extrabuf)`. -/
def sizeofExtrabuf : Nat := 65535

/-- The lengths of the `iovec`s that `readFd` offers: the writable part of the vector, and
`extrabuf` when that is shorter (`iovcnt`). -/
def iov (b : Buffer) : List Nat :=
  if b.writableBytes < sizeofExtrabuf then [b.writableBytes, sizeofExtrabuf] else [b.writableBytes]

/-- `readFd`: the return value is `n`, or `-1` and the saved `errno`. -/
def readFd (b : Buffer) : ReadvResult → Option (Buffer × Except Errno Nat)
  | .error e => some (b, .error e)
  | .data bs => do
    let writable := b.writableBytes
    let vec ← scatter b.iov bs
    let buffer ← store b.buffer b.writerIndex (vec.getD 0 [])
    let n := bs.length
    if n ≤ writable then
      some ({ b with buffer, writerIndex := b.writerIndex + n }, .ok n)
    else do
      -- the vector is full: the rest is in `extrabuf`
      let b ← append { b with buffer, writerIndex := buffer.length } (vec.getD 1 [])
      some (b, .ok n)

/-! ## Well-formed buffers and their content -/

structure WF (b : Buffer) : Prop where
  prepend_le : kCheapPrepend ≤ b.readerIndex
  reader_le : b.readerIndex ≤ b.writerIndex
  writer_le : b.writerIndex ≤ b.buffer.length

/-- The readable bytes. -/
def readable (b : Buffer) : List UInt8 := window b.buffer b.readerIndex b.writerIndex

theorem WF.length_readable {b : Buffer} (h : b.WF) : b.readable.length = b.readableBytes :=
  length_window _ _ _ h.writer_le

theorem wf_new (initialSize : Nat) : (new initialSize).WF where
  prepend_le := Nat.le_refl _
  reader_le := Nat.le_refl _
  writer_le := by simp [new]

@[simp] theorem readable_new (initialSize : Nat) : (new initialSize).readable = [] :=
  window_self _ _

theorem wf_retrieveAll {b : Buffer} (h : b.WF) : b.retrieveAll.WF where
  prepend_le := Nat.le_refl _
  reader_le := Nat.le_refl _
  writer_le := Nat.le_trans h.prepend_le (Nat.le_trans h.reader_le h.writer_le)

@[simp] theorem readable_retrieveAll (b : Buffer) : b.retrieveAll.readable = [] :=
  window_self _ _

/-- `retrieve(len)` drops `min(len, size)` bytes from the front. -/
theorem retrieve_spec {b : Buffer} (h : b.WF) (len : Nat) :
    (b.retrieve len).WF ∧ (b.retrieve len).readable = b.readable.drop len := by
  unfold retrieve
  split
  · next hlt =>
    unfold readableBytes at hlt
    refine ⟨⟨?_, ?_, h.writer_le⟩, ?_⟩
    · exact Nat.le_trans h.prepend_le (Nat.le_add_right _ _)
    · show b.readerIndex + len ≤ b.writerIndex
      omega
    · exact (window_drop _ _ _ _).symm
  · next hge =>
    refine ⟨wf_retrieveAll h, ?_⟩
    rw [readable_retrieveAll, List.drop_of_length_le (by rw [h.length_readable]; omega)]

theorem retrieveAsString_spec {b : Buffer} (h : b.WF) (len : Nat) (hlen : len ≤ b.readableBytes) :
    b.retrieveAsString len = some (b.retrieve len, b.readable.take len) := by
  unfold readableBytes at hlen
  have hr := h.reader_le
  have hw := h.writer_le
  simp only [retrieveAsString, load_eq_some _ _ _ (show b.readerIndex + len ≤ b.buffer.length by omega)]
  rw [readable, window_take _ _ _ _ (by omega)]
  rfl

/-! ## Making space -/

/-- The data slides down to `kCheapPrepend`, whatever the overlap. -/
theorem slide_spec {b : Buffer} (h : b.WF) :
    ∃ buffer, copyForward b.buffer b.readerIndex kCheapPrepend b.readableBytes = some buffer ∧
      buffer.length = b.buffer.length ∧
      window buffer kCheapPrepend (kCheapPrepend + b.readableBytes) = b.readable := by
  have hp := h.prepend_le
  have hr := h.reader_le
  have hw := h.writer_le
  have hend : b.readerIndex + b.readableBytes = b.writerIndex := by unfold readableBytes; omega
  have hcopy := copyForward_eq_store b.readableBytes b.buffer b.readerIndex kCheapPrepend hp (by omega)
  rw [hend] at hcopy
  have hlen : (window b.buffer b.readerIndex b.writerIndex).length = b.readableBytes :=
    length_window _ _ _ hw
  obtain ⟨buffer, hs⟩ := store_isSome b.buffer (window b.buffer b.readerIndex b.writerIndex)
    kCheapPrepend (by omega)
  refine ⟨buffer, hcopy.trans hs, length_store hs, ?_⟩
  have := window_store_self hs
  rwa [hlen] at this

theorem makeSpace_spec {b : Buffer} (h : b.WF) (len : Nat) :
    ∃ b', b.makeSpace len = some b' ∧ b'.WF ∧ b'.readable = b.readable ∧ len ≤ b'.writableBytes := by
  have hp := h.prepend_le
  have hr := h.reader_le
  have hw := h.writer_le
  unfold makeSpace
  split
  · refine ⟨_, rfl, ⟨hp, hr, ?_⟩, ?_, ?_⟩
    · simp only [length_resize]
      omega
    · exact window_eq_of_take_eq (take_resize _ _ _ _ (Nat.le_add_right _ _) hw) _
    · simp only [writableBytes, length_resize]
      omega
  · next hfree =>
    obtain ⟨buffer, hcopy, hlen, hread⟩ := slide_spec h
    simp only [hcopy]
    unfold writableBytes prependableBytes at hfree
    refine ⟨_, rfl, ⟨Nat.le_refl _, Nat.le_add_right _ _, ?_⟩, hread, ?_⟩
    · simp only [hlen, readableBytes]
      omega
    · simp only [writableBytes, hlen, readableBytes]
      omega

/-- `ensureWritableBytes(len)` leaves room for `len` bytes and changes nothing else. -/
theorem ensureWritableBytes_spec {b : Buffer} (h : b.WF) (len : Nat) :
    ∃ b', b.ensureWritableBytes len = some b' ∧ b'.WF ∧ b'.readable = b.readable ∧
      len ≤ b'.writableBytes := by
  unfold ensureWritableBytes
  split
  · exact makeSpace_spec h len
  · next hge => exact ⟨b, rfl, h, rfl, by omega⟩

/-! ## Adding bytes -/

/-- Storing `data` at the write position and moving `writerIndex` over it. -/
theorem store_spec {b : Buffer} (h : b.WF) {data buffer : List UInt8}
    (hs : store b.buffer b.writerIndex data = some buffer) :
    ({ b with buffer, writerIndex := b.writerIndex + data.length } : Buffer).WF ∧
      ({ b with buffer, writerIndex := b.writerIndex + data.length } : Buffer).readable =
        b.readable ++ data := by
  refine ⟨⟨h.prepend_le, ?_, ?_⟩, window_store_end hs _ h.reader_le⟩
  · exact Nat.le_trans h.reader_le (Nat.le_add_right _ _)
  · show b.writerIndex + data.length ≤ buffer.length
    rw [length_store hs]
    exact store_bound hs

/-- `append` adds its bytes at the end. -/
theorem append_spec {b : Buffer} (h : b.WF) (data : List UInt8) :
    ∃ b', b.append data = some b' ∧ b'.WF ∧ b'.readable = b.readable ++ data := by
  obtain ⟨b₁, h₁, hwf, hread, hroom⟩ := ensureWritableBytes_spec h data.length
  have hw := hwf.writer_le
  unfold writableBytes at hroom
  obtain ⟨buffer, hs⟩ := store_isSome b₁.buffer data b₁.writerIndex (by omega)
  obtain ⟨hwf', hread'⟩ := store_spec hwf hs
  refine ⟨_, ?_, hwf', ?_⟩
  · simp only [append, h₁, Option.bind_eq_bind, Option.bind_some, hs]
  · rw [hread', hread]

/-- What the kernel can deliver is what the `iovec`s offer. -/
theorem scatter_iov (b : Buffer) (bs : List UInt8) (hfit : bs.length ≤ b.iov.sum) :
    ∃ vec, scatter b.iov bs = some vec ∧ vec.getD 0 [] = bs.take b.writableBytes ∧
      (b.writableBytes < bs.length → vec.getD 1 [] = bs.drop b.writableBytes) := by
  unfold iov at hfit ⊢
  split at hfit
  · next hlt =>
    rw [if_pos hlt]
    simp only [List.sum_cons, List.sum_nil, Nat.add_zero] at hfit
    have hnil : (bs.drop b.writableBytes).drop sizeofExtrabuf = [] := by
      rw [List.drop_drop]
      exact List.drop_of_length_le hfit
    refine ⟨[bs.take b.writableBytes, (bs.drop b.writableBytes).take sizeofExtrabuf], ?_, rfl, ?_⟩
    · simp only [scatter, hnil, Option.map_some]
    · intro _
      exact List.take_of_length_le (by rw [List.length_drop]; omega)
  · next hge =>
    rw [if_neg hge]
    simp only [List.sum_cons, List.sum_nil, Nat.add_zero] at hfit
    refine ⟨[bs.take b.writableBytes], ?_, rfl, fun h => absurd hfit (by omega)⟩
    simp only [scatter, List.drop_of_length_le hfit, Option.map_some]

/-- `readFd` adds the bytes delivered, in order, across the vector and `extrabuf`. -/
theorem readFd_spec {b : Buffer} (h : b.WF) (bs : List UInt8) (hfit : bs.length ≤ b.iov.sum) :
    ∃ b', b.readFd (.data bs) = some (b', .ok bs.length) ∧ b'.WF ∧
      b'.readable = b.readable ++ bs := by
  have hw := h.writer_le
  obtain ⟨vec, hvec, hv0, hv1⟩ := scatter_iov b bs hfit
  have hroom : b.writerIndex + (bs.take b.writableBytes).length ≤ b.buffer.length := by
    simp only [List.length_take, writableBytes]
    omega
  obtain ⟨buffer, hs⟩ := store_isSome b.buffer (bs.take b.writableBytes) b.writerIndex hroom
  obtain ⟨hwf, hread⟩ := store_spec h hs
  simp only [readFd, hvec, hv0, hs, Option.bind_eq_bind, Option.bind_some]
  split
  · next hle =>
    rw [List.take_of_length_le hle] at hwf hread
    exact ⟨_, rfl, hwf, hread⟩
  · next hgt =>
    -- the first part ends at the end of the vector
    have hend : b.writerIndex + (bs.take b.writableBytes).length = buffer.length := by
      rw [length_store hs, List.length_take]
      unfold writableBytes at hgt ⊢
      omega
    rw [hend] at hwf hread
    obtain ⟨b', happ, hwf', hread'⟩ := append_spec hwf (bs.drop b.writableBytes)
    refine ⟨b', ?_, hwf', ?_⟩
    · rw [hv1 (by omega)]
      simp only [happ, Option.bind_some]
    · rw [hread', hread, List.append_assoc, List.take_append_drop]

theorem fits_of_readFd {b b' : Buffer} {bs : List UInt8} {n : Except Errno Nat}
    (h : b.readFd (.data bs) = some (b', n)) : bs.length ≤ b.iov.sum := by
  cases hs : scatter b.iov bs with
  | none => simp [readFd, hs] at h
  | some vec => exact length_le_of_scatter hs

end Buffer
end Muduo
