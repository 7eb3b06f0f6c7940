import Muduo.BufferQueue

/-!
# Buffer with the width of `size_t`

The functions of `Buffer` again, with every sum and difference taken modulo `2 ^ 64` and a vector that
throws `length_error` when it is to hold more than `max_size()` elements.

* `size_t`: the arithmetic; `Buffer64`: the functions, on the same `Buffer` objects.
* A function returns the buffer and whether it returned or threw; `none` is an access outside the
  vector.
* As long as `writerIndex + len` is a `size_t`, the functions do what `Buffer`'s do, or throw when the
  vector would be too long (`ensureWritableBytes_eq`).

`ensureWritableBytes` compares with `len + kCheapPrepend` and resizes to `writerIndex_ + len`; either
sum may wrap, and then it makes no room or cuts the vector below `writerIndex_`.  So

    ensureWritableBytes(len) makes the room or throws   iff   writerIndex_ + len < 2 ^ 64
                                                             (ensureWritableBytes_safe_iff)
-/

namespace Muduo

open Memory Transition

/-! ## `size_t` -/

/-- `2 ^ 64`. -/
def sizeRange : Nat := 0x10000000000000000

/-- `std::vector<char>::max_size()`. -/
def maxSize : Nat := 0x7fffffffffffffff

def sizeAdd (a b : Nat) : Nat := (a + b) % sizeRange

def sizeSub (a b : Nat) : Nat := (a + sizeRange - b) % sizeRange

theorem sizeAdd_eq {a b : Nat} (h : a + b < sizeRange) : sizeAdd a b = a + b := Nat.mod_eq_of_lt h

theorem sizeSub_eq {a b : Nat} (h : b ≤ a) (ha : a < sizeRange) : sizeSub a b = a - b := by
  unfold sizeSub sizeRange at *
  omega

/-- How a function ends. -/
inductive Completion
  | returned
  | lengthError
deriving DecidableEq, Repr

namespace Buffer64

/-! ## The code -/

/-- `buffer_.resize(n)`; `none` is the `length_error`. -/
def resize (buffer : List UInt8) (n : Nat) : Option (List UInt8) :=
  if maxSize < n then none else some (Memory.resize buffer n 0)

/-- `Buffer(initialSize)`; `none` is the `length_error` of the vector. -/
def new (initialSize : Nat) : Option Buffer :=
  (resize [] (sizeAdd kCheapPrepend initialSize)).map fun buffer =>
    { buffer, readerIndex := kCheapPrepend, writerIndex := kCheapPrepend }

def readableBytes (b : Buffer) : Nat := sizeSub b.writerIndex b.readerIndex
def writableBytes (b : Buffer) : Nat := sizeSub b.buffer.length b.writerIndex

def retrieve (b : Buffer) (len : Nat) : Buffer :=
  if len < readableBytes b then { b with readerIndex := sizeAdd b.readerIndex len }
  else b.retrieveAll

def retrieveAsString (b : Buffer) (len : Nat) : Option Buffer := do
  let _ ← load b.buffer b.readerIndex len
  some (retrieve b len)

def makeSpace (b : Buffer) (len : Nat) : Option (Buffer × Completion) :=
  if sizeAdd (writableBytes b) b.prependableBytes < sizeAdd len kCheapPrepend then
    match resize b.buffer (sizeAdd b.writerIndex len) with
    | none => some (b, .lengthError)
    | some buffer => some ({ b with buffer }, .returned)
  else do
    let readable := readableBytes b
    let buffer ← copyForward b.buffer b.readerIndex kCheapPrepend readable
    some ({ buffer, readerIndex := kCheapPrepend, writerIndex := sizeAdd kCheapPrepend readable },
      .returned)

def ensureWritableBytes (b : Buffer) (len : Nat) : Option (Buffer × Completion) :=
  if writableBytes b < len then makeSpace b len else some (b, .returned)

def append (b : Buffer) (data : List UInt8) : Option (Buffer × Completion) := do
  match ← ensureWritableBytes b data.length with
  | (b, .lengthError) => some (b, .lengthError)
  | (b, .returned) => do
    let buffer ← store b.buffer b.writerIndex data
    some ({ b with buffer, writerIndex := sizeAdd b.writerIndex data.length }, .returned)

def iov (b : Buffer) : List Nat :=
  if writableBytes b < Buffer.sizeofExtrabuf then [writableBytes b, Buffer.sizeofExtrabuf]
  else [writableBytes b]

def readFd (b : Buffer) : ReadvResult → Option (Buffer × Completion)
  | .error _ => some (b, .returned)
  | .data bs => do
    let writable := writableBytes b
    let vec ← scatter (iov b) bs
    let buffer ← store b.buffer b.writerIndex (vec.getD 0 [])
    let n := bs.length
    if n ≤ writable then
      some ({ b with buffer, writerIndex := sizeAdd b.writerIndex n }, .returned)
    else append { b with buffer, writerIndex := buffer.length } (vec.getD 1 [])

def call (b : Buffer) : BufferCall → Option (Buffer × Completion)
  | .append data => append b data
  | .retrieve len => some (retrieve b len, .returned)
  | .retrieveAll => some (b.retrieveAll, .returned)
  | .retrieveAllAsString => (retrieveAsString b (readableBytes b)).map (·, .returned)
  | .retrieveAsString len => (retrieveAsString b len).map (·, .returned)
  | .ensureWritableBytes len => ensureWritableBytes b len
  | .readFd r => readFd b r

/-- A session goes on after a call that threw. -/
def step (b : Buffer) (c : BufferCall) : Option Buffer := (call b c).map Prod.fst

/-! ## Where nothing wraps -/

/-- A well-formed buffer whose vector has a possible length. -/
structure Fits (b : Buffer) : Prop where
  wf : b.WF
  length : b.buffer.length ≤ maxSize

variable {b b' : Buffer} {len : Nat}

namespace Fits

theorem readableBytes_eq (h : Fits b) : readableBytes b = b.readableBytes := by
  have hr := h.wf.reader_le
  have hw := h.wf.writer_le
  have hl := h.length
  unfold maxSize at hl
  apply sizeSub_eq hr
  unfold sizeRange
  omega

theorem writableBytes_eq (h : Fits b) : writableBytes b = b.writableBytes := by
  have hw := h.wf.writer_le
  have hl := h.length
  unfold maxSize at hl
  apply sizeSub_eq hw
  unfold sizeRange
  omega

theorem retrieve_eq (h : Fits b) (len : Nat) : retrieve b len = b.retrieve len := by
  unfold retrieve Buffer.retrieve
  rw [h.readableBytes_eq]
  split
  · next hlt =>
    have hw := h.wf.writer_le
    have hl := h.length
    unfold Buffer.readableBytes at hlt
    unfold maxSize at hl
    rw [sizeAdd_eq (by unfold sizeRange; omega)]
  · rfl

theorem retrieve (h : Fits b) (len : Nat) : Fits (b.retrieve len) := by
  refine ⟨(Buffer.retrieve_spec h.wf len).1, ?_⟩
  unfold Buffer.retrieve Buffer.retrieveAll
  split
  · exact h.length
  · exact h.length

end Fits

/-- What a call of `Buffer` becomes when the vector may throw: the buffer as it was, if the new one
would be too long. -/
def orThrow (b b' : Buffer) : Buffer × Completion :=
  if b'.buffer.length ≤ maxSize then (b', .returned) else (b, .lengthError)

/-- **Where the sum fits**, `ensureWritableBytes` is the function of `Buffer`, or throws. -/
theorem ensureWritableBytes_eq (h : Fits b) (hlen : b.writerIndex + len < sizeRange) :
    ∃ b', b.ensureWritableBytes len = some b' ∧
      ensureWritableBytes b len = some (orThrow b b') := by
  have hp := h.wf.prepend_le
  have hr := h.wf.reader_le
  have hw := h.wf.writer_le
  have hl := h.length
  have hk : kCheapPrepend = 8 := rfl
  unfold ensureWritableBytes Buffer.ensureWritableBytes orThrow
  rw [h.writableBytes_eq]
  split
  · next hlt =>
    have hwritable : b.writableBytes + b.prependableBytes < sizeRange := by
      unfold Buffer.writableBytes Buffer.prependableBytes sizeRange
      unfold maxSize at hl
      omega
    have hprepend : len + kCheapPrepend < sizeRange := by omega
    unfold makeSpace Buffer.makeSpace
    rw [h.writableBytes_eq, sizeAdd_eq hwritable, sizeAdd_eq hprepend, sizeAdd_eq hlen]
    split
    · refine ⟨_, rfl, ?_⟩
      unfold resize
      simp only [length_resize]
      by_cases hmax : b.writerIndex + len ≤ maxSize
      · rw [if_neg (Nat.not_lt.mpr hmax), if_pos hmax]
      · rw [if_pos (Nat.not_le.mp hmax), if_neg hmax]
    · obtain ⟨buffer, hcopy, hcl, -⟩ := Buffer.slide_spec h.wf
      have hsum : kCheapPrepend + b.readableBytes < sizeRange := by
        unfold Buffer.readableBytes sizeRange
        unfold maxSize at hl
        omega
      simp only [h.readableBytes_eq, hcopy, Option.bind_eq_bind, Option.bind_some]
      refine ⟨_, rfl, ?_⟩
      rw [if_pos (by simpa only [hcl] using hl), sizeAdd_eq hsum]
  · exact ⟨b, rfl, (if_pos hl).symm ▸ rfl⟩

theorem orThrow_fits (h : Fits b) (hwf : b'.WF) : Fits (orThrow b b').1 := by
  unfold orThrow
  split
  · next hle => exact ⟨hwf, hle⟩
  · exact h

theorem ensureWritableBytes_fits (h : Fits b) (hlen : b.writerIndex + len < sizeRange)
    {e : Completion} (he : ensureWritableBytes b len = some (b', e)) :
    Fits b' ∧ (e = .returned → b.ensureWritableBytes len = some b') := by
  obtain ⟨b₁, h₁, h₂⟩ := ensureWritableBytes_eq h hlen
  obtain ⟨b₂, h₃, hwf, -⟩ := Buffer.ensureWritableBytes_spec h.wf len
  rw [h₁, Option.some.injEq] at h₃
  subst h₃
  have hfits := orThrow_fits h hwf
  rw [h₂, Option.some.injEq] at he
  rw [he] at hfits
  refine ⟨hfits, fun hreturned => ?_⟩
  unfold orThrow at he
  split at he
  · cases he
    exact h₁
  · cases he
    cases hreturned

/-! ## Every `len` -/

/-- What `ensureWritableBytes(len)` should do: throw and leave the buffer alone, or return with room
for `len` bytes, the same content and the indices in order. -/
def Safe (b : Buffer) (len : Nat) : Prop :=
  ensureWritableBytes b len = some (b, .lengthError) ∨
  ∃ b', ensureWritableBytes b len = some (b', .returned) ∧ len ≤ writableBytes b' ∧
    b'.readable = b.readable ∧ b'.WF

theorem safe_of_lt (h : Fits b) (hlen : b.writerIndex + len < sizeRange) : Safe b len := by
  obtain ⟨b₁, h₁, h₂⟩ := ensureWritableBytes_eq h hlen
  obtain ⟨b₂, h₃, hwf, hread, hroom⟩ := Buffer.ensureWritableBytes_spec h.wf len
  rw [h₁, Option.some.injEq] at h₃
  subst h₃
  unfold orThrow at h₂
  split at h₂
  · next hle =>
    refine Or.inr ⟨b₁, h₂, ?_, hread, hwf⟩
    rw [Fits.writableBytes_eq ⟨hwf, hle⟩]
    exact hroom
  · exact Or.inl h₂

/-- From `2 ^ 64 - kCheapPrepend` on, the comparison wraps: the data slides down, and no room is
made. -/
theorem not_safe_of_prepend_wraps (h : Fits b) (hlen : len < sizeRange)
    (hwrap : sizeRange ≤ len + kCheapPrepend) : ¬ Safe b len := by
  have hp := h.wf.prepend_le
  have hr := h.wf.reader_le
  have hw := h.wf.writer_le
  have hl := h.length
  have hwritable : b.writableBytes = b.buffer.length - b.writerIndex := rfl
  have hreadable : b.readableBytes = b.writerIndex - b.readerIndex := rfl
  have hprependable : b.prependableBytes = b.readerIndex := rfl
  obtain ⟨buffer, hcopy, hcl, -⟩ := Buffer.slide_spec h.wf
  unfold maxSize at hl
  unfold sizeRange kCheapPrepend at *
  have hneed : sizeAdd len 8 = len + 8 - 0x10000000000000000 := by
    unfold sizeAdd sizeRange
    omega
  have hfree : sizeAdd b.writableBytes b.prependableBytes = b.writableBytes + b.prependableBytes :=
    sizeAdd_eq (by unfold sizeRange; omega)
  have heq : ensureWritableBytes b len =
      some ({ buffer, readerIndex := 8, writerIndex := sizeAdd 8 b.readableBytes }, .returned) := by
    unfold ensureWritableBytes makeSpace kCheapPrepend
    rw [h.writableBytes_eq, h.readableBytes_eq, if_pos (by omega), hneed, hfree,
      if_neg (by omega)]
    simp only [hcopy, Option.bind_eq_bind, Option.bind_some]
  have hend : sizeAdd 8 b.readableBytes = 8 + b.readableBytes :=
    sizeAdd_eq (by unfold sizeRange; omega)
  rintro (hthrow | ⟨b', hret, hroom, -, -⟩)
  · rw [heq, Option.some.injEq, Prod.mk.injEq] at hthrow
    cases hthrow.2
  · rw [heq, Option.some.injEq, Prod.mk.injEq] at hret
    rw [← hret.1, hend] at hroom
    have hroom' : writableBytes ⟨buffer, 8, 8 + b.readableBytes⟩ =
        buffer.length - (8 + b.readableBytes) :=
      sizeSub_eq (show 8 + b.readableBytes ≤ buffer.length by omega)
        (show buffer.length < sizeRange by unfold sizeRange; omega)
    rw [hroom'] at hroom
    omega

/-- Below that, but with a sum that wraps, the resize cuts the vector below `writerIndex_`. -/
theorem not_safe_of_resize_wraps (h : Fits b) (hlen : len < sizeRange)
    (hprepend : len + kCheapPrepend < sizeRange) (hwrap : sizeRange ≤ b.writerIndex + len) :
    ¬ Safe b len := by
  have hr := h.wf.reader_le
  have hw := h.wf.writer_le
  have hl := h.length
  have hwritable : b.writableBytes = b.buffer.length - b.writerIndex := rfl
  have hprependable : b.prependableBytes = b.readerIndex := rfl
  unfold maxSize at hl
  unfold sizeRange at hlen hprepend hwrap
  have hsize : sizeAdd b.writerIndex len = b.writerIndex + len - 0x10000000000000000 := by
    unfold sizeAdd sizeRange
    omega
  have hneed : sizeAdd len kCheapPrepend = len + kCheapPrepend :=
    sizeAdd_eq (by unfold sizeRange; omega)
  have hfree : sizeAdd b.writableBytes b.prependableBytes = b.writableBytes + b.prependableBytes :=
    sizeAdd_eq (by unfold sizeRange; omega)
  have heq : ensureWritableBytes b len =
      some ({ b with buffer := Memory.resize b.buffer (sizeAdd b.writerIndex len) 0 },
        .returned) := by
    unfold ensureWritableBytes makeSpace resize maxSize
    rw [h.writableBytes_eq, if_pos (by omega), hneed, hfree, if_pos (by omega),
      if_neg (by omega)]
  rintro (hthrow | ⟨b', hret, -, -, hwf⟩)
  · rw [heq, Option.some.injEq, Prod.mk.injEq] at hthrow
    cases hthrow.2
  · rw [heq, Option.some.injEq, Prod.mk.injEq] at hret
    have hshort := hwf.writer_le
    rw [← hret.1] at hshort
    simp only [length_resize, hsize] at hshort
    omega

/-- **One call of `ensureWritableBytes`**, for every `size_t` and every position of the indices. -/
theorem safe_iff (h : Fits b) (hlen : len < sizeRange) :
    Safe b len ↔ b.writerIndex + len < sizeRange := by
  have hp := h.wf.prepend_le
  have hr := h.wf.reader_le
  constructor
  · intro hsafe
    by_contra hge
    by_cases hprepend : len + kCheapPrepend < sizeRange
    · exact not_safe_of_resize_wraps h hlen hprepend (Nat.not_lt.mp hge) hsafe
    · exact not_safe_of_prepend_wraps h hlen (Nat.not_lt.mp hprepend) hsafe
  · exact safe_of_lt h

/-! ## The other calls -/

theorem fits_new {initialSize : Nat} (hfits : kCheapPrepend + initialSize < sizeRange)
    (h : new initialSize = some b) : Fits b := by
  unfold new resize at h
  rw [sizeAdd_eq hfits] at h
  split at h
  · cases h
  · next hle =>
    simp only [Option.map_some, Option.some.injEq] at h
    subst h
    refine ⟨⟨Nat.le_refl _, Nat.le_refl _, ?_⟩, ?_⟩
    · simp only [length_resize]
      omega
    · simp only [length_resize]
      omega

/-- An `initialSize` that leaves no room makes a vector shorter than its indices. -/
theorem not_wf_new {initialSize : Nat} (hwraps : sizeRange ≤ kCheapPrepend + initialSize)
    (hsize : initialSize < sizeRange) (h : new initialSize = some b) : ¬ b.WF := by
  have hk : kCheapPrepend = 8 := rfl
  have hlength : sizeAdd kCheapPrepend initialSize < kCheapPrepend := by
    unfold sizeAdd sizeRange at *
    omega
  unfold new resize at h
  split at h
  · cases h
  · simp only [Option.map_some, Option.some.injEq] at h
    subst h
    intro hwf
    have hw := hwf.writer_le
    simp only [length_resize] at hw
    omega

/-- `append` keeps the buffer in its range, and if it returns it has done what `Buffer.append` does. -/
theorem append_fits {data : List UInt8} {e : Completion} (h : Fits b)
    (hlen : b.writerIndex + data.length < sizeRange) (ha : append b data = some (b', e)) :
    Fits b' ∧ (e = .returned → b.append data = some b') := by
  simp only [append, Option.bind_eq_bind, Option.bind_eq_some_iff] at ha
  obtain ⟨⟨b₁, e₁⟩, he, ha⟩ := ha
  obtain ⟨hfits, hreturned⟩ := ensureWritableBytes_fits h hlen he
  cases e₁ with
  | lengthError =>
    cases ha
    exact ⟨hfits, fun hc => by cases hc⟩
  | returned =>
    simp only [Option.bind_eq_some_iff, Option.some.injEq, Prod.mk.injEq] at ha
    obtain ⟨buffer, hs, rfl, -⟩ := ha
    have hl := hfits.length
    have hbound := store_bound hs
    unfold maxSize at hl
    rw [sizeAdd_eq (by unfold sizeRange; omega)]
    refine ⟨⟨(Buffer.store_spec hfits.wf hs).1, ?_⟩, fun _ => ?_⟩
    · show buffer.length ≤ maxSize
      rw [length_store hs]
      exact hfits.length
    · simp only [Buffer.append, hreturned rfl, hs, Option.bind_eq_bind, Option.bind_some]

theorem iov_sum_le (b : Buffer) : b.iov.sum ≤ b.writableBytes + Buffer.sizeofExtrabuf := by
  unfold Buffer.iov
  split
  · simp
  · simp

theorem readFd_fits {r : ReadvResult} {e : Completion} (h : Fits b)
    (hr : readFd b r = some (b', e)) :
    Fits b' ∧ (e = .returned → (b.readFd r).map Prod.fst = some b') := by
  cases r with
  | error errno =>
    simp only [readFd, Option.some.injEq, Prod.mk.injEq] at hr
    rw [← hr.1]
    exact ⟨h, fun _ => rfl⟩
  | data bs =>
    have hl := h.length
    have hw := h.wf.writer_le
    have hiov : iov b = b.iov := by
      unfold iov Buffer.iov
      rw [h.writableBytes_eq]
    unfold maxSize at hl
    simp only [readFd, hiov, Option.bind_eq_bind, Option.bind_eq_some_iff] at hr
    obtain ⟨vec, hvec, buffer, hs, hr⟩ := hr
    have hfit := length_le_of_scatter hvec
    obtain ⟨vec', hvec', hv0, hv1⟩ := Buffer.scatter_iov b bs hfit
    rw [hvec, Option.some.injEq] at hvec'
    subst hvec'
    rw [hv0] at hs
    obtain ⟨hwf, -⟩ := Buffer.store_spec h.wf hs
    have hlen := length_store hs
    have hbound := store_bound hs
    rw [h.writableBytes_eq] at hr
    simp only [Buffer.readFd, hvec, hv0, hs, Option.bind_eq_bind, Option.bind_some]
    split at hr
    · next hle =>
      rw [List.take_of_length_le hle] at hwf hbound
      simp only [Option.some.injEq, Prod.mk.injEq] at hr
      obtain ⟨rfl, -⟩ := hr
      rw [if_pos hle, sizeAdd_eq (by unfold sizeRange; omega)]
      exact ⟨⟨hwf, hlen ▸ h.length⟩, fun _ => rfl⟩
    · next hgt =>
      -- the vector is full, and `append` starts from there
      have hend : b.writerIndex + (bs.take b.writableBytes).length = buffer.length := by
        rw [hlen, List.length_take]
        unfold Buffer.writableBytes at hgt ⊢
        omega
      rw [hend] at hwf
      have hfull : Fits { b with buffer, writerIndex := buffer.length } :=
        ⟨hwf, hlen ▸ h.length⟩
      rw [hv1 (by omega)] at hr ⊢
      have hsum : buffer.length + (bs.drop b.writableBytes).length < sizeRange := by
        have hoffered := iov_sum_le b
        unfold sizeRange Buffer.sizeofExtrabuf at *
        rw [List.length_drop]
        omega
      obtain ⟨hfits, hreturned⟩ := append_fits hfull hsum hr
      refine ⟨hfits, fun he => ?_⟩
      rw [if_neg hgt, hreturned he]
      rfl

/-! ## Every run -/

/-- The condition on a call: `writerIndex_ + len` is a `size_t`.  The data of `append` is an array in
memory, so there it is no condition. -/
def WithinWidth (b : Buffer) : BufferCall → Prop
  | .append data => data.length ≤ maxSize
  | .ensureWritableBytes len => b.writerIndex + len < sizeRange
  | _ => True

instance decidableWithinWidth (b : Buffer) : ∀ c, Decidable (WithinWidth b c)
  | .append data => inferInstanceAs (Decidable (data.length ≤ maxSize))
  | .ensureWritableBytes len => inferInstanceAs (Decidable (b.writerIndex + len < sizeRange))
  | .retrieve _ | .retrieveAll | .retrieveAllAsString | .retrieveAsString _ | .readFd _ =>
    isTrue trivial

theorem retrieveAsString_fits (h : Fits b) (hr : retrieveAsString b len = some b') :
    Fits b' ∧ (b.retrieveAsString len).map Prod.fst = some b' := by
  simp only [retrieveAsString, Option.bind_eq_bind, Option.bind_eq_some_iff, Option.some.injEq] at hr
  obtain ⟨s, hs, rfl⟩ := hr
  rw [h.retrieve_eq]
  refine ⟨h.retrieve len, ?_⟩
  simp only [Buffer.retrieveAsString, hs, Option.bind_eq_bind, Option.bind_some, Option.map_some]

/-- **One call within the width** keeps the buffer in its range, and a call that returns has done
what the call on `Buffer` does. -/
theorem call_fits {c : BufferCall} {e : Completion} (h : Fits b) (hc : WithinWidth b c)
    (hcall : call b c = some (b', e)) :
    Fits b' ∧ (e = .returned → (b.call c).map Prod.fst = some b') := by
  cases c with
  | append data =>
    have hl := h.length
    have hw := h.wf.writer_le
    have hdata : data.length ≤ maxSize := hc
    have hsum : b.writerIndex + data.length < sizeRange := by
      unfold maxSize at *
      unfold sizeRange
      omega
    obtain ⟨hfits, hreturned⟩ := append_fits h hsum hcall
    refine ⟨hfits, fun he => ?_⟩
    simp only [Buffer.call, hreturned he, Option.map_some]
  | retrieve len =>
    simp only [call, h.retrieve_eq, Option.some.injEq, Prod.mk.injEq] at hcall
    rw [← hcall.1]
    exact ⟨h.retrieve len, fun _ => rfl⟩
  | retrieveAll =>
    simp only [call, Option.some.injEq, Prod.mk.injEq] at hcall
    rw [← hcall.1]
    exact ⟨⟨Buffer.wf_retrieveAll h.wf, h.length⟩, fun _ => rfl⟩
  | retrieveAllAsString =>
    obtain ⟨b₁, hr, heq⟩ := Option.map_eq_some_iff.mp hcall
    cases heq
    rw [h.readableBytes_eq] at hr
    obtain ⟨hfits, heq⟩ := retrieveAsString_fits h hr
    refine ⟨hfits, fun _ => ?_⟩
    rw [← heq]
    simp only [Buffer.call, Buffer.retrieveAllAsString, Option.map_map]
    rfl
  | retrieveAsString len =>
    obtain ⟨b₁, hr, heq⟩ := Option.map_eq_some_iff.mp hcall
    cases heq
    obtain ⟨hfits, heq⟩ := retrieveAsString_fits h hr
    refine ⟨hfits, fun _ => ?_⟩
    rw [← heq]
    simp only [Buffer.call, Option.map_map]
    rfl
  | ensureWritableBytes len =>
    obtain ⟨hfits, hreturned⟩ := ensureWritableBytes_fits h hc hcall
    refine ⟨hfits, fun he => ?_⟩
    simp only [Buffer.call, hreturned he, Option.map_some]
  | readFd r =>
    obtain ⟨hfits, hreturned⟩ := readFd_fits h hcall
    refine ⟨hfits, fun he => ?_⟩
    rw [← hreturned he]
    simp only [Buffer.call, Option.map_map]
    rfl

theorem fits_step (b : Buffer) (c : BufferCall) (b' : Buffer) (h : Fits b) (hc : WithinWidth b c)
    (hs : step b c = some b') : Fits b' := by
  obtain ⟨⟨b₁, e⟩, hcall, rfl⟩ := Option.map_eq_some_iff.mp hs
  exact (call_fits h hc hcall).1

/-- **Reserving space.**  Let a buffer be made with an `initialSize` that leaves room for
`kCheapPrepend`, and let every `ensureWritableBytes(n)` so far have been one with `writerIndex_ + n` a
`size_t`.  Then `ensureWritableBytes(len)` does what it should iff `writerIndex_ + len < 2 ^ 64`. -/
theorem ensureWritableBytes_safe_iff (initialSize : Nat) (b₀ b : Buffer)
    (hinitial : kCheapPrepend + initialSize < sizeRange) (hnew : new initialSize = some b₀)
    (calls : List BufferCall) (hcalls : AllSteps step WithinWidth b₀ calls)
    (hrun : run step b₀ calls = some b) (len : Nat) (hlen : len < sizeRange) :
    Safe b len ↔ b.writerIndex + len < sizeRange :=
  safe_iff (run_inv_of_allSteps fits_step (fits_new hinitial hnew) hcalls hrun) hlen

/-- Room for 2000 bytes behind 3 readable ones. -/
theorem ensureWritableBytes_safe_iff_run :
    ∃ b₀ b, new 16 = some b₀ ∧ run step b₀ [.append [1, 2, 3, 4], .retrieve 1] = some b ∧
      Safe b 2000 := by
  have hrun : ((new 16).bind fun b₀ =>
      run step b₀ [.append [1, 2, 3, 4], .retrieve 1]).map Buffer.writerIndex = some 12 := by decide
  obtain ⟨b, hb, hwriter⟩ := Option.map_eq_some_iff.mp hrun
  obtain ⟨b₀, h₀, hb⟩ := Option.bind_eq_some_iff.mp hb
  refine ⟨b₀, b, h₀, hb, ?_⟩
  rw [ensureWritableBytes_safe_iff 16 b₀ b (by decide) h₀ _ ?_ hb 2000 (by decide), hwriter]
  · decide
  · cases h₀
    decide

/-- **Two requests that are not met.**  With 4 bytes readable, `len = 2 ^ 64 - 12` cuts the vector to
length 0, below both indices; `len = 2 ^ 64 - 1` returns with room for 12 bytes. -/
theorem ensureWritableBytes_wraps :
    ∃ b₀ b b₁ b₂, new 16 = some b₀ ∧ run step b₀ [.append [1, 2, 3, 4]] = some b ∧
      ensureWritableBytes b (sizeRange - 12) = some (b₁, .returned) ∧
      b₁.buffer.length = 0 ∧ b₁.readerIndex = 8 ∧ b₁.writerIndex = 12 ∧
      ensureWritableBytes b (sizeRange - 1) = some (b₂, .returned) ∧ writableBytes b₂ = 12 ∧
      ¬ Safe b (sizeRange - 12) ∧ ¬ Safe b (sizeRange - 1) := by
  have h₀ : new 16 = some ⟨List.replicate 24 0, 8, 8⟩ := by decide
  have hrun : run step ⟨List.replicate 24 0, 8, 8⟩ [.append [1, 2, 3, 4]] =
      some ⟨List.replicate 8 0 ++ [1, 2, 3, 4] ++ List.replicate 12 0, 8, 12⟩ := by decide
  have hfits := run_inv_of_allSteps fits_step (fits_new (by decide) h₀) (by decide) hrun
  refine ⟨_, _, _, _, h₀, hrun, rfl, rfl, rfl, rfl, rfl, rfl, ?_, ?_⟩
  · rw [safe_iff hfits (by decide)]
    decide
  · rw [safe_iff hfits (by decide)]
    decide

end Buffer64
end Muduo
