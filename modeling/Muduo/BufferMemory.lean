import Muduo.BufferQueue

/-!
# The memory of a buffer

`makeSpace` resizes from `writerIndex` and does not reclaim the prefix already read, so how far the
vector grows depends on where the reader stands.  It resizes only when that prefix and the free
space together are too small (`r + writable < len + kCheapPrepend`), hence the prefix is no longer
than the data to be added, and the new vector is at most twice the content it then has:

    buffer.length  ≤  kCheapPrepend + max initialSize (2 * peak)           (buffer_memory_bounded)

throughout any run of the calls that add or take bytes, `peak` being the largest number of readable
bytes so far.  `ensureWritableBytes` on its own adds no bytes, and is not one of these calls.
-/

namespace Muduo

open Memory Transition

namespace Buffer

variable {b b' : Buffer} {data : List UInt8}

/-! ## The length of the vector -/

@[simp] theorem length_retrieve (b : Buffer) (len : Nat) :
    (b.retrieve len).buffer.length = b.buffer.length := by
  unfold retrieve retrieveAll
  split
  · rfl
  · rfl

/-- `makeSpace` keeps the vector, or makes it just long enough when the prefix is short. -/
theorem makeSpace_length (h : b.WF) {len : Nat} (hm : b.makeSpace len = some b') :
    b'.buffer.length = b.buffer.length ∨
      b'.buffer.length = b.writerIndex + len ∧ b.readerIndex < len + kCheapPrepend := by
  unfold makeSpace at hm
  split at hm
  · next hlt =>
    cases hm
    refine Or.inr ⟨length_resize _ _ _, ?_⟩
    unfold writableBytes prependableBytes at hlt
    omega
  · obtain ⟨buffer, hcopy, hlen, -⟩ := slide_spec h
    simp only [hcopy, Option.bind_eq_bind, Option.bind_some, Option.some.injEq] at hm
    subst hm
    exact Or.inl hlen

theorem ensureWritableBytes_length (h : b.WF) {len : Nat}
    (he : b.ensureWritableBytes len = some b') :
    b'.buffer.length = b.buffer.length ∨
      b'.buffer.length = b.writerIndex + len ∧ b.readerIndex < len + kCheapPrepend := by
  unfold ensureWritableBytes at he
  split at he
  · exact makeSpace_length h he
  · cases he
    exact Or.inl rfl

/-- **`append`** leaves the vector as long as it was, or at most twice as long as the content. -/
theorem append_length (h : b.WF) (ha : b.append data = some b') :
    b'.buffer.length ≤ max b.buffer.length (kCheapPrepend + 2 * b'.readableBytes) := by
  obtain ⟨b₂, h₂, hwf, hread⟩ := append_spec h data
  rw [ha, Option.some.injEq] at h₂
  subst h₂
  have hcontent : b'.readableBytes = b.readableBytes + data.length := by
    rw [← hwf.length_readable, ← h.length_readable, hread, List.length_append]
  have hr := h.reader_le
  simp only [append, Option.bind_eq_bind, Option.bind_eq_some_iff, Option.some.injEq] at ha
  obtain ⟨b₁, h₁, buffer, hs, rfl⟩ := ha
  have hlen : buffer.length = b₁.buffer.length := length_store hs
  rw [hcontent]
  show buffer.length ≤ _
  unfold readableBytes
  rcases ensureWritableBytes_length h h₁ with heq | ⟨heq, hprefix⟩
  · omega
  · omega

theorem readFd_length (h : b.WF) {r : ReadvResult} {n : Except Errno Nat}
    (hr : b.readFd r = some (b', n)) :
    b'.buffer.length ≤ max b.buffer.length (kCheapPrepend + 2 * b'.readableBytes) := by
  cases r with
  | error e =>
    simp only [readFd, Option.some.injEq, Prod.mk.injEq] at hr
    rw [← hr.1]
    exact Nat.le_max_left _ _
  | data bs =>
    obtain ⟨vec, hvec, hv0, -⟩ := scatter_iov b bs (fits_of_readFd hr)
    simp only [readFd, hvec, hv0, Option.bind_eq_bind, Option.bind_some,
      Option.bind_eq_some_iff] at hr
    obtain ⟨buffer, hs, hr⟩ := hr
    have hlen : buffer.length = b.buffer.length := length_store hs
    split at hr
    · simp only [Option.some.injEq, Prod.mk.injEq] at hr
      rw [← hr.1]
      show buffer.length ≤ _
      omega
    · next hgt =>
      -- the vector is full, and `append` starts from there
      obtain ⟨hwf, -⟩ := store_spec h hs
      have hend : b.writerIndex + (bs.take b.writableBytes).length = buffer.length := by
        have hw := h.writer_le
        rw [hlen, List.length_take]
        unfold writableBytes at hgt ⊢
        omega
      rw [hend] at hwf
      simp only [Option.bind_eq_some_iff, Option.some.injEq, Prod.mk.injEq] at hr
      obtain ⟨b₁, happ, rfl, -⟩ := hr
      have hbound := append_length hwf happ
      simp only [hlen] at hbound
      exact hbound

end Buffer

/-! ## Every run -/

/-- The call only reserves. -/
def BufferCall.reserves : BufferCall → Bool
  | .ensureWritableBytes _ => true
  | _ => false

/-- A buffer and the largest number of readable bytes so far. -/
def peakStep (s : Buffer × Nat) (c : BufferCall) : Option (Buffer × Nat) :=
  if c.reserves then none
  else (s.1.call c).map fun (b, _) => (b, max s.2 b.readableBytes)

/-- The invariant of a buffer created with `initialSize`. -/
structure MemoryBounded (initialSize : Nat) (s : Buffer × Nat) : Prop where
  wf : s.1.WF
  peak : s.1.readableBytes ≤ s.2
  length : s.1.buffer.length ≤ kCheapPrepend + max initialSize (2 * s.2)

/-- **One call**: the vector grows to twice the content at most. -/
theorem Buffer.call_length {b b' : Buffer} {c : BufferCall} {r : BufferReturn} (h : b.WF)
    (hc : c.reserves = false) (hcall : b.call c = some (b', r)) :
    b'.buffer.length ≤ max b.buffer.length (kCheapPrepend + 2 * b'.readableBytes) := by
  cases c with
  | append data =>
    obtain ⟨b₁, happ, hr⟩ := Option.map_eq_some_iff.mp hcall
    cases hr
    exact append_length h happ
  | retrieve len =>
    cases hcall
    rw [length_retrieve]
    exact Nat.le_max_left _ _
  | retrieveAll =>
    cases hcall
    exact Nat.le_max_left _ _
  | retrieveAllAsString | retrieveAsString len =>
    simp only [call, retrieveAllAsString, retrieveAsString, Option.bind_eq_bind,
      Option.map_eq_some_iff, Option.bind_eq_some_iff] at hcall
    obtain ⟨_, ⟨s, -, hs⟩, hr⟩ := hcall
    cases hs
    cases hr
    rw [length_retrieve]
    exact Nat.le_max_left _ _
  | ensureWritableBytes len => cases hc
  | readFd r' =>
    obtain ⟨⟨b₁, n⟩, hread, hr⟩ := Option.map_eq_some_iff.mp hcall
    cases hr
    exact readFd_length h hread

theorem memoryBounded_new (initialSize : Nat) :
    MemoryBounded initialSize (Buffer.new initialSize, 0) where
  wf := Buffer.wf_new initialSize
  peak := Nat.le_of_eq (Nat.sub_self _)
  length := by
    show (List.replicate _ _).length ≤ _
    rw [List.length_replicate]
    omega

theorem memoryBounded_step (initialSize : Nat) (s : Buffer × Nat) (c : BufferCall)
    (s' : Buffer × Nat) (h : MemoryBounded initialSize s) (hs : peakStep s c = some s') :
    MemoryBounded initialSize s' := by
  unfold peakStep at hs
  split at hs
  · cases hs
  · next hc =>
    obtain ⟨⟨b, r⟩, hcall, rfl⟩ := Option.map_eq_some_iff.mp hs
    have hwf := Buffer.call_wf h.wf hcall
    have hlen := Buffer.call_length h.wf (by simpa using hc) hcall
    have hlength := h.length
    have hpeak := Nat.le_max_right s.2 b.readableBytes
    have hgrows := Nat.le_max_left s.2 b.readableBytes
    refine ⟨hwf, hpeak, ?_⟩
    show b.buffer.length ≤ kCheapPrepend + max initialSize (2 * max s.2 b.readableBytes)
    generalize max s.2 b.readableBytes = peak at *
    omega

/-- **Memory is bounded by the peak content.**  However long the run and however reads and writes
alternate, the vector holds at most `kCheapPrepend + max(initialSize, 2 * peak)` bytes. -/
theorem buffer_memory_bounded (initialSize : Nat) (calls : List BufferCall) :
    Along peakStep (fun s => s.1.buffer.length ≤ kCheapPrepend + max initialSize (2 * s.2))
      (Buffer.new initialSize, 0) calls :=
  along_inv (fun _ h => h.length) (memoryBounded_step initialSize) (memoryBounded_new initialSize)

/-- The run is not cut short: an admissible call that reserves nothing is always carried out. -/
theorem peakStep_isSome {s : Buffer × Nat} (h : s.1.WF) {c : BufferCall} (hc : c.reserves = false)
    (hadm : s.1.Admissible c) : (peakStep s c).isSome := by
  obtain ⟨b', hcall, -⟩ := Buffer.call_spec h c hadm
  unfold peakStep
  rw [hc, hcall]
  rfl

/-- Reads and writes that alternate over a prefix do not make the vector grow: 4 bytes at most are
readable, and the vector keeps its 12. -/
example : (run peakStep (Buffer.new 4, 0) [.append [1, 2, 3], .retrieve 2, .append [4, 5, 6],
    .retrieve 3, .append [7, 8, 9], .retrieve 3, .append [1, 2, 3]]).map
      (fun s => (s.1.buffer.length, s.2)) = some (12, 4) := by decide +kernel

end Muduo
