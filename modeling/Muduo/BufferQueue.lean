import Muduo.Buffer
import Muduo.Lib.Transition

/-!
# Buffer refines a byte queue

A session is a buffer with the values its calls have returned so far.  Beside it runs an abstract
queue, a plain list of bytes: `append` and `readFd` add at the end, `retrieve` drops from the
front, `ensureWritableBytes` does nothing.

    every admissible call is carried out inside the vector and returns what the queue returns
                                                                     (buffer_refines_queue)

`ValidBuffer` packages a buffer with its `WF`; the modules above the buffer use only its
`toQueue` and the lemmas on it.
-/

namespace Muduo

open Memory Transition

/-! ## Calls -/

inductive BufferCall
  | append (data : List UInt8)
  | retrieve (len : Nat)
  | retrieveAll
  | retrieveAllAsString
  | retrieveAsString (len : Nat)
  | ensureWritableBytes (len : Nat)
  | readFd (r : ReadvResult)
deriving DecidableEq, Repr

inductive BufferReturn
  | nothing
  | string (bs : List UInt8)
  | ssize (n : Except Errno Nat)

namespace Buffer

def call (b : Buffer) : BufferCall → Option (Buffer × BufferReturn)
  | .append data => (b.append data).map fun b => (b, .nothing)
  | .retrieve len => some (b.retrieve len, .nothing)
  | .retrieveAll => some (b.retrieveAll, .nothing)
  | .retrieveAllAsString => b.retrieveAllAsString.map fun (b, s) => (b, .string s)
  | .retrieveAsString len => (b.retrieveAsString len).map fun (b, s) => (b, .string s)
  | .ensureWritableBytes len => (b.ensureWritableBytes len).map fun b => (b, .nothing)
  | .readFd r => (b.readFd r).map fun (b, n) => (b, .ssize n)

/-- What a caller owes: `retrieveAsString` asks for readable bytes only, and `::readv` delivers
at most what it was offered. -/
def Admissible (b : Buffer) : BufferCall → Prop
  | .retrieveAsString len => len ≤ b.readableBytes
  | .readFd (.data bs) => bs.length ≤ b.iov.sum
  | _ => True

instance (b : Buffer) : ∀ c, Decidable (b.Admissible c)
  | .retrieveAsString len => inferInstanceAs (Decidable (len ≤ b.readableBytes))
  | .readFd (.data bs) => inferInstanceAs (Decidable (bs.length ≤ b.iov.sum))
  | .append _ | .retrieve _ | .retrieveAll | .retrieveAllAsString | .ensureWritableBytes _
  | .readFd (.error _) => isTrue trivial

end Buffer

/-- The abstract queue. -/
def queueCall (q : List UInt8) : BufferCall → List UInt8 × BufferReturn
  | .append data => (q ++ data, .nothing)
  | .retrieve len => (q.drop (min len q.length), .nothing)
  | .retrieveAll => ([], .nothing)
  | .retrieveAllAsString => ([], .string q)
  | .retrieveAsString len => (q.drop len, .string (q.take len))
  | .ensureWritableBytes _ => (q, .nothing)
  | .readFd (.data bs) => (q ++ bs, .ssize (.ok bs.length))
  | .readFd (.error e) => (q, .ssize (.error e))

/-- **One call.**  From a well-formed buffer an admissible call is carried out inside the vector,
keeps the buffer well-formed, and does to the readable bytes what the queue does. -/
theorem Buffer.call_spec {b : Buffer} (h : b.WF) (c : BufferCall) (hc : b.Admissible c) :
    ∃ b', b.call c = some (b', (queueCall b.readable c).2) ∧ b'.WF ∧
      b'.readable = (queueCall b.readable c).1 := by
  cases c with
  | append data =>
    obtain ⟨b', h₁, hwf, hread⟩ := append_spec h data
    exact ⟨b', by simp only [call, h₁, Option.map_some, queueCall], hwf, hread⟩
  | retrieve len =>
    obtain ⟨hwf, hread⟩ := retrieve_spec h len
    refine ⟨_, rfl, hwf, ?_⟩
    rw [hread]
    simp only [queueCall]
    rcases Nat.le_total len b.readable.length with hl | hl
    · rw [Nat.min_eq_left hl]
    · rw [Nat.min_eq_right hl, List.drop_length, List.drop_of_length_le hl]
  | retrieveAll => exact ⟨_, rfl, wf_retrieveAll h, readable_retrieveAll b⟩
  | retrieveAllAsString =>
    obtain ⟨hwf, hread⟩ := retrieve_spec h b.readableBytes
    have hs := retrieveAsString_spec h b.readableBytes (Nat.le_refl _)
    rw [← h.length_readable] at hs hwf hread
    refine ⟨b.retrieve b.readable.length, ?_, hwf, by rw [hread, List.drop_length]; rfl⟩
    simp only [call, retrieveAllAsString, ← h.length_readable, hs, Option.map_some, queueCall,
      List.take_length]
  | retrieveAsString len =>
    obtain ⟨hwf, hread⟩ := retrieve_spec h len
    refine ⟨b.retrieve len, ?_, hwf, hread⟩
    simp only [call, retrieveAsString_spec h len hc, Option.map_some, queueCall]
  | ensureWritableBytes len =>
    obtain ⟨b', h₁, hwf, hread, -⟩ := ensureWritableBytes_spec h len
    exact ⟨b', by simp only [call, h₁, Option.map_some, queueCall], hwf, hread⟩
  | readFd r =>
    cases r with
    | data bs =>
      obtain ⟨b', h₁, hwf, hread⟩ := readFd_spec h bs hc
      exact ⟨b', by simp only [call, h₁, Option.map_some, queueCall], hwf, hread⟩
    | error e => exact ⟨b, rfl, h, rfl⟩

/-! ## Sessions -/

/-- A buffer and the values returned so far. -/
def bufferStep (s : Buffer × List BufferReturn) (c : BufferCall) :
    Option (Buffer × List BufferReturn) :=
  (s.1.call c).map fun (b, r) => (b, s.2 ++ [r])

/-- The queue and the values returned so far. -/
def queueStep (s : List UInt8 × List BufferReturn) (c : BufferCall) :
    Option (List UInt8 × List BufferReturn) :=
  some ((queueCall s.1 c).1, s.2 ++ [(queueCall s.1 c).2])

/-- The simulation relation. -/
def Represents (s : Buffer × List BufferReturn) (q : List UInt8 × List BufferReturn) : Prop :=
  s.1.WF ∧ s.1.readable = q.1 ∧ s.2 = q.2

theorem bufferStep_simulates (s : Buffer × List BufferReturn) (q : List UInt8 × List BufferReturn)
    (c : BufferCall) (hr : Represents s q) (hc : s.1.Admissible c) :
    ∃ s' q', bufferStep s c = some s' ∧ queueStep q c = some q' ∧ Represents s' q' := by
  obtain ⟨hwf, hread, hret⟩ := hr
  obtain ⟨b', h₁, hwf', hread'⟩ := Buffer.call_spec hwf c hc
  rw [hread] at h₁ hread'
  refine ⟨_, _, by rw [bufferStep, h₁]; rfl, rfl, hwf', hread', ?_⟩
  simp only [hret]

/-- **Buffer refines a byte queue.**  Any sequence of admissible calls on a fresh buffer runs to
its end without touching an index outside the vector; the indices stay in order, the readable
bytes and all returned values are the queue's, and `ensureWritableBytes` makes the room asked
for without changing the content. -/
theorem buffer_refines_queue (initialSize : Nat) (calls : List BufferCall)
    (h : AllSteps bufferStep (fun s c => s.1.Admissible c) (Buffer.new initialSize, []) calls) :
    ∃ b returned,
      run bufferStep (Buffer.new initialSize, []) calls = some (b, returned) ∧
      run queueStep ([], []) calls = some (b.readable, returned) ∧
      kCheapPrepend ≤ b.readerIndex ∧ b.readerIndex ≤ b.writerIndex ∧
      b.writerIndex ≤ b.buffer.length ∧
      ∀ len, ∃ b', b.ensureWritableBytes len = some b' ∧ b'.readable = b.readable ∧
        len ≤ b'.writableBytes := by
  have hinit : Represents (Buffer.new initialSize, []) ([], []) :=
    ⟨Buffer.wf_new _, Buffer.readable_new _, rfl⟩
  obtain ⟨⟨b, returned⟩, ⟨q, returned'⟩, hrun, hqueue, hwf, hread, hret⟩ :=
    run_simulates bufferStep_simulates hinit h
  simp only at hwf hread hret
  subst hread hret
  refine ⟨b, returned, hrun, hqueue, hwf.prepend_le, hwf.reader_le, hwf.writer_le, fun len => ?_⟩
  obtain ⟨b', h₁, -, hread, hroom⟩ := Buffer.ensureWritableBytes_spec hwf len
  exact ⟨b', h₁, hread, hroom⟩

/-- A session that slides the data down, grows the vector and splits a read over `extrabuf`. -/
theorem buffer_refines_queue_session :
    ∃ b returned,
      run bufferStep (Buffer.new 4, []) [.append [1, 2, 3, 4], .retrieve 3, .append [5, 6],
        .readFd (.data [7, 8, 9]), .retrieveAsString 2] = some (b, returned) ∧
      b.readable = [6, 7, 8, 9] := by
  obtain ⟨b, returned, hrun, hqueue, -⟩ := buffer_refines_queue 4
    [.append [1, 2, 3, 4], .retrieve 3, .append [5, 6], .readFd (.data [7, 8, 9]),
      .retrieveAsString 2] (by decide)
  refine ⟨b, returned, hrun, ?_⟩
  have := Option.some.inj hqueue
  exact (congrArg Prod.fst this).symm

/-! ## Valid buffers -/

/-- A well-formed buffer. -/
def ValidBuffer : Type := { b : Buffer // b.WF }

namespace ValidBuffer

/-- The bytes it holds. -/
def toQueue (b : ValidBuffer) : List UInt8 := b.1.readable

def readableBytes (b : ValidBuffer) : Nat := b.1.readableBytes

def new (initialSize : Nat) : ValidBuffer := ⟨Buffer.new initialSize, Buffer.wf_new initialSize⟩

def retrieve (b : ValidBuffer) (len : Nat) : ValidBuffer :=
  ⟨b.1.retrieve len, (Buffer.retrieve_spec b.2 len).1⟩

theorem append_isSome (b : ValidBuffer) (data : List UInt8) : (b.1.append data).isSome := by
  obtain ⟨b', h, -⟩ := Buffer.append_spec b.2 data
  rw [h]
  rfl

theorem append_get_spec (b : ValidBuffer) (data : List UInt8) :
    ((b.1.append data).get (b.append_isSome data)).WF ∧
      ((b.1.append data).get (b.append_isSome data)).readable = b.toQueue ++ data := by
  obtain ⟨b', h, hwf, hread⟩ := Buffer.append_spec b.2 data
  simp only [h, Option.get_some]
  exact ⟨hwf, hread⟩

def append (b : ValidBuffer) (data : List UInt8) : ValidBuffer :=
  ⟨(b.1.append data).get (b.append_isSome data), (b.append_get_spec data).1⟩

theorem readFd_wf {b b' : Buffer} {r : ReadvResult} {n : Except Errno Nat} (h : b.WF)
    (hr : b.readFd r = some (b', n)) : b'.WF := by
  cases r with
  | error e =>
    simp only [Buffer.readFd, Option.some.injEq, Prod.mk.injEq] at hr
    exact hr.1 ▸ h
  | data bs =>
    obtain ⟨b₁, h₁, hwf, -⟩ := Buffer.readFd_spec h bs (Buffer.fits_of_readFd hr)
    rw [hr, Option.some.injEq, Prod.mk.injEq] at h₁
    exact h₁.1 ▸ hwf

/-- `none` only for more bytes than `::readv` was offered room for. -/
def readFd (b : ValidBuffer) (r : ReadvResult) : Option (ValidBuffer × Except Errno Nat) :=
  match h : b.1.readFd r with
  | none => none
  | some (b', n) => some (⟨b', readFd_wf b.2 h⟩, n)

/-- `readFd` returns what `::readv` returned and keeps the bytes it delivered. -/
theorem readFd_spec {b b' : ValidBuffer} {r : ReadvResult} {n : Except Errno Nat}
    (h : b.readFd r = some (b', n)) : n = r.ssize ∧ b'.toQueue = b.toQueue ++ r.bytes := by
  unfold readFd at h
  split at h
  · cases h
  · next b₁ n₁ heq =>
    cases h
    cases r with
    | error e =>
      simp only [Buffer.readFd, Option.some.injEq, Prod.mk.injEq] at heq
      obtain ⟨rfl, rfl⟩ := heq
      exact ⟨rfl, (List.append_nil _).symm⟩
    | data bs =>
      obtain ⟨b₂, h₂, -, hread⟩ := Buffer.readFd_spec b.2 bs (Buffer.fits_of_readFd heq)
      rw [heq, Option.some.injEq, Prod.mk.injEq] at h₂
      obtain ⟨rfl, rfl⟩ := h₂
      exact ⟨rfl, hread⟩

theorem length_toQueue (b : ValidBuffer) : b.toQueue.length = b.readableBytes :=
  b.2.length_readable

@[simp] theorem toQueue_new (initialSize : Nat) : (new initialSize).toQueue = [] :=
  Buffer.readable_new initialSize

@[simp] theorem toQueue_retrieve (b : ValidBuffer) (len : Nat) :
    (b.retrieve len).toQueue = b.toQueue.drop len :=
  (Buffer.retrieve_spec b.2 len).2

@[simp] theorem toQueue_append (b : ValidBuffer) (data : List UInt8) :
    (b.append data).toQueue = b.toQueue ++ data :=
  (b.append_get_spec data).2

theorem readableBytes_eq_zero (b : ValidBuffer) : b.readableBytes = 0 ↔ b.toQueue = [] := by
  rw [← b.length_toQueue, List.length_eq_zero_iff]

end ValidBuffer

/-- Every call that is carried out keeps the indices in order, admissible or not. -/
theorem Buffer.call_wf {b b' : Buffer} {c : BufferCall} {r : BufferReturn} (h : b.WF)
    (hcall : b.call c = some (b', r)) : b'.WF := by
  cases c with
  | append data =>
    obtain ⟨b₁, happ, hr⟩ := Option.map_eq_some_iff.mp hcall
    cases hr
    obtain ⟨b₂, h₂, hwf, -⟩ := append_spec h data
    rw [happ, Option.some.injEq] at h₂
    exact h₂ ▸ hwf
  | retrieve len =>
    cases hcall
    exact (retrieve_spec h len).1
  | retrieveAll =>
    cases hcall
    exact wf_retrieveAll h
  | retrieveAllAsString | retrieveAsString len =>
    simp only [call, retrieveAllAsString, retrieveAsString, Option.bind_eq_bind,
      Option.map_eq_some_iff, Option.bind_eq_some_iff] at hcall
    obtain ⟨_, ⟨s, -, hs⟩, hr⟩ := hcall
    cases hs
    cases hr
    exact (retrieve_spec h _).1
  | ensureWritableBytes len =>
    obtain ⟨b₁, hens, hr⟩ := Option.map_eq_some_iff.mp hcall
    cases hr
    obtain ⟨b₂, h₂, hwf, -⟩ := ensureWritableBytes_spec h len
    rw [hens, Option.some.injEq] at h₂
    exact h₂ ▸ hwf
  | readFd r' =>
    obtain ⟨⟨b₁, n⟩, hread, hr⟩ := Option.map_eq_some_iff.mp hcall
    cases hr
    exact ValidBuffer.readFd_wf h hread

end Muduo
