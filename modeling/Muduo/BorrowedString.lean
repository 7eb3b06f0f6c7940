import Muduo.ConnectionLoop
import Muduo.OutputStream

/-!
# The string passed to `send`

`ConnectionLoop` with the memory of the program.  On another thread `send(buf)` binds
`buf.c_str()` and `buf.size()`, not the bytes: the functor reads them when the loop calls it, at the
address it holds, wherever the string is by then.

* `strings t`: where the characters of the string of the thread `t` are, and how many, or `none` when the
  string has been destroyed.
* `memory`: what a read of an address finds, whether a string is still there or not.
* The caller of a functor is a thread with the address that it has bound.
* `Faithful`: the functor does what `sendInLoop` does with the bytes of the call.  On the loop thread
  `send` hands its own argument to `sendInLoop`, so nothing can come between.

    the functors are faithful in a run  ⇔  each finds its bytes at the address it holds, or drops
                                             what it finds
                                                                            (send_faithful_iff)
-/

namespace Muduo

open Transition

/-- The `len` bytes from the address `ptr` on. -/
def fetch (memory : Nat → UInt8) (ptr len : Nat) : List UInt8 :=
  (List.range len).map fun i => memory (ptr + i)

/-! ## The state -/

structure BorrowedString (T : Type*) where
  base : ConnectionLoop (T × Nat)
  memory : Nat → UInt8
  /-- `c_str()` and `size()` of the string of a thread -/
  strings : T → Option (Nat × Nat)

inductive SendAction (T : Type*)
  /-- a step that neither passes nor reads a string of another thread -/
  | base (a : ConnectionAction (T × Nat))
  /-- the test of `send` on another thread, with the string of the thread -/
  | send (t : T)
  | callFunctor (w : WriteResult)
  /-- the thread changes its string: it overwrites the characters, or lets the string grow, which may
  take it to another place, or destroys it; and what was its memory may be used for something else -/
  | assign (t : T) (string : Option (Nat × Nat)) (memory : Nat → UInt8)

namespace BorrowedString

variable {T : Type*} [DecidableEq T]

/-- The steps of `ConnectionLoop` that this system takes apart. -/
def replaced : ConnectionAction T → Bool
  | .test _ (.send _) | .callFunctor _ => true
  | _ => false

/-- The functor that the loop calls next, when it is `sendInLoop` from another thread: the address it
holds, and the bytes that `send` was called with. -/
def borrowed (base : ConnectionLoop (T × Nat)) : Option ((T × Nat) × List UInt8) :=
  match base.loop.functors.head? with
  | some ⟨some caller, some (.sendInLoop data)⟩ => some (caller, data)
  | _ => none

def step (s : BorrowedString T) : SendAction T → Option (BorrowedString T)
  | .base a => if replaced a then none else (s.base.step a).map fun base => { s with base }
  | .send t =>
    (s.strings t).bind fun (ptr, size) =>
      (s.base.step (.test (t, ptr) (.send (fetch s.memory ptr size)))).map fun base => { s with base }
  | .callFunctor w =>
    match borrowed s.base with
    | some ((t, ptr), data) =>
      (s.base.loop.step .callFunctor).bind fun loop =>
        ((ConnectionLoop.record { s.base with loop } [.ran (some (t, ptr)) (.sendInLoop data)]).perform
          (s.base.conn.sendInLoop (fetch s.memory ptr data.length) w)).map fun base => { s with base }
    | none => (s.base.step (.callFunctor w)).map fun base => { s with base }
  -- the thread does not change the string before `send` has returned
  | .assign t string memory =>
    if (s.strings t).all fun (ptr, _) =>
        s.base.calls (t, ptr) == .idle && s.base.loop.caller (t, ptr) == .idle then
      some { s with memory, strings := Function.update s.strings t string }
    else none

/-! ## The property -/

/-- The functor does what `sendInLoop` does with the bytes of the call. -/
def Faithful (s : BorrowedString T) (a : SendAction T) : Prop :=
  ∀ s', s.step a = some s' → ∀ w, a = .callFunctor w →
    s.base.step (.callFunctor w) = some s'.base

/-- The functor finds the bytes of the call at the address it holds, or drops what it finds: the
connection is disconnected, or it gives the message up behind a failed direct `::write`. -/
def Intact (s : BorrowedString T) : SendAction T → Prop
  | .callFunctor w => ∀ t ptr data, borrowed s.base = some ((t, ptr), data) →
    s.base.conn.stat = .kDisconnected ∨ s.base.conn.directFailure w = true ∨
      fetch s.memory ptr data.length = data
  | _ => True

/-! ## One functor -/

section
omit [DecidableEq T]

/-- A message that is given up behind a failed direct `::write` is lost, whatever its bytes are. -/
theorem sendInLoop_of_directFailure {c : TcpConnection} {data : List UInt8} {w : WriteResult}
    (hc : c.stat ≠ .kDisconnected) (hf : c.directFailure w = true) :
    c.sendInLoop data w = some (c, []) := by
  obtain ⟨-, hfault, heffects⟩ := c.directWrite_spec data w
  rw [TcpConnection.sendInLoop, if_neg hc]
  simp only [hfault, hf, Bool.not_true, Bool.false_and, Bool.false_eq_true, if_false, heffects hf]

/-- **`sendInLoop` with other bytes** has the same result iff they are the same bytes, or it drops
them. -/
theorem sendInLoop_eq_iff {c c' : TcpConnection} {bytes : List UInt8} {w : WriteResult}
    {es : List Effect} (data : List UInt8) (h : c.sendInLoop bytes w = some (c', es)) :
    c.sendInLoop data w = some (c', es) ↔
      c.stat = .kDisconnected ∨ c.directFailure w = true ∨ bytes = data := by
  by_cases hc : c.stat = .kDisconnected
  · rw [TcpConnection.sendInLoop, if_pos hc] at h ⊢
    simp [hc, h]
  by_cases hf : c.directFailure w = true
  · rw [sendInLoop_of_directFailure hc hf] at h ⊢
    simp [hf, h]
  constructor
  · intro h'
    have hbytes := (TcpConnection.sendInLoop_stream hc h).1
    have hdata := (TcpConnection.sendInLoop_stream hc h').1
    rw [if_neg hf] at hbytes hdata
    exact Or.inr (Or.inr (List.append_cancel_left (hbytes.symm.trans hdata)))
  · rintro (hc' | hf' | rfl)
    · exact absurd hc' hc
    · exact absurd hf' hf
    · exact h

end

theorem perform_inj {T : Type*} [DecidableEq T] {base b : ConnectionLoop T} {c c' : TcpConnection} {es es' : List Effect}
    (h : base.perform (some (c, es)) = some b) (h' : base.perform (some (c', es')) = some b) :
    c = c' ∧ es = es' := by
  obtain ⟨conn, fs, hr, rfl⟩ := ConnectionLoop.perform_eq_some h
  obtain ⟨rfl, rfl⟩ := Prod.mk.inj (Option.some.inj hr)
  obtain ⟨conn, fs, hr', hb⟩ := ConnectionLoop.perform_eq_some h'
  obtain ⟨rfl, rfl⟩ := Prod.mk.inj (Option.some.inj hr')
  simp only [ConnectionLoop.mk.injEq, List.append_cancel_left_eq] at hb
  refine ⟨hb.2.1, ?_⟩
  exact List.map_injective_iff.mpr (fun e e' he => (HistoryEntry.did.injEq e e').mp he) hb.2.2.2.2.2.2

/-- What the functor would do with the bytes of the call. -/
theorem callFunctor_eq {base : ConnectionLoop (T × Nat)} {caller : T × Nat} {data : List UInt8}
    {w : WriteResult} (h : borrowed base = some (caller, data)) : base.step (.callFunctor w) =
      (base.loop.step .callFunctor).bind fun loop =>
        (ConnectionLoop.record { base with loop } [.ran (some caller) (.sendInLoop data)]).perform
          (base.conn.sendInLoop data w) := by
  unfold borrowed at h
  split at h
  · next caller' data' hhead =>
    obtain ⟨rfl, rfl⟩ := Prod.mk.inj (Option.some.inj h)
    obtain ⟨rest, hrest⟩ :
        ∃ rest, base.loop.functors = ⟨some caller', some (.sendInLoop data')⟩ :: rest := by
      cases hfunctors : base.loop.functors with
      | nil => simp [hfunctors] at hhead
      | cons task rest =>
        rw [hfunctors, List.head?_cons, Option.some.injEq] at hhead
        exact ⟨rest, by rw [hhead]⟩
    simp only [ConnectionLoop.step, hrest]
    rfl
  · cases h

/-- **One functor** is faithful iff it finds its bytes, or drops them. -/
theorem faithful_iff_intact (s : BorrowedString T) (a : SendAction T) (s' : BorrowedString T)
    (_ : True) (hstep : s.step a = some s') : Faithful s a ↔ Intact s a := by
  have hdet : ∀ s'', s.step a = some s'' → s'' = s' := fun s'' h' =>
    Option.some.inj (h'.symm.trans hstep)
  cases a with
  | base | send | assign =>
    refine ⟨fun _ => trivial, fun _ s'' _ w ha => ?_⟩
    cases ha
  | callFunctor w =>
    have hfaithful : Faithful s (.callFunctor w) ↔
        s.base.step (.callFunctor w) = some s'.base := by
      constructor
      · intro h
        exact h s' hstep w rfl
      · intro h s'' h' w' ha
        cases ha
        rw [hdet s'' h']
        exact h
    rw [hfaithful]
    simp only [step] at hstep
    split at hstep
    · next t ptr data hborrowed =>
      simp only [Option.bind_eq_some_iff, Option.map_eq_some_iff] at hstep
      obtain ⟨loop, hloop, base, hperform, rfl⟩ := hstep
      obtain ⟨c, es, hsend, -⟩ := ConnectionLoop.perform_eq_some hperform
      rw [hsend] at hperform
      have hiff := sendInLoop_eq_iff data hsend
      have hintact : Intact s (.callFunctor w) ↔ s.base.conn.stat = .kDisconnected ∨
          s.base.conn.directFailure w = true ∨ fetch s.memory ptr data.length = data := by
        constructor
        · intro h
          exact h t ptr data hborrowed
        · intro h t' ptr' data' h'
          obtain ⟨hcaller, rfl⟩ := Prod.mk.inj (Option.some.inj (hborrowed.symm.trans h'))
          obtain ⟨rfl, rfl⟩ := Prod.mk.inj hcaller
          exact h
      rw [hintact, ← hiff, callFunctor_eq hborrowed, hloop, Option.bind_some]
      constructor
      · intro h
        obtain ⟨c', es', hsend', -⟩ := ConnectionLoop.perform_eq_some h
        rw [hsend'] at h
        obtain ⟨rfl, rfl⟩ := perform_inj hperform h
        exact hsend'
      · intro h
        rw [h]
        exact hperform
    · next hnone =>
      obtain ⟨base, hbase, rfl⟩ := Option.map_eq_some_iff.mp hstep
      refine ⟨fun _ t ptr data h => ?_, fun _ => hbase⟩
      rw [hnone] at h
      cases h

/-! ## Runs -/

/-- The bytes that a faithful functor writes or keeps are the bytes of the call. -/
theorem Faithful.stream {s s' : BorrowedString T} {w : WriteResult} (h : Faithful s (.callFunctor w))
    (hstep : s.step (.callFunctor w) = some s') {caller : T × Nat} {data : List UInt8}
    (hborrowed : borrowed s.base = some (caller, data))
    (hc : s.base.conn.stat ≠ .kDisconnected) (hf : s.base.conn.directFailure w = false) :
    ∃ es, s'.base.history = s.base.history ++ [.ran (some caller) (.sendInLoop data)] ++ es.map .did ∧
      acceptedBytes es ++ s'.base.conn.outputBuffer.toQueue =
        s.base.conn.outputBuffer.toQueue ++ data := by
  have hbase := h s' hstep w rfl
  rw [callFunctor_eq hborrowed] at hbase
  obtain ⟨loop, -, hperform⟩ := Option.bind_eq_some_iff.mp hbase
  obtain ⟨c, es, hsend, hs'⟩ := ConnectionLoop.perform_eq_some hperform
  have hstream := (TcpConnection.sendInLoop_stream hc hsend).1
  rw [hf, if_neg (by simp)] at hstream
  exact ⟨es, by rw [hs']; rfl, by rw [hs']; exact hstream⟩

/-- The steps of `ConnectionLoop` that a step stands for. -/
def project (s : BorrowedString T) : SendAction T → List (ConnectionAction (T × Nat))
  | .base a => [a]
  | .send t =>
    ((s.strings t).map fun (ptr, size) => .test (t, ptr) (.send (fetch s.memory ptr size))).toList
  | .callFunctor w => [.callFunctor w]
  | .assign _ _ _ => []

/-- A faithful step is a step of `ConnectionLoop`, where functors hold their bytes. -/
theorem step_refines {s s' : BorrowedString T} {a : SendAction T} (hf : Faithful s a)
    (h : s.step a = some s') : run ConnectionLoop.step s.base (s.project a) = some s'.base := by
  cases a with
  | base a =>
    simp only [step, Option.ite_none_left_eq_some, Option.map_eq_some_iff] at h
    obtain ⟨-, base, hbase, rfl⟩ := h
    exact run_cons_eq_some.mpr ⟨base, hbase, rfl⟩
  | send t =>
    simp only [step, Option.bind_eq_some_iff, Option.map_eq_some_iff] at h
    obtain ⟨⟨ptr, size⟩, hstring, base, hbase, rfl⟩ := h
    rw [project, hstring]
    exact run_cons_eq_some.mpr ⟨base, hbase, rfl⟩
  | callFunctor w => exact run_cons_eq_some.mpr ⟨s'.base, hf s' h w rfl, rfl⟩
  | assign t string memory =>
    simp only [step, Option.ite_none_right_eq_some, Option.some.injEq] at h
    obtain ⟨-, rfl⟩ := h
    rfl

/-- The memory with these blocks, each with its address. -/
def memoryOf (blocks : List (Nat × List UInt8)) (addr : Nat) : UInt8 :=
  (blocks.findSome? fun (ptr, bytes) => if ptr ≤ addr then bytes[addr - ptr]? else none).getD 0

/-- A thread with the string `[1, 2]` at address 100, before `connectEstablished` on descriptor 5. -/
def start : BorrowedString Unit :=
  ⟨ConnectionLoop.start (.new .empty 0 5 false false) false, memoryOf [(100, [1, 2])], fun _ => some (100, 2)⟩

/-- The thread sends its string, and returns from `send`; the loop is about to call the functor. -/
def sent : List (SendAction Unit) :=
  [.base (.establish none), .send (), .base (.push ((), 100)), .base (.loop (.wakeup ((), 100))),
    .base (.loop .enterLoop), .base (.loop .resetQuit), .base (.loop .testQuit),
    .base (.poll true none), .base (.loop .handleRead), .base (.loop .beginFunctors),
    .base (.loop .swapFunctors)]

instance decidableIntact (s : BorrowedString Unit) (a : SendAction Unit) : Decidable (Intact s a) :=
  match a with
  | .base _ | .send _ | .assign _ _ _ => isTrue trivial
  | .callFunctor w =>
    decidable_of_iff (∀ p ∈ borrowed s.base, s.base.conn.stat = .kDisconnected ∨
        s.base.conn.directFailure w = true ∨ fetch s.memory p.1.2 p.2.length = p.2)
      ⟨fun h t ptr data hb => h ((t, ptr), data) hb, fun h p hp => h p.1.1 p.1.2 p.2 hp⟩

/-- The caller appends to its string, in place. -/
def appended : List (SendAction Unit) :=
  sent ++ [.assign () (some (100, 3)) (memoryOf [(100, [1, 2, 3])]), .callFunctor (.count 2)]

/-- A functor that leaves another history than the bytes of the call would is not faithful. -/
theorem not_faithful_of_history {s u t : BorrowedString T} {as : List (SendAction T)} {w : WriteResult}
    (hu : run step s as = some u) (ht : run step s (as ++ [.callFunctor w]) = some t)
    (hne : (u.base.step (.callFunctor w)).map ConnectionLoop.history ≠ some t.base.history) :
    ¬ AllSteps step Faithful s (as ++ [.callFunctor w]) := by
  intro hall
  rw [run_append, hu, Option.bind_some] at ht
  obtain ⟨t', hstep, ht'⟩ := run_cons_eq_some.mp ht
  obtain rfl := Option.some.inj ht'
  apply hne
  rw [allSteps_last hall hu t' hstep w rfl]
  rfl

/-- The caller's string changes when `send` has returned, and its old place is used for `[9, 9]`. -/
def replacedBy (string : Option (Nat × Nat)) : List (SendAction Unit) :=
  sent ++ [.assign () string (memoryOf [(100, [9, 9]), (200, [1, 2, 3])])]

/-- The history of a run in which the functor writes `[9, 9]`. -/
def wroteOther : List (HistoryEntry (Unit × Nat)) :=
  [.ran none .connectEstablished, .did (.connectionCallback true), .called (some ((), 100)) [1, 2],
    .ran (some ((), 100)) (.sendInLoop [1, 2]), .did (.write [9, 9])]

theorem not_faithful_replacedBy {string : Option (Nat × Nat)}
    (hold : ∃ u, run step start (replacedBy string) = some u ∧
      (u.base.step (.callFunctor (.count 2))).map ConnectionLoop.history ≠ some wroteOther)
    (hnew : (run step start (replacedBy string ++ [.callFunctor (.count 2)])).map
      (fun t => t.base.history) = some wroteOther) :
    ∃ t, run step start (replacedBy string ++ [.callFunctor (.count 2)]) = some t ∧
      t.base.history = wroteOther ∧
      ¬ AllSteps step Faithful start (replacedBy string ++ [.callFunctor (.count 2)]) := by
  obtain ⟨u, hu, hne⟩ := hold
  refine exists_run_eq (fun t => t.base.history) _ hnew fun t ht hhistory => ⟨hhistory, ?_⟩
  exact not_faithful_of_history hu ht (by rw [hhistory]; exact hne)

end BorrowedString
end Muduo
