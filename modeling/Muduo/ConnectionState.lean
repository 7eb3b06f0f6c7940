import Muduo.ConnectionCall

/-!
# `stat_` under concurrent calls

The runs of `ConnectionLoop` with every read and every write of `stat_` a step of its own.

* A test and what follows it are separate steps: on another thread `CallPc.storing`, on the loop thread
  `StatPc.inBody`.  The two tests of `forceClose` and `forceCloseInLoop` are two reads (`rereading`).
* `closed`: `stat_` has been `kDisconnected` before.
* `forced`: what `handleClose` has done, called by `forceCloseInLoop`.
* Without other steps between them the parts of a call are the call (`step_refines`).

`shutdown` and `forceClose` store `kDisconnecting` without looking again, so a close that falls between
a test and its store is undone (`revived`):

    all closes meet `Undisturbed`  ⇒  `kDisconnected` is final, one forced close    (disconnected_final)
    a close that does not          ⇒  the store that is under way undoes it
-/

namespace Muduo

open Transition

/-! ## Tests and what follows them -/

/-- What follows a test of `stat_` on the loop thread. -/
inductive StatBody
  /-- in `forceCloseInLoop` -/
  | handleClose
  /-- in `connectDestroyed` -/
  | disconnect
  /-- in a call of user code -/
  | user (c : UserCall) (w : WriteResult)
deriving DecidableEq

/-- The test has a second part, for `kDisconnecting`. -/
def StatBody.retests : StatBody → Bool
  | .handleClose | .user .forceClose _ => true
  | .disconnect | .user _ _ => false

namespace TcpConnection

/-- `connectDestroyed` after its test has found `kConnected`. -/
def disconnect (c : TcpConnection) : Result := do
  let c := c.setState .kDisconnected
  let c ← c.withChannel Channel.disableAll
  let es := [.connectionCallback c.connected]
  let c ← c.withChannel Channel.remove
  some (c, es)

/-- `connectDestroyed` after its test has failed. -/
def removeChannel (c : TcpConnection) : Result := do
  let c ← c.withChannel Channel.remove
  some (c, [])

def body (c : TcpConnection) : StatBody → Result
  | .handleClose => c.handleClose
  | .disconnect => c.disconnect
  | .user (.send data) w => c.sendInLoop data w
  | .user .shutdown _ => (c.setState .kDisconnecting).shutdownInLoop
  | .user .forceClose _ => some (c.setState .kDisconnecting, [.queueInLoop .forceCloseInLoop])

variable (c : TcpConnection)

theorem connectDestroyed_eq_body :
    c.connectDestroyed = if c.stat = .kConnected then c.body .disconnect else c.removeChannel := by
  unfold connectDestroyed downIfConnected body disconnect removeChannel
  by_cases h : c.stat = .kConnected
  · rw [if_pos h, if_pos h]
    simp [Option.bind_assoc]
  · rw [if_neg h, if_neg h]
    rfl

theorem forceCloseInLoop_eq_body :
    c.forceCloseInLoop = if c.stat = .kConnected ∨ c.stat = .kDisconnecting then c.body .handleClose
      else some (c, []) := rfl

theorem callInLoop_eq_body (call : UserCall) (w : WriteResult) :
    c.callInLoop w call = if call.test c.stat then c.body (.user call w) else some (c, []) := by
  cases call <;> simp [callInLoop, send, shutdown, forceClose, body, UserCall.test]

end TcpConnection

/-! ## The state -/

/-- Where the loop thread is in a call that reads `stat_`. -/
inductive StatPc
  | idle
  /-- between the two parts of the test -/
  | rereading (b : StatBody)
  | inBody (b : StatBody)
deriving DecidableEq

structure ConnectionState (T : Type*) where
  base : ConnectionLoop T
  pc : StatPc
  /-- the threads between the two parts of the test of `forceClose` -/
  rereading : T → Bool
  /-- history: `stat_` has been `kDisconnected` -/
  closed : Bool
  /-- history: the effects of `handleClose` called by `forceCloseInLoop` -/
  forced : List Effect

inductive StatAction (T : Type*)
  /-- a step that reads or writes `stat_` at most once -/
  | base (a : ConnectionAction T)
  /-- the first part of the test of `forceClose` -/
  | forceClose (t : T)
  | reread (t : T)
  /-- the loop calls `forceCloseInLoop` or `connectDestroyed` -/
  | callFunctor
  /-- `~TcpServer` on the loop thread calls `connectDestroyed` -/
  | destroy
  | userCall (c : UserCall) (w : WriteResult)
  | loopReread
  | body

namespace ConnectionState

variable {T : Type*} [DecidableEq T]

def start (base : ConnectionLoop T) : ConnectionState T where
  base := base
  pc := .idle
  rereading := fun _ => false
  closed := false
  forced := []

/-- The thread is not in the middle of a call that is split. -/
def free (s : ConnectionState T) : Option T → Bool
  | none => s.pc == .idle
  | some t => !s.rereading t

/-- A step of `ConnectionLoop` with more than one access to `stat_`. -/
def splits (s : ConnectionLoop T) : ConnectionAction T → Bool
  | .test _ .forceClose | .userCall _ _ | .destroy none => true
  | .callFunctor _ =>
    match s.loop.functors.head?.bind Task.functor with
    | some .forceCloseInLoop | some .connectDestroyed => true
    | _ => false
  | _ => false

/-- The connection after a step. -/
def moved (s : ConnectionState T) (base : ConnectionLoop T) : ConnectionState T :=
  { s with base, closed := s.closed || base.conn.stat == .kDisconnected }

/-- The test of `forceClose` on another thread has succeeded. -/
def passed (s : ConnectionState T) (t : T) : ConnectionState T :=
  { s with base := { s.base with calls := Function.update s.base.calls t (.storing .forceClose) } }

/-- The first part of a test on the loop thread. -/
def test (s : ConnectionState T) (b : StatBody) : ConnectionState T :=
  if s.base.conn.stat = .kConnected then { s with pc := .inBody b }
  else if b.retests then { s with pc := .rereading b }
  else s

/-- What the history says of a call on the loop thread whose test succeeds. -/
def entries : StatBody → List (HistoryEntry T)
  | .user (.send data) _ => [.called none data, .ran none (.sendInLoop data)]
  | _ => []

/-- `connectDestroyed`, called from the queue or at once. -/
def connectDestroyed (s : ConnectionState T) : Option (ConnectionState T) :=
  if s.base.conn.stat = .kConnected then some (s.test .disconnect)
  else (s.base.perform s.base.conn.removeChannel).map s.moved

def step (s : ConnectionState T) : StatAction T → Option (ConnectionState T)
  | .base a =>
    if s.free a.thread && !splits s.base a then (s.base.step a).map s.moved else none
  | .forceClose t =>
    if s.base.calls t = .idle ∧ s.base.loop.caller t = .idle ∧ s.rereading t = false then
      if s.base.conn.stat = .kConnected then some (s.passed t)
      else some { s with rereading := Function.update s.rereading t true }
    else none
  | .reread t =>
    if s.rereading t then
      let s := { s with rereading := Function.update s.rereading t false }
      if s.base.conn.stat = .kDisconnecting then some (s.passed t) else some s
    else none
  | .callFunctor =>
    match s.pc, s.base.loop.functors.head? with
    | .idle, some ⟨source, some .forceCloseInLoop⟩ =>
      (s.base.loop.step .callFunctor).map fun loop =>
        test { s with base := { s.base with loop }.record [.ran source .forceCloseInLoop] } .handleClose
    | .idle, some ⟨source, some .connectDestroyed⟩ =>
      (s.base.loop.step .callFunctor).bind fun loop =>
        connectDestroyed { s with base := { s.base with loop }.record [.ran source .connectDestroyed] }
    | _, _ => none
  | .destroy =>
    if s.pc = .idle ∧ s.base.created ∧ s.base.conn.stat ≠ .kConnecting ∧ s.base.loop.pc.runsUserCode then
      connectDestroyed { s with base := s.base.record [.ran none .connectDestroyed] }
    else none
  | .userCall c w =>
    if s.pc = .idle ∧ s.base.loop.pc.runsUserCode then some (s.test (.user c w)) else none
  | .loopReread =>
    match s.pc with
    | .rereading b => some { s with pc := if s.base.conn.stat = .kDisconnecting then .inBody b else .idle }
    | _ => none
  | .body =>
    match s.pc with
    | .inBody b =>
      (s.base.conn.body b).bind fun r =>
        ((s.base.record (entries b)).perform (some r)).map fun base =>
          { s.moved base with
            pc := .idle
            forced := s.forced ++ if b = .handleClose then r.2 else [] }
    | _ => none

/-! ## The property -/

/-- `stat_` stays `kDisconnected`, and `forceCloseInLoop` closes at most once. -/
def StaysClosed (s : ConnectionState T) : Prop :=
  (s.closed = true → s.base.conn.stat = .kDisconnected) ∧
    (s.forced = [] ∨ s.forced = [.connectionCallback false, .closeCallback])

/-- The step stores `kDisconnected`. -/
def closes (s : ConnectionState T) : StatAction T → Bool
  | .base (.callback r _) => s.base.dispatch.head? == some .close ||
      s.base.dispatch.head? == some .read && decide (r = .data [])
  | .body => s.pc == .inBody .handleClose || s.pc == .inBody .disconnect
  | _ => false

/-- When `kDisconnected` is stored, no other thread is about to store `kDisconnecting`. -/
def Undisturbed (s : ConnectionState T) (a : StatAction T) : Prop :=
  s.closes a = true → ∀ t c, s.base.calls t ≠ .storing c

/-! ## The parts of a call are the call -/

section
variable {s : ConnectionState T}

/-- The test before a body, made in one go. -/
def passes (stat : StateE) (b : StatBody) : Prop :=
  stat = .kConnected ∨ b.retests = true ∧ stat = .kDisconnecting

/-- The loop thread is in no call. -/
structure Quiet (s : ConnectionState T) : Prop where
  pc : s.pc = .idle
  rereading : ∀ t, s.rereading t = false

theorem run_test (b : StatBody) (hpc : s.pc = .idle) :
    ∃ as t, run step (s.test b) as = some t ∧ t.base = s.base ∧ t.rereading = s.rereading ∧
      (passes s.base.conn.stat b → t.pc = .inBody b) ∧ (¬ passes s.base.conn.stat b → t.pc = .idle) := by
  unfold test passes
  by_cases hconnected : s.base.conn.stat = .kConnected
  · rw [if_pos hconnected]
    exact ⟨[], _, rfl, rfl, rfl, fun _ => rfl, fun hnot => absurd (Or.inl hconnected) hnot⟩
  · rw [if_neg hconnected]
    by_cases hretests : b.retests = true
    · rw [if_pos hretests]
      refine ⟨[.loopReread], _, rfl, rfl, rfl, ?_, ?_⟩
      · rintro (hc | ⟨-, hd⟩)
        · exact absurd hc hconnected
        · exact if_pos hd
      · intro hnot
        exact if_neg fun hd => hnot (Or.inr ⟨hretests, hd⟩)
    · rw [if_neg hretests]
      refine ⟨[], s, rfl, rfl, rfl, ?_, fun _ => hpc⟩
      rintro (hc | ⟨hr, -⟩)
      · exact absurd hc hconnected
      · exact absurd hr hretests

/-- A test and, if it succeeds, what follows it. -/
theorem run_test_body (hs : Quiet s) (b : StatBody) {base : ConnectionLoop T}
    (hpass : passes s.base.conn.stat b →
      (s.base.record (entries b)).perform (s.base.conn.body b) = some base)
    (hfail : ¬ passes s.base.conn.stat b → base = s.base) :
    ∃ as t, run step (s.test b) as = some t ∧ t.base = base ∧ Quiet t := by
  obtain ⟨as, t, hrun, hbase, hread, hin, hout⟩ := run_test (s := s) b hs.pc
  by_cases hp : passes s.base.conn.stat b
  · obtain ⟨conn, es, hbody, hperform⟩ := ConnectionLoop.perform_eq_some (hpass hp)
    have hstep : step t .body = some { t.moved base with
        pc := .idle
        forced := t.forced ++ if b = .handleClose then es else [] } := by
      have hperform' : (t.base.record (entries b)).perform (some (conn, es)) = some base := by
        rw [hbase, ← hbody]
        exact hpass hp
      simp only [step, hin hp]
      rw [hbase, hbody, Option.bind_some, ← hbase, hperform']
      rfl
    refine ⟨as ++ [.body], _, run_append_of_eq_some hrun (run_cons_eq_some.mpr ⟨_, hstep, rfl⟩), rfl,
      rfl, ?_⟩
    intro t'
    show t.rereading t' = false
    rw [hread]
    exact hs.rereading t'
  · exact ⟨as, t, hrun, hbase.trans (hfail hp).symm, hout hp, by rw [hread]; exact hs.rereading⟩

theorem perform_nil (base : ConnectionLoop T) : base.perform (some (base.conn, [])) = some base := by
  simp [ConnectionLoop.perform, ConnectionLoop.post, queuedTasks]

theorem run_connectDestroyed (hs : Quiet s) {base : ConnectionLoop T}
    (h : s.base.perform s.base.conn.connectDestroyed = some base) :
    ∃ s' as t, s.connectDestroyed = some s' ∧ run step s' as = some t ∧ t.base = base ∧ Quiet t := by
  rw [TcpConnection.connectDestroyed_eq_body] at h
  unfold connectDestroyed
  by_cases hstat : s.base.conn.stat = .kConnected
  · rw [if_pos hstat] at h
    rw [if_pos hstat]
    obtain ⟨as, t, hrun, hbase, hq⟩ := run_test_body hs .disconnect
      (fun _ => by simpa [entries, ConnectionLoop.record] using h)
      (fun hnot => absurd (Or.inl hstat) hnot)
    exact ⟨_, as, t, rfl, hrun, hbase, hq⟩
  · rw [if_neg hstat] at h
    rw [if_neg hstat, h]
    exact ⟨_, [], _, rfl, rfl, rfl, hs.pc, hs.rereading⟩

theorem run_forceCloseInLoop (hs : Quiet s) {base : ConnectionLoop T}
    (h : s.base.perform s.base.conn.forceCloseInLoop = some base) :
    ∃ as t, run step (s.test .handleClose) as = some t ∧ t.base = base ∧ Quiet t := by
  rw [TcpConnection.forceCloseInLoop_eq_body] at h
  apply run_test_body hs .handleClose
  · intro hp
    rw [if_pos (hp.imp_right fun hd => hd.2)] at h
    simpa [entries, ConnectionLoop.record] using h
  · intro hp
    rw [if_neg fun hd => hp (hd.imp_right fun hd => ⟨rfl, hd⟩), perform_nil] at h
    exact (Option.some.inj h).symm

/-- `forceClose` on another thread: the first read, and the second if the first fails. -/
theorem run_forceClose (hs : Quiet s) {t : T} {base : ConnectionLoop T}
    (h : s.base.step (.test t .forceClose) = some base) :
    ∃ as s', run step s as = some s' ∧ s'.base = base ∧ Quiet s' := by
  simp only [ConnectionLoop.step, Option.ite_none_right_eq_some] at h
  obtain ⟨⟨hidle, hcaller⟩, h⟩ := h
  have hguard : s.base.calls t = .idle ∧ s.base.loop.caller t = .idle ∧ s.rereading t = false :=
    ⟨hidle, hcaller, hs.rereading t⟩
  have hback : Function.update (Function.update s.rereading t true) t false = s.rereading := by
    rw [Function.update_idem, ← hs.rereading t, Function.update_eq_self]
  by_cases hconnected : s.base.conn.stat = .kConnected
  · refine ⟨[.forceClose t], s.passed t, ?_, ?_, hs.pc, hs.rereading⟩
    · simp only [run_cons, step, if_pos hguard, if_pos hconnected]
      rfl
    · simpa [UserCall.test, hconnected, UserCall.stores, passed] using h
  · by_cases hdisconnecting : s.base.conn.stat = .kDisconnecting
    · refine ⟨[.forceClose t, .reread t], s.passed t, ?_, ?_, hs.pc, hs.rereading⟩
      · simp only [run_cons, step, if_pos hguard, if_neg hconnected, Option.bind_some,
          Function.update_self, if_true, if_pos hdisconnecting, hback]
        rfl
      · simpa [UserCall.test, hdisconnecting, UserCall.stores, passed] using h
    · refine ⟨[.forceClose t, .reread t], s, ?_, ?_, hs⟩
      · simp only [run_cons, step, if_pos hguard, if_neg hconnected, Option.bind_some,
          Function.update_self, if_true, if_neg hdisconnecting, hback]
        rfl
      · simpa [UserCall.test, hconnected, hdisconnecting] using h

/-- A call of user code is its body, if its test succeeds, and nothing otherwise. -/
theorem perform_of_callInLoop {b base : ConnectionLoop T} {c : UserCall} {w : WriteResult}
    (h : b.callInLoop c w = some base) :
    (c.test b.conn.stat = true →
      (b.record (entries (.user c w))).perform (b.conn.body (.user c w)) = some base) ∧
    (c.test b.conn.stat = false → base = b) := by
  have hbody := b.conn.callInLoop_eq_body c w
  cases c with
  | send data =>
    simp only [ConnectionLoop.callInLoop] at h
    constructor
    · intro hpass
      rw [hpass, if_pos rfl] at hbody
      rw [if_pos hpass, hbody] at h
      exact h
    · intro hfail
      rw [hfail] at h
      exact (Option.some.inj h).symm
  | shutdown | forceClose =>
    simp only [ConnectionLoop.callInLoop] at h
    constructor
    · intro hpass
      rw [hpass, if_pos rfl] at hbody
      rw [hbody] at h
      simpa [entries, ConnectionLoop.record] using h
    · intro hfail
      rw [hfail] at hbody
      rw [hbody, if_neg (by simp), perform_nil] at h
      exact (Option.some.inj h).symm

/-- **Every step of `ConnectionLoop`** is the run of its parts, when nothing comes between. -/
theorem step_refines (hs : Quiet s) {a : ConnectionAction T} {base : ConnectionLoop T}
    (h : s.base.step a = some base) :
    ∃ as t, run step s as = some t ∧ t.base = base ∧ Quiet t := by
  by_cases hsplits : splits s.base a = true
  · cases a with
    | test t c =>
      obtain rfl : c = .forceClose := by cases c <;> first | rfl | cases hsplits
      exact run_forceClose hs h
    | userCall c w =>
      simp only [ConnectionLoop.step, Option.ite_none_right_eq_some] at h
      obtain ⟨huser, h⟩ := h
      have htest : c.test s.base.conn.stat = true ↔ passes s.base.conn.stat (.user c w) := by
        cases c <;> simp [UserCall.test, passes, StatBody.retests]
      obtain ⟨hpass, hfail⟩ := perform_of_callInLoop h
      obtain ⟨as, t, hrun, hbase, hq⟩ := run_test_body hs (.user c w)
        (fun hp => hpass (htest.mpr hp))
        (fun hp => hfail (by simpa using fun hpass => hp (htest.mp hpass)))
      refine ⟨.userCall c w :: as, t, run_cons_eq_some.mpr ⟨s.test (.user c w), ?_, hrun⟩, hbase, hq⟩
      exact if_pos ⟨hs.pc, huser⟩
    | callFunctor w =>
      simp only [ConnectionLoop.step] at h
      split at h
      · cases h
      · next task tasks hfunctors =>
        obtain ⟨loop, hloop, h⟩ := Option.bind_eq_some_iff.mp h
        obtain ⟨source, functor⟩ := task
        simp only [splits, hfunctors, List.head?_cons, Option.bind_some] at hsplits
        split at hsplits
        · have hq : Quiet { s with
              base := ConnectionLoop.record { s.base with loop } [.ran source .forceCloseInLoop] } :=
            ⟨hs.pc, hs.rereading⟩
          obtain ⟨as, t, hrun, hbase, hqt⟩ := run_forceCloseInLoop hq h
          refine ⟨.callFunctor :: as, t, run_cons_eq_some.mpr ⟨_, ?_, hrun⟩, hbase, hqt⟩
          simp only [step, hs.pc, hfunctors, List.head?_cons, hloop]
          rfl
        · have hq : Quiet { s with
              base := ConnectionLoop.record { s.base with loop } [.ran source .connectDestroyed] } :=
            ⟨hs.pc, hs.rereading⟩
          obtain ⟨s', as, t, hs', hrun, hbase, hqt⟩ := run_connectDestroyed hq h
          refine ⟨.callFunctor :: as, t, run_cons_eq_some.mpr ⟨s', ?_, hrun⟩, hbase, hqt⟩
          simp only [hs.pc] at hs'
          simp only [step, hs.pc, hfunctors, List.head?_cons, hloop, Option.bind_some]
          exact hs'
        · cases hsplits
    | destroy source =>
      cases source with
      | some t => cases hsplits
      | none =>
        simp only [ConnectionLoop.step, ConnectionLoop.runInLoop, Option.ite_none_right_eq_some,
          Bool.and_eq_true, bne_iff_ne] at h
        obtain ⟨⟨hcreated, hstat⟩, huser, h⟩ := h
        have hq : Quiet { s with base := s.base.record [.ran none .connectDestroyed] } :=
          ⟨hs.pc, hs.rereading⟩
        obtain ⟨s', as, t, hs', hrun, hbase, hqt⟩ := run_connectDestroyed hq h
        refine ⟨.destroy :: as, t, run_cons_eq_some.mpr ⟨s', ?_, hrun⟩, hbase, hqt⟩
        show (if _ then _ else none) = some s'
        rw [if_pos ⟨hs.pc, hcreated, hstat, huser⟩]
        exact hs'
    | loop | poll | handleEvent | callback | store | push | otherChannels | establish | remove =>
      cases hsplits
  · refine ⟨[.base a], s.moved base, run_cons_eq_some.mpr ⟨_, ?_, rfl⟩, rfl, hs.pc, hs.rereading⟩
    have hfree : s.free a.thread = true := by
      unfold free
      cases a.thread with
      | none => simp [hs.pc]
      | some t => simp [hs.rereading t]
    simp only [step, hfree, hsplits, h]
    rfl

end

/-! ## What the steps do to `stat_` -/

variable {s s' : ConnectionState T} {a : StatAction T}

/-- A call of the loop thread that closes the connection. -/
def ConnCall.closes : ConnCall → Bool
  | .event .close _ _ => true
  | .event .read r _ => decide (r = .data [])
  | _ => false

omit [DecidableEq T] in
/-- Of the calls that are not split, only `handleClose` changes `stat_`. -/
theorem exec_stat {c c' : TcpConnection} {es : List Effect} {call : ConnCall}
    (hestablish : ∀ w, call ≠ .functor .connectEstablished w)
    (hdestroy : ∀ w, call ≠ .functor .connectDestroyed w)
    (hforce : ∀ w, call ≠ .functor .forceCloseInLoop w) (huser : ∀ u w, call ≠ .user u w)
    (h : c.exec call = some (c', es)) :
    c'.stat = if ConnCall.closes call then .kDisconnected else c.stat := by
  cases TcpConnection.executes_of_exec h with
  | skip hskip =>
    cases call with
    | functor => rfl
    | event cb r w =>
      cases cb with
      | close | read | write => cases hskip
      | error => rfl
    | user u w => exact absurd rfl (huser u w)
  | connectEstablished => exact absurd rfl (hestablish _)
  | connectDestroyed => exact absurd rfl (hdestroy _)
  | forceCloseInLoop => exact absurd rfl (hforce _)
  | shutdown | forceClose => exact absurd rfl (huser _ _)
  | sendInLoop hstat hcall hsend =>
    rcases hcall with rfl | ⟨rfl, -⟩
    · exact (TcpConnection.sendInLoop_stream hstat hsend).2
    · exact absurd rfl (huser _ _)
  | shutdownInLoop h =>
    rw [(TcpConnection.shutdownInLoop_spec h).1]
    rfl
  | close h => exact (TcpConnection.handleClose_eq_some h).1
  | endOfStream _ h => exact (TcpConnection.handleClose_eq_some h).1
  | message _ hr | readError _ hr => simp [ConnCall.closes, hr]
  | write h => exact (TcpConnection.handleWrite_stream h).2

/-- A callback of the channel that closes the connection. -/
theorem base_closes (h : s.base.loop.Consistent) {a : ConnectionAction T} {base : ConnectionLoop T}
    (hcloses : s.closes (.base a) = true) (hstep : s.base.step a = some base) :
    base.conn.stat = .kDisconnected ∧ base.calls = s.base.calls := by
  cases a with
  | callback r w =>
    cases hdispatch : s.base.dispatch with
    | nil => simp [closes, hdispatch] at hcloses
    | cons cb rest =>
      have hcall : s.base.callOf (.callback r w) = some (.event cb r w) := by
        simp [ConnectionLoop.callOf, hdispatch]
      obtain ⟨es, hcalls⟩ := ConnectionLoop.step_of_callOf h hcall hstep
      refine ⟨?_, hcalls.calls⟩
      rw [exec_stat (by simp) (by simp) (by simp) (by simp) hcalls.exec, if_pos]
      cases cb <;> simp_all [closes, ConnCall.closes]
  | loop | poll | handleEvent | callFunctor | userCall | test | store | push | otherChannels
  | establish | destroy | remove => cases hcloses

/-- A step that is not split stores `kDisconnected`, or stores `kDisconnecting` after a test of
another thread, or leaves `stat_` alone. -/
theorem base_stat (h : ConnectionLoop.Placed s.base) (hstat : s.base.conn.stat ≠ .kConnecting)
    {a : ConnectionAction T} {base : ConnectionLoop T} (hsplits : splits s.base a = false)
    (hstep : s.base.step a = some base) :
    (s.closes (.base a) = true ∧ a.thread = none ∧ base.conn.stat = .kDisconnected ∧
        base.calls = s.base.calls) ∨
      base.conn.stat = s.base.conn.stat ∨
      (∃ t c, s.base.calls t = .storing c) ∧ base.conn.stat = .kDisconnecting := by
  cases hcall : s.base.callOf a with
  | none =>
    obtain ⟨-, hsame | ⟨hdisconnecting, t, c, hstoring, -⟩⟩ :=
      ConnectionLoop.step_of_callOf_none hcall hstep
    · exact Or.inr (Or.inl hsame)
    · exact Or.inr (Or.inr ⟨⟨t, c, hstoring⟩, hdisconnecting⟩)
  | some call =>
    obtain ⟨es, hcalls⟩ := ConnectionLoop.step_of_callOf h.consistent hcall hstep
    have hne := h.not_establish hstat hcall hstep
    cases a with
    | callback r w =>
      simp only [ConnectionLoop.callOf, Option.map_eq_some_iff] at hcall
      obtain ⟨cb, hhead, rfl⟩ := hcall
      by_cases hcloses : s.closes (.base (.callback r w)) = true
      · obtain ⟨hstat', hsame⟩ := base_closes h.consistent hcloses hstep
        exact Or.inl ⟨hcloses, rfl, hstat', hsame⟩
      · have hstat' := exec_stat hne (by simp) (by simp) (by simp) hcalls.exec
        rw [if_neg] at hstat'
        · exact Or.inr (Or.inl hstat')
        · cases cb <;> simp_all [closes, ConnCall.closes]
    | callFunctor w =>
      simp only [ConnectionLoop.callOf, Option.map_eq_some_iff] at hcall
      obtain ⟨f, hhead, rfl⟩ := hcall
      have hstat' := exec_stat hne (fun w' hw => ?_) (fun w' hw => ?_) (by simp) hcalls.exec
      · exact Or.inr (Or.inl hstat')
      · obtain ⟨rfl, -⟩ := (ConnCall.functor.injEq ..).mp hw
        simp [splits, hhead] at hsplits
      · obtain ⟨rfl, -⟩ := (ConnCall.functor.injEq ..).mp hw
        simp [splits, hhead] at hsplits
    | userCall => cases hsplits
    | establish source =>
      cases source with
      | some t => cases hcall
      | none => exact absurd (Option.some.inj hcall).symm (hne _)
    | destroy source =>
      cases source with
      | some t => cases hcall
      | none => cases hsplits
    | loop | poll | handleEvent | test | store | push | otherChannels | remove => cases hcall

/-- A thread goes on in its call by its own steps, and is about to store after a test. -/
theorem base_calls (h : s.base.loop.Consistent) {a : ConnectionAction T} {base : ConnectionLoop T}
    (hstep : s.base.step a = some base) (t : T) : base.calls t = s.base.calls t ∨
      a.thread = some t ∧ ∀ c, base.calls t = .storing c → c.test s.base.conn.stat = true := by
  cases hcall : s.base.callOf a with
  | none => exact (ConnectionLoop.step_of_callOf_none hcall hstep).1.calls t
  | some call =>
    obtain ⟨es, hcalls⟩ := ConnectionLoop.step_of_callOf h hcall hstep
    rw [hcalls.calls]
    exact Or.inl rfl

omit [DecidableEq T] in
/-- What follows a test does to `stat_`, and to the queue. -/
theorem body_spec {c c' : TcpConnection} {es : List Effect} {b : StatBody}
    (hc : c.stat ≠ .kConnecting) (h : c.body b = some (c', es)) :
    c'.stat ≠ .kConnecting ∧
      .connectEstablished ∉ ConnectionLoop.own (queuedTasks T es) ∧
      (b ≠ .handleClose → b ≠ .disconnect → c.stat ≠ .kDisconnected → c'.stat ≠ .kDisconnected) ∧
      (b = .handleClose ∨ b = .disconnect → c'.stat = .kDisconnected) ∧
      (b = .handleClose → es = [.connectionCallback false, .closeCallback]) := by
  cases b with
  | handleClose =>
    obtain ⟨hstat, rfl⟩ := TcpConnection.handleClose_eq_some h
    exact ⟨by simp [hstat], by simp [queuedTasks, ConnectionLoop.own], by simp, fun _ => hstat,
      fun _ => rfl⟩
  | disconnect =>
    simp only [TcpConnection.body, TcpConnection.disconnect, Option.bind_eq_bind,
      Option.bind_eq_some_iff, Option.some.injEq, Prod.mk.injEq] at h
    obtain ⟨c₁, hch, c₂, hch', rfl, rfl⟩ := h
    obtain ⟨poller, channel, -, rfl⟩ := TcpConnection.withChannel_eq_some.mp hch
    obtain ⟨poller', channel', -, rfl⟩ := TcpConnection.withChannel_eq_some.mp hch'
    exact ⟨by simp [TcpConnection.setState], by simp [queuedTasks, ConnectionLoop.own], by simp,
      fun _ => rfl, by simp⟩
  | user u w =>
    refine ⟨?_, ?_, fun _ _ hlive => ?_, by simp, by simp⟩
    all_goals cases u
    case refine_1.send data =>
      have hphase := TcpConnection.sendInLoop_phase h
      intro hconnecting
      rw [hconnecting] at hphase
      revert hphase hc
      cases c.stat <;> simp [StateE.phase]
    case refine_2.send data =>
      exact ConnectionLoop.own_queuedTasks_of_isQuiet fun e he =>
        Effect.isQuiet_of_isOutput (TcpConnection.sendInLoop_effects h e he)
    case refine_3.send data =>
      rw [(TcpConnection.sendInLoop_stream hlive h).2]
      exact hlive
    case refine_1.shutdown =>
      rw [(TcpConnection.shutdownInLoop_quiet h).1]
      simp [TcpConnection.setState]
    case refine_2.shutdown =>
      exact ConnectionLoop.own_queuedTasks_of_isQuiet (TcpConnection.shutdownInLoop_quiet h).2
    case refine_3.shutdown =>
      rw [(TcpConnection.shutdownInLoop_quiet h).1]
      simp [TcpConnection.setState]
    all_goals
      cases h
      simp [TcpConnection.setState, queuedTasks, ConnectionLoop.own]

/-! ## The invariant -/

/-- Nobody is about to change the state of a connection that is closed. -/
structure Final (s : ConnectionState T) : Prop where
  placed : ConnectionLoop.Placed s.base
  established : s.base.conn.stat ≠ .kConnecting
  closed : s.closed = true ↔ s.base.conn.stat = .kDisconnected
  storing : s.closed = true → ∀ t c, s.base.calls t ≠ .storing c
  body : ∀ b, s.pc = .inBody b → s.closed = false
  forced : s.forced = [] ∨
    s.closed = true ∧ s.forced = [.connectionCallback false, .closeCallback]
  rereading : ∀ t, s.rereading t = true → s.base.calls t = .idle

omit [DecidableEq T] in
theorem Final.staysClosed (h : Final s) : s.StaysClosed :=
  ⟨h.closed.mp, h.forced.imp_right fun hf => hf.2⟩

/-- A test that succeeds on another thread, or fails on a closed connection. -/
theorem test_closed {c : UserCall} {stat : StateE} (h : c.test stat = true) :
    stat ≠ .kDisconnected := by
  intro hstat
  rw [hstat] at h
  cases c <;> cases h

theorem Final.base (h : Final s) {a : ConnectionAction T} (hg : s.Undisturbed (.base a))
    (hstep : s.step (.base a) = some s') : Final s' := by
  simp only [step, Option.ite_none_right_eq_some, Bool.and_eq_true, Bool.not_eq_true',
    Option.map_eq_some_iff] at hstep
  obtain ⟨⟨hfree, hsplits⟩, base, hbase, rfl⟩ := hstep
  have hplaced := h.placed.step hbase
  have hrereading : ∀ t, (s.moved base).rereading t = true → (s.moved base).base.calls t = .idle := by
    intro t ht
    have ht' : s.rereading t = true := ht
    rcases base_calls h.placed.consistent hbase t with hsame | ⟨hthread, -⟩
    · exact hsame.trans (h.rereading t ht')
    · rw [hthread] at hfree
      simp [free, ht'] at hfree
  rcases base_stat h.placed h.established hsplits hbase with
    ⟨hcloses, hthread, hstat, hcalls⟩ | hstat | ⟨⟨t, c, hstoring⟩, hstat⟩
  · -- the connection is closed
    have hpc : s.pc = .idle := by
      rw [hthread] at hfree
      simpa [free] using hfree
    have hclosed : (s.moved base).closed = true := by simp [moved, hstat]
    refine ⟨hplaced, by simp [moved, hstat], ?_, fun _ t c hstoring => ?_, fun b hb => ?_, ?_,
      hrereading⟩
    · rw [hclosed]
      simp [moved, hstat]
    · apply hg hcloses t c
      rw [← hcalls]
      exact hstoring
    · have hidle : (s.moved base).pc = .idle := hpc
      rw [hidle] at hb
      cases hb
    · exact h.forced.imp_right fun hf => ⟨hclosed, hf.2⟩
  · -- `stat_` stays
    have hclosed : (s.moved base).closed = s.closed := by
      cases hc : s.closed
      · have hne : s.base.conn.stat ≠ .kDisconnected := fun hd => by
          rw [h.closed.mpr hd] at hc
          cases hc
        simp [moved, hc, hstat, hne]
      · simp [moved, hc]
    refine ⟨hplaced, by rw [moved, hstat]; exact h.established, ?_, fun hc t c hstoring => ?_,
      fun b hb => ?_, ?_, hrereading⟩
    · rw [hclosed, moved, hstat]
      exact h.closed
    · rw [hclosed] at hc
      rcases base_calls h.placed.consistent hbase t with hsame | ⟨-, htest⟩
      · exact h.storing hc t c (hsame.symm.trans hstoring)
      · exact test_closed (htest c hstoring) (h.closed.mp hc)
    · rw [hclosed]
      exact h.body b hb
    · rw [hclosed]
      exact h.forced
  · -- another thread stores `kDisconnecting`
    have hopen : s.closed = false := by
      by_contra hc
      exact h.storing (by simpa using hc) t c hstoring
    have hclosed : (s.moved base).closed = false := by simp [moved, hopen, hstat]
    refine ⟨hplaced, by simp [moved, hstat], ?_, fun hc => ?_, fun _ _ => hclosed, ?_, hrereading⟩
    · rw [hclosed]
      simp [moved, hstat]
    · rw [hclosed] at hc
      cases hc
    · rcases h.forced with hf | ⟨hc, -⟩
      · exact Or.inl hf
      · rw [hopen] at hc
        cases hc

section
omit [DecidableEq T]

/-- A step that leaves `stat_` and the other threads alone. -/
theorem Final.keep (h : Final s) (hplaced : ConnectionLoop.Placed s'.base)
    (hstat : s'.base.conn.stat = s.base.conn.stat) (hclosed : s'.closed = s.closed)
    (hcalls : s'.base.calls = s.base.calls)
    (hbody : ∀ b, s'.pc = .inBody b → s.base.conn.stat ≠ .kDisconnected)
    (hforced : s'.forced = s.forced)
    (hrereading : ∀ t, s'.rereading t = true → s.rereading t = true ∨ s.base.calls t = .idle) :
    Final s' := by
  refine ⟨hplaced, by rw [hstat]; exact h.established, by rw [hclosed, hstat]; exact h.closed, ?_, ?_,
    ?_, ?_⟩
  · rw [hclosed, hcalls]
    exact h.storing
  · intro b hb
    rw [hclosed]
    by_contra hc
    exact hbody b hb (h.closed.mp (by simpa using hc))
  · rw [hclosed, hforced]
    exact h.forced
  · intro t ht
    rw [hcalls]
    exact (hrereading t ht).elim (h.rereading t) id

theorem Final.body_open (h : Final s) {b : StatBody} (hb : s.pc = .inBody b) :
    s.base.conn.stat ≠ .kDisconnected := by
  intro hd
  have hclosed := h.closed.mpr hd
  rw [h.body b hb] at hclosed
  cases hclosed

theorem Final.test (h : Final s) (b : StatBody) : Final (s.test b) := by
  unfold ConnectionState.test
  by_cases hstat : s.base.conn.stat = .kConnected
  · rw [if_pos hstat]
    exact h.keep h.placed rfl rfl rfl (fun _ _ => by simp [hstat]) rfl fun _ => Or.inl
  · rw [if_neg hstat]
    split
    · exact h.keep h.placed rfl rfl rfl (fun _ hb => by cases hb) rfl fun _ => Or.inl
    · exact h

end

theorem Final.passed (h : Final s) (t : T) (ht : s.rereading t = false)
    (hstat : s.base.conn.stat = .kConnected ∨ s.base.conn.stat = .kDisconnecting) :
    Final (s.passed t) := by
  have hopen : s.closed = false := by
    by_contra hc
    have hd := h.closed.mp (by simpa using hc)
    rcases hstat with hs | hs <;> simp [hs] at hd
  refine ⟨?_, h.established, h.closed, fun hc => ?_, h.body, h.forced, fun t' ht' => ?_⟩
  · exact ConnectionLoop.Placed.advance h.established h.placed.consistent (h.placed.created h.established)
      (h.placed.established h.established)
  · have hc' : s.closed = true := hc
    rw [hopen] at hc'
    cases hc'
  · have hne : t' ≠ t := fun he => by
      rw [he, show (s.passed t).rereading t = s.rereading t from rfl, ht] at ht'
      cases ht'
    show Function.update s.base.calls t _ t' = .idle
    rw [Function.update_of_ne hne]
    exact h.rereading t' ht'

/-- The loop takes a functor from the queue. -/
theorem Final.pop (h : Final s) (hpc : s.pc = .idle) {loop : EventLoop T (Task T)}
    (hloop : s.base.loop.step .callFunctor = some loop) (entries : List (HistoryEntry T)) :
    Final { s with base := { s.base with loop }.record entries } := by
  have hqueue := (EventLoop.step_queue h.placed.consistent hloop).1
  have hplaced : ConnectionLoop.Placed ({ s.base with loop }.record entries) := by
    refine ConnectionLoop.Placed.advance h.established
      (EventLoop.consistent_step _ _ _ h.placed.consistent hloop) (h.placed.created h.established) ?_
    intro hmem
    apply h.placed.established h.established
    have hown : ConnectionLoop.own loop.queue = ConnectionLoop.own (s.base.loop.queue.drop 1) := by
      rw [hqueue, show (LoopAction.callFunctor : LoopAction T (Task T)).push = [] from rfl,
        List.append_nil]
      rfl
    obtain ⟨task, htask, hf⟩ := List.mem_filterMap.mp (hown ▸ hmem)
    exact List.mem_filterMap.mpr ⟨task, List.mem_of_mem_drop htask, hf⟩
  exact h.keep hplaced rfl rfl rfl (fun b hb => by rw [show s.pc = _ from hb] at hpc; cases hpc) rfl
    fun _ => Or.inl

theorem Final.connectDestroyed (h : Final s) (hs : s.connectDestroyed = some s') : Final s' := by
  unfold ConnectionState.connectDestroyed at hs
  split at hs
  · obtain rfl := Option.some.inj hs
    exact h.test .disconnect
  · obtain ⟨base, hperform, rfl⟩ := Option.map_eq_some_iff.mp hs
    obtain ⟨conn, es, hremove, rfl⟩ := ConnectionLoop.perform_eq_some hperform
    simp only [TcpConnection.removeChannel, Option.bind_eq_bind, Option.bind_eq_some_iff,
      Option.some.injEq, Prod.mk.injEq] at hremove
    obtain ⟨c, hch, rfl, rfl⟩ := hremove
    obtain ⟨poller, channel, -, rfl⟩ := TcpConnection.withChannel_eq_some.mp hch
    refine h.keep ?_ rfl ?_ rfl (fun b hb => h.body_open hb) rfl fun _ => Or.inl
    · refine ConnectionLoop.Placed.advance h.established
        (ConnectionLoop.consistent_post h.placed.consistent _) (h.placed.created h.established) ?_
      exact h.placed.established h.established
    · show (s.closed || s.base.conn.stat == .kDisconnected) = s.closed
      cases hc : s.closed
      · have hne : s.base.conn.stat ≠ .kDisconnected := fun hd => by
          rw [h.closed.mpr hd] at hc
          cases hc
        simp [hne]
      · rfl

theorem Final.inBody (h : Final s) (hg : s.Undisturbed .body) (hstep : s.step .body = some s') :
    Final s' := by
  simp only [step] at hstep
  split at hstep
  · next b hpc =>
    obtain ⟨⟨c, es⟩, hbody, hstep⟩ := Option.bind_eq_some_iff.mp hstep
    obtain ⟨base, hperform, rfl⟩ := Option.map_eq_some_iff.mp hstep
    obtain ⟨conn, es', hr, rfl⟩ := ConnectionLoop.perform_eq_some hperform
    obtain ⟨rfl, rfl⟩ := Prod.mk.inj (Option.some.inj hr)
    obtain ⟨hlive, hes, hopen, hclose, hforced⟩ := body_spec (T := T) h.established hbody
    have hnone : s.closed = false := h.body b hpc
    have hnil : s.forced = [] := by
      rcases h.forced with hf | ⟨hc, -⟩
      · exact hf
      · rw [hnone] at hc
        cases hc
    have hplaced : ConnectionLoop.Placed { s.base.record (entries b) with
        conn := c
        loop := ConnectionLoop.post (s.base.record (entries b)).loop es
        history := (s.base.record (entries b)).history ++ es.map .did } := by
      refine ConnectionLoop.Placed.advance hlive
        (ConnectionLoop.consistent_post h.placed.consistent _) (h.placed.created h.established) ?_
      show ConnFunctor.connectEstablished ∉ ConnectionLoop.own (ConnectionLoop.post s.base.loop es).queue
      rw [ConnectionLoop.queue_post, ConnectionLoop.own_append, List.mem_append, not_or]
      exact ⟨h.placed.established h.established, hes⟩
    refine ⟨hplaced, hlive, ?_, fun hc t u hstoring => ?_, fun _ hb => (by cases hb), ?_,
      h.rereading⟩
    · show (s.closed || c.stat == .kDisconnected) = true ↔ c.stat = .kDisconnected
      rw [hnone]
      simp
    · have hd : c.stat = .kDisconnected := by
        have hc' : (s.closed || c.stat == .kDisconnected) = true := hc
        rw [hnone] at hc'
        simpa using hc'
      have hcloses : b = .handleClose ∨ b = .disconnect := by
        by_contra hb
        rw [not_or] at hb
        exact hopen hb.1 hb.2 (h.body_open hpc) hd
      refine hg ?_ t u hstoring
      rcases hcloses with rfl | rfl <;> simp [closes, hpc]
    · show s.forced ++ (if b = .handleClose then es else []) = [] ∨ _
      by_cases hb : b = .handleClose
      · refine Or.inr ⟨?_, ?_⟩
        · show (s.closed || c.stat == .kDisconnected) = true
          simp [hclose (Or.inl hb)]
        · show s.forced ++ (if b = .handleClose then es else []) = _
          rw [hnil, if_pos hb, hforced hb]
          rfl
      · left
        rw [hnil, if_neg hb]
        rfl
  · cases hstep

/-- **Every step** whose closes are undisturbed keeps the invariant. -/
theorem final_step (s : ConnectionState T) (a : StatAction T) (s' : ConnectionState T) (h : Final s)
    (hg : s.Undisturbed a) (hstep : s.step a = some s') : Final s' := by
  cases a with
  | base a => exact h.base hg hstep
  | body => exact h.inBody hg hstep
  | forceClose t =>
    simp only [step, Option.ite_none_right_eq_some] at hstep
    obtain ⟨⟨hidle, -, hread⟩, hstep⟩ := hstep
    split at hstep
    · next hstat =>
      obtain rfl := Option.some.inj hstep
      exact h.passed t hread (Or.inl hstat)
    · obtain rfl := Option.some.inj hstep
      refine h.keep h.placed rfl rfl rfl (fun b hb => h.body_open hb) rfl fun t' ht' => ?_
      by_cases he : t' = t
      · exact Or.inr (he ▸ hidle)
      · exact Or.inl (by simpa [he] using ht')
  | reread t =>
    simp only [step, Option.ite_none_right_eq_some] at hstep
    obtain ⟨-, hstep⟩ := hstep
    have hread : Final { s with rereading := Function.update s.rereading t false } :=
      h.keep h.placed rfl rfl rfl (fun b hb => h.body_open hb) rfl fun t' ht' => by
        by_cases he : t' = t
        · simp [he] at ht'
        · exact Or.inl (by simpa [he] using ht')
    split at hstep
    · next hstat =>
      obtain rfl := Option.some.inj hstep
      exact hread.passed t (Function.update_self _ _ _) (Or.inr hstat)
    · obtain rfl := Option.some.inj hstep
      exact hread
  | callFunctor =>
    simp only [step] at hstep
    split at hstep
    · next hpc _ =>
      obtain ⟨loop, hloop, rfl⟩ := Option.map_eq_some_iff.mp hstep
      exact (h.pop hpc hloop _).test _
    · next hpc _ =>
      obtain ⟨loop, hloop, hstep⟩ := Option.bind_eq_some_iff.mp hstep
      exact (h.pop hpc hloop _).connectDestroyed hstep
    · cases hstep
  | destroy =>
    simp only [step, Option.ite_none_right_eq_some] at hstep
    obtain ⟨⟨hpc, -⟩, hstep⟩ := hstep
    have hrecord : Final { s with base := s.base.record [.ran none .connectDestroyed] } := by
      refine h.keep ?_ rfl rfl rfl (fun b hb => h.body_open hb) rfl fun _ => Or.inl
      exact ConnectionLoop.Placed.advance h.established h.placed.consistent
        (h.placed.created h.established) (h.placed.established h.established)
    exact hrecord.connectDestroyed hstep
  | userCall c w =>
    simp only [step, Option.ite_none_right_eq_some, Option.some.injEq] at hstep
    obtain ⟨-, rfl⟩ := hstep
    exact h.test _
  | loopReread =>
    simp only [step] at hstep
    split at hstep
    · next b hpc =>
      obtain rfl := Option.some.inj hstep
      refine h.keep h.placed rfl rfl rfl (fun b' hb => ?_) rfl fun _ => Or.inl
      intro hd
      have hidle : (if s.base.conn.stat = .kDisconnecting then StatPc.inBody b else .idle) = .inBody b' := hb
      rw [if_neg (by simp [hd])] at hidle
      cases hidle
    · cases hstep

/-- A disturbed close: the store of the other thread can follow, and undoes it. -/
theorem disturbed_close (h : Final s) (hbad : ¬ s.Undisturbed a) (hstep : s.step a = some s') :
    ∃ t u, s'.step (.base (.store t)) = some u ∧ ¬ StaysClosed u := by
  simp only [Undisturbed, Classical.not_imp, not_forall, not_not] at hbad
  obtain ⟨hcloses, t, c, hstoring⟩ := hbad
  have hread : s.rereading t = false := by
    by_contra ht
    have hidle := h.rereading t (by simpa using ht)
    rw [hstoring] at hidle
    cases hidle
  have hundo : s'.base.conn.stat = .kDisconnected → s'.closed = true → s'.base.calls = s.base.calls →
      s'.rereading = s.rereading → ∃ t u, s'.step (.base (.store t)) = some u ∧ ¬ StaysClosed u := by
    intro _ hclosed hcalls hrereading
    obtain ⟨base, hstore, hbase⟩ : ∃ base, s'.base.step (.store t) = some base ∧
        base.conn.stat = .kDisconnecting := by
      refine ⟨{ s'.base with
        conn := s'.base.conn.setState .kDisconnecting
        calls := Function.update s'.base.calls t (.pushing c) }, ?_, rfl⟩
      simp only [ConnectionLoop.step, hcalls, hstoring]
    refine ⟨t, s'.moved base, ?_, fun hstays => ?_⟩
    · show (if s'.free (some t) && !splits s'.base (.store t) then
        (s'.base.step (.store t)).map s'.moved else none) = _
      rw [hstore, if_pos]
      · rfl
      · simp [free, splits, hrereading, hread]
    · have hd := hstays.1 (by simp [moved, hclosed])
      simp [moved, hbase] at hd
  cases a with
  | base a =>
    simp only [step, Option.ite_none_right_eq_some, Option.map_eq_some_iff] at hstep
    obtain ⟨-, base, hbase, rfl⟩ := hstep
    obtain ⟨hstat, hcalls⟩ := base_closes h.placed.consistent hcloses hbase
    exact hundo hstat (by simp [moved, hstat]) hcalls rfl
  | body =>
    simp only [step] at hstep
    split at hstep
    · next b hpc =>
      obtain ⟨⟨c', es⟩, hbody, hstep⟩ := Option.bind_eq_some_iff.mp hstep
      obtain ⟨base, hperform, rfl⟩ := Option.map_eq_some_iff.mp hstep
      obtain ⟨conn, es', hr, rfl⟩ := ConnectionLoop.perform_eq_some hperform
      obtain ⟨rfl, rfl⟩ := Prod.mk.inj (Option.some.inj hr)
      obtain ⟨-, -, -, hclose, -⟩ := body_spec (T := T) h.established hbody
      have hb : b = .handleClose ∨ b = .disconnect := by simpa [closes, hpc] using hcloses
      exact hundo (hclose hb) (by simp [moved, hclose hb]) rfl rfl
    · cases hstep
  | forceClose | reread | callFunctor | destroy | userCall | loopReread => cases hcloses

/-- A connection just after `connectEstablished`. -/
structure Up (base : ConnectionLoop T) : Prop where
  stat : base.conn.stat = .kConnected
  created : base.created = true
  consistent : base.loop.Consistent
  queue : .connectEstablished ∉ ConnectionLoop.own base.loop.queue
  calls : ∀ t, base.calls t = .idle

/-- `connectEstablished` ends in such a state, wherever the loop was. -/
theorem up_of_connectEstablished {b b' : ConnectionLoop T} {a : ConnectionAction T}
    (h : ConnectionLoop.Placed b) (hstat : b.conn.stat = .kConnecting) (hstep : b.step a = some b')
    (hstat' : b'.conn.stat ≠ .kConnecting) : Up b' := by
  have hplaced := h.step hstep
  cases hcall : b.callOf a with
  | none =>
    obtain ⟨-, hsame | ⟨-, t, c, hstoring, -⟩⟩ := ConnectionLoop.step_of_callOf_none hcall hstep
    · exact absurd (hsame.trans hstat) hstat'
    · rw [(h.connecting hstat).2.2.1 t] at hstoring
      cases hstoring
  | some call =>
    rcases h.first_call hstat hcall hstep with ⟨-, rfl⟩ | ⟨⟨w, rfl⟩, hcreated, -⟩
    · exact absurd hstat hstat'
    · obtain ⟨es, hcalls⟩ := ConnectionLoop.step_of_callOf h.consistent hcall hstep
      refine ⟨(TcpConnection.connectEstablished_eq_some hcalls.exec).1, hcreated, hplaced.consistent,
        hplaced.established hstat', fun t => ?_⟩
      rw [hcalls.calls]
      exact (h.connecting hstat).2.2.1 t

omit [DecidableEq T] in
theorem Up.final {base : ConnectionLoop T} (h : Up base) : Final (start base) := by
  have hlive : base.conn.stat ≠ .kConnecting := by simp [h.stat]
  refine ⟨ConnectionLoop.Placed.advance hlive h.consistent h.created h.queue, hlive, ?_, ?_, ?_,
    Or.inl rfl, ?_⟩
  · simp [start, h.stat]
  · intro hc
    cases hc
  · intro b hb
    cases hb
  · intro t ht
    cases ht

/-- **`kDisconnected` is final**, and a connection is closed by `forceCloseInLoop` at most once, in
every run after `connectEstablished` in which no other thread is between its test of `stat_` and its
store of `kDisconnecting` when the loop thread stores `kDisconnected`.  Where another thread is, its
store can follow, and the connection comes back. -/
theorem disconnected_final (base : ConnectionLoop T) (hbase : Up base) :
    (∀ as t, AllSteps step Undisturbed (start base) as → run step (start base) as = some t →
      StaysClosed t) ∧
    (∀ as s a s', AllSteps step Undisturbed (start base) as → run step (start base) as = some s →
      ¬ Undisturbed s a → s.step a = some s' →
      ∃ t u, s'.step (.base (.store t)) = some u ∧ ¬ StaysClosed u) := by
  constructor
  · intro as t hgood hrun
    exact (run_inv_of_allSteps final_step hbase.final hgood hrun).staysClosed
  · intro as s a s' hgood hrun hbad hstep
    exact disturbed_close (run_inv_of_allSteps final_step hbase.final hgood hrun) hbad hstep

/-! ## Runs -/

/-- A connection that has just been established on descriptor 5, with the loop outside `loop()`. -/
def established : ConnectionLoop Bool :=
  ((run ConnectionLoop.step (ConnectionLoop.start (.new .empty 0 5 false false) false)
    [.establish none]).getD (ConnectionLoop.start (.new .empty 0 5 false false) false))

theorem established_up : Up established :=
  up_of_connectEstablished (.of_fresh (ConnectionLoop.fresh_start 5)) rfl
    (show ConnectionLoop.step _ (.establish none) = some established from rfl) (by decide)

/-- One thread calls `forceClose`, and the loop closes the connection. -/
def closeByForce : List (StatAction Bool) :=
  [.forceClose true, .base (.store true), .base (.push true), .base (.loop .enterLoop),
    .base (.loop .resetQuit), .base (.loop .testQuit), .base (.poll false none),
    .base (.loop .beginFunctors), .base (.loop .swapFunctors), .callFunctor, .loopReread, .body]

/-- Meanwhile another thread is in `shutdown`, between its test and its store.  The connection comes
back, is closed again by `forceClose`, and `forceCloseInLoop` runs `handleClose` once more. -/
def closeAndRevive : List (StatAction Bool) :=
  .base (.test false .shutdown) :: closeByForce ++
    [.base (.store false), .base (.push false), .base (.loop (.wakeup true)), .forceClose true,
      .reread true, .base (.store true), .base (.push true), .base (.loop .endFunctors),
      .base (.loop .destroyFunctors), .base (.loop .testQuit), .base (.poll false none),
      .base (.loop .beginFunctors), .base (.loop .swapFunctors), .base (.callFunctor (.count 0)),
      .callFunctor, .loopReread, .body]

def CallPc.isStoring : CallPc → Bool
  | .storing _ => true
  | _ => false

instance decidableUndisturbed (s : ConnectionState Bool) (a : StatAction Bool) :
    Decidable (s.Undisturbed a) :=
  decidable_of_iff (s.closes a = true → ∀ t, CallPc.isStoring (s.base.calls t) = false)
    ⟨fun h hc t c hs => by simpa [hs, CallPc.isStoring] using h hc t, fun h hc t => by
      cases hs : s.base.calls t with
      | storing c => exact absurd hs (h hc t c)
      | idle | pushing => rfl⟩

theorem disconnected_final_run :
    ∃ t, run step (start established) closeByForce = some t ∧
      t.forced = [.connectionCallback false, .closeCallback] ∧ StaysClosed t := by
  have hall : AllSteps step Undisturbed (start established) closeByForce := by decide +kernel
  refine exists_run_eq ConnectionState.forced _ (by decide +kernel) fun t ht hforced => ⟨hforced, ?_⟩
  exact (disconnected_final established established_up).1 closeByForce t hall ht

theorem revived :
    ∃ t, run step (start established) closeAndRevive = some t ∧
      t.forced = [.connectionCallback false, .closeCallback, .connectionCallback false,
        .closeCallback] ∧
      ¬ Along step StaysClosed (start established) closeAndRevive := by
  refine exists_run_eq ConnectionState.forced _ (by decide +kernel) fun t ht hforced =>
    ⟨hforced, fun halong => ?_⟩
  rcases (along_last halong ht).2 with hf | hf
  · rw [hforced] at hf
    cases hf
  · rw [hforced] at hf
    cases hf

end ConnectionState
end Muduo
