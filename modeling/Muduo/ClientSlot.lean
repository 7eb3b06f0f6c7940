import Muduo.TcpClient

/-!
# The connection slot of a client

`connection_` is assigned by `newConnection` and reset by `removeConnection` without a look at what it
holds.  It is right as long as the connector delivers one connection at a time:

    connection_ = the one open connection, or null if there is none    (slot_right)

* `SingleAttempt`: the condition.  No attempt begins while a connection is open (`Connector::connect`
  does not ask, and a timer of `retry` outlives `stop`), and `closeCallback_` does not run again for a
  closed connection while another one is open.
* A timer that is left over from before a `stop` begins a second attempt when `connect` has been called
  meanwhile, and the second connection takes the place of the first (`second_connection_overwrites`).
-/

namespace Muduo
namespace ClientLoop

open Transition

variable {T : Type*}

/-- The connection that `removeConnection` is called for. -/
def removes : ClientAction T → Option Nat
  | .closeCallback conn _ => some conn
  | _ => none

/-- `connection_` is the one open connection, or null if there is none. -/
structure SlotRight (s : ClientLoop T) : Prop where
  slot : ∀ conn, s.client.connection_ = some conn ↔ s.IsOpen conn
  unique : ∀ conn conn', s.IsOpen conn → s.IsOpen conn' → conn = conn'

/-- A new connection overwrites no open one, and a removal resets nothing but its own connection. -/
structure Respects (s : ClientLoop T) (a : ClientAction T) (s' : ClientLoop T) : Prop where
  overwrites : s'.ups ≠ s.ups → ∀ conn, s.client.connection_ = some conn → s.conns conn = some .closed
  resets : ∀ conn, removes a = some conn →
    s.client.connection_ = none ∨ s.client.connection_ = some conn

/-- No attempt begins, and no connection is removed twice, while a connection is open. -/
def SingleAttempt (s : ClientLoop T) (a : ClientAction T) : Prop :=
  ((s.attempt a).any (·.outcome == .connecting) = true → ∀ conn < s.created, ¬ s.IsOpen conn) ∧
    ((removes a).bind s.conns = some .closed → ∀ conn < s.created, ¬ s.IsOpen conn)

instance (s : ClientLoop T) (a : ClientAction T) : Decidable (s.SingleAttempt a) :=
  inferInstanceAs (Decidable (_ ∧ _))

/-! ## The invariant -/

structure Slot (s : ClientLoop T) : Prop where
  consistent : s.base.loop.Consistent
  slot : ∀ conn, s.client.connection_ = some conn ↔ s.IsOpen conn
  /-- an attempt in progress has the slot for itself -/
  flying : s.base.conn.state = .kConnecting → ∀ conn, ¬ s.IsOpen conn
  created : ∀ conn, s.conns conn = none ↔ s.created ≤ conn

theorem Slot.right {s : ClientLoop T} (h : Slot s) : SlotRight s := by
  refine ⟨h.slot, fun conn conn' hopen hopen' => ?_⟩
  have hslot := (h.slot conn).mpr hopen
  rw [(h.slot conn').mpr hopen', Option.some.injEq] at hslot
  exact hslot.symm

theorem slot_start {loop : EventLoop T (Option ConnectorFunctor)} (hc : loop.Consistent)
    (poller : EPollPoller) : Slot (start loop poller) := by
  refine ⟨hc, ?_, ?_, ?_⟩
  · intro conn
    simp [start, IsOpen]
  · intro hstate
    cases hstate
  · intro conn
    simp [start]

theorem Slot.lt_created {s : ClientLoop T} (h : Slot s) {conn : Nat} (hopen : s.IsOpen conn) :
    conn < s.created := by
  by_contra hge
  have hnone := (h.created conn).mpr (Nat.not_lt.mp hge)
  rcases hopen with hopen | hopen <;> rw [hnone] at hopen <;> cases hopen

variable {s s' : ClientLoop T} {conn : Nat}

/-- A step of the connector that begins no attempt while a connection is open. -/
theorem Slot.of_base (h : Slot s) (hconns : s'.conns = s.conns) (hcreated : s'.created = s.created)
    (hslot : s'.client.connection_ = s.client.connection_) (hc : s'.base.loop.Consistent)
    (hflying : s'.base.conn.state = .kConnecting → ∀ conn, ¬ s.IsOpen conn) : Slot s' := by
  have hopen : ∀ conn, s'.IsOpen conn ↔ s.IsOpen conn := by
    intro conn
    unfold IsOpen
    rw [hconns]
  refine ⟨hc, ?_, ?_, ?_⟩
  · intro conn
    rw [hslot, hopen]
    exact h.slot conn
  · intro hstate conn
    rw [hopen]
    exact hflying hstate conn
  · rw [hconns, hcreated]
    exact h.created

theorem isOpen_newConnection : s.newConnection.IsOpen conn ↔ conn = s.created ∨
    conn ≠ s.created ∧ s.IsOpen conn := by
  unfold IsOpen newConnection
  by_cases hconn : conn = s.created
  · simp [hconn]
  · simp [hconn]

/-- A connection comes up when none is open. -/
theorem Slot.newConnection (h : Slot s) (hnone : ∀ conn, ¬ s.IsOpen conn) {base : ConnectorLoop T}
    (hc : base.loop.Consistent) (hstate : base.conn.state ≠ .kConnecting) :
    Slot { s with base }.newConnection := by
  have hnumbered : Numbered { s with base } := h.created
  refine ⟨hc, ?_, fun hconnecting => absurd hconnecting hstate, hnumbered.newConnection⟩
  · intro conn
    rw [isOpen_newConnection]
    constructor
    · intro hslot
      exact Or.inl (Option.some.inj hslot).symm
    · rintro (rfl | ⟨-, hopen⟩)
      · rfl
      · exact absurd hopen (hnone conn)

theorem Slot.handleClose (h : Slot s) (hlt : conn < s.created) : Slot (s.handleClose conn) := by
  have hnumbered : Numbered s := h.created
  have hopen := hnumbered.isOpen_handleClose hlt
  refine ⟨h.consistent, ?_, ?_, hnumbered.update hlt _ rfl rfl⟩
  · intro conn'
    rw [hopen]
    exact h.slot conn'
  · intro hstate conn'
    rw [hopen]
    exact h.flying hstate conn'

variable [DecidableEq T]

/-- After a removal nothing is open. -/
theorem Slot.dropConnection (h : Slot s) (hlt : conn < s.created)
    (hnone : ∀ conn', s.IsOpen conn' → conn' = conn) :
    Slot (s.dropConnection conn) ∧ ∀ conn', ¬ (s.dropConnection conn).IsOpen conn' := by
  have hclosed : ∀ conn', ¬ (s.dropConnection conn).IsOpen conn' := by
    intro conn'
    unfold IsOpen ClientLoop.dropConnection
    by_cases hconn : conn' = conn
    · simp [hconn]
    · intro hopen
      simp only [Function.update_of_ne hconn] at hopen
      exact hconn (hnone conn' hopen)
  have hnumbered : Numbered s := h.created
  refine ⟨⟨dropConnection_consistent h.consistent conn, ?_, fun _ => hclosed,
    hnumbered.update hlt _ rfl rfl⟩, hclosed⟩
  intro conn'
  constructor
  · intro hslot
    cases hslot
  · intro hopen
    exact absurd hopen (hclosed conn')

/-! ## Steps -/

variable {a : ClientAction T} {r : Attempt}

omit [DecidableEq T] in
theorem SingleAttempt.not_open (hg : s.SingleAttempt a) (h : Slot s) (ha : s.attempt a = some r)
    (hout : r.outcome = .connecting) (conn : Nat) : ¬ s.IsOpen conn := by
  intro hopen
  refine hg.1 ?_ conn (h.lt_created hopen) hopen
  rw [ha, Option.any_some, hout]
  rfl

/-- A step of the connector that delivers nothing. -/
theorem Slot.of_steps (h : Slot s) {b : ConnectorAction T} {es : List ConnectorEffect}
    (hsteps : s.base.Steps b es s'.base) (hnone : es.countP ConnectorEffect.isNewConnection = 0)
    (hbegins : ∀ r, s.base.attempt b = some r → r.outcome = .connecting → ∀ conn, ¬ s.IsOpen conn)
    (hconns : s'.conns = s.conns) (hcreated : s'.created = s.created)
    (hslot : s'.client.connection_ = s.client.connection_) : Slot s' := by
  refine h.of_base hconns hcreated hslot hsteps.consistent ?_
  intro hstate
  rcases hsteps.delivery with ⟨-, hflying⟩ | ⟨hone, -⟩
  · rcases hflying hstate with hold | ⟨r, ha, hout⟩
    · exact h.flying hold
    · exact hbegins r ha hout
  · omega

theorem slot_base {b : ConnectorAction T} (h : Slot s) (hg : s.SingleAttempt (.base b))
    (hs : s.step (.base b) = some s') : Slot s' ∧
      (s'.ups ≠ s.ups → ∀ conn, ¬ s.IsOpen conn) := by
  obtain ⟨-, hbase⟩ := moves_of_step hs
  obtain ⟨es, hsteps⟩ := ConnectorLoop.step_result h.consistent hbase
  rw [hsteps.effects]
  rcases hsteps.delivery with ⟨hnone, -⟩ | ⟨hone, hstate, -, hdone⟩
  · rw [deliver_of_countP hnone]
    refine ⟨?_, fun hups => absurd rfl hups⟩
    refine Slot.of_steps h hsteps hnone ?_ rfl rfl rfl
    intro r ha hout
    exact hg.not_open h (r := r) ha hout
  · rw [deliver_of_countP_one hone]
    have hclear := h.flying hstate
    exact ⟨h.newConnection hclear hsteps.consistent hdone, fun _ => hclear⟩

theorem slot_connect (h : Slot s) (hg : s.SingleAttempt (.connect r)) {base : ConnectorLoop T}
    (hbase : s.base.step (.start r) = some base) : Slot ({ s with base }.setConnect true) := by
  obtain ⟨es, hsteps⟩ := ConnectorLoop.step_result h.consistent hbase
  have hcall := hsteps.connect (r := r) rfl
  refine Slot.of_steps h hsteps (Connector.connect_spec hcall).1 ?_ rfl rfl rfl
  intro r' ha hout
  cases ha
  exact hg.not_open h rfl hout

omit [DecidableEq T] in
/-- `removeConnection` finds its own connection in the slot, or nothing. -/
theorem SingleAttempt.only (hg : s.SingleAttempt (.closeCallback conn r)) (h : Slot s)
    (hlt : conn < s.created) (hup : s.conns conn ≠ some .up) (conn' : Nat) (hopen : s.IsOpen conn') :
    conn' = conn := by
  cases hstatus : s.conns conn with
  | none =>
    have := (h.created conn).mp hstatus
    omega
  | some status =>
    cases status with
    | up => exact absurd hstatus hup
    | down => exact h.right.unique conn' conn hopen (Or.inr hstatus)
    | closed => exact absurd hopen (hg.2 hstatus conn' (h.lt_created hopen))

/-- A call on another thread, or one that only sets flags. -/
theorem slot_of_sets {b : ConnectorAction T} {base : ConnectorLoop T} (h : Slot s)
    (hset : ConnectorLoop.setsConnect b = true) (hbase : s.base.step b = some base)
    (hb : s'.base = base) (hconns : s'.conns = s.conns) (hcreated : s'.created = s.created)
    (hslot : s'.client.connection_ = s.client.connection_) : Slot s' := by
  obtain ⟨es, hsteps⟩ := ConnectorLoop.step_result h.consistent hbase
  subst hb
  refine h.of_base hconns hcreated hslot hsteps.consistent fun hstate => ?_
  rw [(hsteps.sets hset).1] at hstate
  exact h.flying hstate

/-- `closeCallback_` is called in `handleClose`. -/
theorem closes_of_step (hs : s.step (.closeCallback conn r) = some s') :
    conn < s.created ∧ s.conns conn ≠ some .up := by
  cases moves_of_step hs with
  | closeCallback hlt hup | restart hlt hup => exact ⟨hlt, hup⟩

theorem slot_step (s : ClientLoop T) (a : ClientAction T) (s' : ClientLoop T) (h : Slot s)
    (hg : s.SingleAttempt a) (hs : s.step a = some s') : Slot s' := by
  have hflags : s'.base = s.base → s'.conns = s.conns → s'.created = s.created →
      s'.client.connection_ = s.client.connection_ → Slot s' := by
    intro hbase hconns hcreated hslot
    refine h.of_base hconns hcreated hslot ?_ ?_
    · rw [hbase]
      exact h.consistent
    · rw [hbase]
      exact h.flying
  cases moves_of_step hs with
  | base => exact (slot_base h hg hs).1
  | connect hbase => exact slot_connect h hg hbase
  | stop hbase => exact slot_of_sets h rfl hbase rfl rfl rfl rfl
  | disconnect | enableRetry | storeConnect | storeDisconnect | storeStop | storeRetry =>
    exact hflags rfl rfl rfl rfl
  | callStart _ hbase | callStop _ hbase => exact slot_of_sets h rfl hbase rfl rfl rfl rfl
  | handleClose hlt => exact h.handleClose hlt
  | closeCallback hlt hup => exact (h.dropConnection hlt (hg.only h hlt hup)).1
  | restart hlt hup _ hbase =>
    obtain ⟨hslot, hclosed⟩ := h.dropConnection hlt (hg.only h hlt hup)
    obtain ⟨es, hsteps⟩ := ConnectorLoop.step_result hslot.consistent hbase
    exact hslot.of_base rfl rfl rfl hsteps.consistent fun _ => hclosed

/-! ## Every run -/

/-- Only a step of the connector makes a connection. -/
theorem ups_step (ha : ∀ b, a ≠ .base b) (hs : s.step a = some s') : s'.ups = s.ups := by
  cases moves_of_step hs with
  | base => exact absurd rfl (ha _)
  | _ => rfl

theorem Slot.respects (h : Slot s) (hg : s.SingleAttempt a) (hs : s.step a = some s') :
    Respects s a s' := by
  constructor
  · intro hups conn hslot
    exfalso
    cases a with
    | base b => exact (slot_base h hg hs).2 hups conn ((h.slot conn).mp hslot)
    | _ => exact hups (ups_step (fun b hb => by cases hb) hs)
  · intro conn hremoves
    cases a with
    | closeCallback conn' r =>
      cases hremoves
      obtain ⟨hlt, hup⟩ := closes_of_step hs
      cases hslot : s.client.connection_ with
      | none => exact Or.inl rfl
      | some held =>
        right
        rw [hg.only h hlt hup held ((h.slot held).mp hslot)]
    | _ => cases hremoves

/-- **The slot is right.**  In a run in which no attempt begins, and no connection is removed twice, while
a connection is open: `connection_` is the one open connection, or null if there is none; a new
connection overwrites no open one; and `removeConnection` finds its own connection in the slot, or
nothing. -/
theorem slot_right (loop : EventLoop T (Option ConnectorFunctor)) (poller : EPollPoller)
    (hc : loop.Consistent) (as : List (ClientAction T)) (t : ClientLoop T)
    (hcond : AllSteps step SingleAttempt (start loop poller) as)
    (hrun : run step (start loop poller) as = some t) :
    SlotRight t ∧ ∀ a t', t.SingleAttempt a → t.step a = some t' → Respects t a t' := by
  have ht := run_inv_of_allSteps slot_step (slot_start hc poller) hcond hrun
  exact ⟨ht.right, fun a t' hg hs => ht.respects hg hs⟩

/-- A connection is closed by the peer, and the retry brings another. -/
def closedAndRetried : List (ClientAction Unit) :=
  [.enableRetry, .connect ⟨5, 0, some .EINPROGRESS⟩, .base (.loop .enterLoop),
    .base (.loop .resetQuit), .base (.loop .testQuit), .base (.loop (.pollReturns false)),
    .base (.handleWriter none false), .base (.loop .beginFunctors), .base (.loop .swapFunctors),
    .base (.callFunctor ⟨6, 1, none⟩), .base (.loop .endFunctors), .base (.loop .destroyFunctors),
    .base (.loop .testQuit), .base (.loop (.pollReturns false)), .handleClose 0,
    .closeCallback 0 ⟨6, 1, some .EINPROGRESS⟩, .base (.handleWriter none false)]

theorem slot_right_run :
    ∃ t, run step (start .new .empty) closedAndRetried = some t ∧
      t.client.connection_ = some 1 ∧ t.IsOpen 1 ∧ ¬ t.IsOpen 0 := by
  have hcond : AllSteps step SingleAttempt (start .new .empty) closedAndRetried := by
    decide +kernel
  refine exists_run_eq (fun t => t.client.connection_) (some 1) (by decide +kernel)
    fun t ht hend => ⟨hend, ?_⟩
  have hright := (slot_right .new .empty EventLoop.consistent_new _ t hcond ht).1
  have hopen := (hright.slot 1).mp hend
  exact ⟨hopen, fun hopen' => absurd (hright.unique 0 1 hopen' hopen) (by decide)⟩

/-- `connect` is refused; `stop`, and `connect` again before the timer of `retry` expires: that timer
begins another attempt, and its connection takes the place of the one that is UP. -/
theorem second_connection_overwrites :
    ∃ t : ClientLoop Unit, run step (start .new .empty)
        [.connect ⟨5, 0, some .ECONNREFUSED⟩, .base (.loop .enterLoop), .base (.loop .resetQuit),
          .base (.loop .testQuit), .base (.loop (.pollReturns false)), .stop,
          .base (.loop .beginFunctors), .base (.loop .swapFunctors),
          .base (.callFunctor ⟨5, 0, none⟩), .base (.loop .endFunctors),
          .base (.loop .destroyFunctors), .base (.loop .testQuit),
          .base (.loop (.pollReturns false)), .connect ⟨5, 1, some .EINPROGRESS⟩,
          .base (.handleWriter none false), .base (.loop .beginFunctors),
          .base (.loop .swapFunctors), .base (.callFunctor ⟨6, 2, none⟩),
          .base (.loop .endFunctors), .base (.loop .destroyFunctors), .base (.loop .testQuit),
          .base (.loop (.pollReturns false)), .base (.timer ⟨6, 2, some .EINPROGRESS⟩),
          .base (.handleWriter none false)] = some t ∧
      t.conns 0 = some .up ∧ t.client.connection_ = some 1 ∧ ¬ SlotRight t := by
  refine exists_run_eq (fun t => (t.conns 0, t.client.connection_)) (some .up, some 1)
    (by decide +kernel) fun t _ hend => ?_
  rw [Prod.mk.injEq] at hend
  refine ⟨hend.1, hend.2, fun hright => ?_⟩
  have hslot := (hright.slot 0).mpr (Or.inl hend.1)
  rw [hend.2] at hslot
  cases hslot

end ClientLoop
end Muduo
