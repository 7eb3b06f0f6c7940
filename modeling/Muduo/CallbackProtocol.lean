import Muduo.ConnectionLoop
import Muduo.OutputStream

/-!
# The callback protocol of a connection

What the user sees of a connection: `connectionCallback` with the connection up, any number of
`messageCallback`s, `connectionCallback` with the connection down.

* `Phase`: the protocol as an automaton over `UserCallback`; `protocol_iff` says which sequences it
  accepts.
* `StateE.phase`: the phase that belongs to a state of the connection.
* `CallbackProtocol`: what the user has seen in a run follows the protocol.
* What the functions of a connection do to its phase, and which of them call the user.
-/

namespace Muduo

open Transition

/-! ## The protocol -/

inductive UserCallback
  | up
  | message
  | down
deriving DecidableEq, Repr

inductive Phase
  | fresh
  | up
  | down
deriving DecidableEq, Repr

def Phase.step : Phase → UserCallback → Option Phase
  | .fresh, .up => some .up
  | .up, .message => some .up
  | .up, .down => some .down
  | _, _ => none

/-- Up, then messages, then down, or a beginning of this. -/
def Protocol (callbacks : List UserCallback) : Prop :=
  callbacks = [] ∨ ∃ n, callbacks = .up :: List.replicate n .message ∨
    callbacks = .up :: List.replicate n .message ++ [.down]

/-- From phase `up` the automaton accepts messages and at most one `down`, the last. -/
theorem run_up_iff {callbacks : List UserCallback} {phase : Phase} :
    run Phase.step .up callbacks = some phase ↔ ∃ n,
      phase = .up ∧ callbacks = List.replicate n .message ∨
      phase = .down ∧ callbacks = List.replicate n .message ++ [.down] := by
  induction callbacks with
  | nil =>
    simp only [run_nil, Option.some.injEq]
    constructor
    · rintro rfl
      exact ⟨0, Or.inl ⟨rfl, rfl⟩⟩
    · rintro ⟨n, ⟨rfl, -⟩ | ⟨-, hnil⟩⟩
      · rfl
      · simp at hnil
  | cons callback callbacks ih =>
    rw [run_cons]
    cases callback with
    | up =>
      simp only [Phase.step, Option.bind_none, reduceCtorEq, false_iff, not_exists]
      intro n
      cases n <;> simp [List.replicate_succ]
    | message =>
      simp only [Phase.step, Option.bind_some, ih]
      constructor
      · rintro ⟨n, h⟩
        refine ⟨n + 1, ?_⟩
        simpa [List.replicate_succ] using h
      · rintro ⟨n, h⟩
        cases n with
        | zero => simp at h
        | succ n => exact ⟨n, by simpa [List.replicate_succ] using h⟩
    | down =>
      simp only [Phase.step, Option.bind_some]
      cases callbacks with
      | nil =>
        simp only [run_nil, Option.some.injEq]
        constructor
        · rintro rfl
          exact ⟨0, Or.inr ⟨rfl, rfl⟩⟩
        · rintro ⟨n, ⟨-, h⟩ | ⟨rfl, -⟩⟩
          · cases n <;> simp [List.replicate_succ] at h
          · rfl
      | cons callback callbacks =>
        constructor
        · intro h
          cases callback <;> simp [Phase.step] at h
        · rintro ⟨n, ⟨-, h⟩ | ⟨-, h⟩⟩
          · cases n <;> simp [List.replicate_succ] at h
          · cases n <;> simp [List.replicate_succ] at h

/-- **The protocol is what the automaton accepts.** -/
theorem protocol_iff (callbacks : List UserCallback) :
    Protocol callbacks ↔ ∃ phase, run Phase.step .fresh callbacks = some phase := by
  cases callbacks with
  | nil => exact ⟨fun _ => ⟨.fresh, rfl⟩, fun _ => Or.inl rfl⟩
  | cons callback callbacks =>
    rw [run_cons]
    cases callback with
    | up =>
      simp only [Phase.step, Option.bind_some, run_up_iff, Protocol, List.cons_append,
        List.cons.injEq, true_and, reduceCtorEq, false_or]
      constructor
      · rintro ⟨n, h | h⟩
        · exact ⟨.up, n, Or.inl ⟨rfl, h⟩⟩
        · exact ⟨.down, n, Or.inr ⟨rfl, h⟩⟩
      · rintro ⟨-, n, ⟨-, h⟩ | ⟨-, h⟩⟩
        · exact ⟨n, Or.inl h⟩
        · exact ⟨n, Or.inr h⟩
    | message | down => simp [Phase.step, Protocol]

/-! ## The callbacks of a run -/

def Effect.userCallback : Effect → Option UserCallback
  | .connectionCallback true => some .up
  | .connectionCallback false => some .down
  | .messageCallback => some .message
  | _ => none

def HistoryEntry.userCallback {T : Type*} : HistoryEntry T → Option UserCallback
  | .did e => e.userCallback
  | _ => none

/-- The phase that belongs to a state of the connection. -/
def StateE.phase : StateE → Phase
  | .kConnecting => .fresh
  | .kConnected | .kDisconnecting => .up
  | .kDisconnected => .down

/-- An effect that is no callback to the user and does not queue a change of the life cycle. -/
def Effect.isQuiet : Effect → Bool
  | .write _ | .shutdownWrite => true
  | .queueInLoop f => f != .connectEstablished && f != .connectDestroyed
  | _ => false

namespace ConnectionLoop

variable {T : Type*}

def userCallbacks (history : List (HistoryEntry T)) : List UserCallback :=
  history.filterMap HistoryEntry.userCallback

/-- `connectDestroyed` has run. -/
def Destroyed (history : List (HistoryEntry T)) : Prop :=
  ∃ source, .ran source .connectDestroyed ∈ history

/-- The user sees the protocol, and once `connectDestroyed` has run after `up`, `down` has been
called exactly once. -/
def CallbackProtocol (s : ConnectionLoop T) : Prop :=
  Protocol (userCallbacks s.history) ∧
    (Destroyed s.history → .up ∈ userCallbacks s.history →
      (userCallbacks s.history).count .down = 1)

/-- The functors in a queue that are bound to the connection. -/
def own (tasks : List (Task T)) : List ConnFunctor := tasks.filterMap Task.functor

@[simp] theorem userCallbacks_append (h h' : List (HistoryEntry T)) :
    userCallbacks (h ++ h') = userCallbacks h ++ userCallbacks h' := by
  simp [userCallbacks]

theorem destroyed_append (h h' : List (HistoryEntry T)) :
    Destroyed (h ++ h') ↔ Destroyed h ∨ Destroyed h' := by
  simp [Destroyed, exists_or]

@[simp] theorem own_append (tasks tasks' : List (Task T)) :
    own (tasks ++ tasks') = own tasks ++ own tasks' := by
  simp [own]

theorem userCallbacks_of_isQuiet {es : List Effect} (h : ∀ e ∈ es, e.isQuiet = true) :
    userCallbacks (es.map (HistoryEntry.did : Effect → HistoryEntry T)) = [] := by
  rw [userCallbacks, List.filterMap_eq_nil_iff]
  intro entry hentry
  obtain ⟨e, he, rfl⟩ := List.mem_map.mp hentry
  have := h e he
  cases e <;> simp_all [Effect.isQuiet, HistoryEntry.userCallback, Effect.userCallback]

theorem not_destroyed_did (es : List Effect) :
    ¬ Destroyed (es.map (HistoryEntry.did : Effect → HistoryEntry T)) := by
  simp [Destroyed]

theorem own_queuedTasks_of_isQuiet {es : List Effect} (h : ∀ e ∈ es, e.isQuiet = true) :
    .connectEstablished ∉ own (queuedTasks T es) := by
  intro hmem
  obtain ⟨task, htask, hf⟩ := List.mem_filterMap.mp hmem
  obtain ⟨e, he, heq⟩ := List.mem_filterMap.mp htask
  have := h e he
  cases e with
  | queueInLoop f =>
    obtain rfl := Option.some.inj heq
    obtain rfl := Option.some.inj hf
    simp [Effect.isQuiet] at this
  | _ => cases heq

end ConnectionLoop

/-! ## What the calls do to the state -/

theorem Effect.isQuiet_of_isOutput {e : Effect} (h : e.isOutput = true) : e.isQuiet = true := by
  cases e with
  | queueInLoop f => cases f <;> simp_all [Effect.isOutput, Effect.isQuiet]
  | _ => simp_all [Effect.isOutput, Effect.isQuiet]

namespace TcpConnection

variable {c c' : TcpConnection} {w : WriteResult} {es : List Effect}

theorem handleClose_eq_some (h : c.handleClose = some (c', es)) :
    c'.stat = .kDisconnected ∧ es = [.connectionCallback false, .closeCallback] := by
  simp only [handleClose, Option.bind_eq_bind, Option.bind_eq_some_iff, Option.some.injEq,
    Prod.mk.injEq] at h
  obtain ⟨c₁, hch, rfl, rfl⟩ := h
  obtain ⟨poller, channel, -, rfl⟩ := withChannel_eq_some.mp hch
  exact ⟨rfl, rfl⟩

theorem connectEstablished_eq_some (h : c.connectEstablished = some (c', es)) :
    c'.stat = .kConnected ∧ es = [.connectionCallback true] := by
  simp only [connectEstablished, Option.bind_eq_bind, Option.bind_eq_some_iff, Option.some.injEq,
    Prod.mk.injEq] at h
  obtain ⟨c₁, hch, rfl, rfl⟩ := h
  obtain ⟨poller, channel, -, rfl⟩ := withChannel_eq_some.mp hch
  exact ⟨rfl, rfl⟩

/-- `connectDestroyed` calls `connectionCallback_` in state `kConnected` only. -/
theorem connectDestroyed_eq_some (h : c.connectDestroyed = some (c', es)) :
    c.stat = .kConnected ∧ c'.stat = .kDisconnected ∧ es = [.connectionCallback false] ∨
      c.stat ≠ .kConnected ∧ c'.stat = c.stat ∧ es = [] := by
  simp only [connectDestroyed, Option.bind_eq_bind, Option.bind_eq_some_iff, Prod.exists,
    Option.some.injEq, Prod.mk.injEq] at h
  obtain ⟨c₁, es₁, hdown, c₂, hch, rfl, rfl⟩ := h
  obtain ⟨poller, channel, -, rfl⟩ := withChannel_eq_some.mp hch
  simp only [downIfConnected] at hdown
  split at hdown
  · next hstat =>
    simp only [Option.bind_eq_bind, Option.bind_eq_some_iff, Option.some.injEq, Prod.mk.injEq] at hdown
    obtain ⟨c₃, hch', rfl, rfl⟩ := hdown
    obtain ⟨poller', channel', -, rfl⟩ := withChannel_eq_some.mp hch'
    exact Or.inl ⟨hstat, rfl, rfl⟩
  · next hstat =>
    cases hdown
    exact Or.inr ⟨hstat, rfl, rfl⟩

theorem sendInLoop_phase {data : List UInt8} (h : c.sendInLoop data w = some (c', es)) :
    c'.stat.phase = c.stat.phase := by
  by_cases hc : c.stat = .kDisconnected
  · rw [sendInLoop, if_pos hc] at h
    cases h
    rfl
  · rw [(sendInLoop_stream hc h).2]

theorem shutdownInLoop_quiet (h : c.shutdownInLoop = some (c', es)) :
    c' = c ∧ ∀ e ∈ es, e.isQuiet = true := by
  unfold shutdownInLoop at h
  split at h <;> cases h <;> exact ⟨rfl, by simp [Effect.isQuiet]⟩

theorem outputDrained_output (h : c.outputDrained = some (c', es)) :
    ∀ e ∈ es, e.isOutput = true ∨ e = .shutdownWrite := by
  obtain ⟨out, hout, rfl⟩ := outputDrained_effects h
  intro e he
  rcases List.mem_append.mp he with he | he
  · exact Or.inl (hout e he)
  · split at he
    · exact Or.inr (List.mem_singleton.mp he)
    · cases he

/-- `handleWrite` writes, notifies and shuts the socket, and does nothing else. -/
theorem handleWrite_output (h : c.handleWrite w = some (c', es)) :
    ∀ e ∈ es, e.isOutput = true ∨ e = .shutdownWrite := by
  unfold handleWrite at h
  split at h
  · cases w with
    | error e =>
      cases h
      simp
    | count n =>
      simp only at h
      split at h
      · split at h
        · simp only [Option.bind_eq_bind, Option.bind_eq_some_iff, Prod.exists, Option.some.injEq,
            Prod.mk.injEq] at h
          obtain ⟨c₁, es', hd, rfl, rfl⟩ := h
          exact List.forall_mem_cons.mpr ⟨Or.inl rfl, outputDrained_output hd⟩
        · cases h
          simp [Effect.isOutput]
      · cases h
        simp [Effect.isOutput]
  · cases h
    simp

theorem handleWrite_quiet (h : c.handleWrite w = some (c', es)) : ∀ e ∈ es, e.isQuiet = true := by
  intro e he
  rcases handleWrite_output h e he with hout | rfl
  · exact Effect.isQuiet_of_isOutput hout
  · rfl

end TcpConnection
end Muduo
