import Muduo.ActivePass

/-!
# Channels removed during a pass

`loop()` walks over raw pointers.  A handler that removes a channel whose pointer is still to come
leaves it there, and `loop()` calls `handleEvent` on it.

Closing defers the removal to the functors, which run after the pass, and a connector removes the
channel that is being handled.  What removes other channels at once is `~TcpServer`: it runs
`connectDestroyed` for its connections and destroys the acceptor on the spot.  So

    in whole iterations loop() calls handleEvent on no removed channel   iff
        no server is destroyed of which a channel is still to come       (no_event_after_removal_iff)

and, as a pointer of a freed channel may be reported besides the one that has taken its place, no
connector removes its channel while the channel is listed again.

* `doomed`: the channels removed, and those that a `~TcpServer` under way is still going to remove.
-/

namespace Muduo

open Transition

namespace LoopPass

/-! ## Doomed channels -/

/-- The channels that the rest of a function is going to remove. -/
def frameChannels (s : LoopPass) : PassFrame → List Nat
  | .closeCallback _ => []
  | .removeChannel i => [s.addrOf i]
  | .walk k connections =>
    connections.map s.addrOf ++ ((s.servers k).map fun server => server.acceptChannel.addr).toList

def doomed (s : LoopPass) : List Nat := s.removed ++ s.frames.flatMap s.frameChannels

/-- The channels of a server without sub-loops: its acceptor's and its connections'. -/
def channelsOf (s : LoopPass) (k : Nat) : List Nat :=
  match s.servers k with
  | none => []
  | some server => s.frameChannels (.walk k server.connections)

/-- The channel that a handler of connector `j` removes. -/
def connectorChannel (s : LoopPass) (j : Nat) : List Nat :=
  match s.connectors j with
  | none => []
  | some c => if c.state = .kConnecting then (c.channel.map Channel.addr).toList else []

/-- The channels that a step dooms. -/
def condemns (s : LoopPass) : PassAction → List Nat
  | .destroyServer k => s.channelsOf k
  | .handleWriter j _ _ _ | .handleError j => s.connectorChannel j
  | _ => []

/-- The condition on a step: none of the channels it dooms is still to come in the pass. -/
def SparesActive (s : LoopPass) (a : PassAction) : Prop := ∀ addr ∈ s.condemns a, addr ∉ s.active

/-- `loop()` does not call `handleEvent` on a channel removed in this pass. -/
def CallsPresent (s : LoopPass) (a : PassAction) : Prop :=
  a = .handleEvent → ∀ addr ∈ s.active.head?, addr ∉ s.removed

variable {s s' s'' : LoopPass} {l l' : List Nat}

theorem mem_doomed {addr : Nat} :
    addr ∈ s.doomed ↔ addr ∈ s.removed ∨ ∃ f ∈ s.frames, addr ∈ s.frameChannels f := by
  rw [doomed, List.mem_append, List.mem_flatMap]

/-- A server whose destructor is under way is still in its place. -/
def Walks (s : LoopPass) : Prop :=
  ∀ k connections, .walk k connections ∈ s.frames → (s.servers k).isSome = true

/-- The step dooms the channels `l`, and keeps the pass where it is. -/
structure Condemns (s s' : LoopPass) (l : List Nat) : Prop where
  phase : s'.phase = s.phase
  active : s'.active = s.active
  doomed : ∀ addr, addr ∈ s'.doomed ↔ addr ∈ s.doomed ∨ addr ∈ l
  walks : Walks s → Walks s'

theorem Condemns.trans (h : Condemns s s' l) (h' : Condemns s' s'' l') :
    Condemns s s'' (l ++ l') := by
  refine ⟨h'.phase.trans h.phase, h'.active.trans h.active, ?_, fun hw => h'.walks (h.walks hw)⟩
  intro addr
  rw [h'.doomed, h.doomed, List.mem_append, or_assoc]

/-! ## Functions without a frame of their own -/

/-- The function removes the channels `l`.  It may come to `closeCallback_`; the rest of the stack, the
addresses and the acceptors it leaves alone. -/
structure Calls (s s' : LoopPass) (l : List Nat) : Prop where
  phase : s'.phase = s.phase
  active : s'.active = s.active
  removed : s'.removed = s.removed ++ l
  addrs : ∀ i, s'.addrOf i = s.addrOf i
  acceptors : ∀ k, (s'.servers k).map (fun server => server.acceptChannel.addr) =
    (s.servers k).map fun server => server.acceptChannel.addr
  frames : ∃ is : List Nat, s'.frames = is.map .closeCallback ++ s.frames

theorem Calls.of_eq (hphase : s'.phase = s.phase) (hactive : s'.active = s.active)
    (hremoved : s'.removed = s.removed) (hconns : s'.conns = s.conns) (hservers : s'.servers = s.servers)
    (hframes : s'.frames = s.frames) : Calls s s' [] := by
  refine ⟨hphase, hactive, ?_, ?_, ?_, [], hframes⟩
  · rw [hremoved, List.append_nil]
  · intro i
    rw [addrOf, addrOf, hconns]
  · intro k
    rw [hservers]

theorem Calls.refl (s : LoopPass) : Calls s s [] :=
  Calls.of_eq rfl rfl rfl rfl rfl rfl

theorem Calls.trans (h : Calls s s' l) (h' : Calls s' s'' l') : Calls s s'' (l ++ l') := by
  refine ⟨h'.phase.trans h.phase, h'.active.trans h.active, ?_, ?_, ?_, ?_⟩
  · rw [h'.removed, h.removed, List.append_assoc]
  · exact fun i => (h'.addrs i).trans (h.addrs i)
  · exact fun k => (h'.acceptors k).trans (h.acceptors k)
  · obtain ⟨is, hframes⟩ := h.frames
    obtain ⟨is', hframes'⟩ := h'.frames
    refine ⟨is' ++ is, ?_⟩
    rw [hframes', hframes, List.map_append, List.append_assoc]

theorem Calls.frameChannels (h : Calls s s' l) (f : PassFrame) :
    s'.frameChannels f = s.frameChannels f := by
  cases f with
  | closeCallback i => rfl
  | removeChannel i =>
    show [s'.addrOf i] = [s.addrOf i]
    rw [h.addrs]
  | walk k connections =>
    show connections.map s'.addrOf ++ _ = connections.map s.addrOf ++ _
    rw [h.acceptors, funext h.addrs]

theorem Calls.isSome (h : Calls s s' l) (k : Nat) :
    (s'.servers k).isSome = (s.servers k).isSome := by
  have hmap := congrArg Option.isSome (h.acceptors k)
  rw [Option.isSome_map, Option.isSome_map] at hmap
  exact hmap

theorem Calls.condemns (h : Calls s s' l) : Condemns s s' l := by
  obtain ⟨is, hframes⟩ := h.frames
  refine ⟨h.phase, h.active, ?_, ?_⟩
  · intro addr
    rw [mem_doomed, mem_doomed, h.removed, hframes, List.mem_append]
    constructor
    · rintro ((hmem | hmem) | ⟨f, hf, hmem⟩)
      · exact Or.inl (Or.inl hmem)
      · exact Or.inr hmem
      · rw [h.frameChannels] at hmem
        rcases List.mem_append.mp hf with hf | hf
        · obtain ⟨i, -, rfl⟩ := List.mem_map.mp hf
          cases hmem
        · exact Or.inl (Or.inr ⟨f, hf, hmem⟩)
    · rintro ((hmem | ⟨f, hf, hmem⟩) | hmem)
      · exact Or.inl (Or.inl hmem)
      · refine Or.inr ⟨f, List.mem_append_right _ hf, ?_⟩
        rw [h.frameChannels]
        exact hmem
      · exact Or.inl (Or.inr hmem)
  · intro hw k connections hmem
    rw [hframes] at hmem
    rw [h.isSome]
    rcases List.mem_append.mp hmem with hmem | hmem
    · obtain ⟨i, -, heq⟩ := List.mem_map.mp hmem
      cases heq
    · exact hw k connections hmem

/-- The channels of a frame are doomed when it is pushed. -/
theorem condemns_pushFrame (f : PassFrame)
    (hf : ∀ k connections, f = .walk k connections → (s.servers k).isSome = true) :
    Condemns s (s.pushFrame f) (s.frameChannels f) := by
  refine ⟨rfl, rfl, ?_, ?_⟩
  · intro addr
    rw [mem_doomed, mem_doomed]
    constructor
    · rintro (hmem | ⟨f', hf', hmem⟩)
      · exact Or.inl (Or.inl hmem)
      · rcases List.mem_cons.mp hf' with rfl | hf'
        · exact Or.inr hmem
        · exact Or.inl (Or.inr ⟨f', hf', hmem⟩)
    · rintro ((hmem | ⟨f', hf', hmem⟩) | hmem)
      · exact Or.inl hmem
      · exact Or.inr ⟨f', List.mem_cons_of_mem _ hf', hmem⟩
      · exact Or.inr ⟨f, List.mem_cons_self, hmem⟩
  · intro hw k connections hmem
    rcases List.mem_cons.mp hmem with heq | hmem
    · exact hf k connections heq.symm
    · exact hw k connections hmem

theorem addrs_setConn {i : Nat} {c : TcpConnection} (haddr : c.channel.addr = s.addrOf i) (i' : Nat) :
    (s.setConn i c).addrOf i' = s.addrOf i' := by
  by_cases hi : i' = i
  · subst hi
    simp only [addrOf, setConn, Function.update_self]
    exact haddr
  · simp only [addrOf, setConn, Function.update_of_ne hi]

theorem calls_effect (s : LoopPass) (i : Nat) (e : Effect) : Calls s (s.effect i e) [] := by
  cases e with
  | closeCallback => exact ⟨rfl, rfl, (List.append_nil _).symm, fun _ => rfl, fun _ => rfl, [i], rfl⟩
  | queueInLoop f => exact Calls.of_eq rfl rfl rfl rfl rfl rfl
  | write | shutdownWrite | connectionCallback | messageCallback => exact Calls.refl s

theorem calls_effects (i : Nat) (es : List Effect) :
    ∀ s : LoopPass, Calls s (es.foldl (fun s e => s.effect i e) s) [] := by
  induction es with
  | nil => exact Calls.refl
  | cons e es ih => exact fun s => (calls_effect s i e).trans (ih _)

/-- Of the functions of a connection only `connectDestroyed` calls `remove`. -/
theorem remove_notMem_pollerCalls (c : TcpConnection) {call : ConnCall}
    (hcall : ∀ w, call ≠ .functor .connectDestroyed w) :
    (c.pollerCalls call).filter (· == .remove) = [] := by
  rw [List.filter_eq_nil_iff]
  have hsend : ∀ data w, .remove ∉ c.sendCalls data w := by
    intro data w
    unfold TcpConnection.sendCalls
    dsimp only
    split
    · simp
    · split
      · simp
      · simp
  have hnot : .remove ∉ c.pollerCalls call := by
    cases call with
    | functor f w =>
      cases f with
      | connectDestroyed => exact absurd rfl (hcall w)
      | sendInLoop data => exact hsend data w
      | forceCloseInLoop =>
        simp only [TcpConnection.pollerCalls, TcpConnection.closeCalls]
        split <;> simp
      | connectEstablished | shutdownInLoop | writeComplete | highWaterMark =>
        simp [TcpConnection.pollerCalls]
    | event cb r w =>
      cases cb with
      | close | error => simp [TcpConnection.pollerCalls]
      | read =>
        simp only [TcpConnection.pollerCalls]
        split <;> simp
      | write =>
        cases w with
        | error e => simp [TcpConnection.pollerCalls, TcpConnection.writeCalls]
        | count n =>
          simp only [TcpConnection.pollerCalls, TcpConnection.writeCalls]
          split <;> simp
    | user u w =>
      cases u with
      | send data =>
        simp only [TcpConnection.pollerCalls]
        split
        · exact hsend data w
        · simp
      | shutdown | forceClose => simp [TcpConnection.pollerCalls]
  intro k hk hremove
  exact hnot (beq_iff_eq.mp hremove ▸ hk)

/-- **A function of a connection** removes nothing. -/
theorem calls_callConn {i : Nat} {call : ConnCall} (hcall : ∀ w, call ≠ .functor .connectDestroyed w)
    (h : s.callConn i call = some s') : Calls s s' [] := by
  obtain ⟨⟨c', es⟩, hexec, rfl⟩ := Option.map_eq_some_iff.mp h
  obtain ⟨-, haddr, -⟩ := (TcpConnection.exec_pollerCalls hexec).onlyAdds
  have hset : Calls s { s.setConn i c' with
      removed := s.removed ++ (((s.connOf i).pollerCalls call).filter (· == .remove)).map
        fun _ => (s.connOf i).channel.addr } [] := by
    rw [remove_notMem_pollerCalls _ hcall]
    exact ⟨rfl, rfl, rfl, addrs_setConn haddr, fun _ => rfl, [], rfl⟩
  exact hset.trans (calls_effects i es _)

theorem calls_removeChannel {i : Nat} (h : s.removeChannel i = some s') : Calls s s' [s.addrOf i] := by
  obtain ⟨c, hremove, rfl⟩ := Option.map_eq_some_iff.mp h
  have hcalls : TcpConnection.Accounts (s.connOf i) [.remove] c :=
    TcpConnection.accounts_withChannel hremove
  exact ⟨rfl, rfl, rfl, addrs_setConn hcalls.onlyAdds.2.1, fun _ => rfl, [], rfl⟩

/-- **`connectDestroyed`** removes the channel, or leaves that to its frame. -/
theorem condemns_connectDestroyed {i : Nat} (h : s.connectDestroyed i = some s') :
    Condemns s s' [s.addrOf i] := by
  obtain ⟨⟨c', es⟩, hdown, h⟩ := Option.bind_eq_some_iff.mp h
  have haddr := (TcpConnection.downIfConnected_calls hdown).onlyAdds.2.1
  have hset : Calls s (s.setConn i c') [] :=
    ⟨rfl, rfl, (List.append_nil _).symm, addrs_setConn haddr, fun _ => rfl, [], rfl⟩
  have haddrs := hset.addrs i
  dsimp only at h
  split at h
  · have hremove := calls_removeChannel h
    rw [haddrs] at hremove
    exact (hset.trans hremove).condemns
  · cases h
    have hpush := condemns_pushFrame (s := s.setConn i c') (.removeChannel i) (by simp)
    rw [show (s.setConn i c').frameChannels (.removeChannel i) = [s.addrOf i] by rw [← haddrs]; rfl] at hpush
    exact hset.condemns.trans hpush

/-- A connector's function leaves the rest of the loop alone. -/
theorem calls_callConnector {j : Nat} {f : Connector → Connector.Result} {es : List ConnectorEffect}
    (h : s.callConnector j f = some (s', es)) :
    ∃ c c', s.connectors j = some c ∧ f { c with poller := s.poller } = some (c', es) ∧
      Calls s s' (removedBy c es) ∧ s'.frames = s.frames := by
  obtain ⟨c, hc, h⟩ := Option.bind_eq_some_iff.mp h
  obtain ⟨⟨c', es'⟩, hf, heq⟩ := Option.map_eq_some_iff.mp h
  cases heq
  exact ⟨c, c', hc, hf, ⟨rfl, rfl, rfl, fun _ => rfl, fun _ => rfl, [], rfl⟩, rfl⟩

/-! ## Connectors and clients -/

theorem reset_notMem_retry (c : Connector) (sockfd : Nat) :
    ConnectorEffect.queueInLoop .resetChannel ∉ (c.retry sockfd).2 := by
  unfold Connector.retry
  split <;> simp

theorem reset_notMem_connect {c c' : Connector} {r : Attempt} {es : List ConnectorEffect}
    (h : c.connect r = some (c', es)) : ConnectorEffect.queueInLoop .resetChannel ∉ es := by
  unfold Connector.connect at h
  split at h
  · obtain ⟨c₁, -, heq⟩ := Option.bind_eq_some_iff.mp h
    cases heq
    simp
  · cases h
    intro hmem
    rcases List.mem_cons.mp hmem with heq | hmem
    · cases heq
    · exact reset_notMem_retry c r.sockfd hmem
  · cases h
    simp

theorem reset_notMem_restart {c c' : Connector} {r : Attempt} {es : List ConnectorEffect}
    (h : c.restart r = some (c', es)) : ConnectorEffect.queueInLoop .resetChannel ∉ es := by
  unfold Connector.restart at h
  split at h
  · exact reset_notMem_connect h
  · cases h
    simp

theorem reset_notMem_startInLoop {c c' : Connector} {r : Attempt} {es : List ConnectorEffect}
    (h : c.startInLoop r = some (c', es)) : ConnectorEffect.queueInLoop .resetChannel ∉ es := by
  unfold Connector.startInLoop at h
  split at h
  · exact reset_notMem_connect h
  · cases h
    simp

theorem reset_notMem_start {c c' : Connector} {r : Attempt} {es : List ConnectorEffect}
    (h : c.start true r = some (c', es)) : ConnectorEffect.queueInLoop .resetChannel ∉ es := by
  simp only [Connector.start, if_true] at h
  exact reset_notMem_startInLoop h

theorem reset_notMem_stop {c c' : Connector} {es : List ConnectorEffect}
    (h : c.stop = some (c', es)) : ConnectorEffect.queueInLoop .resetChannel ∉ es := by
  cases h
  simp

/-- The event handlers remove the channel in state `kConnecting`, and only then. -/
theorem reset_mem_handleError {c c' : Connector} {es : List ConnectorEffect}
    (h : c.handleError = some (c', es)) :
    ConnectorEffect.queueInLoop .resetChannel ∈ es ↔ c.state = .kConnecting := by
  unfold Connector.handleError at h
  split at h
  · next hstate =>
    obtain ⟨⟨c₁, sockfd, es₁⟩, hremove, heq⟩ := Option.bind_eq_some_iff.mp h
    obtain ⟨-, -, rfl⟩ := Connector.removeAndResetChannel_spec hremove
    cases heq
    simp [hstate]
  · next hstate =>
    cases h
    simp [hstate]

theorem reset_mem_handleWriter {c c' : Connector} {err : Option Errno} {selfConnect : Bool}
    {es : List ConnectorEffect} (h : c.handleWriter err selfConnect = some (c', es)) :
    ConnectorEffect.queueInLoop .resetChannel ∈ es ↔ c.state = .kConnecting := by
  unfold Connector.handleWriter at h
  split at h
  · next hstate =>
    obtain ⟨⟨c₁, sockfd, es₁⟩, hremove, h⟩ := Option.bind_eq_some_iff.mp h
    obtain ⟨-, -, rfl⟩ := Connector.removeAndResetChannel_spec hremove
    dsimp only at h
    split at h
    · cases h
      simp [hstate]
    · split at h
      · cases h
        simp [hstate]
      · split at h
        · cases h
          simp [hstate]
        · cases h
          simp [hstate]
  · next hstate =>
    split at h
    · cases h
      simp [hstate]
    · cases h

/-- A function of a connector that does not remove its channel. -/
theorem calls_callConnector_nil {j : Nat} {f : Connector → Connector.Result}
    (hf : ∀ c c' es, f c = some (c', es) → ConnectorEffect.queueInLoop .resetChannel ∉ es)
    (h : (s.callConnector j f).map Prod.fst = some s') : Calls s s' [] := by
  obtain ⟨⟨s₁, es⟩, hcall, rfl⟩ := Option.map_eq_some_iff.mp h
  obtain ⟨c, c', -, hc, hcalls, -⟩ := calls_callConnector hcall
  rw [removedBy, if_neg (hf _ _ _ hc)] at hcalls
  exact hcalls

theorem calls_setClient (s : LoopPass) (j : Nat) (client : TcpClient) :
    Calls s (s.setClient j client) [] :=
  Calls.of_eq rfl rfl rfl rfl rfl rfl

theorem calls_push (s : LoopPass) (f : PassFunctor) : Calls s (s.push f) [] :=
  Calls.of_eq rfl rfl rfl rfl rfl rfl

/-- A server changes, but not the address of its acceptor's channel. -/
theorem calls_setServer {k : Nat} {server server' : PassServer} (hk : s.servers k = some server)
    (haddr : server'.acceptChannel.addr = server.acceptChannel.addr) :
    Calls s (s.setServer k server') [] := by
  refine ⟨rfl, rfl, (List.append_nil _).symm, fun _ => rfl, ?_, [], rfl⟩
  intro k'
  by_cases hk' : k' = k
  · subst hk'
    simp only [setServer, Function.update_self, hk, Option.map_some, haddr]
  · simp only [setServer, Function.update_of_ne hk']

theorem calls_closeCallback {i : Nat} {r : Attempt} (h : s.closeCallback i r = some s') :
    Calls s s' [] := by
  unfold LoopPass.closeCallback at h
  split at h
  · split at h
    · cases h
      exact calls_push s _
    · next server hserver =>
      cases h
      have herase : Calls s (s.setServer _
          { server with connections := server.connections.erase i }) [] :=
        calls_setServer hserver rfl
      exact herase.trans (calls_push _ _)
  · split at h
    · cases h
      exact calls_push s _
    · have hclosed : ∀ j client,
          Calls s ((s.setClient j client).push (.conn i .connectDestroyed)) [] :=
        fun j client => (calls_setClient s j client).trans (calls_push _ _)
      dsimp only at h
      split at h
      · exact (hclosed _ _).trans (calls_callConnector_nil (fun _ _ _ => reset_notMem_restart) h)
      · cases h
        exact hclosed _ _
  · cases h
    exact calls_push s _

theorem calls_destroyClient {j : Nat} {client : TcpClient} {unique : Bool}
    (h : s.destroyClient j client unique = some s') : Calls s s' [] := by
  have hdrop : ∀ clients closeCallbacks, Calls s { s with clients, closeCallbacks } [] := fun _ _ =>
    Calls.of_eq rfl rfl rfl rfl rfl rfl
  unfold LoopPass.destroyClient at h
  dsimp only at h
  split at h
  · split at h
    · exact (hdrop _ _).trans (calls_callConn (by simp) h)
    · cases h
      exact hdrop _ _
  · exact (hdrop _ s.closeCallbacks).trans (calls_callConnector_nil (fun _ _ _ => reset_notMem_stop) h)

/-! ## New connections -/

/-- No removal is under way on the stack. -/
def Unwalked (s : LoopPass) : Prop := ∀ f ∈ s.frames, ∃ i, f = .closeCallback i

theorem Unwalked.mem_doomed (h : Unwalked s) (addr : Nat) : addr ∈ s.doomed ↔ addr ∈ s.removed := by
  rw [LoopPass.mem_doomed]
  constructor
  · rintro (hmem | ⟨f, hf, hmem⟩)
    · exact hmem
    · obtain ⟨i, rfl⟩ := h f hf
      cases hmem
  · exact Or.inl

theorem Unwalked.calls (h : Unwalked s) (hcalls : Calls s s' l) : Unwalked s' := by
  obtain ⟨is, hframes⟩ := hcalls.frames
  intro f hf
  rw [hframes] at hf
  rcases List.mem_append.mp hf with hf | hf
  · obtain ⟨i, -, rfl⟩ := List.mem_map.mp hf
    exact ⟨i, rfl⟩
  · exact h f hf

/-- While no removal is under way, objects may be made. -/
theorem Unwalked.condemns (h : Unwalked s) (hphase : s'.phase = s.phase) (hactive : s'.active = s.active)
    (hremoved : s'.removed = s.removed) (hframes : s'.frames = s.frames) : Condemns s s' [] := by
  have h' : Unwalked s' := by
    intro f hf
    rw [hframes] at hf
    exact h f hf
  refine ⟨hphase, hactive, ?_, ?_⟩
  · intro addr
    rw [h.mem_doomed, h'.mem_doomed, hremoved]
    simp
  · intro _ k connections hmem
    obtain ⟨i, heq⟩ := h' _ hmem
    cases heq

/-- **A new connection** dooms nothing. -/
theorem condemns_establish (hw : Unwalked s) {sockfd : Nat} {conn : NewConnection}
    {closeCallback : CloseCallback} (h : s.establish sockfd conn closeCallback = some s') :
    Condemns s s' [] ∧ Unwalked s' := by
  have hmade : Condemns s (s.addConn sockfd conn closeCallback) [] := hw.condemns rfl rfl rfl rfl
  have hw' : Unwalked (s.addConn sockfd conn closeCallback) := hw
  have hcalls := calls_callConn (by simp) h
  exact ⟨hmade.trans hcalls.condemns, hw'.calls hcalls⟩

theorem condemns_newConnection (hw : Unwalked s) {j sockfd : Nat} {conn : NewConnection}
    (h : s.newConnection j conn sockfd = some s') : Condemns s s' [] ∧ Unwalked s' := by
  unfold LoopPass.newConnection at h
  split at h
  · cases h
    exact ⟨(Calls.refl s).condemns, hw⟩
  · have hset := calls_setClient s j
    obtain ⟨hcondemns, hw'⟩ := condemns_establish (Unwalked.calls hw (hset _)) h
    exact ⟨(hset _).condemns.trans hcondemns, hw'⟩

theorem condemns_newConnections (hw : Unwalked s) {j : Nat} {conn : NewConnection}
    {sockfds : List Nat}
    (h : sockfds.foldlM (fun s sockfd => s.newConnection j conn sockfd) s = some s') :
    Condemns s s' [] := by
  induction sockfds generalizing s with
  | nil =>
    cases h
    exact (Calls.refl _).condemns
  | cons sockfd sockfds ih =>
    obtain ⟨s₁, h₁, h₂⟩ := Option.bind_eq_some_iff.mp h
    obtain ⟨hcondemns, hw'⟩ := condemns_newConnection hw h₁
    exact hcondemns.trans (ih hw' h₂)

/-! ## Servers -/

theorem calls_listen {k : Nat} {server : PassServer} (hk : s.servers k = some server)
    (h : s.listen k server = some s') : Calls s s' [] := by
  obtain ⟨⟨poller, ch⟩, hcall, rfl⟩ := Option.map_eq_some_iff.mp h
  have hk' : ChannelCall.enableReading.call server.acceptChannel s.poller = some (poller, ch) := hcall
  have hset : Calls s (s.setServer k { server with acceptChannel := ch }) [] :=
    calls_setServer hk (call_onlyAdds hk').2.1
  exact ⟨hset.phase, hset.active, hset.removed, hset.addrs, hset.acceptors, hset.frames⟩

theorem calls_destroyAcceptor {k : Nat} {server : PassServer} (hk : s.servers k = some server)
    (h : s.destroyAcceptor k server = some s') : Calls s s' [server.acceptChannel.addr] := by
  obtain ⟨⟨poller, ch⟩, hdisable, h⟩ := Option.bind_eq_some_iff.mp h
  obtain ⟨⟨poller', ch'⟩, hremove, rfl⟩ := Option.map_eq_some_iff.mp h
  have hcall : ChannelCall.disableAll.call server.acceptChannel s.poller = some (poller, ch) := hdisable
  have hcall' : ChannelCall.remove.call ch poller = some (poller', ch') := hremove
  have haddr : ch'.addr = server.acceptChannel.addr :=
    (call_onlyAdds hcall').2.1.trans (call_onlyAdds hcall).2.1
  have hset : Calls s (s.setServer k { server with acceptChannel := ch' }) [] :=
    calls_setServer hk haddr
  exact ⟨hset.phase, hset.active, rfl, hset.addrs, hset.acceptors, hset.frames⟩

/-- `~TcpServer` begins: it is going to remove all channels of the server. -/
theorem condemns_destroyServer {k : Nat} {server : PassServer} (hk : s.servers k = some server) :
    Condemns s ((s.setServer k { server with alive := false }).pushFrame
      (.walk k server.connections)) (s.channelsOf k) := by
  have hset : Calls s (s.setServer k { server with alive := false }) [] := calls_setServer hk rfl
  have hchannels : s.channelsOf k = s.frameChannels (.walk k server.connections) := by
    simp only [channelsOf, hk]
  have hpush := condemns_pushFrame (s := s.setServer k { server with alive := false })
    (.walk k server.connections) (by simp [setServer])
  rw [hset.frameChannels, ← hchannels] at hpush
  exact hset.condemns.trans hpush

/-- A new server: no destructor under way is its own. -/
theorem condemns_newServer (hw : Walks s) {k : Nat} (hk : s.servers k = none) (server : PassServer) :
    Condemns s (s.setServer k server) [] := by
  have hother : ∀ k' connections, .walk k' connections ∈ s.frames → k' ≠ k := by
    intro k' connections hmem heq
    have hsome := hw k' connections hmem
    rw [heq, hk] at hsome
    cases hsome
  have hchannels : ∀ f ∈ s.frames, (s.setServer k server).frameChannels f = s.frameChannels f := by
    intro f hf
    cases f with
    | closeCallback i => rfl
    | removeChannel i => rfl
    | walk k' connections =>
      simp only [frameChannels, setServer, Function.update_of_ne (hother k' connections hf)]
      rfl
  refine ⟨rfl, rfl, ?_, ?_⟩
  · intro addr
    rw [mem_doomed, mem_doomed]
    constructor
    · rintro (hmem | ⟨f, hf, hmem⟩)
      · exact Or.inl (Or.inl hmem)
      · rw [hchannels f hf] at hmem
        exact Or.inl (Or.inr ⟨f, hf, hmem⟩)
    · rintro ((hmem | ⟨f, hf, hmem⟩) | hmem)
      · exact Or.inl hmem
      · refine Or.inr ⟨f, hf, ?_⟩
        rw [hchannels f hf]
        exact hmem
      · cases hmem
  · intro _ k' connections hmem
    simp only [setServer, Function.update_of_ne (hother k' connections hmem)]
    exact hw k' connections hmem

/-- A frame is taken off the stack and its channels `l` are doomed anew. -/
theorem condemns_pop {f : PassFrame} {frames : List PassFrame} (hframes : s.frames = f :: frames)
    (h : Condemns { s with frames } s' l) (hl : ∀ addr, addr ∈ l ↔ addr ∈ s.frameChannels f) :
    Condemns s s' [] := by
  refine ⟨h.phase, h.active, ?_, ?_⟩
  · intro addr
    have hrest : addr ∈ doomed { s with frames } ↔
        addr ∈ s.removed ∨ ∃ f ∈ frames, addr ∈ s.frameChannels f := mem_doomed
    rw [h.doomed, hrest, hl, mem_doomed, hframes]
    simp only [List.mem_cons, exists_eq_or_imp, List.not_mem_nil, or_false]
    rw [or_assoc, or_comm (b := addr ∈ s.frameChannels f)]
  · intro hw
    apply h.walks
    intro k connections hmem
    exact hw k connections (hframes ▸ List.mem_cons_of_mem _ hmem)

/-- **The rest of a function** removes channels that were doomed before. -/
theorem condemns_resume (hw : Walks s) {r : Attempt} (h : s.resume r = some s') : Condemns s s' [] := by
  unfold LoopPass.resume at h
  split at h
  · cases h
  · next i frames hframes =>
    exact condemns_pop hframes (calls_closeCallback h).condemns fun _ => Iff.rfl
  · next i frames hframes =>
    exact condemns_pop hframes (calls_removeChannel h).condemns fun _ => Iff.rfl
  · next k connections frames hframes =>
    split at h
    · next i connections =>
      have hcondemns := condemns_connectDestroyed h
      refine ⟨hcondemns.phase, hcondemns.active, ?_, ?_⟩
      · intro addr
        have hrest : addr ∈ doomed { s with frames := .walk k connections :: frames } ↔
            addr ∈ s.removed ∨ ∃ f ∈ .walk k connections :: frames, addr ∈ s.frameChannels f :=
          mem_doomed
        have hown : addr ∈ [addrOf { s with frames := .walk k connections :: frames } i] ↔
            addr = s.addrOf i := List.mem_singleton
        have hwalk : addr ∈ s.frameChannels (.walk k (i :: connections)) ↔
            addr = s.addrOf i ∨ addr ∈ s.frameChannels (.walk k connections) := by
          simp only [frameChannels, List.map_cons, List.cons_append, List.mem_cons]
        rw [hcondemns.doomed, hrest, hown, mem_doomed, hframes]
        simp only [List.mem_cons, exists_eq_or_imp, List.not_mem_nil, or_false, hwalk, or_assoc]
        constructor
        · rintro (hmem | hmem | hmem | hmem)
          · exact Or.inl hmem
          · exact Or.inr (Or.inr (Or.inl hmem))
          · exact Or.inr (Or.inr (Or.inr hmem))
          · exact Or.inr (Or.inl hmem)
        · rintro (hmem | hmem | hmem | hmem)
          · exact Or.inl hmem
          · exact Or.inr (Or.inr (Or.inr hmem))
          · exact Or.inr (Or.inl hmem)
          · exact Or.inr (Or.inr (Or.inl hmem))
      · intro _
        apply hcondemns.walks
        intro k' connections' hmem
        rcases List.mem_cons.mp hmem with heq | hmem
        · cases heq
          exact hw k _ (hframes ▸ List.mem_cons_self)
        · exact hw k' connections' (hframes ▸ List.mem_cons_of_mem _ hmem)
    · obtain ⟨server, hserver, h⟩ := Option.bind_eq_some_iff.mp h
      have hpopped : ({ s with frames } : LoopPass).servers k = some server := hserver
      refine condemns_pop hframes (calls_destroyAcceptor hpopped h).condemns fun addr => ?_
      simp [frameChannels, hserver]

/-- A functor keeps the pass where it is. -/
theorem condemns_runFunctor {f : PassFunctor} {w : WriteResult} {r : Attempt}
    (h : s.runFunctor f w r = some s') : ∃ l, Condemns s s' l := by
  cases f with
  | conn i f =>
    by_cases hdestroyed : f = .connectDestroyed
    · subst hdestroyed
      exact ⟨_, condemns_connectDestroyed h⟩
    · have hcall : s.callConn i (.functor f w) = some s' := by
        cases f with
        | connectDestroyed => exact absurd rfl hdestroyed
        | connectEstablished | sendInLoop | shutdownInLoop | forceCloseInLoop | writeComplete
        | highWaterMark => exact h
      exact ⟨_, (calls_callConn (by simp [hdestroyed]) hcall).condemns⟩
  | connector j f =>
    obtain ⟨⟨s₁, es⟩, hcall, rfl⟩ := Option.map_eq_some_iff.mp h
    obtain ⟨c, c', -, -, hcalls, -⟩ := calls_callConnector hcall
    exact ⟨_, hcalls.condemns⟩
  | user =>
    cases h
    exact ⟨[], (Calls.refl s).condemns⟩

/-! ## Steps -/

/-- What a step does to the pass. -/
inductive Moves (s : LoopPass) : PassAction → LoopPass → Prop
  | poll (fds : List Nat) (active : List Nat) (hphase : s.phase = .outside) (hframes : s.frames = []) :
    Moves s (.poll fds) { s with phase := .handling, active, removed := [] }
  | handleEvent (addr : Nat) (active : List Nat) (hactive : s.active = addr :: active)
    (hphase : s.phase = .handling) (hframes : s.frames = []) :
    Moves s .handleEvent { s with active, current := some addr }
  /-- the functors run when the pass is over -/
  | functors (a : PassAction) (s' : LoopPass) (hdone : s.active = [] ∨ s.phase ≠ .handling)
    (hactive : s'.active = s.active) (hwalks : Walks s → Walks s') : Moves s a s'
  | condemns (a : PassAction) (s' : LoopPass) (h : Condemns s s' (s.condemns a)) : Moves s a s'

theorem Calls.moves {a : PassAction} (h : Calls s s' []) (ha : s.condemns a = []) : Moves s a s' :=
  .condemns a s' (ha ▸ h.condemns)

theorem unwalked_of_handles {addr : Nat} (h : s.handles addr = true) : Unwalked s := by
  simp only [handles, Bool.and_eq_true, List.isEmpty_iff] at h
  intro f hf
  rw [h.1] at hf
  cases hf

theorem unwalked_of_handlesConnector {j : Nat} (h : s.handlesConnector j = true) : Unwalked s := by
  unfold handlesConnector at h
  split at h
  · cases h
  · exact unwalked_of_handles h

theorem removedBy_eq {j : Nat} {c : Connector} {es : List ConnectorEffect}
    (hc : s.connectors j = some c)
    (hes : ConnectorEffect.queueInLoop .resetChannel ∈ es ↔ c.state = .kConnecting) :
    removedBy c es = s.connectorChannel j := by
  simp only [removedBy, connectorChannel, hc, hes]

/-- **What a step does to the pass.** -/
theorem moves_of_step (hw : Walks s) {a : PassAction} (h : s.step a = some s') : Moves s a s' := by
  cases a with
  | poll fds =>
    simp only [step, Option.ite_none_right_eq_some, Bool.and_eq_true, beq_iff_eq, List.isEmpty_iff,
      Option.some.injEq] at h
    obtain ⟨⟨⟨⟨hphase, hframes⟩, -⟩, -⟩, rfl⟩ := h
    exact .poll fds _ hphase hframes
  | handleEvent =>
    simp only [step] at h
    split at h
    · cases h
    · next addr active hactive =>
      simp only [Option.ite_none_right_eq_some, Bool.and_eq_true, beq_iff_eq, List.isEmpty_iff,
        Option.some.injEq] at h
      obtain ⟨⟨⟨hphase, hframes⟩, -⟩, rfl⟩ := h
      exact .handleEvent addr active hactive hphase hframes
  | callback i cb r w =>
    simp only [step, Option.ite_none_right_eq_some] at h
    exact (calls_callConn (by simp) h.2).moves rfl
  | accept k sockfd conn =>
    simp only [step] at h
    split at h
    · cases h
    · next server hserver =>
      simp only [Option.ite_none_right_eq_some, Bool.and_eq_true] at h
      obtain ⟨⟨hhandles, -⟩, h⟩ := h
      have hset : Calls s (s.setServer k
          { server with connections := server.connections ++ [s.created] }) [] :=
        calls_setServer hserver rfl
      have hmade := (condemns_establish ((unwalked_of_handles hhandles).calls hset) h).1
      exact .condemns _ _ (hset.condemns.trans hmade)
  | handleWriter j err selfConnect conn =>
    simp only [step, Option.ite_none_right_eq_some] at h
    obtain ⟨hhandles, h⟩ := h
    obtain ⟨⟨s₁, es⟩, hcall, h⟩ := Option.bind_eq_some_iff.mp h
    obtain ⟨c, c', hc, hf, hcalls, -⟩ := calls_callConnector hcall
    have hw₁ : Unwalked s₁ := (unwalked_of_handlesConnector hhandles).calls hcalls
    have hreset := reset_mem_handleWriter hf
    rw [removedBy_eq hc hreset] at hcalls
    have hall := hcalls.condemns.trans (condemns_newConnections hw₁ h)
    rw [List.append_nil] at hall
    exact .condemns _ _ hall
  | handleError j =>
    simp only [step, Option.ite_none_right_eq_some] at h
    obtain ⟨-, h⟩ := h
    obtain ⟨⟨s₁, es⟩, hcall, rfl⟩ := Option.map_eq_some_iff.mp h
    obtain ⟨c, c', hc, hf, hcalls, -⟩ := calls_callConnector hcall
    have hreset := reset_mem_handleError hf
    rw [removedBy_eq hc hreset] at hcalls
    exact .condemns _ _ hcalls.condemns
  | timer j r =>
    simp only [step, Option.ite_none_right_eq_some] at h
    have hexpired : Calls s { s with timers := Function.update s.timers j (s.timers j - 1) } [] :=
      Calls.of_eq rfl rfl rfl rfl rfl rfl
    exact (hexpired.trans
      (calls_callConnector_nil (fun _ _ _ => reset_notMem_startInLoop) h.2)).moves rfl
  | endEvent =>
    simp only [step, Option.ite_none_right_eq_some, Option.some.injEq] at h
    obtain ⟨-, rfl⟩ := h
    have hended : Calls s { s with current := none } [] :=
      Calls.of_eq rfl rfl rfl rfl rfl rfl
    exact hended.moves rfl
  | beginFunctors =>
    simp only [step, Option.ite_none_right_eq_some, Bool.and_eq_true, List.isEmpty_iff,
      Option.some.injEq] at h
    obtain ⟨⟨-, hactive⟩, rfl⟩ := h
    exact .functors _ _ (Or.inl hactive) rfl fun hw => hw
  | callFunctor w r =>
    simp only [step] at h
    split at h
    · cases h
    · next f functors hfunctors =>
      simp only [Option.ite_none_right_eq_some, Bool.and_eq_true, beq_iff_eq] at h
      obtain ⟨⟨hphase, -⟩, h⟩ := h
      obtain ⟨l, hcondemns⟩ := condemns_runFunctor h
      refine .functors _ _ (Or.inr ?_) hcondemns.active fun hw => hcondemns.walks hw
      rw [hphase]
      decide
  | endFunctors =>
    simp only [step, Option.ite_none_right_eq_some, Bool.and_eq_true, beq_iff_eq,
      Option.some.injEq] at h
    obtain ⟨⟨⟨hphase, -⟩, -⟩, rfl⟩ := h
    refine .functors _ _ (Or.inr ?_) rfl fun hw => hw
    rw [hphase]
    decide
  | resume r => exact .condemns _ _ (condemns_resume hw h)
  | userCall i c w =>
    simp only [step, Option.ite_none_right_eq_some] at h
    exact (calls_callConn (by simp) h.2).moves rfl
  | queueInLoop =>
    simp only [step, Option.ite_none_right_eq_some, Option.some.injEq] at h
    obtain ⟨-, rfl⟩ := h
    exact (calls_push s _).moves rfl
  | newServer k addr fd =>
    simp only [step, Option.ite_none_right_eq_some, Bool.and_eq_true, Option.isNone_iff_eq_none,
      Option.some.injEq] at h
    obtain ⟨⟨-, hk⟩, rfl⟩ := h
    exact .condemns _ _ (condemns_newServer hw hk _)
  | startServer k =>
    simp only [step] at h
    split at h
    · cases h
    · next server hserver =>
      simp only [Option.ite_none_right_eq_some] at h
      exact (calls_listen hserver h.2).moves rfl
  | destroyServer k =>
    simp only [step] at h
    split at h
    · cases h
    · next server hserver =>
      simp only [Option.ite_none_right_eq_some, Option.some.injEq] at h
      obtain ⟨-, rfl⟩ := h
      exact .condemns _ _ (condemns_destroyServer hserver)
  | newConnector j =>
    simp only [step, Option.ite_none_right_eq_some, Option.some.injEq] at h
    obtain ⟨-, rfl⟩ := h
    have hmade : ∀ connectors, Calls s { s with connectors } [] := fun _ =>
      Calls.of_eq rfl rfl rfl rfl rfl rfl
    exact (hmade _).moves rfl
  | startConnector j r =>
    simp only [step, Option.ite_none_right_eq_some] at h
    exact (calls_callConnector_nil (fun _ _ _ => reset_notMem_start) h.2).moves rfl
  | stopConnector j =>
    simp only [step, Option.ite_none_right_eq_some] at h
    exact (calls_callConnector_nil (fun _ _ _ => reset_notMem_stop) h.2).moves rfl
  | newClient j =>
    simp only [step, Option.ite_none_right_eq_some, Option.some.injEq] at h
    obtain ⟨-, rfl⟩ := h
    have hmade : ∀ connectors, Calls s { s with connectors } [] := fun _ =>
      Calls.of_eq rfl rfl rfl rfl rfl rfl
    exact ((hmade _).trans (calls_setClient _ j _)).moves rfl
  | connectClient j r =>
    simp only [step] at h
    split at h
    · cases h
    · simp only [Option.ite_none_right_eq_some] at h
      exact ((calls_setClient s j _).trans
        (calls_callConnector_nil (fun _ _ _ => reset_notMem_start) h.2)).moves rfl
  | disconnectClient j w =>
    simp only [step] at h
    split at h
    · cases h
    · simp only [Option.ite_none_right_eq_some] at h
      obtain ⟨-, h⟩ := h
      split at h
      · cases h
        exact (calls_setClient s j _).moves rfl
      · exact ((calls_setClient s j _).trans (calls_callConn (by simp) h)).moves rfl
  | stopClient j =>
    simp only [step] at h
    split at h
    · cases h
    · simp only [Option.ite_none_right_eq_some] at h
      exact ((calls_setClient s j _).trans
        (calls_callConnector_nil (fun _ _ _ => reset_notMem_stop) h.2)).moves rfl
  | enableRetry j =>
    simp only [step] at h
    split at h
    · cases h
    · simp only [Option.ite_none_right_eq_some, Option.some.injEq] at h
      obtain ⟨-, rfl⟩ := h
      exact (calls_setClient s j _).moves rfl
  | destroyClient j unique =>
    simp only [step] at h
    split at h
    · cases h
    · simp only [Option.ite_none_right_eq_some] at h
      exact (calls_destroyClient h.2).moves rfl

/-! ## Runs -/

/-- The invariant: `activeChannels_` is walked in one phase only. -/
structure Passing (s : LoopPass) : Prop where
  walks : Walks s
  idle : s.phase ≠ .handling → s.active = []

/-- No channel that is still to come is doomed. -/
def Safe (s : LoopPass) : Prop := ∀ addr ∈ s.active, addr ∉ s.doomed

theorem passing_init (poller : EPollPoller) : Passing (init poller) :=
  ⟨by simp [Walks, init], fun _ => rfl⟩

theorem passing_step (s : LoopPass) (a : PassAction) (s' : LoopPass) (h : Passing s)
    (hs : s.step a = some s') : Passing s' := by
  cases moves_of_step h.walks hs with
  | poll fds active hphase hframes =>
    exact ⟨fun k connections hmem => h.walks k connections hmem, fun hne => absurd rfl hne⟩
  | handleEvent addr active hactive hphase hframes =>
    exact ⟨fun k connections hmem => h.walks k connections hmem, fun hne => absurd hphase hne⟩
  | functors _ _ hdone hactive hwalks =>
    refine ⟨hwalks h.walks, fun _ => ?_⟩
    rw [hactive]
    exact hdone.elim id h.idle
  | condemns _ _ hc =>
    refine ⟨hc.walks h.walks, ?_⟩
    rw [hc.phase, hc.active]
    exact h.idle

/-- A step that spares the channels still to come keeps the pass safe. -/
theorem safe_step (s : LoopPass) (a : PassAction) (s' : LoopPass) (h : Passing s) (hsafe : Safe s)
    (hg : s.SparesActive a) (hs : s.step a = some s') : Safe s' := by
  cases moves_of_step h.walks hs with
  | poll fds active hphase hframes =>
    intro addr _
    simp [doomed, hframes]
  | handleEvent addr active hactive hphase hframes =>
    intro addr' hmem
    exact hsafe addr' (hactive ▸ List.mem_cons_of_mem _ hmem)
  | functors _ _ hdone hactive hwalks =>
    intro addr hmem
    rw [hactive, hdone.elim id h.idle] at hmem
    cases hmem
  | condemns _ _ hc =>
    intro addr hmem hdoomed
    rw [hc.active] at hmem
    rcases (hc.doomed addr).mp hdoomed with hdoomed | hnew
    · exact hsafe addr hmem hdoomed
    · exact hg addr hnew hmem

/-- A step that does not spare them leaves one that is still to come and doomed. -/
theorem not_safe_step (s : LoopPass) (a : PassAction) (s' : LoopPass) (h : Passing s)
    (hg : ¬ s.SparesActive a) (hs : s.step a = some s') : ¬ Safe s' := by
  simp only [SparesActive, not_forall, not_not] at hg
  obtain ⟨addr, hcondemned, hactive⟩ := hg
  cases moves_of_step h.walks hs with
  | poll fds active hphase hframes => cases hcondemned
  | handleEvent addr active hactive hphase hframes => cases hcondemned
  | functors _ _ hdone =>
    rw [hdone.elim id h.idle] at hactive
    cases hactive
  | condemns _ _ hc =>
    intro hsafe
    exact hsafe addr (hc.active ▸ hactive) ((hc.doomed addr).mpr (Or.inr hcondemned))

/-- **A doomed channel that is still to come gets its event**, if the pass comes to its end. -/
theorem not_callsPresent (s : LoopPass) (as : List PassAction) (s' : LoopPass) (h : Passing s)
    (hsafe : ¬ Safe s) (hrun : run step s as = some s') (hend : s'.phase = .outside) :
    ¬ AllSteps step CallsPresent s as := by
  have hdone : s'.active = [] := (run_inv passing_step h hrun).idle (by rw [hend]; decide)
  simp only [Safe, not_forall, not_not] at hsafe
  obtain ⟨addr, hmem, hdoomed⟩ := hsafe
  induction as generalizing s with
  | nil =>
    cases hrun
    rw [hdone] at hmem
    cases hmem
  | cons a as ih =>
    obtain ⟨s₁, hs, hrun⟩ := run_cons_eq_some.mp hrun
    have h₁ := passing_step s a s₁ h hs
    rintro ⟨hcalls, hall⟩
    cases moves_of_step h.walks hs with
    | poll fds active hphase hframes =>
      have hidle := h.idle (by rw [hphase]; decide)
      rw [hidle] at hmem
      cases hmem
    | handleEvent addr' active hactive hphase hframes =>
      have hremoved : addr ∈ s.removed := by
        rw [mem_doomed, hframes] at hdoomed
        simpa using hdoomed
      rw [hactive] at hmem
      rcases List.mem_cons.mp hmem with rfl | hmem
      · refine hcalls rfl addr ?_ hremoved
        rw [hactive]
        rfl
      · refine ih _ h₁ hrun hmem ?_ (hall _ hs)
        exact List.mem_append_left _ hremoved
    | functors _ _ hdone =>
      rw [hdone.elim id h.idle] at hmem
      cases hmem
    | condemns _ _ hc =>
      refine ih _ h₁ hrun ?_ ((hc.doomed addr).mpr (Or.inl hdoomed)) (hall _ hs)
      rw [hc.active]
      exact hmem

/-- **No event after the removal.**  Whatever is on the loop, whatever `poll` reports and whatever the
user does in the handlers: in a run that ends between two iterations, `loop()` calls `handleEvent` on
no channel removed in the same pass iff no server is destroyed in a handler while one of its channels
is still to come, and no connector's channel is removed by its handler while it is listed again. -/
theorem no_event_after_removal_iff (poller : EPollPoller) (as : List PassAction) (s : LoopPass)
    (hrun : run step (init poller) as = some s) (hend : s.phase = .outside) :
    AllSteps step CallsPresent (init poller) as ↔ AllSteps step SparesActive (init poller) as := by
  have hinit : Safe (init poller) := by simp [Safe, init]
  refine allSteps_iff_of_doomed passing_step ?_ safe_step not_safe_step not_callsPresent
    (passing_init poller) hinit hrun hend
  intro s a hsafe _ addr haddr hremoved
  exact hsafe addr (List.mem_of_mem_head? haddr) (List.mem_append_left _ hremoved)

instance decidableSparesActive (s : LoopPass) (a : PassAction) : Decidable (s.SparesActive a) :=
  inferInstanceAs (Decidable (∀ addr ∈ s.condemns a, addr ∉ s.active))

instance decidableCallsPresent (s : LoopPass) : ∀ a, Decidable (s.CallsPresent a)
  | .handleEvent =>
    decidable_of_iff (∀ addr ∈ s.active.head?, addr ∉ s.removed) ⟨fun h _ => h, fun h => h rfl⟩
  | .poll _ | .callback _ _ _ _ | .accept _ _ _ | .handleWriter _ _ _ _ | .handleError _
  | .timer _ _ | .endEvent | .beginFunctors | .callFunctor _ _ | .endFunctors | .resume _
  | .userCall _ _ _ | .queueInLoop | .newServer _ _ _ | .startServer _ | .destroyServer _
  | .newConnector _ | .startConnector _ _ | .stopConnector _ | .newClient _ | .connectClient _ _
  | .disconnectClient _ _ | .stopClient _ | .enableRetry _ | .destroyClient _ _ =>
    isTrue (fun h => by cases h)

/-- A poller with the channel of `timerfd_` (descriptor 3, address 1). -/
def timerfdPoller : EPollPoller where
  channels := fun fd => if fd = 3 then some 1 else none
  interest := fun fd => if fd = 3 then some ⟨kReadEvent, 1⟩ else none

/-- A server (acceptor: descriptor 4, address 2) accepts a connection (descriptor 5, address 3). -/
def oneConnection : List PassAction :=
  [.newServer 0 2 4, .startServer 0, .poll [4], .handleEvent, .accept 0 5 ⟨3, false, false⟩,
    .endEvent, .beginFunctors, .endFunctors]

/-- A timer destroys the server; `poll` has listed the timer's channel after those of the server. -/
def destroyAfterwards : List PassAction :=
  oneConnection ++ [.poll [4, 5, 3], .handleEvent, .endEvent, .handleEvent,
    .callback 0 .read (.data [1]) (.count 0), .endEvent, .handleEvent, .destroyServer 0,
    .resume ⟨6, 4, none⟩, .resume ⟨6, 4, none⟩, .resume ⟨6, 4, none⟩, .endEvent, .beginFunctors,
    .endFunctors]

/-- The same with the channel of the connection still to come. -/
def destroyWithEventAhead : List PassAction :=
  oneConnection ++ [.poll [3, 5], .handleEvent, .destroyServer 0, .resume ⟨6, 4, none⟩,
    .resume ⟨6, 4, none⟩, .resume ⟨6, 4, none⟩, .endEvent, .handleEvent, .endEvent, .beginFunctors,
    .endFunctors]

/-- **`loop()` calls a channel that is gone.** -/
theorem event_after_removal :
    ∃ s, run step (init timerfdPoller) destroyWithEventAhead = some s ∧ s.phase = .outside ∧
      ¬ AllSteps step CallsPresent (init timerfdPoller) destroyWithEventAhead := by
  refine exists_run_eq LoopPass.phase .outside (by decide +kernel) fun s _ hend => ⟨hend, ?_⟩
  decide +kernel

theorem no_event_after_removal_afterwards :
    ∃ s, run step (init timerfdPoller) destroyAfterwards = some s ∧ s.removed = [3, 2] ∧
      AllSteps step CallsPresent (init timerfdPoller) destroyAfterwards := by
  refine exists_run_eq (fun s => (s.phase, s.removed)) (.outside, [3, 2]) (by decide +kernel) ?_
  intro s hrun hend
  rw [Prod.mk.injEq] at hend
  exact ⟨hend.2, (no_event_after_removal_iff timerfdPoller destroyAfterwards s hrun hend.1).mpr
    (by decide +kernel)⟩

end LoopPass
end Muduo
