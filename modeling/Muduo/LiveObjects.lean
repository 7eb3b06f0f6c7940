import Muduo.ClientTeardown

/-!
# What a client leaves behind

The invariant of `ClientTeardown`, in two parts.  Until the destructor returns both objects are alive.
Afterwards a connector that is alive is kept by a timer and stopped, so it delivers nothing
(`base_of_stopped`), and one that is not alive has nothing left in the loop, which therefore leaves it
alone (`released_step`).

* `Tidy`: the invariant.
* A client without a connection leaves `stopInLoop` behind, bound to the connector that dies with it, and
  if an attempt is in progress the connector's channel in the poller; so does a client that has made two
  attempts at once, with or without a connection (`dead_connector_called`).
-/

namespace Muduo

open Transition

/-! ## Steps of the client -/

namespace ClientLoop

variable {T : Type*} [DecidableEq T] {c c' : ClientLoop T} {a : ClientAction T} {b : ConnectorAction T}

omit [DecidableEq T] in
theorem forces_of_ownStep (hb : ownStep b = true) :
    forces b = false ∧ ConnectorLoop.setsConnect b = false := by
  cases b with
  | start | stop | restart | storeStart | storeStop => cases hb
  | loop | callFunctor | timer | handleWriter | handleError | push | otherChannels => exact ⟨rfl, rfl⟩

theorem base_of_step (h : c.step (.base b) = some c') :
    ∃ base, c.base.step b = some base ∧ c' = { c with base }.deliver (c.base.effects b) := by
  obtain ⟨-, hbase⟩ := moves_of_step h
  exact ⟨_, hbase, rfl⟩

/-- **A connector that is stopped** delivers nothing and stays stopped, whatever the loop does. -/
theorem base_of_stopped (hc : c.base.loop.Consistent) (hoff : c.base.conn.connect_ = false)
    (h : c.step (.base b) = some c') :
    ∃ es base, c.base.Steps b es base ∧ c' = { c with base } ∧ base.conn.connect_ = false := by
  obtain ⟨hown, hbase⟩ := moves_of_step h
  obtain ⟨es, hsteps⟩ := ConnectorLoop.step_result hc hbase
  obtain ⟨hforces, hset⟩ := forces_of_ownStep hown
  have hleaves := hsteps.leaves (attempt_of_quiet (Or.inl hoff) hforces hsteps) hset
  have hnone : es.countP ConnectorEffect.isNewConnection = 0 := by
    by_contra hne
    have hconnect := hleaves.delivers hne
    rw [hoff] at hconnect
    cases hconnect
  refine ⟨es, _, hsteps, ?_, hleaves.connect_.trans hoff⟩
  rw [hsteps.effects, deliver_of_countP hnone]

theorem numbered_step (c : ClientLoop T) (a : ClientAction T) (c' : ClientLoop T) (h : Numbered c)
    (hs : c.step a = some c') : Numbered c' := by
  cases moves_of_step hs with
  | @base b base =>
    have hbase : Numbered { c with base } := h
    exact hbase.deliver _
  | connect | stop | disconnect | enableRetry | storeConnect | storeDisconnect | storeStop | storeRetry
  | callStart | callStop => exact h
  | handleClose hlt | closeCallback hlt | restart hlt => exact h.update hlt _ rfl rfl

/-- The threads that are about to push a functor of the connector. -/
theorem calls_step (hc : c.base.loop.Consistent) (hs : c.step a = some c') (t : T)
    (ht : (c'.base.calls t).isSome = true) :
    (c.base.calls t).isSome = true ∧ a ≠ .base (.push t) ∨ a = .callConnector t := by
  have hbase : ∀ {b base}, (∀ t, b ≠ .storeStart t) → (∀ t, b ≠ .storeStop t) →
      c.base.step b = some base → (base.calls t).isSome = true →
      (c.base.calls t).isSome = true ∧ b ≠ .push t := by
    intro b base hstart hstop hb ht
    obtain ⟨es, hsteps⟩ := ConnectorLoop.step_result hc hb
    rw [hsteps.calls] at ht
    cases b with
    | storeStart t' => exact absurd rfl (hstart t')
    | storeStop t' => exact absurd rfl (hstop t')
    | push t' =>
      by_cases heq : t = t'
      · subst heq
        simp [ConnectorLoop.callsAfter] at ht
      · simp only [ConnectorLoop.callsAfter, Function.update_of_ne heq] at ht
        exact ⟨ht, fun h => heq (by cases h; rfl)⟩
    | loop | callFunctor | start | stop | restart | timer | handleWriter | handleError
    | otherChannels => exact ⟨ht, by simp⟩
  have hcall : ∀ {t' b base f}, t ≠ t' → c.base.step b = some base →
      c.base.callsAfter b = Function.update c.base.calls t' f → (base.calls t).isSome = true →
      (c.base.calls t).isSome = true := by
    intro t' b base f hne hb hafter ht
    obtain ⟨es, hsteps⟩ := ConnectorLoop.step_result hc hb
    rw [hsteps.calls, hafter, Function.update_of_ne hne] at ht
    exact ht
  cases moves_of_step hs with
  | base hown hb =>
    rw [deliver_base] at ht
    obtain ⟨hsome, hne⟩ := hbase (fun t' h => by rw [h] at hown; cases hown)
      (fun t' h => by rw [h] at hown; cases hown) hb ht
    exact Or.inl ⟨hsome, fun h => hne (by cases h; rfl)⟩
  | connect hb | stop hb => exact Or.inl ⟨(hbase (by simp) (by simp) hb ht).1, by simp⟩
  | disconnect | enableRetry | storeConnect | storeDisconnect | storeStop | storeRetry | handleClose
  | closeCallback => exact Or.inl ⟨ht, by simp⟩
  | @callStart t' _ _ hb | @callStop t' _ _ hb =>
    by_cases hne : t = t'
    · exact Or.inr (by rw [hne])
    · exact Or.inl ⟨hcall hne hb rfl ht, by simp⟩
  | restart _ _ _ hb =>
    obtain ⟨es, hsteps⟩ := ConnectorLoop.step_result (dropConnection_consistent hc _) hb
    rw [hsteps.calls] at ht
    exact Or.inl ⟨ht, by simp⟩

end ClientLoop

/-! ## The invariant -/

namespace ClientTeardown

variable {T : Type*} {s s' : ClientTeardown T}

structure Tidy (s : ClientTeardown T) : Prop where
  consistent : s.base.base.loop.Consistent
  numbered : s.base.Numbered
  /-- who is about to push is in a call, or in the destructor -/
  calls : ∀ t, (s.base.base.calls t).isSome = true → t ∈ s.busy ∨ s.dtor = .stopped t
  busy : s.dtor ≠ .none → s.busy = []
  holding : s.connectorAlive = true ↔ s.dtor ≠ .done ∨ s.base.base.timers ≠ 0
  released : s.connectorAlive = false → Released s
  stopped : s.dtor = .done → s.connectorAlive = true → s.base.base.conn.connect_ = false
  rebound : s.dtor = .done → ∀ conn, s.base.IsOpen conn → Rebound s conn
  /-- what is in `handleClose` will call another callback -/
  closing : s.dtor = .done → ∀ conn ∈ s.closing, s.detached conn = true

/-- While the destructor has not returned, both objects are alive. -/
theorem tidy_of_undone (hdone : s.dtor ≠ .done) (halive : s.connectorAlive = true)
    (hconsistent : s.base.base.loop.Consistent) (hnumbered : s.base.Numbered)
    (hcalls : ∀ t, (s.base.base.calls t).isSome = true → t ∈ s.busy ∨ s.dtor = .stopped t)
    (hbusy : s.dtor ≠ .none → s.busy = []) : Tidy s := by
  refine ⟨hconsistent, hnumbered, hcalls, hbusy, ⟨fun _ => Or.inl hdone, fun _ => halive⟩, ?_, ?_, ?_,
    ?_⟩
  · intro hdead
    rw [halive] at hdead
    cases hdead
  · exact fun h => absurd h hdone
  · exact fun h => absurd h hdone
  · exact fun h => absurd h hdone

theorem Tidy.alive (h : Tidy s) (hdone : s.dtor ≠ .done) : s.connectorAlive = true :=
  h.holding.mpr (Or.inl hdone)

/-- A thread that is in no call and not in the destructor has nothing to push. -/
theorem Tidy.calls_none (h : Tidy s) (hbusy : s.busy = []) {t : T} (hdtor : s.dtor ≠ .stopped t) :
    s.base.base.calls t = none := by
  by_contra hne
  rcases h.calls t (Option.isSome_iff_ne_none.mpr hne) with hmem | hstopped
  · rw [hbusy] at hmem
    cases hmem
  · exact hdtor hstopped

theorem tidy_start {loop : EventLoop T (Option ConnectorFunctor)} (hc : loop.Consistent)
    (poller : EPollPoller) : Tidy (start loop poller) := by
  refine tidy_of_undone (by simp [start]) rfl hc ?_ ?_ ?_
  · intro conn
    simp [start, ClientLoop.start]
  · intro t ht
    cases ht
  · exact fun h => absurd rfl h

variable [DecidableEq T]

/-! ## Before the destructor returns -/

theorem stepConnector_eq_some {b : ConnectorAction T} (hc : s.base.base.loop.Consistent)
    (h : s.stepConnector b = some s') : ∃ es base, s.base.base.Steps b es base ∧
      s' = s.withBase { s.base with base } := by
  obtain ⟨base, hbase, rfl⟩ := Option.map_eq_some_iff.mp h
  obtain ⟨es, hsteps⟩ := ConnectorLoop.step_result hc hbase
  exact ⟨es, base, hsteps, rfl⟩

theorem loopQueueInLoop_consistent {c : ClientLoop T} (h : c.base.loop.Consistent) :
    (loopQueueInLoop c).base.loop.Consistent := ⟨h.calling, h.batch⟩

/-- A step of the destructor, with a step of the connector in it. -/
theorem Tidy.dtorStep (h : Tidy s) (hdone : s.dtor ≠ .done) {b : ConnectorAction T}
    {es : List ConnectorEffect} {base : ConnectorLoop T} (hsteps : s.base.base.Steps b es base)
    (hbase : s'.base = { s.base with base }) (halive : s'.connectorAlive = s.connectorAlive)
    (hdone' : s'.dtor ≠ .done) (hbusy : s'.busy = [])
    (hcalls : ∀ t, (base.calls t).isSome = true → s'.dtor = .stopped t) : Tidy s' := by
  refine tidy_of_undone hdone' (halive.trans (h.alive hdone)) ?_ ?_ ?_ (fun _ => hbusy)
  · rw [hbase]
    exact hsteps.consistent
  · rw [hbase]
    exact h.numbered
  · intro t ht
    rw [hbase] at ht
    exact Or.inr (hcalls t ht)

theorem tidy_destroy (h : Tidy s) (hnone : s.dtor = .none) (hbusy : s.busy = []) {source : Option T}
    {forces : Bool} (hs : s.destroy source forces = some s') : Tidy s' := by
  have hdone : s.dtor ≠ .done := by simp [hnone]
  have hcalls : ∀ t, s.base.base.calls t = none := fun t => h.calls_none hbusy (by simp [hnone])
  have hflags : ∀ {s'' : ClientTeardown T}, s''.base = s.base → s''.dtor ≠ .done →
      s''.connectorAlive = s.connectorAlive → s''.busy = s.busy → Tidy s'' := by
    intro s'' hbase hdone' halive hbusy'
    refine tidy_of_undone hdone' (halive.trans (h.alive hdone)) ?_ ?_ ?_ (fun _ => hbusy'.trans hbusy)
    · rw [hbase]
      exact h.consistent
    · rw [hbase]
      exact h.numbered
    · intro t ht
      rw [hbase, hcalls t] at ht
      cases ht
  unfold destroy at hs
  split at hs
  · obtain ⟨s₁, hstop, rfl⟩ := Option.map_eq_some_iff.mp hs
    obtain ⟨es, base, hsteps, rfl⟩ := stepConnector_eq_some h.consistent hstop
    refine h.dtorStep hdone hsteps rfl rfl (by simp) hbusy fun t ht => ?_
    rw [hsteps.calls] at ht
    have hnone : s.base.base.calls t = none := hcalls t
    simp [ConnectorLoop.callsAfter, hnone] at ht
  · cases hs
    cases forces with
    | false => exact hflags rfl (by simp) rfl rfl
    | true =>
      refine tidy_of_undone (by simp) (h.alive hdone) (loopQueueInLoop_consistent h.consistent)
        h.numbered ?_ (fun _ => hbusy)
      intro t ht
      have hsome : (s.base.base.calls t).isSome = true := ht
      rw [hcalls t] at hsome
      cases hsome
  · cases hs
    exact hflags rfl (by simp) rfl rfl
  · cases hs
    exact hflags rfl (by simp) rfl rfl

omit [DecidableEq T] in
/-- The members are destroyed. -/
theorem tidy_done (h : Tidy s) {source : Option T} (hending : s.dtor = .ending source)
    (hclean : EndsClean s) :
    Tidy { s with
      base := { s.base with client := { s.base.client with connection_ := none } }
      dtor := .done
      connectorAlive := decide (s.base.base.timers ≠ 0) } := by
  have hbusy : s.busy = [] := h.busy (by simp [hending])
  refine ⟨h.consistent, h.numbered, ?_, fun _ => hbusy, ?_, ?_, ?_, ?_, fun _ => hclean.closing⟩
  · intro t ht
    rcases h.calls t ht with hmem | hstopped
    · exact Or.inl hmem
    · rw [hending] at hstopped
      cases hstopped
  · simp
  · intro hdead
    exact hclean.released (by simpa using hdead)
  · intro _ halive
    exact hclean.stopped (by simpa using halive)
  · intro _ conn hopen
    refine hclean.rebound conn ?_ hopen
    by_contra hge
    have hnone := (h.numbered conn).mpr (Nat.not_lt.mp hge)
    rcases hopen with hopen | hopen
    · exact absurd (hnone.symm.trans hopen) (by simp)
    · exact absurd (hnone.symm.trans hopen) (by simp)

theorem tidy_proceed (h : Tidy s) (hclean : ∀ source, s.dtor = .ending source → EndsClean s)
    (hs : s.proceed = some s') : Tidy s' := by
  have hqueue : ∀ {t s₁ dtor setting}, s.dtor ≠ .none → s.dtor ≠ .done → (∀ t, s.dtor ≠ .stopped t) →
      s.queueInLoop t = some s₁ → dtor ≠ .done → Tidy { s₁ with dtor, setting } := by
    intro t s₁ dtor setting hnone hdone hstopped hpush hdtor
    obtain ⟨es, base, hsteps, rfl⟩ := stepConnector_eq_some h.consistent hpush
    refine h.dtorStep hdone hsteps rfl rfl hdtor (h.busy hnone) fun t' ht' => ?_
    rw [hsteps.calls] at ht'
    replace ht' : (s.base.base.calls t').isSome = true := ht'
    rw [h.calls_none (h.busy hnone) (hstopped t')] at ht'
    cases ht'
  unfold proceed at hs
  split at hs
  · cases hs
  · cases hs
  · next t conn forces hdtor =>
    obtain ⟨s₁, hpush, rfl⟩ := Option.map_eq_some_iff.mp hs
    refine hqueue (by simp [hdtor]) (by simp [hdtor]) (by simp [hdtor]) hpush ?_
    split <;> simp
  · next t hdtor =>
    obtain ⟨s₁, hpush, rfl⟩ := Option.map_eq_some_iff.mp hs
    exact hqueue (by simp [hdtor]) (by simp [hdtor]) (by simp [hdtor]) hpush (by simp)
  · next t hdtor =>
    obtain ⟨s₁, hstop, rfl⟩ := Option.map_eq_some_iff.mp hs
    obtain ⟨es, base, hsteps, rfl⟩ := stepConnector_eq_some h.consistent hstop
    refine h.dtorStep (by simp [hdtor]) hsteps rfl rfl (by simp) (h.busy (by simp [hdtor]))
      fun t' ht' => ?_
    rw [hsteps.calls] at ht'
    by_cases heq : t' = t
    · rw [heq]
    · simp only [ConnectorLoop.callsAfter, Function.update_of_ne heq] at ht'
      rw [h.calls_none (h.busy (by simp [hdtor])) (by simp [hdtor])] at ht'
      cases ht'
  · next t hdtor =>
    obtain ⟨s₁, hpush, rfl⟩ := Option.map_eq_some_iff.mp hs
    obtain ⟨es, base, hsteps, rfl⟩ := stepConnector_eq_some h.consistent hpush
    refine h.dtorStep (by simp [hdtor]) hsteps rfl rfl (by simp) (h.busy (by simp [hdtor]))
      fun t' ht' => ?_
    rw [hsteps.calls] at ht'
    by_cases heq : t' = t
    · simp [ConnectorLoop.callsAfter, heq] at ht'
    · simp only [ConnectorLoop.callsAfter, Function.update_of_ne heq] at ht'
      rw [h.calls_none (h.busy (by simp [hdtor])) (by simp [hdtor, Ne.symm heq])] at ht'
      cases ht'
  · next source hdtor =>
    split at hs
    · cases hs
      exact tidy_done h hdtor (hclean source hdtor)
    · cases hs

/-- A step of the client and its loop. -/
theorem tidy_client (h : Tidy s) (hdone : s.dtor ≠ .done) {a : ClientAction T} {c' : ClientLoop T}
    (hs : s.base.step a = some c') (hcall : ∀ t, a = .callConnector t → t ∈ s.busy)
    (hstores : s.dtor ≠ .none → s.busyAfter a = []) (hbase : s'.base = c') (hdtor : s'.dtor = s.dtor)
    (halive : s'.connectorAlive = true) (hbusy : s'.busy = s.busyAfter a) : Tidy s' := by
  subst hbase
  refine tidy_of_undone (hdtor ▸ hdone) halive
    (ClientLoop.consistent_step _ _ _ h.consistent hs)
    (ClientLoop.numbered_step _ _ _ h.numbered hs) ?_ ?_
  · intro t ht
    rw [hdtor, hbusy]
    have hkept : t ∈ s.busy → a ≠ .base (.push t) → t ∈ s.busyAfter a := by
      intro hmem hne
      unfold busyAfter
      split
      · exact List.mem_cons_of_mem _ hmem
      · exact List.mem_cons_of_mem _ hmem
      · next t' =>
        refine (List.mem_erase_of_ne ?_).mpr hmem
        rintro rfl
        exact hne rfl
      · exact hmem
    rcases ClientLoop.calls_step h.consistent hs t ht with ⟨hsome, hne⟩ | rfl
    · exact (h.calls t hsome).imp_left fun hmem => hkept hmem hne
    · exact Or.inl (hkept (hcall t rfl) (by simp))
  · rw [hdtor, hbusy]
    exact hstores

/-! ## Events of the channel -/

def isHandler : ClientAction T → Bool
  | .base .handleError | .base (.handleWriter _ _) => true
  | _ => false

omit [DecidableEq T] in
theorem isHandler_of_mem {error : Bool} {write : Option (Option Errno × Bool)} {a : ClientAction T}
    (ha : a ∈ handlers T error write) : isHandler a = true := by
  rcases List.mem_append.mp ha with ha | ha
  · cases error with
    | false => cases ha
    | true =>
      obtain rfl := List.mem_singleton.mp ha
      rfl
  · cases write with
    | none => cases ha
    | some w =>
      obtain rfl := List.mem_singleton.mp ha
      rfl

theorem run_handlers {P : ClientLoop T → Prop} {c c' : ClientLoop T} {error : Bool}
    {write : Option (Option Errno × Bool)}
    (hstep : ∀ c a c', P c → isHandler a = true → c.step a = some c' → P c') (hc : P c)
    (hrun : run ClientLoop.step c (handlers T error write) = some c') : P c' :=
  run_inv_of_allSteps hstep hc (allSteps_of_forall fun _ ha => isHandler_of_mem ha) hrun

theorem tidy_handleEvent (h : Tidy s) (hdone : s.dtor ≠ .done) {error : Bool}
    {write : Option (Option Errno × Bool)} {c' : ClientLoop T}
    (hrun : run ClientLoop.step s.base (handlers T error write) = some c') :
    Tidy (s.withBase c') := by
  have hP : c'.base.loop.Consistent ∧ c'.Numbered ∧
      ∀ t, (c'.base.calls t).isSome = true → (s.base.base.calls t).isSome = true := by
    refine run_handlers (P := fun c => c.base.loop.Consistent ∧ c.Numbered ∧
      ∀ t, (c.base.calls t).isSome = true → (s.base.base.calls t).isSome = true) ?_
      ⟨h.consistent, h.numbered, fun t ht => ht⟩ hrun
    rintro c a c' ⟨hconsistent, hnumbered, hcalls⟩ ha hs
    refine ⟨ClientLoop.consistent_step _ _ _ hconsistent hs,
      ClientLoop.numbered_step _ _ _ hnumbered hs, fun t ht => ?_⟩
    rcases ClientLoop.calls_step hconsistent hs t ht with ⟨hsome, -⟩ | rfl
    · exact hcalls t hsome
    · cases ha
  obtain ⟨hconsistent, hnumbered, hcalls⟩ := hP
  exact tidy_of_undone hdone (h.alive hdone) hconsistent hnumbered
    (fun t ht => h.calls t (hcalls t ht)) h.busy

/-! ## After the destructor -/

omit [DecidableEq T] in
theorem Tidy.afterwards (h : Tidy s) (hdone : s.dtor = .done)
    (hconsistent : s'.base.base.loop.Consistent) (hnumbered : s'.base.Numbered)
    (hcalls : s'.base.base.calls = s.base.base.calls)
    (hopen : ∀ conn, s'.base.IsOpen conn → s.base.IsOpen conn) (hdtor : s'.dtor = s.dtor)
    (hbusy : s'.busy = s.busy) (hrebound : ∀ conn, Rebound s conn → Rebound s' conn)
    (hclosing : ∀ conn ∈ s'.closing, s'.detached conn = true)
    (hholding : s'.connectorAlive = true ↔ s'.base.base.timers ≠ 0)
    (hreleased : s'.connectorAlive = false → Released s')
    (hstopped : s'.connectorAlive = true → s'.base.base.conn.connect_ = false) : Tidy s' := by
  refine ⟨hconsistent, hnumbered, ?_, ?_, ?_, hreleased, fun _ => hstopped, ?_, fun _ => hclosing⟩
  · intro t ht
    rw [hcalls, h.calls_none (h.busy (by simp [hdone])) (by simp [hdone])] at ht
    cases ht
  · rw [hdtor, hbusy]
    exact h.busy
  · rw [hholding, hdtor, hdone]
    simp
  · exact fun _ conn hconn => hrebound conn (h.rebound hdone conn (hopen conn hconn))

omit [DecidableEq T] in
theorem Tidy.alive_iff (h : Tidy s) (hdone : s.dtor = .done) :
    s.connectorAlive = true ↔ s.base.base.timers ≠ 0 := by
  rw [h.holding, hdone]
  simp

/-- The loop calls a functor, or does something of its own. -/
def isLoopStep : ConnectorAction T → Bool
  | .loop _ | .callFunctor _ | .otherChannels _ => true
  | _ => false

/-- **A loop in which nothing is bound to the connector** leaves the connector alone. -/
theorem released_step (hc : s.base.base.loop.Consistent) (hreleased : Released s)
    {b : ConnectorAction T} (hb : isLoopStep b = true) {c' : ClientLoop T}
    (hs : s.base.step (.base b) = some c') (hbase : s'.base = c') (hstray : s'.stray = (s.withBase c').stray) :
    ∃ es base, s.base.base.Steps b es base ∧ c' = { s.base with base } ∧
      base.timers = s.base.base.timers ∧ Released s' := by
  subst hbase
  obtain ⟨base, hstep, hdeliver⟩ := ClientLoop.base_of_step hs
  obtain ⟨es, hsteps⟩ := ConnectorLoop.step_result hc hstep
  obtain ⟨hqueue, hwatched⟩ := hreleased
  obtain ⟨hadded, hnone⟩ := List.append_eq_nil_iff.mp hwatched
  have hresult : es = [] ∧ base.conn.channel = s.base.base.conn.channel := by
    have hresult := hsteps.result
    cases b with
    | loop | otherChannels =>
      simp only [ConnectorLoop.result, Option.some.injEq, Prod.mk.injEq] at hresult
      obtain ⟨heq, rfl⟩ := hresult
      exact ⟨rfl, by rw [← heq]⟩
    | callFunctor r =>
      simp only [ConnectorLoop.result] at hresult
      split at hresult
      · next f hhead =>
        have hmem : some f ∈ s.base.base.loop.queue :=
          List.mem_append_left _ (List.mem_of_head? hhead)
        cases hqueue _ hmem
      · simp only [Option.some.injEq, Prod.mk.injEq] at hresult
        obtain ⟨heq, rfl⟩ := hresult
        exact ⟨rfl, by rw [← heq]⟩
    | start | stop | restart | timer | handleWriter | handleError | storeStart | storeStop
    | push => cases hb
  obtain ⟨rfl, hchannel⟩ := hresult
  rw [hsteps.effects] at hdeliver
  have heq : s'.base = { s.base with base } := hdeliver
  have hexpires : ConnectorLoop.expires b = 0 := by
    cases b <;> first | rfl | cases hb
  refine ⟨[], base, hsteps, heq, ?_, ?_, ?_⟩
  · have htimers := hsteps.timers
    rw [hexpires] at htimers
    exact htimers
  · intro task htask
    rw [heq] at htask
    replace htask : task ∈ base.loop.queue := htask
    rw [hsteps.queue, List.mem_append, List.mem_append] at htask
    rcases htask with (htask | htask) | htask
    · exact hqueue task (List.mem_of_mem_drop htask)
    · cases b with
      | loop a =>
        obtain ⟨f, -, rfl⟩ := List.mem_map.mp htask
        rfl
      | callFunctor | otherChannels => cases htask
      | start | stop | restart | timer | handleWriter | handleError | storeStart | storeStop
      | push => cases hb
    · cases htask
  · have hkept : s'.stray = [] := by
      rw [hstray, withBase, hnone, Connector.abandons_of_added hadded]
      rfl
    rw [watched, hkept, heq, List.append_nil]
    show base.conn.added = []
    unfold Connector.added
    rw [hchannel]
    exact hadded

omit [DecidableEq T] in
theorem callsAfter_of_isLoopStep (s : ConnectorLoop T) [DecidableEq T] {b : ConnectorAction T}
    (hb : isLoopStep b = true) : s.callsAfter b = s.calls := by
  cases b with
  | loop | callFunctor | otherChannels => rfl
  | start | stop | restart | timer | handleWriter | handleError | storeStart | storeStop
  | push => cases hb

/-- A step of the loop after the destructor. -/
theorem tidy_loopStep (h : Tidy s) (hdone : s.dtor = .done) {b : ConnectorAction T}
    (hb : isLoopStep b = true) {c' : ClientLoop T} (hs : s.base.step (.base b) = some c')
    (hbase : s'.base = c') (hstray : s'.stray = (s.withBase c').stray) (hdtor : s'.dtor = s.dtor)
    (hbusy : s'.busy = s.busy) (halive : s'.connectorAlive = s.connectorAlive)
    (hrebound : ∀ conn, Rebound s conn → Rebound s' conn)
    (hclosing : ∀ conn ∈ s'.closing, s'.detached conn = true) : Tidy s' := by
  have hiff := h.alive_iff hdone
  have hexpires : ConnectorLoop.expires b = 0 := by
    cases b <;> first | rfl | cases hb
  by_cases hlives : s.connectorAlive = true
  · obtain ⟨es, base, hsteps, rfl, hoff⟩ :=
      ClientLoop.base_of_stopped h.consistent (h.stopped hdone hlives) hs
    have htimers := hsteps.timers
    have hpos := hiff.mp hlives
    refine h.afterwards hdone ?_ ?_ ?_ ?_ hdtor hbusy hrebound hclosing ?_ ?_ ?_
    · rw [hbase]
      exact hsteps.consistent
    · rw [hbase]
      exact h.numbered
    · rw [hbase]
      exact hsteps.calls.trans (callsAfter_of_isLoopStep _ hb)
    · rw [hbase]
      exact fun conn hopen => hopen
    · rw [hbase, halive, hlives]
      refine ⟨fun _ => ?_, fun _ => rfl⟩
      show base.timers ≠ 0
      omega
    · intro hdead
      rw [halive, hlives] at hdead
      cases hdead
    · rw [hbase]
      exact fun _ => hoff
  · have hdead : s.connectorAlive = false := by simpa using hlives
    obtain ⟨es, base, hsteps, rfl, htimers, hreleased⟩ :=
      released_step h.consistent (h.released hdead) hb hs hbase hstray
    refine h.afterwards hdone ?_ ?_ ?_ ?_ hdtor hbusy hrebound hclosing ?_ (fun _ => hreleased) ?_
    · rw [hbase]
      exact hsteps.consistent
    · rw [hbase]
      exact h.numbered
    · rw [hbase]
      exact hsteps.calls.trans (callsAfter_of_isLoopStep _ hb)
    · rw [hbase]
      exact fun conn hopen => hopen
    · rw [hbase, halive, hiff]
      show _ ↔ base.timers ≠ 0
      rw [htimers]
    · intro hlives'
      rw [halive, hdead] at hlives'
      cases hlives'

omit [DecidableEq T] in
/-- `setCloseCallback` comes nearer, or has run. -/
theorem rebound_advanceSetting {conn : Nat} (h : Rebound s conn) : Rebound s.advanceSetting conn := by
  unfold advanceSetting
  split
  · exact h
  · next conn' hsetting =>
    left
    show Function.update s.detached conn' true conn = true
    by_cases hconn : conn = conn'
    · rw [hconn, Function.update_self]
    · rw [Function.update_of_ne hconn]
      refine h.resolve_right fun heq => hconn ?_
      rw [hsetting] at heq
      exact (Option.some.inj heq).symm
  · next conn' ahead hsetting =>
    refine h.imp_right fun heq => ?_
    rw [hsetting] at heq
    exact heq

omit [DecidableEq T] in
theorem detached_advanceSetting {conn : Nat} (h : s.detached conn = true) :
    s.advanceSetting.detached conn = true := by
  unfold advanceSetting
  split
  · exact h
  · next conn' _ =>
    show Function.update s.detached conn' true conn = true
    by_cases hconn : conn = conn'
    · rw [hconn, Function.update_self]
    · rw [Function.update_of_ne hconn]
      exact h
  · exact h

omit [DecidableEq T] in
theorem advanceSetting_eq (s : ClientTeardown T) : s.advanceSetting.dtor = s.dtor ∧
    s.advanceSetting.busy = s.busy ∧ s.advanceSetting.connectorAlive = s.connectorAlive ∧
    s.advanceSetting.base = s.base ∧ s.advanceSetting.stray = s.stray ∧
    s.advanceSetting.closing = s.closing := by
  unfold advanceSetting
  split <;> exact ⟨rfl, rfl, rfl, rfl, rfl, rfl⟩

/-- A timer of a connector that is stopped runs out. -/
theorem tidy_timer (h : Tidy s) (hdone : s.dtor = .done)
    (hclean : s.base.base.timers = 1 → Released s) {r : Attempt} {c' : ClientLoop T}
    (hs : s.base.step (.base (.timer r)) = some c') :
    Tidy { s.withBase c' with
      connectorAlive := s.connectorAlive && (s.dtor != .done || decide (c'.base.timers ≠ 0)) } := by
  have hpos : s.base.base.timers ≠ 0 := by
    obtain ⟨base, hbase, -⟩ := ClientLoop.base_of_step hs
    obtain ⟨es, hsteps⟩ := ConnectorLoop.step_result h.consistent hbase
    have hexpires : 1 ≤ s.base.base.timers := hsteps.expires
    omega
  have hlives := (h.alive_iff hdone).mpr hpos
  have hoff := h.stopped hdone hlives
  obtain ⟨es, base, hsteps, rfl, hoff'⟩ := ClientLoop.base_of_stopped h.consistent hoff hs
  -- `startInLoop` finds `connect_` false
  have hresult := hsteps.result
  simp only [ConnectorLoop.result, Connector.startInLoop, hoff, Bool.false_eq_true, if_false,
    Option.some.injEq, Prod.mk.injEq] at hresult
  obtain ⟨hconn, rfl⟩ := hresult
  have htimers : base.timers + 1 = s.base.base.timers := hsteps.timers
  refine h.afterwards hdone hsteps.consistent h.numbered hsteps.calls (fun conn hopen => hopen) rfl rfl
    (fun conn hrebound => hrebound) (h.closing hdone) ?_ ?_ (fun _ => hoff')
  · simp [hlives, hdone]
  · intro hdead
    have hzero : base.timers = 0 := by simpa [hlives, hdone] using hdead
    obtain ⟨hqueue, hwatched⟩ := hclean (by omega)
    obtain ⟨hadded, hnone⟩ := List.append_eq_nil_iff.mp hwatched
    refine ⟨fun task htask => hqueue task ?_, ?_⟩
    · replace htask : task ∈ base.loop.queue := htask
      rw [hsteps.queue] at htask
      simpa [ConnectorLoop.takes, ConnectorLoop.pushes] using htask
    · show base.conn.added ++ (s.stray ++ s.base.base.conn.abandons base.conn) = []
      rw [hnone, Connector.abandons_of_added hadded, ← hconn]
      simpa using hadded

/-- An event of a channel of a connector that a timer keeps. -/
theorem tidy_handleEvent_done (h : Tidy s) (hdone : s.dtor = .done) {fd : Nat} {error : Bool}
    {write : Option (Option Errno × Bool)} {c' : ClientLoop T} (hwatched : fd ∈ s.watched)
    (hrun : run ClientLoop.step s.base (handlers T error write) = some c') :
    Tidy (s.withBase c') ∧ c'.created = s.base.created := by
  have hlives : s.connectorAlive = true := by
    by_contra hdead
    rw [(h.released (by simpa using hdead)).2] at hwatched
    cases hwatched
  have hP : (c'.base.loop.Consistent ∧ c'.base.conn.connect_ = false ∧ c'.base.timers ≠ 0) ∧
      c'.base.calls = s.base.base.calls ∧ c'.conns = s.base.conns ∧ c'.created = s.base.created := by
    refine run_handlers (P := fun c =>
      (c.base.loop.Consistent ∧ c.base.conn.connect_ = false ∧ c.base.timers ≠ 0) ∧
        c.base.calls = s.base.base.calls ∧ c.conns = s.base.conns ∧ c.created = s.base.created) ?_
      ⟨⟨h.consistent, h.stopped hdone hlives, (h.alive_iff hdone).mp hlives⟩, rfl, rfl, rfl⟩ hrun
    rintro c a c' ⟨⟨hconsistent, hoff, htimers⟩, hcalls, hconns, hcreated⟩ ha hs
    cases a with
    | base b =>
      obtain ⟨es, base, hsteps, rfl, hoff'⟩ := ClientLoop.base_of_stopped hconsistent hoff hs
      have hcount := hsteps.timers
      have hafter := hsteps.calls
      cases b with
      | handleError | handleWriter =>
        refine ⟨⟨hsteps.consistent, hoff', ?_⟩, hafter.trans hcalls, hconns, hcreated⟩
        have hexpires : base.timers + 0 = c.base.timers + es.count .runAfter := hcount
        show base.timers ≠ 0
        omega
      | loop | callFunctor | start | stop | restart | timer | storeStart | storeStop | push
      | otherChannels => cases ha
    | connect | disconnect | stop | enableRetry | storeConnect | storeDisconnect | storeStop
    | storeRetry | callConnector | handleClose | closeCallback => cases ha
  obtain ⟨⟨hconsistent, hoff, htimers⟩, hcalls, hconns, hcreated⟩ := hP
  refine ⟨h.afterwards hdone hconsistent ?_ hcalls ?_ rfl rfl (fun conn hrebound => hrebound)
    (h.closing hdone) ?_ ?_ (fun _ => hoff), hcreated⟩
  · intro conn
    show c'.conns conn = none ↔ c'.created ≤ conn
    rw [hconns, hcreated]
    exact h.numbered conn
  · intro conn hopen
    show s.base.conns conn = some .up ∨ s.base.conns conn = some .down
    rw [← hconns]
    exact hopen
  · exact ⟨fun _ => htimers, fun _ => hlives⟩
  · intro hdead
    rw [withBase_connectorAlive, hlives] at hdead
    cases hdead

/-- A connection closes that has another callback. -/
theorem tidy_removeConnection (h : Tidy s) {conn : Nat} (hlt : conn < s.base.created) :
    Tidy { s with
      base := { loopQueueInLoop s.base with
        conns := Function.update s.base.conns conn (some .closed) }
      closing := s.closing.erase conn } := by
  have hnumbered : ClientLoop.Numbered { loopQueueInLoop s.base with
      conns := Function.update s.base.conns conn (some .closed) } := h.numbered.update hlt _ rfl rfl
  by_cases hdone : s.dtor = .done
  · refine h.afterwards hdone (loopQueueInLoop_consistent h.consistent) hnumbered rfl ?_ rfl rfl
      (fun conn hrebound => hrebound)
      (fun conn' hconn' => h.closing hdone conn' (List.mem_of_mem_erase hconn')) (h.alive_iff hdone) ?_
      (h.stopped hdone)
    · intro conn' hopen
      replace hopen : Function.update s.base.conns conn (some .closed) conn' = some .up ∨
        Function.update s.base.conns conn (some .closed) conn' = some .down := hopen
      by_cases hconn : conn' = conn
      · subst hconn
        rw [Function.update_self] at hopen
        rcases hopen with hopen | hopen <;> cases hopen
      · rw [Function.update_of_ne hconn] at hopen
        exact hopen
    · intro hdead
      obtain ⟨hqueue, hwatched⟩ := h.released hdead
      refine ⟨fun task htask => ?_, hwatched⟩
      replace htask : task ∈ s.base.base.loop.functors ++ (s.base.base.loop.pendingFunctors ++ [none]) :=
        htask
      rw [← List.append_assoc] at htask
      rcases List.mem_append.mp htask with htask | htask
      · exact hqueue task htask
      · exact List.mem_singleton.mp htask
  · exact tidy_of_undone hdone (h.alive hdone) (loopQueueInLoop_consistent h.consistent) hnumbered
      h.calls h.busy

omit [DecidableEq T] in
/-- A connection that begins to close has another callback, or gets one at once. -/
theorem tidy_handleClose (h : Tidy s) (hdone : s.dtor = .done) {conn : Nat}
    (hclean : s.Clean (.base (.handleClose conn))) (hlt : conn < s.base.created) :
    Tidy { s.withBase (s.base.handleClose conn) with closing := conn :: s.closing } := by
  have hwatched : (s.withBase (s.base.handleClose conn)).watched = s.watched := by
    show s.base.base.conn.added ++ (s.stray ++ s.base.base.conn.abandons s.base.base.conn) = s.watched
    rw [Connector.abandons_self, List.append_nil]
    rfl
  refine h.afterwards hdone h.consistent (h.numbered.update hlt _ rfl rfl) rfl
    (fun conn' => (h.numbered.isOpen_handleClose hlt conn').mp) rfl rfl
    (fun conn hrebound => hrebound) ?_ (h.alive_iff hdone) ?_ (h.stopped hdone)
  · intro conn' hconn'
    rcases List.mem_cons.mp hconn' with rfl | hold
    · rcases hclean hdone with hdetached | ⟨hclosed, hsetting⟩
      · exact hdetached
      · have hopen : s.base.IsOpen conn' := by
          cases hstatus : s.base.conns conn' with
          | none =>
            have hge := (h.numbered conn').mp hstatus
            omega
          | some status =>
            cases status with
            | up => exact Or.inl hstatus
            | down => exact Or.inr hstatus
            | closed => exact absurd hstatus hclosed
        exact (h.rebound hdone conn' hopen).resolve_right hsetting
    · exact h.closing hdone conn' hold
  · intro hdead
    exact ⟨(h.released hdead).1, hwatched.trans (h.released hdead).2⟩

/-! ## Steps -/

theorem removeConnection_eq_some {conn : Nat} (hs : s.step (.removeConnection conn) = some s') :
    conn < s.base.created ∧
      s' = { s with
        base := { loopQueueInLoop s.base with
          conns := Function.update s.base.conns conn (some .closed) }
        closing := s.closing.erase conn } := by
  simp only [step, Option.ite_none_right_eq_some, Bool.and_eq_true, decide_eq_true_eq,
    Option.some.injEq] at hs
  obtain ⟨⟨⟨⟨⟨⟨-, -⟩, -⟩, hlt⟩, -⟩, -⟩, rfl⟩ := hs
  exact ⟨hlt, rfl⟩

omit [DecidableEq T] in
/-- A connection that comes to its old callback does so before the destructor has returned. -/
theorem Tidy.closeCallback (h : Tidy s) {conn : Nat} (hclosing : conn ∈ s.closing)
    (hdetached : s.detached conn = false) : s.dtor ≠ .done := by
  intro hdone
  rw [h.closing hdone conn hclosing] at hdetached
  cases hdetached

/-- **Every clean step** keeps the invariant. -/
theorem tidy_step (s : ClientTeardown T) (a : TeardownAction T) (s' : ClientTeardown T) (h : Tidy s)
    (hclean : s.Clean a) (hs : s.step a = some s') : Tidy s' := by
  cases a with
  | base a =>
    simp only [step, Option.ite_none_right_eq_some, Option.map_eq_some_iff] at hs
    obtain ⟨hmay, c', hstep, rfl⟩ := hs
    have hcall : ∀ t, a = .callConnector t → t ∈ s.busy := by
      rintro t rfl
      simpa [mayTake] using hmay
    by_cases hdone : s.dtor = .done
    · have hbusy : s.busy = [] := h.busy (by simp [hdone])
      have hnone : (s.dtor == .none) = false := by simp [hdone]
      cases a with
      | base b =>
        cases b with
        | loop | otherChannels =>
          exact tidy_loopStep h hdone rfl hstep rfl rfl rfl rfl rfl (fun conn hrebound => hrebound)
            (h.closing hdone)
        | push t =>
          simp [mayTake, hbusy] at hmay
        | callFunctor | start | stop | restart | timer | handleWriter | handleError | storeStart
        | storeStop => cases hmay
      | connect | disconnect | stop | enableRetry | storeConnect | storeDisconnect | storeStop
      | storeRetry =>
        simp only [mayTake, hnone, Bool.false_eq_true] at hmay
      | callConnector t =>
        simp [mayTake, hbusy] at hmay
      | handleClose conn =>
        cases ClientLoop.moves_of_step hstep with
        | handleClose hlt => exact tidy_handleClose h hdone hclean hlt
      | closeCallback conn r =>
        simp only [mayTake, Bool.and_eq_true, Bool.not_eq_true', List.contains_iff_mem] at hmay
        exact absurd hdone (h.closeCallback hmay.1.2 hmay.2)
    · refine tidy_client h hdone hstep hcall (fun hdtor => ?_) rfl rfl (h.alive hdone) rfl
      have hbusy := h.busy hdtor
      have hnone : (s.dtor == .none) = false := by simpa using hdtor
      unfold busyAfter
      split
      · simp only [mayTake, hnone, Bool.false_eq_true] at hmay
      · simp only [mayTake, hnone, Bool.false_eq_true] at hmay
      · rw [hbusy]
        rfl
      · exact hbusy
  | callFunctor r =>
    simp only [step, Option.ite_none_left_eq_some, Option.map_eq_some_iff] at hs
    obtain ⟨-, c', hstep, rfl⟩ := hs
    obtain ⟨hdtor, hbusy, halive, hbase, hstray, hclosing⟩ := advanceSetting_eq s
    by_cases hdone : s.dtor = .done
    · refine tidy_loopStep h hdone rfl hstep rfl ?_ hdtor hbusy halive
        (fun conn hrebound => rebound_advanceSetting hrebound) ?_
      · simp only [withBase, hbase, hstray]
      · intro conn hconn
        replace hconn : conn ∈ s.advanceSetting.closing := hconn
        rw [hclosing] at hconn
        exact detached_advanceSetting (h.closing hdone conn hconn)
    · exact tidy_client h hdone hstep (by simp) h.busy rfl hdtor (halive.trans (h.alive hdone)) hbusy
  | timer r =>
    simp only [step, Option.ite_none_left_eq_some, Option.map_eq_some_iff] at hs
    obtain ⟨-, c', hstep, rfl⟩ := hs
    by_cases hdone : s.dtor = .done
    · exact tidy_timer h hdone (hclean hdone) hstep
    · refine tidy_client h hdone hstep (by simp) h.busy rfl rfl ?_ rfl
      simp [h.alive hdone, hdone]
  | handleEvent fd error write =>
    simp only [step, Option.ite_none_right_eq_some, Bool.and_eq_true, List.contains_iff_mem,
      Option.map_eq_some_iff] at hs
    obtain ⟨⟨⟨-, hwatched⟩, -⟩, c', hrun, rfl⟩ := hs
    by_cases hdone : s.dtor = .done
    · exact (tidy_handleEvent_done h hdone hwatched hrun).1
    · exact tidy_handleEvent h hdone hrun
  | removeConnection conn =>
    obtain ⟨hlt, rfl⟩ := removeConnection_eq_some hs
    exact tidy_removeConnection h hlt
  | destroy source forces =>
    simp only [step, Option.ite_none_right_eq_some, Bool.and_eq_true, beq_iff_eq,
      List.isEmpty_iff] at hs
    obtain ⟨⟨⟨hnone, hbusy⟩, -⟩, hs⟩ := hs
    exact tidy_destroy h hnone hbusy hs
  | proceed => exact tidy_proceed h hclean hs

/-- A clean step calls live objects only. -/
theorem Tidy.callsLive (h : Tidy s) (a : TeardownAction T) : s.CallsLive a := by
  intro hsome
  obtain ⟨s', hs⟩ := Option.isSome_iff_exists.mp hsome
  refine ⟨fun hcalls => ?_, fun hcalls hdone => ?_⟩
  · by_contra hnot
    have hdead : s.connectorAlive = false := by simpa using hnot
    obtain ⟨hqueue, hwatched⟩ := h.released hdead
    cases a with
    | callFunctor r =>
      obtain ⟨f, hf⟩ := Option.isSome_iff_exists.mp hcalls
      obtain ⟨task, hhead, htask⟩ := Option.bind_eq_some_iff.mp hf
      have hnone := hqueue task (List.mem_append_left _ (List.mem_of_head? hhead))
      rw [hnone] at htask
      cases htask
    | timer r =>
      simp only [step, Option.ite_none_left_eq_some, Option.map_eq_some_iff] at hs
      obtain ⟨-, c', hstep, -⟩ := hs
      obtain ⟨base, hbase, -⟩ := ClientLoop.base_of_step hstep
      obtain ⟨es, hsteps⟩ := ConnectorLoop.step_result h.consistent hbase
      have hexpires : 1 ≤ s.base.base.timers := hsteps.expires
      exact hnot (h.holding.mpr (Or.inr (by omega)))
    | handleEvent fd error write =>
      simp only [step, Option.ite_none_right_eq_some, Bool.and_eq_true, hwatched] at hs
      cases hs.1.1.2
    | base | removeConnection | destroy | proceed => cases hcalls
  · cases a with
    | base a =>
      simp only [step, Option.ite_none_right_eq_some, Option.map_eq_some_iff] at hs
      obtain ⟨hmay, c', hstep, -⟩ := hs
      cases a with
      | closeCallback conn r =>
        simp only [mayTake, Bool.and_eq_true, Bool.not_eq_true', List.contains_iff_mem] at hmay
        exact h.closeCallback hmay.1.2 hmay.2 hdone
      | base | connect | disconnect | stop | enableRetry | storeConnect | storeDisconnect | storeStop
      | storeRetry | callConnector | handleClose => cases hcalls
    | handleEvent fd error write =>
      simp only [step, Option.ite_none_right_eq_some, Bool.and_eq_true, List.contains_iff_mem,
        Option.map_eq_some_iff] at hs
      obtain ⟨⟨⟨-, hwatched⟩, -⟩, c', hrun, -⟩ := hs
      have hsame := (tidy_handleEvent_done h hdone hwatched hrun).2
      simp [callsClient, hrun, hsame] at hcalls
    | callFunctor | timer | removeConnection | destroy | proceed => cases hcalls

/-! ## Runs -/

instance decidableCallsLive (s : ClientTeardown T) (a : TeardownAction T) : Decidable (s.CallsLive a) :=
  inferInstanceAs (Decidable ((s.step a).isSome = true →
    (s.callsConnector a = true → s.connectorAlive = true) ∧ (s.callsClient a = true → s.dtor ≠ .done)))

instance decidableReleased (s : ClientTeardown T) : Decidable (Released s) :=
  inferInstanceAs (Decidable ((∀ task ∈ s.base.base.loop.queue, task = none) ∧ s.watched = []))

instance decidableRegistered (c : Connector) (fd : Nat) : Decidable (c.Registered fd) :=
  match hch : c.channel with
  | none => isFalse fun ⟨_, h, _⟩ => by rw [hch] at h; cases h
  | some ch =>
    decidable_of_iff (ch.fd = fd ∧ (ch.index = .kAdded ∧
        c.poller.interest ch.fd = some ⟨ch.events, ch.addr⟩) ∧ c.poller.channels fd = some ch.addr)
      ⟨fun h => ⟨ch, hch, h⟩, fun ⟨_, h, hregistered⟩ => by
        rw [hch, Option.some.injEq] at h
        rw [h]
        exact hregistered⟩

instance decidableEndsClean (s : ClientTeardown T) : Decidable (EndsClean s) :=
  decidable_of_iff ((s.base.base.timers = 0 → Released s) ∧
      (s.base.base.timers ≠ 0 → s.base.base.conn.connect_ = false) ∧
      (∀ conn < s.base.created, s.base.IsOpen conn →
        s.detached conn = true ∨ s.setting.map Prod.fst = some conn) ∧
      ∀ conn ∈ s.closing, s.detached conn = true)
    ⟨fun ⟨hreleased, hstopped, hrebound, hclosing⟩ => ⟨hreleased, hstopped, hrebound, hclosing⟩,
      fun h => ⟨h.released, h.stopped, h.rebound, h.closing⟩⟩

instance decidableClean (s : ClientTeardown T) : ∀ a, Decidable (s.Clean a)
  | .proceed =>
    match hdtor : s.dtor with
    | .ending source =>
      decidable_of_iff (EndsClean s) ⟨fun h _ _ => h, fun h => h source hdtor⟩
    | .none | .setting _ _ _ | .forcing _ | .stopping _ | .stopped _ | .done =>
      isTrue fun _ h => by rw [hdtor] at h; cases h
  | .timer _ => inferInstanceAs (Decidable (s.dtor = .done → s.base.base.timers = 1 → Released s))
  | .base (.handleClose conn) =>
    inferInstanceAs (Decidable (s.dtor = .done → s.detached conn = true ∨
      s.base.conns conn ≠ some .closed ∧ s.setting.map Prod.fst ≠ some conn))
  | .base (.base _) | .base (.connect _) | .base .disconnect | .base .stop | .base .enableRetry
  | .base (.storeConnect _) | .base (.storeDisconnect _) | .base (.storeStop _) | .base (.storeRetry _)
  | .base (.callConnector _) | .base (.closeCallback _ _) | .callFunctor _ | .handleEvent _ _ _
  | .removeConnection _ | .destroy _ _ => isTrue trivial

/-- The loop's own steps from the end of a batch to the events of the next `poll`. -/
def nextPoll : List (TeardownAction Unit) :=
  [.base (.base (.loop .testQuit)), .base (.base (.loop (.pollReturns false)))]

/-- `n` functors are called. -/
def batch (n : Nat) : List (TeardownAction Unit) :=
  [.base (.base (.loop .beginFunctors)), .base (.base (.loop .swapFunctors))] ++
    List.replicate n (.callFunctor ⟨7, 2, none⟩)

def endOfBatch : List (TeardownAction Unit) :=
  [.base (.base (.loop .endFunctors)), .base (.base (.loop .destroyFunctors))]

/-- An attempt is in progress. -/
def attempting : List (TeardownAction Unit) :=
  [.base (.connect ⟨5, 0, some .EINPROGRESS⟩), .base (.base (.loop .enterLoop)),
    .base (.base (.loop .resetQuit))] ++ nextPoll

/-- The connection comes up on `fd`. -/
def comesUp (fd : Nat) : List (TeardownAction Unit) :=
  [.handleEvent fd false (some (none, false))] ++ batch 1 ++ endOfBatch ++ nextPoll

/-- Another thread destroys the client and forces its connection to close. -/
def destroyedConnected : List (TeardownAction Unit) :=
  attempting ++ comesUp 5 ++
    [.destroy (some ()) true, .proceed, .base (.base (.loop (.wakeup ()))), .proceed,
      .base (.base (.loop (.wakeup ()))), .proceed] ++ batch 2 ++
    [.base (.handleClose 0), .removeConnection 0]

/-- The client is destroyed on the loop thread while the attempt is in progress. -/
def destroyedInFlight : List (TeardownAction Unit) :=
  attempting ++ [.destroy none false, .proceed]

/-- A second `connect()` frees the channel of the attempt in progress; the client is destroyed on the loop
thread when the second attempt has come up. -/
def destroyedTwice : List (TeardownAction Unit) :=
  attempting ++ [.base (.connect ⟨6, 1, some .EINPROGRESS⟩)] ++ comesUp 6 ++
    [.destroy none false, .proceed]

end ClientTeardown
end Muduo
