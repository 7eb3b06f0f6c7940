import Muduo.Confinement
import Mathlib.Data.Int.CardIntervalMod

/-!
# How connections are spread over the loops

`getNextLoop` hands out the loops of the pool in turn.

* The `id`-th connection is given to loop `id % numThreads + 1`, or to the base loop without a pool: nothing
  but `newConnection` moves `next_` (`spread_step`), and a connection never changes its loop.
* So of the connections accepted in a run no loop of the pool has two more than another (`round_robin`).
-/

namespace Muduo
namespace ServerLoops

open Transition

variable {T : Type*}

/-- The loop of the `id`-th connection. -/
def homeLoop (numThreads id : Nat) : Nat := if numThreads = 0 then 0 else id % numThreads + 1

/-- `next_` before the `n`-th connection. -/
def nextOf (numThreads n : Nat) : Nat := if numThreads = 0 then 0 else n % numThreads

theorem getNextLoop_eq {s : ServerLoops T} (h : s.next = nextOf s.numThreads s.created) :
    s.getNextLoop = (homeLoop s.numThreads s.created, nextOf s.numThreads (s.created + 1)) := by
  unfold getNextLoop homeLoop nextOf at *
  by_cases hnum : s.numThreads = 0
  · simp only [if_pos hnum] at h ⊢
    rw [h]
  · simp only [if_neg hnum] at h ⊢
    have hlt := Nat.mod_lt s.created (Nat.pos_of_ne_zero hnum)
    have hsucc : (s.created + 1) % s.numThreads = (s.created % s.numThreads + 1) % s.numThreads :=
      (Nat.mod_add_mod ..).symm
    rw [h, hsucc]
    by_cases hlast : s.created % s.numThreads + 1 = s.numThreads
    · rw [if_pos (Nat.le_of_eq hlast.symm), hlast, Nat.mod_self]
    · have hnot : ¬ s.created % s.numThreads + 1 ≥ s.numThreads := by omega
      rw [if_neg hnot, Nat.mod_eq_of_lt (a := s.created % s.numThreads + 1) (by omega)]

/-! ## Functions that make no connection -/

/-- No connection is made, and none comes to life again. -/
structure MakesNone (s s' : ServerLoops T) : Prop where
  numThreads : s'.numThreads = s.numThreads
  next : s'.next = s.next
  created : s'.created = s.created
  alive : ∀ p, s'.alive p = true → s.alive p = true
  connections : ∀ p ∈ s'.connections, p ∈ s.connections

theorem MakesNone.refl (s : ServerLoops T) : MakesNone s s :=
  ⟨rfl, rfl, rfl, fun _ => id, fun _ => id⟩

theorem MakesNone.trans {s s' s'' : ServerLoops T} (h : MakesNone s s') (h' : MakesNone s' s'') :
    MakesNone s s'' where
  numThreads := h'.numThreads.trans h.numThreads
  next := h'.next.trans h.next
  created := h'.created.trans h.created
  alive p hp := h.alive p (h'.alive p hp)
  connections p hp := h.connections p (h'.connections p hp)

theorem makesNone_of_eq {s s' : ServerLoops T} (hnum : s'.numThreads = s.numThreads)
    (hnext : s'.next = s.next) (hcreated : s'.created = s.created) (halive : s'.alive = s.alive)
    (hconnections : s'.connections = s.connections) : MakesNone s s' := by
  refine ⟨hnum, hnext, hcreated, ?_, ?_⟩
  · rw [halive]
    exact fun _ => id
  · rw [hconnections]
    exact fun _ => id

variable [DecidableEq T] {s s' : ServerLoops T} {th : Thread T} {l : Nat} {p : ConnPtr}

theorem makesNone_queueInLoop {f : LoopsFunctor} (h : s.queueInLoop th l f = some s') :
    MakesNone s s' := by
  obtain ⟨loop, -, rfl⟩ := Option.map_eq_some_iff.mp h
  exact makesNone_of_eq rfl rfl rfl rfl rfl

theorem makesNone_effect {e : Effect} (h : s.effect th p e = some s') : MakesNone s s' := by
  cases e with
  | queueInLoop f => exact makesNone_queueInLoop h
  | closeCallback =>
    cases h
    exact makesNone_of_eq rfl rfl rfl rfl rfl
  | write | shutdownWrite | connectionCallback | messageCallback =>
    cases h
    exact MakesNone.refl s

theorem makesNone_callConn {call : ConnCall} (h : s.callConn th p call = some s') : MakesNone s s' := by
  obtain ⟨⟨c', es⟩, -, hfold⟩ := Option.bind_eq_some_iff.mp h
  dsimp only at hfold
  refine foldlM_inv (P := fun s' => MakesNone s s')
    (fun _ _ _ _ hs he => hs.trans (makesNone_effect he)) ?_ hfold
  exact makesNone_of_eq rfl rfl rfl rfl rfl

omit [DecidableEq T] in
theorem makesNone_removeChannel (h : s.removeChannel th p = some s') : MakesNone s s' := by
  obtain ⟨c, -, rfl⟩ := Option.map_eq_some_iff.mp h
  exact makesNone_of_eq rfl rfl rfl rfl rfl

theorem makesNone_connectDestroyed (h : s.connectDestroyed th p = some s') : MakesNone s s' := by
  obtain ⟨⟨c', es⟩, -, h⟩ := Option.bind_eq_some_iff.mp h
  dsimp only at h
  split at h
  · refine MakesNone.trans ?_ (makesNone_removeChannel h)
    exact makesNone_of_eq rfl rfl rfl rfl rfl
  · cases h
    exact makesNone_of_eq rfl rfl rfl rfl rfl

theorem makesNone_removeConnectionInLoop (h : s.removeConnectionInLoop th p = some s') :
    MakesNone s s' := by
  have herase : MakesNone s
      { s.record th [.removeConnectionInLoop p] with connections := s.connections.erase p } :=
    ⟨rfl, rfl, rfl, fun _ => id, fun _ hq => List.mem_of_mem_erase hq⟩
  exact herase.trans (makesNone_queueInLoop h)

omit [DecidableEq T] in
theorem makesNone_listen (h : s.listen = some s') : MakesNone s s' := by
  unfold listen at h
  split at h
  · obtain ⟨⟨poller, ch⟩, -, rfl⟩ := Option.map_eq_some_iff.mp h
    exact makesNone_of_eq rfl rfl rfl rfl rfl
  · cases h
    exact MakesNone.refl s

theorem makesNone_runFunctor {f : LoopsFunctor} {w : WriteResult} (h : s.runFunctor th f w = some s') :
    MakesNone s s' := by
  cases f with
  | conn p f =>
    by_cases hf : f = .connectDestroyed
    · subst hf
      exact makesNone_connectDestroyed h
    · rw [runFunctor_conn hf] at h
      exact makesNone_callConn h
  | removeConnectionInLoop p => exact makesNone_removeConnectionInLoop h
  | listen => exact makesNone_listen h
  | addTimerInLoop l =>
    cases h
    exact makesNone_of_eq rfl rfl rfl rfl rfl
  | user =>
    cases h
    exact MakesNone.refl s

theorem makesNone_runInLoop {f : LoopsFunctor} (h : s.runInLoop th l f = some s') : MakesNone s s' := by
  unfold runInLoop at h
  split at h
  · exact makesNone_runFunctor h
  · exact makesNone_queueInLoop h

theorem makesNone_resume (h : s.resume th = some s') : MakesNone s s' := by
  unfold resume at h
  split at h
  · cases h
  · cases h
  · -- `handleClose` goes on with `removeConnection`
    refine MakesNone.trans ?_ (makesNone_runInLoop h)
    exact makesNone_of_eq rfl rfl rfl rfl rfl
  · refine MakesNone.trans ?_ (makesNone_removeChannel h)
    exact makesNone_of_eq rfl rfl rfl rfl rfl
  · split at h
    · cases h
      exact makesNone_of_eq rfl rfl rfl rfl rfl
    · next p connections hconnections =>
      have htail : MakesNone s { s with connections } := by
        refine ⟨rfl, rfl, rfl, fun _ => id, fun q hq => ?_⟩
        rw [hconnections]
        exact List.mem_cons_of_mem _ hq
      exact htail.trans (makesNone_runInLoop h)

theorem makesNone_finish (h : s.finish = some s') : MakesNone s s' := by
  unfold finish at h
  split at h
  · split at h
    · obtain ⟨⟨poller, ch⟩, -, h⟩ := Option.bind_eq_some_iff.mp h
      obtain ⟨⟨poller', ch'⟩, -, rfl⟩ := Option.map_eq_some_iff.mp h
      exact makesNone_of_eq rfl rfl rfl rfl rfl
    · cases h
  · cases h

/-! ## The connections -/

/-- Every connection lives on the loop whose turn it was. -/
structure Spread (numThreads : Nat) (s : ServerLoops T) : Prop where
  threads : s.numThreads = numThreads
  next : s.next = nextOf numThreads s.created
  home : ∀ p, s.alive p = true ∨ p ∈ s.connections →
    p.id < s.created ∧ p.loop = homeLoop numThreads p.id

omit [DecidableEq T] in
theorem Spread.of_makesNone {numThreads : Nat} (h : Spread numThreads s) (hs : MakesNone s s') :
    Spread numThreads s' := by
  refine ⟨hs.numThreads.trans h.threads, ?_, ?_⟩
  · rw [hs.next, hs.created]
    exact h.next
  · intro p hp
    rw [hs.created]
    exact h.home p (hp.imp (hs.alive p) (hs.connections p))

theorem Spread.newConnection {numThreads : Nat} (h : Spread numThreads s) {sockfd : Nat} {wc hw : Bool}
    (hn : s.newConnection th sockfd wc hw = some s') : Spread numThreads s' := by
  have hnext : s.getNextLoop =
      (homeLoop numThreads s.created, nextOf numThreads (s.created + 1)) := by
    rw [← h.threads]
    exact getNextLoop_eq (by rw [h.threads]; exact h.next)
  unfold ServerLoops.newConnection at hn
  rw [hnext] at hn
  dsimp only at hn
  refine Spread.of_makesNone ?_ (makesNone_runInLoop hn)
  refine ⟨h.threads, rfl, ?_⟩
  intro p hp
  by_cases hnew : p = ⟨s.created, homeLoop numThreads s.created⟩
  · subst hnew
    exact ⟨Nat.lt_succ_self _, rfl⟩
  · have hold : s.alive p = true ∨ p ∈ s.connections := by
      rcases hp with hp | hp
      · replace hp : Function.update s.alive ⟨s.created, homeLoop numThreads s.created⟩ true p = true := hp
        rw [Function.update_of_ne hnew] at hp
        exact Or.inl hp
      · rcases List.mem_append.mp hp with hp | hp
        · exact Or.inr hp
        · exact absurd (List.mem_singleton.mp hp) hnew
    obtain ⟨hlt, hhome⟩ := h.home p hold
    exact ⟨Nat.lt_succ_of_lt hlt, hhome⟩

/-- The connection that a step accepts. -/
def accepts (s : ServerLoops T) : LoopsAction T → List ConnPtr
  | .accept _ _ _ _ => [⟨s.created, s.getNextLoop.1⟩]
  | _ => []

theorem makesNone_step {a : LoopsAction T} (hstep : s.step a = some s') (ha : s.accepts a = []) :
    MakesNone s s' := by
  cases moves_of_step hstep with
  | accept => cases ha
  | loop | enterLoop | poll | handled | dispatched | endEvent | timer | testPassed | testFailed | store
  | destroy => exact makesNone_of_eq rfl rfl rfl rfl rfl
  | callback _ hcall =>
    refine MakesNone.trans ?_ (makesNone_callConn hcall)
    exact makesNone_of_eq rfl rfl rfl rfl rfl
  | callFunctor _ _ _ hrun =>
    refine MakesNone.trans ?_ (makesNone_runFunctor hrun)
    exact makesNone_of_eq rfl rfl rfl rfl rfl
  | resume _ hresume => exact makesNone_resume hresume
  | userCall _ hcall => exact makesNone_callConn hcall
  | push _ hqueue =>
    refine MakesNone.trans ?_ (makesNone_queueInLoop hqueue)
    exact makesNone_of_eq rfl rfl rfl rfl rfl
  | runAfter hrun => exact makesNone_runInLoop hrun
  | start hrun =>
    refine MakesNone.trans ?_ (makesNone_runInLoop hrun)
    exact makesNone_of_eq rfl rfl rfl rfl rfl
  | finish hfinish => exact makesNone_finish hfinish
  | @release p _ =>
    refine ⟨rfl, rfl, rfl, fun q hq => ?_, fun _ => id⟩
    by_cases hqp : q = p
    · subst hqp
      simp at hq
    · simpa [Function.update_of_ne hqp] using hq

/-- **Every step.** -/
theorem spread_step {numThreads : Nat} (s : ServerLoops T) (a : LoopsAction T) (s' : ServerLoops T)
    (h : Spread numThreads s) (hstep : s.step a = some s') : Spread numThreads s' := by
  by_cases ha : s.accepts a = []
  · exact h.of_makesNone (makesNone_step hstep ha)
  · cases moves_of_step hstep with
    | accept _ _ hnew =>
      refine Spread.newConnection ?_ hnew
      exact h.of_makesNone (makesNone_of_eq rfl rfl rfl rfl rfl)
    | _ => exact absurd rfl ha

/-! ## Every run -/

/-- `n` connections, each on the loop whose turn it is. -/
def turns (numThreads n : Nat) : List ConnPtr :=
  (List.range n).map fun id => ⟨id, homeLoop numThreads id⟩

theorem created_newConnection {sockfd : Nat} {wc hw : Bool}
    (hn : s.newConnection th sockfd wc hw = some s') : s'.created = s.created + 1 := by
  unfold ServerLoops.newConnection at hn
  exact (makesNone_runInLoop hn).created

/-- What a step accepts has its turn. -/
theorem turns_step {numThreads : Nat} (s : ServerLoops T) (a : LoopsAction T) (s' : ServerLoops T)
    (h : Spread numThreads s) (hstep : s.step a = some s') :
    turns numThreads s'.created = turns numThreads s.created ++ s.accepts a := by
  by_cases ha : s.accepts a = []
  · rw [ha, (makesNone_step hstep ha).created, List.append_nil]
  · cases moves_of_step hstep with
    | accept _ _ hnew =>
      have hcreated := created_newConnection hnew
      replace hcreated : s'.created = s.created + 1 := hcreated
      have hturn : s.getNextLoop.1 = homeLoop numThreads s.created := by
        rw [getNextLoop_eq (by rw [h.threads]; exact h.next), h.threads]
      rw [hcreated, turns, List.range_succ, List.map_append, accepts, hturn]
      rfl
    | _ => exact absurd rfl ha

/-- Of the first `n` connections, those of loop `l`. -/
def loadOf (numThreads n l : Nat) : Nat := Nat.count (fun id => homeLoop numThreads id = l) n

theorem loadOf_eq {numThreads l : Nat} (hpos : 0 < l) (hl : l ≤ numThreads) (n : Nat) :
    loadOf numThreads n l = n / numThreads + if l - 1 < n % numThreads then 1 else 0 := by
  have hnum : 0 < numThreads := by omega
  have hmod : (l - 1) % numThreads = l - 1 := Nat.mod_eq_of_lt (by omega)
  have hcount := Nat.count_modEq_card n hnum (l - 1)
  rw [hmod] at hcount
  rw [← hcount, loadOf]
  congr 1
  funext id
  rw [homeLoop, if_neg (by omega), Nat.ModEq, hmod, eq_iff_iff]
  omega

theorem countP_turns (numThreads n l : Nat) :
    (turns numThreads n).countP (fun p => p.loop == l) = loadOf numThreads n l := by
  induction n with
  | zero => rfl
  | succ n ih =>
    rw [turns, List.range_succ, List.map_append, List.countP_append, ← turns, ih, loadOf, loadOf,
      Nat.count_succ]
    simp

/-- **Round robin.**  In every run, whatever the order of accepts, closes, timers and user calls, the
connections accepted are given to the loops in turn, and every connection there is lives on the loop that it
was given to; so no loop of the pool has been given two connections more than another. -/
theorem round_robin (numThreads fd : Nat) (as : List (LoopsAction T)) (s : ServerLoops T)
    (hrun : run step (init numThreads fd) as = some s) :
    collect step accepts (init numThreads fd) as = turns numThreads s.created ∧
    (∀ p, s.alive p = true ∨ p ∈ s.connections →
      p ∈ collect step accepts (init numThreads fd) as ∧ p.loop = homeLoop numThreads p.id) ∧
    ∀ l l', 0 < l → l ≤ numThreads → 0 < l' → l' ≤ numThreads →
      (collect step accepts (init numThreads fd) as).countP (fun p => p.loop == l) ≤
        (collect step accepts (init numThreads fd) as).countP (fun p => p.loop == l') + 1 := by
  have hstart : Spread numThreads (init numThreads fd : ServerLoops T) := by
    refine ⟨rfl, ?_, ?_⟩
    · simp [init, nextOf]
    · intro p hp
      simp [init] at hp
  have haccepted : collect step accepts (init numThreads fd) as = turns numThreads s.created := by
    have hcollect := run_collect (G := fun s => turns numThreads s.created) spread_step turns_step hstart hrun
    exact (hcollect.trans (List.nil_append _)).symm
  rw [haccepted]
  refine ⟨rfl, fun p hp => ?_, ?_⟩
  · obtain ⟨hlt, hhome⟩ := (run_inv spread_step hstart hrun).home p hp
    refine ⟨List.mem_map.mpr ⟨p.id, List.mem_range.mpr hlt, ?_⟩, hhome⟩
    rw [← hhome]
  · intro l l' hpos hl hpos' hl'
    rw [countP_turns, countP_turns, loadOf_eq hpos hl, loadOf_eq hpos' hl']
    split <;> split <;> omega

/-- The base loop accepts a connection and wakes up its loop `l`. -/
def acceptFor (l sockfd : Nat) : List (LoopsAction Unit) :=
  [.loop 0 .testQuit, .poll 0 false [.acceptor], .accept 0 sockfd false false,
    .loop l (.wakeup (.loop 0)), .loop 0 .beginFunctors, .loop 0 .swapFunctors, .loop 0 .endFunctors,
    .loop 0 .destroyFunctors]

/-- Three connections for two loops. -/
def acceptThree : List (LoopsAction Unit) :=
  [.start (.loop 0), .enterLoop 0, .loop 0 .resetQuit] ++ acceptFor 1 7 ++ acceptFor 2 8 ++ acceptFor 1 9

theorem round_robin_three :
    ∃ s : ServerLoops Unit, run step (init 2 3) acceptThree = some s ∧
      collect step accepts (init 2 3) acceptThree = [⟨0, 1⟩, ⟨1, 2⟩, ⟨2, 1⟩] ∧
      s.connections = [⟨0, 1⟩, ⟨1, 2⟩, ⟨2, 1⟩] := by
  refine exists_run_eq (fun s => (s.created, s.connections)) (3, [⟨0, 1⟩, ⟨1, 2⟩, ⟨2, 1⟩])
    (by decide +kernel) ?_
  intro s hrun hlook
  simp only [Prod.mk.injEq] at hlook
  refine ⟨(round_robin 2 3 acceptThree s hrun).1.trans ?_, hlook.2⟩
  rw [hlook.1]
  decide

end ServerLoops
end Muduo
