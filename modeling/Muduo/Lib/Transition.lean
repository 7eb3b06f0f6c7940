import Mathlib.Data.Option.Basic
import Mathlib.Algebra.GroupWithZero.Nat

/-!
# Executable transition systems and their runs

A system is a partial step function `step : S → A → Option S`: the action holds everything the
environment chooses, and `none` means that the action is not enabled.  `run` executes a list of
actions.

* `Along step P s as`: every state visited from `s` satisfies `P`.
* `AllSteps step G s as`: every step taken meets `G`, a condition on the state before the step
  and the action.

The rules are the ones an invariant proof needs: `run_inv` (what every step preserves, a run
preserves), `run_inv_of_allSteps` (the same for runs whose steps meet a condition), `along_inv` and
`allSteps_inv` (what holds of every state and step), `run_enabled` (no run gets stuck),
`along_iff_allSteps` (the condition is exact: a run is safe throughout iff every step meets it),
`countSteps_add_le` (a quantity that no step raises bounds the steps that lower it), `run_collect` (what
each step adds to a ledger, the run adds in this order), `exists_first_step` (where a run enters `P`),
`run_simulates` (forward simulation of one system by another), `run_refines` (every run is a run of the
system above) and, for a list of copies of one system, `forall_of_stepAt` and `sum_of_stepAt`.
-/

namespace Transition

variable {S A Q : Type*}

/-! ## Runs -/

/-- Execute the actions in order; `none` as soon as one is not enabled. -/
def run (step : S → A → Option S) : S → List A → Option S
  | s, [] => some s
  | s, a :: as => (step s a).bind fun s' => run step s' as

/-- Every state visited, the first one included, satisfies `P`. -/
def Along (step : S → A → Option S) (P : S → Prop) : S → List A → Prop
  | s, [] => P s
  | s, a :: as => P s ∧ ∀ s', step s a = some s' → Along step P s' as

/-- Every step taken meets `G`. -/
def AllSteps (step : S → A → Option S) (G : S → A → Prop) : S → List A → Prop
  | _, [] => True
  | s, a :: as => G s a ∧ ∀ s', step s a = some s' → AllSteps step G s' as

/-- `t` is reached by some run from an initial state. -/
def Reachable (step : S → A → Option S) (init : S → Prop) (t : S) : Prop :=
  ∃ s as, init s ∧ run step s as = some t

instance decidableAlong (step : S → A → Option S) (P : S → Prop) [∀ s, Decidable (P s)] :
    ∀ s as, Decidable (Along step P s as)
  | s, [] => inferInstanceAs (Decidable (P s))
  | s, a :: as =>
    match h : step s a with
    | none => decidable_of_iff (P s) ⟨fun hp => ⟨hp, fun _ h' => by simp [h] at h'⟩, fun hp => hp.1⟩
    | some s' =>
      have := decidableAlong step P s' as
      decidable_of_iff (P s ∧ Along step P s' as)
        ⟨fun hp => ⟨hp.1, fun _ h' => Option.some.inj (h.symm.trans h') ▸ hp.2⟩,
          fun hp => ⟨hp.1, hp.2 s' h⟩⟩

instance decidableAllSteps (step : S → A → Option S) (G : S → A → Prop)
    [∀ s a, Decidable (G s a)] : ∀ s as, Decidable (AllSteps step G s as)
  | _, [] => isTrue trivial
  | s, a :: as =>
    match h : step s a with
    | none => decidable_of_iff (G s a) ⟨fun hg => ⟨hg, fun _ h' => by simp [h] at h'⟩, fun hg => hg.1⟩
    | some s' =>
      have := decidableAllSteps step G s' as
      decidable_of_iff (G s a ∧ AllSteps step G s' as)
        ⟨fun hg => ⟨hg.1, fun _ h' => Option.some.inj (h.symm.trans h') ▸ hg.2⟩,
          fun hg => ⟨hg.1, hg.2 s' h⟩⟩

variable {step : S → A → Option S} {s s' t u : S} {a : A} {as bs : List A}

@[simp] theorem run_nil : run step s [] = some s := rfl

@[simp] theorem run_cons : run step s (a :: as) = (step s a).bind fun s' => run step s' as := rfl

theorem run_cons_eq_some :
    run step s (a :: as) = some t ↔ ∃ s', step s a = some s' ∧ run step s' as = some t := by
  simp [Option.bind_eq_some_iff]

theorem run_append : run step s (as ++ bs) = (run step s as).bind fun t => run step t bs := by
  induction as generalizing s with
  | nil => rfl
  | cons a as ih =>
    simp only [List.cons_append, run_cons, Option.bind_assoc]
    congr 1
    funext s'
    exact ih

theorem run_append_of_eq_some (h : run step s as = some t) (h' : run step t bs = some u) :
    run step s (as ++ bs) = some u := by
  rw [run_append, h]
  exact h'

/-- A run that can be executed ends in a state with every property of its end. -/
theorem exists_run {P : S → Prop} (h : (run step s as).isSome)
    (hP : ∀ t, run step s as = some t → P t) : ∃ t, run step s as = some t ∧ P t := by
  obtain ⟨t, ht⟩ := Option.isSome_iff_exists.mp h
  exact ⟨t, ht, hP t ht⟩

/-- The same for a run that is evaluated: `f` says what to look at in the last state. -/
theorem exists_run_eq {β : Type*} {P : S → Prop} (f : S → β) (b : β)
    (h : (run step s as).map f = some b) (hP : ∀ t, run step s as = some t → f t = b → P t) :
    ∃ t, run step s as = some t ∧ P t := by
  obtain ⟨t, ht, hf⟩ := Option.map_eq_some_iff.mp h
  exact ⟨t, ht, hP t ht hf⟩

/-- A decidable property of the last state of a run that is evaluated. -/
theorem exists_run_decide {P : S → Prop} [DecidablePred P]
    (h : (run step s as).map (fun t => decide (P t)) = some true) :
    ∃ t, run step s as = some t ∧ P t := by
  obtain ⟨t, ht, hP⟩ := Option.map_eq_some_iff.mp h
  exact ⟨t, ht, of_decide_eq_true hP⟩

theorem Reachable.trans {init : S → Prop} (h : Reachable step init t)
    (hr : run step t as = some u) : Reachable step init u := by
  obtain ⟨s, bs, hs, hb⟩ := h
  exact ⟨s, bs ++ as, hs, run_append_of_eq_some hb hr⟩

/-! ## Invariants -/

/-- **Run rule.**  What every step preserves, a run preserves. -/
theorem run_inv {P : S → Prop} (hstep : ∀ s a s', P s → step s a = some s' → P s') :
    ∀ {as s t}, P s → run step s as = some t → P t := by
  intro as
  induction as with
  | nil =>
    intro s t hs h
    simp only [run_nil, Option.some.injEq] at h
    exact h ▸ hs
  | cons a as ih =>
    intro s t hs h
    obtain ⟨s', h1, h2⟩ := run_cons_eq_some.mp h
    exact ih (hstep s a s' hs h1) h2

/-- **Run rule under a condition on the steps.** -/
theorem run_inv_of_allSteps {P : S → Prop} {G : S → A → Prop}
    (hstep : ∀ s a s', P s → G s a → step s a = some s' → P s') :
    ∀ {as s t}, P s → AllSteps step G s as → run step s as = some t → P t := by
  intro as
  induction as with
  | nil =>
    intro s t hs _ h
    simp only [run_nil, Option.some.injEq] at h
    exact h ▸ hs
  | cons a as ih =>
    intro s t hs hg h
    obtain ⟨s', h1, h2⟩ := run_cons_eq_some.mp h
    exact ih (hstep s a s' hs hg.1 h1) (hg.2 s' h1) h2

/-- **Run rule for enabled systems.**  If every action is enabled from `P` and keeps it, every list
of actions runs to the end. -/
theorem run_enabled {P : S → Prop} (hstep : ∀ s a, P s → ∃ s', step s a = some s' ∧ P s') :
    ∀ {as s}, P s → ∃ t, run step s as = some t ∧ P t := by
  intro as
  induction as with
  | nil =>
    intro s hs
    exact ⟨s, rfl, hs⟩
  | cons a as ih =>
    intro s hs
    obtain ⟨s', h1, hs'⟩ := hstep s a hs
    obtain ⟨t, h2, ht⟩ := ih hs'
    exact ⟨t, run_cons_eq_some.mpr ⟨s', h1, h2⟩, ht⟩

/-- An invariant holds all along a run, with what it implies of each state and each step. -/
theorem along_inv {I P : S → Prop} (hP : ∀ s, I s → P s)
    (hstep : ∀ s a s', I s → step s a = some s' → I s') : ∀ {as s}, I s → Along step P s as := by
  intro as
  induction as with
  | nil =>
    intro s hs
    exact hP s hs
  | cons a as ih =>
    intro s hs
    exact ⟨hP s hs, fun s' h => ih (hstep s a s' hs h)⟩

theorem allSteps_inv {I : S → Prop} {G : S → A → Prop} (hG : ∀ s a, I s → G s a)
    (hstep : ∀ s a s', I s → step s a = some s' → I s') :
    ∀ {as s}, I s → AllSteps step G s as := by
  intro as
  induction as with
  | nil =>
    intro s _
    trivial
  | cons a as ih =>
    intro s hs
    exact ⟨hG s a hs, fun s' h => ih (hstep s a s' hs h)⟩

/-- The same in runs whose steps meet a condition. -/
theorem allSteps_inv_of_allSteps {I : S → Prop} {P G : S → A → Prop}
    (hP : ∀ s a, I s → G s a → P s a)
    (hstep : ∀ s a s', I s → G s a → step s a = some s' → I s') :
    ∀ {as s}, I s → AllSteps step G s as → AllSteps step P s as := by
  intro as
  induction as with
  | nil =>
    intro s _ _
    trivial
  | cons a as ih =>
    intro s hs hg
    exact ⟨hP s a hs hg.1, fun s' h => ih (hstep s a s' hs hg.1 h) (hg.2 s' h)⟩

theorem allSteps_and {G H : S → A → Prop} (hG : AllSteps step G s as) (hH : AllSteps step H s as) :
    AllSteps step (fun s a => G s a ∧ H s a) s as := by
  induction as generalizing s with
  | nil => trivial
  | cons a as ih => exact ⟨⟨hG.1, hH.1⟩, fun s' h => ih (hG.2 s' h) (hH.2 s' h)⟩

theorem allSteps_mono {G H : S → A → Prop} (h : ∀ s a, G s a → H s a) (hall : AllSteps step G s as) :
    AllSteps step H s as := by
  induction as generalizing s with
  | nil => trivial
  | cons a as ih => exact ⟨h s a hall.1, fun s' hs' => ih (hall.2 s' hs')⟩

theorem allSteps_append {G : S → A → Prop} (hall : AllSteps step G s (as ++ bs))
    (h : run step s as = some t) : AllSteps step G s as ∧ AllSteps step G t bs := by
  induction as generalizing s with
  | nil =>
    simp only [run_nil, Option.some.injEq] at h
    subst h
    exact ⟨trivial, hall⟩
  | cons a as ih =>
    obtain ⟨s', h1, h2⟩ := run_cons_eq_some.mp h
    refine ⟨⟨hall.1, fun s'' h' => ?_⟩, (ih (hall.2 s' h1) h2).2⟩
    rw [h1, Option.some.injEq] at h'
    subst h'
    exact (ih (hall.2 s' h1) h2).1

/-- What every step meets, the last one meets. -/
theorem allSteps_last {G : S → A → Prop} (hall : AllSteps step G s (as ++ [a]))
    (h : run step s as = some t) : G t a := (allSteps_append hall h).2.1

/-- A condition on the actions alone. -/
theorem allSteps_of_forall {G : A → Prop} (h : ∀ a ∈ as, G a) :
    AllSteps step (fun _ a => G a) s as := by
  induction as generalizing s with
  | nil => trivial
  | cons a as ih =>
    exact ⟨h a List.mem_cons_self, fun s' _ => ih fun b hb => h b (List.mem_cons_of_mem a hb)⟩

theorem reachable_inv {P : S → Prop} {init : S → Prop} (hinit : ∀ s, init s → P s)
    (hstep : ∀ s a s', P s → step s a = some s' → P s') (h : Reachable step init t) : P t := by
  obtain ⟨s, as, hs, hr⟩ := h
  exact run_inv hstep (hinit s hs) hr

/-- **Exactness rule.**  `I` is kept by the steps that meet `G` and implies safety; a step that
does not meet `G` ends in an unsafe state.  Then a run is safe throughout iff all its steps
meet `G`. -/
theorem along_iff_allSteps {I P : S → Prop} {G : S → A → Prop} (hsafe : ∀ s, I s → P s)
    (hgood : ∀ s a s', I s → G s a → step s a = some s' → I s')
    (hbad : ∀ s a s', I s → ¬ G s a → step s a = some s' → ¬ P s') :
    ∀ {as s t}, I s → run step s as = some t → (Along step P s as ↔ AllSteps step G s as) := by
  intro as
  induction as with
  | nil => intro s t hs _; simp [Along, AllSteps, hsafe s hs]
  | cons a as ih =>
    intro s t hs h
    obtain ⟨s', h1, h2⟩ := run_cons_eq_some.mp h
    have hdet : ∀ s'', step s a = some s'' → s'' = s' := fun s'' h' =>
      Option.some.inj (h'.symm.trans h1)
    constructor
    · rintro ⟨-, hal⟩
      have hal' := hal s' h1
      have hg : G s a := by
        by_contra hng
        have hp : P s' := by
          cases as with
          | nil => exact hal'
          | cons b as => exact hal'.1
        exact hbad s a s' hs hng h1 hp
      refine ⟨hg, fun s'' h' => ?_⟩
      rw [hdet s'' h']
      exact (ih (hgood s a s' hs hg h1) h2).mp hal'
    · rintro ⟨hg, hall⟩
      refine ⟨hsafe s hs, fun s'' h' => ?_⟩
      rw [hdet s'' h']
      exact (ih (hgood s a s' hs hg h1) h2).mpr (hall s' h1)

/-- **Exactness rule for steps.**  `I` is kept by the steps that meet `G`, and from `I` a step has the
property `P` iff it meets `G`. -/
theorem allSteps_iff_allSteps {I : S → Prop} {P G : S → A → Prop}
    (hiff : ∀ s a s', I s → step s a = some s' → (P s a ↔ G s a))
    (hgood : ∀ s a s', I s → G s a → step s a = some s' → I s') :
    ∀ {as s t}, I s → run step s as = some t → (AllSteps step P s as ↔ AllSteps step G s as) := by
  intro as
  induction as with
  | nil =>
    intro s t _ _
    exact Iff.rfl
  | cons a as ih =>
    intro s t hs h
    obtain ⟨s', h1, h2⟩ := run_cons_eq_some.mp h
    have hdet : ∀ s'', step s a = some s'' → s'' = s' := fun s'' h' =>
      Option.some.inj (h'.symm.trans h1)
    have hhead := hiff s a s' hs h1
    constructor
    · rintro ⟨hp, hall⟩
      refine ⟨hhead.mp hp, fun s'' h' => ?_⟩
      rw [hdet s'' h']
      exact (ih (hgood s a s' hs (hhead.mp hp) h1) h2).mp (hall s' h1)
    · rintro ⟨hg, hall⟩
      refine ⟨hhead.mpr hg, fun s'' h' => ?_⟩
      rw [hdet s'' h']
      exact (ih (hgood s a s' hs hg h1) h2).mpr (hall s' h1)

/-- **Exactness rule for violations that come later.**  A step that does not meet `G` leaves the run
unsafe, and a run that is unsafe breaks `P` before it comes to its end `E`.  Then in runs that come to
their end every step has the property `P` iff every step meets `G`. -/
theorem allSteps_iff_of_doomed {I Safe E : S → Prop} {P G : S → A → Prop}
    (hI : ∀ s a s', I s → step s a = some s' → I s') (hP : ∀ s a, Safe s → P s a)
    (hgood : ∀ s a s', I s → Safe s → G s a → step s a = some s' → Safe s')
    (hbad : ∀ s a s', I s → ¬ G s a → step s a = some s' → ¬ Safe s')
    (hdoom : ∀ s as t, I s → ¬ Safe s → run step s as = some t → E t → ¬ AllSteps step P s as) :
    ∀ {as s t}, I s → Safe s → run step s as = some t → E t →
      (AllSteps step P s as ↔ AllSteps step G s as) := by
  intro as
  induction as with
  | nil =>
    intro s t _ _ _ _
    exact Iff.rfl
  | cons a as ih =>
    intro s t hs hsafe h hend
    obtain ⟨s', h1, h2⟩ := run_cons_eq_some.mp h
    have hdet : ∀ s'', step s a = some s'' → s'' = s' := fun s'' h' =>
      Option.some.inj (h'.symm.trans h1)
    have hs' := hI s a s' hs h1
    constructor
    · rintro ⟨hp, hall⟩
      have hg : G s a := by
        by_contra hng
        exact hdoom s' as t hs' (hbad s a s' hs hng h1) h2 hend (hall s' h1)
      refine ⟨hg, fun s'' h' => ?_⟩
      rw [hdet s'' h']
      exact (ih hs' (hgood s a s' hs hsafe hg h1) h2 hend).mp (hall s' h1)
    · rintro ⟨hg, hall⟩
      refine ⟨hP s a hsafe, fun s'' h' => ?_⟩
      rw [hdet s'' h']
      exact (ih hs' (hgood s a s' hs hsafe hg h1) h2 hend).mpr (hall s' h1)

theorem Along.head {P : S → Prop} (hal : Along step P s as) : P s := by
  cases as with
  | nil => exact hal
  | cons a as => exact hal.1

theorem along_last {P : S → Prop} (hal : Along step P s as) (h : run step s as = some t) : P t := by
  induction as generalizing s with
  | nil =>
    simp only [run_nil, Option.some.injEq] at h
    exact h ▸ hal
  | cons a as ih =>
    obtain ⟨s', h1, h2⟩ := run_cons_eq_some.mp h
    exact ih (hal.2 s' h1) h2

/-! ## Progress -/

/-- The number of steps of a run that meet `G`. -/
def countSteps (step : S → A → Option S) (G : S → A → Bool) : S → List A → Nat
  | _, [] => 0
  | s, a :: as => (G s a).toNat + (step s a).elim 0 fun s' => countSteps step G s' as

theorem countSteps_cons {G : S → A → Bool} (h : step s a = some s') :
    countSteps step G s (a :: as) = (G s a).toNat + countSteps step G s' as := by
  simp [countSteps, h]

/-- **Measure rule with setbacks.**  Where a step that meets `G` lowers `μ`, and no step raises it but
those that meet `H`, by at most `k`, the setbacks of a run pay for the steps that `μ` does not. -/
theorem countSteps_add_le_of_setbacks {I : S → Prop} {C : S → A → Prop} {G H : S → A → Bool}
    {μ : S → Nat} {k : Nat} (hI : ∀ s a s', I s → C s a → step s a = some s' → I s')
    (hle : ∀ s a s', I s → C s a → step s a = some s' →
      (G s a).toNat + μ s' ≤ μ s + k * (H s a).toNat) :
    ∀ {as s t}, I s → AllSteps step C s as → run step s as = some t →
      countSteps step G s as + μ t ≤ μ s + k * countSteps step H s as := by
  intro as
  induction as with
  | nil =>
    intro s t _ _ h
    simp only [run_nil, Option.some.injEq] at h
    subst h
    simp [countSteps]
  | cons a as ih =>
    intro s t hs hall h
    obtain ⟨s', h1, h2⟩ := run_cons_eq_some.mp h
    have hstep := hle s a s' hs hall.1 h1
    have hrest := ih (hI s a s' hs hall.1 h1) (hall.2 s' h1) h2
    rw [countSteps_cons h1, countSteps_cons h1, Nat.mul_add]
    omega

/-- **Measure rule.**  Where no step raises `μ` and every step that meets `G` lowers it, a run has at
most as many such steps as `μ` has gone down. -/
theorem countSteps_add_le {I : S → Prop} {C : S → A → Prop} {G : S → A → Bool} {μ : S → Nat}
    (hI : ∀ s a s', I s → C s a → step s a = some s' → I s')
    (hle : ∀ s a s', I s → C s a → step s a = some s' → (G s a).toNat + μ s' ≤ μ s)
    (hs : I s) (hall : AllSteps step C s as) (h : run step s as = some t) :
    countSteps step G s as + μ t ≤ μ s := by
  have hbound := countSteps_add_le_of_setbacks (H := fun _ _ => false) (k := 0) hI
    (fun s a s' hs hc hstep => by simpa using hle s a s' hs hc hstep) hs hall h
  omega

/-! ## Ledgers -/

/-- What the steps of a run contribute, in their order. -/
def collect {B : Type*} (step : S → A → Option S) (f : S → A → List B) : S → List A → List B
  | _, [] => []
  | s, a :: as => f s a ++ (step s a).elim [] fun s' => collect step f s' as

section Collect

variable {B C : Type*} {f g : S → A → List B}

@[simp] theorem collect_nil : collect step f s [] = [] := rfl

theorem collect_cons (h : step s a = some s') :
    collect step f s (a :: as) = f s a ++ collect step f s' as := by
  simp [collect, h]

theorem collect_append (h : run step s as = some t) :
    collect step f s (as ++ bs) = collect step f s as ++ collect step f t bs := by
  induction as generalizing s with
  | nil =>
    simp only [run_nil, Option.some.injEq] at h
    subst h
    rfl
  | cons a as ih =>
    obtain ⟨s', h1, h2⟩ := run_cons_eq_some.mp h
    rw [List.cons_append, collect_cons h1, collect_cons h1, ih h2, List.append_assoc]

theorem flatMap_collect (k : B → List C) :
    (collect step f s as).flatMap k = collect step (fun s a => (f s a).flatMap k) s as := by
  induction as generalizing s with
  | nil => rfl
  | cons a as ih =>
    simp only [collect, List.flatMap_append]
    congr 1
    cases step s a with
    | none => rfl
    | some s' => exact ih

/-- A run whose steps contribute less. -/
theorem collect_sublist (h : ∀ s a, (f s a).Sublist (g s a)) :
    (collect step f s as).Sublist (collect step g s as) := by
  induction as generalizing s with
  | nil => exact List.Sublist.refl _
  | cons a as ih =>
    refine (h s a).append ?_
    cases step s a with
    | none => exact List.Sublist.refl _
    | some s' => exact ih

theorem collect_congr (h : AllSteps step (fun s a => f s a = g s a) s as) :
    collect step f s as = collect step g s as := by
  induction as generalizing s with
  | nil => rfl
  | cons a as ih =>
    simp only [collect, h.1]
    congr 1
    cases hstep : step s a with
    | none => rfl
    | some s' => exact ih (h.2 s' hstep)

/-- **Ledger rule.**  Where every step adds its contribution to `G`, a run adds what it collects. -/
theorem run_collect {I : S → Prop} {G : S → List B}
    (hI : ∀ s a s', I s → step s a = some s' → I s')
    (hG : ∀ s a s', I s → step s a = some s' → G s' = G s ++ f s a) :
    ∀ {as s t}, I s → run step s as = some t → G t = G s ++ collect step f s as := by
  intro as
  induction as with
  | nil =>
    intro s t _ h
    simp only [run_nil, Option.some.injEq] at h
    rw [h, collect_nil, List.append_nil]
  | cons a as ih =>
    intro s t hs h
    obtain ⟨s', h1, h2⟩ := run_cons_eq_some.mp h
    rw [ih (hI s a s' hs h1) h2, hG s a s' hs h1, collect_cons h1, List.append_assoc]

end Collect

/-- **The step that enters `P`**, on a run that ends in `P` and did not start there. -/
theorem exists_first_step {P : S → Prop} (hs : ¬ P s) (ht : P t) (h : run step s as = some t) :
    ∃ before a after u v, as = before ++ a :: after ∧ run step s before = some u ∧ ¬ P u ∧
      step u a = some v ∧ P v ∧ run step v after = some t := by
  induction as generalizing s with
  | nil =>
    simp only [run_nil, Option.some.injEq] at h
    subst h
    exact absurd ht hs
  | cons a as ih =>
    obtain ⟨s', h1, h2⟩ := run_cons_eq_some.mp h
    by_cases hs' : P s'
    · exact ⟨[], a, as, s, s', rfl, rfl, hs, h1, hs', h2⟩
    · obtain ⟨before, b, after, u, v, rfl, hu, hnot, hv⟩ := ih hs' h2
      exact ⟨a :: before, b, after, u, v, rfl, run_cons_eq_some.mpr ⟨s', h1, hu⟩, hnot, hv⟩

/-! ## Simulation -/

/-- **Forward simulation.**  If from related states every admissible action is enabled on both
sides and leads to related states, an admissible list of actions runs to the end on both sides
and ends in related states. -/
theorem run_simulates {astep : Q → A → Option Q} {R : S → Q → Prop} {G : S → A → Prop}
    (hsim : ∀ s q a, R s q → G s a →
      ∃ s' q', step s a = some s' ∧ astep q a = some q' ∧ R s' q') :
    ∀ {as s q}, R s q → AllSteps step G s as →
      ∃ s' q', run step s as = some s' ∧ run astep q as = some q' ∧ R s' q' := by
  intro as
  induction as with
  | nil => intro s q hr _; exact ⟨s, q, rfl, rfl, hr⟩
  | cons a as ih =>
    intro s q hr hg
    obtain ⟨s', q', h1, h2, hr'⟩ := hsim s q a hr hg.1
    obtain ⟨s'', q'', h3, h4, hr''⟩ := ih hr' (hg.2 s' h1)
    exact ⟨s'', q'', run_cons_eq_some.mpr ⟨s', h1, h3⟩, run_cons_eq_some.mpr ⟨q', h2, h4⟩, hr''⟩

/-- **Refinement.**  Where every step is a run of the system above, of no step or of several, so is
every run. -/
theorem run_refines {B : Type*} {astep : Q → B → Option Q} {I : S → Prop} (abs : S → Q)
    (hI : ∀ s a s', I s → step s a = some s' → I s')
    (hstep : ∀ s a s', I s → step s a = some s' → ∃ bs, run astep (abs s) bs = some (abs s')) :
    ∀ {as s t}, I s → run step s as = some t → ∃ bs, run astep (abs s) bs = some (abs t) := by
  intro as
  induction as with
  | nil =>
    intro s t _ h
    simp only [run_nil, Option.some.injEq] at h
    exact ⟨[], by rw [h]; rfl⟩
  | cons a as ih =>
    intro s t hs h
    obtain ⟨s', h1, h2⟩ := run_cons_eq_some.mp h
    obtain ⟨bs, hbs⟩ := hstep s a s' hs h1
    obtain ⟨cs, hcs⟩ := ih (hI s a s' hs h1) h2
    exact ⟨bs ++ cs, run_append_of_eq_some hbs hcs⟩

/-! ## Families -/

/-- Member `k` of a family of systems takes a step. -/
def stepAt (step : S → A → Option S) (ss : List S) (k : Nat) (a : A) : Option (List S) :=
  ss[k]?.bind fun s => (step s a).map fun s' => ss.set k s'

variable {ss ss' : List S} {k : Nat}

theorem stepAt_eq_some : stepAt step ss k a = some ss' ↔
    ∃ s s', ss[k]? = some s ∧ step s a = some s' ∧ ss.set k s' = ss' := by
  simp [stepAt, Option.bind_eq_some_iff, Option.map_eq_some_iff]

theorem isSome_stepAt (hs : ss[k]? = some s) (h : (step s a).isSome) : (stepAt step ss k a).isSome := by
  simpa [stepAt, hs] using h

theorem length_of_stepAt (h : stepAt step ss k a = some ss') : ss'.length = ss.length := by
  obtain ⟨s, s', -, -, rfl⟩ := stepAt_eq_some.mp h
  exact List.length_set

/-- **What a step keeps**, a step of a member keeps of every member. -/
theorem forall_of_stepAt {P : S → Prop}
    (hstep : ∀ s s', ss[k]? = some s → P s → step s a = some s' → P s')
    (hP : ∀ s ∈ ss, P s) (h : stepAt step ss k a = some ss') : ∀ s ∈ ss', P s := by
  obtain ⟨s, s', hs, h1, rfl⟩ := stepAt_eq_some.mp h
  intro t ht
  rcases List.mem_or_eq_of_mem_set ht with hold | rfl
  · exact hP t hold
  · exact hstep s t hs (hP s (List.mem_of_getElem? hs)) h1

/-- What a step keeps of a member, the steps of the others leave alone. -/
theorem getElem?_of_stepAt {P : S → Prop} (hstep : ∀ s s', P s → step s a = some s' → P s') {j : Nat}
    (hP : ∀ s, ss[j]? = some s → P s) (h : stepAt step ss k a = some ss') :
    ∀ s, ss'[j]? = some s → P s := by
  obtain ⟨s, s', hs, h1, rfl⟩ := stepAt_eq_some.mp h
  intro t ht
  by_cases hjk : k = j
  · subst hjk
    have hlt := (List.getElem?_eq_some_iff.mp hs).1
    rw [List.getElem?_set_self hlt, Option.some.injEq] at ht
    subst ht
    exact hstep s s' (hP s hs) h1
  · rw [List.getElem?_set_ne hjk] at ht
    exact hP t ht

theorem sum_map_set (μ : S → Nat) (hs : ss[k]? = some s) (s' : S) :
    ((ss.set k s').map μ).sum + μ s = (ss.map μ).sum + μ s' := by
  induction ss generalizing k with
  | nil => simp at hs
  | cons t ss ih =>
    cases k with
    | zero =>
      simp only [List.getElem?_cons_zero, Option.some.injEq] at hs
      subst hs
      simp only [List.set_cons_zero, List.map_cons, List.sum_cons]
      omega
    | succ k =>
      have := ih (k := k) (by simpa using hs)
      simp only [List.set_cons_succ, List.map_cons, List.sum_cons]
      omega

/-- **Measures add up**: a step that lowers the measure of a member lowers the sum. -/
theorem sum_of_stepAt {P : S → Prop} {μ : S → Nat} {m n : Nat}
    (hle : ∀ s s', P s → step s a = some s' → m + μ s' ≤ μ s + n)
    (hP : ∀ s ∈ ss, P s) (h : stepAt step ss k a = some ss') :
    m + (ss'.map μ).sum ≤ (ss.map μ).sum + n := by
  obtain ⟨s, s', hs, h1, rfl⟩ := stepAt_eq_some.mp h
  have hone := hle s s' (hP s (List.mem_of_getElem? hs)) h1
  have hsum := sum_map_set μ hs s'
  omega

end Transition
