import Mathlib.Data.List.Basic
import Mathlib.Logic.Function.Basic

/-!
# Ledgers of acquired resources

Resources are acquired under keys and settled, each with an outcome.  A key may be given out again
once what it names is settled, so resources are numbered, and a key names the last one acquired
under it.

* `Ledger K O`: the number of resources, what each key names, and the outcomes of each resource.
* `Balanced l held`: every resource has exactly one outcome, except the one under the key `held`, which
  has none.

The rules follow the life of a resource: acquired into an empty hand (`Balanced.acquire`), settled
out of it (`Balanced.settle`), or acquired and settled at once (`Balanced.acquire_settle`).
-/

structure Ledger (K O : Type*) where
  count : Nat
  owner : K → Option Nat
  outcomes : Nat → List O

namespace Ledger

variable {K O : Type*}

def empty : Ledger K O := ⟨0, fun _ => none, fun _ => []⟩

/-- The key can be given out: what it names, if anything, is settled. -/
def free (l : Ledger K O) (k : K) : Bool :=
  match l.owner k with
  | none => true
  | some id => !(l.outcomes id).isEmpty

def settle (l : Ledger K O) (k : K) (o : O) : Ledger K O :=
  match l.owner k with
  | none => l
  | some id => { l with outcomes := Function.update l.outcomes id (l.outcomes id ++ [o]) }

/-- Exactly one outcome for every resource but the one held, and none for that one. -/
structure Balanced (l : Ledger K O) (held : Option K) : Prop where
  owner_lt : ∀ k id, l.owner k = some id → id < l.count
  held_owner : ∀ k, held = some k → ∃ id, l.owner k = some id
  unsettled : ∀ id, held.bind l.owner = some id ∨ l.count ≤ id → l.outcomes id = []
  settled : ∀ id < l.count, held.bind l.owner ≠ some id → ∃ o, l.outcomes id = [o]

theorem balanced_empty : Balanced (empty : Ledger K O) none := by
  constructor
  · intro k id h
    cases h
  · intro k h
    cases h
  · exact fun _ _ => rfl
  · intro id h
    cases h

theorem settle_of_owner {l : Ledger K O} {k : K} {id : Nat} (h : l.owner k = some id) (o : O) :
    l.settle k o = { l with outcomes := Function.update l.outcomes id (l.outcomes id ++ [o]) } := by
  simp only [settle, h]

@[simp] theorem count_settle (l : Ledger K O) (k : K) (o : O) : (l.settle k o).count = l.count := by
  unfold settle
  split <;> rfl

@[simp] theorem owner_settle (l : Ledger K O) (k : K) (o : O) : (l.settle k o).owner = l.owner := by
  unfold settle
  split <;> rfl

theorem Balanced.settle {l : Ledger K O} {k : K} (h : l.Balanced (some k)) (o : O) :
    (l.settle k o).Balanced none := by
  obtain ⟨id, hid⟩ := h.held_owner k rfl
  have hnone : l.outcomes id = [] := h.unsettled id (Or.inl hid)
  rw [settle_of_owner hid]
  constructor
  · exact h.owner_lt
  · intro k' hk
    cases hk
  · intro id' hid'
    have hge : l.count ≤ id' := hid'.resolve_left (by simp)
    have hne : id' ≠ id := by
      have := h.owner_lt k id hid
      omega
    simp only [Function.update_of_ne hne]
    exact h.unsettled id' (Or.inr hge)
  · intro id' hlt _
    by_cases heq : id' = id
    · subst heq
      exact ⟨o, by simp [hnone]⟩
    · simp only [Function.update_of_ne heq]
      apply h.settled id' hlt
      intro hc
      rw [Option.bind_some, hid] at hc
      exact heq (Option.some.inj hc).symm

variable [DecidableEq K]

def acquire (l : Ledger K O) (k : K) : Ledger K O :=
  { l with count := l.count + 1, owner := Function.update l.owner k (some l.count) }

@[simp] theorem count_acquire (l : Ledger K O) (k : K) : (l.acquire k).count = l.count + 1 := rfl

@[simp] theorem owner_acquire_self (l : Ledger K O) (k : K) : (l.acquire k).owner k = some l.count := by
  simp [acquire]

theorem owner_acquire_of_ne (l : Ledger K O) {k k' : K} (h : k' ≠ k) :
    (l.acquire k).owner k' = l.owner k' := by
  simp [acquire, h]

theorem owner_acquire_lt {l : Ledger K O} {held : Option K} (h : l.Balanced held) (k : K) {k' : K}
    {id : Nat} (hid : (l.acquire k).owner k' = some id) : id < l.count + 1 := by
  by_cases hk : k' = k
  · subst hk
    rw [owner_acquire_self, Option.some.injEq] at hid
    omega
  · rw [owner_acquire_of_ne l hk] at hid
    have := h.owner_lt k' id hid
    omega

theorem Balanced.acquire {l : Ledger K O} (h : l.Balanced none) (k : K) :
    (l.acquire k).Balanced (some k) := by
  constructor
  · intro k' id hid
    exact owner_acquire_lt h k hid
  · intro k' hk
    cases hk
    exact ⟨l.count, owner_acquire_self l k⟩
  · intro id hid
    show l.outcomes id = []
    simp only [Option.bind_some, owner_acquire_self, Option.some.injEq, count_acquire] at hid
    exact h.unsettled id (Or.inr (by omega))
  · intro id hlt hne
    simp only [Option.bind_some, owner_acquire_self, ne_eq, Option.some.injEq] at hne
    rw [count_acquire] at hlt
    exact h.settled id (by omega) (by simp)

omit [DecidableEq K] in
/-- What is held has no outcome yet, so its key is not free. -/
theorem Balanced.ne_of_free {l : Ledger K O} {k k' : K} (h : l.Balanced (some k))
    (hfree : l.free k' = true) : k ≠ k' := by
  rintro rfl
  obtain ⟨id, hid⟩ := h.held_owner k rfl
  simp [free, hid, h.unsettled id (Or.inl hid)] at hfree

/-- A resource acquired and settled at once; the hand stays as it is. -/
theorem Balanced.acquire_settle {l : Ledger K O} {held : Option K} (h : l.Balanced held) {k : K}
    (hfree : l.free k = true) (o : O) : ((l.acquire k).settle k o).Balanced held := by
  have hheld : ∀ k', held = some k' → (l.acquire k).owner k' = l.owner k' := by
    rintro k' rfl
    exact owner_acquire_of_ne l (h.ne_of_free hfree)
  have hbind : held.bind (l.acquire k).owner = held.bind l.owner := by
    cases held with
    | none => rfl
    | some k' => exact hheld k' rfl
  have hcount : (l.acquire k).outcomes l.count = [] := h.unsettled _ (Or.inr (Nat.le_refl _))
  rw [settle_of_owner (owner_acquire_self l k)]
  constructor
  · intro k' id hid
    exact owner_acquire_lt h k hid
  · intro k' hk
    obtain ⟨id, hid⟩ := h.held_owner k' hk
    exact ⟨id, (hheld k' hk).trans hid⟩
  · intro id hid
    simp only [hbind, count_acquire] at hid
    have hne : id ≠ l.count := by
      rintro rfl
      rcases hid with hid | hid
      · obtain ⟨k', -, hown⟩ := Option.bind_eq_some_iff.mp hid
        exact Nat.lt_irrefl _ (h.owner_lt k' _ hown)
      · omega
    simp only [Function.update_of_ne hne]
    exact h.unsettled id (hid.imp_right Nat.le_of_succ_le)
  · intro id hlt hne
    by_cases heq : id = l.count
    · subst heq
      exact ⟨o, by simp [hcount]⟩
    · simp only [Function.update_of_ne heq]
      simp only [count_acquire] at hlt
      rw [hbind] at hne
      exact h.settled id (by omega) hne

end Ledger
