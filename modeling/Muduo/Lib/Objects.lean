import Mathlib.Data.List.Perm.Basic
import Mathlib.Logic.Function.Basic

/-!
# Objects on the heap and the pointers that own them

Objects come from `new` and go with `delete`; in between a pointer names them.  A pointer is used
again once its object is deleted.

* `Objects α`: the live objects by address, all objects ever made, and those deleted.
* `Owned o ptrs`: `ptrs` names each live object once and nothing else.

The rules follow the life of an object: `Owned.new`, any move of its pointer (`Owned.perm`), and
`Owned.deleteAll`.  An owned pointer never dangles (`Owned.exists_heap`), and what is deleted and
what is live make up what was made (`Owned.ledger`).
-/

structure Objects (α : Type*) where
  heap : Nat → Option α
  made : List α
  deleted : List α

namespace Objects

variable {α : Type*}

def empty : Objects α := ⟨fun _ => none, [], []⟩

def new (o : Objects α) (p : Nat) (a : α) : Objects α :=
  { o with heap := Function.update o.heap p (some a), made := o.made ++ [a] }

/-- `none` when the pointer dangles. -/
def delete (o : Objects α) (p : Nat) : Option (Objects α) :=
  (o.heap p).map fun a =>
    { o with heap := Function.update o.heap p none, deleted := o.deleted ++ [a] }

def deleteAll : Objects α → List Nat → Option (Objects α)
  | o, [] => some o
  | o, p :: ps => (o.delete p).bind fun o => o.deleteAll ps

structure Owned (o : Objects α) (ptrs : List Nat) : Prop where
  nodup : ptrs.Nodup
  live : ∀ p, p ∈ ptrs ↔ (o.heap p).isSome
  ledger : (o.deleted ++ ptrs.filterMap o.heap).Perm o.made

variable {o : Objects α} {ptrs : List Nat} {p : Nat} {a : α}

theorem owned_empty : (empty : Objects α).Owned [] := by
  refine ⟨List.nodup_nil, fun p => ?_, List.Perm.refl _⟩
  simp [empty]

theorem Owned.exists_heap (h : o.Owned ptrs) (hp : p ∈ ptrs) : ∃ a, o.heap p = some a :=
  Option.isSome_iff_exists.mp ((h.live p).mp hp)

theorem Owned.notMem_of_heap (h : o.Owned ptrs) (hp : o.heap p = none) : p ∉ ptrs := by
  rw [h.live, hp]
  exact Bool.false_ne_true

/-- Pointers move; the objects stay. -/
theorem Owned.perm {ptrs' : List Nat} (h : o.Owned ptrs) (hp : ptrs.Perm ptrs') : o.Owned ptrs' := by
  constructor
  · exact hp.nodup_iff.mp h.nodup
  · intro p
    rw [← hp.mem_iff]
    exact h.live p
  · exact ((hp.filterMap o.heap).symm.append_left o.deleted).trans h.ledger

theorem filterMap_update_of_notMem {heap : Nat → Option α} {v : Option α} (h : p ∉ ptrs) :
    ptrs.filterMap (Function.update heap p v) = ptrs.filterMap heap := by
  apply List.filterMap_congr
  intro q hq
  have hne : q ≠ p := fun heq => h (heq ▸ hq)
  exact Function.update_of_ne hne _ _

theorem Owned.new (h : o.Owned ptrs) (hp : o.heap p = none) (a : α) :
    (o.new p a).Owned (p :: ptrs) := by
  have hmem := h.notMem_of_heap hp
  constructor
  · exact List.nodup_cons.mpr ⟨hmem, h.nodup⟩
  · intro q
    by_cases hq : q = p
    · simp [Objects.new, hq]
    · simp [Objects.new, hq, h.live]
  · show (o.deleted ++ (p :: ptrs).filterMap (Function.update o.heap p (some a))).Perm (o.made ++ [a])
    rw [List.filterMap_cons_some (Function.update_self p (some a) o.heap),
      filterMap_update_of_notMem hmem]
    refine List.perm_middle.trans ?_
    refine (h.ledger.cons a).trans ?_
    exact (List.perm_append_singleton a o.made).symm

/-! ## Deletion -/

theorem Owned.delete (h : o.Owned (p :: ptrs)) :
    ∃ a o', o.heap p = some a ∧ o.delete p = some o' ∧ o'.deleted = o.deleted ++ [a] ∧
      o'.made = o.made ∧ (∀ q ≠ p, o'.heap q = o.heap q) ∧ o'.Owned ptrs := by
  obtain ⟨a, ha⟩ := h.exists_heap List.mem_cons_self
  obtain ⟨hmem, hnodup⟩ := List.nodup_cons.mp h.nodup
  refine ⟨a, { o with heap := Function.update o.heap p none, deleted := o.deleted ++ [a] }, ha, ?_,
    rfl, rfl, fun q hq => Function.update_of_ne hq _ _, ?_⟩
  · rw [Objects.delete, ha]
    rfl
  · constructor
    · exact hnodup
    · intro q
      by_cases hq : q = p
      · subst hq
        simp [hmem]
      · have := h.live q
        simp only [List.mem_cons, hq, false_or] at this
        simp [Function.update_of_ne hq, this]
    · show ((o.deleted ++ [a]) ++ ptrs.filterMap (Function.update o.heap p none)).Perm o.made
      rw [filterMap_update_of_notMem hmem, List.append_assoc, List.singleton_append]
      have := h.ledger
      rwa [List.filterMap_cons_some ha] at this

/-- Everything a list owns can be deleted; the objects of the other pointers stay. -/
theorem Owned.deleteAll {ps : List Nat} (h : o.Owned (ps ++ ptrs)) :
    ∃ o', o.deleteAll ps = some o' ∧ o'.deleted = o.deleted ++ ps.filterMap o.heap ∧
      o'.made = o.made ∧ (∀ q ∉ ps, o'.heap q = o.heap q) ∧ o'.Owned ptrs := by
  induction ps generalizing o with
  | nil => exact ⟨o, rfl, by simp, rfl, fun _ _ => rfl, h⟩
  | cons p ps ih =>
    obtain ⟨a, o₁, ha, h₁, hdel₁, hmade₁, hheap₁, howned₁⟩ := h.delete
    obtain ⟨o₂, h₂, hdel₂, hmade₂, hheap₂, howned₂⟩ := ih howned₁
    have hmem : p ∉ ps := by
      have := (List.nodup_cons.mp h.nodup).1
      exact fun hp => this (List.mem_append_left ptrs hp)
    refine ⟨o₂, ?_, ?_, hmade₂.trans hmade₁, ?_, howned₂⟩
    · rw [Objects.deleteAll, h₁]
      exact h₂
    · have hsame : ps.filterMap o₁.heap = ps.filterMap o.heap := by
        apply List.filterMap_congr
        intro q hq
        exact hheap₁ q fun heq => hmem (heq ▸ hq)
      rw [hdel₂, hdel₁, hsame, List.filterMap_cons_some ha, List.append_assoc, List.singleton_append]
    · intro q hq
      rw [List.mem_cons, not_or] at hq
      rw [hheap₂ q hq.2, hheap₁ q hq.1]

end Objects
