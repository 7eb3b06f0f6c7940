import Mathlib.Data.List.Basic

/-!
# Work that runs in batches

Items are pushed while others run.  Now and then everything pushed so far becomes a batch, whose items
run one after the other and are destroyed together at its end.

* `called`, `waiting`: the items of the batch that have run, and those that have not.
* `pending`: what the next batch will be made of.

Some items own what others need.  As a batch is destroyed as a whole, an owner serves every item of its
batch, before it or behind it, and an owner still pending serves the running batch as well:

    if everything is `Guarded`, an item that needs an owner finds one when it runs    (Guarded.head)
-/

/-- The items that exist. -/
structure Batches (F : Type*) where
  called : List F
  waiting : List F
  pending : List F

namespace Batches

variable {F : Type*} {owns needs : F → Bool} {b : Batches F} {f : F} {fs : List F}

def items (b : Batches F) : List F := b.called ++ b.waiting ++ b.pending

/-! ## Steps -/

def push (b : Batches F) (fs : List F) : Batches F := { b with pending := b.pending ++ fs }

/-- What is pending becomes the batch. -/
def swap (b : Batches F) : Batches F := { b with waiting := b.pending, pending := [] }

/-- The next item runs. -/
def call (b : Batches F) : Batches F :=
  { b with called := b.called ++ b.waiting.take 1, waiting := b.waiting.drop 1 }

/-- The batch is destroyed. -/
def finish (b : Batches F) : Batches F := { b with called := [], waiting := [] }

/-! ## Owners -/

/-- Every item that needs an owner will find one. -/
def Guarded (owns needs : F → Bool) (b : Batches F) : Prop :=
  (∃ f ∈ b.pending, owns f = true) ∨
    (∀ f ∈ b.pending, needs f = false) ∧
      ((∀ f ∈ b.waiting, needs f = false) ∨ ∃ f ∈ b.called ++ b.waiting, owns f = true)

/-- An owner is pushed: that is enough for all that there is. -/
theorem guarded_push_owner (h : ∃ f ∈ fs, owns f = true) : (b.push fs).Guarded owns needs := by
  obtain ⟨f, hf, howns⟩ := h
  exact Or.inl ⟨f, List.mem_append_right _ hf, howns⟩

theorem Guarded.push (h : b.Guarded owns needs) (hfs : ∀ f ∈ fs, needs f = false) :
    (b.push fs).Guarded owns needs := by
  rcases h with ⟨f, hf, howns⟩ | ⟨hpending, hbatch⟩
  · exact Or.inl ⟨f, List.mem_append_left _ hf, howns⟩
  · refine Or.inr ⟨fun f hf => ?_, hbatch⟩
    rcases List.mem_append.mp hf with hf | hf
    · exact hpending f hf
    · exact hfs f hf

theorem Guarded.swap (h : b.Guarded owns needs) : b.swap.Guarded owns needs := by
  have hnone : ∀ f ∈ b.swap.pending, needs f = false := fun f hf => by cases hf
  rcases h with ⟨f, hf, howns⟩ | ⟨hpending, -⟩
  · exact Or.inr ⟨hnone, Or.inr ⟨f, List.mem_append_right _ hf, howns⟩⟩
  · exact Or.inr ⟨hnone, Or.inl hpending⟩

theorem Guarded.call (h : b.Guarded owns needs) : b.call.Guarded owns needs := by
  rcases h with howner | ⟨hpending, hbatch⟩
  · exact Or.inl howner
  · refine Or.inr ⟨hpending, ?_⟩
    rcases hbatch with hwaiting | ⟨f, hf, howns⟩
    · exact Or.inl fun f hf => hwaiting f (List.mem_of_mem_drop hf)
    · refine Or.inr ⟨f, ?_, howns⟩
      show f ∈ (b.called ++ b.waiting.take 1) ++ b.waiting.drop 1
      rw [List.append_assoc, List.take_append_drop]
      exact hf

theorem Guarded.finish (h : b.Guarded owns needs) : b.finish.Guarded owns needs := by
  rcases h with howner | ⟨hpending, -⟩
  · exact Or.inl howner
  · exact Or.inr ⟨hpending, Or.inl fun f hf => by cases hf⟩

/-- **An item that needs an owner finds one** when it is its turn. -/
theorem Guarded.head (h : b.Guarded owns needs) (hf : f ∈ b.waiting) (hneeds : needs f = true) :
    ∃ g ∈ b.items, owns g = true := by
  rcases h with ⟨g, hg, howns⟩ | ⟨-, hwaiting | ⟨g, hg, howns⟩⟩
  · exact ⟨g, List.mem_append_right _ hg, howns⟩
  · rw [hwaiting f hf] at hneeds
    cases hneeds
  · exact ⟨g, List.mem_append_left _ hg, howns⟩

/-- Where there is no owner, nothing that is still to run needs one. -/
theorem Guarded.needs_eq_false (h : b.Guarded owns needs) (hnone : ∀ f ∈ b.items, owns f = false) :
    ∀ f ∈ b.waiting ++ b.pending, needs f = false := by
  rcases h with ⟨g, hg, howns⟩ | ⟨hpending, hwaiting | ⟨g, hg, howns⟩⟩
  · rw [hnone g (List.mem_append_right _ hg)] at howns
    cases howns
  · intro f hf
    rcases List.mem_append.mp hf with hf | hf
    · exact hwaiting f hf
    · exact hpending f hf
  · rw [hnone g (List.mem_append_left _ hg)] at howns
    cases howns

end Batches
