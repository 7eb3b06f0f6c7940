import Mathlib.Data.List.Nodup
import Mathlib.Algebra.Group.Nat.Defs

/-!
# A queue served in rounds

A server takes the items at the front of a queue, a batch at a time, and puts them back at the end.
Between two rounds items leave and others come in at the end.  A batch that is taken full makes the next
one twice as long.

`Waiting x bound batch₀ n queue batch`: after `n` rounds without it, the item `x` has come forward by the
batches taken, so

    batch₀ * (2 ^ n - 1)  ≤  the position of x at the beginning              (Waiting.le_bound)
-/

namespace RoundRobin

variable {α : Type*} [DecidableEq α]

/-- The queue after a round. -/
def serve (batch : Nat) (queue : List α) : List α := queue.drop batch ++ queue.take batch

/-- The queue after some items have left and others have come. -/
def change (stay : α → Bool) (arrivals queue : List α) : List α := queue.filter stay ++ arrivals

/-- The item is in the queue, `n` rounds have gone by without it, and it has moved up. -/
structure Waiting (x : α) (bound batch₀ n : Nat) (queue : List α) (batch : Nat) : Prop where
  mem : x ∈ queue
  batch_eq : batch = batch₀ * 2 ^ n
  position : queue.idxOf x + batch₀ * (2 ^ n - 1) ≤ bound

variable {x : α} {bound batch₀ n batch : Nat} {queue arrivals : List α} {stay : α → Bool}

omit [DecidableEq α] in
theorem nodup_serve (h : queue.Nodup) : (serve batch queue).Nodup := by
  unfold serve
  rw [List.nodup_append_comm, List.take_append_drop]
  exact h

omit [DecidableEq α] in
theorem mem_serve : x ∈ serve batch queue ↔ x ∈ queue := by
  unfold serve
  rw [List.mem_append, or_comm, ← List.mem_append, List.take_append_drop]

theorem idxOf_filter_le (h : stay x = true) (queue : List α) :
    (queue.filter stay).idxOf x ≤ queue.idxOf x := by
  induction queue with
  | nil => exact Nat.le_refl _
  | cons y queue ih =>
    by_cases hy : y = x
    · subst hy
      refine Nat.le_of_eq ?_
      rw [List.filter_cons_of_pos h, List.idxOf_cons_self, List.idxOf_cons_self]
    · rw [List.idxOf_cons_ne queue hy]
      by_cases hstay : stay y = true
      · rw [List.filter_cons_of_pos hstay, List.idxOf_cons_ne _ hy]
        exact Nat.succ_le_succ ih
      · rw [List.filter_cons_of_neg hstay]
        exact Nat.le_succ_of_le ih

/-- An item that is not in the batch comes forward by a whole batch. -/
theorem idxOf_serve (hx : x ∈ queue) (hnot : x ∉ queue.take batch) :
    batch ≤ queue.idxOf x ∧ x ∈ queue.drop batch ∧
      (serve batch queue).idxOf x + batch = queue.idxOf x := by
  have hdrop : x ∈ queue.drop batch := by
    rw [← List.take_append_drop batch queue, List.mem_append] at hx
    exact hx.resolve_left hnot
  have hle : batch ≤ queue.idxOf x := by
    by_contra hlt
    exact hnot ((List.mem_take_iff_idxOf_lt hx).mpr (by omega))
  have hlen : (queue.take batch).length = batch := by
    have := List.idxOf_lt_length_of_mem hx
    rw [List.length_take]
    omega
  have hsplit : queue.idxOf x = (queue.drop batch).idxOf x + batch := by
    conv => lhs; rw [← List.take_append_drop batch queue]
    rw [List.idxOf_append_of_notMem hnot, hlen, Nat.add_comm]
  refine ⟨hle, hdrop, ?_⟩
  rw [serve, List.idxOf_append_of_mem hdrop, hsplit]

namespace Waiting

theorem start (h : x ∈ queue) : Waiting x (queue.idxOf x) batch 0 queue batch :=
  ⟨h, by simp, by simp⟩

/-- A round without the item takes a full batch. -/
theorem serve (h : Waiting x bound batch₀ n queue batch) (hnot : x ∉ queue.take batch) :
    (queue.take batch).length = batch ∧
      Waiting x bound batch₀ (n + 1) (RoundRobin.serve batch queue) (batch * 2) := by
  obtain ⟨hle, -, hidx⟩ := idxOf_serve h.mem hnot
  have hlen : (queue.take batch).length = batch := by
    have := List.idxOf_lt_length_of_mem h.mem
    rw [List.length_take]
    omega
  have hpow : batch₀ * (2 ^ (n + 1) - 1) = batch₀ * (2 ^ n - 1) + batch₀ * 2 ^ n := by
    rw [← Nat.mul_add]
    congr 1
    have := Nat.one_le_two_pow (n := n)
    rw [Nat.pow_succ]
    omega
  have hposition := h.position
  have hbatch := h.batch_eq
  refine ⟨hlen, mem_serve.mpr h.mem, ?_, ?_⟩
  · rw [hbatch, Nat.pow_succ, Nat.mul_assoc]
  · rw [hpow]
    omega

theorem change (h : Waiting x bound batch₀ n queue batch) (arrivals : List α) (stay : α → Bool)
    (hstay : stay x = true) :
    Waiting x bound batch₀ n (RoundRobin.change stay arrivals queue) batch := by
  have hmem : x ∈ queue.filter stay := List.mem_filter.mpr ⟨h.mem, hstay⟩
  have hidx := idxOf_filter_le hstay queue
  have hposition := h.position
  refine ⟨List.mem_append_left _ hmem, h.batch_eq, ?_⟩
  rw [RoundRobin.change, List.idxOf_append_of_mem hmem]
  omega

/-- **The bound.** -/
theorem le_bound (h : Waiting x bound batch₀ n queue batch) : batch₀ * (2 ^ n - 1) ≤ bound :=
  Nat.le_trans (Nat.le_add_left _ _) h.position

end Waiting
end RoundRobin
