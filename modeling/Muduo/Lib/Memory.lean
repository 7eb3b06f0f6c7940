import Mathlib.Data.List.Basic

/-!
# Memory blocks with checked accesses

A block is a list of cells.  `load`, `store` and `copyForward` return `none` when they touch a
cell outside the block, so `= some _` says that every index touched was inside.

* `window m r w`: the cells `r, …, w - 1`.
* `copyForward`: a forward element-by-element copy inside one block (`std::copy`); when it moves
  data down it is the copy of a snapshot, also for overlapping ranges (`copyForward_eq_store`).
-/

namespace Memory

variable {α : Type*}

/-- The cells with index in `[r, w)`. -/
def window (m : List α) (r w : Nat) : List α := (m.take w).drop r

/-- Read `len` cells from `first` on. -/
def load (m : List α) (first len : Nat) : Option (List α) :=
  if first + len ≤ m.length then some (window m first (first + len)) else none

/-- Write `src` from cell `dst` on. -/
def store (m : List α) (dst : Nat) (src : List α) : Option (List α) :=
  if dst + src.length ≤ m.length then some (m.take dst ++ src ++ m.drop (dst + src.length)) else none

/-- Copy `n` cells from `first` on to `dst` on, one by one, lowest first. -/
def copyForward (m : List α) (first dst : Nat) : Nat → Option (List α)
  | 0 => some m
  | n + 1 =>
    match m[first]? with
    | none => none
    | some x => if dst < m.length then copyForward (m.set dst x) (first + 1) (dst + 1) n else none

/-- Change the length of a block to `n`, filling new cells with `x`. -/
def resize (m : List α) (n : Nat) (x : α) : List α := m.take n ++ List.replicate (n - m.length) x

/-! ## Windows -/

theorem length_window (m : List α) (r w : Nat) (h : w ≤ m.length) : (window m r w).length = w - r := by
  simp only [window, List.length_drop, List.length_take]
  omega

@[simp] theorem window_self (m : List α) (r : Nat) : window m r r = [] := by
  simp [window]

theorem window_drop (m : List α) (r w k : Nat) : (window m r w).drop k = window m (r + k) w := by
  simp [window, List.drop_drop]

theorem window_take (m : List α) (r w k : Nat) (h : r + k ≤ w) :
    (window m r w).take k = window m r (r + k) := by
  simp only [window, List.take_drop, List.take_take]
  rw [Nat.min_eq_left h]

theorem window_eq_of_take_eq {m m' : List α} {w : Nat} (h : m.take w = m'.take w) (r : Nat) :
    window m r w = window m' r w := by
  simp only [window, h]

theorem take_resize (m : List α) (n w : Nat) (x : α) (hn : w ≤ n) (hm : w ≤ m.length) :
    (resize m n x).take w = m.take w := by
  rw [resize, List.take_append_of_le_length (by rw [List.length_take]; omega), List.take_take,
    Nat.min_eq_left hn]

theorem length_resize (m : List α) (n : Nat) (x : α) : (resize m n x).length = n := by
  simp only [resize, List.length_append, List.length_take, List.length_replicate]
  omega

theorem load_eq_some (m : List α) (first len : Nat) (h : first + len ≤ m.length) :
    load m first len = some (window m first (first + len)) :=
  if_pos h

/-! ## Stores -/

section
variable {m m' src : List α} {dst : Nat}

theorem store_isSome (m src : List α) (dst : Nat) (h : dst + src.length ≤ m.length) :
    ∃ m', store m dst src = some m' :=
  ⟨_, if_pos h⟩

theorem store_bound (h : store m dst src = some m') : dst + src.length ≤ m.length := by
  unfold store at h
  split at h
  · assumption
  · cases h

theorem length_store (h : store m dst src = some m') : m'.length = m.length := by
  have hb := store_bound h
  rw [store, if_pos hb, Option.some.injEq] at h
  rw [← h]
  simp only [List.length_append, List.length_take, List.length_drop]
  omega

/-- The cells up to the end of the store: the old ones below `dst`, then `src`. -/
theorem take_store (h : store m dst src = some m') : m'.take (dst + src.length) = m.take dst ++ src := by
  have hb := store_bound h
  rw [store, if_pos hb, Option.some.injEq] at h
  rw [← h]
  apply List.take_left'
  simp only [List.length_append, List.length_take]
  omega

/-- A store at the end of a window appends to it. -/
theorem window_store_end (h : store m dst src = some m') (r : Nat) (hr : r ≤ dst) :
    window m' r (dst + src.length) = window m r dst ++ src := by
  have hb := store_bound h
  rw [window, take_store h, List.drop_append_of_le_length (by rw [List.length_take]; omega), window]

/-- The stored cells read back. -/
theorem window_store_self (h : store m dst src = some m') :
    window m' dst (dst + src.length) = src := by
  rw [window_store_end h dst (Nat.le_refl _), window_self, List.nil_append]

end

/-! ## Copies -/

/-- **Moving data down.**  For `dst ≤ first` the forward copy reads only cells it has not
overwritten yet, so it stores a snapshot of the source range. -/
theorem copyForward_eq_store (n : Nat) :
    ∀ (m : List α) (first dst : Nat), dst ≤ first → first + n ≤ m.length →
      copyForward m first dst n = store m dst (window m first (first + n)) := by
  induction n with
  | zero =>
    intro m first dst hd hn
    simp only [copyForward, Nat.add_zero, window_self, store, List.length_nil, List.append_nil,
      List.take_append_drop]
    rw [if_pos (by omega)]
  | succ n ih =>
    intro m first dst hd hn
    have hf : first < m.length := by omega
    have hw : window m first (first + (n + 1)) = m[first] :: window m (first + 1) (first + 1 + n) := by
      simp only [window, List.drop_take]
      rw [List.drop_eq_getElem_cons hf, show first + (n + 1) - first = n + 1 by omega,
        show first + 1 + n - (first + 1) = n by omega, List.take_succ_cons]
    -- the write at `dst` leaves the cells still to be read alone
    have hrest : window (m.set dst m[first]) (first + 1) (first + 1 + n) =
        window m (first + 1) (first + 1 + n) := by
      simp only [window, List.drop_take]
      rw [List.drop_set_of_lt (by omega)]
    have hlen : (window m (first + 1) (first + 1 + n)).length = n := by
      rw [length_window _ _ _ (by omega)]
      omega
    simp only [copyForward, List.getElem?_eq_getElem hf]
    rw [if_pos (by omega), ih _ _ _ (by omega) (by rw [List.length_set]; omega), hrest, hw]
    simp only [store, List.length_set, List.length_cons, hlen]
    rw [if_pos (by omega), if_pos (by omega)]
    have htake : (m.set dst m[first]).take (dst + 1) = m.take dst ++ [m[first]] := by
      rw [List.take_add_one, List.take_set_of_le (Nat.le_refl _), List.getElem?_set_self (by omega),
        Option.toList_some]
    rw [htake, List.drop_set_of_lt (by omega), show dst + 1 + n = dst + (n + 1) by omega]
    simp only [List.append_assoc, List.singleton_append]

end Memory
