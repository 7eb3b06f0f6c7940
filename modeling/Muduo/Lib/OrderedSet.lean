import Mathlib.Data.List.Sort
import Mathlib.Data.List.TakeWhile
import Mathlib.Order.Lattice

/-!
# Ordered sets as sorted lists

A finite set with a linear order, walked from the smallest element on.  The list is strictly
increasing by construction, so an element occurs once.

* `insert`: nothing happens when the element is there (`perm_insert`, `head?_insert`).
* `below b`, `dropBelow b`: the range before the lower bound of `b`, and the set without it.
* A sequence that only grows by insertions keeps its order: what is taken off its front, as far as it
  was there before, is a prefix of what was there (`prefix_of_sublist`).
-/

structure OrderedSet (α : Type*) [LinearOrder α] where
  toList : List α
  sorted : toList.Pairwise (· < ·)

namespace OrderedSet

variable {α : Type*} [LinearOrder α]

def empty : OrderedSet α := ⟨[], List.Pairwise.nil⟩

theorem nodup (s : OrderedSet α) : s.toList.Nodup := s.sorted.imp fun h => ne_of_lt h

theorem sorted_orderedInsert {l : List α} (h : l.Pairwise (· < ·)) {a : α} (ha : a ∉ l) :
    (l.orderedInsert (· ≤ ·) a).Pairwise (· < ·) := by
  have hle : (l.orderedInsert (· ≤ ·) a).Pairwise (· ≤ ·) :=
    List.Pairwise.orderedInsert a l (h.imp le_of_lt)
  have hnodup : (l.orderedInsert (· ≤ ·) a).Nodup := by
    rw [(List.perm_orderedInsert (· ≤ ·) a l).nodup_iff, List.nodup_cons]
    exact ⟨ha, h.imp fun h => ne_of_lt h⟩
  exact (hle.and hnodup).imp fun h => lt_of_le_of_ne h.1 h.2

def insert (s : OrderedSet α) (a : α) : OrderedSet α :=
  if h : a ∈ s.toList then s else ⟨s.toList.orderedInsert (· ≤ ·) a, sorted_orderedInsert s.sorted h⟩

theorem toList_insert {s : OrderedSet α} {a : α} (h : a ∉ s.toList) :
    (s.insert a).toList = s.toList.orderedInsert (· ≤ ·) a := by
  rw [insert, dif_neg h]

theorem perm_insert {s : OrderedSet α} {a : α} (h : a ∉ s.toList) :
    (s.insert a).toList.Perm (a :: s.toList) := by
  rw [toList_insert h]
  exact List.perm_orderedInsert _ _ _

@[simp] theorem mem_insert {s : OrderedSet α} {a b : α} :
    b ∈ (s.insert a).toList ↔ b = a ∨ b ∈ s.toList := by
  by_cases h : a ∈ s.toList
  · rw [insert, dif_pos h]
    constructor
    · exact Or.inr
    · rintro (rfl | hb)
      · exact h
      · exact hb
  · rw [(perm_insert h).mem_iff, List.mem_cons]

/-! ## The first element -/

theorem head?_le {s : OrderedSet α} {a b : α} (h : s.toList.head? = some a) (hb : b ∈ s.toList) :
    a ≤ b := by
  obtain ⟨l, hl⟩ := List.head?_eq_some_iff.mp h
  have hs := s.sorted
  rw [hl] at hs hb
  rcases List.mem_cons.mp hb with rfl | hb
  · exact le_refl b
  · exact le_of_lt (List.rel_of_pairwise_cons hs hb)

/-- The smallest element comes first. -/
theorem head?_eq_some {s : OrderedSet α} {a : α} :
    s.toList.head? = some a ↔ a ∈ s.toList ∧ ∀ b ∈ s.toList, a ≤ b := by
  constructor
  · intro h
    exact ⟨List.mem_of_head? h, fun b hb => head?_le h hb⟩
  · rintro ⟨ha, hle⟩
    obtain ⟨c, hc⟩ : ∃ c, s.toList.head? = some c := by
      rw [← Option.isSome_iff_exists, List.isSome_head?]
      exact List.ne_nil_of_mem ha
    have : c = a := le_antisymm (head?_le hc ha) (hle c (List.mem_of_head? hc))
    rw [hc, this]

theorem head?_insert_of_lt {s : OrderedSet α} {a : α}
    (h : ∀ b, s.toList.head? = some b → a < b) : (s.insert a).toList.head? = some a := by
  rw [head?_eq_some]
  refine ⟨mem_insert.mpr (Or.inl rfl), fun b hb => ?_⟩
  rcases mem_insert.mp hb with rfl | hb
  · exact le_refl b
  · obtain ⟨c, hc⟩ : ∃ c, s.toList.head? = some c := by
      rw [← Option.isSome_iff_exists, List.isSome_head?]
      exact List.ne_nil_of_mem hb
    exact le_of_lt (lt_of_lt_of_le (h c hc) (head?_le hc hb))

theorem head?_insert_of_le {s : OrderedSet α} {a b : α} (h : s.toList.head? = some b) (hle : b ≤ a) :
    (s.insert a).toList.head? = some b := by
  rw [head?_eq_some]
  refine ⟨mem_insert.mpr (Or.inr (List.mem_of_head? h)), fun c hc => ?_⟩
  rcases mem_insert.mp hc with rfl | hc
  · exact hle
  · exact head?_le h hc

/-! ## The lower bound -/

theorem takeWhile_eq_filter {l : List α} (h : l.Pairwise (· < ·)) (b : α) :
    l.takeWhile (· < b) = l.filter (· < b) := by
  induction l with
  | nil => rfl
  | cons a l ih =>
    rw [List.takeWhile_cons, List.filter_cons]
    split
    · rw [ih h.of_cons]
    · next hab =>
      symm
      rw [List.filter_eq_nil_iff]
      intro c hc hcb
      simp only [decide_eq_true_eq] at hab hcb
      exact hab (lt_trans (List.rel_of_pairwise_cons h hc) hcb)

theorem dropWhile_eq_filter {l : List α} (h : l.Pairwise (· < ·)) (b : α) :
    l.dropWhile (· < b) = l.filter (b ≤ ·) := by
  induction l with
  | nil => rfl
  | cons a l ih =>
    rw [List.dropWhile_cons]
    split
    · next hab =>
      simp only [decide_eq_true_eq] at hab
      rw [ih h.of_cons, List.filter_cons_of_neg (by simpa using hab)]
    · next hab =>
      simp only [decide_eq_true_eq, not_lt] at hab
      symm
      rw [List.filter_eq_self]
      intro c hc
      rw [decide_eq_true_eq]
      rcases List.mem_cons.mp hc with rfl | hc
      · exact hab
      · exact le_of_lt (lt_of_le_of_lt hab (List.rel_of_pairwise_cons h hc))

/-- The elements before `lower_bound(b)`. -/
def below (s : OrderedSet α) (b : α) : List α := s.toList.takeWhile (· < b)

/-- Erase the elements before `lower_bound(b)`. -/
def dropBelow (s : OrderedSet α) (b : α) : OrderedSet α :=
  ⟨s.toList.dropWhile (· < b), s.sorted.sublist (List.dropWhile_sublist _)⟩

theorem below_append_dropBelow (s : OrderedSet α) (b : α) :
    s.below b ++ (s.dropBelow b).toList = s.toList := List.takeWhile_append_dropWhile

theorem below_eq_filter (s : OrderedSet α) (b : α) : s.below b = s.toList.filter (· < b) :=
  takeWhile_eq_filter s.sorted b

theorem dropBelow_eq_filter (s : OrderedSet α) (b : α) :
    (s.dropBelow b).toList = s.toList.filter (b ≤ ·) := dropWhile_eq_filter s.sorted b

/-! ## Sequences that grow by insertions -/

/-- Elements are not reordered in a larger set. -/
theorem sublist_of_subset {s s' : OrderedSet α} (h : ∀ a ∈ s.toList, a ∈ s'.toList) :
    s.toList.Sublist s'.toList :=
  List.sublist_of_subperm_of_pairwise (List.subperm_of_subset s.nodup h) s.sorted s'.sorted

end OrderedSet

section Insertions

variable {α β : Type*} [DecidableEq β] {key : α → β} {l l' done rest : List α}

/-- What was there before an insertion is found again by its keys. -/
theorem filter_key_of_sublist (h : l.Sublist l') (hkeys : (l'.map key).Nodup) :
    l'.filter (fun a => key a ∈ l.map key) = l := by
  induction h with
  | slnil => rfl
  | cons a h ih =>
    rw [List.map_cons, List.nodup_cons] at hkeys
    have hnot : key a ∉ List.map key _ := fun hmem => hkeys.1 ((h.map key).subset hmem)
    rw [List.filter_cons_of_neg (by simpa using hnot)]
    exact ih hkeys.2
  | cons_cons a h ih =>
    rw [List.map_cons, List.nodup_cons] at hkeys
    rw [List.filter_cons_of_pos (by simp)]
    refine congrArg (a :: ·) ((List.filter_congr ?_).trans (ih hkeys.2))
    intro b hb
    have hne : key b ≠ key a := fun heq => hkeys.1 (heq ▸ List.mem_map_of_mem hb)
    simp [hne]

/-- **Nothing is overtaken.**  When `l` has grown by insertions to `done ++ rest`, those elements of `l`
that are done are the first ones of `l`. -/
theorem prefix_of_sublist (h : l.Sublist (done ++ rest)) (hkeys : ((done ++ rest).map key).Nodup) :
    done.filter (fun a => key a ∈ l.map key) <+: l := by
  have hfilter := filter_key_of_sublist h hkeys
  rw [List.filter_append] at hfilter
  exact ⟨_, hfilter⟩

end Insertions
