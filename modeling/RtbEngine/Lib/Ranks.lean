import Mathlib.Data.List.Sort
import Mathlib.Order.Bounds.Basic

/-!
# Ranks in a list

A list and the sorted list of the same elements: which element stands at a
place of it does not depend on how it was sorted, the places are in order, and
the first and the last are the bounds.
-/

namespace RtbEngine.Lib

universe u

variable {α : Type u} [LinearOrder α]

/-- `sorted` has the elements of `l`, in order. -/
structure IsSorting (sorted l : List α) : Prop where
  perm : sorted.Perm l
  ordered : sorted.Pairwise (· ≤ ·)

theorem isSorting_mergeSort (l : List α) : IsSorting (l.mergeSort (· ≤ ·)) l :=
  ⟨List.mergeSort_perm _ _, List.pairwise_mergeSort' (· ≤ ·) l⟩

namespace IsSorting

variable {sorted sorted' l l' : List α}

theorem unique (h : IsSorting sorted l) (h' : IsSorting sorted' l') (hperm : l.Perm l') :
    sorted = sorted' := by
  refine List.Perm.eq_of_pairwise (fun a b _ _ => le_antisymm) h.ordered h'.ordered ?_
  exact h.perm.trans (hperm.trans h'.perm.symm)

theorem mem_iff (h : IsSorting sorted l) {a : α} : a ∈ sorted ↔ a ∈ l := h.perm.mem_iff

theorem length_eq (h : IsSorting sorted l) : sorted.length = l.length := h.perm.length_eq

/-- Every place below the length is taken. -/
theorem exists_rank (h : IsSorting sorted l) {i : Nat} (hi : i < l.length) :
    ∃ a, sorted[i]? = some a := by
  have hlt : i < sorted.length := h.length_eq ▸ hi
  exact ⟨sorted[i], List.getElem?_eq_getElem hlt⟩

theorem rank_mono (h : IsSorting sorted l) {i j : Nat} {a b : α} (hij : i ≤ j)
    (ha : sorted[i]? = some a) (hb : sorted[j]? = some b) : a ≤ b := by
  rcases hij.lt_or_eq with hlt | rfl
  · obtain ⟨hi, rfl⟩ := List.getElem?_eq_some_iff.mp ha
    obtain ⟨hj, rfl⟩ := List.getElem?_eq_some_iff.mp hb
    exact List.pairwise_iff_getElem.mp h.ordered i j hi hj hlt
  · rw [ha] at hb
    cases hb
    exact le_refl a

/-- The first place is the least element. -/
theorem isLeast_of_head (h : IsSorting sorted l) {a : α} (ha : sorted[0]? = some a) :
    IsLeast {x | x ∈ l} a := by
  refine ⟨h.mem_iff.mp (List.mem_of_getElem? ha), ?_⟩
  intro x hx
  obtain ⟨i, hi⟩ := List.mem_iff_getElem?.mp (h.mem_iff.mpr hx)
  exact h.rank_mono (Nat.zero_le i) ha hi

/-- The last place is the greatest element. -/
theorem isGreatest_of_last (h : IsSorting sorted l) {a : α}
    (ha : sorted[l.length - 1]? = some a) : IsGreatest {x | x ∈ l} a := by
  refine ⟨h.mem_iff.mp (List.mem_of_getElem? ha), ?_⟩
  intro x hx
  obtain ⟨i, hi⟩ := List.mem_iff_getElem?.mp (h.mem_iff.mpr hx)
  have hlt : i < sorted.length := (List.getElem?_eq_some_iff.mp hi).1
  rw [h.length_eq] at hlt
  exact h.rank_mono (Nat.le_sub_one_of_lt hlt) hi ha

end IsSorting

/-- The running minimum of a list is its least element. -/
theorem isLeast_foldl_min (a : α) (l : List α) : IsLeast {x | x ∈ a :: l} (l.foldl min a) := by
  induction l generalizing a with
  | nil => exact ⟨List.mem_cons_self, fun x hx => (List.mem_singleton.mp hx).ge⟩
  | cons b l ih =>
      obtain ⟨hmem, hle⟩ := ih (min a b)
      refine ⟨?_, ?_⟩
      · rcases List.mem_cons.mp hmem with heq | hmem
        · rcases le_total a b with hab | hba
          · exact List.mem_cons.mpr (.inl (heq.trans (min_eq_left hab)))
          · exact List.mem_cons_of_mem _ (List.mem_cons.mpr (.inl (heq.trans (min_eq_right hba))))
        · exact List.mem_cons_of_mem _ (List.mem_cons_of_mem _ hmem)
      · have hmin : List.foldl min (min a b) l ≤ min a b := hle List.mem_cons_self
        intro x hx
        rcases List.mem_cons.mp hx with rfl | hx
        · exact hmin.trans (min_le_left _ _)
        rcases List.mem_cons.mp hx with rfl | hx
        · exact hmin.trans (min_le_right _ _)
        · exact hle (List.mem_cons_of_mem _ hx)

/-- The running maximum of a list is its greatest element. -/
theorem isGreatest_foldl_max (a : α) (l : List α) :
    IsGreatest {x | x ∈ a :: l} (l.foldl max a) :=
  @isLeast_foldl_min αᵒᵈ _ a l

end RtbEngine.Lib
