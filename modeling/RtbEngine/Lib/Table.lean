import Mathlib.Data.List.Basic
import Mathlib.Data.List.Induction
import Mathlib.Logic.Function.Basic

/-!
# Tables with indexes and a pool

A table is a list that grows at its end. An index files the positions of its
entries under a key; entries that own a variable number of items keep them in
a pool, each a slice of it.

* `Indexes.push` — filing a new entry keeps an index complete and in order;
* `Indexes.scan` — looking through one bucket is looking through the table;
* `Tiles.snoc`, `Tiles.existsUnique` — slices that follow one another without
  a gap partition the pool.
-/

namespace RtbEngine.Lib

/-! ## Indexes -/

section

variable {α κ ν : Type} [DecidableEq κ] (key : α → κ)

/-- The positions of the entries with the key `k`, in ascending order. -/
def positions (k : κ) (xs : List α) : List Nat :=
  (List.range xs.length).filter fun i => xs[i]?.any fun x => key x = k

variable {key} {k : κ} {xs : List α}

theorem mem_positions {i : Nat} : i ∈ positions key k xs ↔ ∃ x, xs[i]? = some x ∧ key x = k := by
  simp only [positions, List.mem_filter, List.mem_range, Option.any_eq_true, decide_eq_true_eq]
  constructor
  · exact fun h => h.2
  · rintro ⟨x, hx, hk⟩
    exact ⟨(List.getElem?_eq_some_iff.mp hx).1, x, hx, hk⟩

theorem positions_ascending : (positions key k xs).Pairwise (· < ·) :=
  List.pairwise_lt_range.filter _

theorem positions_snoc (x : α) :
    positions key k (xs ++ [x]) =
      positions key k xs ++ if key x = k then [xs.length] else [] := by
  unfold positions
  rw [List.length_append, List.length_singleton, List.range_succ, List.filter_append]
  congr 1
  · apply List.filter_congr
    intro i hi
    rw [List.getElem?_append_left (List.mem_range.mp hi)]
  · by_cases hk : key x = k
    · simp [hk]
    · simp [hk]

/-- Looking through the positions of a key finds every entry that has it. -/
theorem filterMap_positions {p : α → Bool} (hp : ∀ x, p x → key x = k) :
    (positions key k xs).filterMap (fun i => xs[i]?.filter p) = xs.filter p := by
  induction xs using List.reverseRecOn with
  | nil => rfl
  | append_singleton xs x ih =>
      -- positions filed before the last entry still find what they found
      have hold : (positions key k xs).filterMap (fun i => (xs ++ [x])[i]?.filter p) =
          (positions key k xs).filterMap (fun i => xs[i]?.filter p) := by
        apply List.filterMap_congr
        intro i hi
        obtain ⟨y, hy, -⟩ := mem_positions.mp hi
        rw [List.getElem?_append_left (List.getElem?_eq_some_iff.mp hy).1]
      rw [positions_snoc, List.filterMap_append, hold, ih, List.filter_append]
      congr 1
      have hlast : (xs ++ [x])[xs.length]? = some x := List.getElem?_concat_length
      by_cases hpx : p x = true
      · rw [if_pos (hp x hpx), List.filterMap_cons, hlast]
        simp [Option.filter, hpx]
      · by_cases hk : key x = k
        · rw [if_pos hk, List.filterMap_cons, hlast]
          simp [Option.filter, hpx]
        · simp [hk, hpx]

variable (key) in
/-- Under each key `index` files the positions that have it; a key that no
entry has is absent. `val` reads a filed position. -/
def Indexes (val : ν → Nat) (index : κ → Option (List ν)) (xs : List α) : Prop :=
  ∀ k, (index k).map (List.map val) =
    if positions key k xs = [] then none else some (positions key k xs)

variable {val : ν → Nat} {index : κ → Option (List ν)}

theorem indexes_nil : Indexes key val (fun _ => none) [] := fun _ => rfl

theorem Indexes.getD (h : Indexes key val index xs) (k : κ) :
    ((index k).getD []).map val = positions key k xs := by
  have hk := h k
  cases hb : index k with
  | none =>
      rw [hb] at hk
      split at hk
      · rename_i hnil
        rw [hnil]
        rfl
      · cases hk
  | some bucket =>
      rw [hb] at hk
      split at hk
      · cases hk
      · exact Option.some.inj hk

/-- File the next entry at the end of its bucket. -/
theorem Indexes.push (h : Indexes key val index xs) {x : α} {n : ν} (hn : val n = xs.length) :
    Indexes key val
      (Function.update index (key x) (some ((index (key x)).getD [] ++ [n]))) (xs ++ [x]) := by
  intro k
  by_cases hk : k = key x
  · subst hk
    rw [Function.update_self, positions_snoc, if_pos rfl, if_neg (by simp), Option.map_some,
      List.map_append, h.getD, List.map_singleton, hn]
  · have hold : positions key k (xs ++ [x]) = positions key k xs := by
      rw [positions_snoc, if_neg fun he => hk he.symm, List.append_nil]
    rw [Function.update_of_ne hk, hold]
    exact h k

/-- **One bucket is enough.** For a test that implies the key, the scan of
the bucket is the scan of the table. -/
theorem Indexes.scan (h : Indexes key val index xs) {p : α → Bool} (hp : ∀ x, p x → key x = k)
    {bucket : List ν} (hb : index k = some bucket) :
    bucket.filterMap (fun n => xs[val n]?.filter p) = xs.filter p := by
  have hval : bucket.map val = positions key k xs := by
    have hget := h.getD k
    rwa [hb] at hget
  rw [← filterMap_positions hp, ← hval, List.filterMap_map]
  rfl

theorem Indexes.scan_none (h : Indexes key val index xs) {p : α → Bool}
    (hp : ∀ x, p x → key x = k) (hb : index k = none) : xs.filter p = [] := by
  have hpos : positions key k xs = [] := by
    have hget := h.getD k
    rw [hb] at hget
    exact hget.symm
  rw [← filterMap_positions hp, hpos]
  rfl

end

/-! ## Slices of a pool -/

/-- The slices (offset, count) follow one another from `start` to `stop`, and
none is empty. -/
def Tiles : Nat → List (Nat × Nat) → Nat → Prop
  | start, [], stop => start = stop
  | start, (offset, count) :: slices, stop =>
      offset = start ∧ 0 < count ∧ Tiles (start + count) slices stop

theorem Tiles.snoc {start stop count : Nat} {slices : List (Nat × Nat)}
    (h : Tiles start slices stop) (hcount : 0 < count) :
    Tiles start (slices ++ [(stop, count)]) (stop + count) := by
  induction slices generalizing start with
  | nil =>
      have hstart : start = stop := h
      subst hstart
      exact ⟨rfl, hcount, rfl⟩
  | cons slice slices ih =>
      obtain ⟨hoffset, hpos, hrest⟩ := h
      exact ⟨hoffset, hpos, ih hrest⟩

theorem Tiles.start_le_stop {start stop : Nat} {slices : List (Nat × Nat)}
    (h : Tiles start slices stop) : start ≤ stop := by
  induction slices generalizing start with
  | nil => exact Nat.le_of_eq h
  | cons slice slices ih =>
      obtain ⟨-, -, hrest⟩ := h
      exact Nat.le_trans (Nat.le_add_right _ _) (ih hrest)

/-- No slice ends behind the end. -/
theorem Tiles.slice_le {start stop : Nat} {slices : List (Nat × Nat)}
    (h : Tiles start slices stop) {slice : Nat × Nat} (hmem : slice ∈ slices) :
    slice.1 + slice.2 ≤ stop := by
  induction slices generalizing start with
  | nil => cases hmem
  | cons head slices ih =>
      obtain ⟨hoffset, -, hrest⟩ := h
      rcases List.mem_cons.mp hmem with rfl | hmem
      · rw [hoffset]
        exact hrest.start_le_stop
      · exact ih hrest hmem

/-- No slice starts in front of the start. -/
theorem Tiles.start_le_slice {start stop : Nat} {slices : List (Nat × Nat)}
    (h : Tiles start slices stop) {slice : Nat × Nat} (hmem : slice ∈ slices) :
    start ≤ slice.1 := by
  induction slices generalizing start with
  | nil => cases hmem
  | cons head slices ih =>
      obtain ⟨hoffset, -, hrest⟩ := h
      rcases List.mem_cons.mp hmem with rfl | hmem
      · exact Nat.le_of_eq hoffset.symm
      · exact Nat.le_trans (Nat.le_add_right _ _) (ih hrest hmem)

def InSlice (slice : Nat × Nat) (i : Nat) : Prop :=
  slice.1 ≤ i ∧ i < slice.1 + slice.2

/-- **A partition.** Every position lies in exactly one slice. -/
theorem Tiles.existsUnique {start stop i : Nat} {slices : List (Nat × Nat)}
    (h : Tiles start slices stop) (hstart : start ≤ i) (hstop : i < stop) :
    ∃! j : Nat, ∃ slice, slices[j]? = some slice ∧ InSlice slice i := by
  induction slices generalizing start with
  | nil =>
      have hempty : start = stop := h
      omega
  | cons head slices ih =>
      obtain ⟨hoffset, -, hrest⟩ := h
      by_cases hin : i < start + head.2
      · -- in the head; every later slice starts behind it
        refine ⟨0, ⟨head, rfl, by rw [hoffset]; exact hstart, by rw [hoffset]; exact hin⟩, ?_⟩
        rintro j ⟨slice, hslice, hle, -⟩
        cases j with
        | zero => rfl
        | succ j =>
            have hbehind := hrest.start_le_slice (List.mem_of_getElem? hslice)
            omega
      · obtain ⟨j, hj, hunique⟩ := ih hrest (by omega)
        refine ⟨j + 1, hj, ?_⟩
        rintro j' ⟨slice, hslice, hle, hlt⟩
        cases j' with
        | zero =>
            cases hslice
            rw [hoffset] at hlt
            exact absurd hlt hin
        | succ j' => rw [hunique j' ⟨slice, hslice, hle, hlt⟩]

end RtbEngine.Lib
