import Mathlib.Data.List.Basic

/-!
# Bounded queues

A first-in first-out queue with a capacity, calls on it, and machines whose
steps it matches.

* `BoundedQueue.run_contents` — what was pushed is what was popped followed by
  what is left, in order.
* `foldlM_simulates` — steps that are matched give runs that are matched.
-/

namespace RtbEngine.Lib

universe u

/-- A relation that each successful step of `f` keeps, with a successful step
of `g` beside it, is kept by whole runs. -/
theorem foldlM_simulates {σ τ ι κ : Type u} {f : σ → ι → Option σ} {g : τ → κ → Option τ}
    {label : ι → κ} {R : σ → τ → Prop}
    (hstep : ∀ {s t i s'}, R s t → f s i = some s' → ∃ t', g t (label i) = some t' ∧ R s' t')
    (is : List ι) {s s' : σ} {t : τ} (hR : R s t) (hrun : is.foldlM f s = some s') :
    ∃ t', (is.map label).foldlM g t = some t' ∧ R s' t' := by
  induction is generalizing s t with
  | nil =>
      cases hrun
      exact ⟨t, rfl, hR⟩
  | cons i is ih =>
      rw [List.foldlM_cons, Option.bind_eq_bind, Option.bind_eq_some_iff] at hrun
      obtain ⟨s1, hs1, hrest⟩ := hrun
      obtain ⟨t1, ht1, hR1⟩ := hstep hR hs1
      obtain ⟨t', ht', hR'⟩ := ih hR1 hrest
      refine ⟨t', ?_, hR'⟩
      rw [List.map_cons, List.foldlM_cons, ht1]
      exact ht'

/-- A queue that holds at most `capacity` entries. -/
structure BoundedQueue (α : Type u) where
  contents : List α
  capacity : Nat
  bounded : contents.length ≤ capacity

/-- What can be asked of a queue; `settle` asks for nothing. -/
inductive QueueCall (α : Type u) where
  | grow (n : Nat)
  | push (xs : List α)
  | pop (n : Nat)
  | settle

namespace QueueCall

variable {α : Type u}

/-- Everything that calls push, in order. -/
def pushed : List (QueueCall α) → List α
  | [] => []
  | .push xs :: calls => xs ++ pushed calls
  | _ :: calls => pushed calls

/-- How many entries calls pop. -/
def popped : List (QueueCall α) → Nat
  | [] => 0
  | .pop n :: calls => n + popped calls
  | _ :: calls => popped calls

end QueueCall

namespace BoundedQueue

variable {α : Type u}

def empty : BoundedQueue α := ⟨[], 0, Nat.le_refl _⟩

/-- A push needs the room and a pop the entries; otherwise the call fails. -/
def step (q : BoundedQueue α) : QueueCall α → Option (BoundedQueue α)
  | .grow n => some ⟨q.contents, max q.capacity n, Nat.le_trans q.bounded (Nat.le_max_left _ _)⟩
  | .push xs =>
      if h : q.contents.length + xs.length ≤ q.capacity then
        some ⟨q.contents ++ xs, q.capacity, by rwa [List.length_append]⟩
      else none
  | .pop n =>
      if n ≤ q.contents.length then
        some ⟨q.contents.drop n, q.capacity,
          Nat.le_trans (List.length_drop ▸ Nat.sub_le _ _) q.bounded⟩
      else none
  | .settle => some q

theorem step_grow (q : BoundedQueue α) (n : Nat) :
    ∃ q', q.step (.grow n) = some q' ∧ q'.contents = q.contents ∧
      q'.capacity = max q.capacity n :=
  ⟨_, rfl, rfl, rfl⟩

theorem step_push {q : BoundedQueue α} {xs : List α}
    (h : q.contents.length + xs.length ≤ q.capacity) :
    ∃ q', q.step (.push xs) = some q' ∧ q'.contents = q.contents ++ xs ∧
      q'.capacity = q.capacity :=
  ⟨_, dif_pos h, rfl, rfl⟩

theorem step_pop {q : BoundedQueue α} {n : Nat} (h : n ≤ q.contents.length) :
    ∃ q', q.step (.pop n) = some q' ∧ q'.contents = q.contents.drop n ∧
      q'.capacity = q.capacity :=
  ⟨_, if_pos h, rfl, rfl⟩

/-- One call: what it pushes goes behind, what it pops leaves in front. -/
theorem step_contents {q q' : BoundedQueue α} {call : QueueCall α} (h : q.step call = some q') :
    ∃ gone, gone.length = QueueCall.popped [call] ∧
      q.contents ++ QueueCall.pushed [call] = gone ++ q'.contents := by
  cases call with
  | grow n =>
      cases h
      exact ⟨[], rfl, List.append_nil _⟩
  | push xs =>
      simp only [step] at h
      split at h
      · cases h
        refine ⟨[], rfl, ?_⟩
        show q.contents ++ (xs ++ []) = q.contents ++ xs
        rw [List.append_nil]
      · cases h
  | pop n =>
      simp only [step] at h
      split at h
      · rename_i hle
        cases h
        refine ⟨q.contents.take n, ?_, ?_⟩
        · rw [List.length_take, Nat.min_eq_left hle]
          rfl
        · show q.contents ++ [] = q.contents.take n ++ q.contents.drop n
          rw [List.append_nil, List.take_append_drop]
      · cases h
  | settle =>
      cases h
      exact ⟨[], rfl, List.append_nil _⟩

/-- Over a run: what was pushed is what was popped, then what is left. -/
theorem run_contents (calls : List (QueueCall α)) {q q' : BoundedQueue α}
    (hrun : calls.foldlM step q = some q') :
    ∃ gone, gone.length = QueueCall.popped calls ∧
      q.contents ++ QueueCall.pushed calls = gone ++ q'.contents := by
  induction calls generalizing q with
  | nil =>
      cases hrun
      exact ⟨[], rfl, List.append_nil _⟩
  | cons call calls ih =>
      rw [List.foldlM_cons, Option.bind_eq_bind, Option.bind_eq_some_iff] at hrun
      obtain ⟨q1, hq1, hrest⟩ := hrun
      obtain ⟨gone1, hlen1, hsplit1⟩ := step_contents hq1
      obtain ⟨gone2, hlen2, hsplit2⟩ := ih hrest
      have hpushed : QueueCall.pushed (call :: calls) =
          QueueCall.pushed [call] ++ QueueCall.pushed calls := by
        cases call <;> simp [QueueCall.pushed]
      have hpopped : QueueCall.popped (call :: calls) =
          QueueCall.popped [call] + QueueCall.popped calls := by
        cases call <;> simp [QueueCall.popped]
      refine ⟨gone1 ++ gone2, ?_, ?_⟩
      · rw [List.length_append, hlen1, hlen2, hpopped]
      · rw [hpushed, ← List.append_assoc, hsplit1, List.append_assoc, hsplit2, List.append_assoc]

end BoundedQueue

end RtbEngine.Lib
