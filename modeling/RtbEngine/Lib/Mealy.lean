import Mathlib.Data.List.Basic

/-!
# Runs with silent inputs

A machine that answers each input and moves to a new state. An input is
silent when its answer leaves the state as it was; then the others cannot
tell whether it was there.

* `outputs_snoc`, `after_snoc` — one input more at the end;
* `outputs_edit` — leaving out silent inputs and replacing the others by
  equivalent ones changes no answer that is left.
-/

namespace RtbEngine.Lib

universe u

/-- An answer and a next state for each input. -/
structure Mealy (σ ι ω : Type) where
  output : σ → ι → ω
  next : σ → ι → σ

namespace Mealy

section

variable {σ ι ω : Type} {α : Type u}

@[simp] theorem output_mk (output : σ → ι → ω) (next : σ → ι → σ) (s : σ) (i : ι) :
    (mk output next).output s i = output s i := rfl

@[simp] theorem next_mk (output : σ → ι → ω) (next : σ → ι → σ) (s : σ) (i : ι) :
    (mk output next).next s i = next s i := rfl

variable (machine : Mealy σ ι ω)

/-- The answers to the inputs, one after the other. -/
def outputs : σ → List ι → List ω
  | _, [] => []
  | s, i :: is => machine.output s i :: outputs (machine.next s i) is

@[simp] theorem outputs_cons (s : σ) (i : ι) (is : List ι) :
    machine.outputs s (i :: is) = machine.output s i :: machine.outputs (machine.next s i) is := rfl

/-- The state after the inputs. -/
def after : σ → List ι → σ := List.foldl machine.next

@[simp] theorem after_nil (s : σ) : machine.after s [] = s := rfl

@[simp] theorem after_snoc (s : σ) (is : List ι) (i : ι) :
    machine.after s (is ++ [i]) = machine.next (machine.after s is) i :=
  List.foldl_concat _ _ _ _

theorem outputs_snoc (s : σ) (is : List ι) (i : ι) :
    machine.outputs s (is ++ [i]) =
      machine.outputs s is ++ [machine.output (machine.after s is) i] := by
  induction is generalizing s with
  | nil => rfl
  | cons j is ih => exact congrArg (machine.output s j :: ·) (ih (machine.next s j))

@[simp] theorem length_outputs (s : σ) (is : List ι) :
    (machine.outputs s is).length = is.length := by
  induction is generalizing s with
  | nil => rfl
  | cons i is ih => exact congrArg (· + 1) (ih (machine.next s i))

/-- Every answer is one to its input, in some state. -/
theorem output_of_mem_zip {s : σ} {is : List ι} {p : ι × ω}
    (h : p ∈ is.zip (machine.outputs s is)) : ∃ s', p.2 = machine.output s' p.1 := by
  induction is generalizing s with
  | nil => cases h
  | cons i is ih =>
      rcases List.mem_cons.mp h with rfl | h
      · exact ⟨s, rfl⟩
      · exact ih h

/-- The answers at the places that an edit keeps. -/
def keptOutputs (view : ω → α) (os : List ω) (edits : List (ι × Option ι)) : List α :=
  (os.zip edits).filterMap fun p => if p.2.2.isSome then some (view p.1) else none

theorem keptOutputs_none (view : ω → α) (o : ω) (os : List ω) (i : ι)
    (edits : List (ι × Option ι)) :
    keptOutputs view (o :: os) ((i, none) :: edits) = keptOutputs view os edits := rfl

theorem keptOutputs_some (view : ω → α) (o : ω) (os : List ω) (i j : ι)
    (edits : List (ι × Option ι)) :
    keptOutputs view (o :: os) ((i, some j) :: edits) = view o :: keptOutputs view os edits := rfl

/-- An edit gives for each input what takes its place, or `none`. What takes
its place is answered alike, and what is left out was silent. -/
theorem outputs_edit (view : ω → α) (silent : ω → Prop)
    (hsilent : ∀ s i, silent (machine.output s i) → machine.next s i = s)
    (edits : List (ι × Option ι))
    (halike : ∀ e ∈ edits, ∀ j ∈ e.2, ∀ s,
      view (machine.output s j) = view (machine.output s e.1) ∧
        machine.next s j = machine.next s e.1)
    (s : σ) (hout : ∀ p ∈ (machine.outputs s (edits.map Prod.fst)).zip edits, p.2.2 = none →
      silent p.1) :
    (machine.outputs s (edits.filterMap Prod.snd)).map view =
      keptOutputs view (machine.outputs s (edits.map Prod.fst)) edits := by
  induction edits generalizing s with
  | nil => rfl
  | cons e edits ih =>
      obtain ⟨i, replacement⟩ := e
      have htail := ih (fun e he => halike e (List.mem_cons_of_mem _ he)) (machine.next s i)
        fun p hp => hout p (List.mem_cons_of_mem _ hp)
      rw [List.map_cons, outputs_cons]
      cases replacement with
      | none =>
          -- left out: the state is the one before
          have hs := hsilent s i (hout _ List.mem_cons_self rfl)
          rw [keptOutputs_none, ← htail, hs]
          rfl
      | some j =>
          obtain ⟨hview, hnext⟩ := halike _ List.mem_cons_self j rfl s
          show (machine.outputs s (j :: edits.filterMap Prod.snd)).map view = _
          rw [outputs_cons, List.map_cons, keptOutputs_some, ← htail, hview, hnext]

end

end Mealy

end RtbEngine.Lib
