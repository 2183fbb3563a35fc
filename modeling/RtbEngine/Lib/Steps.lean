import Mathlib.Logic.Relation
import RtbEngine.Lib.Exec

/-!
# Runs as chains of steps

A program follows a relation when the state of each of its runs, wherever the
run has got to, is reached from its start by steps of the relation. What one
step can do is then said once, and an invariant of the steps is an invariant
of every run.

* `Exec.Follows`, with one rule for each combinator;
* `Exec.Follows.state`, `Exec.Follows.keeps` — the chain of steps behind a run,
  and what it keeps;
* `Exec.zoom_chain` — steps of a part are steps of the whole;
* `chain_invariant`, `chain_simulation` — the induction along a chain.
-/

namespace RtbEngine.Lib

open Relation

/-! ## Chains -/

section

variable {σ τ : Type} {step : σ → σ → Prop} {s s' : σ}

/-- What each step keeps is kept along a chain. -/
theorem chain_invariant (inv : σ → Prop) (hstep : ∀ s s', inv s → step s s' → inv s')
    (h : inv s) (hchain : ReflTransGen step s s') : inv s' := by
  induction hchain with
  | refl => exact h
  | tail _ hlast ih => exact hstep _ _ ih hlast

/-- A relation that each step keeps, with the help of an invariant. -/
theorem chain_simulation {inv : σ → Prop} {sim : σ → τ → Prop}
    (hinv : ∀ s s', inv s → step s s' → inv s')
    (hstep : ∀ s s' t, inv s → sim s t → step s s' → ∃ t', sim s' t')
    (h : inv s) {t : τ} (hsim : sim s t) (hchain : ReflTransGen step s s') : ∃ t', sim s' t' := by
  have hkept : ∀ s1 s2, (inv s1 ∧ ∃ t1, sim s1 t1) → step s1 s2 → inv s2 ∧ ∃ t2, sim s2 t2 := by
    rintro s1 s2 ⟨h1, t1, hsim1⟩ h12
    exact ⟨hinv s1 s2 h1 h12, hstep s1 s2 t1 h1 hsim1 h12⟩
  exact (chain_invariant _ hkept ⟨h, t, hsim⟩ hchain).2

end

namespace Exec

variable {κ σ τ ι α β : Type} {step : σ → σ → Prop}

/-- Every run of `m` goes by steps, and so does each of its prefixes. -/
def Follows (step : σ → σ → Prop) (m : Exec κ σ ι α) : Prop :=
  ∀ s, Maintains (fun _ => True) (ReflTransGen step s) m

/-- **The chain behind a run.** -/
theorem Follows.state {m : Exec κ σ ι α} (h : Follows step m) (s : σ) (is : List ι) :
    ReflTransGen step s (m.run s is).state :=
  (h s).state ReflTransGen.refl is

/-- From each state on its own. -/
theorem Follows.of_ensures {m : Exec κ σ ι α}
    (h : ∀ s, m.Ensures (fun _ => True) s (fun _ s' => ReflTransGen step s s')
      fun _ s' => ReflTransGen step s s') : Follows step m := by
  intro s s1 hs1
  exact (h s1).mono (fun _ _ hchain => hs1.trans hchain) fun _ _ hchain => ⟨trivial, hs1.trans hchain⟩

theorem Follows.ensures {m : Exec κ σ ι α} (h : Follows step m) (s : σ) :
    m.Ensures (fun _ => True) s (fun _ s' => ReflTransGen step s s')
      fun _ s' => ReflTransGen step s s' :=
  (h s s ReflTransGen.refl).mono (fun _ _ hchain => hchain) fun _ _ hk => hk.2

theorem follows_pure (a : α) : Follows step (pure a : Exec κ σ ι α) :=
  fun _ => maintains_pure a

theorem follows_bind {m : Exec κ σ ι α} {f : α → Exec κ σ ι β} (hm : Follows step m)
    (hf : ∀ a, Follows step (f a)) : Follows step (m >>= f) :=
  fun s => maintains_bind (hm s) fun a => hf a s

theorem follows_ite {c : Prop} [Decidable c] {m n : Exec κ σ ι α} (hm : Follows step m)
    (hn : Follows step n) : Follows step (if c then m else n) :=
  fun s => maintains_ite (hm s) (hn s)

theorem follows_read : Follows step (read : Exec κ σ ι σ) := fun _ => maintains_read

theorem follows_update {f : σ → α × σ} (h : ∀ s, ReflTransGen step s (f s).2) :
    Follows step (update f : Exec κ σ ι α) :=
  fun _ => maintains_update fun s hs => hs.trans (h s)

theorem follows_modify {f : σ → σ} (h : ∀ s, ReflTransGen step s (f s)) :
    Follows step (modify f : Exec κ σ ι Unit) :=
  follows_update h

theorem follows_ask {k : κ} {answer : σ → ι → Option (α × σ)}
    (h : ∀ s i a s', answer s i = some (a, s') → ReflTransGen step s s') :
    Follows step (ask k answer) :=
  fun _ => maintains_ask trivial fun s i a s' hs hans => hs.trans (h s i a s' hans)

theorem follows_loop {body : β → Exec κ σ ι (Turn β α)} (hp : ∀ b, Productive (body b))
    (hbody : ∀ b, Follows step (body b)) (b : β) : Follows step (loop body b) :=
  fun s => maintains_loop hp (fun b => hbody b s) b

/-- An invariant of the steps, from one state on. -/
theorem Follows.keeps {m : Exec κ σ ι α} (h : Follows step m) {inv : σ → Prop}
    (hstep : ∀ s s', inv s → step s s' → inv s') {s : σ} (hs : inv s) :
    m.Ensures (fun _ => True) s (fun _ s' => inv s') fun _ s' => inv s' := by
  refine (h.ensures s).mono ?_ ?_
  · intro _ s' hchain
    exact chain_invariant inv hstep hs hchain
  · intro _ s' hchain
    exact chain_invariant inv hstep hs hchain

/-- A part moves the whole it is put back into. -/
theorem zoom_chain {get : σ → Option τ} {put : τ → σ → σ} {lost : κ} {m : Exec κ τ ι α}
    {stepPart : τ → τ → Prop} {s : σ} (hput : ∀ t, get s = some t → put t s = s)
    (hstep : ∀ t0 t t', get s = some t0 → stepPart t t' → ReflTransGen step (put t s) (put t' s))
    (hm : Follows stepPart m) :
    (zoom get put lost m).Ensures (fun _ => True) s (fun _ s' => ReflTransGen step s s')
      fun _ s' => ReflTransGen step s s' := by
  cases hget : get s with
  | none =>
      intro is _
      simp only [zoom, hget]
      exact .refl
  | some t0 =>
      have hlift : ∀ t, ReflTransGen stepPart t0 t → ReflTransGen step s (put t s) := by
        intro t ht
        induction ht with
        | refl => rw [hput t0 hget]
        | tail _ hlast ih => exact ih.trans (hstep t0 _ _ hget hlast)
      refine ensures_zoom hget ((hm.ensures t0).mono ?_ ?_)
      · intro _ t ht
        exact hlift t ht
      · intro _ t ht
        exact hlift t ht

end Exec

end RtbEngine.Lib
