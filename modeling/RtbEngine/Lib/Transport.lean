import RtbEngine.Lib.Exec

/-!
# Programs that commute with a map of states

`Transports f m m'`: on the image of a state `m'` does what `m` does on the
state, answer by answer, and ends in the image of where `m` ends. With `m'`
the same program and `f` a map that forgets a part of the state, this is
non-interference: the forgotten part decides nothing.

* one rule for each combinator; `transports_read_bind` for a program that
  looks at the state before it goes on;
* `Transports.eq_of_image` — states with one image give runs with one image.
-/

namespace RtbEngine.Lib

/-- The same end of a run, seen through a map of states. -/
def Outcome.mapState {κ σ τ ι α : Type} (f : σ → τ) (o : Outcome κ σ ι α) : Outcome κ τ ι α :=
  match o with
  | .done a s rest => .done a (f s) rest
  | .waiting k s => .waiting k (f s)
  | .spinning s => .spinning (f s)

@[simp] theorem Outcome.mapState_state {κ σ τ ι α : Type} (f : σ → τ) (o : Outcome κ σ ι α) :
    (o.mapState f).state = f o.state := by
  cases o <;> rfl

namespace Exec

variable {κ σ τ σ' τ' ι α β γ : Type} {f : σ → τ}

/-- `m'` does on images what `m` does. -/
def Transports (f : σ → τ) (m : Exec κ σ ι α) (m' : Exec κ τ ι α) : Prop :=
  ∀ s is, m'.run (f s) is = (m.run s is).mapState f

/-- **Non-interference**: what the map forgets makes no difference. -/
theorem Transports.eq_of_image {m : Exec κ σ ι α} {m' : Exec κ τ ι α} (h : Transports f m m')
    {s s' : σ} (hs : f s = f s') (is : List ι) :
    (m.run s is).mapState f = (m.run s' is).mapState f := by
  rw [← h s is, ← h s' is, hs]

theorem transports_pure (a : α) :
    Transports f (pure a : Exec κ σ ι α) (pure a : Exec κ τ ι α) :=
  fun _ _ => rfl

theorem transports_bind {m : Exec κ σ ι α} {m' : Exec κ τ ι α} {k : α → Exec κ σ ι β}
    {k' : α → Exec κ τ ι β} (hm : Transports f m m') (hk : ∀ a, Transports f (k a) (k' a)) :
    Transports f (m >>= k) (m' >>= k') := by
  intro s is
  rw [run_bind, run_bind, hm s is]
  cases m.run s is with
  | done a s1 rest => exact hk a s1 rest
  | waiting k s1 => rfl
  | spinning s1 => rfl

/-- A program that looks at the state goes on with the image. -/
theorem transports_read_bind {k : σ → Exec κ σ ι β} {k' : τ → Exec κ τ ι β}
    (h : ∀ s is, (k' (f s)).run (f s) is = ((k s).run s is).mapState f) :
    Transports f (read >>= k) (read >>= k') :=
  fun s is => h s is

theorem transports_update {g : σ → α × σ} {g' : τ → α × τ}
    (h : ∀ s, g' (f s) = ((g s).1, f (g s).2)) :
    Transports f (update g : Exec κ σ ι α) (update g' : Exec κ τ ι α) := by
  intro s is
  rw [run_update, run_update, h s]
  rfl

theorem transports_modify {g : σ → σ} {g' : τ → τ} (h : ∀ s, g' (f s) = f (g s)) :
    Transports f (modify g : Exec κ σ ι Unit) (modify g' : Exec κ τ ι Unit) :=
  transports_update fun s => by rw [h s]

theorem transports_ask {k : κ} {answer : σ → ι → Option (α × σ)} {answer' : τ → ι → Option (α × τ)}
    (h : ∀ s i, answer' (f s) i = (answer s i).map fun p => (p.1, f p.2)) :
    Transports f (ask k answer) (ask k answer') := by
  intro s is
  cases is with
  | nil => rfl
  | cons i rest =>
      cases hans : answer s i with
      | none => simp [ask, h, hans, Outcome.mapState]
      | some p => simp [ask, h, hans, Outcome.mapState]

theorem transports_ite {c : Prop} [Decidable c] {m n : Exec κ σ ι α} {m' n' : Exec κ τ ι α}
    (hm : Transports f m m') (hn : Transports f n n') :
    Transports f (if c then m else n) (if c then m' else n') := by
  split
  · exact hm
  · exact hn

theorem transports_loopN {body : β → Exec κ σ ι (Turn β α)} {body' : β → Exec κ τ ι (Turn β α)}
    (hbody : ∀ b, Transports f (body b) (body' b)) (n : Nat) (b : β) :
    Transports f (loopN n body b) (loopN n body' b) := by
  induction n generalizing b with
  | zero => exact fun _ _ => rfl
  | succ n ih =>
      refine transports_bind (hbody b) fun r => ?_
      cases r with
      | again b' => exact ih b'
      | stop a => exact transports_pure a

theorem transports_loop {body : β → Exec κ σ ι (Turn β α)} {body' : β → Exec κ τ ι (Turn β α)}
    (hbody : ∀ b, Transports f (body b) (body' b)) (b : β) :
    Transports f (loop body b) (loop body' b) :=
  fun s is => transports_loopN hbody (is.length + 1) b s is

/-- Programs on a part of the state: the part of the image is the image of the
part. -/
theorem transports_zoom {get : σ → Option σ'} {put : σ' → σ → σ} {get' : τ → Option τ'}
    {put' : τ' → τ → τ} {lost : κ} {g : σ' → τ'} {m : Exec κ σ' ι α} {m' : Exec κ τ' ι α}
    (hget : ∀ s, get' (f s) = (get s).map g) (hput : ∀ t s, put' (g t) (f s) = f (put t s))
    (hm : Transports g m m') : Transports f (zoom get put lost m) (zoom get' put' lost m') := by
  intro s is
  cases hs : get s with
  | none => simp [zoom, hget, hs, Outcome.mapState]
  | some t =>
      simp only [zoom, hget, hs, Option.map_some, hm t is]
      cases m.run t is with
      | done a t' rest => simp [Outcome.mapState, hput]
      | waiting k t' => simp [Outcome.mapState, hput]
      | spinning t' => simp [Outcome.mapState, hput]

end Exec

end RtbEngine.Lib
