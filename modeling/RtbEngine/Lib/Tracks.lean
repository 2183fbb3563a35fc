import RtbEngine.Lib.Exec

/-!
# Programs and a book kept of their state

A relation says what a *book*, an abstract state, tells of the state of a
program. A program is tracked when from every state that its book describes it
waits only where it is safe to, and ends in a state that a later book
describes. What the program does is then reasoned about in terms of books.

* `Exec.Tracks`, with one rule for each combinator;
* `Exec.tracks_loop` — a loop keeps a set of books.
-/

namespace RtbEngine.Lib.Exec

variable {κ σ ι α β γ B : Type} {rel : B → σ → Prop} {safe : κ → σ → Prop} {b : B}

/-- From every state that `b` describes: the calls of a run are safe to wait
in, and it ends with a book that `post` allows. -/
def Tracks (rel : B → σ → Prop) (safe : κ → σ → Prop) (b : B) (m : Exec κ σ ι α)
    (post : α → B → Prop) : Prop :=
  ∀ s, rel b s → m.Ensures (fun _ => True) s (fun a s' => ∃ b', post a b' ∧ rel b' s') safe

variable {m : Exec κ σ ι α} {post post' : α → B → Prop}

theorem Tracks.mono (h : Tracks rel safe b m post) (hpost : ∀ a b', post a b' → post' a b') :
    Tracks rel safe b m post' := by
  intro s hs
  refine (h s hs).weaken ?_
  rintro a s' ⟨b', hb', hs'⟩
  exact ⟨b', hpost a b' hb', hs'⟩

theorem tracks_pure {a : α} (h : post a b) :
    Tracks rel safe b (pure a : Exec κ σ ι α) post :=
  fun _ hs => ensures_pure ⟨b, h, hs⟩

theorem tracks_bind {f : α → Exec κ σ ι β} {r : α → B → Prop} {post : β → B → Prop}
    (hm : Tracks rel safe b m r)
    (hf : ∀ a b', r a b' → Tracks rel safe b' (f a) post) :
    Tracks rel safe b (m >>= f) post := by
  intro s hs
  refine ensures_bind ?_
  refine (hm s hs).weaken ?_
  rintro a s' ⟨b', hb', hs'⟩
  exact hf a b' hb' s' hs'

theorem tracks_update {f : σ → α × σ} (h : ∀ s, rel b s → ∃ b', post (f s).1 b' ∧ rel b' (f s).2) :
    Tracks rel safe b (update f : Exec κ σ ι α) post :=
  fun s hs => ensures_update (h s hs)

theorem tracks_modify {f : σ → σ} {b' : B} {post : Unit → B → Prop}
    (h : ∀ s, rel b s → rel b' (f s)) (hpost : post () b') :
    Tracks rel safe b (modify f : Exec κ σ ι Unit) post :=
  tracks_update fun s hs => ⟨b', hpost, h s hs⟩

/-- The state is looked at. -/
theorem tracks_read {post : σ → B → Prop} (h : ∀ s, rel b s → post s b) :
    Tracks rel safe b (read : Exec κ σ ι σ) post :=
  tracks_update fun s hs => ⟨b, h s hs, hs⟩

theorem tracks_ask {k : κ} {answer : σ → ι → Option (α × σ)} (hsafe : ∀ s, rel b s → safe k s)
    (h : ∀ s i a s', rel b s → answer s i = some (a, s') → ∃ b', post a b' ∧ rel b' s') :
    Tracks rel safe b (ask k answer) post :=
  fun s hs => ensures_ask (hsafe s hs) fun i a s' _ hans => h s i a s' hs hans

theorem tracks_ite {c : Prop} [Decidable c] {m n : Exec κ σ ι α}
    (hm : c → Tracks rel safe b m post) (hn : ¬ c → Tracks rel safe b n post) :
    Tracks rel safe b (if c then m else n) post := by
  split
  · rename_i h
    exact hm h
  · rename_i h
    exact hn h

/-- The rounds of a loop keep the books in `inv`. -/
theorem tracks_loop {body : γ → Exec κ σ ι (Turn γ α)} (inv : γ → B → Prop)
    (hp : ∀ c, Productive (body c))
    (hbody : ∀ c b, inv c b → Tracks rel safe b (body c) fun turn b' =>
      match turn with
      | .again c' => inv c' b'
      | .stop a => post a b') {c : γ} (h : inv c b) :
    Tracks rel safe b (loop body c) post := by
  intro s hs
  refine ensures_loop (fun c s => ∃ b, inv c b ∧ rel b s) hp ?_ ⟨b, h, hs⟩
  rintro c s ⟨b, hc, hs⟩
  refine (hbody c b hc s hs).weaken ?_
  rintro turn s' ⟨b', hb', hs'⟩
  cases turn with
  | again c' => exact ⟨b', hb', hs'⟩
  | stop a => exact ⟨b', hb', hs'⟩

end RtbEngine.Lib.Exec
