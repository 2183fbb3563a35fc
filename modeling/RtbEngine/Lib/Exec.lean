import Mathlib.Data.List.Basic

/-!
# Programs that wait for answers

A program that makes blocking calls, run against a finite list of *answers*:
each call takes the next answer, and a run whose answers are used up is left
*waiting* in the call it had reached. Quantifying over every list of answers
is quantifying over every environment and over every finite prefix of a run,
so an invariant of all waiting states is an invariant of the running program.

* `Exec` — programs, bundled with the facts that a run only drops answers
  from the front and that a run that returned does not depend on what follows;
* `Exec.loop` — unbounded iteration. A body that takes an answer whenever it
  asks to go round again (`Productive`) makes it a real fixpoint
  (`loop_unfold`) that never spins (`ensures_loop`);
* `Exec.Ensures` — what holds on return and in every waiting state, with one
  rule for each combinator;
* `Exec.Maintains` — an invariant that is there wherever a run has got to;
* `Exec.zoom` — a program over a part of the state run inside the whole.
-/

namespace RtbEngine.Lib

/-- How a run ends: it returns with the answers it did not need, it waits in
a call, or a loop went round without taking an answer. -/
inductive Outcome (κ σ ι α : Type) where
  | done (value : α) (state : σ) (rest : List ι)
  | waiting (call : κ) (state : σ)
  | spinning (state : σ)

/-- Continue a run after it returned. -/
def Outcome.andThen {κ σ ι α β : Type} (o : Outcome κ σ ι α)
    (f : α → σ → List ι → Outcome κ σ ι β) : Outcome κ σ ι β :=
  match o with
  | .done a s rest => f a s rest
  | .waiting k s => .waiting k s
  | .spinning s => .spinning s

/-- The call a run waits in, and its state there. -/
def Outcome.waits {κ σ ι α : Type} (o : Outcome κ σ ι α) : Option (κ × σ) :=
  match o with
  | .waiting k s => some (k, s)
  | _ => none

theorem Outcome.eq_waiting {κ σ ι α : Type} {o : Outcome κ σ ι α} {k : κ} {s : σ}
    (h : o.waits = some (k, s)) : o = .waiting k s := by
  cases o with
  | waiting k' s' => cases h; rfl
  | done _ _ _ => cases h
  | spinning _ => cases h

/-- The state in which a run returned, or waits. -/
def Outcome.state {κ σ ι α : Type} (o : Outcome κ σ ι α) : σ :=
  match o with
  | .done _ s _ => s
  | .waiting _ s => s
  | .spinning s => s

/-- What a run returned, and its state then. -/
def Outcome.returns {κ σ ι α : Type} (o : Outcome κ σ ι α) : Option (α × σ × List ι) :=
  match o with
  | .done a s rest => some (a, s, rest)
  | _ => none

theorem Outcome.eq_done {κ σ ι α : Type} {o : Outcome κ σ ι α} {a : α} {s : σ} {rest : List ι}
    (h : o.returns = some (a, s, rest)) : o = .done a s rest := by
  cases o with
  | done a' s' rest' => cases h; rfl
  | waiting _ _ => cases h
  | spinning _ => cases h

/-- A program over the state `σ` whose calls are named by `κ` and answered by
`ι`. What a run leaves over is a suffix of what it was given, and it leaves
over what is given beyond. -/
structure Exec (κ σ ι α : Type) where
  run : σ → List ι → Outcome κ σ ι α
  suffix : ∀ s is a s' rest, run s is = .done a s' rest → rest <:+ is
  extend : ∀ s is a s' rest, run s is = .done a s' rest → ∀ more,
    run s (is ++ more) = .done a s' (rest ++ more)

/-- One round of a loop: go round again, or stop with a result. -/
inductive Turn (β α : Type) where
  | again (next : β)
  | stop (result : α)

namespace Exec

variable {κ σ τ ι α β γ : Type}

instance : Monad (Exec κ σ ι) where
  pure a :=
    { run := fun s is => .done a s is
      suffix := by
        intro s is a' s' rest h
        cases h
        exact List.suffix_refl _
      extend := by
        intro s is a s' rest h more
        cases h
        rfl }
  bind m f :=
    { run := fun s is => Outcome.andThen (m.run s is) fun a s' rest => (f a).run s' rest
      suffix := by
        intro s is b s' rest h
        cases hm : m.run s is with
        | done a s1 rest1 =>
            simp only [hm, Outcome.andThen] at h
            exact ((f a).suffix _ _ _ _ _ h).trans (m.suffix _ _ _ _ _ hm)
        | waiting k s1 => simp [hm, Outcome.andThen] at h
        | spinning s1 => simp [hm, Outcome.andThen] at h
      extend := by
        intro s is b s' rest h more
        cases hm : m.run s is with
        | done a s1 rest1 =>
            simp only [hm, Outcome.andThen] at h
            simp only [m.extend _ _ _ _ _ hm more, Outcome.andThen]
            exact (f a).extend _ _ _ _ _ h more
        | waiting k s1 => simp [hm, Outcome.andThen] at h
        | spinning s1 => simp [hm, Outcome.andThen] at h }

/-- Make the call `k`. `answer` says what an answer means in the current
state; `none` is an answer the call cannot get, and leaves the run waiting. -/
def ask (k : κ) (answer : σ → ι → Option (α × σ)) : Exec κ σ ι α where
  run s is :=
    match is with
    | [] => .waiting k s
    | i :: rest =>
        match answer s i with
        | some (a, s') => .done a s' rest
        | none => .waiting k s
  suffix := by
    intro s is a s' rest h
    cases is with
    | nil => simp at h
    | cons i tail =>
        cases ha : answer s i with
        | none => simp [ha] at h
        | some p =>
            simp only [ha] at h
            cases h
            exact List.suffix_cons _ _
  extend := by
    intro s is a s' rest h more
    cases is with
    | nil => simp at h
    | cons i tail =>
        cases ha : answer s i with
        | none => simp [ha] at h
        | some p =>
            simp only [ha] at h
            cases h
            simp only [List.cons_append, ha]

/-- A step that makes no call. -/
def update (f : σ → α × σ) : Exec κ σ ι α where
  run s is := .done (f s).1 (f s).2 is
  suffix := by
    intro s is a s' rest h
    cases h
    exact List.suffix_refl _
  extend := by
    intro s is a s' rest h more
    cases h
    rfl

def read : Exec κ σ ι σ := update fun s => (s, s)

def modify (f : σ → σ) : Exec κ σ ι Unit := update fun s => ((), f s)

/-- At most `n` rounds of a loop. -/
def loopN : Nat → (β → Exec κ σ ι (Turn β α)) → β → Exec κ σ ι α
  | 0, _, _ =>
      { run := fun s _ => .spinning s
        suffix := by intro s is a s' rest h; cases h
        extend := by intro s is a s' rest h; cases h }
  | n + 1, body, b => do
      match ← body b with
      | .again b' => loopN n body b'
      | .stop a => pure a

/-- A loop that returned needs no more rounds for more answers. -/
theorem loopN_extend {body : β → Exec κ σ ι (Turn β α)} {n m : Nat} (hnm : n ≤ m) {b : β} {s s' : σ}
    {is rest : List ι} {a : α} (h : (loopN n body b).run s is = .done a s' rest) (more : List ι) :
    (loopN m body b).run s (is ++ more) = .done a s' (rest ++ more) := by
  induction n generalizing m b s is with
  | zero => cases h
  | succ n ih =>
      obtain ⟨m, rfl⟩ : ∃ k, m = k + 1 := ⟨m - 1, by omega⟩
      have hunfold : ∀ k is, (loopN (k + 1) body b).run s is =
          Outcome.andThen ((body b).run s is) fun r s' rest =>
            (match r with
            | .again b' => loopN k body b'
            | .stop a => pure a : Exec κ σ ι α).run s' rest := fun _ _ => rfl
      rw [hunfold] at h ⊢
      cases hr : (body b).run s is with
      | done r s1 rest1 =>
          rw [hr] at h
          rw [(body b).extend _ _ _ _ _ hr more]
          cases r with
          | again b' => exact ih (Nat.le_of_succ_le_succ hnm) h
          | stop a' => cases h; rfl
      | waiting k s1 => rw [hr] at h; cases h
      | spinning s1 => rw [hr] at h; cases h

/-- Iterate `body`. As a round that goes on takes an answer, one round more
than there are answers is as good as no bound. -/
def loop (body : β → Exec κ σ ι (Turn β α)) (b : β) : Exec κ σ ι α where
  run s is := (loopN (is.length + 1) body b).run s is
  suffix := by
    intro s is a s' rest h
    exact (loopN (is.length + 1) body b).suffix s is a s' rest h
  extend := by
    intro s is a s' rest h more
    exact loopN_extend (by rw [List.length_append]; omega) h more

/-- Run a program on the part of the state that `get` finds. With no such
part the program waits in `lost`. -/
def zoom (get : σ → Option τ) (put : τ → σ → σ) (lost : κ) (m : Exec κ τ ι α) :
    Exec κ σ ι α where
  run s is :=
    match get s with
    | none => .waiting lost s
    | some t =>
        match m.run t is with
        | .done a t' rest => .done a (put t' s) rest
        | .waiting k t' => .waiting k (put t' s)
        | .spinning t' => .spinning (put t' s)
  suffix := by
    intro s is a s' rest h
    cases hg : get s with
    | none => simp [hg] at h
    | some t =>
        cases hm : m.run t is with
        | done a' t' rest' =>
            simp only [hg, hm] at h
            cases h
            exact m.suffix _ _ _ _ _ hm
        | waiting k t' => simp [hg, hm] at h
        | spinning t' => simp [hg, hm] at h
  extend := by
    intro s is a s' rest h more
    cases hg : get s with
    | none => simp [hg] at h
    | some t =>
        cases hm : m.run t is with
        | done a' t' rest' =>
            simp only [hg, hm] at h
            cases h
            simp only [m.extend _ _ _ _ _ hm more]
        | waiting k t' => simp [hg, hm] at h
        | spinning t' => simp [hg, hm] at h

/-! ## Running the combinators -/

@[simp] theorem run_pure (a : α) (s : σ) (is : List ι) :
    (pure a : Exec κ σ ι α).run s is = .done a s is := rfl

theorem run_bind (m : Exec κ σ ι α) (f : α → Exec κ σ ι β) (s : σ) (is : List ι) :
    (m >>= f).run s is =
      Outcome.andThen (m.run s is) fun a s' rest => (f a).run s' rest := rfl

theorem run_bind_done {m : Exec κ σ ι α} {f : α → Exec κ σ ι β} {s s' : σ}
    {is rest : List ι} {a : α} (h : m.run s is = .done a s' rest) :
    (m >>= f).run s is = (f a).run s' rest := by
  rw [run_bind, h]
  rfl

theorem run_read_bind (f : σ → Exec κ σ ι β) (s : σ) (is : List ι) :
    (read >>= f).run s is = (f s).run s is := rfl

theorem run_modify_bind (g : σ → σ) (f : Unit → Exec κ σ ι β) (s : σ) (is : List ι) :
    (modify g >>= f).run s is = (f ()).run (g s) is := rfl

@[simp] theorem run_update (f : σ → α × σ) (s : σ) (is : List ι) :
    (update f : Exec κ σ ι α).run s is = .done (f s).1 (f s).2 is := rfl

@[simp] theorem run_ask_nil (k : κ) (answer : σ → ι → Option (α × σ)) (s : σ) :
    (ask k answer).run s [] = .waiting k s := rfl

theorem run_ask_cons {k : κ} {answer : σ → ι → Option (α × σ)} {s s' : σ} {i : ι} {a : α}
    (h : answer s i = some (a, s')) (rest : List ι) :
    (ask k answer).run s (i :: rest) = .done a s' rest := by
  simp [ask, h]

/-! ## Laws -/

/-- A program is what its runs are. -/
theorem ext_run {m m' : Exec κ σ ι α} (h : ∀ s is, m.run s is = m'.run s is) : m = m' := by
  obtain ⟨run, suffix, extend⟩ := m
  obtain ⟨run', suffix', extend'⟩ := m'
  obtain rfl : run = run' := funext fun s => funext fun is => h s is
  rfl

instance : LawfulMonad (Exec κ σ ι) := by
  refine LawfulMonad.mk' _ ?_ ?_ ?_
  · intro α m
    refine ext_run fun s is => ?_
    show Outcome.andThen (m.run s is) _ = _
    cases m.run s is <;> rfl
  · intro α β a f
    rfl
  · intro α β γ m f g
    refine ext_run fun s is => ?_
    simp only [run_bind]
    cases m.run s is <;> rfl

/-- Two programs on a part, one after the other. -/
theorem run_zoom_bind {get : σ → Option τ} {put : τ → σ → σ} {lost : κ} {m : Exec κ τ ι α}
    {f : α → Exec κ τ ι β} {s : σ} {t : τ} (hget : get s = some t)
    (hgetput : ∀ t', get (put t' s) = some t')
    (hputput : ∀ t' t'', put t'' (put t' s) = put t'' s) (is : List ι) :
    (zoom get put lost (m >>= f)).run s is =
      (zoom get put lost m >>= fun a => zoom get put lost (f a)).run s is := by
  rw [run_bind]
  simp only [zoom, hget, run_bind]
  cases m.run t is with
  | done a t1 rest =>
      simp only [Outcome.andThen, hgetput]
      cases (f a).run t1 rest with
      | done b t2 rest2 => simp only [hputput]
      | waiting k t2 => simp only [hputput]
      | spinning t2 => simp only [hputput]
  | waiting k t1 => rfl
  | spinning t1 => rfl

/-! ## Productive bodies -/

/-- Every return took an answer. -/
def Consumes (m : Exec κ σ ι α) : Prop :=
  ∀ s is a s' rest, m.run s is = .done a s' rest → rest.length < is.length

/-- Every round that goes on took an answer. -/
def Productive (m : Exec κ σ ι (Turn β α)) : Prop :=
  ∀ s is b s' rest, m.run s is = .done (.again b) s' rest → rest.length < is.length

theorem consumes_ask (k : κ) (answer : σ → ι → Option (α × σ)) :
    Consumes (ask k answer) := by
  intro s is a s' rest h
  cases is with
  | nil => simp at h
  | cons i tail =>
      cases ha : answer s i with
      | none => simp [ask, ha] at h
      | some p =>
          simp only [ask, ha] at h
          cases h
          exact Nat.lt_succ_self _

theorem Consumes.bind {m : Exec κ σ ι α} (hm : Consumes m) (f : α → Exec κ σ ι β) :
    Consumes (m >>= f) := by
  intro s is b s' rest h
  rw [run_bind] at h
  cases hr : m.run s is with
  | done a s1 rest1 =>
      rw [hr] at h
      have htail : rest.length ≤ rest1.length := ((f a).suffix _ _ _ _ _ h).length_le
      exact Nat.lt_of_le_of_lt htail (hm _ _ _ _ _ hr)
  | waiting k s1 => rw [hr] at h; cases h
  | spinning s1 => rw [hr] at h; cases h

theorem Consumes.productive {m : Exec κ σ ι (Turn β α)} (hm : Consumes m) :
    Productive m :=
  fun s is b s' rest h => hm s is (.again b) s' rest h

theorem productive_stop (a : α) : Productive (pure (.stop a) : Exec κ σ ι (Turn β α)) := by
  intro s is b s' rest h
  cases h

/-- A productive continuation makes the whole round productive. -/
theorem productive_bind {m : Exec κ σ ι α} {f : α → Exec κ σ ι (Turn β γ)}
    (hf : ∀ a, Productive (f a)) : Productive (m >>= f) := by
  intro s is b s' rest h
  rw [run_bind] at h
  cases hr : m.run s is with
  | done a s1 rest1 =>
      rw [hr] at h
      exact Nat.lt_of_lt_of_le (hf a _ _ _ _ _ h) (m.suffix _ _ _ _ _ hr).length_le
  | waiting k s1 => rw [hr] at h; cases h
  | spinning s1 => rw [hr] at h; cases h

theorem productive_ite {c : Prop} [Decidable c] {m n : Exec κ σ ι (Turn β α)}
    (hm : Productive m) (hn : Productive n) : Productive (if c then m else n) := by
  split
  · exact hm
  · exact hn

/-- Beyond the number of answers, the bound on the rounds is irrelevant. -/
theorem loopN_stable {body : β → Exec κ σ ι (Turn β α)} (hp : ∀ b, Productive (body b)) :
    ∀ (n m : Nat) (b : β) (s : σ) (is : List ι), is.length < n → is.length < m →
      (loopN n body b).run s is = (loopN m body b).run s is := by
  intro n
  induction n with
  | zero => intro m b s is hn _; omega
  | succ n ih =>
      intro m b s is hn hm
      obtain ⟨m, rfl⟩ : ∃ k, m = k + 1 := ⟨m - 1, by omega⟩
      simp only [loopN, run_bind]
      cases hr : (body b).run s is with
      | done r s1 rest =>
          cases r with
          | again b' =>
              have hlt := hp b _ _ _ _ _ hr
              exact ih m b' s1 rest (by omega) (by omega)
          | stop a => rfl
      | waiting k s1 => rfl
      | spinning s1 => rfl

/-- A loop with a productive body is a fixpoint of its body. -/
theorem loop_unfold {body : β → Exec κ σ ι (Turn β α)} (hp : ∀ b, Productive (body b))
    (b : β) (s : σ) (is : List ι) :
    (loop body b).run s is =
      Outcome.andThen ((body b).run s is) fun r s' rest =>
        match r with
        | .again b' => (loop body b').run s' rest
        | .stop a => .done a s' rest := by
  show (loopN (is.length + 1) body b).run s is = _
  simp only [loopN, run_bind]
  cases hr : (body b).run s is with
  | done r s1 rest =>
      cases r with
      | again b' =>
          have hlt := hp b _ _ _ _ _ hr
          exact loopN_stable hp _ _ b' s1 rest hlt (Nat.lt_succ_self _)
      | stop a => rfl
  | waiting k s1 => rfl
  | spinning s1 => rfl

/-- A loop takes an answer if each round does. -/
theorem consumes_loop {body : β → Exec κ σ ι (Turn β α)} (hbody : ∀ b, Consumes (body b)) (b : β) :
    Consumes (loop body b) := by
  intro s is a s' rest h
  rw [loop_unfold fun b => (hbody b).productive] at h
  cases hr : (body b).run s is with
  | done r s1 rest1 =>
      rw [hr] at h
      have hless := hbody b _ _ _ _ _ hr
      cases r with
      | again b' =>
          exact Nat.lt_of_le_of_lt ((loop body b').suffix _ _ _ _ _ h).length_le hless
      | stop a' =>
          cases h
          exact hless
  | waiting k s1 => rw [hr] at h; cases h
  | spinning s1 => rw [hr] at h; cases h

/-! ## What a run ensures -/

/-- From `s`, for all answers that meet `rely`: on return `post` holds, in
every call the run waits in `wait` holds, and no loop spins. -/
def Ensures (rely : ι → Prop) (m : Exec κ σ ι α) (s : σ) (post : α → σ → Prop)
    (wait : κ → σ → Prop) : Prop :=
  ∀ is, (∀ i ∈ is, rely i) →
    match m.run s is with
    | .done a s' _ => post a s'
    | .waiting k s' => wait k s'
    | .spinning _ => False

variable {rely : ι → Prop} {m : Exec κ σ ι α} {s : σ} {post post' : α → σ → Prop}
  {wait wait' : κ → σ → Prop}

theorem Ensures.done (h : m.Ensures rely s post wait) {is rest : List ι} {a : α} {s' : σ}
    (his : ∀ i ∈ is, rely i) (hr : m.run s is = .done a s' rest) : post a s' := by
  have := h is his
  rwa [hr] at this

theorem Ensures.waiting (h : m.Ensures rely s post wait) {is : List ι} {k : κ} {s' : σ}
    (his : ∀ i ∈ is, rely i) (hr : m.run s is = .waiting k s') : wait k s' := by
  have := h is his
  rwa [hr] at this

/-- What holds on return and while waiting holds in the state a run has
reached. -/
theorem Ensures.state {p : σ → Prop}
    (h : m.Ensures (fun _ => True) s (fun _ s' => p s') fun _ s' => p s') (is : List ι) :
    p (m.run s is).state := by
  have hrun := h is fun _ _ => trivial
  cases hr : m.run s is with
  | done a s' rest => rw [hr] at hrun; exact hrun
  | waiting k s' => rw [hr] at hrun; exact hrun
  | spinning s' => rw [hr] at hrun; exact hrun.elim

theorem Ensures.state_of_rely {p : σ → Prop}
    (h : m.Ensures rely s (fun _ s' => p s') fun _ s' => p s') {is : List ι}
    (his : ∀ i ∈ is, rely i) : p (m.run s is).state := by
  have hrun := h is his
  cases hr : m.run s is with
  | done a s' rest => rw [hr] at hrun; exact hrun
  | waiting k s' => rw [hr] at hrun; exact hrun
  | spinning s' => rw [hr] at hrun; exact hrun.elim

theorem Ensures.mono (h : m.Ensures rely s post wait) (hpost : ∀ a s', post a s' → post' a s')
    (hwait : ∀ k s', wait k s' → wait' k s') : m.Ensures rely s post' wait' := by
  intro is his
  have := h is his
  cases hr : m.run s is with
  | done a s' rest => rw [hr] at this; exact hpost a s' this
  | waiting k s' => rw [hr] at this; exact hwait k s' this
  | spinning s' => rw [hr] at this; exact this

theorem Ensures.weaken (h : m.Ensures rely s post wait)
    (hpost : ∀ a s', post a s' → post' a s') : m.Ensures rely s post' wait :=
  h.mono hpost fun _ _ hk => hk

/-- Two results about one run. -/
theorem Ensures.and (h : m.Ensures rely s post wait) (h' : m.Ensures rely s post' wait') :
    m.Ensures rely s (fun a s' => post a s' ∧ post' a s') fun k s' => wait k s' ∧ wait' k s' := by
  intro is his
  have hrun := h is his
  have hrun' := h' is his
  cases hr : m.run s is with
  | done a s' rest => rw [hr] at hrun hrun'; exact ⟨hrun, hrun'⟩
  | waiting k s' => rw [hr] at hrun hrun'; exact ⟨hrun, hrun'⟩
  | spinning s' => rw [hr] at hrun; exact hrun

/-- What holds for all answers holds for some of them. -/
theorem Ensures.restrict (h : m.Ensures (fun _ => True) s post wait) :
    m.Ensures rely s post wait :=
  fun is _ => h is fun _ _ => trivial

theorem ensures_pure {a : α} (h : post a s) : (pure a : Exec κ σ ι α).Ensures rely s post wait :=
  fun _ _ => h

theorem ensures_bind {f : α → Exec κ σ ι β} {post : β → σ → Prop}
    (h : m.Ensures rely s (fun a s' => (f a).Ensures rely s' post wait) wait) :
    (m >>= f).Ensures rely s post wait := by
  intro is his
  rw [run_bind]
  have hm := h is his
  cases hr : m.run s is with
  | done a s1 rest =>
      rw [hr] at hm
      exact hm rest fun i hi => his i ((m.suffix _ _ _ _ _ hr).subset hi)
  | waiting k s1 => rw [hr] at hm; exact hm
  | spinning s1 => rw [hr] at hm; exact hm

theorem ensures_update {f : σ → α × σ} (h : post (f s).1 (f s).2) :
    (update f : Exec κ σ ι α).Ensures rely s post wait :=
  fun _ _ => h

theorem ensures_update_of_eq {f : σ → α × σ} {a : α} {s' : σ} (hf : f s = (a, s'))
    (h : post a s') : (update f : Exec κ σ ι α).Ensures rely s post wait :=
  ensures_update (by rw [hf]; exact h)

theorem ensures_read {post : σ → σ → Prop} (h : post s s) :
    (read : Exec κ σ ι σ).Ensures rely s post wait :=
  ensures_update h

theorem ensures_modify {f : σ → σ} {post : Unit → σ → Prop} (h : post () (f s)) :
    (modify f : Exec κ σ ι Unit).Ensures rely s post wait :=
  ensures_update h

theorem ensures_ask {k : κ} {answer : σ → ι → Option (α × σ)} (hwait : wait k s)
    (h : ∀ i a s', rely i → answer s i = some (a, s') → post a s') :
    (ask k answer).Ensures rely s post wait := by
  intro is his
  cases is with
  | nil => exact hwait
  | cons i rest =>
      cases ha : answer s i with
      | none => simpa [ask, ha] using hwait
      | some p => simpa [ask, ha] using h i p.1 p.2 (his i List.mem_cons_self) ha

/-- The loop rule: an invariant kept by every round that goes on. -/
theorem ensures_loop {body : β → Exec κ σ ι (Turn β α)} (inv : β → σ → Prop)
    (hp : ∀ b, Productive (body b))
    (hbody : ∀ b s, inv b s → (body b).Ensures rely s
      (fun r s' => match r with
        | .again b' => inv b' s'
        | .stop a => post a s') wait)
    {b : β} (h : inv b s) : (loop body b).Ensures rely s post wait := by
  intro is his
  show match (loopN (is.length + 1) body b).run s is with
    | .done a s' _ => post a s'
    | .waiting k s' => wait k s'
    | .spinning _ => False
  generalize hn : is.length + 1 = n
  have hlt : is.length < n := by omega
  clear hn
  -- one round is the body; the rest of the run has fewer answers
  induction n generalizing b s is with
  | zero => omega
  | succ n ih =>
      simp only [loopN, run_bind]
      have hb := hbody b s h is his
      cases hr : (body b).run s is with
      | done r s1 rest =>
          rw [hr] at hb
          cases r with
          | again b' =>
              have hless := hp b _ _ _ _ _ hr
              have hrest : ∀ i ∈ rest, rely i := fun i hi =>
                his i (((body b).suffix _ _ _ _ _ hr).subset hi)
              exact ih hb rest hrest (by omega)
          | stop a => exact hb
      | waiting k s1 => rw [hr] at hb; exact hb
      | spinning s1 => rw [hr] at hb; exact hb

theorem ensures_zoom {get : σ → Option τ} {put : τ → σ → σ} {lost : κ} {m : Exec κ τ ι α}
    {t : τ} (hget : get s = some t)
    (h : m.Ensures rely t (fun a t' => post a (put t' s)) (fun k t' => wait k (put t' s))) :
    (zoom get put lost m).Ensures rely s post wait := by
  intro is his
  have hm := h is his
  cases hr : m.run t is with
  | done a t' rest => rw [hr] at hm; simpa [zoom, hget, hr] using hm
  | waiting k t' => rw [hr] at hm; simpa [zoom, hget, hr] using hm
  | spinning t' => rw [hr] at hm; exact hm.elim

/-! ## Invariants -/

/-- Wherever a run from a state with `inv` has got to, `inv` holds; it waits in
`calls` only. -/
def Maintains (calls : κ → Prop) (inv : σ → Prop) (m : Exec κ σ ι α) : Prop :=
  ∀ s, inv s → m.Ensures (fun _ => True) s (fun _ s' => inv s') fun k s' => calls k ∧ inv s'

section Maintains

variable {calls : κ → Prop} {inv : σ → Prop}

theorem maintains_pure (a : α) : Maintains calls inv (pure a : Exec κ σ ι α) :=
  fun _ hs => ensures_pure hs

theorem maintains_bind {m : Exec κ σ ι α} {f : α → Exec κ σ ι β} (hm : Maintains calls inv m)
    (hf : ∀ a, Maintains calls inv (f a)) : Maintains calls inv (m >>= f) := by
  intro s hs
  refine ensures_bind ?_
  exact (hm s hs).weaken fun a s1 h1 => hf a s1 h1

theorem maintains_update {f : σ → α × σ} (h : ∀ s, inv s → inv (f s).2) :
    Maintains calls inv (update f : Exec κ σ ι α) :=
  fun s hs => ensures_update (h s hs)

theorem maintains_read : Maintains calls inv (read : Exec κ σ ι σ) := maintains_update fun _ hs => hs

theorem maintains_modify {f : σ → σ} (h : ∀ s, inv s → inv (f s)) :
    Maintains calls inv (modify f : Exec κ σ ι Unit) :=
  maintains_update h

theorem maintains_ask {k : κ} {answer : σ → ι → Option (α × σ)} (hk : calls k)
    (h : ∀ s i a s', inv s → answer s i = some (a, s') → inv s') :
    Maintains calls inv (ask k answer) :=
  fun s hs => ensures_ask ⟨hk, hs⟩ fun i a s' _ hans => h s i a s' hs hans

theorem maintains_ite {c : Prop} [Decidable c] {m n : Exec κ σ ι α} (hm : Maintains calls inv m)
    (hn : Maintains calls inv n) : Maintains calls inv (if c then m else n) := by
  split
  · exact hm
  · exact hn

theorem maintains_loop {body : β → Exec κ σ ι (Turn β α)} (hp : ∀ b, Productive (body b))
    (hbody : ∀ b, Maintains calls inv (body b)) (b : β) : Maintains calls inv (loop body b) := by
  intro s hs
  refine ensures_loop (fun _ s' => inv s') hp ?_ hs
  intro b s1 h1
  refine (hbody b s1 h1).weaken ?_
  intro r s2 h2
  cases r with
  | again b' => exact h2
  | stop a => exact h2

/-- A part that is there, or a program that waits in `lost`. -/
theorem maintains_zoom {get : σ → Option τ} {put : τ → σ → σ} {lost : κ} {m : Exec κ τ ι α}
    {calls' : κ → Prop} {inv' : τ → Prop} (hlost : calls lost) (hcalls : ∀ k, calls' k → calls k)
    (hget : ∀ s t, inv s → get s = some t → inv' t)
    (hput : ∀ s t t', inv s → get s = some t → inv' t' → inv (put t' s))
    (hm : Maintains calls' inv' m) : Maintains calls inv (zoom get put lost m) := by
  intro s hs
  cases hpart : get s with
  | none =>
      intro is _
      simp only [zoom, hpart]
      exact ⟨hlost, hs⟩
  | some t =>
      refine ensures_zoom hpart ((hm t (hget s t hs hpart)).mono ?_ ?_)
      · intro _ t' ht'
        exact hput s t t' hs hpart ht'
      · rintro k t' ⟨hk, ht'⟩
        exact ⟨hcalls k hk, hput s t t' hs hpart ht'⟩

/-- What is kept holds in the state a run has reached. -/
theorem Maintains.state {m : Exec κ σ ι α} (h : Maintains calls inv m) {s : σ} (hs : inv s)
    (is : List ι) : inv (m.run s is).state :=
  ((h s hs).mono (fun _ _ hs' => hs') fun _ _ hk => hk.2).state is

end Maintains

end Exec

end RtbEngine.Lib
