import Mathlib.Data.Multiset.AddSub
import Mathlib.Tactic.Abel
import RtbEngine.Lib.Tracks
import RtbEngine.Theorems.Descriptors
import RtbEngine.Theorems.Stopping
import RtbEngine.Theorems.Workers

/-!
# What the server has open

A book lists what a server has at a point of its program: the event descriptor,
the descriptors that it must still close, which workers have been shut down,
and what it has written. `Ledger` says that the book is right: every open
descriptor that was not there at the start is in it once, and the counter is
written through its own descriptor only.

* `Ledger.interrupted`, `Ledger.runThread`, `Ledger.opened`, … — what a step
  changes in the book.
-/

namespace RtbEngine

open Lib Exec Relation

/-! ## Books -/

/-- `pending` are the descriptors that no runtime has, `leaving` the clients
that are left of a worker that is shut down, and `wakes` a number of writes to
the event counter. -/
structure Book where
  event : Option Fd := none
  pending : Multiset Fd := 0
  leaving : Nat → Option (List Fd) := fun _ => none
  workers : Nat := 0
  handled : Signal → Bool := fun _ => false
  shutdownEventFd : Fd := -1
  timer : Bool := false
  recorder : Option BenchmarkRecorder := none
  wakes : Nat := 0
  stdout : Bytes := []
  benchmarkJson : Option Bytes := none

def Book.held (b : Book) : Multiset Fd := (b.event.toList : Multiset Fd) + b.pending

/-- The descriptors of a runtime that are no client's. -/
def Worker.own (worker : Worker) : Multiset Fd :=
  (closesIfSet worker.world.runtime.listenFd ++ closesIfSet worker.world.runtime.epollFd : List Fd)

/-- A worker between its start and its shutdown. -/
structure Worker.Serving (event : Option Fd) (worker : Worker) : Prop where
  owned : Owned worker.world
  event : event = some worker.world.runtime.config.shutdownFd
  known : ∀ fd, worker.Serves fd → fd ∈ worker.accepted
  result : ∀ n, worker.standing = .ready (.returned n) → n = 0

/-- A worker that is shut down, with the clients that are left. -/
structure Worker.Leaving (clients : List Fd) (worker : Worker) : Prop where
  standing : worker.standing = .shutDown
  own : worker.own = 0
  clients : ∀ fd, worker.Serves fd ↔ fd ∈ clients

def Worker.Fits (event : Option Fd) (leaving : Option (List Fd)) (worker : Worker) : Prop :=
  match leaving with
  | none => worker.Serving event
  | some clients => worker.Leaving clients

/-- The process, started with `base` open, is as the book says. -/
structure Ledger (base : Finset Fd) (b : Book) (p : Process) : Prop where
  descriptors : p.descriptors.val = base.val + b.held + (p.workers.map Worker.own).sum
  apart : Apart p
  crew : ∀ (i : Nat) (worker : Worker), p.workers[i]? = some worker → worker.Fits b.event (b.leaving i)
  workers : p.workers.length = b.workers
  eventFd : p.eventFd = b.event
  nonneg : ∀ fd, b.event = some fd → 0 ≤ fd
  shutdownEventFd : p.shutdownEventFd = b.shutdownEventFd
  reach : b.shutdownEventFd < 0 ∨ b.event = some b.shutdownEventFd
  timer : p.timer = none ∨ (b.timer = true ∧ p.timer = b.event)
  handled : p.handled = b.handled
  recorder : p.recorder = b.recorder
  wakes : b.wakes ≤ p.shutdownSignals
  woken : ∀ worker ∈ p.workers, worker.standing = .exited → 0 < p.shutdownSignals
  strayWrites : p.strayWrites = 0
  exitCode : p.exitCode = 0
  stdout : p.stdout = b.stdout
  benchmarkJson : p.benchmarkJson = b.benchmarkJson

section

variable {env : Platform} {base : Finset Fd} {b : Book} {p q : Process}

/-- The book of a process that has just been started. -/
theorem ledger_boot (descriptors : Finset Fd) (clocks : Nat → Clock) :
    Ledger descriptors {} { descriptors, clocks } where
  descriptors := by simp [Book.held]
  apart := apart_of_no_workers rfl
  crew := nofun
  workers := rfl
  eventFd := rfl
  nonneg := nofun
  shutdownEventFd := rfl
  reach := .inl (by decide)
  timer := .inl rfl
  handled := rfl
  recorder := rfl
  wakes := Nat.le_refl _
  woken := nofun
  strayWrites := rfl
  exitCode := rfl
  stdout := rfl
  benchmarkJson := rfl

/-! ## Interrupts -/

/-- What an interrupt changes, when the globals refer to the counter or to
nothing. -/
def Interrupted (p q : Process) : Prop :=
  ∃ timer signals stops requested, (timer = none ∨ timer = p.timer) ∧ p.shutdownSignals ≤ signals ∧
    q = { p with timer, shutdownSignals := signals, stopRequests := stops, shutdownRequested := requested }

theorem requestShutdown_interrupted {fd : Fd} (h : fd < 0 ∨ p.eventFd = some fd) :
    Interrupted p (p.requestShutdown fd) := by
  unfold Process.requestShutdown
  simp only
  split
  · exact ⟨_, _, _, _, .inr rfl, Nat.le_refl _, rfl⟩
  · rename_i hset
    have hcounter := h.resolve_left hset
    refine ⟨p.timer, p.shutdownSignals + 1, p.stopRequests, true, .inr rfl, Nat.le_succ _, ?_⟩
    unfold Process.wake
    exact if_pos hcounter

theorem interrupted_of_interrupt (hglobal : p.shutdownEventFd < 0 ∨ p.eventFd = some p.shutdownEventFd)
    (htimer : p.timer = none ∨ p.timer = p.eventFd) {a : SystemAnswer}
    (h : p.interrupt a = some q) : Interrupted p q := by
  cases a with
  | signal signal =>
      simp only [Process.interrupt] at h
      split at h
      · cases h
        exact @requestShutdown_interrupted { p with stopRequests := p.stopRequests + 1 } _ hglobal
      · cases h
  | timer =>
      obtain ⟨fd, hfd, rfl⟩ := Option.map_eq_some_iff.mp h
      have hcounter : p.eventFd = some fd := by
        rcases htimer with hnone | hevent
        · rw [hnone] at hfd
          cases hfd
        · exact hevent.symm.trans hfd
      obtain ⟨timer, signals, stops, requested, htimer', hle, hq⟩ := @requestShutdown_interrupted
        { p with timer := none, stopRequests := p.stopRequests + 1 } _ (.inr hcounter)
      refine ⟨timer, signals, stops, requested, .inl ?_, hle, hq⟩
      rcases htimer' with hnone | hsame
      · exact hnone
      · exact hsame
  | _ => cases h

/-- An interrupt sees nothing of the workers. -/
theorem Interrupted.modifyWorker (h : Interrupted p q) (i : Nat) (f : Worker → Worker) :
    Interrupted (p.modifyWorker i f) (q.modifyWorker i f) := by
  obtain ⟨timer, signals, stops, requested, htimer, hle, rfl⟩ := h
  exact ⟨timer, signals, stops, requested, htimer, hle, rfl⟩

theorem Ledger.interrupted (h : Ledger base b p) (hq : Interrupted p q) : Ledger base b q := by
  obtain ⟨timer, signals, stops, requested, htimer, hle, rfl⟩ := hq
  refine
    { h with
      apart := h.apart.same rfl rfl
      timer := ?_
      wakes := Nat.le_trans h.wakes hle
      woken := fun worker hmem hexited => Nat.lt_of_lt_of_le (h.woken worker hmem hexited) hle }
  rcases htimer with rfl | rfl
  · exact .inl rfl
  · exact h.timer

theorem Ledger.interrupt (h : Ledger base b p) {a : SystemAnswer} (hq : p.interrupt a = some q) :
    Interrupted p q := by
  refine interrupted_of_interrupt ?_ ?_ hq
  · rw [h.shutdownEventFd, h.eventFd]
    exact h.reach
  · rw [h.eventFd]
    exact h.timer.imp_right And.right

/-! ## Descriptors -/

theorem Ledger.event_mem (h : Ledger base b p) {fd : Fd} (hfd : b.event = some fd) :
    fd ∈ p.descriptors := by
  rw [← Finset.mem_val, h.descriptors, Book.held, hfd]
  simp

theorem Ledger.pending_mem (h : Ledger base b p) {fd : Fd} (hfd : fd ∈ b.pending) :
    fd ∈ p.descriptors := by
  rw [← Finset.mem_val, h.descriptors, Book.held]
  simp [hfd]

theorem Ledger.opened (h : Ledger base b p) {fd : Fd} (hfree : p.isOpen fd = false) :
    Ledger base { b with pending := fd ::ₘ b.pending }
      { p with descriptors := insert fd p.descriptors } := by
  have hnew := (isOpen_eq_false.mp hfree).1
  refine { h with descriptors := ?_, apart := ?_ }
  · show (insert fd p.descriptors).val = _
    rw [Finset.insert_val_of_notMem hnew, h.descriptors]
    simp [Book.held]
  · exact h.apart.opened hfree

/-- What the book has once is open once. -/
theorem Ledger.pending_apart {fd : Fd} {rest : Multiset Fd}
    (h : Ledger base { b with pending := fd ::ₘ rest } p) : b.event ≠ some fd := by
  intro hevent
  have hnodup := p.descriptors.nodup
  rw [h.descriptors, Book.held] at hnodup
  simp [hevent] at hnodup

theorem Ledger.close_pending {fd : Fd} {rest : Multiset Fd}
    (h : Ledger base { b with pending := fd ::ₘ rest } p) :
    Ledger base { b with pending := rest } (p.close none fd) := by
  refine { h with descriptors := ?_, apart := h.apart.close none fd, eventFd := ?_ }
  · show (p.descriptors.erase fd).val = base.val + ((b.event.toList : Multiset Fd) + rest) +
      (p.workers.map Worker.own).sum
    rw [Finset.erase_val, h.descriptors]
    simp [Book.held]
  · show (if p.eventFd = some fd then none else p.eventFd) = b.event
    rw [h.eventFd]
    exact if_neg h.pending_apart

/-- The event descriptor goes last: no signal and no timer refers to it, and
no worker is left. -/
theorem Ledger.close_event {fd : Fd} (h : Ledger base b p) (hevent : b.event = some fd)
    (hglobal : b.shutdownEventFd < 0) (htimer : b.timer = false)
    (hleaving : ∀ i < b.workers, b.leaving i = some []) :
    Ledger base { b with event := none } (p.close none fd) := by
  refine
    { h with
      descriptors := ?_
      apart := h.apart.close none fd
      crew := ?_
      eventFd := ?_
      nonneg := nofun
      reach := .inl hglobal
      timer := .inl (h.timer.elim id fun hset => ?_) }
  · show (p.descriptors.erase fd).val = base.val + (0 + b.pending) + (p.workers.map Worker.own).sum
    rw [Finset.erase_val, h.descriptors, Book.held, hevent]
    simp
  · intro i worker hi
    have hlt : i < b.workers := h.workers ▸ (List.getElem?_eq_some_iff.mp hi).1
    have hfits := h.crew i worker hi
    rw [hleaving i hlt] at hfits
    show worker.Fits none (b.leaving i)
    rw [hleaving i hlt]
    exact hfits
  · show (if p.eventFd = some fd then none else p.eventFd) = none
    rw [h.eventFd, if_pos hevent]
  · rw [htimer] at hset
    cases hset.1

/-! ## Runtimes -/

theorem Ledger.booted {worker : Worker} {rest : Multiset Fd} {shutdownFd : Fd}
    {store : CampaignStoreSnapshot} (h : Ledger base { b with pending := worker.own + rest } p)
    (hfresh : worker.Fresh store shutdownFd) (hevent : b.event = some shutdownFd)
    (hleaving : b.leaving b.workers = none) :
    Ledger base { b with pending := rest, workers := b.workers + 1 }
      { p with workers := p.workers ++ [worker] } := by
  have hserving : worker.Serving b.event := by
    obtain ⟨epollFd, listenFd, rng, recorder, clock, rfl⟩ := hfresh
    exact ⟨owned_boot _ _ _ _ _ _ _, hevent, nofun, nofun⟩
  refine
    { h with
      descriptors := ?_
      apart := h.apart.booted hfresh.idle
      crew := ?_
      workers := ?_
      woken := ?_ }
  · show p.descriptors.val = _
    rw [h.descriptors]
    simp only [Book.held, List.map_append, List.sum_append, List.map_cons, List.map_nil,
      List.sum_cons, List.sum_nil]
    abel
  · intro i old hi
    rcases Nat.lt_trichotomy i p.workers.length with hlt | rfl | hgt
    · rw [List.getElem?_append_left hlt] at hi
      exact h.crew i old hi
    · rw [List.getElem?_concat_length] at hi
      cases hi
      show worker.Fits b.event (b.leaving p.workers.length)
      rw [h.workers, hleaving]
      exact hserving
    · rw [List.getElem?_eq_none (by simpa using hgt)] at hi
      cases hi
  · rw [List.length_append, h.workers]
    rfl
  · intro old hmem hexited
    rcases List.mem_append.mp hmem with hold | hnew
    · exact h.woken old hold hexited
    · obtain ⟨epollFd, listenFd, rng, recorder, clock, rfl⟩ := hfresh
      rw [List.mem_singleton.mp hnew] at hexited
      cases hexited

/-- A worker is replaced by one that is shut down. -/
theorem Ledger.leave {i : Nat} {f : Worker → Worker} {clients : List Fd} {pending : Multiset Fd}
    (h : Ledger base b p) (hf : ∀ worker, p.workers[i]? = some worker →
      (f worker).Leaving clients ∧ (∀ fd, (f worker).Serves fd → worker.Serves fd) ∧
        (f worker).own + pending = worker.own + b.pending)
    (hi : i < b.workers) :
    Ledger base { b with pending, leaving := Function.update b.leaving i (some clients) }
      (p.modifyWorker i f) := by
  obtain ⟨worker, hworker⟩ : ∃ worker, p.workers[i]? = some worker :=
    ⟨_, List.getElem?_eq_getElem (h.workers ▸ hi)⟩
  obtain ⟨hleaving, hserves, hown⟩ := hf worker hworker
  refine
    { h with
      descriptors := ?_
      apart := h.apart.modify rfl rfl ?_
      crew := ?_
      workers := ?_
      woken := ?_ }
  · have hsum := sum_map_modify Worker.own f hworker
    show p.descriptors.val = base.val + ((b.event.toList : Multiset Fd) + pending) +
      ((p.workers.modify i f).map Worker.own).sum
    refine add_right_cancel (b := (f worker).own) ?_
    rw [h.descriptors, add_assoc, ← hsum, Book.held]
    have hmoved : base.val + ((b.event.toList : Multiset Fd) + pending) +
        ((p.workers.modify i f).map Worker.own).sum + (f worker).own =
        base.val + (b.event.toList : Multiset Fd) + ((p.workers.modify i f).map Worker.own).sum +
          ((f worker).own + pending) := by
      abel
    rw [hmoved, hown]
    abel
  · intro old fd hold hserved
    cases hworker.symm.trans hold
    exact .inl (hserves fd hserved)
  · intro j new hj
    show new.Fits b.event (Function.update b.leaving i (some clients) j)
    rw [Process.modifyWorker, List.getElem?_modify] at hj
    obtain ⟨old, hold, hnew⟩ := Option.map_eq_some_iff.mp hj
    by_cases hij : i = j
    · subst hij
      rw [if_pos rfl] at hnew
      cases hworker.symm.trans hold
      rw [← hnew, Function.update_self]
      exact hleaving
    · rw [if_neg hij] at hnew
      rw [← hnew, Function.update_of_ne (Ne.symm hij)]
      exact h.crew j old hold
  · exact (List.length_modify _ _ _).trans h.workers
  · refine forall_mem_modify h.woken ?_
    intro old hold hexited
    cases hworker.symm.trans hold
    rw [hleaving.standing] at hexited
    cases hexited

/-! ## Threads -/

/-- A thread has moved its worker, and what it shares with the others. -/
theorem Ledger.moved {i : Nat} {old new : Worker} {recorder : Option BenchmarkRecorder}
    {signals : Nat} {requested : Bool} (h : Ledger base b p) (hi : p.workers[i]? = some old)
    (hleaving : b.leaving i = none) (hnew : new.Serving b.event) (hown : new.own = old.own)
    (hserves : ∀ fd, new.Serves fd → old.Serves fd ∨ p.isOpen fd = false)
    (hsignals : p.shutdownSignals ≤ signals) (hwoken : new.standing = .exited → 0 < signals) :
    Ledger base { b with recorder }
      { p with
        workers := p.workers.modify i fun _ => new
        recorder
        shutdownSignals := signals
        shutdownRequested := requested } := by
  refine
    { h with
      descriptors := ?_
      apart := h.apart.modify rfl rfl ?_
      crew := ?_
      workers := (List.length_modify _ _ _).trans h.workers
      recorder := rfl
      wakes := Nat.le_trans h.wakes hsignals
      woken := forall_mem_modify ?_ ?_ }
  · have hsum := sum_map_modify Worker.own (fun _ => new) hi
    rw [hown] at hsum
    show p.descriptors.val = base.val + b.held + ((p.workers.modify i fun _ => new).map Worker.own).sum
    rw [h.descriptors, add_right_cancel hsum]
  · intro worker fd hworker hserved
    cases hi.symm.trans hworker
    exact hserves fd hserved
  · intro j worker hj
    rw [List.getElem?_modify] at hj
    obtain ⟨before, hbefore, hafter⟩ := Option.map_eq_some_iff.mp hj
    by_cases hij : i = j
    · subst hij
      rw [if_pos rfl] at hafter
      rw [← hafter]
      show new.Fits b.event (b.leaving i)
      rw [hleaving]
      exact hnew
    · rw [if_neg hij] at hafter
      rw [← hafter]
      exact h.crew j before hbefore
  · exact fun worker hmem hexited => Nat.lt_of_lt_of_le (h.woken worker hmem hexited) hsignals
  · exact fun _ _ hexited => hwoken hexited

/-- A worker whose thread can run is not shut down. -/
theorem Ledger.serving (h : Ledger base b p) {i : Nat} {worker : Worker}
    (hi : p.workers[i]? = some worker) (hstanding : worker.standing ≠ .shutDown) :
    b.leaving i = none ∧ worker.Serving b.event := by
  have hfits := h.crew i worker hi
  cases hleaving : b.leaving i with
  | none =>
      rw [hleaving] at hfits
      exact ⟨rfl, hfits⟩
  | some clients =>
      rw [hleaving] at hfits
      exact absurd hfits.standing hstanding

/-- A stage of a thread. -/
theorem Ledger.stage (h : Ledger base b p) {i : Nat} {worker : Worker}
    (hi : p.workers[i]? = some worker) {stage : Stage} (hready : worker.standing = .ready stage)
    {answers : List Answer}
    (hallowed : ∀ a ∈ answers, p.allows worker.world.runtime.config.shutdownFd a = true)
    {w' : World} {standing : Standing}
    (hend : StageEnd env (worker.world.load p.recorder p.shutdownSignals) answers stage w' standing) :
    Ledger base { b with recorder := w'.runtime.benchmarkRecorder }
      (p.store i ⟨w', standing, worker.accepted ++ acceptedFds answers⟩) := by
  obtain ⟨hleaving, hserving⟩ := h.serving hi (by rw [hready]; exact nofun)
  have hshares := shares_next env stage (hserving.owned.load p.recorder p.shutdownSignals) answers
  rw [hend.state] at hshares
  obtain ⟨hlisten, hepoll, hconfig⟩ := hshares.worker
  have hopens : ∀ fd, (w'.kernel.fdTable fd).isSome = true →
      worker.Serves fd ∨ .accepted (.ok fd) ∈ answers := by
    intro fd hfd
    rw [← hend.state] at hfd
    have hopen := next_opens hfd
    exact hopen
  have hstored : p.store i ⟨w', standing, worker.accepted ++ acceptedFds answers⟩ =
      { p with
        workers := p.workers.modify i fun _ =>
          ⟨w', standing, worker.accepted ++ acceptedFds answers⟩
        recorder := w'.runtime.benchmarkRecorder
        shutdownSignals := p.shutdownSignals + (w'.kernel.shutdownSignals - p.shutdownSignals)
        shutdownRequested := p.shutdownRequested } := by
    unfold Process.store
    refine if_pos ?_
    show p.eventFd = some w'.runtime.config.shutdownFd
    rw [hconfig, h.eventFd]
    exact hserving.event
  rw [hstored]
  refine h.moved hi hleaving ⟨hshares.owned, ?_, ?_, ?_⟩ ?_ ?_ (Nat.le_add_right _ _) ?_
  · show b.event = some w'.runtime.config.shutdownFd
    rw [hconfig]
    exact hserving.event
  · intro fd hfd
    rcases hopens fd hfd with hold | hnew
    · exact List.mem_append_left _ (hserving.known fd hold)
    · exact List.mem_append_right _ (List.mem_filterMap.mpr ⟨_, hnew, rfl⟩)
  · intro n hn
    cases hend with
    | waiting call hrun => cases hn
    | done stage' hrun =>
        cases hn
        rcases (next_leadsTo hrun).result n rfl with hold | hzero
        · exact hserving.result n (hready.trans (congrArg _ hold))
        · exact hzero
  · unfold Worker.own
    rw [hlisten, hepoll]
    rfl
  · intro fd hfd
    rcases hopens fd hfd with hold | hnew
    · exact .inl hold
    · exact .inr (by simpa [Process.allows] using hallowed _ hnew)
  · intro hexited
    cases hend with
    | waiting call hrun => cases hexited
    | done stage' hrun => cases hexited

/-- The end of a thread. -/
theorem Ledger.ended (h : Ledger base b p) {i : Nat} {worker : Worker}
    (hi : p.workers[i]? = some worker) {n : Int}
    (hready : worker.standing = .ready (.returned n)) :
    Ledger base b (p.endThread i worker n) := by
  obtain ⟨hleaving, hserving⟩ := h.serving hi (by rw [hready]; exact nofun)
  have hended : p.endThread i worker n =
      { p with
        workers := p.workers.modify i fun _ => { worker with standing := .exited }
        recorder := b.recorder
        shutdownSignals := p.shutdownSignals + 1
        shutdownRequested := true } := by
    have hset : ¬ worker.world.runtime.config.shutdownFd < 0 :=
      Int.not_lt.mpr (h.nonneg _ hserving.event)
    have hcounter : p.eventFd = some worker.world.runtime.config.shutdownFd :=
      h.eventFd.trans hserving.event
    rw [hserving.result n hready, ← h.recorder]
    simp only [Process.endThread, Process.requestShutdown, Process.modifyWorker, Process.wake,
      ne_eq, not_true_eq_false, if_false, if_neg hset, if_pos hcounter]
  rw [hended]
  exact h.moved hi hleaving ⟨hserving.owned, hserving.event, hserving.known, nofun⟩ rfl
    (fun _ hserves => .inl hserves) (Nat.le_succ _) fun _ => Nat.succ_pos _

/-- **A thread.** -/
theorem Ledger.runThread (h : Ledger base b p) {i : Nat} {answers : List Answer}
    (hq : p.runThread env i answers = some q) : ∃ recorder, Ledger base { b with recorder } q := by
  obtain ⟨worker, hi, hthread⟩ := runThread_some hq
  cases hthread with
  | stage stage w' standing hready hallowed hend => exact ⟨_, h.stage hi hready hallowed hend⟩
  | ended n hready => exact ⟨b.recorder, h.ended hi hready⟩

end

end RtbEngine
