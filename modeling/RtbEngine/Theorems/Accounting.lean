import Mathlib.Data.Set.Card
import RtbEngine.Theorems.Stream

/-!
# Requests recorded and responses delivered

A request is recorded when its response is staged. A worker that stops while
responses are on their way has recorded them; each connection has one at most.
-/

namespace RtbEngine

open Lib Exec Framing

/-- Complete frames among the bytes sent on all sockets. -/
def Kernel.delivered (k : Kernel) : Nat :=
  ∑ i ∈ Finset.range k.accepted, (decode (sentBytes (k.sockets i).history)).length

/-- The connections with a response on its way. -/
def World.pendingWrites (w : World) : Set Fd :=
  {fd | ∃ c, w.runtime.connections fd = some c ∧ c.hasPendingWrite = true}

/-- The write buffer of `c` holds what is not sent of the response that was
staged last on its socket, and everything before it is sent. -/
def World.HoldsRest (env : Platform) (w : World) (fd : Fd) (c : ConnectionState) : Prop :=
  ∃ i earlier last, w.kernel.fdTable fd = some i ∧
    stagedResponses (w.kernel.sockets i).history = earlier ++ [last] ∧
    c.writeBuffer.readable ≠ [] ∧
    c.writeBuffer.readable <:+ frame (serialized env.protobuf last) ∧
    sentBytes (w.kernel.sockets i).history ++ c.writeBuffer.readable =
      frames ((earlier ++ [last]).map (serialized env.protobuf))

section

variable {env : Platform} {config : WorkerConfig} {store : CampaignStoreSnapshot}
  {base : Option Nat} {w : World} {rely : Answer → Prop}

/-- The sockets with bytes on their way. -/
def World.unsent (env : Platform) (w : World) : Finset Nat :=
  (Finset.range w.kernel.accepted).filter fun i =>
    outbox env.protobuf (w.kernel.sockets i).history ≠ []

/-- What was staged but not delivered is on its way: one response a socket. -/
theorem WorldOk.stagedTotal_eq (hw : WorldOk env config store base w) :
    w.kernel.stagedTotal = w.kernel.delivered + (w.unsent env).card := by
  rw [World.unsent, Finset.card_filter, Kernel.delivered, ← Finset.sum_add_distrib,
    Kernel.stagedTotal]
  apply Finset.sum_congr rfl
  intro i _
  rw [Kernel.staged, ← delivered_count (hw.talk i)]
  by_cases hout : outbox env.protobuf (w.kernel.sockets i).history = []
  · simp [hout]
  · simp [hout]

/-- In a clean environment the sockets with bytes on their way are those of
the open connections that wait to write. -/
theorem BetweenEvents.unsent_card (h : BetweenEvents env config store base rely w)
    (hclean : CleanRely rely) : (w.unsent env).card = w.pendingWrites.ncard := by
  obtain ⟨hw, hd, hr⟩ := h
  have himage : (w.unsent env : Set Nat) =
      (fun fd => (w.kernel.fdTable fd).getD 0) '' w.pendingWrites := by
    ext i
    simp only [World.unsent, Finset.coe_filter, Finset.mem_range, Set.mem_ofPred_eq, Set.mem_image]
    constructor
    · rintro ⟨hlt, hout⟩
      -- a closed socket has nothing on its way
      obtain ⟨fd, hi⟩ : ∃ fd, w.kernel.fdTable fd = some i := by
        by_contra hclosed
        exact hout (hd hclean i ⟨hlt, fun fd hfd => hclosed ⟨fd, hfd⟩⟩)
      have hentered := hw.entered fd
      rw [hi, Option.isSome_some] at hentered
      obtain ⟨c, hc⟩ := Option.isSome_iff_exists.mp hentered
      exact ⟨fd, ⟨c, hc, (hr fd c i hc hi).pending.mpr hout⟩, by rw [hi]; rfl⟩
    · rintro ⟨fd, ⟨c, hc, hflag⟩, hget⟩
      obtain ⟨j, hj⟩ := hw.descriptor hc
      rw [hj, Option.getD_some] at hget
      subst hget
      exact ⟨hw.below hj, (hr fd c j hc hj).pending.mp hflag⟩
  have hinj : Set.InjOn (fun fd => (w.kernel.fdTable fd).getD 0) w.pendingWrites := by
    rintro fd ⟨c, hc, -⟩ fd' ⟨c', hc', -⟩ heq
    obtain ⟨j, hj⟩ := hw.descriptor hc
    obtain ⟨j', hj'⟩ := hw.descriptor hc'
    simp only [hj, hj', Option.getD_some] at heq
    subst heq
    exact hw.injective hj hj'
  rw [← Set.ncard_coe_finset, himage, hinj.ncard_image]

/-- A connection that waits to write has one response on its way. -/
theorem BetweenEvents.holdsRest (h : BetweenEvents env config store base rely w) {fd : Fd}
    {c : ConnectionState} (hc : w.runtime.connections fd = some c)
    (hflag : c.hasPendingWrite = true) : w.HoldsRest env fd c := by
  obtain ⟨hw, -, hr⟩ := h
  obtain ⟨i, hi⟩ := hw.descriptor hc
  have hsync := (hw.bound hc hi).sync
  have hout : outbox env.protobuf (w.kernel.sockets i).history ≠ [] :=
    (hr fd c i hc hi).pending.mp hflag
  obtain ⟨earlier, last, hlast, htail⟩ := (outbox_tail hsync.talk).resolve_left hout
  refine ⟨i, earlier, last, hi, hlast, ?_, ?_, ?_⟩
  · rw [hsync.outbox]
    exact hout
  · rw [hsync.outbox]
    exact htail
  · rw [hsync.outbox, ← hlast]
    exact sent_eq hsync.talk

end

/-- **Accounting.** When a worker whose clients neither fail nor hang up
returns, it has recorded each response that was staged: those that went out
completely, and one more for each connection that still waits to write, which
holds the unsent rest of that one. -/
theorem completed_requests_accounting {env : Platform} {config : WorkerConfig}
    {store : CampaignStoreSnapshot} (hfit : config.FramesFit) {epollFd listenFd : Fd}
    {rng : WorkerRng} {limit : UInt64} {clock : Clock} {answers rest : List Answer} {n : Int}
    {w : World} (hclean : ∀ a ∈ answers, a.Clean)
    (hrun : (runWorkerLoop env).run
      (bootWorld config epollFd listenFd rng (some { requestLimit := limit }) store clock)
      answers = .done n w rest) :
    ∃ r, w.runtime.benchmarkRecorder = some r ∧ r.completedRequests = w.kernel.stagedTotal ∧
      r.completedRequests = w.kernel.delivered + w.pendingWrites.ncard ∧
      ∀ fd c, w.runtime.connections fd = some c → c.hasPendingWrite = true →
        w.HoldsRest env fd c := by
  have h : BetweenEvents env config store (some 0) Answer.Clean w :=
    betweenEvents_of_run hfit hclean hrun
  obtain ⟨r, hr, hcompleted⟩ := Option.map_eq_some_iff.mp h.1.counted
  have hstaged : r.completedRequests = w.kernel.stagedTotal :=
    Eq.trans hcompleted (Nat.zero_add _)
  refine ⟨r, hr, hstaged, ?_, fun fd c hc hflag => h.holdsRest hc hflag⟩
  rw [hstaged, h.1.stagedTotal_eq, h.unsent_card fun _ ha => ha]

/-! ## A run -/

/-- A client on 5 sends two requests in one piece. When the first response
is out, the limit of one request is reached and the shutdown signalled; the
same handler goes on to stage the second response. -/
def pipelinedAnswers : List Answer :=
  [.events (.ok [⟨3, EPOLLIN⟩]), .go, .accepted (.ok 5), .controlled true,
    .accepted (.error .eagain),
    .events (.ok [⟨5, EPOLLIN⟩]), .go,
    .readBytes (.ok (frame sampleRequest ++ frame sampleRequest)), .controlled true,
    .events (.ok [⟨5, EPOLLOUT⟩]), .go, .written (.ok 9), .controlled true, .controlled true,
    .events (.ok [⟨7, EPOLLIN⟩]), .go]

/-- Two requests recorded, one response delivered. -/
theorem completed_requests_ne_delivered :
    (∀ a ∈ pipelinedAnswers, a.Clean) ∧
      ∃ w r, (runWorkerLoop wirePlatform).run
          (sampleWorld (some { requestLimit := 1 })) pipelinedAnswers = .done 0 w [] ∧
        w.kernel.shutdownSignals = 1 ∧ w.runtime.benchmarkRecorder = some r ∧
        r.completedRequests = 2 ∧ w.kernel.delivered = 1 := by
  refine ⟨by decide +kernel, ?_⟩
  have hrun : (((runWorkerLoop wirePlatform).run
      (sampleWorld (some { requestLimit := 1 })) pipelinedAnswers).returns).any (fun p =>
        p.1 = 0 ∧ p.2.2 = [] ∧ p.2.1.kernel.shutdownSignals = 1 ∧
          p.2.1.runtime.benchmarkRecorder.map (·.completedRequests) = some 2 ∧
          p.2.1.kernel.delivered = 1) := by
    decide +kernel
  obtain ⟨⟨n, w, rest⟩, hreturns, hp⟩ := (Option.any_eq_true _ _).mp hrun
  obtain ⟨rfl, rfl, hsignals, hcount, hdelivered⟩ := of_decide_eq_true hp
  obtain ⟨r, hr, hcompleted⟩ := Option.map_eq_some_iff.mp hcount
  exact ⟨w, r, Outcome.eq_done hreturns, hsignals, hr, hcompleted, hdelivered⟩

/-- At the end of that run the second response waits on the connection. -/
theorem completed_requests_accounting_sample :
    ∃ w r c, (runWorkerLoop wirePlatform).run
        (sampleWorld (some { requestLimit := 1 })) pipelinedAnswers = .done 0 w [] ∧
      w.runtime.benchmarkRecorder = some r ∧
      r.completedRequests = w.kernel.delivered + w.pendingWrites.ncard ∧
      w.runtime.connections 5 = some c ∧ w.HoldsRest wirePlatform 5 c := by
  have hrun : (((runWorkerLoop wirePlatform).run
      (sampleWorld (some { requestLimit := 1 })) pipelinedAnswers).returns).any (fun p =>
        p.1 = 0 ∧ p.2.2 = [] ∧ (p.2.1.runtime.connections 5).map (·.hasPendingWrite) = some true) := by
    decide +kernel
  obtain ⟨⟨n, w, rest⟩, hreturns, hp⟩ := (Option.any_eq_true _ _).mp hrun
  obtain ⟨rfl, rfl, hpending⟩ := of_decide_eq_true hp
  obtain ⟨c, hc, hflag⟩ := Option.map_eq_some_iff.mp hpending
  have hdone := Outcome.eq_done hreturns
  obtain ⟨r, hr, -, hcount, hrest⟩ :=
    completed_requests_accounting (by decide) (by decide +kernel) hdone
  exact ⟨w, r, c, hdone, hr, hcount, hc, hrest 5 c hc hflag⟩

end RtbEngine
