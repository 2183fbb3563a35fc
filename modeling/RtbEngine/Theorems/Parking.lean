import RtbEngine.Logic.Steps
import RtbEngine.Theorems.Stream

/-!
# No connection is parked with work to do

Whenever the worker calls `epoll_wait`, what it waits for on a connection is
what the connection still needs: `EPOLLOUT` exactly while a response is on its
way, and otherwise more bytes.

* `BetweenEvents.notes` — a connection without a history had no event yet;
* `parked_at_epoll_wait` — every connection, in every run.
-/

namespace RtbEngine

open Lib Exec Framing

theorem clientEvents_out (enableWrite : Bool) :
    clientEvents enableWrite &&& EPOLLOUT ≠ 0 ↔ enableWrite = true := by
  cases enableWrite <;> decide

/-- Waiting for `EPOLLOUT`. -/
def Socket.awaitsWritable (k : Socket) : Prop :=
  ∃ mask, k.interest = some mask ∧ mask &&& EPOLLOUT ≠ 0

/-- A connection `c` with the socket `k` while the worker sleeps. -/
structure Parked (env : Platform) (config : WorkerConfig) (c : ConnectionState) (k : Socket) :
    Prop where
  registered : k.interest.isSome
  flag : c.hasPendingWrite = true ↔ c.writeBuffer.readable ≠ []
  writable : c.writeBuffer.readable ≠ [] ↔ k.awaitsWritable
  /-- The write buffer holds the tail of the frame staged last. -/
  one : c.writeBuffer.readable = [] ∨ ∃ earlier last,
    stagedResponses k.history = earlier ++ [last] ∧
      c.writeBuffer.readable <:+ frame (serialized env.protobuf last)
  /-- No complete frame and no bad length at the head of the read buffer. -/
  nothingReady : c.hasPendingWrite = false →
    (c.readBuffer.tryExtractFrame config.maxFrameSize).1 = .needMoreData
  /-- Nothing has happened yet, or the last thing was a `read` without data. -/
  drained : c.hasPendingWrite = false →
    k.history = [] ∨ k.history.getLast? = some (.readFailed .eagain)

/-! ## Every event leaves a trace -/

section

variable {env : Platform} {config : WorkerConfig} {store : CampaignStoreSnapshot}

theorem SessionStep.grows {s s' : Session} (h : SessionStep env config store s s') :
    s.socket.history <+: s'.socket.history := by
  cases h with
  | moved h =>
      rcases h.history with hsame | ⟨event, -, hmore⟩
      · rw [hsame]
      · exact ⟨_, hmore.symm⟩
  | woken h =>
      rw [h.session, signalShutdownFd]
      split <;> exact List.prefix_refl _
  | unparsed payload h => exact ⟨_, h.history.symm⟩
  | request request h => exact ⟨_, h.history.symm⟩

/-- The socket of the session has a history. -/
def Session.Noted (s : Session) : Prop := s.socket.history ≠ []

/-- A handler forgets nothing. -/
theorem Session.Noted.follows {α : Type} {m : SessionM α} {s : Session} (h : s.Noted)
    (hm : Follows (SessionStep env config store) m) :
    m.Ensures (fun _ => True) s (fun _ s' => s'.Noted) fun _ s' => s'.Noted := by
  refine hm.keeps ?_ h
  intro s1 s2 h1 h12 hnone
  exact h1 (List.prefix_nil.mp (hnone ▸ h12.grows))

/-- The check of a frame is noted, whatever it finds. -/
theorem notedEvents_ne_nil (connection : ConnectionState) (rng : WorkerRng) (receivedAtNs : UInt64) :
    notedEvents env config store connection rng receivedAtNs ≠ [] := by
  unfold notedEvents
  split <;> exact List.cons_ne_nil _ _

theorem processReadyFrames_notes (s : Session) :
    (processReadyFrames env config store).Ensures (fun _ => True) s (fun _ s' => s'.Noted)
      fun _ s' => s'.Noted := by
  intro is his
  have hrun := (@follows_processReadyFrames env config store).ensures s is his
  have hhistory := processReadyFrames_history env config store s is
  have hnoted : ((processReadyFrames env config store).run s is).state.Noted := by
    rw [Session.Noted, hhistory]
    exact List.append_ne_nil_of_right_ne_nil _ (notedEvents_ne_nil _ _ _)
  cases ho : (processReadyFrames env config store).run s is with
  | done outcome s' rest => rwa [ho] at hnoted
  | waiting k s' => rwa [ho] at hnoted
  | spinning s' =>
      rw [ho] at hrun
      exact hrun.elim

theorem serveFrames_notes (s : Session) :
    (serveFrames env config store).Ensures (fun _ => True) s (fun _ s' => s'.Noted)
      fun _ s' => s'.Noted := by
  refine ensures_bind ((processReadyFrames_notes s).weaken ?_)
  intro outcome s' hs'
  cases outcome with
  | «continue» => exact hs'.follows (follows_loop productive_readRound follows_readRound ())
  | pauseForWrite => exact ensures_pure hs'
  | closeConnection => exact ensures_pure hs'

theorem serveClient_notes (mask : UInt32) {s : Session}
    (hpending : s.connection.hasPendingWrite = true → s.Noted) :
    (serveClient env config store mask).Ensures (fun _ => True) s (fun _ s' => s'.Noted)
      fun _ s' => s'.Noted := by
  cases hflag : s.connection.hasPendingWrite with
  | true => exact (hpending hflag).follows (follows_serveClient mask)
  | false =>
      refine ensures_bind ?_
      refine ensures_read ?_
      rw [hflag]
      exact serveFrames_notes s

/-- The socket has a history. -/
def World.Noted (i : Nat) (w : World) : Prop := (w.kernel.sockets i).history ≠ []

theorem clientSteps_noted (i : Nat) :
    ClientSteps env fun w w' => w.Noted i → w'.Noted i where
  session {w fd s s'} hget hstep hw := by
    obtain ⟨c, j, -, hj, rfl⟩ := getSession_some hget
    rw [World.Noted, putSession_sockets hj]
    by_cases hij : i = j
    · subst hij
      rw [Function.update_self]
      exact fun hnone => hw (List.prefix_nil.mp (hnone ▸ hstep.grows))
    · rwa [Function.update_of_ne hij]
  dropped {w fd} hopen hw := by
    obtain ⟨j, hj⟩ := Option.isSome_iff_exists.mp hopen
    rw [World.Noted]
    exact (Kernel.close_sockets hj i).symm ▸ hw

theorem noted_closeConnection (env : Platform) {w : World} {i : Nat} (h : w.Noted i) (fd : Fd) :
    (closeConnection fd).Ensures (fun _ => True) w (fun _ w' => w'.Noted i)
      fun _ w' => w'.Noted i := by
  refine (follows_closeConnection (@clientSteps_noted env i) fd).keeps ?_ h
  exact fun w1 w2 h1 h12 => h12 h1

/-- **An event on a connection is noted**, in all that the worker does about
it. -/
theorem BetweenEvents.notes {base : Option Nat} {rely : Answer → Prop} {w : World}
    (h : BetweenEvents env config store base rely w) {event : EpollEvent}
    (hclient : event.fd ≠ w.runtime.listenFd) {c : ConnectionState}
    (hc : w.runtime.connections event.fd = some c) {i : Nat}
    (hi : w.kernel.fdTable event.fd = some i) :
    (handleEvent env event).Ensures (fun _ => True) w (fun _ w' => w'.Noted i)
      fun _ w' => w'.Noted i := by
  obtain ⟨hw, -, hresting⟩ := h
  have hpending : c.hasPendingWrite = true → (w.kernel.sockets i).history ≠ [] := by
    intro hflag hnone
    refine (hresting event.fd c i hc hi).pending.mp hflag ?_
    rw [hnone]
    rfl
  obtain ⟨s, hget⟩ : ∃ s, getSession event.fd w = some s := by
    simp only [getSession, hc, hi, Option.some.injEq, exists_eq']
  obtain ⟨c', j, hc', hj, hs⟩ := getSession_some hget
  obtain rfl : c = c' := Option.some.inj (hc.symm.trans hc')
  obtain rfl : i = j := Option.some.inj (hi.symm.trans hj)
  have hput : ∀ s' : Session, s'.Noted → (putSession event.fd s' w).Noted i := by
    intro s' hs'
    rw [World.Noted, putSession_sockets hi, Function.update_self]
    exact hs'
  refine ensures_bind ?_
  refine ensures_read ?_
  rw [if_neg hclient, hc]
  simp only
  split
  · refine ensures_bind ?_
    refine ensures_zoom hget (ensures_modify ?_)
    refine noted_closeConnection env (hput _ ?_) event.fd
    exact List.append_ne_nil_of_right_ne_nil _ (List.cons_ne_nil _ _)
  · refine ensures_bind ?_
    refine ensures_zoom hget ((serveClient_notes event.mask ?_).mono ?_ ?_)
    · rw [hs]
      exact hpending
    · intro close s' hs'
      cases close with
      | true => exact noted_closeConnection env (hput s' hs') event.fd
      | false => exact ensures_pure (hput s' hs')
    · intro _ s' hs'
      exact hput s' hs'

end

/-- **No lost wakeup.** Every open connection of a worker that calls
`epoll_wait` is parked. -/
theorem parked_at_epoll_wait {env : Platform} {config : WorkerConfig}
    {store : CampaignStoreSnapshot} (hfit : config.FramesFit) {w : World}
    (hreach : Reaches env config store .epollWait w) {fd : Fd} {c : ConnectionState}
    (hc : w.runtime.connections fd = some c) :
    ∃ i, w.kernel.fdTable fd = some i ∧ Parked env config c (w.kernel.sockets i) := by
  obtain ⟨base, hw, -, hr⟩ := hreach.waitOk hfit
  obtain ⟨i, hi⟩ := hw.descriptor hc
  have hsync := (hw.bound hc hi).sync
  have hrest := hr fd c i hc hi
  have hflag : c.hasPendingWrite = true ↔ c.writeBuffer.readable ≠ [] := by
    rw [hsync.outbox]
    exact hrest.pending
  refine ⟨i, hi, ?_, hflag, ?_, ?_, ?_, fun hidle => (hrest.idle hidle).2⟩
  · rw [hrest.interest]
    rfl
  · rw [← hflag, Socket.awaitsWritable, hrest.interest]
    simp only [Option.some.injEq, exists_eq_left']
    exact (clientEvents_out _).symm
  · rw [hsync.outbox]
    exact outbox_tail hsync.talk
  · intro hidle
    have hhead := (hrest.idle hidle).1
    rw [hsync.readWf.tryExtractFrame_eq, hsync.inbox]
    unfold headOf at hhead
    rw [hhead]

/-- With half a response sent and a second request buffered, the connection
on 5 waits for `EPOLLOUT`. -/
theorem parked_at_epoll_wait_sample : ∃ w c,
    connectionAt ((runWorkerLoop wirePlatform).run (sampleWorld none) sampleAnswers) =
      some (.epollWait, w, c) ∧
    c.hasPendingWrite = true ∧ Parked wirePlatform sampleConfig c (w.kernel.sockets 0) := by
  have hrun : (connectionAt ((runWorkerLoop wirePlatform).run (sampleWorld none)
      sampleAnswers)).any (fun p =>
        (match p.1 with | .epollWait => true | _ => false) && p.2.2.hasPendingWrite) := by
    decide +kernel
  obtain ⟨⟨k, w, c⟩, hat, hp⟩ := (Option.any_eq_true _ _).mp hrun
  rw [Bool.and_eq_true] at hp
  obtain ⟨hk, hpending⟩ := hp
  obtain ⟨hwait, hc, hi⟩ := connectionAt_eq_some hat
  cases k with
  | epollWait =>
      obtain ⟨i, hi', hparked⟩ := parked_at_epoll_wait (by decide)
        ⟨4, 3, {}, none, { reading := fun _ => 0 }, sampleAnswers, hwait⟩ hc
      obtain rfl : 0 = i := Option.some.inj (hi.symm.trans hi')
      exact ⟨w, c, hat, hpending, hparked⟩
  | _ => cases hk

end RtbEngine
