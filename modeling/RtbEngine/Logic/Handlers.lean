import RtbEngine.Logic.Serve

/-!
# What a handler leaves alone

An invariant of a session that looks at the owner of the connection, the clock
and the recorder is kept by every handler, once `process_ready_frames` keeps
it: nothing else of a handler touches these.

* `Aside` — two sessions that differ elsewhere only;
* `maintains_serveClient` — the handler as a whole.
-/

namespace RtbEngine

open Lib Exec

/-- Whose connection it is has not changed. -/
def SameOwner (s s' : Session) : Prop :=
  s'.connection.fd = s.connection.fd ∧ s'.connection.connectionId = s.connection.connectionId

theorem SameOwner.refl (s : Session) : SameOwner s s := ⟨rfl, rfl⟩

theorem SameOwner.trans {s s' s'' : Session} (h : SameOwner s s') (h' : SameOwner s' s'') :
    SameOwner s s'' :=
  ⟨h'.1.trans h.1, h'.2.trans h.2⟩

/-- The owner, the clock and the recorder are the same. -/
structure Aside (s s' : Session) : Prop where
  owner : SameOwner s s'
  clock : s'.clock = s.clock
  recorder : s'.recorder = s.recorder

/-- Calls on the connection. -/
def SessionCall (k : Call) : Prop := k.ofSession = true

section

variable {env : Platform} {config : WorkerConfig} {store : CampaignStoreSnapshot}
  {inv : Session → Prop}

theorem aside_of_fields {s s' : Session} (hfd : s'.connection.fd = s.connection.fd)
    (hid : s'.connection.connectionId = s.connection.connectionId) (hclock : s'.clock = s.clock)
    (hrecorder : s'.recorder = s.recorder) : Aside s s' :=
  ⟨⟨hfd, hid⟩, hclock, hrecorder⟩

section

variable (h : ∀ s s', Aside s s' → inv s → inv s')
include h

theorem maintains_modify_aside {f : Session → Session} (hf : ∀ s, Aside s (f s)) :
    Maintains SessionCall inv (modify f : SessionM Unit) :=
  maintains_modify fun s hs => h s _ (hf s) hs

theorem maintains_note (event : SocketEvent) : Maintains SessionCall inv (note event) :=
  maintains_modify_aside h fun _ => aside_of_fields rfl rfl rfl rfl

theorem maintains_updateClientEvents (enableWrite : Bool) :
    Maintains SessionCall inv (updateClientEvents enableWrite) := by
  refine maintains_ask rfl ?_
  intro s answer ok s' hs hans
  cases answer with
  | controlled granted =>
      cases granted with
      | true => cases hans; exact h s _ (aside_of_fields rfl rfl rfl rfl) hs
      | false => cases hans; exact hs
  | _ => cases hans

/-- The call that `registerClient` makes. -/
theorem maintains_registerCall : Maintains SessionCall inv
    (ask .epollCtl fun s answer =>
      match answer with
      | .controlled true => some (true,
          { s with socket := { s.socket with interest := some (EPOLLIN ||| EPOLLRDHUP) } })
      | .controlled false => some (false, s)
      | _ => none : SessionM Bool) := by
  refine maintains_ask rfl ?_
  intro s answer ok s' hs hans
  cases answer with
  | controlled granted =>
      cases granted with
      | true => cases hans; exact h s _ (aside_of_fields rfl rfl rfl rfl) hs
      | false => cases hans; exact hs
  | _ => cases hans

theorem maintains_writeSocket : Maintains SessionCall inv writeSocket := by
  refine maintains_ask rfl ?_
  intro s answer result s' hs hans
  cases answer with
  | written outcome =>
      cases outcome with
      | ok n =>
          simp only at hans
          split at hans
          · cases hans
            split
            · exact hs
            · exact h s _ (aside_of_fields rfl rfl rfl rfl) hs
          · cases hans
      | error errno => cases hans; exact hs
  | _ => cases hans

theorem maintains_readSocket : Maintains SessionCall inv readSocket := by
  refine maintains_ask rfl ?_
  intro s answer result s' hs hans
  cases answer with
  | readBytes outcome =>
      cases outcome with
      | ok bytes =>
          simp only at hans
          split at hans
          · cases hans
            exact h s _ (aside_of_fields rfl rfl rfl rfl) hs
          · cases hans
      | error errno => cases hans; exact h s _ (aside_of_fields rfl rfl rfl rfl) hs
  | _ => cases hans

theorem maintains_flushRound (u : Unit) : Maintains SessionCall inv (flushRound u) := by
  refine maintains_bind maintains_read fun s => maintains_ite ?_ (maintains_pure _)
  refine maintains_bind (maintains_writeSocket h) fun result => ?_
  cases result with
  | ok n =>
      refine maintains_ite (maintains_bind ?_ fun _ => maintains_pure _) (maintains_pure _)
      exact maintains_modify_aside h fun _ => aside_of_fields rfl rfl rfl rfl
  | error errno => cases errno <;> exact maintains_pure _

theorem maintains_flushPendingWrite : Maintains SessionCall inv (flushPendingWrite config) := by
  refine maintains_bind (maintains_loop productive_flushRound (maintains_flushRound h) ())
    fun drained => maintains_ite ?_ (maintains_pure _)
  refine maintains_bind (maintains_modify_aside h fun _ => aside_of_fields rfl rfl rfl rfl) fun _ => ?_
  refine maintains_bind maintains_read fun s => ?_
  refine maintains_bind (maintains_updateClientEvents h _) fun granted =>
    maintains_ite (maintains_bind (maintains_modify_aside h ?_) fun _ => maintains_pure _) (maintains_pure _)
  -- waking the server does not touch the connection
  intro s
  split
  · unfold signalShutdownFd
    split <;> exact aside_of_fields rfl rfl rfl rfl
  · exact aside_of_fields rfl rfl rfl rfl

theorem maintains_finishFrame (frame : FrameView) (response : BidResponse)
    (timing : RequestTimingBreakdown) (s : Session) (hs : inv (s.recordRequest timing)) :
    (finishFrame frame response timing).Ensures (fun _ => True) s (fun _ s' => inv s')
      fun k s' => SessionCall k ∧ inv s' := by
  refine ensures_bind ?_
  refine ensures_modify ?_
  have hrest : Maintains SessionCall inv (do
      modify fun s => s.setReadBuffer
        (s.connection.readBuffer.consumeFrame frame.totalFrameBytes.toNat)
      modify fun s => s.setPendingWrite true
      note (.staged frame.payload response)
      if ← updateClientEvents true then pure ProcessFramesOutcome.pauseForWrite
      else pure .closeConnection) := by
    refine maintains_bind (maintains_modify_aside h fun _ => aside_of_fields rfl rfl rfl rfl) fun _ => ?_
    refine maintains_bind (maintains_modify_aside h fun _ => aside_of_fields rfl rfl rfl rfl) fun _ => ?_
    refine maintains_bind (maintains_note h _) fun _ => ?_
    exact maintains_bind (maintains_updateClientEvents h _) fun _ =>
      maintains_ite (maintains_pure _) (maintains_pure _)
  exact hrest _ hs

theorem maintains_makeRoom : Maintains SessionCall inv makeRoom := by
  refine maintains_bind maintains_read fun s => maintains_ite ?_ (maintains_pure _)
  refine maintains_bind (maintains_modify_aside h fun _ => aside_of_fields rfl rfl rfl rfl) fun _ => ?_
  exact maintains_bind maintains_read fun s =>
    maintains_ite (maintains_bind (maintains_note h _) fun _ => maintains_pure _) (maintains_pure _)

variable (hprocess : Maintains SessionCall inv (processReadyFrames env config store))
include hprocess

theorem maintains_readRound (u : Unit) : Maintains SessionCall inv (readRound env config store u) := by
  refine maintains_bind (maintains_makeRoom h) fun room => maintains_ite ?_ (maintains_pure _)
  refine maintains_bind (maintains_readSocket h) fun result => ?_
  cases result with
  | ok n =>
      refine maintains_ite ?_ (maintains_pure _)
      refine maintains_bind (maintains_modify_aside h fun _ => aside_of_fields rfl rfl rfl rfl) fun _ => ?_
      refine maintains_bind hprocess fun outcome => ?_
      cases outcome <;> exact maintains_pure _
  | error errno => cases errno <;> exact maintains_pure _

/-- **A handler** keeps what `process_ready_frames` keeps. -/
theorem maintains_serveClient (mask : UInt32) :
    Maintains SessionCall inv (serveClient env config store mask) := by
  have hframes : Maintains SessionCall inv (serveFrames env config store) := by
    refine maintains_bind hprocess fun outcome => ?_
    cases outcome with
    | «continue» => exact maintains_loop productive_readRound (maintains_readRound h hprocess) ()
    | pauseForWrite => exact maintains_pure _
    | closeConnection => exact maintains_pure _
  refine maintains_bind maintains_read fun s => maintains_ite ?_ hframes
  refine maintains_bind ?_ fun flushed => maintains_ite ?_ (maintains_pure _)
  · exact maintains_ite (maintains_flushPendingWrite h) (maintains_pure _)
  · exact maintains_bind maintains_read fun s => maintains_ite (maintains_pure _) hframes

end

end

end RtbEngine
