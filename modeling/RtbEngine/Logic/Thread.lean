import RtbEngine.Engine.Thread
import RtbEngine.Logic.Oblivious
import RtbEngine.Logic.Steps
import RtbEngine.Logic.Worker

/-!
# The stages are the loop

A stage followed by the loop from the stage it leads to is the loop from the
stage itself (`rest_next`), so a thread that is stopped between two stages
has so far done what `run_worker_loop` does on the answers it has had
(`Stage.next_done`, `Stage.next_waiting`). A stage commutes with forgetting
the shared state and goes by steps of the worker, as the loop does.
-/

namespace RtbEngine

open Lib Exec Relation

section

variable {env : Platform} {w w' : World} {is rest : List Answer}

/-! ## The client branch in two parts -/

/-- The branch is the flush, then the frames. -/
theorem serveClient_eq (env : Platform) (config : WorkerConfig) (store : CampaignStoreSnapshot)
    (mask : UInt32) : serveClient env config store mask =
      (flushClient config mask >>= fun flushed =>
        match flushed with
        | some close => pure close
        | none => serveFrames env config store) := by
  unfold serveClient flushClient
  simp only [bind_assoc]
  refine bind_congr fun s => ?_
  split
  · simp only [bind_assoc]
    refine bind_congr fun flushed => ?_
    cases flushed with
    | false => rfl
    | true =>
        simp only [if_true, bind_assoc]
        refine bind_congr fun s => ?_
        split <;> rfl
  · rfl

/-- Handlers on a connection, one after the other. -/
theorem run_onConnection_bind {α β : Type} {fd : Fd} {s : Session} (hget : getSession fd w = some s)
    (m : SessionM α) (f : α → SessionM β) (is : List Answer) :
    (onConnection fd (m >>= f)).run w is =
      (onConnection fd m >>= fun a => onConnection fd (f a)).run w is :=
  run_zoom_bind hget (fun _ => getSession_putSession hget)
    (fun t' _ => putSession_putSession hget t') is

/-- A handler leaves everything but its session. -/
theorem run_onConnection_done {α : Type} {fd : Fd} {m : SessionM α} {a : α}
    (h : (onConnection fd m).run w is = .done a w' rest) :
    (getSession fd w).isSome = true ∧ ∃ s', w' = putSession fd s' w ∧
      getSession fd w' = some s' := by
  unfold onConnection at h
  cases hget : getSession fd w with
  | none => simp only [zoom, hget] at h; cases h
  | some s =>
      simp only [zoom, hget] at h
      cases hm : m.run s is with
      | done b s' rest' =>
          rw [hm] at h
          cases h
          exact ⟨rfl, s', rfl, getSession_putSession hget⟩
      | waiting k s' => rw [hm] at h; cases h
      | spinning s' => rw [hm] at h; cases h

/-! ## One stage, then the rest -/

/-- The client branch of `handle_event`, cut at the frame check. -/
theorem run_client_cut (env : Platform) (w : World) (fd : Fd) (mask : UInt32)
    (events : List EpollEvent) (is : List Answer) :
    (onConnection fd (serveClient env w.runtime.config w.runtime.campaignStore mask) >>=
        fun close => endClient fd close >>= fun _ => afterBatch env events).run w is =
      (onConnection fd (flushClient w.runtime.config mask) >>= fun flushed =>
        (match flushed with
        | some close => endClient fd close >>= fun _ => pure (Stage.batch events)
        | none => pure (.serving fd events)) >>= Stage.rest env).run w is := by
  cases hget : getSession fd w with
  | none =>
      have hlost : ∀ {α β : Type} (m : SessionM α) (f : α → WorkerM β),
          (onConnection fd m >>= f).run w is = .waiting (.badDescriptor fd) w := by
        intro α β m f
        rw [run_bind]
        simp only [onConnection, zoom, hget]
        rfl
      rw [hlost, hlost]
  | some s =>
      rw [serveClient_eq, run_bind, run_onConnection_bind hget]
      rw [run_bind, run_bind]
      cases hflush : (onConnection fd (flushClient w.runtime.config mask)).run w is with
      | waiting k w1 => rfl
      | spinning w1 => rfl
      | done flushed w1 rest1 =>
          obtain ⟨-, s1, hw1, hget1⟩ := run_onConnection_done hflush
          simp only [Outcome.andThen]
          cases flushed with
          | some close =>
              have hpure : (onConnection fd (pure close : SessionM Bool)).run w1 rest1 =
                  .done close w1 rest1 := by
                simp only [onConnection, zoom, hget1, run_pure]
                rw [putSession_getSession hget1]
              simp only [hpure, bind_assoc, pure_bind]
              rfl
          | none =>
              -- the second part reads the configuration again: the flush left it alone
              have hconfig : w1.runtime.config = w.runtime.config := by rw [hw1]; rfl
              have hstore : w1.runtime.campaignStore = w.runtime.campaignStore := by rw [hw1]; rfl
              rw [← hconfig, ← hstore]
              simp only [pure_bind]
              rfl

/-- An event is its branch, then the rest of the batch. -/
theorem run_dispatchEvent (env : Platform) (w : World) (event : EpollEvent)
    (events : List EpollEvent) (is : List Answer) :
    (handleEvent env event >>= fun _ => afterBatch env events).run w is =
      (dispatchEvent event events >>= Stage.rest env).run w is := by
  unfold handleEvent dispatchEvent
  rw [bind_assoc, bind_assoc, run_read_bind, run_read_bind]
  split
  · rw [pure_bind]
    rfl
  · cases w.runtime.connections event.fd with
    | none => simp only [pure_bind]; rfl
    | some c =>
        simp only
        split
        · simp only [bind_assoc, pure_bind]
          rfl
        · rw [bind_assoc, bind_assoc]
          exact run_client_cut env w event.fd event.mask events is

/-- **The stages are the loop.** -/
theorem rest_next (env : Platform) (stage : Stage) (w : World) (is : List Answer) :
    (stage.rest env).run w is = (stage.next env >>= Stage.rest env).run w is := by
  cases stage with
  | waiting =>
      show (loop (epollRound env) ()).run w is = _
      rw [loop_unfold (productive_epollRound env)]
      unfold epollRound Stage.next
      rw [run_bind, run_bind, run_bind]
      cases epollWait.run w is with
      | waiting k w1 => rfl
      | spinning w1 => rfl
      | done result w1 rest1 =>
          cases result with
          | error errno => rfl
          | ok events =>
              show Outcome.andThen ((handleBatch env events >>= _).run w1 rest1) _ =
                (afterBatch env events).run w1 rest1
              unfold afterBatch
              rw [run_bind, run_bind]
              cases (handleBatch env events).run w1 rest1 with
              | waiting k w2 => rfl
              | spinning w2 => rfl
              | done stop w2 rest2 => cases stop <;> rfl
  | batch events =>
      cases events with
      | nil => rfl
      | cons event events =>
          show (handleBatch env (event :: events) >>= _).run w is = _
          unfold handleBatch Stage.next
          simp only [bind_assoc]
          refine congrArg (fun m : WorkerM Int => m.run w is) ?_
          refine bind_congr fun _ => ?_
          refine ext_run fun w1 is1 => ?_
          rw [run_read_bind, run_read_bind]
          split
          · rfl
          · rw [bind_assoc]
            exact run_dispatchEvent env w1 event events is1
  | accepting events =>
      show (loop acceptRound () >>= fun _ => afterBatch env events).run w is = _
      rw [run_bind, loop_unfold productive_acceptRound]
      unfold Stage.next
      rw [run_bind, run_bind]
      cases (acceptRound ()).run w is with
      | waiting k w1 => rfl
      | spinning w1 => rfl
      | done turn w1 rest1 => cases turn <;> rfl
  | serving fd events =>
      unfold Stage.rest Stage.next
      simp only [bind_assoc, pure_bind]
  | returned result => rfl

/-- A stage that ended: the rest goes on from there. -/
theorem Stage.next_done {stage stage' : Stage} (h : (stage.next env).run w is = .done stage' w' [])
    (more : List Answer) :
    (stage.rest env).run w (is ++ more) = (stage'.rest env).run w' more := by
  rw [rest_next, run_bind, (stage.next env).extend _ _ _ _ _ h more]
  rfl

/-- A stage that did not end: neither did the loop. -/
theorem Stage.next_waiting {stage : Stage} {k : Call}
    (h : (stage.next env).run w is = .waiting k w') :
    (stage.rest env).run w is = .waiting k w' := by
  rw [rest_next, run_bind, h]
  rfl

/-! ## Forgetting, and steps -/

theorem transports_endClient (fd : Fd) (close : Bool) :
    Transports World.forget (endClient fd close) (endClient fd close) :=
  transports_ite (transports_closeConnection fd) (transports_pure _)

theorem transports_afterBatch (env : Platform) (events : List EpollEvent) :
    Transports World.forget (afterBatch env events) (afterBatch env events) :=
  transports_bind (transports_handleBatch env events) fun _ =>
    transports_ite (transports_pure _) (transports_runWorkerLoop env)

/-- The shared state decides nothing from any stage on. -/
theorem transports_rest (env : Platform) (stage : Stage) :
    Transports World.forget (stage.rest env) (stage.rest env) := by
  cases stage with
  | waiting => exact transports_runWorkerLoop env
  | batch events => exact transports_afterBatch env events
  | accepting events =>
      exact transports_bind (transports_loop transports_acceptRound ()) fun _ =>
        transports_afterBatch env events
  | serving fd events =>
      refine transports_read_bind fun w is => ?_
      exact transports_bind (transports_onConnection fd transports_serveFrames) (fun close =>
        transports_bind (transports_endClient fd close) fun _ =>
          transports_afterBatch env events) w is
  | returned result => exact transports_pure result

theorem follows_flushClient {config : WorkerConfig} {store : CampaignStoreSnapshot}
    (mask : UInt32) : Follows (SessionStep env config store) (flushClient config mask) := by
  refine follows_bind follows_read fun s => follows_ite ?_ (follows_pure _)
  refine follows_bind ?_ fun flushed => follows_ite ?_ (follows_pure _)
  · exact follows_ite follows_flushPendingWrite (follows_pure _)
  · exact follows_bind follows_read fun s => follows_ite (follows_pure _) (follows_pure _)

theorem follows_nextEvent {step : World → World → Prop} (events : List EpollEvent) :
    Follows step (nextEvent events) := by
  refine follows_ask ?_
  intro w answer u w' hans
  cases answer with
  | go => cases hans; exact .refl
  | _ => cases hans

theorem follows_epollWait {step : World → World → Prop} : Follows step epollWait := by
  refine follows_ask ?_
  intro w answer result w' hans
  cases answer with
  | events outcome =>
      cases outcome with
      | ok batch =>
          simp only at hans
          split at hans
          · cases hans; exact .refl
          · cases hans
      | error errno => cases hans; exact .refl
  | _ => cases hans

section

variable {step : World → World → Prop} (hstep : ClientSteps env step)

include hstep

theorem follows_endClient (fd : Fd) (close : Bool) : Follows step (endClient fd close) :=
  follows_ite (follows_closeConnection hstep fd) (follows_pure _)

/-- A handler, then the end of its branch. -/
theorem follows_branch {α : Type} {fd : Fd} {m : SessionM α} {f : α → WorkerM Stage} {w : World}
    (hm : Follows (SessionStep env w.runtime.config w.runtime.campaignStore) m)
    (hf : ∀ a, Follows step (f a)) :
    (onConnection fd m >>= f).Ensures (fun _ => True) w (fun _ w' => ReflTransGen step w w')
      fun _ w' => ReflTransGen step w w' := by
  refine ensures_bind ?_
  refine (onConnection_chain hstep hm).weaken ?_
  intro a w1 h1
  refine ((hf a).ensures w1).mono ?_ ?_
  · intro _ w2 h2
    exact h1.trans h2
  · intro _ w2 h2
    exact h1.trans h2

theorem follows_close (fd : Fd) (close : Bool) (events : List EpollEvent) :
    Follows step (endClient fd close >>= fun _ => pure (Stage.batch events)) :=
  follows_bind (follows_endClient hstep fd close) fun _ => follows_pure _

theorem follows_dispatchEvent (event : EpollEvent) (events : List EpollEvent) :
    Follows step (dispatchEvent event events) := by
  refine Follows.of_ensures fun w => ?_
  refine ensures_bind ?_
  refine ensures_read ?_
  split
  · exact ensures_pure .refl
  · cases w.runtime.connections event.fd with
    | none => exact ensures_pure .refl
    | some c =>
        simp only
        split
        · exact (follows_bind (follows_hangUp hstep event) fun _ => follows_pure _).ensures w
        · refine follows_branch hstep (follows_flushClient event.mask) fun flushed => ?_
          cases flushed with
          | none => exact follows_pure _
          | some close => exact follows_close hstep event.fd close events

/-- A stage that accepts no client. -/
theorem follows_next_of_clientSteps {stage : Stage} (hstage : ∀ events, stage ≠ .accepting events) :
    Follows step (stage.next env) := by
  cases stage with
  | waiting =>
      refine follows_bind follows_epollWait fun result => ?_
      cases result <;> exact follows_pure _
  | batch events =>
      cases events with
      | nil => exact follows_pure _
      | cons event events =>
          exact follows_bind (follows_nextEvent _) fun _ => follows_bind follows_read fun w =>
            follows_ite (follows_pure _) (follows_dispatchEvent hstep event events)
  | accepting events => exact absurd rfl (hstage events)
  | serving fd events =>
      refine Follows.of_ensures fun w => ?_
      refine ensures_bind ?_
      refine ensures_read ?_
      exact follows_branch hstep follows_serveFrames fun close =>
        follows_close hstep fd close events
  | returned result => exact follows_pure _

end

/-- **A stage goes by steps of the worker.** -/
theorem follows_next (env : Platform) (stage : Stage) :
    Follows (WorldStep env) (stage.next env) := by
  cases stage with
  | accepting events =>
      refine follows_bind (follows_acceptRound env ()) fun turn => ?_
      cases turn <;> exact follows_pure _
  | _ => exact follows_next_of_clientSteps (clientSteps_worldStep env) fun _ h => by cases h

/-! ## What a stage does to the shared state -/

/-- The recorder with more requests. -/
def BenchmarkRecorder.extend (r : BenchmarkRecorder) (timings : List RequestTimingBreakdown) :
    BenchmarkRecorder :=
  { r with requests := r.requests ++ timings }

/-- A recorder that has reached its limit stays there. -/
theorem BenchmarkRecorder.requestLimitReached_extend {r : BenchmarkRecorder}
    (h : r.requestLimitReached = true) (timings : List RequestTimingBreakdown) :
    (r.extend timings).requestLimitReached = true := by
  unfold requestLimitReached completedRequests at h ⊢
  rw [Bool.and_eq_true] at h ⊢
  refine ⟨h.1, decide_eq_true ?_⟩
  rw [extend, List.length_append]
  exact Nat.le_trans (of_decide_eq_true h.2) (Nat.le_add_right _ _)

theorem BenchmarkRecorder.any_extend {recorder : Option BenchmarkRecorder}
    (h : recorder.any (·.requestLimitReached) = true) (timings : List RequestTimingBreakdown) :
    (recorder.map (·.extend timings)).any (·.requestLimitReached) = true := by
  cases recorder with
  | none => cases h
  | some r => exact BenchmarkRecorder.requestLimitReached_extend h timings

/-- A worker records what it stages, and wakes the others for the limit only. -/
structure Shares (w w' : World) : Prop where
  owned : Owned w'
  worker : SameWorker w w'
  recorded : ∃ timings, w'.runtime.benchmarkRecorder =
      w.runtime.benchmarkRecorder.map (·.extend timings) ∧
    w'.kernel.stagedTotal = w.kernel.stagedTotal + timings.length
  signals : w.kernel.shutdownSignals ≤ w'.kernel.shutdownSignals
  reason : w.kernel.shutdownSignals < w'.kernel.shutdownSignals →
    w'.runtime.benchmarkRecorder.any (·.requestLimitReached) = true

theorem extend_nil (recorder : Option BenchmarkRecorder) :
    recorder.map (·.extend []) = recorder := by
  cases recorder with
  | none => rfl
  | some r => simp [BenchmarkRecorder.extend]

theorem Shares.refl (hw : Owned w) : Shares w w where
  owned := hw
  worker := SameWorker.refl w
  recorded := ⟨[], (extend_nil _).symm, rfl⟩
  signals := Nat.le_refl _
  reason := fun hlt => absurd hlt (Nat.lt_irrefl _)

theorem Shares.trans {w1 w2 : World} (h : Shares w w1) (h' : Shares w1 w2) : Shares w w2 := by
  obtain ⟨timings, hrecorder, hstaged⟩ := h.recorded
  obtain ⟨timings', hrecorder', hstaged'⟩ := h'.recorded
  refine ⟨h'.owned, h.worker.trans h'.worker, ⟨timings ++ timings', ?_, ?_⟩,
    Nat.le_trans h.signals h'.signals, ?_⟩
  · rw [hrecorder', hrecorder]
    cases w.runtime.benchmarkRecorder <;> simp [BenchmarkRecorder.extend]
  · rw [hstaged', hstaged, List.length_append, Nat.add_assoc]
  · intro hlt
    by_cases hmid : w1.kernel.shutdownSignals < w2.kernel.shutdownSignals
    · exact h'.reason hmid
    · rw [hrecorder']
      have hsame := Nat.le_antisymm h'.signals (Nat.le_of_not_lt hmid)
      exact BenchmarkRecorder.any_extend (h.reason (by omega)) timings'

/-- The responses on all sockets when one history is replaced. -/
theorem stagedTotal_putSession {fd : Fd} {i : Nat} (hi : w.kernel.fdTable fd = some i)
    (hlt : i < w.kernel.accepted) (s : Session) :
    (putSession fd s w).kernel.stagedTotal =
      w.kernel.stagedElsewhere i + (stagedResponses s.socket.history).length := by
  have hsock := putSession_sockets (s := s) hi
  rw [@Kernel.stagedTotal_eq (putSession fd s w).kernel _ hlt]
  have hself : (putSession fd s w).kernel.staged i = (stagedResponses s.socket.history).length := by
    rw [Kernel.staged, hsock, Function.update_self]
  have hothers : (putSession fd s w).kernel.stagedElsewhere i = w.kernel.stagedElsewhere i := by
    apply Finset.sum_congr rfl
    intro j hj
    rw [Kernel.staged, hsock, Function.update_of_ne (Finset.ne_of_mem_erase hj)]
    rfl
  rw [hself, hothers]

theorem stagedTotal_enter (w : World) (fd : Fd) :
    (w.enter fd).kernel.stagedTotal = w.kernel.stagedTotal := by
  have hothers : ∀ j ∈ Finset.range w.kernel.accepted,
      (w.enter fd).kernel.staged j = w.kernel.staged j := by
    intro j hj
    have hne : j ≠ w.kernel.accepted := Nat.ne_of_lt (Finset.mem_range.mp hj)
    show (stagedResponses ((Function.update w.kernel.sockets w.kernel.accepted {}) j).history).length
      = _
    rw [Function.update_of_ne hne]
    rfl
  have hnew : (w.enter fd).kernel.staged w.kernel.accepted = 0 := by
    show (stagedResponses
      ((Function.update w.kernel.sockets w.kernel.accepted {}) w.kernel.accepted).history).length = 0
    rw [Function.update_self]
    rfl
  have haccepted : (w.enter fd).kernel.accepted = w.kernel.accepted + 1 := rfl
  rw [Kernel.stagedTotal, Kernel.stagedTotal, haccepted, Finset.sum_range_succ, hnew, Nat.add_zero]
  exact Finset.sum_congr rfl hothers

theorem Kernel.stagedTotal_close (k : Kernel) (fd : Fd) :
    (k.close fd).stagedTotal = k.stagedTotal := by
  rw [stagedTotal, stagedTotal, Kernel.close_accepted]
  refine Finset.sum_congr rfl fun j _ => ?_
  cases hi : k.fdTable fd with
  | none =>
      unfold Kernel.close
      rw [hi]
  | some i =>
      rw [staged, staged, Kernel.close_sockets hi j]

theorem stagedResponses_append (h h' : List SocketEvent) :
    stagedResponses (h ++ h') = stagedResponses h ++ stagedResponses h' :=
  List.filterMap_append

theorem stagedResponses_parsed (payload : Bytes) (h : List SocketEvent) :
    stagedResponses (.parsed payload :: h) = stagedResponses h := rfl

/-- **One step.** -/
theorem WorldStep.shares (h : WorldStep env w w') (hw : Owned w) : Shares w w' := by
  refine ⟨h.owned hw, h.worker.1, ?_, ?_, ?_⟩
  · cases h with
    | session fd s s' hget hstep =>
        obtain ⟨c, i, -, hi, hs⟩ := getSession_some hget
        have hrecorder : s.recorder = w.runtime.benchmarkRecorder := by rw [hs]
        have hbefore : w.kernel.stagedTotal =
            w.kernel.stagedElsewhere i + (stagedResponses s.socket.history).length := by
          rw [Kernel.stagedTotal_eq (hw.below hi), hs]
          rfl
        have hafter := stagedTotal_putSession hi (hw.below hi) s'
        -- the history may go on with nothing staged, or with one response and its record
        have hquiet : s'.recorder = s.recorder →
            stagedResponses s'.socket.history = stagedResponses s.socket.history →
            ∃ timings, s'.recorder = w.runtime.benchmarkRecorder.map (·.extend timings) ∧
              (putSession fd s' w).kernel.stagedTotal = w.kernel.stagedTotal + timings.length := by
          intro hsame hstaged
          refine ⟨[], ?_, ?_⟩
          · rw [hsame, hrecorder, extend_nil]
          · rw [hafter, hbefore, hstaged]
            rfl
        show ∃ timings, s'.recorder = _ ∧ _
        cases hstep with
        | moved hmoved =>
            refine hquiet hmoved.recorder ?_
            rcases hmoved.history with hsame | ⟨event, hevent, hsame⟩
            · rw [hsame]
            · rw [hsame, stagedResponses_append]
              cases event <;> first | exact List.append_nil _ | cases hevent
        | woken hwoken =>
            rw [hwoken.session] at hquiet ⊢
            refine hquiet ?_ ?_ <;> unfold signalShutdownFd <;> split <;> rfl
        | unparsed payload hunparsed =>
            refine hquiet hunparsed.recorder ?_
            rw [hunparsed.history, stagedResponses_append]
            exact List.append_nil _
        | request request hrequest =>
            have hstaged : stagedResponses s'.socket.history =
                stagedResponses s.socket.history ++ stagedResponses (answerEvents env s.connection
                  request.payload (request.result env w.runtime.campaignStore s.rng)) := by
              rw [hrequest.history, stagedResponses_append, stagedResponses_parsed]
            rcases hrequest.recorder with ⟨hnone, hsame⟩ | ⟨timing, hone, hrecorded⟩
            · refine hquiet hsame ?_
              rw [hstaged, hnone, List.append_nil]
            · refine ⟨[timing], ?_, ?_⟩
              · rw [hrecorded, hrecorder]
                rfl
              · rw [hafter, hbefore, hstaged, hone, List.length_append]
                rfl
    | entered fd h0 hnew hapart => exact ⟨[], (extend_nil _).symm, stagedTotal_enter w fd⟩
    | dropped fd hopen => exact ⟨[], (extend_nil _).symm, w.kernel.stagedTotal_close fd⟩
  · cases h with
    | session fd s s' hget hstep =>
        obtain ⟨c, i, -, hi, hs⟩ := getSession_some hget
        have hsignals : s.shutdownSignals = w.kernel.shutdownSignals := by rw [hs]
        show w.kernel.shutdownSignals ≤ s'.shutdownSignals
        rw [← hsignals]
        cases hstep with
        | moved hmoved => exact Nat.le_of_eq hmoved.shutdownSignals.symm
        | woken hwoken =>
            rw [hwoken.session]
            unfold signalShutdownFd
            split
            · exact Nat.le_refl _
            · exact Nat.le_succ _
        | unparsed payload hunparsed => exact Nat.le_of_eq hunparsed.shutdownSignals.symm
        | request request hrequest => exact Nat.le_of_eq hrequest.shutdownSignals.symm
    | entered fd h0 hnew hapart => exact Nat.le_refl _
    | dropped fd hopen =>
        show _ ≤ (w.kernel.close fd).shutdownSignals
        unfold Kernel.close
        split <;> exact Nat.le_refl _
  · cases h with
    | session fd s s' hget hstep =>
        obtain ⟨c, i, -, hi, hs⟩ := getSession_some hget
        have hsignals : s.shutdownSignals = w.kernel.shutdownSignals := by rw [hs]
        show w.kernel.shutdownSignals < s'.shutdownSignals → s'.recorder.any _ = true
        rw [← hsignals]
        intro hlt
        cases hstep with
        | moved hmoved => exact absurd hmoved.shutdownSignals (Nat.ne_of_gt hlt)
        | woken hwoken =>
            have hrecorder : s'.recorder = s.recorder := by
              rw [hwoken.session]
              unfold signalShutdownFd
              split <;> rfl
            rw [hrecorder]
            exact hwoken.reached
        | unparsed payload hunparsed => exact absurd hunparsed.shutdownSignals (Nat.ne_of_gt hlt)
        | request request hrequest => exact absurd hrequest.shutdownSignals (Nat.ne_of_gt hlt)
    | entered fd h0 hnew hapart => exact fun hlt => absurd hlt (Nat.lt_irrefl _)
    | dropped fd hopen =>
        show _ < (w.kernel.close fd).shutdownSignals → _
        unfold Kernel.close
        split <;> exact fun hlt => absurd hlt (Nat.lt_irrefl _)

/-- **A stage**, wherever it has got to. -/
theorem shares_next (env : Platform) (stage : Stage) (hw : Owned w) (is : List Answer) :
    Shares w ((stage.next env).run w is).state := by
  have hkept : ∀ w1 w2, Shares w w1 → WorldStep env w1 w2 → Shares w w2 :=
    fun w1 w2 h1 h12 => h1.trans (h12.shares h1.owned)
  exact chain_invariant (Shares w) hkept (Shares.refl hw) ((follows_next env stage).state w is)

/-! ## Where a stage leads -/

/-- The events that a stage has still to look at. -/
def Stage.pending : Stage → List EpollEvent
  | .batch events | .accepting events | .serving _ events => events
  | .waiting | .returned _ => []

def Stage.hasReturned : Stage → Bool
  | .returned _ => true
  | _ => false

/-- An event is passed over, whatever its branch does. -/
theorem dispatchEvent_pending (env : Platform) (w : World) (event : EpollEvent)
    (events : List EpollEvent) :
    (dispatchEvent event events).Ensures (fun _ => True) w
      (fun stage _ => stage.pending = events ∧ stage.hasReturned = false) fun _ _ => True := by
  refine ensures_bind ?_
  refine ensures_read ?_
  split
  · exact ensures_pure ⟨rfl, rfl⟩
  · cases w.runtime.connections event.fd with
    | none => exact ensures_pure ⟨rfl, rfl⟩
    | some c =>
        simp only
        split
        · refine ensures_bind ?_
          refine ((follows_hangUp (clientSteps_worldStep env) event).ensures w).mono ?_ fun _ _ _ => trivial
          intro _ w1 _
          exact ensures_pure ⟨rfl, rfl⟩
        · refine ensures_bind ?_
          have hflush := @onConnection_chain env w event.fd _ _ _ (clientSteps_worldStep env)
            (follows_flushClient event.mask)
          refine hflush.mono ?_ fun _ _ _ => trivial
          intro flushed w1 _
          cases flushed with
          | none => exact ensures_pure ⟨rfl, rfl⟩
          | some close =>
              refine ensures_bind ?_
              refine ((follows_endClient (clientSteps_worldStep env) event.fd close).ensures w1).mono ?_ fun _ _ _ => trivial
              intro _ w2 _
              exact ensures_pure ⟨rfl, rfl⟩

/-- What a stage may lead to on the answers `is`. -/
structure LeadsTo (w : World) (is : List Answer) (stage stage' : Stage) : Prop where
  pending : ∀ event ∈ stage'.pending, event ∈ stage.pending ∨
    ∃ events, .events (.ok events) ∈ is ∧ event ∈ events
  returned : stage'.hasReturned = true → stage.hasReturned = true ∨
    ∃ event ∈ stage.pending, event.fd = w.runtime.config.shutdownFd
  result : ∀ n, stage' = .returned n → stage = .returned n ∨ n = 0

/-- The stages that only pass over events. -/
theorem LeadsTo.passed {stage stage' : Stage} {events : List EpollEvent}
    (hpending : stage'.pending = events) (hno : stage'.hasReturned = false)
    (hsub : ∀ event ∈ events, event ∈ stage.pending) : LeadsTo w is stage stage' where
  pending := fun event he => .inl (hsub event (hpending ▸ he))
  returned := fun hyes => by simp [hno] at hyes
  result := fun n hn => by simp [hn, Stage.hasReturned] at hno

/-- A stage adds events only when it waits for them, and the loop returns only
at the event of the shutdown descriptor. -/
theorem next_leadsTo {stage stage' : Stage}
    (h : (stage.next env).run w is = .done stage' w' rest) : LeadsTo w is stage stage' := by
  cases stage with
  | waiting =>
      unfold Stage.next at h
      rw [run_bind] at h
      cases is with
      | nil => cases h
      | cons answer is =>
          cases answer with
          | events outcome =>
              cases outcome with
              | error errno =>
                  cases h
                  exact .passed rfl rfl fun _ he => absurd he List.not_mem_nil
              | ok events =>
                  by_cases hlen : events.length ≤ w.runtime.config.epollMaxEvents
                  · simp only [epollWait, ask, if_pos hlen, Outcome.andThen] at h
                    cases h
                    exact ⟨fun event he => .inr ⟨events, List.mem_cons_self, he⟩,
                      (fun hyes => by cases hyes), fun n hn => by cases hn⟩
                  · simp only [epollWait, ask, if_neg hlen, Outcome.andThen] at h
                    cases h
          | _ => cases h
  | batch events =>
      cases events with
      | nil =>
          cases h
          exact .passed rfl rfl fun _ he => absurd he List.not_mem_nil
      | cons event events =>
          have hbatch : ((Stage.batch (event :: events)).next env).Ensures (fun _ => True) w
              (fun stage _ => (stage.pending = events ∧ stage.hasReturned = false) ∨
                (stage = .returned 0 ∧ event.fd = w.runtime.config.shutdownFd))
              fun _ _ => True := by
            refine ensures_bind ?_
            refine ensures_ask trivial ?_
            intro answer u w1 _ hans
            cases answer with
            | go =>
                cases hans
                refine ensures_bind ?_
                refine ensures_read ?_
                split
                · rename_i hshutdown
                  exact ensures_pure (.inr ⟨rfl, hshutdown⟩)
                · exact (dispatchEvent_pending env w event events).weaken fun _ _ h => .inl h
            | _ => cases hans
          rcases hbatch.done (fun _ _ => trivial) h with ⟨hpending, hno⟩ | ⟨rfl, hshutdown⟩
          · exact .passed hpending hno fun e he => List.mem_cons_of_mem event he
          · exact ⟨fun e he => absurd he List.not_mem_nil,
              fun _ => .inr ⟨event, List.mem_cons_self, hshutdown⟩, fun n hn => .inr (by cases hn; rfl)⟩
  | accepting events =>
      have haccept : ((Stage.accepting events).next env).Ensures (fun _ => True) w
          (fun stage _ => stage.pending = events ∧ stage.hasReturned = false) fun _ _ => True := by
        refine ensures_bind ?_
        refine ((follows_acceptRound env ()).ensures w).mono ?_ fun _ _ _ => trivial
        intro turn w1 _
        cases turn <;> exact ensures_pure ⟨rfl, rfl⟩
      obtain ⟨hpending, hno⟩ := haccept.done (fun _ _ => trivial) h
      exact .passed hpending hno fun e he => he
  | serving fd events =>
      have hserve : ((Stage.serving fd events).next env).Ensures (fun _ => True) w
          (fun stage _ => stage.pending = events ∧ stage.hasReturned = false) fun _ _ => True := by
        refine ensures_bind ?_
        refine ensures_read ?_
        refine ensures_bind ?_
        refine (@onConnection_chain env w fd Bool _ _ (clientSteps_worldStep env)
          follows_serveFrames).mono ?_ fun _ _ _ => trivial
        intro close w1 _
        refine ensures_bind ?_
        refine ((follows_endClient (clientSteps_worldStep env) fd close).ensures w1).mono ?_ fun _ _ _ => trivial
        intro _ w2 _
        exact ensures_pure ⟨rfl, rfl⟩
      obtain ⟨hpending, hno⟩ := hserve.done (fun _ _ => trivial) h
      exact .passed hpending hno fun e he => he
  | returned result =>
      cases h
      exact ⟨fun e he => absurd he List.not_mem_nil, fun _ => .inl rfl, fun n hn => .inl hn⟩

/-! ## Descriptors -/

/-- No descriptor of a client that was not there before. -/
def Shrinks (w w' : World) : Prop :=
  ∀ fd, (w'.kernel.fdTable fd).isSome = true → (w.kernel.fdTable fd).isSome = true

theorem World.dropConnection_open {fd fd' : Fd}
    (h : ((w.dropConnection fd).kernel.fdTable fd').isSome = true) :
    (w.kernel.fdTable fd').isSome = true := by
  obtain ⟨j, hj⟩ := Option.isSome_iff_exists.mp h
  exact Option.isSome_iff_exists.mpr ⟨j, (World.dropConnection_fdTable hj).2⟩

theorem clientSteps_shrinks (env : Platform) : ClientSteps env Shrinks where
  session _ _ := fun _ h => h
  dropped _ := fun _ h => World.dropConnection_open h

theorem shrinks_chain (h : ReflTransGen Shrinks w w') : Shrinks w w' :=
  chain_invariant (Shrinks w) (fun _ _ h1 h12 fd hfd => h1 fd (h12 fd hfd)) (fun _ hfd => hfd) h

/-- A round of the accept loop opens what `accept4` gives. -/
theorem acceptRound_opens (env : Platform) (w : World) (is : List Answer) {fd : Fd}
    (h : ((((acceptRound ()).run w is).state).kernel.fdTable fd).isSome = true) :
    (w.kernel.fdTable fd).isSome = true ∨ .accepted (.ok fd) ∈ is := by
  have hround : (acceptRound ()).Ensures (fun a => a ∈ is) w
      (fun _ w' => ∀ fd, (w'.kernel.fdTable fd).isSome = true →
        (w.kernel.fdTable fd).isSome = true ∨ .accepted (.ok fd) ∈ is)
      fun _ w' => ∀ fd, (w'.kernel.fdTable fd).isSome = true →
        (w.kernel.fdTable fd).isSome = true ∨ .accepted (.ok fd) ∈ is := by
    refine ensures_bind ?_
    refine ensures_ask (fun _ hfd => .inl hfd) ?_
    intro answer result w1 hgiven hans
    cases answer with
    | accepted outcome =>
        cases outcome with
        | error errno =>
            cases hans
            exact ensures_pure fun _ hfd => .inl hfd
        | ok fd =>
            simp only at hans
            split at hans
            · cases hans
              refine ensures_bind ?_
              refine ensures_modify ?_
              show Ensures _ _ (w.enter fd) _ _
              -- from the new client on, the table only shrinks
              have hentered : ∀ w2, ReflTransGen Shrinks (w.enter fd) w2 →
                  ∀ fd', (w2.kernel.fdTable fd').isSome = true →
                    (w.kernel.fdTable fd').isSome = true ∨ .accepted (.ok fd') ∈ is := by
                intro w2 h2 fd' hfd'
                have hold := shrinks_chain h2 fd' hfd'
                rw [World.enter_fdTable] at hold
                by_cases hne : fd' = fd
                · rw [hne]
                  exact .inr hgiven
                · rw [Function.update_of_ne hne] at hold
                  exact .inl hold
              have hrest : ∀ granted, Follows Shrinks (if granted = true then pure (.again ())
                  else dropDescriptor fd >>= fun _ => pure (.again ()) : WorkerM (Turn Unit Unit)) :=
                fun granted => follows_ite (follows_pure _)
                  (follows_bind (follows_dropDescriptor (clientSteps_shrinks env) fd) fun _ =>
                    follows_pure _)
              refine ensures_bind ?_
              refine ((onConnection_chain (clientSteps_shrinks env)
                follows_registerCall).restrict).mono ?_ fun _ w2 h2 => hentered w2 h2
              intro granted w2 h2
              refine (((hrest granted).ensures w2).restrict).mono ?_ ?_
              · intro _ w3 h3
                exact hentered w3 (h2.trans h3)
              · intro _ w3 h3
                exact hentered w3 (h2.trans h3)
            · cases hans
    | _ => cases hans
  exact hround.state_of_rely (fun _ hmem => hmem) fd h

/-- **A stage opens what `accept4` gives it**, and nothing else. -/
theorem next_opens {stage : Stage} {fd : Fd}
    (h : ((((stage.next env).run w is).state).kernel.fdTable fd).isSome = true) :
    (w.kernel.fdTable fd).isSome = true ∨ .accepted (.ok fd) ∈ is := by
  cases stage with
  | accepting events =>
      obtain ⟨after, hnext, hafter⟩ : ∃ after : Turn Unit Unit → WorkerM Stage,
          (Stage.accepting events).next env = acceptRound () >>= after ∧
            ∀ turn w' rest, ((after turn).run w' rest).state = w' :=
        ⟨_, rfl, fun turn w' rest => by cases turn <;> rfl⟩
      rw [hnext, run_bind] at h
      refine acceptRound_opens env w is ?_
      cases hrun : (acceptRound ()).run w is with
      | done turn w1 rest1 =>
          rw [hrun] at h
          simp only [Outcome.andThen, hafter] at h
          exact h
      | waiting k w1 =>
          rw [hrun] at h
          exact h
      | spinning w1 =>
          rw [hrun] at h
          exact h
  | _ =>
      refine .inl (shrinks_chain (Follows.state ?_ w is) fd h)
      exact follows_next_of_clientSteps (clientSteps_shrinks env) fun _ heq => by cases heq

end

end RtbEngine
