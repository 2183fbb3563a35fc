import RtbEngine.Lib.Mealy
import RtbEngine.Logic.Steps
import RtbEngine.Logic.Worker

/-!
# A worker serves its requests one after the other

All connections of a worker share one generator, and their events come in any
order. Whatever the order, a run does what a bidder does that is handed the
requests of all connections one at a time, in the order of their arrival
times: each connection gets its own answers, and nothing else.

* `bidder` — that bidder, as a machine over the generator;
* `Serial` — the worker and the bidder agree on a log of requests;
* `worker_serves_in_order` — they do in every run.
-/

namespace RtbEngine

open Lib Exec Relation

/-! ## The bidder -/

/-- A bidder over the store: its state is the generator. -/
def bidder (env : Platform) (store : CampaignStoreSnapshot) :
    Mealy WorkerRng Request HandleRequestResult where
  output rng request := request.result env store rng
  next rng request := request.draw env store rng

/-- What the client of a request sees of its result. -/
def Request.answer (request : Request) (result : HandleRequestResult) :
    Option (Bytes × BidResponse) :=
  if result.status = .dropConnection then none else some (request.payload, result.response)

/-- The payloads that were parsed. -/
def parsedPayloads (h : List SocketEvent) : List Bytes :=
  h.filterMap fun
    | .parsed payload => some payload
    | _ => none

/-- The answers that were staged, or given up because they could not be. -/
def answered (h : List SocketEvent) : List (Bytes × BidResponse) :=
  h.filterMap fun
    | .staged payload response => some (payload, response)
    | .stagingFailed payload response => some (payload, response)
    | _ => none

/-- The requests that a list of payloads contains. -/
def wellFormed (env : Platform) (payloads : List Bytes) : List Bytes :=
  payloads.filter fun payload => (parseBidRequest env.protobuf payload).1 = .ok

/-- The part of the socket `i` in a run of the bidder over a log of requests
of all sockets. -/
def servedOn (env : Platform) (store : CampaignStoreSnapshot) (seed : WorkerRng)
    (log : List (Nat × Request)) (i : Nat) : List (Request × HandleRequestResult) :=
  (log.zip ((bidder env store).outputs seed (log.map Prod.snd))).filterMap fun e =>
    if e.1.1 = i then some (e.1.2, e.2) else none

/-- The worker has done what the bidder does with the log. -/
structure Serial (env : Platform) (store : CampaignStoreSnapshot) (seed : WorkerRng) (w : World)
    (log : List (Nat × Request)) : Prop where
  rng : w.runtime.rng = (bidder env store).after seed (log.map Prod.snd)
  answers : ∀ i, answered (w.kernel.sockets i).history =
    (servedOn env store seed log i).filterMap fun e => e.1.answer e.2
  requests : ∀ i, wellFormed env (parsedPayloads (w.kernel.sockets i).history) =
    (servedOn env store seed log i).map (·.1.payload)
  ordered : (log.map (·.2.position)).Pairwise (· < ·)
  receipts : ∀ e ∈ log, e.1 < w.kernel.accepted ∧ e.2.position < w.clock.taken ∧
    e.2.receivedAtNs = w.clock.reading e.2.position ∧
    parseBidRequest env.protobuf e.2.payload = (.ok, e.2.message)

section

variable {env : Platform} {store : CampaignStoreSnapshot} {seed : WorkerRng} {w w' : World}
  {log : List (Nat × Request)}

/-- One request more. -/
theorem servedOn_snoc (i j : Nat) (request : Request) :
    servedOn env store seed (log ++ [(j, request)]) i =
      servedOn env store seed log i ++
        if j = i then
          [(request, request.result env store ((bidder env store).after seed (log.map Prod.snd)))]
        else [] := by
  unfold servedOn
  have hlen : log.length = ((bidder env store).outputs seed (log.map Prod.snd)).length := by
    rw [Mealy.length_outputs, List.length_map]
  rw [List.map_append, List.map_singleton, Mealy.outputs_snoc, List.zip_append hlen,
    List.filterMap_append]
  congr 1
  by_cases hi : j = i
  · simp [hi, bidder]
  · simp [hi]

theorem answered_append (h h' : List SocketEvent) :
    answered (h ++ h') = answered h ++ answered h' :=
  List.filterMap_append

theorem wellFormed_append (h h' : List SocketEvent) :
    wellFormed env (parsedPayloads (h ++ h')) =
      wellFormed env (parsedPayloads h) ++ wellFormed env (parsedPayloads h') := by
  unfold wellFormed parsedPayloads
  rw [List.filterMap_append, List.filter_append]

/-- A step that serves no request. -/
theorem Serial.unchanged (h : Serial env store seed w log) (hrng : w'.runtime.rng = w.runtime.rng)
    (hanswered : ∀ i, answered (w'.kernel.sockets i).history = answered (w.kernel.sockets i).history)
    (hparsed : ∀ i, wellFormed env (parsedPayloads (w'.kernel.sockets i).history) =
      wellFormed env (parsedPayloads (w.kernel.sockets i).history))
    (haccepted : w.kernel.accepted ≤ w'.kernel.accepted)
    (hreading : w'.clock.reading = w.clock.reading) (htaken : w.clock.taken ≤ w'.clock.taken) :
    Serial env store seed w' log where
  rng := hrng.trans h.rng
  answers := fun i => (hanswered i).trans (h.answers i)
  requests := fun i => (hparsed i).trans (h.requests i)
  ordered := h.ordered
  receipts := by
    intro e he
    obtain ⟨hsocket, hposition, hreceived, hparse⟩ := h.receipts e he
    refine ⟨Nat.lt_of_lt_of_le hsocket haccepted, Nat.lt_of_lt_of_le hposition htaken, ?_, hparse⟩
    rw [hreading]
    exact hreceived

/-- What is answered to a request. -/
theorem answered_answerEvents (connection : ConnectionState) (request : Request)
    (result : HandleRequestResult) :
    answered (.parsed request.payload :: answerEvents env connection request.payload result) =
      (request.answer result).toList := by
  unfold answerEvents Request.answer
  by_cases hdrop : result.status = .dropConnection
  · simp [hdrop, answered]
  · by_cases hstaged : (stageResponseFrame env.protobuf result.response connection.writeBuffer).1
    · simp [hdrop, hstaged, answered]
    · simp [hdrop, hstaged, answered]

theorem wellFormed_answerEvents (connection : ConnectionState) {request : Request}
    (hparse : parseBidRequest env.protobuf request.payload = (.ok, request.message))
    (result : HandleRequestResult) :
    wellFormed env (parsedPayloads
      (.parsed request.payload :: answerEvents env connection request.payload result)) =
        [request.payload] := by
  unfold answerEvents wellFormed
  split
  · simp [parsedPayloads, hparse]
  · split
    · simp [parsedPayloads, hparse]
    · simp [parsedPayloads, hparse]

/-- The step that serves a request on the socket `i`. -/
theorem Serial.request (h : Serial env store seed w log) {fd : Fd} {s s' : Session} {i : Nat}
    (hget : getSession fd w = some s) (hi : w.kernel.fdTable fd = some i)
    (hbelow : i < w.kernel.accepted) {request : Request}
    (hstep : RequestStep env store request s s') :
    Serial env store seed (putSession fd s' w) (log ++ [(i, request)]) := by
  obtain ⟨c, i', -, hi', rfl⟩ := getSession_some hget
  obtain rfl : i = i' := Option.some.inj (hi.symm.trans hi')
  have hrng := hstep.rng
  have hhistory := hstep.history
  simp only [h.rng] at hrng hhistory
  have hsockets := putSession_sockets (s := s') hi
  have hsame : ∀ j, j ≠ i → (putSession fd s' w).kernel.sockets j = w.kernel.sockets j := by
    intro j hj
    rw [hsockets, Function.update_of_ne hj]
  have hself : ((putSession fd s' w).kernel.sockets i).history = s'.socket.history := by
    rw [hsockets, Function.update_self]
  refine ⟨?_, ?_, ?_, ?_, ?_⟩
  · rw [List.map_append, List.map_singleton, Mealy.after_snoc]
    exact hrng
  · intro j
    rw [servedOn_snoc, List.filterMap_append, ← h.answers j]
    by_cases hj : i = j
    · subst hj
      rw [hself, hhistory, answered_append, answered_answerEvents, if_pos rfl]
      cases hans : request.answer _ <;> simp [hans]
    · rw [hsame j (Ne.symm hj), if_neg hj]
      simp
  · intro j
    rw [servedOn_snoc, List.map_append, ← h.requests j]
    by_cases hj : i = j
    · subst hj
      rw [hself, hhistory, wellFormed_append, wellFormed_answerEvents _ hstep.parsed, if_pos rfl]
      rfl
    · rw [hsame j (Ne.symm hj), if_neg hj]
      simp
  · rw [List.map_append, List.map_singleton, List.pairwise_append]
    refine ⟨h.ordered, List.pairwise_singleton _ _, ?_⟩
    intro position hposition last hlast
    obtain ⟨e, he, rfl⟩ := List.mem_map.mp hposition
    rw [List.mem_singleton.mp hlast]
    exact Nat.lt_of_lt_of_le (h.receipts e he).2.1 hstep.position.1
  · intro e he
    rcases List.mem_append.mp he with he | he
    · obtain ⟨hsocket, hposition, hreceived, hparse⟩ := h.receipts e he
      refine ⟨hsocket, ?_, ?_, hparse⟩
      · exact Nat.lt_trans hposition (Nat.lt_of_le_of_lt hstep.position.1 hstep.position.2)
      · rw [hreceived]
        exact (congrFun hstep.reading e.2.position).symm
    · rw [List.mem_singleton.mp he]
      refine ⟨hbelow, hstep.position.2, ?_, hstep.parsed⟩
      rw [← hstep.received]
      exact (congrFun hstep.reading request.position).symm

/-- What a step of the worker keeps: who owns the descriptors, and the store. -/
structure Serving (store : CampaignStoreSnapshot) (w : World) : Prop where
  owned : Owned w
  stored : w.runtime.campaignStore = store

theorem Serving.step (h : Serving store w) (hstep : WorldStep env w w') : Serving store w' :=
  ⟨hstep.owned h.owned, hstep.worker.2.trans h.stored⟩

/-- **One step of the worker** is no step of the bidder, or the next one. -/
theorem Serial.step (hw : Serving store w) (h : Serial env store seed w log)
    (hstep : WorldStep env w w') : ∃ log', Serial env store seed w' log' := by
  cases hstep with
  | session fd s s' hget hstep =>
      obtain ⟨c, i, -, hi, hs⟩ := getSession_some hget
      have hsockets := putSession_sockets (s := s') hi
      have hrng : s.rng = w.runtime.rng := by rw [hs]
      have hclock : s.clock = w.clock := by rw [hs]
      have hhistory : s.socket.history = (w.kernel.sockets i).history := by rw [hs]
      -- a step of the session that neither draws nor serves
      have hquiet : s'.rng = s.rng → s'.clock.reading = s.clock.reading →
          s.clock.taken ≤ s'.clock.taken → answered s'.socket.history = answered s.socket.history →
          wellFormed env (parsedPayloads s'.socket.history) =
            wellFormed env (parsedPayloads s.socket.history) →
          Serial env store seed (putSession fd s' w) log := by
        intro hrng' hreading' htaken' hanswered hparsed
        rw [hhistory] at hanswered hparsed
        rw [hclock] at hreading' htaken'
        refine h.unchanged (hrng'.trans hrng) ?_ ?_ (Nat.le_refl _) hreading' htaken'
        · intro j
          rw [hsockets]
          by_cases hj : j = i
          · subst hj
            rw [Function.update_self]
            exact hanswered
          · rw [Function.update_of_ne hj]
        · intro j
          rw [hsockets]
          by_cases hj : j = i
          · subst hj
            rw [Function.update_self]
            exact hparsed
          · rw [Function.update_of_ne hj]
      cases hstep with
      | moved hmoved =>
          refine ⟨log, hquiet hmoved.rng (by rw [hmoved.clock]) (by rw [hmoved.clock]) ?_ ?_⟩
          · rcases hmoved.history with hsame | ⟨event, hevent, hsame⟩
            · rw [hsame]
            · rw [hsame, answered_append]
              cases event <;> first | exact List.append_nil _ | cases hevent
          · rcases hmoved.history with hsame | ⟨event, hevent, hsame⟩
            · rw [hsame]
            · rw [hsame, wellFormed_append]
              cases event <;> first | exact List.append_nil _ | cases hevent
      | woken hwoken =>
          rw [hwoken.session] at hquiet ⊢
          have hsignal : (signalShutdownFd w.runtime.config s).rng = s.rng ∧
              (signalShutdownFd w.runtime.config s).clock = s.clock ∧
              (signalShutdownFd w.runtime.config s).socket = s.socket := by
            unfold signalShutdownFd
            split <;> exact ⟨rfl, rfl, rfl⟩
          exact ⟨log, hquiet hsignal.1 (by rw [hsignal.2.1]) (by rw [hsignal.2.1])
            (by rw [hsignal.2.2]) (by rw [hsignal.2.2])⟩
      | unparsed payload hunparsed =>
          refine ⟨log, hquiet hunparsed.rng hunparsed.reading hunparsed.taken ?_ ?_⟩
          · rw [hunparsed.history, answered_append]
            exact List.append_nil _
          · rw [hunparsed.history, wellFormed_append]
            have hrefused := hunparsed.refused
            simp [wellFormed, parsedPayloads, hrefused]
      | request request hrequest =>
          rw [hw.stored] at hrequest
          exact ⟨_, h.request hget hi (hw.owned.below hi) hrequest⟩
  | entered fd h0 hnew hapart =>
      have hothers : ∀ j, j ≠ w.kernel.accepted →
          (w.enter fd).kernel.sockets j = w.kernel.sockets j :=
        fun j hj => Function.update_of_ne hj _ _
      have hself : ((w.enter fd).kernel.sockets w.kernel.accepted).history = [] := by
        show ((Function.update w.kernel.sockets w.kernel.accepted {}) w.kernel.accepted).history = []
        rw [Function.update_self]
      -- the log has no request of the new socket
      have hnone : servedOn env store seed log w.kernel.accepted = [] := by
        unfold servedOn
        rw [List.filterMap_eq_nil_iff]
        rintro ⟨⟨j, request⟩, result⟩ he
        have hj := (h.receipts _ (List.of_mem_zip he).1).1
        exact if_neg (Nat.ne_of_lt hj)
      refine ⟨log, h.rng, ?_, ?_, h.ordered, ?_⟩
      · intro j
        by_cases hj : j = w.kernel.accepted
        · rw [hj, hself, hnone]
          rfl
        · rw [hothers j hj]
          exact h.answers j
      · intro j
        by_cases hj : j = w.kernel.accepted
        · rw [hj, hself, hnone]
          rfl
        · rw [hothers j hj]
          exact h.requests j
      · intro e he
        obtain ⟨hsocket, hrest⟩ := h.receipts e he
        exact ⟨Nat.lt_succ_of_lt hsocket, hrest⟩
  | dropped fd hopen =>
      obtain ⟨i, hi⟩ := Option.isSome_iff_exists.mp hopen
      refine ⟨log, h.unchanged rfl ?_ ?_ ?_ rfl (Nat.le_refl _)⟩
      · intro j
        exact congrArg answered (Kernel.close_sockets hi j)
      · intro j
        exact congrArg (fun history => wellFormed env (parsedPayloads history))
          (Kernel.close_sockets hi j)
      · exact Nat.le_of_eq w.kernel.close_accepted.symm

/-- A worker that goes on, goes on with the log. -/
theorem Serial.run (hw : Serving store w) (h : Serial env store seed w log) (is : List Answer) :
    ∃ log', Serial env store seed ((runWorkerLoop env).run w is).state log' :=
  chain_simulation (fun _ _ hw hstep => hw.step hstep) (fun _ _ _ hw h hstep => h.step hw hstep)
    hw h ((follows_runWorkerLoop env).state w is)

theorem serving_boot (config : WorkerConfig) (epollFd listenFd : Fd) (rng : WorkerRng)
    (recorder : Option BenchmarkRecorder) (store : CampaignStoreSnapshot) (clock : Clock) :
    Serving store (bootWorld config epollFd listenFd rng recorder store clock) :=
  ⟨owned_boot config epollFd listenFd rng recorder store clock, rfl⟩

/-- At the start nothing is logged. -/
theorem serial_boot (env : Platform) (config : WorkerConfig) (epollFd listenFd : Fd)
    (rng : WorkerRng) (recorder : Option BenchmarkRecorder) (store : CampaignStoreSnapshot)
    (clock : Clock) :
    Serial env store rng (bootWorld config epollFd listenFd rng recorder store clock) [] :=
  ⟨rfl, fun _ => rfl, fun _ => rfl, .nil, nofun⟩

/-- **A run of the worker is a run of the bidder.** For all events in any
order there is one log of the requests of all sockets, in the order of the
readings they were handed over with, such that every socket was answered what
the bidder answers on the log, and the generator is where the bidder's is. -/
theorem worker_serves_in_order (env : Platform) (config : WorkerConfig) (epollFd listenFd : Fd)
    (rng : WorkerRng) (recorder : Option BenchmarkRecorder) (store : CampaignStoreSnapshot)
    (clock : Clock) (is : List Answer) :
    ∃ log, Serial env store rng ((runWorkerLoop env).run
      (bootWorld config epollFd listenFd rng recorder store clock) is).state log :=
  (serial_boot env config epollFd listenFd rng recorder store clock).run
    (serving_boot config epollFd listenFd rng recorder store clock) is

end

end RtbEngine
