import RtbEngine.Theorems.Bidding
import RtbEngine.Theorems.Serial
import RtbEngine.Theorems.Stream

/-!
# What a client hears depends on what it said

The connections of a worker share a generator, a clock and a store. Yet the
answers on one socket are a function of the payloads on that socket and the
store, up to the creative and the price: which requests are answered, with
which id, and whether with a bid.

* `verdictOn` — that function;
* `answers_isolated` — in every run, on every socket.
-/

namespace RtbEngine

open Lib Exec

/-- The status of the response, if there is one. -/
def Ending.status : Ending → Option BidStatus
  | .dropped => none
  | .won => some .bid
  | .expired | .noCampaign => some .noBid

/-- What a client can tell in advance of the answer to a payload: its id, and
whether it is a bid. -/
def verdictOn (env : Platform) (store : CampaignStoreSnapshot) (payload : Bytes) :
    Option (Bytes × Bytes × BidStatus) :=
  (endingOf store (parseBidRequest env.protobuf payload).2).status.map fun status =>
    (payload, (parseBidRequest env.protobuf payload).2.requestId, status)

/-- The campaign and the creative of a bid are the store's, and target the
request. -/
def Fits (env : Platform) (store : CampaignStoreSnapshot) (payload : Bytes)
    (response : BidResponse) : Prop :=
  response.status = .bid → ∃ campaign ∈ store.campaigns,
    (parseBidRequest env.protobuf payload).2.TargetedBy campaign ∧
      ∃ creative ∈ campaignCreatives store campaign,
        IsNumeral response.campaignId campaign.campaignId.toNat ∧
        IsNumeral response.creativeId creative.creativeId.toNat

/-- No reading of the clock is so late that a deadline behind it wraps. -/
def Clock.Roomy (clock : Clock) : Prop :=
  ∀ n, (clock.reading n).toNat + (2 ^ 32 - 1) * 10 ^ 6 < 2 ^ 64

section

variable {env : Platform} {store : CampaignStoreSnapshot} {seed : WorkerRng} {w : World}
  {log : List (Nat × Request)}

/-- A request is answered as its payload lets expect. -/
theorem Loaded.answer_eq {rows : List CampaignRow} (h : Loaded rows store) {request : Request}
    (hparse : parseBidRequest env.protobuf request.payload = (.ok, request.message))
    (hfits : request.message.DeadlineFits request.receivedAtNs) (rng : WorkerRng) :
    (request.answer (request.result env store rng)).map
        (fun a => (a.1, a.2.requestId, a.2.status)) = verdictOn env store request.payload ∧
      ∀ a, request.answer (request.result env store rng) = some a → Fits env store a.1 a.2 := by
  have hends := h.endsIn env.fl (processingStatus_of_parse hparse) hfits rng
  obtain ⟨hstatus, hid⟩ := @resultFor_response store env.fl
    (requestContext request.message request.receivedAtNs) rng
  rw [(@keysOf_requestContext request.message request.receivedAtNs).requestId] at hid
  have hresult : resultFor env.fl store (requestContext request.message request.receivedAtNs) rng =
      request.result env store rng := by rw [Request.result]
  rw [hresult] at hends hstatus hid
  generalize request.result env store rng = result at hends hstatus hid
  have hkept : endingOf store request.message ≠ .dropped → result.status ≠ .dropConnection := by
    intro hending hdrop
    cases hcase : endingOf store request.message with
    | dropped => exact hending hcase
    | expired | won | noCampaign =>
        rw [hcase] at hends
        rw [hends.1] at hdrop
        cases hdrop
  unfold Request.answer
  refine ⟨?_, ?_⟩
  · rw [verdictOn, hparse]
    cases hending : endingOf store request.message with
    | dropped =>
        rw [hending] at hends
        rw [if_pos hends.1]
        rfl
    | expired | won | noCampaign =>
        rw [hending] at hends
        rw [hends.2.1] at hstatus
        rw [if_neg (hkept (by simp [hending])), Option.map_some, hid, hstatus]
        rfl
  · intro a ha
    split at ha
    · cases ha
    · cases ha
      intro hbid
      rw [hstatus] at hbid
      have hwon : endingOf store request.message = .won := by
        rw [← hends.hasBid]
        by_contra hnone
        rw [if_neg hnone] at hbid
        cases hbid
      rw [hwon] at hends
      rw [hparse]
      exact hends.2.2.2

/-- What is served on a socket is one of the requests of the log, in some
state of the bidder. -/
theorem mem_servedOn {i : Nat} {e : Request × HandleRequestResult}
    (h : e ∈ servedOn env store seed log i) :
    (i, e.1) ∈ log ∧ ∃ rng, e.2 = e.1.result env store rng := by
  obtain ⟨⟨⟨j, request⟩, result⟩, hmem, hsome⟩ := List.mem_filterMap.mp h
  simp only at hsome
  split at hsome
  · rename_i hj
    cases hsome
    subst hj
    have hzip : (request, result) ∈ (log.map Prod.snd).zip
        ((bidder env store).outputs seed (log.map Prod.snd)) := by
      rw [List.zip_map_left]
      exact List.mem_map.mpr ⟨_, hmem, rfl⟩
    obtain ⟨rng, hrng⟩ := (bidder env store).output_of_mem_zip hzip
    exact ⟨(List.of_mem_zip hmem).1, rng, hrng⟩
  · cases hsome

/-- **Isolation.** In every run of a worker over a loaded store, the answers
on a socket are the verdicts on the requests on that socket, and every bid
names a campaign and a creative of the store that target its request. -/
theorem answers_isolated {extract : Bytes → Option (Double × Bytes)} {input : Option Bytes}
    (hload : loadCampaignStoreSnapshot extract input = some store)
    (hcampaigns : store.campaigns.length < 2 ^ 32) (hcreatives : store.creatives.length < 2 ^ 32)
    {clock : Clock} (hclock : clock.Roomy) (env : Platform) (config : WorkerConfig)
    (epollFd listenFd : Fd) (rng : WorkerRng) (recorder : Option BenchmarkRecorder)
    (is : List Answer) (i : Nat) :
    let history := (((runWorkerLoop env).run
      (bootWorld config epollFd listenFd rng recorder store clock) is).state.kernel.sockets i).history
    (answered history).map (fun a => (a.1, a.2.requestId, a.2.status)) =
        (wellFormed env (parsedPayloads history)).filterMap (verdictOn env store) ∧
      ∀ a ∈ answered history, Fits env store a.1 a.2 := by
  intro history
  obtain ⟨log, hserial⟩ := (serial_boot env config epollFd listenFd rng recorder store clock).run
    (serving_boot config epollFd listenFd rng recorder store clock) is
  have hreading := clock_reading env (bootWorld config epollFd listenFd rng recorder store clock) is
  obtain ⟨text, rows, -, -, hloaded⟩ := loaded_of_load hload hcampaigns hcreatives
  have hserved : ∀ e ∈ servedOn env store rng log i,
      (e.1.answer e.2).map (fun a => (a.1, a.2.requestId, a.2.status)) =
          verdictOn env store e.1.payload ∧
        ∀ a, e.1.answer e.2 = some a → Fits env store a.1 a.2 := by
    intro e he
    obtain ⟨hlog, rng', hresult⟩ := mem_servedOn he
    obtain ⟨-, -, hreceived, hparse⟩ := hserial.receipts _ hlog
    rw [hresult]
    refine hloaded.answer_eq hparse ?_ rng'
    have hroom := hclock e.1.position
    have htmax := e.1.message.tmaxMs.toNat_lt
    have hat : e.1.receivedAtNs = clock.reading e.1.position :=
      hreceived.trans (congrFun hreading e.1.position)
    show e.1.receivedAtNs.toNat + (e.1.message.tmaxMs.toNat * 1000000 - 1000000) < 2 ^ 64
    rw [hat]
    omega
  have hanswers := hserial.answers i
  have hrequests := hserial.requests i
  refine ⟨?_, ?_⟩
  · rw [hanswers, hrequests, List.map_filterMap, List.filterMap_map]
    apply List.filterMap_congr
    intro e he
    exact (hserved e he).1
  · intro a ha
    rw [hanswers] at ha
    obtain ⟨e, he, hans⟩ := List.mem_filterMap.mp ha
    exact (hserved e he).2 a hans

end

/-- A client connects on 5 and sends the request of `sampleMessage`. -/
def sampleBidAnswers : List Answer :=
  [.events (.ok [⟨3, EPOLLIN⟩]), .go, .accepted (.ok 5), .controlled true,
    .accepted (.error .eagain),
    .events (.ok [⟨5, EPOLLIN⟩]), .go, .readBytes (.ok (Framing.frame samplePayload)),
    .controlled true]

/-- The request is answered with a bid. -/
theorem answers_isolated_sample :
    let history := (((runWorkerLoop wirePlatform).run
      (bootWorld sampleConfig 4 3 {} none sampleStore { reading := fun _ => 0 })
        sampleBidAnswers).state.kernel.sockets 0).history
    (answered history).map (fun a => a.2.status) = [.bid] ∧
      (answered history).map (fun a => (a.1, a.2.requestId, a.2.status)) =
        (wellFormed wirePlatform (parsedPayloads history)).filterMap
          (verdictOn wirePlatform sampleStore) ∧
      ∀ a ∈ answered history, Fits wirePlatform sampleStore a.1 a.2 :=
  ⟨by decide +kernel,
    answers_isolated load_sampleStore (by decide +kernel) (by decide +kernel)
      (fun _ => by simp) wirePlatform sampleConfig 4 3 {} none sampleBidAnswers 0⟩

end RtbEngine
