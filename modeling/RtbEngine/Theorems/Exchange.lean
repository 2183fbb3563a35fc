import RtbEngine.Logic.SspClient
import RtbEngine.Theorems.Bidding
import RtbEngine.Theorems.Stream

/-!
# The SSP and a worker

The two ends of a connection together. The SSP sends a request and waits for
its response before it goes on; the worker answers what it has received. In
between the bytes may be on their way, but none is lost or made up.

* `responses_match_requests` — each response that the SSP gets is the answer
  to its own request, and the worker is at most one response ahead;
* `never_both_waiting` — with nothing on its way, the SSP and the worker do
  not both wait for the other to send.
-/

namespace RtbEngine

open Lib Exec Framing

/-- The SSP has the other end of a socket: what one end got, the other has
sent. What was sent may be on its way. -/
structure Linked (c : SspClient) (h : List SocketEvent) : Prop where
  requests : receivedBytes h <+: c.sent
  responses : c.received <+: sentBytes h

/-- `bytes` is the response to `payload`, on the wire and with its id. -/
def Responds (env : Platform) (store : CampaignStoreSnapshot) (payload bytes : Bytes) : Prop :=
  ∃ response, Answers env store payload response ∧
    response.requestId = (parseBidRequest env.protobuf payload).2.requestId ∧
    serialized env.protobuf response = bytes

section

variable {env : Platform} {config : WorkerConfig} {store : CampaignStoreSnapshot}
  {request : Nat → Bytes} {h : List SocketEvent} {c : SspClient}

theorem Answers.requestId {payload : Bytes} {response : BidResponse}
    (hans : Answers env store payload response) :
    response.requestId = (parseBidRequest env.protobuf payload).2.requestId := by
  obtain ⟨message, receivedAtNs, rng, clock, hparse, -, rfl⟩ := hans
  rw [hparse, handleRequest_result, (resultFor_response env.fl rng).2]
  exact (@keysOf_requestContext message receivedAtNs).requestId

/-- The worker has not handled more than was asked. -/
theorem Linked.handled (hl : Linked c h) (hs : Said request c)
    (hc : Conversation env config store h) :
    handledPayloads h <+: asked request (c.responses.length + 1) := by
  obtain ⟨m, hm, hsent, hfit⟩ := hs.sent
  refine List.IsPrefix.trans ?_ (asked_mono hm)
  refine prefix_of_frames_prefix (fun p hp => (handledPayloads_length hc p hp).2.2) hfit ?_
  refine List.IsPrefix.trans ?_ (hl.requests.trans hsent)
  rw [received_eq hc]
  exact List.prefix_append _ _

/-- The SSP has no response that the worker has not given. -/
theorem Linked.answered (hl : Linked c h) (hs : Said request c)
    (hc : Conversation env config store h) :
    c.responses <+: (stagedResponses h).map (serialized env.protobuf) := by
  refine prefix_of_frames_prefix (fun r hr => (hs.sized r hr).2) (serialized_staged_lt hc) ?_
  refine hs.received.trans (hl.responses.trans ?_)
  exact ⟨_, sent_eq hc⟩

/-- **The two ends in step.** -/
theorem Linked.in_step (hl : Linked c h) (hs : Said request c)
    (hc : Conversation env config store h) :
    List.Forall₂ (Responds env store) (asked request c.responses.length) c.responses ∧
      (stagedResponses h).length ≤ c.responses.length + 1 := by
  have hhandled := hl.handled hs hc
  have hanswered := hl.answered hs hc
  have hanswers := handledPayloads_answers hc
  have hmore : c.responses.length ≤ (handledPayloads h).length := by
    rw [hanswers.length_eq, ← List.length_map (serialized env.protobuf)]
    exact hanswered.length_le
  have hasked : asked request c.responses.length <+: handledPayloads h := by
    refine List.prefix_of_prefix_length_le (asked_mono (Nat.le_succ _)) hhandled ?_
    rw [length_asked]
    exact hmore
  refine ⟨?_, ?_⟩
  · rw [List.prefix_iff_eq_take.mp hasked, length_asked]
    have htake : c.responses =
        ((stagedResponses h).take c.responses.length).map (serialized env.protobuf) := by
      rw [List.map_take]
      exact List.prefix_iff_eq_take.mp hanswered
    have hboth := List.forall₂_take c.responses.length hanswers
    generalize c.responses.length = n at htake hboth
    rw [htake, List.forall₂_map_right_iff]
    exact hboth.imp fun payload response hans => ⟨response, hans, hans.requestId, rfl⟩
  · have hle := hhandled.length_le
    rwa [hanswers.length_eq, length_asked] at hle

/-- With nothing on its way, and the SSP in `recv`: the worker has a request
that it could handle, or a response that it has not sent. -/
theorem Within.not_stuck {bufsize : Nat} (hwithin : Within request (.recv bufsize) c)
    (hc : Conversation env config store h) (hrequests : receivedBytes h = c.sent)
    (hresponses : c.received = sentBytes h) :
    headOf config h ≠ .short ∨ outbox env.protobuf h ≠ [] := by
  have hl : Linked c h := ⟨hrequests ▸ List.prefix_refl _, hresponses ▸ List.prefix_refl _⟩
  have hhandled := hl.handled hwithin.said hc
  obtain ⟨more, hmore⟩ := hl.answered hwithin.said hc
  have hanswers := (handledPayloads_answers hc).length_eq
  have hcount := congrArg List.length hmore
  rw [List.length_append, List.length_map] at hcount
  obtain ⟨n, c0, hbetween, hfit, part, hpart, rfl⟩ := hwithin
  simp only [hbetween.count] at hhandled hcount
  have hle := hhandled.length_le
  rw [length_asked] at hle
  rcases Nat.lt_or_ge n (handledPayloads h).length with hlast | hfirst
  · -- the last request is handled, so its response cannot be sent already
    right
    intro hempty
    obtain ⟨last, rfl⟩ : ∃ last, more = [last] := List.length_eq_one_iff.mp (by omega)
    have hsent := sent_eq hc
    rw [hempty, List.append_nil, ← hresponses, outbound, ← hmore, frames_snoc] at hsent
    simp only [hbetween.received] at hsent
    have hframe := List.append_cancel_left hsent
    have hlastFit : last.length < 2 ^ 32 :=
      serialized_staged_lt hc last (by rw [← hmore]; simp)
    rw [hframe, ← List.append_nil (frame last), takeFrame_frame hlastFit] at hpart
    cases hpart
  · -- the last request is not handled, and all of it was received
    left
    have hasked : handledPayloads h = asked request n := by
      refine List.IsPrefix.eq_of_length ?_ (by rw [length_asked]; omega)
      refine List.prefix_of_prefix_length_le hhandled (asked_mono (Nat.le_succ n)) ?_
      rw [length_asked]
      exact hfirst
    have hreceived := received_eq hc
    rw [hrequests, hasked] at hreceived
    simp only [hbetween.sent] at hreceived
    have hinbox := List.append_cancel_left hreceived
    rw [headOf, ← hinbox]
    exact headVerdict_frame hfit

end

/-- **Each response is to its own request.** Whatever the SSP and a worker at
the two ends of a socket have done: the responses that the SSP got are what the
worker gave first, each of them the answer to its own request, in the order of
the requests, and the worker has given at most one more. A script that got
through has all of them. -/
theorem responses_match_requests {env : Platform} {config : WorkerConfig}
    {store : CampaignStoreSnapshot} (hfit : config.FramesFit) {k : Call} {w : World}
    (hreach : Reaches env config store k w) (i : Nat) (accepts : Bytes → Bool)
    (request : Nat → Bytes) (warmup count : Int) (is : List SspAnswer)
    (hlinked : Linked ((SspClient.main accepts request warmup count).run {} is).state
      (w.kernel.sockets i).history) :
    let c := ((SspClient.main accepts request warmup count).run {} is).state
    List.Forall₂ (Responds env store) (asked request c.responses.length) c.responses ∧
      c.responses <+:
        (stagedResponses (w.kernel.sockets i).history).map (serialized env.protobuf) ∧
      (stagedResponses (w.kernel.sockets i).history).length ≤ c.responses.length + 1 ∧
      (((SspClient.main accepts request warmup count).run {} is).returns.map Prod.fst =
        some (.ok ()) → c.responses.length = warmup.toNat + count.toNat) := by
  intro c
  obtain ⟨base, hw, -, -⟩ := hreach.waitOk hfit
  have hmain := main_ensures accepts request warmup count
  have hsaid : Said request c :=
    (hmain.mono (fun _ _ hr => hr.1) fun _ _ hk => hk.said).state is
  obtain ⟨hresponds, hahead⟩ := hlinked.in_step hsaid (hw.talk i)
  refine ⟨hresponds, hlinked.answered hsaid (hw.talk i), hahead, fun hthrough => ?_⟩
  obtain ⟨⟨r, c', rest⟩, hreturns, rfl⟩ := Option.map_eq_some_iff.mp hthrough
  have hdone := Outcome.eq_done hreturns
  have hstate : c = c' := congrArg Outcome.state hdone
  rw [hstate]
  exact ((hmain.done (fun _ _ => trivial) hdone).2 rfl).count

/-- A client connects on 5 and sends one request; the answers to `write`, and
what comes after. -/
def sampleServed (writes : List Answer) : List Answer :=
  [.events (.ok [⟨3, EPOLLIN⟩]), .go, .accepted (.ok 5), .controlled true,
    .accepted (.error .eagain),
    .events (.ok [⟨5, EPOLLIN⟩]), .go, .readBytes (.ok (frame sampleRequest)), .controlled true,
    .events (.ok [⟨5, EPOLLIN ||| EPOLLOUT⟩]), .go] ++ writes

/-- The SSP with one request to send. -/
def sampleScript : SspM (Except SspStop Unit) :=
  SspClient.main (fun _ => true) (fun _ => sampleRequest) 0 1

/-- The response is written at once and received in three pieces. -/
theorem responses_match_requests_sample : ∃ k w,
    Reaches wirePlatform sampleConfig {} k w ∧
    let c := (sampleScript.run {}
      [.sent 26, .chunk [0, 0], .chunk [0, 5], .chunk [10, 1, 113, 16, 1]]).state
    c.responses = [[10, 1, 113, 16, 1]] ∧
      List.Forall₂ (Responds wirePlatform {})
        (asked (fun _ => sampleRequest) c.responses.length) c.responses ∧
      c.responses <+:
        (stagedResponses (w.kernel.sockets 0).history).map (serialized wireProtobuf) ∧
      (stagedResponses (w.kernel.sockets 0).history).length ≤ 2 := by
  have hrun : (connectionAt ((runWorkerLoop wirePlatform).run (sampleWorld none)
      (sampleServed [.written (.ok 9)]))).any (fun p =>
        receivedBytes (p.2.1.kernel.sockets 0).history = frame sampleRequest ∧
          sentBytes (p.2.1.kernel.sockets 0).history = [0, 0, 0, 5, 10, 1, 113, 16, 1]) := by
    decide +kernel
  obtain ⟨⟨k, w, connection⟩, hat, hp⟩ := (Option.any_eq_true _ _).mp hrun
  obtain ⟨hrequests, hresponses⟩ := of_decide_eq_true hp
  have hreach : Reaches wirePlatform sampleConfig {} k w :=
    ⟨4, 3, {}, none, { reading := fun _ => 0 }, _, (connectionAt_eq_some hat).1⟩
  obtain ⟨hresponds, hgiven, hahead, -⟩ := responses_match_requests (by decide) hreach 0 (fun _ => true)
    (fun _ => sampleRequest) 0 1
    [.sent 26, .chunk [0, 0], .chunk [0, 5], .chunk [10, 1, 113, 16, 1]]
    ⟨by rw [hrequests]; decide +kernel, by rw [hresponses]; decide +kernel⟩
  refine ⟨k, w, hreach, ?_, hresponds, hgiven, hahead.trans ?_⟩
  · decide +kernel
  · decide +kernel

/-- **Never both waiting.** When the SSP waits for bytes and the worker for
events, and nothing is on its way between them, the worker has a response to
send and asks to be told when it can. -/
theorem never_both_waiting {env : Platform} {config : WorkerConfig}
    {store : CampaignStoreSnapshot} (hfit : config.FramesFit) {w : World}
    (hreach : Reaches env config store .epollWait w) {fd : Fd} {connection : ConnectionState}
    (hopen : w.runtime.connections fd = some connection) {i : Nat}
    (hi : w.kernel.fdTable fd = some i) {accepts : Bytes → Bool} {request : Nat → Bytes}
    {warmup count : Int} {is : List SspAnswer} {bufsize : Nat} {c : SspClient}
    (hrun : (SspClient.main accepts request warmup count).run {} is = .waiting (.recv bufsize) c)
    (hrequests : receivedBytes (w.kernel.sockets i).history = c.sent)
    (hresponses : c.received = sentBytes (w.kernel.sockets i).history) :
    outbox env.protobuf (w.kernel.sockets i).history ≠ [] ∧
      (w.kernel.sockets i).interest = some (clientEvents true) := by
  obtain ⟨base, hw, -, hresting⟩ := hreach.waitOk hfit
  have hrest := hresting fd connection i hopen hi
  have hwithin := (main_ensures accepts request warmup count).waiting (fun _ _ => trivial) hrun
  have hpending : connection.hasPendingWrite = true := by
    by_contra hidle
    rw [Bool.not_eq_true] at hidle
    rcases hwithin.not_stuck (hw.talk i) hrequests hresponses with hhead | hout
    · exact hhead (hrest.idle hidle).1
    · rw [hrest.pending.mpr hout] at hidle
      cases hidle
  refine ⟨hrest.pending.mp hpending, ?_⟩
  rw [hrest.interest, hpending]

/-- Of the response two bytes are written and received. -/
theorem never_both_waiting_sample : ∃ w c,
    Reaches wirePlatform sampleConfig {} .epollWait w ∧
    sampleScript.run {} [.sent 26, .chunk [0, 0]] = .waiting (.recv 2) c ∧
    outbox wireProtobuf (w.kernel.sockets 0).history ≠ [] ∧
    (w.kernel.sockets 0).interest = some (clientEvents true) := by
  have hrun : (connectionAt ((runWorkerLoop wirePlatform).run (sampleWorld none)
      (sampleServed [.written (.ok 2), .written (.error .eagain), .controlled true]))).any (fun p =>
        (match p.1 with | .epollWait => true | _ => false) &&
          decide (receivedBytes (p.2.1.kernel.sockets 0).history = frame sampleRequest ∧
            [0, 0] = sentBytes (p.2.1.kernel.sockets 0).history)) := by
    decide +kernel
  have hscript : sampleScript.run {} [.sent 26, .chunk [0, 0]] =
      .waiting (.recv 2) { sent := frame sampleRequest, received := [0, 0] } :=
    Outcome.eq_waiting (by decide +kernel)
  obtain ⟨⟨k, w, connection⟩, hat, hp⟩ := (Option.any_eq_true _ _).mp hrun
  rw [Bool.and_eq_true] at hp
  obtain ⟨hk, hp⟩ := hp
  obtain ⟨hrequests, hresponses⟩ := of_decide_eq_true hp
  obtain ⟨hwait, hopen, hi⟩ := connectionAt_eq_some hat
  cases k with
  | epollWait =>
      have hreach : Reaches wirePlatform sampleConfig {} .epollWait w :=
        ⟨4, 3, {}, none, { reading := fun _ => 0 }, _, hwait⟩
      exact ⟨w, _, hreach, hscript,
        never_both_waiting (by decide) hreach hopen hi hscript hrequests hresponses⟩
  | _ => cases hk

end RtbEngine
