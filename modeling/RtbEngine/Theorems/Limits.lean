import Mathlib.Data.Nat.Digits.Lemmas
import RtbEngine.Logic.Pipeline
import RtbEngine.Logic.Run
import RtbEngine.Theorems.Stream

/-!
# The size limits

Which frames the default sizes let through: a frame longer than the read
buffer never completes, although `max_frame_size` admits it, and a response to
a frame that does fit always fits the limit on responses.
-/

namespace RtbEngine

open Lib Exec Framing

/-! ## Responses -/

theorem toDecimal_length_le (n : UInt64) : (toDecimal n).length ≤ 20 := by
  unfold toDecimal
  split
  · decide
  · rename_i h
    have hne : n.toNat ≠ 0 := fun h0 => h (UInt64.toNat_inj.mp h0)
    have hlt : n.toNat < 10 ^ 20 := Nat.lt_trans n.toNat_lt (by decide)
    rw [List.length_map, List.length_reverse, Nat.length_digits 10 _ (by decide) hne]
    exact Nat.log_lt_of_lt_pow hne hlt

theorem parseBidRequest_requestId {pb : Protobuf} {payload : Bytes} {message : ParsedMessage}
    (h : parseBidRequest pb payload = (.ok, message)) :
    ∃ request, pb.parseFromArray payload = some request ∧
      message.requestId = request.requestId := by
  unfold parseBidRequest at h
  split at h
  · cases h
  · cases hp : pb.parseFromArray payload with
    | none => simp [hp] at h
    | some request =>
        simp only [hp] at h
        refine ⟨request, rfl, ?_⟩
        repeat' split at h
        all_goals first | (cases h; done) | (cases h; rfl)

/-- The fields of a response that take space. -/
theorem buildBidResponse_fields (context : RequestContext) (decision : BidDecision) :
    (buildBidResponse context decision).requestId = context.requestId ∧
      (buildBidResponse context decision).status ≠ .unspecified ∧
      (buildBidResponse context decision).campaignId.length ≤ 20 ∧
      (buildBidResponse context decision).creativeId.length ≤ 20 := by
  unfold buildBidResponse toProtoStatus
  cases hbid : decision.hasBid with
  | true => exact ⟨rfl, nofun, toDecimal_length_le _, toDecimal_length_le _⟩
  | false => exact ⟨rfl, nofun, Nat.zero_le _, Nat.zero_le _⟩

/-- A response to a payload below 16 KiB can be staged. -/
theorem Answers.stageable {env : Platform} {store : CampaignStoreSnapshot} {payload : Bytes}
    {response : BidResponse} (hpb : WireSizes env.protobuf)
    (h : Answers env store payload response) (hlen : 4 + payload.length ≤ 16 * 1024) :
    Stageable env.protobuf response := by
  obtain ⟨message, receivedAtNs, rng, clock, hparse, -, rfl⟩ := h
  obtain ⟨request, hrequest, hid⟩ := parseBidRequest_requestId hparse
  have hle := hpb.requestId_le payload request hrequest
  rw [handleRequest_result, resultFor]
  generalize (decideFor env.fl store (requestContext message receivedAtNs) rng).1 = decision
  obtain ⟨hreq, hstatus, hcampaign, hcreative⟩ :=
    buildBidResponse_fields (requestContext message receivedAtNs) decision
  rw [keysOf_requestContext.requestId, hid] at hreq
  simp only
  generalize buildBidResponse (requestContext message receivedAtNs) decision = response at *
  have hsize := hpb.size_le response
  have hlog : Nat.log 128 response.requestId.length ≤ 1 :=
    Nat.le_of_lt_succ (Nat.log_lt_of_lt_pow' (by decide) (by rw [hreq]; omega))
  have hlog1 : Nat.log 128 response.campaignId.length = 0 := Nat.log_of_lt (by omega)
  have hlog2 : Nat.log 128 response.creativeId.length = 0 := Nat.log_of_lt (by omega)
  simp only [stringFieldSize, hlog1, hlog2] at hsize
  refine ⟨hpb.size_pos response hstatus, ?_, hpb.serialize response⟩
  rw [hreq] at hsize hlog
  show env.protobuf.byteSizeLong response ≤ 64 * 1024
  omega

/-- **Staging never fails** under the default sizes. In every history the
response was staged with nothing unsent, non-empty and within the limit. -/
theorem staging_never_fails {env : Platform} {config : WorkerConfig}
    {store : CampaignStoreSnapshot} (hsizes : config.HasDefaultSizes)
    (hpb : WireSizes env.protobuf) {k : Call} {w : World} (hreach : Reaches env config store k w)
    {i : Nat} {before after : List SocketEvent} {event : SocketEvent}
    (hist : (w.kernel.sockets i).history = before ++ event :: after) :
    (∀ payload response, event ≠ .stagingFailed payload response) ∧
      ∀ payload response, event = .staged payload response →
        outbox env.protobuf before = [] ∧ 0 < env.protobuf.byteSizeLong response ∧
          env.protobuf.byteSizeLong response ≤ kMaxOutboundFrameSize := by
  obtain ⟨base, hw, -, -⟩ := hreach.waitOk hsizes.framesFit
  obtain ⟨-, hallowed⟩ := (hw.talk i).split hist
  constructor
  · rintro payload response rfl
    obtain ⟨-, hhead, -, hfits, hans, hfail⟩ := hallowed
    -- the frame was in the read buffer as a whole
    have hle := (frame_prefix_of_ready hhead).length_le
    rw [frame_length] at hle
    rw [hsizes.1] at hfits
    exact hfail (hans.stageable hpb (Nat.le_trans hle hfits))
  · rintro payload response rfl
    obtain ⟨-, -, hout, -, hpos, hmax, -⟩ := hallowed
    exact ⟨hout, hpos, hmax⟩

/-- A worker with the default sizes. -/
def defaultWorld : World := bootWorld {} 4 3 {} none {} { reading := fun _ => 0 }

def sampleResponse : BidResponse := { requestId := [113], status := .noBid }

/-- Staged in the sample run. -/
theorem staging_never_fails_sample : ∃ w before after,
    (connectionAt ((runWorkerLoop wirePlatform).run defaultWorld sampleAnswers)).map
      (fun p => p.2.1) = some w ∧
    (w.kernel.sockets 0).history = before ++ .staged sampleRequest sampleResponse :: after ∧
    outbox wirePlatform.protobuf before = [] ∧
    0 < wirePlatform.protobuf.byteSizeLong sampleResponse ∧
    wirePlatform.protobuf.byteSizeLong sampleResponse ≤ kMaxOutboundFrameSize := by
  have hrun : (connectionAt ((runWorkerLoop wirePlatform).run defaultWorld sampleAnswers)).any
      (fun p => SocketEvent.staged sampleRequest sampleResponse ∈
        (p.2.1.kernel.sockets 0).history) := by
    decide +kernel
  obtain ⟨⟨k, w, c⟩, hat, hp⟩ := (Option.any_eq_true _ _).mp hrun
  obtain ⟨before, after, hist⟩ := List.append_of_mem (of_decide_eq_true hp)
  obtain ⟨hwait, -, -⟩ := connectionAt_eq_some hat
  obtain ⟨-, hstaged⟩ := staging_never_fails ⟨rfl, rfl⟩ wireSizes_wireProtobuf
    ⟨4, 3, {}, none, { reading := fun _ => 0 }, sampleAnswers, hwait⟩ hist
  exact ⟨w, before, after, by rw [hat]; rfl, hist, hstaged _ _ rfl⟩

/-! ## Requests -/

/-- The frame of `p` is the next one in `bs`, as far as `bs` goes. -/
def AtHead (p bs : Bytes) : Prop := bs <+: frame p ∨ frame p <+: bs

/-- What a history has to show for the frame of `p`: the buffer is never
full while it is at the head, every read is followed by a frame check, and a
check that has all its bytes before it hands `p` to the parser. -/
structure Served (p : Bytes) (h : List SocketEvent) : Prop where
  neverFull : ∀ before after, h = before ++ .bufferFull :: after → ¬ AtHead p (inbox before)
  checked : ∀ before bytes after, h = before ++ .received bytes :: after →
    ∃ status rest, after = .frameChecked status :: rest
  handed : ∀ before status after, h = before ++ .frameChecked status :: after →
    frame p <+: inbox before → status = .frameReady ∧ ∃ rest, after = .parsed p :: rest

/-- Every socket serves the frame of `p`; and where one sleeps with all its
bytes at the head, a response to an earlier request is on its way. -/
structure Serves (p : Bytes) (k : Call) (w : World) : Prop where
  served : ∀ i, Served p (w.kernel.sockets i).history
  awake : k = .epollWait → ∀ fd c, w.runtime.connections fd = some c →
    frame p <+: c.readBuffer.readable → c.hasPendingWrite = true

section

variable {env : Platform} {config : WorkerConfig} {store : CampaignStoreSnapshot}
  {h : List SocketEvent} {p : Bytes}

theorem headVerdict_of_frame {limit : Nat} {bs : Bytes} (hpos : 1 ≤ p.length)
    (hlim : p.length ≤ limit) (hlt : p.length < 2 ^ 32) (hpre : frame p <+: bs) :
    headVerdict limit bs = .ready p := by
  obtain ⟨rest, rfl⟩ := hpre
  exact (headVerdict_ready_iff _ _ _).mpr ⟨rest, rfl, hpos, hlim, hlt⟩

/-- Who owes an event is not the last. -/
theorem Settled.last {before after : List SocketEvent} {e : SocketEvent} (hset : Settled h)
    (hist : h = before ++ e :: after) (howes : ¬ Settled (before ++ [e])) :
    ∃ e' rest, after = e' :: rest := by
  cases after with
  | nil =>
      subst hist
      exact absurd hset howes
  | cons e' rest => exact ⟨e', rest, rfl⟩

/-- A frame that fits the buffer is served. -/
theorem Conversation.served (hc : Conversation env config store h) (hset : Settled h)
    (hsizes : config.HasDefaultSizes) (hpos : 1 ≤ p.length) (hmax : p.length ≤ 64 * 1024)
    (hfits : 4 + p.length ≤ 16 * 1024) : Served p h := by
  have hlim : p.length ≤ config.maxFrameSize.toNat := by
    rw [hsizes.2]
    exact hmax
  refine ⟨?_, ?_, ?_⟩
  · intro before after hist hhead
    obtain ⟨-, -, hshort, hfull⟩ := hc.split hist
    rw [hsizes.1] at hfull
    rcases hhead with hpre | hpre
    · -- what is there of the frame is shorter than the buffer
      have hle := hpre.length_le
      rw [frame_length] at hle
      have hall : inbox before = frame p := hpre.eq_of_length (by rw [frame_length]; omega)
      unfold headOf at hshort
      rw [headVerdict_of_frame hpos hlim (by omega) (by rw [hall])] at hshort
      cases hshort
    · unfold headOf at hshort
      rw [headVerdict_of_frame hpos hlim (by omega) hpre] at hshort
      cases hshort
  · intro before bytes after hist
    have howes : ¬ Settled (before ++ [.received bytes]) := by
      rw [settled_snoc]
      exact fun hs => hs.1 bytes rfl
    obtain ⟨e, rest, rfl⟩ := hset.last hist howes
    have hnext := hc.split_pair hist
    rcases Allowed.settled_or hnext with hs | ⟨status, rfl⟩ | ⟨payload, rfl⟩
    · exact absurd hs howes
    · exact ⟨status, rest, rfl⟩
    · have hlast := hnext.1
      simp at hlast
  · intro before status after hist hpre
    obtain ⟨-, -, -, hstatus⟩ := hc.split hist
    have hready : headOf config before = .ready p :=
      headVerdict_of_frame hpos hlim (by omega) hpre
    rw [hready] at hstatus
    subst hstatus
    refine ⟨rfl, ?_⟩
    have howes : ¬ Settled (before ++ [.frameChecked .frameReady]) := by
      rw [settled_snoc]
      exact fun hs => hs.2 rfl
    obtain ⟨e, rest, rfl⟩ := hset.last hist howes
    have hnext := hc.split_pair hist
    rcases Allowed.settled_or hnext with hs | ⟨status, rfl⟩ | ⟨payload, rfl⟩
    · exact absurd hs howes
    · have hlast := hnext.1
      simp [ReusableBuffer.verdictStatus] at hlast
    · have hhead := hnext.2
      rw [headOf_snoc_quiet rfl, hready] at hhead
      cases hhead
      exact ⟨rest, rfl⟩

end

/-! ## A frame that does not fit -/

section

variable {env : Platform} {p : Bytes}

/-- A client connects on 5, and the buffer is filled with the first bytes of
the frame of `p`. -/
def connectAnswers : List Answer :=
  [.events (.ok [⟨3, EPOLLIN⟩]), .go, .accepted (.ok 5), .controlled true,
    .accepted (.error .eagain)]

def overflowAnswers (p : Bytes) : List Answer :=
  [.events (.ok [⟨5, EPOLLIN⟩]), .go, .readBytes (.ok ((frame p).take (16 * 1024)))]

/-- The session of that client. -/
def connectedSession : Session :=
  { connection := newConnection defaultWorld 5
    socket := { interest := some (EPOLLIN ||| EPOLLRDHUP) }
    rng := {}
    recorder := none
    shutdownSignals := 0
    clock := { reading := fun _ => 0 } }

def connectedWorld : World := putSession 5 connectedSession (defaultWorld.enter 5)

theorem run_epollRound_connect (rest : List Answer) :
    (epollRound env ()).run defaultWorld (connectAnswers ++ rest) =
      .done (.again ()) connectedWorld rest := rfl

theorem run_epollRound_overflow (hbig : 16 * 1024 < 4 + p.length) (hmax : p.length ≤ 64 * 1024) :
    ∃ w, (epollRound env ()).run connectedWorld (overflowAnswers p) = .done (.again ()) w [] ∧
      (w.kernel.sockets 0).history = [.frameChecked .needMoreData,
        .received ((frame p).take (16 * 1024)), .frameChecked .needMoreData, .bufferFull] := by
  have hwf := ReusableBuffer.wf_empty
  have hlen : ((frame p).take (16 * 1024)).length = 16 * 1024 := by
    rw [List.length_take, frame_length]
    omega
  have hcap : connectedSession.connection.readBuffer.storage.length = 16 * 1024 := by
    show (ReusableBuffer.reserve {} (16 * 1024)).storage.length = _
    rw [ReusableBuffer.length_reserve]
    rfl
  have hwf' : connectedSession.connection.readBuffer.Wf := hwf.reserve (16 * 1024)
  have hroom : connectedSession.connection.readBuffer.writableRegion.length = 16 * 1024 := by
    rw [hwf'.length_writableRegion, ReusableBuffer.writableBytes, hcap]
    show 16 * 1024 - (ReusableBuffer.reserve {} (16 * 1024)).writeOffset = 16 * 1024
    rw [ReusableBuffer.reserve_writeOffset]
    rfl
  have hshort : headVerdict ({} : WorkerConfig).maxFrameSize.toNat
      ((frame p).take (16 * 1024)) = .short := by
    apply headVerdict_of_incomplete (List.take_prefix _ _)
    · rw [hlen]
      exact hbig
    · omega
    · exact hmax
    · omega
  obtain ⟨s', hserve, hist⟩ := @run_serveClient_overflow env {} {} connectedSession
    hwf' (hwf.readable_reserve _) rfl _
    (List.ne_nil_of_length_pos (by rw [hlen]; decide)) (hlen.trans hcap.symm)
    (hlen.trans hroom.symm) hshort EPOLLIN []
  have hevent := @run_handleEvent_close env connectedSession connectedWorld s' ⟨5, EPOLLIN⟩ _ []
    (newConnection defaultWorld 5) (by decide) rfl (by decide) rfl (by decide) rfl hserve
  have hbatch := run_handleBatch_one (by decide) hevent
  refine ⟨_, run_epollRound_batch (by decide) hbatch, ?_⟩
  show (((putSession 5 s' connectedWorld).kernel.close 5).sockets 0).history = _
  have hi : connectedWorld.kernel.fdTable 5 = some 0 := rfl
  have hi' : (putSession 5 s' connectedWorld).kernel.fdTable 5 = some 0 := rfl
  rw [Kernel.close_sockets hi', putSession_sockets hi, Function.update_self, hist]
  rfl

/-- The buffer fills up with the frame still incomplete. -/
theorem overflow_reached (hbig : 16 * 1024 < 4 + p.length) (hmax : p.length ≤ 64 * 1024) :
    ∃ w, Reaches env {} {} .epollWait w ∧ ¬ Served p (w.kernel.sockets 0).history := by
  obtain ⟨w, hround, hist⟩ := @run_epollRound_overflow env p hbig hmax
  have hrun : (runWorkerLoop env).run defaultWorld (connectAnswers ++ overflowAnswers p) =
      .waiting .epollWait w := by
    unfold runWorkerLoop
    rw [loop_unfold (productive_epollRound _), run_epollRound_connect]
    show (loop (epollRound env) ()).run connectedWorld (overflowAnswers p) = _
    rw [loop_unfold (productive_epollRound _), hround]
    rfl
  refine ⟨w, ⟨4, 3, {}, none, { reading := fun _ => 0 }, _, hrun⟩, fun hserved => ?_⟩
  refine hserved.neverFull [.frameChecked .needMoreData,
    .received ((frame p).take (16 * 1024)), .frameChecked .needMoreData] [] (by rw [hist]; rfl)
    (.inl ?_)
  have hinbox : inbox [.frameChecked .needMoreData,
      .received ((frame p).take (16 * 1024)), .frameChecked .needMoreData] =
      (frame p).take (16 * 1024) := by
    simp [inbox, receivedBytes, handledPayloads]
  rw [hinbox]
  exact List.take_prefix _ _

end

/-- **Which frames the default sizes serve.** Of the payloads that
`try_extract_frame` admits, exactly those whose frame fits the read buffer are
served in every run. -/
theorem served_iff_fits {p : Bytes} (hpos : 1 ≤ p.length) (hmax : p.length ≤ 64 * 1024) :
    (∀ env config store k w, WorkerConfig.HasDefaultSizes config →
        Reaches env config store k w → Serves p k w) ↔
      4 + p.length ≤ 16 * 1024 := by
  constructor
  · intro hall
    by_contra hbig
    obtain ⟨w, hreach, hnot⟩ := @overflow_reached wirePlatform p (by omega) hmax
    exact hnot ((hall _ _ _ _ _ ⟨rfl, rfl⟩ hreach).served 0)
  · intro hfits env config store k w hsizes hreach
    obtain ⟨base, hw, -, hrest⟩ := hreach.waitOk hsizes.framesFit
    refine ⟨fun i => (hw.talk i).served (hw.settled i) hsizes hpos hmax hfits, ?_⟩
    rintro rfl fd c hc hpre
    obtain ⟨i, hi⟩ := hw.descriptor hc
    by_contra hidle
    have hshort := ((hrest fd c i hc hi).idle (by simpa using hidle)).1
    unfold headOf at hshort
    rw [← (hw.bound hc hi).sync.inbox, headVerdict_of_frame hpos (by rw [hsizes.2]; exact hmax)
      (by omega) hpre] at hshort
    cases hshort

/-- The shortest payload that is admitted and not served. -/
theorem not_served_16381 :
    ¬ ∀ env config store k w, WorkerConfig.HasDefaultSizes config →
        Reaches env config store k w → Serves (List.replicate 16381 0) k w := by
  intro hall
  obtain ⟨w, hreach, hnot⟩ := @overflow_reached wirePlatform (List.replicate 16381 0)
    (by rw [List.length_replicate]; decide) (by rw [List.length_replicate]; decide)
  exact hnot ((hall _ _ _ _ _ ⟨rfl, rfl⟩ hreach).served 0)

/-- Requests of the size of the sample are served. -/
theorem served_iff_fits_sample : sampleRequest.length = 22 ∧
    ∀ env config store k w, WorkerConfig.HasDefaultSizes config →
      Reaches env config store k w → Serves sampleRequest k w :=
  ⟨rfl, (served_iff_fits (by decide) (by decide)).mpr (by decide)⟩

end RtbEngine
