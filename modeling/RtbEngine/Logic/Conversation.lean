import Mathlib.Data.List.Forall2
import RtbEngine.Lib.Trace
import RtbEngine.Engine.Worker

/-!
# The conversation on one socket

The abstract protocol of a connection, over the events of its socket alone:
bytes come in and are cut into frames, one request at a time is parsed and
answered, and the answer goes out before the next request is looked at.
`Allowed` says which event may come next, from the events so far.

* `received_eq`, `sent_eq` — nothing is lost or made up between the bytes on
  the socket and the payloads and responses handled;
* `outbox_tail` — at most one response is on its way;
* `delivered_count` — a client that decodes what was sent finds every
  response but the one still on its way.
-/

namespace RtbEngine

open Lib Framing

/-! ## What a history amounts to -/

def receivedBytes (h : List SocketEvent) : Bytes :=
  h.flatMap fun
    | .received bytes => bytes
    | _ => []

def sentBytes (h : List SocketEvent) : Bytes :=
  h.flatMap fun
    | .sent bytes => bytes
    | _ => []

/-- The payloads for which a response was staged. -/
def handledPayloads (h : List SocketEvent) : List Bytes :=
  h.filterMap fun
    | .staged payload _ => some payload
    | _ => none

def stagedResponses (h : List SocketEvent) : List BidResponse :=
  h.filterMap fun
    | .staged _ response => some response
    | _ => none

/-- The bytes the generated code makes of a response. -/
def serialized (pb : Protobuf) (response : BidResponse) : Bytes :=
  (pb.serializeToArray response (pb.byteSizeLong response)).getD []

/-- The frames of all staged responses. -/
def outbound (pb : Protobuf) (h : List SocketEvent) : Bytes :=
  frames ((stagedResponses h).map (serialized pb))

/-- The received bytes behind the handled frames. -/
def inbox (h : List SocketEvent) : Bytes :=
  (receivedBytes h).drop (frames (handledPayloads h)).length

/-- The staged bytes that were not sent. -/
def outbox (pb : Protobuf) (h : List SocketEvent) : Bytes :=
  (outbound pb h).drop (sentBytes h).length

/-! ## The protocol -/

/-- `response` is what `handle_request` answers to `payload`. -/
def Answers (env : Platform) (store : CampaignStoreSnapshot) (payload : Bytes)
    (response : BidResponse) : Prop :=
  ∃ message receivedAtNs rng clock,
    parseBidRequest env.protobuf payload = (.ok, message) ∧
    (handleRequest env.fl message receivedAtNs store rng clock).result.status = .responseReady ∧
    (handleRequest env.fl message receivedAtNs store rng clock).result.response = response

/-- `stage_response_frame` into an empty buffer succeeds. -/
def Stageable (pb : Protobuf) (response : BidResponse) : Prop :=
  0 < pb.byteSizeLong response ∧ pb.byteSizeLong response ≤ kMaxOutboundFrameSize ∧
    (pb.serializeToArray response (pb.byteSizeLong response)).isSome

/-- No event is owed: what was received has been looked at, and a frame that
was found has been parsed. -/
def Settled (h : List SocketEvent) : Prop :=
  match h.getLast? with
  | some (.received _) => False
  | some (.frameChecked .frameReady) => False
  | _ => True

section

variable (env : Platform) (config : WorkerConfig) (store : CampaignStoreSnapshot)

/-- The verdict on the head of the inbox. -/
def headOf (h : List SocketEvent) : Verdict := headVerdict config.maxFrameSize.toNat (inbox h)

/-- Which event may follow the history `h`. -/
def Allowed (h : List SocketEvent) : SocketEvent → Prop
  | .received bytes =>
      Settled h ∧ bytes ≠ [] ∧ (inbox h ++ bytes).length ≤ config.connectionBufferCapacity
  | .endOfFile => Settled h
  | .hungUp _ => Settled h
  | .readFailed _ => Settled h
  | .sent bytes => Settled h ∧ bytes ≠ [] ∧ bytes <+: outbox env.protobuf h
  | .frameChecked status =>
      h.getLast? ≠ some (.frameChecked .frameReady) ∧ outbox env.protobuf h = [] ∧
        status = ReusableBuffer.verdictStatus (headOf config h)
  | .parsed payload =>
      h.getLast? = some (.frameChecked .frameReady) ∧ headOf config h = .ready payload
  | .staged payload response =>
      Settled h ∧ headOf config h = .ready payload ∧ outbox env.protobuf h = [] ∧
        Answers env store payload response ∧ Stageable env.protobuf response
  | .stagingFailed payload response =>
      Settled h ∧ headOf config h = .ready payload ∧ outbox env.protobuf h = [] ∧
        (inbox h).length ≤ config.connectionBufferCapacity ∧
        Answers env store payload response ∧ ¬ Stageable env.protobuf response
  | .bufferFull =>
      Settled h ∧ headOf config h = .short ∧
        config.connectionBufferCapacity ≤ (inbox h).length

/-- A history the protocol allows. -/
abbrev Conversation (h : List SocketEvent) : Prop := Runs (Allowed env config store) h

end

/-! ## One event -/

section Snoc

variable (pb : Protobuf) (h : List SocketEvent)

@[simp] theorem settled_nil : Settled [] := trivial

theorem settled_snoc (e : SocketEvent) :
    Settled (h ++ [e]) ↔
      (∀ bytes, e ≠ .received bytes) ∧ e ≠ .frameChecked .frameReady := by
  unfold Settled
  rw [List.getLast?_append]
  cases e with
  | frameChecked status => cases status <;> simp
  | _ => simp

theorem receivedBytes_snoc (e : SocketEvent) :
    receivedBytes (h ++ [e]) = receivedBytes h ++ receivedBytes [e] :=
  List.flatMap_append

theorem sentBytes_snoc (e : SocketEvent) : sentBytes (h ++ [e]) = sentBytes h ++ sentBytes [e] :=
  List.flatMap_append

theorem handledPayloads_snoc (e : SocketEvent) :
    handledPayloads (h ++ [e]) = handledPayloads h ++ handledPayloads [e] :=
  List.filterMap_append

theorem stagedResponses_snoc (e : SocketEvent) :
    stagedResponses (h ++ [e]) = stagedResponses h ++ stagedResponses [e] :=
  List.filterMap_append

@[simp] theorem receivedBytes_singleton (bytes : Bytes) :
    receivedBytes [.received bytes] = bytes :=
  List.append_nil bytes

@[simp] theorem sentBytes_singleton (bytes : Bytes) : sentBytes [.sent bytes] = bytes :=
  List.append_nil bytes

section

variable {h} {e : SocketEvent}

theorem receivedBytes_snoc_none (he : receivedBytes [e] = []) :
    receivedBytes (h ++ [e]) = receivedBytes h := by
  rw [receivedBytes_snoc, he, List.append_nil]

theorem sentBytes_snoc_none (he : sentBytes [e] = []) : sentBytes (h ++ [e]) = sentBytes h := by
  rw [sentBytes_snoc, he, List.append_nil]

theorem handledPayloads_snoc_none (he : handledPayloads [e] = []) :
    handledPayloads (h ++ [e]) = handledPayloads h := by
  rw [handledPayloads_snoc, he, List.append_nil]

theorem stagedResponses_snoc_none (he : stagedResponses [e] = []) :
    stagedResponses (h ++ [e]) = stagedResponses h := by
  rw [stagedResponses_snoc, he, List.append_nil]

end

/-- Events that move no byte and stage nothing. -/
def SocketEvent.isQuiet : SocketEvent → Bool
  | .received _ | .sent _ | .staged _ _ => false
  | _ => true

variable {h} in
theorem inbox_snoc_quiet {e : SocketEvent} (he : e.isQuiet) : inbox (h ++ [e]) = inbox h := by
  have hreceived : receivedBytes [e] = [] := by cases e <;> first | rfl | cases he
  have hhandled : handledPayloads [e] = [] := by cases e <;> first | rfl | cases he
  rw [inbox, receivedBytes_snoc_none hreceived, handledPayloads_snoc_none hhandled, inbox]

variable {h} in
theorem stagedResponses_snoc_quiet {e : SocketEvent} (he : e.isQuiet) :
    stagedResponses (h ++ [e]) = stagedResponses h := by
  have hstaged : stagedResponses [e] = [] := by cases e <;> first | rfl | cases he
  exact stagedResponses_snoc_none hstaged

variable {h} in
theorem outbox_snoc_quiet {e : SocketEvent} (he : e.isQuiet) :
    outbox pb (h ++ [e]) = outbox pb h := by
  have hsent : sentBytes [e] = [] := by cases e <;> first | rfl | cases he
  rw [outbox, outbound, sentBytes_snoc_none hsent, stagedResponses_snoc_quiet he, outbox, outbound]

@[simp] theorem inbox_snoc_sent (bytes : Bytes) : inbox (h ++ [.sent bytes]) = inbox h := by
  rw [inbox, receivedBytes_snoc_none rfl, handledPayloads_snoc_none rfl, inbox]

@[simp] theorem outbox_snoc_received (bytes : Bytes) :
    outbox pb (h ++ [.received bytes]) = outbox pb h := by
  rw [outbox, outbound, sentBytes_snoc_none rfl, stagedResponses_snoc_none rfl, outbox, outbound]

@[simp] theorem outbox_snoc_sent (bytes : Bytes) :
    outbox pb (h ++ [.sent bytes]) = (outbox pb h).drop bytes.length := by
  rw [outbox, outbound, sentBytes_snoc, sentBytes_singleton, stagedResponses_snoc_none rfl,
    List.length_append, outbox, outbound, List.drop_drop]

@[simp] theorem inbox_snoc_staged (payload : Bytes) (response : BidResponse) :
    inbox (h ++ [.staged payload response]) = (inbox h).drop (frame payload).length := by
  have hhandled : handledPayloads (h ++ [.staged payload response]) =
      handledPayloads h ++ [payload] := handledPayloads_snoc h _
  rw [inbox, hhandled, receivedBytes_snoc_none rfl, frames_snoc, List.length_append, inbox,
    List.drop_drop]

theorem outbound_snoc_staged (payload : Bytes) (response : BidResponse) :
    outbound pb (h ++ [.staged payload response]) =
      outbound pb h ++ frame (serialized pb response) := by
  have hstaged : stagedResponses (h ++ [.staged payload response]) =
      stagedResponses h ++ [response] := stagedResponses_snoc h _
  rw [outbound, hstaged, List.map_append, List.map_singleton, frames_snoc, outbound]

end Snoc

/-! ## Whole conversations -/

section

variable {env : Platform} {config : WorkerConfig} {store : CampaignStoreSnapshot}
  {h : List SocketEvent}

/-- Only a frame check or the parser may follow an event that owes one. -/
theorem Allowed.settled_or {e : SocketEvent} (he : Allowed env config store h e) :
    Settled h ∨ (∃ status, e = .frameChecked status) ∨ ∃ payload, e = .parsed payload := by
  cases e with
  | frameChecked status => exact .inr (.inl ⟨status, rfl⟩)
  | parsed payload => exact .inr (.inr ⟨payload, rfl⟩)
  | endOfFile | readFailed _ | hungUp _ => exact .inl he
  | received _ | sent _ | staged _ _ | stagingFailed _ _ | bufferFull => exact .inl he.1

theorem frame_prefix_of_ready {p : Bytes} (hp : headOf config h = .ready p) :
    frame p <+: inbox h := by
  obtain ⟨rest, hrest, _⟩ := (headVerdict_ready_iff _ _ _).mp hp
  exact ⟨rest, hrest.symm⟩

/-- The handled frames are at the front of what was received. -/
theorem received_eq (hc : Conversation env config store h) :
    receivedBytes h = frames (handledPayloads h) ++ inbox h := by
  induction hc with
  | nil => rfl
  | @snoc h e _ he ih =>
      cases e with
      | received bytes =>
          rw [inbox, receivedBytes_snoc, receivedBytes_singleton, handledPayloads_snoc_none rfl, ih]
          simp
      | staged payload response =>
          -- the frame that was handled leaves the front of the inbox
          obtain ⟨rest, hrest⟩ := frame_prefix_of_ready he.2.1
          have hhandled : handledPayloads (h ++ [.staged payload response]) =
              handledPayloads h ++ [payload] := handledPayloads_snoc h _
          rw [receivedBytes_snoc_none rfl, hhandled, inbox_snoc_staged, ih, frames_snoc, ← hrest]
          simp
      | sent bytes =>
          rw [inbox_snoc_sent, receivedBytes_snoc_none rfl, handledPayloads_snoc_none rfl]
          exact ih
      | endOfFile | readFailed _ | frameChecked _ | parsed _ | stagingFailed _ _ | bufferFull
      | hungUp _ =>
          rw [inbox_snoc_quiet rfl, receivedBytes_snoc_none rfl, handledPayloads_snoc_none rfl]
          exact ih

@[simp] theorem inbox_snoc_received (hc : Conversation env config store h) (bytes : Bytes) :
    inbox (h ++ [.received bytes]) = inbox h ++ bytes := by
  rw [inbox, receivedBytes_snoc, receivedBytes_singleton, handledPayloads_snoc_none rfl,
    received_eq hc]
  simp

/-- What was sent is at the front of what was staged. -/
theorem sent_eq (hc : Conversation env config store h) :
    sentBytes h ++ outbox env.protobuf h = outbound env.protobuf h := by
  induction hc with
  | nil => rfl
  | @snoc h e _ he ih =>
      cases e with
      | sent bytes =>
          obtain ⟨rest, hrest⟩ := he.2.2
          have hout : outbound env.protobuf (h ++ [.sent bytes]) = outbound env.protobuf h := by
            rw [outbound, stagedResponses_snoc_none rfl, outbound]
          rw [outbox_snoc_sent, sentBytes_snoc, sentBytes_singleton, hout, ← ih, ← hrest]
          simp
      | staged payload response =>
          rw [outbox, outbound_snoc_staged, sentBytes_snoc_none rfl, ← ih]
          simp
      | received bytes =>
          rw [outbox_snoc_received, sentBytes_snoc_none rfl, outbound, stagedResponses_snoc_none rfl]
          exact ih
      | endOfFile | readFailed _ | frameChecked _ | parsed _ | stagingFailed _ _ | bufferFull
      | hungUp _ =>
          rw [outbox_snoc_quiet _ rfl, sentBytes_snoc_none rfl, outbound,
            stagedResponses_snoc_none rfl]
          exact ih

theorem outbox_snoc_staged (hc : Conversation env config store h) (payload : Bytes)
    (response : BidResponse) :
    outbox env.protobuf (h ++ [.staged payload response]) =
      outbox env.protobuf h ++ frame (serialized env.protobuf response) := by
  rw [outbox, outbound_snoc_staged, sentBytes_snoc_none rfl, ← sent_eq hc]
  simp

/-- Every handled payload had an admissible length. -/
theorem handledPayloads_length (hc : Conversation env config store h) :
    ∀ p ∈ handledPayloads h,
      1 ≤ p.length ∧ p.length ≤ config.maxFrameSize.toNat ∧ p.length < 2 ^ 32 := by
  induction hc with
  | nil => exact nofun
  | @snoc h e _ he ih =>
      cases e with
      | staged payload response =>
          intro p hp
          rw [handledPayloads_snoc] at hp
          rcases List.mem_append.mp hp with hp | hp
          · exact ih p hp
          · cases List.mem_singleton.mp hp
            obtain ⟨_, _, h1, h2, h3⟩ := (headVerdict_ready_iff _ _ _).mp he.2.1
            exact ⟨h1, h2, h3⟩
      | received _ | sent _ | endOfFile | readFailed _ | frameChecked _ | parsed _
      | stagingFailed _ _ | bufferFull | hungUp _ =>
          rw [handledPayloads_snoc_none rfl]
          exact ih

/-- Each handled payload has its answer, in the same place. -/
theorem handledPayloads_answers (hc : Conversation env config store h) :
    List.Forall₂ (Answers env store) (handledPayloads h) (stagedResponses h) := by
  induction hc with
  | nil => exact .nil
  | @snoc h e _ he ih =>
      cases e with
      | staged payload response =>
          rw [handledPayloads_snoc, stagedResponses_snoc]
          exact List.rel_append ih (.cons he.2.2.2.1 .nil)
      | received _ | sent _ | endOfFile | readFailed _ | frameChecked _ | parsed _
      | stagingFailed _ _ | bufferFull | hungUp _ =>
          rw [handledPayloads_snoc_none rfl, stagedResponses_snoc_none rfl]
          exact ih

/-- The handled payloads are the first ones that were received. -/
theorem handledPayloads_prefix (hc : Conversation env config store h) :
    handledPayloads h <+: decode (receivedBytes h) := by
  have hlen : ∀ p ∈ handledPayloads h, p.length < 2 ^ 32 := fun p hp =>
    (handledPayloads_length hc p hp).2.2
  rw [received_eq hc, decode_frames_append hlen]
  exact List.prefix_append _ _

theorem serialized_length {pb : Protobuf} {response : BidResponse} (hs : Stageable pb response) :
    (serialized pb response).length = pb.byteSizeLong response := by
  obtain ⟨bytes, hbytes⟩ := Option.isSome_iff_exists.mp hs.2.2
  rw [serialized, hbytes, Option.getD_some]
  exact pb.length_serialize _ _ _ hbytes

/-- Every staged response could be staged. -/
theorem stagedResponses_stageable (hc : Conversation env config store h) :
    ∀ r ∈ stagedResponses h, Stageable env.protobuf r := by
  induction hc with
  | nil => exact nofun
  | @snoc h e _ he ih =>
      cases e with
      | staged payload response =>
          intro r hr
          rw [stagedResponses_snoc] at hr
          rcases List.mem_append.mp hr with hr | hr
          · exact ih r hr
          · cases List.mem_singleton.mp hr
            exact he.2.2.2.2
      | received _ | sent _ | endOfFile | readFailed _ | frameChecked _ | parsed _
      | stagingFailed _ _ | bufferFull | hungUp _ =>
          rw [stagedResponses_snoc_none rfl]
          exact ih

/-- **At most one response is on its way**: what is not yet sent is the tail
of the frame staged last. -/
theorem outbox_tail (hc : Conversation env config store h) :
    outbox env.protobuf h = [] ∨
      ∃ earlier last, stagedResponses h = earlier ++ [last] ∧
        outbox env.protobuf h <:+ frame (serialized env.protobuf last) := by
  induction hc with
  | nil => exact .inl rfl
  | @snoc h e hc he ih =>
      cases e with
      | staged payload response =>
          refine .inr ⟨stagedResponses h, response, stagedResponses_snoc h _, ?_⟩
          rw [outbox_snoc_staged hc, he.2.2.1]
          exact List.suffix_refl _
      | sent bytes =>
          rw [outbox_snoc_sent, stagedResponses_snoc_none rfl]
          rcases ih with ih | ⟨earlier, last, hlast, htail⟩
          · exact .inl (by rw [ih, List.drop_nil])
          · exact .inr ⟨earlier, last, hlast, (List.drop_suffix _ _).trans htail⟩
      | received bytes =>
          rw [outbox_snoc_received, stagedResponses_snoc_none rfl]
          exact ih
      | endOfFile | readFailed _ | frameChecked _ | parsed _ | stagingFailed _ _ | bufferFull
      | hungUp _ =>
          rw [outbox_snoc_quiet _ rfl, stagedResponses_snoc_none rfl]
          exact ih

theorem serialized_pos {pb : Protobuf} {response : BidResponse} (hs : Stageable pb response) :
    1 ≤ (serialized pb response).length ∧ (serialized pb response).length < 2 ^ 32 := by
  have h1 := hs.1
  have h2 := hs.2.1
  rw [serialized_length hs]
  unfold kMaxOutboundFrameSize at h2
  omega

theorem serialized_staged_lt (hc : Conversation env config store h) :
    ∀ p ∈ (stagedResponses h).map (serialized env.protobuf), p.length < 2 ^ 32 := by
  intro p hp
  obtain ⟨r, hr, rfl⟩ := List.mem_map.mp hp
  exact (serialized_pos (stagedResponses_stageable hc r hr)).2

/-- **What clients got.** Decoding the sent bytes gives every staged response
but the one that is still on its way. -/
theorem delivered_count (hc : Conversation env config store h) :
    (decode (sentBytes h)).length + (if outbox env.protobuf h = [] then 0 else 1) =
      (stagedResponses h).length := by
  have hstage := stagedResponses_stageable hc
  have hlen := serialized_staged_lt hc
  have hsent := sent_eq hc
  by_cases hempty : outbox env.protobuf h = []
  · rw [if_pos hempty]
    rw [hempty, List.append_nil, outbound] at hsent
    rw [hsent, decode_frames hlen, List.length_map, Nat.add_zero]
  · rw [if_neg hempty]
    rcases outbox_tail hc with hnil | ⟨earlier, last, hlast, tail, htail⟩
    · exact absurd hnil hempty
    · have hlastLen := serialized_pos (hstage last (by rw [hlast]; simp))
      -- the sent bytes are the earlier frames and a proper prefix of the last
      have hsplit : sentBytes h = frames (earlier.map (serialized env.protobuf)) ++ tail := by
        rw [outbound, hlast, List.map_append, frames_append, List.map_singleton,
          show frames [serialized env.protobuf last] = frame (serialized env.protobuf last) by
            simp [frames], ← htail, ← List.append_assoc] at hsent
        exact List.append_cancel_right hsent
      have hshort : tail.length < 4 + (serialized env.protobuf last).length := by
        have hl := congrArg List.length htail
        have hpos := List.length_pos_iff.mpr hempty
        simp only [List.length_append, frame_length] at hl
        omega
      have htailNil : decode tail = [] :=
        decode_of_short (headVerdict_of_incomplete ⟨_, htail⟩ hshort hlastLen.1 (Nat.le_refl _) hlastLen.2)
      have hearlier : ∀ p ∈ earlier.map (serialized env.protobuf), p.length < 2 ^ 32 := by
        intro p hp
        exact hlen p (by rw [hlast, List.map_append]; exact List.mem_append_left _ hp)
      rw [hsplit, decode_frames_append hearlier, htailNil, hlast]
      simp

end

end RtbEngine
