import RtbEngine.Engine.Wire
import RtbEngine.Logic.Worker

/-!
# Requests in, responses out

What the clients of a worker can rely on, whatever the order of events, the
chunking of reads and writes, and the failures in between: requests are
handled in the order and at the boundaries in which they were sent, and the
responses go out in that order and unbroken.
-/

namespace RtbEngine

open Lib Exec Framing

/-- A connection with the history `h` of its socket: the handled payloads are
the first ones that were received, the read buffer holds the bytes behind
them, and what was sent and what is in the write buffer are the framed
responses to them. -/
structure StreamIntact (env : Platform) (store : CampaignStoreSnapshot) (c : ConnectionState)
    (h : List SocketEvent) : Prop where
  handled : handledPayloads h <+: decode (receivedBytes h)
  answered : List.Forall₂ (Answers env store) (handledPayloads h) (stagedResponses h)
  unread : receivedBytes h = frames (handledPayloads h) ++ c.readBuffer.readable
  unsent : sentBytes h ++ c.writeBuffer.readable =
    frames ((stagedResponses h).map (serialized env.protobuf))

/-- **Stream integrity.** Wherever a run waits, between two events or inside
a handler, every open connection has its streams intact. -/
theorem stream_integrity {env : Platform} {config : WorkerConfig} {store : CampaignStoreSnapshot}
    (hfit : config.FramesFit) {k : Call} {w : World} (hreach : Reaches env config store k w)
    {fd : Fd} {c : ConnectionState} (hc : w.runtime.connections fd = some c) :
    ∃ i, w.kernel.fdTable fd = some i ∧ StreamIntact env store c (w.kernel.sockets i).history := by
  obtain ⟨base, hw, -, -⟩ := hreach.waitOk hfit
  obtain ⟨i, hi⟩ := hw.descriptor hc
  have hsync := (hw.bound hc hi).sync
  refine ⟨i, hi, handledPayloads_prefix hsync.talk, handledPayloads_answers hsync.talk, ?_, ?_⟩
  · rw [hsync.inbox]
    exact received_eq hsync.talk
  · rw [hsync.outbox]
    exact sent_eq hsync.talk

/-! ## A run -/

/-- Over the wire format, with exact prices. -/
def wirePlatform : Platform := { protobuf := wireProtobuf, fl := id }

/-- A request with the `request_id` "q" for the ad slot "s" in the US, on a
mobile device, first price, 50 ms. -/
def sampleRequest : Bytes :=
  [10, 1, 113, 16, 50, 26, 2, 85, 83, 34, 6, 109, 111, 98, 105, 108, 101, 42, 1, 115, 48, 1]

/-- Buffers of 64 bytes, room for two requests and a part of a third. -/
def sampleConfig : WorkerConfig :=
  { connectionBufferCapacity := 64, maxFrameSize := 40, shutdownFd := 7 }

/-- The listening socket is 3, and no campaign is in the store. -/
def sampleWorld (recorder : Option BenchmarkRecorder) : World :=
  bootWorld sampleConfig 4 3 {} recorder {} { reading := fun _ => 0 }

/-- A client connects on 5 and sends two requests and the first bytes of a
third in one piece; of the first response, two bytes go out. -/
def sampleAnswers : List Answer :=
  [.events (.ok [⟨3, EPOLLIN⟩]), .go, .accepted (.ok 5), .controlled true,
    .accepted (.error .eagain),
    .events (.ok [⟨5, EPOLLIN⟩]), .go,
    .readBytes (.ok (frame sampleRequest ++ frame sampleRequest ++ [0, 0])), .controlled true,
    .events (.ok [⟨5, EPOLLIN ||| EPOLLOUT⟩]), .go, .written (.ok 2), .written (.error .eagain),
    .controlled true]

/-- What a run shows of the connection on 5. -/
def connectionAt (o : Outcome Call World Answer Int) : Option (Call × World × ConnectionState) :=
  match o.waits with
  | some (k, w) =>
      match w.runtime.connections 5, w.kernel.fdTable 5 with
      | some c, some 0 => some (k, w, c)
      | _, _ => none
  | none => none

theorem connectionAt_eq_some {o : Outcome Call World Answer Int} {k : Call} {w : World}
    {c : ConnectionState} (h : connectionAt o = some (k, w, c)) :
    o = .waiting k w ∧ w.runtime.connections 5 = some c ∧ w.kernel.fdTable 5 = some 0 := by
  unfold connectionAt at h
  split at h
  · rename_i hwaits
    split at h
    · rename_i hc hi
      cases h
      exact ⟨Outcome.eq_waiting hwaits, hc, hi⟩
    · cases h
  · cases h

/-- One request is handled, its response half sent, the second is buffered. -/
theorem stream_integrity_sample : ∃ k w c,
    connectionAt ((runWorkerLoop wirePlatform).run (sampleWorld none) sampleAnswers) =
      some (k, w, c) ∧
    handledPayloads (w.kernel.sockets 0).history = [sampleRequest] ∧
    c.readBuffer.readable = frame sampleRequest ++ [0, 0] ∧
    StreamIntact wirePlatform {} c (w.kernel.sockets 0).history := by
  have hrun : (connectionAt ((runWorkerLoop wirePlatform).run (sampleWorld none)
      sampleAnswers)).any (fun p =>
        handledPayloads (p.2.1.kernel.sockets 0).history = [sampleRequest] ∧
          p.2.2.readBuffer.readable = frame sampleRequest ++ [0, 0]) := by
    decide +kernel
  obtain ⟨⟨k, w, c⟩, hat, hp⟩ := (Option.any_eq_true _ _).mp hrun
  obtain ⟨hhandled, hread⟩ := of_decide_eq_true hp
  obtain ⟨hwait, hc, hi⟩ := connectionAt_eq_some hat
  obtain ⟨i, hi', hintact⟩ := stream_integrity (by decide)
    ⟨4, 3, {}, none, { reading := fun _ => 0 }, sampleAnswers, hwait⟩ hc
  obtain rfl : 0 = i := Option.some.inj (hi.symm.trans hi')
  exact ⟨k, w, c, hat, hhandled, hread, hintact⟩

end RtbEngine
