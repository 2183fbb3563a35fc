import RtbEngine.Engine.Ssp
import RtbEngine.Engine.Wire
import RtbEngine.Logic.Session

/-!
# The two frame codecs agree

The SSP writes with `frame_message` and reads with `recv_framed_response`; the
engine reads with `try_extract_frame` and `consume_frame` and writes with
`stage_response_frame`.
-/

namespace RtbEngine

open Lib Framing

/-! ## Reading requests -/

/-- Frame after frame, until one is not ready; at most `n` of them. -/
def readFrames (maxFrameSize : UInt32) : Nat → ReusableBuffer → List Bytes × ReusableBuffer
  | 0, b => ([], b)
  | n + 1, b =>
      match b.tryExtractFrame maxFrameSize with
      | (.frameReady, view) =>
          let (payloads, b) := readFrames maxFrameSize n (b.consumeFrame view.totalFrameBytes.toNat)
          (view.payload :: payloads, b)
      | _ => ([], b)

/-- Frames are read until they are used up. -/
theorem readFrames_frames {maxFrameSize : UInt32} (hmax : maxFrameSize.toNat < 2 ^ 32 - 4)
    (payloads : List Bytes) {n : Nat} (hn : payloads.length < n) {b : ReusableBuffer} (hb : b.Wf)
    (hfit : ∀ p ∈ payloads, 1 ≤ p.length ∧ p.length ≤ maxFrameSize.toNat)
    (hreadable : b.readable = frames payloads) :
    ∃ b', readFrames maxFrameSize n b = (payloads, b') ∧ b'.readableBytes = 0 := by
  induction payloads generalizing n b with
  | nil =>
      obtain ⟨m, rfl⟩ : ∃ m, n = m + 1 := ⟨n - 1, by omega⟩
      have hempty : b.readableBytes = 0 := by
        rw [← hb.length_readable, hreadable]
        rfl
      refine ⟨b, ?_, hempty⟩
      rw [readFrames, ReusableBuffer.tryExtractFrame]
      simp only [hempty]
      rfl
  | cons payload payloads ih =>
      obtain ⟨m, rfl⟩ : ∃ m, n = m + 1 := ⟨n - 1, by omega⟩
      obtain ⟨hpos, hle⟩ := hfit payload List.mem_cons_self
      have hhead : headVerdict maxFrameSize.toNat b.readable = .ready payload :=
        (headVerdict_ready_iff _ _ _).mpr
          ⟨frames payloads, by rw [hreadable]; rfl, hpos, hle, by omega⟩
      have htotal : (UInt32.ofNat (4 + payload.length)).toNat = 4 + payload.length :=
        UInt32.toNat_ofNat_of_lt (show _ < 2 ^ 32 by omega)
      -- what is left in the buffer are the other frames
      have hleft : (b.consumeFrame (4 + payload.length)).readable = frames payloads := by
        rw [hb.readable_consumeFrame, hreadable,
          show frames (payload :: payloads) = frame payload ++ frames payloads from rfl,
          ← frame_length, List.drop_left]
      obtain ⟨b', hrest, hempty⟩ := ih (n := m) (by rw [List.length_cons] at hn; omega)
        (hb.consumeFrame (4 + payload.length))
        (fun p hp => hfit p (List.mem_cons_of_mem _ hp)) hleft
      refine ⟨b', ?_, hempty⟩
      rw [readFrames, hb.tryExtractFrame_eq, hhead]
      simp only [htotal, hrest]

/-- What `frame_message` makes of the payloads, one after another. -/
def sentByTheSsp (payloads : List Bytes) : Option Bytes :=
  (payloads.mapM frameMessage).map List.flatten

theorem sentByTheSsp_eq {payloads : List Bytes} (hfit : ∀ p ∈ payloads, p.length < 2 ^ 32) :
    sentByTheSsp payloads = some (frames payloads) := by
  have hmap : payloads.mapM frameMessage = some (payloads.map frame) := by
    induction payloads with
    | nil => rfl
    | cons payload payloads ih =>
        rw [List.mapM_cons, frameMessage_eq (hfit payload List.mem_cons_self),
          ih fun p hp => hfit p (List.mem_cons_of_mem _ hp)]
        rfl
  rw [sentByTheSsp, hmap]
  rfl

/-! ## Writing responses -/

/-- Send pieces of at most these sizes, and then the rest: the bytes that go
out and the buffer afterwards. -/
def drain : List Nat → ReusableBuffer → Bytes × ReusableBuffer
  | [], b => (b.readable, b.consumeFrame b.readableBytes)
  | size :: sizes, b =>
      let (bytes, b') := drain sizes (b.consumeFrame (min size b.readableBytes))
      (b.readable.take size ++ bytes, b')

/-- Stage and drain one response after another; `none` if one is not staged. -/
def stageAndDrain (pb : Protobuf) :
    List (BidResponse × List Nat) → ReusableBuffer → Option (Bytes × ReusableBuffer)
  | [], b => some ([], b)
  | (response, sizes) :: responses, b =>
      match stageResponseFrame pb response b with
      | (false, _) => none
      | (true, b) =>
          let (bytes, b) := drain sizes b
          (stageAndDrain pb responses b).map fun (more, b) => (bytes ++ more, b)

theorem drain_spec (sizes : List Nat) {b : ReusableBuffer} (hb : b.Wf) :
    (drain sizes b).1 = b.readable ∧ (drain sizes b).2.Wf ∧ (drain sizes b).2.readable = [] := by
  induction sizes generalizing b with
  | nil =>
      refine ⟨rfl, hb.consumeFrame _, ?_⟩
      show (b.consumeFrame b.readableBytes).readable = []
      rw [hb.readable_consumeFrame, ← hb.length_readable, List.drop_length]
  | cons size sizes ih =>
      obtain ⟨hbytes, hwf, hempty⟩ := ih (hb.consumeFrame (min size b.readableBytes))
      refine ⟨?_, hwf, hempty⟩
      show b.readable.take size ++ (drain sizes _).1 = b.readable
      have htake : b.readable.take size = b.readable.take (min size b.readableBytes) := by
        rw [← hb.length_readable, ← List.take_take, List.take_length]
      rw [hbytes, hb.readable_consumeFrame, htake, List.take_append_drop]

/-- Every response is staged, and its frame goes out. -/
theorem stageAndDrain_spec (pb : Protobuf) (responses : List (BidResponse × List Nat))
    {b : ReusableBuffer} (hb : b.Wf) (hempty : b.readable = [])
    (hstage : ∀ r ∈ responses, Stageable pb r.1) :
    ∃ b', stageAndDrain pb responses b =
      some (frames (responses.map fun r => serialized pb r.1), b') := by
  induction responses generalizing b with
  | nil => exact ⟨b, rfl⟩
  | cons r responses ih =>
      obtain ⟨response, sizes⟩ := r
      have hfirst := hstage _ List.mem_cons_self
      -- each response finds the buffer drained, so staging cannot be refused
      obtain ⟨b1, hwf1, hstaged | hfailed⟩ := stageResponseFrame_spec pb response hb hempty
      · obtain ⟨-, hrun, hreadable⟩ := hstaged
        obtain ⟨hbytes, hwf2, hempty2⟩ := drain_spec sizes hwf1
        obtain ⟨b', hrest⟩ := ih hwf2 hempty2 fun r hr => hstage r (List.mem_cons_of_mem _ hr)
        refine ⟨b', ?_⟩
        rw [stageAndDrain, hrun]
        simp only [hrest, hbytes, hreadable]
        rfl
      · exact absurd hfirst hfailed.1

/-! ## Both directions -/

/-- **The codecs agree**: what the SSP sends, the engine reads frame by frame
and has nothing left; what the engine stages and drains, the SSP receives
response by response, in whatever pieces, and after `k` of them the bytes of
the others are still to come. -/
theorem codecs_agree :
    (∀ payloads : List Bytes, (∀ p ∈ payloads, 1 ≤ p.length ∧ p.length ≤ 64 * 1024) →
      ∃ sent, sentByTheSsp payloads = some sent ∧
        ∀ maxFrameSize : UInt32, (∀ p ∈ payloads, p.length ≤ maxFrameSize.toNat) →
          maxFrameSize.toNat < 2 ^ 32 - 4 →
        ∀ b : ReusableBuffer, b.Wf → b.readable = [] → sent.length ≤ b.writableBytes →
        ∀ n, payloads.length < n →
          ∃ b', readFrames maxFrameSize n (b.append sent) = (payloads, b') ∧
            b'.readableBytes = 0) ∧
    (∀ (pb : Protobuf) (responses : List (BidResponse × List Nat)),
      (∀ r ∈ responses, 1 ≤ pb.byteSizeLong r.1 ∧ pb.byteSizeLong r.1 ≤ 64 * 1024 ∧
        (pb.serializeToArray r.1 (pb.byteSizeLong r.1)).isSome) →
      ∀ b : ReusableBuffer, b.Wf → b.readable = [] →
        ∃ out b', stageAndDrain pb responses b = some (out, b') ∧
          ∀ (chunk : Nat → Nat) (rest : Bytes) (k : Nat), k ≤ responses.length →
            ∃ sock : SspSocket,
              SspSocket.recvResponses k { incoming := out ++ rest, chunk := chunk } =
                (.ok ((responses.take k).map fun r => serialized pb r.1), sock) ∧
              sock.incoming =
                frames ((responses.drop k).map fun r => serialized pb r.1) ++ rest) := by
  refine ⟨?_, ?_⟩
  · intro payloads hsize
    refine ⟨frames payloads, sentByTheSsp_eq fun p hp => by have := hsize p hp; omega, ?_⟩
    intro maxFrameSize hlongest hmax b hb hempty hroom n hn
    refine readFrames_frames hmax payloads hn (hb.append hroom)
      (fun p hp => ⟨(hsize p hp).1, hlongest p hp⟩) ?_
    rw [hb.readable_append hroom, hempty, List.nil_append]
  · intro pb responses hsize b hb hempty
    have hstage : ∀ r ∈ responses, Stageable pb r.1 := by
      intro r hr
      obtain ⟨hpos, hle, hserialize⟩ := hsize r hr
      exact ⟨hpos, hle, hserialize⟩
    obtain ⟨b', hout⟩ := stageAndDrain_spec pb responses hb hempty hstage
    refine ⟨_, b', hout, ?_⟩
    intro chunk rest k hk
    -- the first `k` frames, and the others with the rest
    have hsplit : frames (responses.map fun r => serialized pb r.1) ++ rest =
        frames ((responses.take k).map fun r => serialized pb r.1) ++
          (frames ((responses.drop k).map fun r => serialized pb r.1) ++ rest) := by
      rw [← List.append_assoc, ← frames_append, ← List.map_append, List.take_append_drop]
    have hfit : ∀ p ∈ (responses.take k).map fun r => serialized pb r.1,
        0 < p.length ∧ p.length < 2 ^ 32 := by
      intro p hp
      obtain ⟨r, hr, rfl⟩ := List.mem_map.mp hp
      have hr := List.mem_of_mem_take hr
      obtain ⟨hpos, hle, -⟩ := hsize r hr
      rw [serialized_length (hstage r hr)]
      exact ⟨hpos, by omega⟩
    obtain ⟨sock, hrun, hleft⟩ := SspSocket.recvResponses_frames _
      { incoming := frames (responses.map fun r => serialized pb r.1) ++ rest, chunk := chunk }
      hfit hsplit
    rw [List.length_map, List.length_take, Nat.min_eq_left hk] at hrun
    exact ⟨sock, hrun, hleft⟩

/-- Two payloads one way through a buffer of twelve bytes, one response the
other way byte by byte. -/
theorem codecs_agree_sample :
    (∃ sent, sentByTheSsp [[7, 8], [9]] = some sent ∧
      ∃ b', readFrames 65536 3 (({ storage := List.replicate 12 0 } : ReusableBuffer).append sent) =
        ([[7, 8], [9]], b') ∧ b'.readableBytes = 0) ∧
    (∃ out b', stageAndDrain wireProtobuf [({ requestId := [65], status := .noBid }, [3])] {} =
        some (out, b') ∧
      ∃ sock : SspSocket,
        SspSocket.recvResponses 1 { incoming := out ++ [], chunk := fun _ => 1 } =
          (.ok [serialized wireProtobuf { requestId := [65], status := .noBid }], sock) ∧
        sock.incoming = []) := by
  constructor
  · obtain ⟨sent, hsent, hread⟩ := codecs_agree.1 [[7, 8], [9]] (by decide)
    refine ⟨sent, hsent, hread 65536 (by decide) (by decide) _ ⟨by decide, by decide⟩ rfl ?_ 3
      (by decide)⟩
    cases hsent
    decide
  · obtain ⟨out, b', hout, hrecv⟩ := codecs_agree.2 wireProtobuf
      [({ requestId := [65], status := .noBid }, [3])] (by decide) {} ReusableBuffer.wf_empty rfl
    exact ⟨out, b', hout, hrecv (fun _ => 1) [] 1 (by decide)⟩

end RtbEngine
