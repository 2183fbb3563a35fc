import RtbEngine.Logic.Steps
import RtbEngine.Logic.Worker
import RtbEngine.Theorems.Stream

/-!
# No client can make the worker's buffers grow

Whatever its clients send, and however slowly they read, a worker holds one
read buffer of the configured size and one write buffer of bounded size for
each open connection.

* `stageResponseFrame_length` — what staging makes of the write buffer;
* `buffers_bounded` — in every run.
-/

namespace RtbEngine

open Lib Exec Relation Framing

theorem length_storeAt {storage bytes : Bytes} {offset : Nat}
    (h : offset + bytes.length ≤ storage.length) :
    (storeAt storage offset bytes).length = storage.length := by
  unfold storeAt
  simp only [List.length_append, List.length_take, List.length_drop]
  omega

/-- The largest size a write buffer takes. -/
def WorkerConfig.maxWriteBuffer (config : WorkerConfig) : Nat :=
  max config.connectionBufferCapacity (4 + kMaxOutboundFrameSize)

/-- Staging reserves room for one frame at most. -/
theorem stageResponseFrame_length (pb : Protobuf) (response : BidResponse) (b : ReusableBuffer) :
    (stageResponseFrame pb response b).2.storage.length ≤
      max b.storage.length (4 + kMaxOutboundFrameSize) := by
  have hreserve := ReusableBuffer.length_reserve b (4 + pb.byteSizeLong response)
  unfold stageResponseFrame
  simp only
  split
  · exact Nat.le_max_left _ _
  · rename_i hsize
    have hfits : pb.byteSizeLong response ≤ kMaxOutboundFrameSize := by omega
    split
    · exact Nat.le_max_left _ _
    · split
      · rw [hreserve]
        omega
      · have hfront : (storeAt (b.reserve (4 + pb.byteSizeLong response)).storage 0
            (be32 (pb.byteSizeLong response))).length =
              max b.storage.length (4 + pb.byteSizeLong response) := by
          rw [length_storeAt (by rw [be32_length]; omega), hreserve]
        split
        · simp only [hfront]
          omega
        · rename_i bytes hser
          have hlen := pb.length_serialize _ _ _ hser
          simp only
          rw [length_storeAt (by omega), hfront]
          omega

section

variable {env : Platform} {config : WorkerConfig} {store : CampaignStoreSnapshot} {w w' : World}

/-- A handler keeps its write buffer within any bound that admits a frame. -/
theorem SessionStep.writeBuffer {s s' : Session} (h : SessionStep env config store s s') :
    s'.connection.writeBuffer.storage.length ≤
      max s.connection.writeBuffer.storage.length (4 + kMaxOutboundFrameSize) := by
  cases h with
  | moved h =>
      rw [h.storage]
      exact Nat.le_max_left _ _
  | woken h =>
      rw [h.session, signalShutdownFd]
      split <;> exact Nat.le_max_left _ _
  | unparsed payload h =>
      rw [h.storage]
      exact Nat.le_max_left _ _
  | request request h =>
      rcases h.storage with hsame | hstaged
      · rw [hsame]
        exact Nat.le_max_left _ _
      · rw [hstaged]
        exact stageResponseFrame_length _ _ _

/-- An entry of the map is an old one or that of the new client. -/
theorem World.enter_connection {fd fd' : Fd} {c : ConnectionState}
    (h : (w.enter fd).runtime.connections fd' = some c) :
    w.runtime.connections fd' = some c ∨ c = newConnection w fd := by
  unfold World.enter World.addConnection at h
  cases hold : w.runtime.connections fd with
  | some _ =>
      simp only [hold] at h
      exact .inl h
  | none =>
      simp only [hold] at h
      by_cases hfd : fd' = fd
      · rw [hfd, Function.update_self] at h
        cases h
        exact .inr rfl
      · rw [Function.update_of_ne hfd] at h
        exact .inl h

/-- Every write buffer is within the bound. -/
def WritesBounded (config : WorkerConfig) (w : World) : Prop :=
  w.runtime.config = config ∧ ∀ fd c, w.runtime.connections fd = some c →
    c.writeBuffer.storage.length ≤ config.maxWriteBuffer

theorem WritesBounded.step (h : WritesBounded config w) (hstep : WorldStep env w w') :
    WritesBounded config w' := by
  obtain ⟨hconfig, hbound⟩ := h
  cases hstep with
  | session fd s s' hget hstep =>
      obtain ⟨c, i, hc, -, rfl⟩ := getSession_some hget
      refine ⟨hconfig, ?_⟩
      intro fd' c' hc'
      have hc'' : Function.update w.runtime.connections fd (some s'.connection) fd' = some c' := hc'
      by_cases hfd : fd' = fd
      · rw [hfd, Function.update_self] at hc''
        cases hc''
        refine Nat.le_trans hstep.writeBuffer (Nat.max_le.mpr ⟨hbound fd c hc, ?_⟩)
        exact Nat.le_max_right _ _
      · rw [Function.update_of_ne hfd] at hc''
        exact hbound fd' c' hc''
  | entered fd h0 hnew hapart =>
      refine ⟨hconfig, ?_⟩
      intro fd' c' hc'
      have hnewBuffer : (newConnection w fd).writeBuffer.storage.length ≤ config.maxWriteBuffer := by
        rw [newConnection, ReusableBuffer.length_reserve, hconfig]
        simp [WorkerConfig.maxWriteBuffer]
      rcases World.enter_connection hc' with hold | rfl
      · exact hbound fd' c' hold
      · exact hnewBuffer
  | dropped fd hopen =>
      refine ⟨hconfig, ?_⟩
      intro fd' c' hc'
      have hc'' : Function.update w.runtime.connections fd none fd' = some c' := hc'
      by_cases hfd : fd' = fd
      · rw [hfd, Function.update_self] at hc''
        cases hc''
      · rw [Function.update_of_ne hfd] at hc''
        exact hbound fd' c' hc''

/-- **Bounded buffers**: wherever a worker waits, each open connection has a
read buffer of the configured capacity and a write buffer that is no larger
than that capacity or the largest frame. -/
theorem buffers_bounded (hfit : config.FramesFit) {k : Call} (hreach : Reaches env config store k w)
    {fd : Fd} {c : ConnectionState} (hc : w.runtime.connections fd = some c) :
    c.readBuffer.storage.length = config.connectionBufferCapacity ∧
      c.writeBuffer.storage.length ≤ config.maxWriteBuffer := by
  obtain ⟨base, hw, -, -⟩ := hreach.waitOk hfit
  obtain ⟨i, hi⟩ := hw.descriptor hc
  refine ⟨(hw.bound hc hi).sync.capacity, ?_⟩
  obtain ⟨epollFd, listenFd, rng, recorder, clock, answers, hrun⟩ := hreach
  have hboot : WritesBounded config (bootWorld config epollFd listenFd rng recorder store clock) :=
    ⟨rfl, nofun⟩
  have hchain := (follows_runWorkerLoop env).state
    (bootWorld config epollFd listenFd rng recorder store clock) answers
  rw [hrun] at hchain
  exact (chain_invariant _ (fun _ _ h hstep => h.step hstep) hboot hchain).2 fd c hc

end

/-- One connection, in the middle of a response. -/
theorem buffers_bounded_sample : ∃ k w c,
    connectionAt ((runWorkerLoop wirePlatform).run (sampleWorld none) sampleAnswers) =
      some (k, w, c) ∧
    c.readBuffer.storage.length = 64 ∧ c.writeBuffer.storage.length ≤ sampleConfig.maxWriteBuffer := by
  have hrun : (connectionAt ((runWorkerLoop wirePlatform).run (sampleWorld none)
      sampleAnswers)).isSome := by
    decide +kernel
  obtain ⟨⟨k, w, c⟩, hat⟩ := Option.isSome_iff_exists.mp hrun
  obtain ⟨hwait, hc, -⟩ := connectionAt_eq_some hat
  obtain ⟨hread, hwrite⟩ := buffers_bounded (by decide)
    ⟨4, 3, {}, none, { reading := fun _ => 0 }, sampleAnswers, hwait⟩ hc
  exact ⟨k, w, c, hat, hread, hwrite⟩

end RtbEngine
