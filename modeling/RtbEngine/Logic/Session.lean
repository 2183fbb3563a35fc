import RtbEngine.Logic.Conversation

/-!
# Serving one connection refines the conversation

`Sync` relates a connection to the history of its socket: the read buffer
holds the inbox, the write buffer the outbox, and the history is one the
protocol allows. Each function of the handler keeps it, whatever the answers;
between two events the connection is moreover at `Rest`.

* `flushPendingWrite_ensures` — the write path;
* `processReadyFrames_ensures` — one frame: answered, recorded, consumed.
-/

namespace RtbEngine

open Lib Exec Framing

/-! ## Staging -/

theorem storeAt_zero {storage bytes : Bytes} (h : bytes.length ≤ storage.length) :
    (storeAt storage 0 bytes).take bytes.length = bytes ∧
      (storeAt storage 0 bytes).length = storage.length := by
  simp only [storeAt, List.take_zero, List.nil_append, Nat.zero_add, List.take_left, true_and,
    List.length_append, List.length_drop]
  omega

/-- `stage_response_frame` into a buffer without readable bytes. -/
theorem stageResponseFrame_spec (pb : Protobuf) (r : BidResponse) {b : ReusableBuffer}
    (hb : b.Wf) (hempty : b.readable = []) :
    ∃ b', b'.Wf ∧
      ((Stageable pb r ∧ stageResponseFrame pb r b = (true, b') ∧
          b'.readable = frame (serialized pb r)) ∨
        (¬ Stageable pb r ∧ stageResponseFrame pb r b = (false, b') ∧ b'.readable = [])) := by
  have hzero : b.readableBytes = 0 := by
    rw [← hb.length_readable, hempty]
    rfl
  unfold stageResponseFrame
  by_cases hsize : pb.byteSizeLong r = 0 ∨ pb.byteSizeLong r > kMaxOutboundFrameSize ∨
      pb.byteSizeLong r > kIntMax
  · refine ⟨b, hb, .inr ⟨?_, by simp only [if_pos hsize], hempty⟩⟩
    rintro ⟨h1, h2, _⟩
    unfold kMaxOutboundFrameSize kIntMax at hsize
    unfold kMaxOutboundFrameSize at h2
    omega
  · have hres : 4 + pb.byteSizeLong r ≤ (b.reserve (4 + pb.byteSizeLong r)).storage.length := by
      rw [ReusableBuffer.length_reserve]
      exact Nat.le_max_right _ _
    have hprefix := @storeAt_zero (b.reserve (4 + pb.byteSizeLong r)).storage
      (be32 (pb.byteSizeLong r)) (by rw [be32_length]; omega)
    simp only [if_neg hsize, hzero, ne_eq, not_true_eq_false, if_false,
      if_neg (show ¬ (b.reserve (4 + pb.byteSizeLong r)).storage.length < 4 + pb.byteSizeLong r by
        omega)]
    cases hser : pb.serializeToArray r (pb.byteSizeLong r) with
    | none =>
        refine ⟨_, ⟨Nat.le_refl _, Nat.zero_le _⟩, .inr ⟨?_, rfl, rfl⟩⟩
        rintro ⟨_, _, h3⟩
        rw [hser] at h3
        cases h3
    | some bytes =>
        have hlen := pb.length_serialize _ _ _ hser
        have hstage : Stageable pb r := by
          refine ⟨by omega, by omega, ?_⟩
          rw [hser]
          rfl
        have hbytes : serialized pb r = bytes := by rw [serialized, hser]; rfl
        generalize hst : storeAt (b.reserve (4 + pb.byteSizeLong r)).storage 0
          (be32 (pb.byteSizeLong r)) = storage at hprefix
        have hout : (storeAt storage 4 bytes).take (4 + pb.byteSizeLong r) =
            be32 (pb.byteSizeLong r) ++ bytes := by
          have h4 : storage.take 4 = be32 (pb.byteSizeLong r) := hprefix.1
          unfold storeAt
          rw [h4, ← hlen, List.take_append_of_le_length (by simp), List.take_of_length_le (by simp)]
        refine ⟨_, ⟨Nat.zero_le _, ?_⟩, .inl ⟨hstage, rfl, ?_⟩⟩
        · have h2 := hprefix.2
          simp only [storeAt, List.length_append, List.length_take, List.length_drop]
          omega
        · rw [ReusableBuffer.readable, hout, List.drop_zero, hbytes, frame, hlen]

/-! ## The relation -/

/-- Frames that fit the buffer have a total length below `2 ^ 32`, as in the
default configuration; `total_frame_bytes` does not wrap. -/
def WorkerConfig.FramesFit (config : WorkerConfig) : Prop :=
  min (config.maxFrameSize.toNat + 4) config.connectionBufferCapacity < 2 ^ 32

/-- The sizes of `WorkerConfig` that nothing in the program changes. -/
def WorkerConfig.HasDefaultSizes (config : WorkerConfig) : Prop :=
  config.connectionBufferCapacity = 16 * 1024 ∧ config.maxFrameSize = 64 * 1024

theorem WorkerConfig.HasDefaultSizes.framesFit {config : WorkerConfig}
    (h : config.HasDefaultSizes) : config.FramesFit := by
  unfold WorkerConfig.FramesFit
  rw [h.1]
  exact Nat.lt_of_le_of_lt (Nat.min_le_right _ _) (by decide)

instance (config : WorkerConfig) : Decidable config.FramesFit :=
  inferInstanceAs (Decidable (_ < _))

/-- What a clean environment answers: no error or hang-up on a connection. -/
def Answer.Clean : Answer → Prop
  | .events (.ok batch) => ∀ e ∈ batch,
      e.mask &&& EPOLLERR = 0 ∧ e.mask &&& EPOLLHUP = 0 ∧ e.mask &&& EPOLLRDHUP = 0
  | .controlled granted => granted = true
  | .written (.ok n) => n ≠ 0
  | .written (.error errno) => errno = .eintr ∨ errno = .eagain
  | .readBytes (.ok bytes) => bytes ≠ []
  | .readBytes (.error errno) => errno = .eintr ∨ errno = .eagain
  | _ => True

instance : (a : Answer) → Decidable a.Clean
  | .events (.ok batch) => inferInstanceAs (Decidable (∀ e ∈ batch, _ ∧ _ ∧ _))
  | .controlled granted => inferInstanceAs (Decidable (granted = true))
  | .written (.ok n) => inferInstanceAs (Decidable (n ≠ 0))
  | .written (.error errno) => inferInstanceAs (Decidable (errno = .eintr ∨ errno = .eagain))
  | .readBytes (.ok bytes) => inferInstanceAs (Decidable (bytes ≠ []))
  | .readBytes (.error errno) => inferInstanceAs (Decidable (errno = .eintr ∨ errno = .eagain))
  | .events (.error _) | .go | .accepted _ => .isTrue trivial

/-- The calls a handler makes on its connection. -/
def Call.ofSession : Call → Bool
  | .epollCtl | .read | .write => true
  | _ => false

/-- The connection holds what the history of its socket says. -/
structure Sync (env : Platform) (config : WorkerConfig) (store : CampaignStoreSnapshot)
    (c : ConnectionState) (k : Socket) : Prop where
  talk : Conversation env config store k.history
  readWf : c.readBuffer.Wf
  writeWf : c.writeBuffer.Wf
  capacity : c.readBuffer.storage.length = config.connectionBufferCapacity
  inbox : c.readBuffer.readable = inbox k.history
  outbox : c.writeBuffer.readable = outbox env.protobuf k.history

/-- Between two events: either a response is on its way and the connection
waits for `EPOLLOUT`, or nothing is left to do with what was received and the
socket was read until it had no more. -/
structure Rest (env : Platform) (config : WorkerConfig) (c : ConnectionState) (k : Socket) :
    Prop where
  interest : k.interest = some (clientEvents c.hasPendingWrite)
  pending : c.hasPendingWrite = true ↔ RtbEngine.outbox env.protobuf k.history ≠ []
  idle : c.hasPendingWrite = false → headOf config k.history = .short ∧
    (k.history = [] ∨ k.history.getLast? = some (.readFailed .eagain))

/-- The recorder, if there is one, holds `m` requests more than `base`. -/
def Recorded (recorder : Option BenchmarkRecorder) (base : Option Nat) (m : Nat) : Prop :=
  recorder.map (·.completedRequests) = base.map (· + m)

theorem Recorded.record {recorder : Option BenchmarkRecorder} {base : Option Nat} {m : Nat}
    (h : Recorded recorder base m) (timing : RequestTimingBreakdown) :
    Recorded (recorder.map fun r => r.recordRequest timing) base (m + 1) := by
  have hone : ∀ r : BenchmarkRecorder,
      (r.recordRequest timing).completedRequests = r.completedRequests + 1 := by
    intro r
    simp [BenchmarkRecorder.completedRequests, BenchmarkRecorder.recordRequest]
  have hmap := congrArg (Option.map (· + 1)) h
  rw [Option.map_map, Option.map_map] at hmap
  rw [Recorded, Option.map_map]
  calc recorder.map ((·.completedRequests) ∘ fun r => r.recordRequest timing)
      = recorder.map ((· + 1) ∘ (·.completedRequests)) := by
        congr 1
        funext r
        exact hone r
    _ = base.map ((· + 1) ∘ (· + m)) := hmap

theorem recorded_add {recorder : Option BenchmarkRecorder} {base : Option Nat} {a b : Nat} :
    Recorded recorder (base.map (· + a)) b ↔ Recorded recorder base (a + b) := by
  have hadd : ((· + b) ∘ (· + a) : Nat → Nat) = (· + (a + b)) := by
    funext n
    exact Nat.add_assoc n a b
  rw [Recorded, Recorded, Option.map_map, hadd]

/-- What does not change while a connection is served. -/
structure Who where
  fd : Fd
  connectionId : UInt64
  /-- Requests recorded for other connections. -/
  elsewhere : Option Nat

section

variable (env : Platform) (config : WorkerConfig) (store : CampaignStoreSnapshot)

/-- A session in the middle of a handler. -/
structure Live (who : Who) (s : Session) : Prop where
  sync : Sync env config store s.connection s.socket
  fd : s.connection.fd = who.fd
  connectionId : s.connection.connectionId = who.connectionId
  counted : Recorded s.recorder who.elsewhere (stagedResponses s.socket.history).length

/-- A session waiting in a call. -/
def Waiting (who : Who) (k : Call) (s : Session) : Prop :=
  k.ofSession ∧ Live env config store who s ∧ Settled s.socket.history

end

variable {env : Platform} {config : WorkerConfig} {store : CampaignStoreSnapshot} {who : Who}
  {s : Session} {rely : Answer → Prop}

/-- Noting an event that moves no byte. -/
theorem Live.note_quiet (h : Live env config store who s) {e : SocketEvent} (hq : e.isQuiet)
    (he : Allowed env config store s.socket.history e) :
    Live env config store who (s.note e) where
  sync :=
    { talk := .snoc h.sync.talk he
      readWf := h.sync.readWf
      writeWf := h.sync.writeWf
      capacity := h.sync.capacity
      inbox := by
        show s.connection.readBuffer.readable = RtbEngine.inbox (s.socket.history ++ [e])
        rw [inbox_snoc_quiet hq, h.sync.inbox]
      outbox := by
        show s.connection.writeBuffer.readable = RtbEngine.outbox _ (s.socket.history ++ [e])
        rw [outbox_snoc_quiet _ hq, h.sync.outbox] }
  fd := h.fd
  connectionId := h.connectionId
  counted := by
    show Recorded _ _ (stagedResponses (s.socket.history ++ [e])).length
    rw [stagedResponses_snoc_quiet hq]
    exact h.counted

/-! ## The interest set -/

theorem Live.setInterest (h : Live env config store who s) (interest : Option UInt32) :
    Live env config store who
      { s with socket := { s.socket with interest := interest } } :=
  ⟨⟨h.sync.talk, h.sync.readWf, h.sync.writeWf, h.sync.capacity, h.sync.inbox, h.sync.outbox⟩,
    h.fd, h.connectionId, h.counted⟩

theorem updateClientEvents_ensures (h : Live env config store who s)
    (hset : Settled s.socket.history) (enableWrite : Bool) :
    (updateClientEvents enableWrite).Ensures rely s
      (fun ok s' => Live env config store who s' ∧ s'.socket.history = s.socket.history ∧
        s'.connection = s.connection ∧
        (ok = true → s'.socket.interest = some (clientEvents enableWrite)) ∧
        (ok = false → (∀ a, rely a → a.Clean) → False))
      (Waiting env config store who) := by
  apply ensures_ask ⟨rfl, h, hset⟩
  intro answer ok s' hrely hans
  cases answer with
  | controlled granted =>
      cases granted with
      | true =>
          cases hans
          exact ⟨h.setInterest _, rfl, rfl, fun _ => rfl, fun hf => by cases hf⟩
      | false =>
          cases hans
          exact ⟨h, rfl, rfl, fun hf => (by cases hf), fun _ hclean => by cases hclean _ hrely⟩
  | _ => cases hans

/-! ## Writing -/

theorem productive_flushRound (b : Unit) : Productive (flushRound b) := by
  apply productive_bind
  intro s
  apply productive_ite
  · exact Consumes.productive ((consumes_ask _ _).bind _)
  · exact productive_stop _

/-- Bytes taken by a `write` leave the write buffer and the outbox. -/
theorem Live.sent (h : Live env config store who s) (hset : Settled s.socket.history) {n : Nat}
    (hn : n ≤ s.connection.writeBuffer.readableBytes) (hpos : n ≠ 0) :
    Live env config store who
        ((s.note (.sent (s.connection.writeBuffer.readable.take n))).setWriteBuffer
          (s.connection.writeBuffer.consumeFrame n)) ∧
      Settled (s.socket.history ++ [.sent (s.connection.writeBuffer.readable.take n)]) := by
  have hlen : (s.connection.writeBuffer.readable.take n).length = n := by
    rw [List.length_take, h.sync.writeWf.length_readable]
    omega
  have hne : s.connection.writeBuffer.readable.take n ≠ [] := by
    intro hnil
    rw [hnil] at hlen
    exact hpos hlen.symm
  have hallowed : Allowed env config store s.socket.history
      (.sent (s.connection.writeBuffer.readable.take n)) := by
    refine ⟨hset, hne, ?_⟩
    rw [← h.sync.outbox]
    exact List.take_prefix _ _
  refine ⟨?_, (settled_snoc _ _).mpr ⟨by simp, by simp⟩⟩
  refine ⟨⟨.snoc h.sync.talk hallowed, h.sync.readWf, h.sync.writeWf.consumeFrame n,
    h.sync.capacity, ?_, ?_⟩, h.fd, h.connectionId, ?_⟩
  · show s.connection.readBuffer.readable = inbox (s.socket.history ++ [_])
    rw [inbox_snoc_sent, h.sync.inbox]
  · show (s.connection.writeBuffer.consumeFrame n).readable =
      outbox env.protobuf (s.socket.history ++ [_])
    rw [outbox_snoc_sent, h.sync.writeWf.readable_consumeFrame, hlen, h.sync.outbox]
  · show Recorded _ _ (stagedResponses (s.socket.history ++ [_])).length
    rw [stagedResponses_snoc_none rfl]
    exact h.counted

/-- The write loop; it fails in an unclean environment only. -/
theorem flushLoop_ensures (h : Live env config store who s) (hset : Settled s.socket.history) :
    (loop flushRound ()).Ensures rely s
      (fun ok s' => (Live env config store who s' ∧ Settled s'.socket.history) ∧
        (ok = false → (∀ a, rely a → a.Clean) → False))
      (Waiting env config store who) := by
  refine ensures_loop (fun _ s => Live env config store who s ∧ Settled s.socket.history)
    productive_flushRound ?_ ⟨h, hset⟩
  rintro ⟨⟩ s ⟨h, hset⟩
  refine ensures_bind ?_
  refine ensures_read ?_
  split
  · refine ensures_bind ?_
    refine ensures_ask ⟨rfl, h, hset⟩ ?_
    intro answer result s' hrely hans
    cases answer with
    | written outcome =>
        cases outcome with
        | ok n =>
            simp only at hans
            split at hans
            · rename_i hn
              cases hans
              by_cases h0 : n = 0
              · -- `write` took nothing: the handler gives up
                subst h0
                refine ensures_pure ?_
                exact ⟨⟨h, hset⟩, fun _ hclean => (hclean _ hrely) rfl⟩
              · simp only [gt_iff_lt, Nat.pos_of_ne_zero h0, if_true, if_neg h0]
                refine ensures_bind ?_
                refine ensures_modify ?_
                refine ensures_pure ?_
                exact h.sent hset hn h0
            · cases hans
        | error errno =>
            cases hans
            cases errno with
            | eintr => exact ensures_pure ⟨h, hset⟩
            | eagain => exact ensures_pure ⟨⟨h, hset⟩, fun hf => by cases hf⟩
            | other code =>
                refine ensures_pure ⟨⟨h, hset⟩, fun _ hclean => ?_⟩
                have := hclean _ hrely
                simp [Answer.Clean] at this
    | _ => cases hans
  · exact ensures_pure ⟨⟨h, hset⟩, fun hf => by cases hf⟩

/-- The write path leaves the flag, the buffer and the interest set in step. -/
theorem flushPendingWrite_ensures (h : Live env config store who s)
    (hset : Settled s.socket.history) :
    (flushPendingWrite config).Ensures rely s
      (fun ok s' => (Live env config store who s' ∧ Settled s'.socket.history) ∧
        (ok = true → s'.socket.interest = some (clientEvents s'.connection.hasPendingWrite) ∧
          (s'.connection.hasPendingWrite = true ↔
            outbox env.protobuf s'.socket.history ≠ [])) ∧
        (ok = false → (∀ a, rely a → a.Clean) → False))
      (Waiting env config store who) := by
  refine ensures_bind ?_
  refine (flushLoop_ensures h hset).weaken ?_
  rintro drained s1 ⟨⟨h1, hset1⟩, hfail⟩
  cases drained with
  | false => exact ensures_pure ⟨⟨h1, hset1⟩, fun hf => (by cases hf), hfail⟩
  | true =>
      have hlen : s1.connection.writeBuffer.readableBytes != 0 ↔
          outbox env.protobuf s1.socket.history ≠ [] := by
        rw [← h1.sync.outbox, ← h1.sync.writeWf.length_readable, bne_iff_ne, ne_eq,
          List.length_eq_zero_iff]
      have h2 : Live env config store who
          (s1.setPendingWrite (s1.connection.writeBuffer.readableBytes != 0)) :=
        ⟨⟨h1.sync.talk, h1.sync.readWf, h1.sync.writeWf, h1.sync.capacity, h1.sync.inbox,
          h1.sync.outbox⟩, h1.fd, h1.connectionId, h1.counted⟩
      refine ensures_bind ?_
      refine ensures_modify ?_
      refine ensures_bind ?_
      refine ensures_read ?_
      refine ensures_bind ?_
      refine (updateClientEvents_ensures h2 hset1 _).weaken ?_
      rintro granted s3 ⟨h3, hhist, hconn, hgrant, hrefuse⟩
      have hset3 : Settled s3.socket.history := by rw [hhist]; exact hset1
      cases granted with
      | false => exact ensures_pure ⟨⟨h3, hset3⟩, fun hf => (by cases hf), hrefuse⟩
      | true =>
          refine ensures_bind ?_
          refine ensures_modify ?_
          refine ensures_pure ?_
          have hpend : s3.connection.hasPendingWrite = true ↔
              outbox env.protobuf s3.socket.history ≠ [] := by
            rw [hconn, hhist]
            exact hlen
          have hint : s3.socket.interest = some (clientEvents s3.connection.hasPendingWrite) := by
            rw [hgrant rfl, hconn]
          -- signalling the shutdown touches neither connection nor socket
          split
          · unfold signalShutdownFd
            split
            · exact ⟨⟨h3, hset3⟩, fun _ => ⟨hint, hpend⟩, fun hf => by cases hf⟩
            · exact ⟨⟨⟨h3.sync, h3.fd, h3.connectionId, h3.counted⟩, hset3⟩,
                fun _ => ⟨hint, hpend⟩, fun hf => by cases hf⟩
          · exact ⟨⟨h3, hset3⟩, fun _ => ⟨hint, hpend⟩, fun hf => by cases hf⟩

/-! ## Reading and answering -/

/-- A frame check at the head of the inbox. -/
theorem Live.frameChecked (h : Live env config store who s)
    (hlast : s.socket.history.getLast? ≠ some (.frameChecked .frameReady))
    (hout : outbox env.protobuf s.socket.history = []) :
    Live env config store who
      (s.note (.frameChecked (ReusableBuffer.verdictStatus (headOf config s.socket.history)))) :=
  h.note_quiet rfl ⟨hlast, hout, rfl⟩

theorem headOf_snoc_quiet {h : List SocketEvent} {e : SocketEvent} (he : e.isQuiet) :
    headOf config (h ++ [e]) = headOf config h := by
  rw [headOf, headOf, inbox_snoc_quiet he]

/-- A ready frame's total length does not wrap. -/
theorem Live.totalFrameBytes (hfit : config.FramesFit) (h : Live env config store who s)
    {p : Bytes} (hp : headOf config s.socket.history = .ready p) :
    (UInt32.ofNat (4 + p.length)).toNat = (frame p).length := by
  obtain ⟨rest, hrest, _, hmax, _⟩ := (headVerdict_ready_iff _ _ _).mp hp
  have hcap : (frame p).length ≤ config.connectionBufferCapacity := by
    have hle := h.sync.readWf.length_readable_le
    rw [h.sync.inbox, h.sync.capacity, hrest, List.length_append] at hle
    omega
  rw [frame_length] at hcap ⊢
  have hlt : 4 + p.length < 2 ^ 32 := by
    unfold WorkerConfig.FramesFit at hfit
    omega
  rw [UInt32.toNat_ofNat']
  exact Nat.mod_eq_of_lt hlt

/-- What `process_ready_frames` leaves behind, by outcome. -/
def FramesPost (env : Platform) (config : WorkerConfig) (store : CampaignStoreSnapshot) (who : Who)
    (rely : Answer → Prop) (s : Session) (outcome : ProcessFramesOutcome) (s' : Session) : Prop :=
  (Live env config store who s' ∧ Settled s'.socket.history) ∧
  match outcome with
  | .continue =>
      outbox env.protobuf s'.socket.history = [] ∧ headOf config s'.socket.history = .short ∧
        s'.socket.interest = s.socket.interest ∧
        s'.connection.hasPendingWrite = s.connection.hasPendingWrite
  | .pauseForWrite =>
      outbox env.protobuf s'.socket.history ≠ [] ∧ s'.connection.hasPendingWrite = true ∧
        s'.socket.interest = some (clientEvents true)
  | .closeConnection =>
      (∀ a, rely a → a.Clean) → outbox env.protobuf s'.socket.history = []

/-- Only the generator and the clock moved. -/
structure Keeps (s s' : Session) : Prop where
  connection : s'.connection = s.connection
  socket : s'.socket = s.socket
  recorder : s'.recorder = s.recorder

theorem Live.keeps (h : Live env config store who s) {s' : Session} (hk : Keeps s s') :
    Live env config store who s' := by
  refine ⟨?_, ?_, ?_, ?_⟩
  · rw [hk.connection, hk.socket]
    exact h.sync
  · rw [hk.connection]
    exact h.fd
  · rw [hk.connection]
    exact h.connectionId
  · rw [hk.recorder, hk.socket]
    exact h.counted

theorem nowNs_ensures {post : UInt64 → Session → Prop} {wait : Call → Session → Prop}
    (h : ∀ t s', Keeps s s' → post t s') : nowNs.Ensures rely s post wait :=
  ensures_update (h _ _ ⟨rfl, rfl, rfl⟩)

/-- The request at the head is answered, recorded and consumed. -/
theorem Live.staged (hfit : config.FramesFit) (h : Live env config store who s)
    (hset : Settled s.socket.history) {p : Bytes} {r : BidResponse}
    (hp : headOf config s.socket.history = .ready p)
    (hout : outbox env.protobuf s.socket.history = [])
    (hans : Answers env store p r) (hstage : Stageable env.protobuf r) {b : ReusableBuffer}
    {timing : RequestTimingBreakdown} {s' : Session} (hb : b.Wf)
    (hread : b.readable = frame (serialized env.protobuf r))
    (hconn : s'.connection =
      { s.connection with
        writeBuffer := b
        readBuffer := s.connection.readBuffer.consumeFrame (UInt32.ofNat (4 + p.length)).toNat
        hasPendingWrite := true })
    (hist : s'.socket.history = s.socket.history ++ [.staged p r])
    (hrec : s'.recorder = s.recorder.map fun r0 => r0.recordRequest timing) :
    Live env config store who s' := by
  have hr : s'.connection.readBuffer =
      s.connection.readBuffer.consumeFrame (UInt32.ofNat (4 + p.length)).toNat := by rw [hconn]
  have hw : s'.connection.writeBuffer = b := by rw [hconn]
  refine ⟨⟨?_, ?_, ?_, ?_, ?_, ?_⟩, ?_, ?_, ?_⟩
  · rw [hist]
    exact .snoc h.sync.talk ⟨hset, hp, hout, hans, hstage⟩
  · rw [hr]
    exact h.sync.readWf.consumeFrame _
  · rw [hw]
    exact hb
  · rw [hr, ReusableBuffer.length_consumeFrame]
    exact h.sync.capacity
  · rw [hr, hist, inbox_snoc_staged, h.sync.readWf.readable_consumeFrame, h.sync.inbox,
      h.totalFrameBytes hfit hp]
  · rw [hw, hist, outbox_snoc_staged h.sync.talk, hout, hread, List.nil_append]
  · rw [hconn]
    exact h.fd
  · rw [hconn]
    exact h.connectionId
  · rw [hrec, hist, stagedResponses_snoc, List.length_append]
    exact h.counted.record timing

theorem callHandleRequest_ensures {post : Handled → Session → Prop}
    {wait : Call → Session → Prop} {message : ParsedMessage} {receivedAtNs : UInt64}
    (h : ∀ s', Keeps s s' →
      post (handleRequest env.fl message receivedAtNs store s.rng s.clock) s') :
    (callHandleRequest env store message receivedAtNs).Ensures rely s post wait :=
  ensures_update_of_eq rfl (h { s with
    rng := (handleRequest env.fl message receivedAtNs store s.rng s.clock).rng
    clock := (handleRequest env.fl message receivedAtNs store s.rng s.clock).clock } ⟨rfl, rfl, rfl⟩)

/-- The write buffer holds the response, the frame is still unread: record,
consume and arm `EPOLLOUT`. -/
theorem finishFrame_ensures (hfit : config.FramesFit) (h : Live env config store who s)
    (hset : Settled s.socket.history) {p : Bytes} {r : BidResponse}
    (hp : headOf config s.socket.history = .ready p)
    (hout : outbox env.protobuf s.socket.history = [])
    (hans : Answers env store p r) (hstage : Stageable env.protobuf r) {b : ReusableBuffer}
    (hb : b.Wf) (hread : b.readable = frame (serialized env.protobuf r))
    {s1 : Session} (hconn : s1.connection = { s.connection with writeBuffer := b })
    (hsock : s1.socket = s.socket) (hrec : s1.recorder = s.recorder) {f : FrameView}
    (hpay : f.payload = p) (htotal : f.totalFrameBytes = UInt32.ofNat (4 + p.length))
    (timing : RequestTimingBreakdown) (s0 : Session) :
    (finishFrame f r timing).Ensures rely s1
      (FramesPost env config store who rely s0) (Waiting env config store who) := by
  subst hpay
  refine ensures_bind ?_
  refine ensures_modify ?_
  refine ensures_bind ?_
  refine ensures_modify ?_
  refine ensures_bind ?_
  refine ensures_modify ?_
  refine ensures_bind ?_
  refine ensures_modify ?_
  generalize hs2 : Session.note _ _ = s2
  have hconn2 : s2.connection =
      { s.connection with
        writeBuffer := b
        readBuffer := s.connection.readBuffer.consumeFrame
          (UInt32.ofNat (4 + f.payload.length)).toNat
        hasPendingWrite := true } := by
    rw [← hs2, ← htotal]
    simp only [Session.note, Session.setPendingWrite, Session.setReadBuffer,
      Session.recordRequest, hconn]
  have hist2 : s2.socket.history = s.socket.history ++ [.staged f.payload r] := by
    rw [← hs2, ← hsock]
    rfl
  have hrec2 : s2.recorder = s.recorder.map fun r0 => r0.recordRequest timing := by
    rw [← hs2, ← hrec]
    rfl
  have hlive := h.staged hfit hset hp hout hans hstage hb hread hconn2 hist2 hrec2
  have hset2 : Settled s2.socket.history := by
    rw [hist2]
    exact (settled_snoc _ _).mpr ⟨by simp, by simp⟩
  have hfull : outbox env.protobuf s2.socket.history ≠ [] := by
    rw [← hlive.sync.outbox, hconn2]
    show b.readable ≠ []
    rw [hread]
    exact List.ne_nil_of_length_pos (by rw [frame_length]; omega)
  have hpend : s2.connection.hasPendingWrite = true := by rw [hconn2]
  refine ensures_bind ?_
  refine (updateClientEvents_ensures hlive hset2 true).weaken ?_
  rintro granted s3 ⟨h3, hist3, hconn3, hgrant, hrefuse⟩
  have hset3 : Settled s3.socket.history := by rw [hist3]; exact hset2
  cases granted with
  | true =>
      refine ensures_pure ?_
      exact ⟨⟨h3, hset3⟩, by rw [hist3]; exact hfull, by rw [hconn3]; exact hpend, hgrant rfl⟩
  | false =>
      refine ensures_pure ?_
      exact ⟨⟨h3, hset3⟩, fun hclean => (hrefuse rfl hclean).elim⟩

/-- The response could not be staged: the connection is given up with an
empty write buffer. -/
theorem Live.stagingFailed (h : Live env config store who s) (hset : Settled s.socket.history)
    {p : Bytes} {r : BidResponse} (hp : headOf config s.socket.history = .ready p)
    (hout : outbox env.protobuf s.socket.history = []) (hans : Answers env store p r)
    (hfail : ¬ Stageable env.protobuf r) {b : ReusableBuffer} (hb : b.Wf)
    (hread : b.readable = []) :
    Live env config store who ((s.setWriteBuffer b).note (.stagingFailed p r)) := by
  have hw : Live env config store who (s.setWriteBuffer b) :=
    ⟨⟨h.sync.talk, h.sync.readWf, hb, h.sync.capacity, h.sync.inbox, hread.trans hout.symm⟩,
      h.fd, h.connectionId, h.counted⟩
  refine hw.note_quiet rfl ⟨hset, hp, hout, ?_, hans, hfail⟩
  show (RtbEngine.inbox s.socket.history).length ≤ _
  rw [← h.sync.inbox, ← h.sync.capacity]
  exact h.sync.readWf.length_readable_le

/-- From the parsed message on: the connection is dropped with nothing
staged, or the response is staged and `EPOLLOUT` armed. -/
theorem answerFrame_ensures (hfit : config.FramesFit) (h : Live env config store who s)
    (hset : Settled s.socket.history) {p : Bytes}
    (hp : headOf config s.socket.history = .ready p)
    (hout : outbox env.protobuf s.socket.history = []) {message : ParsedMessage}
    (hparse : parseBidRequest env.protobuf p = (.ok, message)) {f : FrameView}
    (hpay : f.payload = p) (htotal : f.totalFrameBytes = UInt32.ofNat (4 + p.length))
    (totalStart parseNs : UInt64) (s0 : Session) :
    (answerFrame env store f totalStart parseNs message).Ensures rely s
      (FramesPost env config store who rely s0) (Waiting env config store who) := by
  refine ensures_bind ?_
  refine nowNs_ensures ?_
  intro receivedAtNs s1 hk1
  refine ensures_bind ?_
  refine callHandleRequest_ensures ?_
  intro s2 hk2
  have h2 := (h.keeps hk1).keeps hk2
  have hist2 : s2.socket.history = s.socket.history := by rw [hk2.socket, hk1.socket]
  have hanswers : (handleRequest env.fl message receivedAtNs store s1.rng s1.clock).result.status ≠
      .dropConnection → Answers env store p
        (handleRequest env.fl message receivedAtNs store s1.rng s1.clock).result.response := by
    intro hstatus
    refine ⟨message, receivedAtNs, s1.rng, s1.clock, hparse, ?_, rfl⟩
    cases hst : (handleRequest env.fl message receivedAtNs store s1.rng s1.clock).result.status with
    | responseReady => rfl
    | dropConnection => exact absurd hst hstatus
  generalize handleRequest env.fl message receivedAtNs store s1.rng s1.clock = handled
    at hanswers
  split
  · -- the request is dropped
    refine ensures_pure ?_
    exact ⟨⟨h2, by rw [hist2]; exact hset⟩, fun _ => by rw [hist2]; exact hout⟩
  · rename_i hstatus
    refine ensures_bind ?_
    refine nowNs_ensures ?_
    intro stageStart s3 hk3
    have h3 := h2.keeps hk3
    have hist3 : s3.socket.history = s.socket.history := by rw [hk3.socket, hist2]
    rw [← hist3] at hset hp hout
    have hempty : s3.connection.writeBuffer.readable = [] := by
      rw [h3.sync.outbox]
      exact hout
    refine ensures_bind ?_
    refine ensures_update ?_
    obtain ⟨b, hb, ⟨hstage, hcall, hread⟩ | ⟨hfail, hcall, hread⟩⟩ :=
      stageResponseFrame_spec env.protobuf handled.result.response h3.sync.writeWf hempty
    · simp only [hcall, if_true]
      refine ensures_bind ?_
      refine nowNs_ensures ?_
      intro stageEnd s4 hk4
      exact finishFrame_ensures hfit h3 hset hp hout (hanswers hstatus) hstage hb hread
        hk4.connection hk4.socket hk4.recorder hpay htotal _ s0
    · simp only [hcall, Bool.false_eq_true, if_false]
      refine ensures_bind ?_
      refine ensures_modify ?_
      refine ensures_pure ?_
      subst hpay
      refine ⟨⟨h3.stagingFailed hset hp hout (hanswers hstatus) hfail hb hread,
        (settled_snoc _ _).mpr ⟨by simp, by simp⟩⟩, fun _ => ?_⟩
      show outbox env.protobuf (s3.socket.history ++ [_]) = []
      rw [outbox_snoc_quiet _ rfl]
      exact hout

theorem processReadyFrames_ensures (hfit : config.FramesFit)
    (h : Live env config store who s)
    (hlast : s.socket.history.getLast? ≠ some (.frameChecked .frameReady))
    (hout : outbox env.protobuf s.socket.history = []) :
    (processReadyFrames env config store).Ensures rely s
      (FramesPost env config store who rely s) (Waiting env config store who) := by
  refine ensures_bind ?_
  refine ensures_read ?_
  rw [h.sync.readWf.tryExtractFrame_eq, h.sync.inbox]
  have hcheck := h.frameChecked hlast hout
  have hheadCheck := @headOf_snoc_quiet config s.socket.history
    (.frameChecked (ReusableBuffer.verdictStatus (headOf config s.socket.history))) rfl
  have houtCheck : outbox env.protobuf (s.socket.history ++
      [.frameChecked (ReusableBuffer.verdictStatus (headOf config s.socket.history))]) = [] := by
    rw [outbox_snoc_quiet _ rfl, hout]
  cases hv : headOf config s.socket.history with
  | short =>
      rw [hv] at hcheck hheadCheck houtCheck
      rw [headOf] at hv
      simp only [hv]
      refine ensures_bind ?_
      refine ensures_modify ?_
      refine ensures_pure ?_
      exact ⟨⟨hcheck, (settled_snoc _ _).mpr ⟨by simp, by simp⟩⟩, houtCheck, hheadCheck, rfl, rfl⟩
  | badLength =>
      rw [hv] at hcheck houtCheck
      rw [headOf] at hv
      simp only [hv]
      refine ensures_bind ?_
      refine ensures_modify ?_
      refine ensures_pure ?_
      exact ⟨⟨hcheck, (settled_snoc _ _).mpr ⟨by simp, by simp⟩⟩, fun _ => houtCheck⟩
  | ready p =>
      rw [hv] at hcheck hheadCheck houtCheck
      rw [headOf] at hv
      simp only [hv]
      -- the frame check, two clock readings and the parser
      refine ensures_bind ?_
      refine ensures_modify ?_
      refine ensures_bind ?_
      refine nowNs_ensures ?_
      intro totalStart s1 hk1
      refine ensures_bind ?_
      refine nowNs_ensures ?_
      intro parseStart s2 hk2
      have h2 := (hcheck.keeps hk1).keeps hk2
      have hist2 : s2.socket.history = s.socket.history ++ [.frameChecked .frameReady] := by
        rw [hk2.socket, hk1.socket]
        rfl
      have hparsed : Live env config store who (s2.note (.parsed p)) := by
        apply h2.note_quiet rfl
        rw [hist2]
        exact ⟨by simp, hheadCheck⟩
      refine ensures_bind ?_
      refine ensures_modify ?_
      cases hparse : parseBidRequest env.protobuf p with
      | mk parseStatus message =>
          refine ensures_bind ?_
          refine nowNs_ensures ?_
          intro parseEnd s3 hk3
          have h3 := hparsed.keeps hk3
          have hist3 : s3.socket.history = s2.socket.history ++ [.parsed p] := by
            rw [hk3.socket]
            rfl
          have hset : Settled s3.socket.history := by
            rw [hist3]
            exact (settled_snoc _ _).mpr ⟨by simp, by simp⟩
          have hhead : headOf config s3.socket.history = .ready p := by
            rw [hist3, headOf_snoc_quiet rfl, hist2]
            exact hheadCheck
          have hout3 : outbox env.protobuf s3.socket.history = [] := by
            rw [hist3, outbox_snoc_quiet _ rfl, hist2]
            exact houtCheck
          split
          · rename_i hok
            have hok' : parseStatus = .ok := hok
            rw [hok'] at hparse
            exact answerFrame_ensures hfit h3 hset hhead hout3 hparse rfl rfl _ _ _
          · refine ensures_pure ?_
            exact ⟨⟨h3, hset⟩, fun _ => hout3⟩

end RtbEngine
