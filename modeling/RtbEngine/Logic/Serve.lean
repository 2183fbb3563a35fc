import RtbEngine.Logic.Session

/-!
# Serving a client

The read loop and the handler of a client event, from `Rest` to `Rest`: each
way through the handler that keeps the connection leaves it waiting for the
event that moves it on.

* `readRound_ensures` — one round of the read loop;
* `serveClient_ensures` — the handler as a whole.
-/

namespace RtbEngine

open Lib Exec Framing

variable {env : Platform} {config : WorkerConfig} {store : CampaignStoreSnapshot} {who : Who}
  {s : Session} {rely : Answer → Prop}

/-! ## The read loop -/

/-- Between two rounds of the read loop: no response is on its way and no
frame is at the head. -/
structure Reading (env : Platform) (config : WorkerConfig) (store : CampaignStoreSnapshot)
    (who : Who) (s : Session) : Prop where
  live : Live env config store who s
  settled : Settled s.socket.history
  drained : outbox env.protobuf s.socket.history = []
  short : headOf config s.socket.history = .short
  flag : s.connection.hasPendingWrite = false
  interest : s.socket.interest = some (clientEvents false)

theorem Reading.note_quiet (h : Reading env config store who s) {e : SocketEvent}
    (hq : e.isQuiet) (hset : Settled (s.socket.history ++ [e]))
    (he : Allowed env config store s.socket.history e) :
    Reading env config store who (s.note e) where
  live := h.live.note_quiet hq he
  settled := hset
  drained := by
    show outbox env.protobuf (s.socket.history ++ [e]) = []
    rw [outbox_snoc_quiet _ hq, h.drained]
  short := by
    show headOf config (s.socket.history ++ [e]) = .short
    rw [headOf_snoc_quiet hq, h.short]
  flag := h.flag
  interest := h.interest

/-- The socket was read until it had no more. -/
theorem Reading.rest (h : Reading env config store who s)
    (hlast : s.socket.history.getLast? = some (.readFailed .eagain)) :
    Rest env config s.connection s.socket where
  interest := by rw [h.interest, h.flag]
  pending := by
    rw [h.flag, h.drained]
    simp
  idle := fun _ => ⟨h.short, .inr hlast⟩

/-- Compaction changes no readable byte. -/
theorem Reading.compact (h : Reading env config store who s) :
    Reading env config store who (s.setReadBuffer s.connection.readBuffer.compact) := by
  have hwf := h.live.sync.readWf
  refine ⟨⟨⟨h.live.sync.talk, hwf.compact, h.live.sync.writeWf, ?_, ?_, h.live.sync.outbox⟩,
    h.live.fd, h.live.connectionId, h.live.counted⟩, h.settled, h.drained, h.short, h.flag,
    h.interest⟩
  · show s.connection.readBuffer.compact.storage.length = _
    rw [hwf.length_compact]
    exact h.live.sync.capacity
  · show s.connection.readBuffer.compact.readable = _
    rw [hwf.readable_compact]
    exact h.live.sync.inbox

/-- A compacted buffer without room is full of unread bytes. -/
theorem Reading.bufferFull (h : Reading env config store who s)
    (hfull : s.connection.readBuffer.writableRegion = [])
    (hcompact : s.connection.readBuffer.readOffset = 0) :
    Reading env config store who (s.note .bufferFull) := by
  have hwf := h.live.sync.readWf
  have hroom := hwf.length_writableRegion
  have hlen := hwf.length_readable
  rw [hfull, List.length_nil, ReusableBuffer.writableBytes] at hroom
  rw [ReusableBuffer.readableBytes, hcompact] at hlen
  refine h.note_quiet rfl ((settled_snoc _ _).mpr ⟨by simp, by simp⟩) ⟨h.settled, h.short, ?_⟩
  rw [← h.live.sync.inbox, ← h.live.sync.capacity]
  omega

/-- Bytes that a `read` brought are at the end of the inbox. -/
theorem Reading.received (h : Reading env config store who s) {bytes : Bytes}
    (hne : bytes ≠ []) (hfit : bytes.length ≤ s.connection.readBuffer.writableRegion.length) :
    Live env config store who
      ((s.note (.received bytes)).setReadBuffer (s.connection.readBuffer.append bytes)) := by
  have hwf := h.live.sync.readWf
  rw [hwf.length_writableRegion] at hfit
  have hinbox : (s.connection.readBuffer.append bytes).readable =
      inbox s.socket.history ++ bytes := by
    rw [hwf.readable_append hfit, h.live.sync.inbox]
  have hcap : (s.connection.readBuffer.append bytes).storage.length =
      config.connectionBufferCapacity := by
    rw [hwf.length_append hfit, h.live.sync.capacity]
  refine ⟨⟨.snoc h.live.sync.talk ⟨h.settled, hne, ?_⟩, hwf.append hfit, h.live.sync.writeWf,
    hcap, ?_, ?_⟩, h.live.fd, h.live.connectionId, ?_⟩
  · rw [← hinbox, ← hcap]
    exact (hwf.append hfit).length_readable_le
  · show (s.connection.readBuffer.append bytes).readable = inbox (s.socket.history ++ [_])
    rw [inbox_snoc_received h.live.sync.talk, hinbox]
  · show s.connection.writeBuffer.readable = outbox env.protobuf (s.socket.history ++ [_])
    rw [outbox_snoc_received]
    exact h.live.sync.outbox
  · show Recorded _ _ (stagedResponses (s.socket.history ++ [.received bytes])).length
    rw [stagedResponses_snoc_none rfl]
    exact h.live.counted

/-- What serving a client leaves behind. -/
def ServedPost (env : Platform) (config : WorkerConfig) (store : CampaignStoreSnapshot) (who : Who)
    (rely : Answer → Prop) (close : Bool) (s : Session) : Prop :=
  (Live env config store who s ∧ Settled s.socket.history) ∧
    (close = false → Rest env config s.connection s.socket) ∧
    (close = true → (∀ a, rely a → a.Clean) → outbox env.protobuf s.socket.history = [])

/-- Dropping a connection with nothing on its way. -/
theorem Reading.closed (h : Reading env config store who s) :
    ServedPost env config store who rely true s :=
  ⟨⟨h.live, h.settled⟩, fun hf => (by cases hf), fun _ _ => h.drained⟩

theorem FramesPost.paused {s0 : Session}
    (h : FramesPost env config store who rely s0 .pauseForWrite s) :
    ServedPost env config store who rely false s := by
  obtain ⟨hlive, hout, hflag, hint⟩ := h
  refine ⟨hlive, fun _ => ⟨?_, ?_, ?_⟩, fun hf => by cases hf⟩
  · rw [hint, hflag]
  · simp only [hflag, hout, ne_eq, not_false_eq_true]
  · intro hf
    rw [hflag] at hf
    cases hf

theorem FramesPost.closed {s0 : Session}
    (h : FramesPost env config store who rely s0 .closeConnection s) :
    ServedPost env config store who rely true s :=
  ⟨h.1, fun hf => (by cases hf), fun _ => h.2⟩

theorem FramesPost.reading {s0 : Session}
    (h : FramesPost env config store who rely s0 .continue s)
    (hflag : s0.connection.hasPendingWrite = false)
    (hint : s0.socket.interest = some (clientEvents false)) : Reading env config store who s := by
  obtain ⟨⟨hlive, hset⟩, hout, hhead, hint1, hflag1⟩ := h
  exact ⟨hlive, hset, hout, hhead, hflag1.trans hflag, hint1.trans hint⟩

theorem makeRoom_ensures (h : Reading env config store who s) :
    makeRoom.Ensures rely s (fun _ s' => Reading env config store who s')
      (Waiting env config store who) := by
  refine ensures_bind ?_
  refine ensures_read ?_
  split
  · refine ensures_bind ?_
    refine ensures_modify ?_
    refine ensures_bind ?_
    refine ensures_read ?_
    split
    · rename_i hfull
      refine ensures_bind ?_
      refine ensures_modify ?_
      refine ensures_pure ?_
      exact h.compact.bufferFull (List.isEmpty_iff.mp hfull) (ReusableBuffer.compact_readOffset _)
    · exact ensures_pure h.compact
  · exact ensures_pure h

theorem productive_readRound (u : Unit) : Productive (readRound env config store u) := by
  apply productive_bind
  intro room
  apply productive_ite
  · exact Consumes.productive ((consumes_ask _ _).bind _)
  · exact productive_stop _

/-- One round of the read loop goes round again, or ends the handler. -/
theorem readRound_ensures (hfit : config.FramesFit) (h : Reading env config store who s) :
    (readRound env config store ()).Ensures rely s
      (fun r s' => match r with
        | .again _ => Reading env config store who s'
        | .stop close => ServedPost env config store who rely close s')
      (Waiting env config store who) := by
  refine ensures_bind ?_
  refine (makeRoom_ensures h).weaken ?_
  clear h
  intro room s h
  cases room with
  | false => exact ensures_pure h.closed
  | true =>
      refine ensures_bind ?_
      refine ensures_ask ⟨rfl, h.live, h.settled⟩ ?_
      intro answer result s' _ hans
      cases answer with
      | readBytes outcome =>
          cases outcome with
          | ok bytes =>
              simp only at hans
              split at hans
              · rename_i hroom
                cases hans
                by_cases hnil : bytes = []
                · -- the end of the stream: the storage is as it was
                  subst hnil
                  have hend := h.note_quiet (e := .endOfFile) rfl
                    ((settled_snoc _ _).mpr ⟨by simp, by simp⟩) h.settled
                  have hsame : s.connection.readBuffer.fillWritable [] = s.connection.readBuffer := by
                    simp [ReusableBuffer.fillWritable]
                  simp only [hsame, List.length_nil, gt_iff_lt, Nat.lt_irrefl, if_true, if_false]
                  exact ensures_pure hend.closed
                · simp only [gt_iff_lt, List.length_pos_iff.mpr hnil, if_true, if_neg hnil]
                  refine ensures_bind ?_
                  refine ensures_modify ?_
                  refine ensures_bind ?_
                  have hin := h.received hnil hroom
                  have hlast : (s.socket.history ++ [SocketEvent.received bytes]).getLast? ≠
                      some (.frameChecked .frameReady) := by simp
                  have hout : outbox env.protobuf
                      (s.socket.history ++ [SocketEvent.received bytes]) = [] := by
                    rw [outbox_snoc_received, h.drained]
                  refine (processReadyFrames_ensures hfit hin hlast hout).weaken ?_
                  intro outcome s2 hpost
                  cases outcome with
                  | closeConnection => exact ensures_pure hpost.closed
                  | pauseForWrite => exact ensures_pure hpost.paused
                  | «continue» => exact ensures_pure (hpost.reading h.flag h.interest)
              · cases hans
          | error errno =>
              cases hans
              have hfail := h.note_quiet (e := .readFailed errno) rfl
                ((settled_snoc _ _).mpr ⟨by simp, by simp⟩) h.settled
              cases errno with
              | eintr => exact ensures_pure hfail
              | eagain =>
                  -- drained: back to `epoll_wait`
                  refine ensures_pure ?_
                  refine ⟨⟨hfail.live, hfail.settled⟩, fun _ => hfail.rest ?_, fun hf => by cases hf⟩
                  exact List.getLast?_concat
              | other code => exact ensures_pure hfail.closed
      | _ => cases hans

theorem serveFrames_ensures (hfit : config.FramesFit) (h : Live env config store who s)
    (hset : Settled s.socket.history) (hout : outbox env.protobuf s.socket.history = [])
    (hflag : s.connection.hasPendingWrite = false)
    (hint : s.socket.interest = some (clientEvents false)) :
    (serveFrames env config store).Ensures rely s (ServedPost env config store who rely)
      (Waiting env config store who) := by
  have hlast : s.socket.history.getLast? ≠ some (.frameChecked .frameReady) := by
    intro hlast
    rw [Settled, hlast] at hset
    exact hset
  refine ensures_bind ?_
  refine (processReadyFrames_ensures hfit h hlast hout).weaken ?_
  intro outcome s1 hpost
  cases outcome with
  | closeConnection => exact ensures_pure hpost.closed
  | pauseForWrite => exact ensures_pure hpost.paused
  | «continue» =>
      refine ensures_loop (fun _ s => Reading env config store who s) productive_readRound ?_
        (hpost.reading hflag hint)
      intro _ s h
      refine (readRound_ensures hfit h).weaken ?_
      intro r s' hr
      cases r with
      | again _ => exact hr
      | stop _ => exact hr

/-- Flushed or not, what is left of `Rest` but for the bytes received. -/
theorem flushOnWritable_ensures (h : Live env config store who s)
    (hset : Settled s.socket.history) (hrest : Rest env config s.connection s.socket)
    (mask : UInt32) :
    (flushOnWritable config mask).Ensures rely s
      (fun ok s' => (Live env config store who s' ∧ Settled s'.socket.history) ∧
        (ok = true → s'.socket.interest = some (clientEvents s'.connection.hasPendingWrite) ∧
          (s'.connection.hasPendingWrite = true ↔
            outbox env.protobuf s'.socket.history ≠ [])) ∧
        (ok = false → (∀ a, rely a → a.Clean) → False))
      (Waiting env config store who) := by
  unfold flushOnWritable
  split
  · exact flushPendingWrite_ensures h hset
  · exact ensures_pure ⟨⟨h, hset⟩, fun _ => ⟨hrest.interest, hrest.pending⟩,
      fun hf => by cases hf⟩

/-- **Serving a client event** takes a connection at rest to a connection at
rest, or ends it; in between it waits in no call with an event owed. -/
theorem serveClient_ensures (hfit : config.FramesFit) (h : Live env config store who s)
    (hset : Settled s.socket.history) (hrest : Rest env config s.connection s.socket)
    (mask : UInt32) :
    (serveClient env config store mask).Ensures rely s (ServedPost env config store who rely)
      (Waiting env config store who) := by
  refine ensures_bind ?_
  refine ensures_read ?_
  split
  · refine ensures_bind ?_
    refine (flushOnWritable_ensures h hset hrest mask).weaken ?_
    rintro flushed s1 ⟨⟨h1, hset1⟩, hok, hfail⟩
    cases flushed with
    | false =>
        exact ensures_pure ⟨⟨h1, hset1⟩, fun hf => (by cases hf), fun _ hclean => (hfail rfl hclean).elim⟩
    | true =>
        obtain ⟨hint, hpend⟩ := hok rfl
        refine ensures_bind ?_
        refine ensures_read ?_
        cases hflag : s1.connection.hasPendingWrite with
        | true =>
            refine ensures_pure ⟨⟨h1, hset1⟩, fun _ => ⟨hint, hpend, ?_⟩, fun hf => by cases hf⟩
            intro hf
            rw [hflag] at hf
            cases hf
        | false =>
            rw [hflag] at hint hpend
            exact serveFrames_ensures hfit h1 hset1 (by simpa using hpend) hflag hint
  · rename_i hidle
    have hflag : s.connection.hasPendingWrite = false := by simpa using hidle
    have hout : outbox env.protobuf s.socket.history = [] := by
      have hpend := hrest.pending
      rw [hflag] at hpend
      simpa using hpend
    exact serveFrames_ensures hfit h hset hout hflag (by rw [hrest.interest, hflag])

end RtbEngine
