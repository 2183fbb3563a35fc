import RtbEngine.Logic.Handlers

/-!
# Who owns a descriptor

The map of connections, the descriptor table and the numbers of the sockets
agree at every point of a run, whatever passes over the sockets: `Owned` is
kept by each operation, and a descriptor stays with its socket until its own
event is handled.

* `KeepsOwner` — a handler leaves `fd` and `connection_id` alone;
* `handleEvent_owned`, `handleBatch_owned`, `runWorkerLoop_owned` — one event,
  one batch, the loop.
-/

namespace RtbEngine

open Lib Exec

/-! ## Handlers -/

section Handlers

variable {α : Type} {env : Platform} {config : WorkerConfig} {store : CampaignStoreSnapshot}

/-- Wherever a run has got to, the connection has the same owner; it waits in
calls on this connection only. -/
def KeepsOwner (m : SessionM α) : Prop :=
  ∀ s, m.Ensures (fun _ => True) s (fun _ s' => SameOwner s s')
    (fun k s' => k.ofSession = true ∧ SameOwner s s')

theorem keepsOwner_of_maintains {m : SessionM α}
    (h : ∀ s, Maintains SessionCall (SameOwner s) m) : KeepsOwner m :=
  fun s => h s s (SameOwner.refl s)

section

variable {inv : Session → Prop} (h : ∀ s s', SameOwner s s' → inv s → inv s')
include h

theorem maintains_nowNs : Maintains SessionCall inv nowNs :=
  maintains_update fun s hs => h s _ ⟨rfl, rfl⟩ hs

theorem maintains_callHandleRequest (message : ParsedMessage) (receivedAtNs : UInt64) :
    Maintains SessionCall inv (callHandleRequest env store message receivedAtNs) := by
  refine maintains_update fun s hs => ?_
  simp only
  generalize handleRequest env.fl message receivedAtNs store s.rng s.clock = handled
  exact h s _ ⟨rfl, rfl⟩ hs

theorem maintains_callStageResponseFrame (response : BidResponse) :
    Maintains SessionCall inv (callStageResponseFrame env response) := by
  refine maintains_update fun s hs => ?_
  simp only
  generalize stageResponseFrame env.protobuf response s.connection.writeBuffer = staged
  exact h s _ ⟨rfl, rfl⟩ hs

theorem maintains_answerFrame (frame : FrameView) (totalStart parseNs : UInt64)
    (message : ParsedMessage) :
    Maintains SessionCall inv (answerFrame env store frame totalStart parseNs message) := by
  have haside : ∀ s s', Aside s s' → inv s → inv s' := fun s s' hs => h s s' hs.owner
  refine maintains_bind (maintains_nowNs h) fun receivedAtNs => ?_
  refine maintains_bind (maintains_callHandleRequest h _ _) fun handled =>
    maintains_ite (maintains_pure _) ?_
  refine maintains_bind (maintains_nowNs h) fun stageStart => ?_
  refine maintains_bind (maintains_callStageResponseFrame h _) fun staged =>
    maintains_ite ?_ (maintains_bind (maintains_note haside _) fun _ => maintains_pure _)
  refine maintains_bind (maintains_nowNs h) fun stageEnd => ?_
  intro s hs
  exact maintains_finishFrame haside _ _ _ s (h s _ ⟨rfl, rfl⟩ hs)

theorem maintains_processReadyFrames :
    Maintains SessionCall inv (processReadyFrames env config store) := by
  have haside : ∀ s s', Aside s s' → inv s → inv s' := fun s s' hs => h s s' hs.owner
  refine maintains_bind maintains_read fun s => ?_
  generalize s.connection.readBuffer.tryExtractFrame config.maxFrameSize = extracted
  obtain ⟨status, frame⟩ := extracted
  refine maintains_bind (maintains_note haside _) fun _ => ?_
  cases status with
  | needMoreData => exact maintains_pure _
  | invalidLength => exact maintains_pure _
  | frameReady =>
      refine maintains_bind (maintains_nowNs h) fun totalStart => ?_
      refine maintains_bind (maintains_nowNs h) fun parseStart => ?_
      refine maintains_bind (maintains_note haside _) fun _ => ?_
      generalize parseBidRequest env.protobuf frame.payload = parsed
      obtain ⟨parseStatus, message⟩ := parsed
      exact maintains_bind (maintains_nowNs h) fun parseEnd =>
        maintains_ite (maintains_answerFrame h _ _ _ _) (maintains_pure _)

end

/-- **A handler** leaves the owner alone. -/
theorem keepsOwner_serveClient (mask : UInt32) :
    KeepsOwner (serveClient env config store mask) := by
  refine keepsOwner_of_maintains fun s => ?_
  have htrans : ∀ s1 s2, SameOwner s1 s2 → SameOwner s s1 → SameOwner s s2 :=
    fun _ _ h2 h1 => h1.trans h2
  exact maintains_serveClient (fun s1 s2 h2 => htrans s1 s2 h2.owner)
    (maintains_processReadyFrames htrans) mask

end Handlers

/-! ## The tables -/

/-- The numbers of the sockets, the descriptor table and the map agree. -/
structure Tables (w : World) : Prop where
  nextId : w.runtime.nextConnectionId = UInt64.ofNat (w.kernel.accepted + 1)
  below : ∀ {fd i}, w.kernel.fdTable fd = some i → i < w.kernel.accepted
  injective : ∀ {fd fd' i}, w.kernel.fdTable fd = some i → w.kernel.fdTable fd' = some i → fd = fd'
  nonneg : ∀ {fd i}, w.kernel.fdTable fd = some i → 0 ≤ fd
  entered : ∀ fd, (w.runtime.connections fd).isSome = (w.kernel.fdTable fd).isSome

/-- Each entry belongs to the socket of its key, and no client has one of the
worker's own descriptors. -/
structure Owned (w : World) : Prop extends Tables w where
  entry : ∀ {fd c i}, w.runtime.connections fd = some c → w.kernel.fdTable fd = some i →
    c.fd = fd ∧ c.connectionId = UInt64.ofNat (i + 1)
  apart : ∀ {fd i}, w.kernel.fdTable fd = some i → fd ≠ w.runtime.listenFd ∧
    fd ≠ w.runtime.epollFd ∧ fd ≠ w.runtime.config.shutdownFd

/-- The world with a new client on `fd`, not yet registered. -/
def World.enter (w : World) (fd : Fd) : World :=
  World.addConnection { w with kernel := w.kernel.openSocket fd } fd

/-- The connection of a new client. -/
def newConnection (w : World) (fd : Fd) : ConnectionState :=
  { fd
    connectionId := w.runtime.nextConnectionId
    readBuffer := ({} : ReusableBuffer).reserve w.runtime.config.connectionBufferCapacity
    writeBuffer := ({} : ReusableBuffer).reserve w.runtime.config.connectionBufferCapacity }

section

variable {w : World} {fd : Fd} {i : Nat} {s : Session}

theorem Tables.descriptor (hw : Tables w) {c : ConnectionState}
    (hc : w.runtime.connections fd = some c) : ∃ i, w.kernel.fdTable fd = some i := by
  have h := hw.entered fd
  rw [hc, Option.isSome_some] at h
  exact Option.isSome_iff_exists.mp h.symm

theorem Tables.connection (hw : Tables w) (hi : w.kernel.fdTable fd = some i) :
    ∃ c, w.runtime.connections fd = some c := by
  have h := hw.entered fd
  rw [hi, Option.isSome_some] at h
  exact Option.isSome_iff_exists.mp h

theorem Tables.unopened (hw : Tables w) (hfd : w.kernel.fdTable fd = none) :
    w.runtime.connections fd = none := by
  have h := hw.entered fd
  rw [hfd, Option.isSome_none] at h
  exact Option.isSome_eq_false_iff.mp h |> Option.isNone_iff_eq_none.mp

/-- A session that is put back moves no descriptor. -/
theorem Tables.put (hw : Tables w) (hi : w.kernel.fdTable fd = some i) :
    Tables (putSession fd s w) := by
  refine ⟨hw.nextId, hw.below, hw.injective, hw.nonneg, ?_⟩
  intro fd'
  show (Function.update w.runtime.connections fd (some s.connection) fd').isSome = _
  by_cases hfd : fd' = fd
  · subst hfd
    rw [Function.update_self, Option.isSome_some]
    show _ = (w.kernel.fdTable fd').isSome
    rw [hi, Option.isSome_some]
  · rw [Function.update_of_ne hfd]
    exact hw.entered fd'

theorem Kernel.close_fdTable (k : Kernel) (fd' : Fd) :
    (k.close fd).fdTable fd' = if fd' = fd then none else k.fdTable fd' := by
  unfold Kernel.close
  cases hi : k.fdTable fd with
  | none =>
      by_cases hfd : fd' = fd
      · subst hfd
        simp [hi]
      · simp [hfd]
  | some i =>
      by_cases hfd : fd' = fd
      · subst hfd
        simp
      · simp [hfd]

theorem Kernel.close_accepted (k : Kernel) : (k.close fd).accepted = k.accepted := by
  unfold Kernel.close
  split <;> rfl

/-- What is still open after closing `fd` was open before. -/
theorem World.dropConnection_fdTable {fd' : Fd} {j : Nat}
    (h : (w.dropConnection fd).kernel.fdTable fd' = some j) :
    fd' ≠ fd ∧ w.kernel.fdTable fd' = some j := by
  have h' : (w.kernel.close fd).fdTable fd' = some j := h
  rw [Kernel.close_fdTable] at h'
  split at h'
  · cases h'
  · rename_i hne
    exact ⟨hne, h'⟩

theorem Tables.drop (hw : Tables w) : Tables (w.dropConnection fd) := by
  have hacc : (w.dropConnection fd).kernel.accepted = w.kernel.accepted := w.kernel.close_accepted
  refine ⟨?_, ?_, ?_, ?_, ?_⟩
  · rw [hacc]
    exact hw.nextId
  · intro fd' j hj
    rw [hacc]
    exact hw.below (World.dropConnection_fdTable hj).2
  · intro fd' fd'' j hj hj'
    exact hw.injective (World.dropConnection_fdTable hj).2 (World.dropConnection_fdTable hj').2
  · intro fd' j hj
    exact hw.nonneg (World.dropConnection_fdTable hj).2
  · intro fd'
    show (Function.update w.runtime.connections fd none fd').isSome =
      ((w.kernel.close fd).fdTable fd').isSome
    rw [Kernel.close_fdTable]
    by_cases hfd : fd' = fd
    · subst hfd
      simp
    · rw [Function.update_of_ne hfd, if_neg hfd]
      exact hw.entered fd'

theorem Tables.enter_connections (hw : Tables w) (hfd : w.kernel.fdTable fd = none) :
    (w.enter fd).runtime.connections =
      Function.update w.runtime.connections fd (some (newConnection w fd)) := by
  simp only [World.enter, World.addConnection, hw.unopened hfd, newConnection]

theorem World.enter_fdTable (fd' : Fd) : (w.enter fd).kernel.fdTable fd' =
    Function.update w.kernel.fdTable fd (some w.kernel.accepted) fd' := rfl

/-- The number of the new socket is new. -/
theorem Tables.enter (hw : Tables w) (hfd : w.kernel.fdTable fd = none) (h0 : 0 ≤ fd) :
    Tables (w.enter fd) := by
  refine ⟨?_, ?_, ?_, ?_, ?_⟩
  · show w.runtime.nextConnectionId + 1 = UInt64.ofNat (w.kernel.accepted + 1 + 1)
    rw [hw.nextId]
    exact (UInt64.ofNat_add _ 1).symm
  · intro fd' j hj
    rw [World.enter_fdTable] at hj
    by_cases hne : fd' = fd
    · rw [hne, Function.update_self] at hj
      cases hj
      exact Nat.lt_succ_self _
    · rw [Function.update_of_ne hne] at hj
      exact Nat.lt_succ_of_lt (hw.below hj)
  · intro fd' fd'' j hj hj'
    rw [World.enter_fdTable] at hj hj'
    by_cases h1 : fd' = fd <;> by_cases h2 : fd'' = fd
    · rw [h1, h2]
    · rw [h1, Function.update_self] at hj
      rw [Function.update_of_ne h2] at hj'
      cases hj
      exact absurd (hw.below hj') (Nat.lt_irrefl _)
    · rw [h2, Function.update_self] at hj'
      rw [Function.update_of_ne h1] at hj
      cases hj'
      exact absurd (hw.below hj) (Nat.lt_irrefl _)
    · rw [Function.update_of_ne h1] at hj
      rw [Function.update_of_ne h2] at hj'
      exact hw.injective hj hj'
  · intro fd' j hj
    rw [World.enter_fdTable] at hj
    by_cases hne : fd' = fd
    · rw [hne]
      exact h0
    · rw [Function.update_of_ne hne] at hj
      exact hw.nonneg hj
  · intro fd'
    rw [hw.enter_connections hfd, World.enter_fdTable]
    by_cases hne : fd' = fd
    · rw [hne, Function.update_self, Function.update_self]
      rfl
    · rw [Function.update_of_ne hne, Function.update_of_ne hne]
      exact hw.entered fd'

/-! ## Owners -/

theorem Owned.put (hw : Owned w) (hi : w.kernel.fdTable fd = some i) (hfd : s.connection.fd = fd)
    (hid : s.connection.connectionId = UInt64.ofNat (i + 1)) : Owned (putSession fd s w) where
  toTables := hw.toTables.put hi
  entry := by
    intro fd' c' i' hc' hi'
    have hc'' : Function.update w.runtime.connections fd (some s.connection) fd' = some c' := hc'
    by_cases hne : fd' = fd
    · subst hne
      rw [Function.update_self] at hc''
      cases hc''
      obtain rfl : i = i' := Option.some.inj (hi.symm.trans hi')
      exact ⟨hfd, hid⟩
    · rw [Function.update_of_ne hne] at hc''
      exact hw.entry hc'' hi'
  apart := hw.apart

theorem Owned.drop (hw : Owned w) : Owned (w.dropConnection fd) where
  toTables := hw.toTables.drop
  entry := by
    intro fd' c' i' hc' hi'
    obtain ⟨hne, hi''⟩ := World.dropConnection_fdTable hi'
    have hc'' : Function.update w.runtime.connections fd none fd' = some c' := hc'
    rw [Function.update_of_ne hne] at hc''
    exact hw.entry hc'' hi''
  apart := fun hi' => hw.apart (World.dropConnection_fdTable hi').2

theorem Owned.enter (hw : Owned w) (hfd : w.kernel.fdTable fd = none) (h0 : 0 ≤ fd)
    (hapart : fd ≠ w.runtime.listenFd ∧ fd ≠ w.runtime.epollFd ∧
      fd ≠ w.runtime.config.shutdownFd) : Owned (w.enter fd) where
  toTables := hw.toTables.enter hfd h0
  entry := by
    intro fd' c' i' hc' hi'
    rw [hw.enter_connections hfd] at hc'
    rw [World.enter_fdTable] at hi'
    by_cases hne : fd' = fd
    · subst hne
      rw [Function.update_self] at hc' hi'
      cases hc'
      cases hi'
      exact ⟨rfl, hw.nextId⟩
    · rw [Function.update_of_ne hne] at hc' hi'
      exact hw.entry hc' hi'
  apart := by
    intro fd' i' hi'
    rw [World.enter_fdTable] at hi'
    by_cases hne : fd' = fd
    · rw [hne]
      exact hapart
    · rw [Function.update_of_ne hne] at hi'
      exact hw.apart hi'

/-- The worker's own descriptors and its configuration are the same. -/
def SameWorker (w w' : World) : Prop :=
  w'.runtime.listenFd = w.runtime.listenFd ∧ w'.runtime.epollFd = w.runtime.epollFd ∧
    w'.runtime.config = w.runtime.config

theorem SameWorker.refl (w : World) : SameWorker w w := ⟨rfl, rfl, rfl⟩

theorem SameWorker.trans {w' w'' : World} (h : SameWorker w w') (h' : SameWorker w' w'') :
    SameWorker w w'' :=
  ⟨h'.1.trans h.1, h'.2.1.trans h.2.1, h'.2.2.trans h.2.2⟩

/-- From `w` on, only the descriptor `fd` may have been closed. -/
structure Persist (fd : Fd) (w w' : World) : Prop where
  table : ∀ {fd' i}, fd' ≠ fd → w.kernel.fdTable fd' = some i → w'.kernel.fdTable fd' = some i
  worker : SameWorker w w'

theorem Persist.refl (fd : Fd) (w : World) : Persist fd w w := ⟨fun _ h => h, SameWorker.refl w⟩

theorem Persist.trans {w' w'' : World} (h : Persist fd w w') (h' : Persist fd w' w'') :
    Persist fd w w'' :=
  ⟨fun hne hi => h'.table hne (h.table hne hi), h.worker.trans h'.worker⟩

theorem persist_put (fd' : Fd) : Persist fd' w (putSession fd s w) :=
  ⟨fun _ h => h, SameWorker.refl w⟩

theorem persist_drop : Persist fd w (w.dropConnection fd) := by
  refine ⟨?_, SameWorker.refl w⟩
  intro fd' i hne hi
  show (w.kernel.close fd).fdTable fd' = some i
  rw [Kernel.close_fdTable, if_neg hne]
  exact hi

theorem persist_enter (hfd : w.kernel.fdTable fd = none) (fd' : Fd) :
    Persist fd' w (w.enter fd) := by
  refine ⟨?_, SameWorker.refl w⟩
  intro fd'' i _ hi
  rw [World.enter_fdTable, Function.update_of_ne]
  · exact hi
  · rintro rfl
    rw [hfd] at hi
    cases hi

/-- A client that was entered and dropped again leaves the others as they
were. -/
theorem persist_drop_new {w' : World} (hfd : w.kernel.fdTable fd = none) {fd' : Fd}
    (h : Persist fd' w w') : Persist fd' w (w'.dropConnection fd) := by
  refine ⟨?_, h.worker⟩
  intro fd'' i hne hi
  refine persist_drop.table ?_ (h.table hne hi)
  rintro rfl
  rw [hfd] at hi
  cases hi

/-! ## Events -/

/-- The calls made while an event is handled. -/
def Call.ofEvent : Call → Bool
  | .accept4 | .epollCtl | .read | .write => true
  | _ => false

theorem Call.ofEvent_of_ofSession {k : Call} (h : k.ofSession = true) : k.ofEvent = true := by
  cases k <;> first | rfl | cases h

/-- Waiting in the middle of an event. -/
def EventWait (k : Call) (w : World) : Prop := k.ofEvent = true ∧ Owned w

/-- A handler run on an open descriptor. -/
theorem onConnection_owned {α : Type} {m : SessionM α} (hm : KeepsOwner m) (hw : Owned w)
    (hi : w.kernel.fdTable fd = some i) :
    (onConnection fd m).Ensures (fun _ => True) w
      (fun _ w' => Owned w' ∧ w'.kernel.fdTable fd = some i ∧ ∀ x, Persist x w w') EventWait := by
  obtain ⟨c, hc⟩ := hw.connection hi
  obtain ⟨hfd, hid⟩ := hw.entry hc hi
  have hget : getSession fd w = some
      { connection := c
        socket := w.kernel.sockets i
        rng := w.runtime.rng
        recorder := w.runtime.benchmarkRecorder
        shutdownSignals := w.kernel.shutdownSignals
        clock := w.clock } := by
    rw [getSession, hc, hi]
  have hput : ∀ s', SameOwner
      { connection := c
        socket := w.kernel.sockets i
        rng := w.runtime.rng
        recorder := w.runtime.benchmarkRecorder
        shutdownSignals := w.kernel.shutdownSignals
        clock := w.clock } s' → Owned (putSession fd s' w) := by
    intro s' hs'
    exact hw.put hi (hs'.1.trans hfd) (hs'.2.trans hid)
  refine ensures_zoom hget ((hm _).mono ?_ ?_)
  · intro a s' hs'
    exact ⟨hput s' hs', hi, fun x => persist_put x⟩
  · rintro k s' ⟨hk, hs'⟩
    exact ⟨Call.ofEvent_of_ofSession hk, hput s' hs'⟩

theorem dropDescriptor_owned (hw : Owned w) (hi : w.kernel.fdTable fd = some i) :
    (dropDescriptor fd).Ensures (fun _ => True) w (fun _ w' => Owned w' ∧ w' = w.dropConnection fd)
      EventWait := by
  refine ensures_zoom (t := w) (by simp [hi]) ?_
  exact ensures_modify ⟨hw.drop, rfl⟩

theorem closeConnection_owned (hw : Owned w) (hi : w.kernel.fdTable fd = some i) :
    (closeConnection fd).Ensures (fun _ => True) w
      (fun _ w' => Owned w' ∧ w' = w.dropConnection fd) EventWait := by
  unfold closeConnection
  rw [if_neg (Int.not_lt.mpr (hw.nonneg hi))]
  exact dropDescriptor_owned hw hi

theorem keepsOwner_register : KeepsOwner
    (ask .epollCtl fun s answer =>
      match answer with
      | .controlled true => some (true,
          { s with socket := { s.socket with interest := some (EPOLLIN ||| EPOLLRDHUP) } })
      | .controlled false => some (false, s)
      | _ => none) :=
  keepsOwner_of_maintains fun _ =>
    maintains_registerCall fun _ _ h2 h1 => h1.trans h2.owner

theorem acceptRound_owned (hw : Owned w) (x : Fd) :
    (acceptRound ()).Ensures (fun _ => True) w (fun _ w' => Owned w' ∧ Persist x w w')
      EventWait := by
  refine ensures_bind ?_
  refine ensures_ask ⟨rfl, hw⟩ ?_
  intro answer result w' _ hans
  cases answer with
  | accepted outcome =>
      cases outcome with
      | error errno =>
          cases hans
          exact ensures_pure ⟨hw, Persist.refl x w⟩
      | ok fd =>
          simp only at hans
          split at hans
          · rename_i hguard
            obtain ⟨h0, hfd, hapart⟩ := hguard
            cases hans
            refine ensures_bind ?_
            refine ensures_modify ?_
            show Ensures _ _ (w.enter fd) _ _
            have hw1 := hw.enter hfd h0 hapart
            have hi1 : (w.enter fd).kernel.fdTable fd = some w.kernel.accepted :=
              Function.update_self _ _ _
            have hp1 := persist_enter hfd x
            refine ensures_bind ?_
            refine (onConnection_owned keepsOwner_register hw1 hi1).weaken ?_
            rintro granted w2 ⟨hw2, hi2, hp2⟩
            have hp := hp1.trans (hp2 x)
            cases granted with
            | true => exact ensures_pure ⟨hw2, hp⟩
            | false =>
                refine ensures_bind ?_
                refine (dropDescriptor_owned hw2 hi2).weaken ?_
                rintro _ w3 ⟨hw3, rfl⟩
                exact ensures_pure ⟨hw3, persist_drop_new hfd hp⟩
          · cases hans
  | _ => cases hans

theorem productive_acceptRound (u : Unit) : Productive (acceptRound u) :=
  Consumes.productive ((consumes_ask _ _).bind _)

theorem keepsOwner_note (event : SocketEvent) : KeepsOwner (note event) :=
  fun s => ensures_modify (SameOwner.refl s)

theorem hangUp_owned (hw : Owned w) {event : EpollEvent} (hi : w.kernel.fdTable event.fd = some i) :
    (hangUp event).Ensures (fun _ => True) w
      (fun _ w' => Owned w' ∧ Persist event.fd w w') EventWait := by
  refine ensures_bind ?_
  refine (onConnection_owned (keepsOwner_note _) hw hi).weaken ?_
  rintro _ w1 ⟨hw1, hi1, hp1⟩
  refine (closeConnection_owned hw1 hi1).weaken ?_
  rintro _ w2 ⟨hw2, rfl⟩
  exact ⟨hw2, (hp1 event.fd).trans persist_drop⟩

/-- **One event** closes at most its own descriptor. -/
theorem handleEvent_owned (env : Platform) (hw : Owned w) (event : EpollEvent) :
    (handleEvent env event).Ensures (fun _ => True) w
      (fun _ w' => Owned w' ∧ Persist event.fd w w') EventWait := by
  refine ensures_bind ?_
  refine ensures_read ?_
  split
  · -- the listening socket: nothing that was open is closed
    refine ensures_loop (fun _ w' => Owned w' ∧ Persist event.fd w w') productive_acceptRound ?_
      ⟨hw, Persist.refl _ w⟩
    rintro _ w1 ⟨hw1, hp1⟩
    refine (acceptRound_owned hw1 event.fd).weaken ?_
    rintro r w2 ⟨hw2, hp2⟩
    cases r with
    | again _ => exact ⟨hw2, hp1.trans hp2⟩
    | stop _ => exact ⟨hw2, hp1.trans hp2⟩
  · cases hc : w.runtime.connections event.fd with
    | none => exact ensures_pure ⟨hw, Persist.refl _ w⟩
    | some c =>
        obtain ⟨i, hi⟩ := hw.descriptor hc
        simp only
        split
        · exact hangUp_owned hw hi
        · refine ensures_bind ?_
          refine (onConnection_owned (keepsOwner_serveClient event.mask) hw hi).weaken ?_
          rintro close w1 ⟨hw1, hi1, hp1⟩
          cases close with
          | false => exact ensures_pure ⟨hw1, hp1 event.fd⟩
          | true =>
              refine (closeConnection_owned hw1 hi1).weaken ?_
              rintro _ w2 ⟨hw2, rfl⟩
              exact ⟨hw2, (hp1 event.fd).trans persist_drop⟩

/-! ## Batches -/

/-- Waiting while a batch that came in `w` is handled. Before an event, the
events left are at the end of the batch; if it names each descriptor once,
theirs still refer to the sockets they did. -/
def BatchWait (events : List EpollEvent) (w : World) (k : Call) (w' : World) : Prop :=
  EventWait k w' ∨ ∃ event rest, k = .nextEvent (event :: rest) ∧ Owned w' ∧
    (event :: rest) <:+ events ∧ ((events.map EpollEvent.fd).Nodup → ∀ e ∈ event :: rest, ∀ i,
      w.kernel.fdTable e.fd = some i → w'.kernel.fdTable e.fd = some i)

/-- **One batch**: until an event is handled, its descriptor is not closed. -/
theorem handleBatch_owned (env : Platform) (hw : Owned w) (events : List EpollEvent) :
    (handleBatch env events).Ensures (fun _ => True) w
      (fun _ w' => Owned w' ∧ SameWorker w w') (BatchWait events w) := by
  induction events generalizing w with
  | nil => exact ensures_pure ⟨hw, SameWorker.refl w⟩
  | cons event events ih =>
      refine ensures_bind ?_
      refine ensures_ask
        (.inr ⟨event, events, rfl, hw, List.suffix_refl _, fun _ _ _ _ hi => hi⟩) ?_
      intro answer u w' _ hans
      cases answer with
      | go =>
          cases hans
          refine ensures_bind ?_
          refine ensures_read ?_
          split
          · exact ensures_pure ⟨hw, SameWorker.refl w⟩
          · refine ensures_bind ?_
            refine (handleEvent_owned env hw event).mono ?_ fun k w1 hk => .inl hk
            rintro _ w1 ⟨hw1, hp1⟩
            refine (ih hw1).mono ?_ ?_
            · rintro stop w2 ⟨hw2, hsame⟩
              exact ⟨hw2, hp1.worker.trans hsame⟩
            · rintro k w2 (hk | ⟨next, rest, rfl, hw2, hsuffix, hpersist⟩)
              · exact .inl hk
              · refine .inr ⟨next, rest, rfl, hw2, hsuffix.trans (List.suffix_cons _ _), ?_⟩
                intro hnodup e he i hi
                rw [List.map_cons, List.nodup_cons] at hnodup
                -- the event just handled is about another descriptor
                have hne : e.fd ≠ event.fd := by
                  intro heq
                  exact hnodup.1 (heq ▸ List.mem_map_of_mem (hsuffix.subset he))
                exact hpersist hnodup.2 e he i (hp1.table hne hi)
      | _ => cases hans

theorem productive_epollRound (env : Platform) (u : Unit) : Productive (epollRound env u) :=
  Consumes.productive ((consumes_ask _ _).bind _)

/-- The calls a worker is found waiting in. -/
def Call.isBadDescriptor : Call → Bool
  | .badDescriptor _ => true
  | _ => false

theorem BatchWait.owned {events : List EpollEvent} {k : Call} {w' : World}
    (h : BatchWait events w k w') : Owned w' ∧ k.isBadDescriptor = false := by
  rcases h with ⟨hk, hw'⟩ | ⟨event, rest, rfl, hw', -⟩
  · refine ⟨hw', ?_⟩
    cases k <;> first | rfl | cases hk
  · exact ⟨hw', rfl⟩

theorem epollRound_owned (env : Platform) (hw : Owned w) :
    (epollRound env ()).Ensures (fun _ => True) w (fun _ w' => Owned w' ∧ SameWorker w w')
      (fun k w' => Owned w' ∧ k.isBadDescriptor = false) := by
  refine ensures_bind ?_
  refine ensures_ask ⟨hw, rfl⟩ ?_
  intro answer result w' _ hans
  cases answer with
  | events outcome =>
      cases outcome with
      | error errno =>
          cases hans
          exact ensures_pure ⟨hw, SameWorker.refl w⟩
      | ok batch =>
          simp only at hans
          split at hans
          · cases hans
            refine ensures_bind ?_
            refine (handleBatch_owned env hw batch).mono ?_ fun k w1 hk => hk.owned
            rintro stop w1 h1
            cases stop with
            | true => exact ensures_pure h1
            | false => exact ensures_pure h1
          · cases hans
  | _ => cases hans

/-- **The loop**, whatever the answers. -/
theorem runWorkerLoop_owned (env : Platform) (hw : Owned w) :
    (runWorkerLoop env).Ensures (fun _ => True) w (fun _ w' => Owned w' ∧ SameWorker w w')
      (fun k w' => Owned w' ∧ k.isBadDescriptor = false) := by
  refine ensures_loop (fun _ w' => Owned w' ∧ SameWorker w w') (productive_epollRound env) ?_
    ⟨hw, SameWorker.refl w⟩
  rintro _ w1 ⟨hw1, hsame1⟩
  refine (epollRound_owned env hw1).weaken ?_
  rintro r w2 ⟨hw2, hsame2⟩
  cases r with
  | again _ => exact ⟨hw2, hsame1.trans hsame2⟩
  | stop _ => exact ⟨hw2, hsame1.trans hsame2⟩

end

theorem owned_boot (config : WorkerConfig) (epollFd listenFd : Fd) (rng : WorkerRng)
    (recorder : Option BenchmarkRecorder) (store : CampaignStoreSnapshot) (clock : Clock) :
    Owned (bootWorld config epollFd listenFd rng recorder store clock) where
  nextId := rfl
  below := nofun
  injective := nofun
  nonneg := nofun
  entered := fun _ => rfl
  entry := nofun
  apart := nofun

end RtbEngine
