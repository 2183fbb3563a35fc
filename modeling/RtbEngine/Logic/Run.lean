import RtbEngine.Logic.Worker

/-!
# Runs computed

What a run does on given answers, for showing that something can happen: a
read buffer that fills up before a frame is complete closes its connection.

* `run_serveClient_overflow` — the handler on such a read;
* `run_handleEvent_close`, `run_handleBatch_one`, `run_epollRound_batch` — the
  event loop around it.
-/

namespace RtbEngine

open Lib Exec Framing

section
variable {env : Platform} {config : WorkerConfig} {store : CampaignStoreSnapshot} {s : Session}

/-- Nothing to do at the head of the read buffer. -/
theorem run_processReadyFrames_short (hwf : s.connection.readBuffer.Wf)
    (hshort : headVerdict config.maxFrameSize.toNat s.connection.readBuffer.readable = .short)
    (is : List Answer) :
    (processReadyFrames env config store).run s is =
      .done .continue (s.note (.frameChecked .needMoreData)) is := by
  have hframe : s.connection.readBuffer.tryExtractFrame config.maxFrameSize =
      (.needMoreData, {}) := by
    rw [hwf.tryExtractFrame_eq, hshort]
  unfold processReadyFrames
  rw [run_read_bind]
  simp only [hframe]
  rfl

/-- A round that reads bytes but no frame. -/
theorem run_readRound_short (hwf : s.connection.readBuffer.Wf) {bytes : Bytes} (hne : bytes ≠ [])
    (hfit : bytes.length ≤ s.connection.readBuffer.writableRegion.length)
    (hshort : headVerdict config.maxFrameSize.toNat
      (s.connection.readBuffer.readable ++ bytes) = .short) (is : List Answer) :
    (readRound env config store ()).run s (.readBytes (.ok bytes) :: is) =
      .done (.again ()) (((s.note (.received bytes)).setReadBuffer
        (s.connection.readBuffer.append bytes)).note (.frameChecked .needMoreData)) is := by
  have hpos : 0 < bytes.length := List.length_pos_iff.mpr hne
  have hroom : makeRoom.run s (.readBytes (.ok bytes) :: is) =
      .done true s (.readBytes (.ok bytes) :: is) := by
    unfold makeRoom
    rw [run_read_bind, if_neg]
    · rfl
    · rw [List.isEmpty_iff]
      intro hnil
      rw [hnil, List.length_nil] at hfit
      omega
  have hread : readSocket.run s (.readBytes (.ok bytes) :: is) =
      .done (.ok bytes.length) ((s.setReadBuffer (s.connection.readBuffer.fillWritable bytes)).note
        (.received bytes)) is := by
    apply run_ask_cons
    simp only [if_pos hfit, if_neg hne]
  have hfit' := hfit
  rw [hwf.length_writableRegion] at hfit'
  unfold readRound
  rw [run_bind_done hroom]
  simp only [if_true]
  rw [run_bind_done hread]
  simp only [gt_iff_lt, hpos, if_true]
  rw [run_modify_bind]
  -- the frame check after the read finds the bytes behind the old ones
  have hnext := @run_processReadyFrames_short env config store
    ((s.note (.received bytes)).setReadBuffer (s.connection.readBuffer.append bytes))
    (hwf.append hfit') (by
      show headVerdict _ (s.connection.readBuffer.append bytes).readable = _
      rw [hwf.readable_append hfit']
      exact hshort) is
  exact run_bind_done hnext

/-- A round without room, although what is there is no frame. -/
theorem run_readRound_full (hwf : s.connection.readBuffer.Wf)
    (hfull : s.connection.readBuffer.readable.length = s.connection.readBuffer.storage.length)
    (is : List Answer) :
    (readRound env config store ()).run s is =
      .done (.stop true)
        ((s.setReadBuffer s.connection.readBuffer.compact).note .bufferFull) is := by
  have hregion : s.connection.readBuffer.writableRegion = [] := by
    rw [← List.length_eq_zero_iff, hwf.length_writableRegion, ReusableBuffer.writableBytes]
    have hlen := hwf.length_readable
    unfold ReusableBuffer.readableBytes at hlen
    omega
  have hcompact : s.connection.readBuffer.compact.writableRegion = [] := by
    rw [← List.length_eq_zero_iff, hwf.compact.length_writableRegion, hwf.writableBytes_compact]
    omega
  have hroom : makeRoom.run s is =
      .done false ((s.setReadBuffer s.connection.readBuffer.compact).note .bufferFull) is := by
    unfold makeRoom
    rw [run_read_bind, if_pos (List.isEmpty_iff.mpr hregion), run_modify_bind, run_read_bind]
    have hstill : (s.setReadBuffer s.connection.readBuffer.compact).connection.readBuffer.writableRegion.isEmpty :=
      List.isEmpty_iff.mpr hcompact
    rw [if_pos hstill]
    rfl
  unfold readRound
  rw [run_bind_done hroom]
  rfl

/-- The first bytes of a frame that fill the buffer close the connection. -/
theorem run_serveClient_overflow (hwf : s.connection.readBuffer.Wf)
    (hempty : s.connection.readBuffer.readable = []) (hidle : s.connection.hasPendingWrite = false)
    {bytes : Bytes} (hne : bytes ≠ [])
    (hlen : bytes.length = s.connection.readBuffer.storage.length)
    (hroom : bytes.length = s.connection.readBuffer.writableRegion.length)
    (hshort : headVerdict config.maxFrameSize.toNat bytes = .short) (mask : UInt32)
    (is : List Answer) :
    ∃ s', (serveClient env config store mask).run s (.readBytes (.ok bytes) :: is) =
        .done true s' is ∧
      s'.socket.history = s.socket.history ++ [.frameChecked .needMoreData, .received bytes,
        .frameChecked .needMoreData, .bufferFull] := by
  have hcheck := @run_processReadyFrames_short env config store s hwf (by rw [hempty]; rfl)
    (.readBytes (.ok bytes) :: is)
  have hread := @run_readRound_short env config store (s.note (.frameChecked .needMoreData)) hwf
    bytes hne (Nat.le_of_eq hroom) (by
      show headVerdict _ (s.connection.readBuffer.readable ++ bytes) = _
      rw [hempty]
      exact hshort) is
  have hfits : bytes.length ≤ s.connection.readBuffer.writableBytes := by
    rw [← hwf.length_writableRegion]
    exact Nat.le_of_eq hroom
  have hfull := @run_readRound_full env config store
    ((((s.note (.frameChecked .needMoreData)).note (.received bytes)).setReadBuffer
      (s.connection.readBuffer.append bytes)).note (.frameChecked .needMoreData))
    (hwf.append hfits) (by
      show (s.connection.readBuffer.append bytes).readable.length =
        (s.connection.readBuffer.append bytes).storage.length
      rw [hwf.readable_append hfits, hempty, hwf.length_append hfits, List.nil_append]
      exact hlen) is
  obtain ⟨s', hs', hist⟩ : ∃ s', (readRound env config store ()).run
      ((((s.note (.frameChecked .needMoreData)).note (.received bytes)).setReadBuffer
        (s.connection.readBuffer.append bytes)).note (.frameChecked .needMoreData)) is =
        .done (.stop true) s' is ∧
      s'.socket.history = s.socket.history ++ [.frameChecked .needMoreData, .received bytes,
        .frameChecked .needMoreData, .bufferFull] :=
    ⟨_, hfull, by simp [Session.note, Session.setReadBuffer]⟩
  refine ⟨s', ?_, hist⟩
  -- two rounds: one that fills the buffer, one that finds no room
  have hloop : (loop (readRound env config store) ()).run (s.note (.frameChecked .needMoreData))
      (.readBytes (.ok bytes) :: is) = .done true s' is := by
    rw [loop_unfold productive_readRound, hread]
    show (loop (readRound env config store) ()).run _ is = _
    rw [loop_unfold productive_readRound]
    exact congrArg (fun o => Outcome.andThen o _) hs'
  unfold serveClient serveFrames
  rw [run_read_bind, if_neg (by rw [hidle]; decide), run_bind_done hcheck]
  exact hloop

/-! ## The event loop -/

section

variable {w w' : World} {s' : Session} {event : EpollEvent} {is rest : List Answer}

/-- A client whose handler asks for its end is closed. -/
theorem run_handleEvent_close {c : ConnectionState} (hlisten : event.fd ≠ w.runtime.listenFd)
    (hc : w.runtime.connections event.fd = some c)
    (hmask : ¬ (event.mask &&& EPOLLERR ≠ 0 ∨ event.mask &&& EPOLLHUP ≠ 0 ∨
      event.mask &&& EPOLLRDHUP ≠ 0))
    (hget : getSession event.fd w = some s) (h0 : ¬ event.fd < 0)
    (hopen : (w.kernel.fdTable event.fd).isSome)
    (hserve : (serveClient env w.runtime.config w.runtime.campaignStore event.mask).run s is =
      .done true s' rest) :
    (handleEvent env event).run w is =
      .done () ((putSession event.fd s' w).dropConnection event.fd) rest := by
  have hzoom : (onConnection event.fd
      (serveClient env w.runtime.config w.runtime.campaignStore event.mask)).run w is =
      .done true (putSession event.fd s' w) rest := by
    simp only [onConnection, zoom, hget, hserve]
  have hclose : (closeConnection event.fd).run (putSession event.fd s' w) rest =
      .done () ((putSession event.fd s' w).dropConnection event.fd) rest := by
    have hopen' : ((putSession event.fd s' w).kernel.fdTable event.fd).isSome := hopen
    unfold closeConnection
    rw [if_neg h0]
    simp only [dropDescriptor, zoom, hopen', if_true]
    rfl
  unfold handleEvent
  rw [run_read_bind, if_neg hlisten]
  simp only [hc]
  rw [if_neg hmask, run_bind_done hzoom]
  exact hclose

theorem run_handleBatch_one (hshutdown : event.fd ≠ w.runtime.config.shutdownFd)
    (hevent : (handleEvent env event).run w is = .done () w' rest) :
    (handleBatch env [event]).run w (.go :: is) = .done false w' rest := by
  have hnext : (nextEvent [event]).run w (.go :: is) = .done () w is := run_ask_cons rfl _
  unfold handleBatch
  rw [run_bind_done hnext, run_read_bind, if_neg hshutdown, run_bind_done hevent]
  rfl

theorem run_epollRound_batch {events : List EpollEvent}
    (hlen : events.length ≤ w.runtime.config.epollMaxEvents)
    (hbatch : (handleBatch env events).run w is = .done false w' rest) :
    (epollRound env ()).run w (.events (.ok events) :: is) = .done (.again ()) w' rest := by
  have hwait : epollWait.run w (.events (.ok events) :: is) = .done (.ok events) w is := by
    apply run_ask_cons
    simp only [if_pos hlen]
  unfold epollRound
  rw [run_bind_done hwait]
  simp only
  rw [run_bind_done hbatch]
  rfl

end

end

end RtbEngine
