import RtbEngine.Engine.Benchmark
import RtbEngine.Logic.Handlers
import RtbEngine.Logic.Ownership
import RtbEngine.Theorems.Stream
import RtbEngine.Theorems.Summaries

/-!
# Phase timings add up

Six pieces of the time between the first and the last reading of a frame, none
of which overlaps another: with a clock that does not go back their sum is at
most the total, for every recorded frame and for every summary.
-/

namespace RtbEngine

open Lib Exec Framing

/-! ## Readings -/

/-- The clock does not go back. -/
def NonDecreasing (reading : Nat → UInt64) : Prop := ∀ i j, i ≤ j → reading i ≤ reading j

/-- `ns` is the `j`-th reading less the `i`-th, which does not exceed it. -/
def Spans (reading : Nat → UInt64) (ns : UInt64) (i j : Nat) : Prop :=
  (reading i).toNat + ns.toNat = (reading j).toNat

/-- The timing of a frame whose first reading has the number `start`: the way
through retrieval and decision, and the one around them. -/
inductive Measured (reading : Nat → UInt64) (t : RequestTimingBreakdown) : Prop where
  | eligible (start : Nat)
      (parse : Spans reading t.parseNs (start + 1) (start + 2))
      (normalize : Spans reading t.normalizeValidateNs (start + 4) (start + 5))
      (retrieve : Spans reading t.retrieveNs (start + 6) (start + 7))
      (decide : Spans reading t.decideNs (start + 8) (start + 9))
      (build : Spans reading t.responseBuildNs (start + 10) (start + 11))
      (stage : Spans reading t.responseStageNs (start + 12) (start + 13))
      (total : Spans reading t.totalInternalNs start (start + 13))
  | ineligible (start : Nat)
      (parse : Spans reading t.parseNs (start + 1) (start + 2))
      (normalize : Spans reading t.normalizeValidateNs (start + 4) (start + 5))
      (retrieve : t.retrieveNs = 0)
      (decide : t.decideNs = 0)
      (build : Spans reading t.responseBuildNs (start + 6) (start + 7))
      (stage : Spans reading t.responseStageNs (start + 8) (start + 9))
      (total : Spans reading t.totalInternalNs start (start + 9))

/-- The six phases together. -/
def RequestTimingBreakdown.phasesNs (t : RequestTimingBreakdown) : Nat :=
  t.parseNs.toNat + t.normalizeValidateNs.toNat + t.retrieveNs.toNat + t.decideNs.toNat +
    t.responseBuildNs.toNat + t.responseStageNs.toNat

section

variable {reading : Nat → UInt64} (hmono : NonDecreasing reading)
include hmono

theorem NonDecreasing.spans {i j : Nat} (hij : i ≤ j) :
    Spans reading (reading j - reading i) i j := by
  have hle := hmono i j hij
  rw [Spans, UInt64.toNat_sub_of_le _ _ hle]
  exact Nat.add_sub_cancel' (UInt64.le_iff_toNat_le.mp hle)

theorem NonDecreasing.toNat_le {i j : Nat} (hij : i ≤ j) :
    (reading i).toNat ≤ (reading j).toNat :=
  UInt64.le_iff_toNat_le.mp (hmono i j hij)

/-- **One frame.** The phases follow each other inside the total. -/
theorem Measured.phasesNs_le {t : RequestTimingBreakdown} (h : Measured reading t) :
    t.phasesNs ≤ t.totalInternalNs.toNat := by
  unfold RequestTimingBreakdown.phasesNs
  cases h with
  | eligible start parse normalize retrieve decide build stage total =>
      have h01 := hmono.toNat_le (show start ≤ start + 1 by omega)
      have h24 := hmono.toNat_le (show start + 2 ≤ start + 4 by omega)
      have h56 := hmono.toNat_le (show start + 5 ≤ start + 6 by omega)
      have h78 := hmono.toNat_le (show start + 7 ≤ start + 8 by omega)
      have h910 := hmono.toNat_le (show start + 9 ≤ start + 10 by omega)
      have h1112 := hmono.toNat_le (show start + 11 ≤ start + 12 by omega)
      unfold Spans at *
      omega
  | ineligible start parse normalize retrieve decide build stage total =>
      have h01 := hmono.toNat_le (show start ≤ start + 1 by omega)
      have h24 := hmono.toNat_le (show start + 2 ≤ start + 4 by omega)
      have h56 := hmono.toNat_le (show start + 5 ≤ start + 6 by omega)
      have h78 := hmono.toNat_le (show start + 7 ≤ start + 8 by omega)
      have hzero : (0 : UInt64).toNat = 0 := rfl
      rw [retrieve, decide]
      unfold Spans at *
      omega

/-! ## One frame -/

/-- The readings of a call of `handle_request` that begins with the `n`-th. -/
theorem handleRequest_spans {fl : Double → Double} {message : ParsedMessage}
    {receivedAtNs : UInt64} {store : CampaignStoreSnapshot} {rng : WorkerRng} {n : Nat}
    {handled : Handled}
    (hhandled : handleRequest fl message receivedAtNs store rng { reading, taken := n } = handled) :
    handled.clock.reading = reading ∧ Spans reading handled.timing.normalizeValidateNs n (n + 1) ∧
      ((handled.clock.taken = n + 8 ∧
          Spans reading handled.timing.retrieveNs (n + 2) (n + 3) ∧
          Spans reading handled.timing.decideNs (n + 4) (n + 5) ∧
          Spans reading handled.timing.responseBuildNs (n + 6) (n + 7)) ∨
        (handled.clock.taken = n + 4 ∧ handled.timing.retrieveNs = 0 ∧
          handled.timing.decideNs = 0 ∧
          Spans reading handled.timing.responseBuildNs (n + 2) (n + 3))) := by
  subst hhandled
  unfold handleRequest
  simp only
  split
  · -- the way around retrieval and decision reads the clock four times
    exact ⟨rfl, hmono.spans (Nat.le_succ n), .inr ⟨rfl, rfl, rfl,
      hmono.spans (Nat.le_succ (n + 2))⟩⟩
  · exact ⟨rfl, hmono.spans (Nat.le_succ n), .inl ⟨rfl, hmono.spans (Nat.le_succ (n + 2)),
      hmono.spans (Nat.le_succ (n + 4)), hmono.spans (Nat.le_succ (n + 6))⟩⟩

/-- The timing of a frame that began with the reading `start`, once the
response is staged. -/
theorem measured_of_handleRequest {fl : Double → Double} {message : ParsedMessage}
    {receivedAtNs : UInt64} {store : CampaignStoreSnapshot} {rng : WorkerRng} {start : Nat}
    {parseNs : UInt64} {handled : Handled}
    (hparse : Spans reading parseNs (start + 1) (start + 2))
    (hhandled : handleRequest fl message receivedAtNs store rng
      { reading, taken := start + 4 } = handled) :
    Measured reading
      { parseNs
        normalizeValidateNs := handled.timing.normalizeValidateNs
        retrieveNs := handled.timing.retrieveNs
        decideNs := handled.timing.decideNs
        responseBuildNs := handled.timing.responseBuildNs
        responseStageNs := reading (handled.clock.taken + 1) - reading handled.clock.taken
        totalInternalNs := reading (handled.clock.taken + 1) - reading start } := by
  obtain ⟨-, hnormalize, ⟨htaken, hretrieve, hdecide, hbuild⟩ | ⟨htaken, hretrieve, hdecide, hbuild⟩⟩ :=
    handleRequest_spans hmono hhandled
  · simp only [Nat.add_assoc, Nat.reduceAdd] at htaken hnormalize hretrieve hdecide hbuild
    simp only [htaken, Nat.add_assoc, Nat.reduceAdd]
    exact .eligible start hparse hnormalize hretrieve hdecide hbuild
      (hmono.spans (Nat.le_succ (start + 12))) (hmono.spans (Nat.le_add_right start 13))
  · simp only [Nat.add_assoc, Nat.reduceAdd] at htaken hnormalize hbuild
    simp only [htaken, Nat.add_assoc, Nat.reduceAdd]
    exact .ineligible start hparse hnormalize hretrieve hdecide hbuild
      (hmono.spans (Nat.le_succ (start + 8))) (hmono.spans (Nat.le_add_right start 9))

end

/-- From `s` to `s'` nothing was recorded, or the timing of one frame. -/
structure Records (s s' : Session) : Prop where
  reading : s'.clock.reading = s.clock.reading
  recorder : s'.recorder = s.recorder ∨
    ∃ t, Measured s.clock.reading t ∧ s'.recorder = s.recorder.map (·.recordRequest t)

section

variable {env : Platform} {config : WorkerConfig} {store : CampaignStoreSnapshot}

theorem Records.aside {s s1 s2 : Session} (h2 : Aside s1 s2) (h : Records s s1) : Records s s2 where
  reading := (congrArg Clock.reading h2.clock).trans h.reading
  recorder := by
    rw [h2.recorder]
    exact h.recorder

/-- Nothing was recorded since `s`, and the next reading is the `n`-th. -/
structure Reads (s : Session) (n : Nat) (s' : Session) : Prop where
  clock : s'.clock = { reading := s.clock.reading, taken := n }
  recorder : s'.recorder = s.recorder

section

variable {s s1 : Session} {n : Nat} {rely : Answer → Prop} {wait : Call → Session → Prop}

theorem Reads.records (h : Reads s n s1) : Records s s1 := by
  refine ⟨?_, .inl h.recorder⟩
  rw [h.clock]

theorem Reads.aside {s2 : Session} (h : Reads s n s1) (h2 : Aside s1 s2) : Reads s n s2 :=
  ⟨h2.clock.trans h.clock, h2.recorder.trans h.recorder⟩

theorem nowNs_reads (h : Reads s n s1) :
    nowNs.Ensures rely s1 (fun ns s' => ns = s.clock.reading n ∧ Reads s (n + 1) s') wait := by
  refine ensures_update ⟨?_, ?_, h.recorder⟩
  · rw [h.clock]
    rfl
  · rw [h.clock]
    rfl

theorem callHandleRequest_reads (h : Reads s n s1) (message : ParsedMessage) (receivedAtNs : UInt64) :
    (callHandleRequest env store message receivedAtNs).Ensures rely s1
      (fun handled s' => handleRequest env.fl message receivedAtNs store s1.rng
          { reading := s.clock.reading, taken := n } = handled ∧
        s'.clock = handled.clock ∧ s'.recorder = s.recorder) wait := by
  have hpost : ∀ handled, handleRequest env.fl message receivedAtNs store s1.rng s1.clock = handled →
      handleRequest env.fl message receivedAtNs store s1.rng
          { reading := s.clock.reading, taken := n } = handled ∧
        ({ s1 with rng := handled.rng, clock := handled.clock } : Session).clock = handled.clock ∧
        ({ s1 with rng := handled.rng, clock := handled.clock } : Session).recorder = s.recorder := by
    intro handled hhandled
    rw [h.clock] at hhandled
    exact ⟨hhandled, rfl, h.recorder⟩
  exact ensures_update_of_eq rfl (hpost _ rfl)

end

/-- From the parsed message on, three readings into the frame. -/
theorem answerFrame_records {s s1 : Session} (hmono : NonDecreasing s.clock.reading)
    (frame : FrameView) (message : ParsedMessage) {start : Nat} {parseNs : UInt64}
    (hparse : Spans s.clock.reading parseNs (start + 1) (start + 2))
    (hreads : Reads s (start + 3) s1) :
    (answerFrame env store frame (s.clock.reading start) parseNs message).Ensures (fun _ => True) s1
      (fun _ s' => Records s s') fun k s' => SessionCall k ∧ Records s s' := by
  refine ensures_bind ?_
  refine (nowNs_reads hreads).weaken ?_
  rintro receivedAtNs s2 ⟨-, hreads⟩
  refine ensures_bind ?_
  refine (callHandleRequest_reads hreads message receivedAtNs).weaken ?_
  rintro handled s3 ⟨hhandled, hclock, hrecorder⟩
  -- handle_request hands the clock on, so the count of readings goes through it
  have hreading := (handleRequest_spans hmono hhandled).1
  have hreads : Reads s handled.clock.taken s3 := by
    refine ⟨?_, hrecorder⟩
    rw [hclock, ← hreading]
  split
  · exact ensures_pure hreads.records
  · refine ensures_bind ?_
    refine (nowNs_reads hreads).weaken ?_
    rintro stageStart s4 ⟨rfl, hreads⟩
    refine ensures_bind ?_
    refine ensures_update ?_
    have hreads : Reads s (handled.clock.taken + 1) (s4.setWriteBuffer
        (stageResponseFrame env.protobuf handled.result.response s4.connection.writeBuffer).2) :=
      ⟨hreads.clock, hreads.recorder⟩
    split
    · refine ensures_bind ?_
      refine (nowNs_reads hreads).weaken ?_
      rintro stageEnd s5 ⟨rfl, hreads⟩
      -- what is recorded: from here on the clock is not read again
      have hmeasured := measured_of_handleRequest hmono hparse hhandled
      exact maintains_finishFrame (fun _ _ => Records.aside) _ _ _ _
        ⟨hreads.records.reading, .inr ⟨_, hmeasured, congrArg (Option.map _) hreads.recorder⟩⟩
    · exact maintains_bind (maintains_note (fun _ _ => Records.aside) _)
        (fun _ => maintains_pure _) _ hreads.records

/-- **One frame**: at any point of `process_ready_frames` at most its own timing
has been recorded, each phase without an underflow. -/
theorem processReadyFrames_records {s : Session} (hmono : NonDecreasing s.clock.reading) :
    (processReadyFrames env config store).Ensures (fun _ => True) s (fun _ s' => Records s s')
      fun k s' => SessionCall k ∧ Records s s' := by
  have hreads : Reads s s.clock.taken s := ⟨rfl, rfl⟩
  refine ensures_bind ?_
  refine ensures_read ?_
  generalize s.connection.readBuffer.tryExtractFrame config.maxFrameSize = extracted
  obtain ⟨status, frame⟩ := extracted
  refine ensures_bind ?_
  refine ensures_modify ?_
  have hreads := hreads.aside (aside_of_fields rfl rfl rfl rfl : Aside s (s.note (.frameChecked status)))
  cases status with
  | needMoreData => exact ensures_pure hreads.records
  | invalidLength => exact ensures_pure hreads.records
  | frameReady =>
      refine ensures_bind ?_
      refine (nowNs_reads hreads).weaken ?_
      rintro totalStart s1 ⟨rfl, hreads⟩
      refine ensures_bind ?_
      refine (nowNs_reads hreads).weaken ?_
      rintro parseStart s2 ⟨rfl, hreads⟩
      refine ensures_bind ?_
      refine ensures_modify ?_
      have hreads := hreads.aside (aside_of_fields rfl rfl rfl rfl : Aside s2 (s2.note (.parsed frame.payload)))
      generalize parseBidRequest env.protobuf frame.payload = parsed
      obtain ⟨parseStatus, message⟩ := parsed
      refine ensures_bind ?_
      refine (nowNs_reads hreads).weaken ?_
      rintro parseEnd s3 ⟨rfl, hreads⟩
      split
      · exact answerFrame_records hmono frame message
          (hmono.spans (Nat.le_succ (s.clock.taken + 1))) hreads
      · exact ensures_pure hreads.records

/-! ## Workers -/

/-- The clock is the one it was, and what is recorded meets `P`. -/
structure Timed (reading : Nat → UInt64) (P : RequestTimingBreakdown → Prop) (clock : Clock)
    (recorder : Option BenchmarkRecorder) : Prop where
  reading : clock.reading = reading
  requests : ∀ r, recorder = some r → ∀ t ∈ r.requests, P t

variable {reading : Nat → UInt64} {P : RequestTimingBreakdown → Prop}

theorem Records.timed {s s' : Session} (h : Records s s')
    (hP : ∀ t, Measured reading t → P t) (hs : Timed reading P s.clock s.recorder) :
    Timed reading P s'.clock s'.recorder where
  reading := h.reading.trans hs.reading
  requests := by
    intro r hr
    -- either the recorder is untouched, or one timing of this clock went to its end
    rcases h.recorder with hsame | ⟨t, ht, hrecord⟩
    · exact hs.requests r (hsame.symm.trans hr)
    · rw [hrecord] at hr
      obtain ⟨r0, hr0, rfl⟩ := Option.map_eq_some_iff.mp hr
      intro t' ht'
      rcases List.mem_append.mp ht' with hbefore | hnew
      · exact hs.requests r0 hr0 t' hbefore
      · cases List.mem_singleton.mp hnew
        exact hP t (hs.reading ▸ ht)

theorem maintains_serveClient_timed (hmono : NonDecreasing reading)
    (hP : ∀ t, Measured reading t → P t) (mask : UInt32) :
    Maintains SessionCall (fun s => Timed reading P s.clock s.recorder)
      (serveClient env config store mask) := by
  refine maintains_serveClient ?_ ?_ mask
  · intro s s' haside hs
    rw [haside.clock, haside.recorder]
    exact hs
  · intro s hs
    have hs' := hs
    rw [← hs.reading] at hmono
    refine (processReadyFrames_records hmono).mono ?_ ?_
    · exact fun _ s' hrecords => hrecords.timed hP hs
    · exact fun k s' hk => ⟨hk.1, hk.2.timed hP hs⟩

/-- The clock and the recorder of a worker. -/
def World.Timed (reading : Nat → UInt64) (P : RequestTimingBreakdown → Prop) (w : World) : Prop :=
  RtbEngine.Timed reading P w.clock w.runtime.benchmarkRecorder

theorem maintains_onConnection {α : Type} {m : SessionM α}
    (hm : Maintains SessionCall (fun s => Timed reading P s.clock s.recorder) m) (fd : Fd) :
    Maintains (fun _ => True) (World.Timed reading P) (onConnection fd m) := by
  refine maintains_zoom trivial (fun _ _ => trivial) ?_ (fun _ _ _ _ _ ht => ht) hm
  intro w s hw hget
  unfold getSession at hget
  split at hget
  · cases hget
    exact hw
  · cases hget

theorem maintains_dropDescriptor (fd : Fd) :
    Maintains (fun _ => True) (World.Timed reading P) (dropDescriptor fd) := by
  have hdrop : Maintains (fun _ => True) (World.Timed reading P)
      (modify fun w => w.dropConnection fd : WorkerM Unit) := maintains_modify fun _ hw => hw
  refine maintains_zoom trivial (fun _ _ => trivial) ?_ (fun _ _ _ _ _ ht => ht) hdrop
  intro w w' hw hget
  split at hget
  · cases hget
    exact hw
  · cases hget

theorem maintains_closeConnection (fd : Fd) :
    Maintains (fun _ => True) (World.Timed reading P) (closeConnection fd) :=
  maintains_ite (maintains_pure _) (maintains_dropDescriptor fd)

theorem maintains_hangUp (event : EpollEvent) :
    Maintains (fun _ => True) (World.Timed reading P) (hangUp event) := by
  have hnote : Maintains SessionCall (fun s => Timed reading P s.clock s.recorder)
      (note (.hungUp event.mask)) := maintains_modify fun _ hs => hs
  exact maintains_bind (maintains_onConnection hnote event.fd) fun _ =>
    maintains_closeConnection event.fd

theorem maintains_acceptRound (u : Unit) :
    Maintains (fun _ => True) (World.Timed reading P) (acceptRound u) := by
  refine maintains_bind (maintains_ask trivial ?_) fun accepted => ?_
  · intro w answer result w' hw hans
    cases answer with
    | accepted outcome =>
        cases outcome with
        | ok fd =>
            simp only at hans
            split at hans
            · cases hans
              exact hw
            · cases hans
        | error errno => cases hans; exact hw
    | _ => cases hans
  · cases accepted with
    | error errno => exact maintains_pure _
    | ok fd =>
        refine maintains_bind (maintains_modify fun _ hw => hw) fun _ => ?_
        have hregister : Maintains (fun _ => True) (World.Timed reading P) (registerClient fd) :=
          maintains_onConnection (maintains_registerCall fun s s' haside hs => by
            rw [haside.clock, haside.recorder]
            exact hs) fd
        exact maintains_bind hregister fun granted => maintains_ite (maintains_pure _)
          (maintains_bind (maintains_dropDescriptor fd) fun _ => maintains_pure _)

section

variable (env) (hmono : NonDecreasing reading) (hP : ∀ t, Measured reading t → P t)
include hmono hP

theorem maintains_handleEvent (event : EpollEvent) :
    Maintains (fun _ => True) (World.Timed reading P) (handleEvent env event) := by
  refine maintains_bind maintains_read fun w => maintains_ite
    (maintains_loop productive_acceptRound maintains_acceptRound ()) ?_
  cases w.runtime.connections event.fd with
  | none => exact maintains_pure _
  | some c =>
      refine maintains_ite (maintains_hangUp event) ?_
      refine maintains_bind (maintains_onConnection (maintains_serveClient_timed hmono hP _) _)
        fun close => maintains_ite (maintains_closeConnection _) (maintains_pure _)

theorem maintains_handleBatch (events : List EpollEvent) :
    Maintains (fun _ => True) (World.Timed reading P) (handleBatch env events) := by
  induction events with
  | nil => exact maintains_pure _
  | cons event events ih =>
      refine maintains_bind (maintains_ask trivial ?_) fun _ => ?_
      · intro w answer u w' hw hans
        cases answer with
        | go => cases hans; exact hw
        | _ => cases hans
      · exact maintains_bind maintains_read fun w => maintains_ite (maintains_pure _)
          (maintains_bind (maintains_handleEvent env hmono hP event) fun _ => ih)

/-- **A worker**, whatever the answers. -/
theorem maintains_runWorkerLoop :
    Maintains (fun _ => True) (World.Timed reading P) (runWorkerLoop env) := by
  refine maintains_loop (productive_epollRound env) (fun _ => ?_) ()
  refine maintains_bind (maintains_ask trivial ?_) fun result => ?_
  · intro w answer result w' hw hans
    cases answer with
    | events outcome =>
        cases outcome with
        | ok batch =>
            simp only at hans
            split at hans
            · cases hans
              exact hw
            · cases hans
        | error errno => cases hans; exact hw
    | _ => cases hans
  · cases result with
    | error errno => exact maintains_pure _
    | ok events =>
        exact maintains_bind (maintains_handleBatch env hmono hP events) fun stop =>
          maintains_ite (maintains_pure _) (maintains_pure _)

end

end

/-! ## Summaries -/

/-- From `r` to `r'` some worker ran `process_ready_frames`, with a clock that does
not go back, up to some point. The recorder is shared: the worker is any. -/
def FrameStep (r r' : BenchmarkRecorder) : Prop :=
  ∃ (env : Platform) (config : WorkerConfig) (store : CampaignStoreSnapshot) (s : Session)
    (answers : List Answer), NonDecreasing s.clock.reading ∧ s.recorder = some r ∧
    ((processReadyFrames env config store).run s answers).state.recorder = some r'

/-- The sum of the six exact phase totals. -/
def exactPhaseTotals (requests : List RequestTimingBreakdown) : Nat :=
  exactTotal (requests.map (·.parseNs)) + exactTotal (requests.map (·.normalizeValidateNs)) +
    exactTotal (requests.map (·.retrieveNs)) + exactTotal (requests.map (·.decideNs)) +
    exactTotal (requests.map (·.responseBuildNs)) + exactTotal (requests.map (·.responseStageNs))

/-- The total of a phase whose average is exact. -/
def BenchmarkPhaseSummary.total (s : BenchmarkPhaseSummary) : Double := s.avgNs * s.count

/-- The phases of a summary are within its total. -/
def BenchmarkSummary.PhasesWithinTotal (s : BenchmarkSummary) : Prop :=
  s.parse.total + s.normalizeValidate.total + s.retrieve.total + s.decide.total +
    s.responseBuild.total + s.responseStage.total ≤ s.totalInternal.total

/-- In exact arithmetic the average gives back the exact total. -/
theorem total_summarizePhase (requests : List RequestTimingBreakdown)
    (accessor : RequestTimingBreakdown → UInt64) :
    (summarizePhase id id requests accessor).total = exactTotal (requests.map accessor) := by
  by_cases hne : requests = []
  · subst hne
    exact zero_mul _
  · have hlen : (requests.length : Double) ≠ 0 := by
      rw [Nat.cast_ne_zero]
      exact fun h => hne (List.length_eq_zero_iff.mp h)
    have hcount : (summarizePhase id id requests accessor).count = requests.length := by
      rw [summarizePhase_eq hne]
    rw [BenchmarkPhaseSummary.total, hcount, summarizePhase_avgNs hne fun _ _ => rfl]
    exact div_mul_cancel₀ _ hlen

theorem BenchmarkRecorder.phasesWithinTotal {r : BenchmarkRecorder}
    (h : exactPhaseTotals r.requests ≤ exactTotal (r.requests.map (·.totalInternalNs))) :
    (r.summarize id id).PhasesWithinTotal := by
  unfold BenchmarkSummary.PhasesWithinTotal BenchmarkRecorder.summarize
  simp only [total_summarizePhase]
  unfold exactPhaseTotals at h
  -- the inequality of totals, read over the doubles
  exact_mod_cast h

theorem exactPhaseTotals_le {requests : List RequestTimingBreakdown}
    (h : ∀ t ∈ requests, t.phasesNs ≤ t.totalInternalNs.toNat) :
    exactPhaseTotals requests ≤ exactTotal (requests.map (·.totalInternalNs)) := by
  induction requests with
  | nil => exact Nat.le_refl _
  | cons t requests ih =>
      have hrest := ih fun t' ht' => h t' (List.mem_cons_of_mem _ ht')
      have ht := h t List.mem_cons_self
      unfold RequestTimingBreakdown.phasesNs at ht
      unfold exactPhaseTotals exactTotal at hrest ⊢
      simp only [List.map_cons, List.sum_cons]
      omega

/-- What the recorder of a server holds: timings of frames, each with the
clock of its worker. -/
theorem measured_of_frameSteps {limit : UInt64} {r : BenchmarkRecorder}
    (hr : Relation.ReflTransGen FrameStep { requestLimit := limit } r) :
    ∀ t ∈ r.requests, ∃ reading, NonDecreasing reading ∧ Measured reading t := by
  induction hr with
  | refl => exact nofun
  | tail _ hstep ih =>
      obtain ⟨env, config, store, s, answers, hmono, hs, hr'⟩ := hstep
      have hrecords : Records s ((processReadyFrames env config store).run s answers).state :=
        ((processReadyFrames_records hmono).mono (fun _ _ h => h) fun _ _ hk => hk.2).state answers
      refine (hrecords.timed (fun t ht => ⟨_, hmono, ht⟩) ⟨rfl, ?_⟩).requests _ hr'
      rintro r0 hr0
      -- the recorder at the start of the step is the one of the induction hypothesis
      cases hs.symm.trans hr0
      exact ih

/-- **Phase timings add up.** A frame records at most one timing, without an
underflow, and its phases are within its total; so in the summary of what any
workers have recorded the six phase totals are within the total. -/
theorem phase_timings_add_up :
    (∀ (env : Platform) (config : WorkerConfig) (store : CampaignStoreSnapshot) (s : Session)
      (answers : List Answer), NonDecreasing s.clock.reading →
      ∃ timings : List RequestTimingBreakdown, timings.length ≤ 1 ∧
        ((processReadyFrames env config store).run s answers).state.recorder =
          s.recorder.map (·.recordAll timings) ∧
        ∀ t ∈ timings, Measured s.clock.reading t ∧ t.phasesNs ≤ t.totalInternalNs.toNat) ∧
    (∀ (limit : UInt64) (r : BenchmarkRecorder),
      Relation.ReflTransGen FrameStep { requestLimit := limit } r →
      (∀ t ∈ r.requests, t.phasesNs ≤ t.totalInternalNs.toNat) ∧
        exactPhaseTotals r.requests ≤ exactTotal (r.requests.map (·.totalInternalNs)) ∧
        (r.summarize id id).PhasesWithinTotal) ∧
    (∀ (env : Platform) (config : WorkerConfig) (epollFd listenFd : Fd) (rng : WorkerRng)
      (limit : UInt64) (store : CampaignStoreSnapshot) (clock : Clock) (answers : List Answer)
      (r : BenchmarkRecorder), NonDecreasing clock.reading →
      ((runWorkerLoop env).run
          (bootWorld config epollFd listenFd rng (some { requestLimit := limit }) store clock)
          answers).state.runtime.benchmarkRecorder = some r →
      (∀ t ∈ r.requests, Measured clock.reading t) ∧
        exactPhaseTotals r.requests ≤ exactTotal (r.requests.map (·.totalInternalNs)) ∧
        (r.summarize id id).PhasesWithinTotal) := by
  refine ⟨?_, ?_, ?_⟩
  · intro env config store s answers hmono
    have hrecords : Records s ((processReadyFrames env config store).run s answers).state :=
      ((processReadyFrames_records hmono).mono (fun _ _ h => h) fun _ _ hk => hk.2).state answers
    rcases hrecords.recorder with hsame | ⟨t, ht, hrecord⟩
    · refine ⟨[], Nat.zero_le 1, ?_, nofun⟩
      rw [hsame]
      exact Option.map_id'.symm
    · refine ⟨[t], Nat.le_refl 1, hrecord, ?_⟩
      intro t' ht'
      cases List.mem_singleton.mp ht'
      exact ⟨ht, ht.phasesNs_le hmono⟩
  · intro limit r hr
    have hphases : ∀ t ∈ r.requests, t.phasesNs ≤ t.totalInternalNs.toNat := by
      intro t ht
      obtain ⟨reading, hmono, hmeasured⟩ := measured_of_frameSteps hr t ht
      exact hmeasured.phasesNs_le hmono
    have htotals := exactPhaseTotals_le hphases
    exact ⟨hphases, htotals, BenchmarkRecorder.phasesWithinTotal htotals⟩
  · intro env config epollFd listenFd rng limit store clock answers r hmono hr
    have hboot : World.Timed clock.reading (Measured clock.reading)
        (bootWorld config epollFd listenFd rng (some { requestLimit := limit }) store clock) := by
      refine ⟨rfl, ?_⟩
      rintro r0 hr0
      cases hr0
      exact nofun
    -- nothing is recorded at the start; the loop keeps it so for every list of answers
    have hend := (maintains_runWorkerLoop env hmono fun t ht => ht).state hboot answers
    have hmeasured := hend.requests r hr
    have htotals := exactPhaseTotals_le fun t ht => (hmeasured t ht).phasesNs_le hmono
    exact ⟨hmeasured, htotals, BenchmarkRecorder.phasesWithinTotal htotals⟩

/-! ## A run -/

/-- The readings are squares, as far as to 900. -/
def squares (i : Nat) : UInt64 := UInt64.ofNat (min i 30 * min i 30)

theorem nonDecreasing_squares : NonDecreasing squares := by
  intro i j hij
  have hroot : min i 30 ≤ min j 30 := min_le_min_right 30 hij
  have hsquare : min i 30 * min i 30 ≤ min j 30 * min j 30 := Nat.mul_le_mul hroot hroot
  have hbound : min j 30 * min j 30 ≤ 30 * 30 := Nat.mul_le_mul (min_le_right _ _) (min_le_right _ _)
  have hsize : 30 * 30 < UInt64.size := by decide
  unfold squares
  rw [UInt64.le_iff_toNat_le, UInt64.toNat_ofNat_of_lt' (by omega),
    UInt64.toNat_ofNat_of_lt' (by omega)]
  exact hsquare

/-- A client on 5 sends one request, which is staged. -/
def stagedAnswers : List Answer :=
  [.events (.ok [⟨3, EPOLLIN⟩]), .go, .accepted (.ok 5), .controlled true,
    .accepted (.error .eagain),
    .events (.ok [⟨5, EPOLLIN⟩]), .go, .readBytes (.ok (frame sampleRequest)), .controlled true]

/-- The first reading is 0, the last 169. -/
theorem phase_timings_add_up_sample :
    ∃ r, ((runWorkerLoop wirePlatform).run
        (bootWorld sampleConfig 4 3 {} (some { requestLimit := 0 }) {} { reading := squares })
        stagedAnswers).state.runtime.benchmarkRecorder = some r ∧
      r.requests = [⟨3, 9, 13, 17, 21, 25, 169⟩] ∧
      exactPhaseTotals r.requests = 88 ∧
      exactPhaseTotals r.requests ≤ exactTotal (r.requests.map (·.totalInternalNs)) := by
  have hrun : (((runWorkerLoop wirePlatform).run
      (bootWorld sampleConfig 4 3 {} (some { requestLimit := 0 }) {} { reading := squares })
      stagedAnswers).state.runtime.benchmarkRecorder).any (fun r =>
        r.requests = [⟨3, 9, 13, 17, 21, 25, 169⟩] ∧ exactPhaseTotals r.requests = 88) := by
    decide +kernel
  obtain ⟨r, hr, hp⟩ := (Option.any_eq_true _ _).mp hrun
  obtain ⟨hrequests, htotals⟩ := of_decide_eq_true hp
  exact ⟨r, hr, hrequests, htotals,
    (phase_timings_add_up.2.2 _ _ _ _ _ _ _ _ _ r nonDecreasing_squares hr).2.1⟩

end RtbEngine
