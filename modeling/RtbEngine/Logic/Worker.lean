import Mathlib.Algebra.BigOperators.Group.Finset.Basic
import RtbEngine.Logic.Ownership

/-!
# Every run of the worker

`WorldOk` holds in every state a worker can be found waiting in: descriptors
and connections agree, every socket that was ever accepted has had an allowed
conversation, and each open connection holds what its conversation says.
Between two events each connection is moreover at rest (`Resting`), and in a
clean environment nothing is lost when one is closed (`Drained`).

* `WorldOk.onClient` — a session is lifted into the world;
* `handleEvent_ensures`, `handleBatch_ensures` — one event, one batch;
* `runWorkerLoop_ensures` — the loop.
-/

namespace RtbEngine

open Lib Exec Framing

/-- Responses staged on the `i`-th socket. -/
def Kernel.staged (k : Kernel) (i : Nat) : Nat := (stagedResponses (k.sockets i).history).length

/-- Responses staged on all sockets. -/
def Kernel.stagedTotal (k : Kernel) : Nat := ∑ i ∈ Finset.range k.accepted, k.staged i

/-- Responses staged on all sockets but the `i`-th. -/
def Kernel.stagedElsewhere (k : Kernel) (i : Nat) : Nat :=
  ∑ j ∈ (Finset.range k.accepted).erase i, k.staged j

theorem Kernel.stagedTotal_eq {k : Kernel} {i : Nat} (hi : i < k.accepted) :
    k.stagedTotal = k.stagedElsewhere i + k.staged i := by
  rw [stagedTotal, stagedElsewhere, Nat.add_comm,
    Finset.add_sum_erase _ _ (Finset.mem_range.mpr hi)]

/-- The connection `c` of descriptor `fd` belongs to the `i`-th socket. -/
structure Bound (env : Platform) (config : WorkerConfig) (store : CampaignStoreSnapshot)
    (w : World) (fd : Fd) (c : ConnectionState) (i : Nat) : Prop where
  fd : c.fd = fd
  connectionId : c.connectionId = UInt64.ofNat (i + 1)
  sync : Sync env config store c (w.kernel.sockets i)

/-- What holds of a worker whenever it waits; its recorder held `base`
requests at the start. -/
structure WorldOk (env : Platform) (config : WorkerConfig) (store : CampaignStoreSnapshot)
    (base : Option Nat) (w : World) : Prop where
  configured : w.runtime.config = config
  stored : w.runtime.campaignStore = store
  nextId : w.runtime.nextConnectionId = UInt64.ofNat (w.kernel.accepted + 1)
  below : ∀ {fd i}, w.kernel.fdTable fd = some i → i < w.kernel.accepted
  injective : ∀ {fd fd' i}, w.kernel.fdTable fd = some i → w.kernel.fdTable fd' = some i → fd = fd'
  nonneg : ∀ {fd i}, w.kernel.fdTable fd = some i → 0 ≤ fd
  entered : ∀ fd, (w.runtime.connections fd).isSome = (w.kernel.fdTable fd).isSome
  bound : ∀ {fd c i}, w.runtime.connections fd = some c → w.kernel.fdTable fd = some i →
    Bound env config store w fd c i
  talk : ∀ i, Conversation env config store (w.kernel.sockets i).history
  settled : ∀ i, Settled (w.kernel.sockets i).history
  unused : ∀ i, w.kernel.accepted ≤ i → (w.kernel.sockets i).history = []
  counted : Recorded w.runtime.benchmarkRecorder base w.kernel.stagedTotal

/-- Every open connection is at rest. -/
def Resting (env : Platform) (config : WorkerConfig) (w : World) : Prop :=
  ∀ fd c i, w.runtime.connections fd = some c → w.kernel.fdTable fd = some i →
    Rest env config c (w.kernel.sockets i)

/-- Every open connection but the one of `fd` is at rest. -/
def RestingBut (env : Platform) (config : WorkerConfig) (fd : Fd) (w : World) : Prop :=
  ∀ fd' c i, fd' ≠ fd → w.runtime.connections fd' = some c → w.kernel.fdTable fd' = some i →
    Rest env config c (w.kernel.sockets i)

/-- The `i`-th socket was accepted and its descriptor closed. -/
def Kernel.isClosed (k : Kernel) (i : Nat) : Prop :=
  i < k.accepted ∧ ∀ fd, k.fdTable fd ≠ some i

/-- No response was on its way on a connection that was closed. -/
def Drained (env : Platform) (w : World) : Prop :=
  ∀ i, w.kernel.isClosed i → outbox env.protobuf (w.kernel.sockets i).history = []

section

variable (env : Platform) (config : WorkerConfig) (store : CampaignStoreSnapshot) (base : Option Nat)

/-- The environment answers without errors and hang-ups. -/
abbrev CleanRely (rely : Answer → Prop) : Prop := ∀ a, rely a → a.Clean

/-- A worker waiting in a call. -/
def WaitOk (rely : Answer → Prop) (k : Call) (w : World) : Prop :=
  WorldOk env config store base w ∧ (CleanRely rely → Drained env w) ∧
    match k with
    | .epollWait | .nextEvent _ | .accept4 => Resting env config w
    | .badDescriptor _ => False
    | _ => True

/-- A worker between two events. -/
def BetweenEvents (rely : Answer → Prop) (w : World) : Prop :=
  WorldOk env config store base w ∧ (CleanRely rely → Drained env w) ∧ Resting env config w

/-- Who the session of the connection of `fd` belongs to. -/
def World.who (w : World) (fd : Fd) (i : Nat) : Who :=
  ⟨fd, UInt64.ofNat (i + 1), base.map (· + w.kernel.stagedElsewhere i)⟩

end

variable {env : Platform} {config : WorkerConfig} {store : CampaignStoreSnapshot}
  {base : Option Nat} {w : World} {rely : Answer → Prop} {fd : Fd} {c : ConnectionState} {i : Nat}

theorem BetweenEvents.wait (h : BetweenEvents env config store base rely w) (events : List EpollEvent) :
    WaitOk env config store base rely (.nextEvent events) w := h

theorem WorldOk.tables (hw : WorldOk env config store base w) : Tables w :=
  ⟨hw.nextId, hw.below, hw.injective, hw.nonneg, hw.entered⟩

/-! ## A session in the world -/

theorem WorldOk.descriptor (hw : WorldOk env config store base w)
    (hc : w.runtime.connections fd = some c) : ∃ i, w.kernel.fdTable fd = some i :=
  hw.tables.descriptor hc

theorem WorldOk.live (hw : WorldOk env config store base w) (hc : w.runtime.connections fd = some c)
    (hi : w.kernel.fdTable fd = some i) :
    ∃ s, getSession fd w = some s ∧ s.connection = c ∧ s.socket = w.kernel.sockets i ∧
      Live env config store (w.who base fd i) s := by
  have hb := hw.bound hc hi
  refine ⟨_, by rw [getSession, hc, hi], rfl, rfl, hb.sync, hb.fd, hb.connectionId, ?_⟩
  refine recorded_add.mpr ?_
  have hcount := hw.counted
  rw [Kernel.stagedTotal_eq (hw.below hi)] at hcount
  exact hcount

section Put

variable {s : Session}

theorem putSession_sockets (hi : w.kernel.fdTable fd = some i) :
    (putSession fd s w).kernel.sockets = Function.update w.kernel.sockets i s.socket := by
  simp only [putSession, hi]

/-- A session that is put back leaves a world in order. -/
theorem WorldOk.put (hw : WorldOk env config store base w) (hc : w.runtime.connections fd = some c)
    (hi : w.kernel.fdTable fd = some i) (hs : Live env config store (w.who base fd i) s)
    (hset : Settled s.socket.history) : WorldOk env config store base (putSession fd s w) := by
  have hsock := putSession_sockets (s := s) hi
  have ht := hw.tables.put (s := s) hi
  refine ⟨hw.configured, hw.stored, ht.nextId, ht.below, ht.injective, ht.nonneg, ht.entered, ?_,
    ?_, ?_, ?_, ?_⟩
  · intro fd' c' i' hc' hi'
    have hc'' : Function.update w.runtime.connections fd (some s.connection) fd' = some c' := hc'
    by_cases hfd : fd' = fd
    · subst hfd
      rw [Function.update_self] at hc''
      cases hc''
      obtain rfl : i = i' := Option.some.inj (hi.symm.trans hi')
      refine ⟨hs.fd, hs.connectionId, ?_⟩
      rw [hsock, Function.update_self]
      exact hs.sync
    · rw [Function.update_of_ne hfd] at hc''
      have hne : i' ≠ i := by
        rintro rfl
        exact hfd (hw.injective hi' hi)
      have hb := hw.bound hc'' hi'
      refine ⟨hb.fd, hb.connectionId, ?_⟩
      rw [hsock, Function.update_of_ne hne]
      exact hb.sync
  · intro j
    rw [hsock]
    by_cases hj : j = i
    · subst hj
      rw [Function.update_self]
      exact hs.sync.talk
    · rw [Function.update_of_ne hj]
      exact hw.talk j
  · intro j
    rw [hsock]
    by_cases hj : j = i
    · subst hj
      rw [Function.update_self]
      exact hset
    · rw [Function.update_of_ne hj]
      exact hw.settled j
  · intro j hj
    have hlt := hw.below hi
    have hj' : w.kernel.accepted ≤ j := hj
    rw [hsock, Function.update_of_ne (by omega)]
    exact hw.unused j hj'
  · rw [@Kernel.stagedTotal_eq (putSession fd s w).kernel _ (hw.below hi)]
    have hself : (putSession fd s w).kernel.staged i = (stagedResponses s.socket.history).length := by
      rw [Kernel.staged, hsock, Function.update_self]
    have hothers : (putSession fd s w).kernel.stagedElsewhere i = w.kernel.stagedElsewhere i := by
      apply Finset.sum_congr rfl
      intro j hj
      rw [Kernel.staged, hsock, Function.update_of_ne (Finset.ne_of_mem_erase hj)]
      rfl
    rw [hself, hothers]
    exact recorded_add.mp hs.counted

theorem Drained.put (hd : Drained env w) (hi : w.kernel.fdTable fd = some i) :
    Drained env (putSession fd s w) := by
  intro j hj
  have hne : j ≠ i := by
    rintro rfl
    exact hj.2 fd hi
  rw [putSession_sockets hi, Function.update_of_ne hne]
  exact hd j hj

theorem RestingBut.put (hw : WorldOk env config store base w) (hr : RestingBut env config fd w)
    (hi : w.kernel.fdTable fd = some i) : RestingBut env config fd (putSession fd s w) := by
  intro fd' c' i' hfd hc' hi'
  have hc'' : Function.update w.runtime.connections fd (some s.connection) fd' = some c' := hc'
  rw [Function.update_of_ne hfd] at hc''
  have hne : i' ≠ i := by
    rintro rfl
    exact hfd (hw.injective hi' hi)
  rw [putSession_sockets hi, Function.update_of_ne hne]
  exact hr fd' c' i' hfd hc'' hi'

/-- With the session at rest, every connection is. -/
theorem RestingBut.resting (hr : RestingBut env config fd (putSession fd s w))
    (hi : w.kernel.fdTable fd = some i) (hs : Rest env config s.connection s.socket) :
    Resting env config (putSession fd s w) := by
  intro fd' c' i' hc' hi'
  by_cases hfd : fd' = fd
  · subst hfd
    have hc'' : Function.update w.runtime.connections fd' (some s.connection) fd' = some c' := hc'
    rw [Function.update_self] at hc''
    cases hc''
    obtain rfl : i = i' := Option.some.inj (hi.symm.trans hi')
    rw [putSession_sockets hi, Function.update_self]
    exact hs
  · exact hr fd' c' i' hfd hc' hi'

end Put

/-! ## Closing -/

theorem Kernel.close_sockets {k : Kernel} (hi : k.fdTable fd = some i) (j : Nat) :
    ((k.close fd).sockets j).history = (k.sockets j).history := by
  simp only [Kernel.close, hi]
  by_cases hj : j = i
  · subst hj
    rw [Function.update_self]
  · rw [Function.update_of_ne hj]

theorem WorldOk.drop (hw : WorldOk env config store base w) (hi : w.kernel.fdTable fd = some i) :
    WorldOk env config store base (w.dropConnection fd) := by
  have hsock := Kernel.close_sockets hi
  have hacc : (w.dropConnection fd).kernel.accepted = w.kernel.accepted := w.kernel.close_accepted
  have ht : Tables (w.dropConnection fd) := hw.tables.drop
  refine ⟨hw.configured, hw.stored, ht.nextId, ht.below, ht.injective, ht.nonneg, ht.entered, ?_,
    ?_, ?_, ?_, ?_⟩
  · intro fd' c' j hc' hj
    obtain ⟨hne, hj'⟩ := World.dropConnection_fdTable hj
    have hc'' : Function.update w.runtime.connections fd none fd' = some c' := hc'
    rw [Function.update_of_ne hne] at hc''
    have hb := hw.bound hc'' hj'
    have hs := hb.sync
    have hh : ((w.dropConnection fd).kernel.sockets j).history = _ := hsock j
    refine ⟨hb.fd, hb.connectionId, ⟨?_, hs.readWf, hs.writeWf, hs.capacity, ?_, ?_⟩⟩
    · rw [hh]
      exact hs.talk
    · rw [hh]
      exact hs.inbox
    · rw [hh]
      exact hs.outbox
  · intro j
    show Conversation _ _ _ ((w.kernel.close fd).sockets j).history
    rw [hsock]
    exact hw.talk j
  · intro j
    show Settled ((w.kernel.close fd).sockets j).history
    rw [hsock]
    exact hw.settled j
  · intro j hj
    show ((w.kernel.close fd).sockets j).history = []
    rw [hsock]
    exact hw.unused j (by rw [← hacc]; exact hj)
  · have htotal : (w.dropConnection fd).kernel.stagedTotal = w.kernel.stagedTotal := by
      rw [Kernel.stagedTotal, Kernel.stagedTotal, hacc]
      refine Finset.sum_congr rfl ?_
      intro j _
      show (stagedResponses ((w.kernel.close fd).sockets j).history).length = _
      rw [hsock]
      rfl
    rw [htotal]
    exact hw.counted

theorem Drained.drop (hd : Drained env w)
    (hi : w.kernel.fdTable fd = some i)
    (hout : outbox env.protobuf (w.kernel.sockets i).history = []) :
    Drained env (w.dropConnection fd) := by
  intro j hj
  show outbox env.protobuf ((w.kernel.close fd).sockets j).history = []
  rw [Kernel.close_sockets hi]
  by_cases hji : j = i
  · rw [hji]
    exact hout
  · refine hd j ⟨?_, ?_⟩
    · rw [← @Kernel.close_accepted fd w.kernel]
      exact hj.1
    · intro fd' hfd'
      apply hj.2 fd'
      show (w.kernel.close fd).fdTable fd' = some j
      rw [Kernel.close_fdTable, if_neg]
      · exact hfd'
      · rintro rfl
        exact hji (Option.some.inj (hfd'.symm.trans hi))

theorem RestingBut.drop (hw : WorldOk env config store base w) (hr : RestingBut env config fd w)
    (hi : w.kernel.fdTable fd = some i) : Resting env config (w.dropConnection fd) := by
  intro fd' c' j hc' hj
  have hj' : (w.kernel.close fd).fdTable fd' = some j := hj
  have hc'' : Function.update w.runtime.connections fd none fd' = some c' := hc'
  by_cases hfd : fd' = fd
  · subst hfd
    rw [Function.update_self] at hc''
    cases hc''
  · rw [Kernel.close_fdTable, if_neg hfd] at hj'
    rw [Function.update_of_ne hfd] at hc''
    have hne : j ≠ i := by
      rintro rfl
      exact hfd (hw.injective hj' hi)
    have hsame : (w.dropConnection fd).kernel.sockets j = w.kernel.sockets j := by
      simp only [World.dropConnection, Kernel.close, hi, Function.update_of_ne hne]
    rw [hsame]
    exact hr fd' c' j hfd hc'' hj'

/-- Closing the connection that was being served. -/
theorem dropDescriptor_ensures (hw : WorldOk env config store base w)
    (hd : CleanRely rely → Drained env w) (hr : RestingBut env config fd w)
    (hi : w.kernel.fdTable fd = some i)
    (hout : CleanRely rely → outbox env.protobuf (w.kernel.sockets i).history = []) :
    (dropDescriptor fd).Ensures rely w (fun _ w' => BetweenEvents env config store base rely w')
      (WaitOk env config store base rely) := by
  refine ensures_zoom (t := w) (by simp [hi]) ?_
  refine ensures_modify ?_
  exact ⟨hw.drop hi, fun hclean => (hd hclean).drop hi (hout hclean), hr.drop hw hi⟩

theorem closeConnection_ensures (hw : WorldOk env config store base w)
    (hd : CleanRely rely → Drained env w) (hr : RestingBut env config fd w)
    (hi : w.kernel.fdTable fd = some i)
    (hout : CleanRely rely → outbox env.protobuf (w.kernel.sockets i).history = []) :
    (closeConnection fd).Ensures rely w (fun _ w' => BetweenEvents env config store base rely w')
      (WaitOk env config store base rely) := by
  have h0 := hw.nonneg hi
  unfold closeConnection
  rw [if_neg (Int.not_lt.mpr h0)]
  exact dropDescriptor_ensures hw hd hr hi hout

/-! ## Accepting -/

section Accept

/-- The sockets that were there keep their history; the new one has none. -/
theorem WorldOk.enter_history (hw : WorldOk env config store base w) (j : Nat) :
    ((w.enter fd).kernel.sockets j).history = (w.kernel.sockets j).history := by
  show ((Function.update w.kernel.sockets w.kernel.accepted {}) j).history = _
  by_cases hj : j = w.kernel.accepted
  · subst hj
    rw [Function.update_self, hw.unused _ (Nat.le_refl _)]
  · rw [Function.update_of_ne hj]

theorem newConnection_sync (w : World) (fd : Fd) {k : Socket} (hk : k.history = [])
    (hconfig : w.runtime.config = config) : Sync env config store (newConnection w fd) k := by
  have hwf := ReusableBuffer.wf_empty
  refine ⟨by rw [hk]; exact .nil, hwf.reserve _, hwf.reserve _, ?_, ?_, ?_⟩
  · show (ReusableBuffer.reserve {} _).storage.length = _
    rw [ReusableBuffer.length_reserve, hconfig]
    exact Nat.max_eq_right (Nat.zero_le _)
  · show (ReusableBuffer.reserve {} _).readable = _
    rw [hwf.readable_reserve, hk]
    rfl
  · show (ReusableBuffer.reserve {} _).readable = _
    rw [hwf.readable_reserve, hk]
    rfl

theorem WorldOk.enter (hw : WorldOk env config store base w) (hfd : w.kernel.fdTable fd = none)
    (h0 : 0 ≤ fd) : WorldOk env config store base (w.enter fd) := by
  have hconn := hw.tables.enter_connections hfd
  have hhist : ∀ j, ((w.enter fd).kernel.sockets j).history = (w.kernel.sockets j).history :=
    hw.enter_history
  have hacc : (w.enter fd).kernel.accepted = w.kernel.accepted + 1 := rfl
  have ht := hw.tables.enter hfd h0
  refine ⟨hw.configured, hw.stored, ht.nextId, ht.below, ht.injective, ht.nonneg, ht.entered, ?_,
    ?_, ?_, ?_, ?_⟩
  · intro fd' c' j hc' hj
    rw [hconn] at hc'
    rw [World.enter_fdTable] at hj
    by_cases hne : fd' = fd
    · subst hne
      rw [Function.update_self] at hc' hj
      cases hc'
      cases hj
      refine ⟨rfl, hw.nextId, newConnection_sync w fd' ?_ hw.configured⟩
      rw [hhist]
      exact hw.unused _ (Nat.le_refl _)
    · rw [Function.update_of_ne hne] at hc' hj
      have hb := hw.bound hc' hj
      have hlt := hw.below hj
      have hsame : (w.enter fd).kernel.sockets j = w.kernel.sockets j :=
        Function.update_of_ne (by omega) _ _
      exact ⟨hb.fd, hb.connectionId, by rw [hsame]; exact hb.sync⟩
  · intro j
    rw [hhist]
    exact hw.talk j
  · intro j
    rw [hhist]
    exact hw.settled j
  · intro j hj
    rw [hhist]
    rw [hacc] at hj
    exact hw.unused j (by omega)
  · have hstaged : ∀ j, (w.enter fd).kernel.staged j = w.kernel.staged j := fun j => by
      rw [Kernel.staged, hhist]
      rfl
    have hnew : w.kernel.staged w.kernel.accepted = 0 := by
      rw [Kernel.staged, hw.unused _ (Nat.le_refl _)]
      rfl
    have htotal : (w.enter fd).kernel.stagedTotal = w.kernel.stagedTotal := by
      rw [Kernel.stagedTotal, Kernel.stagedTotal, hacc, Finset.sum_range_succ, hstaged, hnew,
        Nat.add_zero]
      exact Finset.sum_congr rfl fun j _ => hstaged j
    rw [htotal]
    exact hw.counted

theorem Resting.enter (hw : WorldOk env config store base w) (hr : Resting env config w)
    (hfd : w.kernel.fdTable fd = none) : RestingBut env config fd (w.enter fd) := by
  intro fd' c' j hne hc' hj
  rw [hw.tables.enter_connections hfd, Function.update_of_ne hne] at hc'
  have hj' : Function.update w.kernel.fdTable fd (some w.kernel.accepted) fd' = some j := hj
  rw [Function.update_of_ne hne] at hj'
  have hlt := hw.below hj'
  have hsame : (w.enter fd).kernel.sockets j = w.kernel.sockets j :=
    Function.update_of_ne (by omega) _ _
  rw [hsame]
  exact hr fd' c' j hc' hj'

theorem Drained.enter (hw : WorldOk env config store base w) (hd : Drained env w)
    (hfd : w.kernel.fdTable fd = none) : Drained env (w.enter fd) := by
  intro j hj
  rw [hw.enter_history]
  have htable : ∀ fd', Function.update w.kernel.fdTable fd (some w.kernel.accepted) fd' ≠ some j :=
    hj.2
  have hne : j ≠ w.kernel.accepted := by
    rintro rfl
    exact htable fd (Function.update_self _ _ _)
  have hlt : j < w.kernel.accepted + 1 := hj.1
  refine hd j ⟨by omega, fun fd' hfd' => ?_⟩
  apply htable fd'
  rw [Function.update_of_ne]
  · exact hfd'
  · rintro rfl
    rw [hfd] at hfd'
    cases hfd'

/-- A client without a history that is registered is at rest. -/
theorem rest_of_new {k : Socket} (hk : k.history = []) (hflag : c.hasPendingWrite = false)
    (hint : k.interest = some (EPOLLIN ||| EPOLLRDHUP)) : Rest env config c k where
  interest := by
    rw [hint, hflag]
    decide
  pending := by
    rw [hflag, hk]
    simp [outbox, outbound, stagedResponses]
  idle := by
    intro _
    rw [hk]
    exact ⟨rfl, .inl rfl⟩

theorem acceptRound_ensures (h : BetweenEvents env config store base rely w) :
    (acceptRound ()).Ensures rely w
      (fun _ w' => BetweenEvents env config store base rely w') (WaitOk env config store base rely) := by
  obtain ⟨hw, hd, hr⟩ := h
  refine ensures_bind ?_
  refine ensures_ask ⟨hw, hd, hr⟩ ?_
  intro answer result w' _ hans
  cases answer with
  | accepted outcome =>
      cases outcome with
      | error errno =>
          cases hans
          exact ensures_pure ⟨hw, hd, hr⟩
      | ok fd =>
          simp only at hans
          split at hans
          · rename_i hguard
            obtain ⟨h0, hfd, -⟩ := hguard
            cases hans
            refine ensures_bind ?_
            refine ensures_modify ?_
            show Ensures rely _ (w.enter fd) _ _
            have hw1 := hw.enter hfd h0
            have hr1 := Resting.enter hw hr hfd
            have hd1 : CleanRely rely → Drained env (w.enter fd) := fun hclean =>
              (hd hclean).enter hw hfd
            have hc1 : (w.enter fd).runtime.connections fd = some (newConnection w fd) := by
              rw [hw.tables.enter_connections hfd, Function.update_self]
            have hi1 : (w.enter fd).kernel.fdTable fd = some w.kernel.accepted :=
              Function.update_self _ _ _
            have hnew : ((w.enter fd).kernel.sockets w.kernel.accepted).history = [] := by
              rw [hw.enter_history]
              exact hw.unused _ (Nat.le_refl _)
            obtain ⟨s, hget, hsc, hss, hlive⟩ := hw1.live hc1 hi1
            have hset : Settled s.socket.history := by
              rw [hss, hnew]
              trivial
            refine ensures_bind ?_
            refine ensures_zoom hget ?_
            refine ensures_ask ⟨hw1.put hc1 hi1 hlive hset, fun hclean => (hd1 hclean).put hi1,
              trivial⟩ ?_
            intro answer granted s' _ hans
            cases answer with
            | controlled granted' =>
                cases granted' with
                | true =>
                    cases hans
                    refine ensures_pure ?_
                    refine ⟨hw1.put hc1 hi1 (hlive.setInterest _) hset,
                      fun hclean => (hd1 hclean).put hi1,
                      (RestingBut.put hw1 hr1 hi1).resting hi1 (rest_of_new ?_ ?_ rfl)⟩
                    · show s.socket.history = []
                      rw [hss]
                      exact hnew
                    · show s.connection.hasPendingWrite = false
                      rw [hsc]
                      rfl
                | false =>
                    -- registration failed: the descriptor is closed again
                    cases hans
                    refine ensures_bind ?_
                    have hput := hw1.put hc1 hi1 hlive hset
                    refine Ensures.weaken (dropDescriptor_ensures hput
                      (fun hclean => (hd1 hclean).put hi1) (RestingBut.put hw1 hr1 hi1) hi1 ?_) ?_
                    · intro _
                      rw [putSession_sockets hi1, Function.update_self, hss, hnew]
                      rfl
                    · intro _ w' h'
                      exact ensures_pure h'
            | _ => cases hans
          · cases hans
  | _ => cases hans

end Accept

/-! ## Events -/

/-- Serving a client event in the world. -/
theorem onClient_ensures (hfit : config.FramesFit) (h : BetweenEvents env config store base rely w)
    (hc : w.runtime.connections fd = some c) (mask : UInt32) :
    (do
      let close ← onConnection fd
        (serveClient env w.runtime.config w.runtime.campaignStore mask)
      if close then closeConnection fd else pure () : WorkerM Unit).Ensures rely w
      (fun _ w' => BetweenEvents env config store base rely w') (WaitOk env config store base rely) := by
  obtain ⟨hw, hd, hr⟩ := h
  obtain ⟨i, hi⟩ := hw.descriptor hc
  obtain ⟨s, hget, hsc, hss, hlive⟩ := hw.live hc hi
  have hset : Settled s.socket.history := by
    rw [hss]
    exact hw.settled i
  have hrest : Rest env config s.connection s.socket := by
    rw [hsc, hss]
    exact hr fd c i hc hi
  have hbut : RestingBut env config fd w := fun fd' c' j _ hc' hj => hr fd' c' j hc' hj
  rw [hw.configured, hw.stored]
  refine ensures_bind ?_
  refine ensures_zoom hget ?_
  refine Ensures.mono (serveClient_ensures hfit hlive hset hrest mask) ?_ ?_
  · rintro close s' ⟨⟨hlive', hset'⟩, hkeep, hclose⟩
    have hw' := hw.put hc hi hlive' hset'
    have hd' : CleanRely rely → Drained env (putSession fd s' w) := fun hclean =>
      (hd hclean).put hi
    have hbut' := RestingBut.put (s := s') hw hbut hi
    cases close with
    | false => exact ensures_pure ⟨hw', hd', hbut'.resting hi (hkeep rfl)⟩
    | true =>
        refine closeConnection_ensures hw' hd' hbut' hi ?_
        intro hclean
        rw [putSession_sockets hi, Function.update_self]
        exact hclose rfl hclean
  · rintro k s' ⟨hk, hlive', hset'⟩
    refine ⟨hw.put hc hi hlive' hset', fun hclean => (hd hclean).put hi, ?_⟩
    cases k with
    | epollCtl | read | write => trivial
    | epollWait | nextEvent _ | accept4 | badDescriptor _ => cases hk

/-- A hang-up, which a clean environment does not report. -/
theorem hangUp_ensures (h : BetweenEvents env config store base rely w) {event : EpollEvent}
    (hc : w.runtime.connections event.fd = some c) (hdirty : ¬ CleanRely rely) :
    (hangUp event).Ensures rely w
      (fun _ w' => BetweenEvents env config store base rely w') (WaitOk env config store base rely) := by
  obtain ⟨hw, -, hr⟩ := h
  obtain ⟨i, hi⟩ := hw.descriptor hc
  obtain ⟨s, hget, hsc, hss, hlive⟩ := hw.live hc hi
  have hset : Settled s.socket.history := by
    rw [hss]
    exact hw.settled i
  have hbut : RestingBut env config event.fd w := fun fd' c' j _ hc' hj => hr fd' c' j hc' hj
  have hset' : Settled (s.note (.hungUp event.mask)).socket.history :=
    (settled_snoc _ _).mpr ⟨nofun, nofun⟩
  refine ensures_bind ?_
  refine ensures_zoom hget ?_
  refine ensures_modify ?_
  exact closeConnection_ensures (hw.put hc hi (hlive.note_quiet rfl hset) hset')
    (fun hclean => absurd hclean hdirty) (RestingBut.put hw hbut hi) hi fun hclean => absurd hclean hdirty

/-- **One event** leaves every connection at rest. -/
theorem handleEvent_ensures (hfit : config.FramesFit) (h : BetweenEvents env config store base rely w)
    {event : EpollEvent} (hmask : CleanRely rely → event.mask &&& EPOLLERR = 0 ∧
      event.mask &&& EPOLLHUP = 0 ∧ event.mask &&& EPOLLRDHUP = 0) :
    (handleEvent env event).Ensures rely w
      (fun _ w' => BetweenEvents env config store base rely w') (WaitOk env config store base rely) := by
  refine ensures_bind ?_
  refine ensures_read ?_
  split
  · -- the listening socket
    refine ensures_loop (fun _ w => BetweenEvents env config store base rely w)
      productive_acceptRound ?_ h
    intro _ w h
    refine (acceptRound_ensures h).weaken ?_
    intro r w' h'
    cases r with
    | again _ => exact h'
    | stop _ => exact h'
  · cases hc : w.runtime.connections event.fd with
    | none => exact ensures_pure h
    | some c =>
        simp only
        split
        · rename_i herr
          refine hangUp_ensures h hc fun hclean => ?_
          obtain ⟨h1, h2, h3⟩ := hmask hclean
          rcases herr with herr | herr | herr <;> contradiction
        · exact onClient_ensures hfit h hc event.mask

/-- **One batch**, whether or not the shutdown event ends it. -/
theorem handleBatch_ensures (hfit : config.FramesFit) {events : List EpollEvent}
    (hmask : CleanRely rely → ∀ e ∈ events, e.mask &&& EPOLLERR = 0 ∧ e.mask &&& EPOLLHUP = 0 ∧
      e.mask &&& EPOLLRDHUP = 0)
    (h : BetweenEvents env config store base rely w) :
    (handleBatch env events).Ensures rely w
      (fun _ w' => BetweenEvents env config store base rely w') (WaitOk env config store base rely) := by
  induction events generalizing w with
  | nil => exact ensures_pure h
  | cons event events ih =>
      refine ensures_bind ?_
      refine ensures_ask h ?_
      intro answer u w' _ hans
      cases answer with
      | go =>
          cases hans
          refine ensures_bind ?_
          refine ensures_read ?_
          split
          · exact ensures_pure h
          · refine ensures_bind ?_
            refine (handleEvent_ensures hfit h fun hclean =>
              hmask hclean event List.mem_cons_self).weaken ?_
            intro _ w1 h1
            exact ih (fun hclean e he => hmask hclean e (List.mem_cons_of_mem _ he)) h1
      | _ => cases hans

/-- **The worker loop**: from a world in order, whatever the answers. -/
theorem runWorkerLoop_ensures (hfit : config.FramesFit)
    (h : BetweenEvents env config store base rely w) :
    (runWorkerLoop env).Ensures rely w
      (fun _ w' => BetweenEvents env config store base rely w') (WaitOk env config store base rely) := by
  refine ensures_loop (fun _ w => BetweenEvents env config store base rely w)
    (productive_epollRound env) ?_ h
  intro _ w h
  refine ensures_bind ?_
  refine ensures_ask h ?_
  intro answer result w' hrely hans
  cases answer with
  | events outcome =>
      cases outcome with
      | error errno =>
          cases hans
          exact ensures_pure h
      | ok batch =>
          simp only at hans
          split at hans
          · cases hans
            refine ensures_bind ?_
            refine (handleBatch_ensures hfit (fun hclean => hclean _ hrely) h).weaken ?_
            intro stop w1 h1
            cases stop with
            | true => exact ensures_pure h1
            | false => exact ensures_pure h1
          · cases hans
  | _ => cases hans

/-! ## From the start -/

/-- A worker that has accepted nothing is in order. -/
theorem betweenEvents_boot {epollFd listenFd : Fd} {rng : WorkerRng}
    {recorder : Option BenchmarkRecorder} {clock : Clock} :
    BetweenEvents env config store (recorder.map (·.completedRequests)) rely
      (bootWorld config epollFd listenFd rng recorder store clock) := by
  refine ⟨⟨rfl, rfl, rfl, ?_, ?_, ?_, ?_, ?_, fun _ => .nil, fun _ => trivial, fun _ _ => rfl, ?_⟩,
    ?_, ?_⟩
  · intro _ _ h
    cases h
  · intro _ _ _ h
    cases h
  · intro _ _ h
    cases h
  · intro _
    rfl
  · intro _ _ _ h
    cases h
  · cases recorder <;> rfl
  · intro _ j hj
    exact absurd hj.1 (Nat.not_lt_zero _)
  · intro _ _ _ h
    cases h

/-- A worker that has returned, all answers having met `rely`. -/
theorem betweenEvents_of_run (hfit : config.FramesFit) {epollFd listenFd : Fd} {rng : WorkerRng}
    {recorder : Option BenchmarkRecorder} {clock : Clock} {answers rest : List Answer} {n : Int}
    (hrely : ∀ a ∈ answers, rely a)
    (hrun : (runWorkerLoop env).run (bootWorld config epollFd listenFd rng recorder store clock)
      answers = .done n w rest) :
    BetweenEvents env config store (recorder.map (·.completedRequests)) rely w :=
  (runWorkerLoop_ensures hfit betweenEvents_boot).done hrely hrun

/-- Some run of a worker, from its start, is waiting in `k` with the world `w`. -/
def Reaches (env : Platform) (config : WorkerConfig) (store : CampaignStoreSnapshot) (k : Call)
    (w : World) : Prop :=
  ∃ epollFd listenFd rng recorder clock answers,
    (runWorkerLoop env).run (bootWorld config epollFd listenFd rng recorder store clock)
      answers = .waiting k w

theorem Reaches.waitOk (hfit : config.FramesFit) {k : Call} (h : Reaches env config store k w) :
    ∃ base, WaitOk env config store base (fun _ => True) k w := by
  obtain ⟨epollFd, listenFd, rng, recorder, clock, answers, hrun⟩ := h
  exact ⟨_, (runWorkerLoop_ensures hfit betweenEvents_boot).waiting (fun _ _ => trivial) hrun⟩

end RtbEngine
