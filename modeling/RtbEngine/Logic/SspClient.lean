import RtbEngine.Engine.SspClient

/-!
# The SSP, one request at a time

Wherever a run of the script has got to: no request is begun before all
earlier ones are answered (`Said`), and a script that waits has its next
request partly sent, or sent and its response partly received (`Within`).

* `main_ensures` — both, for the whole script;
* `recvFramedResponse_played` — a socket with its bytes on their way returns
  what the program returns that waits for them.
-/

namespace RtbEngine

open Lib Exec Framing

/-- The requests with the indices from 1 to `n`. -/
def asked (request : Nat → Bytes) (n : Nat) : List Bytes :=
  (List.range n).map fun i => request (i + 1)

section

variable {request : Nat → Bytes}

@[simp] theorem length_asked (n : Nat) : (asked request n).length = n := by
  rw [asked, List.length_map, List.length_range]

theorem asked_succ (n : Nat) : asked request (n + 1) = asked request n ++ [request (n + 1)] := by
  rw [asked, List.range_succ, List.map_append]
  rfl

theorem asked_mono {m n : Nat} (h : m ≤ n) : asked request m <+: asked request n := by
  induction h with
  | refl => exact List.prefix_refl _
  | step _ ih =>
      rw [asked_succ]
      exact ih.trans (List.prefix_append _ _)

theorem frames_asked_succ (n : Nat) :
    frames (asked request (n + 1)) = frames (asked request n) ++ frame (request (n + 1)) := by
  rw [asked_succ, frames_snoc]

/-! ## Socket calls -/

/-- What `sendall` has sent is at the front of the data, and all of it when it
returns. -/
theorem sendall_ensures (c : SspClient) (data : Bytes) :
    (SspClient.sendall data).Ensures (fun _ => True) c
      (fun r c' => ∃ part, part <+: data ∧ c' = { c with sent := c.sent ++ part } ∧
        (r = .ok () → part = data))
      (fun k c' => ∃ part rest, part ++ rest = data ∧ rest ≠ [] ∧ k = .sendall rest ∧
        c' = { c with sent := c.sent ++ part }) := by
  refine ensures_loop
    (fun rest c' => ∃ part, part ++ rest = data ∧ c' = { c with sent := c.sent ++ part }) ?_ ?_
    ⟨[], rfl, by simp⟩
  · intro rest
    refine productive_ite (productive_stop _) ?_
    exact ((consumes_ask _ _).bind _).productive
  · rintro rest _ ⟨part, hdata, rfl⟩
    by_cases hnil : rest = []
    · rw [if_pos hnil]
      rw [hnil, List.append_nil] at hdata
      exact ensures_pure ⟨part, hdata ▸ List.prefix_refl _, rfl, fun _ => hdata⟩
    · rw [if_neg hnil]
      refine ensures_bind (ensures_ask ⟨part, rest, hdata, hnil, rfl, rfl⟩ ?_)
      intro a count c' _ hans
      cases a with
      | sent n =>
          simp only [SspClient.sendAnswer] at hans
          split at hans
          · cases hans
            refine ensures_pure ⟨part ++ rest.take n, ?_, ?_⟩
            · rw [List.append_assoc, List.take_append_drop, hdata]
            · rw [List.append_assoc]
          · cases hans
      | osError =>
          cases hans
          exact ensures_pure ⟨part, ⟨rest, hdata⟩, rfl, nofun⟩
      | chunk bytes => cases hans

theorem productive_recvRound (at' : List Bytes × Nat) : Productive (SspClient.recvRound at') := by
  refine productive_ite (productive_stop _) ?_
  exact ((consumes_ask _ _).bind _).productive

/-- `recv_exact` returns the bytes it received, as many as were asked for. -/
theorem recvExact_ensures (c : SspClient) (byteCount : Nat) :
    (SspClient.recvExact byteCount).Ensures (fun _ => True) c
      (fun r c' => ∃ part, c' = { c with received := c.received ++ part } ∧
        ∀ bytes, r = .ok bytes → part = bytes ∧ bytes.length = byteCount)
      (fun k c' => ∃ part, part.length < byteCount ∧ (∃ bufsize, k = .recv bufsize) ∧
        c' = { c with received := c.received ++ part }) := by
  refine ensures_loop
    (fun at' c' => at'.1.flatten.length + at'.2 = byteCount ∧
      c' = { c with received := c.received ++ at'.1.flatten }) ?_ ?_
    ⟨Nat.zero_add _, by simp⟩
  · exact productive_recvRound
  · rintro ⟨chunks, remaining⟩ _ ⟨hcount, rfl⟩
    unfold SspClient.recvRound
    simp only at hcount ⊢
    by_cases hzero : remaining = 0
    · rw [if_pos hzero]
      refine ensures_pure ⟨chunks.flatten, rfl, ?_⟩
      rintro _ ⟨⟩
      exact ⟨rfl, by omega⟩
    · rw [if_neg hzero]
      refine ensures_bind (ensures_ask ⟨chunks.flatten, by omega, ⟨_, rfl⟩, rfl⟩ ?_)
      intro a chunk c' _ hans
      cases a with
      | chunk bytes =>
          simp only [SspClient.recvAnswer] at hans
          split at hans
          · rename_i hlen
            cases hans
            by_cases hend : bytes = []
            · simp only [hend, if_true]
              exact ensures_pure ⟨chunks.flatten, by simp, nofun⟩
            · simp only [hend, if_false]
              refine ensures_pure ⟨?_, ?_⟩
              · rw [List.flatten_append, List.flatten_singleton, List.length_append]
                omega
              · simp
          · cases hans
      | osError =>
          cases hans
          exact ensures_pure ⟨chunks.flatten, rfl, nofun⟩
      | sent n => cases hans

/-- A header of four bytes is the one that its value is written with. -/
theorem be32_unpackNetworkU32 {header : Bytes} (h : header.length = 4) :
    header = be32 (unpackNetworkU32 header) ∧ unpackNetworkU32 header < 2 ^ 32 := by
  match header with
  | [b0, b1, b2, b3] =>
      have hvalue : readBe32 [b0, b1, b2, b3] = some (unpackNetworkU32 [b0, b1, b2, b3]) := by
        simp only [readBe32, unpackNetworkU32, List.foldl_cons, List.foldl_nil, Option.some.injEq]
        omega
      refine ⟨?_, readBe32_lt hvalue⟩
      have hback := be32_of_readBe32 hvalue
      rwa [show [b0, b1, b2, b3].drop 4 = [] from rfl, List.append_nil] at hback
  | [] | [_] | [_, _] | [_, _, _] => simp at h
  | _ :: _ :: _ :: _ :: _ :: _ => simp at h

/-- A response is received as one frame, and until then there is none. -/
theorem recvFramedResponse_ensures (accepts : Bytes → Bool) (c : SspClient) :
    (SspClient.recvFramedResponse accepts).Ensures (fun _ => True) c
      (fun r c' =>
        match r with
        | .ok payload => 0 < payload.length ∧ payload.length < 2 ^ 32 ∧
            c' = { c with received := c.received ++ frame payload }
        | .error _ => ∃ part, c' = { c with received := c.received ++ part })
      (fun k c' => ∃ part, takeFrame part = none ∧ (∃ bufsize, k = .recv bufsize) ∧
        c' = { c with received := c.received ++ part }) := by
  refine ensures_bind ((recvExact_ensures c 4).mono ?_ ?_)
  · rintro r _ ⟨part, rfl, hok⟩
    cases r with
    | error e => exact ensures_pure ⟨part, rfl⟩
    | ok header =>
        obtain ⟨rfl, hlen⟩ := hok header rfl
        obtain ⟨hheader, hlt⟩ := be32_unpackNetworkU32 hlen
        simp only
        generalize unpackNetworkU32 part = n at hheader hlt ⊢
        by_cases hzero : n = 0
        · rw [if_pos hzero]
          exact ensures_pure ⟨_, rfl⟩
        · rw [if_neg hzero]
          refine ensures_bind ((recvExact_ensures _ n).mono ?_ ?_)
          · rintro r _ ⟨body, rfl, hok⟩
            cases r with
            | error e => exact ensures_pure ⟨part ++ body, by rw [List.append_assoc]⟩
            | ok payload =>
                obtain ⟨rfl, rfl⟩ := hok payload rfl
                simp only
                split
                · refine ensures_pure ⟨Nat.pos_of_ne_zero hzero, hlt, ?_⟩
                  rw [frame, ← hheader, List.append_assoc]
                · exact ensures_pure ⟨part ++ body, by rw [List.append_assoc]⟩
          · rintro k _ ⟨body, hshort, hk, rfl⟩
            refine ⟨part ++ body, ?_, hk, by rw [List.append_assoc]⟩
            rw [hheader]
            exact takeFrame_incomplete hlt hshort
  · rintro k _ ⟨part, hshort, hk, rfl⟩
    exact ⟨part, takeFrame_of_length_lt hshort, hk, rfl⟩

/-! ## Requests one after the other -/

/-- Between two requests, `n` of them are sent and answered. -/
structure Between (request : Nat → Bytes) (n : Nat) (c : SspClient) : Prop where
  sent : c.sent = frames (asked request n)
  received : c.received = frames c.responses
  count : c.responses.length = n
  fit : ∀ p ∈ asked request n, p.length < 2 ^ 32
  sized : ∀ r ∈ c.responses, 0 < r.length ∧ r.length < 2 ^ 32

/-- Wherever the SSP is: no request is begun before all earlier ones are
answered, and the responses are the frames that were received first. -/
structure Said (request : Nat → Bytes) (c : SspClient) : Prop where
  sent : ∃ m, m ≤ c.responses.length + 1 ∧ c.sent <+: frames (asked request m) ∧
    ∀ p ∈ asked request m, p.length < 2 ^ 32
  received : frames c.responses <+: c.received
  sized : ∀ r ∈ c.responses, 0 < r.length ∧ r.length < 2 ^ 32

/-- The SSP waits in `k`, with its next request partly sent, or sent and its
response partly received. -/
def Within (request : Nat → Bytes) (k : SspCall) (c : SspClient) : Prop :=
  ∃ n c0, Between request n c0 ∧ (request (n + 1)).length < 2 ^ 32 ∧
    match k with
    | .sendall rest => ∃ part, part ++ rest = frame (request (n + 1)) ∧ rest ≠ [] ∧
        c = { c0 with sent := c0.sent ++ part }
    | .recv _ => ∃ part, takeFrame part = none ∧
        c = { c0 with
          sent := c0.sent ++ frame (request (n + 1))
          received := c0.received ++ part }

section

variable {n : Nat} {c c0 : SspClient}

theorem between_start : Between request 0 {} := ⟨rfl, rfl, rfl, nofun, nofun⟩

theorem Between.said (h : Between request n c) : Said request c where
  sent := ⟨n, by rw [h.count]; exact Nat.le_succ n, h.sent ▸ List.prefix_refl _, h.fit⟩
  received := h.received ▸ List.prefix_refl _
  sized := h.sized

theorem Between.fit_succ (h : Between request n c) (hfit : (request (n + 1)).length < 2 ^ 32) :
    ∀ p ∈ asked request (n + 1), p.length < 2 ^ 32 := by
  intro p hp
  rw [asked_succ] at hp
  rcases List.mem_append.mp hp with hp | hp
  · exact h.fit p hp
  · rw [List.mem_singleton.mp hp]
    exact hfit

/-- The next request is under way. -/
theorem Between.under_way (h : Between request n c0) (hfit : (request (n + 1)).length < 2 ^ 32)
    {part more : Bytes} (hpart : part <+: frame (request (n + 1)))
    (hsent : c.sent = c0.sent ++ part) (hreceived : c.received = c0.received ++ more)
    (hresponses : c.responses = c0.responses) : Said request c := by
  refine ⟨⟨n + 1, ?_, ?_, h.fit_succ hfit⟩, ?_, ?_⟩
  · rw [hresponses, h.count]
  · rw [hsent, h.sent, frames_asked_succ]
    exact (List.prefix_append_right_inj _).mpr hpart
  · rw [hresponses, hreceived, h.received]
    exact List.prefix_append _ _
  · rw [hresponses]
    exact h.sized

theorem Within.said {k : SspCall} (h : Within request k c) : Said request c := by
  obtain ⟨n, c0, hbetween, hfit, h⟩ := h
  cases k with
  | sendall rest =>
      obtain ⟨part, hpart, -, rfl⟩ := h
      exact hbetween.under_way hfit ⟨rest, hpart⟩ rfl (List.append_nil _).symm rfl
  | recv bufsize =>
      obtain ⟨part, -, rfl⟩ := h
      exact hbetween.under_way hfit (List.prefix_refl _) rfl rfl rfl

/-- **One request and its response.** -/
theorem exchange_ensures (accepts : Bytes → Bool) (h : Between request n c) :
    (SspClient.exchange accepts (request (n + 1))).Ensures (fun _ => True) c
      (fun r c' =>
        match r with
        | .ok () => Between request (n + 1) c'
        | .error _ => Said request c')
      (Within request) := by
  unfold SspClient.exchange
  by_cases hfit : (request (n + 1)).length < 2 ^ 32
  · rw [frameMessage_eq hfit]
    refine ensures_bind ((sendall_ensures c _).mono ?_ ?_)
    · rintro r _ ⟨part, hpart, rfl, hok⟩
      cases r with
      | error e =>
          exact ensures_pure (h.under_way hfit hpart rfl (List.append_nil _).symm rfl)
      | ok u =>
          obtain rfl := hok rfl
          refine ensures_bind ((recvFramedResponse_ensures accepts _).mono ?_ ?_)
          · rintro r c' hr
            cases r with
            | error e =>
                obtain ⟨more, rfl⟩ := hr
                exact ensures_pure (h.under_way hfit hpart rfl rfl rfl)
            | ok response =>
                obtain ⟨hpos, hlt, rfl⟩ := hr
                refine ensures_bind (ensures_modify (ensures_pure ?_))
                refine ⟨?_, ?_, ?_, h.fit_succ hfit, ?_⟩
                · simp only
                  rw [h.sent, frames_asked_succ]
                · simp only
                  rw [h.received, frames_snoc]
                · simp only
                  rw [List.length_append, h.count, List.length_singleton]
                · intro r hr
                  rcases List.mem_append.mp hr with hr | hr
                  · exact h.sized r hr
                  · rw [List.mem_singleton.mp hr]
                    exact ⟨hpos, hlt⟩
          · rintro k _ ⟨part, hnone, ⟨bufsize, rfl⟩, rfl⟩
            exact ⟨n, c, h, hfit, part, hnone, rfl⟩
    · rintro k _ ⟨part, rest, hpart, hrest, rfl, rfl⟩
      exact ⟨n, c, h, hfit, part, hpart, hrest, rfl⟩
  · rw [frameMessage, packNetworkU32, if_neg hfit]
    exact ensures_pure h.said

/-- **So many requests**, by induction on their number. -/
theorem exchanges_ensures (accepts : Bytes → Bool) (m : Nat) (h : Between request n c) :
    (SspClient.exchanges accepts request m (n + 1)).Ensures (fun _ => True) c
      (fun r c' => Said request c' ∧
        ∀ index, r = .ok index → index = n + m + 1 ∧ Between request (n + m) c')
      (Within request) := by
  induction m generalizing n c with
  | zero =>
      refine ensures_pure ⟨h.said, ?_⟩
      rintro _ ⟨⟩
      exact ⟨rfl, h⟩
  | succ m ih =>
      refine ensures_bind ((exchange_ensures accepts h).weaken ?_)
      rintro r c' hr
      cases r with
      | error e => exact ensures_pure ⟨hr, nofun⟩
      | ok u =>
          refine (ih hr).weaken ?_
          rintro r c'' ⟨hsaid, hok⟩
          refine ⟨hsaid, fun index hindex => ?_⟩
          obtain ⟨rfl, hbetween⟩ := hok index hindex
          have hsum : n + 1 + m = n + (m + 1) := by omega
          rw [hsum] at hbetween
          exact ⟨by omega, hbetween⟩

/-- **The whole script.** -/
theorem main_ensures (accepts : Bytes → Bool) (request : Nat → Bytes) (warmup count : Int) :
    (SspClient.main accepts request warmup count).Ensures (fun _ => True) {}
      (fun r c => Said request c ∧
        (r = .ok () → Between request (warmup.toNat + count.toNat) c))
      (Within request) := by
  refine ensures_bind ((exchanges_ensures accepts warmup.toNat between_start).weaken ?_)
  rintro r c ⟨hsaid, hok⟩
  cases r with
  | error e => exact ensures_pure ⟨hsaid, nofun⟩
  | ok index =>
      obtain ⟨rfl, hbetween⟩ := hok index rfl
      rw [Nat.zero_add] at hbetween ⊢
      refine ensures_bind ((exchanges_ensures accepts count.toNat hbetween).weaken ?_)
      rintro r c' ⟨hsaid, hok⟩
      cases r with
      | error e => exact ensures_pure ⟨hsaid, nofun⟩
      | ok index => exact ensures_pure ⟨hsaid, fun _ => (hok index rfl).2⟩

end

/-! ## A socket with its bytes on their way -/

/-- A program gets its result from answers that a socket can give it, by
receiving the bytes that the socket loses. -/
def PlayedBy {α : Type} (m : SspM (Except SspStop α)) (sock : SspSocket)
    (result : Except SspError α × SspSocket) : Prop :=
  ∃ answers part, sock.incoming = part ++ result.2.incoming ∧
    ∀ c : SspClient, m.run c answers =
      .done (result.1.mapError .runtimeError) { c with received := c.received ++ part } []

theorem recvLoop_played (sock : SspSocket) (chunks : List Bytes) (remaining : Nat) :
    PlayedBy (loop SspClient.recvRound (chunks, remaining)) sock
      (sock.recvLoop chunks remaining) := by
  induction remaining using Nat.strong_induction_on generalizing sock chunks with
  | _ remaining ih =>
      rw [SspSocket.recvLoop]
      by_cases hzero : remaining = 0
      · rw [if_pos hzero]
        refine ⟨[], [], rfl, fun c => ?_⟩
        rw [loop_unfold productive_recvRound, SspClient.recvRound, if_pos hzero]
        simp [Outcome.andThen, Except.mapError]
      · rw [if_neg hzero]
        obtain ⟨chunk, sock1, hrecv⟩ : ∃ chunk sock1, sock.recv remaining = (chunk, sock1) :=
          ⟨_, _, rfl⟩
        have hsplit : sock.incoming = chunk ++ sock1.incoming := by
          cases hrecv
          exact (List.take_append_drop _ _).symm
        have hlen : chunk.length ≤ remaining := by
          cases hrecv
          rw [List.length_take]
          omega
        -- the round that gets this chunk
        have hround : ∀ (c : SspClient) (rest : List SspAnswer),
            (SspClient.recvRound (chunks, remaining)).run c (.chunk chunk :: rest) =
              (if chunk = [] then pure (.stop (.error (.runtimeError .connectionClosed)))
                else pure (.again (chunks ++ [chunk], remaining - chunk.length)) :
                SspM (Turn (List Bytes × Nat) (Except SspStop Bytes))).run
                { c with received := c.received ++ chunk } rest := by
          intro c rest
          have hask : (ask (SspCall.recv remaining) (SspClient.recvAnswer remaining)).run c
              (.chunk chunk :: rest) =
                .done (some chunk) { c with received := c.received ++ chunk } rest :=
            run_ask_cons (by simp [SspClient.recvAnswer, hlen]) rest
          rw [SspClient.recvRound, if_neg hzero]
          exact run_bind_done hask
        rw [hrecv]
        simp only
        by_cases hend : chunk = []
        · rw [dif_pos hend]
          refine ⟨[.chunk chunk], chunk, hsplit, fun c => ?_⟩
          rw [loop_unfold productive_recvRound, hround, if_pos hend]
          rfl
        · rw [dif_neg hend]
          have hpos := List.length_pos_of_ne_nil hend
          obtain ⟨answers, part, hpart, hrun⟩ :=
            ih (remaining - chunk.length) (by omega) sock1 (chunks ++ [chunk])
          refine ⟨.chunk chunk :: answers, chunk ++ part, ?_, fun c => ?_⟩
          · rw [hsplit, hpart, List.append_assoc]
          · rw [loop_unfold productive_recvRound, hround, if_neg hend]
            simp only [run_pure, Outcome.andThen, hrun, List.append_assoc]

theorem recvExact_played (sock : SspSocket) (byteCount : Nat) :
    PlayedBy (SspClient.recvExact byteCount) sock (sock.recvExact byteCount) :=
  recvLoop_played sock [] byteCount

section

variable {α : Type} {sock : SspSocket}

theorem playedBy_pure (r : Except SspError α) :
    PlayedBy (pure (r.mapError .runtimeError)) sock (r, sock) :=
  ⟨[], [], rfl, fun c => by simp⟩

theorem PlayedBy.bind {β : Type} {m : SspM (Except SspStop α)}
    {k : Except SspStop α → SspM (Except SspStop β)} {r : Except SspError α × SspSocket}
    {result : Except SspError β × SspSocket} (hm : PlayedBy m sock r)
    (hk : PlayedBy (k (r.1.mapError .runtimeError)) r.2 result) : PlayedBy (m >>= k) sock result := by
  obtain ⟨answers, part, hpart, hrun⟩ := hm
  obtain ⟨more, part', hpart', hrun'⟩ := hk
  refine ⟨answers ++ more, part ++ part', ?_, fun c => ?_⟩
  · rw [hpart, hpart', List.append_assoc]
  · rw [run_bind_done (m.extend _ _ _ _ _ (hrun c) more), List.nil_append, hrun']
    simp only [List.append_assoc]

/-- **The frames are received alike**: what the socket with its bytes on their
way returns is what the program returns that waits for them. -/
theorem recvFramedResponse_played (sock : SspSocket) :
    PlayedBy (SspClient.recvFramedResponse fun _ => true) sock sock.recvFramedResponse := by
  have hheader := recvExact_played sock 4
  unfold SspSocket.recvFramedResponse SspClient.recvFramedResponse
  generalize sock.recvExact 4 = r at hheader ⊢
  obtain ⟨r, sock1⟩ := r
  refine hheader.bind ?_
  cases r with
  | error e => exact playedBy_pure (.error e)
  | ok header =>
      simp only [Except.mapError]
      split
      · exact playedBy_pure (.error .zeroLength)
      · have hpayload := recvExact_played sock1 (unpackNetworkU32 header)
        generalize sock1.recvExact (unpackNetworkU32 header) = r at hpayload ⊢
        obtain ⟨r, sock2⟩ := r
        refine hpayload.bind ?_
        cases r with
        | error e => exact playedBy_pure (.error e)
        | ok payload => exact playedBy_pure (.ok payload)

end

end

end RtbEngine
