import Mathlib.Algebra.Order.Ring.Rat
import RtbEngine.Engine.Request

/-!
# The SSP: its frames and its latencies

`frame_message`, `recv_exact` and `recv_framed_response` of `ssp_sim.py`. A
socket delivers the bytes it was sent in pieces of its own choosing; what
`ParseFromString` makes of a payload is not looked at. `summarize_latencies`
is the report of the same script.
-/

namespace RtbEngine

open Lib

/-! ## `struct` -/

/-- `struct.pack("!I", n)`; `none` is `struct.error`. -/
def packNetworkU32 (n : Nat) : Option Bytes :=
  if n < 2 ^ 32 then some ([3, 2, 1, 0].map fun i => UInt8.ofNat (n / 256 ^ i)) else none

/-- `struct.unpack("!I", header)` for a header of four bytes. -/
def unpackNetworkU32 (header : Bytes) : Nat := header.foldl (fun n b => n * 256 + b.toNat) 0

def frameMessage (payload : Bytes) : Option Bytes :=
  (packNetworkU32 payload.length).map (· ++ payload)

/-! ## Receiving -/

/-- The receiving end: the bytes on their way, then the end of the stream.
`chunk` chooses how much each `recv` returns. -/
structure SspSocket where
  incoming : Bytes
  chunk : Nat → Nat
  received : Nat := 0

inductive SspError where
  | connectionClosed
  | zeroLength
  deriving DecidableEq

namespace SspSocket

/-- At least one byte and at most `bufsize`, and none only at the end. -/
def recv (sock : SspSocket) (bufsize : Nat) : Bytes × SspSocket :=
  let size := min bufsize (max 1 (sock.chunk sock.received))
  (sock.incoming.take size,
    { sock with incoming := sock.incoming.drop size, received := sock.received + 1 })

/-- The loop of `recv_exact` with `remaining` bytes to go. -/
def recvLoop (sock : SspSocket) (chunks : List Bytes) (remaining : Nat) :
    Except SspError Bytes × SspSocket :=
  if remaining = 0 then (.ok chunks.flatten, sock)
  else
    let (chunk, sock) := sock.recv remaining
    if h : chunk = [] then (.error .connectionClosed, sock)
    else
      have := List.length_pos_of_ne_nil h
      recvLoop sock (chunks ++ [chunk]) (remaining - chunk.length)
termination_by remaining

def recvExact (sock : SspSocket) (byteCount : Nat) : Except SspError Bytes × SspSocket :=
  sock.recvLoop [] byteCount

/-- The payload that `ParseFromString` is given. -/
def recvFramedResponse (sock : SspSocket) : Except SspError Bytes × SspSocket :=
  match sock.recvExact 4 with
  | (.error e, sock) => (.error e, sock)
  | (.ok header, sock) =>
      let payloadLength := unpackNetworkU32 header
      -- no upper bound is checked on this side
      if payloadLength = 0 then (.error .zeroLength, sock)
      else sock.recvExact payloadLength

/-- So many responses, one after another. -/
def recvResponses : Nat → SspSocket → Except SspError (List Bytes) × SspSocket
  | 0, sock => (.ok [], sock)
  | n + 1, sock =>
      match sock.recvFramedResponse with
      | (.error e, sock) => (.error e, sock)
      | (.ok payload, sock) =>
          let (payloads, sock) := recvResponses n sock
          (payloads.map (payload :: ·), sock)

/-! ## What is received -/

/-- As long as the bytes are on their way, the loop gets exactly those it
asked for, whatever the pieces. -/
theorem recvLoop_spec (sock : SspSocket) (chunks : List Bytes) (remaining : Nat)
    (h : remaining ≤ sock.incoming.length) :
    ∃ sock', sock.recvLoop chunks remaining =
        (.ok (chunks.flatten ++ sock.incoming.take remaining), sock') ∧
      sock'.incoming = sock.incoming.drop remaining := by
  induction remaining using Nat.strong_induction_on generalizing sock chunks with
  | _ remaining ih =>
      rw [recvLoop]
      by_cases hzero : remaining = 0
      · subst hzero
        exact ⟨sock, by simp, rfl⟩
      · -- the piece has between one and `remaining` bytes
        rw [if_neg hzero]
        obtain ⟨size, hsize⟩ : ∃ size, size = min remaining (max 1 (sock.chunk sock.received)) :=
          ⟨_, rfl⟩
        have hpos : 1 ≤ size := by omega
        have hle : size ≤ remaining := by omega
        have hlen : (sock.incoming.take size).length = size := by
          rw [List.length_take]
          omega
        have hne : sock.incoming.take size ≠ [] := by
          intro hnil
          rw [hnil] at hlen
          exact absurd hlen (by simp only [List.length_nil]; omega)
        simp only [recv, ← hsize]
        rw [dif_neg hne, hlen]
        obtain ⟨sock', hrun, hleft⟩ := ih (remaining - size) (by omega)
          { sock with incoming := sock.incoming.drop size, received := sock.received + 1 }
          (chunks ++ [sock.incoming.take size]) (by rw [List.length_drop]; omega)
        refine ⟨sock', ?_, ?_⟩
        · have hsplit : sock.incoming.take remaining =
              sock.incoming.take size ++ (sock.incoming.drop size).take (remaining - size) := by
            rw [← List.take_add, Nat.add_sub_cancel' hle]
          rw [hrun, List.flatten_append, List.append_assoc, hsplit]
          simp
        · rw [hleft, List.drop_drop, Nat.add_sub_cancel' hle]

theorem recvExact_append (sock : SspSocket) {bytes rest : Bytes}
    (h : sock.incoming = bytes ++ rest) :
    ∃ sock', sock.recvExact bytes.length = (.ok bytes, sock') ∧ sock'.incoming = rest := by
  obtain ⟨sock', hrun, hleft⟩ := sock.recvLoop_spec [] bytes.length
    (by rw [h, List.length_append]; omega)
  refine ⟨sock', ?_, ?_⟩
  · rw [recvExact, hrun, h, List.take_left]
    rfl
  · rw [hleft, h, List.drop_left]

end SspSocket

/-! ## The prefix -/

theorem packNetworkU32_eq {n : Nat} (h : n < 2 ^ 32) :
    packNetworkU32 n = some (Framing.be32 n) := by
  rw [packNetworkU32, if_pos h]
  simp [Framing.be32]

theorem unpackNetworkU32_be32 {n : Nat} (h : n < 2 ^ 32) :
    unpackNetworkU32 (Framing.be32 n) = n := by
  simp only [unpackNetworkU32, Framing.be32, List.foldl_cons, List.foldl_nil, UInt8.toNat_ofNat']
  omega

theorem frameMessage_eq {payload : Bytes} (h : payload.length < 2 ^ 32) :
    frameMessage payload = some (Framing.frame payload) := by
  rw [frameMessage, packNetworkU32_eq h]
  rfl

namespace SspSocket

/-- One frame is received as its payload, and nothing behind it is touched. -/
theorem recvFramedResponse_frame (sock : SspSocket) {payload rest : Bytes}
    (hpos : 0 < payload.length) (hlt : payload.length < 2 ^ 32)
    (h : sock.incoming = Framing.frame payload ++ rest) :
    ∃ sock', sock.recvFramedResponse = (.ok payload, sock') ∧ sock'.incoming = rest := by
  rw [Framing.frame, List.append_assoc] at h
  obtain ⟨sock1, hheader, h1⟩ := sock.recvExact_append h
  obtain ⟨sock2, hpayload, h2⟩ := sock1.recvExact_append h1
  rw [Framing.be32_length] at hheader
  refine ⟨sock2, ?_, h2⟩
  unfold recvFramedResponse
  rw [hheader]
  simp only [unpackNetworkU32_be32 hlt]
  rw [if_neg (by omega), hpayload]

/-- So are any number of frames. -/
theorem recvResponses_frames (payloads : List Bytes) (sock : SspSocket) {rest : Bytes}
    (hfit : ∀ p ∈ payloads, 0 < p.length ∧ p.length < 2 ^ 32)
    (h : sock.incoming = Framing.frames payloads ++ rest) :
    ∃ sock', sock.recvResponses payloads.length = (.ok payloads, sock') ∧
      sock'.incoming = rest := by
  induction payloads generalizing sock with
  | nil => exact ⟨sock, rfl, h⟩
  | cons payload payloads ih =>
      obtain ⟨hpos, hlt⟩ := hfit payload List.mem_cons_self
      rw [show Framing.frames (payload :: payloads) =
        Framing.frame payload ++ Framing.frames payloads from rfl, List.append_assoc] at h
      obtain ⟨sock1, hfirst, h1⟩ := sock.recvFramedResponse_frame hpos hlt h
      obtain ⟨sock2, hothers, h2⟩ :=
        ih sock1 (fun p hp => hfit p (List.mem_cons_of_mem _ hp)) h1
      refine ⟨sock2, ?_, h2⟩
      rw [List.length_cons, recvResponses, hfirst]
      simp only [hothers]
      rfl

end SspSocket

/-! ## Latencies -/

structure LatencySummary where
  count : Nat := 0
  minNs : Int := 0
  maxNs : Int := 0
  avgNs : Double := 0
  p50Ns : Int := 0
  p95Ns : Int := 0
  p99Ns : Int := 0

/-- `none` is an `IndexError`. -/
def summarizeLatencies (fl : Double → Double) (latenciesNs : List Int) : Option LatencySummary :=
  if latenciesNs.isEmpty then some {}
  else
    let ordered := latenciesNs.mergeSort
    let percentile (percent : Double) : Option Int :=
      ordered[(fl (percent * fl (ordered.length - 1 : Nat))).floor.toNat]?
    do
      let first ← ordered[0]?
      let last ← ordered[ordered.length - 1]?
      let p50 ← percentile (fl (50 / 100))
      let p95 ← percentile (fl (95 / 100))
      let p99 ← percentile (fl (99 / 100))
      return {
        count := ordered.length
        minNs := first
        maxNs := last
        avgNs := fl ((ordered.sum : Int) / ordered.length)
        p50Ns := p50
        p95Ns := p95
        p99Ns := p99 }

end RtbEngine
