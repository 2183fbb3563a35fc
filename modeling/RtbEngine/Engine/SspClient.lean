import RtbEngine.Engine.Ssp
import RtbEngine.Lib.Exec

/-!
# The SSP: its side of the connection

`main` of `ssp_sim.py` from the connection on, as a program that waits in its
socket calls: one request is sent and its response received before the next.
What `build_request` and `SerializeToString` make of a request index is a
parameter, and so is which responses `ParseFromString` accepts. The printing,
the clock and `time.sleep` are left out.
-/

namespace RtbEngine

open Lib Exec

/-! ## Calls -/

inductive SspCall where
  /-- Inside `sendall`, with these bytes to go. -/
  | sendall (rest : Bytes)
  | recv (bufsize : Nat)
  deriving DecidableEq

inductive SspAnswer where
  | sent (count : Nat)
  /-- No bytes are the end of the stream. -/
  | chunk (bytes : Bytes)
  | osError

/-- How `main` can end early: with an exception of `struct` or of protobuf, or
with one of those that it reports. -/
inductive SspStop where
  | structError
  | osError
  | runtimeError (error : SspError)
  | decodeError
  deriving DecidableEq

/-- What went over the socket, and the payloads of the responses. -/
structure SspClient where
  sent : Bytes := []
  received : Bytes := []
  responses : List Bytes := []
  deriving DecidableEq

abbrev SspM (α : Type) : Type := Exec SspCall SspClient SspAnswer α

namespace SspClient

/-- A part of `rest` goes out, or the call fails. -/
def sendAnswer (rest : Bytes) (c : SspClient) : SspAnswer → Option (Option Nat × SspClient)
  | .sent count =>
      if 0 < count ∧ count ≤ rest.length then
        some (some count, { c with sent := c.sent ++ rest.take count })
      else none
  | .osError => some (none, c)
  | .chunk _ => none

def recvAnswer (bufsize : Nat) (c : SspClient) : SspAnswer → Option (Option Bytes × SspClient)
  | .chunk bytes =>
      if bytes.length ≤ bufsize then some (some bytes, { c with received := c.received ++ bytes })
      else none
  | .osError => some (none, c)
  | .sent _ => none

/-- `sock.sendall`: it returns when everything was sent. -/
def sendall (data : Bytes) : SspM (Except SspStop Unit) :=
  loop
    (fun rest =>
      if rest = [] then pure (.stop (.ok ()))
      else do
        match ← ask (.sendall rest) (sendAnswer rest) with
        | none => pure (.stop (.error .osError))
        | some count => pure (.again (rest.drop count)))
    data

/-- One round of `recv_exact`, with the chunks so far and the bytes to go. -/
def recvRound (at' : List Bytes × Nat) : SspM (Turn (List Bytes × Nat) (Except SspStop Bytes)) :=
  if at'.2 = 0 then pure (.stop (.ok at'.1.flatten))
  else do
    match ← ask (.recv at'.2) (recvAnswer at'.2) with
    | none => pure (.stop (.error .osError))
    | some chunk =>
        if chunk = [] then pure (.stop (.error (.runtimeError .connectionClosed)))
        else pure (.again (at'.1 ++ [chunk], at'.2 - chunk.length))

def recvExact (byteCount : Nat) : SspM (Except SspStop Bytes) := loop recvRound ([], byteCount)

/-- The payload that `ParseFromString` takes. -/
def recvFramedResponse (accepts : Bytes → Bool) : SspM (Except SspStop Bytes) := do
  match ← recvExact 4 with
  | .error e => pure (.error e)
  | .ok header =>
      let payloadLength := unpackNetworkU32 header
      if payloadLength = 0 then pure (.error (.runtimeError .zeroLength))
      else
        match ← recvExact payloadLength with
        | .error e => pure (.error e)
        | .ok payload =>
            if accepts payload then pure (.ok payload) else pure (.error .decodeError)

/-- One request and its response. -/
def exchange (accepts : Bytes → Bool) (payload : Bytes) : SspM (Except SspStop Unit) :=
  match frameMessage payload with
  | none => pure (.error .structError)
  | some data => do
      match ← sendall data with
      | .error e => pure (.error e)
      | .ok () =>
          match ← recvFramedResponse accepts with
          | .error e => pure (.error e)
          | .ok response => do
              modify fun c => { c with responses := c.responses ++ [response] }
              pure (.ok ())

/-- `for _ in range(n)`, from a request index on; the index behind. -/
def exchanges (accepts : Bytes → Bool) (request : Nat → Bytes) :
    Nat → Nat → SspM (Except SspStop Nat)
  | 0, requestIndex => pure (.ok requestIndex)
  | n + 1, requestIndex => do
      match ← exchange accepts (request requestIndex) with
      | .error e => pure (.error e)
      | .ok () => exchanges accepts request n (requestIndex + 1)

/-- The body of the `with` of `main`. -/
def main (accepts : Bytes → Bool) (request : Nat → Bytes) (warmup count : Int) :
    SspM (Except SspStop Unit) := do
  match ← exchanges accepts request warmup.toNat 1 with
  | .error e => pure (.error e)
  | .ok requestIndex =>
      match ← exchanges accepts request count.toNat requestIndex with
      | .error e => pure (.error e)
      | .ok _ => pure (.ok ())

end SspClient

end RtbEngine
