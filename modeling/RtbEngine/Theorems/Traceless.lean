import RtbEngine.Lib.Mealy
import RtbEngine.Theorems.Bidding

/-!
# Requests that win nothing leave no trace

The worker's generator is shared by all requests. It is drawn from exactly for
the requests that win, and their times of arrival do not enter a decision.
-/

namespace RtbEngine

open Lib

/-- A request, when it was received, and what the clock shows meanwhile. -/
structure Arrival where
  message : ParsedMessage
  receivedAtNs : UInt64
  clock : Clock

/-- One request after the other, with the generator as the state. -/
def requestMachine (fl : Double → Double) (store : CampaignStoreSnapshot) :
    Mealy WorkerRng Arrival HandleRequestResult where
  output rng arrival :=
    (handleRequest fl arrival.message arrival.receivedAtNs store rng arrival.clock).result
  next rng arrival :=
    (handleRequest fl arrival.message arrival.receivedAtNs store rng arrival.clock).rng

/-- What the client and the worker see of a result. -/
def HandleRequestResult.visible (result : HandleRequestResult) :
    HandleRequestStatus × BidDecision × BidResponse :=
  (result.status, result.decision, result.response)

section

variable (fl : Double → Double) (store : CampaignStoreSnapshot) (rng : WorkerRng)

theorem requestMachine_output (a : Arrival) :
    (requestMachine fl store).output rng a =
      resultFor fl store (requestContext a.message a.receivedAtNs) rng := by
  rw [requestMachine, Mealy.output_mk, handleRequest_result]

theorem requestMachine_next (a : Arrival) :
    (requestMachine fl store).next rng a =
      (decideFor fl store (requestContext a.message a.receivedAtNs) rng).2 := by
  rw [requestMachine, Mealy.next_mk, handleRequest_rng]

/-- One message at two times. -/
theorem requestMachine_alike {a b : Arrival} (hmessage : b.message = a.message)
    (ha : a.message.DeadlineFits a.receivedAtNs) (hb : b.message.DeadlineFits b.receivedAtNs) :
    ((requestMachine fl store).output rng b).visible =
        ((requestMachine fl store).output rng a).visible ∧
      (requestMachine fl store).next rng b = (requestMachine fl store).next rng a := by
  have hsame := requestContext_sameRequest hb (hmessage ▸ ha)
  rw [requestMachine_output, requestMachine_output, requestMachine_next, requestMachine_next,
    ← hmessage]
  generalize requestContext b.message b.receivedAtNs = context at hsame ⊢
  generalize requestContext b.message a.receivedAtNs = context' at hsame ⊢
  obtain ⟨hstatus, hdecision, hresponse, hrng⟩ := hsame.resultFor fl store rng
  refine ⟨?_, hrng⟩
  unfold HandleRequestResult.visible
  rw [hstatus, hdecision, hresponse]

theorem requestMachine_silent {rows : List CampaignRow} {store : CampaignStoreSnapshot}
    (h : Loaded rows store) {a : Arrival}
    (hno : ((requestMachine fl store).output rng a).decision.hasBid = false) :
    (requestMachine fl store).next rng a = rng := by
  rw [requestMachine_output] at hno
  rw [requestMachine_next]
  generalize requestContext a.message a.receivedAtNs = context at hno ⊢
  rw [resultFor_decision] at hno
  exact h.rng_of_no_bid fl hno

end

/-- **No trace.** Leave out requests that got no bid and change the times of
the others: whoever is left gets the same status, decision and response. -/
theorem no_trace {extract : Bytes → Option (Double × Bytes)} {input : Option Bytes}
    {store : CampaignStoreSnapshot} (hload : loadCampaignStoreSnapshot extract input = some store)
    (hcampaigns : store.campaigns.length < 2 ^ 32) (hcreatives : store.creatives.length < 2 ^ 32)
    (fl : Double → Double) (rng : WorkerRng) (edits : List (Arrival × Option Arrival))
    (hmessage : ∀ e ∈ edits, ∀ b ∈ e.2, b.message = e.1.message)
    (hfits : ∀ e ∈ edits, e.1.message.DeadlineFits e.1.receivedAtNs ∧
      ∀ b ∈ e.2, b.message.DeadlineFits b.receivedAtNs)
    (hremoved : ∀ p ∈ ((requestMachine fl store).outputs rng (edits.map Prod.fst)).zip edits,
      p.2.2 = none → p.1.decision.hasBid = false) :
    ((requestMachine fl store).outputs rng (edits.filterMap Prod.snd)).map
        HandleRequestResult.visible =
      Mealy.keptOutputs HandleRequestResult.visible
        ((requestMachine fl store).outputs rng (edits.map Prod.fst)) edits := by
  obtain ⟨text, rows, -, -, hloaded⟩ := loaded_of_load hload hcampaigns hcreatives
  apply Mealy.outputs_edit _ _ (fun result => result.decision.hasBid = false) _ edits _ rng hremoved
  · intro rng a hno
    exact requestMachine_silent fl rng hloaded hno
  · intro e he b hb rng
    exact requestMachine_alike fl store rng (hmessage e he b hb) (hfits e he).1 ((hfits e he).2 b hb)

/-! ## Three requests -/

def arrivalAt (receivedAtNs : UInt64) (message : ParsedMessage) : Arrival :=
  { message, receivedAtNs, clock := { reading := fun _ => 0 } }

/-- The second finds no campaign and is left out; the others come later. -/
def sampleEdits : List (Arrival × Option Arrival) :=
  [(arrivalAt 5 sampleMessage, some (arrivalAt 9 sampleMessage)),
    (arrivalAt 6 { sampleMessage with deviceType := ascii "tablet" }, none),
    (arrivalAt 7 sampleMessage, some (arrivalAt 10 sampleMessage))]

theorem no_trace_sample :
    ((requestMachine id sampleStore).outputs {} (sampleEdits.filterMap Prod.snd)).map
        HandleRequestResult.visible =
      Mealy.keptOutputs HandleRequestResult.visible
        ((requestMachine id sampleStore).outputs {} (sampleEdits.map Prod.fst)) sampleEdits := by
  apply no_trace load_sampleStore (by decide +kernel) (by decide +kernel) id {} sampleEdits
  · decide
  · decide +kernel
  · decide +kernel

end RtbEngine
