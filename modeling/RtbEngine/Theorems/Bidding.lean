import RtbEngine.Logic.Decision
import RtbEngine.Theorems.Retrieval

/-!
# How a request ends

`handle_request_ends` — dropped, expired, won or without a campaign: the
message and the store alone decide which.
-/

namespace RtbEngine

open Lib

inductive Ending where
  | dropped
  | expired
  | won
  | noCampaign
  deriving DecidableEq

/-- The ending that the message and the store decide, in this precedence. -/
def endingOf (store : CampaignStoreSnapshot) (message : ParsedMessage) : Ending :=
  if message.Invalid then .dropped
  else if message.tmaxMs.toNat ≤ 1 then .expired
  else if ∃ campaign ∈ store.campaigns, message.TargetedBy campaign then .won
  else .noCampaign

/-- What each ending looks like from outside. -/
def HandleRequestResult.EndsIn (result : HandleRequestResult) (store : CampaignStoreSnapshot)
    (message : ParsedMessage) : Ending → Prop
  | .dropped => result.status = .dropConnection ∧ result.decision.hasBid = false ∧
      result.decision.noBidReason = .invalidRequest
  | .expired => result.status = .responseReady ∧ result.decision.hasBid = false ∧
      result.decision.noBidReason = .deadlineExceeded
  | .won => result.status = .responseReady ∧ result.decision.hasBid = true ∧
      result.decision.noBidReason = .none ∧
      ∃ campaign ∈ store.campaigns, message.TargetedBy campaign ∧
        ∃ creative ∈ campaignCreatives store campaign,
          IsNumeral result.response.campaignId campaign.campaignId.toNat ∧
          IsNumeral result.response.creativeId creative.creativeId.toNat
  | .noCampaign => result.status = .responseReady ∧ result.decision.hasBid = false ∧
      result.decision.noBidReason = .noEligibleCampaign

/-- The reasons tell the endings apart. -/
def Ending.reason : Ending → NoBidReason
  | .dropped => .invalidRequest
  | .expired => .deadlineExceeded
  | .won => .none
  | .noCampaign => .noEligibleCampaign

section

variable {store : CampaignStoreSnapshot} {message : ParsedMessage} {result : HandleRequestResult}
  {ending ending' : Ending}

theorem HandleRequestResult.EndsIn.noBidReason (h : result.EndsIn store message ending) :
    result.decision.noBidReason = ending.reason := by
  cases ending with
  | dropped => exact h.2.2
  | expired => exact h.2.2
  | won => exact h.2.2.1
  | noCampaign => exact h.2.2

theorem HandleRequestResult.EndsIn.unique (h : result.EndsIn store message ending)
    (h' : result.EndsIn store message ending') : ending = ending' := by
  -- two endings of one result have one reason
  have hreason := h.noBidReason.symm.trans h'.noBidReason
  cases ending <;> cases ending' <;> first | rfl | cases hreason

theorem HandleRequestResult.EndsIn.hasBid (h : result.EndsIn store message ending) :
    result.decision.hasBid = true ↔ ending = .won := by
  cases ending with
  | dropped => simp [h.2.1]
  | expired => simp [h.2.1]
  | won => simp [h.2.1]
  | noCampaign => simp [h.2.1]

/-- The ids of an offer, written out. -/
theorem buildBidResponse_of_offers {context : RequestContext} {campaign : CampaignRecord}
    {decision : BidDecision} (h : (viewOf store campaign).Offers decision) :
    decision.hasBid = true ∧ decision.noBidReason = .none ∧
      ∃ creative ∈ campaignCreatives store campaign,
        IsNumeral (buildBidResponse context decision).campaignId campaign.campaignId.toNat ∧
        IsNumeral (buildBidResponse context decision).creativeId creative.creativeId.toNat := by
  obtain ⟨campaign', creative, price, hcampaign, hcreative, rfl⟩ := h
  cases hcampaign
  exact ⟨rfl, rfl, creative, hcreative, isNumeral_toDecimal _, isNumeral_toDecimal _⟩

theorem buildBidResponse_requestId (context : RequestContext) (decision : BidDecision) :
    (buildBidResponse context decision).requestId = context.requestId := by
  unfold buildBidResponse
  split <;> rfl

theorem buildBidResponse_status (context : RequestContext) (decision : BidDecision) :
    (buildBidResponse context decision).status = if decision.hasBid then .bid else .noBid := by
  unfold buildBidResponse toProtoStatus
  split <;> rfl

/-- The decision is kept as a name: unfolded, it would be compared step by
step. -/
theorem resultFor_response (fl : Double → Double) {context : RequestContext} (rng : WorkerRng) :
    (resultFor fl store context rng).response.status =
        (if (resultFor fl store context rng).decision.hasBid then .bid else .noBid) ∧
      (resultFor fl store context rng).response.requestId = context.requestId := by
  unfold resultFor
  generalize (decideFor fl store context rng).1 = decision
  exact ⟨buildBidResponse_status context decision, buildBidResponse_requestId context decision⟩

/-- A request that is not eligible is answered with its reason. -/
theorem resultFor_of_not_eligible (fl : Double → Double) {context : RequestContext}
    (hstatus : context.processingStatus ≠ .ok) (rng : WorkerRng) :
    (resultFor fl store context rng).status =
        (if context.noBidReason = .invalidRequest then .dropConnection else .responseReady) ∧
      (resultFor fl store context rng).decision.hasBid = false ∧
      (resultFor fl store context rng).decision.noBidReason = context.noBidReason := by
  have hel : context.isEligible = false := by simp [RequestContext.isEligible, hstatus]
  unfold resultFor
  rw [decideFor_of_not_eligible fl hel]
  refine ⟨?_, rfl, rfl⟩
  simp [statusOf, hstatus]

/-- An eligible request ends with a campaign that targets it, or without. -/
theorem Loaded.endsIn_of_eligible {rows : List CampaignRow} (h : Loaded rows store)
    (fl : Double → Double) {context : RequestContext} (hstatus : context.processingStatus = .ok)
    (hreason : context.noBidReason = .none)
    (htargets : ∀ campaign, Targets context campaign ↔ message.TargetedBy campaign)
    (rng : WorkerRng) :
    (resultFor fl store context rng).EndsIn store message
      (if ∃ campaign ∈ store.campaigns, message.TargetedBy campaign then .won
        else .noCampaign) := by
  have hel : context.isEligible = true := by simp [RequestContext.isEligible, hstatus, hreason]
  have hready : statusOf context = .responseReady := by simp [statusOf, hstatus]
  by_cases htarget : ∃ campaign ∈ store.campaigns, message.TargetedBy campaign
  · rw [if_pos htarget]
    obtain ⟨target, hmem, htargeted⟩ := htarget
    obtain ⟨campaign, hcampaign, hcampaignTargets, hoffers⟩ := h.decideFor_of_target fl hel
      ⟨target, hmem, (htargets target).mpr htargeted⟩ rng
    obtain ⟨hbid, hnone, hids⟩ := @buildBidResponse_of_offers store context campaign _ hoffers
    exact ⟨hready, hbid, hnone, campaign, hcampaign, (htargets campaign).mp hcampaignTargets, hids⟩
  · rw [if_neg htarget, resultFor, h.decideFor_of_none fl hel]
    · exact ⟨hready, rfl, rfl⟩
    · rintro ⟨campaign, hmem, hcampaign⟩
      exact htarget ⟨campaign, hmem, (htargets campaign).mp hcampaign⟩

/-- Every request ends in the way that `endingOf` says. -/
theorem Loaded.endsIn {rows : List CampaignRow} (h : Loaded rows store)
    (fl : Double → Double) (hok : message.processingStatus = .ok) {receivedAtNs : UInt64}
    (hfits : message.DeadlineFits receivedAtNs) (rng : WorkerRng) :
    (resultFor fl store (requestContext message receivedAtNs) rng).EndsIn store message
      (endingOf store message) := by
  have htargets := fun campaign => @targets_requestContext message receivedAtNs campaign
  have hinvalidContext := @requestContext_invalid message receivedAtNs
  have hexpired := @requestContext_expired message receivedAtNs hfits
  have heligible := fun hvalid => @requestContext_eligible message receivedAtNs hfits hvalid hok
  -- the context is kept as a name: the lemmas above say all that is used of it
  generalize requestContext message receivedAtNs = context
    at htargets hinvalidContext hexpired heligible ⊢
  unfold endingOf
  by_cases hinvalid : message.Invalid
  · obtain ⟨hstatus, hreason⟩ := hinvalidContext hinvalid
    obtain ⟨hdrop, hbid, hwhy⟩ := @resultFor_of_not_eligible store fl context
      (by rw [hstatus]; nofun) rng
    rw [hreason] at hdrop hwhy
    rw [if_pos hinvalid]
    exact ⟨hdrop, hbid, hwhy⟩
  · rw [if_neg hinvalid]
    by_cases htmax : message.tmaxMs.toNat ≤ 1
    · obtain ⟨hstatus, hreason⟩ := hexpired hinvalid htmax
      obtain ⟨hready, hbid, hwhy⟩ := @resultFor_of_not_eligible store fl context
        (by rw [hstatus]; nofun) rng
      rw [hreason] at hready hwhy
      rw [if_pos htmax]
      exact ⟨hready, hbid, hwhy⟩
    · obtain ⟨hstatus, hreason⟩ := heligible hinvalid htmax
      rw [if_neg htmax]
      exact h.endsIn_of_eligible fl hstatus hreason htargets rng

/-- **How a request ends.** Exactly one ending, decided by the message and the
store alone; the response carries the request's id, and is a bid exactly if
the request won. -/
theorem handle_request_ends {extract : Bytes → Option (Double × Bytes)} {input : Option Bytes}
    (hload : loadCampaignStoreSnapshot extract input = some store)
    (hcampaigns : store.campaigns.length < 2 ^ 32) (hcreatives : store.creatives.length < 2 ^ 32)
    (hok : message.processingStatus = .ok) {receivedAtNs : UInt64}
    (hreceived : receivedAtNs.toNat + (2 ^ 32 - 1) * 10 ^ 6 < 2 ^ 64)
    (fl : Double → Double) (rng : WorkerRng) (clock : Clock) :
    let result := (handleRequest fl message receivedAtNs store rng clock).result
    (∀ ending, result.EndsIn store message ending ↔ endingOf store message = ending) ∧
      result.response.requestId = message.requestId ∧
      (result.response.status = .bid ↔ endingOf store message = .won) ∧
      (result.response.status = .noBid ↔ endingOf store message ≠ .won) ∧
      (result.decision.hasBid = true ↔ endingOf store message = .won) := by
  obtain ⟨text, rows, -, -, hloaded⟩ := loaded_of_load hload hcampaigns hcreatives
  have hfits : message.DeadlineFits receivedAtNs := by
    have htmax := message.tmaxMs.toNat_lt
    unfold ParsedMessage.DeadlineFits
    omega
  have hends := hloaded.endsIn fl hok hfits rng
  have hid := (@keysOf_requestContext message receivedAtNs).requestId
  rw [handleRequest_result]
  generalize requestContext message receivedAtNs = context at hends hid ⊢
  obtain ⟨hstatus, hresponse⟩ := @resultFor_response store fl context rng
  rw [hid] at hresponse
  generalize resultFor fl store context rng = result at hends hstatus hresponse ⊢
  have hbid := hends.hasBid
  refine ⟨fun ending => ⟨hends.unique, fun he => he ▸ hends⟩, hresponse, ?_, ?_, hbid⟩
  · rw [hstatus, ← hbid]
    cases result.decision.hasBid <;> decide
  · rw [hstatus, ne_eq, ← hbid]
    cases result.decision.hasBid <;> decide

end

def sampleMessage : ParsedMessage :=
  { requestId := ascii "r"
    tmaxMs := 100
    country := ascii "Us"
    deviceType := ascii "mobile"
    adSlot := ascii "top"
    auctionType := .firstPrice }

/-- The request `sampleMessage` on the wire. -/
def samplePayload : Bytes :=
  [10, 1] ++ ascii "r" ++ [16, 100] ++ [26, 2] ++ ascii "Us" ++ [34, 6] ++ ascii "mobile" ++
    [42, 3] ++ ascii "top" ++ [48, 1]

theorem handle_request_ends_sample :
    endingOf sampleStore sampleMessage = .won ∧
      (let result := (handleRequest id sampleMessage 5 sampleStore {} { reading := fun _ => 0 }).result
      (∀ ending, result.EndsIn sampleStore sampleMessage ending ↔
          endingOf sampleStore sampleMessage = ending) ∧
        result.response.requestId = sampleMessage.requestId ∧
        (result.response.status = .bid ↔ endingOf sampleStore sampleMessage = .won) ∧
        (result.response.status = .noBid ↔ endingOf sampleStore sampleMessage ≠ .won) ∧
        (result.decision.hasBid = true ↔ endingOf sampleStore sampleMessage = .won)) :=
  ⟨by decide +kernel,
    handle_request_ends load_sampleStore (by decide +kernel) (by decide +kernel) rfl (by decide)
      id {} { reading := fun _ => 0 }⟩

end RtbEngine
