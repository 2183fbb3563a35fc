import Mathlib.Algebra.Order.Field.Rat
import Mathlib.Order.WithBot
import RtbEngine.Engine.Types

/-!
# Retrieval and decision

`retrieve.cc`, `decision.cc` and the generator of `runtime_types.h`. `fl`
rounds the result of one operation on doubles; with `fl = id` prices are exact.
-/

namespace RtbEngine

open Lib

/-! ## Retrieval -/

/-- The span of `creative_count` creatives at `creative_offset`. -/
def campaignCreatives (store : CampaignStoreSnapshot) (campaign : CampaignRecord) :
    List CreativeRecord :=
  (store.creatives.drop campaign.creativeOffset.toNat).take campaign.creativeCount.toNat

def matchesRequest (context : RequestContext) (campaign : CampaignRecord) : Bool :=
  if !campaign.active ∨
      campaign.countryKey.value ≠ context.countryKey.value ∨
      campaign.deviceTypeKey ≠ context.deviceTypeKey ∨
      campaign.adSlotKey.value ≠ context.adSlotKey.value then false
  else true

def chooseSeedBucket (store : CampaignStoreSnapshot) (context : RequestContext) :
    Option (List UInt32) :=
  match store.campaignsByCountry context.countryKey.value,
      store.campaignsByAdSlot context.adSlotKey.value with
  | some country, some slot => some (if country.length ≤ slot.length then country else slot)
  | _, _ => none

def retrieveCandidates (store : CampaignStoreSnapshot) (context : RequestContext) :
    List CampaignView :=
  if !context.isEligible then []
  else
    match chooseSeedBucket store context with
    | none => []
    | some seedBucket =>
        seedBucket.filterMap fun campaignIndex =>
          match store.campaigns[campaignIndex.toNat]? with
          | none => none
          | some campaign =>
              if matchesRequest context campaign then
                some { campaign := some campaign, creatives := campaignCreatives store campaign }
              else none

/-! ## The generator -/

structure WorkerRng where
  state : UInt64 := 1
  deriving DecidableEq

namespace WorkerRng

def seed (seedValue : UInt64) : WorkerRng := { state := if seedValue = 0 then 1 else seedValue }

def nextU64 (rng : WorkerRng) : UInt64 × WorkerRng :=
  let value := rng.state
  let value := value ^^^ (value <<< 13)
  let value := value ^^^ (value >>> 7)
  let value := value ^^^ (value <<< 17)
  let state := if value = 0 then 1 else value
  (state, { state })

/-- The shifted draw and its product with `2 ^ -53` are both exact. -/
def nextUnitDouble (rng : WorkerRng) : Double × WorkerRng :=
  let (draw, rng) := rng.nextU64
  (((draw >>> 11).toNat : Double) * (1 / 2 ^ 53), rng)

def uniformIndex (rng : WorkerRng) (upperBound : Nat) : Nat × WorkerRng :=
  if upperBound = 0 then (0, rng)
  else
    let (draw, rng) := rng.nextU64
    (draw.toNat % upperBound, rng)

end WorkerRng

/-! ## Decision -/

def kMinBidPrice (fl : Double → Double) : Double := fl (5 / 100)
def kMaxBidPrice (fl : Double → Double) : Double := fl 5

def chooseRandomCreative (creatives : List CreativeRecord) (rng : WorkerRng) :
    Option CreativeRecord × WorkerRng :=
  if creatives.isEmpty then (none, rng)
  else
    let (index, rng) := rng.uniformIndex creatives.length
    (creatives[index]?, rng)

def generateBidPrice (fl : Double → Double) (rng : WorkerRng) : Double × WorkerRng :=
  let (unit, rng) := rng.nextUnitDouble
  (fl (kMinBidPrice fl + fl (unit * fl (kMaxBidPrice fl - kMinBidPrice fl))), rng)

/-- The loop over the candidates; `⊥` is minus infinity. -/
def decideLoop (fl : Double → Double) :
    List CampaignView → BidDecision → WithBot Double → WorkerRng → BidDecision × WorkerRng
  | [], bestDecision, _, rng => (bestDecision, rng)
  | candidate :: candidates, bestDecision, bestBidPrice, rng =>
      match candidate.campaign with
      -- neither a null campaign nor an empty list of creatives draws from the generator
      | none => decideLoop fl candidates bestDecision bestBidPrice rng
      | some campaign =>
          match chooseRandomCreative candidate.creatives rng with
          | (none, rng) => decideLoop fl candidates bestDecision bestBidPrice rng
          | (some creative, rng) =>
              let (bidPrice, rng) := generateBidPrice fl rng
              -- a tie keeps the earlier candidate
              if (bidPrice : WithBot Double) ≤ bestBidPrice then
                decideLoop fl candidates bestDecision bestBidPrice rng
              else
                decideLoop fl candidates
                  { hasBid := true
                    noBidReason := .none
                    campaignId := campaign.campaignId
                    creativeId := creative.creativeId
                    modelScore := 0
                    bidPrice := bidPrice }
                  bidPrice rng

def makeBidDecision (fl : Double → Double) (context : RequestContext)
    (candidates : List CampaignView) (rng : WorkerRng) : BidDecision × WorkerRng :=
  if !context.isEligible then
    ({ hasBid := false, noBidReason := context.noBidReason }, rng)
  else if candidates.isEmpty then
    ({ hasBid := false, noBidReason := .noEligibleCampaign }, rng)
  else
    decideLoop fl candidates { hasBid := false, noBidReason := .noEligibleCampaign } ⊥ rng

end RtbEngine
