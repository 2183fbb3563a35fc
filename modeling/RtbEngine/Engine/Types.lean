import Mathlib.Data.Rat.Defs
import RtbEngine.Lib.Framing

/-!
# Engine types

The records and enumerations of `engine_types.h`, with the constants of
`config.h` and `constants.h`. Strings and string views are byte lists, and
fixed-width integers keep their width. A `double` is the rational it denotes;
the rounding of each operation is an argument of the functions that compute
with one.
-/

namespace RtbEngine

open Lib

/-- The finite values of a `double`. -/
abbrev Double := ℚ

/-- The bytes of an ASCII literal. -/
def ascii (s : String) : Bytes := s.toList.map fun c => UInt8.ofNat c.toNat

def kResponseSafetyMarginNs : UInt64 := 1000000
def kNsPerMs : UInt64 := 1000000
def kMaxOutboundFrameSize : Nat := 64 * 1024

inductive AuctionType where
  | unspecified
  | firstPrice
  | secondPrice
  deriving DecidableEq

inductive DeviceTypeKey where
  | unknown
  | desktop
  | mobile
  | tablet
  | connectedTv
  deriving DecidableEq

@[ext]
structure CountryKey where
  value : UInt16 := 0
  deriving DecidableEq

@[ext]
structure AdSlotKey where
  value : UInt32 := 0
  deriving DecidableEq

inductive NoBidReason where
  | none
  | invalidRequest
  | deadlineExceeded
  | noEligibleCampaign
  | noEligibleCreative
  | filtered
  deriving DecidableEq

inductive RequestProcessingStatus where
  | ok
  | invalid
  | expired
  deriving DecidableEq

structure ParsedMessage where
  requestId : Bytes := []
  tmaxMs : UInt32 := 0
  country : Bytes := []
  deviceType : Bytes := []
  adSlot : Bytes := []
  auctionType : AuctionType := .unspecified
  processingStatus : RequestProcessingStatus := .ok
  deriving DecidableEq

structure RequestContext where
  requestId : Bytes := []
  countryKey : CountryKey := {}
  deviceTypeKey : DeviceTypeKey := .unknown
  adSlotKey : AdSlotKey := {}
  auctionType : AuctionType := .unspecified
  receivedAtNs : UInt64 := 0
  deadlineNs : UInt64 := 0
  processingStatus : RequestProcessingStatus := .ok
  noBidReason : NoBidReason := .none
  deriving DecidableEq

def RequestContext.isEligible (c : RequestContext) : Bool :=
  c.processingStatus = .ok && c.noBidReason = .none

structure CampaignRecord where
  campaignId : UInt64 := 0
  countryKey : CountryKey := {}
  deviceTypeKey : DeviceTypeKey := .unknown
  adSlotKey : AdSlotKey := {}
  valuePerAction : Double := 0
  aggressiveness : Double := 1
  creativeOffset : UInt32 := 0
  creativeCount : UInt32 := 0
  active : Bool := false
  deriving DecidableEq

structure CreativeRecord where
  creativeId : UInt64 := 0
  adSlotKey : AdSlotKey := {}
  deriving DecidableEq

/-- An absent key of an index is `none`: `find` gives `end()`. -/
structure CampaignStoreSnapshot where
  campaigns : List CampaignRecord := []
  creatives : List CreativeRecord := []
  campaignsByCountry : UInt16 → Option (List UInt32) := fun _ => none
  campaignsByAdSlot : UInt32 → Option (List UInt32) := fun _ => none

/-- A null campaign pointer is `none`. -/
structure CampaignView where
  campaign : Option CampaignRecord := none
  creatives : List CreativeRecord := []

def CampaignView.valid (v : CampaignView) : Bool := v.campaign.isSome

structure BidDecision where
  hasBid : Bool := false
  noBidReason : NoBidReason := .none
  campaignId : UInt64 := 0
  creativeId : UInt64 := 0
  modelScore : Double := 0
  bidPrice : Double := 0
  deriving DecidableEq

end RtbEngine
