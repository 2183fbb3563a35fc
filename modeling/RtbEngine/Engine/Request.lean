import Mathlib.Data.Nat.Digits.Defs
import RtbEngine.Engine.Buffer
import RtbEngine.Engine.Decision
import RtbEngine.Engine.Normalize

/-!
# The request pipeline

`parse.cc`, `response_builder.cc`, `response_framing.cc`, `handle_request.cc`
and the timing records of `benchmark.h`. The messages of `rtb.proto` are
records; the generated parser and serializer are the argument `Protobuf`.
-/

namespace RtbEngine

open Lib

/-! ## Messages -/

/-- `AuctionType` on the wire; proto3 enums are open. -/
inductive ProtoAuctionType where
  | unspecified
  | firstPrice
  | secondPrice
  | other (number : Int)
  deriving DecidableEq

structure BidRequest where
  requestId : Bytes := []
  tmaxMs : UInt32 := 0
  country : Bytes := []
  deviceType : Bytes := []
  adSlot : Bytes := []
  auctionType : ProtoAuctionType := .unspecified
  deriving DecidableEq

inductive BidStatus where
  | unspecified
  | noBid
  | bid
  deriving DecidableEq

structure BidResponse where
  requestId : Bytes := []
  status : BidStatus := .unspecified
  campaignId : Bytes := []
  creativeId : Bytes := []
  price : Double := 0
  deriving DecidableEq

/-- The generated code of the two messages. `parseFromArray` replaces the
previous content of the message it parses into, so it is a function of the
bytes; a `serializeToArray` that succeeds fills `byteSizeLong` bytes. -/
structure Protobuf where
  parseFromArray : Bytes → Option BidRequest
  byteSizeLong : BidResponse → Nat
  serializeToArray : BidResponse → Nat → Option Bytes
  length_serialize : ∀ response size bytes,
    serializeToArray response size = some bytes → bytes.length = byteSizeLong response

/-! ## Parsing -/

inductive ParseStatus where
  | ok
  | malformedProto
  | missingRequestId
  | missingCountry
  | missingDeviceType
  | missingAdSlot
  | invalidAuctionType
  deriving DecidableEq

def kIntMax : Nat := 2147483647

def mapAuctionType : ProtoAuctionType → AuctionType
  | .firstPrice => .firstPrice
  | .secondPrice => .secondPrice
  | _ => .unspecified

def parseBidRequest (pb : Protobuf) (frame : Bytes) : ParseStatus × ParsedMessage :=
  if frame.length > kIntMax then (.malformedProto, {})
  else
    match pb.parseFromArray frame with
    | none => (.malformedProto, {})
    | some request =>
        if request.requestId.isEmpty then (.missingRequestId, {})
        else if request.country.isEmpty then (.missingCountry, {})
        else if request.deviceType.isEmpty then (.missingDeviceType, {})
        else if request.adSlot.isEmpty then (.missingAdSlot, {})
        else
          let auctionType := mapAuctionType request.auctionType
          if auctionType = .unspecified then (.invalidAuctionType, {})
          else
            (.ok,
              { requestId := request.requestId
                tmaxMs := request.tmaxMs
                country := request.country
                deviceType := request.deviceType
                adSlot := request.adSlot
                auctionType := auctionType
                processingStatus := .ok })

/-! ## The response -/

/-- `std::to_string`: decimal, most significant digit first. -/
def toDecimal (n : UInt64) : Bytes :=
  if n = 0 then [48]
  else (Nat.digits 10 n.toNat).reverse.map fun d => UInt8.ofNat (48 + d)

def toProtoStatus (decision : BidDecision) : BidStatus :=
  if decision.hasBid then .bid else .noBid

def buildBidResponse (context : RequestContext) (decision : BidDecision) : BidResponse :=
  let response : BidResponse :=
    { requestId := context.requestId, status := toProtoStatus decision }
  if decision.hasBid then
    { response with
      campaignId := toDecimal decision.campaignId
      creativeId := toDecimal decision.creativeId
      price := decision.bidPrice }
  else response

/-- Overwrite the storage from `offset` on. -/
def storeAt (storage : Bytes) (offset : Nat) (bytes : Bytes) : Bytes :=
  storage.take offset ++ bytes ++ storage.drop (offset + bytes.length)

/-- The result and the buffer afterwards. -/
def stageResponseFrame (pb : Protobuf) (response : BidResponse) (buffer : ReusableBuffer) :
    Bool × ReusableBuffer :=
  let payloadSize := pb.byteSizeLong response
  if payloadSize = 0 ∨ payloadSize > kMaxOutboundFrameSize ∨ payloadSize > kIntMax then
    (false, buffer)
  else if buffer.readableBytes ≠ 0 then (false, buffer)
  else
    let totalFrameSize := 4 + payloadSize
    -- nothing is readable here, so the frame goes to the front of the storage
    let buffer := buffer.reserve totalFrameSize
    if buffer.storage.length < totalFrameSize then (false, buffer)
    else
      let storage := storeAt buffer.storage 0 (Framing.be32 payloadSize)
      match pb.serializeToArray response payloadSize with
      -- the length prefix has been written, but both offsets are 0: no byte of it is readable
      | none => (false, { storage := storage, readOffset := 0, writeOffset := 0 })
      | some bytes =>
          (true,
            { storage := storeAt storage 4 bytes, readOffset := 0, writeOffset := totalFrameSize })

/-! ## Handling -/

/-- The steady clock: its successive readings, and how many were taken. -/
structure Clock where
  reading : Nat → UInt64
  taken : Nat := 0

def Clock.nowNs (clock : Clock) : UInt64 × Clock :=
  (clock.reading clock.taken, { clock with taken := clock.taken + 1 })

structure HandleRequestTimingBreakdown where
  normalizeValidateNs : UInt64 := 0
  retrieveNs : UInt64 := 0
  decideNs : UInt64 := 0
  responseBuildNs : UInt64 := 0
  deriving DecidableEq

def validateRequestContext (context : RequestContext) : RequestContext :=
  if context.countryKey.value = 0 ∨ context.deviceTypeKey = .unknown ∨
      context.adSlotKey.value = 0 ∨ context.auctionType = .unspecified then
    { context with processingStatus := .invalid, noBidReason := .invalidRequest }
  else if context.processingStatus ≠ .ok then
    -- the status stays as it was; only a missing reason is filled in
    if context.noBidReason = .none then { context with noBidReason := .invalidRequest }
    else context
  else context

inductive HandleRequestStatus where
  | responseReady
  | dropConnection
  deriving DecidableEq

structure HandleRequestResult where
  status : HandleRequestStatus := .responseReady
  context : RequestContext := {}
  decision : BidDecision := {}
  response : BidResponse := {}

/-- What a call of `handle_request` leaves behind. The timing is filled in on
every path; a null `timing` drops it. -/
structure Handled where
  result : HandleRequestResult
  rng : WorkerRng
  timing : HandleRequestTimingBreakdown
  clock : Clock

def handleRequest (fl : Double → Double) (parsedMessage : ParsedMessage) (receivedAtNs : UInt64)
    (store : CampaignStoreSnapshot) (rng : WorkerRng) (clock : Clock) : Handled :=
  let normalizeStart := clock.nowNs
  let context := validateRequestContext (buildRequestContext parsedMessage receivedAtNs)
  let normalizeEnd := normalizeStart.2.nowNs
  let normalizeValidateNs := normalizeEnd.1 - normalizeStart.1
  let status : HandleRequestStatus :=
    if context.processingStatus ≠ .ok ∧ context.noBidReason = .invalidRequest then .dropConnection
    else .responseReady
  -- the retrieve and decide phases are skipped: their timings stay 0
  if !context.isEligible then
    let decision : BidDecision := { hasBid := false, noBidReason := context.noBidReason }
    let responseBuildStart := normalizeEnd.2.nowNs
    let response := buildBidResponse context decision
    let responseBuildEnd := responseBuildStart.2.nowNs
    { result := { status, context, decision, response }
      rng
      timing :=
        { normalizeValidateNs, responseBuildNs := responseBuildEnd.1 - responseBuildStart.1 }
      clock := responseBuildEnd.2 }
  else
    let retrieveStart := normalizeEnd.2.nowNs
    let candidates := retrieveCandidates store context
    let retrieveEnd := retrieveStart.2.nowNs
    let decideStart := retrieveEnd.2.nowNs
    let decided := makeBidDecision fl context candidates rng
    let decideEnd := decideStart.2.nowNs
    let responseBuildStart := decideEnd.2.nowNs
    let response := buildBidResponse context decided.1
    let responseBuildEnd := responseBuildStart.2.nowNs
    { result := { status, context, decision := decided.1, response }
      rng := decided.2
      timing :=
        { normalizeValidateNs
          retrieveNs := retrieveEnd.1 - retrieveStart.1
          decideNs := decideEnd.1 - decideStart.1
          responseBuildNs := responseBuildEnd.1 - responseBuildStart.1 }
      clock := responseBuildEnd.2 }

/-! ## The recorder -/

structure RequestTimingBreakdown where
  parseNs : UInt64 := 0
  normalizeValidateNs : UInt64 := 0
  retrieveNs : UInt64 := 0
  decideNs : UInt64 := 0
  responseBuildNs : UInt64 := 0
  responseStageNs : UInt64 := 0
  totalInternalNs : UInt64 := 0
  deriving DecidableEq

structure BenchmarkRecorder where
  requestLimit : UInt64 := 0
  requests : List RequestTimingBreakdown := []
  deriving DecidableEq

namespace BenchmarkRecorder

def recordRequest (r : BenchmarkRecorder) (timing : RequestTimingBreakdown) : BenchmarkRecorder :=
  { r with requests := r.requests ++ [timing] }

def completedRequests (r : BenchmarkRecorder) : Nat := r.requests.length

def requestLimitReached (r : BenchmarkRecorder) : Bool :=
  r.requestLimit ≠ 0 && r.completedRequests ≥ r.requestLimit.toNat

end BenchmarkRecorder

end RtbEngine
