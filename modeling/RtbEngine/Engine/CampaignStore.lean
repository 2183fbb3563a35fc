import Mathlib.Data.List.DropRight
import Mathlib.Logic.Function.Basic
import RtbEngine.Engine.Normalize

/-!
# The campaign store

`campaign_store.cc`: the line scanners, the parser of one campaign row, and
the loader. A cursor into a string is the suffix that starts there. Text
read as a `double` goes through an argument that stands for the stream's own
extraction.
-/

namespace RtbEngine

open Lib

def kCsvDelimiter : UInt8 := 44
def kCreativeDelimiter : UInt8 := 124

/-- `find`: what stands before the first `c`, and what follows it. -/
def findDelimiter (c : UInt8) : Bytes → Option (Bytes × Bytes)
  | [] => none
  | b :: bs =>
      if b = c then some ([], bs)
      else (findDelimiter c bs).map fun (before, after) => (b :: before, after)

theorem findDelimiter_length {c : UInt8} {bs before after : Bytes}
    (h : findDelimiter c bs = some (before, after)) : after.length < bs.length := by
  induction bs generalizing before with
  | nil => cases h
  | cons b bs ih =>
      unfold findDelimiter at h
      split at h
      · cases h
        exact Nat.lt_succ_self _
      · cases hf : findDelimiter c bs with
        | none => simp [hf] at h
        | some p =>
            simp only [hf, Option.map_some, Option.some.injEq, Prod.mk.injEq] at h
            have hlt := @ih p.1 (by rw [hf, ← h.2])
            exact Nat.lt_succ_of_lt hlt

/-- Space, tab and carriage return. -/
def isBlank (c : UInt8) : Bool := c = 32 || c = 9 || c = 13

def trimCopy (value : Bytes) : Bytes := (value.dropWhile isBlank).rdropWhile isBlank

def splitCsvLine (line : Bytes) : List Bytes :=
  match _h : findDelimiter kCsvDelimiter line with
  | none => [trimCopy line]
  | some (field, rest) => trimCopy field :: splitCsvLine rest
termination_by line.length
decreasing_by exact findDelimiter_length _h

/-- The digits at the front, as `from_chars` reads them. -/
def isDigit (c : UInt8) : Bool := 48 ≤ c && c ≤ 57

def digitsValue (digits : Bytes) : Nat :=
  digits.foldl (fun v d => 10 * v + (d.toNat - 48)) 0

/-- `from_chars` for 64 bits: the value and where it stopped, unless there is
no digit or the value does not fit. -/
def fromCharsU64 (value : Bytes) : Option (UInt64 × Bytes) :=
  let digits := value.takeWhile isDigit
  if digits.isEmpty then none
  else if digitsValue digits < 2 ^ 64 then
    some (UInt64.ofNat (digitsValue digits), value.dropWhile isDigit)
  else none

def parseU64 (value : Bytes) : Option UInt64 :=
  match fromCharsU64 value with
  | some (out, []) => some out
  | _ => none

/-- `stream >> out`, followed by the test that nothing is left. The stream's
own reading of a number, and what it leaves, is the argument. -/
def parseDoubleValue (extract : Bytes → Option (Double × Bytes)) (value : Bytes) : Option Double :=
  match extract value with
  | some (out, []) => some out
  | _ => none

def parseBoolValue (value : Bytes) : Option Bool :=
  if value = ascii "1" ∨ value = ascii "true" ∨ value = ascii "TRUE" then some true
  else if value = ascii "0" ∨ value = ascii "false" ∨ value = ascii "FALSE" then some false
  else none

/-- One token: an empty one is passed over, a number becomes a creative. -/
def pushCreative (adSlotKey : AdSlotKey) (token : Bytes) (creatives : List CreativeRecord)
    (count : UInt32) : Bool × List CreativeRecord × UInt32 :=
  if token.isEmpty then (true, creatives, count)
  else
    match parseU64 token with
    | none => (false, creatives, count)
    | some creativeId => (true, creatives ++ [{ creativeId, adSlotKey }], count + 1)

/-- The token loop: whether it ran to its end, the creatives and the count. -/
def parseCreativeTokens (adSlotKey : AdSlotKey) (value : Bytes) (creatives : List CreativeRecord)
    (count : UInt32) : Bool × List CreativeRecord × UInt32 :=
  if value.isEmpty then (true, creatives, count)
  else
    match _h : findDelimiter kCreativeDelimiter value with
    | none => pushCreative adSlotKey value creatives count
    | some (token, rest) =>
        match pushCreative adSlotKey token creatives count with
        | (false, creatives, count) => (false, creatives, count)
        | (true, creatives, count) => parseCreativeTokens adSlotKey rest creatives count
termination_by value.length
decreasing_by exact findDelimiter_length _h

/-- The result, the creatives with the new ones appended, the offset of the
new ones and their count. -/
def parseCreativeSpecs (value : Bytes) (adSlotKey : AdSlotKey) (creatives : List CreativeRecord) :
    Bool × List CreativeRecord × UInt32 × UInt32 :=
  let offset := UInt32.ofNat creatives.length
  let (finished, creatives, count) := parseCreativeTokens adSlotKey value creatives 0
  (finished && decide (count > 0), creatives, offset, count)

/-- `index[key].push_back(campaign_index)`. -/
def pushIndex {κ : Type} [DecidableEq κ] (index : κ → Option (List UInt32)) (key : κ)
    (campaignIndex : UInt32) : κ → Option (List UInt32) :=
  Function.update index key (some ((index key).getD [] ++ [campaignIndex]))

def appendCampaignLine (extract : Bytes → Option (Double × Bytes)) (fields : List Bytes)
    (snapshot : CampaignStoreSnapshot) : Bool × CampaignStoreSnapshot :=
  match fields with
  | [f0, f1, f2, f3, f4, f5, f6, f7] =>
      match parseU64 f0, parseDoubleValue extract f4, parseDoubleValue extract f5, parseBoolValue f6 with
      | some campaignId, some valuePerAction, some aggressiveness, some active =>
          let countryKey := normalizeCountryKey f1
          let deviceTypeKey := normalizeDeviceTypeKey f2
          let adSlotKey := normalizeAdSlotKey f3
          if countryKey.value = 0 ∨ deviceTypeKey = .unknown ∨ adSlotKey.value = 0 then
            (false, snapshot)
          else
            match parseCreativeSpecs f7 adSlotKey snapshot.creatives with
            -- the creatives that were read stay in the snapshot
            | (false, creatives, _, _) => (false, { snapshot with creatives })
            | (true, creatives, creativeOffset, creativeCount) =>
                let campaignIndex := UInt32.ofNat snapshot.campaigns.length
                (true,
                  { campaigns := snapshot.campaigns ++
                      [{ campaignId, countryKey, deviceTypeKey, adSlotKey, valuePerAction,
                         aggressiveness, creativeOffset, creativeCount, active }]
                    creatives
                    campaignsByCountry :=
                      pushIndex snapshot.campaignsByCountry countryKey.value campaignIndex
                    campaignsByAdSlot :=
                      pushIndex snapshot.campaignsByAdSlot adSlotKey.value campaignIndex })
      | _, _, _, _ => (false, snapshot)
  | _ => (false, snapshot)

/-- The lines `getline` delivers: a last line without a newline counts, an
empty one after the last newline does not. -/
def getLines (text : Bytes) : List Bytes :=
  if text.isEmpty then []
  else
    match _h : findDelimiter 10 text with
    | none => [text]
    | some (line, rest) => line :: getLines rest
termination_by text.length
decreasing_by exact findDelimiter_length _h

/-- Lines the loop skips: empty ones, comments, and the header on line 1. -/
def isSkipped (lineNumber : Nat) (line : Bytes) : Bool :=
  line.isEmpty || line.head? == some 35 ||
    (lineNumber == 1 && (ascii "campaign_id,").isPrefixOf line)

def loadLines (extract : Bytes → Option (Double × Bytes)) :
    Nat → List Bytes → CampaignStoreSnapshot → Option CampaignStoreSnapshot
  | _, [], snapshot => some snapshot
  | lineNumber, line :: lines, snapshot =>
      if isSkipped (lineNumber + 1) line then loadLines extract (lineNumber + 1) lines snapshot
      else
        match appendCampaignLine extract (splitCsvLine line) snapshot with
        | (true, snapshot) => loadLines extract (lineNumber + 1) lines snapshot
        -- one bad line and the whole load returns a null pointer
        | (false, _) => none

/-- `input` is the file's content, `none` when it cannot be opened; the
result is `none` for a null pointer. -/
def loadCampaignStoreSnapshot (extract : Bytes → Option (Double × Bytes)) (input : Option Bytes) :
    Option CampaignStoreSnapshot :=
  match input with
  | none => none
  | some text => loadLines extract 0 (getLines text) {}

/-- The number of the line that stops the load, for the message about it. -/
def refusedLine (extract : Bytes → Option (Double × Bytes)) :
    Nat → List Bytes → CampaignStoreSnapshot → Option Nat
  | _, [], _ => none
  | lineNumber, line :: lines, snapshot =>
      if isSkipped (lineNumber + 1) line then refusedLine extract (lineNumber + 1) lines snapshot
      else
        match appendCampaignLine extract (splitCsvLine line) snapshot with
        | (true, snapshot) => refusedLine extract (lineNumber + 1) lines snapshot
        | (false, _) => some (lineNumber + 1)

end RtbEngine
