import RtbEngine.Logic.Decision
import RtbEngine.Theorems.Retrieval

/-!
# What a bid matches

A bid is for a row of the file that matches the request on the keys: the
country up to case, the device class, and the slot up to its 32-bit hash.

* `bid_matches_row` — what a bid says about the file;
* `bid_not_exact` — two slots with one hash, and a file whose creatives are
  more than their 32-bit offsets can tell apart.
-/

namespace RtbEngine

open Lib

/-- A text that differs in the case of ASCII letters at most. -/
def SameUpToCase (s t : Bytes) : Prop := s.map toUpperAscii = t.map toUpperAscii

/-- A row for a bid with `decision`, compared by `sameSlot` on the slots. -/
structure RowFor (sameSlot : Bytes → Bytes → Prop) (message : ParsedMessage)
    (decision : BidDecision) (row : CampaignRow) : Prop where
  active : row.active = true
  campaignId : row.campaignId = decision.campaignId
  country : SameUpToCase row.country message.country
  deviceType : normalizeDeviceTypeKey row.deviceType = normalizeDeviceTypeKey message.deviceType
  adSlot : sameSlot row.adSlot message.adSlot

/-- Two texts with one key that is not 0 are two letters each, up to case. -/
theorem sameUpToCase_of_key {s t : Bytes} (hkey : normalizeCountryKey s = normalizeCountryKey t)
    (hne : (normalizeCountryKey s).value ≠ 0) : SameUpToCase s t := by
  have two : ∀ u : Bytes, (normalizeCountryKey u).value ≠ 0 → ∃ a b, u = [a, b] := by
    intro u hu
    unfold normalizeCountryKey at hu
    split at hu
    · rename_i a b
      exact ⟨a, b, rfl⟩
    · exact absurd rfl hu
  obtain ⟨a, b, rfl⟩ := two s hne
  obtain ⟨c, d, rfl⟩ := two t (hkey ▸ hne)
  have hvalue := congrArg CountryKey.value hkey
  obtain ⟨hac, hbd⟩ := packed_inj hvalue
  show [toUpperAscii a, toUpperAscii b] = [toUpperAscii c, toUpperAscii d]
  rw [hac, hbd]

section

variable {store : CampaignStoreSnapshot} {message : ParsedMessage}

/-- The row of a campaign that was offered. -/
theorem RowFor.of_offer {row : CampaignRow} {offset : Nat} {decision : BidDecision}
    (htargets : message.TargetedBy (row.record offset))
    (hoffer : (viewOf store (row.record offset)).Offers decision) :
    RowFor (fun s t => normalizeAdSlotKey s = normalizeAdSlotKey t) message decision row := by
  obtain ⟨hactive, hcountry, hdevice, hslot⟩ := htargets
  obtain ⟨campaign, creative, price, hcampaign, -, rfl⟩ := hoffer
  cases hcampaign
  exact ⟨hactive, rfl, sameUpToCase_of_key hcountry row.countryKnown, hdevice, hslot⟩

/-- **A bid matches a row** of the file on the keys, and its creative is one
that the row lists as long as offsets into the creatives fit 32 bits. -/
theorem bid_matches_row {extract : Bytes → Option (Double × Bytes)} {text : Bytes}
    (hload : loadCampaignStoreSnapshot extract (some text) = some store)
    {fl : Double → Double} {receivedAtNs : UInt64} {rng : WorkerRng} {clock : Clock}
    {decision : BidDecision}
    (hdecision : (handleRequest fl message receivedAtNs store rng clock).result.decision = decision)
    (hbid : decision.hasBid = true) :
    ∃ rows, campaignRows extract text = some rows ∧ ∃ row ∈ rows,
      RowFor (fun s t => normalizeAdSlotKey s = normalizeAdSlotKey t) message decision row ∧
        (store.creatives.length < 2 ^ 32 → decision.creativeId ∈ row.creativeIds) := by
  obtain ⟨_, rows, htext, hrows, hstore⟩ := loadCampaignStoreSnapshot_some hload
  cases htext
  refine ⟨rows, hrows, ?_⟩
  rw [handleRequest_result, resultFor_decision] at hdecision
  subst hdecision
  obtain ⟨campaign, hmem, htargets, hoffer⟩ := offers_of_hasBid fl hbid
  have htargeted := targets_requestContext.mp htargets
  -- the keys match in any case; the creative needs offsets that do not wrap
  by_cases hsmall : store.creatives.length < 2 ^ 32
  · have hcampaigns : store.campaigns.length < 2 ^ 32 := by
      have hle := length_campaigns_le rows
      rw [← hstore] at hle
      omega
    obtain ⟨_, rows', heq, hrows', hloaded⟩ := loaded_of_load hload hcampaigns hsmall
    cases heq
    obtain rfl : rows = rows' := Option.some.inj (hrows.symm.trans hrows')
    obtain ⟨row, hrow, hdescribes⟩ := hloaded.row_of_mem hmem
    obtain ⟨offset, rfl⟩ := hdescribes.record
    refine ⟨row, hrow, .of_offer htargeted hoffer, fun _ => ?_⟩
    obtain ⟨_, creative, _, hcampaign, hcreative, hdecision⟩ := hoffer
    rw [hdecision, ← hdescribes.creativeIds]
    exact List.mem_map_of_mem hcreative
  · rw [hstore] at hmem
    obtain ⟨row, hrow, offset, rfl⟩ := row_of_mem_foldl hmem
    exact ⟨row, hrow, .of_offer htargeted hoffer, fun hlt => absurd hlt hsmall⟩

end

/-! ## Where it is not exact -/

/-- A bid that names a row with the slot of the request. -/
def BidExact (extract : Bytes → Option (Double × Bytes)) (text : Bytes) (message : ParsedMessage)
    (decision : BidDecision) : Prop :=
  ∃ rows, campaignRows extract text = some rows ∧ ∃ row ∈ rows,
    RowFor (· = ·) message decision row ∧ decision.creativeId ∈ row.creativeIds

/-- A request for `adSlot`, and what it gets over the store. -/
def requestFor (adSlot : Bytes) : ParsedMessage :=
  { requestId := ascii "r", tmaxMs := 100, country := ascii "US", deviceType := ascii "mobile"
    adSlot, auctionType := .firstPrice }

def handledOn (store : CampaignStoreSnapshot) (message : ParsedMessage) : Handled :=
  handleRequest id message 5 store {} { reading := fun _ => 0 }

/-- The hash does not tell "costarring" from "liquid". -/
def collidingLines : List (List Bytes) :=
  [["1", "US", "mobile", "costarring", "1.0", "1.0", "1", "7"].map ascii]

def collidingStore : CampaignStoreSnapshot := (rowsOf collidingLines).foldl .addRow {}

theorem campaignRows_colliding :
    campaignRows extractDecimal (csvText collidingLines) = some (rowsOf collidingLines) :=
  campaignRows_rowsOf (by decide +kernel) (by decide +kernel) (by decide +kernel)

theorem load_collidingStore :
    loadCampaignStoreSnapshot extractDecimal (some (csvText collidingLines)) =
      some collidingStore :=
  loadCampaignStoreSnapshot_of_rows campaignRows_colliding (by decide +kernel)

/-- Creative 7, `n` times. -/
def longList (n : Nat) : Bytes := (List.replicate n [55, 124]).flatten

theorem listedCreatives_longList (n : Nat) :
    listedCreatives (longList n) = some (List.replicate n 7) := by
  induction n with
  | zero => rfl
  | succ n ih =>
      have hfind : findDelimiter kCreativeDelimiter (longList (n + 1)) = some ([55], longList n) := rfl
      have hid : parseU64 [55] = some 7 := by decide +kernel
      rw [listedCreatives_of_findDelimiter hfind, ih, hid]
      rfl

theorem csvField_longList (n : Nat) : CsvField (longList (n + 1)) := by
  have hbytes : ∀ b ∈ longList (n + 1), b = 55 ∨ b = 124 := by
    intro b hb
    obtain ⟨pair, hpair, hmem⟩ := List.mem_flatten.mp hb
    rw [List.eq_of_mem_replicate hpair] at hmem
    simpa using hmem
  refine ⟨fun h => ?_, fun h => ?_, ?_⟩
  · rcases hbytes _ h with h | h <;> cases h
  · rcases hbytes _ h with h | h <;> cases h
  · unfold trimCopy
    have hfront : (longList (n + 1)).dropWhile isBlank = longList (n + 1) := rfl
    rw [hfront, List.rdropWhile_eq_self_iff]
    intro hne
    rcases hbytes _ (List.getLast_mem hne) with h | h <;> rw [h] <;> decide

theorem countryKnown_us : (normalizeCountryKey (ascii "US")).value ≠ 0 := by decide

theorem deviceTypeKnown_mobile : normalizeDeviceTypeKey (ascii "mobile") ≠ .unknown := by decide

theorem adSlotKnown_top : (normalizeAdSlotKey (ascii "top")).value ≠ 0 := by decide

theorem adSlotKnown_bottom : (normalizeAdSlotKey (ascii "bottom")).value ≠ 0 := by decide

/-- A row that lists `n + 1` creatives, and a short one behind it. -/
def longRow (n : Nat) : CampaignRow :=
  { campaignId := 1, country := ascii "US", deviceType := ascii "mobile", adSlot := ascii "top"
    valuePerAction := 1, aggressiveness := 1, active := true
    creativeIds := List.replicate (n + 1) 7, countryKnown := countryKnown_us
    deviceTypeKnown := deviceTypeKnown_mobile, adSlotKnown := adSlotKnown_top
    offersCreative := by rw [List.replicate_succ]; exact List.cons_ne_nil _ _ }

def shortRow : CampaignRow :=
  { campaignId := 2, country := ascii "US", deviceType := ascii "mobile", adSlot := ascii "bottom"
    valuePerAction := 1, aggressiveness := 1, active := true, creativeIds := [8]
    countryKnown := countryKnown_us, deviceTypeKnown := deviceTypeKnown_mobile
    adSlotKnown := adSlotKnown_bottom, offersCreative := List.cons_ne_nil _ _ }

def longLines (n : Nat) : List (List Bytes) :=
  [["1", "US", "mobile", "top", "1", "1", "1"].map ascii ++ [longList (n + 1)],
    ["2", "US", "mobile", "bottom", "1", "1", "1", "8"].map ascii]

def longStore (n : Nat) : CampaignStoreSnapshot := [longRow n, shortRow].foldl .addRow {}

theorem campaignRows_long (n : Nat) :
    campaignRows extractDecimal (csvText (longLines n)) = some [longRow n, shortRow] := by
  have hlong : parseRow extractDecimal
      (["1", "US", "mobile", "top", "1", "1", "1"].map ascii ++ [longList (n + 1)]) =
        some (longRow n) :=
    parseRow_of_fields (by decide +kernel) (by decide +kernel) (by decide +kernel)
      (by decide +kernel) (listedCreatives_longList (n + 1)) _ _ _ _
  have hshort : parseRow extractDecimal
      (["2", "US", "mobile", "bottom", "1", "1", "1", "8"].map ascii) = some shortRow :=
    parseRow_of_fields (by decide +kernel) (by decide +kernel) (by decide +kernel)
      (by decide +kernel) (by decide +kernel) _ _ _ _
  apply campaignRows_csvText
  · intro fields hmem
    rcases List.mem_cons.mp hmem with rfl | hmem
    · refine ⟨?_, rfl⟩
      intro f hf
      rcases List.mem_append.mp hf with hf | hf
      · have hall : ∀ f ∈ ["1", "US", "mobile", "top", "1", "1", "1"].map ascii, CsvField f := by
          decide +kernel
        exact hall f hf
      · rw [List.mem_singleton.mp hf]
        exact csvField_longList n
    · rw [List.mem_singleton.mp hmem]
      exact ⟨by decide +kernel, rfl⟩
  · simp only [longLines, List.mapM_cons, List.mapM_nil, hlong, hshort]
    rfl

/-- With 2 ^ 32 + 1 creatives in front, the offset of the short row's creative
comes out as 1. -/
theorem campaignCreatives_long {n : Nat} (hn : UInt32.ofNat (n + 2) = 1) :
    campaignCreatives (longStore (n + 1)) (shortRow.record (longRow (n + 1)).creatives.length) =
      [{ creativeId := 7, adSlotKey := normalizeAdSlotKey (ascii "top") }] := by
  have hoffset : (shortRow.record (longRow (n + 1)).creatives.length).creativeOffset = 1 := by
    show UInt32.ofNat (longRow (n + 1)).creatives.length = 1
    rw [CampaignRow.length_creatives]
    show UInt32.ofNat (List.replicate (n + 2) 7).length = 1
    rw [List.length_replicate, hn]
  unfold campaignCreatives
  rw [hoffset]
  rfl

theorem indexed_longStore (n : Nat) : Indexed (longStore n) :=
  indexed_foldl [longRow n, shortRow] (by show (2 : Nat) < 2 ^ 32; decide)

/-- The creative of the long row is offered as one of the short row's. -/
theorem offers_long {n : Nat} (hn : UInt32.ofNat (n + 2) = 1) {context : RequestContext}
    (hel : context.isEligible = true)
    (hkeys : ∀ campaign, Targets context campaign ↔
      (requestFor (ascii "bottom")).TargetedBy campaign) :
    (decideFor id (longStore (n + 1)) context {}).1.hasBid = true ∧
      (decideFor id (longStore (n + 1)) context {}).1.campaignId = 2 ∧
      (decideFor id (longStore (n + 1)) context {}).1.creativeId = 7 := by
  have hslot : normalizeAdSlotKey (ascii "top") ≠ normalizeAdSlotKey (ascii "bottom") := by decide
  have hcampaigns : (longStore (n + 1)).campaigns =
      [(longRow (n + 1)).record 0, shortRow.record (longRow (n + 1)).creatives.length] := rfl
  have htarget : Targets context (shortRow.record (longRow (n + 1)).creatives.length) :=
    (hkeys _).mpr ⟨rfl, rfl, rfl, rfl⟩
  have hmem : shortRow.record (longRow (n + 1)).creatives.length ∈
      (longStore (n + 1)).campaigns := by
    rw [hcampaigns]
    exact List.mem_cons_of_mem _ List.mem_cons_self
  -- the long row is for another slot, so the short one is the only candidate
  have honly : ∀ campaign ∈ (longStore (n + 1)).campaigns, Targets context campaign →
      campaign = shortRow.record (longRow (n + 1)).creatives.length := by
    rw [hcampaigns]
    intro campaign hcampaign htargets
    rcases List.mem_cons.mp hcampaign with rfl | hlast
    · exact absurd ((hkeys _).mp htargets).2.2.2 hslot
    · exact List.mem_singleton.mp hlast
  have hcreatives := campaignCreatives_long hn
  obtain ⟨campaign, creative, price, hcampaign, hcreative, heq⟩ :=
    (indexed_longStore (n + 1)).decideFor_of_only id hel hmem htarget honly
      (by rw [hcreatives]; exact List.cons_ne_nil _ _) {}
  change creative ∈ campaignCreatives _ _ at hcreative
  rw [hcreatives] at hcreative
  obtain rfl := List.mem_singleton.mp hcreative
  cases hcampaign
  rw [heq]
  exact ⟨rfl, rfl, rfl⟩

theorem handledOn_decision (store : CampaignStoreSnapshot) (message : ParsedMessage) :
    (handledOn store message).result.decision =
      (decideFor id store (requestContext message 5) {}).1 := by
  rw [handledOn, handleRequest_result, resultFor_decision]

/-- A bid for a row that lists another creative. -/
theorem not_exact_long {n : Nat} (hn : UInt32.ofNat (n + 2) = 1) :
    loadCampaignStoreSnapshot extractDecimal (some (csvText (longLines (n + 1)))) =
        some (longStore (n + 1)) ∧
      (handledOn (longStore (n + 1)) (requestFor (ascii "bottom"))).result.decision.hasBid = true ∧
      ¬ BidExact extractDecimal (csvText (longLines (n + 1))) (requestFor (ascii "bottom"))
        (handledOn (longStore (n + 1)) (requestFor (ascii "bottom"))).result.decision := by
  have hrows := campaignRows_long (n + 1)
  have hel : (requestContext (requestFor (ascii "bottom")) 5).isEligible = true := by decide +kernel
  obtain ⟨hbid, hid, hcreative⟩ := offers_long hn hel fun _ => targets_requestContext
  rw [handledOn_decision]
  refine ⟨loadCampaignStoreSnapshot_of_rows hrows ?_, hbid, ?_⟩
  · intro row hrow
    rcases List.mem_cons.mp hrow with rfl | hrow
    · show 0 < UInt32.ofNat (List.replicate (n + 2) 7).length
      rw [List.length_replicate, hn]
      decide
    · rw [List.mem_singleton.mp hrow]
      decide
  · rintro ⟨rows, hrows', row, hrow, hfor, hlists⟩
    obtain rfl := Option.some.inj (hrows.symm.trans hrows')
    have hrowId := hfor.campaignId
    rw [hid] at hrowId
    rw [hcreative] at hlists
    rcases List.mem_cons.mp hrow with rfl | hrow
    · exact absurd hrowId (show (1 : UInt64) ≠ 2 by decide)
    · rw [List.mem_singleton.mp hrow] at hlists
      exact absurd hlists (by decide)

/-- **Not exact.** "costarring" and "liquid" have one hash; and behind more
than 2 ^ 32 creatives the offset of a slice is another one's. -/
theorem bid_not_exact :
    (loadCampaignStoreSnapshot extractDecimal (some (csvText collidingLines)) =
        some collidingStore ∧
      (handledOn collidingStore (requestFor (ascii "liquid"))).result.decision.hasBid = true ∧
      ¬ BidExact extractDecimal (csvText collidingLines) (requestFor (ascii "liquid"))
        (handledOn collidingStore (requestFor (ascii "liquid"))).result.decision) ∧
    ∃ text store, loadCampaignStoreSnapshot extractDecimal (some text) = some store ∧
      (handledOn store (requestFor (ascii "bottom"))).result.decision.hasBid = true ∧
      ¬ BidExact extractDecimal text (requestFor (ascii "bottom"))
        (handledOn store (requestFor (ascii "bottom"))).result.decision := by
  constructor
  · refine ⟨load_collidingStore, by decide +kernel, ?_⟩
    rintro ⟨rows, hrows, row, hrow, hfor, -⟩
    obtain rfl := Option.some.inj (campaignRows_colliding.symm.trans hrows)
    have hother : ∀ row ∈ rowsOf collidingLines, row.adSlot ≠ ascii "liquid" := by decide +kernel
    exact hother row hrow hfor.adSlot
  · exact ⟨_, _, not_exact_long (n := 4294967295) (by decide)⟩

/-- The bid on the colliding slot. -/
theorem bid_matches_row_sample :
    ∃ rows, campaignRows extractDecimal (csvText collidingLines) = some rows ∧ ∃ row ∈ rows,
      RowFor (fun s t => normalizeAdSlotKey s = normalizeAdSlotKey t)
          (requestFor (ascii "liquid"))
          (handledOn collidingStore (requestFor (ascii "liquid"))).result.decision row ∧
        (collidingStore.creatives.length < 2 ^ 32 →
          (handledOn collidingStore (requestFor (ascii "liquid"))).result.decision.creativeId ∈
            row.creativeIds) :=
  bid_matches_row load_collidingStore rfl (by decide +kernel)

end RtbEngine
