import RtbEngine.Logic.Store

/-!
# The store and its retrieval

* `load_consistent` — indexes, pool and campaigns of a loaded store agree;
* `retrieve_candidates_exact` — one bucket gives what a scan of the file gives.
-/

namespace RtbEngine

open Lib

/-! ## A file -/

/-- A decimal number at the front, as the stream reads it. -/
def extractDecimal (value : Bytes) : Option (Double × Bytes) :=
  let whole := value.takeWhile isDigit
  if whole.isEmpty then none
  else
    match value.dropWhile isDigit with
    | 46 :: rest =>
        let digits := rest.takeWhile isDigit
        some (digitsValue whole + digitsValue digits / 10 ^ digits.length, rest.dropWhile isDigit)
    | rest => some (digitsValue whole, rest)

def sampleLines : List (List Bytes) :=
  [["1", "US", "mobile", "top", "2.5", "1.0", "1", "7|8"].map ascii,
    ["2", "us", "mobile", "side", "1.0", "1.0", "1", "9"].map ascii,
    ["3", "DE", "mobile", "top", "1.0", "1.0", "0", "10||11|"].map ascii]

/-- The rows that lines of fields read as. -/
def rowsOf (lines : List (List Bytes)) : List CampaignRow :=
  (lines.mapM (parseRow extractDecimal)).getD []

theorem campaignRows_rowsOf {lines : List (List Bytes)}
    (hreads : ∀ fields ∈ lines, ∀ field ∈ fields, CsvField field)
    (hstarts : ∀ fields ∈ lines, (csvLine fields).head?.any isDigit = true)
    (hsome : (lines.mapM (parseRow extractDecimal)).isSome = true) :
    campaignRows extractDecimal (csvText lines) = some (rowsOf lines) := by
  have hrows : lines.mapM (parseRow extractDecimal) = some (rowsOf lines) :=
    (Option.some_get hsome).symm.trans (congrArg some (Option.get_eq_getD _))
  exact campaignRows_csvText (fun fields hmem => ⟨hreads fields hmem, hstarts fields hmem⟩) hrows

def sampleRows : List CampaignRow := rowsOf sampleLines

def sampleStore : CampaignStoreSnapshot := sampleRows.foldl .addRow {}

theorem load_sampleStore :
    loadCampaignStoreSnapshot extractDecimal (some (csvText sampleLines)) = some sampleStore :=
  loadCampaignStoreSnapshot_of_rows
    (campaignRows_rowsOf (by decide +kernel) (by decide +kernel) (by decide +kernel))
    (by decide +kernel)

/-! ## The containers agree -/

/-- The bucket of a key, as positions; a key that is absent has an empty one. -/
def bucketOf {κ : Type} (index : κ → Option (List UInt32)) (k : κ) : List Nat :=
  ((index k).getD []).map UInt32.toNat

/-- Each bucket lists the campaigns with its key, in file order and once. -/
structure FilesExactly {κ : Type} (key : CampaignRecord → κ) (index : κ → Option (List UInt32))
    (campaigns : List CampaignRecord) : Prop where
  ascending : ∀ k, (bucketOf index k).Pairwise (· < ·)
  members : ∀ k i, i ∈ bucketOf index k ↔
    ∃ campaign, campaigns[i]? = some campaign ∧ key campaign = k

/-- What retrieval relies on. -/
structure StoreConsistent (store : CampaignStoreSnapshot) : Prop where
  byCountry : FilesExactly (fun c => c.countryKey.value) store.campaignsByCountry store.campaigns
  byAdSlot : FilesExactly (fun c => c.adSlotKey.value) store.campaignsByAdSlot store.campaigns
  adjacent : Tiles 0 (store.campaigns.map CampaignRecord.slice) store.creatives.length
  oneOwner : ∀ i < store.creatives.length, ∃! j : Nat, ∃ campaign,
    store.campaigns[j]? = some campaign ∧ InSlice campaign.slice i
  ownerKey : ∀ campaign ∈ store.campaigns, ∀ i creative, InSlice campaign.slice i →
    store.creatives[i]? = some creative → creative.adSlotKey = campaign.adSlotKey
  validKeys : ∀ campaign ∈ store.campaigns, campaign.countryKey.value ≠ 0 ∧
    campaign.adSlotKey.value ≠ 0 ∧ campaign.deviceTypeKey ≠ .unknown

theorem filesExactly_of_indexes {κ : Type} [DecidableEq κ] {key : CampaignRecord → κ}
    {index : κ → Option (List UInt32)} {campaigns : List CampaignRecord}
    (h : Indexes key UInt32.toNat index campaigns) : FilesExactly key index campaigns where
  ascending k := by
    rw [bucketOf, h.getD]
    exact positions_ascending
  members k i := by
    rw [bucketOf, h.getD]
    exact mem_positions

section

variable {extract : Bytes → Option (Double × Bytes)} {input : Option Bytes}
  {store : CampaignStoreSnapshot}

/-- **The loaded store is consistent**, whatever file it came from. -/
theorem load_consistent (hload : loadCampaignStoreSnapshot extract input = some store)
    (hcampaigns : store.campaigns.length < 2 ^ 32) (hcreatives : store.creatives.length < 2 ^ 32) :
    StoreConsistent store := by
  obtain ⟨text, rows, -, -, hloaded⟩ := loaded_of_load hload hcampaigns hcreatives
  refine ⟨filesExactly_of_indexes hloaded.byCountry, filesExactly_of_indexes hloaded.byAdSlot,
    hloaded.slices, ?_, ?_, ?_⟩
  · intro i hi
    -- the slices partition the pool, and each is one campaign's
    obtain ⟨j, ⟨slice, hslice, hin⟩, hunique⟩ := hloaded.slices.existsUnique (Nat.zero_le i) hi
    rw [List.getElem?_map, Option.map_eq_some_iff] at hslice
    obtain ⟨campaign, hcampaign, rfl⟩ := hslice
    refine ⟨j, ⟨campaign, hcampaign, hin⟩, ?_⟩
    rintro j' ⟨campaign', hcampaign', hin'⟩
    refine hunique j' ⟨campaign'.slice, ?_, hin'⟩
    rw [List.getElem?_map, hcampaign']
    rfl
  · intro campaign hmem i creative hin hcreative
    obtain ⟨row, -, hrow⟩ := hloaded.row_of_mem hmem
    exact hrow.adSlotKey (mem_campaignCreatives hin hcreative)
  · intro campaign hmem
    obtain ⟨row, -, hrow⟩ := hloaded.row_of_mem hmem
    obtain ⟨offset, rfl⟩ := hrow.record
    exact ⟨row.countryKnown, row.adSlotKnown, row.deviceTypeKnown⟩

theorem load_consistent_sample : StoreConsistent sampleStore :=
  load_consistent load_sampleStore (by decide +kernel) (by decide +kernel)

/-! ## Retrieval -/

/-- **Retrieval is exact**: the campaigns are the file's rows in order, each
with the ids its row lists, and the candidates are those that target the
request. -/
theorem retrieve_candidates_exact (hload : loadCampaignStoreSnapshot extract input = some store)
    (hcampaigns : store.campaigns.length < 2 ^ 32) (hcreatives : store.creatives.length < 2 ^ 32)
    {context : RequestContext} (hel : context.isEligible = true) :
    ∃ text rows, input = some text ∧ campaignRows extract text = some rows ∧
      List.Forall₂ (fun row campaign => (∃ offset, campaign = row.record offset) ∧
        (campaignCreatives store campaign).map (·.creativeId) = row.creativeIds)
        rows store.campaigns ∧
      retrieveCandidates store context =
        (store.campaigns.filter fun campaign => Targets context campaign).map fun campaign =>
          { campaign := some campaign, creatives := campaignCreatives store campaign } := by
  obtain ⟨text, rows, hinput, hrows, hloaded⟩ := loaded_of_load hload hcampaigns hcreatives
  refine ⟨text, rows, hinput, hrows, ?_, hloaded.indexed.retrieve hel⟩
  exact hloaded.described.imp fun _ _ hrow => ⟨hrow.record, hrow.creativeIds⟩

end

def sampleContext : RequestContext :=
  { requestId := ascii "r"
    countryKey := normalizeCountryKey (ascii "us")
    deviceTypeKey := .mobile
    adSlotKey := normalizeAdSlotKey (ascii "top")
    auctionType := .firstPrice
    deadlineNs := 1 }

theorem retrieve_candidates_exact_sample :
    ∃ text rows, some (csvText sampleLines) = some text ∧
      campaignRows extractDecimal text = some rows ∧
      List.Forall₂ (fun row campaign => (∃ offset, campaign = row.record offset) ∧
        (campaignCreatives sampleStore campaign).map (·.creativeId) = row.creativeIds)
        rows sampleStore.campaigns ∧
      retrieveCandidates sampleStore sampleContext =
        (sampleStore.campaigns.filter fun campaign => Targets sampleContext campaign).map
          fun campaign =>
            { campaign := some campaign, creatives := campaignCreatives sampleStore campaign } :=
  retrieve_candidates_exact load_sampleStore (by decide +kernel) (by decide +kernel) (by decide)

end RtbEngine
