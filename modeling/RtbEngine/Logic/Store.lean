import Mathlib.Data.List.Forall2
import RtbEngine.Engine.Decision
import RtbEngine.Lib.Table
import RtbEngine.Logic.Rows

/-!
# The loaded store

What the loader guarantees of a store, and what retrieval makes of it: the
store is a table of the file's rows with two indexes and a pool of creatives.

* `loaded_addRow`, `loaded_of_load` — the invariant, row by row;
* `Indexed.retrieve` — looking through one bucket is looking through all
  campaigns.
-/

namespace RtbEngine

open Lib

/-- Where a campaign's creatives are in the pool. -/
def CampaignRecord.slice (campaign : CampaignRecord) : Nat × Nat :=
  (campaign.creativeOffset.toNat, campaign.creativeCount.toNat)

/-- A record that stands for its row, with the row's creatives in its slice. -/
structure Describes (store : CampaignStoreSnapshot) (row : CampaignRow)
    (campaign : CampaignRecord) : Prop where
  record : ∃ offset, campaign = row.record offset
  slice : campaignCreatives store campaign = row.creatives

/-- **The loader's invariant.** -/
structure Loaded (rows : List CampaignRow) (store : CampaignStoreSnapshot) : Prop where
  described : List.Forall₂ (Describes store) rows store.campaigns
  slices : Tiles 0 (store.campaigns.map CampaignRecord.slice) store.creatives.length
  byCountry : Indexes (fun c : CampaignRecord => c.countryKey.value) UInt32.toNat
    store.campaignsByCountry store.campaigns
  byAdSlot : Indexes (fun c : CampaignRecord => c.adSlotKey.value) UInt32.toNat
    store.campaignsByAdSlot store.campaigns

/-- The part of the invariant that retrieval rests on. -/
structure Indexed (store : CampaignStoreSnapshot) : Prop where
  byCountry : Indexes (fun c : CampaignRecord => c.countryKey.value) UInt32.toNat
    store.campaignsByCountry store.campaigns
  byAdSlot : Indexes (fun c : CampaignRecord => c.adSlotKey.value) UInt32.toNat
    store.campaignsByAdSlot store.campaigns

theorem indexed_nil : Indexed {} where
  byCountry := indexes_nil
  byAdSlot := indexes_nil

theorem Loaded.indexed {rows : List CampaignRow} {store : CampaignStoreSnapshot}
    (h : Loaded rows store) : Indexed store where
  byCountry := h.byCountry
  byAdSlot := h.byAdSlot

theorem loaded_nil : Loaded [] {} where
  described := .nil
  slices := rfl
  byCountry := indexes_nil
  byAdSlot := indexes_nil

/-- A slice inside the pool does not see what is appended. -/
theorem campaignCreatives_append {store store' : CampaignStoreSnapshot}
    {campaign : CampaignRecord} {more : List CreativeRecord}
    (hmore : store'.creatives = store.creatives ++ more)
    (hin : campaign.slice.1 + campaign.slice.2 ≤ store.creatives.length) :
    campaignCreatives store' campaign = campaignCreatives store campaign := by
  have hdrop : campaign.creativeOffset.toNat ≤ store.creatives.length :=
    Nat.le_trans (Nat.le_add_right _ _) hin
  unfold campaignCreatives
  rw [hmore, List.drop_append_of_le_length hdrop, List.take_append_of_le_length]
  rw [List.length_drop]
  exact Nat.le_sub_of_add_le' hin

section

variable {rows : List CampaignRow} {store : CampaignStoreSnapshot} {row : CampaignRow}

theorem CampaignRow.length_creatives : row.creatives.length = row.creativeIds.length :=
  List.length_map _

theorem CampaignStoreSnapshot.length_addRow (store : CampaignStoreSnapshot) (row : CampaignRow) :
    (store.addRow row).campaigns.length = store.campaigns.length + 1 ∧
      (store.addRow row).creatives.length = store.creatives.length + row.creatives.length :=
  ⟨List.length_append, List.length_append⟩

/-- The new record's slice is the end of the pool. -/
theorem slice_record (hcreatives : (store.addRow row).creatives.length < 2 ^ 32) :
    (row.record store.creatives.length).slice =
      (store.creatives.length, row.creatives.length) := by
  rw [(store.length_addRow row).2] at hcreatives
  unfold CampaignRecord.slice CampaignRow.record
  simp only [UInt32.toNat_ofNat', ← CampaignRow.length_creatives]
  rw [Nat.mod_eq_of_lt (by omega), Nat.mod_eq_of_lt (by omega)]

theorem indexed_addRow (h : Indexed store) (hcampaigns : store.campaigns.length < 2 ^ 32) :
    Indexed (store.addRow row) := by
  have hindex : (UInt32.ofNat store.campaigns.length).toNat = store.campaigns.length := by
    rw [UInt32.toNat_ofNat', Nat.mod_eq_of_lt hcampaigns]
  exact ⟨h.byCountry.push (x := row.record store.creatives.length) hindex,
    h.byAdSlot.push (x := row.record store.creatives.length) hindex⟩

/-- **One row more.** -/
theorem loaded_addRow (h : Loaded rows store) (hcampaigns : store.campaigns.length < 2 ^ 32)
    (hcreatives : (store.addRow row).creatives.length < 2 ^ 32) :
    Loaded (rows ++ [row]) (store.addRow row) := by
  have hslice := slice_record hcreatives
  have hindexed := @indexed_addRow store row h.indexed hcampaigns
  -- the old slices end before the new creatives
  have hinside : ∀ c ∈ store.campaigns, c.slice.1 + c.slice.2 ≤ store.creatives.length :=
    fun c hc => h.slices.slice_le (List.mem_map_of_mem hc)
  have hold : List.Forall₂ (Describes (store.addRow row)) rows store.campaigns :=
    ((List.forall₂_and_left _ _).mpr ⟨hinside, h.described.flip⟩).flip.imp fun _ _ hc =>
      ⟨hc.2.record, (campaignCreatives_append rfl hc.1).trans hc.2.slice⟩
  refine ⟨List.rel_append hold (.cons ⟨⟨store.creatives.length, rfl⟩, ?_⟩ .nil), ?_,
    hindexed.byCountry, hindexed.byAdSlot⟩
  · have hoffset := congrArg Prod.fst hslice
    have hcount := congrArg Prod.snd hslice
    simp only [CampaignRecord.slice] at hoffset hcount
    unfold campaignCreatives
    rw [hoffset, hcount]
    show ((store.creatives ++ row.creatives).drop _).take _ = _
    rw [List.drop_left, List.take_length]
  · show Tiles 0 ((store.campaigns ++ [_]).map _) (store.creatives ++ row.creatives).length
    rw [List.map_append, List.map_singleton, hslice, List.length_append]
    apply h.slices.snoc
    rw [CampaignRow.length_creatives]
    exact List.length_pos_iff.mpr row.offersCreative

/-- The rows, loaded into an empty store. -/
theorem loaded_foldl (rows : List CampaignRow)
    (hcampaigns : (rows.foldl CampaignStoreSnapshot.addRow {}).campaigns.length < 2 ^ 32)
    (hcreatives : (rows.foldl CampaignStoreSnapshot.addRow {}).creatives.length < 2 ^ 32) :
    Loaded rows (rows.foldl CampaignStoreSnapshot.addRow {}) := by
  induction rows using List.reverseRecOn with
  | nil => exact loaded_nil
  | append_singleton rows row ih =>
      rw [List.foldl_append, List.foldl_cons, List.foldl_nil] at hcampaigns hcreatives ⊢
      have hlen := (rows.foldl CampaignStoreSnapshot.addRow {}).length_addRow row
      exact loaded_addRow (ih (by omega) (by omega)) (by omega) hcreatives

theorem indexed_foldl (rows : List CampaignRow)
    (hcampaigns : (rows.foldl CampaignStoreSnapshot.addRow {}).campaigns.length < 2 ^ 32) :
    Indexed (rows.foldl CampaignStoreSnapshot.addRow {}) := by
  induction rows using List.reverseRecOn with
  | nil => exact indexed_nil
  | append_singleton rows row ih =>
      rw [List.foldl_append, List.foldl_cons, List.foldl_nil] at hcampaigns ⊢
      have hlen := (rows.foldl CampaignStoreSnapshot.addRow {}).length_addRow row
      exact indexed_addRow (ih (by omega)) (by omega)

/-- Every campaign has a creative, so there are at least as many of these. -/
theorem length_campaigns_le (rows : List CampaignRow) :
    (rows.foldl CampaignStoreSnapshot.addRow {}).campaigns.length ≤
      (rows.foldl CampaignStoreSnapshot.addRow {}).creatives.length := by
  induction rows using List.reverseRecOn with
  | nil => exact Nat.le_refl _
  | append_singleton rows row ih =>
      rw [List.foldl_append, List.foldl_cons, List.foldl_nil]
      have hlen := (rows.foldl CampaignStoreSnapshot.addRow {}).length_addRow row
      have hpos := List.length_pos_iff.mpr row.offersCreative
      rw [CampaignRow.length_creatives] at hlen
      omega

/-- Every campaign stands for a row, however large the file is. -/
theorem row_of_mem_foldl {rows : List CampaignRow} {campaign : CampaignRecord}
    (hmem : campaign ∈ (rows.foldl CampaignStoreSnapshot.addRow {}).campaigns) :
    ∃ row ∈ rows, ∃ offset, campaign = row.record offset := by
  induction rows using List.reverseRecOn with
  | nil => cases hmem
  | append_singleton rows row ih =>
      rw [List.foldl_append, List.foldl_cons, List.foldl_nil] at hmem
      rcases List.mem_append.mp hmem with hold | hnew
      · obtain ⟨earlier, hearlier, hrecord⟩ := ih hold
        exact ⟨earlier, List.mem_append_left _ hearlier, hrecord⟩
      · exact ⟨row, List.mem_append_right _ List.mem_cons_self, _, List.mem_singleton.mp hnew⟩

/-- What was loaded from a file are the file's rows. -/
theorem loaded_of_load {extract : Bytes → Option (Double × Bytes)} {input : Option Bytes}
    (hload : loadCampaignStoreSnapshot extract input = some store)
    (hcampaigns : store.campaigns.length < 2 ^ 32) (hcreatives : store.creatives.length < 2 ^ 32) :
    ∃ text rows, input = some text ∧ campaignRows extract text = some rows ∧ Loaded rows store := by
  obtain ⟨text, rows, hinput, hrows, rfl⟩ := loadCampaignStoreSnapshot_some hload
  exact ⟨text, rows, hinput, hrows, loaded_foldl rows hcampaigns hcreatives⟩

/-! ## The campaigns of a loaded store -/

/-- Every campaign stands for a row. -/
theorem Loaded.row_of_mem (h : Loaded rows store) {campaign : CampaignRecord}
    (hmem : campaign ∈ store.campaigns) : ∃ row ∈ rows, Describes store row campaign := by
  obtain ⟨i, hi, rfl⟩ := List.getElem_of_mem hmem
  have hlen := h.described.length_eq
  exact ⟨rows[i], List.getElem_mem _, h.described.get (by omega) hi⟩

/-- A row's slice is not empty. -/
theorem Describes.creatives_ne_nil {campaign : CampaignRecord}
    (h : Describes store row campaign) : campaignCreatives store campaign ≠ [] := by
  rw [h.slice]
  exact fun hnil => row.offersCreative (List.map_eq_nil_iff.mp hnil)

/-- What stands in a campaign's slice is one of its creatives. -/
theorem mem_campaignCreatives {campaign : CampaignRecord} {i : Nat} {creative : CreativeRecord}
    (hin : InSlice campaign.slice i) (hcreative : store.creatives[i]? = some creative) :
    creative ∈ campaignCreatives store campaign := by
  obtain ⟨hle, hlt⟩ := hin
  unfold CampaignRecord.slice at hle hlt
  simp only at hle hlt
  apply List.mem_of_getElem? (i := i - campaign.creativeOffset.toNat)
  unfold campaignCreatives
  rw [List.getElem?_take_of_lt (by omega), List.getElem?_drop, Nat.add_sub_cancel' hle, hcreative]

/-- The creatives of a campaign carry its slot's key. -/
theorem Describes.adSlotKey {campaign : CampaignRecord} (h : Describes store row campaign)
    {creative : CreativeRecord} (hmem : creative ∈ campaignCreatives store campaign) :
    creative.adSlotKey = campaign.adSlotKey := by
  obtain ⟨offset, rfl⟩ := h.record
  rw [h.slice] at hmem
  obtain ⟨id, -, rfl⟩ := List.mem_map.mp hmem
  rfl

/-- The ids in a campaign's slice are the ones its row lists. -/
theorem Describes.creativeIds {campaign : CampaignRecord} (h : Describes store row campaign) :
    (campaignCreatives store campaign).map (·.creativeId) = row.creativeIds := by
  rw [h.slice, CampaignRow.creatives, List.map_map]
  exact List.map_id' _

end

/-! ## Retrieval -/

/-- An active campaign with the keys of the request. -/
def Targets (context : RequestContext) (campaign : CampaignRecord) : Prop :=
  campaign.active = true ∧ campaign.countryKey = context.countryKey ∧
    campaign.deviceTypeKey = context.deviceTypeKey ∧ campaign.adSlotKey = context.adSlotKey

instance (context : RequestContext) (campaign : CampaignRecord) :
    Decidable (Targets context campaign) :=
  inferInstanceAs (Decidable (_ ∧ _ ∧ _ ∧ _))

theorem matchesRequest_iff {context : RequestContext} {campaign : CampaignRecord} :
    matchesRequest context campaign = true ↔ Targets context campaign := by
  have hcountry : campaign.countryKey = context.countryKey ↔
      campaign.countryKey.value = context.countryKey.value := CountryKey.ext_iff
  have hslot : campaign.adSlotKey = context.adSlotKey ↔
      campaign.adSlotKey.value = context.adSlotKey.value := AdSlotKey.ext_iff
  unfold matchesRequest Targets
  rw [hcountry, hslot]
  split
  · rename_i h
    simp only [Bool.false_eq_true, false_iff]
    rintro ⟨hactive, hc, hd, hs⟩
    simp [hactive, hc, hd, hs] at h
  · rename_i h
    simp only [not_or, ne_eq, not_not, Bool.not_eq_true', Bool.not_eq_false] at h
    exact iff_of_true rfl h

/-- The view of a campaign. -/
def viewOf (store : CampaignStoreSnapshot) (campaign : CampaignRecord) : CampaignView :=
  { campaign := some campaign, creatives := campaignCreatives store campaign }

/-- One bucket, looked through. -/
theorem scan_bucket (store : CampaignStoreSnapshot) (context : RequestContext)
    (bucket : List UInt32) :
    (bucket.filterMap fun campaignIndex =>
      match store.campaigns[campaignIndex.toNat]? with
      | none => none
      | some campaign =>
          if matchesRequest context campaign then
            some { campaign := some campaign, creatives := campaignCreatives store campaign }
          else none) =
      (bucket.filterMap fun campaignIndex =>
        store.campaigns[campaignIndex.toNat]?.filter (matchesRequest context)).map
          (viewOf store) := by
  rw [List.map_filterMap]
  apply List.filterMap_congr
  intro i _
  cases store.campaigns[i.toNat]? with
  | none => rfl
  | some campaign =>
      cases hmatch : matchesRequest context campaign <;> simp [Option.filter, hmatch, viewOf]

/-- A candidate is the view of a campaign that targets the request. -/
theorem mem_retrieveCandidates {store : CampaignStoreSnapshot} {context : RequestContext}
    {candidate : CampaignView} (h : candidate ∈ retrieveCandidates store context) :
    ∃ campaign ∈ store.campaigns, Targets context campaign ∧ candidate = viewOf store campaign := by
  unfold retrieveCandidates at h
  split at h
  · cases h
  · split at h
    · cases h
    · rename_i bucket _
      have h' := (scan_bucket store context bucket) ▸ h
      obtain ⟨campaign, hcampaign, rfl⟩ := List.mem_map.mp h'
      obtain ⟨i, -, hi⟩ := List.mem_filterMap.mp hcampaign
      obtain ⟨hget, hmatch⟩ := Option.filter_eq_some_iff.mp hi
      exact ⟨campaign, List.mem_of_getElem? hget, matchesRequest_iff.mp hmatch, rfl⟩

/-- **Retrieval** is a scan of the whole file. -/
theorem Indexed.retrieve {store : CampaignStoreSnapshot} (h : Indexed store)
    {context : RequestContext} (hel : context.isEligible = true) :
    retrieveCandidates store context =
      (store.campaigns.filter fun campaign => Targets context campaign).map (viewOf store) := by
  have hcountry : ∀ c : CampaignRecord, matchesRequest context c = true →
      c.countryKey.value = context.countryKey.value := by
    intro c hc
    exact congrArg CountryKey.value (matchesRequest_iff.mp hc).2.1
  have hslot : ∀ c : CampaignRecord, matchesRequest context c = true →
      c.adSlotKey.value = context.adSlotKey.value := by
    intro c hc
    exact congrArg AdSlotKey.value (matchesRequest_iff.mp hc).2.2.2
  have hfilter : (store.campaigns.filter fun campaign => Targets context campaign) =
      store.campaigns.filter (matchesRequest context) :=
    List.filter_congr fun c _ => by
      rw [Bool.eq_iff_iff, decide_eq_true_eq, matchesRequest_iff]
  unfold retrieveCandidates chooseSeedBucket
  rw [hfilter, hel]
  cases hc : store.campaignsByCountry context.countryKey.value with
  | none =>
      -- no campaign of the country, so none that matches
      rw [h.byCountry.scan_none hcountry hc]
      rfl
  | some country =>
      cases hs : store.campaignsByAdSlot context.adSlotKey.value with
      | none =>
          rw [h.byAdSlot.scan_none hslot hs]
          rfl
      | some slot =>
          simp only [Bool.not_true, Bool.false_eq_true, if_false]
          refine (scan_bucket store context _).trans ?_
          split
          · rw [h.byCountry.scan hcountry hc]
          · rw [h.byAdSlot.scan hslot hs]

end RtbEngine
