import RtbEngine.Logic.Pipeline
import RtbEngine.Logic.Store

/-!
# The decision over a loaded store

The loop over the candidates draws at random, but whatever it draws it ends
with a creative of one of them; over a loaded store it bids exactly where a
campaign targets the request, and draws nothing otherwise.

* `decideLoop_fst` — the decision is the one before or an offer of a candidate;
* `Loaded.decideFor_of_none`, `Loaded.decideFor_of_target` — with and without
  a campaign that targets the request;
* `decideFor_of_not_eligible` — a request that is not eligible.
-/

namespace RtbEngine

open Lib

/-- The decision to bid with a creative of the candidate. -/
def CampaignView.Offers (candidate : CampaignView) (decision : BidDecision) : Prop :=
  ∃ campaign creative bidPrice, candidate.campaign = some campaign ∧
    creative ∈ candidate.creatives ∧
    decision =
      { hasBid := true
        noBidReason := .none
        campaignId := campaign.campaignId
        creativeId := creative.creativeId
        modelScore := 0
        bidPrice := bidPrice }

/-- A draw among some creatives is one of them. -/
theorem chooseRandomCreative_some {creatives : List CreativeRecord} (hne : creatives ≠ [])
    (rng : WorkerRng) :
    ∃ creative ∈ creatives, ∃ rng', chooseRandomCreative creatives rng = (some creative, rng') := by
  have hlen : 0 < creatives.length := List.length_pos_iff.mpr hne
  have hempty : creatives.isEmpty = false := List.isEmpty_eq_false_iff.mpr hne
  have hidx := Nat.mod_lt rng.nextU64.1.toNat hlen
  refine ⟨creatives[rng.nextU64.1.toNat % creatives.length], List.getElem_mem _, rng.nextU64.2, ?_⟩
  unfold chooseRandomCreative WorkerRng.uniformIndex
  rw [hempty, if_neg (by decide), if_neg (Nat.ne_of_gt hlen)]
  simp only [List.getElem?_eq_getElem hidx]

theorem mem_of_chooseRandomCreative {creatives : List CreativeRecord} {rng rng' : WorkerRng}
    {creative : CreativeRecord} (h : chooseRandomCreative creatives rng = (some creative, rng')) :
    creative ∈ creatives := by
  have hne : creatives ≠ [] := by
    rintro rfl
    cases h
  obtain ⟨creative', hmem, rng'', h'⟩ := chooseRandomCreative_some hne rng
  rw [h] at h'
  cases h'
  exact hmem

section

variable (fl : Double → Double)

/-- **The loop** keeps what it had, or ends with an offer. -/
theorem decideLoop_fst (candidates : List CampaignView) (best : BidDecision)
    (bestBidPrice : WithBot Double) (rng : WorkerRng) :
    (decideLoop fl candidates best bestBidPrice rng).1 = best ∨
      ∃ candidate ∈ candidates,
        candidate.Offers (decideLoop fl candidates best bestBidPrice rng).1 := by
  induction candidates generalizing best bestBidPrice rng with
  | nil => exact .inl rfl
  | cons candidate candidates ih =>
      -- every branch goes on with the old decision or with this candidate's
      have later : ∀ best' bestBidPrice' rng',
          (best' = best ∨ candidate.Offers best') →
          (decideLoop fl candidates best' bestBidPrice' rng').1 = best ∨
            ∃ c ∈ candidate :: candidates,
              c.Offers (decideLoop fl candidates best' bestBidPrice' rng').1 := by
        intro best' bestBidPrice' rng' hbest
        rcases ih best' bestBidPrice' rng' with heq | ⟨c, hc, hoffer⟩
        · rw [heq]
          exact hbest.imp_right fun h => ⟨candidate, List.mem_cons_self, h⟩
        · exact .inr ⟨c, List.mem_cons_of_mem _ hc, hoffer⟩
      unfold decideLoop
      split
      · exact later _ _ _ (.inl rfl)
      · rename_i campaign hcampaign
        split
        · exact later _ _ _ (.inl rfl)
        · rename_i creative rng' hchoice
          simp only
          split
          · exact later _ _ _ (.inl rfl)
          · exact later _ _ _
              (.inr ⟨campaign, creative, _, hcampaign, mem_of_chooseRandomCreative hchoice, rfl⟩)

/-- From minus infinity the first candidate is taken, so there is an offer. -/
theorem decideLoop_offers {candidates : List CampaignView} (hne : candidates ≠ [])
    (hbiddable : ∀ candidate ∈ candidates,
      candidate.campaign.isSome = true ∧ candidate.creatives ≠ [])
    (best : BidDecision) (rng : WorkerRng) :
    ∃ candidate ∈ candidates, candidate.Offers (decideLoop fl candidates best ⊥ rng).1 := by
  cases candidates with
  | nil => exact absurd rfl hne
  | cons candidate candidates =>
      obtain ⟨hvalid, hcreatives⟩ := hbiddable candidate List.mem_cons_self
      obtain ⟨campaign, hcampaign⟩ := Option.isSome_iff_exists.mp hvalid
      obtain ⟨creative, hmem, rng', hchoice⟩ := chooseRandomCreative_some hcreatives rng
      unfold decideLoop
      -- no price is at most minus infinity, so the first branch is left
      simp only [hcampaign, hchoice, WithBot.le_bot_iff, WithBot.coe_ne_bot, if_false]
      rcases decideLoop_fst fl candidates _ _ _ with heq | ⟨c, hc, hoffer⟩
      · refine ⟨candidate, List.mem_cons_self, ?_⟩
        rw [heq]
        exact ⟨campaign, creative, _, hcampaign, hmem, rfl⟩
      · exact ⟨c, List.mem_cons_of_mem _ hc, hoffer⟩

/-! ## Over a loaded store -/

/-- An active campaign with the keys of the message's texts. -/
def ParsedMessage.TargetedBy (message : ParsedMessage) (campaign : CampaignRecord) : Prop :=
  campaign.active = true ∧ campaign.countryKey = normalizeCountryKey message.country ∧
    campaign.deviceTypeKey = normalizeDeviceTypeKey message.deviceType ∧
    campaign.adSlotKey = normalizeAdSlotKey message.adSlot

instance (message : ParsedMessage) (campaign : CampaignRecord) :
    Decidable (message.TargetedBy campaign) :=
  inferInstanceAs (Decidable (_ ∧ _ ∧ _ ∧ _))

theorem targets_requestContext {message : ParsedMessage} {receivedAtNs : UInt64}
    {campaign : CampaignRecord} :
    Targets (requestContext message receivedAtNs) campaign ↔ message.TargetedBy campaign := by
  have hkeys := @keysOf_requestContext message receivedAtNs
  unfold Targets ParsedMessage.TargetedBy
  rw [hkeys.country, hkeys.deviceType, hkeys.adSlot]

variable {rows : List CampaignRow} {store : CampaignStoreSnapshot} {context : RequestContext}

theorem decideFor_of_not_eligible (hel : context.isEligible = false) (rng : WorkerRng) :
    decideFor fl store context rng =
      ({ hasBid := false, noBidReason := context.noBidReason }, rng) := by
  simp only [decideFor, makeBidDecision, hel, Bool.not_false, if_true]

/-- No campaign: nothing is drawn. -/
theorem Loaded.decideFor_of_none (h : Loaded rows store) (hel : context.isEligible = true)
    (hnone : ¬ ∃ campaign ∈ store.campaigns, Targets context campaign) (rng : WorkerRng) :
    decideFor fl store context rng =
      ({ hasBid := false, noBidReason := .noEligibleCampaign }, rng) := by
  have hfilter : (store.campaigns.filter fun campaign => Targets context campaign) = [] := by
    rw [List.filter_eq_nil_iff]
    intro campaign hmem htargets
    exact hnone ⟨campaign, hmem, of_decide_eq_true htargets⟩
  unfold decideFor makeBidDecision
  rw [h.indexed.retrieve hel, hfilter, hel]
  rfl

/-- A bid is an offer of a campaign that targets the request. -/
theorem offers_of_hasBid {rng : WorkerRng} (hbid : (decideFor fl store context rng).1.hasBid = true) :
    ∃ campaign ∈ store.campaigns, Targets context campaign ∧
      (viewOf store campaign).Offers (decideFor fl store context rng).1 := by
  unfold decideFor makeBidDecision at hbid ⊢
  split at hbid
  · cases hbid
  · split at hbid
    · cases hbid
    · rename_i hel hne
      rw [if_neg hel, if_neg hne]
      rcases decideLoop_fst fl (retrieveCandidates store context)
        { hasBid := false, noBidReason := .noEligibleCampaign } ⊥ rng with heq | ⟨c, hc, hoffer⟩
      · rw [heq] at hbid
        cases hbid
      · obtain ⟨campaign, hmem, htargets, rfl⟩ := mem_retrieveCandidates hc
        exact ⟨campaign, hmem, htargets, hoffer⟩

/-- **Some campaign**: if those that target the request have creatives, one of
them is offered. -/
theorem Indexed.decideFor_of_target (h : Indexed store) (hel : context.isEligible = true)
    (hsome : ∃ campaign ∈ store.campaigns, Targets context campaign)
    (hcreatives : ∀ campaign ∈ store.campaigns, Targets context campaign →
      campaignCreatives store campaign ≠ []) (rng : WorkerRng) :
    ∃ campaign ∈ store.campaigns, Targets context campaign ∧
      (viewOf store campaign).Offers (decideFor fl store context rng).1 := by
  have hcandidates := h.retrieve hel
  obtain ⟨target, hmem, htarget⟩ := hsome
  have hne : retrieveCandidates store context ≠ [] := by
    rw [hcandidates]
    refine List.ne_nil_of_mem (a := viewOf store target) ?_
    exact List.mem_map_of_mem (List.mem_filter.mpr ⟨hmem, decide_eq_true htarget⟩)
  have hbiddable : ∀ candidate ∈ retrieveCandidates store context,
      candidate.campaign.isSome = true ∧ candidate.creatives ≠ [] := by
    intro candidate hcandidate
    obtain ⟨campaign, hcampaign, htargets, rfl⟩ := mem_retrieveCandidates hcandidate
    exact ⟨rfl, hcreatives campaign hcampaign htargets⟩
  have hdecide : decideFor fl store context rng =
      decideLoop fl (retrieveCandidates store context)
        { hasBid := false, noBidReason := .noEligibleCampaign } ⊥ rng := by
    unfold decideFor makeBidDecision
    rw [hel, if_neg (by decide), List.isEmpty_eq_false_iff.mpr hne, if_neg (by decide)]
  obtain ⟨candidate, hcandidate, hoffer⟩ :=
    decideLoop_offers fl hne hbiddable { hasBid := false, noBidReason := .noEligibleCampaign } rng
  obtain ⟨campaign, hcampaign, htargets, rfl⟩ := mem_retrieveCandidates hcandidate
  exact ⟨campaign, hcampaign, htargets, by rw [hdecide]; exact hoffer⟩

/-- **One campaign**: it is the one that is offered. -/
theorem Indexed.decideFor_of_only (h : Indexed store) (hel : context.isEligible = true)
    {target : CampaignRecord} (hmem : target ∈ store.campaigns) (htarget : Targets context target)
    (honly : ∀ campaign ∈ store.campaigns, Targets context campaign → campaign = target)
    (hcreatives : campaignCreatives store target ≠ []) (rng : WorkerRng) :
    (viewOf store target).Offers (decideFor fl store context rng).1 := by
  obtain ⟨campaign, hcampaign, htargets, hoffer⟩ := h.decideFor_of_target fl hel
    ⟨target, hmem, htarget⟩ (fun campaign hcampaign htargets => by
      rw [honly campaign hcampaign htargets]
      exact hcreatives) rng
  rwa [honly campaign hcampaign htargets] at hoffer

/-- The campaigns of a loaded store have creatives. -/
theorem Loaded.decideFor_of_target (h : Loaded rows store) (hel : context.isEligible = true)
    (hsome : ∃ campaign ∈ store.campaigns, Targets context campaign) (rng : WorkerRng) :
    ∃ campaign ∈ store.campaigns, Targets context campaign ∧
      (viewOf store campaign).Offers (decideFor fl store context rng).1 := by
  refine h.indexed.decideFor_of_target fl hel hsome ?_ rng
  intro campaign hmem _
  obtain ⟨row, -, hrow⟩ := h.row_of_mem hmem
  exact hrow.creatives_ne_nil

/-- Without a bid nothing was drawn. -/
theorem Loaded.rng_of_no_bid (h : Loaded rows store) {rng : WorkerRng}
    (hno : (decideFor fl store context rng).1.hasBid = false) :
    (decideFor fl store context rng).2 = rng := by
  cases hel : context.isEligible with
  | false => rw [decideFor_of_not_eligible fl hel]
  | true =>
      by_cases hsome : ∃ campaign ∈ store.campaigns, Targets context campaign
      · obtain ⟨campaign, -, -, hoffer⟩ := h.decideFor_of_target fl hel hsome rng
        obtain ⟨_, _, _, _, _, heq⟩ := hoffer
        rw [heq] at hno
        cases hno
      · rw [h.decideFor_of_none fl hel hsome]

end

end RtbEngine
