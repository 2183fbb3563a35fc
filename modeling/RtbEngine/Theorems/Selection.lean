import Mathlib.Algebra.Order.Field.Basic
import Mathlib.Tactic.Linarith
import Mathlib.Tactic.Positivity
import Mathlib.Tactic.Ring
import RtbEngine.Logic.Decision

/-!
# The decision is the first maximum

With exact prices `make_bid_decision` takes the first of the dearest usable
candidates. Each usable candidate uses up two draws, the others none.
-/

namespace RtbEngine

open Lib

/-! ## Draws -/

namespace WorkerRng

/-- The generator after `n` draws. -/
def advance : Nat → WorkerRng → WorkerRng
  | 0, rng => rng
  | n + 1, rng => (advance n rng).nextU64.2

/-- The `n`-th draw, counted from 0. -/
def draw (rng : WorkerRng) (n : Nat) : UInt64 := (advance n rng).nextU64.1

end WorkerRng

/-! ## The rule -/

/-- A view with a campaign and at least one creative. -/
def CampaignView.usable (view : CampaignView) : Bool := view.valid && !view.creatives.isEmpty

/-- The price of the `i`-th usable view. -/
def priceAt (rng : WorkerRng) (i : Nat) : Double :=
  5 / 100 + ((rng.draw (2 * i + 1) >>> 11).toNat : Double) / 2 ^ 53 * (495 / 100)

/-- The bid for the `i`-th usable view: its campaign, the creative that is
drawn, the price. -/
def bidAt (usable : List CampaignView) (rng : WorkerRng) (i : Nat) : Option BidDecision := do
  let view ← usable[i]?
  let campaign ← view.campaign
  let creative ← view.creatives[(rng.draw (2 * i)).toNat % view.creatives.length]?
  return {
    hasBid := true
    noBidReason := .none
    campaignId := campaign.campaignId
    creativeId := creative.creativeId
    modelScore := 0
    bidPrice := priceAt rng i }

/-- `i` is the first of the indices below `n` where `f` is maximal. -/
structure IsFirstMax (f : Nat → Double) (n i : Nat) : Prop where
  lt : i < n
  max : ∀ j < n, f j ≤ f i
  first : ∀ j < i, f j < f i

theorem IsFirstMax.keep {f : Nat → Double} {n i : Nat} (h : IsFirstMax f n i) (hle : f n ≤ f i) :
    IsFirstMax f (n + 1) i := by
  refine ⟨Nat.lt_succ_of_lt h.lt, ?_, h.first⟩
  intro j hj
  rcases Nat.lt_succ_iff_lt_or_eq.mp hj with hj | rfl
  · exact h.max j hj
  · exact hle

theorem IsFirstMax.replace {f : Nat → Double} {n i : Nat} (h : IsFirstMax f n i)
    (hlt : f i < f n) : IsFirstMax f (n + 1) n := by
  have hbelow : ∀ j < n, f j < f n := fun j hj => lt_of_le_of_lt (h.max j hj) hlt
  refine ⟨Nat.lt_succ_self n, ?_, hbelow⟩
  intro j hj
  rcases Nat.lt_succ_iff_lt_or_eq.mp hj with hj | rfl
  · exact le_of_lt (hbelow j hj)
  · exact le_refl _

theorem isFirstMax_one (f : Nat → Double) : IsFirstMax f 1 0 := by
  refine ⟨Nat.one_pos, ?_, nofun⟩
  intro j hj
  obtain rfl : j = 0 := by omega
  exact le_refl _

/-! ## One candidate -/

theorem priceAt_lower (rng : WorkerRng) (i : Nat) : (5 / 100 : Double) ≤ priceAt rng i := by
  have hnonneg : (0 : Double) ≤ ((rng.draw (2 * i + 1) >>> 11).toNat : Double) := Nat.cast_nonneg _
  unfold priceAt
  have : (0 : Double) ≤ ((rng.draw (2 * i + 1) >>> 11).toNat : Double) / 2 ^ 53 * (495 / 100) := by
    positivity
  linarith

theorem priceAt_upper (rng : WorkerRng) (i : Nat) : priceAt rng i < (5 : Double) := by
  -- a shifted draw has 53 bits
  have hbits : (rng.draw (2 * i + 1) >>> 11).toNat < 2 ^ 53 := by
    have hlt := (rng.draw (2 * i + 1)).toNat_lt
    rw [UInt64.toNat_shiftRight, Nat.shiftRight_eq_div_pow]
    show _ / 2 ^ 11 < _
    omega
  have hcast : ((rng.draw (2 * i + 1) >>> 11).toNat : Double) < 2 ^ 53 := by exact_mod_cast hbits
  have hunit : ((rng.draw (2 * i + 1) >>> 11).toNat : Double) / 2 ^ 53 < 1 := by
    rw [div_lt_one (by norm_num)]
    exact hcast
  unfold priceAt
  linarith

/-- The price of a usable view is drawn after its creative. -/
theorem generateBidPrice_advance (rng : WorkerRng) (i : Nat) :
    generateBidPrice id (rng.advance (2 * i + 1)) = (priceAt rng i, rng.advance (2 * (i + 1))) := by
  refine Prod.ext ?_ rfl
  calc (generateBidPrice id (rng.advance (2 * i + 1))).1
      = 5 / 100 + ((rng.draw (2 * i + 1) >>> 11).toNat : Double) * (1 / 2 ^ 53) * (5 - 5 / 100) :=
        rfl
    _ = priceAt rng i := by
        unfold priceAt
        ring

/-- A usable view draws one of its creatives. -/
theorem chooseRandomCreative_advance {creatives : List CreativeRecord} (hne : creatives ≠ [])
    (rng : WorkerRng) (i : Nat) :
    chooseRandomCreative creatives (rng.advance (2 * i)) =
      (creatives[(rng.draw (2 * i)).toNat % creatives.length]?, rng.advance (2 * i + 1)) := by
  have hlen : creatives.length ≠ 0 := fun h => hne (List.length_eq_zero_iff.mp h)
  unfold chooseRandomCreative WorkerRng.uniformIndex
  rw [List.isEmpty_eq_false_iff.mpr hne, if_neg (by decide), if_neg hlen]
  rfl

/-! ## The loop -/

/-- What the loop has after the usable views so far: no bid yet, or the bid
for the first maximum among them. -/
def Best (usable : List CampaignView) (rng : WorkerRng) (decision : BidDecision)
    (price : WithBot Double) : Prop :=
  (usable = [] ∧ decision = { hasBid := false, noBidReason := .noEligibleCampaign } ∧ price = ⊥) ∨
    ∃ i, IsFirstMax (priceAt rng) usable.length i ∧ bidAt usable rng i = some decision ∧
      price = priceAt rng i

/-- The bids for earlier views do not depend on later ones. -/
theorem bidAt_append {usable : List CampaignView} {rng : WorkerRng} {i : Nat}
    {decision : BidDecision} (h : bidAt usable rng i = some decision) (more : List CampaignView) :
    bidAt (usable ++ more) rng i = some decision := by
  have hi : i < usable.length := by
    by_contra hi
    rw [bidAt, List.getElem?_eq_none (Nat.le_of_not_lt hi)] at h
    cases h
  rw [bidAt, List.getElem?_append_left hi]
  exact h

/-- **The loop** goes on from the best so far: it skips the views that are not
usable and ends with the best of all usable ones. -/
theorem decideLoop_best (candidates : List CampaignView) (rng : WorkerRng)
    (before : List CampaignView) (decision : BidDecision) (price : WithBot Double)
    (h : Best before rng decision price) :
    ∃ decision' price',
      decideLoop id candidates decision price (rng.advance (2 * before.length)) =
        (decision',
          rng.advance (2 * (before ++ candidates.filter CampaignView.usable).length)) ∧
      Best (before ++ candidates.filter CampaignView.usable) rng decision' price' := by
  induction candidates generalizing before decision price with
  | nil =>
      rw [List.filter_nil, List.append_nil]
      exact ⟨decision, price, rfl, h⟩
  | cons view candidates ih =>
      unfold decideLoop
      cases hcampaign : view.campaign with
      | none =>
          have hunusable : view.usable = false := by
            simp [CampaignView.usable, CampaignView.valid, hcampaign]
          rw [List.filter_cons_of_neg (by simp [hunusable])]
          exact ih before decision price h
      | some campaign =>
          by_cases hempty : view.creatives = []
          · -- no creative is drawn from an empty span
            have hunusable : view.usable = false := by
              simp [CampaignView.usable, hempty]
            rw [List.filter_cons_of_neg (by simp [hunusable]), hempty]
            exact ih before decision price h
          · have husable : view.usable = true := by
              simp [CampaignView.usable, CampaignView.valid, hcampaign, hempty]
            have hindex : (rng.draw (2 * before.length)).toNat % view.creatives.length <
                view.creatives.length := Nat.mod_lt _ (List.length_pos_iff.mpr hempty)
            obtain ⟨creative, hcreative⟩ : ∃ creative,
                view.creatives[(rng.draw (2 * before.length)).toNat % view.creatives.length]? =
                  some creative := ⟨_, List.getElem?_eq_getElem hindex⟩
            have hbid : bidAt (before ++ [view]) rng before.length = some
                { hasBid := true
                  noBidReason := .none
                  campaignId := campaign.campaignId
                  creativeId := creative.creativeId
                  modelScore := 0
                  bidPrice := priceAt rng before.length } := by
              unfold bidAt
              rw [List.getElem?_append_right (Nat.le_refl _), Nat.sub_self]
              simp only [List.getElem?_cons_zero, Option.bind_eq_bind, Option.bind_some, hcampaign,
                hcreative]
              rfl
            have hlength : (before ++ [view]).length = before.length + 1 := by simp
            have hfilter : before ++ (view :: candidates).filter CampaignView.usable =
                (before ++ [view]) ++ candidates.filter CampaignView.usable := by
              rw [List.filter_cons_of_pos husable, List.append_assoc]
              rfl
            rw [hfilter]
            simp only [chooseRandomCreative_advance hempty, hcreative, generateBidPrice_advance]
            rw [← hlength]
            split
            · -- not dearer than the best so far
              rename_i hle
              refine ih (before ++ [view]) decision price ?_
              rcases h with ⟨-, -, rfl⟩ | ⟨i, hi, hdecision, rfl⟩
              · exact absurd hle (by simp)
              · refine .inr ⟨i, ?_, bidAt_append hdecision _, rfl⟩
                rw [hlength]
                exact hi.keep (WithBot.coe_le_coe.mp hle)
            · rename_i hgt
              refine ih (before ++ [view]) _ _ (.inr ⟨before.length, ?_, hbid, rfl⟩)
              rw [hlength]
              rcases h with ⟨rfl, -, -⟩ | ⟨i, hi, -, rfl⟩
              · exact isFirstMax_one _
              · exact hi.replace (WithBot.coe_lt_coe.mp (not_le.mp hgt))

/-! ## The decision -/

/-- **The decision**: no bid exactly without usable views; otherwise the bid
for the first of the dearest ones, at a price in `[0.05, 5.00)`; and two draws
for each usable view. -/
theorem make_bid_decision_exact (context : RequestContext) (heligible : context.isEligible = true)
    (candidates : List CampaignView) (rng : WorkerRng) :
    let usable := candidates.filter CampaignView.usable
    let decided := makeBidDecision id context candidates rng
    ((decided.1.hasBid = false ∧ decided.1.noBidReason = .noEligibleCampaign) ↔ usable = []) ∧
    (usable ≠ [] →
      ∃ i view campaign creative, usable[i]? = some view ∧ view.campaign = some campaign ∧
        view.creatives[(rng.draw (2 * i)).toNat % view.creatives.length]? = some creative ∧
        (∀ j < usable.length, priceAt rng j ≤ priceAt rng i) ∧
        (∀ j < i, priceAt rng j < priceAt rng i) ∧
        decided.1 =
          { hasBid := true
            noBidReason := .none
            campaignId := campaign.campaignId
            creativeId := creative.creativeId
            modelScore := 0
            bidPrice := priceAt rng i } ∧
        5 / 100 ≤ decided.1.bidPrice ∧ decided.1.bidPrice < 5) ∧
    decided.2 = rng.advance (2 * usable.length) := by
  intro usable decided
  have hrun : ∃ decision price, decided = (decision, rng.advance (2 * usable.length)) ∧
      Best usable rng decision price := by
    cases candidates with
    | nil =>
        refine ⟨_, ⊥, ?_, .inl ⟨rfl, rfl, rfl⟩⟩
        show makeBidDecision id context [] rng = _
        rw [makeBidDecision, heligible]
        rfl
    | cons view candidates =>
        obtain ⟨decision, price, hloop, hbest⟩ :=
          decideLoop_best (view :: candidates) rng [] _ ⊥ (.inl ⟨rfl, rfl, rfl⟩)
        refine ⟨decision, price, ?_, hbest⟩
        show makeBidDecision id context (view :: candidates) rng = _
        rw [makeBidDecision, heligible]
        exact hloop
  obtain ⟨decision, price, hdecided, hbest⟩ := hrun
  rw [hdecided]
  rcases hbest with ⟨hnone, rfl, -⟩ | ⟨i, hi, hbid, -⟩
  · exact ⟨iff_of_true ⟨rfl, rfl⟩ hnone, fun hne => absurd hnone hne, rfl⟩
  · have hne : usable ≠ [] := List.length_pos_iff.mp (Nat.lt_of_le_of_lt (Nat.zero_le i) hi.lt)
    simp only [bidAt, Option.bind_eq_bind, Option.bind_eq_some_iff, Option.pure_def,
      Option.some.injEq] at hbid
    obtain ⟨view, hview, campaign, hcampaign, creative, hcreative, rfl⟩ := hbid
    refine ⟨iff_of_false ?_ hne, fun _ => ?_, rfl⟩
    · rintro ⟨hnobid, -⟩
      exact absurd hnobid Bool.noConfusion
    · exact ⟨i, view, campaign, creative, hview, hcampaign, hcreative, hi.max, hi.first, rfl,
        priceAt_lower rng i, priceAt_upper rng i⟩

/-- Two candidates, the first without a campaign: the second wins, and two
draws are used up. -/
theorem make_bid_decision_exact_sample :
    ({ processingStatus := .ok } : RequestContext).isEligible = true ∧
      (makeBidDecision id { processingStatus := .ok }
        [{ creatives := [{ creativeId := 4 }] },
          { campaign := some { campaignId := 7 }, creatives := [{ creativeId := 5 }] }]
        { state := 3 }).2 = WorkerRng.advance 2 { state := 3 } :=
  ⟨by decide, (make_bid_decision_exact { processingStatus := .ok } (by decide)
    [{ creatives := [{ creativeId := 4 }] },
      { campaign := some { campaignId := 7 }, creatives := [{ creativeId := 5 }] }]
    { state := 3 }).2.2⟩

end RtbEngine
