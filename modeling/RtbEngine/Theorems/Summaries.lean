import Mathlib.Algebra.Order.BigOperators.Group.List
import Mathlib.Tactic.FieldSimp
import RtbEngine.Engine.Benchmark
import RtbEngine.Engine.Ssp
import RtbEngine.Lib.Ranks
import RtbEngine.Lib.Rounding

/-!
# What the summaries say

Counts, bounds and percentiles of a phase are exact, and do not depend on the
order of the records. The average is a `double` that went through `long
double`: it keeps to the bounds, and to the order of no records, as far as
these represent the sum.
-/

namespace RtbEngine

open Lib

/-! ## The loop over the records -/

/-- The order of 64-bit numbers. -/
@[reducible] def uint64Order : LinearOrder UInt64 where
  le_refl := UInt64.le_refl
  le_trans _ _ _ := UInt64.le_trans
  le_antisymm _ _ := UInt64.le_antisymm
  le_total := UInt64.le_total
  lt_iff_le_not_ge a b := by
    rw [UInt64.lt_iff_toNat_lt, UInt64.le_iff_toNat_le, UInt64.le_iff_toNat_le]
    omega
  toDecidableLE a b := a.decLe b
  toDecidableEq := inferInstance
  toDecidableLT := inferInstance
  toOrd := inferInstance
  min_def _ _ := rfl
  max_def _ _ := rfl
  compare_eq_compareOfLessAndEq _ _ := rfl

/-- The sum of the values, in exact arithmetic. -/
def exactTotal (values : List UInt64) : Nat := (values.map UInt64.toNat).sum

theorem foldl_add (lfl : Double → Double) (requests : List RequestTimingBreakdown)
    (accessor : RequestTimingBreakdown → UInt64) (t : PhaseTotals) :
    requests.foldl (fun t request => t.add lfl (accessor request)) t =
      { values := t.values ++ requests.map accessor
        minValue := (requests.map accessor).foldl min t.minValue
        maxValue := (requests.map accessor).foldl max t.maxValue
        total := (requests.map accessor).foldl (fun s v => lfl (s + lfl v.toNat)) t.total } := by
  induction requests generalizing t with
  | nil => simp
  | cons request requests ih =>
      rw [List.foldl_cons, ih]
      simp [PhaseTotals.add]

/-- A sum that is represented is added up exactly. -/
theorem foldl_lfl_add {lfl : Double → Double} (values : List UInt64) (start : Nat)
    (hexact : ExactUpTo lfl (start + exactTotal values)) :
    values.foldl (fun s v => lfl (s + lfl v.toNat)) (start : Double) =
      (start + exactTotal values : Nat) := by
  induction values generalizing start with
  | nil => rfl
  | cons v values ih =>
      have htotal : start + exactTotal (v :: values) = (start + v.toNat) + exactTotal values := by
        unfold exactTotal
        rw [List.map_cons, List.sum_cons, Nat.add_assoc]
      rw [htotal] at hexact ⊢
      have hvalue : lfl (v.toNat : Double) = v.toNat := hexact _ (by omega)
      have hsum : lfl ((start + v.toNat : Nat) : Double) = (start + v.toNat : Nat) :=
        hexact _ (by omega)
      rw [List.foldl_cons, hvalue, ← Nat.cast_add, hsum]
      exact ih _ hexact

theorem exactTotal_perm {values values' : List UInt64} (h : values.Perm values') :
    exactTotal values = exactTotal values' :=
  (h.map _).sum_eq

/-- Each value is between the bounds, so the sum is. -/
theorem exactTotal_bounds {values : List UInt64} {low high : UInt64}
    (hlow : ∀ v ∈ values, low ≤ v) (hhigh : ∀ v ∈ values, v ≤ high) :
    values.length * low.toNat ≤ exactTotal values ∧
      exactTotal values ≤ values.length * high.toNat := by
  induction values with
  | nil => exact ⟨Nat.le_of_eq (Nat.zero_mul _), Nat.zero_le _⟩
  | cons v values ih =>
      obtain ⟨ihlow, ihhigh⟩ := ih (fun w hw => hlow w (List.mem_cons_of_mem _ hw))
        fun w hw => hhigh w (List.mem_cons_of_mem _ hw)
      have h1 := UInt64.le_iff_toNat_le.mp (hlow v List.mem_cons_self)
      have h2 := UInt64.le_iff_toNat_le.mp (hhigh v List.mem_cons_self)
      have htotal : exactTotal (v :: values) = v.toNat + exactTotal values := rfl
      rw [htotal, List.length_cons, Nat.succ_mul, Nat.succ_mul]
      omega

theorem le_exactTotal {values : List UInt64} {v : UInt64} (h : v ∈ values) :
    v.toNat ≤ exactTotal values :=
  List.single_le_sum (fun _ _ => Nat.zero_le _) _ (List.mem_map_of_mem h)

/-! ## One phase -/

/-- `floor(p * (n - 1))` for a percentage. -/
def exactRank (percent n : Nat) : Nat := percent * (n - 1) / 100

/-- The indices that `percentile_value` computes for `n` values are the exact
ones. -/
def ExactIndices (fl : Double → Double) (n : Nat) : Prop :=
  ∀ percent ∈ [50, 95, 99],
    (fl (fl ((percent : Nat) / 100) * fl (n - 1 : Nat))).floor.toNat = exactRank percent n

theorem exactRank_lt {percent n : Nat} (hp : percent ≤ 100) (hn : 0 < n) :
    exactRank percent n < n := by
  unfold exactRank
  have hle : percent * (n - 1) ≤ 100 * (n - 1) := Nat.mul_le_mul_right _ hp
  omega

theorem exactRank_mono {percent percent' : Nat} (h : percent ≤ percent') (n : Nat) :
    exactRank percent n ≤ exactRank percent' n :=
  Nat.div_le_div_right (Nat.mul_le_mul_right _ h)

/-- What the summary of some values reports, the average apart. -/
structure PhaseReport (values : List UInt64) (s : BenchmarkPhaseSummary) : Prop where
  min_mem : s.minNs ∈ values
  min_le : ∀ v ∈ values, s.minNs ≤ v
  max_mem : s.maxNs ∈ values
  le_max : ∀ v ∈ values, v ≤ s.maxNs
  p50 : ∀ sorted : List UInt64, sorted.Perm values → sorted.Pairwise (· ≤ ·) →
    sorted[exactRank 50 values.length]? = some s.p50Ns
  p95 : ∀ sorted : List UInt64, sorted.Perm values → sorted.Pairwise (· ≤ ·) →
    sorted[exactRank 95 values.length]? = some s.p95Ns
  p99 : ∀ sorted : List UInt64, sorted.Perm values → sorted.Pairwise (· ≤ ·) →
    sorted[exactRank 99 values.length]? = some s.p99Ns
  min_le_p50 : s.minNs ≤ s.p50Ns
  p50_le_p95 : s.p50Ns ≤ s.p95Ns
  p95_le_p99 : s.p95Ns ≤ s.p99Ns
  p99_le_max : s.p99Ns ≤ s.maxNs

section

variable {fl lfl : Double → Double} {values : List UInt64}

/-- The exact index is in range, and every way of sorting has the same element
there. -/
theorem percentileValue_rank {percent : Nat} (hp : percent ≤ 100) (hne : values ≠ [])
    (hindex : (fl (fl ((percent : Nat) / 100) * fl (values.length - 1 : Nat))).floor.toNat =
      exactRank percent values.length) {sorted : List UInt64} (hperm : sorted.Perm values)
    (hsorted : sorted.Pairwise (· ≤ ·)) :
    sorted[exactRank percent values.length]? =
      some (percentileValue fl values (fl ((percent : Nat) / 100))) := by
  let _order := uint64Order
  have hsort : IsSorting sorted values := ⟨hperm, hsorted⟩
  have hmerge : IsSorting values.mergeSort values := isSorting_mergeSort values
  have hempty : ¬ values.isEmpty = true := fun h => hne (List.isEmpty_iff.mp h)
  have hlt := exactRank_lt hp (List.length_pos_iff.mpr hne)
  obtain ⟨a, ha⟩ := hmerge.exists_rank hlt
  unfold percentileValue
  rw [if_neg hempty]
  simp only [hindex]
  rw [hsort.unique hmerge (List.Perm.refl _)]
  exact ha.trans (congrArg (fun o : Option UInt64 => some (o.getD 0)) ha).symm

theorem percentileValue_perm {values' : List UInt64} (h : values.Perm values')
    (percentile : Double) :
    percentileValue fl values percentile = percentileValue fl values' percentile := by
  let _order := uint64Order
  have hmerge : values.mergeSort = values'.mergeSort :=
    (isSorting_mergeSort values).unique (isSorting_mergeSort values') h
  unfold percentileValue
  rw [h.isEmpty_eq, hmerge, h.length_eq]

end

section

variable {fl lfl : Double → Double} {requests : List RequestTimingBreakdown}
  {accessor : RequestTimingBreakdown → UInt64}

/-- What `summarize_phase` computes from the values, with the loop done. -/
theorem summarizePhase_eq (hne : requests ≠ []) :
    summarizePhase fl lfl requests accessor =
      { count := requests.length
        minNs := ((requests.map accessor).tail).foldl min ((requests.map accessor).headD 0)
        maxNs := ((requests.map accessor).tail).foldl max ((requests.map accessor).headD 0)
        avgNs := fl (lfl ((requests.map accessor).foldl (fun s v => lfl (s + lfl v.toNat)) 0 /
          lfl requests.length))
        p50Ns := percentileValue fl (requests.map accessor) (fl (50 / 100))
        p95Ns := percentileValue fl (requests.map accessor) (fl (95 / 100))
        p99Ns := percentileValue fl (requests.map accessor) (fl (99 / 100)) } := by
  let _order := uint64Order
  obtain ⟨front, rest, rfl⟩ := List.exists_cons_of_ne_nil hne
  have hmin : min (accessor front) (accessor front) = accessor front := min_self _
  have hmax : max (accessor front) (accessor front) = accessor front := max_self _
  unfold summarizePhase
  simp only [foldl_add, List.nil_append, List.length_map]
  rw [List.map_cons, List.foldl_cons, List.foldl_cons, hmin, hmax]
  rfl

/-- **One phase**: the count, the bounds and the percentiles. -/
theorem phaseReport_summarizePhase (hne : requests ≠ [])
    (hindices : ExactIndices fl requests.length) :
    PhaseReport (requests.map accessor) (summarizePhase fl lfl requests accessor) := by
  let _order := uint64Order
  have hvalues : requests.map accessor ≠ [] := fun h => hne (List.map_eq_nil_iff.mp h)
  obtain ⟨a, l, hcons⟩ := List.exists_cons_of_ne_nil hvalues
  have hlen : (requests.map accessor).length = requests.length := List.length_map _
  have hpos : 0 < (requests.map accessor).length := List.length_pos_iff.mpr hvalues
  obtain ⟨hmin, hminle⟩ := isLeast_foldl_min a l
  obtain ⟨hmax, hlemax⟩ := isGreatest_foldl_max a l
  have hsort := isSorting_mergeSort (requests.map accessor)
  -- each percentile in every sorting of the values
  have hrank : ∀ percent ∈ [50, 95, 99], ∀ sorted : List UInt64,
      sorted.Perm (requests.map accessor) → sorted.Pairwise (· ≤ ·) →
      sorted[exactRank percent (requests.map accessor).length]? =
        some (percentileValue fl (requests.map accessor) (fl ((percent : Nat) / 100))) := by
    intro percent hpercent sorted hperm hsorted
    have hle : percent ≤ 100 := by
      rcases List.mem_cons.mp hpercent with rfl | hpercent
      · decide
      rcases List.mem_cons.mp hpercent with rfl | hpercent
      · decide
      rcases List.mem_cons.mp hpercent with rfl | hpercent
      · decide
      · cases hpercent
    exact percentileValue_rank hle hvalues (by rw [hlen]; exact hindices percent hpercent) hperm
      hsorted
  have hin : ∀ percent ∈ [50, 95, 99],
      percentileValue fl (requests.map accessor) (fl ((percent : Nat) / 100)) ∈
        requests.map accessor := by
    intro percent hpercent
    exact hsort.mem_iff.mp
      (List.mem_of_getElem? (hrank percent hpercent _ hsort.perm hsort.ordered))
  have hmono : ∀ percent ∈ [50, 95, 99], ∀ percent' ∈ [50, 95, 99], percent ≤ percent' →
      percentileValue fl (requests.map accessor) (fl ((percent : Nat) / 100)) ≤
        percentileValue fl (requests.map accessor) (fl ((percent' : Nat) / 100)) := by
    intro percent hpercent percent' hpercent' hle
    exact hsort.rank_mono (exactRank_mono hle _) (hrank percent hpercent _ hsort.perm hsort.ordered)
      (hrank percent' hpercent' _ hsort.perm hsort.ordered)
  rw [summarizePhase_eq hne]
  simp only [hcons] at hrank hin hmono ⊢
  exact {
    min_mem := hmin
    min_le := fun v hv => hminle hv
    max_mem := hmax
    le_max := fun v hv => hlemax hv
    p50 := hrank 50 (by decide)
    p95 := hrank 95 (by decide)
    p99 := hrank 99 (by decide)
    min_le_p50 := hminle (hin 50 (by decide))
    p50_le_p95 := hmono 50 (by decide) 95 (by decide) (by decide)
    p95_le_p99 := hmono 95 (by decide) 99 (by decide) (by decide)
    p99_le_max := hlemax (hin 99 (by decide)) }

/-- A represented sum gives the average of the exact sum. -/
theorem summarizePhase_avgNs (hne : requests ≠ [])
    (hexact : ExactUpTo lfl (max requests.length (exactTotal (requests.map accessor)))) :
    (summarizePhase fl lfl requests accessor).avgNs =
      fl (lfl (exactTotal (requests.map accessor) / requests.length)) := by
  have hsum := foldl_lfl_add (requests.map accessor) 0
    (hexact.mono (by rw [Nat.zero_add]; exact Nat.le_max_right _ _))
  rw [summarizePhase_eq hne, hexact _ (Nat.le_max_left _ _)]
  rw [Nat.zero_add, Nat.cast_zero] at hsum
  simp only [hsum]

/-- The average is between the bounds, as these are represented. -/
theorem summarizePhase_avgNs_bounds (hfl : RoundsInOrder fl) (hlfl : RoundsInOrder lfl)
    (hne : requests ≠ []) (hindices : ExactIndices fl requests.length)
    (hexact : ExactUpTo lfl (max requests.length (exactTotal (requests.map accessor)))) :
    fl (summarizePhase fl lfl requests accessor).minNs.toNat ≤
        (summarizePhase fl lfl requests accessor).avgNs ∧
      (summarizePhase fl lfl requests accessor).avgNs ≤
        fl (summarizePhase fl lfl requests accessor).maxNs.toNat := by
  have hreport : PhaseReport (requests.map accessor) (summarizePhase fl lfl requests accessor) :=
    phaseReport_summarizePhase hne hindices
  rw [summarizePhase_avgNs hne hexact]
  generalize summarizePhase fl lfl requests accessor = s at hreport ⊢
  obtain ⟨hlow, hhigh⟩ := exactTotal_bounds hreport.min_le hreport.le_max
  rw [List.length_map] at hlow hhigh
  have hpos : (0 : Double) < requests.length := Nat.cast_pos.mpr (List.length_pos_iff.mpr hne)
  have hsum : ∀ v ∈ requests.map accessor, lfl (v.toNat : Double) = v.toNat := fun v hv =>
    hexact _ ((le_exactTotal hv).trans (Nat.le_max_right _ _))
  have hmin : (s.minNs.toNat : Double) ≤ exactTotal (requests.map accessor) / requests.length := by
    rw [le_div_iff₀ hpos, mul_comm]
    exact_mod_cast hlow
  have hmax : (exactTotal (requests.map accessor) / requests.length : Double) ≤ s.maxNs.toNat := by
    rw [div_le_iff₀ hpos, mul_comm]
    exact_mod_cast hhigh
  have hzero : (0 : Double) ≤ s.minNs.toNat := Nat.cast_nonneg _
  have hlflmin := hlfl hzero hmin
  have hlflmax := hlfl (hzero.trans hmin) hmax
  rw [hsum _ hreport.min_mem] at hlflmin
  rw [hsum _ hreport.max_mem] at hlflmax
  exact ⟨hfl hzero hlflmin, hfl (hzero.trans hlflmin) hlflmax⟩

/-- Another order of the records changes the average at most. -/
theorem summarizePhase_perm {requests' : List RequestTimingBreakdown}
    (hperm : requests.Perm requests') :
    summarizePhase fl lfl requests' accessor =
      { summarizePhase fl lfl requests accessor with
        avgNs := (summarizePhase fl lfl requests' accessor).avgNs } := by
  let _order := uint64Order
  by_cases hne : requests = []
  · subst hne
    rw [hperm.nil_eq]
  · have hne' : requests' ≠ [] := by
      rintro rfl
      exact hne hperm.eq_nil
    have hmap : (requests.map accessor).Perm (requests'.map accessor) := hperm.map accessor
    obtain ⟨a, l, hcons⟩ := List.exists_cons_of_ne_nil (List.map_eq_nil_iff.not.mpr hne)
    obtain ⟨a', l', hcons'⟩ := List.exists_cons_of_ne_nil (List.map_eq_nil_iff.not.mpr hne')
    have hset : {x | x ∈ a :: l} = {x | x ∈ a' :: l'} := by
      rw [← hcons, ← hcons']
      exact Set.ext fun x => hmap.mem_iff
    -- least and greatest elements belong to the set of values
    have hmin : l.foldl min a = l'.foldl min a' :=
      (isLeast_foldl_min a l).unique (hset ▸ isLeast_foldl_min a' l')
    have hmax : l.foldl max a = l'.foldl max a' :=
      (isGreatest_foldl_max a l).unique (hset ▸ isGreatest_foldl_max a' l')
    rw [summarizePhase_eq hne, summarizePhase_eq hne']
    simp only [← percentileValue_perm hmap, hperm.length_eq]
    simp only [hcons, hcons', List.tail_cons, List.headD_cons, hmin, hmax]

/-- A represented sum does not change with the order of the records. -/
theorem summarizePhase_perm_of_exact {requests' : List RequestTimingBreakdown}
    (hperm : requests.Perm requests')
    (hexact : ExactUpTo lfl (max requests.length (exactTotal (requests.map accessor)))) :
    summarizePhase fl lfl requests' accessor = summarizePhase fl lfl requests accessor := by
  by_cases hne : requests = []
  · subst hne
    rw [hperm.nil_eq]
  · have hne' : requests' ≠ [] := by
      rintro rfl
      exact hne hperm.eq_nil
    have htotal := exactTotal_perm (hperm.map accessor)
    have hexact' := hexact
    rw [hperm.length_eq, htotal] at hexact'
    have havg : (summarizePhase fl lfl requests' accessor).avgNs =
        (summarizePhase fl lfl requests accessor).avgNs := by
      rw [summarizePhase_avgNs hne hexact, summarizePhase_avgNs hne' hexact', htotal,
        hperm.length_eq]
    rw [summarizePhase_perm hperm, havg]

/-! ## The script's summary -/

/-- `summarize_latencies` of the same values. -/
theorem summarizeLatencies_eq (hindices : ExactIndices fl requests.length) :
    ∃ l, summarizeLatencies fl ((requests.map accessor).map fun v => (v.toNat : Int)) = some l ∧
      l.count = (summarizePhase fl lfl requests accessor).count ∧
      l.minNs = (summarizePhase fl lfl requests accessor).minNs.toNat ∧
      l.maxNs = (summarizePhase fl lfl requests accessor).maxNs.toNat ∧
      l.p50Ns = (summarizePhase fl lfl requests accessor).p50Ns.toNat ∧
      l.p95Ns = (summarizePhase fl lfl requests accessor).p95Ns.toNat ∧
      l.p99Ns = (summarizePhase fl lfl requests accessor).p99Ns.toNat := by
  let _order := uint64Order
  by_cases hne : requests = []
  · subst hne
    exact ⟨{}, rfl, rfl, rfl, rfl, rfl, rfl, rfl⟩
  · have hreport : PhaseReport (requests.map accessor)
        (summarizePhase fl lfl requests accessor) := phaseReport_summarizePhase hne hindices
    have hcount : (summarizePhase fl lfl requests accessor).count = requests.length := by
      rw [summarizePhase_eq hne]
    rw [hcount]
    generalize summarizePhase fl lfl requests accessor = s at hreport ⊢
    have hlen : (requests.map accessor).length = requests.length := List.length_map _
    have hvalues : requests.map accessor ≠ [] := fun h => hne (List.map_eq_nil_iff.mp h)
    generalize requests.map accessor = values at *
    -- the sorted list of the script is the sorted list of the engine
    have hsort := isSorting_mergeSort values
    have hordered : (values.map fun v => (v.toNat : Int)).mergeSort =
        values.mergeSort.map fun v => (v.toNat : Int) := by
      refine (List.map_mergeSort ?_).symm
      intro a _ b _
      rw [decide_eq_decide, UInt64.le_iff_toNat_le, Nat.cast_le]
    have hget : ∀ {i : Nat} {v : UInt64}, values.mergeSort[i]? = some v →
        (values.mergeSort.map fun v => (v.toNat : Int))[i]? = some (v.toNat : Int) := by
      intro i v hv
      rw [List.getElem?_map, hv]
      rfl
    have hpos : 0 < values.length := List.length_pos_iff.mpr hvalues
    obtain ⟨first, hfirst⟩ := hsort.exists_rank hpos
    obtain ⟨last, hlast⟩ := hsort.exists_rank (Nat.sub_lt hpos Nat.one_pos)
    have hmin : first = s.minNs :=
      (hsort.isLeast_of_head hfirst).unique ⟨hreport.min_mem, fun v hv => hreport.min_le v hv⟩
    have hmax : last = s.maxNs :=
      (hsort.isGreatest_of_last hlast).unique ⟨hreport.max_mem, fun v hv => hreport.le_max v hv⟩
    have hlength : (values.mergeSort.map fun v => (v.toNat : Int)).length = requests.length := by
      rw [List.length_map, List.length_mergeSort, hlen]
    have hempty : (values.map fun v => (v.toNat : Int)).isEmpty = false := by
      rw [List.isEmpty_eq_false_iff]
      exact fun h => hvalues (List.map_eq_nil_iff.mp h)
    have h50 := hget (hreport.p50 _ hsort.perm hsort.ordered)
    have h95 := hget (hreport.p95 _ hsort.perm hsort.ordered)
    have h99 := hget (hreport.p99 _ hsort.perm hsort.ordered)
    rw [hlen, ← hindices 50 (by decide), Nat.cast_ofNat] at h50
    rw [hlen, ← hindices 95 (by decide), Nat.cast_ofNat] at h95
    rw [hlen, ← hindices 99 (by decide), Nat.cast_ofNat] at h99
    rw [hlen] at hlast
    unfold summarizeLatencies
    simp only [hempty, hordered, hlength, hget hfirst, hget hlast, hmin, hmax, h50, h95, h99]
    exact ⟨_, rfl, rfl, rfl, rfl, rfl, rfl, rfl⟩

end

/-! ## The recorder -/

/-- `record_request` for each of the timings. -/
def BenchmarkRecorder.recordAll (r : BenchmarkRecorder) (timings : List RequestTimingBreakdown) :
    BenchmarkRecorder :=
  timings.foldl recordRequest r

theorem BenchmarkRecorder.requests_recordAll (r : BenchmarkRecorder)
    (timings : List RequestTimingBreakdown) :
    (r.recordAll timings).requests = r.requests ++ timings := by
  induction timings generalizing r with
  | nil => exact (List.append_nil _).symm
  | cons timing timings ih =>
      show ((r.recordRequest timing).recordAll timings).requests = _
      rw [ih]
      show r.requests ++ [timing] ++ timings = _
      rw [List.append_assoc]
      rfl

/-- The timings of the seven phases. -/
def phaseAccessors : List (RequestTimingBreakdown → UInt64) :=
  [(·.parseNs), (·.normalizeValidateNs), (·.retrieveNs), (·.decideNs), (·.responseBuildNs),
    (·.responseStageNs), (·.totalInternalNs)]

/-- `lfl` represents the number of records and the sum of each phase. -/
def SumsRepresented (lfl : Double → Double) (requests : List RequestTimingBreakdown) : Prop :=
  ∀ accessor ∈ phaseAccessors,
    ExactUpTo lfl (max requests.length (exactTotal (requests.map accessor)))

theorem summarize_perm {fl lfl : Double → Double} {r r' : BenchmarkRecorder}
    (hperm : r.requests.Perm r'.requests) (hsums : SumsRepresented lfl r.requests) :
    r'.summarize fl lfl = r.summarize fl lfl := by
  have hphase : ∀ accessor ∈ phaseAccessors,
      summarizePhase fl lfl r'.requests accessor = summarizePhase fl lfl r.requests accessor :=
    fun accessor haccessor => summarizePhase_perm_of_exact hperm (hsums accessor haccessor)
  unfold phaseAccessors at hphase
  simp only [List.forall_mem_cons] at hphase
  obtain ⟨h0, h1, h2, h3, h4, h5, h6, -⟩ := hphase
  unfold BenchmarkRecorder.summarize
  rw [h0, h1, h2, h3, h4, h5, h6, hperm.length_eq]

/-- What holds of the summary of a phase. The average is what `long double`
and `double` make of it. -/
structure PhaseSummarized (fl lfl : Double → Double) (requests : List RequestTimingBreakdown)
    (accessor : RequestTimingBreakdown → UInt64) (s : BenchmarkPhaseSummary) : Prop where
  count : s.count = requests.length
  report : requests ≠ [] → PhaseReport (requests.map accessor) s
  avg : requests ≠ [] →
    ExactUpTo lfl (max requests.length (exactTotal (requests.map accessor))) →
    fl s.minNs.toNat ≤ s.avgNs ∧ s.avgNs ≤ fl s.maxNs.toNat ∧
      (ExactUpTo fl s.maxNs.toNat → (s.minNs.toNat : Double) ≤ s.avgNs ∧ s.avgNs ≤ s.maxNs.toNat)
  script : ∃ l, summarizeLatencies fl ((requests.map accessor).map fun v => (v.toNat : Int)) = some l ∧
    l.count = s.count ∧ l.minNs = s.minNs.toNat ∧ l.maxNs = s.maxNs.toNat ∧
      l.p50Ns = s.p50Ns.toNat ∧ l.p95Ns = s.p95Ns.toNat ∧ l.p99Ns = s.p99Ns.toNat

/-- **The summaries**, with exact percentile indices: each phase reports its
count, bounds and ranks as the script does, and its average is between the
bounds as far as the sum is represented. The order of the calls changes the
averages at most, and nothing where the sums are represented. -/
theorem summaries_report {fl lfl : Double → Double} (hfl : RoundsInOrder fl)
    (hlfl : RoundsInOrder lfl) (r : BenchmarkRecorder) {timings timings' : List RequestTimingBreakdown}
    (hindices : ExactIndices fl (r.recordAll timings).requests.length)
    (hperm : timings.Perm timings') :
    (∀ accessor, PhaseSummarized fl lfl (r.recordAll timings).requests accessor
        (summarizePhase fl lfl (r.recordAll timings).requests accessor)) ∧
      (∀ accessor, summarizePhase fl lfl (r.recordAll timings').requests accessor =
        { summarizePhase fl lfl (r.recordAll timings).requests accessor with
          avgNs := (summarizePhase fl lfl (r.recordAll timings').requests accessor).avgNs }) ∧
      ((r.recordAll timings').summarize fl lfl).requestCount =
        ((r.recordAll timings).summarize fl lfl).requestCount ∧
      (SumsRepresented lfl (r.recordAll timings).requests →
        (r.recordAll timings').summarize fl lfl = (r.recordAll timings).summarize fl lfl) := by
  have hrequests : (r.recordAll timings).requests.Perm (r.recordAll timings').requests := by
    rw [r.requests_recordAll, r.requests_recordAll]
    exact hperm.append_left _
  refine ⟨?_, ?_, hrequests.length_eq.symm, ?_⟩
  · intro accessor
    generalize (r.recordAll timings).requests = requests at hindices
    refine ⟨?_, ?_, ?_, summarizeLatencies_eq hindices⟩
    · by_cases hne : requests = []
      · subst hne
        rfl
      · rw [summarizePhase_eq hne]
    · exact fun hne => phaseReport_summarizePhase hne hindices
    · intro hne hexact
      obtain ⟨hlow, hhigh⟩ := summarizePhase_avgNs_bounds hfl hlfl hne hindices hexact
      refine ⟨hlow, hhigh, ?_⟩
      intro hdouble
      have hreport : PhaseReport (requests.map accessor)
          (summarizePhase fl lfl requests accessor) := phaseReport_summarizePhase hne hindices
      have hle := UInt64.le_iff_toNat_le.mp (hreport.min_le _ hreport.max_mem)
      rw [hdouble _ hle] at hlow
      rw [hdouble _ (le_refl _)] at hhigh
      exact ⟨hlow, hhigh⟩
  · exact fun accessor => summarizePhase_perm hrequests
  · exact fun hsums => summarize_perm hrequests hsums

/-! ## The arithmetic of the machine -/

/-- `double`: 53 bits. -/
def binary64 : Double → Double := nearestEven 53

/-- `long double` of 64 bits. -/
def extended : Double → Double := nearestEven 64

theorem binary64_exactUpTo : ExactUpTo binary64 (2 ^ 53) := nearestEven_exactUpTo (by decide)

theorem extended_exactUpTo : ExactUpTo extended (2 ^ 64) := nearestEven_exactUpTo (by decide)

/-- A literal just below its percentage: the product with the count is rounded
back to where the exact one is. -/
theorem exactIndex_binary64 {percent n : Nat} (hn : n ≤ 2 ^ 46) (hp : percent ≤ 99)
    (hle : binary64 ((percent : Nat) / 100) ≤ (percent : Nat) / 100)
    (hnear : (percent : Double) / 100 - binary64 ((percent : Nat) / 100) <
      (percent : Double) / 100 / 2 ^ 54) :
    (binary64 (binary64 ((percent : Nat) / 100) * binary64 (n - 1 : Nat))).floor.toNat =
      exactRank percent n := by
  unfold exactRank
  generalize hk : n - 1 = k
  generalize binary64 ((percent : Nat) / 100) = q at hle hnear ⊢
  have hk46 : k ≤ 2 ^ 46 := by omega
  rw [binary64_exactUpTo k (by omega)]
  show ⌊binary64 (q * k)⌋.toNat = percent * k / 100
  obtain ⟨m, hm⟩ : ∃ m, m = percent * k / 100 := ⟨_, rfl⟩
  obtain ⟨rem, hrem⟩ : ∃ rem, rem = percent * k % 100 := ⟨_, rfl⟩
  have hsplit : percent * k = 100 * m + rem := by omega
  have hm99 : 100 * m ≤ 99 * 2 ^ 46 := by
    have h99 : percent * k ≤ 99 * k := Nat.mul_le_mul_right k hp
    omega
  have hm46 : m ≤ 2 ^ 46 := by omega
  -- the exact product, and how far below it the computed one is
  have hexact : (percent : Double) / 100 * k = m + rem / 100 := by
    have hcast : (percent : Double) * k = 100 * m + rem := by exact_mod_cast hsplit
    rw [div_mul_eq_mul_div, hcast]
    ring
  have hbelow : q * k ≤ m + rem / 100 := by
    rw [← hexact]
    exact mul_le_mul_of_nonneg_right hle (Nat.cast_nonneg k)
  have hfloor : (m : Double) ≤ binary64 (q * k) ∧ binary64 (q * k) < m + 1 →
      ⌊binary64 (q * k)⌋.toNat = percent * k / 100 := by
    rintro ⟨hlow, hhigh⟩
    rw [← hm, Int.floor_eq_iff.mpr ⟨hlow, hhigh⟩]
    rfl
  rcases Nat.eq_zero_or_pos k with rfl | hkpos
  · have hm0 : m = 0 := by omega
    rw [hm0, Nat.cast_zero, mul_zero] at hfloor
    have hzero : binary64 0 = 0 := nearestEven_zero 53
    rw [Nat.cast_zero, mul_zero]
    refine hfloor ?_
    rw [hzero]
    norm_num
  · have hdist : m + rem / 100 - q * k < (m + rem / 100 : Double) / 2 ^ 54 := by
      have hkq : (0 : Double) < k := Nat.cast_pos.mpr hkpos
      have hmul := mul_lt_mul_of_pos_right hnear hkq
      rw [sub_mul, hexact, div_mul_eq_mul_div, hexact] at hmul
      exact hmul
    have hmq : (m : Double) ≤ 2 ^ 46 := by exact_mod_cast hm46
    refine hfloor ?_
    rcases Nat.eq_zero_or_pos rem with hrem0 | hrempos
    · -- a whole number: the product is rounded up to it
      rw [hrem0, Nat.cast_zero, zero_div, add_zero] at hdist hbelow
      have hround : binary64 (q * k) = m :=
        nearestEven_of_near (by decide) (by omega) hbelow hdist
      rw [hround]
      exact ⟨le_refl _, lt_add_one _⟩
    · -- a fraction: the product is between two numbers that are kept
      have hrem1 : (1 : Double) ≤ rem := by exact_mod_cast hrempos
      have hrem99 : (rem : Double) ≤ 99 := by
        have h : rem ≤ 99 := by omega
        exact_mod_cast h
      have hlow : (m : Double) ≤ q * k := by
        have hsmall : (m + rem / 100 : Double) / 2 ^ 54 ≤ 1 / 100 := by
          rw [div_le_iff₀ (by positivity)]
          linarith
        linarith
      have hhigh : q * k ≤ ((128 * m + 127 : Nat) : Double) / 2 ^ 7 := by
        have hcast : ((128 * m + 127 : Nat) : Double) / 2 ^ 7 = m + 127 / 128 := by
          push_cast
          ring
        rw [hcast]
        linarith
      have hmono : RoundsInOrder binary64 := nearestEven_mono (by decide)
      have hflow := hmono (Nat.cast_nonneg m) hlow
      have hfhigh := hmono ((Nat.cast_nonneg m).trans hlow) hhigh
      have hkept : binary64 (((128 * m + 127 : Nat) : Double) / 2 ^ 7) =
          ((128 * m + 127 : Nat) : Double) / 2 ^ 7 := nearestEven_dyadic (by omega) 7
      rw [binary64_exactUpTo m (by omega)] at hflow
      rw [hkept] at hfhigh
      refine ⟨hflow, hfhigh.trans_lt ?_⟩
      push_cast
      linarith

/-- The indices are exact for as many values as a machine can hold. -/
theorem exactIndices_binary64 {n : Nat} (hn : n ≤ 2 ^ 46) : ExactIndices binary64 n := by
  intro percent hpercent
  rcases List.mem_cons.mp hpercent with rfl | hpercent
  · exact exactIndex_binary64 hn (by decide) (by decide +kernel) (by decide +kernel)
  rcases List.mem_cons.mp hpercent with rfl | hpercent
  · exact exactIndex_binary64 hn (by decide) (by decide +kernel) (by decide +kernel)
  rcases List.mem_cons.mp hpercent with rfl | hpercent
  · exact exactIndex_binary64 hn (by decide) (by decide +kernel) (by decide +kernel)
  cases hpercent

/-! ## What the rounding of the average breaks -/

/-- The average of each phase is between its bounds. -/
def AveragesBounded (fl lfl : Double → Double) : Prop :=
  ∀ (requests : List RequestTimingBreakdown) (accessor : RequestTimingBreakdown → UInt64),
    requests ≠ [] →
    ((summarizePhase fl lfl requests accessor).minNs.toNat : Double) ≤
        (summarizePhase fl lfl requests accessor).avgNs ∧
      (summarizePhase fl lfl requests accessor).avgNs ≤
        (summarizePhase fl lfl requests accessor).maxNs.toNat

/-- The order of the calls does not matter. -/
def SummariesUnordered (fl lfl : Double → Double) : Prop :=
  ∀ (r : BenchmarkRecorder) (timings timings' : List RequestTimingBreakdown),
    timings.Perm timings' →
    (r.recordAll timings').summarize fl lfl = (r.recordAll timings).summarize fl lfl

/-- One record of 2^53 + 1 ns has an average below its minimum. Two of 2^63 ns
and 2^63 + 2048 ns with two of 1 ns have another average where the small ones
come last. The indices are exact in both. -/
theorem averages_not_exact :
    ¬ AveragesBounded binary64 extended ∧ ¬ SummariesUnordered binary64 extended ∧
      ExactIndices binary64 1 ∧ ExactIndices binary64 4 := by
  refine ⟨?_, ?_, exactIndices_binary64 (by decide), exactIndices_binary64 (by decide)⟩
  · intro h
    have hbounds := h [{ parseNs := 9007199254740993 }] (·.parseNs) (List.cons_ne_nil _ _)
    exact absurd hbounds.1 (by decide +kernel)
  · intro h
    have hsame := h {} [{ parseNs := 1 }, { parseNs := 1 }, { parseNs := 9223372036854775808 },
      { parseNs := 9223372036854777856 }] [{ parseNs := 9223372036854775808 },
      { parseNs := 9223372036854777856 }, { parseNs := 1 }, { parseNs := 1 }]
      (by decide)
    have havg := congrArg (fun s : BenchmarkSummary => s.parse.avgNs) hsame
    exact absurd havg (by decide +kernel)

/-- Below 2^64 everything is represented. -/
theorem sumsRepresented_extended {requests : List RequestTimingBreakdown}
    (h : ∀ accessor ∈ phaseAccessors,
      max requests.length (exactTotal (requests.map accessor)) ≤ 2 ^ 64) :
    SumsRepresented extended requests :=
  fun accessor haccessor => extended_exactUpTo.mono (h accessor haccessor)

/-- Two records in both orders, with the arithmetic of the machine. -/
theorem summaries_report_sample :
    (({} : BenchmarkRecorder).recordAll [{ parseNs := 15 }, { parseNs := 10 }]).summarize
        binary64 extended =
      (({} : BenchmarkRecorder).recordAll [{ parseNs := 10 }, { parseNs := 15 }]).summarize
        binary64 extended := by
  have h := @summaries_report binary64 extended (nearestEven_mono (by decide))
    (nearestEven_mono (by decide)) {} [{ parseNs := 10 }, { parseNs := 15 }]
    [{ parseNs := 15 }, { parseNs := 10 }] (exactIndices_binary64 (by decide))
    (List.Perm.swap _ _ _)
  exact h.2.2.2 (sumsRepresented_extended (by decide))

end RtbEngine
