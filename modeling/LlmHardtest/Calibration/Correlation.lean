import LlmHardtest.Library.Moments
set_option autoImplicit false

/-! The correlation of pairs that come in clusters. The numbers are those of an ordered field and the
square root is a parameter, so that the definitions run on fractions and the results hold for reals. -/

namespace Calibration
open Moments

inductive ArithmeticRaised where
  | zeroDivisionError
  deriving DecidableEq, Repr

section Definitions
variable {K : Type} [Field K] [LinearOrder K] (sqrt : K → K)

def correlation (xs ys : List K) : Option K :=
  if xs.length < 3 ∨ xs.dedup.length < 2 ∨ ys.dedup.length < 2 then none
  else
    let meanX := xs.sum / xs.length
    let meanY := ys.sum / ys.length
    let numerator := (List.zipWith (fun x y => (x - meanX) * (y - meanY)) xs ys).sum
    let denominator := sqrt ((xs.map fun x => (x - meanX) ^ 2).sum * (ys.map fun y => (y - meanY) ^ 2).sum)
    if denominator = 0 then none else some (numerator / denominator)

structure MomentRow (K : Type) where
  count : K
  x : K
  y : K
  x2 : K
  y2 : K
  xy : K
  deriving DecidableEq, Repr

def clusterMoments (cluster : List (K × K)) : Except ArithmeticRaised (MomentRow K) :=
  if cluster.isEmpty then .error .zeroDivisionError
  else .ok {
    count := 1
    x := (cluster.map fun pair => pair.1).sum / cluster.length
    y := (cluster.map fun pair => pair.2).sum / cluster.length
    x2 := (cluster.map fun pair => pair.1 ^ 2).sum / cluster.length
    y2 := (cluster.map fun pair => pair.2 ^ 2).sum / cluster.length
    xy := (cluster.map fun pair => pair.1 * pair.2).sum / cluster.length }

/-- The quotient of `_correlation_from_moments` before it is clamped. -/
def unclampedCorrelation (rows : List (MomentRow K)) : Option K :=
  let count := (rows.map MomentRow.count).sum
  if count = 0 then none
  else
    let sumX := (rows.map MomentRow.x).sum
    let sumY := (rows.map MomentRow.y).sum
    let numerator := (rows.map MomentRow.xy).sum - sumX * sumY / count
    let varianceX := (rows.map MomentRow.x2).sum - sumX ^ 2 / count
    let varianceY := (rows.map MomentRow.y2).sum - sumY ^ 2 / count
    let denominator := sqrt (max 0 varianceX * max 0 varianceY)
    if denominator = 0 then none else some (numerator / denominator)

def correlationFromMoments (rows : List (MomentRow K)) : Option K :=
  (unclampedCorrelation sqrt rows).map fun r => max (-1) (min 1 r)

def clusterWeightedCorrelation (pairClusters : List (List (K × K))) :
    Except ArithmeticRaised (Option K) := do
  let rows ← pairClusters.mapM clusterMoments
  return correlationFromMoments sqrt rows

end Definitions

example : clusterWeightedCorrelation (K := ℚ) (fun x => x) [[(0, 0)], [(1, 1), (1, 1)]] =
    .ok (some 1) := by
  decide +kernel

section Moments
variable {K : Type} [Field K]

def rowOf (cluster : List (K × K)) : MomentRow K where
  count := 1
  x := mean cluster Prod.fst
  y := mean cluster Prod.snd
  x2 := mean cluster (Prod.fst * Prod.fst)
  y2 := mean cluster (Prod.snd * Prod.snd)
  xy := mean cluster (Prod.fst * Prod.snd)

theorem clusterMoments_eq {cluster : List (K × K)} (h : cluster ≠ []) :
    clusterMoments cluster = .ok (rowOf cluster) := by
  have hempty : cluster.isEmpty = false := by simp [h]
  have hsquare : ∀ f : K × K → K, (cluster.map fun pair => f pair ^ 2) = cluster.map (f * f) := by
    intro f
    refine List.map_congr_left fun pair _ => ?_
    rw [Pi.mul_apply, pow_two]
  rw [clusterMoments, hempty, if_neg Bool.false_ne_true, hsquare Prod.fst, hsquare Prod.snd]
  rfl

theorem mapM_clusterMoments {clusters : List (List (K × K))} (h : ∀ c ∈ clusters, c ≠ []) :
    clusters.mapM clusterMoments = .ok (clusters.map rowOf) := by
  induction clusters with
  | nil => rfl
  | cons c clusters ih =>
    rw [List.mapM_cons, clusterMoments_eq (h c (by simp)), ih fun c hc => h c (by simp [hc])]
    rfl

theorem mapM_clusterMoments_error {clusters : List (List (K × K))} (h : [] ∈ clusters) :
    clusters.mapM clusterMoments = .error .zeroDivisionError := by
  induction clusters with
  | nil => cases h
  | cons c clusters ih =>
    rw [List.mapM_cons]
    by_cases hc : c = []
    · rw [hc]
      rfl
    · rw [clusterMoments_eq hc, ih ((List.mem_cons.mp h).resolve_left (Ne.symm hc))]
      rfl

end Moments

section Pooled
variable {K : Type} [Field K] [LinearOrder K] [IsStrictOrderedRing K] (sqrt : K → K)
variable {clusters : List (List (K × K))}

def covariance (clusters : List (List (K × K))) : K := central (pooled clusters) Prod.fst Prod.snd

def variance (clusters : List (List (K × K))) (coordinate : K × K → K) : K :=
  central (pooled clusters) coordinate coordinate

theorem unclampedCorrelation_eq (h : ∀ c ∈ clusters, c ≠ []) (hne : clusters ≠ []) :
    unclampedCorrelation sqrt (clusters.map rowOf) =
      if sqrt (max 0 (variance clusters Prod.fst) * max 0 (variance clusters Prod.snd)) = 0 then none
      else some (covariance clusters /
        sqrt (max 0 (variance clusters Prod.fst) * max 0 (variance clusters Prod.snd))) := by
  have hsum : ∀ f : K × K → K, (clusters.map fun c => mean c f).sum = pooled clusters f :=
    fun f => (pooled_apply clusters f).symm
  have hcount : (clusters.map fun _ => (1 : K)).sum = pooled clusters 1 := by
    rw [pooled_one h]
    simp
  have hpos : pooled clusters (1 : K × K → K) ≠ 0 := by
    rw [pooled_one h]
    exact Nat.cast_ne_zero.mpr (List.length_pos_iff.mpr hne).ne'
  simp only [unclampedCorrelation, List.map_map, Function.comp_def, rowOf, hsum, hcount, if_neg hpos,
    variance, covariance, central, pow_two]
  rfl

omit [IsStrictOrderedRing K] in
/-- Without an empty cluster the correlation is the clamped quotient. -/
theorem clusterWeightedCorrelation_eq (h : ∀ c ∈ clusters, c ≠ []) :
    clusterWeightedCorrelation sqrt clusters = .ok (correlationFromMoments sqrt (clusters.map rowOf)) := by
  rw [clusterWeightedCorrelation, mapM_clusterMoments h]
  rfl

section Root
variable {sqrt} (hroot : ∀ x, 0 ≤ x → 0 ≤ sqrt x ∧ sqrt x * sqrt x = x)

theorem variance_nonneg (h : ∀ c ∈ clusters, c ≠ []) (hne : clusters ≠ []) (f : K × K → K) :
    0 ≤ variance clusters f := by
  refine central_self_nonneg (pooled_positive clusters) ?_ f
  rw [pooled_one h]
  exact Nat.cast_ne_zero.mpr (List.length_pos_iff.mpr hne).ne'

include hroot in
theorem sqrt_eq_zero {x : K} (hx : 0 ≤ x) : sqrt x = 0 ↔ x = 0 := by
  obtain ⟨-, hsquare⟩ := hroot x hx
  rw [← mul_self_eq_zero, hsquare]

include hroot in
theorem unclampedCorrelation_cases (h : ∀ c ∈ clusters, c ≠ []) :
    ((variance clusters Prod.fst = 0 ∨ variance clusters Prod.snd = 0) ∧
        unclampedCorrelation sqrt (clusters.map rowOf) = none) ∨
      ((variance clusters Prod.fst ≠ 0 ∧ variance clusters Prod.snd ≠ 0) ∧
        ∃ r, unclampedCorrelation sqrt (clusters.map rowOf) = some r ∧ r ^ 2 ≤ 1 ∧
          r = covariance clusters / sqrt (variance clusters Prod.fst * variance clusters Prod.snd)) := by
  by_cases hne : clusters = []
  · subst hne
    left
    refine ⟨.inl ?_, ?_⟩
    · simp [variance, central, pooled]
    · simp [unclampedCorrelation]
  · have hx := variance_nonneg h hne Prod.fst
    have hy := variance_nonneg h hne Prod.snd
    have hproduct := mul_nonneg hx hy
    have hroot0 := (sqrt_eq_zero hroot hproduct).trans mul_eq_zero
    rw [unclampedCorrelation_eq sqrt h hne, max_eq_right hx, max_eq_right hy]
    by_cases hzero : variance clusters Prod.fst = 0 ∨ variance clusters Prod.snd = 0
    · exact .inl ⟨hzero, if_pos (hroot0.mpr hzero)⟩
    · right
      rw [if_neg (hroot0.not.mpr hzero)]
      push Not at hzero
      refine ⟨hzero, _, rfl, ?_, rfl⟩
      have hone : pooled clusters (1 : K × K → K) ≠ 0 := by
        rw [pooled_one h]
        exact Nat.cast_ne_zero.mpr (List.length_pos_iff.mpr hne).ne'
      have hpos : 0 < variance clusters Prod.fst * variance clusters Prod.snd :=
        lt_of_le_of_ne hproduct (mul_ne_zero hzero.1 hzero.2).symm
      rw [div_pow, pow_two (sqrt _), (hroot _ hproduct).2, div_le_one hpos]
      exact central_sq_le (pooled_positive clusters) hone Prod.fst Prod.snd

theorem clamp_eq {r : K} (h : r ^ 2 ≤ 1) :
    max (-1) (min 1 r) = r := by
  obtain ⟨hlow, hhigh⟩ := abs_le.mp (sq_le_one_iff_abs_le_one r |>.mp h)
  rw [min_eq_right hhigh, max_eq_right hlow]

end Root

end Pooled

section Invariance
variable {K : Type} [Field K] [LinearOrder K] [IsStrictOrderedRing K] {sqrt : K → K}

/-- A cluster whose pairs stand in another order, each as often as the others. -/
def Repeats (c c' : List (K × K)) : Prop := ∃ k, 0 < k ∧ c'.Perm (List.replicate k c).flatten

omit [Field K] [LinearOrder K] [IsStrictOrderedRing K] in
theorem Repeats.eq_nil_iff {c c' : List (K × K)} (h : Repeats c c') : c' = [] ↔ c = [] := by
  obtain ⟨k, hk, hperm⟩ := h
  rw [← List.length_eq_zero_iff, hperm.length_eq, List.length_flatten, List.map_replicate,
    List.sum_replicate, smul_eq_mul, Nat.mul_eq_zero, List.length_eq_zero_iff]
  exact or_iff_right hk.ne'

omit [LinearOrder K] in
theorem Repeats.rowOf [CharZero K] {c c' : List (K × K)} (h : Repeats c c') :
    Calibration.rowOf c' = Calibration.rowOf c := by
  obtain ⟨k, hk, hperm⟩ := h
  rw [Calibration.rowOf, mean_perm hperm, mean_replicate c hk, Calibration.rowOf]

omit [IsStrictOrderedRing K] in
theorem unclampedCorrelation_perm {rows rows' : List (MomentRow K)} (h : rows.Perm rows') :
    unclampedCorrelation sqrt rows = unclampedCorrelation sqrt rows' := by
  have hsum : ∀ f : MomentRow K → K, (rows.map f).sum = (rows'.map f).sum := fun f => (h.map f).sum_eq
  simp only [unclampedCorrelation, hsum]

/-- Copies and another order of the pairs, and another order of the clusters, change nothing. -/
theorem clusterWeightedCorrelation_repeats {clusters mid clusters' : List (List (K × K))}
    (h : List.Forall₂ Repeats clusters mid) (hperm : mid.Perm clusters') :
    clusterWeightedCorrelation sqrt clusters' = clusterWeightedCorrelation sqrt clusters := by
  have hnil : [] ∈ mid ↔ [] ∈ clusters := by
    clear hperm
    induction h with
    | nil => exact Iff.rfl
    | cons hc _ ih =>
      rw [List.mem_cons, List.mem_cons, ih, eq_comm, hc.eq_nil_iff, eq_comm]
  have hrows : mid.map rowOf = clusters.map rowOf := by
    clear hperm hnil
    induction h with
    | nil => rfl
    | cons hc _ ih => rw [List.map_cons, List.map_cons, ih, hc.rowOf]
  by_cases hempty : [] ∈ clusters
  · rw [clusterWeightedCorrelation, clusterWeightedCorrelation, mapM_clusterMoments_error hempty,
      mapM_clusterMoments_error (hperm.mem_iff.mp (hnil.mpr hempty))]
  · have hnone : ∀ c ∈ clusters, c ≠ [] := fun c hc => ne_of_mem_of_not_mem hc hempty
    have hnone' : ∀ c ∈ clusters', c ≠ [] := by
      rw [← hnil, hperm.mem_iff] at hempty
      exact fun c hc => ne_of_mem_of_not_mem hc hempty
    rw [clusterWeightedCorrelation_eq _ hnone, clusterWeightedCorrelation_eq _ hnone',
      correlationFromMoments, correlationFromMoments, ← hrows,
      unclampedCorrelation_perm (hperm.map rowOf)]

end Invariance

section Pearson
variable {K : Type} [Field K] [LinearOrder K] [IsStrictOrderedRing K]
variable (pairs : List (K × K))

def singletons (pairs : List (K × K)) : List (List (K × K)) := pairs.map fun pair => [pair]

omit [LinearOrder K] [IsStrictOrderedRing K] in
theorem pooled_singletons (f : K × K → K) : pooled (singletons pairs) f = (pairs.map f).sum := by
  have hmean : ∀ pair : K × K, mean [pair] f = f pair := by
    intro pair
    change ([pair].map f).sum / (([pair].length : Nat) : K) = f pair
    simp
  rw [pooled_apply, singletons, List.map_map]
  exact congrArg List.sum (List.map_congr_left fun pair _ => hmean pair)

omit [Field K] [LinearOrder K] [IsStrictOrderedRing K] in
theorem singletons_ne_nil : ∀ c ∈ singletons pairs, c ≠ [] := by
  intro c hc
  obtain ⟨pair, _, rfl⟩ := List.mem_map.mp hc
  exact List.cons_ne_nil _ _

theorem central_singletons (hne : pairs ≠ []) (u v : K × K → K) :
    central (pooled (singletons pairs)) u v =
      (pairs.map fun pair => (u pair - (pairs.map u).sum / pairs.length) *
        (v pair - (pairs.map v).sum / pairs.length)).sum := by
  have hone : pooled (singletons pairs) (1 : K × K → K) = pairs.length := by
    rw [pooled_one (singletons_ne_nil pairs), singletons, List.length_map]
  have hpos : pooled (singletons pairs) (1 : K × K → K) ≠ 0 := by
    rw [hone]
    exact Nat.cast_ne_zero.mpr (List.length_pos_iff.mpr hne).ne'
  rw [central_eq hpos, hone, pooled_singletons, pooled_singletons, pooled_singletons]

theorem eq_of_variance_zero (hne : pairs ≠ []) {f : K × K → K}
    (h : variance (singletons pairs) f = 0) : (pairs.map f).dedup.length < 2 := by
  rw [variance, central_singletons pairs hne] at h
  have hnonneg : ∀ x ∈ pairs.map fun pair => (f pair - (pairs.map f).sum / pairs.length) *
      (f pair - (pairs.map f).sum / pairs.length), 0 ≤ x := by
    intro x hx
    obtain ⟨pair, _, rfl⟩ := List.mem_map.mp hx
    exact mul_self_nonneg _
  have hmean : ∀ pair ∈ pairs, f pair = (pairs.map f).sum / pairs.length := by
    intro pair hpair
    have hle := List.single_le_sum hnonneg _ (List.mem_map_of_mem hpair)
    exact sub_eq_zero.mp (mul_self_eq_zero.mp (le_antisymm (hle.trans h.le) (mul_self_nonneg _)))
  have hsub : (pairs.map f).dedup ⊆ [(pairs.map f).sum / pairs.length] := by
    intro x hx
    obtain ⟨pair, hpair, rfl⟩ := List.mem_map.mp (List.mem_dedup.mp hx)
    exact List.mem_singleton.mpr (hmean pair hpair)
  exact Nat.lt_succ_of_le (List.subperm_of_subset (List.nodup_dedup _) hsub).length_le

variable {pairs} {sqrt : K → K}

theorem clusterWeightedCorrelation_singletons (hroot : ∀ x, 0 ≤ x → 0 ≤ sqrt x ∧ sqrt x * sqrt x = x)
    (hlength : 3 ≤ pairs.length) (hx : 2 ≤ (pairs.map Prod.fst).dedup.length)
    (hy : 2 ≤ (pairs.map Prod.snd).dedup.length) :
    ∃ r, clusterWeightedCorrelation sqrt (singletons pairs) = .ok (some r) ∧
      correlation sqrt (pairs.map Prod.fst) (pairs.map Prod.snd) = some r := by
  have hne : pairs ≠ [] := by
    rintro rfl
    simp at hlength
  have hx0 : variance (singletons pairs) Prod.fst ≠ 0 :=
    fun h => absurd (eq_of_variance_zero pairs hne h) (by omega)
  have hy0 : variance (singletons pairs) Prod.snd ≠ 0 :=
    fun h => absurd (eq_of_variance_zero pairs hne h) (by omega)
  rcases unclampedCorrelation_cases hroot (singletons_ne_nil pairs) with
    ⟨hzero, -⟩ | ⟨-, r, hr, hsquare, hvalue⟩
  · exact absurd hzero (by simp [hx0, hy0])
  · refine ⟨r, ?_, ?_⟩
    · rw [clusterWeightedCorrelation_eq _ (singletons_ne_nil pairs), correlationFromMoments, hr,
        Option.map_some, clamp_eq hsquare]
    · have hdeviation : ∀ f : K × K → K, ((pairs.map f).map fun x =>
          (x - (pairs.map f).sum / (pairs.map f).length) ^ 2).sum = variance (singletons pairs) f := by
        intro f
        rw [variance, central_singletons pairs hne, List.map_map, List.length_map]
        refine congrArg List.sum (List.map_congr_left fun pair _ => ?_)
        rw [Function.comp_apply, pow_two]
      have hproduct : (List.zipWith (fun x y =>
          (x - (pairs.map Prod.fst).sum / (pairs.map Prod.fst).length) *
            (y - (pairs.map Prod.snd).sum / (pairs.map Prod.snd).length))
          (pairs.map Prod.fst) (pairs.map Prod.snd)).sum = covariance (singletons pairs) := by
        rw [covariance, central_singletons pairs hne, List.zipWith_map, List.zipWith_self,
          List.length_map, List.length_map]
      have hroot0 : sqrt (variance (singletons pairs) Prod.fst *
          variance (singletons pairs) Prod.snd) ≠ 0 := by
        have hnonneg := variance_nonneg (singletons_ne_nil pairs)
          (by simpa [singletons] using hne)
        rw [Ne, sqrt_eq_zero hroot (mul_nonneg (hnonneg _) (hnonneg _)), mul_eq_zero]
        simp [hx0, hy0]
      have henough : ¬ ((pairs.map Prod.fst).length < 3 ∨ (pairs.map Prod.fst).dedup.length < 2 ∨
          (pairs.map Prod.snd).dedup.length < 2) := by
        rw [List.length_map]
        omega
      rw [correlation, if_neg henough]
      dsimp only
      rw [hdeviation, hdeviation, hproduct, if_neg hroot0, hvalue]

end Pearson

/-- The spread of one coordinate, between the clusters and within them, is zero. -/
def Constant {K : Type} [Field K] (clusters : List (List (K × K))) (coordinate : K × K → K) : Prop :=
  between clusters coordinate = 0 ∧ within clusters coordinate = 0

theorem variance_eq_zero_iff {K : Type} [Field K] [LinearOrder K] [IsStrictOrderedRing K]
    {clusters : List (List (K × K))} (h : ∀ c ∈ clusters, c ≠ []) (f : K × K → K) :
    variance clusters f = 0 ↔ Constant clusters f := by
  by_cases hne : clusters = []
  · subst hne
    simp [variance, central, pooled, Constant, between, within]
  · rw [variance, central_pooled h hne,
      add_eq_zero_iff_of_nonneg (between_nonneg _ _) (within_nonneg _ _), Constant]

theorem real_root (x : ℝ) (h : 0 ≤ x) : 0 ≤ √x ∧ √x * √x = x :=
  ⟨Real.sqrt_nonneg x, Real.mul_self_sqrt h⟩

/-- Over the reals: on at least three single pairs that vary the correlation is the plain one; it
does not change when the pairs of clusters are copied or reordered, nor when the clusters are; its
square is at most 1 before the clamp, which changes nothing; and it is undefined exactly when a
coordinate has no spread. -/
theorem clusterWeightedCorrelation_spec :
    (∀ pairs : List (ℝ × ℝ), 3 ≤ pairs.length → 2 ≤ (pairs.map Prod.fst).dedup.length →
      2 ≤ (pairs.map Prod.snd).dedup.length →
        ∃ r, clusterWeightedCorrelation Real.sqrt (singletons pairs) = .ok (some r) ∧
          correlation Real.sqrt (pairs.map Prod.fst) (pairs.map Prod.snd) = some r) ∧
    (∀ clusters mid clusters' : List (List (ℝ × ℝ)), List.Forall₂ Repeats clusters mid →
      mid.Perm clusters' → clusterWeightedCorrelation Real.sqrt clusters' =
        clusterWeightedCorrelation Real.sqrt clusters) ∧
    ∀ clusters : List (List (ℝ × ℝ)), (∀ c ∈ clusters, c ≠ []) →
      ∃ rows, clusters.mapM clusterMoments = .ok rows ∧
        (∀ r, unclampedCorrelation Real.sqrt rows = some r →
          r ^ 2 ≤ 1 ∧ clusterWeightedCorrelation Real.sqrt clusters = .ok (some r)) ∧
        (clusterWeightedCorrelation Real.sqrt clusters = .ok none ↔
          Constant clusters Prod.fst ∨ Constant clusters Prod.snd) := by
  refine ⟨fun pairs hlength hx hy => clusterWeightedCorrelation_singletons real_root hlength hx hy,
    fun clusters mid clusters' h hperm => clusterWeightedCorrelation_repeats h hperm,
    fun clusters h => ⟨_, mapM_clusterMoments h, ?_⟩⟩
  rw [clusterWeightedCorrelation_eq _ h, correlationFromMoments, ← variance_eq_zero_iff h,
    ← variance_eq_zero_iff h]
  rcases unclampedCorrelation_cases real_root h with ⟨hzero, hnone⟩ | ⟨hvary, r, hr, hsquare, -⟩
  · rw [hnone]
    exact ⟨fun r hr => absurd hr (by simp), iff_of_true rfl hzero⟩
  · rw [hr, Option.map_some, clamp_eq hsquare]
    refine ⟨fun r' hr' => ?_, iff_of_false (by simp) (by simp [hvary])⟩
    obtain rfl := Option.some.inj hr'
    exact ⟨hsquare, rfl⟩

theorem correlation_half : correlation Real.sqrt [(0 : ℝ), 1, 2] [0, 2, 1] = some (1 / 2) := by
  have hxs : 2 ≤ [(0 : ℝ), 1, 2].dedup.length := by norm_num [List.dedup_cons_of_notMem]
  have hys : 2 ≤ [(0 : ℝ), 2, 1].dedup.length := by norm_num [List.dedup_cons_of_notMem]
  have hsqrt : Real.sqrt 4 = 2 := by
    rw [show (4 : ℝ) = 2 ^ 2 by norm_num, Real.sqrt_sq (by norm_num)]
  rw [correlation, if_neg (by simp)]
  norm_num [hsqrt]

/-- Three points with Pearson's coefficient 1/2, and three copies of one of two pairs. -/
theorem clusterWeightedCorrelation_half :
    clusterWeightedCorrelation Real.sqrt (singletons [(0, 0), (1, 2), (2, 1)]) =
        .ok (some (1 / 2)) ∧
      clusterWeightedCorrelation Real.sqrt [[(1, 2), (1, 2), (1, 2)], [(0, 0)], [(2, 1)]] =
        clusterWeightedCorrelation Real.sqrt [[(0, 0)], [(1, 2)], [(2, 1)]] := by
  obtain ⟨hsingle, hrepeats, -⟩ := clusterWeightedCorrelation_spec
  constructor
  · obtain ⟨r, hr, hpearson⟩ := hsingle [(0, 0), (1, 2), (2, 1)] (by simp)
      (by norm_num [List.dedup_cons_of_notMem]) (by norm_num [List.dedup_cons_of_notMem])
    obtain rfl : r = 1 / 2 := Option.some.inj (hpearson.symm.trans correlation_half)
    exact hr
  · refine hrepeats [[(0, 0)], [(1, 2)], [(2, 1)]]
      [[(0, 0)], [(1, 2), (1, 2), (1, 2)], [(2, 1)]] _ ?_ (.swap _ _ _)
    exact .cons ⟨1, by norm_num, .refl _⟩
      (.cons ⟨3, by norm_num, .refl _⟩ (.cons ⟨1, by norm_num, .refl _⟩ .nil))

end Calibration
