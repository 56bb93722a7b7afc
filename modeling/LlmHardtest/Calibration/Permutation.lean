import LlmHardtest.Community.PairedComparison
import LlmHardtest.Library.Selections
set_option autoImplicit false

/-! The label permutation test of a held-out difference between two groups. -/

namespace Calibration
open Python
open Community (HashSampler ceilP)
open Round5 (average)

def itemPairEffectThreshold : ℚ := 1 / 10
def familywiseAlpha : ℚ := 1 / 20
def exactPermutationLimit : Nat := 100000
def monteCarloSamples : Nat := 20000
def permutationTolerance : ℚ := 1 / 10 ^ 12

inductive PermutationMethod where
  | exact | monteCarlo
  deriving DecidableEq, Repr

structure PermutationTest where
  pValue : ℚ
  method : PermutationMethod
  assignments : Nat
  evaluatedPermutations : Nat
  extremePermutations : Nat
  deriving DecidableEq, Repr

/-- The difference of the means when `selectedSum` goes to `count` of the values and the rest of the
total to `others`. -/
def differenceOf (total : ℚ) (count others : Nat) (selectedSum : ℚ) : ℚ :=
  |selectedSum / count - (total - selectedSum) / others|

def isExtremeDifference (observed difference : ℚ) : Bool :=
  decide (observed ≤ difference + permutationTolerance)

/-- `xs[i], xs[j] = xs[j], xs[i]` -/
def exchange (xs : List Nat) (i j : Nat) : List Nat := (xs.set i (xs.getD j 0)).set j (xs.getD i 0)

/-- One step of the partial shuffle; the sampler's choices are counted from `start`. -/
def shuffleStep (sampler : HashSampler) (seed : Str) (start : Nat) (xs : List Nat) (position : Nat) :
    List Nat :=
  exchange xs position (position + sampler seed (start + position) % (xs.length - position))

/-- The indices after the shuffle of draw `draw`. -/
def shuffled (sampler : HashSampler) (seed : Str) (size count draw : Nat) : List Nat :=
  (List.range count).foldl (shuffleStep sampler seed (draw * count)) (List.range size)

def permutationDifferenceTest (sampler : HashSampler) (higher lower : List ℚ) (seed : Str) :
    Outcome PermutationTest :=
  if higher.isEmpty || lower.isEmpty then
    .error (.valueError "permutation test requires two non-empty groups".toList)
  else
    let pooled := higher ++ lower
    let observed := |average higher - average lower|
    let extreme := fun selectedSum => isExtremeDifference observed
      (differenceOf pooled.sum higher.length lower.length selectedSum)
    let assignments := pooled.length.choose higher.length
    if assignments ≤ exactPermutationLimit then
      let count := (pooled.sublistsLen higher.length).countP fun selected => extreme selected.sum
      .ok {
        pValue := ceilP (count / assignments), method := .exact, assignments
        evaluatedPermutations := assignments, extremePermutations := count }
    else
      let count := (List.range monteCarloSamples).countP fun draw =>
        extreme (((shuffled sampler seed pooled.length higher.length draw).take higher.length).map
          fun i => pooled.getD i 0).sum
      .ok {
        pValue := ceilP ((count + 1) / (monteCarloSamples + 1)), method := .monteCarlo, assignments
        evaluatedPermutations := monteCarloSamples, extremePermutations := count }

section Exact
variable {higher lower : List ℚ} {p : ℚ}

theorem ceilP_le_one : ceilP p ≤ 1 := min_le_left _ _

theorem le_ceilP (h : p ≤ 1) : p ≤ ceilP p := by
  refine le_min h ?_
  rw [le_div_iff₀ (by norm_num)]
  exact Int.le_ceil _

theorem one_div_le_ceilP {count total : Nat} (h : 1 ≤ count) (hle : count ≤ total) :
    1 / (total : ℚ) ≤ ceilP (count / total) := by
  have hpos : (0 : ℚ) < total := by exact_mod_cast Nat.lt_of_lt_of_le Nat.zero_lt_one (h.trans hle)
  have hone : (count : ℚ) / total ≤ 1 := by
    rw [div_le_one hpos]
    exact_mod_cast hle
  refine le_trans ?_ (le_ceilP hone)
  rw [div_le_div_iff_of_pos_right hpos]
  exact_mod_cast h

def exactTest (higher lower : List ℚ) : PermutationTest :=
  let pooled := higher ++ lower
  let assignments := pooled.length.choose higher.length
  let count := (Selections.sums higher.length pooled).countP fun selectedSum =>
    isExtremeDifference |average higher - average lower|
      (differenceOf pooled.sum higher.length lower.length selectedSum) = true
  { pValue := ceilP (count / assignments), method := .exact, assignments
    evaluatedPermutations := assignments, extremePermutations := count }

theorem permutationDifferenceTest_exact {sampler : HashSampler} {seed : Str} (hh : higher ≠ [])
    (hl : lower ≠ [])
    (hsize : (higher ++ lower).length.choose higher.length ≤ exactPermutationLimit) :
    permutationDifferenceTest sampler higher lower seed = .ok (exactTest higher lower) := by
  have hempty : (higher.isEmpty || lower.isEmpty) = false := by simp [hh, hl]
  have hcount : ∀ q : ℚ → Bool, ((higher ++ lower).sublistsLen higher.length).countP
      (fun selected => q selected.sum) =
      (Selections.sums higher.length (higher ++ lower)).countP fun s => q s = true := by
    intro q
    rw [Selections.sums, Multiset.coe_countP, List.countP_map]
    congr 1
    funext selected
    simp
  rw [permutationDifferenceTest, hempty, if_neg Bool.false_ne_true, if_pos hsize]
  dsimp only [exactTest]
  rw [hcount fun s => isExtremeDifference |average higher - average lower|
    (differenceOf (higher ++ lower).sum higher.length lower.length s)]

@[simp] theorem exactTest_assignments :
    (exactTest higher lower).assignments = (higher ++ lower).length.choose higher.length := rfl

theorem exactTest_comm : exactTest lower higher = exactTest higher lower := by
  have hperm : (lower ++ higher).Perm (higher ++ lower) := List.perm_append_comm
  have hlength : higher.length + lower.length = (higher ++ lower).length := List.length_append.symm
  have hsums : Selections.sums lower.length (lower ++ higher) =
      (Selections.sums higher.length (higher ++ lower)).map fun s => (higher ++ lower).sum - s := by
    rw [Selections.sums_perm hperm]
    exact Selections.sums_compl (by omega)
  have hassign : (lower ++ higher).length.choose lower.length =
      (higher ++ lower).length.choose higher.length := by
    rw [hperm.length_eq, ← hlength]
    exact Nat.choose_symm_of_eq_add rfl |>.symm
  have hcount : (Selections.sums lower.length (lower ++ higher)).countP (fun selectedSum =>
        isExtremeDifference |average lower - average higher|
          (differenceOf (lower ++ higher).sum lower.length higher.length selectedSum) = true) =
      (Selections.sums higher.length (higher ++ lower)).countP fun selectedSum =>
        isExtremeDifference |average higher - average lower|
          (differenceOf (higher ++ lower).sum higher.length lower.length selectedSum) = true := by
    rw [hsums, Multiset.countP_map, Multiset.countP_eq_card_filter]
    congr 1
    refine Multiset.filter_congr fun s _ => ?_
    have hdifference : differenceOf (lower ++ higher).sum lower.length higher.length
        ((higher ++ lower).sum - s) =
        differenceOf (higher ++ lower).sum higher.length lower.length s := by
      rw [differenceOf, differenceOf, hperm.sum_eq, sub_sub_cancel, abs_sub_comm]
    rw [hdifference, abs_sub_comm (average lower)]
  unfold exactTest
  dsimp only
  rw [hassign, hcount]

theorem exactTest_perm {higher' lower' : List ℚ} (hh : higher'.Perm higher) (hl : lower'.Perm lower) :
    exactTest higher' lower' = exactTest higher lower := by
  have hpooled := hh.append hl
  have haverage : ∀ {l l' : List ℚ}, l'.Perm l → average l' = average l := by
    intro l l' h
    rw [average, average, h.sum_eq, h.length_eq]
  unfold exactTest
  dsimp only
  rw [Selections.sums_perm hpooled, hpooled.length_eq, hpooled.sum_eq, hh.length_eq, hl.length_eq,
    haverage hh, haverage hl]

/-- The labels as they are count as extreme. -/
theorem exactTest_extreme : 1 ≤ (exactTest higher lower).extremePermutations := by
  refine Multiset.countP_pos.mpr ⟨higher.sum, Selections.sum_mem_sums (List.sublist_append_left _ _), ?_⟩
  have hdifference : differenceOf (higher ++ lower).sum higher.length lower.length higher.sum =
      |average higher - average lower| := by
    rw [differenceOf, List.sum_append, add_sub_cancel_left, average, average]
  rw [hdifference, isExtremeDifference, decide_eq_true_eq, le_add_iff_nonneg_right,
    permutationTolerance]
  positivity

theorem exactTest_extreme_le :
    (exactTest higher lower).extremePermutations ≤ (exactTest higher lower).assignments := by
  rw [exactTest]
  exact (Multiset.countP_le_card _ _).trans_eq (Selections.card_sums _ _)

theorem exactTest_pValue :
    1 / ((exactTest higher lower).assignments : ℚ) ≤ (exactTest higher lower).pValue :=
  one_div_le_ceilP exactTest_extreme exactTest_extreme_le

end Exact

section MonteCarlo
variable (sampler : HashSampler) (seed : Str)

theorem exchange_perm {xs : List Nat} {i j : Nat} (hi : i < xs.length) (hj : j < xs.length) :
    (exchange xs i j).Perm xs := by
  rw [exchange, List.getD_eq_getElem _ _ hi, List.getD_eq_getElem _ _ hj]
  exact List.set_set_perm hi hj

theorem shuffleStep_perm {start position : Nat} {xs : List Nat} (h : position < xs.length) :
    (shuffleStep sampler seed start xs position).Perm xs := by
  refine exchange_perm h ?_
  have hmod := Nat.mod_lt (sampler seed (start + position)) (Nat.sub_pos_of_lt h)
  omega

theorem foldl_shuffleStep_perm {start : Nat} (positions : List Nat) {xs : List Nat}
    (h : ∀ position ∈ positions, position < xs.length) :
    (positions.foldl (shuffleStep sampler seed start) xs).Perm xs := by
  induction positions generalizing xs with
  | nil => exact .refl _
  | cons position positions ih =>
    have hstep : (shuffleStep sampler seed start xs position).Perm xs :=
      shuffleStep_perm sampler seed (h position (by simp))
    refine (ih fun other hother => ?_).trans hstep
    rw [hstep.length_eq]
    exact h other (by simp [hother])

/-- Every pooled index stands in a draw exactly once. -/
theorem shuffled_perm {size count draw : Nat} (h : count ≤ size) :
    (shuffled sampler seed size count draw).Perm (List.range size) := by
  refine foldl_shuffleStep_perm sampler seed _ fun position hposition => ?_
  rw [List.length_range]
  exact (List.mem_range.mp hposition).trans_le h

theorem map_getD_range (values : List ℚ) :
    (List.range values.length).map (fun i => values.getD i 0) = values := by
  refine List.ext_getElem (by simp) fun i _ hi => ?_
  rw [List.getElem_map, List.getElem_range, List.getD_eq_getElem _ _ hi]

theorem permutationDifferenceTest_monteCarlo {higher lower : List ℚ} (hh : higher ≠ [])
    (hl : lower ≠ [])
    (hsize : ¬ (higher ++ lower).length.choose higher.length ≤ exactPermutationLimit) :
    ∃ test, permutationDifferenceTest sampler higher lower seed = .ok test ∧
      0 < test.pValue ∧ test.pValue ≤ 1 ∧
      test.assignments = (higher ++ lower).length.choose higher.length := by
  have hempty : (higher.isEmpty || lower.isEmpty) = false := by simp [hh, hl]
  rw [permutationDifferenceTest, hempty, if_neg Bool.false_ne_true]
  dsimp only
  rw [if_neg hsize]
  refine ⟨_, rfl, ?_, ceilP_le_one, rfl⟩
  have hcount : ∀ q : Nat → Bool, (List.range monteCarloSamples).countP q + 1 ≤
      monteCarloSamples + 1 := by
    intro q
    have hle : (List.range monteCarloSamples).countP q ≤ _ := List.countP_le_length
    rw [List.length_range] at hle
    omega
  have hsamples : (0 : ℚ) < 1 / ((monteCarloSamples + 1 : Nat) : ℚ) := by positivity
  refine lt_of_lt_of_le hsamples ?_
  dsimp only
  have hbound := one_div_le_ceilP (Nat.le_add_left 1 _) (hcount fun draw =>
    isExtremeDifference |average higher - average lower|
      (differenceOf (higher ++ lower).sum higher.length lower.length
        (((shuffled sampler seed (higher ++ lower).length higher.length draw).take
          higher.length).map fun i => (higher ++ lower).getD i 0).sum))
  rw [Nat.cast_add_one, Nat.cast_add_one] at hbound
  rw [Nat.cast_add_one]
  exact hbound

end MonteCarlo

/-- On two non-empty groups the test returns a p-value in `(0, 1]`. In the exact branch it is the
test of the exchanged groups and of the groups in another order, whatever the seed, and the labels
as they are count as one of the extreme ones; a Monte Carlo draw has every index exactly once. -/
theorem permutationDifferenceTest_spec (sampler : HashSampler) (higher lower : List ℚ) (seed : Str)
    (hh : higher ≠ []) (hl : lower ≠ []) :
    ∃ test, permutationDifferenceTest sampler higher lower seed = .ok test ∧
      0 < test.pValue ∧ test.pValue ≤ 1 ∧
      test.assignments = (higher.length + lower.length).choose higher.length ∧
      (test.assignments ≤ exactPermutationLimit →
        (∀ other, permutationDifferenceTest sampler lower higher other = .ok test) ∧
        (∀ higher' lower' other, higher'.Perm higher → lower'.Perm lower →
          permutationDifferenceTest sampler higher' lower' other = .ok test) ∧
        1 ≤ test.extremePermutations ∧ test.extremePermutations ≤ test.assignments ∧
        1 / (test.assignments : ℚ) ≤ test.pValue) ∧
      ∀ draw, (shuffled sampler seed (higher ++ lower).length higher.length draw).Perm
          (List.range (higher ++ lower).length) ∧
        ((shuffled sampler seed (higher ++ lower).length higher.length draw).map
          fun i => (higher ++ lower).getD i 0).Perm (higher ++ lower) := by
  have hperm : ∀ draw, (shuffled sampler seed (higher ++ lower).length higher.length draw).Perm
        (List.range (higher ++ lower).length) ∧
      ((shuffled sampler seed (higher ++ lower).length higher.length draw).map
        fun i => (higher ++ lower).getD i 0).Perm (higher ++ lower) := by
    intro draw
    have hindices : (shuffled sampler seed (higher ++ lower).length higher.length draw).Perm
        (List.range (higher ++ lower).length) := shuffled_perm sampler seed
      (List.length_append.symm ▸ Nat.le_add_right higher.length lower.length)
    exact ⟨hindices, (hindices.map _).trans (by rw [map_getD_range])⟩
  by_cases hsize : (higher ++ lower).length.choose higher.length ≤ exactPermutationLimit
  · have hpositive : (0 : ℚ) < 1 / ((exactTest higher lower).assignments : ℚ) := by
      have hle : 1 ≤ (exactTest higher lower).assignments :=
        exactTest_extreme.trans exactTest_extreme_le
      positivity
    refine ⟨_, permutationDifferenceTest_exact hh hl hsize, hpositive.trans_le exactTest_pValue,
      ceilP_le_one, congrArg (Nat.choose · _) List.length_append, fun _ => ⟨?_, ?_,
      exactTest_extreme, exactTest_extreme_le, exactTest_pValue⟩, hperm⟩
    · intro other
      rw [permutationDifferenceTest_exact hl hh, exactTest_comm]
      rwa [← exactTest_assignments, exactTest_comm]
    · intro higher' lower' other hhigher hlower
      rw [permutationDifferenceTest_exact, exactTest_perm hhigher hlower]
      · rintro rfl
        exact hh hhigher.nil_eq.symm
      · rintro rfl
        exact hl hlower.nil_eq.symm
      · rwa [← exactTest_assignments, exactTest_perm hhigher hlower]
  · obtain ⟨test, htest, hpos, hone, hassignments⟩ :=
      permutationDifferenceTest_monteCarlo sampler seed hh hl hsize
    refine ⟨test, htest, hpos, hone, by rw [hassignments, List.length_append], ?_, hperm⟩
    intro hle
    exact absurd (hassignments ▸ hle) hsize

theorem permutationDifferenceTest_oneAgainstTwo :
    ∃ test, permutationDifferenceTest (fun _ n => n) [1] [0, 1 / 2] [] = .ok test ∧
      0 < test.pValue ∧ test.pValue ≤ 1 := by
  obtain ⟨test, htest, hpos, hone, -⟩ :=
    permutationDifferenceTest_spec (fun _ n => n) [1] [0, 1 / 2] [] (by simp) (by simp)
  exact ⟨test, htest, hpos, hone⟩

end Calibration
