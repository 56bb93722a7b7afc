import Mathlib
set_option autoImplicit false

/-! Step-down adjustment of ordered p-values: the loops that compute it and the form they share. -/

namespace StepDown

section Products
variable {K : Type} [Field K]

/-- The products of the first `i + 1` values with their factors. -/
def products (factor : K) (ps : List K) (i : Nat) : Set K :=
  {x | ∃ j ≤ i, x = ps.getD j 0 * (factor - j)}

theorem products_mono {factor : K} {ps : List K} {i j : Nat} (h : i ≤ j) :
    products factor ps i ⊆ products factor ps j := by
  rintro x ⟨k, hk, rfl⟩
  exact ⟨k, hk.trans h, rfl⟩

end Products

variable {K : Type} [Field K] [LinearOrder K]

/-- The loop that clips a value and then takes the maximum with the one before it. -/
def clipThenMax : K → K → List K → List K
  | _, _, [] => []
  | previous, factor, p :: ps =>
      max previous (min 1 (p * factor)) ::
        clipThenMax (max previous (min 1 (p * factor))) (factor - 1) ps

/-- The loop that takes the maximum with the value before and then clips. -/
def maxThenClip : K → K → List K → List K
  | _, _, [] => []
  | previous, factor, p :: ps =>
      min 1 (max previous (p * factor)) ::
        maxThenClip (min 1 (max previous (p * factor))) (factor - 1) ps

theorem maxThenClip_eq {previous factor : K} (ps : List K) (h : previous ≤ 1) :
    maxThenClip previous factor ps = clipThenMax previous factor ps := by
  induction ps generalizing previous factor with
  | nil => rfl
  | cons p ps ih =>
    have hvalue : min 1 (max previous (p * factor)) = max previous (min 1 (p * factor)) := by
      rw [min_max_distrib_left, min_eq_right h]
    rw [maxThenClip, clipThenMax, hvalue, ih (max_le h (min_le_left _ _))]

theorem length_clipThenMax (previous factor : K) (ps : List K) :
    (clipThenMax previous factor ps).length = ps.length := by
  induction ps generalizing previous factor with
  | nil => rfl
  | cons p ps ih => rw [clipThenMax, List.length_cons, ih, List.length_cons]

section Form
variable [IsStrictOrderedRing K]

theorem clipThenMax_getD (previous factor : K) {ps : List K} {i : Nat} (h : i < ps.length) :
    ∃ best, IsGreatest (products factor ps i) best ∧
      (clipThenMax previous factor ps).getD i 0 = max previous (min 1 best) := by
  induction ps generalizing previous factor i with
  | nil => cases h
  | cons p ps ih =>
    cases i with
    | zero =>
      refine ⟨p * factor, ⟨⟨0, le_rfl, by simp⟩, ?_⟩, rfl⟩
      rintro x ⟨j, hj, rfl⟩
      obtain rfl : j = 0 := by omega
      simp
    | succ i =>
      obtain ⟨best, ⟨⟨j, hj, hbest⟩, hgreatest⟩, hvalue⟩ :=
        ih (max previous (min 1 (p * factor))) (factor - 1) (Nat.lt_of_succ_lt_succ h)
      refine ⟨max (p * factor) best, ⟨?_, ?_⟩, ?_⟩
      · rcases max_choice (p * factor) best with hmax | hmax
        · exact ⟨0, by omega, by rw [hmax]; simp⟩
        · refine ⟨j + 1, by omega, ?_⟩
          rw [hmax, hbest, List.getD_cons_succ]
          push_cast
          ring
      · rintro x ⟨k, hk, rfl⟩
        cases k with
        | zero => simp
        | succ k =>
          refine le_max_of_le_right (le_trans (le_of_eq ?_) (hgreatest ⟨k, by omega, rfl⟩))
          rw [List.getD_cons_succ]
          push_cast
          ring
      · rw [clipThenMax, List.getD_cons_succ, hvalue, min_max_distrib_left, max_assoc]

/-- The values that step-down adjustment with `family` hypotheses gives to ordered ones. -/
structure Adjusted (family : Nat) (ps values : List K) : Prop where
  length : values.length = ps.length
  closed : ∀ i < ps.length, ∃ best, IsGreatest (products (family : K) ps i) best ∧
    values.getD i 0 = min 1 best

theorem adjusted_clipThenMax {family : Nat} {ps : List K} (hsize : ps.length ≤ family)
    (hnonneg : ∀ p ∈ ps, 0 ≤ p) : Adjusted family ps (clipThenMax 0 (family : K) ps) := by
  refine ⟨length_clipThenMax _ _ _, fun i hi => ?_⟩
  obtain ⟨best, hbest, hvalue⟩ := clipThenMax_getD 0 (family : K) hi
  refine ⟨best, hbest, ?_⟩
  have hfirst : ps.getD 0 0 * ((family : K) - (0 : Nat)) ≤ best := hbest.2 ⟨0, Nat.zero_le i, rfl⟩
  have hpos : 0 ≤ ps.getD 0 0 := by
    cases ps with
    | nil => exact le_rfl
    | cons p ps => exact hnonneg p (by simp)
  have hzero : 0 ≤ best := by
    refine le_trans (mul_nonneg hpos ?_) hfirst
    simp
  rw [hvalue, max_eq_right (le_min zero_le_one hzero)]

section Consequences
variable {family : Nat} {ps values : List K}

omit [IsStrictOrderedRing K] in
theorem Adjusted.mono (ha : Adjusted family ps values) {i j : Nat} (h : i ≤ j) (hj : j < ps.length) :
    values.getD i 0 ≤ values.getD j 0 := by
  obtain ⟨best, hbest, hvalue⟩ := ha.closed i (by omega)
  obtain ⟨best', hbest', hvalue'⟩ := ha.closed j hj
  rw [hvalue, hvalue']
  exact min_le_min le_rfl (hbest.mono hbest' (products_mono h))

theorem Adjusted.raw_le (ha : Adjusted family ps values) (hsize : ps.length ≤ family) {i : Nat}
    (hi : i < ps.length) (hnonneg : 0 ≤ ps.getD i 0) (hone : ps.getD i 0 ≤ 1) :
    ps.getD i 0 ≤ values.getD i 0 := by
  obtain ⟨best, hbest, hvalue⟩ := ha.closed i hi
  have hfactor : (1 : K) ≤ (family : K) - i := by
    have hcast : ((i + 1 : Nat) : K) ≤ (family : K) := by exact_mod_cast hi.trans_le hsize
    push_cast at hcast
    linarith
  rw [hvalue]
  refine le_min hone (le_trans ?_ (hbest.2 ⟨i, le_rfl, rfl⟩))
  exact le_mul_of_one_le_right hnonneg hfactor

theorem Adjusted.tie (ha : Adjusted family ps values) {i j : Nat} (h : i ≤ j)
    (hj : j < ps.length) (hnonneg : 0 ≤ ps.getD i 0)
    (htie : ∀ k, i ≤ k → k ≤ j → ps.getD k 0 = ps.getD i 0) : values.getD i 0 = values.getD j 0 := by
  obtain ⟨best, hbest, hvalue⟩ := ha.closed i (by omega)
  obtain ⟨best', hbest', hvalue'⟩ := ha.closed j hj
  have hle : best' ≤ best := by
    obtain ⟨k, hk, rfl⟩ := hbest'.1
    by_cases hki : k ≤ i
    · exact hbest.2 ⟨k, hki, rfl⟩
    · refine le_trans ?_ (hbest.2 ⟨i, le_rfl, rfl⟩)
      rw [htie k (by omega) hk]
      refine mul_le_mul_of_nonneg_left ?_ hnonneg
      have hcast : (i : K) ≤ k := by exact_mod_cast (by omega : i ≤ k)
      linarith
  rw [hvalue, hvalue', le_antisymm (hbest.mono hbest' (products_mono h)) hle]

omit [IsStrictOrderedRing K] in
theorem getD_le_of_sorted (hsorted : ps.Pairwise (· ≤ ·)) {i j : Nat} (h : i ≤ j) (hj : j < ps.length) :
    ps.getD i 0 ≤ ps.getD j 0 := by
  rcases h.eq_or_lt with rfl | hlt
  · exact le_rfl
  · rw [List.getD_eq_getElem _ _ (hlt.trans hj), List.getD_eq_getElem _ _ hj]
    exact List.pairwise_iff_getElem.mp hsorted i j (hlt.trans hj) hj hlt

/-- A value that is not larger is not adjusted to a larger one, whatever the order of ties. -/
theorem Adjusted.mono_raw (ha : Adjusted family ps values) (hsorted : ps.Pairwise (· ≤ ·)) {i j : Nat}
    (hi : i < ps.length) (hj : j < ps.length) (hnonneg : 0 ≤ ps.getD j 0)
    (h : ps.getD i 0 ≤ ps.getD j 0) : values.getD i 0 ≤ values.getD j 0 := by
  rcases le_total i j with hij | hji
  · exact ha.mono hij hj
  · refine (ha.tie hji hi hnonneg fun k hk hki => le_antisymm ?_ ?_).ge
    · exact (getD_le_of_sorted hsorted hki hi).trans h
    · exact getD_le_of_sorted hsorted hk (by omega)

end Consequences

def closedForm (family : Nat) (ps : List K) (i : Nat) : K :=
  min 1 ((Finset.range (i + 1)).sup' (Finset.nonempty_range_add_one) fun j =>
    ps.getD j 0 * ((family : K) - j))

omit [IsStrictOrderedRing K] in
theorem closedForm_eq {family : Nat} {ps : List K} {i : Nat} {best : K}
    (h : IsGreatest (products (family : K) ps i) best) : closedForm family ps i = min 1 best := by
  obtain ⟨⟨j, hj, hbest⟩, hgreatest⟩ := h
  refine congrArg (min 1) (le_antisymm ?_ ?_)
  · refine Finset.sup'_le _ _ fun k hk => hgreatest ⟨k, ?_, rfl⟩
    exact Nat.lt_succ_iff.mp (Finset.mem_range.mp hk)
  · rw [hbest]
    exact Finset.le_sup' (fun j => ps.getD j 0 * ((family : K) - j))
      (Finset.mem_range.mpr (Nat.lt_succ_iff.mpr hj))

/-- What an adjustment of raw values promises: the value of a raw one depends on nothing else of its
hypothesis, so ties are equal. -/
structure Holm (family : Nat) (raws : List K) (value : K → K) : Prop where
  closed : ∀ i < raws.length, value ((raws.insertionSort (· ≤ ·)).getD i 0) =
    closedForm family (raws.insertionSort (· ≤ ·)) i
  raw_le : ∀ p ∈ raws, p ≤ value p
  mono : ∀ p ∈ raws, ∀ q ∈ raws, p ≤ q → value p ≤ value q

omit [IsStrictOrderedRing K] in
theorem Holm.rejected_first {family : Nat} {raws : List K} {value : K → K} (h : Holm family raws value)
    (rejects : K → Prop) (hrejects : ∀ {v w}, v ≤ w → rejects w → rejects v) :
    ∃ k, ∀ i < raws.length,
      (rejects (value ((raws.insertionSort (· ≤ ·)).getD i 0)) ↔ i < k) := by
  classical
  have hlength : (raws.insertionSort (· ≤ ·)).length = raws.length := List.length_insertionSort _ _
  have hmem : ∀ i < raws.length, (raws.insertionSort (· ≤ ·)).getD i 0 ∈ raws := by
    intro i hi
    rw [List.getD_eq_getElem _ _ (hlength ▸ hi)]
    exact (List.mem_insertionSort _).mp (List.getElem_mem _)
  have hdown : ∀ i j, i ≤ j → j < raws.length →
      rejects (value ((raws.insertionSort (· ≤ ·)).getD j 0)) →
      rejects (value ((raws.insertionSort (· ≤ ·)).getD i 0)) := by
    intro i j hij hj
    refine hrejects (h.mono _ (hmem i (by omega)) _ (hmem j hj) ?_)
    exact getD_le_of_sorted (List.pairwise_insertionSort _ _) hij (hlength ▸ hj)
  have hexists : ∃ k, ∀ i, k ≤ i → i < raws.length →
      ¬ rejects (value ((raws.insertionSort (· ≤ ·)).getD i 0)) :=
    ⟨raws.length, fun i hk hi => by omega⟩
  refine ⟨Nat.find hexists, fun i hi => ⟨fun hreject => ?_, fun hlt => ?_⟩⟩
  · by_contra hge
    exact Nat.find_spec hexists i (by omega) hi hreject
  · have hmin := Nat.find_min hexists hlt
    push Not at hmin
    obtain ⟨j, hij, hj, hreject⟩ := hmin
    exact hdown i j hij hj hreject

section Keyed
variable {κ : Type} [BEq κ] [LawfulBEq κ]

theorem lookup_zip {V : Type} (d : V) {keys : List κ} {values : List V} {i : Nat}
    (hnodup : keys.Nodup) (hlength : values.length = keys.length) (hi : i < keys.length) :
    (keys.zip values).lookup keys[i] = some (values.getD i d) := by
  induction keys generalizing values i with
  | nil => cases hi
  | cons k keys ih =>
    cases values with
    | nil => cases hlength
    | cons v values =>
      cases i with
      | zero => simp
      | succ i =>
        have hi' : i < keys.length := Nat.lt_of_succ_lt_succ hi
        have hne : keys[i] ≠ k := by
          rintro rfl
          exact (List.nodup_cons.mp hnodup).1 (List.getElem_mem hi')
        rw [List.zip_cons_cons, List.getElem_cons_succ, List.lookup_cons, beq_false_of_ne hne,
          List.getD_cons_succ]
        exact ih (List.nodup_cons.mp hnodup).2 (Nat.succ.inj hlength) hi'

/-- The loop over ordered entries gives every key the adjusted value of its raw one, whatever the
order of the entries with equal ones. -/
theorem holm_lookup {entries ordered : List (κ × K)} {family : Nat} (hperm : ordered.Perm entries)
    (hsorted : (ordered.map Prod.snd).Pairwise (· ≤ ·)) (hnodup : (entries.map Prod.fst).Nodup)
    (hsize : entries.length ≤ family) (hraw : ∀ p ∈ entries.map Prod.snd, 0 ≤ p ∧ p ≤ 1) :
    ∃ value, Holm family (entries.map Prod.snd) value ∧ ∀ e ∈ entries,
      ((ordered.map Prod.fst).zip (clipThenMax 0 (family : K) (ordered.map Prod.snd))).lookup e.1 =
        some (value e.2) := by
  have hpsort : (entries.map Prod.snd).insertionSort (· ≤ ·) = ordered.map Prod.snd :=
    (((List.perm_insertionSort _ _).trans (hperm.map _).symm).eq_of_pairwise'
      (List.pairwise_insertionSort _ _) hsorted)
  have hlength : (ordered.map Prod.snd).length = (entries.map Prod.snd).length :=
    (hperm.map _).length_eq
  have hrange : ∀ p ∈ ordered.map Prod.snd, 0 ≤ p ∧ p ≤ 1 :=
    fun p hp => hraw p ((hperm.map _).mem_iff.mp hp)
  generalize hps : ordered.map Prod.snd = ps at *
  have hfamily : ps.length ≤ family := by simpa [hlength] using hsize
  have hadjusted : Adjusted family ps (clipThenMax 0 (family : K) ps) :=
    adjusted_clipThenMax hfamily fun p hp => (hrange p hp).1
  have hget : ∀ i < ps.length, 0 ≤ ps.getD i 0 ∧ ps.getD i 0 ≤ 1 := by
    intro i hi
    rw [List.getD_eq_getElem _ _ hi]
    exact hrange _ (List.getElem_mem hi)
  have hplace : ∀ p ∈ ps, ps.idxOf p < ps.length ∧ ps.getD (ps.idxOf p) 0 = p := by
    intro p hp
    have hlt := List.idxOf_lt_length_iff.mpr hp
    exact ⟨hlt, by rw [List.getD_eq_getElem _ _ hlt, List.getElem_idxOf]⟩
  have hsame : ∀ i < ps.length, ∀ j < ps.length, ps.getD i 0 = ps.getD j 0 →
      (clipThenMax 0 (family : K) ps).getD i 0 = (clipThenMax 0 (family : K) ps).getD j 0 := by
    intro i hi j hj h
    exact le_antisymm (hadjusted.mono_raw hsorted hi hj (hget j hj).1 h.le)
      (hadjusted.mono_raw hsorted hj hi (hget i hi).1 h.ge)
  refine ⟨fun p => (clipThenMax 0 (family : K) ps).getD (ps.idxOf p) 0, ⟨?_, ?_, ?_⟩, ?_⟩
  · intro i hi
    rw [hpsort]
    have hi : i < ps.length := hlength ▸ hi
    obtain ⟨hlt, hvalue⟩ := hplace (ps.getD i 0) (by
      rw [List.getD_eq_getElem _ _ hi]
      exact List.getElem_mem hi)
    obtain ⟨best, hbest, hclosed⟩ := hadjusted.closed i hi
    rw [hsame _ hlt i hi hvalue, hclosed, closedForm_eq hbest]
  · intro p hp
    obtain ⟨hlt, hvalue⟩ := hplace p (by rwa [← hpsort, List.mem_insertionSort])
    have hle := hadjusted.raw_le hfamily hlt (hget _ hlt).1 (hget _ hlt).2
    rwa [hvalue] at hle
  · intro p hp q hq h
    obtain ⟨hlt, hvalue⟩ := hplace p (by rwa [← hpsort, List.mem_insertionSort])
    obtain ⟨hlt', hvalue'⟩ := hplace q (by rwa [← hpsort, List.mem_insertionSort])
    exact hadjusted.mono_raw hsorted hlt hlt' (hget _ hlt').1 (by rwa [hvalue, hvalue'])
  · intro e he
    obtain ⟨i, hi, rfl⟩ := List.getElem_of_mem (hperm.mem_iff.mpr he)
    have hpi : i < ps.length := by rwa [← hps, List.length_map]
    have hsnd : ps.getD i 0 = ordered[i].2 := by
      rw [List.getD_eq_getElem _ _ hpi]
      simp [← hps]
    obtain ⟨hlt, hvalue⟩ := hplace ordered[i].2 (by
      rw [← hsnd, List.getD_eq_getElem _ _ hpi]
      exact List.getElem_mem hpi)
    have hki : i < (ordered.map Prod.fst).length := by rwa [List.length_map]
    have hkey : (ordered.map Prod.fst)[i] = ordered[i].1 := by simp
    have hvalues : (clipThenMax 0 (family : K) ps).length = (ordered.map Prod.fst).length := by
      rw [length_clipThenMax, ← hps, List.length_map, List.length_map]
    rw [← hkey, lookup_zip (0 : K) ((hperm.map Prod.fst).nodup_iff.mpr hnodup) hvalues hki,
      hsame i hpi _ hlt (by rw [hvalue, hsnd])]

end Keyed

end Form

end StepDown
