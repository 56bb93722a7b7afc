import Mathlib
set_option autoImplicit false

/-! Second moments under a positive functional, and the functional of a list of clusters in which
each cluster has the weight of one element. -/

namespace Moments

section Functional
variable {K α : Type} [Field K] [LinearOrder K]

/-- A functional that is not negative on what is not negative. -/
def Positive (E : (α → K) →ₗ[K] K) : Prop := ∀ f : α → K, (∀ a, 0 ≤ f a) → 0 ≤ E f

/-- The second central moment of two functions. -/
def central (E : (α → K) →ₗ[K] K) (u v : α → K) : K := E (u * v) - E u * E v / E 1

variable {E : (α → K) →ₗ[K] K}

omit [LinearOrder K] in
theorem map_shift (E : (α → K) →ₗ[K] K) (u v : α → K) (m n : K) :
    E (fun a => (u a - m) * (v a - n)) = E (u * v) - m * E v - n * E u + m * n * E 1 := by
  have hfun : (fun a => (u a - m) * (v a - n)) = u * v - m • v - n • u + (m * n) • (1 : α → K) := by
    funext a
    simp only [Pi.add_apply, Pi.sub_apply, Pi.mul_apply, Pi.smul_apply, Pi.one_apply, smul_eq_mul]
    ring
  rw [hfun, map_add, map_sub, map_sub, map_smul, map_smul, map_smul, smul_eq_mul, smul_eq_mul,
    smul_eq_mul]

omit [LinearOrder K] in
theorem central_eq (h : E 1 ≠ 0) (u v : α → K) :
    central E u v = E fun a => (u a - E u / E 1) * (v a - E v / E 1) := by
  rw [map_shift, central]
  field_simp
  ring

variable [IsStrictOrderedRing K]

theorem central_self_nonneg (hE : Positive E) (h : E 1 ≠ 0) (u : α → K) : 0 ≤ central E u u := by
  rw [central_eq h]
  exact hE _ fun a => mul_self_nonneg _

/-- The inequality of Cauchy and Schwarz, from the values of the quadratic. -/
theorem sq_le_mul (hE : Positive E) (u v : α → K) : E (u * v) ^ 2 ≤ E (u * u) * E (v * v) := by
  have hquadratic : ∀ t : K, 0 ≤ E (u * u) * (t * t) + 2 * E (u * v) * t + E (v * v) := by
    intro t
    have hfun : (fun a => (t * u a + v a) * (t * u a + v a)) =
        (t * t) • (u * u) + (2 * t) • (u * v) + v * v := by
      funext a
      simp only [Pi.add_apply, Pi.mul_apply, Pi.smul_apply, smul_eq_mul]
      ring
    have hvalue := hE (fun a => (t * u a + v a) * (t * u a + v a)) fun a => mul_self_nonneg _
    rw [hfun, map_add, map_add, map_smul, map_smul, smul_eq_mul, smul_eq_mul] at hvalue
    linarith
  have hdiscrim := discrim_le_zero hquadratic
  rw [discrim] at hdiscrim
  linarith

theorem central_sq_le (hE : Positive E) (h : E 1 ≠ 0) (u v : α → K) :
    central E u v ^ 2 ≤ central E u u * central E v v := by
  rw [central_eq h, central_eq h, central_eq h]
  exact sq_le_mul hE (fun a => u a - E u / E 1) fun a => v a - E v / E 1

end Functional

section Clusters
variable {K α : Type} [Field K]

def mean (cluster : List α) : (α → K) →ₗ[K] K where
  toFun f := (cluster.map f).sum / cluster.length
  map_add' f g := by
    have hsum : cluster.map (f + g) = cluster.map fun a => f a + g a := rfl
    rw [hsum, List.sum_map_add, add_div]
  map_smul' c f := by
    have hsum : cluster.map (c • f) = cluster.map fun a => c * f a := rfl
    rw [hsum, List.sum_map_mul_left, mul_div_assoc]
    rfl

def pooled (clusters : List (List α)) : (α → K) →ₗ[K] K := (clusters.map mean).sum

theorem pooled_apply (clusters : List (List α)) (f : α → K) :
    pooled clusters f = (clusters.map fun c => mean c f).sum := by
  induction clusters with
  | nil => rfl
  | cons c clusters ih =>
    rw [pooled, List.map_cons, List.sum_cons, LinearMap.add_apply, List.map_cons, List.sum_cons, ← ih,
      pooled]

theorem mean_perm {c c' : List α} (h : c.Perm c') : mean (K := K) c = mean c' := by
  ext f
  change (c.map f).sum / _ = (c'.map f).sum / _
  rw [(h.map f).sum_eq, h.length_eq]

variable [CharZero K]

theorem mean_replicate (c : List α) {k : Nat} (hk : 0 < k) :
    mean (K := K) (List.replicate k c).flatten = mean c := by
  ext f
  have hsum : ((List.replicate k c).flatten.map f).sum = k * (c.map f).sum := by
    rw [List.map_flatten, List.map_replicate, List.sum_flatten, List.map_replicate,
      List.sum_replicate, nsmul_eq_mul]
  have hlength : (((List.replicate k c).flatten.length : Nat) : K) = k * c.length := by
    rw [List.length_flatten, List.map_replicate, List.sum_replicate, smul_eq_mul, Nat.cast_mul]
  change ((List.replicate k c).flatten.map f).sum / _ = (c.map f).sum / _
  rw [hsum, hlength, mul_div_mul_left _ _ (Nat.cast_ne_zero.mpr hk.ne')]

theorem mean_one {c : List α} (h : c ≠ []) : mean c (1 : α → K) = 1 := by
  have hlength : (c.length : K) ≠ 0 := Nat.cast_ne_zero.mpr (List.length_pos_iff.mpr h).ne'
  have hsum : (c.map (1 : α → K)).sum = c.length := by
    rw [show c.map (1 : α → K) = c.map fun _ => (1 : K) from rfl]
    simp
  change (c.map (1 : α → K)).sum / _ = 1
  rw [hsum, div_self hlength]

theorem pooled_one {cs : List (List α)} (h : ∀ c ∈ cs, c ≠ []) :
    pooled cs (1 : α → K) = cs.length := by
  rw [pooled_apply, List.map_congr_left fun c hc => mean_one (h c hc)]
  simp

def within (cs : List (List α)) (f : α → K) : K :=
  (cs.map fun c => mean c fun a => (f a - mean c f) * (f a - mean c f)).sum

def between (cs : List (List α)) (f : α → K) : K :=
  (cs.map fun c => (mean c f - pooled cs f / cs.length) * (mean c f - pooled cs f / cs.length)).sum

/-- The second central moment is the spread between the clusters and within them. -/
theorem central_pooled {cs : List (List α)} (h : ∀ c ∈ cs, c ≠ []) (hne : cs ≠ []) (f : α → K) :
    central (pooled cs) f f = between cs f + within cs f := by
  have hone : pooled cs (1 : α → K) ≠ 0 := by
    rw [pooled_one h]
    exact Nat.cast_ne_zero.mpr (List.length_pos_iff.mpr hne).ne'
  rw [central_eq hone, pooled_one h, pooled_apply, between, within, ← List.sum_map_add]
  refine congrArg List.sum (List.map_congr_left fun c hc => ?_)
  rw [map_shift, map_shift, mean_one (h c hc)]
  ring

variable [LinearOrder K] [IsStrictOrderedRing K]

omit [CharZero K] in
theorem mean_positive (c : List α) : Positive (mean (K := K) c) := by
  intro f hf
  refine div_nonneg (List.sum_nonneg fun x hx => ?_) (Nat.cast_nonneg _)
  obtain ⟨a, _, rfl⟩ := List.mem_map.mp hx
  exact hf a

omit [CharZero K] in
theorem pooled_positive (cs : List (List α)) : Positive (pooled (K := K) cs) := by
  intro f hf
  rw [pooled_apply]
  refine List.sum_nonneg fun x hx => ?_
  obtain ⟨c, _, rfl⟩ := List.mem_map.mp hx
  exact mean_positive c f hf

omit [CharZero K] in
theorem within_nonneg (cs : List (List α)) (f : α → K) : 0 ≤ within cs f := by
  refine List.sum_nonneg fun x hx => ?_
  obtain ⟨c, _, rfl⟩ := List.mem_map.mp hx
  exact mean_positive c _ fun a => mul_self_nonneg _

omit [CharZero K] in
theorem between_nonneg (cs : List (List α)) (f : α → K) : 0 ≤ between cs f := by
  refine List.sum_nonneg fun x hx => ?_
  obtain ⟨c, _, rfl⟩ := List.mem_map.mp hx
  exact mul_self_nonneg _

end Clusters

end Moments
