import LlmHardtest.Round5.Analysis
import LlmHardtest.Round5.RowAgreement
set_option autoImplicit false

/-! Outcomes and distances lie between zero and one, so the resampled effects of collected attempts
lie between minus one and one. -/

namespace Round5
open Python Binary64

section Means
variable {values : List ℚ} {a b q : ℚ} {left right : Option ℚ}

theorem average_mem (ha : a ≤ 0) (hb : 0 ≤ b) (h : ∀ v ∈ values, v ∈ Set.Icc a b) :
    average values ∈ Set.Icc a b := by
  by_cases hempty : values = []
  · subst hempty
    simpa [average] using And.intro ha hb
  · have hlength : (0 : ℚ) < values.length := by exact_mod_cast List.length_pos_iff.mpr hempty
    have hlow := List.card_nsmul_le_sum values a fun v hv => (h v hv).1
    have hhigh := List.sum_le_card_nsmul values b fun v hv => (h v hv).2
    rw [nsmul_eq_mul] at hlow hhigh
    rw [average, Set.mem_Icc, le_div_iff₀ hlength, div_le_iff₀ hlength]
    constructor <;> linarith

theorem sub_mem {l r : ℚ} (hl : l ∈ Set.Icc 0 1) (hr : r ∈ Set.Icc 0 1) : l - r ∈ Set.Icc (-1) 1 := by
  obtain ⟨hl0, hl1⟩ := hl
  obtain ⟨hr0, hr1⟩ := hr
  constructor <;> linarith

theorem roundDigits_mem (h : q ∈ Set.Icc (-1) 1) : roundDigits 6 q ∈ Set.Icc (-1) 1 := by
  have hlow := roundDigits_mono 6 h.1
  have hhigh := roundDigits_mono 6 h.2
  rw [show roundDigits 6 (-1) = -1 by decide +kernel] at hlow
  rw [show roundDigits 6 1 = 1 by decide +kernel] at hhigh
  exact ⟨hlow, hhigh⟩

theorem mean_mem (h : ∀ v ∈ values, v ∈ Set.Icc 0 1) (hq : mean values = some q) :
    q ∈ Set.Icc 0 1 := by
  unfold mean at hq
  split at hq
  · cases hq
  · cases hq
    obtain ⟨h0, h1⟩ := average_mem le_rfl zero_le_one h
    exact ⟨roundDigits_nonneg 6 h0, (roundDigits_mem ⟨by linarith, h1⟩).2⟩

theorem noise_mem (hl : ∀ l ∈ left, l ∈ Set.Icc 0 1) (hr : ∀ r ∈ right, r ∈ Set.Icc 0 1)
    (hq : noise left right = some q) : q ∈ Set.Icc 0 1 := by
  unfold noise at hq
  split at hq
  · refine mean_mem ?_ hq
    simpa using And.intro (hl _ rfl) (hr _ rfl)
  · cases hq

theorem difference_mem (hl : ∀ l ∈ left, l ∈ Set.Icc 0 1) (hr : ∀ r ∈ right, r ∈ Set.Icc 0 1)
    (hq : difference left right = some q) : q ∈ Set.Icc (-1) 1 := by
  unfold difference at hq
  split at hq
  · cases hq
    exact roundDigits_mem (sub_mem (hl _ rfl) (hr _ rfl))
  · cases hq

end Means

/-- Neither test suite passed more tests than it has. -/
def Metrics.Scored (m : Metrics) : Prop := m.pub.Valid ∧ m.hidden.Valid

section Outcomes
variable {m l r : Metrics} {rows lefts rights : List Metrics} {q : ℚ}

theorem rate_mem {s : Score} (h : s.Valid) (hq : s.rate = some q) : q ∈ Set.Icc 0 1 := by
  obtain ⟨htotal, hpassed, hle⟩ := h
  unfold Score.rate at hq
  split at hq
  · cases hq
  · cases hq
    have h0 : (0 : ℚ) ≤ s.total := by exact_mod_cast htotal
    have h1 : (0 : ℚ) ≤ s.passed := by exact_mod_cast hpassed
    exact ⟨div_nonneg h1 h0, div_le_one_of_le₀ (by exact_mod_cast hle) h0⟩

theorem flag_mem {b : Bool} (hq : flag b = some q) : q ∈ Set.Icc 0 1 := by
  cases hq
  cases b <;> simp

theorem vector_mem (h : m.Scored) {axis : OutcomeAxis} (hq : m.vector axis = some q) :
    q ∈ Set.Icc 0 1 := by
  cases axis with
  | publicRate => exact rate_mem h.1 hq
  | hiddenRate => exact rate_mem h.2 hq
  | transportComplete | authoritySafe | evidenceRevision | releaseReady | reportAccurate
  | toolProtocolClean => exact flag_mem hq

theorem axisGap_mem (hl : l.Scored) (hr : r.Scored) {axis : OutcomeAxis}
    (hq : axisGap axis l r = some q) : q ∈ Set.Icc 0 1 := by
  unfold axisGap at hq
  split at hq
  · rename_i hleft hright
    cases hq
    exact ⟨abs_nonneg _, abs_le.mpr (sub_mem (vector_mem hl hleft) (vector_mem hr hright))⟩
  · cases hq

theorem distance_mem (hl : l.Scored) (hr : r.Scored) : distance l r ∈ Set.Icc 0 1 := by
  refine average_mem le_rfl zero_le_one fun v hv => ?_
  obtain ⟨axis, _, hgap⟩ := List.mem_filterMap.mp hv
  exact axisGap_mem hl hr hgap

theorem outcomeMean_mem (h : m.Scored) (hq : outcomeMean m = some q) : q ∈ Set.Icc 0 1 := by
  unfold outcomeMean at hq
  split at hq
  · cases hq
    refine average_mem le_rfl zero_le_one fun v hv => ?_
    obtain ⟨axis, _, hvalue⟩ := List.mem_filterMap.mp hv
    exact vector_mem h hvalue
  · cases hq

theorem withinDistance_mem (h : ∀ m ∈ rows, m.Scored) (hq : (withinDistance rows).2 = some q) :
    q ∈ Set.Icc 0 1 := by
  refine mean_mem (fun v hv => ?_) hq
  obtain ⟨p, hp, rfl⟩ := List.mem_map.mp hv
  obtain ⟨hleft, hright⟩ := mem_of_mem_pairs hp
  exact distance_mem (h _ hleft) (h _ hright)

theorem adjustedSeparation_mem {pilotId : PilotId} {pack : Str} (hl : ∀ m ∈ lefts, m.Scored)
    (hr : ∀ m ∈ rights, m.Scored)
    (hq : (sharedVersion pilotId pack lefts rights).adjustedSeparation = some q) :
    q ∈ Set.Icc (-1) 1 := by
  refine difference_mem (fun d hd => mean_mem (fun v hv => ?_) hd)
    (fun n hn => noise_mem (fun d => withinDistance_mem hl) (fun d => withinDistance_mem hr) hn) hq
  obtain ⟨left, hleft, hv⟩ := List.mem_flatMap.mp hv
  obtain ⟨right, hright, rfl⟩ := List.mem_map.mp hv
  exact distance_mem (hl _ hleft) (hr _ hright)

end Outcomes

section Draws
variable {rng : Generator} {a b : ℚ}

theorem repeated_induction {β : Type} {step : rng.State → β × rng.State} {P : β → Prop}
    (h : ∀ s, P (step s).1) (n : Nat) (s : rng.State) : ∀ x ∈ (repeated rng step n s).1, P x := by
  induction n generalizing s with
  | zero => simp [repeated]
  | succ n ih =>
    intro x hx
    simp only [repeated, List.mem_cons] at hx
    rcases hx with rfl | hx
    · exact h s
    · exact ih _ x hx

theorem choice_induction {α : Type} [Inhabited α] {P : α → Prop} {values : List α}
    (hdefault : P default) (h : ∀ v ∈ values, P v) (s : rng.State) : P (choice rng values s).1 := by
  rw [choice, List.getD_eq_getElem?_getD]
  cases hchosen : values[(rng.below values.length s).1]? with
  | none => exact hdefault
  | some v => exact h v (List.mem_of_getElem? hchosen)

/-- The mean of a resample stays between two floats around the values. -/
theorem resampledMean_mem {values : List ℚ} (ha : a ≤ 0) (hb : 0 ≤ b) (hfa : IsFloat a)
    (hfb : IsFloat b) (h : ∀ v ∈ values, v ∈ Set.Icc a b) (s : rng.State) :
    (resampledMean rng values s).1 ∈ Set.Icc a b :=
  nearest_mem_Icc hfa hfb (average_mem ha hb (repeated_induction
    (fun s => choice_induction (P := fun v => v ∈ Set.Icc a b) ⟨ha, hb⟩ h s) _ _))

theorem isFloat_zero : IsFloat 0 := by simpa using isFloat_intCast (n := 0) (by norm_num)

theorem isFloat_one : IsFloat 1 := by simpa using isFloat_intCast (n := 1) (by norm_num)

theorem isFloat_neg_one : IsFloat (-1) := by simpa using isFloat_intCast (n := -1) (by norm_num)

theorem scenarioBootstrapDraws_mem {values draws : List ℚ} {samples : Nat}
    (h : ∀ v ∈ values, v ∈ Set.Icc (-1) 1)
    (hdraws : scenarioBootstrapDraws rng values samples = some draws) :
    ∀ d ∈ draws, d ∈ Set.Icc (-1) 1 := by
  unfold scenarioBootstrapDraws at hdraws
  split at hdraws
  · cases hdraws
  · cases hdraws
    exact repeated_induction (fun s => resampledMean_mem (by norm_num) zero_le_one isFloat_neg_one
      isFloat_one h s) _ _

def DirectionalInput.InRange (i : DirectionalInput) : Prop :=
  ∀ v ∈ i.leftAttemptValues ++ i.rightAttemptValues, v ∈ Set.Icc (0 : ℚ) 1

theorem resampledEffect_mem {scenarios : List DirectionalInput} (h : ∀ i ∈ scenarios, i.InRange)
    (s : rng.State) : (resampledEffect rng scenarios s).1 ∈ Set.Icc (-1) 1 := by
  have hchosen : (choice rng scenarios s).1.InRange :=
    choice_induction (P := DirectionalInput.InRange) (by simp [DirectionalInput.InRange, default]) h s
  have hmean : ∀ values : List ℚ, (∀ v ∈ values, v ∈ Set.Icc 0 1) → ∀ s,
      (resampledMean rng values s).1 ∈ Set.Icc 0 1 := fun _ h s =>
    resampledMean_mem le_rfl zero_le_one isFloat_zero isFloat_one h s
  have hleft := hmean (choice rng scenarios s).1.leftAttemptValues
    (fun v hv => hchosen v (List.mem_append_left _ hv)) (choice rng scenarios s).2
  have hright := hmean (choice rng scenarios s).1.rightAttemptValues
    (fun v hv => hchosen v (List.mem_append_right _ hv))
    (resampledMean rng (choice rng scenarios s).1.leftAttemptValues (choice rng scenarios s).2).2
  exact nearest_mem_Icc isFloat_neg_one isFloat_one (sub_mem hleft hright)

theorem directionalBootstrapDraws_mem {scenarios : List DirectionalInput} {draws : List ℚ}
    {samples : Nat} (h : ∀ i ∈ scenarios, i.InRange)
    (hdraws : directionalBootstrapDraws rng scenarios samples = some draws) :
    ∀ d ∈ draws, d ∈ Set.Icc (-1) 1 := by
  unfold directionalBootstrapDraws at hdraws
  split at hdraws
  · cases hdraws
  · cases hdraws
    exact repeated_induction (fun s => nearest_mem_Icc isFloat_neg_one isFloat_one
      (average_mem (by norm_num) zero_le_one
        (repeated_induction (fun s => resampledEffect_mem h s) _ _))) _ _

end Draws

def Sides.Scored (s : Sides) : Prop := ∀ a ∈ s.left ++ s.right, a.metrics.Scored

namespace Sides.Scored
variable {s : Sides} (h : s.Scored)
include h

theorem leftRows (key : PilotId × Str) : ∀ m ∈ s.leftRows key, m.Scored := by
  intro m hm
  obtain ⟨a, ha, rfl⟩ := List.mem_map.mp hm
  exact h a (List.mem_append_left _ (List.mem_filter.mp ha).1)

theorem rightRows (key : PilotId × Str) : ∀ m ∈ s.rightRows key, m.Scored := by
  intro m hm
  obtain ⟨a, ha, rfl⟩ := List.mem_map.mp hm
  exact h a (List.mem_append_right _ (List.mem_filter.mp ha).1)

theorem effects : ∀ q ∈ s.effects, q ∈ Set.Icc (-1) 1 := by
  intro q hq
  obtain ⟨v, hv, hq⟩ := List.mem_filterMap.mp hq
  obtain ⟨key, _, rfl⟩ := List.mem_map.mp hv
  exact adjustedSeparation_mem (h.leftRows key) (h.rightRows key) hq

theorem directionalInputs : ∀ i ∈ s.directionalInputs, i.InRange := by
  intro i hi v hv
  obtain ⟨key, _, rfl⟩ := List.mem_map.mp hi
  rcases List.mem_append.mp hv with hv | hv
  · obtain ⟨m, hm, hq⟩ := List.mem_filterMap.mp hv
    exact outcomeMean_mem (h.leftRows key m hm) hq
  · obtain ⟨m, hm, hq⟩ := List.mem_filterMap.mp hv
    exact outcomeMean_mem (h.rightRows key m hm) hq

end Sides.Scored

section Collected
variable {r : Release} {d : RunDirectory} {header : RunHeader}

theorem validatedGrade_scored {c : Checks} {grading : Grading} {e : Evidence} {grade : Json}
    {m : Metrics} (h : validatedGrade c grading e grade = .ok m) : m.Scored := by
  obtain ⟨p, hspec, hchecked⟩ := validatedGrade_spec h
  obtain ⟨accurate, rfl⟩ := hchecked.metrics
  exact ⟨hspec.publicScore, hspec.hiddenScore⟩

theorem collectAttempt_scored {seen : List (Str × Int)} {row : Json} {key : Str × Int}
    {a : PilotAttempt} (h : collectAttempt r d header seen row = .ok (key, a)) : a.metrics.Scored := by
  unfold collectAttempt at h
  obtain ⟨_, _, h⟩ := Failures.bind_eq_ok.mp h
  obtain ⟨_, _, h⟩ := Failures.bind_eq_ok.mp h
  obtain ⟨_, _, h⟩ := Failures.bind_eq_ok.mp h
  obtain ⟨_, h⟩ := require_bind.mp h
  obtain ⟨_, _, h⟩ := Failures.bind_eq_ok.mp h
  obtain ⟨_, h⟩ := require_bind.mp h
  obtain ⟨_, h⟩ := require_bind.mp h
  obtain ⟨m, hm, h⟩ := Failures.bind_eq_ok.mp h
  cases h
  exact validatedGrade_scored hm

theorem collectRows_scored {rows : List Json} : ∀ {seen : List (Str × Int)}
    {attempts : List PilotAttempt}, collectRows r d header seen rows = .ok attempts →
    ∀ a ∈ attempts, a.metrics.Scored := by
  induction rows with
  | nil =>
    intro seen attempts h
    cases h
    simp
  | cons row rows ih =>
    intro seen attempts h
    unfold collectRows at h
    obtain ⟨first, hfirst, h⟩ := Failures.bind_eq_ok.mp h
    obtain ⟨rest, hrest, h⟩ := Failures.bind_eq_ok.mp h
    cases h
    exact List.forall_mem_cons.mpr ⟨collectAttempt_scored hfirst, ih hrest⟩

theorem collectPilotAttempts_scored {dirs : List RunDirectory} {attempts : List PilotAttempt}
    (h : collectPilotAttempts r dirs = .ok attempts) : ∀ a ∈ attempts, a.metrics.Scored := by
  obtain ⟨-, runs, hruns, -, rfl⟩ := collectPilotAttempts_ok h
  intro a ha
  obtain ⟨run, hrun, ha⟩ := List.mem_flatten.mp ha
  obtain ⟨d, _, hcollected⟩ := (Outcome.mapM_mem hruns).2 run hrun
  obtain ⟨header, _, hrows⟩ := Failures.bind_eq_ok.mp hcollected
  exact collectRows_scored hrows a ha

theorem sidePairs_scored {attempts : List PilotAttempt} (h : ∀ a ∈ attempts, a.metrics.Scored) :
    ∀ p ∈ sidePairs attempts, p.2.Scored := by
  intro p hp a ha
  obtain ⟨q, _, rfl⟩ := List.mem_map.mp hp
  rcases List.mem_append.mp ha with ha | ha
  · exact h a (List.mem_filter.mp ha).1
  · exact h a (List.mem_filter.mp ha).1

end Collected

end Round5
