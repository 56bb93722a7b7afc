import LlmHardtest.Round5.Analysis
set_option autoImplicit false

/-! What the analysis makes of the same attempts in another order. Means, counts, sorted names and
distances stay the same. -/

namespace Round5
open Python

theorem sort_eq_of_perm {α : Type} [LinearOrder α] {xs ys : List α} (h : xs.Perm ys) :
    xs.insertionSort (· ≤ ·) = ys.insertionSort (· ≤ ·) :=
  (((List.perm_insertionSort _ xs).trans h).trans
    (List.perm_insertionSort _ ys).symm).eq_of_sortedLE
      List.sortedLE_insertionSort List.sortedLE_insertionSort

theorem sortedNames_eq_of_perm {xs ys : List Str} (h : xs.Perm ys) :
    sortedNames xs = sortedNames ys :=
  sort_eq_of_perm h.dedup

theorem any_eq_of_perm {α : Type} {xs ys : List α} (h : xs.Perm ys) (p : α → Bool) :
    xs.any p = ys.any p := by
  rw [Bool.eq_iff_iff, List.any_eq_true, List.any_eq_true]
  exact exists_congr fun v => and_congr h.mem_iff Iff.rfl

theorem all_eq_of_perm {α : Type} {xs ys : List α} (h : xs.Perm ys) (p : α → Bool) :
    xs.all p = ys.all p := by
  rw [Bool.eq_iff_iff, List.all_eq_true, List.all_eq_true]
  exact forall_congr' fun v => imp_congr h.mem_iff Iff.rfl

theorem mapM_perm {α β : Type} {f : α → Outcome β} {xs ys : List α} (h : xs.Perm ys)
    {bs : List β} (hx : xs.mapM f = .ok bs) : ∃ cs, ys.mapM f = .ok cs ∧ bs.Perm cs := by
  induction h generalizing bs with
  | nil => exact ⟨bs, hx, .refl _⟩
  | cons a _ ih =>
    rw [List.mapM_cons] at hx
    obtain ⟨b, hb, hx⟩ := Failures.bind_eq_ok.mp hx
    obtain ⟨rest, hrest, hx⟩ := Failures.bind_eq_ok.mp hx
    cases hx
    obtain ⟨cs, hcs, hperm⟩ := ih hrest
    exact ⟨b :: cs, by rw [List.mapM_cons, hb, hcs]; rfl, hperm.cons b⟩
  | swap a a' l =>
    rw [List.mapM_cons, List.mapM_cons] at hx
    obtain ⟨b, hb, hx⟩ := Failures.bind_eq_ok.mp hx
    obtain ⟨rest, hrest, hx⟩ := Failures.bind_eq_ok.mp hx
    obtain ⟨b', hb', hrest⟩ := Failures.bind_eq_ok.mp hrest
    obtain ⟨bs, hbs, hrest⟩ := Failures.bind_eq_ok.mp hrest
    cases hrest
    cases hx
    exact ⟨b' :: b :: bs, by rw [List.mapM_cons, List.mapM_cons, hb, hb', hbs]; rfl,
      List.Perm.swap b' b bs⟩
  | trans _ _ ih ih' =>
    obtain ⟨cs, hcs, hperm⟩ := ih hx
    obtain ⟨ds, hds, hperm'⟩ := ih' hcs
    exact ⟨ds, hds, hperm.trans hperm'⟩

/-- The pairs of a reordered list are the same pairs, some of them turned round. -/
theorem pairs_perm {α β : Type} {g : α → α → Option β} (hg : ∀ a b, g a b = g b a)
    {xs ys : List α} (h : xs.Perm ys) :
    ((pairs xs).filterMap fun p => g p.1 p.2).Perm ((pairs ys).filterMap fun p => g p.1 p.2) := by
  induction h with
  | nil => exact .refl _
  | @cons a xs ys h ih =>
    simp only [pairs, List.filterMap_append, List.filterMap_map, Function.comp_def]
    exact (h.filterMap (g a)).append ih
  | swap a b l =>
    simp only [pairs, List.filterMap_append, List.filterMap_map, Function.comp_def, List.map_cons,
      List.filterMap_cons, List.cons_append, hg b a]
    have hrest : ∀ rest : List β, (l.filterMap (g b) ++ (l.filterMap (g a) ++ rest)).Perm
        (l.filterMap (g a) ++ (l.filterMap (g b) ++ rest)) := by
      intro rest
      rw [← List.append_assoc, ← List.append_assoc]
      exact List.perm_append_comm.append_right rest
    cases g a b with
    | none => exact hrest _
    | some c => exact (hrest _).cons c
  | trans _ _ ih ih' => exact ih.trans ih'

theorem pairs_map_perm {α β : Type} {f : α → α → β} (hf : ∀ a b, f a b = f b a)
    {xs ys : List α} (h : xs.Perm ys) :
    ((pairs xs).map fun p => f p.1 p.2).Perm ((pairs ys).map fun p => f p.1 p.2) := by
  have hp := pairs_perm (g := fun a b => some (f a b)) (fun a b => congrArg some (hf a b)) h
  simpa only [List.filterMap_eq_map', Function.comp_def] using hp

theorem crossMap_perm {α β γ : Type} (f : α → β → γ) {xs xs' : List α} {ys ys' : List β}
    (hx : xs.Perm xs') (hy : ys.Perm ys') : (crossMap f xs ys).Perm (crossMap f xs' ys') :=
  hx.flatMap fun a _ => hy.map (f a)

theorem average_perm {xs ys : List ℚ} (h : xs.Perm ys) : average xs = average ys := by
  rw [average, average, h.sum_eq, h.length_eq]

theorem mean_perm {xs ys : List ℚ} (h : xs.Perm ys) : mean xs = mean ys := by
  have hnil : xs = [] ↔ ys = [] := by
    rw [← List.length_eq_zero_iff, ← List.length_eq_zero_iff, h.length_eq]
  simp only [mean, hnil, average_perm h]

theorem axisGap_comm (axis : OutcomeAxis) (a b : Metrics) : axisGap axis a b = axisGap axis b a := by
  unfold axisGap
  cases a.vector axis <;> cases b.vector axis <;> simp [abs_sub_comm]

theorem distance_comm (a b : Metrics) : distance a b = distance b a := by
  simp only [distance, axisGap_comm _ a b]

theorem withinDistance_perm {xs ys : List Metrics} (h : xs.Perm ys) :
    withinDistance xs = withinDistance ys := by
  have hp := pairs_map_perm distance_comm h
  simp only [withinDistance, hp.length_eq, mean_perm hp]

section Sides
variable {ls ls' rs rs' : List Metrics}

theorem axisDistance_perm (hl : ls.Perm ls') (hr : rs.Perm rs') :
    axisDistance ls rs = axisDistance ls' rs' := by
  funext axis
  simp only [axisDistance, mean_perm ((crossMap_perm (axisGap axis) hl hr).filterMap id),
    mean_perm (pairs_perm (axisGap_comm axis) hl), mean_perm (pairs_perm (axisGap_comm axis) hr)]

theorem axisDirectionalContrast_perm (hl : ls.Perm ls') (hr : rs.Perm rs') :
    axisDirectionalContrast ls rs = axisDirectionalContrast ls' rs' := by
  funext axis
  simp only [axisDirectionalContrast, mean_perm (hl.filterMap _), mean_perm (hr.filterMap _)]

theorem sharedVersion_perm (p : PilotId) (pack : Str) (hl : ls.Perm ls') (hr : rs.Perm rs') :
    sharedVersion p pack ls rs = sharedVersion p pack ls' rs' := by
  have hcross := crossMap_perm distance hl hr
  simp only [sharedVersion, hcross.length_eq, mean_perm hcross, withinDistance_perm hl,
    withinDistance_perm hr, hl.length_eq, hr.length_eq, hl.countP_eq, hr.countP_eq,
    axisDistance_perm hl hr, axisDirectionalContrast_perm hl hr,
    mean_perm (hl.filterMap outcomeMean), mean_perm (hr.filterMap outcomeMean)]

end Sides

theorem plus_plus_comm {x y : PyFloat} (hx : x.isFinite = false) (hy : y.isFinite = false)
    (a : PyFloat) : (a.plus x).plus y = (a.plus y).plus x := by
  cases x with
  | finite q => simp at hx
  | nan => cases a <;> cases y <;> simp [PyFloat.plus]
  | inf b =>
    cases y with
    | finite q => simp at hy
    | nan => cases a <;> simp [PyFloat.plus]
    | inf c =>
      cases a with
      | finite q => cases b <;> cases c <;> rfl
      | nan => rfl
      | inf d => cases b <;> cases c <;> cases d <;> rfl

theorem meanFloats_perm {xs ys : List PyFloat} (h : xs.Perm ys) : meanFloats xs = meanFloats ys := by
  have hspecial := h.filter fun x => !x.isFinite
  have hfold : (xs.filter fun x => !x.isFinite).foldl PyFloat.plus (.finite 0) =
      (ys.filter fun x => !x.isFinite).foldl PyFloat.plus (.finite 0) := by
    refine hspecial.foldl_eq' (fun x hx y hy a => ?_) _
    exact plus_plus_comm (by simpa using (List.mem_filter.mp hx).2)
      (by simpa using (List.mem_filter.mp hy).2) a
  have hempty : (xs.filter fun x => !x.isFinite).isEmpty =
      (ys.filter fun x => !x.isFinite).isEmpty := hspecial.isEmpty_eq
  simp only [meanFloats, PyFloat.mean, h.isEmpty_eq, hempty, hfold, (h.map _).sum_eq, h.length_eq]

/-- Integers become floats, or the first that is too large is reported. -/
theorem floats_error {ns : List Int} {e : Raised}
    (h : (ns.mapM fun n => (PyNum.int n).toFloat) = .error e) : e = .overflowError := by
  induction ns with
  | nil => cases h
  | cons n ns ih =>
    rw [List.mapM_cons] at h
    cases hn : (PyNum.int n).toFloat with
    | error e' =>
      by_cases hbig : floatOverflow ≤ |n|
      · rw [PyNum.toFloat, if_pos hbig] at h
        cases h
        rfl
      · rw [PyNum.toFloat, if_neg hbig] at hn
        cases hn
    | ok x =>
      cases hns : ns.mapM fun n => (PyNum.int n).toFloat with
      | error e' =>
        rw [hn, hns] at h
        cases h
        exact ih hns
      | ok xs =>
        rw [hn, hns] at h
        cases h

theorem floats_perm {ms ns : List Int} (h : ms.Perm ns) :
    (∃ xs ys, (ms.mapM fun n => (PyNum.int n).toFloat) = .ok xs ∧
      (ns.mapM fun n => (PyNum.int n).toFloat) = .ok ys ∧ xs.Perm ys) ∨
    ((ms.mapM fun n => (PyNum.int n).toFloat) = .error .overflowError ∧
      (ns.mapM fun n => (PyNum.int n).toFloat) = .error .overflowError) := by
  cases hm : ms.mapM fun n => (PyNum.int n).toFloat with
  | ok xs =>
    obtain ⟨ys, hys, hperm⟩ := mapM_perm h hm
    exact .inl ⟨xs, ys, rfl, hys, hperm⟩
  | error e =>
    cases hn : ns.mapM fun n => (PyNum.int n).toFloat with
    | ok ys =>
      obtain ⟨xs, hxs, -⟩ := mapM_perm h.symm hn
      rw [hm] at hxs
      cases hxs
    | error e' => exact .inr ⟨congrArg _ (floats_error hm), congrArg _ (floats_error hn)⟩

theorem configurationRow_perm {xs ys : List Metrics} (h : xs.Perm ys) :
    configurationRow xs = configurationRow ys := by
  rcases floats_perm (h.filterMap (·.tokens)) with ⟨ts, us, hts, hus, hperm⟩ | ⟨hts, hus⟩
  · simp only [configurationRow, hts, hus, Outcome.ok_bind, h.length_eq, h.countP_eq,
      mean_perm (h.map _), mean_perm (h.filterMap _), (h.map _).sum_eq,
      meanFloats_perm (h.filterMap _), meanFloats_perm hperm]
  · simp only [configurationRow, hts, hus]
    rfl

theorem sortedPilots_congr {ps qs : List PilotId} (h : ∀ p, p ∈ ps ↔ p ∈ qs) :
    sortedPilots ps = sortedPilots qs := by
  simp only [sortedPilots, h]

theorem missingPilots_congr {ps qs : List PilotId} (h : ∀ p, p ∈ ps ↔ p ∈ qs) :
    missingPilots ps = missingPilots qs := by
  simp only [missingPilots, h]

section Attempts
variable {xs ys : List PilotAttempt} (h : xs.Perm ys)
include h

theorem identities_perm : identities xs = identities ys := sortedNames_eq_of_perm (h.map _)

theorem packsOf_perm (p : PilotId) : packsOf xs p = packsOf ys p :=
  sortedNames_eq_of_perm ((h.filter _).map _)

theorem scenarioKeys_perm : scenarioKeys xs = scenarioKeys ys := by
  simp only [scenarioKeys, packsOf_perm h]

theorem ofIdentity_perm (identity : Str) : (ofIdentity xs identity).Perm (ofIdentity ys identity) :=
  h.filter _

theorem aliasOf_perm : aliasOf xs = aliasOf ys := by
  funext identity
  simp only [aliasOf, aliases, identities_perm h]

theorem scenarioRows_perm : scenarioRows xs = scenarioRows ys := by
  have hrow : ∀ key : PilotId × Str,
      configurationRow ((xs.filter fun a => a.pilotId = key.1 ∧ a.pack = key.2).map (·.metrics)) =
        configurationRow ((ys.filter fun a => a.pilotId = key.1 ∧ a.pack = key.2).map (·.metrics)) :=
    fun key => configurationRow_perm ((h.filter _).map _)
  simp only [scenarioRows, scenarioKeys_perm h, hrow]

theorem coverageGates_perm (rows : List ScenarioRow) : coverageGates xs rows = coverageGates ys rows := by
  simp only [coverageGates, missingPilots_congr fun p => (h.map (·.pilotId)).mem_iff,
    packsOf_perm h, all_eq_of_perm h]

theorem leastLabel_perm : ((xs.map (·.label)).insertionSort (· ≤ ·)).head? =
    ((ys.map (·.label)).insertionSort (· ≤ ·)).head? :=
  congrArg List.head? (sort_eq_of_perm (h.map _))

theorem configuration_perm (labels : Bool) (name : Str) :
    configuration labels name xs = configuration labels name ys := by
  simp only [configuration, scenarioRows_perm h, coverageGates_perm h, leastLabel_perm h,
    packsOf_perm h, sortedPilots_congr fun p => (h.map (·.pilotId)).mem_iff,
    missingPilots_congr fun p => (h.map (·.pilotId)).mem_iff, h.length_eq, h.countP_eq]

theorem portfolioConfigurations_perm (labels : Bool) :
    portfolioConfigurations labels xs = portfolioConfigurations labels ys := by
  simp only [portfolioConfigurations, identities_perm h, aliasOf_perm h,
    configuration_perm (ofIdentity_perm h _)]

theorem configurationRows_perm (labels : Bool) (name : Str → Str) :
    configurationRows labels name xs = configurationRows labels name ys := by
  simp only [configurationRows, identities_perm h,
    configurationRow_perm ((ofIdentity_perm h _).map (·.metrics)),
    leastLabel_perm (ofIdentity_perm h _)]

theorem groupPairwise_perm : groupPairwise xs = groupPairwise ys := by
  have hgap := pairs_map_perm (f := fun a b : PilotAttempt =>
    (decide (a.identity = b.identity), distance a.metrics b.metrics))
    (fun a b => by rw [distance_comm, decide_eq_decide.mpr eq_comm]) h
  have hwithin := (hgap.filter (·.1)).map Prod.snd
  have hbetween := (hgap.filter fun g => !g.1).map Prod.snd
  simp only [groupPairwise, hwithin.length_eq, hbetween.length_eq, mean_perm hwithin,
    mean_perm hbetween, mean_perm (hwithin.map _), hwithin.isEmpty_eq, hbetween.isEmpty_eq,
    average_perm hwithin, average_perm hbetween]

theorem groupAnalysis_perm (labels : Bool) (name : Str → Str) (p : PilotId) (pack : Str) :
    groupAnalysis labels name p pack xs = groupAnalysis labels name p pack ys := by
  simp only [groupAnalysis, configurationRows_perm h, groupPairwise_perm h, h.length_eq,
    sortedNames_eq_of_perm (h.map _)]

end Attempts

end Round5
