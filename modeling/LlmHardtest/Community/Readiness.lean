import LlmHardtest.Community.Catalog
import LlmHardtest.Community.CollectionPlan
set_option autoImplicit false

/-! Three modules decide whether a configuration has enough evidence: the recommender, the planner
and the catalog. They agree. -/

namespace Community
open Python
open Round5 (require)

section Rows
variable {row : AggregateRow} {objectives : List Objective} {target : Nat}

theorem objectiveValue_isSome (row : AggregateRow) (o : Objective) :
    (objectiveValue (candidateMetrics row) o).isSome =
      decide (minBaselineSubmissions ≤ objectiveCount row o) := by
  have hgate : ∀ {v : Option PyFloat} {n : Nat}, v.isSome = decide (0 < n) →
      (if minBaselineSubmissions ≤ n then v else none).isSome =
        decide (minBaselineSubmissions ≤ n) := by
    intro v n hv
    by_cases hn : minBaselineSubmissions ≤ n
    · have hpos : 0 < n := by
        have hmin : minBaselineSubmissions = 5 := rfl
        omega
      rw [if_pos hn, hv, decide_eq_true hpos, decide_eq_true hn]
    · rw [if_neg hn, decide_eq_false hn]
      rfl
  cases o with
  | accuracy =>
    simp only [objectiveValue, candidateMetrics, Option.isSome_map]
    exact row.pass_gated
  | completion =>
    simp only [objectiveValue, candidateMetrics, Option.isSome_map]
    exact row.completion_gated
  | latency => exact hgate row.wall_measured
  | throughput => exact hgate row.tokenRate_measured

theorem gate_eligible : gate objectives none row = .eligible ↔
    minBaselineSubmissions ≤ objectiveCount row .accuracy ∧
      ∀ o ∈ objectives, minBaselineSubmissions ≤ objectiveCount row o := by
  have hpass := row.pass_gated
  unfold gate
  cases hinterval : row.passInterval with
  | none =>
    rw [hinterval] at hpass
    have hlt : ¬ minBaselineSubmissions ≤ row.observedSubmissions := by simpa using hpass
    simp [objectiveCount, hlt]
  | some interval =>
    rw [hinterval] at hpass
    have hle : minBaselineSubmissions ≤ row.observedSubmissions := by simpa using hpass
    have hmissing : (objectives.any fun o => (objectiveValue (candidateMetrics row) o).isNone) = false ↔
        ∀ o ∈ objectives, minBaselineSubmissions ≤ objectiveCount row o := by
      rw [List.any_eq_false]
      refine forall₂_congr fun o _ => ?_
      have hv := objectiveValue_isSome row o
      rw [← Option.not_isSome, hv]
      simp
    dsimp only
    split
    · rename_i hany
      have hnot := mt hmissing.mpr (by rw [hany]; decide)
      exact iff_of_false (by decide) fun h => hnot h.2
    · rename_i hany
      rw [Bool.not_eq_true] at hany
      simpa [objectiveCount, hle] using hmissing.mp hany

theorem foldr_max_eq_zero {l : List Nat} : l.foldr max 0 = 0 ↔ ∀ n ∈ l, n = 0 := by
  induction l with
  | nil => simp
  | cons n l ih =>
    rw [List.foldr_cons, Nat.max_eq_zero_iff, ih]
    simp

/-- A configuration is planned as ready exactly when every count meets its target. -/
theorem planRow_ready : (planRow objectives target row).ready = true ↔
    minBaselineSubmissions ≤ objectiveCount row .accuracy ∧
      ∀ o ∈ objectives, target ≤ objectiveCount row o := by
  simp only [planRow, decide_eq_true_eq, foldr_max_eq_zero, List.mem_append, List.mem_map,
    List.mem_singleton]
  constructor
  · intro h
    constructor
    · have hzero := h _ (.inr rfl)
      omega
    · intro o ho
      have hzero := h (target - objectiveCount row o) (.inl ⟨_, ⟨o, ho, rfl⟩, rfl⟩)
      omega
  · rintro ⟨hacc, hall⟩ n (⟨_, ⟨o, ho, rfl⟩, rfl⟩ | rfl)
    · have hle := hall o ho
      dsimp only
      omega
    · omega

theorem planRow_ready_iff_eligible :
    (planRow objectives minBaselineSubmissions row).ready = true ↔
      gate objectives none row = .eligible := by
  rw [planRow_ready, gate_eligible]

/-- The catalog shows an objective as ready exactly when the row passes the gates for it alone. -/
theorem observation_ready (row : AggregateRow) (o : Objective) :
    (observation row).readiness o = true ↔ gate [o] none row = .eligible := by
  have hacc := objectiveValue_isSome row .accuracy
  have hobj := objectiveValue_isSome row o
  simp only [objectiveValue, Option.isSome_map] at hacc
  rw [gate_eligible]
  simp only [List.mem_singleton, forall_eq]
  cases o with
  | accuracy =>
    simp only [observation, hacc, decide_eq_true_eq, and_self]
  | completion =>
    simp only [objectiveValue, Option.isSome_map] at hobj
    simp only [observation, hacc, hobj, Bool.and_eq_true, decide_eq_true_eq]
  | latency =>
    simp only [objectiveValue] at hobj
    simp only [observation, hacc, hobj, Bool.and_eq_true, decide_eq_true_eq]
  | throughput =>
    simp only [objectiveValue] at hobj
    simp only [observation, hacc, hobj, Bool.and_eq_true, decide_eq_true_eq]

end Rows

section Queries
variable (cf : Casefold) (rows : List AggregateRow) (c : Checked)

def selectedRows : List AggregateRow :=
  match selectedPack rows c with
  | none => []
  | some pack => matchedRows cf rows c.round pack c.constraints

theorem mem_availablePacks {rows : List AggregateRow} {round : Int} {pack : Str} :
    pack ∈ availablePacks rows round ↔ ∃ row ∈ roundRows rows round, row.key.pack.1 = pack := by
  simp [availablePacks, sortedNames, List.mem_insertionSort]

theorem matchedRows_of_not_available {pack : Str} (h : pack ∉ availablePacks rows c.round) :
    matchedRows cf rows c.round pack c.constraints = [] := by
  rw [matchedRows, List.filter_eq_nil_iff]
  intro row hrow hmatch
  rw [Bool.and_eq_true, decide_eq_true_eq] at hmatch
  exact h (mem_availablePacks.mpr ⟨row, hrow, hmatch.1⟩)

theorem selectedRows_of_many (h : c.pack.isNone = true)
    (hmany : 1 < (availablePacks rows c.round).length) : selectedRows cf rows c = [] := by
  have hpack : selectedPack rows c = none := by
    unfold selectedPack
    rw [Option.isNone_iff_eq_none.mp h]
    dsimp only
    split
    · rename_i pack hone
      rw [hone] at hmany
      simp at hmany
    · rfl
  rw [selectedRows, hpack]

/-- The recommender echoes its query and counts the rows it selects. -/
structure Echoes (r : Recommendation) : Prop where
  round : r.round = c.round
  pack : r.pack = selectedPack rows c
  availablePacks : r.availablePacks = Community.availablePacks rows c.round
  constraints : r.constraints = c.constraints
  objectives : r.objectives = c.objectives
  matched : r.matchedConfigurations = (selectedRows cf rows c).length
  eligible : r.eligibleConfigurations = (eligibleRows c (selectedRows cf rows c)).length
  packRequired : r.status = .packRequired → selectedRows cf rows c = []

theorem emptyRecommendation_echoes (h : selectedRows cf rows c = []) (status : RecommendStatus)
    (reason : Str) :
    Echoes cf rows c { emptyRecommendation rows c with status := status, reason := reason } where
  round := rfl
  pack := rfl
  availablePacks := rfl
  constraints := rfl
  objectives := rfl
  matched := by rw [h]; rfl
  eligible := by rw [h]; rfl
  packRequired _ := h

theorem verdict_ne_packRequired (matched eligible : Nat) :
    (verdict matched eligible).1 ≠ .packRequired := by
  unfold verdict
  split_ifs
  all_goals decide

theorem recommendChecked_echoes : Echoes cf rows c (recommendChecked cf rows c) := by
  unfold recommendChecked
  split
  · rename_i hmany
    rw [Bool.and_eq_true, decide_eq_true_eq] at hmany
    exact emptyRecommendation_echoes cf rows c (selectedRows_of_many cf rows c hmany.1 hmany.2) _ _
  · cases hpack : selectedPack rows c with
    | none =>
      have hnil : selectedRows cf rows c = [] := by rw [selectedRows, hpack]
      exact emptyRecommendation_echoes cf rows c hnil _ _
    | some pack =>
      have hrows : selectedRows cf rows c = matchedRows cf rows c.round pack c.constraints := by
        rw [selectedRows, hpack]
      dsimp only
      split
      · exact {
          round := rfl
          pack := rfl
          availablePacks := rfl
          constraints := rfl
          objectives := rfl
          matched := by rw [hrows]; rfl
          eligible := by rw [hrows]; rfl
          packRequired := fun h => absurd h (verdict_ne_packRequired _ _) }
      · rename_i hnot
        have hnil := hrows.trans (matchedRows_of_not_available cf rows c hnot)
        exact emptyRecommendation_echoes cf rows c hnil _ _

variable {cf rows c}

theorem planQuery_of_ne {r : Recommendation} (he : Echoes cf rows c r) (target : Nat)
    (h : selectedRows cf rows c ≠ []) :
    planQuery cf rows r target = planRows cf r target (selectedRows cf rows c) := by
  unfold planQuery
  rw [if_neg fun hreq => h (he.packRequired hreq), he.pack, he.availablePacks, he.round,
    he.constraints]
  unfold selectedRows at h ⊢
  cases hpack : selectedPack rows c with
  | none =>
    rw [hpack] at h
    exact absurd rfl h
  | some pack =>
    rw [hpack] at h
    dsimp only at h ⊢
    have hav : pack ∈ availablePacks rows c.round := by
      by_contra hnot
      exact h (matchedRows_of_not_available cf rows c hnot)
    rw [if_pos hav, if_neg (by simpa using h)]

theorem planQuery_of_nil {r : Recommendation} (he : Echoes cf rows c r) (target : Nat)
    (h : selectedRows cf rows c = []) : (planQuery cf rows r target).configurations = [] ∧
      (planQuery cf rows r target).matchedConfigurations = 0 ∧
      (planQuery cf rows r target).readyConfigurations = 0 ∧
      (planQuery cf rows r target).status ≠ .targetMet := by
  unfold planQuery
  split
  · exact ⟨rfl, rfl, rfl, by simp⟩
  · rw [he.pack, he.availablePacks, he.round, he.constraints]
    cases hpack : selectedPack rows c with
    | none => exact ⟨rfl, rfl, rfl, by simp [emptyPlan]⟩
    | some pack =>
      have hnil : matchedRows cf rows c.round pack c.constraints = [] := by
        rwa [selectedRows, hpack] at h
      dsimp only
      rw [hnil]
      split
      · exact ⟨rfl, rfl, rfl, by simp [emptyPlan]⟩
      · exact ⟨rfl, rfl, rfl, by simp [emptyPlan]⟩

theorem planQuery_planned {r : Recommendation} (he : Echoes cf rows c r) (target : Nat) :
    ((planQuery cf rows r target).configurations.map Planned.row).Perm (selectedRows cf rows c) ∧
      ∀ p ∈ (planQuery cf rows r target).configurations, p = planRow c.objectives target p.row := by
  by_cases hnil : selectedRows cf rows c = []
  · obtain ⟨hconf, -⟩ := planQuery_of_nil he target hnil
    rw [hconf, hnil]
    exact ⟨List.Perm.refl _, by simp⟩
  · rw [planQuery_of_ne he target hnil]
    simp only [planRows, he.objectives]
    constructor
    · refine ((List.perm_insertionSort _ _).map _).trans ?_
      rw [List.map_map]
      exact (List.Perm.of_eq (List.map_id _)).trans (List.perm_insertionSort _ _)
    · intro p hp
      rw [List.mem_insertionSort, List.mem_map] at hp
      obtain ⟨row, _, rfl⟩ := hp
      rfl

/-- The planner agrees with the recommender about the same query. -/
structure PlanAgrees (cf : Casefold) (rows : List AggregateRow) (c : Checked) (r : Recommendation)
    (plan : Plan) : Prop where
  planned : (plan.configurations.map Planned.row).Perm (selectedRows cf rows c)
  ready : ∀ p ∈ plan.configurations,
    p.ready = true ↔ p.row ∈ eligibleRows c (selectedRows cf rows c)
  eligible : r.eligibleConfigurations = (eligibleRows c (selectedRows cf rows c)).length
  matched : plan.matchedConfigurations = r.matchedConfigurations
  count : plan.readyConfigurations = r.eligibleConfigurations
  targetMet : plan.status = .targetMet ↔
    0 < r.matchedConfigurations ∧ r.eligibleConfigurations = r.matchedConfigurations

theorem planQuery_agrees {r : Recommendation} (he : Echoes cf rows c r)
    (hfloor : c.accuracyFloor = none) :
    PlanAgrees cf rows c r (planQuery cf rows r minBaselineSubmissions) := by
  obtain ⟨hlisted, hplan⟩ := planQuery_planned he minBaselineSubmissions
  have hready : ∀ p ∈ (planQuery cf rows r minBaselineSubmissions).configurations,
      p.ready = true ↔ p.row ∈ eligibleRows c (selectedRows cf rows c) := by
    intro p hp
    have hmem : p.row ∈ selectedRows cf rows c :=
      hlisted.mem_iff.mp (List.mem_map.mpr ⟨p, hp, rfl⟩)
    rw [hplan p hp, eligibleRows, List.mem_filter, hfloor, decide_eq_true_eq,
      planRow_ready_iff_eligible]
    exact ⟨fun h => ⟨hmem, h⟩, fun h => h.2⟩
  by_cases hnil : selectedRows cf rows c = []
  · obtain ⟨-, hmatched, hzero, hstatus⟩ := planQuery_of_nil he minBaselineSubmissions hnil
    have hcount : r.matchedConfigurations = 0 := by rw [he.matched, hnil]; rfl
    have helig : r.eligibleConfigurations = 0 := by rw [he.eligible, hnil]; rfl
    exact {
      planned := hlisted
      ready := hready
      eligible := he.eligible
      matched := by rw [hmatched, hcount]
      count := by rw [hzero, helig]
      targetMet := iff_of_false hstatus fun h => by omega }
  · have hplanned : ((selectedRows cf rows c).insertionSort (nameLe cf)).Perm
        (selectedRows cf rows c) := List.perm_insertionSort _ _
    have hcount : (((selectedRows cf rows c).insertionSort (nameLe cf)).map
        (planRow c.objectives minBaselineSubmissions)).countP Planned.ready =
          r.eligibleConfigurations := by
      rw [he.eligible, eligibleRows, ← List.countP_eq_length_filter, List.countP_map,
        hplanned.countP_eq]
      refine List.countP_congr fun row _ => ?_
      rw [Function.comp_apply, planRow_ready_iff_eligible, hfloor, decide_eq_true_eq]
    have hlength : (((selectedRows cf rows c).insertionSort (nameLe cf)).map
        (planRow c.objectives minBaselineSubmissions)).length = r.matchedConfigurations := by
      rw [List.length_map, List.length_insertionSort, he.matched]
    have hpos : 0 < r.matchedConfigurations := by
      rw [he.matched]
      exact List.length_pos_iff.mpr hnil
    rw [planQuery_of_ne he minBaselineSubmissions hnil] at hlisted hready ⊢
    exact {
      planned := hlisted
      ready := hready
      eligible := he.eligible
      matched := by simp only [planRows, he.objectives]; exact hlength
      count := by simp only [planRows, he.objectives]; exact hcount
      targetMet := by
        simp only [planRows, he.objectives, hcount, hlength]
        split
        · rename_i heq
          simp [hpos, heq]
        · rename_i heq
          simp [heq] }

end Queries

section Catalog
variable {cf : Casefold} {rows : List AggregateRow} {row : AggregateRow} {o : Objective}

def configurationQuery (row : AggregateRow) (o : Objective) : Query where
  roundNumber := row.key.round.1
  pack := some row.key.pack.1
  constraints := some [("configuration".toList, .str row.key.configuration.1)]
  objectives := some [o.name.toList]

theorem isLowerHex_range {c : Char} (h : isLowerHex c = true) :
    (48 ≤ c.toNat ∧ c.toNat ≤ 57) ∨ (97 ≤ c.toNat ∧ c.toNat ≤ 102) := by
  simp only [isLowerHex, Bool.or_eq_true, Bool.and_eq_true, decide_eq_true_eq, Char.isDigit] at h
  rcases h with h | h
  · have h1 : 48 ≤ c.toNat := UInt32.le_iff_toNat_le.mp h.1
    have h2 : c.toNat ≤ 57 := UInt32.le_iff_toNat_le.mp h.2
    exact .inl ⟨h1, h2⟩
  · exact .inr h

theorem isSpace_of_isLowerHex {c : Char} (h : isLowerHex c = true) : isSpace c = false := by
  have hr := isLowerHex_range h
  simp only [isSpace, Bool.or_eq_false_iff, Bool.and_eq_false_iff, decide_eq_false_iff_not,
    beq_eq_false_iff_ne]
  omega

theorem strip_of_not_space {s : Str} (h : ∀ c ∈ s, isSpace c = false) : strip s = s := by
  have hdrop : ∀ l : Str, (∀ c ∈ l, isSpace c = false) → l.dropWhile isSpace = l := by
    intro l hl
    cases l with
    | nil => rfl
    | cons c l => rw [List.dropWhile_cons_of_neg (by rw [hl c (by simp)]; simp)]
  rw [strip, hdrop s h, hdrop s.reverse fun c hc => h c (List.mem_reverse.mp hc), List.reverse_reverse]

theorem safeText_configurationId (id : ConfigurationId) : safeText id.1 = true := by
  have hid := id.2
  simp only [isConfigurationId, Bool.and_eq_true, beq_iff_eq, List.all_eq_true] at hid
  have hstrip := strip_of_not_space fun c hc => isSpace_of_isLowerHex (hid.2 c hc)
  simp only [safeText, Bool.and_eq_true, decide_eq_true_eq, List.all_eq_true]
  refine ⟨⟨?_, by omega⟩, fun c hc => ?_⟩
  · rw [hstrip]
    cases hs : id.1 with
    | nil =>
      rw [hs] at hid
      simp at hid
    | cons c s => rfl
  · have hr := isLowerHex_range (hid.2 c hc)
    omega

theorem fold_configurationId {a b : ConfigurationId} (h : cf.fold a.1 = cf.fold b.1) : a = b := by
  have hfold : ∀ id : ConfigurationId, cf.fold id.1 = id.1 := by
    intro id
    have hid := id.2
    simp only [isConfigurationId, Bool.and_eq_true, beq_iff_eq, List.all_eq_true] at hid
    rw [cf.ascii id.1 fun c hc => by have hr := isLowerHex_range (hid.2 c hc); omega]
    refine (List.map_congr_left fun c hc => ?_).trans (List.map_id _)
    have hr := isLowerHex_range (hid.2 c hc)
    simp only [Char.toLower, id_eq]
    rw [dif_neg]
    intro hu
    have h1 : 65 ≤ c.toNat := UInt32.le_iff_toNat_le.mp hu.1
    have h2 : c.toNat ≤ 90 := UInt32.le_iff_toNat_le.mp hu.2
    omega
  rw [hfold, hfold] at h
  exact Subtype.ext h

theorem forM_cons_ok {α : Type} {f : α → Outcome PUnit} {a : α} {l : List α} (ha : f a = .ok ())
    (hl : l.forM f = .ok ()) : (a :: l).forM f = .ok () := by
  change (f a >>= fun _ => l.forM f) = .ok ()
  rw [ha]
  exact hl

theorem checkEach_singleton {key : Str} {v : Json} {names : List String}
    {check : String → Json → Outcome Unit}
    (h : ∀ name ∈ names, name.toList = key → check name v = .ok ()) :
    checkEach [(key, v)] names check = .ok () := by
  induction names with
  | nil => rfl
  | cons name names ih =>
    refine forM_cons_ok ?_ (ih fun n hn => h n (by simp [hn]))
    rw [List.lookup_cons]
    by_cases hk : name.toList = key
    · rw [hk, BEq.rfl]
      exact h name (by simp) hk
    · have hne : (name.toList == key) = false := by simpa using hk
      rw [hne]
      rfl

theorem checkEach_of_not_mem {key : Str} {v : Json} {names : List String}
    {check : String → Json → Outcome Unit} (h : key ∉ names.map String.toList) :
    checkEach [(key, v)] names check = .ok () :=
  checkEach_singleton fun name hn hk => absurd (List.mem_map.mpr ⟨name, hn, hk⟩) h

theorem checkText_of_ne {key : Str} {v : Json} {name : String} {ok : Str → Bool} {message : String}
    (h : name.toList ≠ key) : checkText [(key, v)] name ok message = .ok () := by
  have hne : (name.toList == key) = false := by simpa using h
  rw [checkText, constraintText, List.lookup_cons, hne]
  rfl

theorem checkConstraints_configuration (id : ConfigurationId) :
    checkConstraints [("configuration".toList, .str id.1)] = .ok () := by
  have hsafe := safeText_configurationId id
  have hid := id.2
  have htext : checkEach [("configuration".toList, .str id.1)] textConstraints checkSafeText =
      .ok () := by
    refine checkEach_singleton fun name _ _ => ?_
    rw [checkSafeText, hsafe]
    rfl
  have hown : checkText [("configuration".toList, .str id.1)] "configuration" isConfigurationId
      "recommendation constraint configuration must be an exact 10-character ID" = .ok () := by
    rw [checkText, constraintText, List.lookup_cons, BEq.rfl]
    dsimp only
    rw [hid]
    rfl
  have hknown : (([("configuration".toList, Json.str id.1)].map Prod.fst).filter fun key =>
      !inNames (textConstraints ++ numericConstraints ++ maxConstraints) key) = [] := by
    have hin : inNames (textConstraints ++ numericConstraints ++ maxConstraints)
        "configuration".toList = true := by decide
    rw [List.map_cons, List.map_nil, List.filter_cons_of_neg (by rw [hin]; decide), List.filter_nil]
  unfold checkConstraints
  dsimp only
  rw [hknown, checkEach_of_not_mem (by decide), checkEach_of_not_mem (by decide), htext, hown,
    checkText_of_ne (by decide), checkText_of_ne (by decide), checkText_of_ne (by decide),
    checkText_of_ne (by decide), checkText_of_ne (by decide)]
  rfl

theorem checkObjectives_single (o : Objective) : checkObjectives (some [o.name.toList]) = .ok [o] := by
  cases o <;> rfl

theorem checkQuery_configuration (row : AggregateRow) (o : Objective) :
    checkQuery (configurationQuery row o) = .ok {
      round := row.key.round.1, pack := some row.key.pack.1
      constraints := [("configuration".toList, .str row.key.configuration.1)]
      objectives := [o], accuracyFloor := none } := by
  have hround : (decide (1 ≤ (row.key.round.1 : Int)) && decide ((row.key.round.1 : Int) ≤ 4)) =
      true := by
    have h := row.key.round.2
    simp only [Bool.and_eq_true, decide_eq_true_eq]
    omega
  have hpack : (some row.key.pack.1).all isFingerprint = true := row.key.pack.2
  unfold checkQuery configurationQuery
  dsimp only
  rw [hround, Option.getD_some, checkConstraints_configuration, checkObjectives_single, hpack]
  rfl

def SameCoordinates (a b : AggregateRow) : Prop :=
  a.key.round = b.key.round ∧ a.key.pack = b.key.pack ∧ a.key.configuration = b.key.configuration

theorem meets_configuration (a b : ConfigurationId) :
    meets cf "configuration".toList (.text a.1) (.str b.1) = decide (a = b) := by
  have hmax : inNames maxConstraints "configuration".toList = false := by decide
  rw [meets, hmax, if_neg (by decide), meetsValue]
  by_cases h : a = b
  · subst h
    simp
  · have hne : cf.fold a.1 ≠ cf.fold b.1 := fun he => h (fold_configurationId he)
    simpa [h] using hne

theorem mem_selectedRows_configuration {c : Checked} {other : AggregateRow}
    (hc : checkQuery (configurationQuery row o) = .ok c) :
    other ∈ selectedRows cf rows c ↔ other ∈ rows ∧ SameCoordinates other row := by
  rw [checkQuery_configuration] at hc
  injection hc with hc
  rw [← hc]
  simp only [selectedRows, selectedPack, matchedRows, roundRows, matchesConstraints, List.mem_filter,
    List.all_cons, List.all_nil, Bool.and_true, Bool.and_eq_true, decide_eq_true_eq]
  have hvalue : constraintValue other "configuration".toList = some (.text other.key.configuration.1) :=
    if_pos rfl
  rw [hvalue]
  dsimp only
  rw [meets_configuration, decide_eq_true_eq, SameCoordinates, Nat.cast_inj, Subtype.coe_inj,
    Subtype.coe_inj, and_assoc]

/-- What the catalog shows for an objective is what the recommender finds for it alone. -/
structure CatalogAgrees (cf : Casefold) (rows : List AggregateRow) (row : AggregateRow)
    (o : Objective) (c : Checked) (r : Recommendation) : Prop where
  query : checkQuery (configurationQuery row o) = .ok c
  recommendation : recommendAggregateRows cf rows (configurationQuery row o) = .ok r
  selected : ∀ other, other ∈ selectedRows cf rows c ↔ other ∈ rows ∧ SameCoordinates other row
  eligible : r.eligibleConfigurations = (eligibleRows c (selectedRows cf rows c)).length
  ready : (observation row).readiness o = true ↔ row ∈ eligibleRows c (selectedRows cf rows c)

theorem observation_agrees (hrow : row ∈ rows) (o : Objective) :
    ∃ c r, CatalogAgrees cf rows row o c r := by
  obtain ⟨c, hc⟩ : ∃ c, checkQuery (configurationQuery row o) = .ok c :=
    ⟨_, checkQuery_configuration row o⟩
  have hselected := fun other => @mem_selectedRows_configuration cf rows row o c other hc
  have hready : (observation row).readiness o = true ↔
      row ∈ eligibleRows c (selectedRows cf rows c) := by
    have hparts := hc
    rw [checkQuery_configuration] at hparts
    injection hparts with hparts
    rw [observation_ready, eligibleRows, List.mem_filter, decide_eq_true_eq, hselected, ← hparts]
    exact ⟨fun h => ⟨⟨hrow, rfl, rfl, rfl⟩, h⟩, fun h => h.2⟩
  exact ⟨c, recommendChecked cf rows c, {
    query := hc
    recommendation := by rw [recommendAggregateRows, hc]; rfl
    selected := hselected
    eligible := (recommendChecked_echoes cf rows c).eligible
    ready := hready }⟩

end Catalog

structure ReadinessAgreement (cf : Casefold) (rows : List AggregateRow) (q : Query) : Prop where
  rejected : ∀ e, recommendAggregateRows cf rows q = .error e →
    buildCollectionPlan cf rows q minBaselineSubmissions = .error e
  planned : ∀ r, recommendAggregateRows cf rows q = .ok r → ∃ c plan, checkQuery q = .ok c ∧
    buildCollectionPlan cf rows q minBaselineSubmissions = .ok plan ∧ PlanAgrees cf rows c r plan
  catalog : ∀ row ∈ rows, ∀ o, ∃ c r, CatalogAgrees cf rows row o c r

theorem checkQuery_floor {q : Query} {c : Checked} (h : checkQuery q = .ok c)
    (hfloor : q.accuracyFloor = none) : c.accuracyFloor = none := by
  unfold checkQuery at h
  obtain ⟨_, h⟩ := Outcome.unit_bind.mp h
  obtain ⟨_, h⟩ := Outcome.unit_bind.mp h
  obtain ⟨_, _, h⟩ := Failures.bind_eq_ok.mp h
  obtain ⟨floor, hf, h⟩ := Failures.bind_eq_ok.mp h
  obtain ⟨_, h⟩ := Outcome.unit_bind.mp h
  rw [hfloor] at hf
  cases hf
  cases h
  rfl

/-- Readiness is one notion, whatever the rows and the query. -/
theorem readiness_agreement (cf : Casefold) (rows : List AggregateRow) (q : Query)
    (hfloor : q.accuracyFloor = none) : ReadinessAgreement cf rows q := by
  have hq : { q with accuracyFloor := none } = q := by
    cases q
    cases hfloor
    rfl
  have hplan : buildCollectionPlan cf rows q minBaselineSubmissions =
      (recommendAggregateRows cf rows q >>= fun r =>
        .ok (planQuery cf rows r minBaselineSubmissions)) := by
    unfold buildCollectionPlan
    rw [hq]
    rfl
  constructor
  · intro e he
    rw [hplan, he]
    rfl
  · intro r hr
    rw [hplan, hr]
    obtain ⟨c, hc, hr⟩ := Failures.bind_eq_ok.mp hr
    cases hr
    exact ⟨c, _, hc, rfl, planQuery_agrees (recommendChecked_echoes cf rows c)
      (checkQuery_floor hc hfloor)⟩
  · intro row hrow o
    exact observation_agrees hrow o

def asciiCasefold : Casefold where
  fold s := s.map Char.toLower
  ascii _ _ := rfl

def samplePack : Fingerprint := ⟨"sha256:".toList ++ List.replicate 64 'a', by decide⟩

def sampleRow (configuration : ConfigurationId) (scored timed : Nat) : AggregateRow where
  key := ⟨firstRound, samplePack, "model".toList, configuration⟩
  identity := ⟨⟨"Linux".toList, "x86_64".toList, "3.12".toList⟩, ⟨"unreported".toList, none, none⟩,
    "model".toList, "openai_compat".toList, [], []⟩
  submissions := scored
  runs := scored
  passed := .int scored
  total := .int scored
  incomplete := .int 0
  manualReview := .int 0
  infrastructureErrors := .int 0
  observedSubmissions := scored
  passInterval := if minBaselineSubmissions ≤ scored then some ⟨.finite 1, 0, 1, scored⟩ else none
  completionObserved := 0
  completionInterval := none
  itemWallP50 := if 0 < timed then some (.finite 1) else none
  itemWallP90 := if 0 < timed then some (.finite 1) else none
  itemWallObserved := timed
  tokensPerSecondP50 := none
  tokenRateObserved := 0
  pass_gated := by split <;> simp_all
  completion_gated := rfl
  wall_measured := by split <;> simp_all
  tokenRate_measured := rfl

def sampleRows : List AggregateRow :=
  [sampleRow ⟨"0123456789".toList, by decide⟩ 5 5, sampleRow ⟨"abcdef0123".toList, by decide⟩ 5 4]

def latencyQuery : Query := { roundNumber := 1, objectives := some ["latency".toList] }

/-- Of two scored configurations one is ready for latency, and all three modules say so. -/
theorem sampleRows_agreement : ReadinessAgreement asciiCasefold sampleRows latencyQuery ∧
    ((recommendAggregateRows asciiCasefold sampleRows latencyQuery).toOption.map fun r =>
      (r.matchedConfigurations, r.eligibleConfigurations)) = some (2, 1) :=
  ⟨readiness_agreement asciiCasefold sampleRows latencyQuery rfl, by decide +kernel⟩

end Community
