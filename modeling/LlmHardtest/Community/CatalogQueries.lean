import LlmHardtest.Community.CatalogFields
set_option autoImplicit false

/-! The values that a catalog lists, put back as constraints. -/

namespace Community
open Python Binary64
open Round5 (require_bind require_ok)

/-- Integers are floats, and the first spelling of each text is short enough. -/
structure QueryableValues (cf : Casefold) (rows : List AggregateRow) : Prop where
  numbers : ∀ row ∈ rows, ∀ field ∈ facetFields, ∀ n,
    facetValue row field = some (.number (.int n)) → nearest n = n
  texts : ∀ row ∈ rows, ∀ field ∈ facetFields, ∀ s, facetValue row field = some (.text s) →
    (∀ other ∈ rows, other.key.round = row.key.round → other.key.pack = row.key.pack →
      ∀ t, facetValue other field = some (.text t) → cf.fold t = cf.fold s → s ≤ t) →
    s.length ≤ textLimit field

def facetQuery (round : Int) (pack : Str) (field : String) (value : Setting) : Query where
  roundNumber := round
  pack := some pack
  constraints := some [(field.toList, value.json)]

/-- The recommender takes the value and matches the configurations that the catalog counts. -/
def Usable (cf : Casefold) (rows : List AggregateRow) (round : Int) (pack : Str) (field : String)
    (f : Facet) : Prop :=
  ∃ r, recommendAggregateRows cf rows (facetQuery round pack field f.value) = .ok r ∧
    r.matchedConfigurations = f.configurations

structure CatalogUsable (cf : Casefold) (rows : List AggregateRow) : Prop where
  returns : ∀ row ∈ rows, ∃ c, buildCatalog cf rows (some row.key.round.1) (some row.key.pack.1) = .ok c
  facets : ∀ round pack c, buildCatalog cf rows (some round) (some pack) = .ok c →
    ∀ e ∈ c.facets, ∀ f ∈ e.2, Usable cf rows round pack e.1 f
  missing : ∀ row ∈ rows, ∀ field ∈ facetFields, facetValue row field = none → ∀ constraints,
    (∃ e ∈ constraints, e.1 = field.toList ∨
      inNames maxConstraints e.1 = true ∧ e.1 = ("max_" ++ field).toList) →
      matchesConstraints cf row constraints = false

/-! The groups of a field. -/

/-- What a value is grouped by, when its float does not overflow. -/
def groupOf (cf : Casefold) : Setting → FacetIdentity
  | .text s => .text (cf.fold s)
  | .number (.int n) => .number (nearest n)
  | .number (.float q) => .number q

def entryOf (cf : Casefold) (field : String) (row : AggregateRow) : Option FacetEntry :=
  (facetValue row field).map fun v => ⟨groupOf cf v, v, row⟩

def hasIdentity (cf : Casefold) (field : String) (id : FacetIdentity) (row : AggregateRow) : Bool :=
  decide ((facetValue row field).map (groupOf cf) = some id)

def members (cf : Casefold) (rows : List AggregateRow) (field : String) (id : FacetIdentity) :
    List FacetEntry :=
  (rows.filterMap (entryOf cf field)).filter fun e => e.identity = id

section Groups
variable {cf : Casefold} {rows : List AggregateRow} {field : String} {id : FacetIdentity}

theorem facetIdentity_eq {v : Setting} (h : ∀ n, v = .number (.int n) → |n| < floatOverflow) :
    facetIdentity cf v = .ok (groupOf cf v) := by
  cases v with
  | text s => rfl
  | number n =>
    cases n with
    | int n =>
      have hlt := h n rfl
      rw [facetIdentity, facetNumber, if_neg (by omega)]
      rfl
    | float q => rfl

theorem facetEntries_eq (h : ∀ row ∈ rows, ∀ n,
    facetValue row field = some (.number (.int n)) → |n| < floatOverflow) :
    facetEntries cf rows field = .ok (rows.filterMap (entryOf cf field)) := by
  induction rows with
  | nil => rfl
  | cons row rows ih =>
    have hrest := ih fun r hr => h r (by simp [hr])
    unfold facetEntries at hrest ⊢
    rw [List.filterMap_cons, List.filterMap_cons, entryOf]
    cases hv : facetValue row field with
    | none => exact hrest
    | some v =>
      have hidentity : facetIdentity cf v = .ok (groupOf cf v) :=
        facetIdentity_eq fun n hn => h row (by simp) n (hn ▸ hv)
      simp only [Option.map_some, List.mapM_cons, hidentity, hrest]
      rfl

theorem mem_members {e : FacetEntry} : e ∈ members cf rows field id ↔
    ∃ row ∈ rows, ∃ v, facetValue row field = some v ∧ groupOf cf v = id ∧ e = ⟨id, v, row⟩ := by
  simp only [members, entryOf, List.mem_filter, List.mem_filterMap, Option.map_eq_some_iff,
    decide_eq_true_eq]
  constructor
  · rintro ⟨⟨row, hrow, v, hv, rfl⟩, rfl⟩
    exact ⟨row, hrow, v, hv, rfl, rfl⟩
  · rintro ⟨row, hrow, v, hv, rfl, rfl⟩
    exact ⟨⟨row, hrow, v, hv, rfl⟩, rfl⟩

theorem members_rows :
    (members cf rows field id).map FacetEntry.row = rows.filter (hasIdentity cf field id) := by
  induction rows with
  | nil => rfl
  | cons row rows ih =>
    unfold members at ih ⊢
    rw [List.filterMap_cons, List.filter_cons, entryOf, hasIdentity]
    cases hv : facetValue row field with
    | none => simpa using ih
    | some v =>
      by_cases hid : groupOf cf v = id
      · simpa [hid] using ih
      · simpa [hid] using ih

instance : Std.Total (spellingLe cf) where
  total s t := by
    unfold spellingLe
    rcases lt_trichotomy (cf.fold s) (cf.fold t) with h | h | h
    · exact .inl (.inl h)
    · exact (le_total s t).imp (fun hle => .inr ⟨h, hle⟩) fun hle => .inr ⟨h.symm, hle⟩
    · exact .inr (.inl h)

instance : IsTrans Str (spellingLe cf) where
  trans s t r := by
    unfold spellingLe
    rintro (hst | ⟨hst, hle⟩) (htr | ⟨htr, hle'⟩)
    · exact .inl (hst.trans htr)
    · exact .inl (htr ▸ hst)
    · exact .inl (hst ▸ htr)
    · exact .inr ⟨hst.trans htr, hle.trans hle'⟩

theorem representative_text {folded : Str} (h : ∃ row ∈ rows, hasIdentity cf field (.text folded) row = true) :
    ∃ t, representative cf (.text folded) (members cf rows field (.text folded)) = .text t ∧
      cf.fold t = folded ∧ (∃ row ∈ rows, facetValue row field = some (.text t)) ∧
      ∀ row ∈ rows, ∀ u, facetValue row field = some (.text u) → cf.fold u = folded → t ≤ u := by
  have hmem : ∀ u, u ∈ (spellings (members cf rows field (.text folded))).dedup.insertionSort
      (spellingLe cf) ↔ ∃ row ∈ rows, facetValue row field = some (.text u) ∧ cf.fold u = folded := by
    intro u
    rw [List.mem_insertionSort, List.mem_dedup, spellings, List.mem_filterMap]
    constructor
    · rintro ⟨e, he, hu⟩
      obtain ⟨row, hrow, v, hv, hid, rfl⟩ := mem_members.mp he
      dsimp only at hu
      cases v with
      | text s =>
        cases hu
        exact ⟨row, hrow, hv, by simpa [groupOf] using hid⟩
      | number n => cases hu
    · rintro ⟨row, hrow, hv, hfold⟩
      exact ⟨_, mem_members.mpr ⟨row, hrow, _, hv, by rw [groupOf, hfold], rfl⟩, rfl⟩
  obtain ⟨row, hrow, hid⟩ := h
  have hsome : ∃ u, facetValue row field = some (.text u) ∧ cf.fold u = folded := by
    have hid' := of_decide_eq_true hid
    cases hv : facetValue row field with
    | none => simp [hv] at hid'
    | some v =>
      cases v with
      | text u => exact ⟨u, rfl, by simpa [hv, groupOf] using hid'⟩
      | number n => cases n <;> simp [hv, groupOf] at hid'
  obtain ⟨u, hu, hfold⟩ := hsome
  cases hl : (spellings (members cf rows field (.text folded))).dedup.insertionSort (spellingLe cf) with
  | nil =>
    have hin := (hmem u).mpr ⟨row, hrow, hu, hfold⟩
    rw [hl] at hin
    simp at hin
  | cons t rest =>
    obtain ⟨other, hother, hvalue, hfolded⟩ := (hmem t).mp (by rw [hl]; simp)
    have hsorted := List.pairwise_insertionSort (spellingLe cf)
      (spellings (members cf rows field (.text folded))).dedup
    rw [hl, List.pairwise_cons] at hsorted
    refine ⟨t, by rw [representative, hl]; rfl, hfolded, ⟨other, hother, hvalue⟩, ?_⟩
    intro r hr w hw hwfold
    have hin := (hmem w).mpr ⟨r, hr, hw, hwfold⟩
    rw [hl] at hin
    rcases List.mem_cons.mp hin with rfl | hin
    · exact le_refl _
    · rcases hsorted.1 w hin with hlt | ⟨-, hle⟩
      · rw [hfolded, hwfold] at hlt
        exact absurd hlt (lt_irrefl _)
      · exact hle

theorem matches_text {row : AggregateRow} {t : Str} (hf : field ∈ facetFields) :
    matchesConstraints cf row [(field.toList, (Setting.text t).json)] =
      hasIdentity cf field (.text (cf.fold t)) row := by
  have hmax : ∀ f ∈ facetFields, inNames maxConstraints f.toList = false := by decide +kernel
  simp only [matchesConstraints, List.all_cons, List.all_nil, Bool.and_true, hasIdentity,
    constraintValue_facet hf]
  cases hv : facetValue row field with
  | none => simp
  | some v =>
    simp only [meets, hmax field hf, Bool.false_eq_true, if_false, Option.map_some, Option.some.injEq]
    cases v with
    | text s => simp [meetsValue, groupOf, Bool.beq_eq_decide_eq]
    | number n => cases n <;> simp [meetsValue, groupOf]

theorem matches_number {row : AggregateRow} {x : ℚ} (hf : field ∈ facetFields) :
    matchesConstraints cf row [(field.toList, (Setting.number (.float x)).json)] = true ↔
      ∃ n, facetValue row field = some (.number n) ∧ n.value = x := by
  have hmax : ∀ f ∈ facetFields, inNames maxConstraints f.toList = false := by decide +kernel
  simp only [matchesConstraints, List.all_cons, List.all_nil, Bool.and_true,
    constraintValue_facet hf]
  cases hv : facetValue row field with
  | none => simp
  | some v =>
    simp only [meets, hmax field hf, Bool.false_eq_true, if_false]
    cases v with
    | text s => simp [meetsValue]
    | number n => simp [meetsValue, Json.comparable, eq_comm]

theorem hasIdentity_number {row : AggregateRow} {x : ℚ} :
    hasIdentity cf field (.number x) row = true ↔
      (∃ n : Int, facetValue row field = some (.number (.int n)) ∧ nearest n = x) ∨
        facetValue row field = some (.number (.float x)) := by
  rw [hasIdentity, decide_eq_true_eq]
  cases hv : facetValue row field with
  | none => simp
  | some v =>
    cases v with
    | text s => simp [groupOf]
    | number n => cases n <;> simp [groupOf]

/-- An integer that is the float of another one is a float. -/
theorem hasIdentity_of_matches {row : AggregateRow} {n : Int} (hf : field ∈ facetFields)
    (h : matchesConstraints cf row
      [(field.toList, (Setting.number (.float (nearest n))).json)] = true) :
    hasIdentity cf field (.number (nearest n)) row = true := by
  obtain ⟨m, hm, hvalue⟩ := (matches_number hf).mp h
  refine hasIdentity_number.mpr ?_
  cases m with
  | int m =>
    have hcast : (m : ℚ) = nearest n := hvalue
    exact .inl ⟨m, hm, by rw [hcast, nearest_nearest]⟩
  | float q => exact .inr (by rw [hm, ← hvalue]; rfl)

end Groups

/-! A whole catalog. -/

section Rows
variable {cf : Casefold} {rows : List AggregateRow} {round : Int} {pack : Str} {field : String}

theorem mem_catalogRows {row : AggregateRow} :
    row ∈ catalogRows cf rows (some round) (some pack) ↔
      row ∈ rows ∧ (row.key.round.1 : Int) = round ∧ row.key.pack.1 = pack := by
  simp [catalogRows]

theorem nodup_configurations (hc : Coherent rows) :
    ((catalogRows cf rows (some round) (some pack)).map fun row => row.key.configuration).Nodup := by
  have hnodup : (catalogRows cf rows (some round) (some pack)).Nodup := by
    refine (List.perm_insertionSort _ _).nodup_iff.mpr (List.Nodup.filter _ ?_)
    exact List.Nodup.of_map _ hc.keys
  refine hnodup.map_on fun row hrow other hother hconf => ?_
  obtain ⟨hrow, hround, hpack⟩ := mem_catalogRows.mp hrow
  obtain ⟨hother, hround', hpack'⟩ := mem_catalogRows.mp hother
  refine List.inj_on_of_nodup_map hc.keys hrow hother ?_
  have h1 : row.key.round = other.key.round := Subtype.ext (by omega)
  have h2 : row.key.pack = other.key.pack := Subtype.ext (hpack.trans hpack'.symm)
  have h3 := hc.model_eq hrow hother hconf
  cases hk : row.key
  cases hk' : other.key
  simp only [hk, hk'] at h1 h2 h3 hconf
  rw [h1, h2, h3, hconf]

theorem countConfigurations_filter (hc : Coherent rows) (p : AggregateRow → Bool) :
    countConfigurations ((catalogRows cf rows (some round) (some pack)).filter p) =
      ((catalogRows cf rows (some round) (some pack)).filter p).length := by
  have hnodup : (((catalogRows cf rows (some round) (some pack)).filter p).map fun row =>
      row.key.configuration).Nodup :=
    (nodup_configurations hc).sublist (List.filter_sublist.map _)
  rw [countConfigurations, hnodup.dedup, List.length_map]

def facetsOf (cf : Casefold) (rows : List AggregateRow) (field : String) : List Facet :=
  ((GroupBy.groupBy FacetEntry.identity (rows.filterMap (entryOf cf field))).insertionSort
    fun g h => g.1.le h.1 = true).map (facetOf cf)

theorem mem_facetsOf {f : Facet} : f ∈ facetsOf cf rows field ↔
    ∃ id, (∃ row ∈ rows, hasIdentity cf field id row = true) ∧
      f = facetOf cf (id, members cf rows field id) := by
  simp only [facetsOf, List.mem_map, List.mem_insertionSort]
  constructor
  · rintro ⟨⟨id, g⟩, hg, rfl⟩
    obtain ⟨⟨e, he, hid⟩, rfl⟩ := GroupBy.mem_groupBy.mp hg
    have hmem : e ∈ members cf rows field id := List.mem_filter.mpr ⟨he, by simpa using hid⟩
    obtain ⟨row, hrow, v, hv, hgroup, _⟩ := mem_members.mp hmem
    exact ⟨id, ⟨row, hrow, by simp [hasIdentity, hv, hgroup]⟩, rfl⟩
  · rintro ⟨id, ⟨row, hrow, hid⟩, rfl⟩
    refine ⟨(id, members cf rows field id), GroupBy.mem_groupBy.mpr ⟨?_, rfl⟩, rfl⟩
    obtain ⟨v, hv, hgroup⟩ := Option.map_eq_some_iff.mp (of_decide_eq_true hid)
    exact ⟨⟨groupOf cf v, v, row⟩, List.mem_filterMap.mpr ⟨row, hrow, by simp [entryOf, hv]⟩, hgroup⟩

theorem mapM_eq_map {α β : Type} {f : α → Outcome β} {g : α → β} {l : List α}
    (h : ∀ a ∈ l, f a = .ok (g a)) : l.mapM f = .ok (l.map g) := by
  induction l with
  | nil => rfl
  | cons a l ih =>
    rw [List.mapM_cons, h a (by simp), ih fun b hb => h b (by simp [hb])]
    rfl

theorem facetRows_eq (hc : Coherent rows) (hf : field ∈ facetFields) :
    facetRows cf (catalogRows cf rows (some round) (some pack)) field =
      .ok (facetsOf cf (catalogRows cf rows (some round) (some pack)) field,
        missingCoordinate (catalogRows cf rows (some round) (some pack)) field) := by
  have hentries : facetEntries cf (catalogRows cf rows (some round) (some pack)) field =
      .ok ((catalogRows cf rows (some round) (some pack)).filterMap (entryOf cf field)) :=
    facetEntries_eq fun row hrow n hn =>
      (facetValue_number (hc.accepted row (mem_catalogRows.mp hrow).1) hf hn).2 n rfl
  rw [facetRows, hentries]
  rfl

theorem catalogConfiguration_returns (hc : Coherent rows) {g : ConfigurationId × List AggregateRow}
    (hg : g ∈ GroupBy.groupBy (fun row => row.key.configuration)
      (catalogRows cf rows (some round) (some pack))) : ∃ made, catalogConfiguration g = .ok made := by
  have hne := GroupBy.groupBy_ne_nil hg
  obtain ⟨id, rs⟩ := g
  obtain ⟨-, hrs⟩ := GroupBy.mem_groupBy.mp hg
  dsimp only at hne
  have hmem : ∀ r ∈ rs, r ∈ rows ∧ r.key.configuration = id := by
    intro r hr
    rw [hrs] at hr
    obtain ⟨hr, hconf⟩ := List.mem_filter.mp hr
    exact ⟨(mem_catalogRows.mp hr).1, of_decide_eq_true hconf⟩
  cases rs with
  | nil => exact absurd rfl hne
  | cons first rest =>
    have hall : (rest.all fun r => r.key.model == first.key.model &&
        r.identity.same first.identity) = true := by
      rw [List.all_eq_true]
      intro r hr
      obtain ⟨hr, hconf⟩ := hmem r (by simp [hr])
      obtain ⟨hfirst, hconf'⟩ := hmem first (by simp)
      have heq := hconf.trans hconf'.symm
      rw [Bool.and_eq_true, beq_iff_eq]
      exact ⟨hc.model_eq hr hfirst heq, hc.same r hr first hfirst heq⟩
    unfold catalogConfiguration
    dsimp only
    rw [hall]
    exact ⟨_, rfl⟩

theorem catalogFacets_eq (hc : Coherent rows) : (facetFields.mapM fun field => do
    let found ← facetRows cf (catalogRows cf rows (some round) (some pack)) field
    return (field, found)) = .ok (facetFields.map fun field =>
      (field, facetsOf cf (catalogRows cf rows (some round) (some pack)) field,
        missingCoordinate (catalogRows cf rows (some round) (some pack)) field)) := by
  refine mapM_eq_map fun field hf => ?_
  rw [facetRows_eq hc hf]
  rfl

theorem buildCatalog_facets (hc : Coherent rows) {c : Catalog}
    (h : buildCatalog cf rows (some round) (some pack) = .ok c) :
    (1 ≤ round ∧ round ≤ 4) ∧ isFingerprint pack = true ∧ c.facets = facetFields.map fun field =>
      (field, facetsOf cf (catalogRows cf rows (some round) (some pack)) field) := by
  obtain ⟨hfilters, h⟩ := Outcome.unit_bind.mp h
  obtain ⟨hround, hpack⟩ := require_bind.mp hfilters
  obtain ⟨configurations, _, h⟩ := Failures.bind_eq_ok.mp h
  rw [catalogFacets_eq hc] at h
  cases h
  refine ⟨?_, require_ok.mp hpack, ?_⟩
  · simpa using hround
  · rw [List.map_map]
    rfl

theorem buildCatalog_returns (hc : Coherent rows) {row : AggregateRow} :
    ∃ c, buildCatalog cf rows (some row.key.round.1) (some row.key.pack.1) = .ok c := by
  have hround : (some (row.key.round.1 : Int)).all (fun n => decide (1 ≤ n) && decide (n ≤ 4)) =
      true := by
    have h := row.key.round.2
    simp only [Option.all_some, Bool.and_eq_true, decide_eq_true_eq]
    omega
  have hpack : (some row.key.pack.1).all isFingerprint = true := row.key.pack.2
  obtain ⟨configurations, hconf⟩ : ∃ made, (GroupBy.groupBy (fun r => r.key.configuration)
      (catalogRows cf rows (some row.key.round.1) (some row.key.pack.1))).mapM catalogConfiguration =
        .ok made :=
    Outcome.mapM_returns.mpr fun g hg => catalogConfiguration_returns hc hg
  unfold buildCatalog validateFilters
  dsimp only
  rw [hround, hpack, hconf, catalogFacets_eq hc]
  exact ⟨_, rfl⟩

theorem length_matchedRows (constraints : List (Str × Json)) :
    (matchedRows cf rows round pack constraints).length =
      ((catalogRows cf rows (some round) (some pack)).filter fun row =>
        matchesConstraints cf row constraints).length := by
  have hperm := (List.perm_insertionSort (catalogLe cf) (rows.filter fun row =>
    (some round).all (fun n => decide ((row.key.round.1 : Int) = n)) &&
      (some pack).all fun p => decide (row.key.pack.1 = p))).filter fun row =>
        matchesConstraints cf row constraints
  refine Eq.trans ?_ hperm.length_eq.symm
  rw [matchedRows, roundRows, List.filter_filter, List.filter_filter]
  refine congrArg List.length (List.filter_congr fun row _ => ?_)
  simp only [Option.all_some]
  cases matchesConstraints cf row constraints <;>
    cases decide ((row.key.round.1 : Int) = round) <;> simp

/-- A value is usable when it is taken and the rows that match it are as many as the catalog counts. -/
theorem usable_iff {f : Facet} (hround : 1 ≤ round ∧ round ≤ 4) (hpack : isFingerprint pack = true)
    (hsome : ∃ row, row ∈ catalogRows cf rows (some round) (some pack)) :
    Usable cf rows round pack field f ↔
      checkConstraints [(field.toList, f.value.json)] = .ok () ∧
        ((catalogRows cf rows (some round) (some pack)).filter fun row =>
          matchesConstraints cf row [(field.toList, f.value.json)]).length = f.configurations := by
  obtain ⟨row, hrow⟩ := hsome
  obtain ⟨hrow, hrowRound, hrowPack⟩ := mem_catalogRows.mp hrow
  have havailable : pack ∈ availablePacks rows round :=
    mem_availablePacks.mpr ⟨row, List.mem_filter.mpr ⟨hrow, decide_eq_true hrowRound⟩, hrowPack⟩
  have hchecked : checkConstraints [(field.toList, f.value.json)] = .ok () →
      checkQuery (facetQuery round pack field f.value) = .ok {
        round, pack := some pack, constraints := [(field.toList, f.value.json)]
        objectives := [.accuracy], accuracyFloor := none } := by
    intro hcheck
    have hin : (decide (1 ≤ round) && decide (round ≤ 4)) = true := by simpa using hround
    have hsome : (some pack).all isFingerprint = true := hpack
    unfold checkQuery facetQuery
    dsimp only
    rw [hin, Option.getD_some, hcheck, hsome]
    rfl
  have hresult : ∀ c, c = ({ round, pack := some pack, constraints := [(field.toList, f.value.json)]
                             objectives := [.accuracy], accuracyFloor := none } : Checked) →
      (recommendChecked cf rows c).matchedConfigurations =
        ((catalogRows cf rows (some round) (some pack)).filter fun row =>
          matchesConstraints cf row [(field.toList, f.value.json)]).length := by
    rintro c rfl
    rw [← length_matchedRows]
    simp only [recommendChecked, Option.isNone_some, Bool.false_and, Bool.false_eq_true, if_false,
      selectedPack, if_pos havailable]
    rfl
  constructor
  · rintro ⟨r, hr, hcount⟩
    obtain ⟨c, hc, hr⟩ := Failures.bind_eq_ok.mp hr
    cases hr
    have hcheck : checkConstraints [(field.toList, f.value.json)] = .ok () := by
      obtain ⟨_, hrest⟩ := require_bind.mp hc
      exact (Outcome.unit_bind.mp hrest).1
    rw [hchecked hcheck] at hc
    refine ⟨hcheck, ?_⟩
    rw [← hcount, hresult c (Except.ok.inj hc).symm]
  · rintro ⟨hcheck, hcount⟩
    refine ⟨recommendChecked cf rows { round, pack := some pack
                                       constraints := [(field.toList, f.value.json)]
                                       objectives := [.accuracy], accuracyFloor := none }, ?_, ?_⟩
    · rw [recommendAggregateRows, hchecked hcheck]
      rfl
    · rw [hresult _ rfl, hcount]

theorem facetOf_configurations (hc : Coherent rows) (id : FacetIdentity) :
    (facetOf cf (id, members cf (catalogRows cf rows (some round) (some pack)) field id)).configurations =
      ((catalogRows cf rows (some round) (some pack)).filter (hasIdentity cf field id)).length := by
  rw [facetOf]
  dsimp only
  rw [members_rows, countConfigurations_filter hc]

end Rows

section Coherent
variable {cf : Casefold} {rows : List AggregateRow}

theorem missing_unmatched {row : AggregateRow} {field : String} (hf : field ∈ facetFields)
    (hnone : facetValue row field = none) {constraints : List (Str × Json)}
    (h : ∃ e ∈ constraints, e.1 = field.toList ∨
      inNames maxConstraints e.1 = true ∧ e.1 = ("max_" ++ field).toList) :
    matchesConstraints cf row constraints = false := by
  have hmax : ∀ f ∈ facetFields, inNames maxConstraints ("max_" ++ f).toList = true →
      f ∈ ["memory_gb", "system_memory_gb", "parameter_count_b"] := by decide +kernel
  obtain ⟨e, he, hkey⟩ := h
  refine List.all_eq_false.mpr ⟨e, he, ?_⟩
  have hvalue : constraintValue row e.1 = none := by
    rcases hkey with hkey | ⟨hin, hkey⟩
    · rw [hkey, constraintValue_facet hf, hnone]
    · rw [hkey] at hin ⊢
      have hfield := hmax field hf hin
      simp only [List.mem_cons, List.not_mem_nil, or_false] at hfield
      rcases hfield with rfl | rfl | rfl
      · exact hnone
      · exact hnone
      · exact hnone
  rw [hvalue]
  simp

theorem of_length_filter_eq {α : Type} {p q : α → Bool} {l : List α}
    (hpq : ∀ a, p a = true → q a = true) (h : (l.filter p).length = (l.filter q).length) :
    ∀ a ∈ l, q a = true → p a = true := by
  have hsame : l.filter p = (l.filter q).filter p := by
    rw [List.filter_filter]
    refine List.filter_congr fun a _ => ?_
    cases hp : p a with
    | false => rfl
    | true => rw [hpq a hp]; rfl
  rw [hsame, List.length_filter_eq_length_iff] at h
  exact fun a ha hq => h a (List.mem_filter.mpr ⟨ha, hq⟩)

theorem CatalogUsable.own (h : CatalogUsable cf rows) (hc : Coherent rows) {row : AggregateRow}
    (hrow : row ∈ rows) {field : String} (hf : field ∈ facetFields) {id : FacetIdentity}
    (hid : hasIdentity cf field id row = true) {v : Setting}
    (hv : representative cf id (members cf (catalogRows cf rows (some row.key.round.1)
      (some row.key.pack.1)) field id) = v) :
    checkConstraints [(field.toList, v.json)] = .ok () ∧
      ((catalogRows cf rows (some row.key.round.1) (some row.key.pack.1)).filter fun r =>
          matchesConstraints cf r [(field.toList, v.json)]).length =
        ((catalogRows cf rows (some row.key.round.1) (some row.key.pack.1)).filter
          (hasIdentity cf field id)).length := by
  subst hv
  obtain ⟨c, hbuilt⟩ := h.returns row hrow
  obtain ⟨hround, hpack, hfacets⟩ := buildCatalog_facets hc hbuilt
  have hmem : row ∈ catalogRows cf rows (some row.key.round.1) (some row.key.pack.1) :=
    mem_catalogRows.mpr ⟨hrow, rfl, rfl⟩
  have hentry : (field, facetsOf cf (catalogRows cf rows (some row.key.round.1)
      (some row.key.pack.1)) field) ∈ c.facets := by
    rw [hfacets]
    exact List.mem_map.mpr ⟨field, hf, rfl⟩
  have husable := h.facets _ _ c hbuilt _ hentry _ (mem_facetsOf.mpr ⟨id, ⟨row, hmem, hid⟩, rfl⟩)
  have hboth := (usable_iff hround hpack ⟨row, hmem⟩).mp husable
  rw [facetOf_configurations hc] at hboth
  exact hboth

theorem Coherent.text (hc : Coherent rows) {row : AggregateRow} (hrow : row ∈ rows) {field : String}
    (hf : field ∈ facetFields) {s : Str} (hs : facetValue row field = some (.text s)) :
    field ∈ textConstraints ∧ FieldText field s := by
  have hmodel : Printable row.key.model := hc.model row hrow ▸ (hc.accepted row hrow).model
  exact facetValue_text (hc.accepted row hrow) hmodel hf hs

theorem CatalogUsable.queryable (h : CatalogUsable cf rows) (hc : Coherent rows) :
    QueryableValues cf rows := by
  constructor
  · intro row hrow field hf n hn
    have hid : hasIdentity cf field (.number (nearest n)) row = true :=
      hasIdentity_number.mpr (.inl ⟨n, hn, rfl⟩)
    have hcount := (h.own hc hrow hf hid rfl).2
    have hall := of_length_filter_eq (fun r hr => hasIdentity_of_matches hf hr) hcount row
      (mem_catalogRows.mpr ⟨hrow, rfl, rfl⟩) hid
    obtain ⟨m, hm, hvalue⟩ := (matches_number hf).mp hall
    rw [hn] at hm
    cases hm
    exact hvalue.symm
  · intro row hrow field hf s hs hmin
    have hid : hasIdentity cf field (.text (cf.fold s)) row = true := by
      simp [hasIdentity, hs, groupOf]
    have hmem : row ∈ catalogRows cf rows (some row.key.round.1) (some row.key.pack.1) :=
      mem_catalogRows.mpr ⟨hrow, rfl, rfl⟩
    obtain ⟨t, ht, hfold, ⟨other, hother, hvalue⟩, hleast⟩ := representative_text ⟨row, hmem, hid⟩
    obtain ⟨hother, hround, hpack⟩ := mem_catalogRows.mp hother
    have hst : s ≤ t := hmin other hother (Subtype.ext (by exact_mod_cast hround)) (Subtype.ext hpack)
      t hvalue hfold
    obtain rfl : t = s := le_antisymm (hleast row hmem s hs rfl) hst
    have hcheck := (h.own hc hrow hf hid ht).1
    obtain ⟨hfield, htext⟩ := hc.text hrow hf hs
    exact (checkConstraints_text hfield htext).mp hcheck

theorem QueryableValues.usable (h : QueryableValues cf rows) (hc : Coherent rows) :
    CatalogUsable cf rows := by
  refine ⟨fun row _ => buildCatalog_returns hc, ?_, fun row _ field hf hnone _ hkey =>
    missing_unmatched hf hnone hkey⟩
  intro round pack c hbuilt e he f hf'
  obtain ⟨hround, hpack, hfacets⟩ := buildCatalog_facets hc hbuilt
  rw [hfacets] at he
  obtain ⟨field, hf, rfl⟩ := List.mem_map.mp he
  obtain ⟨id, ⟨row, hrow, hid⟩, rfl⟩ := mem_facetsOf.mp hf'
  refine (usable_iff hround hpack ⟨row, hrow⟩).mpr ?_
  rw [facetOf_configurations hc]
  cases id with
  | text folded =>
    obtain ⟨t, ht, hfold, ⟨other, hother, hvalue⟩, hleast⟩ := representative_text ⟨row, hrow, hid⟩
    have hshown : (facetOf cf (.text folded, members cf (catalogRows cf rows (some round) (some pack))
        field (.text folded))).value = .text t := ht
    obtain ⟨hother, hotherRound, hotherPack⟩ := mem_catalogRows.mp hother
    obtain ⟨hfield, htext⟩ := hc.text hother hf hvalue
    rw [hshown]
    constructor
    · refine (checkConstraints_text hfield htext).mpr (h.texts other hother field hf t hvalue ?_)
      intro r hr hsameRound hsamePack u hu hufold
      refine hleast r (mem_catalogRows.mpr ⟨hr, ?_, ?_⟩) u hu (hufold.trans hfold)
      · rw [hsameRound]
        exact hotherRound
      · rw [hsamePack]
        exact hotherPack
    · refine congrArg List.length (List.filter_congr fun r _ => ?_)
      rw [matches_text hf, hfold]
  | number x =>
    have hshown : (facetOf cf (.number x, members cf (catalogRows cf rows (some round) (some pack))
        field (.number x))).value = .number (.float x) := rfl
    rw [hshown]
    constructor
    · have hnumber : ∃ n, facetValue row field = some (.number n) := by
        rcases hasIdentity_number.mp hid with ⟨n, hn, _⟩ | hn
        · exact ⟨_, hn⟩
        · exact ⟨_, hn⟩
      obtain ⟨n, hn⟩ := hnumber
      exact checkConstraints_number
        (facetValue_number (hc.accepted row (mem_catalogRows.mp hrow).1) hf hn).1 x
    · refine congrArg List.length (List.filter_congr fun r hr => ?_)
      have hexact := fun n hn => h.numbers r (mem_catalogRows.mp hr).1 field hf n hn
      rw [Bool.eq_iff_iff, matches_number hf, hasIdentity_number]
      constructor
      · rintro ⟨n, hn, rfl⟩
        cases n with
        | int n => exact .inl ⟨n, hn, by rw [hexact n hn]; rfl⟩
        | float q => exact .inr hn
      · rintro (⟨n, hn, rfl⟩ | hn)
        · exact ⟨_, hn, by rw [hexact n hn]; rfl⟩
        · exact ⟨_, hn, rfl⟩

end Coherent

/-- The values that a catalog of accepted submissions lists are usable as constraints exactly when
its integers are floats and the first spelling of each text is short enough. -/
theorem catalog_usable_iff (h : Hashing) (u : UnicodeData) (sq : SquareRoot) (cf : Casefold)
    (payloads : List Json) (subs : List Bundle) (rows : List AggregateRow)
    (hsubs : payloads.mapM (validatePublicResult h) = .ok subs)
    (hrows : aggregateSubmissions h u sq subs = .ok rows) :
    CatalogUsable cf rows ↔ QueryableValues cf rows := by
  have haccepted : ∀ b ∈ subs, b.Accepted := by
    intro b hb
    obtain ⟨payload, _, hpayload⟩ := (Outcome.mapM_mem hsubs).2 b hb
    exact validatePublicResult_accepted hpayload
  have hc := aggregateSubmissions_coherent haccepted hrows
  exact ⟨fun husable => husable.queryable hc, fun hqueryable => hqueryable.usable hc⟩

/-! A context window that is no float. -/

def windowDocument (window : Int) : Json :=
  object [("schema_version", .int 1), ("bundle_id", .str ("sha256:".toList ++ List.replicate 64 '0')),
    ("tool", object [("name", text "llm-hardtest-report"), ("version", text "1.0")]),
    ("benchmark", object [("rounds", .arr [.int 1]), ("packs", object [("1", .str samplePack.1)])]),
    ("environment", object [("os", text "Linux"), ("architecture", text "x86_64"),
      ("python", text "3.12")]),
    ("models", .arr [object [("public_name", text "model"), ("transport", text "openai_compat"),
      ("rounds", object [("1", object [("passed", .int 1), ("total", .int 2)])]),
      ("parameters", object [("context_window", .int window)]), ("public_metadata", object [])]]),
    ("privacy", object [("raw_artifacts_included", .bool false), ("credentials_included", .bool false),
      ("local_paths_included", .bool false), ("submission_mode", text "explicit-opt-in")])]

def windowsOf (window : Int) : Option (List (Option Setting)) :=
  (do
    let subs ← [windowDocument window].mapM (validatePublicResult sampleHashing)
    let rows ← aggregateSubmissions sampleHashing asciiData fractionSquareRoot subs
    return rows.map fun row => facetValue row "context_window" : Outcome (List (Option Setting))).toOption

theorem windowDocument_row {window : Int} (h : windowsOf window = some [some (.number (.int window))]) :
    ∃ subs rows row, [windowDocument window].mapM (validatePublicResult sampleHashing) = .ok subs ∧
      aggregateSubmissions sampleHashing asciiData fractionSquareRoot subs = .ok rows ∧ row ∈ rows ∧
        facetValue row "context_window" = some (.number (.int window)) := by
  obtain ⟨subs, hsubs, h⟩ := Failures.bind_eq_ok.mp (Failures.toOption_eq_some.mp h)
  obtain ⟨rows, hrows, h⟩ := Failures.bind_eq_ok.mp h
  have hmap : (rows.map fun row => facetValue row "context_window") =
      [some (.number (.int window))] := Except.ok.inj h
  obtain ⟨row, hrow, hvalue⟩ := List.map_eq_singleton_iff.mp hmap
  exact ⟨subs, rows, row, hsubs, hrows, by rw [hrow]; simp, hvalue⟩

/-- A usual window is a usable constraint. -/
theorem windowDocument_usable : ∃ subs rows,
    [windowDocument 8192].mapM (validatePublicResult sampleHashing) = .ok subs ∧
      aggregateSubmissions sampleHashing asciiData fractionSquareRoot subs = .ok rows ∧
        (CatalogUsable asciiCasefold rows ↔ QueryableValues asciiCasefold rows) := by
  obtain ⟨subs, rows, row, hsubs, hrows, -, -⟩ := @windowDocument_row 8192 (by decide +kernel)
  exact ⟨subs, rows, hsubs, hrows, catalog_usable_iff sampleHashing asciiData fractionSquareRoot
    asciiCasefold [windowDocument 8192] subs rows hsubs hrows⟩

/-- The catalog lists 2^53 for a window of 2^53 + 1. -/
theorem largeWindow_unusable : ∃ subs rows,
    [windowDocument 9007199254740993].mapM (validatePublicResult sampleHashing) = .ok subs ∧
      aggregateSubmissions sampleHashing asciiData fractionSquareRoot subs = .ok rows ∧
        ¬ CatalogUsable asciiCasefold rows := by
  obtain ⟨subs, rows, row, hsubs, hrows, hrow, hvalue⟩ :=
    @windowDocument_row 9007199254740993 (by decide +kernel)
  refine ⟨subs, rows, hsubs, hrows, fun husable => ?_⟩
  have haccepted : ∀ b ∈ subs, b.Accepted := by
    intro b hb
    obtain ⟨payload, _, hpayload⟩ := (Outcome.mapM_mem hsubs).2 b hb
    exact validatePublicResult_accepted hpayload
  have hqueryable := husable.queryable (aggregateSubmissions_coherent haccepted hrows)
  exact absurd (hqueryable.numbers row hrow "context_window" (by decide) _ hvalue) (by decide +kernel)

end Community
