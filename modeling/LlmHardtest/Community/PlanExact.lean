import LlmHardtest.Community.Groups
import LlmHardtest.Community.Readiness
set_option autoImplicit false

/-! The number of further bundles that a plan asks for is exactly the number that is needed. -/

namespace Community
open Python

section Counts
variable {row row' : AggregateRow} {objectives : List Objective} {target n : Nat}

theorem foldr_max_le {l : List Nat} : l.foldr max 0 ≤ n ↔ ∀ m ∈ l, m ≤ n := by
  induction l with
  | nil => simp
  | cons m l ih => rw [List.foldr_cons, max_le_iff, ih, List.forall_mem_cons]

/-- A number of bundles covers what is planned when it covers every deficit. -/
theorem planRow_additional_le : (planRow objectives target row).additional ≤ n ↔
    minBaselineSubmissions ≤ objectiveCount row .accuracy + n ∧
      ∀ o ∈ objectives, target ≤ objectiveCount row o + n := by
  simp only [planRow, foldr_max_le, List.mem_append, List.mem_map, List.mem_singleton]
  constructor
  · intro h
    constructor
    · have hle := h _ (.inr rfl)
      omega
    · intro o ho
      have hle := h (target - objectiveCount row o) (.inl ⟨_, ⟨o, ho, rfl⟩, rfl⟩)
      omega
  · rintro ⟨hacc, hall⟩ m (⟨_, ⟨o, ho, rfl⟩, rfl⟩ | rfl)
    · have hle := hall o ho
      dsimp only
      omega
    · omega

/-- With `n` more bundles on every count that matters, a row is ready when `n` covers its plan. -/
theorem planRow_ready_add (hacc : objectiveCount row' .accuracy = objectiveCount row .accuracy + n)
    (hall : ∀ o ∈ objectives, objectiveCount row' o = objectiveCount row o + n) :
    (planRow objectives target row').ready = true ↔
      (planRow objectives target row).additional ≤ n := by
  rw [planRow_ready, planRow_additional_le, hacc]
  refine and_congr_right fun _ => forall₂_congr fun o ho => ?_
  rw [hall o ho]

theorem planRow_deficits (hcounts : ∀ o, objectiveCount row' o = objectiveCount row o) :
    (planRow objectives target row').deficits = (planRow objectives target row).deficits ∧
      (planRow objectives target row').accuracyDeficit =
        (planRow objectives target row).accuracyDeficit := by
  simp only [planRow, hcounts, and_self]

end Counts

section Constraints
variable {cf : Casefold} {row row' : AggregateRow}

theorem meets_value {key : Str} {a b : Setting} {expected : Json} (h : a.value = b.value) :
    meets cf key a expected = meets cf key b expected := by
  cases a with
  | text s =>
    cases b with
    | text t =>
      injection h with h
      rw [h]
    | number n => cases h
  | number m =>
    cases b with
    | text t => cases h
    | number n =>
      injection h with h
      have hbound : meetsBound (.number m) expected = meetsBound (.number n) expected := by
        unfold meetsBound
        cases Json.comparable expected with
        | none => rfl
        | some bound => simp only [h]
      have hvalue : meetsValue cf (.number m) expected = meetsValue cf (.number n) expected := by
        unfold meetsValue
        cases expected <;> simp only [h]
      rw [meets, meets, hbound, hvalue]

theorem map_ite {α β : Type} {f : α → β} {p : Prop} [Decidable p] {a a' b b' : Option α}
    (ha : a.map f = a'.map f) (hb : b.map f = b'.map f) :
    (if p then a else b).map f = (if p then a' else b').map f := by
  by_cases hp : p
  · rw [if_pos hp, if_pos hp, ha]
  · rw [if_neg hp, if_neg hp, hb]

theorem constraintValue_same (hkey : row.key = row'.key) (hid : row.identity.same row'.identity = true)
    (key : Str) :
    (constraintValue row key).map Setting.value = (constraintValue row' key).map Setting.value := by
  obtain ⟨henv, hserving, -, htransport, hparams, hmeta⟩ := Identity.same_iff.mp hid
  unfold constraintValue
  rw [hkey, henv, hserving, htransport]
  -- The first nine keys read columns that are equal; the others read one of the two dictionaries.
  iterate 9 refine map_ite rfl ?_
  exact map_ite (hparams _) (map_ite (hmeta _) (hmeta _))

theorem matchesConstraints_same (hkey : row.key = row'.key)
    (hid : row.identity.same row'.identity = true) (constraints : List (Str × Json)) :
    matchesConstraints cf row constraints = matchesConstraints cf row' constraints := by
  unfold matchesConstraints
  congr 1
  funext e
  have hv := constraintValue_same hkey hid e.1
  cases ha : constraintValue row e.1 with
  | none =>
    cases hb : constraintValue row' e.1 with
    | none => rfl
    | some b => simp [ha, hb] at hv
  | some a =>
    cases hb : constraintValue row' e.1 with
    | none => simp [ha, hb] at hv
    | some b =>
      rw [ha, hb, Option.map_some, Option.map_some, Option.some.injEq] at hv
      exact meets_value hv

end Constraints

section SameKeys
variable {cf : Casefold} {rows rows' : List AggregateRow} {c : Checked}

/-- The rows of two aggregates have the same keys, and under one key the same identity. -/
structure SameKeys (rows rows' : List AggregateRow) : Prop where
  keys : ∀ k, k ∈ rows.map AggregateRow.key ↔ k ∈ rows'.map AggregateRow.key
  identity : ∀ a ∈ rows, ∀ b ∈ rows', a.key = b.key → a.identity.same b.identity = true

theorem SameKeys.symm (hs : SameKeys rows rows') : SameKeys rows' rows where
  keys k := (hs.keys k).symm
  identity a ha b hb hk := Identity.same_symm (hs.identity b hb a ha hk.symm)

theorem SameKeys.partner (hs : SameKeys rows rows') {a : AggregateRow} (ha : a ∈ rows) :
    ∃ b ∈ rows', b.key = a.key ∧ a.identity.same b.identity = true := by
  obtain ⟨b, hb, hk⟩ := List.mem_map.mp ((hs.keys a.key).mp (List.mem_map.mpr ⟨a, ha, rfl⟩))
  exact ⟨b, hb, hk, hs.identity a ha b hb hk.symm⟩

theorem SameKeys.availablePacks_subset (hs : SameKeys rows rows') {round : Int} {pack : Str}
    (h : pack ∈ availablePacks rows round) : pack ∈ availablePacks rows' round := by
  obtain ⟨row, hrow, rfl⟩ := mem_availablePacks.mp h
  rw [roundRows, List.mem_filter, decide_eq_true_eq] at hrow
  obtain ⟨b, hb, hk, -⟩ := hs.partner hrow.1
  refine mem_availablePacks.mpr ⟨b, ?_, by rw [hk]⟩
  rw [roundRows, List.mem_filter, decide_eq_true_eq, hk]
  exact ⟨hb, hrow.2⟩

theorem nodup_availablePacks (rows : List AggregateRow) (round : Int) :
    (availablePacks rows round).Nodup := by
  rw [availablePacks, sortedNames, (List.perm_insertionSort _ _).nodup_iff]
  exact List.nodup_dedup _

theorem SameKeys.availablePacks_perm (hs : SameKeys rows rows') (round : Int) :
    (availablePacks rows round).Perm (availablePacks rows' round) :=
  (List.perm_ext_iff_of_nodup (nodup_availablePacks rows round)
    (nodup_availablePacks rows' round)).mpr fun _ =>
      ⟨hs.availablePacks_subset, hs.symm.availablePacks_subset⟩

@[simp] theorem selectedPack_some {pack : Str} : selectedPack rows c = some pack ↔
    c.pack = some pack ∨ c.pack = none ∧ availablePacks rows c.round = [pack] := by
  unfold selectedPack
  cases hc : c.pack with
  | some p => simp
  | none =>
    dsimp only
    split
    · rename_i p hp
      simp [hp]
    · rename_i hnot
      simpa using hnot pack

theorem SameKeys.selectedPack_eq (hs : SameKeys rows rows') :
    selectedPack rows c = selectedPack rows' c := by
  ext pack
  rw [selectedPack_some, selectedPack_some]
  refine or_congr_right (and_congr_right fun _ => ?_)
  constructor
  · intro h
    have hp := hs.availablePacks_perm c.round
    rw [h] at hp
    exact List.perm_singleton.mp hp.symm
  · intro h
    have hp := hs.availablePacks_perm c.round
    rw [h] at hp
    exact List.perm_singleton.mp hp

theorem SameKeys.selectedRows_subset (hs : SameKeys rows rows') {k : Key}
    (h : k ∈ (selectedRows cf rows c).map AggregateRow.key) :
    k ∈ (selectedRows cf rows' c).map AggregateRow.key := by
  unfold selectedRows at h ⊢
  rw [← hs.selectedPack_eq]
  cases hpack : selectedPack rows c with
  | none =>
    rw [hpack] at h
    exact absurd h (by simp)
  | some pack =>
    rw [hpack] at h
    simp only [matchedRows, roundRows, List.mem_map, List.mem_filter, Bool.and_eq_true,
      decide_eq_true_eq] at h ⊢
    obtain ⟨a, ⟨⟨ha, hround⟩, hp, hmatch⟩, rfl⟩ := h
    obtain ⟨b, hb, hk, hid⟩ := hs.partner ha
    refine ⟨b, ⟨⟨hb, by rw [hk]; exact hround⟩, by rw [hk]; exact hp, ?_⟩, hk⟩
    rw [← matchesConstraints_same hk.symm hid]
    exact hmatch

theorem nodup_selectedRows (hnodup : (rows.map AggregateRow.key).Nodup) :
    ((selectedRows cf rows c).map AggregateRow.key).Nodup := by
  unfold selectedRows
  cases selectedPack rows c with
  | none => simp
  | some pack =>
    have hsub : (matchedRows cf rows c.round pack c.constraints).Sublist rows :=
      List.filter_sublist.trans List.filter_sublist
    exact (hsub.map _).nodup hnodup

theorem SameKeys.selectedRows_perm (hs : SameKeys rows rows')
    (hnodup : (rows.map AggregateRow.key).Nodup) (hnodup' : (rows'.map AggregateRow.key).Nodup) :
    ((selectedRows cf rows' c).map AggregateRow.key).Perm
      ((selectedRows cf rows c).map AggregateRow.key) :=
  (List.perm_ext_iff_of_nodup (nodup_selectedRows hnodup') (nodup_selectedRows hnodup)).mpr
    fun _ => ⟨hs.symm.selectedRows_subset, hs.selectedRows_subset⟩

end SameKeys

section Added
variable {h : Hashing} {u : UnicodeData} {sq : SquareRoot} {cf : Casefold}
  {subs added later : List Bundle} {rows rows' : List AggregateRow} {key k : Key}
  {objectives : List Objective}

/-- A bundle that reports a score and every objective for one key, and nothing else. -/
def CompleteFor (h : Hashing) (key : Key) (objectives : List Objective) (b : Bundle) : Prop :=
  ∃ l, contribution h b = .ok [(key, l)] ∧ l.reports .accuracy = true ∧
    ∀ o ∈ objectives, l.reports o = true

theorem localsAt_added_other (hadded : ∀ b ∈ added, CompleteFor h key objectives b) (hk : k ≠ key) :
    localsAt h added k = [] := by
  simp only [localsAt, List.map_eq_nil_iff, List.filter_eq_nil_iff, List.mem_flatMap,
    decide_eq_true_eq]
  rintro p ⟨b, hb, hp⟩ rfl
  obtain ⟨l, hl, -⟩ := hadded b hb
  rw [hl, returned_ok, List.mem_singleton] at hp
  exact hk (by rw [hp])

theorem localsAt_added_self (hadded : ∀ b ∈ added, CompleteFor h key objectives b) {o : Objective}
    (ho : o = .accuracy ∨ o ∈ objectives) :
    (localsAt h added key).countP (fun l => l.reports o) = added.length := by
  induction added with
  | nil => rfl
  | cons b added ih =>
    obtain ⟨l, hl, hacc, hall⟩ := hadded b (by simp)
    have hreports : l.reports o = true := by
      rcases ho with rfl | ho
      · exact hacc
      · exact hall o ho
    have hcons : localsAt h (b :: added) key = l :: localsAt h added key := by
      simp [localsAt, hl]
    rw [hcons, List.countP_cons, hreports, if_pos rfl, ih fun b' hb' => hadded b' (by simp [hb']),
      List.length_cons]

theorem localsAt_later (hperm : later.Perm (subs ++ added)) (k : Key) :
    (localsAt h later k).Perm (localsAt h subs k ++ localsAt h added k) := by
  rw [← localsAt_append]
  exact localsAt_perm hperm

theorem sameKeys_of_added (hperm : later.Perm (subs ++ added))
    (hrows : aggregateSubmissions h u sq subs = .ok rows)
    (hrows' : aggregateSubmissions h u sq later = .ok rows')
    (hadded : ∀ b ∈ added, CompleteFor h key objectives b)
    (hkey : key ∈ rows.map AggregateRow.key) : SameKeys rows rows' := by
  obtain ⟨-, hfor, hkeys⟩ := aggregateSubmissions_rows hrows
  obtain ⟨-, hfor', hkeys'⟩ := aggregateSubmissions_rows hrows'
  constructor
  · intro k
    have hlater : localsAt h later k = [] ↔ localsAt h subs k = [] ∧ localsAt h added k = [] := by
      rw [← List.append_eq_nil_iff]
      exact ⟨fun he => List.nil_perm.mp (he ▸ localsAt_later hperm k),
        fun he => List.perm_nil.mp (he ▸ localsAt_later hperm k)⟩
    rw [hkeys, hkeys', ne_eq, ne_eq, hlater, not_iff_not]
    refine ⟨fun he => ⟨he, ?_⟩, fun he => he.1⟩
    by_cases hk : k = key
    · subst hk
      exact absurd he ((hkeys k).mp hkey)
    · exact localsAt_added_other hadded hk
  · intro a ha b hb hab
    obtain ⟨bundle, hbundle, gs, hgs, hk⟩ := localsAt_ne_nil (hfor a ha).observed
    obtain ⟨es, hes, e, he, hconf, -⟩ := contribution_entry hgs hk
    have hmem : bundle ∈ later := hperm.mem_iff.mpr (List.mem_append_left _ hbundle)
    have hsame := (hfor a ha).identity bundle hbundle es hes e he hconf
    have hsame' := (hfor' b hb).identity bundle hmem es hes e he (by rw [hconf, hab])
    exact Identity.same_trans hsame (Identity.same_symm hsame')

/-- The counts after bundles for one key were added. -/
theorem counts_of_added (hperm : later.Perm (subs ++ added))
    (hrows : aggregateSubmissions h u sq subs = .ok rows)
    (hrows' : aggregateSubmissions h u sq later = .ok rows')
    (hadded : ∀ b ∈ added, CompleteFor h key objectives b) {a b : AggregateRow} (ha : a ∈ rows)
    (hb : b ∈ rows') (hab : b.key = a.key) (o : Objective) :
    (a.key ≠ key → objectiveCount b o = objectiveCount a o) ∧
      (a.key = key → (o = .accuracy ∨ o ∈ objectives) →
        objectiveCount b o = objectiveCount a o + added.length) := by
  obtain ⟨-, hfor, -⟩ := aggregateSubmissions_rows hrows
  obtain ⟨-, hfor', -⟩ := aggregateSubmissions_rows hrows'
  have hcount : objectiveCount b o = objectiveCount a o +
      (localsAt h added a.key).countP fun l => l.reports o := by
    rw [(hfor' b hb).counts, (hfor a ha).counts, hab, (localsAt_later hperm a.key).countP_eq,
      List.countP_append]
  constructor
  · intro hne
    rw [hcount, localsAt_added_other hadded hne]
    rfl
  · rintro rfl ho
    rw [hcount, localsAt_added_self hadded ho]

end Added

theorem planQuery_objectives (rows : List AggregateRow) (r : Recommendation) (target : Nat)
    (cf : Casefold) : (planQuery cf rows r target).objectives = r.objectives := by
  unfold planQuery
  split
  · rfl
  · split
    · rfl
    · dsimp only
      split_ifs
      all_goals rfl

theorem mem_of_selectedRows {cf : Casefold} {rows : List AggregateRow} {c : Checked}
    {row : AggregateRow} (hrow : row ∈ selectedRows cf rows c) : row ∈ rows := by
  unfold selectedRows at hrow
  cases hpack : selectedPack rows c with
  | none =>
    rw [hpack] at hrow
    cases hrow
  | some pack =>
    rw [hpack] at hrow
    exact List.mem_of_mem_filter (List.mem_of_mem_filter hrow)

/-- What `n` further bundles for the configuration of `p` change in a plan. -/
structure PlanMoves (plan plan' : Plan) (p : Planned) (n : Nat) : Prop where
  listed : (plan'.configurations.map fun q => q.row.key).Perm
    (plan.configurations.map fun q => q.row.key)
  distinct : (plan.configurations.map fun q => q.row.key).Nodup
  ready : ∀ p' ∈ plan'.configurations, p'.row.key = p.row.key →
    (p'.ready = true ↔ p.additional ≤ n)
  others : ∀ q ∈ plan.configurations, q.row.key ≠ p.row.key → ∀ q' ∈ plan'.configurations,
    q'.row.key = q.row.key → q'.deficits = q.deficits ∧ q'.accuracyDeficit = q.accuracyDeficit

/-- A planned number of further bundles is what makes a configuration ready, and nothing less. -/
theorem plan_exact (h : Hashing) (u : UnicodeData) (sq : SquareRoot) (cf : Casefold)
    (subs added later : List Bundle) (rows rows' : List AggregateRow) (q : Query) (target : Int)
    (plan : Plan) (p : Planned) (hperm : later.Perm (subs ++ added))
    (hrows : aggregateSubmissions h u sq subs = .ok rows)
    (hrows' : aggregateSubmissions h u sq later = .ok rows')
    (hplan : buildCollectionPlan cf rows q target = .ok plan) (hp : p ∈ plan.configurations)
    (hadded : ∀ b ∈ added, CompleteFor h p.row.key plan.objectives b) :
    ∃ plan', buildCollectionPlan cf rows' q target = .ok plan' ∧
      PlanMoves plan plan' p added.length := by
  obtain ⟨htarget, hplan⟩ := Outcome.unit_bind.mp hplan
  obtain ⟨r, hr, hplan⟩ := Failures.bind_eq_ok.mp hplan
  obtain ⟨c, hc, hr⟩ := Failures.bind_eq_ok.mp hr
  cases hr
  cases hplan
  have he := recommendChecked_echoes cf rows c
  have he' := recommendChecked_echoes cf rows' c
  obtain ⟨hlisted, heach⟩ := planQuery_planned he target.toNat
  obtain ⟨hlisted', heach'⟩ := planQuery_planned he' target.toNat
  obtain ⟨hnodup, -⟩ := aggregateSubmissions_rows hrows
  obtain ⟨hnodup', -⟩ := aggregateSubmissions_rows hrows'
  rw [planQuery_objectives, he.objectives] at hadded
  have hkeys := hlisted.map AggregateRow.key
  have hkeys' := hlisted'.map AggregateRow.key
  rw [List.map_map] at hkeys hkeys'
  have hmem : p.row ∈ rows :=
    mem_of_selectedRows (hlisted.mem_iff.mp (List.mem_map.mpr ⟨p, hp, rfl⟩))
  have hsame := sameKeys_of_added hperm hrows hrows' hadded (List.mem_map.mpr ⟨p.row, hmem, rfl⟩)
  have hcounts : ∀ a ∈ (planQuery cf rows (recommendChecked cf rows c) target.toNat).configurations,
      ∀ b ∈ (planQuery cf rows' (recommendChecked cf rows' c) target.toNat).configurations,
      b.row.key = a.row.key → ∀ o, _ := fun a ha b hb hab o =>
    counts_of_added hperm hrows hrows' hadded
      (mem_of_selectedRows (hlisted.mem_iff.mp (List.mem_map.mpr ⟨a, ha, rfl⟩)))
      (mem_of_selectedRows (hlisted'.mem_iff.mp (List.mem_map.mpr ⟨b, hb, rfl⟩))) hab o
  refine ⟨planQuery cf rows' (recommendChecked cf rows' c) target.toNat, ?_, {
    listed := (hkeys'.trans (hsame.selectedRows_perm hnodup hnodup')).trans hkeys.symm
    distinct := hkeys.nodup_iff.mpr (nodup_selectedRows hnodup)
    ready := fun p' hp' hk => ?_
    others := fun a ha hne b hb hab => ?_ }⟩
  · rw [buildCollectionPlan, htarget, recommendAggregateRows, hc]
    rfl
  · have hmoved := hcounts p hp p' hp' hk
    rw [heach' p' hp', heach p hp]
    exact planRow_ready_add ((hmoved .accuracy).2 rfl (.inl rfl)) fun o ho =>
      (hmoved o).2 rfl (.inr ho)
  · have hkept := hcounts a ha b hb hab
    rw [heach' b hb, heach a ha]
    exact planRow_deficits fun o => (hkept o).1 hne

section Sample

def sampleHashing : Hashing := ⟨zeroSha, plainFloatText, 1000⟩

def sampleItem : ItemOutcome :=
  { item := "q1".toList, attempt := 1, status := .pass, wallSeconds := some (.int 2), tokens := some 30 }

def sampleBundle (passed total : Int) : Bundle where
  schemaVersion := 4
  bundleId := samplePack.1
  packs := [(firstRound, samplePack)]
  environment := ⟨"Linux".toList, "x86_64".toList, "3.12".toList⟩
  models := [{
    publicName := "model".toList, transport := "openai_compat".toList
    serving := some ⟨"unreported".toList, none, none⟩
    scaffold := some ⟨"codex_cli".toList, "none".toList, "unrestricted".toList, false⟩
    rounds := [(firstRound, {
      metrics := [("passed".toList, some (.int passed)), ("total".toList, some (.int total))]
      items := some [sampleItem], tasks := none })]
    parameters := [], publicMetadata := [] }]

def sampleKey : Key :=
  ⟨firstRound, samplePack, "model".toList, zeroSha.configurationId []⟩

def sampleRun (submissions : List Bundle) : Outcome (List AggregateRow) :=
  aggregateSubmissions sampleHashing asciiData fractionSquareRoot submissions

def samplePlan (submissions : List Bundle) : Outcome Plan := do
  let rows ← sampleRun submissions
  buildCollectionPlan asciiCasefold rows latencyQuery 5

theorem sampleBundle_complete (passed total : Int) (h : (contribution sampleHashing
      (sampleBundle passed total)).toOption.map (fun gs => gs.map fun g =>
        (g.1, g.2.reports .accuracy, g.2.reports .latency)) = some [(sampleKey, true, true)]) :
    CompleteFor sampleHashing sampleKey [.latency] (sampleBundle passed total) := by
  obtain ⟨gs, hgs, hreports⟩ := Option.map_eq_some_iff.mp h
  simp only [List.map_eq_singleton_iff, Prod.mk.injEq] at hreports
  obtain ⟨⟨k, l⟩, rfl, rfl, hacc, hlat⟩ := hreports
  exact ⟨l, Failures.toOption_eq_some.mp hgs, hacc,
    fun o ho => by rw [List.mem_singleton.mp ho]; exact hlat⟩

/-- One bundle leaves four to collect; with four more the configuration is ready. -/
theorem sampleBundle_planned : ∃ plan plan' p, samplePlan [sampleBundle 1 2] = .ok plan ∧
    samplePlan (List.replicate 4 (sampleBundle 2 2) ++ [sampleBundle 1 2]) = .ok plan' ∧
    p ∈ plan.configurations ∧ p.additional = 4 ∧ PlanMoves plan plan' p 4 := by
  have hone : ((samplePlan [sampleBundle 1 2]).toOption.map fun plan =>
      (plan.objectives, plan.configurations.map fun p => (p.row.key, p.additional))) =
        some ([.latency], [(sampleKey, 4)]) := by decide +kernel
  obtain ⟨rows', hrows'⟩ : ∃ rows', sampleRun (List.replicate 4 (sampleBundle 2 2) ++
      [sampleBundle 1 2]) = .ok rows' := Failures.isOk_iff.mp (by decide +kernel)
  have hcomplete := sampleBundle_complete 2 2 (by decide +kernel)
  obtain ⟨plan, hplan, hone⟩ := Option.map_eq_some_iff.mp hone
  rw [Failures.toOption_eq_some] at hplan
  simp only [Prod.mk.injEq, List.map_eq_singleton_iff] at hone
  obtain ⟨hobj, p, hp, hkey, hadd⟩ := hone
  obtain ⟨rows, hrows, hbuild⟩ := Failures.bind_eq_ok.mp hplan
  obtain ⟨plan', hplan', hmoves⟩ := plan_exact sampleHashing asciiData fractionSquareRoot
    asciiCasefold [sampleBundle 1 2] (List.replicate 4 (sampleBundle 2 2)) _ rows rows'
    latencyQuery 5 plan p List.perm_append_comm hrows hrows' hbuild (by rw [hp]; simp)
    (fun b hb => by rw [List.eq_of_mem_replicate hb, hkey, hobj]; exact hcomplete)
  exact ⟨plan, plan', p, hplan, by rw [samplePlan, hrows']; exact hplan', by rw [hp]; simp,
    hadd, hmoves⟩

end Sample

end Community
