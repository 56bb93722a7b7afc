import LlmHardtest.Community.DatabaseRows
import LlmHardtest.Community.GroupMetrics
set_option autoImplicit false

/-! The observations that come out of the database are those of the bundles that went in. -/

namespace Community
open Python
open Joins
open Round5 (mapM_perm)

section Counts
variable {h : Hashing} {b : Bundle} {submissions : List Bundle}

def Bundle.scores (b : Bundle) (column : ScoreColumn) : List ℚ :=
  (b.models.flatMap Model.rounds).filterMap fun r =>
    (r.2.metric (column.metric r.1)).map FiniteNum.value

/-- The scores of a bundle are counts, in a range in which floats add up exactly. -/
structure Bundle.Counts (b : Bundle) : Prop where
  scores : ∀ column, Counted (b.scores column)
  tokens : ∀ r ∈ b.models.flatMap Model.rounds, ∀ item ∈ r.2.items.getD [], ∀ t,
    item.tokens = some t → 0 ≤ t ∧ t ≤ 2 ^ 53

theorem observedRuns_ok {runs : List (ObservationKey × RunValues)} (hruns : observedRuns h b = .ok runs) :
    (∀ p ∈ runs, p.1.bundle = b.bundleId) ∧
      runs.map Prod.snd = (b.models.flatMap Model.rounds).map fun r => .ofResult r.1 r.2 := by
  obtain ⟨es, hes, hruns⟩ := Failures.bind_eq_ok.mp hruns
  obtain ⟨cs, hcs, hruns⟩ := Failures.bind_eq_ok.mp hruns
  cases hruns
  obtain ⟨perEntry, hper, hcs⟩ := Failures.bind_eq_ok.mp hcs
  cases hcs
  have hmodels : es.map Entry.model = b.models.map id := by
    refine mapM_map (fun m e he => ?_) hes
    obtain ⟨_, _, he⟩ := Failures.bind_eq_ok.mp he
    obtain ⟨_, _, he⟩ := Failures.bind_eq_ok.mp he
    cases he
    rfl
  have hrounds : perEntry.map (List.map fun c : Cell => (c.key.round, c.result)) =
      es.map fun e => e.model.rounds.map id := by
    refine mapM_map (fun e row hrow => ?_) hper
    refine mapM_map (fun r c hc => ?_) hrow
    obtain ⟨_, _, hc⟩ := Failures.bind_eq_ok.mp hc
    cases hc
    rfl
  have hcells : perEntry.flatten.map (fun c : Cell => (c.key.round, c.result)) =
      b.models.flatMap Model.rounds := by
    rw [List.map_flatten, hrounds, ← List.map_id b.models, ← hmodels, List.flatMap_map]
    simp only [List.map_id, List.flatMap]
  refine ⟨fun p hp => ?_, ?_⟩
  · obtain ⟨c, -, rfl⟩ := List.mem_map.mp hp
    rfl
  · rw [← hcells, List.map_map, List.map_map]
    rfl

theorem runs_counted {runs : List (List (ObservationKey × RunValues))}
    (hruns : submissions.mapM (observedRuns h) = .ok runs)
    (hids : (submissions.map Bundle.bundleId).Nodup) (hcounts : ∀ b ∈ submissions, b.Counts)
    (k : ObservationKey) (column : ScoreColumn) :
    Counted (groupScores ((under Prod.fst runs.flatten k).map Prod.snd) column) := by
  induction submissions generalizing runs with
  | nil =>
    cases hruns
    exact Counted.nil
  | cons b rest ih =>
    rw [List.mapM_cons] at hruns
    obtain ⟨mine, hmine, hruns⟩ := Failures.bind_eq_ok.mp hruns
    obtain ⟨others, hothers, hruns⟩ := Failures.bind_eq_ok.mp hruns
    cases hruns
    rw [List.map_cons, List.nodup_cons] at hids
    obtain ⟨hkeys, hvalues⟩ := observedRuns_ok hmine
    rw [List.flatten_cons, under_append]
    by_cases hk : k.bundle = b.bundleId
    · have hnone : under Prod.fst others.flatten k = [] := by
        refine under_eq_nil fun p hp => ?_
        rintro rfl
        obtain ⟨row, hrow, hp⟩ := List.mem_flatten.mp hp
        obtain ⟨b', hb', hrow⟩ := (Outcome.mapM_mem hothers).2 row hrow
        refine hids.1 (List.mem_map.mpr ⟨b', hb', ?_⟩)
        rw [← hk, (observedRuns_ok hrow).1 p hp]
      rw [hnone, List.append_nil]
      have hall : groupScores (mine.map Prod.snd) column = b.scores column := by
        rw [hvalues, groupScores, List.filterMap_map]
        rfl
      refine (hcounts b List.mem_cons_self).scores column |>.sublist ?_
      rw [← hall]
      exact ((under_sublist _ _ _).map _).filterMap _
    · have hnone : under Prod.fst mine k = [] := by
        refine under_eq_nil fun p hp => ?_
        rintro rfl
        exact hk (hkeys p hp)
      rw [hnone, List.nil_append]
      exact ih hothers hids.2 fun b' hb' => hcounts b' (List.mem_cons_of_mem _ hb')

theorem runs_tokens {runs : List (List (ObservationKey × RunValues))}
    (hruns : submissions.mapM (observedRuns h) = .ok runs) (hcounts : ∀ b ∈ submissions, b.Counts) :
    ∀ p ∈ runs.flatten, ∀ item ∈ p.2.items, ∀ t, item.2 = some t → 0 ≤ t ∧ t ≤ 2 ^ 53 := by
  intro p hp
  obtain ⟨row, hrow, hp⟩ := List.mem_flatten.mp hp
  obtain ⟨b, hb, hrow⟩ := (Outcome.mapM_mem hruns).2 row hrow
  have hmem : p.2 ∈ (b.models.flatMap Model.rounds).map fun r => RunValues.ofResult r.1 r.2 := by
    rw [← (observedRuns_ok hrow).2]
    exact List.mem_map_of_mem hp
  obtain ⟨r, hr, hvalues⟩ := List.mem_map.mp hmem
  intro item hitem t ht
  rw [← hvalues] at hitem
  obtain ⟨o, ho, rfl⟩ := List.mem_map.mp hitem
  exact (hcounts b hb).tokens r hr o ho t ht

end Counts

section Tables
variable {fl : FloatRounding} {h : Hashing} {submissions : List Bundle} {rows : Rows}

structure Holds (rows : Rows) (models : List ModelRows) : Prop where
  runs : rows.benchmarkRuns.Perm ((models.flatMap ModelRows.rounds).map RoundRows.run)
  items : rows.itemObservations.Perm ((models.flatMap ModelRows.rounds).flatMap RoundRows.items)
  origin : ∀ d ∈ rows.configurations, ∃ m ∈ models, m.configuration = d
  configurations : ∀ m ∈ models, ∃ d ∈ rows.configurations,
    d.configurationId = m.configuration.configurationId ∧ d.same m.configuration = true

theorem normalizeSubmissions_ok (hok : normalizeSubmissions h submissions = .ok rows) :
    (rows.bundles.map BundleRow.bundleId).Perm (submissions.map Bundle.bundleId) ∧
      ∃ models es runs, AllTold h submissions models es runs ∧ Holds rows models := by
  obtain ⟨ordered, hordered, hok⟩ := Failures.bind_eq_ok.mp hok
  obtain ⟨configurations, hconf, hok⟩ := Failures.bind_eq_ok.mp hok
  cases hok
  obtain ⟨models, hmodels, hperm⟩ := mapM_perm (List.perm_insertionSort _ submissions) hordered
  obtain ⟨es, runs, htold⟩ := submissions_told hmodels
  have hflat : ordered.flatten.Perm models.flatten := hperm.flatten
  obtain ⟨-, hfrom, hall⟩ := setConfigurations_ok hconf
  refine ⟨?_, models.flatten, es, runs, htold, ?_, ?_, fun d hd => ?_, fun m hm => ?_⟩
  · refine ((List.perm_insertionSort _ _).map _).trans ?_
    rw [List.map_map]
    exact (List.perm_insertionSort _ submissions).map _
  · exact (List.perm_insertionSort _ _).trans ((hflat.flatMap_right _).map _)
  · exact (List.perm_insertionSort _ _).trans ((hflat.flatMap_right _).flatMap_right _)
  · rcases hfrom d ((List.mem_insertionSort _).mp hd) with hd | hd
    · cases hd
    · obtain ⟨m, hm, rfl⟩ := List.mem_map.mp hd
      exact ⟨m, hflat.mem_iff.mp hm, rfl⟩
  · obtain ⟨d, hd, hid, hsame⟩ := hall m.configuration (List.mem_map_of_mem (hflat.mem_iff.mpr hm))
    exact ⟨d, (List.mem_insertionSort _).mpr hd, hid, hsame⟩

theorem buildDatabase_ok {temporary : Str} {stored : Rows}
    (hok : buildDatabase fl h temporary submissions = .ok stored) :
    ∃ rows, normalizeSubmissions h submissions = .ok rows ∧ rows.keysDistinct = true ∧
      rows.survive fl = true ∧ stored = rows.stored fl := by
  obtain ⟨rows, hrows, hok⟩ := Failures.bind_eq_ok.mp hok
  refine ⟨rows, hrows, ?_⟩
  cases hkeys : rows.keysDistinct with
  | false =>
    rw [hkeys] at hok
    cases hok
  | true =>
    rw [hkeys] at hok
    cases hsurvive : rows.survive fl with
    | false =>
      rw [hsurvive] at hok
      cases hok
    | true =>
      rw [hsurvive] at hok
      cases hok
      exact ⟨rfl, rfl, rfl⟩

theorem survive_run (hs : rows.survive fl = true) {run : RunRow} (hrun : run ∈ rows.benchmarkRuns)
    {column : ScoreColumn} {n : FiniteNum} (hn : run.score column = some n) :
    n.toFloat fl = n.value := by
  simp only [Rows.survive, Bool.and_eq_true, List.all_eq_true] at hs
  have hcolumn : column ∈ ScoreColumn.all := by cases column <;> decide
  have hmem : run.score column ∈ run.meanWallSeconds :: ScoreColumn.all.map run.score :=
    List.mem_cons_of_mem _ (List.mem_map_of_mem hcolumn)
  have hkept := hs.1.1.2 run hrun _ hmem
  rw [hn] at hkept
  exact of_decide_eq_true hkept

theorem survive_item (hs : rows.survive fl = true) {item : ItemRow} (hitem : item ∈ rows.itemObservations)
    {n : FiniteNum} (hn : item.wallSeconds = some n) : n.toFloat fl = n.value := by
  simp only [Rows.survive, Bool.and_eq_true, List.all_eq_true] at hs
  have hkept := hs.1.2 item hitem
  rw [hn] at hkept
  exact of_decide_eq_true hkept

theorem alike_items {v w : RunValues} (hscore : v.score = w.score) (hitems : v.items.Perm w.items) :
    Alike fl [v] [w] := by
  refine ⟨fun column => ?_, ?_, ?_⟩
  · rw [groupScores, groupScores, List.filterMap_cons, List.filterMap_cons, hscore]
  · simpa [groupWalls] using hitems.filterMap fun item => item.1.map (FiniteNum.toFloat fl)
  · simpa [groupRates] using hitems.filterMap (itemRate fl)

variable {models : List ModelRows}

def RoundRows.record (fl : FloatRounding) (r : RoundRows) : RunRow × List ItemRow :=
  (r.run.stored fl, r.items.map (ItemRow.stored fl))

theorem records_keyed (fl : FloatRounding) (hholds : Holds rows models)
    (howns : ∀ r ∈ models.flatMap ModelRows.rounds, r.Owns) (hkeys : rows.keysDistinct = true) :
    Keyed RunRow.runId ItemRow.runId
      ((models.flatMap ModelRows.rounds).map (RoundRows.record fl)) := by
  refine ⟨fun p hp item hitem => ?_, ?_⟩
  · obtain ⟨r, hr, rfl⟩ := List.mem_map.mp hp
    obtain ⟨o, ho, rfl⟩ := List.mem_map.mp hitem
    exact howns r hr o ho
  · simp only [Rows.keysDistinct, Bool.and_eq_true, decide_eq_true_eq] at hkeys
    have hnodup := ((hholds.runs.map RunRow.runId).nodup_iff).mp hkeys.1.1.2
    rw [List.map_map] at hnodup ⊢
    exact hnodup

theorem record_values (r : RoundRows) :
    (r.record fl).1.values (r.record fl).2 = r.observed.2.stored fl := by
  change RunValues.mk _ _ = RunValues.mk _ _
  simp only [RoundRows.record, RoundRows.observed, RunRow.values, List.map_map]
  rfl

/-- The values under a key in the database are alike those under it in the bundles. -/
theorem stored_group {es : List Entry} {runs : List (List (ObservationKey × RunValues))}
    (htold : AllTold h submissions models es runs) (hholds : Holds rows models)
    (hkeys : rows.keysDistinct = true) (hsurvive : rows.survive fl = true)
    (hcounts : ∀ b ∈ submissions, b.Counts) (k : ObservationKey) :
    Alike fl
      ((under RunRow.key (rows.stored fl).benchmarkRuns k).map fun run =>
        run.values (partsOf ItemRow.runId (rows.stored fl).itemObservations run.runId))
      ((under Prod.fst runs.flatten k).map Prod.snd) := by
  let rounds := models.flatMap ModelRows.rounds
  let records := rounds.map (RoundRows.record fl)
  have hparents : (rows.stored fl).benchmarkRuns.Perm (records.map Prod.fst) := by
    refine (hholds.runs.map (RunRow.stored fl)).trans (.of_eq ?_)
    rw [List.map_map, List.map_map]
    rfl
  have hparts : (rows.stored fl).itemObservations.Perm (records.flatMap Prod.snd) := by
    refine (hholds.items.map (ItemRow.stored fl)).trans (.of_eq ?_)
    rw [List.map_flatMap, List.flatMap_map]
    rfl
  -- the items of a run are its own, in some order
  have hitems : Alike fl
      ((under RunRow.key (rows.stored fl).benchmarkRuns k).map fun run =>
        run.values (partsOf ItemRow.runId (rows.stored fl).itemObservations run.runId))
      ((under RunRow.key (rows.stored fl).benchmarkRuns k).map fun run =>
        run.values (partsOf ItemRow.runId (records.flatMap Prod.snd) run.runId)) :=
    Alike.map fun run _ => alike_items rfl ((partsOf_perm hparts _).map _)
  -- so the runs with their items are the records
  have hjoin := (under_perm (fun p : RunRow × List ItemRow => p.1.key)
    ((records_keyed fl hholds htold.owns hkeys).join hparents) k).map fun p => p.1.values p.2
  rw [under_map, List.map_map] at hjoin
  have hrecords : ((under (fun p : RunRow × List ItemRow => p.1.key) records k).map
      fun p => p.1.values p.2) =
        (under (fun r => r.run.key) rounds k).map fun r => r.observed.2.stored fl := by
    rw [under_map, List.map_map]
    exact List.map_congr_left fun r _ => record_values r
  -- storing them has changed nothing that matters
  have hstored : Alike fl ((under (fun r => r.run.key) rounds k).map fun r => r.observed.2.stored fl)
      ((under (fun r => r.run.key) rounds k).map fun r => r.observed.2) := by
    refine Alike.map fun r hr => ?_
    have hr := (mem_under.mp hr).1
    have hrun : r.run ∈ rows.benchmarkRuns := hholds.runs.mem_iff.mpr (List.mem_map_of_mem hr)
    refine RunValues.Storable.alike ⟨fun column n hn => survive_run hsurvive hrun hn,
      fun p hp n hn => ?_, fun p hp => ?_⟩
    · obtain ⟨item, hitem, rfl⟩ := List.mem_map.mp hp
      exact survive_item hsurvive
        (hholds.items.mem_iff.mpr (List.mem_flatMap.mpr ⟨r, hr, hitem⟩)) hn
    · exact runs_tokens htold.observes hcounts r.observed
        (htold.observed.mem_iff.mp (List.mem_map_of_mem hr)) p hp
  have hobserved := (under_perm Prod.fst htold.observed k).map Prod.snd
  rw [under_map, List.map_map] at hobserved
  refine hitems.trans ((Alike.of_perm hjoin).trans ?_)
  rw [hrecords]
  exact hstored.trans (Alike.of_perm hobserved)

end Tables

section Agreement
variable {fl : FloatRounding} {h : Hashing} {py : Interpreter} {submissions : List Bundle}
  {rows : Rows} {models : List ModelRows} {es : List Entry}
  {runs : List (List (ObservationKey × RunValues))}

/-- The parser reads back what the database wrote for the configurations of some bundles. -/
def ReadsBack (py : Interpreter) (h : Hashing) (submissions : List Bundle) : Prop :=
  ∀ b ∈ submissions, ∀ m ∈ b.models, ∀ i, identityOf b m = .ok i → i.Reads py h

/-- Observations that differ in the order of an identity's keys at most. -/
structure PairedObservation.Same (a b : PairedObservation) : Prop where
  bundle : a.bundle = b.bundle
  round : a.round = b.round
  pack : a.pack = b.pack
  configuration : a.configuration = b.configuration
  identity : a.identity.same b.identity = true
  metrics : a.metrics = b.metrics

theorem entries_read (htold : AllTold h submissions models es runs) (hread : ReadsBack py h submissions) :
    ∀ e ∈ es, e.identity.Reads py h := by
  obtain ⟨perBundle, hper, rfl⟩ := htold.entries
  intro e he
  obtain ⟨row, hrow, he⟩ := List.mem_flatten.mp he
  obtain ⟨b, hb, hrow⟩ := (Outcome.mapM_mem hper).2 row hrow
  obtain ⟨m, hm, he⟩ := (Outcome.mapM_mem hrow).2 e he
  obtain ⟨_, _, he⟩ := Failures.bind_eq_ok.mp he
  obtain ⟨i, hi, he⟩ := Failures.bind_eq_ok.mp he
  cases he
  exact hread b hb m hm i hi

theorem stored_identity (fl : FloatRounding) (htold : AllTold h submissions models es runs) (hholds : Holds rows models)
    (hkeys : rows.keysDistinct = true) (hread : ReadsBack py h submissions) {e : Entry} (he : e ∈ es) :
    ∃ d j, (rows.stored fl).configurations.find? (fun c => c.configurationId = e.configuration) = some d ∧
      d.identity py = .ok j ∧ j.same e.identity = true := by
  obtain ⟨m, hm, htells⟩ := (forall₂_partner htold.tells).2 e he
  obtain ⟨d, hd, hid, hsame⟩ := hholds.configurations m hm
  obtain ⟨j, hj, hje⟩ := htells.identity.identity (entries_read htold hread e he)
  simp only [Rows.keysDistinct, Bool.and_eq_true, decide_eq_true_eq] at hkeys
  have hfind := find?_key hkeys.1.1.1.2 hd
  rw [hid, htells.configuration] at hfind
  refine ⟨d.stored fl, j, ?_, ?_, hje⟩
  · rw [Rows.stored, List.find?_map]
    exact congrArg (Option.map (ConfigurationRow.stored fl)) hfind
  · rw [ConfigurationRow.identity_stored, ConfigurationRow.identity_congr py hsame, hj]

/-- Entries with one id have the same identity, so that the bundles register them. -/
theorem entries_register (htold : AllTold h submissions models es runs) (hholds : Holds rows models)
    (hkeys : rows.keysDistinct = true) (hread : ReadsBack py h submissions) :
    ∃ identities, register [] es = .ok identities := by
  refine register_returns (by simp) fun e he e' he' hee => ?_
  obtain ⟨d, j, hd, hj, hje⟩ := stored_identity ⟨id, fun _ _ => rfl⟩ htold hholds hkeys hread he
  obtain ⟨d', j', hd', hj', hje'⟩ :=
    stored_identity ⟨id, fun _ _ => rfl⟩ htold hholds hkeys hread he'
  rw [← hee, hd] at hd'
  cases hd'
  rw [hj] at hj'
  cases hj'
  exact Identity.same_trans (Identity.same_symm hje) hje'

theorem observed_keys (htold : AllTold h submissions models es runs) (hholds : Holds rows models) :
    sortedKeys RunRow.key (rows.stored fl).benchmarkRuns = sortedKeys Prod.fst runs.flatten := by
  refine sortedKeys_eq fun k => ?_
  have hruns : ((rows.stored fl).benchmarkRuns.map RunRow.key).Perm (runs.flatten.map Prod.fst) := by
    refine ((hholds.runs.map (RunRow.stored fl)).map RunRow.key).trans ?_
    rw [List.map_map, List.map_map]
    have hobserved := htold.observed.map Prod.fst
    rw [List.map_map] at hobserved
    exact hobserved
  have hmem := hruns.mem_iff (a := k)
  rwa [List.mem_map, List.mem_map] at hmem

theorem mapM_related {α β γ : Type} {R : β → γ → Prop} {f : α → Outcome β} {g : α → Outcome γ}
    {l : List α} (hl : ∀ a ∈ l, ∃ b c, f a = .ok b ∧ g a = .ok c ∧ R b c) :
    ∃ bs cs, l.mapM f = .ok bs ∧ l.mapM g = .ok cs ∧ List.Forall₂ R bs cs := by
  induction l with
  | nil => exact ⟨[], [], rfl, rfl, .nil⟩
  | cons a l ih =>
    obtain ⟨b, c, hb, hc, hbc⟩ := hl a List.mem_cons_self
    obtain ⟨bs, cs, hbs, hcs, hall⟩ := ih fun d hd => hl d (List.mem_cons_of_mem a hd)
    refine ⟨b :: bs, c :: cs, ?_, ?_, .cons hbc hall⟩
    · rw [List.mapM_cons, hb, hbs]
      rfl
    · rw [List.mapM_cons, hc, hcs]
      rfl

/-- What comes out of the database is what the bundles themselves give. -/
theorem pairedDatabaseObservations_build {temporary : Str} {stored : Rows}
    (hbuild : buildDatabase fl h temporary submissions = .ok stored)
    (hread : ReadsBack py h submissions) (hcounts : ∀ b ∈ submissions, b.Counts) :
    ∃ ours theirs, pairedDatabaseObservations fl py stored = .ok ours ∧
      bundleObservations fl h submissions = .ok theirs ∧
      List.Forall₂ PairedObservation.Same ours theirs := by
  obtain ⟨rows, hrows, hkeys, hsurvive, rfl⟩ := buildDatabase_ok hbuild
  obtain ⟨hids, models, es, runs, htold, hholds⟩ := normalizeSubmissions_ok hrows
  obtain ⟨identities, hidentities⟩ := entries_register htold hholds hkeys hread
  obtain ⟨perBundle, hper, hes⟩ := htold.entries
  have hdistinct : (submissions.map Bundle.bundleId).Nodup := by
    refine hids.nodup_iff.mp ?_
    simp only [Rows.keysDistinct, Bool.and_eq_true, decide_eq_true_eq] at hkeys
    exact hkeys.1.1.1.1
  have htheirs : bundleObservations fl h submissions =
      (sortedGroups Prod.fst runs.flatten).mapM fun g => do
        let identity ← ofKey (identities.lookup g.1.configuration)
        return observationOf fl g.1 identity (g.2.map Prod.snd) := by
    rw [bundleObservations, hper, htold.observes]
    simp only [Outcome.ok_bind, ← hes, hidentities]
  rw [htheirs, pairedDatabaseObservations, sortedGroups_eq, sortedGroups_eq,
    observed_keys htold hholds, List.mapM_map, List.mapM_map]
  refine mapM_related fun k hk => ?_
  obtain ⟨p, hp, rfl⟩ := mem_sortedKeys.mp hk
  obtain ⟨e, he, hconf⟩ := htold.known p hp
  obtain ⟨d, j, hd, hj, hje⟩ := stored_identity fl htold hholds hkeys hread he
  obtain ⟨i, hi, hie⟩ := (register_ok hidentities).2 e he
  refine ⟨_, _, Failures.bind_eq_ok.mpr ⟨d, ?_, Failures.bind_eq_ok.mpr ⟨j, hj, rfl⟩⟩,
    Failures.bind_eq_ok.mpr ⟨i, ?_, rfl⟩, rfl, rfl, rfl, rfl,
    Identity.same_trans hje (Identity.same_symm hie), ?_⟩
  · rw [← hconf, hd]
    rfl
  · rw [← hconf, hi]
    rfl
  · exact groupMetrics_alike (stored_group htold hholds hkeys hsurvive hcounts p.1)
      (runs_counted htold.observes hdistinct hcounts p.1)

end Agreement

section Order
variable {fl : FloatRounding} {h : Hashing} {submissions submissions' : List Bundle}

/-- The database does not depend on the order in which the bundles were loaded. -/
theorem buildDatabase_perm {temporary : Str} {stored : Rows} (hperm : submissions.Perm submissions')
    (hbuild : buildDatabase fl h temporary submissions = .ok stored) :
    buildDatabase fl h temporary submissions' = .ok stored := by
  obtain ⟨rows, hrows, hkeys, -, -⟩ := buildDatabase_ok hbuild
  have hdistinct : (submissions.map Bundle.bundleId).Nodup := by
    refine (normalizeSubmissions_ok hrows).1.nodup_iff.mp ?_
    simp only [Rows.keysDistinct, Bool.and_eq_true, decide_eq_true_eq] at hkeys
    exact hkeys.1.1.1.1
  rw [← hbuild, buildDatabase, buildDatabase, normalizeSubmissions, normalizeSubmissions,
    sort_key_perm hperm hdistinct]

end Order

section Parser
variable {h : Hashing} {vs : List Json} {v : Json}

/-- A parser of the texts of some values. -/
def canonicalParser (h : Hashing) (vs : List Json) : Interpreter :=
  .ofTable (vs.map fun v => (h.canonicalText v, v.sortKeys))

/-- Two objects of one text agree, so whichever the table has first is what was written. -/
theorem canonicalParser_reads (hobjects : ∀ v ∈ vs, ∃ fields, v = .obj fields) (hv : v ∈ vs) :
    Reads (canonicalParser h vs) h v := by
  have hlookup : (vs.map fun v => (h.canonicalText v, v.sortKeys)).lookup (h.canonicalText v) =
      some v.sortKeys := by
    induction vs with
    | nil => cases hv
    | cons w ws ih =>
      rw [List.map_cons, List.lookup_cons]
      by_cases htext : h.canonicalText v = h.canonicalText w
      · obtain ⟨es, rfl⟩ := hobjects v hv
        obtain ⟨gs, rfl⟩ := hobjects w (by simp)
        have hsame := (dumps_cancel ⟨false, false⟩ h.floats (congrArg (· ++ []) htext)).1
        simp [htext, hsame]
      · have hne : v ≠ w := fun he => htext (by rw [he])
        rw [beq_false_of_ne htext]
        exact ih (fun u hu => hobjects u (by simp [hu])) (List.mem_of_ne_of_mem hne hv)
  unfold Reads canonicalParser Interpreter.ofTable
  dsimp only
  rw [hlookup]

def Identity.objects (i : Identity) : List Json :=
  [i.serving.json, i.parameters.json, i.publicMetadata.json]

def identityObjects (submissions : List Bundle) : List Json :=
  submissions.flatMap fun b => (b.models.filterMap fun m => (identityOf b m).toOption).flatMap
    Identity.objects

/-- Whatever the bundles, there is a parser that reads back what the database writes for them. -/
theorem canonicalParser_readsBack (h : Hashing) (submissions : List Bundle) :
    ReadsBack (canonicalParser h (identityObjects submissions)) h submissions := by
  have hobjects : ∀ v ∈ identityObjects submissions, ∃ fields, v = .obj fields := by
    intro v hv
    obtain ⟨b, -, hv⟩ := List.mem_flatMap.mp hv
    obtain ⟨i, -, hv⟩ := List.mem_flatMap.mp hv
    simp only [Identity.objects, List.mem_cons, List.not_mem_nil, or_false] at hv
    rcases hv with rfl | rfl | rfl
    · exact ⟨_, rfl⟩
    · exact ⟨_, rfl⟩
    · exact ⟨_, rfl⟩
  intro b hb m hm i hi
  have hmem : ∀ v ∈ i.objects, v ∈ identityObjects submissions := by
    intro v hv
    refine List.mem_flatMap.mpr ⟨b, hb, List.mem_flatMap.mpr ⟨i, ?_, hv⟩⟩
    exact List.mem_filterMap.mpr ⟨m, hm, by rw [hi]; rfl⟩
  exact ⟨canonicalParser_reads hobjects (hmem _ (by simp [Identity.objects])),
    canonicalParser_reads hobjects (hmem _ (by simp [Identity.objects])),
    canonicalParser_reads hobjects (hmem _ (by simp [Identity.objects]))⟩

end Parser

section Sample

-- Distinct texts of the samples have distinct digests.
def spreadSha : Sha256 where
  hexdigest data :=
    let code := data.foldl (fun n b => (257 * n + b.toNat + 1) % 16 ^ 64) 0
    (List.range 64).map fun i => Nat.digitChar (code / 16 ^ i % 16)
  length_eq _ := by simp
  hex data c hc := by
    have hdigit : ∀ d < 16, isLowerHex (Nat.digitChar d) = true := by decide
    obtain ⟨i, -, rfl⟩ := List.mem_map.mp hc
    exact hdigit _ (Nat.mod_lt _ (by norm_num))

def spreadHashing : Hashing := ⟨spreadSha, plainFloatText, 1000⟩

def pairItem (item : String) (passed : Bool) (tokens : Int) : ItemOutcome where
  item := item.toList
  attempt := 1
  status := if passed then .pass else .fail
  wallSeconds := some (.int 2)
  tokens := some tokens

def pairRound (item : String) (passed : Bool) (tokens : Int) : RoundResult where
  metrics := [("passed".toList, some (.int (if passed then 1 else 0))), ("total".toList, some (.int 1))]
  items := some [pairItem item passed tokens]
  tasks := none

def pairModel (name : String) (passed : Bool) (tokens : Int) : Model where
  publicName := name.toList
  transport := "openai_compat".toList
  serving := some ⟨"unreported".toList, none, none⟩
  scaffold := some ⟨"codex_cli".toList, "none".toList, "unrestricted".toList, false⟩
  rounds := [(firstRound, pairRound "q1" passed tokens), (secondRound, pairRound "q11" true 60)]
  parameters := [("context_window".toList, .number (.int 8192))]
  publicMetadata := []

/-- Two models in two rounds. -/
def pairBundle (id : String) (passed : Bool) : Bundle where
  schemaVersion := 4
  bundleId := id.toList
  packs := [(firstRound, samplePack), (secondRound, samplePack)]
  environment := ⟨"Linux".toList, "x86_64".toList, "3.12".toList⟩
  models := [pairModel "alpha" passed 30, pairModel "beta" false 45]

def pairBundles : List Bundle := [pairBundle "sha256:1" true, pairBundle "sha256:2" false]

def pairParser : Interpreter := canonicalParser spreadHashing (identityObjects pairBundles)

def doubleRounding : FloatRounding :=
  ⟨Binary64.nearest, fun n hn => by exact_mod_cast Binary64.nearest_intCast (n := n) (by simpa using hn)⟩

theorem pair_reads : ReadsBack pairParser spreadHashing pairBundles :=
  canonicalParser_readsBack spreadHashing pairBundles

theorem pair_tokens : ∀ b ∈ pairBundles, ∀ r ∈ b.models.flatMap Model.rounds,
    ∀ item ∈ r.2.items.getD [], ∀ t ∈ item.tokens, 0 ≤ t ∧ t ≤ 2 ^ 53 := by decide

theorem pair_counts : ∀ b ∈ pairBundles, b.Counts := by
  have hnil : Counted ([] : List ℚ) := Counted.nil
  have htotal : Counted [1, 1, 1, 1] := ⟨by simpa using ⟨1, by norm_num⟩, by norm_num⟩
  have hpassed : ∀ n ≤ 1, Counted [(n : ℕ), 1, 0, 1] := by
    intro n hn
    have hle : (n : ℚ) ≤ 1 := by exact_mod_cast hn
    refine ⟨by simpa using ⟨⟨1, by norm_num⟩, ⟨0, by norm_num⟩, 1, by norm_num⟩, ?_⟩
    simp only [List.sum_cons, List.sum_nil]
    linarith
  intro b hb
  refine ⟨fun column => ?_, pair_tokens b hb⟩
  rcases List.mem_pair.mp hb with rfl | rfl
  · cases column with
    | passed => exact hpassed 1 le_rfl
    | total => exact htotal
    | _ => exact hnil
  · cases column with
    | passed => exact hpassed 0 zero_le_one
    | total => exact htotal
    | _ => exact hnil

theorem pair_built :
    ∃ stored, buildDatabase doubleRounding spreadHashing [] pairBundles = .ok stored :=
  Failures.isOk_iff.mp (by decide +kernel)

theorem pairedDatabaseObservations_build_sample : ∃ stored ours theirs,
    buildDatabase doubleRounding spreadHashing [] pairBundles = .ok stored ∧
      pairedDatabaseObservations doubleRounding pairParser stored = .ok ours ∧
      bundleObservations doubleRounding spreadHashing pairBundles = .ok theirs ∧
      List.Forall₂ PairedObservation.Same ours theirs := by
  obtain ⟨stored, hstored⟩ := pair_built
  obtain ⟨ours, theirs, hours, htheirs, hsame⟩ :=
    pairedDatabaseObservations_build hstored pair_reads pair_counts
  exact ⟨stored, ours, theirs, hstored, hours, htheirs, hsame⟩

theorem buildDatabase_perm_sample : ∃ stored,
    buildDatabase doubleRounding spreadHashing [] pairBundles = .ok stored ∧
      buildDatabase doubleRounding spreadHashing [] pairBundles.reverse = .ok stored := by
  obtain ⟨stored, hstored⟩ := pair_built
  exact ⟨stored, hstored, buildDatabase_perm (List.reverse_perm _).symm hstored⟩

end Sample

end Community
