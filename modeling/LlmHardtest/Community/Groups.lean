import LlmHardtest.Community.CollectionPlan
set_option autoImplicit false

/-! What the aggregator's rows are made of: for each key, what the bundles contribute to it. -/

namespace Community
open Python

def returned {α : Type} (x : Outcome (List α)) : List α := x.toOption.getD []

@[simp] theorem returned_ok {α : Type} (l : List α) : returned (.ok l) = l := rfl

theorem mapM_eq_map_returned {α β : Type} {f : α → Outcome (List β)} {l : List α}
    {bs : List (List β)} (h : l.mapM f = .ok bs) : bs = l.map fun a => returned (f a) := by
  induction l generalizing bs with
  | nil => cases h; rfl
  | cons a l ih =>
    rw [List.mapM_cons] at h
    obtain ⟨b, hb, h⟩ := Failures.bind_eq_ok.mp h
    obtain ⟨cs, hcs, h⟩ := Failures.bind_eq_ok.mp h
    cases h
    rw [List.map_cons, hb, ← ih hcs, returned_ok]

theorem mapM_map {α β γ : Type} {f : α → Outcome β} {p : α → γ} {q : β → γ}
    (hf : ∀ a b, f a = .ok b → q b = p a) {l : List α} {bs : List β} (h : l.mapM f = .ok bs) :
    bs.map q = l.map p := by
  induction l generalizing bs with
  | nil => cases h; rfl
  | cons a l ih =>
    rw [List.mapM_cons] at h
    obtain ⟨b, hb, h⟩ := Failures.bind_eq_ok.mp h
    obtain ⟨cs, hcs, h⟩ := Failures.bind_eq_ok.mp h
    cases h
    rw [List.map_cons, List.map_cons, ih hcs, hf a b hb]

section Register
variable {known configurations : List (ConfigurationId × Identity)} {es : List Entry}

theorem register_ok (h : register known es = .ok configurations) :
    (∀ id i, known.lookup id = some i → configurations.lookup id = some i) ∧
      ∀ e ∈ es, ∃ i, configurations.lookup e.configuration = some i ∧ i.same e.identity = true := by
  induction es generalizing known with
  | nil =>
    cases h
    exact ⟨fun _ _ hi => hi, by simp⟩
  | cons e es ih =>
    rw [register] at h
    cases hknown : known.lookup e.configuration with
    | none =>
      rw [hknown] at h
      obtain ⟨hstay, hall⟩ := ih h
      have hnew : (known ++ [(e.configuration, e.identity)]).lookup e.configuration =
          some e.identity := by
        rw [List.lookup_append, hknown, List.lookup_cons, BEq.rfl]
        rfl
      refine ⟨fun id i hi => hstay id i (by rw [List.lookup_append, hi]; rfl), fun e' he' => ?_⟩
      rcases List.mem_cons.mp he' with rfl | he'
      · exact ⟨_, hstay _ _ hnew, Identity.same_refl _⟩
      · exact hall e' he'
    | some previous =>
      rw [hknown] at h
      dsimp only at h
      split at h
      · rename_i hsame
        obtain ⟨hstay, hall⟩ := ih h
        refine ⟨hstay, fun e' he' => ?_⟩
        rcases List.mem_cons.mp he' with rfl | he'
        · exact ⟨previous, hstay _ _ hknown, hsame⟩
        · exact hall e' he'
      · cases h

end Register

section Contributions
variable {h : Hashing} {b : Bundle} {es : List Entry} {k : Key} {l : Local}

theorem entries_identity (hes : entries h b = .ok es) :
    ∀ e ∈ es, e.identity.model = e.model.publicName := by
  intro e he
  obtain ⟨m, _, hm⟩ := (Outcome.mapM_mem hes).2 e he
  obtain ⟨_, _, hm⟩ := Failures.bind_eq_ok.mp hm
  obtain ⟨identity, hid, hm⟩ := Failures.bind_eq_ok.mp hm
  obtain ⟨_, _, hid⟩ := Failures.bind_eq_ok.mp hid
  cases hm
  cases hid
  rfl

theorem cells_mem {cs : List Cell} (hcs : cells b es = .ok cs) {c : Cell} (hc : c ∈ cs) :
    ∃ e ∈ es, e.configuration = c.key.configuration ∧ e.model.publicName = c.key.model := by
  obtain ⟨perEntry, hper, hcs⟩ := Failures.bind_eq_ok.mp hcs
  cases hcs
  obtain ⟨row, hrow, hc⟩ := List.mem_flatten.mp hc
  obtain ⟨e, he, hrow'⟩ := (Outcome.mapM_mem hper).2 row hrow
  obtain ⟨r, _, hr⟩ := (Outcome.mapM_mem hrow').2 c hc
  obtain ⟨pack, _, hr⟩ := Failures.bind_eq_ok.mp hr
  cases hr
  exact ⟨e, he, rfl, rfl⟩

theorem bundleGroups_mem {gs : List (Key × Local)} (hgs : bundleGroups b es = .ok gs) :
    ∃ cs, cells b es = .ok cs ∧ (gs.map Prod.fst).Nodup ∧
      (∀ k, k ∈ gs.map Prod.fst ↔ ∃ c ∈ cs, c.key = k) ∧
      ∀ k l, (k, l) ∈ gs → localOf (cs.filter fun c => c.key = k) = .ok l := by
  obtain ⟨cs, hcs, hgs⟩ := Failures.bind_eq_ok.mp hgs
  have hkeys : gs.map Prod.fst = (GroupBy.groupBy Cell.key cs).map Prod.fst := by
    refine mapM_map (fun g p hp => ?_) hgs
    obtain ⟨_, _, hp⟩ := Failures.bind_eq_ok.mp hp
    cases hp
    rfl
  refine ⟨cs, hcs, hkeys ▸ GroupBy.nodup_keys _ _, fun k => ?_, fun k l hkl => ?_⟩
  · rw [hkeys, GroupBy.mem_keys]
  · obtain ⟨g, hg, hl⟩ := (Outcome.mapM_mem hgs).2 (k, l) hkl
    obtain ⟨l', hl', hl⟩ := Failures.bind_eq_ok.mp hl
    cases hl
    obtain ⟨-, hfilter⟩ := GroupBy.mem_groupBy.mp hg
    rw [← hfilter]
    exact hl'

theorem contribution_entry {gs : List (Key × Local)} (hgs : contribution h b = .ok gs)
    (hk : k ∈ gs.map Prod.fst) : ∃ es, entries h b = .ok es ∧
      ∃ e ∈ es, e.configuration = k.configuration ∧ e.identity.model = k.model := by
  obtain ⟨es, hes, hgs⟩ := Failures.bind_eq_ok.mp hgs
  obtain ⟨cs, hcs, -, hkeys, -⟩ := bundleGroups_mem hgs
  obtain ⟨c, hc, rfl⟩ := (hkeys k).mp hk
  obtain ⟨e, he, hconf, hname⟩ := cells_mem hcs hc
  exact ⟨es, hes, e, he, hconf, (entries_identity hes e he).trans hname⟩

def localsAt (h : Hashing) (submissions : List Bundle) (k : Key) : List Local :=
  ((submissions.flatMap fun b => returned (contribution h b)).filter fun p => p.1 = k).map Prod.snd

@[simp] theorem localsAt_append (subs added : List Bundle) :
    localsAt h (subs ++ added) k = localsAt h subs k ++ localsAt h added k := by
  simp [localsAt, List.flatMap_append]

theorem localsAt_ne_nil {subs : List Bundle} (hk : localsAt h subs k ≠ []) :
    ∃ b ∈ subs, ∃ gs, contribution h b = .ok gs ∧ k ∈ gs.map Prod.fst := by
  simp only [localsAt, ne_eq, List.map_eq_nil_iff, List.filter_eq_nil_iff, decide_eq_true_eq,
    not_forall, not_not, List.mem_flatMap] at hk
  obtain ⟨p, ⟨b, hb, hp⟩, rfl⟩ := hk
  cases hgs : contribution h b with
  | error e =>
    rw [hgs] at hp
    simp [returned, Except.toOption] at hp
  | ok gs =>
    rw [hgs, returned_ok] at hp
    exact ⟨b, hb, gs, hgs, List.mem_map.mpr ⟨p, hp, rfl⟩⟩

theorem localsAt_perm {subs later : List Bundle} (hp : later.Perm subs) :
    (localsAt h later k).Perm (localsAt h subs k) :=
  ((hp.flatMap_right _).filter _).map _

end Contributions

def Local.reports (l : Local) : Objective → Bool
  | .accuracy => l.total.positive
  | .completion => l.attempted.positive
  | .latency => !l.itemWalls.isEmpty
  | .throughput => !l.tokenRates.isEmpty

section Rows
variable {h : Hashing} {u : UnicodeData} {sq : SquareRoot} {subs : List Bundle}
  {rows : List AggregateRow}

/-- A row is the statistic of what the bundles add to its key. -/
structure RowFor (h : Hashing) (subs : List Bundle) (row : AggregateRow) : Prop where
  observed : localsAt h subs row.key ≠ []
  counts : ∀ o, objectiveCount row o = (localsAt h subs row.key).countP fun l => l.reports o
  identity : ∀ b ∈ subs, ∀ es, entries h b = .ok es → ∀ e ∈ es,
    e.configuration = row.key.configuration → row.identity.same e.identity = true

theorem passRates_length {locals : List Local} {rates : List PyFloat}
    (hr : passRates locals = .ok rates) :
    rates.length = locals.countP fun l => l.reports .accuracy := by
  rw [Outcome.mapM_length hr, List.countP_eq_length_filter]
  rfl

theorem completionRates_length {locals : List Local} {rates : List PyFloat}
    (hr : completionRates locals = .ok rates) :
    rates.length = locals.countP fun l => l.reports .completion := by
  rw [Outcome.mapM_length hr, List.countP_eq_length_filter]
  rfl

theorem rowOf_ok {configurations : List (ConfigurationId × Identity)}
    {g : Key × List (Key × Local)} {row : AggregateRow} (hrow : rowOf sq configurations g = .ok row) :
    row.key = g.1 ∧ configurations.lookup g.1.configuration = some row.identity ∧
      ∀ o, objectiveCount row o = (g.2.map Prod.snd).countP fun l => l.reports o := by
  unfold rowOf at hrow
  obtain ⟨identity, hid, hrow⟩ := Failures.bind_eq_ok.mp hrow
  obtain ⟨passed, _, hrow⟩ := Failures.bind_eq_ok.mp hrow
  obtain ⟨total, _, hrow⟩ := Failures.bind_eq_ok.mp hrow
  obtain ⟨incomplete, _, hrow⟩ := Failures.bind_eq_ok.mp hrow
  obtain ⟨manualReview, _, hrow⟩ := Failures.bind_eq_ok.mp hrow
  obtain ⟨infrastructureErrors, _, hrow⟩ := Failures.bind_eq_ok.mp hrow
  obtain ⟨rates, hrates, hrow⟩ := Failures.bind_eq_ok.mp hrow
  obtain ⟨completions, hcompletions, hrow⟩ := Failures.bind_eq_ok.mp hrow
  have hlookup : configurations.lookup g.1.configuration = some identity := by
    cases hl : configurations.lookup g.1.configuration with
    | none =>
      rw [hl] at hid
      cases hid
    | some i =>
      rw [hl] at hid
      cases hid
      rfl
  split at hrow
  · cases hrow
    refine ⟨rfl, hlookup, fun o => ?_⟩
    cases o with
    | accuracy => exact passRates_length hrates
    | completion => exact completionRates_length hcompletions
    | latency =>
      simp only [objectiveCount, meanWalls, List.length_map, List.countP_eq_length_filter]
      rfl
    | throughput =>
      simp only [objectiveCount, meanTokenRates, List.length_map, List.countP_eq_length_filter]
      rfl
  · cases hrow
  · cases hrow

/-- The rows of an aggregate: one for each key that some bundle adds to. -/
theorem aggregateSubmissions_rows (hrows : aggregateSubmissions h u sq subs = .ok rows) :
    (rows.map AggregateRow.key).Nodup ∧ (∀ row ∈ rows, RowFor h subs row) ∧
      ∀ k, k ∈ rows.map AggregateRow.key ↔ localsAt h subs k ≠ [] := by
  obtain ⟨p, hp, hrows⟩ := Failures.bind_eq_ok.mp hrows
  obtain ⟨es, hes, hp⟩ := Failures.bind_eq_ok.mp hp
  obtain ⟨configurations, hreg, hp⟩ := Failures.bind_eq_ok.mp hp
  obtain ⟨groups, hgroups, hp⟩ := Failures.bind_eq_ok.mp hp
  cases hp
  obtain ⟨made, hmade, hrows⟩ := Failures.bind_eq_ok.mp hrows
  cases hrows
  have hflat : groups.flatten = subs.flatMap fun b => returned (contribution h b) := by
    rw [mapM_eq_map_returned hgroups, List.flatMap_def]
  have hlocals : ∀ k, localsAt h subs k =
      (groups.flatten.filter fun p => p.1 = k).map Prod.snd := by
    intro k
    rw [hflat]
    rfl
  have hperm := List.perm_insertionSort (rowLe u) made
  have hkeys : made.map AggregateRow.key =
      (GroupBy.groupBy Prod.fst groups.flatten).map Prod.fst :=
    mapM_map (fun _ _ hrow => (rowOf_ok hrow).1) hmade
  refine ⟨?_, fun row hrow => ?_, fun k => ?_⟩
  · rw [(hperm.map _).nodup_iff, hkeys]
    exact GroupBy.nodup_keys _ _
  · obtain ⟨g, hg, hrow⟩ := (Outcome.mapM_mem hmade).2 row (hperm.mem_iff.mp hrow)
    obtain ⟨hkey, hlookup, hcounts⟩ := rowOf_ok hrow
    obtain ⟨k, members⟩ := g
    obtain ⟨⟨q, hq, hqk⟩, rfl⟩ := GroupBy.mem_groupBy.mp hg
    dsimp only at hkey hlookup hcounts
    subst hkey
    refine ⟨?_, ?_, ?_⟩
    · rw [hlocals]
      simp only [ne_eq, List.map_eq_nil_iff, List.filter_eq_nil_iff, decide_eq_true_eq, not_forall,
        not_not]
      exact ⟨q, hq, hqk⟩
    · intro o
      rw [hcounts, hlocals]
    · intro b hb es' hes' e he hconf
      obtain ⟨es'', hmem, hes''⟩ := (Outcome.mapM_mem hes).1 b hb
      rw [hes'] at hes''
      cases hes''
      obtain ⟨i, hi, hsame⟩ := (register_ok hreg).2 e (List.mem_flatten.mpr ⟨es', hmem, he⟩)
      rw [hconf, hlookup] at hi
      cases hi
      exact hsame
  · rw [(hperm.map _).mem_iff, hkeys, GroupBy.mem_keys, hlocals]
    simp only [ne_eq, List.map_eq_nil_iff, List.filter_eq_nil_iff, decide_eq_true_eq, not_forall,
      not_not]
    exact ⟨fun ⟨a, ha, hk⟩ => ⟨a, ha, hk⟩, fun ⟨a, ha, hk⟩ => ⟨a, ha, hk⟩⟩

end Rows

end Community
