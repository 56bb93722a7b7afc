import LlmHardtest.Community.PlanExact
import LlmHardtest.Community.Rates
import LlmHardtest.Community.Validated
set_option autoImplicit false

/-! When accepted bundles aggregate to sound rates. -/

namespace Community
open Python

def cellsOf (h : Hashing) (b : Bundle) : List Cell := returned (do cells b (← entries h b))

def cellsAt (h : Hashing) (b : Bundle) (k : Key) : List Cell := (cellsOf h b).filter fun c => c.key = k

def groupsAt (h : Hashing) (subs : List Bundle) (k : Key) : List (List Cell) :=
  (subs.map fun b => cellsAt h b k).filter fun cs => !cs.isEmpty

def passedField (c : Cell) : String := (scoreFields c.key.round).1

def totalField (c : Cell) : String := (scoreFields c.key.round).2

def summedFields : List (Cell → String) :=
  [passedField, totalField, fun _ => "incomplete", fun _ => "manual_review",
    fun _ => "infrastructure_errors"]

def reported (cs : List Cell) (field : Cell → String) : List PyNum :=
  cs.filterMap fun c => (c.result.metric (field c)).map FiniteNum.num

/-- The attempts: scored, incomplete, under review or invalid. -/
def attemptedFields : List (Cell → String) :=
  [totalField, fun _ => "incomplete", fun _ => "manual_review", fun _ => "infrastructure_errors"]

def RateFits (p : Int × FiniteNum) : Prop :=
  match p.2 with
  | .int wall => (p.1 : ℚ) / wall < floatOverflow
  | .float _ => p.1 < floatOverflow

/-- The rounds of one bundle under one key report no more passes than scored attempts, up to half of
the spacing of floats at one, in numbers that add up. -/
structure GroupFair (cs : List Cell) : Prop where
  rates : ∀ p ∈ ratePairs (itemOutcomes cs), RateFits p
  adds : ∀ field ∈ summedFields, Adds (reported cs field)
  attempted : Adds (attemptedFields.map fun field => PyNum.total (reported cs field))
  finite : PyNum.total (reported cs totalField) ≠ .float (.inf false)
  within : (PyNum.total (reported cs totalField)).positive = true → ∃ p t,
    (PyNum.total (reported cs passedField)).operands (PyNum.total (reported cs totalField)) =
      some (p, t) ∧ p ≤ t * (1 + 1 / 2 ^ 53)

/-- No two configurations share an id, and every group is fair. -/
structure Fair (h : Hashing) (subs : List Bundle) : Prop where
  identities : ∀ b ∈ subs, ∀ b' ∈ subs, ∀ e ∈ returned (entries h b), ∀ e' ∈ returned (entries h b'),
    e.configuration = e'.configuration → e.identity.same e'.identity = true
  groups : ∀ b ∈ subs, ∀ k, GroupFair (cellsAt h b k)
  rows : ∀ k, ∀ field ∈ summedFields,
    Adds ((groupsAt h subs k).map fun cs => PyNum.total (reported cs field))

/-- The aggregator returns, the rate of every bundle is one, and so is every interval. -/
structure SoundRates (h : Hashing) (u : UnicodeData) (sq : SquareRoot) (subs : List Bundle) : Prop where
  returns : ∃ rows, aggregateSubmissions h u sq subs = .ok rows ∧ ∀ row ∈ rows,
    (∀ i, row.passInterval = some i → i.Ordered) ∧ ∀ i, row.completionInterval = some i → i.Ordered
  passRates : ∀ k, ∀ l ∈ localsAt h subs k, l.total.positive = true → UnitRate (l.passed.div l.total)
  completionRates : ∀ k, ∀ l ∈ localsAt h subs k, l.attempted.positive = true →
    UnitRate (l.total.div l.attempted)

section Bundles
variable {h : Hashing} {b : Bundle} {es : List Entry} {cs : List Cell} {k : Key}

theorem entries_returns (hb : b.Valid) : ∃ es, entries h b = .ok es := by
  refine Outcome.mapM_returns.mpr fun m hm => ?_
  have hserving : ∃ serving, normalizedServing b m = .ok serving := by
    unfold normalizedServing
    split
    · rename_i h3
      obtain ⟨serving, hs⟩ := Option.isSome_iff_exists.mp (hb.serving m hm h3)
      exact ⟨serving, by rw [hs]; rfl⟩
    · exact ⟨_, rfl⟩
  have hscaffold : ∃ scaffold, normalizedScaffold b m = .ok scaffold := by
    unfold normalizedScaffold
    split
    · rename_i h4
      obtain ⟨scaffold, hs⟩ := Option.isSome_iff_exists.mp (hb.scaffold m hm h4)
      exact ⟨scaffold, by rw [hs]; rfl⟩
    · exact ⟨_, rfl⟩
  obtain ⟨serving, hserving⟩ := hserving
  obtain ⟨scaffold, hscaffold⟩ := hscaffold
  rw [configurationId, identityOf, hserving, hscaffold]
  exact ⟨_, rfl⟩

theorem entries_model (hes : entries h b = .ok es) {e : Entry} (he : e ∈ es) : e.model ∈ b.models := by
  obtain ⟨m, hm, hmade⟩ := (Outcome.mapM_mem hes).2 e he
  obtain ⟨configuration, _, hmade⟩ := Failures.bind_eq_ok.mp hmade
  obtain ⟨identity, _, hmade⟩ := Failures.bind_eq_ok.mp hmade
  cases hmade
  exact hm

theorem cells_returns (hb : b.Valid) (hes : entries h b = .ok es) : ∃ cs, cells b es = .ok cs := by
  have hall : ∃ perEntry, (es.mapM fun e => e.model.rounds.mapM fun r => do
      let pack ← ofKey (b.packs.lookup r.1)
      return ({ key := ⟨r.1, pack, e.model.publicName, e.configuration⟩, result := r.2 } : Cell)) =
        .ok perEntry := by
    refine Outcome.mapM_returns.mpr fun e he => Outcome.mapM_returns.mpr fun r hr => ?_
    obtain ⟨pack, hpack⟩ := Option.isSome_iff_exists.mp (hb.packs _ (entries_model hes he) r hr)
    rw [hpack]
    exact ⟨_, rfl⟩
  obtain ⟨perEntry, hper⟩ := hall
  exact ⟨perEntry.flatten, by rw [cells, hper]; rfl⟩

theorem cells_valid (hb : b.Valid) (hes : entries h b = .ok es) (hcs : cells b es = .ok cs) :
    ∀ c ∈ cs, c.result.Valid b.schemaVersion := by
  intro c hc
  obtain ⟨perEntry, hper, hcs⟩ := Failures.bind_eq_ok.mp hcs
  cases hcs
  obtain ⟨row, hrow, hc⟩ := List.mem_flatten.mp hc
  obtain ⟨e, he, hrow⟩ := (Outcome.mapM_mem hper).2 row hrow
  obtain ⟨r, hr, hmade⟩ := (Outcome.mapM_mem hrow).2 c hc
  obtain ⟨pack, _, hmade⟩ := Failures.bind_eq_ok.mp hmade
  cases hmade
  exact hb.rounds _ (entries_model hes he) r hr

theorem cellsOf_eq (hes : entries h b = .ok es) (hcs : cells b es = .ok cs) : cellsOf h b = cs := by
  rw [cellsOf, hes]
  change returned (cells b es) = cs
  rw [hcs, returned_ok]

theorem cellsAt_valid (hb : b.Valid) : ∀ c ∈ cellsAt h b k, c.result.Valid b.schemaVersion := by
  obtain ⟨es, hes⟩ := entries_returns (h := h) hb
  obtain ⟨cs, hcs⟩ := cells_returns hb hes
  intro c hc
  rw [cellsAt, cellsOf_eq hes hcs] at hc
  exact cells_valid hb hes hcs c (List.mem_of_mem_filter hc)

theorem contribution_returns (hb : b.Valid) : (∃ gs, contribution h b = .ok gs) ↔
    ∀ k, cellsAt h b k ≠ [] → ∃ l, localOf (cellsAt h b k) = .ok l := by
  obtain ⟨es, hes⟩ := entries_returns (h := h) hb
  obtain ⟨cs, hcs⟩ := cells_returns hb hes
  have hkey : ∀ k, cellsAt h b k ≠ [] ↔ ∃ c ∈ cs, c.key = k := by
    intro k
    rw [cellsAt, cellsOf_eq hes hcs]
    simp
  constructor
  · rintro ⟨gs, hgs⟩ k hk
    rw [contribution, hes] at hgs
    obtain ⟨cs', hcs', -, hkeys, hlocals⟩ := bundleGroups_mem (show bundleGroups b es = .ok gs from hgs)
    rw [hcs] at hcs'
    cases hcs'
    obtain ⟨⟨k', l⟩, hg, rfl⟩ := List.mem_map.mp ((hkeys k).mpr ((hkey k).mp hk))
    exact ⟨l, by rw [cellsAt, cellsOf_eq hes hcs]; exact hlocals k' l hg⟩
  · intro hall
    have hgroups : ∃ gs, ((GroupBy.groupBy Cell.key cs).mapM fun g => do
        let l ← localOf g.2
        return (g.1, l) : Outcome (List (Key × Local))) = .ok gs := by
      refine Outcome.mapM_returns.mpr fun g hg => ?_
      obtain ⟨hsome, hfilter⟩ := GroupBy.mem_groupBy.mp hg
      obtain ⟨l, hl⟩ := hall g.1 ((hkey g.1).mpr hsome)
      rw [cellsAt, cellsOf_eq hes hcs, ← hfilter] at hl
      exact ⟨(g.1, l), by rw [hl]; rfl⟩
    obtain ⟨gs, hgs⟩ := hgroups
    refine ⟨gs, ?_⟩
    rw [contribution, hes]
    change bundleGroups b es = _
    rw [bundleGroups, hcs]
    exact hgs

theorem returned_contribution (hb : b.Valid) {gs : List (Key × Local)} (hgs : contribution h b = .ok gs)
    (k : Key) : List.Forall₂ (fun cs l => localOf cs = .ok l)
      ([cellsAt h b k].filter fun cs => !cs.isEmpty) ((gs.filter fun p => p.1 = k).map Prod.snd) := by
  obtain ⟨es, hes⟩ := entries_returns (h := h) hb
  obtain ⟨cs, hcs⟩ := cells_returns hb hes
  rw [contribution, hes] at hgs
  obtain ⟨cs', hcs', hnodup, hkeys, hlocals⟩ :=
    bundleGroups_mem (show bundleGroups b es = .ok gs from hgs)
  rw [hcs] at hcs'
  cases hcs'
  rw [cellsAt, cellsOf_eq hes hcs]
  by_cases hk : ∃ c ∈ cs, c.key = k
  · obtain ⟨⟨k', l⟩, hg, rfl⟩ := List.mem_map.mp ((hkeys k).mpr hk)
    have hne : (cs.filter fun c => c.key = k').isEmpty = false := by
      rw [List.isEmpty_eq_false_iff]
      obtain ⟨c, hc, hck⟩ := hk
      exact List.ne_nil_of_mem (List.mem_filter.mpr ⟨hc, by simpa using hck⟩)
    rw [GroupBy.filter_key_eq hnodup hg, List.filter_cons_of_pos (by rw [hne]; rfl)]
    exact .cons (hlocals k' l hg) .nil
  · have hnil : (cs.filter fun c => c.key = k) = [] := by
      rw [List.filter_eq_nil_iff]
      intro c hc
      simpa using fun he => hk ⟨c, hc, he⟩
    have hgsnil : (gs.filter fun p => p.1 = k) = [] := by
      rw [List.filter_eq_nil_iff]
      intro p hp
      simpa using fun he => hk ((hkeys k).mp (List.mem_map.mpr ⟨p, hp, he⟩))
    rw [hnil, hgsnil]
    exact .nil

theorem localsAt_groups {subs : List Bundle} (hvalid : ∀ b ∈ subs, b.Valid)
    (hall : ∀ b ∈ subs, ∃ gs, contribution h b = .ok gs) (k : Key) :
    List.Forall₂ (fun cs l => localOf cs = .ok l) (groupsAt h subs k) (localsAt h subs k) := by
  induction subs with
  | nil => exact .nil
  | cons b subs ih =>
    obtain ⟨gs, hgs⟩ := hall b (by simp)
    have hhead := returned_contribution (hvalid b (by simp)) hgs k
    have htail := ih (fun b' hb' => hvalid b' (by simp [hb'])) fun b' hb' => hall b' (by simp [hb'])
    have hcells : groupsAt h (b :: subs) k =
        ([cellsAt h b k].filter fun cs => !cs.isEmpty) ++ groupsAt h subs k := by
      rw [groupsAt, groupsAt, List.map_cons, ← List.filter_append]
      rfl
    have hlocals : localsAt h (b :: subs) k =
        ((gs.filter fun p => p.1 = k).map Prod.snd) ++ localsAt h subs k := by
      rw [← List.singleton_append, localsAt_append]
      simp [localsAt, hgs]
    rw [hcells, hlocals]
    exact List.rel_append hhead htail

end Bundles

section Sums
variable {cs : List Cell} {schemaVersion : Nat}

theorem reported_nonneg (hcs : ∀ c ∈ cs, c.result.Valid schemaVersion) (field : Cell → String) :
    ∀ v ∈ reported cs field, v.nonneg = true := by
  intro v hv
  obtain ⟨c, hc, hmetric⟩ := List.mem_filterMap.mp hv
  obtain ⟨n, hn, rfl⟩ := Option.map_eq_some_iff.mp hmetric
  rw [RoundResult.metric, Option.join_eq_some_iff] at hn
  obtain ⟨before, after, hmem, -⟩ := List.lookup_eq_some_iff.mp hn
  obtain ⟨h0, -⟩ := (hcs c hc).metrics ((field c).toList, some n) (by rw [hmem]; simp) n rfl
  cases n with
  | int m =>
    have hm : (0 : ℚ) ≤ m := h0
    simpa using hm
  | float q =>
    have hq : (0 : ℚ) ≤ q := h0
    simpa using hq

theorem totals_nonneg (hcs : ∀ c ∈ cs, c.result.Valid schemaVersion)
    (fields : List (Cell → String)) :
    ∀ v ∈ fields.map fun field => PyNum.total (reported cs field), v.nonneg = true := by
  intro v hv
  obtain ⟨field, _, rfl⟩ := List.mem_map.mp hv
  exact PyNum.total_nonneg (reported_nonneg hcs field)

theorem sumMetric_returns (hcs : ∀ c ∈ cs, c.result.Valid schemaVersion) (field : Cell → String) :
    Adds (reported cs field) ↔ sumMetric cs field = .ok (PyNum.total (reported cs field)) := by
  rw [← PyNum.sum_returns (reported_nonneg hcs field)]
  constructor
  · rintro ⟨s, hs⟩
    rw [PyNum.sum_eq hs] at hs
    exact hs
  · exact fun h => ⟨_, h⟩

theorem itemWalls_returns {items : List ItemOutcome} (hitems : ∀ item ∈ items, item.Valid) :
    ∃ walls, itemWalls items = .ok walls := by
  refine Outcome.mapM_returns.mpr fun wall hwall => ?_
  obtain ⟨item, hitem, hw⟩ := List.mem_filterMap.mp hwall
  obtain ⟨h0, hfit⟩ := (hitems item hitem).wall wall hw
  cases wall with
  | int m =>
    have hm : 0 ≤ m := by
      have : (0 : ℚ) ≤ m := h0
      exact_mod_cast this
    have hfits : (PyNum.int m).fits = true := by
      rw [PyNum.fits, decide_eq_true_eq]
      exact hfit m rfl
    have hnonneg : (PyNum.int m).nonneg = true := decide_eq_true hm
    exact (PyNum.toFloat_returns hnonneg).mpr hfits
  | float q => exact ⟨_, rfl⟩

theorem ratePairs_valid {items : List ItemOutcome} (hitems : ∀ item ∈ items, item.Valid) :
    ∀ p ∈ ratePairs items, 0 ≤ p.1 ∧ 0 < p.2.value := by
  intro p hp
  obtain ⟨item, hitem, hpair⟩ := List.mem_filterMap.mp hp
  split at hpair
  · rename_i wall tokens hwall htokens
    split at hpair
    · rename_i hpos
      cases hpair
      exact ⟨(hitems item hitem).tokens tokens htokens, hpos⟩
    · cases hpair
  · cases hpair

theorem div_returns {p : Int × FiniteNum} (h0 : 0 ≤ p.1) (hpos : 0 < p.2.value) :
    (∃ x, (PyNum.int p.1).div p.2.num = .ok x) ↔ RateFits p := by
  obtain ⟨tokens, wall⟩ := p
  cases wall with
  | int w =>
    have hw : (0 : ℚ) < w := hpos
    have hratio : (0 : ℚ) ≤ (tokens : ℚ) / w := div_nonneg (by exact_mod_cast h0) hw.le
    change (∃ x, (PyNum.int tokens).div (.int w) = .ok x) ↔ (tokens : ℚ) / w < floatOverflow
    rw [PyNum.div, abs_of_nonneg hratio]
    split
    · rename_i hle
      refine iff_of_false ?_ (not_lt.mpr hle)
      rintro ⟨x, hx⟩
      cases hx
    · rename_i hlt
      exact iff_of_true ⟨_, rfl⟩ (not_le.mp hlt)
  | float q =>
    change (∃ x, (PyNum.int tokens).div (.float (.finite q)) = .ok x) ↔ tokens < floatOverflow
    have hnonneg : (PyNum.int tokens).nonneg = true := decide_eq_true h0
    have hfits := PyNum.toFloat_returns hnonneg
    rw [PyNum.fits, decide_eq_true_eq] at hfits
    rw [PyNum.div_float rfl, ← hfits]
    constructor
    · rintro ⟨x, hx⟩
      obtain ⟨y, hy, _⟩ := Failures.bind_eq_ok.mp hx
      exact ⟨y, hy⟩
    · rintro ⟨y, hy⟩
      exact ⟨_, by rw [hy]; rfl⟩

theorem tokenRates_returns {items : List ItemOutcome} (hitems : ∀ item ∈ items, item.Valid) :
    (∃ rates, tokenRates items = .ok rates) ↔ ∀ p ∈ ratePairs items, RateFits p := by
  rw [tokenRates, Outcome.mapM_returns]
  refine forall₂_congr fun p hp => ?_
  obtain ⟨h0, hpos⟩ := ratePairs_valid hitems p hp
  exact div_returns h0 hpos

/-- The attempts of a group: its scored ones and the others, added one after the other. -/
def attemptedTotal (cs : List Cell) : PyNum :=
  ((attemptedFields.drop 1).map fun field => PyNum.total (reported cs field)).foldl PyNum.plus
    (PyNum.total (reported cs totalField))

theorem attempted_returns (hcs : ∀ c ∈ cs, c.result.Valid schemaVersion) :
    Adds (attemptedFields.map fun field => PyNum.total (reported cs field)) ↔
      (do
        let scored ← (PyNum.total (reported cs totalField)).add
          (PyNum.total (reported cs fun _ => "incomplete"))
        let reviewed ← scored.add (PyNum.total (reported cs fun _ => "manual_review"))
        reviewed.add (PyNum.total (reported cs fun _ => "infrastructure_errors"))) =
          Except.ok (attemptedTotal cs) := by
  have hloop : ((attemptedFields.drop 1).map fun field => PyNum.total (reported cs field)).foldlM
      PyNum.add (PyNum.total (reported cs totalField)) = (do
        let scored ← (PyNum.total (reported cs totalField)).add
          (PyNum.total (reported cs fun _ => "incomplete"))
        let reviewed ← scored.add (PyNum.total (reported cs fun _ => "manual_review"))
        reviewed.add (PyNum.total (reported cs fun _ => "infrastructure_errors"))) := by
    simp only [attemptedFields, List.drop_succ_cons, List.drop_zero, List.map_cons, List.map_nil,
      List.foldlM_cons, List.foldlM_nil, bind_pure]
  rw [← hloop, attemptedFields, List.map_cons, ← PyNum.fold_returns
    (PyNum.total_nonneg (reported_nonneg hcs totalField)) (totals_nonneg hcs _)]
  constructor
  · rintro ⟨s, hs⟩
    exact hs.trans (congrArg Except.ok (PyNum.foldlM_eq hs))
  · exact fun h => ⟨_, h⟩

end Sums

section Locals
variable {cs : List Cell} {schemaVersion : Nat} {l : Local}

theorem itemOutcomes_valid (hcs : ∀ c ∈ cs, c.result.Valid schemaVersion) :
    ∀ item ∈ itemOutcomes cs, item.Valid := by
  intro item hitem
  obtain ⟨c, hc, hitem⟩ := List.mem_flatMap.mp hitem
  exact (hcs c hc).items item hitem

structure Local.Exact (l : Local) (cs : List Cell) : Prop where
  passed : l.passed = PyNum.total (reported cs passedField)
  total : l.total = PyNum.total (reported cs totalField)
  incomplete : l.incomplete = PyNum.total (reported cs fun _ => "incomplete")
  manualReview : l.manualReview = PyNum.total (reported cs fun _ => "manual_review")
  infrastructureErrors :
    l.infrastructureErrors = PyNum.total (reported cs fun _ => "infrastructure_errors")
  attempted : l.attempted = attemptedTotal cs

structure GroupAdds (cs : List Cell) : Prop where
  rates : ∀ p ∈ ratePairs (itemOutcomes cs), RateFits p
  adds : ∀ field ∈ summedFields, Adds (reported cs field)
  attempted : Adds (attemptedFields.map fun field => PyNum.total (reported cs field))

theorem localOf_exact (hcs : ∀ c ∈ cs, c.result.Valid schemaVersion) (hl : localOf cs = .ok l) :
    GroupAdds cs ∧ l.Exact cs := by
  obtain ⟨passed, hpassed, hl⟩ := Failures.bind_eq_ok.mp hl
  obtain ⟨total, htotal, hl⟩ := Failures.bind_eq_ok.mp hl
  obtain ⟨incomplete, hincomplete, hl⟩ := Failures.bind_eq_ok.mp hl
  obtain ⟨manualReview, hmanual, hl⟩ := Failures.bind_eq_ok.mp hl
  obtain ⟨infrastructureErrors, hinfra, hl⟩ := Failures.bind_eq_ok.mp hl
  obtain ⟨walls, _, hl⟩ := Failures.bind_eq_ok.mp hl
  obtain ⟨rates, hrates, hl⟩ := Failures.bind_eq_ok.mp hl
  obtain ⟨scored, hscored, hl⟩ := Failures.bind_eq_ok.mp hl
  obtain ⟨reviewed, hreviewed, hl⟩ := Failures.bind_eq_ok.mp hl
  obtain ⟨attempted, hattempted, hl⟩ := Failures.bind_eq_ok.mp hl
  cases hl
  have hadds : ∀ field s, sumMetric cs field = .ok s →
      Adds (reported cs field) ∧ s = PyNum.total (reported cs field) := fun field s hs =>
    ⟨(PyNum.sum_returns (reported_nonneg hcs field)).mp ⟨s, hs⟩, PyNum.sum_eq hs⟩
  obtain ⟨hp, rfl⟩ := hadds _ _ hpassed
  obtain ⟨ht, rfl⟩ := hadds _ _ htotal
  obtain ⟨hi, rfl⟩ := hadds _ _ hincomplete
  obtain ⟨hm, rfl⟩ := hadds _ _ hmanual
  obtain ⟨hf, rfl⟩ := hadds _ _ hinfra
  have hvalue : attempted = attemptedTotal cs := by
    rw [PyNum.add_eq hattempted, PyNum.add_eq hreviewed, PyNum.add_eq hscored]
    rfl
  have hsum : Adds (attemptedFields.map fun field => PyNum.total (reported cs field)) := by
    refine (attempted_returns hcs).mpr ?_
    change (PyNum.total (reported cs totalField)).add _ = _ at hscored
    rw [hscored, Outcome.ok_bind, hreviewed, Outcome.ok_bind, hattempted, hvalue]
  refine ⟨⟨(tokenRates_returns (itemOutcomes_valid hcs)).mp ⟨rates, hrates⟩, ?_, hsum⟩, rfl, rfl, rfl,
    rfl, rfl, hvalue⟩
  simp only [summedFields, List.forall_mem_cons]
  exact ⟨hp, ht, hi, hm, hf, by simp⟩

theorem localOf_returns (hcs : ∀ c ∈ cs, c.result.Valid schemaVersion) (h : GroupAdds cs) :
    ∃ l, localOf cs = .ok l := by
  have hfield : ∀ field ∈ summedFields, sumMetric cs field =
      .ok (PyNum.total (reported cs field)) :=
    fun field hf => (sumMetric_returns hcs field).mp (h.adds field hf)
  obtain ⟨walls, hwalls⟩ := itemWalls_returns (itemOutcomes_valid hcs)
  obtain ⟨rates, hrates⟩ := (tokenRates_returns (itemOutcomes_valid hcs)).mpr h.rates
  have hsum := (attempted_returns hcs).mp h.attempted
  obtain ⟨scored, hscored, hsum⟩ := Failures.bind_eq_ok.mp hsum
  obtain ⟨reviewed, hreviewed, hattempted⟩ := Failures.bind_eq_ok.mp hsum
  have hpassed := hfield passedField (by simp [summedFields])
  have htotal := hfield totalField (by simp [summedFields])
  have hincomplete := hfield (fun _ => "incomplete") (by simp [summedFields])
  have hmanual := hfield (fun _ => "manual_review") (by simp [summedFields])
  have hinfra := hfield (fun _ => "infrastructure_errors") (by simp [summedFields])
  change sumMetric cs (fun c => (scoreFields c.key.round).1) = _ at hpassed
  change sumMetric cs (fun c => (scoreFields c.key.round).2) = _ at htotal
  unfold localOf
  rw [hpassed, Outcome.ok_bind, htotal, Outcome.ok_bind, hincomplete, Outcome.ok_bind, hmanual,
    Outcome.ok_bind, hinfra, Outcome.ok_bind, hwalls, Outcome.ok_bind, hrates, Outcome.ok_bind, hscored,
    Outcome.ok_bind, hreviewed, Outcome.ok_bind, hattempted]
  exact ⟨_, rfl⟩

theorem attempted_below (hcs : ∀ c ∈ cs, c.result.Valid schemaVersion) :
    (PyNum.total (reported cs totalField)).Below (attemptedTotal cs) :=
  PyNum.below_foldl (PyNum.total_nonneg (reported_nonneg hcs totalField)) (PyNum.total_settled _)
    (totals_nonneg hcs _)

theorem scored_fits (h : GroupAdds cs) (hf : (attemptedTotal cs).isFloat = true) :
    (PyNum.total (reported cs totalField)).fits = true := by
  rw [attemptedTotal, PyNum.foldl_isFloat] at hf
  exact (h.attempted hf).2 _ (by simp [attemptedFields])

theorem Local.passRate_iff (hcs : ∀ c ∈ cs, c.result.Valid schemaVersion) (hl : l.Exact cs)
    (hfinite : PyNum.total (reported cs totalField) ≠ .float (.inf false)) :
    (l.total.positive = true → UnitRate (l.passed.div l.total)) ↔
      ((PyNum.total (reported cs totalField)).positive = true → ∃ p t,
        (PyNum.total (reported cs passedField)).operands (PyNum.total (reported cs totalField)) =
          some (p, t) ∧ p ≤ t * (1 + 1 / 2 ^ 53)) := by
  rw [hl.total, hl.passed]
  exact imp_congr_right fun hpos =>
    PyNum.div_unitRate (PyNum.total_nonneg (reported_nonneg hcs passedField)) hpos hfinite

theorem Local.completionRate_iff (hcs : ∀ c ∈ cs, c.result.Valid schemaVersion) (hl : l.Exact cs)
    (hadds : GroupAdds cs) : (l.attempted.positive = true → UnitRate (l.total.div l.attempted)) ↔
      PyNum.total (reported cs totalField) ≠ .float (.inf false) := by
  have hbelow := attempted_below hcs
  rw [hl.total, hl.attempted]
  constructor
  · intro hrate hinf
    rw [hinf] at hrate hbelow
    refine PyNum.div_infinite (hrate ?_)
    have hfloat := hbelow.float rfl
    have hle := hbelow.rounded
    cases hattempted : attemptedTotal cs with
    | int n =>
      rw [hattempted] at hfloat
      cases hfloat
    | float y =>
      rw [hattempted] at hle
      cases y with
      | finite q => cases hle
      | inf negative => exact hle
      | nan => cases hle
  · intro hfinite hpos
    exact PyNum.div_below (PyNum.total_nonneg (reported_nonneg hcs totalField)) hbelow hpos
      (scored_fits hadds) hfinite

/-- A group is fair when its sums exist and both its rates are rates. -/
theorem groupFair_iff (hcs : ∀ c ∈ cs, c.result.Valid schemaVersion) : GroupFair cs ↔
    ∃ l, localOf cs = .ok l ∧ (l.total.positive = true → UnitRate (l.passed.div l.total)) ∧
      (l.attempted.positive = true → UnitRate (l.total.div l.attempted)) := by
  constructor
  · intro hfair
    have hadds : GroupAdds cs := ⟨hfair.rates, hfair.adds, hfair.attempted⟩
    obtain ⟨l, hl⟩ := localOf_returns hcs hadds
    obtain ⟨-, hexact⟩ := localOf_exact hcs hl
    exact ⟨l, hl, (Local.passRate_iff hcs hexact hfair.finite).mpr hfair.within,
      (Local.completionRate_iff hcs hexact hadds).mpr hfair.finite⟩
  · rintro ⟨l, hl, hpass, hcompletion⟩
    obtain ⟨hadds, hexact⟩ := localOf_exact hcs hl
    have hfinite := (Local.completionRate_iff hcs hexact hadds).mp hcompletion
    exact ⟨hadds.rates, hadds.adds, hadds.attempted, hfinite,
      (Local.passRate_iff hcs hexact hfinite).mp hpass⟩

end Locals

section Register
variable {known : List (ConfigurationId × Identity)} {es : List Entry}

theorem register_returns
    (hknown : ∀ id i, known.lookup id = some i → ∀ e ∈ es, e.configuration = id →
      i.same e.identity = true)
    (hes : ∀ e ∈ es, ∀ e' ∈ es, e.configuration = e'.configuration → e.identity.same e'.identity = true) :
    ∃ configurations, register known es = .ok configurations := by
  induction es generalizing known with
  | nil => exact ⟨known, rfl⟩
  | cons e es ih =>
    have hrest : ∀ d ∈ es, ∀ d' ∈ es, d.configuration = d'.configuration →
        d.identity.same d'.identity = true := fun d hd d' hd' => hes d (by simp [hd]) d' (by simp [hd'])
    rw [register]
    cases hlook : known.lookup e.configuration with
    | none =>
      refine ih (fun id i hi d hd hdid => ?_) hrest
      rw [List.lookup_append] at hi
      cases hold : known.lookup id with
      | some j =>
        rw [hold] at hi
        cases hi
        exact hknown id _ hold d (by simp [hd]) hdid
      | none =>
        rw [hold, Option.none_or, List.lookup_cons] at hi
        split at hi
        · rename_i hsame
          cases hi
          exact hes e (by simp) d (by simp [hd]) (by rw [hdid]; exact (eq_of_beq hsame).symm)
        · cases hi
    | some previous =>
      dsimp only
      rw [if_pos (hknown _ _ hlook e (by simp) rfl)]
      exact ih (fun id i hi d hd => hknown id i hi d (by simp [hd])) hrest

end Register

section Rows
variable {h : Hashing} {u : UnicodeData} {sq : SquareRoot} {subs : List Bundle}

def rowSums : List ((Local → PyNum) × (Cell → String)) :=
  [(Local.passed, passedField), (Local.total, totalField), (Local.incomplete, fun _ => "incomplete"),
    (Local.manualReview, fun _ => "manual_review"),
    (Local.infrastructureErrors, fun _ => "infrastructure_errors")]

theorem Local.Exact.sum {l : Local} {cs : List Cell} (hl : l.Exact cs) :
    ∀ p ∈ rowSums, p.1 l = PyNum.total (reported cs p.2) := by
  simp only [rowSums, List.forall_mem_cons]
  exact ⟨hl.passed, hl.total, hl.incomplete, hl.manualReview, hl.infrastructureErrors, by simp⟩

structure RowReturns (sq : SquareRoot) (locals : List Local) (row : AggregateRow) : Prop where
  sums : ∀ p ∈ rowSums, ∃ s, PyNum.sum (locals.map p.1) = .ok s
  pass : ∃ rates, passRates locals = .ok rates ∧ clusterInterval sq rates = .ok row.passInterval
  completion : ∃ rates, completionRates locals = .ok rates ∧
    clusterInterval sq rates = .ok row.completionInterval

theorem rowOf_returned {configurations : List (ConfigurationId × Identity)}
    {g : Key × List (Key × Local)} {row : AggregateRow} (hrow : rowOf sq configurations g = .ok row) :
    RowReturns sq (g.2.map Prod.snd) row := by
  unfold rowOf at hrow
  obtain ⟨identity, _, hrow⟩ := Failures.bind_eq_ok.mp hrow
  obtain ⟨passed, hpassed, hrow⟩ := Failures.bind_eq_ok.mp hrow
  obtain ⟨total, htotal, hrow⟩ := Failures.bind_eq_ok.mp hrow
  obtain ⟨incomplete, hincomplete, hrow⟩ := Failures.bind_eq_ok.mp hrow
  obtain ⟨manualReview, hmanual, hrow⟩ := Failures.bind_eq_ok.mp hrow
  obtain ⟨infrastructureErrors, hinfra, hrow⟩ := Failures.bind_eq_ok.mp hrow
  obtain ⟨rates, hrates, hrow⟩ := Failures.bind_eq_ok.mp hrow
  obtain ⟨completions, hcompletions, hrow⟩ := Failures.bind_eq_ok.mp hrow
  have hsums : ∀ p ∈ rowSums, ∃ s, PyNum.sum ((g.2.map Prod.snd).map p.1) = .ok s := by
    simp only [rowSums, List.forall_mem_cons]
    exact ⟨⟨_, hpassed⟩, ⟨_, htotal⟩, ⟨_, hincomplete⟩, ⟨_, hmanual⟩, ⟨_, hinfra⟩, by simp⟩
  split at hrow
  · rename_i hp hc
    cases hrow
    exact ⟨hsums, ⟨rates, hrates, hp⟩, ⟨completions, hcompletions, hc⟩⟩
  · cases hrow
  · cases hrow

theorem rates_inUnit {α : Type} {f : α → Outcome PyFloat} {l : List α} {rates : List PyFloat}
    (hunit : ∀ a ∈ l, UnitRate (f a)) (hrates : l.mapM f = .ok rates) : ∀ r ∈ rates, InUnit r := by
  intro r hr
  obtain ⟨a, ha, hfa⟩ := (Outcome.mapM_mem hrates).2 r hr
  obtain ⟨q, hq, h0, h1⟩ := hunit a ha
  rw [hfa] at hq
  exact ⟨q, Except.ok.inj hq, h0, h1⟩

theorem passRates_inUnit {locals : List Local} {rates : List PyFloat}
    (hunit : ∀ l ∈ locals, l.total.positive = true → UnitRate (l.passed.div l.total))
    (hrates : passRates locals = .ok rates) : ∀ r ∈ rates, InUnit r :=
  rates_inUnit (fun l hl => hunit l (List.mem_filter.mp hl).1 (List.mem_filter.mp hl).2) hrates

theorem completionRates_inUnit {locals : List Local} {rates : List PyFloat}
    (hunit : ∀ l ∈ locals, l.attempted.positive = true → UnitRate (l.total.div l.attempted))
    (hrates : completionRates locals = .ok rates) : ∀ r ∈ rates, InUnit r :=
  rates_inUnit (fun l hl => hunit l (List.mem_filter.mp hl).1 (List.mem_filter.mp hl).2) hrates

/-- A row of bundles with sound rates. -/
theorem rowOf_returns {configurations : List (ConfigurationId × Identity)}
    {g : Key × List (Key × Local)}
    (hid : ∃ i, configurations.lookup g.1.configuration = some i)
    (hsums : ∀ p ∈ rowSums, ∃ s, PyNum.sum ((g.2.map Prod.snd).map p.1) = .ok s)
    (hpass : ∀ l ∈ g.2.map Prod.snd, l.total.positive = true → UnitRate (l.passed.div l.total))
    (hcompletion : ∀ l ∈ g.2.map Prod.snd, l.attempted.positive = true →
      UnitRate (l.total.div l.attempted)) : ∃ row, rowOf sq configurations g = .ok row := by
  simp only [rowSums, List.forall_mem_cons] at hsums
  obtain ⟨⟨passed, hpassed⟩, ⟨total, htotal⟩, ⟨incomplete, hincomplete⟩, ⟨manualReview, hmanual⟩,
    ⟨infrastructureErrors, hinfra⟩, -⟩ := hsums
  obtain ⟨identity, hidentity⟩ := hid
  have hrates : ∃ rates, passRates (g.2.map Prod.snd) = .ok rates := by
    refine Outcome.mapM_returns.mpr fun l hl => ?_
    obtain ⟨q, hq, -⟩ := hpass l (List.mem_filter.mp hl).1 (List.mem_filter.mp hl).2
    exact ⟨_, hq⟩
  have hcompletions : ∃ rates, completionRates (g.2.map Prod.snd) = .ok rates := by
    refine Outcome.mapM_returns.mpr fun l hl => ?_
    obtain ⟨q, hq, -⟩ := hcompletion l (List.mem_filter.mp hl).1 (List.mem_filter.mp hl).2
    exact ⟨_, hq⟩
  obtain ⟨rates, hrates⟩ := hrates
  obtain ⟨completions, hcompletions⟩ := hcompletions
  obtain ⟨passInterval, hp, -⟩ := clusterInterval_ordered sq (passRates_inUnit hpass hrates)
  obtain ⟨completionInterval, hc, -⟩ :=
    clusterInterval_ordered sq (completionRates_inUnit hcompletion hcompletions)
  unfold rowOf
  rw [hidentity]
  simp only [ofKey, Outcome.ok_bind, hpassed, htotal, hincomplete, hmanual, hinfra, hrates,
    hcompletions]
  split
  · exact ⟨_, rfl⟩
  · rename_i he
    rw [hp] at he
    cases he
  · rename_i he _
    rw [hc] at he
    cases he

theorem rowSums_fields : rowSums.map Prod.snd = summedFields := rfl

section Valid
variable (hvalid : ∀ b ∈ subs, b.Valid)

theorem locals_sum {groups : List (List Cell)} {locals : List Local}
    (hlocals : List.Forall₂ (fun cs l => l.Exact cs) groups locals) {p : (Local → PyNum) × (Cell → String)}
    (hp : p ∈ rowSums) : locals.map p.1 = groups.map fun cs => PyNum.total (reported cs p.2) := by
  induction hlocals with
  | nil => rfl
  | cons hl _ ih => rw [List.map_cons, List.map_cons, hl.sum p hp, ih]

include hvalid in
theorem groupsAt_valid {k : Key} : ∀ cs ∈ groupsAt h subs k, ∃ schemaVersion, ∀ c ∈ cs,
    c.result.Valid schemaVersion := by
  intro cs hcs
  obtain ⟨b, hb, rfl⟩ := List.mem_map.mp (List.mem_filter.mp hcs).1
  exact ⟨b.schemaVersion, cellsAt_valid (hvalid b hb)⟩

include hvalid in
theorem localsAt_exact (hall : ∀ b ∈ subs, ∃ gs, contribution h b = .ok gs) (k : Key) :
    List.Forall₂ (fun cs l => localOf cs = .ok l ∧ l.Exact cs) (groupsAt h subs k)
      (localsAt h subs k) := by
  have hgroups := localsAt_groups hvalid hall k
  have hcells := groupsAt_valid (h := h) (k := k) hvalid
  refine ((List.forall₂_and_left _ _).mpr ⟨hcells, hgroups⟩).imp ?_
  rintro cs l ⟨⟨schemaVersion, hcs⟩, hl⟩
  exact ⟨hl, (localOf_exact hcs hl).2⟩

include hvalid in
/-- A row adds up when the totals of its bundles do. -/
theorem rowSums_returns (hall : ∀ b ∈ subs, ∃ gs, contribution h b = .ok gs) (k : Key) :
    (∀ p ∈ rowSums, ∃ s, PyNum.sum ((localsAt h subs k).map p.1) = .ok s) ↔
      ∀ field ∈ summedFields, Adds ((groupsAt h subs k).map fun cs => PyNum.total (reported cs field)) := by
  have hexact := (localsAt_exact hvalid hall k).imp fun _ _ hl => hl.2
  rw [← rowSums_fields, List.forall_mem_map]
  refine forall₂_congr fun p hp => ?_
  rw [locals_sum hexact hp]
  refine PyNum.sum_returns fun v hv => ?_
  obtain ⟨cs, hcs, rfl⟩ := List.mem_map.mp hv
  obtain ⟨schemaVersion, hvalidcs⟩ := groupsAt_valid (h := h) (k := k) hvalid cs hcs
  exact PyNum.total_nonneg (reported_nonneg hvalidcs p.2)

end Valid

theorem groupBy_localsAt {groups : List (List (Key × Local))}
    (hgroups : subs.mapM (contribution h) = .ok groups) {g : Key × List (Key × Local)}
    (hg : g ∈ GroupBy.groupBy Prod.fst groups.flatten) :
    g.2.map Prod.snd = localsAt h subs g.1 ∧ localsAt h subs g.1 ≠ [] := by
  obtain ⟨⟨p, hp, hpk⟩, hfilter⟩ := GroupBy.mem_groupBy.mp hg
  have hflat : groups.flatten = subs.flatMap fun b => returned (contribution h b) := by
    rw [mapM_eq_map_returned hgroups, List.flatMap_def]
  have hlocals : g.2.map Prod.snd = localsAt h subs g.1 := by
    rw [localsAt, ← hflat, hfilter]
  refine ⟨hlocals, ?_⟩
  rw [← hlocals, hfilter]
  have hmem : p ∈ groups.flatten.filter fun q => q.1 = g.1 :=
    List.mem_filter.mpr ⟨hp, by simpa using hpk⟩
  exact List.ne_nil_of_mem (List.mem_map.mpr ⟨p, hmem, rfl⟩)

structure Aggregated (h : Hashing) (sq : SquareRoot) (subs : List Bundle) (rows : List AggregateRow) :
    Prop where
  registered : ∃ es configurations, subs.mapM (entries h) = .ok es ∧
    register [] es.flatten = .ok configurations
  contributions : ∀ b ∈ subs, ∃ gs, contribution h b = .ok gs
  row : ∀ row ∈ rows, RowReturns sq (localsAt h subs row.key) row
  keys : ∀ k, localsAt h subs k ≠ [] → ∃ row ∈ rows, row.key = k

theorem aggregateSubmissions_aggregated {rows : List AggregateRow}
    (hrows : aggregateSubmissions h u sq subs = .ok rows) : Aggregated h sq subs rows := by
  obtain ⟨-, -, hkeys⟩ := aggregateSubmissions_rows hrows
  obtain ⟨p, hp, hrows⟩ := Failures.bind_eq_ok.mp hrows
  obtain ⟨es, hes, hp⟩ := Failures.bind_eq_ok.mp hp
  obtain ⟨configurations, hreg, hp⟩ := Failures.bind_eq_ok.mp hp
  obtain ⟨groups, hgroups, hp⟩ := Failures.bind_eq_ok.mp hp
  cases hp
  obtain ⟨made, hmade, hrows⟩ := Failures.bind_eq_ok.mp hrows
  cases hrows
  refine ⟨⟨es, configurations, hes, hreg⟩, Outcome.mapM_returns.mp ⟨groups, hgroups⟩,
    fun row hrow => ?_, fun k hk => ?_⟩
  · obtain ⟨g, hg, hmadeRow⟩ := (Outcome.mapM_mem hmade).2 row
      ((List.perm_insertionSort (rowLe u) made).mem_iff.mp hrow)
    rw [(rowOf_ok hmadeRow).1, ← (groupBy_localsAt hgroups hg).1]
    exact rowOf_returned hmadeRow
  · obtain ⟨row, hrow, hkey⟩ := List.mem_map.mp ((hkeys k).mpr hk)
    exact ⟨row, hrow, hkey⟩

section Sound
variable (hvalid : ∀ b ∈ subs, b.Valid)
include hvalid

theorem fair_of_soundRates (hsound : SoundRates h u sq subs) : Fair h subs := by
  obtain ⟨rows, hrows, -⟩ := hsound.returns
  have hagg := aggregateSubmissions_aggregated hrows
  obtain ⟨es, configurations, hes, hreg⟩ := hagg.registered
  refine ⟨fun b hb b' hb' e he e' he' hid => ?_, fun b hb k => ?_, fun k => ?_⟩
  · have hmem : ∀ d ∈ subs, ∀ a ∈ returned (entries h d), a ∈ es.flatten := by
      intro d hd a ha
      obtain ⟨l, hl, hd⟩ := (Outcome.mapM_mem hes).1 d hd
      rw [hd, returned_ok] at ha
      exact List.mem_flatten.mpr ⟨l, hl, ha⟩
    obtain ⟨i, hi, hsame⟩ := (register_ok hreg).2 e (hmem b hb e he)
    obtain ⟨i', hi', hsame'⟩ := (register_ok hreg).2 e' (hmem b' hb' e' he')
    rw [hid, hi'] at hi
    cases hi
    exact Identity.same_trans (Identity.same_symm hsame) hsame'
  · have hcells := cellsAt_valid (h := h) (k := k) (hvalid b hb)
    rw [groupFair_iff hcells]
    by_cases hnil : cellsAt h b k = []
    · -- No rounds: every sum is zero.
      rw [hnil]
      refine ⟨_, rfl, ?_, ?_⟩
      · intro hpos
        exact absurd hpos (by decide)
      · intro hpos
        exact absurd hpos (by decide)
    · obtain ⟨l, hl⟩ := (contribution_returns (hvalid b hb)).mp (hagg.contributions b hb) k hnil
      have hin : cellsAt h b k ∈ groupsAt h subs k :=
        List.mem_filter.mpr ⟨List.mem_map.mpr ⟨b, hb, rfl⟩, by simpa using hnil⟩
      obtain ⟨l', hl', hlocal⟩ :=
        (forall₂_partner (localsAt_groups hvalid hagg.contributions k)).1 _ hin
      rw [hl] at hlocal
      cases hlocal
      exact ⟨l, hl, hsound.passRates k l hl', hsound.completionRates k l hl'⟩
  · rw [← rowSums_returns hvalid hagg.contributions]
    by_cases hnil : localsAt h subs k = []
    · rw [hnil]
      exact fun p _ => ⟨_, rfl⟩
    · obtain ⟨row, hrow, rfl⟩ := hagg.keys k hnil
      exact (hagg.row row hrow).sums

theorem soundRates_of_fair (hfair : Fair h subs) : SoundRates h u sq subs := by
  have hall : ∀ b ∈ subs, ∃ gs, contribution h b = .ok gs := fun b hb =>
    (contribution_returns (hvalid b hb)).mpr fun k _ => by
      obtain ⟨l, hl, -⟩ := (groupFair_iff (cellsAt_valid (hvalid b hb))).mp (hfair.groups b hb k)
      exact ⟨l, hl⟩
  have hrates : ∀ k, ∀ l ∈ localsAt h subs k,
      (l.total.positive = true → UnitRate (l.passed.div l.total)) ∧
        (l.attempted.positive = true → UnitRate (l.total.div l.attempted)) := by
    intro k l hl
    obtain ⟨cs, hcs, hlocal⟩ :=
      (forall₂_partner (localsAt_groups hvalid hall k)).2 l hl
    obtain ⟨b, hb, rfl⟩ := List.mem_map.mp (List.mem_filter.mp hcs).1
    obtain ⟨l', hl', hpass, hcompletion⟩ :=
      (groupFair_iff (cellsAt_valid (hvalid b hb))).mp (hfair.groups b hb k)
    rw [hlocal] at hl'
    cases hl'
    exact ⟨hpass, hcompletion⟩
  have hentries : ∃ es, subs.mapM (entries h) = .ok es :=
    Outcome.mapM_returns.mpr fun b hb => entries_returns (hvalid b hb)
  obtain ⟨es, hes⟩ := hentries
  have hreg : ∃ configurations, register [] es.flatten = .ok configurations := by
    have hin : ∀ e ∈ es.flatten, ∃ b ∈ subs, e ∈ returned (entries h b) := by
      intro e he
      obtain ⟨l, hl, he⟩ := List.mem_flatten.mp he
      obtain ⟨b, hb, hbl⟩ := (Outcome.mapM_mem hes).2 l hl
      exact ⟨b, hb, by rwa [hbl, returned_ok]⟩
    refine register_returns (fun id i hi => by cases hi) fun e he e' he' hid => ?_
    obtain ⟨b, hb, he⟩ := hin e he
    obtain ⟨b', hb', he'⟩ := hin e' he'
    exact hfair.identities b hb b' hb' e he e' he' hid
  obtain ⟨configurations, hreg⟩ := hreg
  obtain ⟨groups, hgroups⟩ := Outcome.mapM_returns.mpr hall
  have hmade : ∃ made, (GroupBy.groupBy Prod.fst groups.flatten).mapM (rowOf sq configurations) =
      .ok made := by
    refine Outcome.mapM_returns.mpr fun g hg => ?_
    obtain ⟨hlocals, hne⟩ := groupBy_localsAt hgroups hg
    refine rowOf_returns ?_ ?_ ?_ ?_
    · obtain ⟨b, hb, gs, hgs, hk⟩ := localsAt_ne_nil hne
      obtain ⟨es', hes', e, he, hconf, -⟩ := contribution_entry hgs hk
      obtain ⟨l, hl, hbl⟩ := (Outcome.mapM_mem hes).1 b hb
      rw [hes'] at hbl
      cases hbl
      obtain ⟨i, hi, -⟩ := (register_ok hreg).2 e (List.mem_flatten.mpr ⟨es', hl, he⟩)
      exact ⟨i, hconf ▸ hi⟩
    · rw [hlocals]
      exact (rowSums_returns hvalid hall g.1).mpr (hfair.rows g.1)
    · rw [hlocals]
      exact fun l hl => (hrates g.1 l hl).1
    · rw [hlocals]
      exact fun l hl => (hrates g.1 l hl).2
  obtain ⟨made, hmade⟩ := hmade
  have hrows : aggregateSubmissions h u sq subs = .ok (made.insertionSort (rowLe u)) := by
    rw [aggregateSubmissions, submissionGroups, hes, Outcome.ok_bind, hreg, Outcome.ok_bind, hgroups,
      Outcome.ok_bind]
    change (do
      let rows ← (GroupBy.groupBy Prod.fst groups.flatten).mapM (rowOf sq configurations)
      return rows.insertionSort (rowLe u)) = _
    rw [hmade]
    rfl
  have hagg := aggregateSubmissions_aggregated hrows
  refine ⟨⟨_, hrows, fun row hrow => ?_⟩, fun k l hl => (hrates k l hl).1, fun k l hl => (hrates k l hl).2⟩
  obtain ⟨rates, hrates', hp⟩ := (hagg.row row hrow).pass
  obtain ⟨completions, hcompletions, hc⟩ := (hagg.row row hrow).completion
  constructor
  · intro i hi
    obtain ⟨interval, hinterval, hordered⟩ := clusterInterval_ordered sq
      (passRates_inUnit (fun l hl => (hrates _ l hl).1) hrates')
    rw [hp, hi] at hinterval
    cases hinterval
    exact hordered i rfl
  · intro i hi
    obtain ⟨interval, hinterval, hordered⟩ := clusterInterval_ordered sq
      (completionRates_inUnit (fun l hl => (hrates _ l hl).2) hcompletions)
    rw [hc, hi] at hinterval
    cases hinterval
    exact hordered i rfl

end Sound

/-- Accepted bundles aggregate to sound rates exactly when they are fair. -/
theorem aggregateSubmissions_sound (h : Hashing) (u : UnicodeData) (sq : SquareRoot)
    (payloads : List Json) (subs : List Bundle)
    (haccepted : payloads.mapM (validatePublicResult h) = .ok subs) :
    SoundRates h u sq subs ↔ Fair h subs := by
  have hvalid : ∀ b ∈ subs, b.Valid := by
    intro b hb
    obtain ⟨payload, _, hpayload⟩ := (Outcome.mapM_mem haccepted).2 b hb
    exact validatePublicResult_valid hpayload
  exact ⟨fair_of_soundRates hvalid, soundRates_of_fair hvalid⟩

end Rows

section Sample

def object (fields : List (String × Json)) : Json := .obj (fields.map fun e => (e.1.toList, e.2))

def text (s : String) : Json := .str s.toList

def sampleDocument (python : Str) (round : Json) : Json :=
  object [("schema_version", .int 1), ("bundle_id", .str ("sha256:".toList ++ List.replicate 64 '0')),
    ("tool", object [("name", text "llm-hardtest-report"), ("version", text "1.0")]),
    ("benchmark", object [("rounds", .arr [.int 1]), ("packs", object [("1", .str samplePack.1)])]),
    ("environment", object [("os", text "Linux"), ("architecture", text "x86_64"),
      ("python", .str python)]),
    ("models", .arr [object [("public_name", text "model"), ("transport", text "openai_compat"),
      ("rounds", object [("1", round)]), ("parameters", object []), ("public_metadata", object [])]]),
    ("privacy", object [("raw_artifacts_included", .bool false), ("credentials_included", .bool false),
      ("local_paths_included", .bool false), ("submission_mode", text "explicit-opt-in")])]

def samplePayload (passed total : Int) : Json :=
  sampleDocument "3.12".toList (object [("passed", .int passed), ("total", .int total)])

def sampleSums (payloads : List Json) : Option (List (PyNum × PyNum)) :=
  (payloads.mapM (validatePublicResult sampleHashing)).toOption.map fun subs =>
    (localsAt sampleHashing subs sampleKey).map fun l => (l.passed, l.total)

theorem samplePayload_accepted :
    ∃ b, validatePublicResult sampleHashing (samplePayload 1 2) = .ok b :=
  Failures.isOk_iff.mp (by decide +kernel)

/-- A fair payload. -/
theorem samplePayload_sound : ∃ subs,
    [samplePayload 1 2].mapM (validatePublicResult sampleHashing) = .ok subs ∧
      (SoundRates sampleHashing asciiData fractionSquareRoot subs ↔ Fair sampleHashing subs) := by
  obtain ⟨b, hb⟩ := samplePayload_accepted
  have hsubs : [samplePayload 1 2].mapM (validatePublicResult sampleHashing) = .ok [b] := by
    rw [List.mapM_cons, hb]
    rfl
  exact ⟨[b], hsubs, aggregateSubmissions_sound sampleHashing asciiData fractionSquareRoot
    [samplePayload 1 2] [b] hsubs⟩

/-- Three passes of two attempts are accepted. -/
theorem samplePayload_unsound : ∃ subs,
    [samplePayload 3 2].mapM (validatePublicResult sampleHashing) = .ok subs ∧
      ¬ SoundRates sampleHashing asciiData fractionSquareRoot subs := by
  have hsums : sampleSums [samplePayload 3 2] = some [(.int 3, .int 2)] := by decide +kernel
  obtain ⟨subs, hsubs, hlocals⟩ := Option.map_eq_some_iff.mp hsums
  refine ⟨subs, Failures.toOption_eq_some.mp hsubs, fun hsound => ?_⟩
  simp only [List.map_eq_singleton_iff, Prod.mk.injEq] at hlocals
  obtain ⟨l, hl, hpassed, htotal⟩ := hlocals
  obtain ⟨q, hq, -, h1⟩ := hsound.passRates sampleKey l (by rw [hl]; simp) (by rw [htotal]; rfl)
  rw [hpassed, htotal, PyNum.div] at hq
  split at hq
  · cases hq
  · cases hq
    rw [Binary64.nearest_le_one_iff] at h1
    norm_num at h1

end Sample

end Community
