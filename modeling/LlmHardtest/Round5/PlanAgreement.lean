import LlmHardtest.Round5.EvidencePlan
set_option autoImplicit false

/-! The collection plan, the coverage gates and the pairwise gates agree: they come from three
traversals of the same attempts. -/

namespace Round5
open Python

/-- What makes a configuration ready, said of the attempts: one pack for each pilot, the only one in
use, with clean attempts and enough complete ones. -/
structure ReadyRows (attempts rows : List PilotAttempt) : Prop where
  onePack : ∀ p, ∃ pack, packsOf rows p = [pack]
  samePack : ∀ a ∈ attempts, ∀ b ∈ rows, a.pilotId = b.pilotId → a.pack = b.pack
  complete : ∀ a ∈ rows, a.metrics.complete = true
  authority : ∀ a ∈ rows, a.metrics.noEditBeforeApproval = true
  repeats : ∀ p, minCompleteRepeats ≤ rows.countP fun a => a.pilotId = p ∧ a.metrics.complete = true

theorem ScenarioRow.state_ready {row : ScenarioRow} : row.state.status = .ready ↔
    row.summary.incomplete = 0 ∧ row.summary.authorityViolations = 0 ∧
      minCompleteRepeats ≤ row.summary.complete := by
  unfold ScenarioRow.state
  split_ifs with hinvalid hfew
  · simp only [false_iff]
    omega
  · simp only [false_iff]
    omega
  · simp only [true_iff]
    omega

section Local
variable {rows : List PilotAttempt} {aliasName : Str} {c : Configuration} {p : PilotId}

theorem Configuration.Shows.rowsOf_packs (h : c.Shows rows aliasName) (p : PilotId) :
    (c.rowsOf p).map (·.pack) = packsOf rows p := by
  have hkeys := congrArg (fun keys => (keys.filter fun key => key.1 = p).map Prod.snd) h.keys
  simp only [scenarioKeys_at, List.filter_map, List.map_map] at hkeys
  simpa [Configuration.rowsOf, Function.comp_def] using hkeys

theorem Configuration.Shows.mem_ambiguous (h : c.Shows rows aliasName) :
    p ∈ c.packAmbiguousPilots ↔ 1 < (packsOf rows p).length := by
  simp [h.ambiguous]

theorem Configuration.Shows.mem_packs (h : c.Shows rows aliasName) {pack : Str} :
    pack ∈ (c.localState p).packs ↔ pack ∈ packsOf rows p := by
  have hpacks := h.rowsOf_packs p
  unfold Configuration.localState
  by_cases hamb : p ∈ c.packAmbiguousPilots
  · rw [if_pos hamb, hpacks]
    exact List.mem_insertionSort _
  · rw [if_neg hamb]
    rw [h.mem_ambiguous] at hamb
    rw [← hpacks] at hamb ⊢
    cases hrows : c.rowsOf p with
    | nil => simp
    | cons row rest =>
      rw [hrows, List.map_cons, List.length_cons, List.length_map] at hamb
      have hrest : rest = [] := List.length_eq_zero_iff.mp (by omega)
      subst hrest
      simp only [ScenarioRow.state]
      split_ifs <;> simp

/-- A pilot with one pack has one scenario row, and it counts all attempts at the pilot. -/
theorem Configuration.Shows.single (h : c.Shows rows aliasName) {pack : Str}
    (hpack : packsOf rows p = [pack]) : ∃ row, c.rowsOf p = [row] ∧ row.pack = pack ∧
      row.summary.complete = rows.countP (fun a => a.pilotId = p ∧ a.metrics.complete = true) ∧
      (row.summary.incomplete = 0 ↔ ∀ a ∈ rows, a.pilotId = p → a.metrics.complete = true) ∧
      (row.summary.authorityViolations = 0 ↔
        ∀ a ∈ rows, a.pilotId = p → a.metrics.noEditBeforeApproval = true) := by
  have hpacks := h.rowsOf_packs p
  rw [hpack] at hpacks
  obtain ⟨row, hrow, hrowpack⟩ := List.map_eq_singleton_iff.mp hpacks
  have hmem : row ∈ c.scenarioResults ∧ row.pilotId = p := by
    have hin : row ∈ c.rowsOf p := by simp [hrow]
    simpa [Configuration.rowsOf] using hin
  have hfilter : (rows.filter fun a => a.pilotId = row.pilotId ∧ a.pack = row.pack) =
      rows.filter fun a => a.pilotId = p := by
    refine List.filter_congr fun a ha => ?_
    rw [hmem.2, hrowpack]
    by_cases hp : a.pilotId = p
    · have hin : a.pack ∈ packsOf rows p := mem_packsOf.mpr ⟨a, ha, hp, rfl⟩
      rw [hpack, List.mem_singleton] at hin
      simp [hp, hin]
    · simp [hp]
  have hshows := (h.scenarios row hmem.1).summary
  rw [hfilter] at hshows
  obtain ⟨hcomplete, hincomplete, hauthority⟩ := configurationRow_counts hshows
  refine ⟨row, hrow, hrowpack, ?_, ?_, ?_⟩
  · rw [hcomplete, List.countP_map, List.countP_filter]
    refine List.countP_congr fun a _ => ?_
    simp [and_comm]
  · rw [hincomplete, List.countP_map, List.countP_eq_zero]
    simp
  · rw [hauthority, List.countP_map, List.countP_eq_zero]
    simp

theorem Configuration.Shows.localState_ready (h : c.Shows rows aliasName) :
    (c.localState p).status = .ready ↔ (∃ pack, packsOf rows p = [pack]) ∧
      (∀ a ∈ rows, a.pilotId = p → a.metrics.complete = true) ∧
      (∀ a ∈ rows, a.pilotId = p → a.metrics.noEditBeforeApproval = true) ∧
      minCompleteRepeats ≤ rows.countP fun a => a.pilotId = p ∧ a.metrics.complete = true := by
  have hpacks := h.rowsOf_packs p
  unfold Configuration.localState
  by_cases hamb : p ∈ c.packAmbiguousPilots
  · rw [if_pos hamb]
    rw [h.mem_ambiguous] at hamb
    simp only [reduceCtorEq, false_iff, not_and]
    intro hone
    obtain ⟨pack, hpack⟩ := hone
    simp [hpack] at hamb
  · rw [if_neg hamb]
    rw [h.mem_ambiguous] at hamb
    cases hrows : c.rowsOf p with
    | nil =>
      rw [hrows, List.map_nil] at hpacks
      simp [← hpacks]
    | cons row rest =>
      have hone : ∃ pack, packsOf rows p = [pack] := by
        rw [hrows, List.map_cons] at hpacks
        rw [← hpacks, List.length_cons] at hamb
        refine ⟨row.pack, ?_⟩
        rw [← hpacks, List.length_eq_zero_iff.mp (by omega : (rest.map (·.pack)).length = 0)]
      obtain ⟨pack, hpack⟩ := hone
      obtain ⟨row', hrow', -, hcomplete, hincomplete, hauthority⟩ := h.single hpack
      rw [hrows] at hrow'
      injection hrow' with hrow' _
      subst hrow'
      rw [← hcomplete, ← hincomplete, ← hauthority]
      simp only [ScenarioRow.state_ready]
      exact ⟨fun hready => ⟨⟨pack, hpack⟩, hready⟩, fun hready => hready.2⟩

theorem Configuration.Shows.gates_all (h : c.Shows rows aliasName) :
    c.coverageGates.all = true ↔ (∀ p, ∃ pack, packsOf rows p = [pack]) ∧
      (∀ a ∈ rows, a.metrics.complete = true) ∧
      (∀ a ∈ rows, a.metrics.noEditBeforeApproval = true) ∧
      ∀ p, minCompleteRepeats ≤ rows.countP fun a => a.pilotId = p ∧ a.metrics.complete = true := by
  have hone : ((Round5.missingPilots (rows.map (·.pilotId))).isEmpty = true ∧
      ∀ p ∈ pilotIds, (packsOf rows p).length ≤ 1) ↔ ∀ p, ∃ pack, packsOf rows p = [pack] := by
    rw [List.isEmpty_iff, List.eq_nil_iff_forall_not_mem]
    simp only [mem_missingPilots, not_not, mem_pilotIds, true_implies]
    constructor
    · intro hall p
      obtain ⟨a, ha, hap⟩ := List.mem_map.mp (hall.1 p)
      have hpos := List.length_pos_of_mem (mem_packsOf.mpr ⟨a, ha, hap, rfl⟩)
      have hle := hall.2 p
      exact List.length_eq_one_iff.mp (by omega)
    · intro hall
      constructor
      · intro p
        obtain ⟨pack, hpack⟩ := hall p
        have hmem : pack ∈ packsOf rows p := by simp [hpack]
        obtain ⟨a, ha, hap, -⟩ := mem_packsOf.mp hmem
        exact List.mem_map.mpr ⟨a, ha, hap⟩
      · intro p
        obtain ⟨pack, hpack⟩ := hall p
        simp [hpack]
  have htwo : (∀ p, ∃ pack, packsOf rows p = [pack]) →
      ∀ p, completeByPilot c.scenarioResults p =
        rows.countP fun a => a.pilotId = p ∧ a.metrics.complete = true := by
    intro hall p
    obtain ⟨pack, hpack⟩ := hall p
    obtain ⟨row, hrow, -, hcomplete, -⟩ := h.single hpack
    rw [completeByPilot, ← Configuration.rowsOf, hrow]
    simpa using hcomplete
  rw [h.gates]
  simp only [CoverageGates.all, Round5.coverageGates, Bool.and_eq_true, List.all_eq_true, decide_eq_true_eq]
  constructor
  · intro hgates
    obtain ⟨⟨⟨⟨hobserved, hpack⟩, -, hrepeats⟩, hcomplete⟩, hauthority⟩ := hgates
    have hall := hone.mp ⟨hobserved, hpack⟩
    refine ⟨hall, hcomplete, hauthority, ?_⟩
    intro p
    rw [← htwo hall p]
    exact hrepeats p (mem_pilotIds p)
  · intro hready
    obtain ⟨hall, hcomplete, hauthority, hrepeats⟩ := hready
    obtain ⟨hobserved, hpack⟩ := hone.mpr hall
    refine ⟨⟨⟨⟨hobserved, hpack⟩, hobserved, ?_⟩, hcomplete⟩, hauthority⟩
    intro p _
    rw [htwo hall p]
    exact hrepeats p

end Local

section Portfolio
variable {labels : Bool} {attempts : List PilotAttempt} {configurations : List Configuration}

def Shown (attempts : List PilotAttempt) (configurations : List Configuration) : Prop :=
  List.Forall₂ (fun identity c => Configuration.Shows (ofIdentity attempts identity)
    (aliasOf attempts identity) c) (identities attempts) configurations

theorem portfolioConfigurations_shown
    (h : portfolioConfigurations labels attempts = .ok configurations) :
    Shown attempts configurations := by
  refine (mapM_forall₂ h).imp fun identity c hc => ?_
  exact configuration_spec hc

theorem mem_globalPacks (h : Shown attempts configurations) {p : PilotId} {pack : Str} :
    pack ∈ globalPacks configurations p ↔ ∃ a ∈ attempts, a.pilotId = p ∧ a.pack = pack := by
  obtain ⟨hleft, hright⟩ := forall₂_partner h
  rw [globalPacks, List.mem_dedup, List.mem_flatMap]
  constructor
  · intro hmem
    obtain ⟨c, hc, hpack⟩ := hmem
    obtain ⟨identity, -, hshows⟩ := hright c hc
    obtain ⟨a, ha, hap, hapack⟩ := mem_packsOf.mp (hshows.mem_packs.mp hpack)
    exact ⟨a, (List.mem_filter.mp ha).1, hap, hapack⟩
  · intro hex
    obtain ⟨a, ha, hap, hapack⟩ := hex
    obtain ⟨c, hc, hshows⟩ := hleft a.identity (mem_identities.mpr ⟨a, ha, rfl⟩)
    refine ⟨c, hc, hshows.mem_packs.mpr (mem_packsOf.mpr ⟨a, ?_, hap, hapack⟩)⟩
    simp [ofIdentity, ha]

theorem globalPacks_nodup (p : PilotId) : (globalPacks configurations p).Nodup :=
  List.nodup_dedup _

theorem globalPacks_length_le (h : Shown attempts configurations) {p : PilotId} :
    (globalPacks configurations p).length ≤ 1 ↔
      ∀ a ∈ attempts, ∀ b ∈ attempts, a.pilotId = p → b.pilotId = p → a.pack = b.pack := by
  constructor
  · intro hle a ha b hb hap hbp
    have hma := (mem_globalPacks h).mpr ⟨a, ha, hap, rfl⟩
    have hmb := (mem_globalPacks h).mpr ⟨b, hb, hbp, rfl⟩
    have hpos := List.length_pos_of_mem hma
    obtain ⟨pack, hpack⟩ := List.length_eq_one_iff.mp (by omega : (globalPacks configurations p).length = 1)
    rw [hpack, List.mem_singleton] at hma hmb
    rw [hma, hmb]
  · intro hsame
    by_contra hgt
    obtain ⟨x, y, rest, hlist⟩ : ∃ x y rest, globalPacks configurations p = x :: y :: rest := by
      cases hg : globalPacks configurations p with
      | nil => simp [hg] at hgt
      | cons x tail =>
        cases tail with
        | nil => simp [hg] at hgt
        | cons y rest => exact ⟨x, y, rest, rfl⟩
    have hnodup : (globalPacks configurations p).Nodup := globalPacks_nodup p
    have hx : x ∈ globalPacks configurations p := by simp [hlist]
    have hy : y ∈ globalPacks configurations p := by simp [hlist]
    obtain ⟨a, ha, hap, hax⟩ := (mem_globalPacks h).mp hx
    obtain ⟨b, hb, hbp, hby⟩ := (mem_globalPacks h).mp hy
    rw [hlist, List.nodup_cons] at hnodup
    refine hnodup.1 ?_
    rw [← hax, hsame a ha b hb hap hbp, hby]
    exact List.mem_cons_self

theorem configurationPlan_ready {c : Configuration} :
    (configurationPlan configurations c).status = .ready ↔
      ∀ p, (pilotState configurations c p).status = .ready := by
  have hactions : (plannedActions configurations c).isEmpty = true ↔
      ∀ p, (pilotState configurations c p).status = .ready := by
    rw [List.isEmpty_iff, plannedActions, ← List.length_eq_zero_iff, List.length_insertionSort,
      List.length_map, List.length_eq_zero_iff, List.filter_eq_nil_iff]
    simp
  rw [← hactions]
  simp only [configurationPlan]
  by_cases hempty : (plannedActions configurations c).isEmpty = true
  · simp [hempty]
  · rw [if_neg hempty]
    simp only [hempty]
    split <;> simp

theorem pilotState_ready {c : Configuration} {p : PilotId} (hne : (c.localState p).packs ≠ []) :
    (pilotState configurations c p).status = .ready ↔
      (c.localState p).status = .ready ∧ (globalPacks configurations p).length ≤ 1 := by
  unfold pilotState
  by_cases hmany : 1 < (globalPacks configurations p).length
  · simp [hmany, hne]
  · simp [hmany, Nat.le_of_not_lt hmany]

/-- A plan is ready exactly for ready attempts. -/
theorem configurationPlan_readyRows (h : Shown attempts configurations) {identity aliasName : Str}
    {c : Configuration} (hc : c.Shows (ofIdentity attempts identity) aliasName) :
    (configurationPlan configurations c).status = .ready ↔
      ReadyRows attempts (ofIdentity attempts identity) := by
  have hsub : ∀ a ∈ ofIdentity attempts identity, a ∈ attempts := by
    intro a ha
    exact (List.mem_filter.mp ha).1
  rw [configurationPlan_ready]
  constructor
  · intro hall
    have hlocal : ∀ p, (c.localState p).status = .ready ∧
        (globalPacks configurations p).length ≤ 1 := by
      intro p
      have hp := hall p
      by_cases hne : (c.localState p).packs = []
      · have hsame : pilotState configurations c p = c.localState p := by
          simp [pilotState, hne]
        rw [hsame, hc.localState_ready] at hp
        obtain ⟨⟨pack, hpack⟩, -⟩ := hp
        have hmem : pack ∈ (c.localState p).packs := hc.mem_packs.mpr (by simp [hpack])
        rw [hne] at hmem
        cases hmem
      · exact (pilotState_ready hne).mp hp
    have hstate := fun p => hc.localState_ready.mp (hlocal p).1
    refine ⟨fun p => (hstate p).1, ?_, fun a ha => (hstate a.pilotId).2.1 a ha rfl,
      fun a ha => (hstate a.pilotId).2.2.1 a ha rfl, fun p => (hstate p).2.2.2⟩
    intro a ha b hb hab
    exact (globalPacks_length_le h).mp (hlocal b.pilotId).2 a ha b (hsub b hb) hab rfl
  · intro hready p
    obtain ⟨pack, hpack⟩ := hready.onePack p
    have hmem : pack ∈ (c.localState p).packs := hc.mem_packs.mpr (by simp [hpack])
    obtain ⟨b, hb, hbp, -⟩ := mem_packsOf.mp (hc.mem_packs.mp hmem)
    refine (pilotState_ready (List.ne_nil_of_mem hmem)).mpr ⟨hc.localState_ready.mpr ⟨⟨pack, hpack⟩,
      fun a ha _ => hready.complete a ha, fun a ha _ => hready.authority a ha, hready.repeats p⟩, ?_⟩
    rw [globalPacks_length_le h]
    intro a ha a' ha' hap hap'
    rw [hready.samePack a ha b hb (hap.trans hbp.symm),
      hready.samePack a' ha' b hb (hap'.trans hbp.symm)]

/-- No pilot was observed with different packs by different configurations. -/
def NoPackConflict (attempts : List PilotAttempt) : Prop :=
  ∀ a ∈ attempts, ∀ b ∈ attempts, a.pilotId = b.pilotId → a.identity ≠ b.identity → a.pack = b.pack

theorem readyRows_iff {identity aliasName : Str} {c : Configuration}
    (hc : c.Shows (ofIdentity attempts identity) aliasName) :
    ReadyRows attempts (ofIdentity attempts identity) ↔
      c.coverageGates.all = true ∧ NoPackConflict attempts := by
  rw [hc.gates_all]
  have hmem : ∀ a, a ∈ ofIdentity attempts identity ↔ a ∈ attempts ∧ a.identity = identity := by
    simp [ofIdentity]
  constructor
  · intro h
    refine ⟨⟨h.onePack, h.complete, h.authority, h.repeats⟩, ?_⟩
    intro a ha b hb hab _
    obtain ⟨pack, hpack⟩ := h.onePack a.pilotId
    have hin : pack ∈ packsOf (ofIdentity attempts identity) a.pilotId := by simp [hpack]
    obtain ⟨o, ho, hop, -⟩ := mem_packsOf.mp hin
    rw [h.samePack a ha o ho hop.symm, h.samePack b hb o ho (hab.symm.trans hop.symm)]
  · intro h
    obtain ⟨⟨hone, hcomplete, hauthority, hrepeats⟩, hconflict⟩ := h
    refine ⟨hone, ?_, hcomplete, hauthority, hrepeats⟩
    intro a ha b hb hab
    obtain ⟨hb', hbi⟩ := (hmem b).mp hb
    by_cases hai : a.identity = identity
    · obtain ⟨pack, hpack⟩ := hone b.pilotId
      have hapack : a.pack ∈ packsOf (ofIdentity attempts identity) b.pilotId :=
        mem_packsOf.mpr ⟨a, (hmem a).mpr ⟨ha, hai⟩, hab, rfl⟩
      have hbpack : b.pack ∈ packsOf (ofIdentity attempts identity) b.pilotId :=
        mem_packsOf.mpr ⟨b, hb, rfl, rfl⟩
      rw [hpack, List.mem_singleton] at hapack hbpack
      rw [hapack, hbpack]
    · exact hconflict a ha b hb' hab fun he => hai (he.trans hbi)

/-! Two ready configurations. -/

theorem ReadyRows.commonPacks {s : Sides} (hl : ReadyRows attempts s.left)
    (hr : ReadyRows attempts s.right) (hsub : ∀ a ∈ s.left, a ∈ attempts) : s.Aligned := by
  intro p
  obtain ⟨pack, hpack⟩ := hl.onePack p
  obtain ⟨pack', hpack'⟩ := hr.onePack p
  have hin : pack ∈ packsOf s.left p := by simp [hpack]
  have hin' : pack' ∈ packsOf s.right p := by simp [hpack']
  obtain ⟨a, ha, hap, hapack⟩ := mem_packsOf.mp hin
  obtain ⟨b, hb, hbp, hbpack⟩ := mem_packsOf.mp hin'
  have hsame : pack = pack' := by
    rw [← hapack, ← hbpack]
    exact hr.samePack a (hsub a ha) b hb (hap.trans hbp.symm)
  refine ⟨pack, ?_⟩
  simp [Sides.commonPacks, hpack, hpack', hsame]

theorem ReadyRows.ambiguous {s : Sides} (hl : ReadyRows attempts s.left)
    (hr : ReadyRows attempts s.right) : s.ambiguous = [] := by
  rw [Sides.ambiguous, List.filter_eq_nil_iff]
  intro p _
  obtain ⟨pack, hpack⟩ := hl.onePack p
  obtain ⟨pack', hpack'⟩ := hr.onePack p
  simp [hpack, hpack']

theorem ReadyRows.countP_rows {rows : List PilotAttempt} (h : ReadyRows attempts rows)
    {key : PilotId × Str} (hkey : ∃ a ∈ rows, a.pilotId = key.1 ∧ a.pack = key.2) :
    ((rows.filter fun a => a.pilotId = key.1 ∧ a.pack = key.2).map (·.metrics)).countP (·.complete) =
      rows.countP fun a => a.pilotId = key.1 ∧ a.metrics.complete = true := by
  obtain ⟨pack, hpack⟩ := h.onePack key.1
  have hin := mem_packsOf.mpr hkey
  rw [hpack, List.mem_singleton] at hin
  rw [List.countP_map, List.countP_filter]
  refine List.countP_congr fun a ha => ?_
  have hall : a.pilotId = key.1 → a.pack = key.2 := by
    intro hap
    have hmem := mem_packsOf.mpr ⟨a, ha, hap, rfl⟩
    rw [hpack, List.mem_singleton] at hmem
    rw [hmem, hin]
  simp only [Function.comp_apply, Bool.and_eq_true, decide_eq_true_eq]
  tauto

theorem ReadyRows.gates {s : Sides} (hl : ReadyRows attempts s.left)
    (hr : ReadyRows attempts s.right) (hsub : ∀ a ∈ s.left, a ∈ attempts) :
    s.gates = ⟨true, true, true, true, true, s.gates.allSharedAxesObserved⟩ := by
  have haligned := hl.commonPacks hr hsub
  have hattempts : ∀ key, ∀ m ∈ s.scenarioAttempts key,
      m.complete = true ∧ m.noEditBeforeApproval = true := by
    intro key m hm
    rcases List.mem_append.mp hm with hm | hm
    · obtain ⟨a, ha, rfl⟩ := List.mem_map.mp hm
      have ha := (List.mem_filter.mp ha).1
      exact ⟨hl.complete a ha, hl.authority a ha⟩
    · obtain ⟨a, ha, rfl⟩ := List.mem_map.mp hm
      have ha := (List.mem_filter.mp ha).1
      exact ⟨hr.complete a ha, hr.authority a ha⟩
  have hdeficits : s.deficits = [] := by
    rw [Sides.deficits_eq_nil]
    intro key hkey
    obtain ⟨hleft, hright⟩ := Sides.mem_sharedKeys.mp hkey
    rw [SharedVersion.deficit_eq_none]
    have hlc := hl.countP_rows hleft
    have hrc := hr.countP_rows hright
    constructor
    · rw [show (sharedVersion key.1 key.2 (s.leftRows key) (s.rightRows key)).leftComplete = _
        from hlc]
      exact hl.repeats key.1
    · rw [show (sharedVersion key.1 key.2 (s.leftRows key) (s.rightRows key)).rightComplete = _
        from hrc]
      exact hr.repeats key.1
  have htransport : (s.sharedKeys.any fun key =>
      (s.scenarioAttempts key).any fun m => !m.complete) = false := by
    rw [List.any_eq_false]
    intro key _
    rw [Bool.not_eq_true, List.any_eq_false]
    intro m hm
    simp [(hattempts key m hm).1]
  have hauthority : (s.sharedKeys.any fun key =>
      (s.scenarioAttempts key).any fun m => !m.noEditBeforeApproval) = false := by
    rw [List.any_eq_false]
    intro key _
    rw [Bool.not_eq_true, List.any_eq_false]
    intro m hm
    simp [(hattempts key m hm).2]
  have hcount : pilotIds.length = 11 := rfl
  simp only [Sides.gates, haligned.versions_length, hcount, haligned.sharedPilots, hl.ambiguous hr,
    hdeficits, htransport, hauthority, minSharedScenarios]
  simp

/-! The sums of the plan. -/

@[simp] theorem totalAttempts_eq_some {values : List Nat} :
    totalAttempts (values.map some) = some values.sum := by
  have hnone : (values.map some).any Option.isNone = false := by
    rw [List.any_eq_false]
    intro v hv
    obtain ⟨n, -, rfl⟩ := List.mem_map.mp hv
    simp
  simp [totalAttempts, hnone, List.filterMap_map]

theorem totalAttempts_perm {values values' : List (Option Nat)} (h : values.Perm values') :
    totalAttempts values = totalAttempts values' := by
  have hany : values.any Option.isNone = values'.any Option.isNone := by
    rw [Bool.eq_iff_iff, List.any_eq_true, List.any_eq_true]
    exact exists_congr fun v => and_congr h.mem_iff Iff.rfl
  rw [totalAttempts, totalAttempts, hany, (h.filterMap id).sum_eq]

theorem sum_comm {α β : Type} (l : List α) (m : List β) (f : α → β → Nat) :
    (l.map fun a => (m.map (f a)).sum).sum = (m.map fun b => (l.map fun a => f a b).sum).sum := by
  induction l with
  | nil => simp
  | cons a l ih =>
    simp only [List.map_cons, List.sum_cons, ih]
    rw [← List.sum_map_add]

theorem sum_filter_zero {α : Type} {l : List α} {f : α → Nat} {keep : α → Bool}
    (h : ∀ a ∈ l, keep a = false → f a = 0) : ((l.filter keep).map f).sum = (l.map f).sum := by
  induction l with
  | nil => rfl
  | cons a l ih =>
    have hrest := ih fun b hb => h b (by simp [hb])
    cases hk : keep a with
    | true => rw [List.filter_cons_of_pos hk, List.map_cons, List.sum_cons, hrest, List.map_cons,
        List.sum_cons]
    | false =>
      rw [List.filter_cons_of_neg (by simp [hk]), hrest, List.map_cons, List.sum_cons,
        h a (by simp) hk, Nat.zero_add]

/-- The attempts that a state asks for are known unless it asks for alignment. -/
structure PilotState.Counts (state : PilotState) : Prop where
  known : state.status.needsAlignment = false →
    state.additionalCompleteAttempts = some (state.additionalCompleteAttempts.getD 0)
  ready : state.status = .ready → state.additionalCompleteAttempts = some 0

theorem pilotState_counts (configurations : List Configuration) (c : Configuration) (p : PilotId) :
    (pilotState configurations c p).Counts := by
  have hlocal : (c.localState p).Counts := by
    unfold Configuration.localState
    split
    · exact ⟨fun h => (nomatch h), fun h => (nomatch h)⟩
    · split
      · exact ⟨fun _ => rfl, fun h => (nomatch h)⟩
      · unfold ScenarioRow.state
        split_ifs
        · exact ⟨fun _ => rfl, fun h => (nomatch h)⟩
        · exact ⟨fun _ => rfl, fun h => (nomatch h)⟩
        · exact ⟨fun _ => rfl, fun _ => rfl⟩
  unfold pilotState
  simp only
  split_ifs
  · exact ⟨fun h => (nomatch h), fun h => (nomatch h)⟩
  · exact hlocal

def needed (configurations : List Configuration) (c : Configuration) (p : PilotId) : Nat :=
  (pilotState configurations c p).additionalCompleteAttempts.getD 0

theorem needsAlignment_of_plan {c : Configuration}
    (h : (configurationPlan configurations c).manualAlignmentRequired = false) (p : PilotId) :
    (pilotState configurations c p).status.needsAlignment = false := by
  by_contra hneeds
  rw [Bool.not_eq_false] at hneeds
  have hnot : (pilotState configurations c p).status ≠ .ready := by
    intro hready
    rw [hready] at hneeds
    cases hneeds
  have haction : (pilotState configurations c p).status.action = .alignScenarioVersion := by
    revert hneeds
    cases (pilotState configurations c p).status <;> simp [PilotStatus.needsAlignment,
      PilotStatus.action]
  simp only [configurationPlan, List.any_eq_false, decide_eq_true_eq] at h
  refine h ⟨priorityRank configurations p, p,
    (pilotState configurations c p).additionalCompleteAttempts, (pilotState configurations c p).packs,
    (pilotState configurations c p).status.action⟩ ?_ haction
  rw [plannedActions, List.mem_insertionSort]
  exact List.mem_map.mpr ⟨p, List.mem_filter.mpr ⟨mem_pilotIds p, by simpa using hnot⟩, rfl⟩

theorem configurationPlan_total {c : Configuration}
    (h : (configurationPlan configurations c).manualAlignmentRequired = false) :
    (configurationPlan configurations c).additionalCompleteAttempts =
      some (pilotIds.map (needed configurations c)).sum := by
  have hstates : ((pilotIds.filter fun p => (pilotState configurations c p).status ≠ .ready).map
      fun p => (pilotState configurations c p).additionalCompleteAttempts) =
      ((pilotIds.filter fun p => (pilotState configurations c p).status ≠ .ready).map
        (needed configurations c)).map some := by
    rw [List.map_map]
    refine List.map_congr_left fun p _ => ?_
    exact (pilotState_counts configurations c p).known (needsAlignment_of_plan h p)
  have hperm : ((plannedActions configurations c).map (·.additionalCompleteAttempts)).Perm
      ((pilotIds.filter fun p => (pilotState configurations c p).status ≠ .ready).map
        fun p => (pilotState configurations c p).additionalCompleteAttempts) := by
    rw [plannedActions]
    refine ((List.perm_insertionSort _ _).map _).trans ?_
    rw [List.map_map]
    rfl
  rw [configurationPlan]
  simp only
  rw [totalAttempts_perm hperm, hstates, totalAttempts_eq_some, sum_filter_zero]
  intro p _ hready
  have hready : (pilotState configurations c p).status = .ready := by simpa using hready
  rw [needed, (pilotState_counts configurations c p).ready hready]
  rfl

theorem scenarioPriorities_total
    (h : ∀ c ∈ configurations, (configurationPlan configurations c).manualAlignmentRequired = false) :
    totalAttempts ((scenarioPriorities configurations).map (·.additionalCompleteAttempts)) =
      some (pilotIds.map fun p => (configurations.map fun c => needed configurations c p).sum).sum := by
  have hperm : ((scenarioPriorities configurations).map (·.additionalCompleteAttempts)).Perm
      (pilotIds.map fun p => (scenarioPriority configurations p).additionalCompleteAttempts) := by
    rw [scenarioPriorities]
    refine ((List.perm_insertionSort _ _).map _).trans ?_
    rw [List.map_map]
    rfl
  have hone : ∀ p ∈ pilotIds, (scenarioPriority configurations p).additionalCompleteAttempts =
      some (configurations.map fun c => needed configurations c p).sum := by
    intro p _
    have hstates : ((configurations.map fun c =>
        (c.configuration, pilotState configurations c p)).map fun s =>
          s.2.additionalCompleteAttempts) =
        (configurations.map fun c => needed configurations c p).map some := by
      rw [List.map_map, List.map_map]
      refine List.map_congr_left fun c hc => ?_
      exact (pilotState_counts configurations c p).known (needsAlignment_of_plan (h c hc) p)
    rw [scenarioPriority]
    simp only
    rw [hstates, totalAttempts_eq_some]
  rw [totalAttempts_perm hperm, List.map_congr_left hone]
  have hsome : (pilotIds.map fun p =>
      some (configurations.map fun c => needed configurations c p).sum) =
      (pilotIds.map fun p => (configurations.map fun c => needed configurations c p).sum).map some := by
    rw [List.map_map]
    rfl
  rw [hsome, totalAttempts_eq_some]

end Portfolio

def Portfolio.PlannedReady (p : Portfolio) (aliasName : Str) : Prop :=
  ∃ plan ∈ p.evidenceCollectionPlan.configurations,
    plan.configuration = aliasName ∧ plan.status = .ready

theorem plannedReady_rows {attempts : List PilotAttempt} {configurations : List Configuration}
    (h : Shown attempts configurations) {identity : Str} (hid : identity ∈ identities attempts)
    {plan : ConfigurationPlan}
    (hplan : plan ∈ configurations.map (configurationPlan configurations))
    (hname : plan.configuration = aliasOf attempts identity) (hready : plan.status = .ready) :
    ReadyRows attempts (ofIdentity attempts identity) := by
  obtain ⟨c, hc, rfl⟩ := List.mem_map.mp hplan
  obtain ⟨i, hi, hshows⟩ := (forall₂_partner h).2 c hc
  have hsame : i = identity := by
    refine aliasOf_injective hi hid ?_
    rw [← hshows.configuration]
    exact hname
  subst hsame
  exact (configurationPlan_readyRows h hshows).mp hready

/-- The plan and the gates agree: a plan is ready when the coverage gates hold and no pilot has
packs in conflict; two ready configurations pass every gate of their pair but the one on observed
axes, over exactly the required pilots; and both sums of attempts are the same. -/
theorem portfolio_agreement {rng : Generator} {labels : Bool} {attempts : List PilotAttempt}
    {p : Portfolio} (h : portfolio rng labels attempts = .ok p) :
    List.Forall₂ (fun c plan => plan.configuration = c.configuration ∧
        (plan.status = .ready ↔ c.coverageGates.all = true ∧ NoPackConflict attempts))
      p.configurations p.evidenceCollectionPlan.configurations ∧
    (∀ c ∈ p.pairwise, p.PlannedReady c.left → p.PlannedReady c.right →
      c.evidenceGates = ⟨true, true, true, true, true, c.evidenceGates.allSharedAxesObserved⟩ ∧
      c.sharedPilots = pilotIds ∧ c.scenarioDistances.map (·.pilotId) = pilotIds) ∧
    ((∀ plan ∈ p.evidenceCollectionPlan.configurations, plan.manualAlignmentRequired = false) →
      ∃ n, totalAttempts (p.evidenceCollectionPlan.scenarioPriorities.map
          (·.additionalCompleteAttempts)) = some n ∧
        totalAttempts (p.evidenceCollectionPlan.configurations.map
          (·.additionalCompleteAttempts)) = some n) := by
  obtain ⟨configurations, hconfigurations, h⟩ := Failures.bind_eq_ok.mp h
  cases h
  have hshown := portfolioConfigurations_shown hconfigurations
  refine ⟨?_, ?_, ?_⟩
  · have hplan : ∀ c ∈ configurations, (configurationPlan configurations c).configuration =
        c.configuration ∧ ((configurationPlan configurations c).status = .ready ↔
          c.coverageGates.all = true ∧ NoPackConflict attempts) := by
      intro c hc
      obtain ⟨identity, -, hshows⟩ := (forall₂_partner hshown).2 c hc
      exact ⟨rfl, (configurationPlan_readyRows hshown hshows).trans (readyRows_iff hshows)⟩
    simp only [evidenceCollectionPlan, List.forall₂_map_right_iff]
    exact List.forall₂_same.mpr hplan
  · intro c hc hleft hright
    obtain ⟨pair, hpair, rfl⟩ := List.mem_map.mp hc
    obtain ⟨ids, hids, rfl⟩ := List.mem_map.mp hpair
    obtain ⟨hi, hj⟩ := mem_of_mem_pairs hids
    obtain ⟨plan, hplan, hname, hready⟩ := hleft
    obtain ⟨plan', hplan', hname', hready'⟩ := hright
    have hl := plannedReady_rows hshown hi hplan hname hready
    have hr := plannedReady_rows hshown hj hplan' hname' hready'
    have hsub : ∀ a ∈ ofIdentity attempts ids.1, a ∈ attempts := by
      intro a ha
      exact (List.mem_filter.mp ha).1
    generalize hs : (⟨ofIdentity attempts ids.1, ofIdentity attempts ids.2⟩ : Sides) = s
    rw [← show s.left = ofIdentity attempts ids.1 by rw [← hs]] at hl hsub
    rw [← show s.right = ofIdentity attempts ids.2 by rw [← hs]] at hr
    have haligned := hl.commonPacks hr hsub
    have hgates := hl.gates hr hsub
    have hpilots : s.versions.map (·.pilotId) = pilotIds := by
      rw [← haligned.sharedKeys]
      exact List.map_map
    simp only [comparison]
    exact ⟨hgates, haligned.sharedPilots, hpilots⟩
  · intro halign
    have hall : ∀ c ∈ configurations,
        (configurationPlan configurations c).manualAlignmentRequired = false := by
      intro c hc
      exact halign _ (List.mem_map_of_mem hc)
    simp only [evidenceCollectionPlan]
    refine ⟨_, scenarioPriorities_total hall, ?_⟩
    have hplans : (configurations.map (configurationPlan configurations)).map
        (·.additionalCompleteAttempts) =
        (configurations.map fun c => (pilotIds.map (needed configurations c)).sum).map some := by
      rw [List.map_map, List.map_map]
      exact List.map_congr_left fun c hc => configurationPlan_total (hall c hc)
    rw [hplans, totalAttempts_eq_some, sum_comm]

section Sample

def sampleCohort : List PilotAttempt :=
  pilotIds.flatMap fun p => [sampleAttempt "a" p 4, sampleAttempt "b" p 2, sampleAttempt "a" p 4,
    sampleAttempt "b" p 2]

def sampleConfigurations : List Configuration :=
  match portfolioConfigurations false sampleCohort with
  | .ok configurations => configurations
  | .error _ => []

def samplePortfolio : Portfolio :=
  ⟨sampleConfigurations, comparisons firstChoice sampleCohort,
    evidenceCollectionPlan sampleConfigurations⟩

theorem sampleConfigurations_planned :
    sampleConfigurations.map (fun c => ((configurationPlan sampleConfigurations c).configuration,
      (configurationPlan sampleConfigurations c).status)) =
        [("config-1".toList, .ready), ("config-2".toList, .ready)] := by
  decide +kernel

theorem samplePortfolio_plannedReady {name : Str}
    (h : name ∈ ["config-1".toList, "config-2".toList]) : samplePortfolio.PlannedReady name := by
  have hin : (name, PlanStatus.ready) ∈ sampleConfigurations.map (fun c =>
      ((configurationPlan sampleConfigurations c).configuration,
        (configurationPlan sampleConfigurations c).status)) := by
    rw [sampleConfigurations_planned]
    simpa using h
  obtain ⟨c, hc, heq⟩ := List.mem_map.mp hin
  exact ⟨_, List.mem_map_of_mem hc, congrArg Prod.fst heq, congrArg Prod.snd heq⟩

theorem sampleCohort_ready : portfolio firstChoice false sampleCohort = .ok samplePortfolio ∧
    samplePortfolio.pairwise.map (·.sharedPilots) = [pilotIds] := by
  have hp : portfolio firstChoice false sampleCohort = .ok samplePortfolio := rfl
  have hids : identities sampleCohort = ["a".toList, "b".toList] := by decide +kernel
  have hfirst : aliasOf sampleCohort "a".toList = "config-1".toList := by decide +kernel
  have hsecond : aliasOf sampleCohort "b".toList = "config-2".toList := by decide +kernel
  obtain ⟨n, hpairs⟩ : ∃ n, samplePortfolio.pairwise = [comparison firstChoice n
      "config-1".toList "config-2".toList
      ⟨ofIdentity sampleCohort "a".toList, ofIdentity sampleCohort "b".toList⟩] := by
    simp only [samplePortfolio, comparisons, sidePairs, hids, pairs, List.map_cons, List.map_nil,
      List.append_nil, hfirst, hsecond]
    exact ⟨_, rfl⟩
  have h := (portfolio_agreement hp).2.1
  rw [hpairs] at h ⊢
  have hc := (h _ List.mem_cons_self (samplePortfolio_plannedReady List.mem_cons_self)
    (samplePortfolio_plannedReady (List.mem_cons_of_mem _ List.mem_cons_self))).2.1
  exact ⟨hp, congrArg (fun ids => [ids]) hc⟩

end Sample

end Round5
