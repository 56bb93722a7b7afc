import LlmHardtest.Community.Readiness
import LlmHardtest.Library.Pareto
set_option autoImplicit false

/-! The shortlist of a recommendation: what is left out and what stands on it. -/

namespace Community
open Python Pareto

section Order
variable {a b c : PyFloat}

theorem pyFloat_le_trans (hab : a.le b = true) (hbc : b.le c = true) : a.le c = true := by
  cases a with
  | finite a =>
    cases b with
    | finite b =>
      cases c with
      | finite c =>
        exact decide_eq_true (le_trans (of_decide_eq_true hab) (of_decide_eq_true hbc))
      | inf c => exact hbc
      | nan => cases hbc
    | inf b =>
      cases b <;> cases c <;> simp_all [PyFloat.le]
    | nan => cases hab
  | inf a =>
    cases a with
    | true =>
      cases c with
      | finite c => rfl
      | inf c => rfl
      | nan => cases b <;> cases hbc
    | false =>
      cases b with
      | finite b => cases hab
      | inf b =>
        cases b
        · cases c <;> simp_all [PyFloat.le]
        · cases hab
      | nan => cases hab
  | nan => cases hab

variable {objectives : List Objective} {left mid right : CandidateMetrics} {o : Objective}

def noWorse (o : Objective) (a b : PyFloat) : Bool := if o = .latency then a.le b else b.le a

theorem noWorse_trans (hab : noWorse o a b = true) (hbc : noWorse o b c = true) :
    noWorse o a c = true := by
  unfold noWorse at *
  split at hab
  · rename_i ho
    rw [if_pos ho] at hbc ⊢
    exact pyFloat_le_trans hab hbc
  · rename_i ho
    rw [if_neg ho] at hbc ⊢
    exact pyFloat_le_trans hbc hab

def NoWorse (o : Objective) (left right : CandidateMetrics) : Prop :=
  ∃ l r, objectiveValue left o = some l ∧ objectiveValue right o = some r ∧ noWorse o l r = true

theorem NoWorse.trans (h : NoWorse o left mid) (h' : NoWorse o mid right) : NoWorse o left right := by
  obtain ⟨l, m, hl, hm, hlm⟩ := h
  obtain ⟨m', r, hm', hr, hmr⟩ := h'
  obtain rfl := Option.some.inj (hm.symm.trans hm')
  exact ⟨l, r, hl, hr, noWorse_trans hlm hmr⟩

theorem compareObjective_eq_some {p : Bool × Bool} (h : compareObjective left right o = some p) :
    (p.1 = true ↔ NoWorse o left right) ∧
      (p.2 = true ↔ NoWorse o left right ∧ ¬ NoWorse o right left) := by
  unfold compareObjective at h
  split at h
  · rename_i l r hl hr
    have hp : p = (noWorse o l r, noWorse o l r && !noWorse o r l) := by
      rw [← Option.some.inj h]
      unfold noWorse
      split <;> rfl
    have hleft : NoWorse o left right ↔ noWorse o l r = true := by
      simp only [NoWorse, hl, hr, Option.some_inj]
      exact ⟨fun ⟨_, _, h1, h2, h3⟩ => h1 ▸ h2 ▸ h3, fun h => ⟨l, r, rfl, rfl, h⟩⟩
    have hright : NoWorse o right left ↔ noWorse o r l = true := by
      simp only [NoWorse, hl, hr, Option.some_inj]
      exact ⟨fun ⟨_, _, h1, h2, h3⟩ => h1 ▸ h2 ▸ h3, fun h => ⟨r, l, rfl, rfl, h⟩⟩
    rw [hp, hleft, hright]
    simp
  · cases h

theorem compareObjective_isSome (h : NoWorse o left right) :
    ∃ p, compareObjective left right o = some p := by
  obtain ⟨l, r, hl, hr, -⟩ := h
  exact ⟨_, by rw [compareObjective, hl, hr]⟩

theorem dominates_iff : dominates left right objectives = true ↔
    (∀ o ∈ objectives, NoWorse o left right) ∧ ∃ o ∈ objectives, ¬ NoWorse o right left := by
  have hcases : ∀ os : List Objective,
      ((∃ o ∈ os, compareObjective left right o = none) ∧
        os.mapM (compareObjective left right) = none) ∨
      ∃ ps, os.mapM (compareObjective left right) = some ps ∧
        (ps.all Prod.fst = true ↔ ∀ o ∈ os, NoWorse o left right) ∧
        (ps.any Prod.snd = true ↔ ∃ o ∈ os, NoWorse o left right ∧ ¬ NoWorse o right left) := by
    intro os
    induction os with
    | nil => exact .inr ⟨[], rfl, by simp, by simp⟩
    | cons o os ih =>
      rw [List.mapM_cons]
      cases hp : compareObjective left right o with
      | none => exact .inl ⟨⟨o, by simp, hp⟩, rfl⟩
      | some p =>
        obtain ⟨hfst, hsnd⟩ := compareObjective_eq_some hp
        rcases ih with ⟨⟨o', ho', hnone⟩, hmap⟩ | ⟨ps, hmap, hall, hany⟩
        · exact .inl ⟨⟨o', by simp [ho'], hnone⟩, by rw [hmap]; rfl⟩
        · refine .inr ⟨p :: ps, by rw [hmap]; rfl, ?_, ?_⟩
          · rw [List.all_cons, Bool.and_eq_true, hfst, hall, List.forall_mem_cons]
          · rw [List.any_cons, Bool.or_eq_true, hsnd, hany, List.exists_mem_cons_iff]
  unfold dominates
  rcases hcases objectives with ⟨⟨o, ho, hnone⟩, hmap⟩ | ⟨ps, hmap, hall, hany⟩
  · rw [hmap]
    refine iff_of_false Bool.false_ne_true fun h => ?_
    obtain ⟨p, hp⟩ := compareObjective_isSome (h.1 o ho)
    rw [hnone] at hp
    cases hp
  · rw [hmap]
    dsimp only
    rw [Bool.and_eq_true, hall, hany]
    refine and_congr_right fun h => exists_congr fun o => and_congr_right fun ho => ?_
    rw [and_iff_right (h o ho)]

theorem dominates_irrefl (m : CandidateMetrics) : ¬ dominates m m objectives = true := by
  rw [dominates_iff]
  rintro ⟨hall, o, ho, hnot⟩
  exact hnot (hall o ho)

theorem dominates_trans (h : dominates left mid objectives = true)
    (h' : dominates mid right objectives = true) : dominates left right objectives = true := by
  rw [dominates_iff] at *
  obtain ⟨o, ho, hnot⟩ := h.2
  exact ⟨fun o ho => (h.1 o ho).trans (h'.1 o ho), o, ho, fun hback => hnot ((h'.1 o ho).trans hback)⟩

end Order

section Shown
variable {objectives : List Objective}

def Dominates (objectives : List Objective) (x y : Candidate) : Prop :=
  dominates x.metrics y.metrics objectives = true

instance : DecidableRel (Dominates objectives) := fun _ _ => inferInstanceAs (Decidable (_ = true))

theorem undominated_eq (before l : List Candidate) :
    undominated objectives before l = l.filter fun x =>
      !(before ++ l).any fun z => dominates z.metrics x.metrics objectives := by
  induction l generalizing before with
  | nil => rfl
  | cons x rest ih =>
    have hself : dominates x.metrics x.metrics objectives = false :=
      Bool.eq_false_iff.mpr (dominates_irrefl x.metrics)
    have hsame : ((before ++ x :: rest).any fun z => dominates z.metrics x.metrics objectives) =
        (before ++ rest).any fun z => dominates z.metrics x.metrics objectives := by
      rw [List.any_append, List.any_append, List.any_cons, hself, Bool.false_or]
    rw [undominated, ih, List.append_assoc, List.singleton_append, List.filter_cons, hsame]
    cases (before ++ rest).any fun z => dominates z.metrics x.metrics objectives <;> rfl

/-- Every candidate is shown or counted as dominated. -/
theorem dominatedCount_add (before l : List Candidate) :
    dominatedCount objectives before l + (undominated objectives before l).length = l.length := by
  induction l generalizing before with
  | nil => rfl
  | cons x rest ih =>
    have hrest := ih (before ++ [x])
    rw [dominatedCount, undominated]
    split
    · rw [List.length_cons]
      omega
    · rw [List.length_cons, List.length_cons]
      omega

def front (objectives : List Objective) (l : List Candidate) : List Candidate :=
  l.filter fun x => decide (Undominated (Dominates objectives) l x)

theorem undominated_front (l : List Candidate) : undominated objectives [] l = front objectives l := by
  rw [undominated_eq, front]
  refine List.filter_congr fun x _ => ?_
  rw [Bool.eq_iff_iff, decide_eq_true_eq, Bool.not_eq_true', List.nil_append, List.any_eq_false]
  rfl

end Shown

section Rows
variable {cf : Casefold} {rows : List AggregateRow} {c c' : Checked} {pack : Str}

def packedRows (rows : List AggregateRow) (round : Int) (pack : Str) : List AggregateRow :=
  (roundRows rows round).filter fun row => decide (row.key.pack.1 = pack)

def eligibleCandidates (cf : Casefold) (rows : List AggregateRow) (c : Checked) (pack : Str) :
    List Candidate :=
  (eligibleRows c (matchedRows cf rows c.round pack c.constraints)).map fun row =>
    ⟨row, candidateMetrics row⟩

theorem matchedRows_eq (cf : Casefold) (rows : List AggregateRow) (c : Checked) (pack : Str) :
    matchedRows cf rows c.round pack c.constraints =
      (packedRows rows c.round pack).filter fun row => matchesConstraints cf row c.constraints := by
  rw [matchedRows, packedRows, List.filter_filter]
  exact List.filter_congr fun row _ => Bool.and_comm _ _

/-- Every row of the pack is matched or counted against the constraints. -/
theorem constraintCount_add (cf : Casefold) (rows : List AggregateRow) (c : Checked) (pack : Str) :
    ((roundRows rows c.round).countP fun row =>
        decide (row.key.pack.1 = pack) && !matchesConstraints cf row c.constraints) +
      (matchedRows cf rows c.round pack c.constraints).length =
        (packedRows rows c.round pack).length := by
  have hsplit := List.length_eq_countP_add_countP (l := packedRows rows c.round pack)
    fun row => matchesConstraints cf row c.constraints
  rw [matchedRows_eq, ← List.countP_eq_length_filter, hsplit, Nat.add_comm, packedRows,
    List.countP_filter, List.countP_filter]
  congr 1
  refine List.countP_congr fun row _ => ?_
  simp [and_comm]

theorem gateCounts (c : Checked) (matched : List AggregateRow) :
    gateCount c matched .insufficientBundles + gateCount c matched .missingObjective +
      gateCount c matched .accuracyFloor + (eligibleRows c matched).length = matched.length := by
  rw [eligibleRows, ← List.countP_eq_length_filter]
  unfold gateCount
  induction matched with
  | nil => rfl
  | cons row matched ih =>
    simp only [List.countP_cons, List.length_cons]
    cases gate c.objectives c.accuracyFloor row <;>
      simp only [reduceCtorEq, decide_false, decide_true, if_true, Bool.false_eq_true, if_false] <;>
      omega

/-- What a shortlist says of the rows of its round and pack. -/
structure Shortlist (packed : List AggregateRow) (eligible : List Candidate)
    (objectives : List Objective) (r : Recommendation) : Prop where
  counters : r.excluded.constraints + r.excluded.insufficientBundles + r.excluded.missingObjective +
    r.excluded.accuracyFloor + r.excluded.dominated + r.candidates.length = packed.length
  candidates : r.candidates.Perm (front objectives eligible)
  nonempty : eligible ≠ [] → r.candidates ≠ []
  dominated : ∀ x ∈ eligible, x ∉ r.candidates →
    ∃ y ∈ r.candidates, Dominates objectives y x
  eligibleConfigurations : r.eligibleConfigurations = eligible.length

theorem recommendPack_shortlist (cf : Casefold) (rows : List AggregateRow) (c : Checked) (pack : Str) :
    Shortlist (packedRows rows c.round pack) (eligibleCandidates cf rows c pack) c.objectives
      (recommendPack cf rows c pack) := by
  have hshown : (recommendPack cf rows c pack).candidates.Perm
      (front c.objectives (eligibleCandidates cf rows c pack)) := by
    rw [← undominated_front]
    exact List.perm_insertionSort _ _
  have hfront : ∀ x ∈ eligibleCandidates cf rows c pack,
      ∃ y ∈ (recommendPack cf rows c pack).candidates, y = x ∨ Dominates c.objectives y x := by
    intro x hx
    obtain ⟨y, hy, hundominated, hyx⟩ := exists_undominated (r := Dominates c.objectives)
      (fun a => dominates_irrefl a.metrics) (fun a b d hab hbd => dominates_trans hab hbd) hx
    exact ⟨y, hshown.mem_iff.mpr (List.mem_filter.mpr ⟨hy, decide_eq_true hundominated⟩), hyx⟩
  refine ⟨?_, hshown, ?_, ?_, (List.length_map _).symm⟩
  · have hgates := gateCounts c (matchedRows cf rows c.round pack c.constraints)
    have hmatched := constraintCount_add cf rows c pack
    have hshownCount : dominatedCount c.objectives [] (eligibleCandidates cf rows c pack) +
        (undominated c.objectives [] (eligibleCandidates cf rows c pack)).length = _ :=
      dominatedCount_add [] _
    have hlength : (recommendPack cf rows c pack).candidates.length =
        (undominated c.objectives [] (eligibleCandidates cf rows c pack)).length :=
      List.length_insertionSort _ _
    have heligible : (eligibleCandidates cf rows c pack).length =
        (eligibleRows c (matchedRows cf rows c.round pack c.constraints)).length := List.length_map _
    rw [hlength]
    change ((roundRows rows c.round).countP fun row =>
        decide (row.key.pack.1 = pack) && !matchesConstraints cf row c.constraints) +
      gateCount c (matchedRows cf rows c.round pack c.constraints) .insufficientBundles +
      gateCount c (matchedRows cf rows c.round pack c.constraints) .missingObjective +
      gateCount c (matchedRows cf rows c.round pack c.constraints) .accuracyFloor +
      dominatedCount c.objectives [] (eligibleCandidates cf rows c pack) + _ = _
    omega
  · intro hne
    obtain ⟨x, hx⟩ := List.exists_mem_of_ne_nil _ hne
    obtain ⟨y, hy, -⟩ := hfront x hx
    exact List.ne_nil_of_mem hy
  · intro x hx hnot
    obtain ⟨y, hy, rfl | hyx⟩ := hfront x hx
    · exact absurd hy hnot
    · exact ⟨y, hy, hyx⟩

theorem emptyRecommendation_shortlist (hempty : packedRows rows c.round pack = []) :
    Shortlist (packedRows rows c.round pack) (eligibleCandidates cf rows c pack) c.objectives
      (emptyRecommendation rows c) := by
  have hnone : eligibleCandidates cf rows c pack = [] := by
    rw [eligibleCandidates, matchedRows_eq, hempty]
    rfl
  rw [hempty, hnone]
  exact ⟨rfl, .refl _, fun h => absurd rfl h, fun x hx => absurd hx List.not_mem_nil, rfl⟩

theorem recommendChecked_pack (cf : Casefold) (rows : List AggregateRow) (c : Checked) :
    (recommendChecked cf rows c).pack = selectedPack rows c ∧
      (recommendChecked cf rows c).objectives = c.objectives := by
  unfold recommendChecked
  split
  · exact ⟨rfl, rfl⟩
  · split
    · exact ⟨rfl, rfl⟩
    · split <;> exact ⟨rfl, rfl⟩

theorem recommendChecked_shortlist (hpack : selectedPack rows c = some pack) :
    Shortlist (packedRows rows c.round pack) (eligibleCandidates cf rows c pack) c.objectives
      (recommendChecked cf rows c) := by
  have hone : ¬ (c.pack.isNone && decide (1 < (availablePacks rows c.round).length)) = true := by
    intro h
    simp only [Bool.and_eq_true, Option.isNone_iff_eq_none, decide_eq_true_eq] at h
    obtain ⟨hnone, hmany⟩ := h
    rw [selectedPack, hnone] at hpack
    dsimp only at hpack
    split at hpack
    · rename_i hsingle
      rw [hsingle] at hmany
      simp at hmany
    · cases hpack
  rw [recommendChecked, if_neg hone, hpack]
  dsimp only
  split
  · exact recommendPack_shortlist cf rows c pack
  · rename_i habsent
    refine emptyRecommendation_shortlist (List.filter_eq_nil_iff.mpr fun row hrow h => habsent ?_)
    rw [availablePacks, sortedNames, List.mem_insertionSort, List.mem_dedup]
    exact List.mem_map.mpr ⟨row, hrow, of_decide_eq_true h⟩

/-- A query with the constraints of another one and more, and a floor that is not lower. -/
structure Tighter (c c' : Checked) : Prop where
  round : c'.round = c.round
  pack : c'.pack = c.pack
  objectives : c'.objectives = c.objectives
  constraints : c.constraints ⊆ c'.constraints
  floor : ∀ f, c.accuracyFloor = some f → ∃ f', c'.accuracyFloor = some f' ∧ f ≤ f'

theorem Tighter.gate (h : Tighter c c') {row : AggregateRow}
    (hgate : Community.gate c'.objectives c'.accuracyFloor row = .eligible) :
    Community.gate c.objectives c.accuracyFloor row = .eligible := by
  unfold Community.gate at *
  rw [h.objectives] at hgate
  split at hgate
  · cases hgate
  · split at hgate
    · cases hgate
    · rename_i hmissing
      rw [if_neg hmissing]
      split at hgate
      · cases hgate
      · rename_i hreached
        refine if_neg fun hbelow => hreached ?_
        obtain ⟨f, hf, hlow⟩ := (Option.any_eq_true _ _).mp hbelow
        obtain ⟨f', hf', hle⟩ := h.floor f hf
        exact (Option.any_eq_true _ _).mpr
          ⟨f', hf', decide_eq_true ((of_decide_eq_true hlow).trans_le hle)⟩

/-- A tighter query has no eligible row that the other one has not. -/
theorem Tighter.eligible (h : Tighter c c') (cf : Casefold) (rows : List AggregateRow) (pack : Str) :
    (eligibleRows c' (matchedRows cf rows c'.round pack c'.constraints)).Sublist
      (eligibleRows c (matchedRows cf rows c.round pack c.constraints)) := by
  rw [matchedRows_eq, matchedRows_eq, eligibleRows, eligibleRows, List.filter_filter,
    List.filter_filter, h.round]
  refine List.monotone_filter_right _ fun row hrow => ?_
  simp only [Bool.and_eq_true, decide_eq_true_eq] at hrow ⊢
  refine ⟨h.gate hrow.1, List.all_eq_true.mpr fun e he => ?_⟩
  exact List.all_eq_true.mp hrow.2 e (h.constraints he)

end Rows

/-- The shortlist of a valid query that selects a pack: every row of the pack is counted once, the
candidates are the eligible rows that no other one dominates, there is one when a row is eligible, and
each dominated row is dominated by one of them. A constraint more or a higher floor makes no row
eligible. -/
theorem recommendAggregateRows_shortlist (cf : Casefold) (rows : List AggregateRow) :
    (∀ q c r pack, checkQuery q = .ok c → recommendAggregateRows cf rows q = .ok r →
      r.pack = some pack →
        Shortlist (packedRows rows c.round pack) (eligibleCandidates cf rows c pack) c.objectives r) ∧
    ∀ q q' c c' r r' pack, checkQuery q = .ok c → checkQuery q' = .ok c' →
      recommendAggregateRows cf rows q = .ok r → recommendAggregateRows cf rows q' = .ok r' →
      r.pack = some pack → Tighter c c' →
        (eligibleCandidates cf rows c' pack).Sublist (eligibleCandidates cf rows c pack) ∧
          r'.eligibleConfigurations ≤ r.eligibleConfigurations := by
  have hresult : ∀ q c r, checkQuery q = .ok c → recommendAggregateRows cf rows q = .ok r →
      r = recommendChecked cf rows c := by
    intro q c r hc hr
    rw [recommendAggregateRows, hc] at hr
    exact (Except.ok.inj hr).symm
  have hshort : ∀ q c r pack, checkQuery q = .ok c → recommendAggregateRows cf rows q = .ok r →
      r.pack = some pack →
        Shortlist (packedRows rows c.round pack) (eligibleCandidates cf rows c pack) c.objectives r := by
    intro q c r pack hc hr hpack
    obtain rfl := hresult q c r hc hr
    exact recommendChecked_shortlist ((recommendChecked_pack cf rows c).1.symm.trans hpack)
  refine ⟨hshort, ?_⟩
  intro q q' c c' r r' pack hc hc' hr hr' hpack htighter
  have hpack' : r'.pack = some pack := by
    rw [hresult q c r hc hr, (recommendChecked_pack cf rows c).1] at hpack
    rw [hresult q' c' r' hc' hr', (recommendChecked_pack cf rows c').1, ← hpack, selectedPack,
      selectedPack, htighter.pack, htighter.round]
  have hsub := (htighter.eligible cf rows pack).map fun row => (⟨row, candidateMetrics row⟩ : Candidate)
  refine ⟨hsub, ?_⟩
  rw [(hshort q c r pack hc hr hpack).eligibleConfigurations,
    (hshort q' c' r' pack hc' hr' hpack').eligibleConfigurations]
  exact hsub.length_le

def linuxQuery : Query :=
  { latencyQuery with constraints := some [("os".toList, .str "Linux".toList)] }

/-- One of two configurations is ready for latency; the constraint to one system adds none. -/
theorem sampleRows_shortlist : ∃ c r r', checkQuery latencyQuery = .ok c ∧
    recommendAggregateRows asciiCasefold sampleRows latencyQuery = .ok r ∧
    Shortlist (packedRows sampleRows c.round samplePack.1)
      (eligibleCandidates asciiCasefold sampleRows c samplePack.1) c.objectives r ∧
    recommendAggregateRows asciiCasefold sampleRows linuxQuery = .ok r' ∧
    r'.eligibleConfigurations ≤ r.eligibleConfigurations := by
  obtain ⟨hshort, htighter⟩ := recommendAggregateRows_shortlist asciiCasefold sampleRows
  have hpack : (recommendChecked asciiCasefold sampleRows
      { round := 1, pack := none, constraints := [], objectives := [.latency]
        accuracyFloor := none }).pack = some samplePack.1 := by decide +kernel
  refine ⟨{ round := 1, pack := none, constraints := [], objectives := [.latency]
            accuracyFloor := none }, _, _, rfl, rfl, hshort latencyQuery _ _ _ rfl rfl hpack, rfl, ?_⟩
  exact (htighter latencyQuery linuxQuery _
    { round := 1, pack := none, constraints := [("os".toList, .str "Linux".toList)]
      objectives := [.latency], accuracyFloor := none } _ _ _ rfl rfl rfl rfl hpack
    ⟨rfl, rfl, rfl, List.nil_subset _, fun f hf => by cases hf⟩).2

end Community
