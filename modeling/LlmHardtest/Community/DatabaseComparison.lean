import LlmHardtest.Community.DatabaseAgreement
import LlmHardtest.Library.Related
set_option autoImplicit false

/-! A paired comparison over the database says what it says over the bundles. -/

namespace Community
open Python
open Related
open Round5 (require)

section Observations
variable {c : CheckedComparison} {as bs : List PairedObservation}

abbrev SameIdentity : Option Identity → Option Identity → Prop :=
  Option.Rel fun i j => i.same j = true

theorem identityIn_same (h : List.Forall₂ PairedObservation.Same as bs) (configuration : Str) :
    SameIdentity (identityIn as configuration) (identityIn bs configuration) := by
  have hfind : Option.Rel PairedObservation.Same
      (as.find? fun row => decide (row.configuration.1 = configuration))
      (bs.find? fun row => decide (row.configuration.1 = configuration)) :=
    find?_related (fun a b hab => by rw [hab.configuration]) h
  rw [identityIn, identityIn]
  rcases rel_cases hfind with ⟨ha, hb⟩ | ⟨a, b, ha, hb, hab⟩
  · rw [ha, hb]
    exact .none
  · rw [ha, hb]
    exact .some hab.identity

theorem identitiesAgree_same (h : List.Forall₂ PairedObservation.Same as bs) :
    identitiesAgree as = identitiesAgree bs := by
  refine all_related (fun a b hab => ?_) h
  rw [← hab.configuration]
  rcases rel_cases (identityIn_same h a.configuration.1) with ⟨hi, hj⟩ | ⟨i, j, hi, hj, hij⟩
  · rw [hi, hj]
    rfl
  · rw [hi, hj, Option.all_some, Option.all_some, Bool.eq_iff_iff]
    exact ⟨fun hi => Identity.same_trans (Identity.same_symm hij) (Identity.same_trans hi hab.identity),
      fun hj => Identity.same_trans hij (Identity.same_trans hj (Identity.same_symm hab.identity))⟩

theorem comparedRows_same (h : List.Forall₂ PairedObservation.Same as bs) :
    List.Forall₂ PairedObservation.Same (comparedRows c as) (comparedRows c bs) :=
  filter_related (fun a b hab => by rw [hab.round]) h

theorem comparedPacks_same (h : List.Forall₂ PairedObservation.Same as bs) :
    comparedPacks as = comparedPacks bs := by
  rw [comparedPacks, comparedPacks, map_related (fun a b hab => hab.pack) h]

theorem packRows_same (h : List.Forall₂ PairedObservation.Same as bs) (pack : Str) :
    List.Forall₂ PairedObservation.Same (packRows c as pack) (packRows c bs pack) :=
  filter_related (fun a b hab => by rw [hab.pack]) (comparedRows_same h)

def SameGroup (g g' : Str × List PairedObservation) : Prop :=
  g.1 = g'.1 ∧ List.Forall₂ PairedObservation.Same g.2 g'.2

theorem byBundle_same (h : List.Forall₂ PairedObservation.Same as bs) :
    List.Forall₂ SameGroup (byBundle c as) (byBundle c bs) :=
  groupBy_related (fun a b hab => hab.bundle)
    (filter_related (fun a b hab => by rw [hab.configuration]) h)

theorem rowIn_same (h : List.Forall₂ PairedObservation.Same as bs) (configuration : Str) :
    Option.Rel PairedObservation.Same (rowIn as configuration) (rowIn bs configuration) :=
  find?_related (fun a b hab => by rw [hab.configuration]) h

theorem bundleAgrees_same (h : List.Forall₂ PairedObservation.Same as bs) :
    bundleAgrees as = bundleAgrees bs := by
  refine all_related (fun a b hab => ?_) h
  rw [← hab.configuration]
  rcases rel_cases (rowIn_same h a.configuration.1) with ⟨hi, hj⟩ | ⟨i, j, hi, hj, hij⟩
  · rw [hi, hj]
    rfl
  · rw [hi, hj, Option.all_some, Option.all_some, PairedObservation.sameMetrics,
      PairedObservation.sameMetrics, hij.metrics, hab.metrics]

theorem sharedPairs_same (h : List.Forall₂ PairedObservation.Same as bs) :
    List.Forall₂ (fun p q => p.1.Same q.1 ∧ p.2.Same q.2) (sharedPairs c as) (sharedPairs c bs) := by
  refine List.rel_filterMap (fun g g' hg => ?_) (byBundle_same h)
  rcases rel_cases (rowIn_same hg.2 c.left) with ⟨hl, hl'⟩ | ⟨l, l', hl, hl', hleft⟩
  · rw [hl, hl']
    exact .none
  · rcases rel_cases (rowIn_same hg.2 c.right) with ⟨hr, hr'⟩ | ⟨r, r', hr, hr', hright⟩
    · rw [hl, hl', hr, hr']
      exact .none
    · rw [hl, hl', hr, hr']
      exact .some ⟨hleft, hright⟩

theorem pairsOf_same {shared shared' : List (PairedObservation × PairedObservation)}
    (h : List.Forall₂ (fun p q => p.1.Same q.1 ∧ p.2.Same q.2) shared shared') (o : Objective) :
    pairsOf o shared = pairsOf o shared' := by
  induction h with
  | nil => rfl
  | cons hpq _ ih =>
    rw [pairsOf, pairsOf, List.filterMap_cons, List.filterMap_cons, hpq.1.metrics, hpq.2.metrics]
    rw [pairsOf, pairsOf] at ih
    rw [ih]

end Observations

section Comparisons
variable {sampler : HashSampler} {c : CheckedComparison}

structure Comparison.Same (r s : Comparison) : Prop where
  left : SameIdentity r.left s.left
  right : SameIdentity r.right s.right
  rest : r = { s with left := r.left, right := r.right }

/-- The same error, or comparisons that are the same. -/
structure Agree (x y : Outcome Comparison) : Prop where
  error : ∀ e, x = .error e ↔ y = .error e
  ok : ∀ s, y = .ok s → ∃ r, x = .ok r ∧ r.Same s

theorem Comparison.same_refl (r : Comparison) : r.Same r := by
  have hrefl : ∀ i : Option Identity, SameIdentity i i := by
    intro i
    cases i with
    | none => exact .none
    | some i => exact .some i.same_refl
  exact ⟨hrefl _, hrefl _, rfl⟩

theorem Agree.refl (x : Outcome Comparison) : Agree x x :=
  ⟨fun _ => Iff.rfl, fun s hs => ⟨s, hs, s.same_refl⟩⟩

theorem Agree.of_map {α : Type} (x : Outcome α) {f g : α → Comparison} (h : ∀ a, (f a).Same (g a)) :
    Agree (x.map f) (x.map g) := by
  cases x with
  | error e => exact ⟨fun _ => Iff.rfl, fun s hs => by cases hs⟩
  | ok a =>
    refine ⟨fun e => ⟨fun he => (by cases he), fun he => (by cases he)⟩, fun s hs => ?_⟩
    cases hs
    exact ⟨f a, rfl, h a⟩

theorem Agree.bind {α : Type} (x : Outcome α) {f g : α → Outcome Comparison}
    (h : ∀ a, x = .ok a → Agree (f a) (g a)) : Agree (x >>= f) (x >>= g) := by
  cases x with
  | error e => exact Agree.refl (.error e)
  | ok a => exact h a rfl

theorem bind_map {α β γ : Type} (x : Outcome α) (f : α → Outcome β) (g : β → γ) :
    (x >>= f).map g = x >>= fun a => (f a).map g := by
  cases x <;> rfl

theorem compareShared_sides (shared : List (PairedObservation × PairedObservation)) (pack : Str)
    (initial : Comparison) (left right : Option Identity) :
    compareShared sampler c pack shared { initial with left := left, right := right } =
      (compareShared sampler c pack shared initial).map fun r =>
        { r with left := left, right := right } := by
  rw [compareShared, compareShared]
  simp only [bind_map]
  rfl

theorem compareShared_same {shared shared' : List (PairedObservation × PairedObservation)}
    (h : List.Forall₂ (fun p q => p.1.Same q.1 ∧ p.2.Same q.2) shared shared') (pack : Str)
    (initial : Comparison) :
    compareShared sampler c pack shared initial = compareShared sampler c pack shared' initial := by
  have heffects : ∀ o, effectsOf o shared = effectsOf o shared' := by
    intro o
    rw [effectsOf, effectsOf, pairsOf_same h]
  have htested : isTested shared = isTested shared' := by
    funext o
    rw [isTested, isTested, heffects]
  have hrows : ∀ familySize samples, objectiveRows sampler c pack shared familySize samples =
      objectiveRows sampler c pack shared' familySize samples := by
    intro familySize samples
    rw [objectiveRows, objectiveRows]
    simp only [untestedRow, pairsOf_same h, heffects, htested]
  unfold compareShared
  simp only [htested, hrows, h.length_eq]

theorem compareShared_agree {shared shared' : List (PairedObservation × PairedObservation)}
    (h : List.Forall₂ (fun p q => p.1.Same q.1 ∧ p.2.Same q.2) shared shared') (pack : Str)
    (initial : Comparison) {i j k l : Identity} (hij : i.same j = true) (hkl : k.same l = true) :
    Agree (compareShared sampler c pack shared { initial with left := some i, right := some k })
      (compareShared sampler c pack shared' { initial with left := some j, right := some l }) := by
  have hleft : SameIdentity (some i) (some j) := .some hij
  have hright : SameIdentity (some k) (some l) := .some hkl
  rw [compareShared_sides shared pack initial (some i) (some k),
    compareShared_sides shared' pack initial (some j) (some l), compareShared_same h]
  exact Agree.of_map _ fun r => ⟨hleft, hright, rfl⟩

theorem compareChecked_same {as bs : List PairedObservation}
    (h : List.Forall₂ PairedObservation.Same as bs) :
    Agree (compareChecked sampler c as) (compareChecked sampler c bs) := by
  have hpacks : comparedPacks (comparedRows c as) = comparedPacks (comparedRows c bs) :=
    comparedPacks_same (comparedRows_same h)
  have hselected : selectedComparisonPack c as = selectedComparisonPack c bs := by
    rw [selectedComparisonPack, selectedComparisonPack, hpacks]
  unfold compareChecked
  simp only [hpacks, hselected]
  split
  · exact Agree.refl _
  · cases hpack : selectedComparisonPack c bs with
    | none => exact Agree.refl _
    | some pack =>
      dsimp only
      split
      · exact Agree.refl _
      · have hrows := packRows_same (c := c) h pack
        rw [identitiesAgree_same hrows]
        refine Agree.bind _ fun _ _ => ?_
        rcases rel_cases (identityIn_same hrows c.left) with ⟨hl, hl'⟩ | ⟨i, j, hl, hl', hij⟩
        · rw [hl, hl']
          exact Agree.refl _
        · rcases rel_cases (identityIn_same hrows c.right) with ⟨hr, hr'⟩ | ⟨k, l, hr, hr', hkl⟩
          · rw [hl, hl', hr, hr']
            exact Agree.refl _
          · have hgroups : (byBundle c (packRows c as pack)).all (fun g => bundleAgrees g.2) =
                (byBundle c (packRows c bs pack)).all fun g => bundleAgrees g.2 :=
              all_related (fun g g' hg => bundleAgrees_same hg.2) (byBundle_same hrows)
            rw [hl, hl', hr, hr', hgroups]
            refine Agree.bind _ fun _ _ => ?_
            exact compareShared_agree (sharedPairs_same hrows) pack {
              pack := some pack, availablePacks := comparedPacks (comparedRows c bs)
              objectives := c.objectives, minimumPracticalEffects := c.minimumEffect
              multiplicityFamilySize := c.familySize.getD 0
              minimumNonzeroPairs := minimumNonzeroPairsForHolm (c.familySize.getD 0) } hij hkl

end Comparisons

section Build
variable {fl : FloatRounding} {h : Hashing} {py : Interpreter} {submissions : List Bundle}

/-- A question put to the database gets the answer that the bundles give. -/
theorem compareDatabase_build {temporary : Str} {stored : Rows}
    (hbuild : buildDatabase fl h temporary submissions = .ok stored)
    (hread : ReadsBack py h submissions) (hcounts : ∀ b ∈ submissions, b.Counts)
    (sampler : HashSampler) (q : PairedQuery) :
    Agree (compareDatabase fl py sampler stored q) (compareSubmissions fl h sampler submissions q) := by
  obtain ⟨ours, theirs, hours, htheirs, hsame⟩ :=
    pairedDatabaseObservations_build hbuild hread hcounts
  rw [compareDatabase, compareSubmissions, hours, htheirs]
  exact Agree.bind (checkComparison q) fun c _ => compareChecked_same hsame

-- The two configurations of both bundles, by their ids.
theorem compareDatabase_build_sample : ∃ stored,
    buildDatabase doubleRounding spreadHashing [] pairBundles = .ok stored ∧
      Agree (compareDatabase doubleRounding pairParser (fun _ _ => 0) stored
          ⟨1, "4cd14b3d69".toList, "95a1d19e53".toList, none, none, none, none⟩)
        (compareSubmissions doubleRounding spreadHashing (fun _ _ => 0) pairBundles
          ⟨1, "4cd14b3d69".toList, "95a1d19e53".toList, none, none, none, none⟩) := by
  obtain ⟨stored, hstored⟩ := pair_built
  exact ⟨stored, hstored, compareDatabase_build hstored pair_reads pair_counts _ _⟩

end Build

end Community
