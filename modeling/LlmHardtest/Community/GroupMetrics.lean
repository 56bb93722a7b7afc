import LlmHardtest.Community.DatabaseObservations
set_option autoImplicit false

/-! What the metrics of a group depend on: its scores, which add up without rounding, and its wall
times and token rates in any order. -/

namespace Community
open Python
open Round5 (average)

structure Counted (l : List ℚ) : Prop where
  whole : ∀ q ∈ l, ∃ n : ℕ, q = n
  small : l.sum ≤ 2 ^ 53

theorem sum_nonneg_of_whole {l : List ℚ} (hl : ∀ q ∈ l, ∃ n : ℕ, q = n) : 0 ≤ l.sum := by
  refine List.sum_nonneg fun q hq => ?_
  obtain ⟨n, rfl⟩ := hl q hq
  exact n.cast_nonneg

theorem Counted.sublist {l m : List ℚ} (hm : Counted m) (h : l.Sublist m) : Counted l := by
  refine ⟨fun q hq => hm.whole q (h.subset hq), (List.Sublist.sum_le_sum h fun q hq => ?_).trans hm.small⟩
  obtain ⟨n, rfl⟩ := hm.whole q hq
  exact n.cast_nonneg

theorem Counted.nil : Counted [] := ⟨by simp, by norm_num⟩

section Floats
variable {fl : FloatRounding}

theorem FiniteNum.toFloat_whole {n : FiniteNum} {k : ℕ} (hn : n.value = k) (hk : k ≤ 2 ^ 53) :
    n.toFloat fl = n.value := by
  cases n with
  | int m =>
    have hm : (m : ℚ) = k := hn
    rw [FiniteNum.toFloat, FiniteNum.value, hm]
    exact fl.exact k hk
  | float q => rfl

variable (fl) (values : List RunValues)

def groupScores (column : ScoreColumn) : List ℚ :=
  values.filterMap fun v => (v.score column).map FiniteNum.value

variable {fl} {values}

/-- Counts add up without rounding. -/
theorem groupTotal_eq {column : ScoreColumn} (hc : Counted (groupScores values column)) :
    groupTotal fl values column = (groupScores values column).sum := by
  have hfold : ∀ (vs : List RunValues) (k : ℕ), (∀ q ∈ groupScores vs column, ∃ n : ℕ, q = n) →
      k + (groupScores vs column).sum ≤ 2 ^ 53 →
      (vs.map fun v => v.score column).foldl (addScore fl) k = k + (groupScores vs column).sum := by
    intro vs
    induction vs with
    | nil => simp [groupScores]
    | cons v vs ih =>
      intro k hwhole hsmall
      rw [List.map_cons, List.foldl_cons]
      cases hv : v.score column with
      | none =>
        have hscores : groupScores (v :: vs) column = groupScores vs column := by
          rw [groupScores, List.filterMap_cons, hv]
          rfl
        rw [hscores] at hwhole hsmall ⊢
        exact ih k hwhole hsmall
      | some value =>
        have hscores : groupScores (v :: vs) column = value.value :: groupScores vs column := by
          rw [groupScores, List.filterMap_cons, hv]
          rfl
        rw [hscores] at hwhole hsmall ⊢
        obtain ⟨⟨n, hn⟩, hrest⟩ := List.forall_mem_cons.mp hwhole
        have hnonneg := sum_nonneg_of_whole hrest
        rw [List.sum_cons, hn] at hsmall ⊢
        have hkn : k + n ≤ 2 ^ 53 := by
          have hcast : ((k + n : ℕ) : ℚ) ≤ ((2 ^ 53 : ℕ) : ℚ) := by
            push_cast
            linarith
          exact_mod_cast hcast
        have hstep : addScore fl k (some value) = ((k + n : ℕ) : ℚ) := by
          rw [addScore, FiniteNum.toFloat_whole hn (by omega), hn, ← Nat.cast_add]
          exact fl.exact _ hkn
        rw [hstep, ih (k + n) hrest (by push_cast; linarith)]
        push_cast
        ring
  have htotal := hfold values 0 hc.whole (by simpa using hc.small)
  simpa [groupTotal] using htotal

end Floats

section Alike
variable (fl : FloatRounding)

/-- Groups with the same scores, wall times and token rates. -/
structure Alike (vs ws : List RunValues) : Prop where
  scores : ∀ column, (groupScores vs column).Perm (groupScores ws column)
  walls : (groupWalls fl vs).Perm (groupWalls fl ws)
  rates : (groupRates fl vs).Perm (groupRates fl ws)

variable {fl} {us vs ws : List RunValues}

theorem Alike.trans (h : Alike fl us vs) (h' : Alike fl vs ws) : Alike fl us ws :=
  ⟨fun c => (h.scores c).trans (h'.scores c), h.walls.trans h'.walls, h.rates.trans h'.rates⟩

theorem Alike.of_perm (h : vs.Perm ws) : Alike fl vs ws :=
  ⟨fun _ => h.filterMap _, (h.flatMap_right _).filterMap _, (h.flatMap_right _).filterMap _⟩

theorem Alike.map {α : Type} {f g : α → RunValues} :
    ∀ {l : List α}, (∀ a ∈ l, Alike fl [f a] [g a]) → Alike fl (l.map f) (l.map g)
  | [], _ => ⟨fun _ => .refl _, .refl _, .refl _⟩
  | a :: l, h => by
    obtain ⟨hscores, hwalls, hrates⟩ := h a List.mem_cons_self
    have hrest := Alike.map fun b hb => h b (List.mem_cons_of_mem a hb)
    have hscore : ∀ (v : RunValues) (vs : List RunValues) (c : ScoreColumn),
        groupScores (v :: vs) c = groupScores [v] c ++ groupScores vs c := fun v vs c =>
      List.filterMap_append (l := [v])
    have hitems : ∀ (v : RunValues) (vs : List RunValues),
        (v :: vs).flatMap RunValues.items = [v].flatMap RunValues.items ++ vs.flatMap RunValues.items :=
      fun v vs => @List.flatMap_append _ _ [v] vs RunValues.items
    refine ⟨fun c => ?_, ?_, ?_⟩
    · rw [List.map_cons, List.map_cons, hscore, hscore (g a)]
      exact (hscores c).append (hrest.scores c)
    · rw [groupWalls, groupWalls, List.map_cons, List.map_cons, hitems, hitems (g a),
        List.filterMap_append, List.filterMap_append]
      exact hwalls.append hrest.walls
    · rw [groupRates, groupRates, List.map_cons, List.map_cons, hitems, hitems (g a),
        List.filterMap_append, List.filterMap_append]
      exact hrates.append hrest.rates

theorem meanOrNone_perm {xs ys : List ℚ} (h : xs.Perm ys) : meanOrNone fl xs = meanOrNone fl ys := by
  rw [meanOrNone, meanOrNone, average, average, h.sum_eq, h.length_eq]
  have hempty : xs.isEmpty = ys.isEmpty := by
    rw [Bool.eq_iff_iff, List.isEmpty_iff, List.isEmpty_iff]
    exact ⟨fun hx => by rw [hx] at h; exact h.nil_eq.symm, fun hy => by rw [hy] at h; exact h.eq_nil⟩
  rw [hempty]

/-- Groups that are alike have the same metrics when their scores are counts. -/
theorem groupMetrics_alike (h : Alike fl vs ws) (hc : ∀ column, Counted (groupScores ws column)) :
    groupMetrics fl vs = groupMetrics fl ws := by
  have htotal : ∀ column, groupTotal fl vs column = groupTotal fl ws column := by
    intro column
    have hvs : Counted (groupScores vs column) :=
      ⟨fun q hq => (hc column).whole q ((h.scores column).mem_iff.mp hq),
        (h.scores column).sum_eq.trans_le (hc column).small⟩
    rw [groupTotal_eq hvs, groupTotal_eq (hc column), (h.scores column).sum_eq]
  have hattempted : groupAttempted fl vs = groupAttempted fl ws := by
    simp only [groupAttempted, htotal]
  funext objective
  cases objective with
  | accuracy => simp only [groupMetrics, htotal]
  | completion => simp only [groupMetrics, htotal, hattempted]
  | latency => exact meanOrNone_perm h.walls
  | throughput => exact meanOrNone_perm h.rates

end Alike

section Stored
variable {fl : FloatRounding}

def RunValues.stored (fl : FloatRounding) (v : RunValues) : RunValues where
  score column := (v.score column).map (FiniteNum.stored fl)
  items := v.items.map fun item => (item.1.map (FiniteNum.stored fl), item.2)

/-- What storing leaves as it is: numbers that are floats, and tokens that are small. -/
structure RunValues.Storable (fl : FloatRounding) (v : RunValues) : Prop where
  score : ∀ column n, v.score column = some n → n.toFloat fl = n.value
  walls : ∀ item ∈ v.items, ∀ n, item.1 = some n → n.toFloat fl = n.value
  tokens : ∀ item ∈ v.items, ∀ t, item.2 = some t → 0 ≤ t ∧ t ≤ 2 ^ 53

theorem ratio_stored {n : FiniteNum} {t : Int} (hn : n.toFloat fl = n.value) (ht : 0 ≤ t)
    (hsmall : t ≤ 2 ^ 53) : fl.ratio t (n.stored fl) = fl.ratio t n := by
  obtain ⟨k, rfl⟩ := Int.eq_ofNat_of_zero_le ht
  have hexact : fl.nearest ((k : ℤ) : ℚ) = ((k : ℤ) : ℚ) := by
    have hk := fl.exact k (by exact_mod_cast hsmall)
    exact_mod_cast hk
  cases n with
  | int m =>
    have hm : fl.nearest (m : ℚ) = m := hn
    simp only [FiniteNum.stored, FiniteNum.toFloat, FloatRounding.ratio, hm, hexact]
  | float q => rfl

theorem RunValues.Storable.alike {v : RunValues} (h : v.Storable fl) : Alike fl [v.stored fl] [v] := by
  have hscore : ∀ column, groupScores [v.stored fl] column = groupScores [v] column := by
    intro column
    simp only [groupScores, List.filterMap_cons, List.filterMap_nil, RunValues.stored]
    cases hv : v.score column with
    | none => rfl
    | some n =>
      have hn := h.score column n hv
      simp only [Option.map_some, FiniteNum.stored, FiniteNum.value, hn]
  have hwalls : groupWalls fl [v.stored fl] = groupWalls fl [v] := by
    simp only [groupWalls, List.flatMap_cons, List.flatMap_nil, List.append_nil, RunValues.stored,
      List.filterMap_map]
    refine List.filterMap_congr fun item _ => ?_
    cases hitem : item.1 with
    | none => simp [hitem]
    | some n => simp [hitem, FiniteNum.stored, FiniteNum.toFloat]
  have hrates : groupRates fl [v.stored fl] = groupRates fl [v] := by
    simp only [groupRates, List.flatMap_cons, List.flatMap_nil, List.append_nil, RunValues.stored,
      List.filterMap_map]
    refine List.filterMap_congr fun item hitem => ?_
    obtain ⟨wall, tokens⟩ := item
    cases wall with
    | none => rfl
    | some n =>
      cases tokens with
      | none => rfl
      | some t =>
        have hn := h.walls _ hitem n rfl
        obtain ⟨ht, hsmall⟩ := h.tokens _ hitem t rfl
        have hvalue : (n.stored fl).value = n.value := hn
        simp only [Function.comp_apply, Option.map_some, itemRate, hvalue, ratio_stored hn ht hsmall]
  exact ⟨fun c => .of_eq (hscore c), .of_eq hwalls, .of_eq hrates⟩

end Stored

end Community
