import LlmHardtest.Community.Validate
import LlmHardtest.Round4.Task
set_option autoImplicit false

/-! The status of a Round 4 attempt, as the inspection, the calibration, the public export and the
report read it from the saved run. -/

namespace Campaign
open Python Round4

abbrev Pair : Type := TaskKey × Nat

structure SavedGrade where
  pair : Pair
  flags : List (Str × Json)

def SavedGrade.attemptPass (g : SavedGrade) : Bool := (Json.field g.flags "attempt_pass").truthy

def SavedGrade.modelTimedOut (g : SavedGrade) : Bool := (Json.field g.flags "model_timed_out").truthy

/-- The grades and the failed pairs of `run.json`. The loops reach every pair once, and an exception
after its grade was appended also adds an error. -/
structure SavedRun where
  grades : List SavedGrade
  errors : List Pair
  distinct : (grades.map SavedGrade.pair).Nodup

structure PairStatus where
  pair : Pair
  status : Status
  deriving DecidableEq

namespace SavedRun
variable (r : SavedRun)

def pairs : List Pair := (r.grades.map SavedGrade.pair ++ r.errors).dedup

/-- The grades that `inspect_run` lists; these are also the ones it remembers. -/
def unresolved : List SavedGrade := r.grades.filter fun g => !g.attemptPass

def inspectItems : List PairStatus :=
  r.unresolved.map (fun g => ⟨g.pair, if g.modelTimedOut then .invalid else .fail⟩) ++
    (r.errors.filter fun e => e ∉ r.unresolved.map SavedGrade.pair).map fun e => ⟨e, .invalid⟩

def releaseReady : Nat := r.grades.countP SavedGrade.attemptPass

end SavedRun

def SavedGrade.status (g : SavedGrade) : Status :=
  if g.modelTimedOut then .invalid else if g.attemptPass then .pass else .fail

abbrev Matrix : Type := List ((Str × Str) × Status)

def cellOf (p : Pair) : Str × Str := (natStr p.2, p.1.text)

def record (matrix : Matrix) (cell : Str × Str) (status : Status) : Outcome Matrix :=
  match matrix.lookup cell with
  | none => .ok (matrix ++ [(cell, status)])
  | some previous =>
      if previous = status then .ok matrix
      else .error (.valueError ("duplicate conflicting result for ".toList ++ cell.2))

def SavedRun.gradedCell (r : SavedRun) (c : Str × Str) : Bool := r.grades.any fun g => cellOf g.pair == c

def SavedRun.observations (r : SavedRun) : Outcome Matrix := do
  let matrix ← r.grades.foldlM (fun m g => record m (cellOf g.pair) g.status) []
  (r.errors.filter fun e => !r.gradedCell (cellOf e)).foldlM (fun m e => record m (cellOf e) .invalid)
    matrix

structure ExportRow where
  item : Str
  attempt : Nat
  status : Status
  deriving DecidableEq

def exportRow (p : Pair) (status : Status) : Outcome ExportRow :=
  match Community.publicText 80 (.str p.1.text) with
  | some item => .ok ⟨item, p.2, status⟩
  | none => .error (.valueError "public export found an invalid Round 4 grade identity".toList)

def exportLe (a b : ExportRow) : Prop :=
  a.attempt < b.attempt ∨ a.attempt = b.attempt ∧ (a.item < b.item ∨ a.item = b.item ∧
    (Community.Status.name a.status).toList ≤ (Community.Status.name b.status).toList)

instance : DecidableRel exportLe := fun _ _ => inferInstanceAs (Decidable (_ ∨ _))

/-- The Round 4 part of `_public_item_observations`. An error whose task is no public text would be
left out, but every task name is. -/
def SavedRun.exportRows (r : SavedRun) : Outcome (List ExportRow) := do
  let graded ← r.grades.mapM fun g => exportRow g.pair g.status
  let failed := r.errors.filterMap fun e =>
    match Community.publicText 80 (.str e.1.text) with
    | some item =>
        if (item, e.2) ∈ graded.map fun row => (row.item, row.attempt) then none
        else some (⟨item, e.2, .invalid⟩ : ExportRow)
    | none => none
  return (graded ++ failed).insertionSort exportLe

/-- What the inspection says of a pair: the status it is listed with, and `PASS` if it is not. -/
def SavedRun.InspectedAs (r : SavedRun) (p : Pair) (status : Status) : Prop :=
  (∀ i ∈ r.inspectItems, i.pair = p → i.status = status) ∧
    ((∀ i ∈ r.inspectItems, i.pair ≠ p) → status = .pass)

def ExportedAs (rows : List ExportRow) (p : Pair) (status : Status) : Prop :=
  (∃ row ∈ rows, row.item = p.1.text ∧ row.attempt = p.2) ∧
    ∀ row ∈ rows, row.item = p.1.text → row.attempt = p.2 → row.status = status

/-- One status of each pair for all readers, with as many passes as the report counts. -/
def SavedRun.StatusesAgree (r : SavedRun) : Prop :=
  ∃ (status : Pair → Status) (matrix : Matrix) (rows : List ExportRow),
    r.observations = .ok matrix ∧ r.exportRows = .ok rows ∧
    (∀ p ∈ r.pairs, r.InspectedAs p (status p) ∧ matrix.lookup (cellOf p) = some (status p) ∧
      ExportedAs rows p (status p)) ∧
    r.releaseReady = r.pairs.countP fun p => status p = .pass

/-! What the calibration and the export make of a saved run. -/

theorem publicText_task (t : TaskKey) : Community.publicText 80 (.str t.text) = some t.text := by
  cases t <;> decide +kernel

theorem text_injective : Function.Injective TaskKey.text := by
  intro a b h
  cases a <;> cases b <;> first | rfl | exact absurd h (by decide)

theorem cellOf_injective : Function.Injective cellOf := by
  intro a b h
  obtain ⟨h1, h2⟩ := Prod.mk.inj h
  exact Prod.ext (text_injective h2) (natStr_injective h1)

def Matrix.Follows (f : Str × Str → Status) (m : Matrix) : Prop :=
  ∀ cell status, m.lookup cell = some status → status = f cell

theorem lookup_append_single (m : Matrix) (cell c : Str × Str) (status : Status) :
    (m ++ [(cell, status)]).lookup c =
      (m.lookup c).or (if c = cell then some status else none) := by
  induction m with
  | nil =>
    simp only [List.nil_append, List.lookup_cons, List.lookup_nil, Option.none_or]
    by_cases h : c = cell
    · simp [h]
    · rw [beq_eq_false_iff_ne.mpr h, if_neg h]
  | cons e m ih =>
    rw [List.cons_append, List.lookup_cons, List.lookup_cons, ih]
    cases c == e.1 <;> simp

theorem record_follows {f : Str × Str → Status} {m : Matrix} (hm : m.Follows f) (cell : Str × Str) :
    ∃ m', record m cell (f cell) = .ok m' ∧ m'.Follows f ∧
      ∀ c, (m'.lookup c).isSome = ((m.lookup c).isSome || decide (c = cell)) := by
  unfold record
  cases h : m.lookup cell with
  | none =>
    refine ⟨_, rfl, ?_, ?_⟩
    · intro c status hc
      rw [lookup_append_single] at hc
      by_cases hcell : c = cell
      · subst hcell
        rw [h, Option.none_or, if_pos rfl] at hc
        injection hc with hc
        exact hc.symm
      · rw [if_neg hcell, Option.or_none] at hc
        exact hm c status hc
    · intro c
      rw [lookup_append_single, Option.isSome_or]
      by_cases hcell : c = cell <;> simp [hcell]
  | some previous =>
    have hprevious : previous = f cell := hm cell previous h
    simp only [hprevious, if_true]
    refine ⟨m, rfl, hm, fun c => ?_⟩
    by_cases hcell : c = cell
    · subst hcell
      simp [h]
    · simp [hcell]

theorem foldlM_record {α : Type} {f : Str × Str → Status} (cell : α → Str × Str)
    (status : α → Status) (xs : List α) (hxs : ∀ x ∈ xs, status x = f (cell x)) {m : Matrix}
    (hm : m.Follows f) :
    ∃ m', xs.foldlM (fun m x => record m (cell x) (status x)) m = .ok m' ∧ m'.Follows f ∧
      ∀ c, (m'.lookup c).isSome = ((m.lookup c).isSome || decide (c ∈ xs.map cell)) := by
  induction xs generalizing m with
  | nil => exact ⟨m, rfl, hm, by simp⟩
  | cons x xs ih =>
    obtain ⟨m₁, hrecord, hm₁, hsome₁⟩ := record_follows hm (cell x)
    obtain ⟨m₂, hfold, hm₂, hsome₂⟩ := ih (fun y hy => hxs y (List.mem_cons_of_mem x hy)) hm₁
    refine ⟨m₂, ?_, hm₂, fun c => ?_⟩
    · rw [List.foldlM_cons, hxs x List.mem_cons_self, hrecord]
      exact hfold
    · rw [hsome₂, hsome₁, List.map_cons]
      simp [Bool.or_assoc]

namespace SavedRun
variable (r : SavedRun)

def statusOf (p : Pair) : Status :=
  ((r.grades.find? fun g => g.pair = p).map SavedGrade.status).getD .invalid

variable {r}

theorem statusOf_grade {g : SavedGrade} (hg : g ∈ r.grades) : r.statusOf g.pair = g.status := by
  have hfind : r.grades.find? (fun g' => g'.pair = g.pair) = some g := by
    have hsome : (r.grades.find? fun g' => g'.pair = g.pair).isSome := by
      rw [List.find?_isSome]
      exact ⟨g, hg, by simp⟩
    obtain ⟨g', hg'⟩ := Option.isSome_iff_exists.mp hsome
    have hpair : g'.pair = g.pair := by simpa using List.find?_some hg'
    rw [hg', List.inj_on_of_nodup_map r.distinct (List.mem_of_find?_eq_some hg') hg hpair]
  rw [statusOf, hfind]
  rfl

theorem statusOf_error {p : Pair} (hp : p ∉ r.grades.map SavedGrade.pair) :
    r.statusOf p = .invalid := by
  have hfind : r.grades.find? (fun g => g.pair = p) = none := by
    rw [List.find?_eq_none]
    intro g hg hpair
    exact hp (List.mem_map.mpr ⟨g, hg, by simpa using hpair⟩)
  rw [statusOf, hfind]
  rfl

theorem mem_pairs {p : Pair} : p ∈ r.pairs ↔ p ∈ r.grades.map SavedGrade.pair ∨ p ∈ r.errors := by
  rw [pairs, List.mem_dedup, List.mem_append]

/-- The calibration records every pair with its status. -/
theorem gradedCell_iff {p : Pair} :
    r.gradedCell (cellOf p) = true ↔ p ∈ r.grades.map SavedGrade.pair := by
  rw [gradedCell, List.any_eq_true, List.mem_map]
  constructor
  · intro ⟨g, hg, hcell⟩
    exact ⟨g, hg, cellOf_injective (eq_of_beq hcell)⟩
  · intro ⟨g, hg, hpair⟩
    exact ⟨g, hg, by simp [hpair]⟩

theorem observations_spec : ∃ matrix, r.observations = .ok matrix ∧
    ∀ p ∈ r.pairs, matrix.lookup (cellOf p) = some (r.statusOf p) := by
  classical
  -- the status by cell; cells of different pairs differ
  let f : Str × Str → Status := fun c =>
    if h : ∃ p, cellOf p = c then r.statusOf h.choose else .invalid
  have hf : ∀ p, f (cellOf p) = r.statusOf p := by
    intro p
    have hex : ∃ q, cellOf q = cellOf p := ⟨p, rfl⟩
    simp only [f, dif_pos hex]
    rw [cellOf_injective hex.choose_spec]
  have hnil : Matrix.Follows f [] := fun c status hc => by simp at hc
  obtain ⟨m₁, hgrades, hm₁, hsome₁⟩ := foldlM_record (fun g => cellOf g.pair) SavedGrade.status r.grades
    (fun g hg => by rw [hf, statusOf_grade hg]) hnil
  obtain ⟨m₂, herrors, hm₂, hsome₂⟩ := foldlM_record cellOf (fun _ => Status.invalid)
    (r.errors.filter fun e => !r.gradedCell (cellOf e))
    (fun e he => by
      have hnot := (List.mem_filter.mp he).2
      rw [hf, statusOf_error]
      intro hmem
      rw [gradedCell_iff.mpr hmem] at hnot
      cases hnot) hm₁
  refine ⟨m₂, ?_, ?_⟩
  · rw [observations, hgrades]
    exact herrors
  · intro p hp
    have hsome : (m₂.lookup (cellOf p)).isSome = true := by
      rw [hsome₂, hsome₁]
      by_cases hg : p ∈ r.grades.map SavedGrade.pair
      · obtain ⟨g, hmem, rfl⟩ := List.mem_map.mp hg
        have hcell : cellOf g.pair ∈ r.grades.map fun g => cellOf g.pair :=
          List.mem_map.mpr ⟨g, hmem, rfl⟩
        simp only [hcell, decide_true, Bool.or_true, Bool.true_or]
      · have he : p ∈ r.errors := (mem_pairs.mp hp).resolve_left hg
        have hnot : (!r.gradedCell (cellOf p)) = true := by
          rw [Bool.not_eq_true', ← Bool.not_eq_true, gradedCell_iff]
          exact hg
        have hcell : cellOf p ∈ (r.errors.filter fun e => !r.gradedCell (cellOf e)).map cellOf :=
          List.mem_map.mpr ⟨p, List.mem_filter.mpr ⟨he, hnot⟩, rfl⟩
        simp only [hcell, decide_true, Bool.or_true]
    obtain ⟨status, hstatus⟩ := Option.isSome_iff_exists.mp hsome
    rw [hstatus, hm₂ _ _ hstatus, hf]

theorem exportRow_ok (p : Pair) (status : Status) :
    exportRow p status = .ok ⟨p.1.text, p.2, status⟩ := by
  rw [exportRow, publicText_task]

/-- The export has a row for each grade and for each error that is not graded. -/
theorem exportRows_spec : ∃ rows, r.exportRows = .ok rows ∧ ∀ row, row ∈ rows ↔
    ∃ p ∈ r.pairs, row = ⟨p.1.text, p.2, r.statusOf p⟩ := by
  have hgraded : r.grades.mapM (fun g => exportRow g.pair g.status) =
      .ok (r.grades.map fun g => ⟨g.pair.1.text, g.pair.2, g.status⟩) := by
    simp only [exportRow_ok]
    exact List.mapM_pure
  refine ⟨_, by rw [exportRows, hgraded]; rfl, fun row => ?_⟩
  rw [List.mem_insertionSort, List.mem_append, List.mem_filterMap, List.mem_map]
  simp only [publicText_task, List.map_map, Function.comp_def]
  constructor
  · intro h
    rcases h with ⟨g, hg, rfl⟩ | ⟨e, he, hrow⟩
    · exact ⟨g.pair, mem_pairs.mpr (.inl (List.mem_map.mpr ⟨g, hg, rfl⟩)), by rw [statusOf_grade hg]⟩
    · split at hrow
      · cases hrow
      · rename_i hnot
        cases hrow
        refine ⟨e, mem_pairs.mpr (.inr he), ?_⟩
        rw [statusOf_error]
        intro hmem
        obtain ⟨g, hg, hpair⟩ := List.mem_map.mp hmem
        exact hnot (List.mem_map.mpr ⟨g, hg, by rw [hpair]⟩)
  · intro ⟨p, hp, hrow⟩
    subst hrow
    by_cases hg : p ∈ r.grades.map SavedGrade.pair
    · obtain ⟨g, hmem, rfl⟩ := List.mem_map.mp hg
      exact .inl ⟨g, hmem, by rw [statusOf_grade hmem]⟩
    · refine .inr ⟨p, (mem_pairs.mp hp).resolve_left hg, ?_⟩
      rw [statusOf_error hg, if_neg]
      intro hmem
      obtain ⟨g, hmem, hpair⟩ := List.mem_map.mp hmem
      obtain ⟨h1, h2⟩ := Prod.mk.inj hpair
      exact hg (List.mem_map.mpr ⟨g, hmem, Prod.ext (text_injective h1) h2⟩)

theorem exportedAs_iff {rows : List ExportRow} (hrows : ∀ row, row ∈ rows ↔
    ∃ p ∈ r.pairs, row = ⟨p.1.text, p.2, r.statusOf p⟩) {p : Pair} (hp : p ∈ r.pairs)
    (status : Status) : ExportedAs rows p status ↔ status = r.statusOf p := by
  constructor
  · intro h
    exact (h.2 _ ((hrows _).mpr ⟨p, hp, rfl⟩) rfl rfl).symm
  · intro h
    refine ⟨⟨_, (hrows _).mpr ⟨p, hp, rfl⟩, rfl, rfl⟩, fun row hrow h1 h2 => ?_⟩
    obtain ⟨q, -, rfl⟩ := (hrows row).mp hrow
    have hq : q = p := Prod.ext (text_injective h1) h2
    rw [h, hq]

/-! What the inspection lists. -/

theorem mem_inspectItems {i : PairStatus} : i ∈ r.inspectItems ↔
    (∃ g ∈ r.grades, g.attemptPass = false ∧ i = ⟨g.pair, g.status⟩) ∨
      ∃ e ∈ r.errors, e ∉ r.unresolved.map SavedGrade.pair ∧ i = ⟨e, .invalid⟩ := by
  rw [inspectItems, List.mem_append, List.mem_map, List.mem_map]
  refine or_congr ⟨fun h => ?_, fun h => ?_⟩ ⟨fun h => ?_, fun h => ?_⟩
  · obtain ⟨g, hg, rfl⟩ := h
    obtain ⟨hmem, hfail⟩ := List.mem_filter.mp hg
    have hfail' : g.attemptPass = false := by simpa using hfail
    exact ⟨g, hmem, hfail', by rw [SavedGrade.status, hfail']; rfl⟩
  · obtain ⟨g, hg, hfail, rfl⟩ := h
    exact ⟨g, List.mem_filter.mpr ⟨hg, by rw [hfail]; rfl⟩, by rw [SavedGrade.status, hfail]; rfl⟩
  · obtain ⟨e, he, rfl⟩ := h
    obtain ⟨hmem, hnot⟩ := List.mem_filter.mp he
    exact ⟨e, hmem, of_decide_eq_true hnot, rfl⟩
  · obtain ⟨e, he, hnot, rfl⟩ := h
    exact ⟨e, List.mem_filter.mpr ⟨he, decide_eq_true hnot⟩, rfl⟩

theorem pair_inj {g g' : SavedGrade} (hg : g ∈ r.grades) (hg' : g' ∈ r.grades)
    (h : g.pair = g'.pair) : g = g' :=
  List.inj_on_of_nodup_map r.distinct hg hg' h

theorem inspectedAs_failed {g : SavedGrade} (hg : g ∈ r.grades) (hfail : g.attemptPass = false) :
    r.InspectedAs g.pair g.status := by
  have hlisted : (⟨g.pair, g.status⟩ : PairStatus) ∈ r.inspectItems :=
    mem_inspectItems.mpr (.inl ⟨g, hg, hfail, rfl⟩)
  refine ⟨fun i hi hpair => ?_, fun h => absurd rfl (h _ hlisted)⟩
  rcases mem_inspectItems.mp hi with ⟨g', hg', -, rfl⟩ | ⟨e, -, hnot, rfl⟩
  · rw [pair_inj hg' hg hpair]
  · have he : e = g.pair := hpair
    exact absurd (List.mem_map.mpr ⟨g, List.mem_filter.mpr ⟨hg, by rw [hfail]; rfl⟩, he.symm⟩) hnot

theorem inspectedAs_error {p : Pair} (hp : p ∈ r.errors)
    (hgrade : p ∉ r.grades.map SavedGrade.pair) : r.InspectedAs p .invalid := by
  have hunresolved : p ∉ r.unresolved.map SavedGrade.pair := by
    intro hmem
    obtain ⟨g, hg, hpair⟩ := List.mem_map.mp hmem
    exact hgrade (List.mem_map.mpr ⟨g, (List.mem_filter.mp hg).1, hpair⟩)
  refine ⟨fun i hi hpair => ?_, fun h => ?_⟩
  · rcases mem_inspectItems.mp hi with ⟨g, hg, -, rfl⟩ | ⟨e, -, -, rfl⟩
    · exact absurd (List.mem_map.mpr ⟨g, hg, hpair⟩) hgrade
    · rfl
  · exact absurd rfl (h _ (mem_inspectItems.mpr (.inr ⟨p, hp, hunresolved, rfl⟩)))

theorem passed_listed {g : SavedGrade} (hg : g ∈ r.grades) (hpass : g.attemptPass = true)
    {i : PairStatus} : (i ∈ r.inspectItems ∧ i.pair = g.pair) ↔
      g.pair ∈ r.errors ∧ i = ⟨g.pair, .invalid⟩ := by
  have hunresolved : g.pair ∉ r.unresolved.map SavedGrade.pair := by
    intro hmem
    obtain ⟨g', hg', hpair⟩ := List.mem_map.mp hmem
    obtain ⟨hmem', hfail⟩ := List.mem_filter.mp hg'
    rw [pair_inj hmem' hg hpair, hpass] at hfail
    cases hfail
  constructor
  · intro ⟨hi, hpair⟩
    rcases mem_inspectItems.mp hi with ⟨g', hg', hfail, rfl⟩ | ⟨e, he, -, rfl⟩
    · rw [pair_inj hg' hg hpair, hpass] at hfail
      cases hfail
    · have he' : e = g.pair := hpair
      subst he'
      exact ⟨he, rfl⟩
  · intro ⟨he, hi⟩
    subst hi
    exact ⟨mem_inspectItems.mpr (.inr ⟨g.pair, he, hunresolved, rfl⟩), rfl⟩

theorem countP_pass : r.pairs.countP (fun p => r.statusOf p = .pass) =
    r.grades.countP fun g => g.status = .pass := by
  have hperm : (r.pairs.filter fun p => r.statusOf p = .pass).Perm
      ((r.grades.filter fun g => g.status = .pass).map SavedGrade.pair) := by
    refine (List.perm_ext_iff_of_nodup ((List.nodup_dedup _).filter _) ?_).mpr fun p => ?_
    · exact r.distinct.sublist (List.filter_sublist.map _)
    · rw [List.mem_filter, List.mem_map]
      constructor
      · intro ⟨_, hpass⟩
        have hpass' : r.statusOf p = .pass := by simpa using hpass
        by_cases hg : p ∈ r.grades.map SavedGrade.pair
        · obtain ⟨g, hmem, rfl⟩ := List.mem_map.mp hg
          rw [statusOf_grade hmem] at hpass'
          exact ⟨g, List.mem_filter.mpr ⟨hmem, by simpa using hpass'⟩, rfl⟩
        · rw [statusOf_error hg] at hpass'
          cases hpass'
      · intro ⟨g, hg, hpair⟩
        subst hpair
        obtain ⟨hmem, hpass⟩ := List.mem_filter.mp hg
        exact ⟨mem_pairs.mpr (.inl (List.mem_map.mpr ⟨g, hmem, rfl⟩)), by
          rw [statusOf_grade hmem]; exact hpass⟩
  rw [List.countP_eq_length_filter, List.countP_eq_length_filter, hperm.length_eq, List.length_map]

end SavedRun

theorem countP_eq_iff {α : Type} {p q : α → Bool} (hpq : ∀ a, p a = true → q a = true)
    (xs : List α) : xs.countP q = xs.countP p ↔ ∀ a ∈ xs, q a = true → p a = true := by
  induction xs with
  | nil => simp
  | cons a xs ih =>
    have hle : xs.countP p ≤ xs.countP q := List.countP_mono_left fun b _ => hpq b
    rw [List.countP_cons, List.countP_cons, List.forall_mem_cons, ← ih]
    by_cases hp : p a = true
    · simp [hp, hpq a hp]
    · by_cases hq : q a = true
      · simp only [hp, hq, Bool.false_eq_true, if_false, if_true, imp_false, not_true, false_and,
          iff_false]
        omega
      · simp [hp, hq]

theorem SavedGrade.status_pass {g : SavedGrade} :
    g.status = .pass ↔ g.attemptPass = true ∧ g.modelTimedOut = false := by
  unfold SavedGrade.status
  cases g.modelTimedOut <;> cases g.attemptPass <;> simp

/-- The readers agree on a saved run exactly when no passed grade has timed out or has also failed. -/
theorem statusesAgree_iff (r : SavedRun) : r.StatusesAgree ↔
    ∀ g ∈ r.grades, g.attemptPass = true → g.modelTimedOut = false ∧ g.pair ∉ r.errors := by
  obtain ⟨matrix, hmatrix, hcells⟩ := r.observations_spec
  obtain ⟨rows, hrows, hrow⟩ := r.exportRows_spec
  have hcount : r.releaseReady = r.pairs.countP (fun p => r.statusOf p = .pass) ↔
      ∀ g ∈ r.grades, g.attemptPass = true → g.modelTimedOut = false := by
    rw [SavedRun.countP_pass, SavedRun.releaseReady, countP_eq_iff]
    · refine forall₂_congr fun g _ => imp_congr_right fun hpass => ?_
      simp [SavedGrade.status_pass, hpass]
    · intro g hg
      exact (SavedGrade.status_pass.mp (by simpa using hg)).1
  constructor
  · intro ⟨status, matrix', rows', hmatrix', hrows', hagree, hready⟩ g hg hpass
    rw [hmatrix] at hmatrix'
    rw [hrows] at hrows'
    cases hmatrix'
    cases hrows'
    have hstatus : ∀ p ∈ r.pairs, status p = r.statusOf p := fun p hp =>
      (SavedRun.exportedAs_iff hrow hp _).mp (hagree p hp).2.2
    have hready' : r.releaseReady = r.pairs.countP fun p => r.statusOf p = .pass := by
      rw [hready]
      exact List.countP_congr fun p hp => by rw [hstatus p hp]
    have htime := hcount.mp hready' g hg hpass
    refine ⟨htime, fun herror => ?_⟩
    have hp : g.pair ∈ r.pairs := SavedRun.mem_pairs.mpr (.inr herror)
    have hlisted := (SavedRun.passed_listed hg hpass).mpr ⟨herror, rfl⟩
    have hinvalid := (hagree _ hp).1.1 _ hlisted.1 rfl
    rw [hstatus _ hp, SavedRun.statusOf_grade hg, SavedGrade.status_pass.mpr ⟨hpass, htime⟩] at hinvalid
    cases hinvalid
  · intro h
    refine ⟨r.statusOf, matrix, rows, hmatrix, hrows, fun p hp => ⟨?_, hcells p hp,
      (SavedRun.exportedAs_iff hrow hp _).mpr rfl⟩, hcount.mpr fun g hg hpass => (h g hg hpass).1⟩
    by_cases hgrade : p ∈ r.grades.map SavedGrade.pair
    · obtain ⟨g, hg, rfl⟩ := List.mem_map.mp hgrade
      rw [SavedRun.statusOf_grade hg]
      cases hpass : g.attemptPass with
      | false => exact SavedRun.inspectedAs_failed hg hpass
      | true =>
        obtain ⟨htime, herror⟩ := h g hg hpass
        refine ⟨fun i hi hpair => ?_, fun _ => SavedGrade.status_pass.mpr ⟨hpass, htime⟩⟩
        exact absurd ((SavedRun.passed_listed hg hpass).mp ⟨hi, hpair⟩).1 herror
    · rw [SavedRun.statusOf_error hgrade]
      exact SavedRun.inspectedAs_error ((SavedRun.mem_pairs.mp hp).resolve_left hgrade) hgrade

def passedAndFailed : SavedRun where
  grades := [⟨(.q27Race, 1), [("attempt_pass".toList, .bool true)]⟩]
  errors := [(.q27Race, 1)]
  distinct := by decide

theorem passedAndFailed_disagree : ¬ passedAndFailed.StatusesAgree := by
  intro ⟨status, matrix, rows, hmatrix, _, hagree, _⟩
  have hp : (.q27Race, 1) ∈ passedAndFailed.pairs := by decide
  obtain ⟨hinspected, hcell, -⟩ := hagree _ hp
  have hinvalid : Status.invalid = status (.q27Race, 1) :=
    hinspected.1 ⟨(.q27Race, 1), .invalid⟩ (by decide) rfl
  have hpass : passedAndFailed.observations =
      .ok [(cellOf (.q27Race, 1), Status.pass)] := rfl
  rw [hpass] at hmatrix
  cases hmatrix
  rw [← hinvalid] at hcell
  exact absurd hcell (by decide)

end Campaign
