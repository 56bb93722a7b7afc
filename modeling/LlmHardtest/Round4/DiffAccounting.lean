import LlmHardtest.Round4.AddedLines
set_option autoImplicit false

/-! What the difference of two trees accounts for: the paths it names and the lines it counts. -/

namespace Round4
open Python Python.Difflib

def commonDifference (old new : Bytes) : Nat :=
  match readText old, readText new with
  | some a, some b => if a = b then 0 else (removedLines a b).length + (insertedLines a b).length
  | _, _ => if old = new then 0 else 1

def lineDifference : Option Bytes → Option Bytes → Nat
  | some old, some new => commonDifference old new
  | some content, none => ((readText content).map List.length).getD 1
  | none, some content => ((readText content).map List.length).getD 1
  | none, none => 0

def walkedPaths (pristine model : Tree) : List Str :=
  walkFiles pristine ++ (walkFiles model).filter fun rel => rel ∉ walkFiles pristine

/-- The paths that differ, and no others, are reported, and the lines are the removed and added
ones. -/
structure AccountingComplete (pristine model : Tree) : Prop where
  touched : ∀ rel, excludedReason rel = none →
    pristine.files.lookup rel ≠ model.files.lookup rel → rel ∈ (diffRepos pristine model).touched
  excluded : ∀ rel, excludedReason rel ≠ none →
    pristine.files.lookup rel ≠ model.files.lookup rel →
      rel ∈ (diffRepos pristine model).excludedPaths.map Prod.fst
  unchanged : ∀ rel, pristine.files.lookup rel = model.files.lookup rel →
    rel ∉ (diffRepos pristine model).touched ∧
      rel ∉ (diffRepos pristine model).excludedPaths.map Prod.fst
  changedLines : (diffRepos pristine model).changedLines =
    ((walkedPaths pristine model).map fun rel =>
      lineDifference (pristine.files.lookup rel) (model.files.lookup rel)).sum

/-- With its mark, no removed or added line begins as the line of a file header. -/
structure PlainDifference (a b : List Str) : Prop where
  removed : ∀ l ∈ removedLines a b, ¬ ['-', '-'] <+: l.2
  inserted : ∀ l ∈ insertedLines a b, ¬ ['+', '+'] <+: l

/-- Text files whose bytes differ differ in their lines as read, and their differences are plain. -/
structure PlainEdits (pristine model : Tree) : Prop where
  apart : ∀ rel ∈ walkFiles pristine, rel ∈ walkFiles model →
    readText (pristine.read rel) ≠ none → readText (pristine.read rel) = readText (model.read rel) →
      pristine.read rel = model.read rel
  plain : ∀ rel ∈ walkFiles pristine, rel ∈ walkFiles model → ∀ a b,
    readText (pristine.read rel) = some a → readText (model.read rel) = some b → a ≠ b →
      PlainDifference a b

/-! The lines counted in a rendered difference. -/

section Count
variable {a b : List Str} {rel : Str}

def isCounted (line : Str) : Bool := isAdded line || isRemoved line

theorem isCounted_minus (x : Str) : isCounted ('-' :: x) = !startsWith x ['-', '-'] := by
  simp [isCounted, isAdded, isRemoved, startsWith]

theorem isCounted_plus (x : Str) : isCounted ('+' :: x) = !startsWith x ['+', '+'] := by
  simp [isCounted, isAdded, isRemoved, startsWith]

def countedOf (a b : List Str) (c : Opcode) : List Str :=
  (minusPart a c ++ plusPart b c).filter isCounted

theorem countedOf_equal (c : Opcode) (hc : c.tag = .equal) : countedOf a b c = [] := by
  simp [countedOf, minusPart, plusPart, hc]

theorem filter_counted_renderCode (c : Opcode) :
    (renderCode a b c).filter isCounted = countedOf a b c := by
  unfold renderCode
  split
  · rename_i hc
    rw [countedOf_equal c hc, List.filter_eq_nil_iff]
    intro l hl
    obtain ⟨x, _, rfl⟩ := List.mem_map.mp hl
    simp [isCounted, isAdded, isRemoved, startsWith]
  · rfl

theorem filter_counted_renderGroup (g : List Opcode) :
    (renderGroup a b g).filter isCounted = g.flatMap (countedOf a b) := by
  have hhead : isCounted (hunkHeader g) = false := by
    unfold hunkHeader
    simp [isCounted, isAdded, isRemoved, startsWith]
  rw [renderGroup, List.filter_cons_of_neg (by simp [hhead]), List.filter_flatMap]
  exact List.flatMap_congr fun c _ => filter_counted_renderCode c

theorem filter_counted_diffLines :
    (diffLines rel a b).filter isCounted = (getOpcodes a b).flatMap (countedOf a b) := by
  have hflat : (groupsOf a b).flatten.flatMap (countedOf a b) =
      (getOpcodes a b).flatMap (countedOf a b) :=
    flatMap_groups (fun c hc => countedOf_equal c hc) 3 (getOpcodes a b)
  have hgroups : ((groupsOf a b).flatMap (renderGroup a b)).filter isCounted =
      (groupsOf a b).flatten.flatMap (countedOf a b) := by
    rw [List.filter_flatMap, List.flatMap_def, List.flatMap_def, List.map_flatten,
      List.flatten_flatten, List.map_map]
    refine congrArg List.flatten (List.map_congr_left fun g _ => ?_)
    rw [Function.comp, filter_counted_renderGroup, List.flatMap_def]
  unfold diffLines unifiedDiff
  simp only
  rw [← hflat, ← hgroups]
  split
  · rename_i hempty
    rw [List.isEmpty_iff.mp hempty]
    rfl
  · rw [List.filter_append]
    simp [fileHeader, isCounted, isAdded, isRemoved, startsWith]

theorem length_countedOf (c : Opcode) : (countedOf a b c).length =
    (if c.tag = .replace ∨ c.tag = .delete then (slice a c.i1 c.i2).zipIdx c.i1 |>.map Prod.swap
      else []).countP (fun l => !startsWith l.2 ['-', '-']) +
    (if c.tag = .replace ∨ c.tag = .insert then slice b c.j1 c.j2 else []).countP
      (fun l => !startsWith l ['+', '+']) := by
  rw [countedOf, ← List.countP_eq_length_filter, List.countP_append]
  congr 1
  · unfold minusPart
    split
    · have hsnd : slice a c.i1 c.i2 = ((slice a c.i1 c.i2).zipIdx c.i1).map Prod.fst := by
        rw [List.zipIdx_map_fst]
      rw [List.countP_map, List.countP_map]
      conv_lhs => rw [hsnd, List.countP_map]
      exact List.countP_congr fun l _ => by simp [isCounted_minus]
    · rfl
  · unfold plusPart
    split
    · rw [List.countP_map]
      exact List.countP_congr fun l _ => by simp [isCounted_plus]
    · rfl

/-- The removed and added lines are counted unless they continue their mark to that of a header. -/
theorem countChanged_eq : countChanged (diffLines rel a b) =
    (removedLines a b).countP (fun l => !startsWith l.2 ['-', '-']) +
      (insertedLines a b).countP fun l => !startsWith l ['+', '+'] := by
  have hfilter : countChanged (diffLines rel a b) =
      ((diffLines rel a b).filter isCounted).length := rfl
  rw [hfilter, filter_counted_diffLines, List.length_flatMap, removedLines, insertedLines,
    List.countP_flatMap, List.countP_flatMap, ← List.sum_map_add]
  exact congrArg List.sum (List.map_congr_left fun c _ => length_countedOf c)

theorem countChanged_le :
    countChanged (diffLines rel a b) ≤ (removedLines a b).length + (insertedLines a b).length := by
  rw [countChanged_eq]
  exact Nat.add_le_add List.countP_le_length List.countP_le_length

/-- All of them are counted in plain differences only. -/
theorem countChanged_all_iff : countChanged (diffLines rel a b) =
    (removedLines a b).length + (insertedLines a b).length ↔ PlainDifference a b := by
  have hremoved : (removedLines a b).countP (fun l => !startsWith l.2 ['-', '-']) =
      (removedLines a b).length ↔ ∀ l ∈ removedLines a b, ¬ ['-', '-'] <+: l.2 := by
    rw [List.countP_eq_length]
    refine forall₂_congr fun l _ => ?_
    rw [Bool.not_eq_true', ← Bool.not_eq_true, startsWith_iff]
  have hinserted : (insertedLines a b).countP (fun l => !startsWith l ['+', '+']) =
      (insertedLines a b).length ↔ ∀ l ∈ insertedLines a b, ¬ ['+', '+'] <+: l := by
    rw [List.countP_eq_length]
    refine forall₂_congr fun l _ => ?_
    rw [Bool.not_eq_true', ← Bool.not_eq_true, startsWith_iff]
  have h1 : (removedLines a b).countP (fun l => !startsWith l.2 ['-', '-']) ≤
      (removedLines a b).length := List.countP_le_length
  have h2 : (insertedLines a b).countP (fun l => !startsWith l ['+', '+']) ≤
      (insertedLines a b).length := List.countP_le_length
  rw [countChanged_eq]
  constructor
  · intro h
    exact ⟨hremoved.mp (by omega), hinserted.mp (by omega)⟩
  · intro h
    rw [hremoved.mpr h.removed, hinserted.mpr h.inserted]

end Count

/-! One file that both trees have. -/

section Common
variable {old new : Bytes} {rel : Str}

def countedCommon (rel : Str) (old new : Bytes) : Nat :=
  ((commonChange rel old new).map FileChange.changed).getD 0

theorem commonChange_same (rel : Str) (content : Bytes) : commonChange rel content content = none := by
  unfold commonChange
  cases readText content <;> simp

theorem countedCommon_le : countedCommon rel old new ≤ commonDifference old new := by
  unfold countedCommon commonDifference commonChange
  cases readText old with
  | none => cases readText new <;> by_cases h : old = new <;> simp [h]
  | some a =>
    cases readText new with
    | none => by_cases h : old = new <;> simp [h]
    | some b =>
      by_cases h : a = b
      · simp [h]
      · simpa [h] using countChanged_le

theorem countedCommon_all_iff : countedCommon rel old new = commonDifference old new ↔
    ∀ a b, readText old = some a → readText new = some b → a ≠ b → PlainDifference a b := by
  unfold countedCommon commonDifference commonChange
  cases readText old with
  | none => cases readText new <;> by_cases h : old = new <;> simp [h]
  | some a =>
    cases readText new with
    | none => by_cases h : old = new <;> simp [h]
    | some b =>
      by_cases h : a = b
      · simp [h]
      · simp only [if_neg h, Option.map_some, Option.getD_some, countChanged_all_iff, Option.some.injEq]
        constructor
        · rintro hplain _ _ rfl rfl _
          exact hplain
        · intro hplain
          exact hplain a b rfl rfl h

theorem commonChange_isSome_iff : (commonChange rel old new).isSome = true ↔
    old ≠ new ∧ (readText old ≠ none → readText old ≠ readText new) := by
  by_cases hsame : old = new
  · subst hsame
    simp [commonChange_same]
  · unfold commonChange
    cases readText old with
    | none => simp [hsame]
    | some a =>
      cases readText new with
      | none => simp [hsame]
      | some b => by_cases h : a = b <;> simp [hsame, h]

end Common

/-! The whole trees. -/

section Trees
variable {pristine model : Tree} {rel : Str}

theorem mem_touched : rel ∈ (diffRepos pristine model).touched ↔
    (rel ∈ walkFiles model ∧ rel ∉ walkFiles pristine) ∨
      (rel ∈ walkFiles pristine ∧ rel ∉ walkFiles model) ∨
      rel ∈ walkFiles pristine ∧ rel ∈ walkFiles model ∧
        (commonChange rel (pristine.read rel) (model.read rel)).isSome = true := by
  have hmodified : rel ∈ (diffRepos pristine model).filesModified ↔ _ := mem_filesModified
  simp only [diffRepos] at hmodified
  simp only [diffRepos, sortedNames, (List.perm_insertionSort _ _).mem_iff, List.mem_dedup,
    List.mem_append, List.mem_filter, decide_eq_true_eq, hmodified, or_assoc]

theorem mem_excludedPaths : rel ∈ (diffRepos pristine model).excludedPaths.map Prod.fst ↔
    (excludedReason rel).isSome = true ∧
      ((rel ∈ model.names ∧ rel ∉ pristine.names) ∨ (rel ∈ pristine.names ∧ rel ∉ model.names) ∨
        rel ∈ pristine.names ∧ rel ∈ model.names ∧ pristine.read rel ≠ model.read rel) := by
  have hfst : (fun r : Str => (r, excludedReason r).1) = id := rfl
  simp only [diffRepos, List.map_map, Function.comp_def, hfst, List.map_id, List.mem_append,
    List.mem_filter, decide_eq_true_eq, mem_walkExcluded]
  tauto

theorem lookup_ne_iff : pristine.files.lookup rel ≠ model.files.lookup rel ↔
    (rel ∈ model.names ∧ rel ∉ pristine.names) ∨ (rel ∈ pristine.names ∧ rel ∉ model.names) ∨
      rel ∈ pristine.names ∧ rel ∈ model.names ∧ pristine.read rel ≠ model.read rel := by
  have hnone : ∀ t : Tree, rel ∉ t.names → t.files.lookup rel = none := fun t ht =>
    Option.eq_none_iff_forall_not_mem.mpr fun _ hc => ht (Tree.mem_names_of_lookup hc).1
  by_cases h1 : rel ∈ pristine.names <;> by_cases h2 : rel ∈ model.names
  · simp [Tree.lookup_of_mem_names h1, Tree.lookup_of_mem_names h2, h1, h2]
  · simp [Tree.lookup_of_mem_names h1, hnone model h2, h1, h2]
  · simp [hnone pristine h1, Tree.lookup_of_mem_names h2, h1, h2]
  · simp [hnone pristine h1, hnone model h2, h1, h2]

theorem mem_excludedPaths_iff : rel ∈ (diffRepos pristine model).excludedPaths.map Prod.fst ↔
    excludedReason rel ≠ none ∧ pristine.files.lookup rel ≠ model.files.lookup rel := by
  rw [mem_excludedPaths, lookup_ne_iff, Option.isSome_iff_ne_none]

theorem mem_touched_iff : rel ∈ (diffRepos pristine model).touched ↔
    excludedReason rel = none ∧ pristine.files.lookup rel ≠ model.files.lookup rel ∧
      (rel ∈ walkFiles pristine → rel ∈ walkFiles model → readText (pristine.read rel) ≠ none →
        readText (pristine.read rel) ≠ readText (model.read rel)) := by
  rw [mem_touched, lookup_ne_iff]
  simp only [mem_walkFiles, commonChange_isSome_iff]
  by_cases h1 : rel ∈ pristine.names <;> by_cases h2 : rel ∈ model.names <;>
    by_cases h : excludedReason rel = none <;> simp [h1, h2, h]

theorem sum_walkedPaths (f : Str → Nat) : ((walkedPaths pristine model).map f).sum =
    (((walkFiles pristine).filter fun r => r ∈ walkFiles model).map f).sum +
      (((walkFiles model).filter fun r => r ∉ walkFiles pristine).map f).sum +
      (((walkFiles pristine).filter fun r => r ∉ walkFiles model).map f).sum := by
  have hsplit := List.sum_map_filter_add_sum_map_filter_not (fun r => r ∈ walkFiles model) f
    (walkFiles pristine)
  rw [walkedPaths, List.map_append, List.sum_append, ← hsplit]
  omega

theorem changedLines_eq : (diffRepos pristine model).changedLines =
    (((walkFiles pristine).filter fun r => r ∈ walkFiles model).map fun r =>
      countedCommon r (pristine.read r) (model.read r)).sum +
    (((walkFiles model).filter fun r => r ∉ walkFiles pristine).map fun r =>
      (addedChange (model.read r)).changed).sum +
    (((walkFiles pristine).filter fun r => r ∉ walkFiles model).map fun r =>
      (deletedChange (pristine.read r)).changed).sum := by
  have hcommon : ∀ l : List Str, ((l.filterMap fun r =>
      (commonChange r (pristine.read r) (model.read r)).map fun info => (r, info)).map
        fun e => e.2.changed).sum =
      (l.map fun r => countedCommon r (pristine.read r) (model.read r)).sum := by
    intro l
    induction l with
    | nil => rfl
    | cons r l ih =>
      rw [List.filterMap_cons, List.map_cons, List.sum_cons, ← ih]
      cases h : commonChange r (pristine.read r) (model.read r) <;> simp [countedCommon, h]
  simp only [diffRepos, List.map_append, List.sum_append, List.map_map, hcommon]
  rfl

theorem changedLines_eq_iff : (diffRepos pristine model).changedLines =
    ((walkedPaths pristine model).map fun r =>
      lineDifference (pristine.files.lookup r) (model.files.lookup r)).sum ↔
    ∀ r ∈ walkFiles pristine, r ∈ walkFiles model →
      countedCommon r (pristine.read r) (model.read r) =
        commonDifference (pristine.read r) (model.read r) := by
  have hhas : ∀ (t : Tree) (r : Str), r ∈ walkFiles t → t.files.lookup r = some (t.read r) :=
    fun t r hr => Tree.lookup_of_mem_names (mem_walkFiles.mp hr).1
  have hlacks : ∀ (t u : Tree) (r : Str), r ∈ walkFiles t → r ∉ walkFiles u →
      u.files.lookup r = none := by
    intro t u r ht hu
    refine Option.eq_none_iff_forall_not_mem.mpr fun _ hc => hu ?_
    exact mem_walkFiles.mpr ⟨(Tree.mem_names_of_lookup hc).1, (mem_walkFiles.mp ht).2⟩
  have hadded : (((walkFiles model).filter fun r => r ∉ walkFiles pristine).map fun r =>
      (addedChange (model.read r)).changed) =
      ((walkFiles model).filter fun r => r ∉ walkFiles pristine).map fun r =>
        lineDifference (pristine.files.lookup r) (model.files.lookup r) := by
    refine List.map_congr_left fun r hr => ?_
    obtain ⟨hr, hno⟩ := List.mem_filter.mp hr
    rw [hlacks model pristine r hr (by simpa using hno), hhas model r hr, lineDifference, addedChange]
    cases readText (model.read r) <;> rfl
  have hdeleted : (((walkFiles pristine).filter fun r => r ∉ walkFiles model).map fun r =>
      (deletedChange (pristine.read r)).changed) =
      ((walkFiles pristine).filter fun r => r ∉ walkFiles model).map fun r =>
        lineDifference (pristine.files.lookup r) (model.files.lookup r) := by
    refine List.map_congr_left fun r hr => ?_
    obtain ⟨hr, hno⟩ := List.mem_filter.mp hr
    rw [hlacks pristine model r hr (by simpa using hno), hhas pristine r hr, lineDifference,
      deletedChange]
    cases readText (pristine.read r) <;> rfl
  have hboth : (((walkFiles pristine).filter fun r => r ∈ walkFiles model).map fun r =>
      lineDifference (pristine.files.lookup r) (model.files.lookup r)) =
      ((walkFiles pristine).filter fun r => r ∈ walkFiles model).map fun r =>
        commonDifference (pristine.read r) (model.read r) := by
    refine List.map_congr_left fun r hr => ?_
    obtain ⟨hr, hm⟩ := List.mem_filter.mp hr
    rw [hhas pristine r hr, hhas model r (by simpa using hm), lineDifference]
  rw [changedLines_eq, sum_walkedPaths, hadded, hdeleted, hboth, Nat.add_right_cancel_iff,
    Nat.add_right_cancel_iff]
  constructor
  · intro hsum r hr hm
    by_contra hne
    have hlt := List.sum_lt_sum (l := (walkFiles pristine).filter fun r => r ∈ walkFiles model)
      (fun r => countedCommon r (pristine.read r) (model.read r))
      (fun r => commonDifference (pristine.read r) (model.read r))
      (fun _ _ => countedCommon_le)
      ⟨r, List.mem_filter.mpr ⟨hr, by simpa using hm⟩, lt_of_le_of_ne countedCommon_le hne⟩
    omega
  · intro h
    refine congrArg List.sum (List.map_congr_left fun r hr => ?_)
    obtain ⟨hr, hm⟩ := List.mem_filter.mp hr
    exact h r hr (by simpa using hm)

end Trees

/-- The difference of two trees accounts for everything exactly when the text files that changed
are read as different texts, and with plain differences. -/
theorem accounting_complete_iff (pristine model : Tree) :
    AccountingComplete pristine model ↔ PlainEdits pristine model := by
  constructor
  · intro h
    refine ⟨fun rel h1 h2 htext hread => ?_, fun rel h1 h2 => ?_⟩
    · by_contra hne
      have hlookup : pristine.files.lookup rel ≠ model.files.lookup rel :=
        lookup_ne_iff.mpr (.inr (.inr ⟨(mem_walkFiles.mp h1).1, (mem_walkFiles.mp h2).1, hne⟩))
      have htouched := h.touched rel (mem_walkFiles.mp h1).2 hlookup
      exact (mem_touched_iff.mp htouched).2.2 h1 h2 htext hread
    · exact countedCommon_all_iff.mp (changedLines_eq_iff.mp h.changedLines rel h1 h2)
  · intro h
    constructor
    · intro rel hex hne
      refine mem_touched_iff.mpr ⟨hex, hne, fun h1 h2 htext hread => hne ?_⟩
      rw [Tree.lookup_of_mem_names (mem_walkFiles.mp h1).1,
        Tree.lookup_of_mem_names (mem_walkFiles.mp h2).1, h.apart rel h1 h2 htext hread]
    · exact fun rel hex hne => mem_excludedPaths_iff.mpr ⟨hex, hne⟩
    · intro rel hsame
      exact ⟨fun ht => (mem_touched_iff.mp ht).2.1 hsame,
        fun hx => (mem_excludedPaths_iff.mp hx).2 hsame⟩
    · exact changedLines_eq_iff.mpr fun rel h1 h2 => countedCommon_all_iff.mpr (h.plain rel h1 h2)

/-- A changed line ending is not reported, and a removed line that begins with two minus signs is
not counted. -/
theorem lineEnding_unreported :
    ¬ AccountingComplete (oneTestTree [120, 10]) (oneTestTree [120, 13, 10]) ∧
      ¬ AccountingComplete (oneTestTree [45, 45, 10, 120, 10]) (oneTestTree [120, 10]) := by
  constructor
  · intro h
    have htouched := h.touched "run_tests.py".toList (by decide) (by decide)
    exact absurd htouched (by decide)
  · intro h
    exact absurd h.changedLines (by decide)

end Round4
