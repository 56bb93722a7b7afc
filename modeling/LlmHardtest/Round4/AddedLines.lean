import LlmHardtest.Round4.TamperGate
set_option autoImplicit false

/-! Which added lines the harness-aware scan sees. -/

namespace Round4
open Python Python.Regex Python.Difflib

/-- A pristine tree whose paths stay on one line. -/
def PristineTree : Type :=
  { t : Tree // ∀ rel ∈ t.names, ∀ c ∈ rel, isBoundary c = false }

def rawKept (content : Bytes) : List Str := splitlinesKeep (Utf8.decodeReplace content)

def addedBy (lines : Bytes → List Str) (old : Option Bytes) (new : Bytes) : List Str :=
  match old with
  | none => (lines new).map chomp
  | some old => if old = new then [] else (insertedLines (lines old) (lines new)).map chomp

def markedAdded (pristine model : Tree) (rel : Str) : List Str :=
  let old := pristine.files.lookup rel
  let new := model.read rel
  if (excludedReason rel).isSome then addedBy rawKept old new
  else match old.map readText, readText new with
    | none, some b => b.map chomp
    | some (some a), some b => if a = b then [] else (insertedLines a b).map chomp
    | _, _ => addedBy rawKept old new

def linesAt (rel : Str) (found : List (Str × Str)) : List Str :=
  (found.filter fun e => e.1 = rel).map Prod.snd

def scannedAdded (rel : Str) (a b : List Str) : List Str :=
  ((splitlines (diffLines rel a b).flatten).filter isAdded).map (·.drop 1)

/-! One modified text file. -/

theorem isAdded_plus {x : Str} : isAdded ('+' :: x) = true ↔ ¬ ['+', '+'] <+: x := by
  have h1 : startsWith ('+' :: x) ['+'] = true := by simp [startsWith]
  have h3 : startsWith ('+' :: x) "+++".toList = startsWith x ['+', '+'] := by simp [startsWith]
  rw [isAdded, h1, h3, Bool.true_and, Bool.not_eq_true', ← Bool.not_eq_true, startsWith_iff]

theorem isAdded_head {x : Str} (h : isAdded x = true) : ∃ y, x = '+' :: y ∧ ¬ ['+', '+'] <+: y := by
  cases x with
  | nil => simp [isAdded, startsWith] at h
  | cons c y =>
    have hc : c = '+' := by
      simp only [isAdded, startsWith, Bool.and_eq_true] at h
      have h1 : '+' = c := by simpa using h.1
      exact h1.symm
    subst hc
    exact ⟨y, rfl, isAdded_plus.mp h⟩

theorem isAdded_of_append (u s : Str) (hu : u ≠ []) (h : isAdded (u ++ s) = true) :
    isAdded u = true := by
  obtain ⟨y, hy, hp⟩ := isAdded_head h
  cases u with
  | nil => exact absurd rfl hu
  | cons c u =>
    injection hy with hc hy
    subst hc
    refine isAdded_plus.mpr fun hpre => hp ?_
    rw [← hy]
    exact hpre.trans (List.prefix_append u s)

section TextFile
variable {a b : List Str} {rel : Str}

def addedOf (b : List Str) (c : Opcode) : List Str :=
  ((plusPart b c).map chomp).filter isAdded

theorem addedOf_equal (c : Opcode) (hc : c.tag = .equal) : addedOf b c = [] := by
  simp [addedOf, plusPart, hc]

theorem filter_isAdded_renderCode (ha : ∀ x ∈ a, Piece x) (c : Opcode) :
    ((renderCode a b c).map chomp).filter isAdded = addedOf b c := by
  have hnone : ∀ (m : Char) (hm : m ≠ '+') (hb : isBoundary m = false) (xs : List Str),
      (∀ x ∈ xs, Piece x) → ((xs.map (m :: ·)).map chomp).filter isAdded = [] := by
    intro m hm hb xs hx
    rw [List.filter_eq_nil_iff]
    intro l hl
    obtain ⟨y, hy, rfl⟩ := List.mem_map.mp hl
    obtain ⟨x, hxm, rfl⟩ := List.mem_map.mp hy
    rw [chomp_mark hb (hx x hxm)]
    intro hadd
    obtain ⟨_, heq, _⟩ := isAdded_head hadd
    injection heq with heq _
    exact hm heq
  have hold : ∀ x ∈ slice a c.i1 c.i2, Piece x := fun x hx => ha x ((slice_sublist a _ _).subset hx)
  unfold renderCode
  split
  · rename_i hc
    rw [hnone ' ' (by decide) rfl _ hold, addedOf_equal c hc]
  · rw [List.map_append, List.filter_append]
    unfold minusPart
    split
    · rw [hnone '-' (by decide) rfl _ hold, List.nil_append, addedOf]
    · rw [List.map_nil, List.filter_nil, List.nil_append, addedOf]

theorem addedOf_eq (hb : ∀ x ∈ b, Piece x) (c : Opcode) : (addedOf b c).map (·.drop 1) =
    ((if c.tag = .replace ∨ c.tag = .insert then slice b c.j1 c.j2 else []).map chomp).filter
      fun x => !startsWith x ['+', '+'] := by
  have hkey : ∀ xs : List Str, (∀ x ∈ xs, Piece x) →
      (((xs.map ('+' :: ·)).map chomp).filter isAdded).map (·.drop 1) =
        (xs.map chomp).filter fun x => !startsWith x ['+', '+'] := by
    intro xs hx
    induction xs with
    | nil => rfl
    | cons x xs ih =>
      have hi := ih fun y hy => hx y (by simp [hy])
      have hc := chomp_mark (c := '+') rfl (hx x (by simp))
      simp only [List.map_cons, hc, List.filter_cons]
      by_cases hp : ['+', '+'] <+: chomp x
      · have h1 : isAdded ('+' :: chomp x) = false := by
          by_contra hadd
          exact isAdded_plus.mp (by simpa using hadd) hp
        have h2 : startsWith (chomp x) ['+', '+'] = true := startsWith_iff.mpr hp
        simp only [h1, h2, Bool.not_true, Bool.false_eq_true, if_false]
        exact hi
      · have h1 : isAdded ('+' :: chomp x) = true := isAdded_plus.mpr hp
        have h2 : startsWith (chomp x) ['+', '+'] = false := by
          rw [← Bool.not_eq_true, startsWith_iff]
          exact hp
        simp only [h1, h2, Bool.not_false, if_true, List.map_cons]
        exact congrArg (chomp x :: ·) hi
  unfold addedOf plusPart
  split
  · exact hkey _ fun x hx => hb x ((slice_sublist b _ _).subset hx)
  · rfl

theorem filter_isAdded_unifiedDiff (ha : IsLines a) (hrel : ∀ c ∈ rel, isBoundary c = false) :
    ((diffLines rel a b).map chomp).filter isAdded = (getOpcodes a b).flatMap (addedOf b) := by
  have hfrom : ∀ c ∈ "a/".toList ++ rel, isBoundary c = false :=
    not_boundary_append (not_boundary_of_all (by decide)) hrel
  have hto : ∀ c ∈ "b/".toList ++ rel, isBoundary c = false :=
    not_boundary_append (not_boundary_of_all (by decide)) hrel
  have hgroups : ∀ gs : List (List Opcode),
      ((gs.flatMap (renderGroup a b)).map chomp).filter isAdded =
        gs.flatten.flatMap (addedOf b) := by
    intro gs
    induction gs with
    | nil => rfl
    | cons g gs ih =>
      have hhead : isAdded (chomp (hunkHeader g)) = false := by
        rw [chomp_hunkHeader]
        simp [isAdded, startsWith, hunkText]
      have hbody : ((g.flatMap (renderCode a b)).map chomp).filter isAdded =
          g.flatMap (addedOf b) := by
        rw [List.map_flatMap, List.filter_flatMap]
        exact List.flatMap_congr fun c _ => filter_isAdded_renderCode ha.piece c
      rw [List.flatMap_cons, List.map_append, List.filter_append, ih, renderGroup, List.map_cons,
        List.filter_cons_of_neg (by simp [hhead]), hbody, List.flatten_cons, List.flatMap_append]
  have hflat : (groupsOf a b).flatten.flatMap (addedOf b) = (getOpcodes a b).flatMap (addedOf b) :=
    flatMap_groups (fun c hc => addedOf_equal c hc) 3 (getOpcodes a b)
  unfold diffLines unifiedDiff
  simp only
  rw [← hflat]
  split
  · rename_i hempty
    rw [List.isEmpty_iff.mp hempty]
    rfl
  · rw [List.map_append, chomp_fileHeader hfrom hto, List.filter_append, hgroups]
    simp [isAdded, startsWith]

theorem inserted_filter (hb : ∀ x ∈ b, Piece x) :
    ((getOpcodes a b).flatMap (addedOf b)).map (·.drop 1) =
      ((insertedLines a b).map chomp).filter fun x => !startsWith x ['+', '+'] := by
  rw [List.map_flatMap, insertedLines, List.map_flatMap, List.filter_flatMap]
  exact List.flatMap_congr fun c _ => addedOf_eq hb c

theorem scannedAdded_eq (ha : IsLines a) (hb : IsLines b) (hs : swallows a b = false)
    (hrel : ∀ c ∈ rel, isBoundary c = false) :
    scannedAdded rel a b =
      ((insertedLines a b).map chomp).filter fun x => !startsWith x ['+', '+'] := by
  have hlines := splitlines_unifiedDiff ha hb hs
    (not_boundary_append (s := "a/".toList) (not_boundary_of_all (by decide)) hrel)
    (not_boundary_append (s := "b/".toList) (not_boundary_of_all (by decide)) hrel)
  rw [scannedAdded, diffLines, hlines, ← inserted_filter hb.piece,
    ← filter_isAdded_unifiedDiff ha hrel, diffLines]

theorem mem_scannedAdded {x : Str} (h : x ∈ scannedAdded rel a b) : ¬ ['+', '+'] <+: x := by
  obtain ⟨raw, hraw, rfl⟩ := List.mem_map.mp h
  obtain ⟨y, rfl, hy⟩ := isAdded_head (List.mem_filter.mp hraw).2
  exact hy

theorem length_scannedAdded_lt (ha : IsLines a) (hb : IsLines b) (hs : swallows a b = true)
    (hrel : ∀ c ∈ rel, isBoundary c = false)
    (hplus : ∀ l ∈ insertedLines a b, ¬ ['+', '+'] <+: chomp l) :
    (scannedAdded rel a b).length < (insertedLines a b).length := by
  obtain ⟨pre, u, v, post, hu, hv, hsplit⟩ := @swallows_split a b
    ("a/".toList ++ rel) ("b/".toList ++ rel) ha hs
  have hpieces : ∀ p ∈ diffLines rel a b, Piece p := piece_unifiedDiff ha hb
    (not_boundary_append (not_boundary_of_all (by decide)) hrel)
    (not_boundary_append (not_boundary_of_all (by decide)) hrel)
  have hsplit' : diffLines rel a b = pre ++ ('-' :: u) :: ('+' :: v) :: post := hsplit
  have hbare : Bare ('-' :: u) := bare_cons rfl hu.2
  have hminus : isAdded ('-' :: u) = false := by simp [isAdded, startsWith]
  have hpiece : Piece v := hb.piece v ((insertedLines_sublist a b).subset hv)
  have hadd : isAdded (chomp ('+' :: v)) = true := by
    rw [chomp_mark rfl hpiece]
    exact isAdded_plus.mpr (hplus v hv)
  have hlt := countP_splitlines_lt isAdded_of_append (hsplit' ▸ hpieces) hbare hminus hadd
  rw [← hsplit', List.countP_eq_length_filter, List.countP_eq_length_filter,
    filter_isAdded_unifiedDiff ha hrel] at hlt
  have hle : ((getOpcodes a b).flatMap (addedOf b)).length ≤ (insertedLines a b).length := by
    have h := congrArg List.length (inserted_filter (a := a) hb.piece)
    rw [List.length_map] at h
    rw [h]
    exact (List.length_filter_le _ _).trans (by rw [List.length_map])
  rw [scannedAdded, List.length_map]
  exact lt_of_lt_of_le hlt hle

/-- The scan of a modified text file is complete exactly when no inserted line starts with two
plus signs and none is swallowed by an unterminated old line. -/
theorem scannedAdded_complete_iff (ha : IsLines a) (hb : IsLines b)
    (hrel : ∀ c ∈ rel, isBoundary c = false) :
    ((insertedLines a b).map chomp).Sublist (scannedAdded rel a b) ↔
      swallows a b = false ∧ ∀ l ∈ insertedLines a b, ¬ ['+', '+'] <+: chomp l := by
  constructor
  · intro h
    have hplus : ∀ l ∈ insertedLines a b, ¬ ['+', '+'] <+: chomp l := fun l hl =>
      mem_scannedAdded (h.subset (List.mem_map.mpr ⟨l, hl, rfl⟩))
    refine ⟨?_, hplus⟩
    by_contra hs
    have hlt := length_scannedAdded_lt ha hb (by simpa using hs) hrel hplus
    have hle := h.length_le
    rw [List.length_map] at hle
    omega
  · rintro ⟨hs, hplus⟩
    rw [scannedAdded_eq ha hb hs hrel]
    have hall : ((insertedLines a b).map chomp).filter (fun x => !startsWith x ['+', '+']) =
        (insertedLines a b).map chomp := by
      rw [List.filter_eq_self]
      intro x hx
      obtain ⟨l, hl, rfl⟩ := List.mem_map.mp hx
      rw [Bool.not_eq_true', ← Bool.not_eq_true, startsWith_iff]
      exact hplus l hl
    rw [hall]

end TextFile

/-! The whole tree. -/

section Tree
variable {pristine model : Tree} {rel : Str}

theorem linesAt_flatMap {β : Type} (items : List (Str × β)) (g : Str × β → List Str) (rel : Str) :
    linesAt rel (items.flatMap fun e => (g e).map fun l => (e.1, l)) =
      (items.filter fun e => e.1 = rel).flatMap g := by
  induction items with
  | nil => rfl
  | cons e items ih =>
    rw [List.flatMap_cons, linesAt, List.filter_append, List.map_append]
    rw [linesAt] at ih
    rw [ih]
    by_cases he : e.1 = rel
    · have hall : ((g e).map fun l => (e.1, l)).filter (fun x => decide (x.1 = rel)) =
          (g e).map fun l => (e.1, l) := by
        rw [List.filter_eq_self]
        intro x hx
        obtain ⟨l, _, rfl⟩ := List.mem_map.mp hx
        simpa using he
      rw [hall, List.filter_cons_of_pos (by simpa using he), List.flatMap_cons, List.map_map]
      simp
    · have hnone : ((g e).map fun l => (e.1, l)).filter (fun x => decide (x.1 = rel)) = [] := by
        rw [List.filter_eq_nil_iff]
        intro x hx
        obtain ⟨l, _, rfl⟩ := List.mem_map.mp hx
        simpa using he
      rw [hnone, List.filter_cons_of_neg (by simpa using he)]
      rfl

theorem linesAt_addedLines (diff : RepoDiff) (rel : Str) : linesAt rel (addedLines diff) =
    ((sortedItems diff.perFile).filter fun e => e.1 = rel).flatMap
      (fun e => entryAddedLines diff.modelRoot e.1 e.2) ++
    (diff.excludedTouched.filter fun r => r = rel).flatMap
      fun r => rawLines (diff.modelRoot.read r) := by
  have happ : ∀ xs ys : List (Str × Str), linesAt rel (xs ++ ys) = linesAt rel xs ++ linesAt rel ys := by
    intro xs ys
    simp [linesAt]
  have hpair := linesAt_flatMap (diff.excludedTouched.map fun r => (r, ()))
    (fun e => rawLines (diff.modelRoot.read e.1)) rel
  rw [addedLines, happ, linesAt_flatMap]
  congr 1
  rw [List.flatMap_map] at hpair
  rw [hpair, List.filter_map, List.flatMap_map]
  rfl

theorem filterMap_filter_key {β : Type} (f : Str → Option β) {l : List Str} (hl : l.Nodup)
    (rel : Str) : ((l.filterMap fun r => (f r).map fun i => (r, i)).filter fun e => e.1 = rel) =
      if rel ∈ l then ((f rel).map fun i => (rel, i)).toList else [] := by
  induction l with
  | nil => rfl
  | cons r l ih =>
    obtain ⟨hr, hl⟩ := List.nodup_cons.mp hl
    rw [List.filterMap_cons]
    by_cases he : r = rel
    · subst he
      cases hf : f r with
      | none => simp [ih hl, hr]
      | some i => simp [ih hl, hr]
    · have hm : rel ∈ r :: l ↔ rel ∈ l := by simp [Ne.symm he]
      cases hf : f r with
      | none => simp [ih hl, hm]
      | some i => simp [ih hl, hm, he]

theorem map_filter_key {β : Type} (f : Str → β) {l : List Str} (hl : l.Nodup) (rel : Str) :
    ((l.map fun r => (r, f r)).filter fun e => e.1 = rel) = if rel ∈ l then [(rel, f rel)] else [] := by
  have h := filterMap_filter_key (fun r => some (f r)) hl rel
  simpa using h

theorem Tree.nodup_names (t : Tree) : t.names.Nodup :=
  t.sorted.imp fun h => ne_of_lt h

theorem nodup_walkFiles (t : Tree) : (walkFiles t).Nodup := t.nodup_names.filter _

theorem sortedItems_filter {items : List (Str × FileChange)} {e : List (Str × FileChange)}
    (h : (items.filter fun x => x.1 = rel) = e) (he : e.length ≤ 1) :
    ((sortedItems items).filter fun x => x.1 = rel) = e := by
  have hp : ((sortedItems items).filter fun x => x.1 = rel).Perm e := by
    rw [← h]
    exact (List.perm_insertionSort _ items).filter _
  match e, he, hp with
  | [], _, hp => exact hp.eq_nil
  | [x], _, hp => exact List.perm_singleton.mp hp

theorem perFile_filter : ((diffRepos pristine model).perFile.filter fun e => e.1 = rel) =
    (if rel ∈ walkFiles pristine ∧ rel ∈ walkFiles model then
      ((commonChange rel (pristine.read rel) (model.read rel)).map fun i => (rel, i)).toList else []) ++
    (if rel ∈ walkFiles model ∧ rel ∉ walkFiles pristine then
      [(rel, addedChange (model.read rel))] else []) ++
    (if rel ∈ walkFiles pristine ∧ rel ∉ walkFiles model then
      [(rel, deletedChange (pristine.read rel))] else []) := by
  simp only [diffRepos, List.filter_append]
  rw [filterMap_filter_key _ ((nodup_walkFiles pristine).filter _),
    map_filter_key _ ((nodup_walkFiles model).filter _),
    map_filter_key _ ((nodup_walkFiles pristine).filter _)]
  simp only [List.mem_filter, decide_eq_true_eq]

theorem mem_walkExcluded {t : Tree} :
    rel ∈ walkExcluded t ↔ rel ∈ t.names ∧ (excludedReason rel).isSome = true := by
  simp [walkExcluded]

theorem mem_excludedTouched : rel ∈ (diffRepos pristine model).excludedTouched ↔
    (excludedReason rel).isSome = true ∧ rel ∈ model.names ∧
      (rel ∈ pristine.names → pristine.read rel ≠ model.read rel) := by
  simp only [diffRepos, sortedNames, (List.perm_insertionSort _ _).mem_iff, List.mem_dedup,
    List.mem_append, List.mem_filter, decide_eq_true_eq, mem_walkExcluded]
  cases excludedReason rel <;> by_cases hp : rel ∈ pristine.names <;>
    by_cases hm : rel ∈ model.names <;> simp [hp, hm]

theorem excludedTouched_filter (h : rel ∈ (diffRepos pristine model).excludedTouched) :
    ((diffRepos pristine model).excludedTouched.filter fun r => r = rel) = [rel] := by
  have hnodup : (diffRepos pristine model).excludedTouched.Nodup := by
    simp only [diffRepos, sortedNames]
    exact (List.perm_insertionSort _ _).nodup_iff.mpr (List.nodup_dedup _)
  have hmap := map_filter_key (fun _ => ()) hnodup rel
  rw [if_pos h] at hmap
  have h1 := congrArg (List.map Prod.fst) hmap
  rw [List.filter_map, List.map_map] at h1
  simpa [Function.comp_def] using h1

theorem excludedTouched_filter_nil (h : rel ∉ (diffRepos pristine model).excludedTouched) :
    ((diffRepos pristine model).excludedTouched.filter fun r => r = rel) = [] := by
  rw [List.filter_eq_nil_iff]
  rintro r hr
  simp only [decide_eq_true_eq]
  rintro rfl
  exact h hr

theorem linesAt_common (h1 : rel ∈ walkFiles pristine) (h2 : rel ∈ walkFiles model) :
    linesAt rel (addedLines (diffRepos pristine model)) =
      ((commonChange rel (pristine.read rel) (model.read rel)).map
        (entryAddedLines model rel)).getD [] := by
  have hnone : rel ∉ (diffRepos pristine model).excludedTouched := by
    rw [mem_excludedTouched, (mem_walkFiles.mp h1).2]
    simp
  have hitems : ((diffRepos pristine model).perFile.filter fun e => e.1 = rel) =
      ((commonChange rel (pristine.read rel) (model.read rel)).map fun i => (rel, i)).toList := by
    rw [perFile_filter]
    simp [h1, h2]
  rw [linesAt_addedLines, excludedTouched_filter_nil hnone, sortedItems_filter hitems]
  · cases commonChange rel (pristine.read rel) (model.read rel) with
    | none => rfl
    | some info => simp [diffRepos]
  · cases commonChange rel (pristine.read rel) (model.read rel) <;> simp

theorem linesAt_new (h1 : rel ∉ walkFiles pristine) (h2 : rel ∈ walkFiles model) :
    linesAt rel (addedLines (diffRepos pristine model)) =
      entryAddedLines model rel (addedChange (model.read rel)) := by
  have hnone : rel ∉ (diffRepos pristine model).excludedTouched := by
    rw [mem_excludedTouched, (mem_walkFiles.mp h2).2]
    simp
  have hitems : ((diffRepos pristine model).perFile.filter fun e => e.1 = rel) =
      [(rel, addedChange (model.read rel))] := by
    rw [perFile_filter]
    simp [h1, h2]
  rw [linesAt_addedLines, excludedTouched_filter_nil hnone, sortedItems_filter hitems (by simp)]
  simp [diffRepos]

theorem linesAt_excluded (h : rel ∈ (diffRepos pristine model).excludedTouched) :
    linesAt rel (addedLines (diffRepos pristine model)) = rawLines (model.read rel) := by
  have hex := (mem_excludedTouched.mp h).1
  have hno : ∀ t : Tree, rel ∉ walkFiles t := by
    intro t ht
    rw [(mem_walkFiles.mp ht).2] at hex
    cases hex
  have hitems : ((diffRepos pristine model).perFile.filter fun e => e.1 = rel) = [] := by
    rw [perFile_filter]
    simp [hno]
  rw [linesAt_addedLines, excludedTouched_filter h, sortedItems_filter hitems (by simp)]
  simp [diffRepos]

theorem addedBy_rawKept_sublist (old : Option Bytes) (new : Bytes) :
    (addedBy rawKept old new).Sublist (rawLines new) := by
  unfold addedBy
  split
  · exact List.Sublist.refl _
  · split
    · exact List.nil_sublist _
    · exact (insertedLines_sublist _ _).map _

/-- The difference of every text file that both trees have adds no line starting with two plus
signs, and swallows none. -/
def PlainAdditions (pristine model : Tree) : Prop :=
  ∀ rel ∈ walkFiles pristine, rel ∈ walkFiles model → ∀ a b,
    readText (pristine.read rel) = some a → readText (model.read rel) = some b → a ≠ b →
    swallows a b = false ∧ ∀ l ∈ insertedLines a b, ¬ ['+', '+'] <+: chomp l

/-- Every line marked as added is returned with its path and full content. -/
def LinesComplete (pristine model : Tree) : Prop :=
  ∀ rel ∈ model.names,
    (markedAdded pristine model rel).Sublist (linesAt rel (addedLines (diffRepos pristine model)))

theorem lookup_none_of_not_mem {t : Tree} (h : rel ∉ t.names) : t.files.lookup rel = none := by
  cases hl : t.files.lookup rel with
  | none => rfl
  | some _ => exact absurd (Tree.mem_names_of_lookup hl).1 h

theorem marked_excluded (hm : rel ∈ model.names) (hx : (excludedReason rel).isSome = true) :
    (markedAdded pristine model rel).Sublist
      (linesAt rel (addedLines (diffRepos pristine model))) := by
  rw [markedAdded, if_pos hx]
  by_cases ht : rel ∈ (diffRepos pristine model).excludedTouched
  · rw [linesAt_excluded ht]
    exact addedBy_rawKept_sublist _ _
  · have hsame : rel ∈ pristine.names ∧ pristine.read rel = model.read rel := by
      rw [mem_excludedTouched] at ht
      by_contra hc
      exact ht ⟨hx, hm, fun hp he => hc ⟨hp, he⟩⟩
    rw [Tree.lookup_of_mem_names hsame.1, addedBy, if_pos hsame.2]
    exact List.nil_sublist _

theorem marked_new (hp : rel ∉ pristine.names) (hm : rel ∈ walkFiles model) :
    (markedAdded pristine model rel).Sublist
      (linesAt rel (addedLines (diffRepos pristine model))) := by
  have hx : (excludedReason rel).isSome = false := by rw [(mem_walkFiles.mp hm).2]; rfl
  rw [linesAt_new (fun h => hp (mem_walkFiles.mp h).1) hm, markedAdded, hx,
    lookup_none_of_not_mem hp, if_neg (by simp), Option.map_none, addedChange]
  cases hnew : readText (model.read rel) with
  | none => exact List.Sublist.refl _
  | some b =>
    obtain ⟨text, htext, rfl⟩ := Option.map_eq_some_iff.mp hnew
    simp only [entryAddedLines, htext, Option.getD_some, splitlines]
    exact List.Sublist.refl _

theorem marked_undecodable (hp : rel ∈ walkFiles pristine) (hm : rel ∈ walkFiles model)
    (hbin : readText (pristine.read rel) = none ∨ readText (model.read rel) = none) :
    (markedAdded pristine model rel).Sublist
      (linesAt rel (addedLines (diffRepos pristine model))) := by
  have hx : (excludedReason rel).isSome = false := by rw [(mem_walkFiles.mp hm).2]; rfl
  have hmark : markedAdded pristine model rel =
      addedBy rawKept (some (pristine.read rel)) (model.read rel) := by
    rw [markedAdded, hx, Tree.lookup_of_mem_names (mem_walkFiles.mp hp).1, if_neg (by simp),
      Option.map_some]
    rcases hbin with h | h
    · simp [h]
    · cases readText (pristine.read rel) <;> simp [h]
  have hchange : commonChange rel (pristine.read rel) (model.read rel) =
      if pristine.read rel = model.read rel then none else some { changed := 1, binary := true } := by
    rw [commonChange]
    rcases hbin with h | h
    · simp [h]
    · cases readText (pristine.read rel) <;> simp [h]
  rw [linesAt_common hp hm, hmark, hchange]
  by_cases he : pristine.read rel = model.read rel
  · rw [addedBy, if_pos he]
    exact List.nil_sublist _
  · rw [if_neg he]
    exact addedBy_rawKept_sublist _ _

theorem marked_text {a b : List Str} (hp : rel ∈ walkFiles pristine) (hm : rel ∈ walkFiles model)
    (hold : readText (pristine.read rel) = some a) (hnew : readText (model.read rel) = some b) :
    markedAdded pristine model rel = (if a = b then [] else (insertedLines a b).map chomp) ∧
    linesAt rel (addedLines (diffRepos pristine model)) =
      if a = b then [] else scannedAdded rel a b := by
  have hx : (excludedReason rel).isSome = false := by rw [(mem_walkFiles.mp hm).2]; rfl
  constructor
  · rw [markedAdded, hx, Tree.lookup_of_mem_names (mem_walkFiles.mp hp).1, if_neg (by simp),
      Option.map_some, hold, hnew]
  · rw [linesAt_common hp hm, commonChange, hold, hnew]
    by_cases hab : a = b
    · simp [hab]
    · simp [hab, entryAddedLines, scannedAdded]

/-- The scan of a tree is complete exactly when the differences of its text files are plain. -/
theorem linesComplete_iff_plain (hplain : ∀ rel ∈ pristine.names, ∀ c ∈ rel, isBoundary c = false) :
    LinesComplete pristine model ↔ PlainAdditions pristine model := by
  constructor
  · intro h rel hp hm a b hold hnew hab
    have hs := h rel (mem_walkFiles.mp hm).1
    obtain ⟨h1, h2⟩ := marked_text hp hm hold hnew
    rw [h1, h2, if_neg hab, if_neg hab] at hs
    exact (scannedAdded_complete_iff (isLines_readText hold) (isLines_readText hnew)
      (hplain rel (mem_walkFiles.mp hp).1)).mp hs
  · intro h rel hm
    by_cases hx : (excludedReason rel).isSome = true
    · exact marked_excluded hm hx
    have hmw : rel ∈ walkFiles model := mem_walkFiles.mpr ⟨hm, by simpa using hx⟩
    by_cases hp : rel ∈ pristine.names
    · have hpw : rel ∈ walkFiles pristine := mem_walkFiles.mpr ⟨hp, by simpa using hx⟩
      cases hold : readText (pristine.read rel) with
      | none => exact marked_undecodable hpw hmw (.inl hold)
      | some a =>
        cases hnew : readText (model.read rel) with
        | none => exact marked_undecodable hpw hmw (.inr hnew)
        | some b =>
          obtain ⟨h1, h2⟩ := marked_text hpw hmw hold hnew
          rw [h1, h2]
          by_cases hab : a = b
          · simp [hab]
          · rw [if_neg hab, if_neg hab]
            exact (scannedAdded_complete_iff (isLines_readText hold) (isLines_readText hnew)
              (hplain rel hp)).mpr (h rel hpw hmw a b hold hnew hab)
    · exact marked_new hp hmw

end Tree

/-! From a matching line to the verdict. -/

section Verdict
variable {py : Interpreter} {a : Attempt} {u : UnicodeData}

theorem label_disqualifying : ∀ p ∈ harnessAwarePatterns, ∀ q ∈ harnessAwarePatterns,
    p.label = q.label → p.disqualifying = q.disqualifying := by
  decide +kernel

theorem harnessFindings_complete {p : HarnessPattern} (hp : p ∈ harnessAwarePatterns) {rel line : Str}
    (hs : search u p.pattern line = true) (lines seen : List (Str × Str))
    (hmem : (rel, line) ∈ lines) (hseen : (rel, p.label) ∉ seen) :
    ∃ f ∈ harnessFindings u seen lines, f.disqualifying = some p.disqualifying := by
  induction lines generalizing seen with
  | nil => simp at hmem
  | cons e rest ih =>
    obtain ⟨rel', line'⟩ := e
    simp only [harnessFindings, List.mem_append, List.mem_map, List.mem_filter, Bool.and_eq_true,
      decide_eq_true_eq]
    by_cases hreported : ∃ q ∈ harnessAwarePatterns, (search u q.pattern line' = true ∧
        (rel', q.label) ∉ seen) ∧ (rel', q.label) = (rel, p.label)
    · obtain ⟨q, hq, hhit, heq⟩ := hreported
      injection heq with _ hlabel
      exact ⟨_, .inl ⟨q, ⟨hq, hhit⟩, rfl⟩, by rw [label_disqualifying q hq p hp hlabel]⟩
    · rcases List.mem_cons.mp hmem with heq | hmem
      · injection heq with h1 h2
        subst h1 h2
        exact absurd ⟨p, hp, ⟨hs, hseen⟩, rfl⟩ hreported
      · obtain ⟨f, hf, hd⟩ := ih (seen ++ ((harnessAwarePatterns.filter fun q =>
          search u q.pattern line' && decide ((rel', q.label) ∉ seen)).map
            fun q => (rel', q.label))) hmem (by
          simp only [List.mem_append, List.mem_map, List.mem_filter, Bool.and_eq_true,
            decide_eq_true_eq, not_or]
          refine ⟨hseen, ?_⟩
          rintro ⟨q, ⟨hq, hhit⟩, heq⟩
          exact hreported ⟨q, hq, hhit, heq⟩)
        exact ⟨f, .inr hf, hd⟩

theorem mem_linesAt {rel line : Str} {found : List (Str × Str)} (h : line ∈ linesAt rel found) :
    (rel, line) ∈ found := by
  obtain ⟨e, he, rfl⟩ := List.mem_map.mp h
  obtain ⟨hmem, hrel⟩ := List.mem_filter.mp he
  have hrel' : e.1 = rel := by simpa using hrel
  rw [← hrel']
  exact hmem

theorem detectRisky_withdraws {task : TaskKey} {pristine : Tree} {diff : RepoDiff} {transcript : Str}
    {pub : PublicRun} {hidden : HiddenRun} {risky : Risky} {p : HarnessPattern} {rel line : Str}
    (h : detectRisky py task pristine diff transcript pub hidden = .ok risky)
    (hp : p ∈ harnessAwarePatterns) (hd : p.disqualifying = true)
    (hs : search py.unicode p.pattern line = true) (hmem : (rel, line) ∈ addedLines diff) :
    ∃ f ∈ risky.findings, f.withdraws = true := by
  obtain ⟨f, hf, hdis⟩ := harnessFindings_complete hp hs (addedLines diff) [] hmem (by simp)
  obtain ⟨tests, _, h⟩ := Failures.bind_eq_ok.mp h
  injection h with h
  refine ⟨f, ?_, ?_⟩
  · rw [← h]
    simp only [List.mem_append]
    exact .inl (.inr hf)
  · rw [Finding.withdraws, harnessFindings_kind _ _ f hf, hdis, hd]
    simp

theorem withdrawn_grade {g : Grade} {e : Evidence} (he : e.Supports py a g)
    (h : ∃ f ∈ e.risky.findings, f.withdraws = true) :
    g.flags.hiddenResultVerified = false ∧ g.hiddenScore.points = 0 ∧ g.flags.attemptPass = false := by
  have hany : e.risky.findings.any Finding.withdraws = true := List.any_eq_true.mpr h
  have hhidden : g.hidden.verified = false ∧ g.hidden.passed = none := by
    rw [he.hidden, withdraw, hany, Bool.true_and]
    split
    · exact ⟨rfl, rfl⟩
    · rename_i hv
      have hv' : e.measured.verified = false := by simpa using hv
      exact ⟨hv', ((runHidden_fields he.runHidden).2.2.2.2 hv').1⟩
  refine ⟨he.verified.trans hhidden.1, ?_, ?_⟩
  · rw [he.score, scoreHidden, hhidden.2]
  · rw [he.pass, he.full, hhidden.1]
    simp

end Verdict

/-- The harness-aware scan is complete: every marked line is scanned, and a marked line that
matches a disqualifying pattern is reported and withdraws the hidden result. -/
def ScanComplete (py : Interpreter) (p : PristineTree) (a : Attempt) : Prop :=
  LinesComplete p.1 a.workdir ∧
    ∀ rel ∈ a.workdir.names, ∀ line ∈ markedAdded p.1 a.workdir rel, ∀ q ∈ harnessAwarePatterns,
      q.disqualifying = true → search py.unicode q.pattern line = true →
      (∀ pub hidden risky, detectRisky py a.task p.1 (diffRepos p.1 a.workdir) a.transcript pub
        hidden = .ok risky → ∃ f ∈ risky.findings, f.kind = .harnessAwareCode ∧ f.withdraws = true) ∧
      ∀ g, gradeAttempt py { a with pristine := p.1 } = .ok g →
        g.flags.hiddenResultVerified = false ∧ g.hiddenScore.points = 0 ∧
          g.flags.attemptPass = false

theorem scanComplete_of_lines {py : Interpreter} {p : PristineTree} {a : Attempt}
    (h : LinesComplete p.1 a.workdir) : ScanComplete py p a := by
  refine ⟨h, fun rel hrel line hline q hq hd hs => ?_⟩
  have hmem := mem_linesAt ((h rel hrel).subset hline)
  have hfind : ∀ pub hidden risky, detectRisky py a.task p.1 (diffRepos p.1 a.workdir) a.transcript
      pub hidden = .ok risky → ∃ f ∈ risky.findings, f.withdraws = true :=
    fun pub hidden risky hr => detectRisky_withdraws hr hq hd hs hmem
  constructor
  · intro pub hidden risky hr
    obtain ⟨f, hf, hw⟩ := hfind pub hidden risky hr
    have hk : f.kind = .harnessAwareCode := by
      simp only [Finding.withdraws, Bool.and_eq_true, decide_eq_true_eq] at hw
      exact hw.1
    exact ⟨f, hf, hk, hw⟩
  · intro g hg
    obtain ⟨e, he⟩ := gradeAttempt_supports hg
    exact withdrawn_grade he (hfind _ _ _ he.detectRisky)

/-- The harness-aware scan of a submission is complete exactly when its text differences add no
line starting with two plus signs and swallow none. -/
theorem scanComplete_iff (py : Interpreter) (p : PristineTree) (a : Attempt) :
    ScanComplete py p a ↔ PlainAdditions p.1 a.workdir := by
  rw [← linesComplete_iff_plain p.2]
  exact ⟨fun h => h.1, scanComplete_of_lines⟩

/-! An added line starting with two plus signs is not scanned. -/

def oneLinePristine : PristineTree := ⟨oneTestTree [120, 10], by
  have h : ("run_tests.py".toList.all fun c => !isBoundary c) = true := by decide
  intro rel hrel c hc
  rw [oneTest_names, List.mem_singleton] at hrel
  subst hrel
  simpa using List.all_eq_true.mp h c hc⟩

def twoPlus : Attempt := { strayByte with workdir := oneTestTree [120, 10, 43, 43, 120, 10] }

theorem twoPlus_not_scanned : ¬ ScanComplete (.ofTable []) oneLinePristine twoPlus := by
  intro h
  have hplain := (linesComplete_iff_plain oneLinePristine.2).mp h.1 "run_tests.py".toList
    (by decide) (by decide) [['x', '\n']] [['x', '\n'], ['+', '+', 'x', '\n']]
    (by decide) (by decide) (by decide)
  exact hplain.2 ['+', '+', 'x', '\n'] (by decide) (by decide)

end Round4
