import LlmHardtest.Python.UnifiedDiff
import LlmHardtest.Python.Utf8
import LlmHardtest.Round4.Task
set_option autoImplicit false

/-! File trees and the difference of a submitted tree from the pristine one. -/

namespace Round4
open Python Python.Difflib

/-- The regular files under a directory, by relative path, in order. -/
structure Tree where
  files : List (Str × Bytes)
  sorted : (files.map Prod.fst).Pairwise (· < ·)

def Tree.names (t : Tree) : List Str := t.files.map Prod.fst
def Tree.read (t : Tree) (rel : Str) : Bytes := (t.files.lookup rel).getD []

def skipDirs : List Str :=
  ["__pycache__".toList, ".git".toList, ".pytest_cache".toList, ".mypy_cache".toList]
def skipSuffix : List Str := [".pyc".toList, ".pyo".toList]

/-- Why `_walk_files` leaves a path out, if it does. -/
def excludedReason (rel : Str) : Option Str :=
  let parts := splitOnChar '/' rel
  match parts.dropLast.find? fun d => d ∈ skipDirs with
  | some d => some ("skip_dir:".toList ++ d)
  | none =>
      let name := parts.getLastD []
      if skipSuffix.any fun s => endsWith name s then some "skip_suffix".toList
      else if name = ".DS_Store".toList then some "ds_store".toList
      else none

def walkFiles (t : Tree) : List Str := t.names.filter fun rel => (excludedReason rel).isNone
def walkExcluded (t : Tree) : List Str := t.names.filter fun rel => (excludedReason rel).isSome

/-- `_read_text`: the kept lines of a file that is UTF-8. -/
def readText (content : Bytes) : Option (List Str) :=
  (Utf8.decodeStrict content).map fun text => splitlinesKeep (universalNewlines text)

structure FileChange where
  changed : Nat
  binary : Bool := false
  added : Bool := false
  deleted : Bool := false
  diff : Option Str := none
  deriving DecidableEq, Repr

def isAdded (line : Str) : Bool := startsWith line ['+'] && !startsWith line "+++".toList
def isRemoved (line : Str) : Bool := startsWith line ['-'] && !startsWith line "---".toList

def countChanged (lines : List Str) : Nat :=
  (lines.filter fun l => isAdded l || isRemoved l).length

def diffLines (rel : Str) (a b : List Str) : List Str :=
  unifiedDiff a b ("a/".toList ++ rel) ("b/".toList ++ rel)

def commonChange (rel : Str) (old new : Bytes) : Option FileChange :=
  match readText old, readText new with
  | some a, some b =>
      if a = b then none
      else
        let d := diffLines rel a b
        some { changed := countChanged d, diff := some d.flatten }
  | _, _ => if old = new then none else some { changed := 1, binary := true }

def addedChange (new : Bytes) : FileChange :=
  match readText new with
  | some a => { changed := a.length, added := true }
  | none => { changed := 1, binary := true, added := true }

def deletedChange (old : Bytes) : FileChange :=
  match readText old with
  | some a => { changed := a.length, deleted := true }
  | none => { changed := 1, binary := true, deleted := true }

def addedChunk (rel : Str) (new : Bytes) : Str :=
  match readText new with
  | some a => "--- /dev/null\n+++ b/".toList ++ rel ++ ['\n'] ++ a.flatMap ('+' :: ·)
  | none => []

def deletedChunk (rel : Str) (old : Bytes) : Str :=
  "--- a/".toList ++ rel ++ "\n+++ /dev/null\n".toList ++ ((readText old).getD []).flatMap ('-' :: ·)

/-- What `diff_repos` returns; `modelRoot` stands for the path of the submitted tree. -/
structure RepoDiff where
  filesAdded : List Str
  filesDeleted : List Str
  filesModified : List Str
  changedLines : Nat
  perFile : List (Str × FileChange)
  modelRoot : Tree
  unifiedDiff : Str
  unifiedDiffTruncated : Bool
  touched : List Str
  excludedPaths : List (Str × Option Str)
  excludedTouched : List Str

def maxDiffChars : Nat := 200000

def diffRepos (pristine model : Tree) : RepoDiff :=
  let oldFiles := walkFiles pristine
  let newFiles := walkFiles model
  let added := newFiles.filter fun rel => rel ∉ oldFiles
  let deleted := oldFiles.filter fun rel => rel ∉ newFiles
  let common := oldFiles.filter fun rel => rel ∈ newFiles
  let exclOld := walkExcluded pristine
  let exclNew := walkExcluded model
  let excludedAdded := exclNew.filter fun rel => rel ∉ exclOld
  let excludedRemoved := exclOld.filter fun rel => rel ∉ exclNew
  let excludedChanged := exclOld.filter fun rel =>
    rel ∈ exclNew ∧ pristine.read rel ≠ model.read rel
  let modifiedInfo := common.filterMap fun rel =>
    (commonChange rel (pristine.read rel) (model.read rel)).map fun info => (rel, info)
  let perFile := modifiedInfo ++ (added.map fun rel => (rel, addedChange (model.read rel))) ++
    deleted.map fun rel => (rel, deletedChange (pristine.read rel))
  let unified := (modifiedInfo.flatMap fun e => e.2.diff.getD []) ++
    (added.flatMap fun rel => addedChunk rel (model.read rel)) ++
    deleted.flatMap fun rel => deletedChunk rel (pristine.read rel)
  let modified := modifiedInfo.map Prod.fst
  { filesAdded := added
    filesDeleted := deleted
    filesModified := modified
    changedLines := (perFile.map fun e => e.2.changed).sum
    perFile := perFile
    modelRoot := model
    unifiedDiff := unified.take maxDiffChars
    unifiedDiffTruncated := decide (maxDiffChars < unified.length)
    touched := sortedNames (added ++ deleted ++ modified)
    excludedPaths := (excludedAdded ++ excludedRemoved ++ excludedChanged).map
      fun rel => (rel, excludedReason rel)
    excludedTouched := sortedNames (excludedAdded ++ excludedChanged) }

theorem Tree.mem_names_of_lookup {t : Tree} {rel : Str} {content : Bytes}
    (h : t.files.lookup rel = some content) : rel ∈ t.names ∧ t.read rel = content :=
  ⟨List.mem_map.mpr ⟨(rel, content), lookup_mem h, rfl⟩, by rw [Tree.read, h]; rfl⟩

theorem Tree.lookup_of_mem_names {t : Tree} {rel : Str} (h : rel ∈ t.names) :
    t.files.lookup rel = some (t.read rel) := by
  cases hl : t.files.lookup rel with
  | some content => rw [(Tree.mem_names_of_lookup hl).2]
  | none =>
    obtain ⟨e, he, rfl⟩ := List.mem_map.mp h
    have hne := List.lookup_eq_none_iff.mp hl e he
    simp at hne

theorem lookup_filterMap_key {β : Type} (f : Str → Option β) (l : List Str) (rel : Str) :
    (l.filterMap fun r => (f r).map fun i => (r, i)).lookup rel = if rel ∈ l then f rel else none := by
  induction l with
  | nil => rfl
  | cons r l ih =>
    rw [List.filterMap_cons]
    by_cases hr : rel = r
    · subst hr
      cases hf : f rel with
      | none => simp [ih, hf]
      | some i => simp
    · have hm : rel ∈ r :: l ↔ rel ∈ l := by simp [hr]
      cases hf : f r with
      | none => simp [ih, hm]
      | some i =>
        have hb : (rel == r) = false := by simpa using hr
        simp [List.lookup_cons, hb, ih, hm]

section Touched
variable {pristine model : Tree} {rel : Str}

theorem mem_walkFiles {t : Tree} : rel ∈ walkFiles t ↔ rel ∈ t.names ∧ excludedReason rel = none := by
  simp [walkFiles]

theorem mem_filesDeleted :
    rel ∈ (diffRepos pristine model).filesDeleted ↔ rel ∈ walkFiles pristine ∧ rel ∉ walkFiles model := by
  simp [diffRepos]

theorem mem_filesModified : rel ∈ (diffRepos pristine model).filesModified ↔
    rel ∈ walkFiles pristine ∧ rel ∈ walkFiles model ∧
      (commonChange rel (pristine.read rel) (model.read rel)).isSome = true := by
  simp only [diffRepos, List.mem_map, List.mem_filterMap, List.mem_filter, decide_eq_true_eq,
    Option.map_eq_some_iff, Option.isSome_iff_exists]
  constructor
  · rintro ⟨_, ⟨r, ⟨h1, h2⟩, info, hinfo, rfl⟩, rfl⟩
    exact ⟨h1, h2, info, hinfo⟩
  · rintro ⟨h1, h2, info, hinfo⟩
    exact ⟨(rel, info), ⟨rel, ⟨h1, h2⟩, info, hinfo, rfl⟩, rfl⟩

theorem perFile_lookup_common (h1 : rel ∈ walkFiles pristine) (h2 : rel ∈ walkFiles model)
    {info : FileChange} (h : commonChange rel (pristine.read rel) (model.read rel) = some info) :
    (diffRepos pristine model).perFile.lookup rel = some info := by
  have hm : rel ∈ (walkFiles pristine).filter fun r => r ∈ walkFiles model := by
    simp [h1, h2]
  simp only [diffRepos, List.lookup_append, lookup_filterMap_key, if_pos hm, h, Option.some_or]

end Touched

end Round4
