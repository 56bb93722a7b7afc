import LlmHardtest.Python.JsonText
import LlmHardtest.Round4.Believed
import LlmHardtest.Round4.ReportSearch
set_option autoImplicit false

/-! The runner's side of the sealed channel: the recorder of a hidden suite, and the record that a
grader finds on the channel whatever else stands there. -/

namespace Round4
open Python Python.Regex

structure Recorder where
  qid : Str
  records : List (Str × Bool)
  distinct : (records.map Prod.fst).Nodup

namespace Recorder

def new (qid : Str) : Recorder := ⟨qid, [], List.nodup_nil⟩

theorem distinct_concat {records : List (Str × Bool)} {name : Str} {passed : Bool}
    (h : (records.map Prod.fst).Nodup) (hname : name ∉ records.map Prod.fst) :
    ((records ++ [(name, passed)]).map Prod.fst).Nodup := by
  rw [List.map_append, List.map_singleton]
  exact List.nodup_append.mpr ⟨h, List.nodup_singleton _, fun a ha b hb => by
    rw [List.mem_singleton.mp hb]
    rintro rfl
    exact hname ha⟩

def record (py : Interpreter) (r : Recorder) (name : Str) (passed : Bool) : Outcome Recorder :=
  if h : name ∈ r.records.map Prod.fst then
    .error (.runtimeError ("duplicate hidden test name ".toList ++ py.repr (.str name) ++
      " in ".toList ++ r.qid))
  else .ok ⟨r.qid, r.records ++ [(name, passed)], distinct_concat r.distinct h⟩

def recordAll (py : Interpreter) (r : Recorder) (tests : List (Str × Bool)) : Outcome Recorder :=
  tests.foldlM (fun r t => r.record py t.1 t.2) r

def passed (r : Recorder) : Nat := (r.records.filter Prod.snd).length

def total (r : Recorder) : Nat := r.records.length

def pairs (r : Recorder) : List (Str × Str) :=
  r.records.map fun t => (t.1, if t.2 then passText else failText)

/-- What the recorder's process knows: whether a grader listens, and what it puts into the record. -/
structure Process where
  listening : Bool
  nonce : Option Str
  pid : Nat
  runner : Option Str

def optionText : Option Str → Json
  | some s => .str s
  | none => .null

def payload (r : Recorder) (p : Process) : Json :=
  .obj [
    ("protocol".toList, .str hiddenProtocol),
    ("qid".toList, .str r.qid),
    ("nonce".toList, optionText p.nonce),
    ("complete".toList, .bool true),
    ("passed".toList, .int r.passed),
    ("total".toList, .int r.total),
    ("tests".toList, .arr (r.pairs.map fun t => .arr [.str t.1, .str t.2])),
    ("pid".toList, .int p.pid),
    ("runner".toList, optionText p.runner)]

def sealStyle : DumpStyle := ⟨true, true⟩

variable (ft : FloatText)

def sealedLine (r : Recorder) (p : Process) : Str :=
  hiddenResultPrefix ++ dumps sealStyle ft (r.payload p)

def sealText (r : Recorder) (p : Process) : Str :=
  if p.listening then r.sealedLine ft p ++ ['\n'] else []

def testLine (t : Str × Bool) : Str :=
  "HTEST ".toList ++ (if t.2 then "PASS".toList else "FAIL".toList) ++ ' ' :: t.1

def countLine (r : Recorder) : Str :=
  "HTEST-COUNT ".toList ++ natStr r.passed ++ '/' :: natStr r.total

def stdoutText (r : Recorder) : Str :=
  (r.records.flatMap fun t => testLine t ++ ['\n']) ++ (r.countLine ++ ['\n'])

/-- `publish`: what goes to the channel and then to stdout. -/
def publish (r : Recorder) (p : Process) : Str × Str := (r.sealText ft p, r.stdoutText)

section Records
variable {py : Interpreter} {r r' : Recorder}

theorem recordAll_eq_ok {tests : List (Str × Bool)} : r.recordAll py tests = .ok r' ↔
    r'.qid = r.qid ∧ r'.records = r.records ++ tests := by
  induction tests generalizing r with
  | nil =>
    rw [List.append_nil]
    constructor
    · rintro ⟨⟩
      exact ⟨rfl, rfl⟩
    · rintro ⟨hqid, hrecords⟩
      cases r
      cases r'
      cases hqid
      cases hrecords
      rfl
  | cons t tests ih =>
    rw [recordAll, List.foldlM_cons, Failures.bind_eq_ok]
    constructor
    · rintro ⟨r1, h1, h⟩
      obtain ⟨hqid, hrecords⟩ := ih.mp h
      rw [record] at h1
      split at h1
      · cases h1
      · cases h1
        exact ⟨hqid, by rw [hrecords, List.append_assoc]; rfl⟩
    · rintro ⟨hqid, hrecords⟩
      have hnew : t.1 ∉ r.records.map Prod.fst := by
        intro hmem
        have hnodup := r'.distinct
        rw [hrecords, List.map_append, List.map_cons] at hnodup
        exact (List.nodup_append.mp hnodup).2.2 t.1 hmem t.1 List.mem_cons_self rfl
      refine ⟨⟨r.qid, r.records ++ [(t.1, t.2)], distinct_concat r.distinct hnew⟩, ?_, ?_⟩
      · rw [record, dif_neg hnew]
      · exact ih.mpr ⟨hqid, by rw [hrecords, List.append_assoc]; rfl⟩

theorem pairs_names (r : Recorder) : r.pairs.map Prod.fst = r.records.map Prod.fst := by
  rw [pairs, List.map_map]
  rfl

theorem pairs_length (r : Recorder) : r.pairs.length = r.total := List.length_map _

theorem pairs_status (r : Recorder) : ∀ t ∈ r.pairs, t.2 = passText ∨ t.2 = failText := by
  intro t ht
  obtain ⟨⟨name, ok⟩, -, rfl⟩ := List.mem_map.mp ht
  cases ok
  · exact .inr rfl
  · exact .inl rfl

theorem passCount_pairs (r : Recorder) : passCount r.pairs = r.passed := by
  rw [passCount, pairs, List.filter_map, List.length_map, passed]
  congr 1
  refine List.filter_congr fun t _ => ?_
  obtain ⟨name, ok⟩ := t
  cases ok
  · exact decide_eq_false (by decide : failText ≠ passText)
  · exact decide_eq_true (rfl : passText = passText)

end Records

section Seal
variable {ft} {p : Process} (r : Recorder)

theorem sortItems_rows (pairs : List (Str × Str)) :
    sortItems (pairs.map fun t => .arr [.str t.1, .str t.2]) =
      pairs.map fun t => .arr [.str t.1, .str t.2] := by
  induction pairs with
  | nil => rfl
  | cons t pairs ih => rw [List.map_cons, sortItems, ih]; rfl

theorem sortKeys_optionText (s : Option Str) : (optionText s).sortKeys = optionText s := by
  cases s <;> rfl

def sortedFields (r : Recorder) (p : Process) : List (Str × Json) :=
  [ ("complete".toList, .bool true),
    ("nonce".toList, optionText p.nonce),
    ("passed".toList, .int r.passed),
    ("pid".toList, .int p.pid),
    ("protocol".toList, .str hiddenProtocol),
    ("qid".toList, .str r.qid),
    ("runner".toList, optionText p.runner),
    ("tests".toList, .arr (r.pairs.map fun t => .arr [.str t.1, .str t.2])),
    ("total".toList, .int r.total)]

theorem sortKeys_payload : (r.payload p).sortKeys = .obj (r.sortedFields p) := by
  rw [payload, Json.sortKeys]
  simp only [sortFields, Json.sortKeys, sortKeys_optionText, sortItems_rows]
  rfl

theorem field_tests : Json.field (r.sortedFields p) "tests" =
    .arr (r.pairs.map fun t => .arr [.str t.1, .str t.2]) := rfl

theorem testRows_pairs (pairs : List (Str × Str)) :
    testRows (.arr (pairs.map fun t => .arr [.str t.1, .str t.2])) =
      some (pairs.map fun t => (.str t.1, .str t.2)) := by
  induction pairs with
  | nil => rfl
  | cons t pairs ih =>
    simp only [testRows, List.map_cons, List.mapM_cons] at ih ⊢
    rw [ih]
    rfl

theorem sealedLine_printable : ∀ c ∈ r.sealedLine ft p, Printable c := by
  intro c hc
  rcases List.mem_append.mp hc with hc | hc
  · have hprefix : hiddenResultPrefix.all (fun d => decide (32 ≤ d.toNat) && decide (d.toNat < 127)) =
        true := by decide
    exact (Bool.and_eq_true_iff.mp (List.all_eq_true.mp hprefix c hc)).imp of_decide_eq_true
      of_decide_eq_true
  · exact text_printable ft rfl _ c hc

theorem isBoundary_of_printable {c : Char} (h : Printable c) : isBoundary c = false := by
  obtain ⟨h32, h127⟩ := h
  simp only [isBoundary, Bool.or_eq_false_iff, beq_eq_false_iff_ne]
  refine ⟨⟨⟨⟨⟨⟨⟨⟨⟨?_, ?_⟩, ?_⟩, ?_⟩, ?_⟩, ?_⟩, ?_⟩, ?_⟩, ?_⟩, ?_⟩ <;> rintro rfl <;> revert h32 h127 <;> decide

/-- What the channel holds around the record, whole lines before and anything after it, is read by
itself. -/
theorem sealedLines_around {before after : Str} (hp : p.listening = true)
    (hbefore : before = [] ∨ before.getLast? = some '\n') :
    sealedLines (before ++ r.sealText ft p ++ after) =
      sealedLines before ++ r.sealedLine ft p :: sealedLines after := by
  have hplain : ∀ c ∈ r.sealedLine ft p, isBoundary c = false :=
    fun c hc => isBoundary_of_printable (r.sealedLine_printable c hc)
  have hline := splitlines_line hplain after
  have hprefix : startsWith (r.sealedLine ft p) hiddenResultPrefix = true :=
    startsWith_iff.mpr (List.prefix_append _ _)
  have hsplit : splitlines (before ++ r.sealText ft p ++ after) =
      splitlines before ++ r.sealedLine ft p :: splitlines after := by
    rw [sealText, if_pos hp]
    rcases hbefore with rfl | hlast
    · rw [List.nil_append, List.append_assoc, List.singleton_append, hline]
      rfl
    · obtain ⟨front, rfl⟩ := List.getLast?_eq_some_iff.mp hlast
      have hassoc : front ++ ['\n'] ++ (r.sealedLine ft p ++ ['\n']) ++ after =
          front ++ '\n' :: (r.sealedLine ft p ++ '\n' :: after) := by simp
      rw [hassoc, splitlines_newline, hline]
  rw [sealedLines, hsplit, List.filter_append, List.filter_cons, if_pos hprefix]
  rfl

theorem sealedLine_mem {before after : Str} (hp : p.listening = true)
    (hbefore : before = [] ∨ before.getLast? = some '\n') :
    r.sealedLine ft p ∈ sealedLines (before ++ r.sealText ft p ++ after) := by
  rw [r.sealedLines_around hp hbefore]
  exact List.mem_append_right _ List.mem_cons_self

/-- The grader's JSON parser reads the sealed payload back. -/
def ReadsBack (py : Interpreter) (ft : FloatText) (r : Recorder) (p : Process) : Prop :=
  py.loads (dumps sealStyle ft (r.payload p)) = .ok (r.payload p).sortKeys

/-- A believed score is the one that the runner recorded, whatever the candidate's code has written to
the channel before it, as whole lines, or after it, and whatever stands on stdout. -/
theorem believed_own {py : Interpreter} {task : TaskKey} {spec : HarnessSpec}
    {output before after nonce : Str} {v : Verdict} (hp : p.listening = true)
    (hread : ReadsBack py ft r p) (hbefore : before = [] ∨ before.getLast? = some '\n')
    (hv : verifyHiddenResult py task output (before ++ r.sealText ft p ++ after) nonce spec = .ok v)
    (hok : v.ok = true) :
    v.passed = some r.passed ∧ v.total = some r.total ∧
      (∀ name, name ∈ r.records.map Prod.fst ↔ name ∈ spec.hiddenTests) ∧
      htestPairs py.unicode output = r.pairs := by
  obtain ⟨pairs, ⟨-, hstdout, fields, hsealed, hrecord⟩, hpassed, htotal⟩ :=
    verify_ok_iff.mp ⟨v, hv, hok, rfl, rfl⟩
  obtain ⟨line, hlines, hloads⟩ := hsealed
  have hline : r.sealedLine ft p = line := by
    have hmem : r.sealedLine ft p ∈ sealedLines (before ++ r.sealText ft p ++ after) :=
      r.sealedLine_mem hp hbefore
    rw [hlines] at hmem
    exact List.mem_singleton.mp hmem
  have hdrop : line.drop hiddenResultPrefix.length = dumps sealStyle ft (r.payload p) := by
    rw [← hline, sealedLine, List.drop_left]
  rw [hdrop, hread, sortKeys_payload] at hloads
  injection hloads with hfields
  injection hfields with hfields
  subst hfields
  obtain ⟨rows, hrows, hpairs⟩ := hrecord.tests
  rw [field_tests, testRows_pairs] at hrows
  injection hrows with hrows
  have hown : pairs = r.pairs := by
    rw [hpairs, ← hrows, List.map_map]
    refine List.map_id'' (fun t => ?_) _
    exact Prod.ext (py.str_str _) (py.str_str _)
  subst hown
  refine ⟨by rw [hpassed, passCount_pairs], by rw [htotal, pairs_length], ?_, hstdout.htest⟩
  intro name
  rw [← hrecord.expected, pairs_names]

end Seal

end Recorder

end Round4
