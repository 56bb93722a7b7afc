import LlmHardtest.Round4.Verification
set_option autoImplicit false

/-! Exactly which hidden runs are believed. -/

namespace Round4
open Python Python.Regex

def passCount (pairs : List (Str × Str)) : Nat := (pairs.filter fun p => p.2 = passText).length

/-- The channel holds one sealed record, an object with these fields. -/
def SealedObject (py : Interpreter) (sealed : Str) (fields : List (Str × Json)) : Prop :=
  ∃ line, sealedLines sealed = [line] ∧ py.loads (line.drop hiddenResultPrefix.length) =
    .ok (.obj fields)

/-- The sealed record is the one of this run, is complete, names exactly the expected tests once
each, and its numbers are those of its own list `pairs`. -/
structure RecordChecks (py : Interpreter) (task : TaskKey) (nonce : Str) (expected : List Str)
    (fields : List (Str × Json)) (pairs : List (Str × Str)) : Prop where
  protocol : (Json.field fields "protocol").eqStr hiddenProtocol = true
  nonce : (Json.field fields "nonce").eqStr nonce = true
  qid : (Json.field fields "qid").eqStr (taskMeta task).qid = true
  complete : (Json.field fields "complete").isTrue = true
  tests : ∃ rows, testRows (Json.field fields "tests") = some rows ∧
    pairs = rows.map fun (name, status) => (py.str name, py.str status)
  statuses : ∀ p ∈ pairs, p.2 = passText ∨ p.2 = failText
  distinct : (pairs.map Prod.fst).Nodup
  expected : ∀ name, name ∈ pairs.map Prod.fst ↔ name ∈ expected
  total : (Json.field fields "total").eqInt pairs.length = true
  passed : (Json.field fields "passed").eqInt (passCount pairs) = true

/-- Stdout lists the same verdicts in the same order, and has summary lines, which all state the
same counts. -/
structure StdoutChecks (u : UnicodeData) (output : Str) (pairs : List (Str × Str)) : Prop where
  htest : htestPairs u output = pairs
  summaries : ∃ summaries, scanAllScores u output hiddenPatterns = .ok summaries ∧
    summaries ≠ [] ∧ ∀ s ∈ summaries, s = (passCount pairs, pairs.length)

/-- Everything that a believed run rests on. -/
def Backed (py : Interpreter) (task : TaskKey) (output sealed nonce : Str) (spec : HarnessSpec)
    (pairs : List (Str × Str)) : Prop :=
  spec.hiddenTests ≠ [] ∧ StdoutChecks py.unicode output pairs ∧
    ∃ fields, SealedObject py sealed fields ∧
      RecordChecks py task nonce spec.hiddenTests fields pairs

section Checks
variable {py : Interpreter} {qid nonce : Str} {expected : List Str} {htest : List (Str × Str)}
  {summaries : List (Nat × Nat)} {base : Verdict} {fields : List (Str × Json)}

@[simp] theorem sortedNames_eq_nil {names : List Str} : sortedNames names = [] ↔ names = [] := by
  rw [sortedNames, ← List.length_eq_zero_iff, List.length_insertionSort, List.length_eq_zero_iff,
    List.dedup_eq_nil]

theorem namesMatch_iff {names : List Str} :
    sortedNames (expected.filter fun n => n ∉ names) = [] ∧
      sortedNames (names.filter fun n => n ∉ expected) = [] ↔
      ∀ n, n ∈ names ↔ n ∈ expected := by
  simp only [sortedNames_eq_nil, List.filter_eq_nil_iff, decide_eq_true_eq, not_not]
  constructor
  · intro h n
    exact ⟨h.2 n, h.1 n⟩
  · intro h
    exact ⟨fun n => (h n).mpr, fun n => (h n).mp⟩

theorem ite_refused {c : Prop} [Decidable c] {refused v : Verdict} (h : refused.ok = false) :
    (if c then refused else v).ok = true ↔ ¬ c ∧ v.ok = true := by
  split
  · rename_i hc
    simp [hc, h]
  · rename_i hc
    simp [hc]

theorem checkTests_ok_iff {pairs : List (Str × Str)} (hb : base.ok = false) :
    (checkTests py expected htest summaries base fields pairs).ok = true ↔
      (∀ p ∈ pairs, p.2 = passText ∨ p.2 = failText) ∧ (pairs.map Prod.fst).Nodup ∧
      (Json.field fields "total").eqInt pairs.length = true ∧
      (Json.field fields "passed").eqInt (passCount pairs) = true ∧
      (∀ n, n ∈ pairs.map Prod.fst ↔ n ∈ expected) ∧ htest = pairs ∧ summaries ≠ [] ∧
      ∀ s ∈ summaries, s = (passCount pairs, pairs.length) := by
  have hstatus : (pairs.any fun p => decide (p.2 ≠ passText ∧ p.2 ≠ failText)) = true ↔
      ¬ ∀ p ∈ pairs, p.2 = passText ∨ p.2 = failText := by
    simp only [List.any_eq_true, decide_eq_true_eq, not_forall, not_or, exists_prop]
  have hnames : (sortedNames (expected.filter fun n => n ∉ pairs.map Prod.fst) ≠ [] ∨
      sortedNames ((pairs.map Prod.fst).filter fun n => n ∉ expected) ≠ []) ↔
      ¬ ∀ n, n ∈ pairs.map Prod.fst ↔ n ∈ expected := by
    rw [← namesMatch_iff]
    tauto
  have hoff : (summaries.filter fun s =>
      decide (s ≠ ((pairs.filter fun p => p.2 = passText).length, pairs.length))) ≠ [] ↔
      ¬ ∀ s ∈ summaries, s = (passCount pairs, pairs.length) := by
    rw [ne_eq, List.filter_eq_nil_iff]
    simp only [decide_eq_true_eq, not_not]
    rfl
  unfold checkTests
  dsimp only
  rw [ite_refused, ite_refused, ite_refused, ite_refused, ite_refused, ite_refused, ite_refused]
  · rw [hstatus, hnames, hoff, not_not, not_not, not_not, not_not, not_not]
    simp only [Bool.or_eq_true, Bool.not_eq_true', not_or, Bool.not_eq_false, passCount]
    tauto
  all_goals exact hb

theorem checkRecord_ok_iff {task : TaskKey} (hb : base.ok = false) :
    (checkRecord py (taskMeta task).qid nonce expected htest summaries base fields).ok = true ↔
      ∃ pairs, RecordChecks py task nonce expected fields pairs ∧ htest = pairs ∧ summaries ≠ [] ∧
        ∀ s ∈ summaries, s = (passCount pairs, pairs.length) := by
  unfold checkRecord
  dsimp only
  rw [ite_refused, ite_refused, ite_refused, ite_refused]
  · simp only [Bool.not_eq_true', Bool.not_eq_false]
    cases hrows : testRows (Json.field fields "tests") with
    | none =>
      constructor
      · intro ⟨_, _, _, _, h⟩
        exact absurd h (by simp [Verdict.forge, hb])
      · intro ⟨_, h, _⟩
        obtain ⟨rows, hr, _⟩ := h.tests
        rw [hrows] at hr
        cases hr
    | some rows =>
      simp only [checkTests_ok_iff hb]
      constructor
      · intro ⟨hprotocol, hnonce, hqid, hcomplete, hstatuses, hdistinct, htotal, hpassed, hexpected,
          hout, hsome, hall⟩
        exact ⟨_, ⟨hprotocol, hnonce, hqid, hcomplete, ⟨rows, hrows, rfl⟩, hstatuses, hdistinct,
          hexpected, htotal, hpassed⟩, hout, hsome, hall⟩
      · intro ⟨pairs, h, hout, hsome, hall⟩
        obtain ⟨rows', hr, hpairs⟩ := h.tests
        rw [hrows] at hr
        cases hr
        subst hpairs
        exact ⟨h.protocol, h.nonce, h.qid, h.complete, h.statuses, h.distinct, h.total, h.passed,
          h.expected, hout, hsome, hall⟩
  all_goals exact hb

end Checks

section Verify
variable {py : Interpreter} {task : TaskKey} {output sealed nonce : Str} {spec : HarnessSpec}

def baseVerdict (u : UnicodeData) (output : Str) (spec : HarnessSpec)
    (summaries : List (Nat × Nat)) : Verdict :=
  { stdoutSummaries := summaries, htestLines := (htestPairs u output).length
    expectedTotal := if spec.hiddenTests.length = 0 then none else some spec.hiddenTests.length
    sealedRecords := some 1 }

theorem verify_sealedObject {fields : List (Str × Json)} {summaries : List (Nat × Nat)}
    (hspec : spec.hiddenTests ≠ []) (hsealed : SealedObject py sealed fields)
    (hs : scanAllScores py.unicode output hiddenPatterns = .ok summaries) :
    verifyHiddenResult py task output sealed nonce spec = .ok (checkRecord py (taskMeta task).qid nonce
      spec.hiddenTests (htestPairs py.unicode output) summaries
      (baseVerdict py.unicode output spec summaries) fields) := by
  obtain ⟨line, hline, hload⟩ := hsealed
  unfold verifyHiddenResult
  rw [hs]
  simp only [hline, hload, hspec, if_false]
  rfl

theorem verify_ok_sealedObject {v : Verdict}
    (h : verifyHiddenResult py task output sealed nonce spec = .ok v) (hok : v.ok = true) :
    spec.hiddenTests ≠ [] ∧ (∃ fields, SealedObject py sealed fields) ∧
      ∃ summaries, scanAllScores py.unicode output hiddenPatterns = .ok summaries := by
  obtain ⟨summaries, hs, h'⟩ := Failures.bind_eq_ok.mp h
  have hspec : spec.hiddenTests ≠ [] := by
    intro hnil
    dsimp only at h'
    rw [hnil] at h'
    cases hl : sealedLines sealed with
    | nil =>
      rw [hl] at h'
      cases h'
      cases hok
    | cons line lines =>
      cases lines with
      | nil =>
        rw [hl] at h'
        dsimp only at h'
        cases hload : py.loads (line.drop hiddenResultPrefix.length) with
        | ok record =>
          rw [hload] at h'
          cases h'
          cases hok
        | error e =>
          rw [hload] at h'
          cases e <;> cases h'
          cases hok
      | cons line2 lines =>
        rw [hl] at h'
        cases h'
        cases hok
  refine ⟨hspec, ?_, summaries, hs⟩
  obtain ⟨pairs, hpairs, _⟩ := verify_ok_reports h hok
  unfold recordPairs at hpairs
  split at hpairs
  · rename_i line hline
    split at hpairs
    · rename_i fields hload
      exact ⟨fields, line, hline, hload⟩
    · cases hpairs
  · cases hpairs

/-- A run is believed exactly when everything backs it, and then it has the numbers of the record's
list. -/
theorem verify_ok_iff {passed total : Option Nat} :
    (∃ v, verifyHiddenResult py task output sealed nonce spec = .ok v ∧ v.ok = true ∧
      v.passed = passed ∧ v.total = total) ↔
    ∃ pairs, Backed py task output sealed nonce spec pairs ∧ passed = some (passCount pairs) ∧
      total = some pairs.length := by
  constructor
  · rintro ⟨v, hv, hok, rfl, rfl⟩
    obtain ⟨hspec, ⟨fields, hsealed⟩, summaries, hs⟩ := verify_ok_sealedObject hv hok
    have hcheck := @verify_sealedObject py task output sealed nonce spec _ _ hspec hsealed hs
    rw [hv] at hcheck
    injection hcheck with hcheck
    rw [hcheck] at hok ⊢
    obtain ⟨pairs, hrecord, hout, hsome, hall⟩ := (checkRecord_ok_iff rfl).mp hok
    obtain ⟨rows, hrows, hreport⟩ := checkRecord_ok rfl rfl hok
    obtain ⟨rows', hrows', hpairs⟩ := hrecord.tests
    rw [hrows] at hrows'
    cases hrows'
    rw [← hpairs] at hreport
    exact ⟨pairs, ⟨hspec, ⟨hout, summaries, hs, hsome, hall⟩, fields, hsealed, hrecord⟩,
      hreport.passed, hreport.total⟩
  · rintro ⟨pairs, ⟨hspec, ⟨hout, summaries, hs, hsome, hall⟩, fields, hsealed, hrecord⟩, rfl, rfl⟩
    have hok : (checkRecord py (taskMeta task).qid nonce spec.hiddenTests
        (htestPairs py.unicode output) summaries (baseVerdict py.unicode output spec summaries)
        fields).ok = true := (checkRecord_ok_iff rfl).mpr ⟨pairs, hrecord, hout, hsome, hall⟩
    obtain ⟨rows, hrows, hreport⟩ := checkRecord_ok rfl rfl hok
    obtain ⟨rows', hrows', hpairs⟩ := hrecord.tests
    rw [hrows] at hrows'
    cases hrows'
    rw [← hpairs] at hreport
    exact ⟨_, verify_sealedObject hspec hsealed hs, hok, hreport.passed, hreport.total⟩

theorem Backed.length_eq {pairs : List (Str × Str)}
    (h : Backed py task output sealed nonce spec pairs) :
    pairs.length = spec.hiddenTests.dedup.length := by
  obtain ⟨_, _, _, _, hrecord⟩ := h
  have hperm : (pairs.map Prod.fst).Perm spec.hiddenTests.dedup :=
    (List.perm_ext_iff_of_nodup hrecord.distinct (List.nodup_dedup _)).mpr fun name => by
      rw [hrecord.expected, List.mem_dedup]
  rw [← hperm.length_eq, List.length_map]

end Verify

end Round4
