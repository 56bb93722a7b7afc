import LlmHardtest.Round4.Hidden
set_option autoImplicit false

/-! When the decision about a hidden run is total, and when a bad seal is told from a crash. -/

namespace Round4
open Python Python.Regex

def ScoresReadable (u : UnicodeData) (text : Str) (patterns : List Re) : Prop :=
  ∀ h ∈ patterns.flatMap fun r => findIter u r text,
    (h.group 1).length ≤ maxIntDigits ∧ (h.group 2).length ≤ maxIntDigits

theorem scanAllScores_returns {u : UnicodeData} {text : Str} {patterns : List Re} :
    (∃ s, scanAllScores u text patterns = .ok s) ↔ ScoresReadable u text patterns := by
  have hstep : ∀ h : Hit, (∃ b, (do
      let n ← pyInt u (h.group 1)
      let m ← pyInt u (h.group 2)
      return (h.start, n, m) : Outcome (Nat × Nat × Nat)) = .ok b) ↔
      (h.group 1).length ≤ maxIntDigits ∧ (h.group 2).length ≤ maxIntDigits := by
    intro h
    rw [← pyInt_ok_iff (u := u), ← pyInt_ok_iff (u := u)]
    constructor
    · rintro ⟨b, hb⟩
      obtain ⟨n, hn, hb⟩ := Failures.bind_eq_ok.mp hb
      obtain ⟨m, hm, _⟩ := Failures.bind_eq_ok.mp hb
      exact ⟨⟨n, hn⟩, m, hm⟩
    · rintro ⟨⟨n, hn⟩, m, hm⟩
      exact ⟨(h.start, n, m), by rw [hn, hm]; rfl⟩
  unfold ScoresReadable
  simp only [← hstep]
  rw [← Outcome.mapM_returns]
  constructor
  · rintro ⟨s, hs⟩
    obtain ⟨hits, hh, _⟩ := Failures.bind_eq_ok.mp hs
    exact ⟨hits, hh⟩
  · rintro ⟨hits, hh⟩
    exact ⟨_, by unfold scanAllScores; rw [hh]; rfl⟩

theorem scanAllScores_eq_nil {u : UnicodeData} {text : Str} {patterns : List Re}
    {s : List (Nat × Nat)} (h : scanAllScores u text patterns = .ok s) :
    s = [] ↔ (patterns.flatMap fun r => findIter u r text) = [] := by
  obtain ⟨hits, hh, hs⟩ := Failures.bind_eq_ok.mp h
  cases hs
  rw [← List.length_eq_zero_iff, List.length_map, List.length_insertionSort,
    Outcome.mapM_length hh, List.length_eq_zero_iff]

section Checks
variable {py : Interpreter} {qid nonce : Str} {expected : List Str} {htest : List (Str × Str)}
  {summaries : List (Nat × Nat)} {base : Verdict} {fields : List (Str × Json)}

def Verdict.Decided (v : Verdict) : Prop := v.ok = true ∨ v.forged = true

theorem checkTests_decided (pairs : List (Str × Str)) :
    (checkTests py expected htest summaries base fields pairs).Decided := by
  unfold checkTests Verdict.Decided Verdict.forge
  dsimp only
  split_ifs <;> simp

theorem checkRecord_decided :
    (checkRecord py qid nonce expected htest summaries base fields).Decided := by
  unfold checkRecord
  dsimp only
  split_ifs
  · exact .inr rfl
  · exact .inr rfl
  · exact .inr rfl
  · exact .inr rfl
  · split
    · exact .inr rfl
    · exact checkTests_decided _

end Checks

def ClaimsResult (u : UnicodeData) (output : Str) : Prop :=
  (hiddenPatterns.flatMap fun r => findIter u r output) ≠ [] ∨ htestPairs u output ≠ []

/-- A single sealed line that `verify_hidden_result` classifies: an object, or a `null` or
malformed line next to a result claimed on stdout. -/
def SealClassified (py : Interpreter) (output line : Str) : Prop :=
  match py.loads (line.drop hiddenResultPrefix.length) with
  | .ok (.obj _) => True
  | .ok .null => ClaimsResult py.unicode output
  | .ok _ => False
  | .error (.valueError _) => ClaimsResult py.unicode output
  | .error _ => False

def BadSeal (py : Interpreter) (line : Str) : Prop :=
  ∀ fields, py.loads (line.drop hiddenResultPrefix.length) ≠ .ok (.obj fields)

theorem noRecord_forged {summaries : List (Nat × Nat)} {htest : List (Str × Str)}
    {base : Verdict} {e : Option Str} :
    (noRecord summaries htest base e).forged = true ↔ summaries ≠ [] ∨ htest ≠ [] := by
  cases summaries <;> cases htest <;> simp [noRecord]

@[simp] theorem noRecord_ok {summaries : List (Nat × Nat)} {htest : List (Str × Str)}
    {base : Verdict} {e : Option Str} : (noRecord summaries htest base e).ok = base.ok := rfl

/-- The verdict on any channel content is total and tells a bad seal from a crash. -/
def SealVerdict (py : Interpreter) (task : TaskKey) (output sealed nonce : Str)
    (spec : HarnessSpec) : Prop :=
  ∃ v, verifyHiddenResult py task output sealed nonce spec = .ok v ∧
    (sealedLines sealed ≠ [] → v.Decided) ∧
    (∀ line ∈ sealedLines sealed, BadSeal py line → v.forged = true)

section Judge
variable {py : Interpreter} {task : TaskKey} {output sealed nonce line : Str} {spec : HarnessSpec}
  {summaries : List (Nat × Nat)}

theorem claimsResult_iff
    (hs : scanAllScores py.unicode output hiddenPatterns = .ok summaries) :
    (summaries ≠ [] ∨ htestPairs py.unicode output ≠ []) ↔ ClaimsResult py.unicode output := by
  unfold ClaimsResult
  rw [ne_eq, scanAllScores_eq_nil hs]

variable (task nonce) in
theorem verify_no_line (hspec : spec.hiddenTests ≠ [])
    (hs : scanAllScores py.unicode output hiddenPatterns = .ok summaries)
    (hl : sealedLines sealed = []) :
    ∃ v, verifyHiddenResult py task output sealed nonce spec = .ok v := by
  unfold verifyHiddenResult
  rw [hs]
  simp only [hl, hspec, if_false]
  exact ⟨_, rfl⟩

variable (task nonce spec) in
theorem verify_many_lines {l1 l2 : Str} {ls : List Str}
    (hs : scanAllScores py.unicode output hiddenPatterns = .ok summaries)
    (hl : sealedLines sealed = l1 :: l2 :: ls) :
    ∃ v, verifyHiddenResult py task output sealed nonce spec = .ok v ∧ v.forged = true := by
  unfold verifyHiddenResult
  rw [hs]
  simp only [hl]
  exact ⟨_, rfl, rfl⟩

variable (task nonce) in
/-- One sealed line: an object is checked, a `null` or malformed line counts as no record, and
any other value raises. -/
theorem verify_one_line (hspec : spec.hiddenTests ≠ [])
    (hs : scanAllScores py.unicode output hiddenPatterns = .ok summaries)
    (hl : sealedLines sealed = [line]) :
    (∃ v, verifyHiddenResult py task output sealed nonce spec = .ok v ∧ v.Decided ∧
      (BadSeal py line → v.forged = true)) ↔ SealClassified py output line := by
  have hclaims := claimsResult_iff hs
  have hbad : ∀ v e, v = noRecord summaries (htestPairs py.unicode output)
      { stdoutSummaries := summaries, htestLines := (htestPairs py.unicode output).length
        expectedTotal := some spec.hiddenTests.length, sealedRecords := some 1 } e →
      ((v.Decided ∧ (BadSeal py line → v.forged = true)) ↔ ClaimsResult py.unicode output) := by
    rintro v e rfl
    rw [← hclaims, ← noRecord_forged (e := e), Verdict.Decided, noRecord_ok]
    constructor
    · rintro ⟨h | h, _⟩
      · cases h
      · exact h
    · exact fun h => ⟨.inr h, fun _ => h⟩
  have hlen : ¬ spec.hiddenTests.length = 0 := fun h => hspec (List.length_eq_zero_iff.mp h)
  unfold verifyHiddenResult SealClassified
  rw [hs]
  simp only [hl, hspec, hlen, if_false, List.length_singleton]
  cases hload : py.loads (line.drop hiddenResultPrefix.length) with
  | error e =>
    cases e with
    | valueError m =>
      constructor
      · rintro ⟨v, hv, h⟩
        exact (hbad v (some m) (by injection hv with hv; exact hv.symm)).mp h
      · exact fun h => ⟨_, rfl, (hbad _ (some m) rfl).mpr h⟩
    | _ => exact ⟨fun ⟨_, hv, _⟩ => (nomatch hv), False.elim⟩
  | ok record =>
    cases record with
    | null =>
      constructor
      · rintro ⟨v, hv, h⟩
        exact (hbad v none (by injection hv with hv; exact hv.symm)).mp h
      · exact fun h => ⟨_, rfl, (hbad _ none rfl).mpr h⟩
    | obj fields =>
      have hnot : ¬ BadSeal py line := fun h => h fields hload
      exact ⟨fun _ => trivial, fun _ => ⟨_, rfl, checkRecord_decided, fun h => absurd h hnot⟩⟩
    | _ => exact ⟨fun ⟨_, hv, _⟩ => (nomatch hv), False.elim⟩

/-- The verdict is total and sound exactly when the printed numbers are readable and a single
sealed line is one the code classifies. -/
theorem sealVerdict_iff (py : Interpreter) (task : TaskKey) (output sealed nonce : Str)
    (spec : HarnessSpec) (hspec : spec.hiddenTests ≠ []) :
    SealVerdict py task output sealed nonce spec ↔
      ScoresReadable py.unicode output hiddenPatterns ∧
        ∀ line, sealedLines sealed = [line] → SealClassified py output line := by
  constructor
  · rintro ⟨v, hv, hdec, hbad⟩
    obtain ⟨summaries, hs, _⟩ := Failures.bind_eq_ok.mp hv
    refine ⟨scanAllScores_returns.mp ⟨summaries, hs⟩, fun line hl => ?_⟩
    rw [hl] at hdec hbad
    exact (verify_one_line task nonce hspec hs hl).mp ⟨v, hv, hdec (by simp), hbad line (by simp)⟩
  · rintro ⟨hread, hseal⟩
    obtain ⟨summaries, hs⟩ := scanAllScores_returns.mpr hread
    match hl : sealedLines sealed with
    | [] =>
      obtain ⟨v, hv⟩ := verify_no_line task nonce hspec hs hl
      exact ⟨v, hv, fun h => absurd hl h, by simp [hl]⟩
    | [line] =>
      obtain ⟨v, hv, hdec, hbad⟩ :=
        (verify_one_line task nonce hspec hs hl).mpr (hseal line hl)
      refine ⟨v, hv, fun _ => hdec, fun l hmem => ?_⟩
      rw [hl, List.mem_singleton] at hmem
      rw [hmem]
      exact hbad
    | l1 :: l2 :: ls =>
      obtain ⟨v, hv, hf⟩ := verify_many_lines task nonce spec hs hl
      exact ⟨v, hv, fun _ => .inr hf, fun _ _ _ => hf⟩

end Judge

/-- A sealed `null` on a silent run passes for a crash. -/
theorem sealed_null_not_forged :
    ¬ SealVerdict (.ofTable [("null".toList, .null)]) .q26HiddenTests [] "V4RESULT null\n".toList
      "0".toList ⟨[], false, ["t1".toList]⟩ := by
  rintro ⟨v, hv, hdec, _⟩
  have hcrash : verifyHiddenResult (.ofTable [("null".toList, .null)]) .q26HiddenTests []
      "V4RESULT null\n".toList "0".toList ⟨[], false, ["t1".toList]⟩ =
      .ok { reason := some ("no sealed hidden result and no summary on stdout: ".toList ++
              "the hidden runner crashed before finishing".toList)
            expectedTotal := some 1, sealedRecords := some 1 } := by rfl
  rw [hcrash] at hv
  cases hv
  have hlines : sealedLines "V4RESULT null\n".toList ≠ [] := by decide
  exact absurd (hdec hlines) (by simp [Verdict.Decided])

/-- A readable run with an object on the channel. -/
theorem sealVerdict_iff_object :
    SealVerdict (.ofTable [("\x7b\x7d".toList, .obj [])]) .q26HiddenTests [] "V4RESULT \x7b\x7d".toList
      "0".toList ⟨[], false, ["t1".toList]⟩ := by
  refine (sealVerdict_iff _ _ _ _ _ _ (by simp)).mpr ⟨?_, ?_⟩
  · intro h hm
    have hnone : (hiddenPatterns.flatMap fun r => findIter asciiData r []) = [] := by decide
    exact absurd (hnone ▸ hm) (by simp)
  · intro line hl
    have hline : sealedLines "V4RESULT \x7b\x7d".toList = ["V4RESULT \x7b\x7d".toList] := by decide
    rw [hline] at hl
    injection hl with hl
    subst hl
    trivial

/-! What a believed verdict rests on. -/

def recordPairs (py : Interpreter) (sealed : Str) : Option (List (Str × Str)) :=
  match sealedLines sealed with
  | [line] =>
      match py.loads (line.drop hiddenResultPrefix.length) with
      | .ok (.obj fields) => (testRows (Json.field fields "tests")).map fun rows =>
          rows.map fun (name, status) => (py.str name, py.str status)
      | _ => none
  | _ => none

def recordFailures (py : Interpreter) (sealed : Str) : List Str :=
  (((recordPairs py sealed).getD []).filter fun p => p.2 = failText).map Prod.fst

/-- The verdict reports the numbers of a test list in which every verdict is pass or fail. -/
structure Verdict.Reports (v : Verdict) (pairs : List (Str × Str)) : Prop where
  statuses : ∀ p ∈ pairs, p.2 = passText ∨ p.2 = failText
  passed : v.passed = some (pairs.filter fun p => p.2 = passText).length
  total : v.total = some pairs.length
  notForged : v.forged = false

section Believed
variable {py : Interpreter} {qid nonce : Str} {expected : List Str} {htest : List (Str × Str)}
  {summaries : List (Nat × Nat)} {base : Verdict} {fields : List (Str × Json)}

theorem checkTests_ok {pairs : List (Str × Str)} (hb : base.ok = false) (hf : base.forged = false)
    (h : (checkTests py expected htest summaries base fields pairs).ok = true) :
    (checkTests py expected htest summaries base fields pairs).Reports pairs := by
  have hforge : base.ok ≠ true := by simp [hb]
  unfold checkTests at h ⊢
  dsimp only at h ⊢
  by_cases h1 : (pairs.any fun p => decide (p.2 ≠ passText ∧ p.2 ≠ failText)) = true
  · rw [if_pos h1] at h
    exact absurd h hforge
  have hstat : ∀ p ∈ pairs, p.2 = passText ∨ p.2 = failText := by
    intro p hp
    by_contra hc
    rw [not_or] at hc
    exact h1 (List.any_eq_true.mpr ⟨p, hp, by simpa using hc⟩)
  rw [if_neg h1] at h ⊢
  split_ifs at h ⊢
  · exact absurd h hforge
  · exact absurd h hforge
  · exact absurd h hforge
  · exact absurd h hforge
  · exact absurd h hforge
  · exact ⟨hstat, rfl, rfl, hf⟩
  · exact absurd h hforge

theorem checkRecord_ok (hb : base.ok = false) (hf : base.forged = false)
    (h : (checkRecord py qid nonce expected htest summaries base fields).ok = true) :
    ∃ rows, testRows (Json.field fields "tests") = some rows ∧
      (checkRecord py qid nonce expected htest summaries base fields).Reports
        (rows.map fun (name, status) => (py.str name, py.str status)) := by
  have hforge : base.ok ≠ true := by simp [hb]
  unfold checkRecord at h ⊢
  dsimp only at h ⊢
  split_ifs at h ⊢
  · exact absurd h hforge
  · exact absurd h hforge
  · exact absurd h hforge
  · exact absurd h hforge
  · cases hrows : testRows (Json.field fields "tests") with
    | none =>
      rw [hrows] at h
      exact absurd h hforge
    | some rows =>
      rw [hrows] at h
      exact ⟨rows, rfl, checkTests_ok hb hf h⟩

end Believed

/-- A believed run has one sealed record, and reports what that record says. -/
theorem verify_ok_reports {py : Interpreter} {task : TaskKey} {output sealed nonce : Str}
    {spec : HarnessSpec} {v : Verdict}
    (h : verifyHiddenResult py task output sealed nonce spec = .ok v) (hok : v.ok = true) :
    ∃ pairs, recordPairs py sealed = some pairs ∧ v.Reports pairs := by
  obtain ⟨summaries, hs, h⟩ := Failures.bind_eq_ok.mp h
  dsimp only at h
  unfold recordPairs
  match hl : sealedLines sealed with
  | [] =>
    rw [hl] at h
    dsimp only at h
    split_ifs at h <;> (injection h with h; subst h; cases hok)
  | l1 :: l2 :: ls =>
    rw [hl] at h
    injection h with h
    subst h
    cases hok
  | [line] =>
    rw [hl] at h
    dsimp only at h ⊢
    cases hload : py.loads (line.drop hiddenResultPrefix.length) with
    | error e =>
      rw [hload] at h
      cases e with
      | valueError m =>
        dsimp only at h
        split_ifs at h <;> (injection h with h; subst h; cases hok)
      | _ => cases h
    | ok record =>
      rw [hload] at h
      dsimp only at h
      by_cases hspec : spec.hiddenTests = []
      · rw [if_pos hspec] at h
        injection h with h
        subst h
        cases hok
      · rw [if_neg hspec] at h
        cases record with
        | null => injection h with h; subst h; cases hok
        | obj fields =>
          injection h with h
          subst h
          obtain ⟨rows, hrows, hrep⟩ := checkRecord_ok rfl rfl hok
          exact ⟨_, by simp only [hrows]; rfl, hrep⟩
        | _ => cases h

theorem Verdict.Reports.passed_eq_total_iff {v : Verdict} {pairs : List (Str × Str)}
    (h : v.Reports pairs) : v.passed = v.total ↔ (pairs.filter fun p => p.2 = failText) = [] := by
  have hne : passText ≠ failText := by decide
  rw [h.passed, h.total, Option.some_inj, List.length_filter_eq_length_iff, List.filter_eq_nil_iff]
  refine forall₂_congr fun p hp => ?_
  rcases h.statuses p hp with hp' | hp' <;> simp [hp', hne, hne.symm]

theorem runHidden_fields {py : Interpreter} {task : TaskKey} {output sealed nonce : Str}
    {spec : HarnessSpec} {r : HiddenRun} (h : runHidden py task output sealed nonce spec = .ok r) :
    verifyHiddenResult py task output sealed nonce spec = .ok r.verification ∧
      r.output = output ∧ r.verified = r.verification.ok ∧
      (r.verified = true → r.passed = r.verification.passed ∧ r.total = r.verification.total) ∧
      (r.verified = false → r.passed = none ∧ r.total = none) := by
  obtain ⟨v, hv, h⟩ := Failures.bind_eq_ok.mp h
  obtain ⟨claimed, _, h⟩ := Failures.bind_eq_ok.mp h
  split at h
  · rename_i hok
    obtain ⟨perTurn, _, h⟩ := Failures.bind_eq_ok.mp h
    injection h with h
    subst h
    exact ⟨hv, rfl, rfl, fun _ => ⟨rfl, rfl⟩, fun hn => by simp [hok] at hn⟩
  · rename_i hok
    injection h with h
    subst h
    exact ⟨hv, rfl, rfl, fun hn => absurd hn hok, fun _ => ⟨rfl, rfl⟩⟩

end Round4
