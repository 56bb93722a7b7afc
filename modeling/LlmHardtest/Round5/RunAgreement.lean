import LlmHardtest.Round5.RowAgreement
set_option autoImplicit false

/-! Which runs of an attempt save a grade that the checks accept. -/

namespace Round5
open Python

/-- The evidence that a run leaves: the transcripts of its turns and a patch that records its
changed files. -/
structure RunEvidence (c : Checks) (r : PilotRun c.unicode) extends Evidence where
  knownPilot : c.knownPilot r.pilotId = true
  transcripts : ∀ number, transcript number = some (r.agent number).transcriptFile
  patched : patchNames patch = r.finalChanges

/-- Every grade the run saves is accepted, an attempt with an aborted turn is not complete, and the
attempt is complete exactly when it has no stop reason. -/
def RunAgrees (c : Checks) (r : PilotRun c.unicode) (e : RunEvidence c r) : Prop :=
  ∀ grade, runAttempt r = .ok grade →
    (∃ m, validatedGrade c r.grading e.toEvidence grade = .ok m) ∧
    ((∃ p ∈ r.turns, p.2.protocolAborted = true) →
      gradeField grade "status" ≠ .str "COMPLETE".toList) ∧
    (gradeField grade "status" = .str "COMPLETE".toList ↔ gradeField grade "stop_reason" = .null)

/-- The test runs print possible scores, the turns report no negative time and write transcripts of
at most 50 MiB, and when all three turns end well none of them is aborted. -/
def RunPlausible {u : UnicodeData} (r : PilotRun u) : Prop :=
  ∀ pub hidden, test u r.publicTests = .ok pub → test u r.hiddenTests = .ok hidden →
    pub.passed ≤ pub.total ∧ hidden.passed ≤ hidden.total ∧
    (∀ p ∈ r.turns, p.2.wall.nonneg = true ∧ p.2.transcriptFile.length ≤ maxTranscriptBytes) ∧
    (allTurnsComplete r.views = true → ∀ p ∈ r.turns, p.2.protocolAborted = false)

section Turns
variable {u : UnicodeData} {r : PilotRun u}

/-- The loop runs a first part of the prompts. -/
theorem runTurns_eq_take (numbers : List Nat) (session : Option Str) :
    ∃ k ≤ numbers.length,
      runTurns r numbers session = (numbers.take k).map fun number => (number, r.agent number) := by
  induction numbers generalizing session with
  | nil => exact ⟨0, le_rfl, rfl⟩
  | cons number rest ih =>
    unfold runTurns
    dsimp only
    split
    · exact ⟨1, by simp, by simp⟩
    · obtain ⟨k, hk, hrest⟩ := ih (nextSession (r.agent number) session)
      exact ⟨k + 1, by simpa using hk, by simp [hrest]⟩

theorem turns_eq : ∃ k ≤ 3,
    r.turns = (List.range' 1 k).map fun number => (number, r.agent number) := by
  obtain ⟨k, hk, h⟩ := runTurns_eq_take (r := r) [1, 2, 3] none
  refine ⟨k, hk, h.trans ?_⟩
  have h3 : k ≤ 3 := hk
  interval_cases k <;> rfl

def turnInfo (t : TurnResult u) : TurnInfo where
  transport := t.returncode == 0 && !t.timedOut && t.outputValid
  aborted := t.protocolAborted
  wall := some t.wall
  tokens := t.tokens.map Int.ofNat
  content := t.content

def turnView (t : TurnResult u) : TurnView where
  exitZero := t.returncode == 0
  timedOut := t.timedOut
  outputValid := t.outputValid
  protocolAborted := t.protocolAborted
  session := !(t.sessionId.getD []).isEmpty

theorem readTurn_record (number : Nat) (t : TurnResult u) :
    readTurn (turnRecord number t) = turnView t := by
  have hsession : Json.field (turnRecord number t) "session_id" =
      (t.sessionId.map Json.str).getD .null := rfl
  have hread : readTurn (turnRecord number t) =
      { turnView t with session := ((t.sessionId.map Json.str).getD .null).truthy } := rfl
  rw [hread]
  cases h : t.sessionId with
  | none => simp [turnView, h]
  | some s => simp [turnView, h]

theorem reasonAborted_record (t : TurnResult u) :
    reasonAborted ((t.terminationReason.map fun r => Json.str r.text).getD .null) =
      .ok t.protocolAborted := by
  have hiff := t.aborted_iff
  cases h : t.terminationReason with
  | none =>
    have hb : t.protocolAborted = false := by simpa [h] using hiff
    rw [hb]
    rfl
  | some reason =>
    cases reason with
    | timeout =>
      have hb : t.protocolAborted = false := by simpa [h] using hiff
      rw [hb]
      rfl
    | unsupportedToolLoop =>
      have hb : t.protocolAborted = true := hiff.mpr h
      rw [hb]
      rfl

theorem turnTokens_record (t : TurnResult u) :
    turnTokens ((t.tokens.map fun n => Json.int n).getD .null) = .ok (t.tokens.map Int.ofNat) := by
  cases t.tokens with
  | none => rfl
  | some n => rfl

theorem validateTurn_record {floats : FloatOps} {number : Nat} {t : TurnResult u} {i : TurnInfo} :
    validateTurn floats number (.obj (turnRecord number t)) = .ok i ↔
      t.wall.nonneg = true ∧ i = turnInfo t := by
  have hreturncode : Json.field (turnRecord number t) "returncode" = .int t.returncode := rfl
  have htimed : Json.field (turnRecord number t) "timed_out" = .bool t.timedOut := rfl
  have hcontent : Json.field (turnRecord number t) "content" = .str t.content := rfl
  have hsandbox : Json.field (turnRecord number t) "sandbox" = .str (sandboxOf number) := rfl
  have hvalid : Json.field (turnRecord number t) "output_valid" = .bool t.outputValid := rfl
  have haborted : Json.fieldD (turnRecord number t) "protocol_aborted" (.bool false) =
      .bool t.protocolAborted := rfl
  have hreason : Json.field (turnRecord number t) "termination_reason" =
      (t.terminationReason.map fun r => Json.str r.text).getD .null := rfl
  have hwall : Json.field (turnRecord number t) "wall" = .float t.wall := rfl
  have htokens : Json.field (turnRecord number t) "tokens" =
      (t.tokens.map fun n => Json.int n).getD .null := rfl
  have hsame : (Json.str (sandboxOf number)).eqStr (sandboxOf number) = true := by simp
  have hbool : (Json.bool t.outputValid).eqBool t.outputValid = true := by
    cases t.outputValid <;> rfl
  unfold validateTurn
  simp only [hreturncode, htimed, hcontent, hsandbox, hvalid, haborted, hreason, hwall, htokens,
    reasonAborted_record, turnTokens_record, Outcome.ok_bind, require_bind, hsame, true_and]
  constructor
  · rintro ⟨_, _, h⟩
    obtain ⟨wall, hw, h⟩ := Failures.bind_eq_ok.mp h
    obtain ⟨hnonneg, hw⟩ := require_bind.mp hw
    cases hw
    cases h
    exact ⟨hnonneg, rfl⟩
  · rintro ⟨hnonneg, hi⟩
    refine ⟨hbool, beq_self_eq_true _, Failures.bind_eq_ok.mpr ⟨some t.wall, ?_, ?_⟩⟩
    · exact require_bind.mpr ⟨hnonneg, rfl⟩
    · rw [hi]
      rfl

theorem validateTurns_records {floats : FloatOps} {agent : Nat → TurnResult u} {start k : Nat}
    {infos : List TurnInfo} :
    validateTurns floats start ((List.range' start k).map fun n => .obj (turnRecord n (agent n))) =
        .ok infos ↔
      (∀ n ∈ List.range' start k, (agent n).wall.nonneg = true) ∧
        infos = (List.range' start k).map fun n => turnInfo (agent n) := by
  induction k generalizing start infos with
  | zero =>
    constructor
    · intro h
      cases h
      exact ⟨by simp, rfl⟩
    · rintro ⟨_, h⟩
      rw [h]
      rfl
  | succ k ih =>
    rw [List.range'_succ, List.map_cons, List.map_cons, validateTurns, Failures.bind_eq_ok]
    constructor
    · rintro ⟨i, hi, h⟩
      obtain ⟨rest, hrest, h⟩ := Failures.bind_eq_ok.mp h
      cases h
      obtain ⟨hstart, rfl⟩ := validateTurn_record.mp hi
      obtain ⟨hnonneg, rfl⟩ := ih.mp hrest
      exact ⟨List.forall_mem_cons.mpr ⟨hstart, hnonneg⟩, rfl⟩
    · rintro ⟨hall, hinfos⟩
      obtain ⟨hstart, hnonneg⟩ := List.forall_mem_cons.mp hall
      refine ⟨turnInfo (agent start), validateTurn_record.mpr ⟨hstart, rfl⟩, ?_⟩
      rw [Failures.bind_eq_ok]
      exact ⟨_, ih.mpr ⟨hnonneg, rfl⟩, by rw [hinfos]; rfl⟩

theorem protocolErrors_run {e : Evidence} {agent : Nat → TurnResult u} {k : Nat}
    (htranscripts : ∀ number, e.transcript number = some (agent number).transcriptFile)
    {calls : List (List Str)} :
    protocolErrors u e k = .ok calls ↔
      (∀ n ∈ List.range' 1 k, (agent n).transcriptFile.length ≤ maxTranscriptBytes) ∧
        calls = (List.range' 1 k).map fun n => (agent n).calls := by
  unfold protocolErrors
  generalize List.range' 1 k = numbers
  induction numbers generalizing calls with
  | nil =>
    constructor
    · intro h
      cases h
      exact ⟨by simp, rfl⟩
    · rintro ⟨_, h⟩
      rw [h]
      rfl
  | cons n numbers ih =>
    rw [List.mapM_cons, htranscripts, Failures.bind_eq_ok]
    constructor
    · rintro ⟨first, hfirst, h⟩
      obtain ⟨hlen, hfirst⟩ := require_bind.mp hfirst
      obtain ⟨rest, hrest, h⟩ := Failures.bind_eq_ok.mp h
      cases hfirst
      cases h
      obtain ⟨hall, rfl⟩ := ih.mp hrest
      exact ⟨List.forall_mem_cons.mpr ⟨by simpa using hlen, hall⟩, rfl⟩
    · rintro ⟨hall, hcalls⟩
      obtain ⟨hlen, hrest⟩ := List.forall_mem_cons.mp hall
      refine ⟨(agent n).calls, require_bind.mpr ⟨by simpa using hlen, rfl⟩, ?_⟩
      rw [Failures.bind_eq_ok]
      exact ⟨_, ih.mpr ⟨hrest, rfl⟩, by rw [hcalls]; rfl⟩

def runParts (r : PilotRun u) (pub hidden : TestResult) : GradeParts where
  complete := allTurnsComplete r.views
  turnsCompleted := r.turns.length
  noEdit := r.preapprovalFiles.isEmpty
  revision := r.grading.turn1 (contentAt r.turns 0) && r.grading.turn2 (contentAt r.turns 1)
  releaseReady := allTurnsComplete r.views && r.preapprovalFiles.isEmpty && decide (0 < pub.total) &&
    decide (pub.passed = pub.total) && decide (0 < hidden.total) &&
    decide (hidden.passed = hidden.total)
  report := objFields (gradeField (researchGrade r pub hidden) "final_report")
  pub := ⟨pub.passed, pub.total, pub.timedOut⟩
  hidden := ⟨hidden.passed, hidden.total, hidden.timedOut⟩
  calls := r.turns.map fun p => p.2.calls
  turns := r.records.map .obj
  infos := r.turns.map fun p => turnInfo p.2

end Turns

section Saved
variable {c : Checks} {r : PilotRun c.unicode} {e : RunEvidence c r} {pub hidden : TestResult}

theorem score_json {field : String} {t : TestResult} {s : Score} :
    score field (scoreJson t) = .ok s ↔
      t.passed ≤ t.total ∧ s = ⟨t.passed, t.total, t.timedOut⟩ := by
  have hpassed : Json.field (objFields (scoreJson t)) "passed" = .int t.passed := rfl
  have htotal : Json.field (objFields (scoreJson t)) "total" = .int t.total := rfl
  have htimed : Json.field (objFields (scoreJson t)) "timed_out" = .bool t.timedOut := rfl
  have hobj : scoreJson t = .obj (objFields (scoreJson t)) := rfl
  rw [hobj, score]
  simp only [hpassed, htotal, htimed]
  split
  · rename_i h
    constructor
    · intro hs
      cases hs
      exact ⟨by omega, rfl⟩
    · rintro ⟨_, hs⟩
      rw [hs]
  · rename_i h
    constructor
    · intro hs
      cases hs
    · rintro ⟨hle, _⟩
      exact absurd ⟨by omega, by omega, by omega⟩ h

theorem eqStrs_refl (texts : List Str) : (Json.arr (texts.map .str)).eqStrs texts = true := by
  simp only [Json.eqStrs, List.length_map, beq_self_eq_true, Bool.true_and, List.all_eq_true]
  intro p hp
  rw [List.zip_map_left, List.mem_map] at hp
  obtain ⟨q, hq, rfl⟩ := hp
  have hsame : q.1 = q.2 := by
    rw [List.zip_eq_zipWith, List.zipWith_self, List.mem_map] at hq
    obtain ⟨a, _, rfl⟩ := hq
    rfl
  simp [hsame]

theorem savedBool_refl {fields : List (Str × Json)} {key : String} {b : Bool}
    (h : Json.fieldD fields key (.bool b) = .bool b) : savedBool fields key b = true := by
  rw [savedBool, h]
  cases b <;> rfl

/-- The first part of the checks accepts the grade of a run when the scores are possible, no time is
negative and no transcript is too large. -/
theorem gradeParts_run {p : GradeParts} :
    gradeParts c e.toEvidence (objFields (researchGrade r pub hidden)) = .ok p ↔
      pub.passed ≤ pub.total ∧ hidden.passed ≤ hidden.total ∧
      (∀ t ∈ r.turns, t.2.wall.nonneg = true ∧ t.2.transcriptFile.length ≤ maxTranscriptBytes) ∧
      p = runParts r pub hidden := by
  obtain ⟨k, hk, hturns⟩ := turns_eq (r := r)
  generalize hgrade : objFields (researchGrade r pub hidden) = grade
  have hpilot : Json.field grade "pilot_id" = .str r.pilotId := by rw [← hgrade]; rfl
  have hstatus : Json.field grade "status" =
      .str (if allTurnsComplete r.views then "COMPLETE".toList else "INCOMPLETE".toList) := by
    rw [← hgrade]; rfl
  have hcompleted : Json.field grade "turns_completed" = .int r.turns.length := by
    rw [← hgrade]; rfl
  have hnoEdit : Json.field grade "no_edit_before_approval" = .bool r.preapprovalFiles.isEmpty := by
    rw [← hgrade]; rfl
  have hrevision : Json.field grade "evidence_revision_observed" =
      .bool (runParts r pub hidden).revision := by rw [← hgrade]; rfl
  have hready : Json.field grade "release_ready" = .bool (runParts r pub hidden).releaseReady := by
    rw [← hgrade]; rfl
  have hreport : gradeReport (Json.field grade "final_report") =
      .ok (runParts r pub hidden).report := by rw [← hgrade]; rfl
  have hpub : Json.field grade "public" = scoreJson pub := by rw [← hgrade]; rfl
  have hhidden : Json.field grade "hidden" = scoreJson hidden := by rw [← hgrade]; rfl
  have hrecords : Json.field grade "turns" = .arr (r.records.map .obj) := by rw [← hgrade]; rfl
  have hcount : gradeTurnsCompleted (.int r.turns.length) = .ok r.turns.length := by
    have hlen : r.turns.length ≤ 3 := by
      rw [hturns]
      simpa using hk
    rw [gradeTurnsCompleted, if_pos (by omega)]
    simp
  unfold gradeParts
  simp only [hpilot, hstatus, hcompleted, hnoEdit, hrevision, hready, hreport, hpub, hhidden,
    hrecords, hcount, gradeStatus_text, asBool, Outcome.ok_bind, require_bind, e.knownPilot, true_and]
  have hlen : r.turns.length = k := by rw [hturns]; simp
  have hcalls : r.turns.map (fun t => t.2.calls) =
      (List.range' 1 k).map fun n => (r.agent n).calls := by
    rw [hturns, List.map_map]
    rfl
  have hinfos : r.turns.map (fun t => turnInfo t.2) =
      (List.range' 1 k).map fun n => turnInfo (r.agent n) := by
    rw [hturns, List.map_map]
    rfl
  have hsaved : r.records.map Json.obj =
      (List.range' 1 k).map fun n => .obj (turnRecord n (r.agent n)) := by
    rw [PilotRun.records, hturns, List.map_map, List.map_map]
    rfl
  have hall : (∀ t ∈ r.turns, t.2.wall.nonneg = true ∧
        t.2.transcriptFile.length ≤ maxTranscriptBytes) ↔
      (∀ n ∈ List.range' 1 k, (r.agent n).wall.nonneg = true) ∧
        ∀ n ∈ List.range' 1 k, (r.agent n).transcriptFile.length ≤ maxTranscriptBytes := by
    rw [hturns]
    simp only [List.forall_mem_map]
    exact forall₂_and
  have hflat : (r.turns.map fun t => t.2.calls).flatten = r.turns.flatMap fun t => t.2.calls :=
    List.flatMap_def.symm
  -- The protocol fields were computed from the same calls.
  have hprotocol : ((Json.fieldD grade "unsupported_tool_calls"
        (.int (r.turns.map fun t => t.2.calls).flatten.length)).eqInt
          (r.turns.map fun t => t.2.calls).flatten.length &&
      (Json.fieldD grade "unsupported_tool_names"
        (.arr ((sortedNames (r.turns.map fun t => t.2.calls).flatten).map .str))).eqStrs
          (sortedNames (r.turns.map fun t => t.2.calls).flatten) &&
      savedBool grade "tool_protocol_clean"
        (decide ((r.turns.map fun t => t.2.calls).flatten.length = 0))) = true := by
    rw [hflat]
    have h1 : Json.fieldD grade "unsupported_tool_calls"
        (.int (r.turns.flatMap fun t => t.2.calls).length) =
          .int (r.turns.flatMap fun t => t.2.calls).length := by rw [← hgrade]; rfl
    have h2 : Json.fieldD grade "unsupported_tool_names"
        (.arr ((sortedNames (r.turns.flatMap fun t => t.2.calls)).map .str)) =
          .arr ((sortedNames (r.turns.flatMap fun t => t.2.calls)).map .str) := by
      rw [← hgrade]; rfl
    have h3 : savedBool grade "tool_protocol_clean"
        (decide ((r.turns.flatMap fun t => t.2.calls).length = 0)) = true :=
      savedBool_refl (by rw [← hgrade]; rfl)
    rw [h1, h2, h3, eqStrs_refl]
    simp
  constructor
  · intro h
    obtain ⟨s1, hs1, h⟩ := Failures.bind_eq_ok.mp h
    obtain ⟨s2, hs2, h⟩ := Failures.bind_eq_ok.mp h
    obtain ⟨calls, hcs, h⟩ := Failures.bind_eq_ok.mp h
    obtain ⟨_, h⟩ := require_bind.mp h
    obtain ⟨turns, hts, h⟩ := Failures.bind_eq_ok.mp h
    obtain ⟨infos, his, h⟩ := Failures.bind_eq_ok.mp h
    obtain ⟨hle1, rfl⟩ := score_json.mp hs1
    obtain ⟨hle2, rfl⟩ := score_json.mp hs2
    rw [hlen] at hcs
    obtain ⟨hsmall, rfl⟩ := (protocolErrors_run e.transcripts).mp hcs
    obtain ⟨hts, _⟩ := gradeTurns_ok hts
    cases hts
    rw [hsaved] at his
    obtain ⟨hnonneg, rfl⟩ := validateTurns_records.mp his
    cases h
    refine ⟨hle1, hle2, hall.mpr ⟨hnonneg, hsmall⟩, ?_⟩
    rw [runParts, hcalls, hinfos]
  · rintro ⟨hle1, hle2, hturn, hp⟩
    obtain ⟨hnonneg, hsmall⟩ := hall.mp hturn
    refine Failures.bind_eq_ok.mpr ⟨_, score_json.mpr ⟨hle1, rfl⟩, ?_⟩
    refine Failures.bind_eq_ok.mpr ⟨_, score_json.mpr ⟨hle2, rfl⟩, ?_⟩
    have hread : protocolErrors c.unicode e.toEvidence r.turns.length =
        .ok (r.turns.map fun t => t.2.calls) := by
      rw [hlen, hcalls]
      exact (protocolErrors_run e.transcripts).mpr ⟨hsmall, rfl⟩
    refine Failures.bind_eq_ok.mpr ⟨_, hread, ?_⟩
    refine require_bind.mpr ⟨hprotocol, ?_⟩
    refine Failures.bind_eq_ok.mpr ⟨_, require_bind.mpr ⟨?_, rfl⟩, ?_⟩
    · simp [PilotRun.records]
    · refine Failures.bind_eq_ok.mpr ⟨r.turns.map fun t => turnInfo t.2, ?_, ?_⟩
      · rw [hsaved, hinfos]
        exact validateTurns_records.mpr ⟨hnonneg, rfl⟩
      · rw [hp]
        rfl

theorem views_eq : r.views = r.turns.map fun t => turnView t.2 := by
  rw [PilotRun.views, PilotRun.records, List.map_map]
  exact List.map_congr_left fun t _ => readTurn_record t.1 t.2

theorem runParts_transport :
    (runParts r pub hidden).transportComplete = allTurnsComplete r.views := by
  rw [views_eq]
  simp only [GradeParts.transportComplete, runParts, allTurnsComplete, List.length_map, List.all_map]
  rfl

theorem runParts_views : (runParts r pub hidden).views = r.views := by
  simp only [GradeParts.views, runParts, PilotRun.views, List.map_map]
  rfl

theorem runParts_aborted :
    (runParts r pub hidden).aborted = r.turns.any fun t => t.2.protocolAborted := by
  simp only [GradeParts.aborted, runParts, List.any_map]
  rfl

theorem runParts_released :
    (runParts r pub hidden).released = (runParts r pub hidden).releaseReady := by
  rw [GradeParts.released, runParts_transport, Bool.eq_iff_iff]
  simp only [runParts, Bool.and_eq_true, decide_eq_true_eq, Nat.cast_inj, Nat.cast_pos]
  tauto

theorem savedReason_run (reason : Option StopReason) {grade : List (Str × Json)}
    (h : Json.fieldD grade "stop_reason" (reasonJson reason) = reasonJson reason) :
    savedReason grade reason = true := by
  unfold savedReason
  rw [h]
  cases reason with
  | none => rfl
  | some r => simp [reasonJson]

theorem recompute_run :
    recomputeReportAccuracy c.unicode r.grading e.toEvidence
      (objFields (researchGrade r pub hidden)) (runParts r pub hidden).report
      (((runParts r pub hidden).infos.getLast?.map TurnInfo.content).getD [])
      (runParts r pub hidden).pub =
    .ok (checkReport c.unicode r.grading ((r.turns.getLast?.map fun t => t.2.content).getD [])
      pub.passed pub.total r.finalChanges).accurate := by
  have hfinal : ((runParts r pub hidden).infos.getLast?.map TurnInfo.content).getD [] =
      (r.turns.getLast?.map fun t => t.2.content).getD [] := by
    simp only [runParts, List.getLast?_map, Option.map_map]
    rfl
  have hfiles : Json.field (objFields (researchGrade r pub hidden)) "final_changed_files" =
      .arr (r.finalChanges.map .str) := rfl
  rw [hfinal, recomputeReportAccuracy, e.patched, hfiles]
  refine require_bind.mpr ⟨eqStrs_refl _, require_bind.mpr ⟨?_, rfl⟩⟩
  simp only [Bool.and_eq_true]
  refine ⟨⟨⟨⟨⟨?_, ?_⟩, ?_⟩, ?_⟩, ?_⟩, ?_⟩ <;> exact savedBool_refl rfl

/-- The second part of the checks accepts the grade of every run. -/
theorem checkParts_run :
    ∃ m, checkParts c r.grading e.toEvidence (objFields (researchGrade r pub hidden))
      (runParts r pub hidden) = .ok m := by
  have hthreshold : ((runParts r pub hidden).infos.zip (runParts r pub hidden).calls).all
      (fun t => !t.1.aborted || decide (maxUnsupportedCallsPerAgentTurn ≤ t.2.length)) = true := by
    simp only [runParts, List.zip_map', List.all_map, List.all_eq_true]
    intro t _
    have hcalls := t.2.aborted_calls
    cases hab : t.2.protocolAborted with
    | false => simp [turnInfo, hab]
    | true => simpa [turnInfo, hab, TurnResult.calls] using hcalls hab
  have hsaved : savedBool (objFields (researchGrade r pub hidden)) "protocol_aborted"
      (runParts r pub hidden).aborted = true := by
    rw [runParts_aborted]
    exact savedBool_refl rfl
  have hreason : savedReason (objFields (researchGrade r pub hidden))
      (runParts r pub hidden).stopReason = true := by
    rw [GradeParts.stopReason, runParts_views]
    exact savedReason_run _ rfl
  refine ⟨_, require_bind.mpr ⟨?_, require_bind.mpr ⟨hthreshold, require_bind.mpr ⟨?_,
    require_bind.mpr ⟨?_, Failures.bind_eq_ok.mpr ⟨_, recompute_run, rfl⟩⟩⟩⟩⟩⟩
  · rw [runParts_transport]
    exact beq_self_eq_true _
  · rw [hsaved, hreason]
    rfl
  · rw [runParts_released]
    exact beq_self_eq_true _

theorem validatedGrade_run_iff :
    (∃ m, validatedGrade c r.grading e.toEvidence (researchGrade r pub hidden) = .ok m) ↔
      pub.passed ≤ pub.total ∧ hidden.passed ≤ hidden.total ∧
      ∀ t ∈ r.turns, t.2.wall.nonneg = true ∧ t.2.transcriptFile.length ≤ maxTranscriptBytes := by
  have hobj : validatedGrade c r.grading e.toEvidence (researchGrade r pub hidden) =
      (do
        let p ← gradeParts c e.toEvidence (objFields (researchGrade r pub hidden))
        checkParts c r.grading e.toEvidence (objFields (researchGrade r pub hidden)) p) := rfl
  rw [hobj]
  constructor
  · rintro ⟨m, h⟩
    obtain ⟨p, hp, _⟩ := Failures.bind_eq_ok.mp h
    obtain ⟨h1, h2, h3, _⟩ := gradeParts_run.mp hp
    exact ⟨h1, h2, h3⟩
  · rintro ⟨h1, h2, h3⟩
    obtain ⟨m, hm⟩ := @checkParts_run c r e pub hidden
    exact ⟨m, Failures.bind_eq_ok.mpr ⟨_, gradeParts_run.mpr ⟨h1, h2, h3, rfl⟩, hm⟩⟩

end Saved

section Agreement
variable {c : Checks} {r : PilotRun c.unicode} {e : RunEvidence c r}

theorem runAgrees_iff : RunAgrees c r e ↔ RunPlausible r := by
  have hstatus : ∀ pub hidden, gradeField (researchGrade r pub hidden) "status" =
      .str "COMPLETE".toList ↔ allTurnsComplete r.views = true := by
    intro pub hidden
    exact gradeStatus_complete (gradeStatus_text "" (allTurnsComplete r.views))
  have hnull : ∀ pub hidden, gradeField (researchGrade r pub hidden) "stop_reason" = .null ↔
      allTurnsComplete r.views = true := by
    intro pub hidden
    have hreason : gradeField (researchGrade r pub hidden) "stop_reason" =
        reasonJson r.stopReason := rfl
    rw [hreason, ← @stopReason_eq_none_iff _ (!r.preapprovalFiles.isEmpty)]
    change reasonJson r.stopReason = .null ↔ r.stopReason = none
    cases r.stopReason with
    | none => simp [reasonJson]
    | some reason => simp [reasonJson]
  have hrun : ∀ grade, runAttempt r = .ok grade ↔ ∃ pub hidden,
      test c.unicode r.publicTests = .ok pub ∧ test c.unicode r.hiddenTests = .ok hidden ∧
      grade = researchGrade r pub hidden := by
    intro grade
    constructor
    · intro h
      obtain ⟨pub, hpub, h⟩ := Failures.bind_eq_ok.mp h
      obtain ⟨hidden, hhidden, h⟩ := Failures.bind_eq_ok.mp h
      cases h
      exact ⟨pub, hidden, hpub, hhidden, rfl⟩
    · rintro ⟨pub, hidden, hpub, hhidden, h⟩
      rw [h, runAttempt, hpub, hhidden]
      rfl
  constructor
  · intro h pub hidden hpub hhidden
    obtain ⟨haccepted, habort, _⟩ := h _ ((hrun _).mpr ⟨pub, hidden, hpub, hhidden, rfl⟩)
    obtain ⟨h1, h2, h3⟩ := validatedGrade_run_iff.mp haccepted
    refine ⟨h1, h2, h3, fun hcomplete t ht => ?_⟩
    by_contra hab
    exact habort ⟨t, ht, by simpa using hab⟩ ((hstatus pub hidden).mpr hcomplete)
  · intro h grade hgrade
    obtain ⟨pub, hidden, hpub, hhidden, rfl⟩ := (hrun _).mp hgrade
    obtain ⟨h1, h2, h3, h4⟩ := h pub hidden hpub hhidden
    refine ⟨validatedGrade_run_iff.mpr ⟨h1, h2, h3⟩, fun ⟨t, ht, hab⟩ hcomplete => ?_, ?_⟩
    · have hfalse := h4 ((hstatus pub hidden).mp hcomplete) t ht
      rw [hab] at hfalse
      cases hfalse
    · rw [hstatus, hnull]

/-- When the three layers agree on an attempt: the runner's grade with its checks, and an accepted
grade with the public checks of its row. -/
theorem lifecycle_iff (c : Checks) :
    (∀ (r : PilotRun c.unicode) (e : RunEvidence c r), RunAgrees c r e ↔ RunPlausible r) ∧
    ∀ grading e grade, RowAgrees c grading e grade ↔
      ((∃ m, validatedGrade c grading e grade = .ok m) → Publishable c.floats grade) :=
  ⟨fun _ _ => runAgrees_iff, fun _ _ _ => rowAgrees_iff⟩

end Agreement

/-! An aborted last turn that exits normally. -/

def threeUnsupportedCalls : Str :=
  ("tool router error: unsupported call: a\n" ++ "tool router error: unsupported call: a\n" ++
    "tool router error: unsupported call: a\n").toList

def sampleTurn (aborted : Bool) : TurnResult asciiData where
  content := "done".toList
  transcriptFile := threeUnsupportedCalls.map fun ch => ch.toNat.toUInt8
  sessionId := some "s".toList
  wall := .finite 1
  tokens := none
  timedOut := false
  protocolAborted := aborted
  terminationReason := if aborted then some .unsupportedToolLoop else none
  returncode := 0
  aborted_iff := by cases aborted <;> decide
  aborted_calls := by
    intro _
    decide +kernel

def sampleChecks : Checks :=
  ⟨asciiData, exactFloats, fun id => id == "q36_jsonl_stream".toList⟩

def abortedRun : PilotRun sampleChecks.unicode where
  pilotId := "q36_jsonl_stream".toList
  attempt := 1
  grading := ⟨[], [], fun _ => true, fun _ => true, fun _ => true⟩
  agent number := sampleTurn (number == 3)
  before := []
  snapshot _ := []
  source := []
  final := []
  publicTests := .timedOut
  hiddenTests := .timedOut

def abortedEvidence : RunEvidence sampleChecks abortedRun where
  transcript number := some (abortedRun.agent number).transcriptFile
  patch := []
  knownPilot := rfl
  transcripts _ := rfl
  patched := rfl

theorem abortedTurn_complete : ¬ RunAgrees sampleChecks abortedRun abortedEvidence := by
  intro h
  have hturn : (3, sampleTurn true) ∈ abortedRun.turns := .tail _ (.tail _ (.head _))
  exact (h _ rfl).2.1 ⟨_, hturn, rfl⟩ rfl

end Round5
