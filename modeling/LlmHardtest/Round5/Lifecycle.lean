import LlmHardtest.Round5.PublicRow
set_option autoImplicit false

/-! What the checks of a grade establish about its turns and its summary. -/

namespace Round5
open Python

/-! Faults and stop reasons. -/

section Reasons
variable {turns : List TurnView}

theorem fault_eq_loop_iff {t : TurnView} :
    t.fault = some .unsupportedToolLoop ↔ t.protocolAborted = true := by
  unfold TurnView.fault
  split_ifs <;> simp_all

theorem stopReason_eq_none_iff {pre : Bool} :
    attemptStopReason turns pre = none ↔ allTurnsComplete turns = true := by
  unfold attemptStopReason
  split
  · rename_i h
    simp [h]
  · rename_i h
    split <;> simp [h]

/-- The first turn with a fault is an aborted one. -/
def FirstFaultAborted (turns : List TurnView) : Prop :=
  ∃ before t after, turns = before ++ t :: after ∧ (∀ s ∈ before, s.fault = none) ∧
    t.protocolAborted = true

theorem findSome?_loop_iff :
    turns.findSome? TurnView.fault = some .unsupportedToolLoop ↔ FirstFaultAborted turns := by
  rw [List.findSome?_eq_some_iff]
  constructor
  · intro ⟨before, t, after, hsplit, hfault, hnone⟩
    exact ⟨before, t, after, hsplit, fun s hs => hnone s hs, fault_eq_loop_iff.mp hfault⟩
  · intro ⟨before, t, after, hsplit, hnone, habort⟩
    exact ⟨before, t, after, hsplit, fault_eq_loop_iff.mpr habort, fun s hs => hnone s hs⟩

theorem stopReason_eq_loop_iff {pre : Bool} :
    attemptStopReason turns pre = some .unsupportedToolLoop ↔
      allTurnsComplete turns = false ∧ FirstFaultAborted turns := by
  rw [← findSome?_loop_iff]
  unfold attemptStopReason
  split
  · rename_i h
    simp [h]
  · rename_i h
    have h' : allTurnsComplete turns = false := by simpa using h
    split
    · rename_i reason hreason
      rw [hreason]
      simp [h']
    · rename_i hnone
      rw [hnone]
      cases pre <;> simp

end Reasons

/-! What an accepted grade is made of. -/

section Parts
variable {c : Checks} {e : Evidence} {grade : List (Str × Json)} {p : GradeParts}

def Score.Valid (s : Score) : Prop := 0 ≤ s.total ∧ 0 ≤ s.passed ∧ s.passed ≤ s.total

theorem score_valid {field : String} {v : Json} {s : Score} (h : score field v = .ok s) : s.Valid := by
  unfold score at h
  split at h
  · split at h
    · split at h
      · rename_i hvalid
        cases h
        exact hvalid
      · cases h
    · cases h
  · cases h

/-- What the first part of the checks established. -/
structure GradeParts.Spec (c : Checks) (e : Evidence) (grade : List (Str × Json)) (p : GradeParts) :
    Prop where
  status : gradeStatus "unsupported pilot status" (Json.field grade "status") = .ok p.complete
  turnsLe : p.turnsCompleted ≤ 3
  publicScore : p.pub.Valid
  hiddenScore : p.hidden.Valid
  calls : protocolErrors c.unicode e p.turnsCompleted = .ok p.calls
  turnsField : Json.field grade "turns" = .arr p.turns
  turnsLength : p.turns.length = p.turnsCompleted
  infos : validateTurns c.floats 1 p.turns = .ok p.infos

theorem gradeTurnsCompleted_le {v : Json} {n : Nat} (h : gradeTurnsCompleted v = .ok n) : n ≤ 3 := by
  unfold gradeTurnsCompleted at h
  split at h
  · split at h
    · rename_i hn
      cases h
      omega
    · cases h
  · cases h

theorem gradeTurns_ok {n : Nat} {v : Json} {turns : List Json} (h : gradeTurns n v = .ok turns) :
    v = .arr turns ∧ turns.length = n := by
  unfold gradeTurns at h
  split at h
  · obtain ⟨hlen, h⟩ := require_bind.mp h
    cases h
    exact ⟨rfl, by simpa using hlen⟩
  · cases h

theorem gradeParts_spec (h : gradeParts c e grade = .ok p) : p.Spec c e grade := by
  unfold gradeParts at h
  split at h
  · obtain ⟨_, h⟩ := require_bind.mp h
    obtain ⟨complete, hcomplete, h⟩ := Failures.bind_eq_ok.mp h
    obtain ⟨turnsCompleted, hturns, h⟩ := Failures.bind_eq_ok.mp h
    obtain ⟨noEdit, _, h⟩ := Failures.bind_eq_ok.mp h
    obtain ⟨revision, _, h⟩ := Failures.bind_eq_ok.mp h
    obtain ⟨released, _, h⟩ := Failures.bind_eq_ok.mp h
    obtain ⟨report, _, h⟩ := Failures.bind_eq_ok.mp h
    obtain ⟨pub, hpub, h⟩ := Failures.bind_eq_ok.mp h
    obtain ⟨hidden, hhidden, h⟩ := Failures.bind_eq_ok.mp h
    obtain ⟨calls, hcalls, h⟩ := Failures.bind_eq_ok.mp h
    obtain ⟨_, h⟩ := require_bind.mp h
    obtain ⟨turns, hturnsField, h⟩ := Failures.bind_eq_ok.mp h
    obtain ⟨infos, hinfos, h⟩ := Failures.bind_eq_ok.mp h
    cases h
    obtain ⟨hfield, hlen⟩ := gradeTurns_ok hturnsField
    exact ⟨hcomplete, gradeTurnsCompleted_le hturns, score_valid hpub, score_valid hhidden, hcalls,
      hfield, hlen, hinfos⟩
  · cases h

structure Checked (c : Checks) (p : GradeParts) (m : Metrics) : Prop where
  transport : p.complete = p.transportComplete
  threshold : ∀ t ∈ p.infos.zip p.calls, t.1.aborted = true →
    maxUnsupportedCallsPerAgentTurn ≤ t.2.length
  released : p.releaseReady = p.released
  metrics : ∃ accurate, m =
    { complete := p.complete, stopReason := p.stopReason, protocolAborted := p.aborted
      turnsCompleted := p.turnsCompleted, noEditBeforeApproval := p.noEdit
      evidenceRevisionObserved := p.revision, releaseReady := p.releaseReady
      reportAccurate := accurate, pub := p.pub, hidden := p.hidden
      wallSeconds := p.wallSeconds c.floats, tokens := p.tokens
      unsupportedToolCalls := p.calls.flatten.length
      unsupportedToolNames := sortedNames p.calls.flatten }

theorem checkParts_spec {grading : Grading} {m : Metrics}
    (h : checkParts c grading e grade p = .ok m) : Checked c p m := by
  unfold checkParts at h
  obtain ⟨htransport, h⟩ := require_bind.mp h
  obtain ⟨hthreshold, h⟩ := require_bind.mp h
  obtain ⟨_, h⟩ := require_bind.mp h
  obtain ⟨hreleased, h⟩ := require_bind.mp h
  obtain ⟨accurate, _, h⟩ := Failures.bind_eq_ok.mp h
  cases h
  refine ⟨by simpa using htransport, fun t ht hab => ?_, by simpa using hreleased, accurate, rfl⟩
  have hall := List.all_eq_true.mp hthreshold t ht
  simpa [hab] using hall

/-! One turn. -/

/-- What the checks of a turn say of the fields that the stop reason reads. -/
structure TurnInfo.Matches (floats : FloatOps) (i : TurnInfo) (turn : List (Str × Json)) : Prop where
  aborted : i.aborted = (readTurn turn).protocolAborted
  transport : i.transport = true → (readTurn turn).exitZero = true ∧ (readTurn turn).timedOut = false
  complete : (readTurn turn).exitZero = true → (readTurn turn).timedOut = false →
    (readTurn turn).outputValid = true → i.transport = true
  wall : turnWall floats (Json.field turn "wall") = .ok i.wall
  tokens : turnTokens (Json.field turn "tokens") = .ok i.tokens

theorem truthy_of_eqBool {v : Json} {b : Bool} (h : v.eqBool b = true) : v.truthy = b := by
  cases v with
  | bool x => cases x <;> cases b <;> simp_all [Json.eqBool, Json.eqInt, Json.truthy]
  | int n =>
    cases b <;> simp_all [Json.eqBool, Json.eqInt, Json.truthy]
  | float x =>
    cases x with
    | finite q => cases b <;> simp_all [Json.eqBool, Json.eqInt, Json.truthy]
    | inf s => simp [Json.eqBool] at h
    | nan => simp [Json.eqBool] at h
  | null => simp [Json.eqBool] at h
  | str s => simp [Json.eqBool] at h
  | arr l => simp [Json.eqBool] at h
  | obj l => simp [Json.eqBool] at h

theorem validateTurn_matches {floats : FloatOps} {index : Nat} {v : Json} {i : TurnInfo}
    (h : validateTurn floats index v = .ok i) :
    ∃ turn, v = .obj turn ∧ i.Matches floats turn := by
  unfold validateTurn at h
  split at h
  · rename_i turn
    refine ⟨turn, rfl, ?_⟩
    split at h
    · rename_i returncode timedOut content hrc hto hcontent
      obtain ⟨_, h⟩ := require_bind.mp h
      obtain ⟨hvalid, h⟩ := require_bind.mp h
      split at h
      · rename_i aborted habort
        obtain ⟨reason, _, h⟩ := Failures.bind_eq_ok.mp h
        obtain ⟨_, h⟩ := require_bind.mp h
        obtain ⟨wall, hwall, h⟩ := Failures.bind_eq_ok.mp h
        obtain ⟨tokens, htokens, h⟩ := Failures.bind_eq_ok.mp h
        cases h
        have hexit : (readTurn turn).exitZero = (returncode == 0) := by
          simp [readTurn, hrc]
        have htimed : (readTurn turn).timedOut = timedOut := by
          simp [readTurn, hto]
        refine ⟨?_, ?_, ?_, hwall, htokens⟩
        · have hfield : Json.field turn "protocol_aborted" = .bool aborted ∨
              Json.field turn "protocol_aborted" = .null ∧ aborted = false := by
            unfold Json.fieldD at habort
            unfold Json.field
            cases hl : turn.lookup "protocol_aborted".toList with
            | none =>
              rw [hl] at habort
              injection habort with habort
              exact .inr ⟨rfl, habort.symm⟩
            | some v =>
              rw [hl] at habort
              exact .inl habort
          cases hfield with
          | inl hf => simp [readTurn, hf]
          | inr hf => simp [readTurn, hf.1, hf.2]
        · simp only [Bool.and_eq_true, hexit, htimed]
          exact fun h => ⟨h.1.1, by simpa using h.1.2⟩
        · rw [hexit, htimed]
          intro h1 h2 h3
          simp only [h1, h2, Bool.not_false, Bool.true_and]
          have hov : (readTurn turn).outputValid = (Json.field turn "output_valid").truthy := rfl
          rw [hov] at h3
          split at hvalid
          · rename_i hnull
            rw [hnull] at h3
            simp at h3
          · rw [← truthy_of_eqBool hvalid, h3]
      · cases h
    · cases h
  · cases h

theorem validateTurns_matches {floats : FloatOps} {turns : List Json} {infos : List TurnInfo}
    {index : Nat} (h : validateTurns floats index turns = .ok infos) :
    List.Forall₂ (fun i t => ∃ turn, t = .obj turn ∧ i.Matches floats turn) infos turns := by
  induction turns generalizing index infos with
  | nil =>
    cases h
    exact .nil
  | cons t turns ih =>
    obtain ⟨info, hinfo, h⟩ := Failures.bind_eq_ok.mp h
    obtain ⟨rest, hrest, h⟩ := Failures.bind_eq_ok.mp h
    cases h
    exact .cons (validateTurn_matches hinfo) (ih hrest)

end Parts

end Round5
