import LlmHardtest.Round5.Lifecycle
set_option autoImplicit false

/-! Which accepted grades make a row that the public checks accept. -/

namespace Round5
open Python

def gradeField (grade : Json) (key : String) : Json := Json.field (objFields grade) key

def turnsOf (grade : Json) : List (List (Str × Json)) :=
  match gradeField grade "turns" with
  | .arr turns => turns.map objFields
  | _ => []

def viewsOf (grade : Json) : List TurnView := (turnsOf grade).map readTurn

/-- The turns of the grade are recorded well enough for a public row: a complete attempt says of
each turn that its output is valid, an aborted turn is the first one with a fault, and the total of
the wall times is finite. -/
structure Publishable (floats : FloatOps) (grade : Json) : Prop where
  recorded : gradeField grade "status" = .str "COMPLETE".toList →
    ∀ v ∈ viewsOf grade, v.outputValid = true
  aborted : (∃ v ∈ viewsOf grade, v.protocolAborted = true) →
    allTurnsComplete (viewsOf grade) = false ∧ FirstFaultAborted (viewsOf grade)
  wall : ∀ walls, (turnsOf grade).mapM (fun t => turnWall floats (Json.field t "wall")) = .ok walls →
    walls.reduceOption ≠ [] →
    (floats.round 3 (floats.sum walls.reduceOption)).isFinite = true

/-- The public row of an accepted grade is accepted, in every model and after every other rows. -/
def RowAgrees (c : Checks) (grading : Grading) (e : Evidence) (grade : Json) : Prop :=
  ∀ m, validatedGrade c grading e grade = .ok m → ∀ (index attempt : Nat) (seen : List Int),
    1 ≤ attempt → (attempt : Int) ∉ seen → validateRow 2 index seen (publicRow attempt m) = .ok ()

section Row
variable {m : Metrics}

/-- What the public checks ask of the metrics behind a row. -/
structure Metrics.RowValid (m : Metrics) : Prop where
  turns : m.turnsCompleted ≤ 3
  threeTurns : m.complete = true → m.turnsCompleted = 3
  abortReason : m.protocolAborted = true ↔ m.stopReason = some .unsupportedToolLoop
  threshold : m.protocolAborted = true → maxUnsupportedCallsPerAgentTurn ≤ m.unsupportedToolCalls
  status : m.complete = true ↔ m.stopReason = none
  pub : m.pub.Valid
  hidden : m.hidden.Valid
  released : m.releaseReady = (m.complete && m.noEditBeforeApproval && decide (0 < m.pub.total) &&
    decide (m.pub.passed = m.pub.total) && decide (0 < m.hidden.total) &&
    decide (m.hidden.passed = m.hidden.total))
  wall : ∀ x, m.wallSeconds = some x → x.isFinite = true ∧ x.nonneg = true
  tokens : ∀ n, m.tokens = some n → 0 ≤ n

theorem validateScore_row {field : String} {s t : Score} :
    validateScore field (scoreRow s) = .ok t ↔ s.Valid ∧ t = s := by
  have hkeys : Json.keysAre [("passed".toList, Json.int s.passed), ("total".toList, .int s.total),
      ("timed_out".toList, .bool s.timedOut)] ["passed", "total", "timed_out"] = true := rfl
  have hpassed : Json.field [("passed".toList, Json.int s.passed), ("total".toList, .int s.total),
      ("timed_out".toList, .bool s.timedOut)] "passed" = .int s.passed := rfl
  have htotal : Json.field [("passed".toList, Json.int s.passed), ("total".toList, .int s.total),
      ("timed_out".toList, .bool s.timedOut)] "total" = .int s.total := rfl
  have htimed : Json.field [("passed".toList, Json.int s.passed), ("total".toList, .int s.total),
      ("timed_out".toList, .bool s.timedOut)] "timed_out" = .bool s.timedOut := rfl
  unfold validateScore scoreRow
  simp only [require_bind, hkeys, true_and, hpassed, htotal, htimed, Bool.and_eq_true,
    decide_eq_true_eq, Score.Valid]
  constructor
  · intro ⟨h, ht⟩
    cases ht
    exact ⟨⟨h.1.2, h.1.1, h.2⟩, rfl⟩
  · intro ⟨⟨h1, h2, h3⟩, ht⟩
    rw [ht]
    exact ⟨⟨⟨h2, h1⟩, h3⟩, rfl⟩

theorem validateScore_bind {field : String} {s : Score} {α : Type} {f : Score → Outcome α} {a : α} :
    (validateScore field (scoreRow s) >>= f) = .ok a ↔ s.Valid ∧ f s = .ok a := by
  rw [Failures.bind_eq_ok]
  constructor
  · intro ⟨t, ht, h⟩
    obtain ⟨hvalid, ht⟩ := validateScore_row.mp ht
    exact ⟨hvalid, ht ▸ h⟩
  · intro ⟨hvalid, h⟩
    exact ⟨s, validateScore_row.mpr ⟨hvalid, rfl⟩, h⟩

theorem stopReason_mem (reason : StopReason) : reason.text ∈ stopReasons.map StopReason.text := by
  cases reason <;> decide

structure RowFields (attempt : Nat) (m : Metrics) (row : List (Str × Json)) : Prop where
  keys : Json.keysAre row attemptFieldsV2 = true
  attempt : Json.field row "attempt" = .int attempt
  status : Json.field row "status" =
    .str (if m.complete then "COMPLETE".toList else "INCOMPLETE".toList)
  turns : Json.field row "turns_completed" = .int m.turnsCompleted
  noEdit : Json.field row "no_edit_before_approval" = .bool m.noEditBeforeApproval
  revision : Json.field row "evidence_revision_observed" = .bool m.evidenceRevisionObserved
  clean : Json.field row "tool_protocol_clean" = .bool (decide (m.unsupportedToolCalls = 0))
  calls : Json.field row "unsupported_tool_calls" = .int m.unsupportedToolCalls
  aborted : Json.field row "protocol_aborted" = .bool m.protocolAborted
  reason : Json.field row "stop_reason" = reasonJson m.stopReason
  pub : Json.field row "public" = scoreRow m.pub
  hidden : Json.field row "hidden" = scoreRow m.hidden
  released : Json.field row "release_ready" = .bool m.releaseReady
  accurate : Json.field row "report_accurate" = .bool m.reportAccurate
  wall : Json.field row "wall_seconds" = (m.wallSeconds.map Json.float).getD .null
  tokens : Json.field row "tokens" = (m.tokens.map Json.int).getD .null

theorem publicRow_fields (attempt : Nat) (m : Metrics) :
    ∃ row, publicRow attempt m = .obj row ∧ RowFields attempt m row :=
  ⟨_, rfl, rfl, rfl, rfl, rfl, rfl, rfl, rfl, rfl, rfl, rfl, rfl, rfl, rfl, rfl, rfl, rfl⟩

theorem gradeStatus_text (message : String) (complete : Bool) :
    gradeStatus message (.str (if complete then "COMPLETE".toList else "INCOMPLETE".toList)) =
      .ok complete := by
  cases complete <;> rfl

theorem gradeStatus_complete {message : String} {v : Json} {complete : Bool}
    (h : gradeStatus message v = .ok complete) :
    v = .str "COMPLETE".toList ↔ complete = true := by
  unfold gradeStatus at h
  split at h
  · rename_i s
    split at h
    · rename_i hs
      cases h
      simp [hs]
    · split at h
      · rename_i hne hs
        cases h
        exact ⟨fun heq => absurd (Json.str.inj heq) hne, fun heq => nomatch heq⟩
      · cases h
  all_goals cases h

theorem validateProtocolFields_row {attempt : Nat} {row : List (Str × Json)}
    (hrow : RowFields attempt m row) :
    validateProtocolFields row m.complete m.unsupportedToolCalls = .ok () ↔
      (m.protocolAborted = true ↔ m.stopReason = some .unsupportedToolLoop) ∧
      (m.protocolAborted = true → maxUnsupportedCallsPerAgentTurn ≤ m.unsupportedToolCalls) ∧
      (m.complete = true ↔ m.stopReason = none) := by
  have hknown : knownReason (reasonJson m.stopReason) = true := by
    cases m.stopReason with
    | none => rfl
    | some reason => exact decide_eq_true (stopReason_mem reason)
  have hloop : (reasonJson m.stopReason).eqStr StopReason.unsupportedToolLoop.text =
      decide (m.stopReason = some .unsupportedToolLoop) := by
    cases m.stopReason with
    | none => rfl
    | some reason => cases reason <;> rfl
  have hnull : (reasonJson m.stopReason).isNull = decide (m.stopReason = none) := by
    cases m.stopReason with
    | none => rfl
    | some reason => rfl
  unfold validateProtocolFields
  simp only [hrow.aborted, hrow.reason, asBool, hloop, hnull, Outcome.ok_bind, require_bind,
    require_ok, hknown, true_and]
  cases m.protocolAborted <;> cases m.complete <;> simp

theorem validateRow_iff {index attempt : Nat} {seen : List Int} (hattempt : 1 ≤ attempt)
    (hseen : (attempt : Int) ∉ seen) :
    validateRow 2 index seen (publicRow attempt m) = .ok () ↔ m.RowValid := by
  obtain ⟨row, hobj, hrow⟩ := publicRow_fields attempt m
  rw [hobj]
  unfold validateRow
  simp only [hrow.keys, hrow.attempt, hrow.turns, hrow.calls, hrow.status, hrow.noEdit,
    hrow.revision, hrow.clean, hrow.released, hrow.accurate, hrow.pub, hrow.hidden, hrow.wall,
    hrow.tokens, gradeStatus_text, asBool, Outcome.ok_bind, require_ok, if_true,
    le_refl, validateScore_bind, Outcome.unit_bind, validateProtocolFields_row hrow,
    Bool.and_eq_true, decide_eq_true_eq]
  have hwall : validNonnegative false true ((m.wallSeconds.map Json.float).getD .null) = true ↔
      ∀ x, m.wallSeconds = some x → x.isFinite = true ∧ x.nonneg = true := by
    cases m.wallSeconds with
    | none => simp [validNonnegative]
    | some x => simp [validNonnegative]
  have htokens : validNonnegative true true ((m.tokens.map Json.int).getD .null) = true ↔
      ∀ n, m.tokens = some n → 0 ≤ n := by
    cases m.tokens with
    | none => simp [validNonnegative]
    | some n => simp [validNonnegative]
  rw [hwall, htokens]
  constructor
  · rintro ⟨_, _, hturns, hthree, _, _, ⟨habort, hthreshold, hstatus⟩, hpub, hhidden, hreleased, hw, ht⟩
    refine ⟨by omega, fun h => ?_, habort, hthreshold, hstatus, hpub, hhidden, by simpa using hreleased,
      hw, ht⟩
    have h3 : (m.turnsCompleted : Int) = 3 := by simpa [h] using hthree
    omega
  · intro h
    refine ⟨trivial, ⟨by omega, hseen⟩, ⟨by omega, by have := h.turns; omega⟩, ?_, by omega, by simp,
      ⟨h.abortReason, h.threshold, h.status⟩, h.pub, h.hidden, by simpa using h.released, h.wall,
      h.tokens⟩
    cases hc : m.complete with
    | false => rfl
    | true =>
      have h3 := h.threeTurns hc
      simp [h3]

end Row

theorem turnWall_nonneg {floats : FloatOps} {v : Json} {x : PyFloat}
    (h : turnWall floats v = .ok (some x)) : x.nonneg = true := by
  cases v with
  | int n =>
    obtain ⟨hn, h⟩ := require_bind.mp h
    obtain ⟨y, hy, h⟩ := Failures.bind_eq_ok.mp h
    cases h
    exact floats.ofInt_nonneg n _ (by simpa using hn) hy
  | float y =>
    obtain ⟨hy, h⟩ := require_bind.mp h
    cases h
    exact hy
  | null => cases h
  | bool b => cases h
  | str s => cases h
  | arr items => cases h
  | obj fields => cases h

theorem turnTokens_nonneg {v : Json} {n : Int} (h : turnTokens v = .ok (some n)) : 0 ≤ n := by
  cases v with
  | int k =>
    obtain ⟨hk, h⟩ := require_bind.mp h
    cases h
    simpa using hk
  | _ => cases h

/-! An accepted grade. -/

section Accepted
variable {c : Checks} {grading : Grading} {e : Evidence} {grade : Json} {m : Metrics}

/-- The parts of an accepted grade, with what both halves of the checks establish. -/
theorem validatedGrade_spec (h : validatedGrade c grading e grade = .ok m) :
    ∃ p : GradeParts, p.Spec c e (objFields grade) ∧ Checked c p m := by
  unfold validatedGrade at h
  split at h
  · obtain ⟨p, hp, h⟩ := Failures.bind_eq_ok.mp h
    exact ⟨p, gradeParts_spec hp, checkParts_spec h⟩
  · cases h

variable {p : GradeParts} (hspec : p.Spec c e (objFields grade))
include hspec

theorem GradeParts.Spec.turnsOf_eq : turnsOf grade = p.turns.map objFields := by
  unfold turnsOf gradeField
  rw [hspec.turnsField]

theorem GradeParts.Spec.viewsOf_eq : viewsOf grade = p.views := by
  rw [viewsOf, hspec.turnsOf_eq, GradeParts.views, List.map_map]
  rfl

theorem GradeParts.Spec.matches :
    List.Forall₂ (TurnInfo.Matches c.floats) p.infos (turnsOf grade) := by
  rw [hspec.turnsOf_eq, List.forall₂_map_right_iff]
  refine (validateTurns_matches hspec.infos).imp fun i t ⟨turn, ht, hmatch⟩ => ?_
  rw [ht]
  exact hmatch

theorem GradeParts.Spec.lengths :
    p.infos.length = p.turnsCompleted ∧ p.calls.length = p.turnsCompleted ∧
      (viewsOf grade).length = p.turnsCompleted := by
  have hcalls := Outcome.mapM_length hspec.calls
  have hturns := hspec.matches.length_eq
  rw [hspec.turnsOf_eq, List.length_map, hspec.turnsLength] at hturns
  rw [viewsOf, List.length_map, hspec.turnsOf_eq, List.length_map, hspec.turnsLength]
  exact ⟨hturns, by simpa using hcalls, rfl⟩

theorem GradeParts.Spec.complete_transport (h : allTurnsComplete (viewsOf grade) = true) :
    p.transportComplete = true := by
  unfold allTurnsComplete at h
  simp only [Bool.and_eq_true, List.all_eq_true, beq_iff_eq] at h
  obtain ⟨hlen, hall⟩ := h
  unfold GradeParts.transportComplete
  simp only [Bool.and_eq_true, List.all_eq_true, beq_iff_eq]
  refine ⟨hspec.lengths.2.2 ▸ hlen, fun i hi => ?_⟩
  obtain ⟨t, ht, hmatch⟩ := (forall₂_partner hspec.matches).1 i hi
  obtain ⟨⟨h1, h2⟩, h3⟩ := hall (readTurn t) (List.mem_map_of_mem ht)
  exact hmatch.complete h1 (by simpa using h2) h3

theorem GradeParts.Spec.transport_complete (h : p.transportComplete = true)
    (hvalid : ∀ v ∈ viewsOf grade, v.outputValid = true) :
    allTurnsComplete (viewsOf grade) = true := by
  unfold GradeParts.transportComplete at h
  simp only [Bool.and_eq_true, List.all_eq_true, beq_iff_eq] at h
  obtain ⟨hthree, hall⟩ := h
  unfold allTurnsComplete
  simp only [Bool.and_eq_true, List.all_eq_true, beq_iff_eq]
  refine ⟨hspec.lengths.2.2.trans hthree, fun v hv => ?_⟩
  obtain ⟨t, ht, htv⟩ := List.mem_map.mp hv
  obtain ⟨i, hi, hmatch⟩ := (forall₂_partner hspec.matches).2 t ht
  obtain ⟨h1, h2⟩ := hmatch.transport (hall i hi)
  rw [← htv]
  exact ⟨⟨h1, by simpa using h2⟩, hvalid _ (htv ▸ hv)⟩

theorem GradeParts.Spec.aborted_iff :
    p.aborted = true ↔ ∃ v ∈ viewsOf grade, v.protocolAborted = true := by
  unfold GradeParts.aborted
  rw [List.any_eq_true]
  constructor
  · intro ⟨i, hi, hab⟩
    obtain ⟨t, ht, hmatch⟩ := (forall₂_partner hspec.matches).1 i hi
    exact ⟨readTurn t, List.mem_map_of_mem ht, hmatch.aborted ▸ hab⟩
  · intro ⟨v, hv, hab⟩
    obtain ⟨t, ht, htv⟩ := List.mem_map.mp hv
    obtain ⟨i, hi, hmatch⟩ := (forall₂_partner hspec.matches).2 t ht
    exact ⟨i, hi, by rw [hmatch.aborted, htv]; exact hab⟩

theorem GradeParts.Spec.walls :
    (turnsOf grade).mapM (fun t => turnWall c.floats (Json.field t "wall")) =
      .ok (p.infos.map TurnInfo.wall) := by
  have hgen : ∀ (infos : List TurnInfo) (turns : List (List (Str × Json))),
      List.Forall₂ (TurnInfo.Matches c.floats) infos turns →
      turns.mapM (fun t => turnWall c.floats (Json.field t "wall")) =
        .ok (infos.map TurnInfo.wall) := by
    intro infos turns h
    induction h with
    | nil => rfl
    | cons hmatch _ ih =>
      rw [List.mapM_cons, hmatch.wall, ih]
      rfl
  exact hgen _ _ hspec.matches

theorem GradeParts.Spec.threshold (hchecked : Checked c p m) (h : p.aborted = true) :
    maxUnsupportedCallsPerAgentTurn ≤ m.unsupportedToolCalls := by
  obtain ⟨accurate, hm⟩ := hchecked.metrics
  obtain ⟨i, hi, hab⟩ := List.any_eq_true.mp h
  obtain ⟨k, hk, hik⟩ := List.mem_iff_getElem.mp hi
  obtain ⟨hinfos, hcalls, _⟩ := hspec.lengths
  have hk' : k < p.calls.length := by omega
  have hzip : (i, p.calls[k]) ∈ p.infos.zip p.calls :=
    List.mem_iff_getElem.mpr ⟨k, by simp [hk, hk'], by simp [hik]⟩
  have hlong := hchecked.threshold _ hzip hab
  have hsub : p.calls[k].length ≤ p.calls.flatten.length := by
    rw [List.length_flatten]
    exact List.le_sum_of_mem (List.mem_map_of_mem (List.getElem_mem hk'))
  rw [hm]
  exact hlong.trans hsub

/-- The row of an accepted grade is accepted exactly when its turns are publishable. -/
theorem GradeParts.Spec.rowValid_iff (hchecked : Checked c p m) :
    m.RowValid ↔ Publishable c.floats grade := by
  obtain ⟨accurate, hm⟩ := hchecked.metrics
  have hstatus : gradeField grade "status" = .str "COMPLETE".toList ↔ m.complete = true := by
    rw [hm]
    exact gradeStatus_complete hspec.status
  have hcomplete : m.complete = p.transportComplete := by rw [hm]; exact hchecked.transport
  have hreason : m.stopReason = attemptStopReason (viewsOf grade) (!p.noEdit) := by
    rw [hm, hspec.viewsOf_eq]
    rfl
  have haborted : m.protocolAborted = true ↔ ∃ v ∈ viewsOf grade, v.protocolAborted = true := by
    rw [hm]
    exact hspec.aborted_iff
  have hloop : m.stopReason = some .unsupportedToolLoop ↔
      allTurnsComplete (viewsOf grade) = false ∧ FirstFaultAborted (viewsOf grade) := by
    rw [hreason, stopReason_eq_loop_iff]
  have hwalls : p.infos.filterMap TurnInfo.wall = (p.infos.map TurnInfo.wall).reduceOption := by
    rw [List.reduceOption, List.filterMap_map]
    rfl
  have hwall : m.wallSeconds = p.wallSeconds c.floats := by rw [hm]
  rw [GradeParts.wallSeconds, hwalls] at hwall
  constructor
  · intro h
    refine ⟨?_, ?_, ?_⟩
    · intro hs v hv
      have hnone := h.status.mp (hstatus.mp hs)
      rw [hreason, stopReason_eq_none_iff] at hnone
      unfold allTurnsComplete at hnone
      simp only [Bool.and_eq_true, List.all_eq_true] at hnone
      exact (hnone.2 v hv).2
    · intro hab
      exact hloop.mp (h.abortReason.mp (haborted.mpr hab))
    · intro walls hwalls hne
      rw [hspec.walls] at hwalls
      cases hwalls
      refine (h.wall _ ?_).1
      rw [hwall, if_neg (by simpa using hne)]
  · intro h
    have hnonneg : ∀ x ∈ (p.infos.map TurnInfo.wall).reduceOption, PyFloat.nonneg x = true := by
      intro x hx
      rw [List.reduceOption_mem_iff] at hx
      obtain ⟨i, hi, hix⟩ := List.mem_map.mp hx
      obtain ⟨t, _, hmatch⟩ := (forall₂_partner hspec.matches).1 i hi
      exact turnWall_nonneg (hix ▸ hmatch.wall)
    refine
      { turns := ?_
        threeTurns := fun hc => ?_
        abortReason := ⟨fun hab => ?_, fun hr => ?_⟩
        threshold := fun hab => ?_
        status := ⟨fun hc => ?_, fun hr => ?_⟩
        pub := ?_
        hidden := ?_
        released := ?_
        wall := fun x hx => ?_
        tokens := fun n hn => ?_ }
    · rw [hm]
      exact hspec.turnsLe
    · rw [hcomplete, GradeParts.transportComplete, Bool.and_eq_true, beq_iff_eq] at hc
      rw [hm]
      exact hc.1
    · exact hloop.mpr (h.aborted (haborted.mp hab))
    · obtain ⟨_, before, v, after, hsplit, _, hab⟩ := hloop.mp hr
      exact haborted.mpr ⟨v, by rw [hsplit]; simp, hab⟩
    · have hp : p.aborted = true := by rw [hm] at hab; exact hab
      exact hspec.threshold hchecked hp
    · rw [hreason, stopReason_eq_none_iff]
      exact hspec.transport_complete (hcomplete ▸ hc) (h.recorded (hstatus.mpr hc))
    · rw [hreason, stopReason_eq_none_iff] at hr
      rw [hcomplete]
      exact hspec.complete_transport hr
    · rw [hm]
      exact hspec.publicScore
    · rw [hm]
      exact hspec.hiddenScore
    · rw [hm]
      simp only [hchecked.released, GradeParts.released, ← hchecked.transport]
      rw [Bool.eq_iff_iff]
      simp only [Bool.and_eq_true]
      tauto
    · rw [hwall] at hx
      split at hx
      · cases hx
      · rename_i hne
        cases hx
        exact ⟨h.wall _ hspec.walls (by simpa using hne),
          c.floats.round_nonneg _ _ (c.floats.sum_nonneg _ hnonneg)⟩
    · rw [hm] at hn
      simp only [GradeParts.tokens] at hn
      split at hn
      · cases hn
      · cases hn
        refine List.sum_nonneg fun n hn => ?_
        obtain ⟨i, hi, hin⟩ := List.mem_filterMap.mp hn
        obtain ⟨t, _, hmatch⟩ := (forall₂_partner hspec.matches).1 i hi
        exact turnTokens_nonneg (hin ▸ hmatch.tokens)

omit hspec in
theorem rowAgrees_iff :
    RowAgrees c grading e grade ↔
      ((∃ m, validatedGrade c grading e grade = .ok m) → Publishable c.floats grade) := by
  constructor
  · intro h ⟨m, hm⟩
    obtain ⟨p, hspec, hchecked⟩ := validatedGrade_spec hm
    exact (hspec.rowValid_iff hchecked).mp
      ((validateRow_iff (le_refl 1) (by simp)).mp (h m hm 0 1 [] (le_refl 1) (by simp)))
  · intro h m hm index attempt seen hattempt hseen
    obtain ⟨p, hspec, hchecked⟩ := validatedGrade_spec hm
    exact (validateRow_iff hattempt hseen).mpr ((hspec.rowValid_iff hchecked).mpr (h ⟨m, hm⟩))

end Accepted

end Round5
