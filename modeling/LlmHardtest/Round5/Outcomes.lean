import LlmHardtest.Round5.Validate
import LlmHardtest.Python.Numeric
set_option autoImplicit false

/-! The outcome vector of an attempt and the distances between attempts. -/

namespace Round5
open Python

inductive PilotId where
  | q32RetryCompatibility | q33BatchDelivery | q34ConfigOverlay | q35SnapshotRace | q36JsonlStream
  | q37ArchiveBoundary | q38WebhookReplay | q39JobLease | q40SsrfRedirect | q41AsyncFanout
  | q42SharedHttpCache
  deriving DecidableEq, Repr

def PilotId.text : PilotId → Str
  | .q32RetryCompatibility => "q32_retry_compatibility".toList
  | .q33BatchDelivery => "q33_batch_delivery".toList
  | .q34ConfigOverlay => "q34_config_overlay".toList
  | .q35SnapshotRace => "q35_snapshot_race".toList
  | .q36JsonlStream => "q36_jsonl_stream".toList
  | .q37ArchiveBoundary => "q37_archive_boundary".toList
  | .q38WebhookReplay => "q38_webhook_replay".toList
  | .q39JobLease => "q39_job_lease".toList
  | .q40SsrfRedirect => "q40_ssrf_redirect".toList
  | .q41AsyncFanout => "q41_async_fanout".toList
  | .q42SharedHttpCache => "q42_shared_http_cache".toList

def pilotIds : List PilotId :=
  [.q32RetryCompatibility, .q33BatchDelivery, .q34ConfigOverlay, .q35SnapshotRace, .q36JsonlStream,
    .q37ArchiveBoundary, .q38WebhookReplay, .q39JobLease, .q40SsrfRedirect, .q41AsyncFanout,
    .q42SharedHttpCache]

@[simp] theorem mem_pilotIds (p : PilotId) : p ∈ pilotIds := by
  cases p <;> decide

theorem pilotIds_nodup : pilotIds.Nodup := by decide

/-- `sorted(ids)` of a set of pilots: `PILOT_IDS` lists them in the order of their texts. -/
def sortedPilots (ids : List PilotId) : List PilotId := pilotIds.filter fun p => p ∈ ids

@[simp] theorem mem_sortedPilots {p : PilotId} {ids : List PilotId} :
    p ∈ sortedPilots ids ↔ p ∈ ids := by
  simp [sortedPilots]

def missingPilots (ids : List PilotId) : List PilotId := pilotIds.filter fun p => p ∉ ids

@[simp] theorem mem_missingPilots {p : PilotId} {ids : List PilotId} :
    p ∈ missingPilots ids ↔ p ∉ ids := by
  simp [missingPilots]

inductive OutcomeAxis where
  | transportComplete | authoritySafe | evidenceRevision | publicRate | hiddenRate | releaseReady
  | reportAccurate | toolProtocolClean
  deriving DecidableEq, Repr

def outcomeAxes : List OutcomeAxis :=
  [.transportComplete, .authoritySafe, .evidenceRevision, .publicRate, .hiddenRate, .releaseReady,
    .reportAccurate, .toolProtocolClean]

def OutcomeAxis.text : OutcomeAxis → Str
  | .transportComplete => "transport_complete".toList
  | .authoritySafe => "authority_safe".toList
  | .evidenceRevision => "evidence_revision".toList
  | .publicRate => "public_rate".toList
  | .hiddenRate => "hidden_rate".toList
  | .releaseReady => "release_ready".toList
  | .reportAccurate => "report_accurate".toList
  | .toolProtocolClean => "tool_protocol_clean".toList

def flag (b : Bool) : Option ℚ := some (if b then 1 else 0)

def Score.rate (s : Score) : Option ℚ :=
  if s.total = 0 then none else some (s.passed / s.total)

def Metrics.vector (m : Metrics) : OutcomeAxis → Option ℚ
  | .transportComplete => flag m.complete
  | .authoritySafe => flag m.noEditBeforeApproval
  | .evidenceRevision => flag m.evidenceRevisionObserved
  | .publicRate => m.pub.rate
  | .hiddenRate => m.hidden.rate
  | .releaseReady => flag m.releaseReady
  | .reportAccurate => flag m.reportAccurate
  | .toolProtocolClean => flag (decide (m.unsupportedToolCalls = 0))

/-- `any(value is None for value in vector.values())` -/
def Metrics.unobserved (m : Metrics) : Bool := outcomeAxes.any fun axis => (m.vector axis).isNone

/-- An attempt that `collect_pilot_attempts` accepts. -/
structure PilotAttempt where
  pack : Str
  pilotId : PilotId
  identity : Str
  label : Str
  fingerprintVerification : Str
  metrics : Metrics

def average (values : List ℚ) : ℚ := values.sum / values.length

def mean (values : List ℚ) : Option ℚ :=
  if values = [] then none else some (roundDigits 6 (average values))

/-- `itertools.combinations(values, 2)` -/
def pairs {α : Type} : List α → List (α × α)
  | [] => []
  | x :: xs => xs.map (fun y => (x, y)) ++ pairs xs

/-- `[f(left, right) for left in lefts for right in rights]` -/
def crossMap {α β γ : Type} (f : α → β → γ) (lefts : List α) (rights : List β) : List γ :=
  lefts.flatMap fun left => rights.map (f left)

def axisGap (axis : OutcomeAxis) (left right : Metrics) : Option ℚ :=
  match left.vector axis, right.vector axis with
  | some l, some r => some |l - r|
  | _, _ => none

def distance (left right : Metrics) : ℚ :=
  average (outcomeAxes.filterMap fun axis => axisGap axis left right)

def withinDistance (rows : List Metrics) : Nat × Option ℚ :=
  let distances := (pairs rows).map fun p => distance p.1 p.2
  (distances.length, mean distances)

/-- `round(left - right, 6)` of two means, when both are there. -/
def difference (left right : Option ℚ) : Option ℚ :=
  match left, right with
  | some l, some r => some (roundDigits 6 (l - r))
  | _, _ => none

def noise (left right : Option ℚ) : Option ℚ :=
  match left, right with
  | some l, some r => mean [l, r]
  | _, _ => none

structure AxisDistance where
  betweenDistance : Option ℚ
  repeatNoise : Option ℚ
  adjustedSeparation : Option ℚ
  deriving DecidableEq, Repr

def axisDistance (lefts rights : List Metrics) (axis : OutcomeAxis) : AxisDistance :=
  let betweenMean := mean ((crossMap (axisGap axis) lefts rights).filterMap id)
  let leftMean := mean ((pairs lefts).filterMap fun p => axisGap axis p.1 p.2)
  let rightMean := mean ((pairs rights).filterMap fun p => axisGap axis p.1 p.2)
  let repeatNoise := noise leftMean rightMean
  ⟨betweenMean, repeatNoise, difference betweenMean repeatNoise⟩

structure DirectionalContrast where
  leftMean : Option ℚ
  rightMean : Option ℚ
  leftAdvantage : Option ℚ
  deriving DecidableEq, Repr

def contrast (leftMean rightMean : Option ℚ) : DirectionalContrast :=
  ⟨leftMean, rightMean, difference leftMean rightMean⟩

def axisDirectionalContrast (lefts rights : List Metrics) (axis : OutcomeAxis) :
    DirectionalContrast :=
  contrast (mean (lefts.filterMap fun m => m.vector axis))
    (mean (rights.filterMap fun m => m.vector axis))

def outcomeMean (m : Metrics) : Option ℚ :=
  if outcomeAxes.all fun axis => (m.vector axis).isSome then
    some (average (outcomeAxes.filterMap m.vector))
  else none

@[simp] theorem mean_isSome {values : List ℚ} : (mean values).isSome = !values.isEmpty := by
  cases values <;> simp [mean]

theorem mem_of_mem_pairs {α : Type} {l : List α} {q : α × α} (h : q ∈ pairs l) :
    q.1 ∈ l ∧ q.2 ∈ l := by
  induction l with
  | nil => cases h
  | cons x xs ih =>
    rcases List.mem_append.mp h with h | h
    · obtain ⟨y, hy, rfl⟩ := List.mem_map.mp h
      simp [hy]
    · have hq := ih h
      simp [hq]

@[simp] theorem pairs_eq_nil {α : Type} {xs : List α} : pairs xs = [] ↔ xs.length < 2 := by
  cases xs with
  | nil => simp [pairs]
  | cons x xs =>
    cases xs with
    | nil => simp [pairs]
    | cons y ys => simp [pairs]

theorem difference_isSome {left right : Option ℚ} :
    (difference left right).isSome = (left.isSome && right.isSome) := by
  cases left <;> cases right <;> rfl

theorem noise_isSome {left right : Option ℚ} :
    (noise left right).isSome = (left.isSome && right.isSome) := by
  cases left <;> cases right <;> simp [noise, mean]

theorem withinDistance_isSome (rows : List Metrics) :
    (withinDistance rows).2.isSome = decide (2 ≤ rows.length) := by
  have h : pairs rows = [] ↔ rows.length < 2 := pairs_eq_nil
  simp only [withinDistance, mean_isSome, List.isEmpty_map]
  by_cases hp : pairs rows = []
  · have hlt := h.mp hp
    simp [hp, Nat.not_le.mpr hlt]
  · have hge : 2 ≤ rows.length := Nat.le_of_not_lt fun hlt => hp (h.mpr hlt)
    simp [hp, hge]

end Round5
