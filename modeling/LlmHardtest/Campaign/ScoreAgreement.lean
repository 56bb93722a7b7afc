import LlmHardtest.Campaign.TextRounds
set_option autoImplicit false

/-! What rounds 1 to 3 count: the runner's score, its live progress, the report's summary and the
cross-check of an exported round. -/

namespace Campaign
open Python

variable (u : UnicodeData) (g : Graders)

/-- The status `progress` is told when an item completes. -/
def liveStatus (round : Nat) (row : Row) : Option Status :=
  if round = 3 then
    some (if row.valid = some false then .invalid
      else if row.correct = none then .review
      else if row.correct = some true then .pass else .fail)
  else row.status

def statusCount (items : List Row) (status : Status) : Nat :=
  items.countP fun row => itemStatus u row = status

def resultCounts (p : Payload) (status : Status) : Nat :=
  if p.results.isEmpty then
    match status with
    | .pass => p.score
    | .fail => p.total - p.score
    | .incomplete => p.incomplete.getD 0
    | .review => p.manualReview.getD 0
    | .invalid => p.infrastructureErrors
  else statusCount u p.results status

structure TextRun where
  attempt : Nat
  filter : Option (List Nat)
  replies : Replies

def writeResult (round : Nat) (run : TextRun) : Option Payload :=
  if round = 3 then round3 g run.attempt run.filter run.replies
  else round12 u g round run.attempt run.filter run.replies

structure RoundSummary where
  attempts : Nat
  passed : Nat
  total : Nat
  manualReview : Nat
  incomplete : Nat
  infrastructureErrors : Nat

def collectRound (rows : List Payload) : RoundSummary where
  attempts := rows.length
  passed := (rows.map Payload.score).sum
  total := (rows.map fun p => resultCounts u p .pass + resultCounts u p .fail).sum
  manualReview := (rows.map fun p => resultCounts u p .review).sum
  incomplete := (rows.map fun p => resultCounts u p .incomplete).sum
  infrastructureErrors := (rows.map fun p => resultCounts u p .invalid).sum

def exportedStatuses (rows : List Payload) : List Status :=
  rows.flatMap fun p => p.results.map (itemStatus u)

/-- `expected_metrics` of rounds 1 to 3: each metric of the round is the count of its statuses. -/
structure CrossCheck (s : RoundSummary) (items : List Status) : Prop where
  passed : s.passed = items.count .pass
  total : s.total = items.count .pass + items.count .fail
  incomplete : s.incomplete = items.count .incomplete
  manualReview : s.manualReview = items.count .review
  infrastructureErrors : s.infrastructureErrors = items.count .invalid

/-- The counts of a payload are those of its rows. -/
structure Payload.ScoreSound (round : Nat) (p : Payload) : Prop where
  score : p.score = statusCount u p.results .pass
  total : p.total = statusCount u p.results .pass + statusCount u p.results .fail
  planned : statusCount u p.results .pass + statusCount u p.results .fail +
    statusCount u p.results .incomplete + statusCount u p.results .review +
    statusCount u p.results .invalid = p.planned
  live : ∀ row ∈ p.results, liveStatus round row = some (itemStatus u row)

/-- The payloads that the runs of a round write are sound, and so are the report and the export
made of them. -/
structure ScoresAgree (round : Nat) (runs : List TextRun) : Prop where
  written : ∀ p ∈ runs.filterMap (writeResult u g round), p.ScoreSound u round
  collected :
    let summary := collectRound u (runs.filterMap (writeResult u g round))
    let items := exportedStatuses u (runs.filterMap (writeResult u g round))
    summary.passed ≤ summary.total ∧ summary.passed = items.count .pass
  crossChecked : CrossCheck (collectRound u (runs.filterMap (writeResult u g round)))
    (exportedStatuses u (runs.filterMap (writeResult u g round)))

/-- No answer of a single-turn Round 3 question that is graded stopped at the output limit. -/
def NoTruncatedGrade (run : TextRun) : Prop :=
  ∀ q ∈ selected 3 run.filter, q.turns = none → ∀ response correct,
    run.replies q.id 1 = some (.ok response) → g.grade q.id response.content = .ok correct →
    outputLimited u response.finishReason = false

section Rows
variable {u g}

structure Row.Agrees (u : UnicodeData) (round : Nat) (row : Row) : Prop where
  pass : itemStatus u row = .pass ↔ row.valid ≠ some false ∧ row.correct = some true
  fail : itemStatus u row = .fail ↔ row.valid ≠ some false ∧ row.correct = some false
  live : liveStatus round row = some (itemStatus u row)

theorem round12Row_agrees {round : Nat} (hround : round ≠ 3) (id : Nat) (x : Except Str Response) :
    (round12Row u g round id x).Agrees u round := by
  cases x with
  | error e =>
    refine ⟨?_, ?_, ?_⟩
    · simp [round12Row, itemStatus]
    · simp [round12Row, itemStatus]
    · simp [round12Row, itemStatus, liveStatus, hround]
  | ok response =>
    cases hlimit : outputLimited u response.finishReason with
    | true =>
      refine ⟨?_, ?_, ?_⟩
      · simp [round12Row, itemStatus, hlimit]
      · simp [round12Row, itemStatus, hlimit]
      · simp [round12Row, itemStatus, hlimit, liveStatus, hround]
    | false =>
      refine ⟨?_, ?_, ?_⟩
      · simp [round12Row, itemStatus, hlimit]
      · simp [round12Row, itemStatus, hlimit]
      · simp [round12Row, itemStatus, hlimit, liveStatus, hround]

inductive Round3Made (u : UnicodeData) (g : Graders) (q : Question) (replies : Replies) :
    Row → Prop where
  | failed : Round3Made u g q replies { id := q.id, valid := some false }
  | review : Round3Made u g q replies { id := q.id, manualReviewRequired := true }
  | graded (response : Response) (correct : Option Bool) (single : q.turns = none)
      (reply : replies q.id 1 = some (.ok response))
      (grade : g.grade q.id response.content = .ok correct) :
      Round3Made u g q replies
        { id := q.id, correct, finishReason := response.finishReason
          completionTokens := response.completionTokens }

theorem round3Row_made {q : Question} {replies : Replies} {row : Row}
    (h : round3Row g q replies = some row) : Round3Made u g q replies row := by
  unfold round3Row at h
  split at h
  · obtain ⟨x, _, h⟩ := Option.bind_eq_some_iff.mp h
    cases x with
    | error e => cases h; exact .failed
    | ok turns =>
      simp only at h
      split at h
      · cases h; exact .review
      · cases h; exact .failed
  · rename_i hsingle
    obtain ⟨x, hx, h⟩ := Option.bind_eq_some_iff.mp h
    cases x with
    | error e => cases h; exact .failed
    | ok response =>
      simp only at h
      split at h
      · rename_i correct hgrade
        cases h
        exact .graded response correct hsingle hx hgrade
      · cases h; exact .failed

theorem Round3Made.agrees {q : Question} {replies : Replies} {row : Row}
    (h : Round3Made u g q replies row) (hlimit : outputLimited u row.finishReason = false) :
    row.Agrees u 3 := by
  cases h with
  | failed => exact ⟨by simp [itemStatus], by simp [itemStatus], by simp [itemStatus, liveStatus]⟩
  | review =>
    have hnull : outputLimited u .null = false := rfl
    exact ⟨by simp [itemStatus, hnull], by simp [itemStatus, hnull],
      by simp [itemStatus, liveStatus, hnull]⟩
  | graded response correct single reply grade =>
    have hl : outputLimited u response.finishReason = false := hlimit
    cases correct with
    | none => exact ⟨by simp [itemStatus, hl], by simp [itemStatus, hl], by
        simp [itemStatus, liveStatus, hl]⟩
    | some b => cases b <;> exact ⟨by simp [itemStatus, hl], by simp [itemStatus, hl], by
        simp [itemStatus, liveStatus, hl]⟩

/-- A graded answer that stopped at the output limit is incomplete, but the runner says otherwise
while it runs. -/
theorem truncated_not_live {row : Row} (hstatus : row.status = none) (hvalid : row.valid = none)
    (hlimit : outputLimited u row.finishReason = true) :
    liveStatus 3 row ≠ some (itemStatus u row) := by
  have hitem : itemStatus u row = .incomplete := by simp [itemStatus, hstatus, hvalid, hlimit]
  rw [hitem, liveStatus, if_pos rfl, if_neg (by simp [hvalid])]
  split_ifs <;> simp

theorem statusCount_sum (items : List Row) :
    statusCount u items .pass + statusCount u items .fail + statusCount u items .incomplete +
      statusCount u items .review + statusCount u items .invalid = items.length := by
  unfold statusCount
  induction items with
  | nil => rfl
  | cons row items ih =>
    simp only [List.countP_cons, List.length_cons]
    cases itemStatus u row <;> simp <;> omega

theorem score_of_rows {round : Nat} {rows counted : List Row}
    (hcounted : counted = rows.filter fun row => decide (row.valid ≠ some false) && row.correct.isSome)
    (h : ∀ row ∈ rows, row.Agrees u round) :
    counted.countP (fun row => row.correct = some true) = statusCount u rows .pass ∧
      counted.length = statusCount u rows .pass + statusCount u rows .fail := by
  have hpass : counted.countP (fun row => row.correct = some true) = statusCount u rows .pass := by
    rw [hcounted, List.countP_filter]
    refine List.countP_congr fun row hrow => ?_
    have hiff := (h row hrow).pass
    cases hc : row.correct <;> simp_all [and_comm]
  have hfail : counted.countP (fun row => !decide (row.correct = some true)) =
      statusCount u rows .fail := by
    rw [hcounted, List.countP_filter]
    refine List.countP_congr fun row hrow => ?_
    have hiff := (h row hrow).fail
    cases hc : row.correct with
    | none => simp_all
    | some b => cases b <;> simp_all
  refine ⟨hpass, ?_⟩
  rw [List.length_eq_countP_add_countP (fun row => decide (row.correct = some true)), hpass]
  rw [← hfail]
  exact congrArg _ (List.countP_congr fun row _ => by simp)

theorem round12_scoreSound {round attempt : Nat} {filter : Option (List Nat)} {replies : Replies}
    {p : Payload} (hround : round ≠ 3) (h : round12 u g round attempt filter replies = some p) :
    p.ScoreSound u round := by
  obtain ⟨results, hresults, h⟩ := Option.bind_eq_some_iff.mp h
  obtain ⟨_, _, h⟩ := Option.bind_eq_some_iff.mp h
  cases h
  have hmade : ∀ row ∈ results, ∃ id x, row = round12Row u g round id x := by
    intro row hrow
    obtain ⟨q, _, hq⟩ := Option.mapM_mem hresults row hrow
    obtain ⟨x, _, hx⟩ := Option.bind_eq_some_iff.mp hq
    cases hx
    exact ⟨q.id, x, rfl⟩
  have hagrees : ∀ row ∈ results, row.Agrees u round := by
    intro row hrow
    obtain ⟨id, x, rfl⟩ := hmade row hrow
    exact round12Row_agrees hround id x
  have hcounted : results.filter (fun row => row.correct.isSome) =
      results.filter fun row => decide (row.valid ≠ some false) && row.correct.isSome := by
    refine List.filter_congr fun row hrow => ?_
    obtain ⟨id, x, rfl⟩ := hmade row hrow
    cases x <;> simp [round12Row]
  obtain ⟨hscore, htotal⟩ := score_of_rows hcounted hagrees
  exact ⟨hscore, htotal, statusCount_sum results, fun row hrow => (hagrees row hrow).live⟩

theorem round3_scoreSound {attempt : Nat} {filter : Option (List Nat)} {replies : Replies}
    {p : Payload} (h : round3 g attempt filter replies = some p)
    (hlimit : ∀ row ∈ p.results, outputLimited u row.finishReason = false) :
    p.ScoreSound u 3 := by
  obtain ⟨results, hresults, h⟩ := Option.bind_eq_some_iff.mp h
  cases h
  have hagrees : ∀ row ∈ results, row.Agrees u 3 := by
    intro row hrow
    obtain ⟨q, _, hq⟩ := Option.mapM_mem hresults row hrow
    exact (round3Row_made hq).agrees (hlimit row hrow)
  have hcounted : (results.filter fun row => row.valid ≠ some false).filter
        (fun row => row.correct.isSome) =
      results.filter fun row => decide (row.valid ≠ some false) && row.correct.isSome := by
    rw [List.filter_filter]
    exact List.filter_congr fun row _ => Bool.and_comm _ _
  obtain ⟨hscore, htotal⟩ := score_of_rows hcounted hagrees
  exact ⟨hscore, htotal, statusCount_sum results, fun row hrow => (hagrees row hrow).live⟩

def Payload.EmptyZero (p : Payload) : Prop :=
  p.results = [] → p.incomplete.getD 0 = 0 ∧ p.manualReview.getD 0 = 0 ∧ p.infrastructureErrors = 0

theorem writeResult_emptyZero {round : Nat} {run : TextRun} {p : Payload}
    (h : writeResult u g round run = some p) : p.EmptyZero := by
  unfold writeResult at h
  split at h
  · obtain ⟨results, _, h⟩ := Option.bind_eq_some_iff.mp h
    cases h
    intro hnil
    have hresults : results = [] := hnil
    subst hresults
    exact ⟨rfl, rfl, rfl⟩
  · obtain ⟨results, _, h⟩ := Option.bind_eq_some_iff.mp h
    obtain ⟨_, _, h⟩ := Option.bind_eq_some_iff.mp h
    cases h
    intro hnil
    have hresults : results = [] := hnil
    subst hresults
    exact ⟨rfl, rfl, rfl⟩

/-- The counts that the report reads from a sound payload are those of its rows, also when it has
none. -/
theorem resultCounts_eq {round : Nat} {p : Payload} (hempty : p.EmptyZero)
    (h : p.ScoreSound u round) (status : Status) :
    resultCounts u p status = statusCount u p.results status := by
  unfold resultCounts
  split
  · rename_i hnil
    have hresults : p.results = [] := by simpa using hnil
    obtain ⟨hincomplete, hreview, hinvalid⟩ := hempty hresults
    have hscore := h.score
    have htotal := h.total
    rw [hresults] at hscore htotal ⊢
    cases status <;> simp_all [statusCount]
  · rfl

theorem count_exportedStatuses (rows : List Payload) (status : Status) :
    (exportedStatuses u rows).count status =
      (rows.map fun p => statusCount u p.results status).sum := by
  rw [exportedStatuses, List.count_flatMap]
  congr 1
  refine List.map_congr_left fun p _ => ?_
  rw [Function.comp_apply, List.count_eq_countP, List.countP_map]
  exact List.countP_congr fun row _ => by simp

/-- The report and the export of sound payloads agree with their items. -/
theorem collectRound_sound {round : Nat} {rows : List Payload}
    (hempty : ∀ p ∈ rows, p.EmptyZero) (h : ∀ p ∈ rows, p.ScoreSound u round) :
    (collectRound u rows).passed = (exportedStatuses u rows).count .pass ∧
      CrossCheck (collectRound u rows) (exportedStatuses u rows) := by
  have hcounts : ∀ status, (rows.map fun p => resultCounts u p status).sum =
      (exportedStatuses u rows).count status := by
    intro status
    rw [count_exportedStatuses]
    exact congrArg _ (List.map_congr_left fun p hp => resultCounts_eq (hempty p hp) (h p hp) status)
  have hpassed : (rows.map Payload.score).sum = (exportedStatuses u rows).count .pass := by
    rw [count_exportedStatuses]
    exact congrArg _ (List.map_congr_left fun p hp => (h p hp).score)
  refine ⟨hpassed, hpassed, ?_, hcounts _, hcounts _, hcounts _⟩
  rw [← hcounts, ← hcounts]
  exact List.sum_map_add

end Rows

/-- When the runner, the report and the export of a round agree on what passed. -/
theorem scoresAgree_iff (u : UnicodeData) (g : Graders) (round : Nat) (runs : List TextRun) :
    ScoresAgree u g round runs ↔
      (round = 3 → ∀ run ∈ runs, (writeResult u g round run).isSome → NoTruncatedGrade u g run) := by
  constructor
  · intro h hround run hrun hwritten q hq hsingle response correct hreply hgrade
    subst hround
    obtain ⟨p, hp⟩ := Option.isSome_iff_exists.mp hwritten
    have hsound := h.written p (List.mem_filterMap.mpr ⟨run, hrun, hp⟩)
    have hresults : (selected 3 run.filter).mapM (fun q => round3Row g q run.replies) =
        some p.results := by
      rw [writeResult, if_pos rfl] at hp
      obtain ⟨results, hresults, hp⟩ := Option.bind_eq_some_iff.mp hp
      cases hp
      exact hresults
    obtain ⟨row, hrow, hmade⟩ := Option.mapM_mem_left hresults q hq
    have hgraded : round3Row g q run.replies = some
        { id := q.id, correct, finishReason := response.finishReason
          completionTokens := response.completionTokens } := by
      rw [round3Row, hsingle, hreply]
      simp only [Option.bind_eq_bind, Option.bind_some, hgrade]
      rfl
    rw [hmade] at hgraded
    cases hgraded
    by_contra hlimit
    exact truncated_not_live rfl rfl (by simpa using hlimit) (hsound.live _ hrow)
  · intro h
    have hwritten : ∀ p ∈ runs.filterMap (writeResult u g round), p.ScoreSound u round := by
      intro p hp
      obtain ⟨run, hrun, hp⟩ := List.mem_filterMap.mp hp
      by_cases hround : round = 3
      · subst hround
        have hclean := h rfl run hrun (by rw [hp]; rfl)
        rw [writeResult, if_pos rfl] at hp
        refine round3_scoreSound hp fun row hrow => ?_
        obtain ⟨results, hresults, hp⟩ := Option.bind_eq_some_iff.mp hp
        cases hp
        obtain ⟨q, hq, hmade⟩ := Option.mapM_mem hresults row hrow
        cases round3Row_made (u := u) hmade with
        | failed => rfl
        | review => rfl
        | graded response correct single reply grade =>
          exact hclean q hq single response correct reply grade
      · rw [writeResult, if_neg hround] at hp
        exact round12_scoreSound hround hp
    have hempty : ∀ p ∈ runs.filterMap (writeResult u g round), p.EmptyZero := by
      intro p hp
      obtain ⟨run, _, hp⟩ := List.mem_filterMap.mp hp
      exact writeResult_emptyZero hp
    obtain ⟨hpassed, hcheck⟩ := collectRound_sound hempty hwritten
    exact ⟨hwritten, ⟨by rw [hcheck.passed, hcheck.total]; omega, hpassed⟩, hcheck⟩

def scheduleAnswer : Str :=
  "CLAIM_VALID: NO\nGREEDY_REWARD: 20\nGREEDY_ORDER: A,E,F\n".toList ++
    "OPTIMAL_REWARD: 31\nOPTIMAL_ORDER: A,B,C,D,E".toList

-- Of question 21 this answer is right, and every other one is not.
def answerKey : Graders := ⟨fun _ _ _ => false, fun _ text => .ok (some (text == scheduleAnswer))⟩

def truncatedRun : TextRun where
  attempt := 1
  filter := some [21]
  replies _ _ := some (.ok ⟨scheduleAnswer, .str "length".toList, .null⟩)

/-- The run scores one pass of one, with no passed item and no scored one. -/
theorem truncatedRun_not_agrees : ¬ ScoresAgree asciiData answerKey 3 [truncatedRun] := by
  intro h
  have hle : 1 ≤ 0 := h.collected.1
  omega

end Campaign
