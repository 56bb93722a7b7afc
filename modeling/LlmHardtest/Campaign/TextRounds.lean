import LlmHardtest.Python.Value
set_option autoImplicit false

/-! Rounds 1 to 3: the rows the runners save for one attempt and the status each row has. -/

namespace Campaign
open Python

inductive Status where
  | pass | fail | incomplete | review | invalid
  deriving DecidableEq, Repr

structure Row where
  id : Nat
  status : Option Status := none
  valid : Option Bool := none
  incomplete : Option Bool := none
  finishReason : Json := .null
  manualReviewRequired : Bool := false
  correct : Option Bool := none
  completionTokens : Json := .null

def outputLimitReasons : List Str :=
  ["length".toList, "max_tokens".toList, "max_output_tokens".toList]

/-- `output_limited`. The printed form of a value that is not a string is never a reason. -/
def outputLimited (u : UnicodeData) : Json → Bool
  | .str s => decide (u.lowerStr (strip s) ∈ outputLimitReasons)
  | _ => false

def itemStatus (u : UnicodeData) (item : Row) : Status :=
  match item.status with
  | some explicit => explicit
  | none =>
      if item.valid = some false then .invalid
      else if item.incomplete = some true || outputLimited u item.finishReason then .incomplete
      else if item.manualReviewRequired || item.correct = none then .review
      else if item.correct = some true then .pass
      else .fail

/-- The payload of `result.json`; a runner that does not write a count leaves it absent. -/
structure Payload where
  round : Nat
  attempt : Nat
  score : Nat
  total : Nat
  planned : Nat
  incomplete : Option Nat := none
  infrastructureErrors : Nat
  manualReview : Option Nat := none
  results : List Row

structure Question where
  id : Nat
  turns : Option Nat := none
  deriving DecidableEq

def questions (round : Nat) : List Question :=
  if round = 3 then [⟨21, none⟩, ⟨22, none⟩, ⟨23, none⟩, ⟨24, none⟩, ⟨25, some 4⟩]
  else (List.range' 1 20).map fun id => ⟨id, none⟩

def selected (round : Nat) (filter : Option (List Nat)) : List Question :=
  match filter with
  | some (id :: ids) => (questions round).filter fun q => decide (q.id ∈ id :: ids)
  | _ => questions round

structure Response where
  content : Str
  finishReason : Json
  completionTokens : Json

def addsUp : Json → Bool
  | .str s => s.isEmpty
  | .arr items => items.isEmpty
  | .obj fields => fields.isEmpty
  | _ => true

/-- The answer checks of the runners, by question: `answer_matches` of rounds 1 and 2, and
`_grade` of round 3, which may raise. -/
structure Graders where
  matching : Nat → Nat → Str → Bool
  grade : Nat → Str → Except Str (Option Bool)

/-- What the model answers, by question and turn: a response, an exception of the backend, or
nothing because the whole run is stopped there. -/
abbrev Replies := Nat → Nat → Option (Except Str Response)

variable (u : UnicodeData) (g : Graders)

def round12Row (round id : Nat) : Except Str Response → Row
  | .ok response =>
      let incomplete := outputLimited u response.finishReason
      let correct := if incomplete then none else some (g.matching round id response.content)
      { id, correct
        finishReason := response.finishReason, completionTokens := response.completionTokens
        status := some (if incomplete then .incomplete else if correct = some true then .pass else .fail)
        incomplete := if incomplete then some true else none }
  | .error _ => { id, valid := some false, status := some .invalid }

/-- `round12.run`, the items in order; `none` when the run is stopped on the way, also by the
exception of the token sum. -/
def round12 (round attempt : Nat) (filter : Option (List Nat)) (replies : Replies) :
    Option Payload := do
  let results ← (selected round filter).mapM fun q => do
    return round12Row u g round q.id (← replies q.id 1)
  let scorable := results.filter fun row => row.correct.isSome
  guard (results.all fun row => addsUp row.completionTokens)
  return { round, attempt, results
           score := scorable.countP fun row => row.correct = some true
           total := scorable.length
           planned := results.length
           incomplete := some (results.countP fun row => row.status = some .incomplete)
           infrastructureErrors := results.countP fun row => row.status = some .invalid }

/-- The turns of a multi-turn question: the first exception of the backend ends them. -/
def askTurns (replies : Nat → Option (Except Str Response)) :
    List Nat → Option (Except Str (List Response))
  | [] => some (.ok [])
  | turn :: rest => do
      match ← replies turn with
      | .error e => return .error e
      | .ok response => return (← askTurns replies rest).map (response :: ·)

def round3Row (q : Question) (replies : Replies) : Option Row := do
  match q.turns with
  | some n =>
      match ← askTurns (replies q.id) (List.range' 1 n) with
      | .ok turns =>
          -- The token sum is inside the `try`.
          if turns.all fun response => addsUp response.completionTokens then
            return { id := q.id, manualReviewRequired := true }
          else return { id := q.id, valid := some false }
      | .error _ => return { id := q.id, valid := some false }
  | none =>
      match ← replies q.id 1 with
      | .ok response =>
          match g.grade q.id response.content with
          | .ok correct =>
              return { id := q.id, correct, finishReason := response.finishReason
                       completionTokens := response.completionTokens }
          | .error _ => return { id := q.id, valid := some false }
      | .error _ => return { id := q.id, valid := some false }

/-- `round3.run` -/
def round3 (attempt : Nat) (filter : Option (List Nat)) (replies : Replies) : Option Payload := do
  let results ← (selected 3 filter).mapM fun q => round3Row g q replies
  let valid := results.filter fun row => row.valid ≠ some false
  let auto := valid.filter fun row => row.correct.isSome
  return { round := 3, attempt, results
           score := auto.countP fun row => row.correct = some true
           total := auto.length
           planned := results.length
           infrastructureErrors := results.length - valid.length
           manualReview := some (valid.countP fun row => row.correct = none) }

/-- The counts that the runner of the round writes agree with the statuses of its rows, and only
rounds 1 and 2 count the incomplete ones. -/
structure Payload.Sound (p : Payload) : Prop where
  planned : p.planned = p.results.length
  invalid : p.infrastructureErrors ≠ 0 ↔ ∃ row ∈ p.results, itemStatus u row = .invalid
  incomplete : p.round ≠ 3 →
    (p.incomplete.getD 0 ≠ 0 ↔ ∃ row ∈ p.results, itemStatus u row = .incomplete)
  uncounted : p.round = 3 → p.incomplete = none

theorem Option.mapM_mem {α β : Type} {f : α → Option β} {l : List α} {bs : List β}
    (h : l.mapM f = some bs) : ∀ b ∈ bs, ∃ a ∈ l, f a = some b := by
  induction l generalizing bs with
  | nil => cases h; simp
  | cons a l ih =>
    rw [List.mapM_cons] at h
    obtain ⟨b, hb, h⟩ := Option.bind_eq_some_iff.mp h
    obtain ⟨cs, hcs, h⟩ := Option.bind_eq_some_iff.mp h
    cases h
    intro b' hb'
    cases hb' with
    | head => exact ⟨a, by simp, hb⟩
    | tail _ hb' =>
      obtain ⟨a', ha', hf⟩ := ih hcs b' hb'
      exact ⟨a', by simp [ha'], hf⟩

theorem Option.mapM_mem_left {α β : Type} {f : α → Option β} {l : List α} {bs : List β}
    (h : l.mapM f = some bs) : ∀ a ∈ l, ∃ b ∈ bs, f a = some b := by
  induction l generalizing bs with
  | nil => intro a ha; cases ha
  | cons a l ih =>
    rw [List.mapM_cons] at h
    obtain ⟨b, hb, h⟩ := Option.bind_eq_some_iff.mp h
    obtain ⟨cs, hcs, h⟩ := Option.bind_eq_some_iff.mp h
    cases h
    intro a' ha'
    cases ha' with
    | head => exact ⟨b, by simp, hb⟩
    | tail _ ha' =>
      obtain ⟨b', hb', hf⟩ := ih hcs a' ha'
      exact ⟨b', by simp [hb'], hf⟩

theorem round12Row_status (round id : Nat) (x : Except Str Response) :
    (round12Row u g round id x).status = some (itemStatus u (round12Row u g round id x)) := by
  cases x with
  | error e => rfl
  | ok response => rfl

theorem round12_sound {round attempt : Nat} {filter : Option (List Nat)} {replies : Replies}
    {p : Payload} (hround : round ≠ 3) (h : round12 u g round attempt filter replies = some p) :
    p.Sound u := by
  obtain ⟨results, hresults, h⟩ := Option.bind_eq_some_iff.mp h
  obtain ⟨_, _, h⟩ := Option.bind_eq_some_iff.mp h
  cases h
  have hstatus : ∀ row ∈ results, row.status = some (itemStatus u row) := by
    intro row hrow
    obtain ⟨q, _, hq⟩ := Option.mapM_mem hresults row hrow
    obtain ⟨x, _, hx⟩ := Option.bind_eq_some_iff.mp hq
    cases hx
    exact round12Row_status u g round q.id x
  have hcount : ∀ s : Status, results.countP (fun row => row.status = some s) ≠ 0 ↔
      ∃ row ∈ results, itemStatus u row = s := by
    intro s
    rw [Nat.ne_zero_iff_zero_lt, List.countP_pos_iff]
    constructor
    · intro ⟨row, hrow, hs⟩
      rw [hstatus row hrow] at hs
      exact ⟨row, hrow, by simpa using hs⟩
    · intro ⟨row, hrow, hs⟩
      exact ⟨row, hrow, by rw [hstatus row hrow, hs]; simp⟩
  exact ⟨rfl, hcount .invalid, fun _ => hcount .incomplete, fun h => absurd h hround⟩

theorem round3Row_status {q : Question} {replies : Replies} {row : Row}
    (h : round3Row g q replies = some row) : row.status = none := by
  unfold round3Row at h
  split at h
  · obtain ⟨x, _, h⟩ := Option.bind_eq_some_iff.mp h
    cases x with
    | error e => cases h; rfl
    | ok turns =>
      simp only at h
      split at h <;> cases h <;> rfl
  · obtain ⟨x, _, h⟩ := Option.bind_eq_some_iff.mp h
    cases x with
    | error e => cases h; rfl
    | ok response =>
      simp only at h
      split at h <;> cases h <;> rfl

theorem round3_sound {attempt : Nat} {filter : Option (List Nat)} {replies : Replies}
    {p : Payload} (h : round3 g attempt filter replies = some p) : p.Sound u := by
  obtain ⟨results, hresults, h⟩ := Option.bind_eq_some_iff.mp h
  cases h
  have hstatus : ∀ row ∈ results, itemStatus u row = .invalid ↔ row.valid = some false := by
    intro row hrow
    obtain ⟨q, _, hq⟩ := Option.mapM_mem hresults row hrow
    rw [itemStatus, round3Row_status g hq]
    constructor
    · intro h
      by_contra hv
      simp only [if_neg hv] at h
      split_ifs at h
    · intro h
      simp [h]
  refine ⟨rfl, ?_, fun h => absurd rfl h, fun _ => rfl⟩
  have hlen : results.length - (results.filter fun row => row.valid ≠ some false).length =
      results.countP fun row => row.valid = some false := by
    rw [← List.countP_eq_length_filter]
    have h := @List.length_eq_countP_add_countP Row (fun row => decide (row.valid ≠ some false)) results
    rw [h]
    simp
  rw [hlen, Nat.ne_zero_iff_zero_lt, List.countP_pos_iff]
  constructor
  · intro ⟨row, hrow, hv⟩
    exact ⟨row, hrow, (hstatus row hrow).mpr (by simpa using hv)⟩
  · intro ⟨row, hrow, hs⟩
    exact ⟨row, hrow, by simpa using (hstatus row hrow).mp hs⟩

end Campaign
