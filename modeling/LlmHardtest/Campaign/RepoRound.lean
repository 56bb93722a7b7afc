import LlmHardtest.Library.JobLoop
import LlmHardtest.Round4.Task
set_option autoImplicit false

/-! Round 4: the attempts of the repository agents and the file that keeps all of them. -/

namespace Campaign
open Python Round4

inductive AgentBackend where
  | codexCli | opencodeCli | piCli
  deriving DecidableEq, Repr

/-- What the agent process of one turn leaves, with what its transcript shows. -/
structure RepoTurn where
  returncode : Int
  timedOut : Bool
  protocolAborted : Bool
  content : Str
  sessionId : Option Str
  wrongSession : Bool
  mismatches : List Str
  errorEvent : Bool
  stopReason : Option Str
  boundaryViolation : Bool

def firstFailure (checks : List (Bool × Str)) : Option Str :=
  (checks.find? fun check => check.1).map Prod.snd

/-- The failure a backend's `turn` raises; the boundary audit comes last and replaces others. -/
def agentFailure (timeout : Nat) (t : RepoTurn) : AgentBackend → Option Str
  | .codexCli => firstFailure
      [(t.boundaryViolation, "codex boundary audit failed".toList),
       (t.timedOut, "codex timed out after ".toList ++ natStr timeout ++ "s".toList),
       (t.protocolAborted, "codex aborted an unsupported-tool loop".toList),
       (t.returncode != 0, "codex exited ".toList ++ (toString t.returncode).toList),
       ((strip t.content).isEmpty, "codex completed without a final text response".toList),
       (!t.mismatches.isEmpty,
        "codex observed model mismatch: ".toList ++ joinStr ", ".toList t.mismatches)]
  | .opencodeCli => firstFailure
      [(t.boundaryViolation, "opencode boundary audit failed".toList),
       (t.wrongSession, "opencode continuation returned the wrong session".toList),
       (!t.mismatches.isEmpty,
        "opencode observed model mismatch: ".toList ++ joinStr ", ".toList t.mismatches),
       (t.timedOut, "opencode timed out after ".toList ++ natStr timeout ++ "s".toList),
       (t.returncode != 0, "opencode exited ".toList ++ (toString t.returncode).toList),
       (t.errorEvent, "opencode emitted an error event".toList),
       ((t.sessionId.getD []).isEmpty, "opencode output did not identify a session".toList),
       ((strip t.content).isEmpty, "opencode completed without a final text response".toList)]
  | .piCli => firstFailure
      [(t.boundaryViolation, "pi boundary audit failed".toList),
       (t.wrongSession, "pi continuation returned the wrong session".toList),
       (!t.mismatches.isEmpty,
        "pi observed model mismatch: ".toList ++ joinStr ", ".toList t.mismatches),
       (t.timedOut, "pi timed out after ".toList ++ natStr timeout ++ "s".toList),
       (t.returncode != 0, "pi exited ".toList ++ (toString t.returncode).toList),
       (t.stopReason = some "error".toList || t.stopReason = some "aborted".toList,
        "pi turn ended with stopReason ".toList ++ t.stopReason.getD []),
       (t.errorEvent, "pi emitted an error event".toList),
       ((t.sessionId.getD []).isEmpty, "pi output did not identify a session".toList),
       ((strip t.content).isEmpty, "pi completed without a final text response".toList)]

/-- The outside of one attempt: preparing the copy and the agent, the agent's turns, the last
audit, and the grader, which returns `attempt_pass`. No answer means the run is stopped there. -/
structure RepoAttempt where
  opened : Except Str Unit
  turn : Nat → Option (Except Str RepoTurn)
  boundaryViolation : Bool
  graded : Except Str Bool

def promptCount (task : TaskKey) : Nat := if (taskMeta task).multiTurn then 5 else 1

section Attempt
variable (timeout : Nat) (backend : AgentBackend)

def runTurns (turn : Nat → Option (Except Str RepoTurn)) :
    List Nat → Option Str → Option (Except Str (List RepoTurn))
  | [], _ => some (.ok [])
  | i :: rest, session =>
      if 1 < i ∧ session.getD [] = [] then
        some (.error ("agent continuation requires a session id at turn ".toList ++ natStr i))
      else
        match turn i with
        | none => none
        | some (.error e) => some (.error e)
        | some (.ok t) =>
            match agentFailure timeout t backend with
            | some e => some (.error e)
            | none =>
                if t.returncode ≠ 0 then
                  some (.error ("agent turn ".toList ++ natStr i ++ " exited ".toList ++
                    (toString t.returncode).toList))
                else
                  (runTurns turn rest (if i = 1 then t.sessionId else session)).map
                    fun r => r.map (t :: ·)

structure RepoGrade where
  task : TaskKey
  attempt : Nat
  attemptPass : Bool
  modelTimedOut : Bool

def runAttempt (a : RepoAttempt) (task : TaskKey) (attempt : Nat) :
    Option (Except Str RepoGrade) :=
  match a.opened with
  | .error e => some (.error e)
  | .ok () =>
      match runTurns timeout backend a.turn (List.range' 1 (promptCount task)) none with
      | none => none
      | some (.error e) => some (.error e)
      | some (.ok turns) =>
          if a.boundaryViolation then some (.error "agent boundary audit failed".toList)
          else some (a.graded.map fun pass =>
            ⟨task, attempt, pass, turns.any fun t => t.timedOut⟩)

theorem firstFailure_none {checks : List (Bool × Str)} (h : firstFailure checks = none) :
    ∀ b ∈ checks.map Prod.fst, b = false := by
  rw [firstFailure, Option.map_eq_none_iff, List.find?_eq_none] at h
  intro b hb
  obtain ⟨check, hc, rfl⟩ := List.mem_map.mp hb
  simpa using h check hc

theorem timedOut_of_no_failure {t : RepoTurn} (h : agentFailure timeout t backend = none) :
    t.timedOut = false := by
  cases backend with
  | codexCli => exact firstFailure_none h _ (by simp only [List.map_cons, List.mem_cons, true_or, or_true])
  | opencodeCli => exact firstFailure_none h _ (by simp only [List.map_cons, List.mem_cons, true_or, or_true])
  | piCli => exact firstFailure_none h _ (by simp only [List.map_cons, List.mem_cons, true_or, or_true])

theorem runTurns_not_timedOut {turn : Nat → Option (Except Str RepoTurn)} {l : List Nat}
    {session : Option Str} {turns : List RepoTurn}
    (h : runTurns timeout backend turn l session = some (.ok turns)) :
    ∀ t ∈ turns, t.timedOut = false := by
  induction l generalizing session turns with
  | nil => cases h; simp
  | cons i l ih =>
    rw [runTurns] at h
    split at h
    · cases h
    · split at h
      · cases h
      · cases h
      · rename_i t _
        split at h
        · cases h
        · rename_i hfail
          split at h
          · cases h
          · obtain ⟨r, hr, h⟩ := Option.map_eq_some_iff.mp h
            cases r with
            | error e => cases h
            | ok ts =>
              cases h
              intro t' ht'
              cases ht' with
              | head => exact timedOut_of_no_failure timeout backend hfail
              | tail _ ht' => exact ih hr t' ht'

theorem runAttempt_graded {a : RepoAttempt} {task : TaskKey} {attempt : Nat} {g : RepoGrade}
    (h : runAttempt timeout backend a task attempt = some (.ok g)) :
    g.task = task ∧ g.attempt = attempt ∧ g.modelTimedOut = false := by
  unfold runAttempt at h
  split at h
  · cases h
  · split at h
    · cases h
    · cases h
    · rename_i turns hturns
      split at h
      · cases h
      · injection h with h
        cases hg : a.graded with
        | error e => rw [hg] at h; cases h
        | ok pass =>
          rw [hg] at h
          cases h
          refine ⟨rfl, rfl, ?_⟩
          rw [List.any_eq_false]
          intro t ht
          rw [runTurns_not_timedOut timeout backend hturns t ht]
          decide

end Attempt

structure RepoError where
  task : TaskKey
  attempt : Nat
  error : Str
  deriving DecidableEq

structure RunJson where
  tasks : List TaskKey
  attempts : Nat
  grades : List RepoGrade
  errors : List RepoError

/-- `run.json` is written in place, so a run stopped while it is written leaves it torn. -/
inductive RunFile where
  | torn
  | whole (run : RunJson)

inductive WriteEnd where
  | unwritten | torn | whole

/-- The outside of one Round 4 run: whether the model is served and the untouched tasks pass their
self-checks, every attempt, and how far the writing of the file gets. -/
structure RepoWorld where
  ready : Bool
  attempt : TaskKey → Nat → RepoAttempt
  written : WriteEnd

def pairs (tasks : List TaskKey) (attempts : Nat) : List (TaskKey × Nat) :=
  tasks.flatMap fun task => (List.range' 1 attempts).map fun attempt => (task, attempt)

def gradesOf (results : List ((TaskKey × Nat) × Except Str RepoGrade)) : List RepoGrade :=
  results.filterMap fun r => r.2.toOption

def errorsOf (results : List ((TaskKey × Nat) × Except Str RepoGrade)) : List RepoError :=
  results.filterMap fun r => match r.2 with
    | .ok _ => none
    | .error e => some ⟨r.1.1, r.1.2, e⟩

/-- The loops of `v4_runner.main`: the pairs that were started and, if the loops ended, what is
written to `run.json`. -/
def runPairs (timeout : Nat) (backend : AgentBackend) (w : RepoWorld) (tasks : List TaskKey)
    (attempts : Nat) : List (TaskKey × Nat) × Option RunJson :=
  let played := JobLoop.playAll
    (fun p => (runAttempt timeout backend (w.attempt p.1 p.2) p.1 p.2).map fun r => (p, r))
    (pairs tasks attempts)
  (played.1, played.2.map fun results =>
    { tasks, attempts, grades := gradesOf results, errors := errorsOf results })

def RunJson.outcome (r : RunJson) (task : TaskKey) (attempt : Nat) :
    Option (Except Str RepoGrade) :=
  match r.grades.find? fun g => g.task = task ∧ g.attempt = attempt with
  | some g => some (.ok g)
  | none =>
      (r.errors.find? fun e => e.task = task ∧ e.attempt = attempt).map fun e => .error e.error

structure RunJson.Sound (tasks : List TaskKey) (attempts : Nat) (r : RunJson) : Prop where
  tasks_eq : r.tasks = tasks
  attempts_eq : r.attempts = attempts
  grades : ∀ g ∈ r.grades, (g.task, g.attempt) ∈ pairs tasks attempts ∧ g.modelTimedOut = false
  errors : ∀ e ∈ r.errors, (e.task, e.attempt) ∈ pairs tasks attempts
  complete : ∀ p ∈ pairs tasks attempts, (∃ g ∈ r.grades, (g.task, g.attempt) = p) ∨
    ∃ e ∈ r.errors, (e.task, e.attempt) = p
  count : r.grades.length + r.errors.length = attempts * tasks.length

theorem length_pairs (tasks : List TaskKey) (attempts : Nat) :
    (pairs tasks attempts).length = attempts * tasks.length := by
  induction tasks with
  | nil => rfl
  | cons task tasks ih =>
    rw [pairs] at ih ⊢
    rw [List.flatMap_cons, List.length_append, ih]
    simp only [List.length_map, List.length_range', List.length_cons]
    rw [Nat.mul_succ, Nat.add_comm]

theorem length_grades_errors (results : List ((TaskKey × Nat) × Except Str RepoGrade)) :
    (gradesOf results).length + (errorsOf results).length = results.length := by
  induction results with
  | nil => rfl
  | cons r results ih =>
    obtain ⟨p, x⟩ := r
    cases x with
    | error e =>
      have hg : gradesOf ((p, .error e) :: results) = gradesOf results := rfl
      have he : errorsOf ((p, .error e) :: results) = ⟨p.1, p.2, e⟩ :: errorsOf results := rfl
      rw [hg, he, List.length_cons, List.length_cons, ← ih, Nat.add_assoc]
    | ok g =>
      have hg : gradesOf ((p, .ok g) :: results) = g :: gradesOf results := rfl
      have he : errorsOf ((p, .ok g) :: results) = errorsOf results := rfl
      rw [hg, he, List.length_cons, List.length_cons, ← ih, Nat.succ_add]

theorem runPairs_sound {timeout : Nat} {backend : AgentBackend} {w : RepoWorld}
    {tasks : List TaskKey} {attempts : Nat} {r : RunJson}
    (h : (runPairs timeout backend w tasks attempts).2 = some r) : r.Sound tasks attempts := by
  obtain ⟨results, hresults, rfl⟩ := Option.map_eq_some_iff.mp h
  obtain ⟨hlen, hsound, hplayed⟩ := JobLoop.playAll_ended hresults
  have hmem : ∀ e ∈ results, e.1 ∈ pairs tasks attempts ∧
      runAttempt timeout backend (w.attempt e.1.1 e.1.2) e.1.1 e.1.2 = some e.2 := by
    intro e he
    obtain ⟨p, hp, hrun⟩ := hsound e he
    obtain ⟨x, hx, rfl⟩ := Option.map_eq_some_iff.mp hrun
    exact ⟨hp, hx⟩
  have hall : ∀ p ∈ pairs tasks attempts, ∃ x, (p, x) ∈ results := by
    intro p hp
    obtain ⟨e, he, hrun⟩ := hplayed p hp
    obtain ⟨x, _, rfl⟩ := Option.map_eq_some_iff.mp hrun
    exact ⟨x, he⟩
  refine ⟨rfl, rfl, ?_, ?_, ?_, ?_⟩
  · intro g hg
    obtain ⟨⟨p, x⟩, he, hx⟩ := List.mem_filterMap.mp hg
    cases x with
    | error e => cases hx
    | ok g' =>
      cases hx
      obtain ⟨hp, hrun⟩ := hmem _ he
      obtain ⟨ht, ha, hto⟩ := runAttempt_graded timeout backend hrun
      exact ⟨by rw [ht, ha]; exact hp, hto⟩
  · intro e he
    obtain ⟨⟨p, x⟩, hr, hx⟩ := List.mem_filterMap.mp he
    cases x with
    | ok g => cases hx
    | error m => cases hx; exact (hmem _ hr).1
  · intro p hp
    obtain ⟨x, hx⟩ := hall p hp
    cases x with
    | error m => exact .inr ⟨⟨p.1, p.2, m⟩, List.mem_filterMap.mpr ⟨_, hx, rfl⟩, rfl⟩
    | ok g =>
      obtain ⟨_, hrun⟩ := hmem _ hx
      obtain ⟨ht, ha, _⟩ := runAttempt_graded timeout backend hrun
      exact .inl ⟨g, List.mem_filterMap.mpr ⟨_, hx, rfl⟩, by rw [ht, ha]⟩
  · rw [length_grades_errors, hlen, length_pairs]

/-- A run leaves a file without errors exactly when every pair is graded. -/
theorem runPairs_clean_iff {timeout : Nat} {backend : AgentBackend} {w : RepoWorld}
    {tasks : List TaskKey} {attempts : Nat} :
    (∃ r, (runPairs timeout backend w tasks attempts).2 = some r ∧ r.errors = []) ↔
      ∀ p ∈ pairs tasks attempts,
        ∃ g, runAttempt timeout backend (w.attempt p.1 p.2) p.1 p.2 = some (.ok g) := by
  constructor
  · intro ⟨r, hr, hclean⟩ p hp
    obtain ⟨results, hresults, rfl⟩ := Option.map_eq_some_iff.mp hr
    obtain ⟨e, he, hrun⟩ := (JobLoop.playAll_ended hresults).2.2 p hp
    obtain ⟨x, hx, rfl⟩ := Option.map_eq_some_iff.mp hrun
    cases x with
    | ok g => exact ⟨g, hx⟩
    | error m =>
      have hmem : (⟨p.1, p.2, m⟩ : RepoError) ∈ errorsOf results :=
        List.mem_filterMap.mpr ⟨_, he, rfl⟩
      have hnil : errorsOf results = [] := hclean
      simp [hnil] at hmem
  · intro h
    have hsome := (@JobLoop.playAll_isSome_iff _ _ (fun p : TaskKey × Nat =>
      (runAttempt timeout backend (w.attempt p.1 p.2) p.1 p.2).map fun r => (p, r))
      (pairs tasks attempts)).mpr fun p hp => by
        obtain ⟨g, hg⟩ := h p hp
        simp [hg]
    obtain ⟨results, hresults⟩ := Option.isSome_iff_exists.mp hsome
    refine ⟨_, by rw [runPairs, hresults]; rfl, ?_⟩
    rw [List.eq_nil_iff_forall_not_mem]
    intro e he
    obtain ⟨r, hr, hx⟩ := List.mem_filterMap.mp he
    obtain ⟨p, hp, hrun⟩ := (JobLoop.playAll_ended hresults).2.1 r hr
    obtain ⟨g, hg⟩ := h p hp
    rw [hg] at hrun
    cases hrun
    cases hx

section Outcome
variable {r : RunJson} {tasks : List TaskKey} {attempts : Nat} {task : TaskKey} {attempt : Nat}

theorem RunJson.outcome_graded (h : ∃ g ∈ r.grades, g.task = task ∧ g.attempt = attempt) :
    ∃ g ∈ r.grades, r.outcome task attempt = some (.ok g) := by
  obtain ⟨g, hg, hkey⟩ := h
  have hsome : (r.grades.find? fun g => g.task = task ∧ g.attempt = attempt).isSome = true :=
    List.find?_isSome.mpr ⟨g, hg, by simpa using hkey⟩
  obtain ⟨g', hg'⟩ := Option.isSome_iff_exists.mp hsome
  exact ⟨g', List.mem_of_find?_eq_some hg', by rw [RunJson.outcome, hg']⟩

theorem RunJson.outcome_error (h : ∃ e ∈ r.errors, e.task = task ∧ e.attempt = attempt)
    (hg : r.grades = []) : ∃ e, r.outcome task attempt = some (.error e) := by
  obtain ⟨e, he, hkey⟩ := h
  have hsome : (r.errors.find? fun e => e.task = task ∧ e.attempt = attempt).isSome = true :=
    List.find?_isSome.mpr ⟨e, he, by simpa using hkey⟩
  obtain ⟨e', he'⟩ := Option.isSome_iff_exists.mp hsome
  refine ⟨e'.error, ?_⟩
  rw [RunJson.outcome, hg, List.find?_nil]
  simp only [he', Option.map_some]

end Outcome

end Campaign
