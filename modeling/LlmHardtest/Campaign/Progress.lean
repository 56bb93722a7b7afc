import LlmHardtest.Campaign.Resume
import LlmHardtest.Campaign.ScoreAgreement
set_option autoImplicit false

/-! What the progress display counts while a campaign runs, and the number of items planned for it. -/

namespace Campaign
open Python Round4 JobLoop

/-- A call of the dashboard; starts and messages change no count. -/
inductive DashboardCall where
  | message
  | start
  | record (status : Status)
  | skip (count : Nat)
  deriving DecidableEq

structure Dashboard where
  completed : Nat := 0
  passed : Nat := 0
  failed : Nat := 0
  review : Nat := 0
  incomplete : Nat := 0
  invalid : Nat := 0
  skipped : Nat := 0

def Dashboard.record (d : Dashboard) : Status → Dashboard
  | .pass => { d with completed := d.completed + 1, passed := d.passed + 1 }
  | .fail => { d with completed := d.completed + 1, failed := d.failed + 1 }
  | .review => { d with completed := d.completed + 1, review := d.review + 1 }
  | .incomplete => { d with completed := d.completed + 1, incomplete := d.incomplete + 1 }
  | .invalid => { d with completed := d.completed + 1, invalid := d.invalid + 1 }

def Dashboard.skip (d : Dashboard) (count : Nat) : Dashboard :=
  { d with completed := d.completed + count, skipped := d.skipped + count }

def Dashboard.call (d : Dashboard) : DashboardCall → Dashboard
  | .message => d
  | .start => d
  | .record status => d.record status
  | .skip count => d.skip count

def dashboard (calls : List DashboardCall) : Dashboard := calls.foldl Dashboard.call {}

def Dashboard.Balanced (d : Dashboard) : Prop :=
  d.completed = d.passed + d.failed + d.incomplete + d.review + d.invalid + d.skipped

/-- The calls of a runner's loop over its items: each item starts and, unless the run is stopped in
it, its status is recorded. -/
def itemCalls {α β : Type} (play : α → Option β) (status : β → Option Status) :
    List α → List DashboardCall
  | [] => []
  | a :: as => .start :: match play a with
    | none => []
    | some b => (status b).toList.map .record ++ itemCalls play status as

/-- `config.get("round4_tasks") or round4.CANONICAL_TASKS` -/
def campaignTasks (c : Config) : List TaskKey :=
  match c.round4Tasks with
  | some (t :: ts) => t :: ts
  | _ => canonicalTasks

def plannedItems (c : Config) (m : ModelConfig) (round : Nat) : Nat :=
  let selected := if round = 4 then m.taskFilter.map List.length
    else (itemFilter m round).map List.length
  selected.getD (if round = 4 then (campaignTasks c).length else (questions round).length)

def campaignUnits (c : Config) : Nat :=
  (c.models.map fun m =>
    ((modelRounds c m).map fun round => c.repetitions * plannedItems c m round).sum).sum

section Calls
variable (u : UnicodeData) (g : Graders) (c : Config) (w : World)

def itemRow (m : ModelConfig) (round attempt : Nat) (q : Question) : Option Row :=
  let replies := w.replies m.key round attempt
  if round = 3 then round3Row g q replies
  else (replies q.id 1).map (round12Row u g round q.id)

def textItemCalls (m : ModelConfig) (round attempt : Nat) : List DashboardCall :=
  .message :: itemCalls (itemRow u g w m round attempt) (liveStatus round)
    (selected round (itemFilter m round))

def textCalls (m : ModelConfig) (round attempt : Nat) : Option Payload → List DashboardCall
  | some p =>
      if p.infrastructureErrors ≠ 0 ∨ p.incomplete.getD 0 ≠ 0 then
        .message :: textItemCalls u g w m round attempt
      else [.skip p.planned]
  | none => textItemCalls u g w m round attempt

def pairStatus : Except Str RepoGrade → Option Status
  | .ok grade => some (if grade.attemptPass then .pass else .fail)
  | .error _ => some .invalid

def repoItemCalls (m : ModelConfig) : List DashboardCall :=
  .message :: if (w.repo m.key).ready then
    itemCalls (pairOutcome c w m) pairStatus (pairs (tasksOf c m) c.repetitions) else []

def repoCalls (m : ModelConfig) : Option RunFile → List DashboardCall
  | some .torn => []
  | some (.whole run) =>
      if run.errors = [] then [.skip (run.attempts * run.tasks.length)]
      else .message :: repoItemCalls c w m
  | none => repoItemCalls c w m

def progressCalls : (j : Job) → Option (Saved j.slot) → List DashboardCall
  | .text m round attempt => textCalls u g w m round attempt
  | .repo m => repoCalls c w m

def progressJob (j : Job) (x : Option (Saved j.slot)) : Verdict (Saved j.slot) DashboardCall where
  saved := (executeJob u g c false w j x).saved
  log := progressCalls u g c w j x
  goesOn := (executeJob u g c false w j x).goesOn

def progress (s : Store) : Store × List DashboardCall :=
  JobLoop.run Job.slot (progressJob u g c w) (jobs c) s

def completes (s : Store) : Bool := finishes Job.slot (progressJob u g c w) (jobs c) s

/-- Reporting to the dashboard does not change what a campaign saves. -/
theorem progress_store (s : Store) :
    (progress u g c w s).1 = (execute u g c false w s).1 := by
  have h : ∀ j x, (progressJob u g c w j x).saved = (executeJob u g c false w j x).saved ∧
      (progressJob u g c w j x).goesOn = (executeJob u g c false w j x).goesOn :=
    fun _ _ => ⟨rfl, rfl⟩
  exact run_store_congr Job.slot h s

end Calls

/-! The counts. -/

section Counts
variable {d : Dashboard} {calls : List DashboardCall}

theorem call_balanced (h : d.Balanced) (call : DashboardCall) : (d.call call).Balanced := by
  unfold Dashboard.Balanced at h ⊢
  cases call with
  | message => exact h
  | start => exact h
  | record status =>
    cases status with
    | pass => simp only [Dashboard.call, Dashboard.record]; omega
    | fail => simp only [Dashboard.call, Dashboard.record]; omega
    | incomplete => simp only [Dashboard.call, Dashboard.record]; omega
    | review => simp only [Dashboard.call, Dashboard.record]; omega
    | invalid => simp only [Dashboard.call, Dashboard.record]; omega
  | skip count => simp only [Dashboard.call, Dashboard.skip]; omega

theorem calls_balanced (h : d.Balanced) : (calls.foldl Dashboard.call d).Balanced := by
  induction calls generalizing d with
  | nil => exact h
  | cons call calls ih => exact ih (call_balanced h call)

theorem dashboard_balanced : (dashboard calls).Balanced := calls_balanced rfl

theorem sum_flatMap {α : Type} (l : List α) (f : α → List Nat) :
    (l.flatMap f).sum = (l.map fun a => (f a).sum).sum := by
  rw [List.flatMap_def, List.sum_flatten, List.map_map]
  rfl

def DashboardCall.items : DashboardCall → Nat
  | .message => 0
  | .start => 0
  | .record _ => 1
  | .skip count => count

theorem call_completed (call : DashboardCall) :
    (d.call call).completed = d.completed + call.items := by
  cases call with
  | message => rfl
  | start => rfl
  | record status => cases status <;> rfl
  | skip count => rfl

theorem calls_completed :
    (calls.foldl Dashboard.call d).completed = d.completed + (calls.map DashboardCall.items).sum := by
  induction calls generalizing d with
  | nil => rfl
  | cons call calls ih =>
    rw [List.foldl_cons, ih, call_completed, List.map_cons, List.sum_cons, Nat.add_assoc]

theorem dashboard_completed :
    (dashboard calls).completed = (calls.map DashboardCall.items).sum := by
  rw [dashboard, calls_completed, Nat.zero_add]

theorem itemCalls_items {α β : Type} {play : α → Option β} {status : β → Option Status} {l : List α}
    (h : ∀ a ∈ l, ∃ b, play a = some b ∧ (status b).isSome = true) :
    ((itemCalls play status l).map DashboardCall.items).sum = l.length := by
  induction l with
  | nil => rfl
  | cons a l ih =>
    obtain ⟨b, hb, hstatus⟩ := h a (by simp)
    obtain ⟨s, hs⟩ := Option.isSome_iff_exists.mp hstatus
    have hrest := ih fun a' ha' => h a' (by simp [ha'])
    simp only [itemCalls, hb, hs, Option.toList_some, List.map_cons, List.map_nil, List.cons_append,
      List.nil_append, List.sum_cons, hrest, List.length_cons, DashboardCall.items]
    omega

end Counts

/-! The items of one attempt. -/

section Items
variable {u : UnicodeData} {g : Graders} {c : ValidConfig} {w : World}

theorem ValidConfig.itemFilter_ok {m : ModelConfig} (hm : m ∈ c.models) {round : Nat}
    {ids : List Nat} (h : itemFilter m round = some ids) :
    ids ≠ [] ∧ ids.Nodup ∧ ∀ id ∈ ids, id ∈ (questions round).map Question.id := by
  have hvalid := c.valid
  simp only [validateConfig, Bool.and_eq_true, decide_eq_true_eq, List.all_eq_true] at hvalid
  obtain ⟨before, after, hmem, _⟩ := List.lookup_eq_some_iff.mp h
  have hfilter := (hvalid.1.2 m hm).1.2 (round, ids) (by rw [hmem]; simp)
  exact ⟨hfilter.1.1.2, hfilter.1.2, hfilter.2⟩

theorem questions_nodup (round : Nat) : ((questions round).map Question.id).Nodup := by
  unfold questions
  split <;> decide

theorem length_selected {m : ModelConfig} (hm : m ∈ c.models) {round : Nat} (hround : round ≠ 4) :
    (selected round (itemFilter m round)).length = plannedItems c.toConfig m round := by
  unfold plannedItems
  simp only [if_neg hround]
  cases hfilter : itemFilter m round with
  | none => rfl
  | some ids =>
    obtain ⟨hne, hnodup, hmem⟩ := c.itemFilter_ok hm hfilter
    have hselected : selected round (some ids) =
        (questions round).filter fun q => decide (q.id ∈ ids) := by
      cases ids with
      | nil => exact absurd rfl hne
      | cons id ids => rfl
    have hperm : (((questions round).filter fun q => decide (q.id ∈ ids)).map Question.id).Perm ids := by
      refine (List.perm_ext_iff_of_nodup ?_ hnodup).mpr fun id => ?_
      · exact (questions_nodup round).sublist (List.filter_sublist.map Question.id)
      · simp only [List.mem_map, List.mem_filter, decide_eq_true_eq]
        constructor
        · intro ⟨q, ⟨_, hq⟩, hid⟩
          rw [← hid]
          exact hq
        · intro hid
          obtain ⟨q, hq, rfl⟩ := List.mem_map.mp (hmem id hid)
          exact ⟨q, ⟨hq, hid⟩, rfl⟩
    rw [hselected, ← List.length_map (f := Question.id), hperm.length_eq]
    rfl

theorem length_tasksOf {m : ModelConfig} (hm : m ∈ c.models) :
    (tasksOf c.toConfig m).length = plannedItems c.toConfig m 4 := by
  have hvalid := c.valid
  simp only [validateConfig, Bool.and_eq_true, decide_eq_true_eq, List.all_eq_true,
    Option.all_eq_true] at hvalid
  unfold plannedItems
  cases hfilter : m.taskFilter with
  | none =>
    rw [tasksOf, hfilter]
    rfl
  | some tasks =>
    have hne := ((hvalid.1.2 m hm).2 tasks hfilter).1.1.2
    cases tasks with
    | nil => exact absurd rfl hne
    | cons t ts =>
      rw [tasksOf, hfilter]
      rfl

theorem textResult_rows {m : ModelConfig} {round attempt : Nat} {p : Payload}
    (h : textResult u g w m round attempt = some p) :
    (selected round (itemFilter m round)).mapM (itemRow u g w m round attempt) = some p.results := by
  unfold textResult at h
  simp only at h
  split at h
  · split at h
    · rename_i hround
      subst hround
      obtain ⟨results, hresults, h⟩ := Option.bind_eq_some_iff.mp h
      cases h
      exact hresults
    · rename_i hround
      obtain ⟨results, hresults, h⟩ := Option.bind_eq_some_iff.mp h
      obtain ⟨_, _, h⟩ := Option.bind_eq_some_iff.mp h
      cases h
      rw [← hresults]
      refine congrArg (List.mapM · _) (funext fun q => ?_)
      unfold itemRow
      simp only [if_neg hround]
      cases w.replies m.key round attempt q.id 1 <;> rfl
  · cases h

theorem itemRow_live {m : ModelConfig} {round attempt : Nat} {q : Question} {row : Row}
    (h : itemRow u g w m round attempt q = some row) : (liveStatus round row).isSome = true := by
  unfold itemRow at h
  simp only at h
  unfold liveStatus
  split
  · rfl
  · rename_i hround
    rw [if_neg hround] at h
    obtain ⟨x, _, rfl⟩ := Option.map_eq_some_iff.mp h
    rw [round12Row_status u g round q.id x]
    rfl

theorem textItemCalls_items {m : ModelConfig} (hm : m ∈ c.models) {round attempt : Nat}
    (hround : round ≠ 4) (h : (textResult u g w m round attempt).isSome = true) :
    ((textItemCalls u g w m round attempt).map DashboardCall.items).sum =
      plannedItems c.toConfig m round := by
  obtain ⟨p, hp⟩ := Option.isSome_iff_exists.mp h
  rw [textItemCalls, List.map_cons, List.sum_cons, itemCalls_items, length_selected hm hround]
  · exact Nat.zero_add _
  · intro q hq
    obtain ⟨row, _, hrow⟩ := Option.mapM_mem_left (textResult_rows hp) q hq
    exact ⟨row, hrow, itemRow_live hrow⟩

/-- Every saved file has the number of items that is planned for it. -/
def PlannedFile (c : ValidConfig) : (i : Slot) → Saved i → Prop
  | .result key round _, (p : Payload) => ∀ m ∈ c.models, m.key = key →
      p.planned = plannedItems c.toConfig m round
  | .run _, _ => True

theorem length_of_mapM {α β : Type} {f : α → Option β} {l : List α} {bs : List β}
    (h : l.mapM f = some bs) : bs.length = l.length := by
  induction l generalizing bs with
  | nil => cases h; rfl
  | cons a l ih =>
    rw [List.mapM_cons] at h
    obtain ⟨b, _, h⟩ := Option.bind_eq_some_iff.mp h
    obtain ⟨cs, hcs, h⟩ := Option.bind_eq_some_iff.mp h
    cases h
    rw [List.length_cons, List.length_cons, ih hcs]

theorem textResult_planned {m : ModelConfig} (hm : m ∈ c.models) {round attempt : Nat}
    (hround : round ≠ 4) {p : Payload} (h : textResult u g w m round attempt = some p) :
    p.planned = plannedItems c.toConfig m round := by
  rw [(textResult_sound h).2.planned, length_of_mapM (textResult_rows h), length_selected hm hround]

theorem textJob_saved (dryRun : Bool) (m : ModelConfig) (round attempt : Nat) (x : Option Payload) :
    (textJob u g dryRun w m round attempt x).saved = x ∨
      ∃ p, textResult u g w m round attempt = some p ∧
        (textJob u g dryRun w m round attempt x).saved = some p := by
  have htext : ∀ y : Option Payload, (executeText u g dryRun w m round attempt y).saved = y ∨
      ∃ p, textResult u g w m round attempt = some p ∧
        (executeText u g dryRun w m round attempt y).saved = some p := by
    intro y
    unfold executeText
    split
    · exact .inl rfl
    · simp only
      split
      · rename_i p hp
        exact .inr ⟨p, hp, rfl⟩
      · exact .inl rfl
  cases x with
  | none => exact htext none
  | some p =>
    by_cases h : p.infrastructureErrors ≠ 0 ∨ p.incomplete.getD 0 ≠ 0
    · rw [textJob, if_pos h]
      exact htext (some p)
    · rw [textJob, if_neg h]
      exact .inl rfl

theorem mem_jobs_text {m : ModelConfig} {round attempt : Nat}
    (h : Job.text m round attempt ∈ jobs c.toConfig) : m ∈ c.models ∧ round ≠ 4 := by
  obtain ⟨m', hm, h⟩ := List.mem_flatMap.mp h
  cases List.mem_append.mp h with
  | inl h =>
    obtain ⟨round', hround, h⟩ := List.mem_flatMap.mp h
    obtain ⟨_, _, h⟩ := List.mem_map.mp h
    cases h
    refine ⟨hm, fun h4 => ?_⟩
    subst h4
    simp at hround
  | inr h =>
    split at h
    · cases List.mem_singleton.mp h
    · cases h

theorem executeJob_planned {dryRun : Bool} {j : Job} (hj : j ∈ jobs c.toConfig)
    (x : Option (Saved j.slot)) (hx : ∀ y, x = some y → PlannedFile c j.slot y) :
    ∀ y, (executeJob u g c.toConfig dryRun w j x).saved = some y → PlannedFile c j.slot y := by
  intro y hy
  cases j with
  | repo m => trivial
  | text m round attempt =>
    obtain ⟨hm, hround⟩ := mem_jobs_text hj
    rcases textJob_saved (u := u) (g := g) (w := w) dryRun m round attempt x with
      hsame | ⟨p, hp, hsaved⟩
    · exact hx y (hsame.symm.trans hy)
    · obtain rfl : p = y := Option.some.inj (hsaved.symm.trans hy)
      intro m' hm' hkey
      rw [c.model_eq hm' hm hkey]
      exact textResult_planned hm hround hp

theorem Reachable.planned {s : Store} (h : Reachable u g c s) :
    ∀ i y, s i = some y → PlannedFile c i y := by
  induction h with
  | empty => simp
  | run h dryRun w ih =>
    exact run_invariant Job.slot (PlannedFile c) _ (fun j hj x hx => executeJob_planned hj x hx) _ ih

def Job.units (c : Config) : Job → Nat
  | .text m round _ => plannedItems c m round
  | .repo m => c.repetitions * plannedItems c m 4

/-- A text job that goes on completes its planned items, by running or by skipping them. -/
theorem textCalls_items {m : ModelConfig} (hm : m ∈ c.models) {round attempt : Nat}
    (hround : round ≠ 4) {x : Option Payload}
    (hx : ∀ p, x = some p → p.planned = plannedItems c.toConfig m round)
    (hgo : (textJob u g false w m round attempt x).goesOn = true) :
    ((textCalls u g w m round attempt x).map DashboardCall.items).sum =
      plannedItems c.toConfig m round := by
  cases x with
  | none =>
    change (executeText u g false w m round attempt none).goesOn = true at hgo
    rw [executeText_goesOn] at hgo
    exact textItemCalls_items hm hround hgo
  | some p =>
    by_cases h : p.infrastructureErrors ≠ 0 ∨ p.incomplete.getD 0 ≠ 0
    · rw [textJob, if_pos h, executeText_goesOn] at hgo
      rw [textCalls, if_pos h, List.map_cons, List.sum_cons, textItemCalls_items hm hround hgo]
      exact Nat.zero_add _
    · rw [textCalls, if_neg h]
      exact hx p rfl

theorem repoItemCalls_items {m : ModelConfig} (hm : m ∈ c.models)
    (h : Completes u g c.toConfig w (.repo m)) :
    ((repoItemCalls c.toConfig w m).map DashboardCall.items).sum =
      c.repetitions * plannedItems c.toConfig m 4 := by
  obtain ⟨hready, _, hpairs⟩ := h
  rw [repoItemCalls, if_pos hready, List.map_cons, List.sum_cons, itemCalls_items, length_pairs,
    length_tasksOf hm]
  · exact Nat.zero_add _
  · intro p hp
    obtain ⟨grade, hgrade⟩ := hpairs p hp
    exact ⟨.ok grade, hgrade, rfl⟩

theorem repoCalls_items {m : ModelConfig} (hm : m ∈ c.models) {x : Option RunFile}
    (hx : ∀ y, x = some y → SoundFile u c (.run m.key) y)
    (hgo : (repoJob c.toConfig false w m x).goesOn = true) :
    ((repoCalls c.toConfig w m x).map DashboardCall.items).sum =
      c.repetitions * plannedItems c.toConfig m 4 := by
  rcases repoJob_cases (c := c.toConfig) (w := w) m x with
    ⟨_, _, hjob⟩ | ⟨run, rfl, herrors, _, _⟩ | ⟨hr, hjob⟩
  · rw [hjob] at hgo
    cases hgo
  · obtain hsound : run.Sound (tasksOf c.toConfig m) c.repetitions := hx _ rfl m hm rfl
    rw [repoCalls, if_pos herrors, hsound.attempts_eq, hsound.tasks_eq, length_tasksOf hm]
    exact Nat.add_zero _
  · rw [hjob] at hgo
    have hitems := repoItemCalls_items (g := noGraders) hm (executeRepo_goesOn (u := u).mp hgo)
    cases x with
    | none => exact hitems
    | some file =>
      obtain ⟨run, rfl, herrors⟩ := hr file rfl
      rw [repoCalls, if_neg herrors, List.map_cons, List.sum_cons, hitems]
      exact Nat.zero_add _

theorem progressCalls_items {j : Job} (hj : j ∈ jobs c.toConfig) {x : Option (Saved j.slot)}
    (hsound : ∀ y, x = some y → SoundFile u c j.slot y)
    (hplanned : ∀ y, x = some y → PlannedFile c j.slot y)
    (hgo : (executeJob u g c.toConfig false w j x).goesOn = true) :
    ((progressCalls u g c.toConfig w j x).map DashboardCall.items).sum = j.units c.toConfig := by
  cases j with
  | text m round attempt =>
    obtain ⟨hm, hround⟩ := mem_jobs_text hj
    exact textCalls_items hm hround (fun p hp => hplanned p hp m hm rfl) hgo
  | repo m =>
    rcases mem_jobs_model hj with ⟨_, _, _, _, h⟩ | ⟨m', hm, h⟩
    · cases h
    · cases h
      exact repoCalls_items hm hsound hgo

end Items

/-! The planned total. -/

section Total
variable {c : ValidConfig}

theorem sum_replicate_map {α : Type} (l : List α) (n : Nat) :
    (l.map fun _ => n).sum = l.length * n := by
  rw [List.map_const', List.sum_replicate, smul_eq_mul]

theorem modelRounds_perm {m : ModelConfig} (hm : m ∈ c.models) :
    (modelRounds c.toConfig m).Perm
      (((modelRounds c.toConfig m).filter fun r => decide (r ∈ [1, 2, 3])) ++
        if 4 ∈ modelRounds c.toConfig m then [4] else []) := by
  have hvalid := c.valid
  simp only [validateConfig, Bool.and_eq_true, decide_eq_true_eq, List.all_eq_true] at hvalid
  have hrounds : ∀ r ∈ modelRounds c.toConfig m, r ∈ [1, 2, 3, 4] := fun r hr =>
    hvalid.1.1.1.2 r ((hvalid.1.2 m hm).1.1.1.2 r hr)
  have hnodup := c.rounds_nodup hm
  refine (List.perm_ext_iff_of_nodup hnodup ?_).mpr fun r => ?_
  · refine List.nodup_append.mpr ⟨hnodup.filter _, by split <;> simp, fun a ha b hb => ?_⟩
    split at hb
    · rw [List.mem_singleton.mp hb]
      rintro rfl
      simp at ha
    · cases hb
  · rw [List.mem_append, List.mem_filter, decide_eq_true_eq]
    constructor
    · intro hr
      by_cases h4 : r = 4
      · subst h4
        exact .inr (by simp [hr])
      · refine .inl ⟨hr, ?_⟩
        have h := hrounds r hr
        simp only [List.mem_cons, List.not_mem_nil, or_false] at h ⊢
        omega
    · rintro (⟨hr, _⟩ | hr)
      · exact hr
      · split at hr
        · rename_i h4
          rw [List.mem_singleton.mp hr]
          exact h4
        · cases hr

/-- The jobs of the campaign are planned for as many items as `_campaign_units` says. -/
theorem jobs_units :
    ((jobs c.toConfig).map (Job.units c.toConfig)).sum = campaignUnits c.toConfig := by
  rw [jobs, List.map_flatMap, sum_flatMap, campaignUnits]
  refine congrArg List.sum (List.map_congr_left fun m hm => ?_)
  have hperm := ((modelRounds_perm hm).map fun round =>
    c.repetitions * plannedItems c.toConfig m round).sum_eq
  rw [hperm, List.map_append, List.map_append, List.sum_append, List.sum_append, List.map_flatMap,
    sum_flatMap]
  congr 1
  · refine congrArg List.sum (List.map_congr_left fun round _ => ?_)
    rw [List.map_map]
    change ((List.range' 1 c.repetitions).map fun _ => plannedItems c.toConfig m round).sum = _
    rw [sum_replicate_map, List.length_range']
  · split <;> rfl

end Total

/-- In a run that comes to its end the display counts every completed item under one heading, at
every moment, and ends at the total that was planned. -/
theorem progress_accounts (u : UnicodeData) (g : Graders) (c : ValidConfig) (w : World)
    (s : ReachedStore u g c) (h : completes u g c.toConfig w s.1 = true) :
    (∀ calls, calls <+: (progress u g c.toConfig w s.1).2 → (dashboard calls).Balanced) ∧
      (dashboard (progress u g c.toConfig w s.1).2).completed = campaignUnits c.toConfig := by
  refine ⟨fun _ _ => dashboard_balanced, ?_⟩
  have hgo := (finishes_iff Job.slot (jobs_nodup c) s.1).mp h
  have hturns : turns Job.slot (progressJob u g c.toConfig w) s.1 (jobs c.toConfig) =
      jobs c.toConfig := by
    refine (turns_eq_iff Job.slot s.1 _).mpr fun pre j post hsplit _ => hgo j ?_
    rw [hsplit]
    simp
  have hlog : (progress u g c.toConfig w s.1).2 =
      (jobs c.toConfig).flatMap fun j => progressCalls u g c.toConfig w j (s.1 j.slot) := by
    rw [progress, run_log Job.slot (jobs_nodup c), hturns]
    rfl
  rw [dashboard_completed, hlog, List.map_flatMap, sum_flatMap, ← jobs_units]
  refine congrArg List.sum (List.map_congr_left fun j hj => ?_)
  exact progressCalls_items hj (s.2.sound c j.slot) (s.2.planned j.slot) (hgo j hj)

/-! Two questions and a repository task, first with a backend that fails on the second question. -/

def twoQuestions : ValidConfig where
  models := [{ key := "m".toList, itemFilters := [(1, [1, 2])], taskFilter := some [.q27Race] }]
  repetitions := 1
  rounds := [4, 1]
  valid := by decide

def gradedAttempt : RepoAttempt :=
  ⟨.ok (), fun _ => some (.ok ⟨0, false, false, "done".toList, none, false, [], false, none, false⟩),
    false, .ok true⟩

def answeringWorld (secondFails : Bool) : World where
  replies _ _ _ id _ :=
    if secondFails && id == 2 then some (.error "refused".toList)
    else some (.ok ⟨"ANSWER: 1".toList, .str "stop".toList, .int 5⟩)
  saves _ _ _ := true
  repo _ := ⟨true, fun _ _ => gradedAttempt, .whole⟩

def afterFailure : ReachedStore asciiData noGraders twoQuestions :=
  ⟨_, Reachable.run .empty false (answeringWorld true)⟩

theorem afterFailure_accounts :
    completes asciiData noGraders twoQuestions.toConfig (answeringWorld false) afterFailure.1 = true ∧
      (dashboard (progress asciiData noGraders twoQuestions.toConfig (answeringWorld false)
        afterFailure.1).2).completed = campaignUnits twoQuestions.toConfig := by
  have h : completes asciiData noGraders twoQuestions.toConfig (answeringWorld false)
      afterFailure.1 = true := by decide +kernel
  exact ⟨h, (progress_accounts _ _ _ _ _ h).2⟩

end Campaign
