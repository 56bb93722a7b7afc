import LlmHardtest.Campaign.Execute
set_option autoImplicit false

/-! Which attempts a resumed run executes again. -/

namespace Campaign
open Python Round4 JobLoop

/-! Facts of a valid config. -/

section Valid
variable (c : ValidConfig)

theorem ValidConfig.keys_nodup : (c.models.map ModelConfig.key).Nodup := by
  have h := c.valid
  simp only [validateConfig, Bool.and_eq_true, decide_eq_true_eq] at h
  exact h.1.1.1.1.1.1.1.1.2

theorem ValidConfig.repetitions_pos : 1 ≤ c.repetitions := by
  have h := c.valid
  simp only [validateConfig, Bool.and_eq_true, decide_eq_true_eq] at h
  exact h.1.1.1.1.1.1.2

theorem ValidConfig.rounds_nodup {m : ModelConfig} (hm : m ∈ c.models) :
    (modelRounds c.toConfig m).Nodup := by
  have h := c.valid
  simp only [validateConfig, Bool.and_eq_true, decide_eq_true_eq, List.all_eq_true] at h
  exact (h.1.2 m hm).1.1.2

theorem ValidConfig.model_eq {m m' : ModelConfig} (hm : m ∈ c.models) (hm' : m' ∈ c.models)
    (hkey : m.key = m'.key) : m = m' :=
  List.inj_on_of_nodup_map c.keys_nodup hm hm' hkey

theorem ValidConfig.tasks_nodup {m : ModelConfig} (hm : m ∈ c.models) :
    (tasksOf c.toConfig m).Nodup := by
  have h := c.valid
  simp only [validateConfig, Bool.and_eq_true, decide_eq_true_eq, List.all_eq_true,
    Option.all_eq_true] at h
  unfold tasksOf
  split
  · rename_i hfilter
    exact ((h.1.2 m hm).2 _ hfilter).1.2
  · split
    · rename_i htasks
      exact (h.2 _ htasks).1.2
    · decide

theorem tasksOf_ne_nil (c : Config) (m : ModelConfig) : tasksOf c m ≠ [] := by
  unfold tasksOf
  split
  · simp
  · split
    · simp
    · decide

theorem mem_jobs_model {c : Config} {j : Job} (h : j ∈ jobs c) :
    (∃ m ∈ c.models, ∃ round attempt, j = .text m round attempt) ∨ ∃ m ∈ c.models, j = .repo m := by
  obtain ⟨m, hm, h⟩ := List.mem_flatMap.mp h
  cases List.mem_append.mp h with
  | inl h =>
    obtain ⟨round, _, h⟩ := List.mem_flatMap.mp h
    obtain ⟨attempt, _, rfl⟩ := List.mem_map.mp h
    exact .inl ⟨m, hm, round, attempt, rfl⟩
  | inr h =>
    split at h
    · obtain rfl := List.mem_singleton.mp h
      exact .inr ⟨m, hm, rfl⟩
    · simp at h

def Slot.key : Slot → Str
  | .result key _ _ => key
  | .run key => key

theorem jobs_nodup : ((jobs c.toConfig).map Job.slot).Nodup := by
  rw [jobs, List.map_flatMap, List.nodup_flatMap]
  constructor
  · intro m hm
    rw [List.map_append, List.map_flatMap, List.nodup_append]
    refine ⟨?_, ?_, ?_⟩
    · rw [List.nodup_flatMap]
      constructor
      · intro round _
        rw [List.map_map]
        refine List.Nodup.map (fun a b h => ?_) (List.nodup_range' ..)
        simpa [Job.slot] using h
      · refine ((c.rounds_nodup hm).filter _).imp fun {a b} hab => ?_
        intro x hxa hxb
        simp only [List.map_map, List.mem_map, Function.comp, Job.slot] at hxa hxb
        obtain ⟨_, _, rfl⟩ := hxa
        obtain ⟨_, _, h⟩ := hxb
        injection h with _ h
        exact hab h.symm
    · split <;> simp
    · intro x hx y hy
      split at hy
      · simp only [List.map_cons, List.map_nil, List.mem_singleton, Job.slot] at hy
        obtain ⟨_, _, hx⟩ := List.mem_flatMap.mp hx
        simp only [List.map_map, List.mem_map, Function.comp, Job.slot] at hx
        obtain ⟨_, _, rfl⟩ := hx
        rw [hy]
        exact Slot.noConfusion
      · simp at hy
  · have hkey : ∀ m, ∀ x ∈ List.map Job.slot
        (((modelRounds c.toConfig m).filter fun r => decide (r ∈ [1, 2, 3])).flatMap
          (fun round => (List.range' 1 c.repetitions).map fun attempt => Job.text m round attempt) ++
          if 4 ∈ modelRounds c.toConfig m then [Job.repo m] else []), x.key = m.key := by
      intro m x hx
      obtain ⟨j, hj, rfl⟩ := List.mem_map.mp hx
      cases List.mem_append.mp hj with
      | inl hj =>
        obtain ⟨round, _, hj⟩ := List.mem_flatMap.mp hj
        obtain ⟨attempt, _, rfl⟩ := List.mem_map.mp hj
        rfl
      | inr hj =>
        split at hj
        · obtain rfl := List.mem_singleton.mp hj
          rfl
        · simp at hj
    refine (List.pairwise_map.mp c.keys_nodup).imp fun {m m'} hne x hx hx' => hne ?_
    rw [← hkey m x hx, hkey m' x hx']

end Valid

/-! Saved outcomes. -/

inductive Record where
  | text (p : Payload)
  | repo (x : Except Str RepoGrade)

def recordIn : AttemptId → (i : Slot) → Option (Saved i) → Option Record
  | .text _ _ _, .result _ _ _, some (p : Payload) => some (.text p)
  | .repo _ task attempt, .run _, some (.whole run) => (run.outcome task attempt).map .repo
  | _, _, _ => none

def recorded (s : Store) (id : AttemptId) : Option Record := recordIn id id.slot (s id.slot)

def Record.statuses (u : UnicodeData) : Record → List Status
  | .text p => p.results.map (itemStatus u)
  | .repo (.ok g) => [if g.modelTimedOut then .invalid else if g.attemptPass then .pass else .fail]
  | .repo (.error _) => [.invalid]

/-- Nothing is recorded, or an item is invalid or incomplete. -/
def Unfinished (u : UnicodeData) (r : Option Record) : Prop :=
  ∀ rec, r = some rec → ∃ status ∈ rec.statuses u, status = .invalid ∨ status = .incomplete

def savedItems : (i : Slot) → Option (Saved i) → Nat
  | .result _ _ _, some (p : Payload) => p.results.length
  | .run _, some (.whole run) => run.grades.length + run.errors.length
  | _, _ => 0

def attempts (c : Config) : List AttemptId := (jobs c).flatMap (Job.ids c)

theorem slot_of_mem_ids {c : Config} {j : Job} {id : AttemptId} (h : id ∈ j.ids c) :
    id.slot = j.slot := by
  cases j with
  | text m round attempt =>
    obtain rfl := List.mem_singleton.mp h
    rfl
  | repo m =>
    obtain ⟨p, _, rfl⟩ := List.mem_map.mp h
    rfl

section Sound
variable (u : UnicodeData) (g : Graders) (c : ValidConfig)

def SoundFile : (i : Slot) → Saved i → Prop
  | .result _ round _, (p : Payload) => p.round = round ∧ p.Sound u
  | .run key, (file : RunFile) => match file with
    | .torn => True
    | .whole run => ∀ m ∈ c.models, m.key = key →
        run.Sound (tasksOf c.toConfig m) c.repetitions

variable {u g}

theorem textResult_sound {w : World} {m : ModelConfig} {round attempt : Nat} {p : Payload}
    (h : textResult u g w m round attempt = some p) : p.round = round ∧ p.Sound u := by
  unfold textResult at h
  simp only at h
  split at h
  · split at h
    · rename_i hround
      refine ⟨?_, round3_sound u g h⟩
      obtain ⟨_, _, h⟩ := Option.bind_eq_some_iff.mp h
      cases h
      exact hround.symm
    · rename_i hround
      refine ⟨?_, round12_sound u g hround h⟩
      obtain ⟨_, _, h⟩ := Option.bind_eq_some_iff.mp h
      obtain ⟨_, _, h⟩ := Option.bind_eq_some_iff.mp h
      cases h
      rfl
  · cases h

theorem executeJob_sound {dryRun : Bool} {w : World} {j : Job} (hj : j ∈ jobs c.toConfig)
    (x : Option (Saved j.slot)) (hx : ∀ y, x = some y → SoundFile u c j.slot y) :
    ∀ y, (executeJob u g c.toConfig dryRun w j x).saved = some y → SoundFile u c j.slot y := by
  have htext : ∀ (m : ModelConfig) (round attempt : Nat) (saved : Option Payload),
      (∀ y, saved = some y → y.round = round ∧ y.Sound u) →
      ∀ y, (executeText u g dryRun w m round attempt saved).saved = some y →
        y.round = round ∧ y.Sound u := by
    intro m round attempt saved hsaved y hy
    unfold executeText at hy
    split at hy
    · exact hsaved y hy
    · simp only at hy
      split at hy
      · rename_i p hp
        injection hy with hy
        exact hy ▸ textResult_sound hp
      · exact hsaved y hy
  have hrepo : ∀ m ∈ c.models, ∀ saved : Option RunFile,
      (∀ y, saved = some y → SoundFile u c (.run m.key) y) →
      ∀ y, (executeRepo c.toConfig dryRun w m saved).saved = some y →
        SoundFile u c (.run m.key) y := by
    intro m hm saved hsaved y hy
    unfold executeRepo at hy
    split at hy
    · exact hsaved y hy
    · split at hy
      · simp only at hy
        split at hy
        · rename_i run hrun _
          injection hy with hy
          subst hy
          intro m' hm' hkey
          rw [c.model_eq hm' hm hkey]
          exact runPairs_sound hrun
        · injection hy with hy
          subst hy
          trivial
        · exact hsaved y hy
      · exact hsaved y hy
  cases mem_jobs_model hj with
  | inl h =>
    obtain ⟨m, hm, round, attempt, rfl⟩ := h
    intro y hy
    change (textJob u g dryRun w m round attempt x).saved = some y at hy
    unfold textJob at hy
    split at hy
    · split at hy
      · exact htext m round attempt _ hx y hy
      · exact hx y hy
    · exact htext m round attempt none (by simp) y hy
  | inr h =>
    obtain ⟨m, hm, rfl⟩ := h
    intro y hy
    change (repoJob c.toConfig dryRun w m x).saved = some y at hy
    unfold repoJob at hy
    split at hy
    · exact hx y hy
    · split at hy
      · exact hx y hy
      · exact hrepo m hm _ hx y hy
    · exact hrepo m hm none (by simp) y hy

/-- Every file that runs of a campaign leave is sound. -/
theorem Reachable.sound {s : Store} (h : Reachable u g c s) :
    ∀ i y, s i = some y → SoundFile u c i y := by
  induction h with
  | empty => simp
  | run h dryRun w ih =>
    exact run_invariant Job.slot (SoundFile u c) _ (fun j hj x hx => executeJob_sound c hj x hx) _ ih

end Sound

/-! The policy. -/

section Policy
variable (u : UnicodeData) (g : Graders) (c : Config) (w : World)

/-- The resume policy of one run over a saved state: it starts exactly the unfinished attempts,
and every other attempt keeps its outcomes and counts as resumed. -/
structure ResumePolicy (s : Store) : Prop where
  executed : ∀ id, .start id ∈ (execute u g c false w s).2 ↔
    id ∈ attempts c ∧ Unfinished u (recorded s id)
  kept : ∀ id ∈ attempts c, ¬ Unfinished u (recorded s id) →
    recorded (execute u g c false w s).1 id = recorded s id ∧
      .skip (savedItems id.slot (s id.slot)) id.slot ∈ (execute u g c false w s).2

/-- A saved file on which the loop decides for all its attempts alike: of Round 3, one whose
incomplete items come with an invalid one; of Round 4, a whole file with no errors or no grades. -/
def FileSettled : (i : Slot) → Option (Saved i) → Prop
  | .result _ round _, some (p : Payload) => round = 3 →
      (∃ row ∈ p.results, itemStatus u row = .incomplete) →
        ∃ row ∈ p.results, itemStatus u row = .invalid
  | .run _, some .torn => False
  | .run _, some (.whole run) => run.errors = [] ∨ run.grades = []
  | _, none => True

def Reruns : (j : Job) → Option (Saved j.slot) → Prop
  | .text _ _ _, x => ∀ p : Payload, x = some p →
      p.infrastructureErrors ≠ 0 ∨ p.incomplete.getD 0 ≠ 0
  | .repo _, x => ∀ file : RunFile, x = some file → ∃ run, file = .whole run ∧ run.errors ≠ []

def pairOutcome (m : ModelConfig) (p : TaskKey × Nat) : Option (Except Str RepoGrade) :=
  runAttempt c.timeout m.agentBackend ((w.repo m.key).attempt p.1 p.2) p.1 p.2

def Starts : Job → Prop
  | .text _ _ _ => True
  | .repo m => (w.repo m.key).ready = true ∧
      ∀ pre p post, pairs (tasksOf c m) c.repetitions = pre ++ p :: post → post ≠ [] →
        (pairOutcome c w m p).isSome = true

def Completes : Job → Prop
  | .text m round attempt => (textResult u g w m round attempt).isSome = true
  | .repo m => (w.repo m.key).ready = true ∧ (w.repo m.key).written = .whole ∧
      ∀ p ∈ pairs (tasksOf c m) c.repetitions, ∃ grade, pairOutcome c w m p = some (.ok grade)

/-- No job that the run executes is cut short, and none but the last stops the run. -/
structure Undisturbed (s : Store) : Prop where
  starts : ∀ j ∈ jobs c, Reruns j (s j.slot) → Starts c w j
  completes : ∀ pre j post, jobs c = pre ++ j :: post → post ≠ [] → Reruns j (s j.slot) →
    Completes u g c w j

variable {u g c w}

def Event.slot : Event → Slot
  | .start id => id.slot
  | .skip _ file => file

theorem executeText_log {m : ModelConfig} {round attempt : Nat} {saved : Option Payload} :
    (executeText u g false w m round attempt saved).log =
      [.start (.text m.key round attempt)] := by
  unfold executeText
  simp only [Bool.false_eq_true, if_false]
  split <;> rfl

theorem executeText_goesOn {m : ModelConfig} {round attempt : Nat} {saved : Option Payload} :
    (executeText u g false w m round attempt saved).goesOn =
      (textResult u g w m round attempt).isSome := by
  unfold executeText
  simp only [Bool.false_eq_true, if_false]
  split
  · rename_i h
    rw [h]
    rfl
  · rename_i h
    rw [h]
    rfl

theorem executeRepo_log {m : ModelConfig} {saved : Option RunFile} :
    (executeRepo c false w m saved).log = if (w.repo m.key).ready then
      (repoRun c w m).1.map fun p => Event.start (.repo m.key p.1 p.2) else [] := by
  unfold executeRepo
  simp only [Bool.false_eq_true, if_false]
  split
  · split <;> rfl
  · rfl

theorem executeRepo_goesOn {m : ModelConfig} {saved : Option RunFile} :
    (executeRepo c false w m saved).goesOn = true ↔ Completes u g c w (.repo m) := by
  have hclean : (∃ r, (repoRun c w m).2 = some r ∧ r.errors = []) ↔
      ∀ p ∈ pairs (tasksOf c m) c.repetitions, ∃ grade, pairOutcome c w m p = some (.ok grade) :=
    runPairs_clean_iff
  rw [Completes, ← hclean]
  unfold executeRepo
  simp only [Bool.false_eq_true, if_false]
  split
  · rename_i hready
    simp only [hready, true_and]
    split
    · rename_i run hrun hwritten
      simp [hrun, hwritten]
    · rename_i hwritten
      simp [hwritten]
    · rename_i h1 h2
      constructor
      · intro h
        cases h
      · intro ⟨hwritten, r, hr, _⟩
        exact absurd hwritten (h1 r hr)
  · rename_i hready
    simp [hready]

theorem textJob_cases (m : ModelConfig) (round attempt : Nat) (x : Option Payload) :
    (∃ p, x = some p ∧ ¬ Reruns (.text m round attempt) x ∧ textJob u g false w m round attempt x =
      ⟨x, [.skip p.planned (.result m.key round attempt)], true⟩) ∨
    Reruns (.text m round attempt) x ∧
      textJob u g false w m round attempt x = executeText u g false w m round attempt x := by
  cases x with
  | none => exact .inr ⟨fun _ h => (nomatch h), rfl⟩
  | some p =>
    by_cases h : p.infrastructureErrors ≠ 0 ∨ p.incomplete.getD 0 ≠ 0
    · refine .inr ⟨fun p' hp => ?_, if_pos h⟩
      cases hp
      exact h
    · exact .inl ⟨p, rfl, fun hr => h (hr p rfl), if_neg h⟩

/-- What a Round 4 job can do: it fails on a torn file, skips a file without errors, or executes. -/
theorem repoJob_cases (m : ModelConfig) (x : Option RunFile) :
    (x = some .torn ∧ ¬ Reruns (.repo m) x ∧ repoJob c false w m x = ⟨x, [], false⟩) ∨
    (∃ run, x = some (.whole run) ∧ run.errors = [] ∧ ¬ Reruns (.repo m) x ∧
      repoJob c false w m x =
        ⟨x, [.skip (run.attempts * run.tasks.length) (.run m.key)], true⟩) ∨
    Reruns (.repo m) x ∧ repoJob c false w m x = executeRepo c false w m x := by
  match x with
  | none => exact .inr (.inr ⟨fun _ h => (nomatch h), rfl⟩)
  | some .torn =>
    refine .inl ⟨rfl, fun hr => ?_, rfl⟩
    obtain ⟨run, h, _⟩ := hr .torn rfl
    cases h
  | some (.whole run) =>
    by_cases h : run.errors = []
    · refine .inr (.inl ⟨run, rfl, h, fun hr => ?_, if_pos h⟩)
      obtain ⟨run', heq, hne⟩ := hr _ rfl
      cases heq
      exact hne h
    · refine .inr (.inr ⟨fun file hf => ?_, if_neg h⟩)
      cases hf
      exact ⟨run, rfl, h⟩

theorem text_event {m : ModelConfig} {round attempt : Nat} {x : Option Payload} {e : Event}
    (h : e ∈ (textJob u g false w m round attempt x).log) :
    (∃ id ∈ Job.ids c (.text m round attempt), e = .start id) ∨
      (∃ n, e = .skip n (.result m.key round attempt)) ∧
        (textJob u g false w m round attempt x).saved = x := by
  rcases textJob_cases (u := u) (g := g) (w := w) m round attempt x with
    ⟨p, _, _, hjob⟩ | ⟨_, hjob⟩
  · rw [hjob] at h ⊢
    exact .inr ⟨⟨_, List.mem_singleton.mp h⟩, rfl⟩
  · rw [hjob, executeText_log] at h
    exact .inl ⟨_, List.mem_singleton.mpr rfl, List.mem_singleton.mp h⟩

theorem repo_event {m : ModelConfig} {x : Option RunFile} {e : Event}
    (h : e ∈ (repoJob c false w m x).log) :
    (∃ id ∈ Job.ids c (.repo m), e = .start id) ∨
      (∃ n, e = .skip n (.run m.key)) ∧ (repoJob c false w m x).saved = x := by
  rcases repoJob_cases (c := c) (w := w) m x with
    ⟨_, _, hjob⟩ | ⟨run, _, _, _, hjob⟩ | ⟨_, hjob⟩
  · rw [hjob] at h
    simp at h
  · rw [hjob] at h ⊢
    exact .inr ⟨⟨_, List.mem_singleton.mp h⟩, rfl⟩
  · rw [hjob, executeRepo_log] at h
    split at h
    · obtain ⟨p, hp, rfl⟩ := List.mem_map.mp h
      exact .inl ⟨_, List.mem_map.mpr ⟨p, (playAll_initial _).subset hp, rfl⟩, rfl⟩
    · simp at h

theorem job_event {j : Job} {x : Option (Saved j.slot)} {e : Event}
    (h : e ∈ (executeJob u g c false w j x).log) :
    (∃ id ∈ j.ids c, e = .start id) ∨
      (∃ n, e = .skip n j.slot) ∧ (executeJob u g c false w j x).saved = x := by
  cases j with
  | text m round attempt => exact text_event h
  | repo m => exact repo_event h

theorem event_slot {j : Job} {x : Option (Saved j.slot)} {e : Event}
    (h : e ∈ (executeJob u g c false w j x).log) : e.slot = j.slot := by
  rcases job_event h with ⟨id, hid, rfl⟩ | ⟨⟨n, rfl⟩, _⟩
  · exact slot_of_mem_ids hid
  · rfl

theorem start_mem_ids {j : Job} {x : Option (Saved j.slot)} {id : AttemptId}
    (h : .start id ∈ (executeJob u g c false w j x).log) : id ∈ j.ids c := by
  rcases job_event h with ⟨id', hid, heq⟩ | ⟨⟨n, heq⟩, _⟩
  · cases heq
    exact hid
  · cases heq

theorem saved_of_skip {j : Job} {x : Option (Saved j.slot)} {n : Nat} {i : Slot}
    (h : .skip n i ∈ (executeJob u g c false w j x).log) :
    (executeJob u g c false w j x).saved = x := by
  rcases job_event h with ⟨id, _, heq⟩ | ⟨_, hsaved⟩
  · cases heq
  · exact hsaved

theorem textJob_goesOn {m : ModelConfig} {round attempt : Nat} {x : Option Payload} :
    (textJob u g false w m round attempt x).goesOn = true ↔
      (Reruns (.text m round attempt) x → Completes u g c w (.text m round attempt)) := by
  rcases textJob_cases (u := u) (g := g) (w := w) m round attempt x with
    ⟨p, _, hno, hjob⟩ | ⟨hr, hjob⟩
  · rw [hjob]
    exact ⟨fun _ h => absurd h hno, fun _ => rfl⟩
  · rw [hjob, executeText_goesOn]
    exact ⟨fun h _ => h, fun h => h hr⟩

theorem repoJob_goesOn {m : ModelConfig} {x : Option RunFile} (hx : x ≠ some .torn) :
    (repoJob c false w m x).goesOn = true ↔
      (Reruns (.repo m) x → Completes u g c w (.repo m)) := by
  rcases repoJob_cases (c := c) (w := w) m x with
    ⟨htorn, _, _⟩ | ⟨run, _, _, hno, hjob⟩ | ⟨hr, hjob⟩
  · exact absurd htorn hx
  · rw [hjob]
    exact ⟨fun _ h => absurd h hno, fun _ => rfl⟩
  · rw [hjob, executeRepo_goesOn (u := u) (g := g)]
    exact ⟨fun h _ => h, fun h => h hr⟩

theorem goesOn_iff {j : Job} {x : Option (Saved j.slot)} (hx : FileSettled u j.slot x) :
    (executeJob u g c false w j x).goesOn = true ↔ (Reruns j x → Completes u g c w j) := by
  cases j with
  | text m round attempt => exact textJob_goesOn
  | repo m =>
    refine repoJob_goesOn fun h => ?_
    rw [h] at hx
    exact hx

end Policy

/-! One job. -/

section OneJob
variable (u : UnicodeData) (g : Graders) (c : ValidConfig) (w : World)

structure JobPolicy (j : Job) (x : Option (Saved j.slot)) : Prop where
  executed : ∀ id ∈ j.ids c.toConfig, .start id ∈ (executeJob u g c.toConfig false w j x).log ↔
    Unfinished u (recordIn id j.slot x)
  kept : ∀ id ∈ j.ids c.toConfig, ¬ Unfinished u (recordIn id j.slot x) →
    (executeJob u g c.toConfig false w j x).saved = x ∧
      .skip (savedItems j.slot x) j.slot ∈ (executeJob u g c.toConfig false w j x).log

variable {u g c w}

theorem unfinished_none : Unfinished u none := fun _ h => nomatch h

theorem unfinished_text_iff {p : Payload} : Unfinished u (some (.text p)) ↔
    (∃ row ∈ p.results, itemStatus u row = .invalid) ∨
      ∃ row ∈ p.results, itemStatus u row = .incomplete := by
  constructor
  · intro h
    obtain ⟨status, hs, hor⟩ := h _ rfl
    obtain ⟨row, hrow, rfl⟩ := List.mem_map.mp hs
    exact hor.imp (fun h => ⟨row, hrow, h⟩) fun h => ⟨row, hrow, h⟩
  · intro h rec hrec
    cases hrec
    cases h with
    | inl h =>
      obtain ⟨row, hrow, hs⟩ := h
      exact ⟨.invalid, List.mem_map.mpr ⟨row, hrow, hs⟩, .inl rfl⟩
    | inr h =>
      obtain ⟨row, hrow, hs⟩ := h
      exact ⟨.incomplete, List.mem_map.mpr ⟨row, hrow, hs⟩, .inr rfl⟩

/-- The saved counts say exactly whether a text attempt is unfinished, except that Round 3 does not
count its incomplete items. -/
theorem counted_iff {p : Payload} (h : p.Sound u) :
    (p.infrastructureErrors ≠ 0 ∨ p.incomplete.getD 0 ≠ 0) ↔
      (∃ row ∈ p.results, itemStatus u row = .invalid) ∨
        p.round ≠ 3 ∧ ∃ row ∈ p.results, itemStatus u row = .incomplete := by
  rw [h.invalid]
  by_cases hround : p.round = 3
  · simp [h.uncounted hround, hround]
  · rw [h.incomplete hround]
    simp [hround]

theorem textPolicy_iff {m : ModelConfig} {round attempt : Nat} {x : Option Payload}
    (hx : ∀ p, x = some p → p.round = round ∧ p.Sound u) :
    JobPolicy u g c w (.text m round attempt) x ↔
      FileSettled u (.result m.key round attempt) x := by
  cases x with
  | none =>
    refine ⟨fun _ => trivial, fun _ => ⟨fun id hid => ?_, fun id hid h => ?_⟩⟩
    · obtain rfl := List.mem_singleton.mp hid
      have hlog : (executeText u g false w m round attempt none).log = _ := executeText_log
      exact ⟨fun _ => unfinished_none, fun _ => hlog ▸ List.mem_singleton.mpr rfl⟩
    · obtain rfl := List.mem_singleton.mp hid
      exact absurd unfinished_none h
  | some p =>
    obtain ⟨hround, hsound⟩ := hx p rfl
    have hcount := counted_iff hsound
    have hunf := @unfinished_text_iff u p
    rw [hround] at hcount
    by_cases hrun : p.infrastructureErrors ≠ 0 ∨ p.incomplete.getD 0 ≠ 0
    · have hjob : textJob u g false w m round attempt (some p) =
          executeText u g false w m round attempt (some p) := by rw [textJob, if_pos hrun]
      have hstart : Event.start (.text m.key round attempt) ∈
          (textJob u g false w m round attempt (some p)).log := by
        rw [hjob, executeText_log]
        exact List.mem_singleton.mpr rfl
      have hun : Unfinished u (some (.text p)) := hunf.mpr ((hcount.mp hrun).imp_right (·.2))
      constructor
      · intro _ h3 _
        cases hcount.mp hrun with
        | inl h => exact h
        | inr h => exact absurd h3 h.1
      · intro _
        refine ⟨fun id hid => ?_, fun id hid h => ?_⟩
        · obtain rfl := List.mem_singleton.mp hid
          exact ⟨fun _ => hun, fun _ => hstart⟩
        · obtain rfl := List.mem_singleton.mp hid
          exact absurd hun h
    · have hjob : textJob u g false w m round attempt (some p) =
          ⟨some p, [.skip p.planned (.result m.key round attempt)], true⟩ := by
        rw [textJob, if_neg hrun]
      rw [hcount, not_or] at hrun
      constructor
      · intro h h3 hinc
        have hstart := (h.executed _ (List.mem_singleton.mpr rfl)).mpr (hunf.mpr (.inr hinc))
        have hstart' : Event.start (.text m.key round attempt) ∈
            (textJob u g false w m round attempt (some p)).log := hstart
        rw [hjob] at hstart'
        simp at hstart'
      · intro h
        have hun : ¬ Unfinished u (some (.text p)) := by
          intro hun
          cases hunf.mp hun with
          | inl hinv => exact hrun.1 hinv
          | inr hinc =>
            by_cases h3 : round = 3
            · exact hrun.1 (h h3 hinc)
            · exact hrun.2 ⟨h3, hinc⟩
        have hnot : Event.start (.text m.key round attempt) ∉
            (textJob u g false w m round attempt (some p)).log := by
          rw [hjob]
          simp
        refine ⟨fun id hid => ?_, fun id hid _ => ?_⟩
        · obtain rfl := List.mem_singleton.mp hid
          exact ⟨fun h => absurd h hnot, fun h => absurd h hun⟩
        · have hkept : (textJob u g false w m round attempt (some p)).saved = some p ∧
              Event.skip p.results.length (.result m.key round attempt) ∈
                (textJob u g false w m round attempt (some p)).log := by
            rw [hjob, ← hsound.planned]
            simp
          exact hkept

theorem pairs_nodup {tasks : List TaskKey} (h : tasks.Nodup) (attempts : Nat) :
    (pairs tasks attempts).Nodup := by
  rw [pairs, List.nodup_flatMap]
  constructor
  · intro task _
    exact List.Nodup.map (fun a b h => by simpa using h) (List.nodup_range' ..)
  · refine h.imp fun {a b} hab x hxa hxb => ?_
    obtain ⟨_, _, rfl⟩ := List.mem_map.mp hxa
    obtain ⟨_, _, h⟩ := List.mem_map.mp hxb
    injection h with h _
    exact hab h.symm

theorem pairs_ne_nil (c : ValidConfig) (m : ModelConfig) :
    pairs (tasksOf c.toConfig m) c.repetitions ≠ [] := by
  intro h
  have hlen := length_pairs (tasksOf c.toConfig m) c.repetitions
  have h1 := List.length_pos_iff.mpr (tasksOf_ne_nil c.toConfig m)
  have h2 := c.repetitions_pos
  rw [h, List.length_nil] at hlen
  exact absurd hlen.symm (Nat.mul_pos h2 h1).ne'

/-- A Round 4 execution starts each of its attempts exactly when the model is ready and every
attempt before the last one ends. -/
theorem executeRepo_starts_iff {m : ModelConfig} (hm : m ∈ c.models) {saved : Option RunFile} :
    (∀ id ∈ Job.ids c.toConfig (.repo m),
      Event.start id ∈ (executeRepo c.toConfig false w m saved).log) ↔
        Starts c.toConfig w (.repo m) := by
  have hplay := @JobLoop.forall_mem_started_iff _ _ (fun p : TaskKey × Nat =>
    (pairOutcome c.toConfig w m p).map fun r => (p, r)) _ (pairs_nodup (c.tasks_nodup hm) c.repetitions)
  simp only [Option.isSome_map] at hplay
  rw [Starts, ← hplay, executeRepo_log]
  constructor
  · intro h
    have hready : (w.repo m.key).ready = true := by
      obtain ⟨p, hp⟩ := List.exists_mem_of_ne_nil _ (pairs_ne_nil c m)
      have hs := h _ (List.mem_map.mpr ⟨p, hp, rfl⟩)
      by_contra hready
      rw [if_neg hready] at hs
      simp at hs
    refine ⟨hready, fun p hp => ?_⟩
    have hs := h _ (List.mem_map.mpr ⟨p, hp, rfl⟩)
    rw [if_pos hready] at hs
    obtain ⟨q, hq, heq⟩ := List.mem_map.mp hs
    injection heq with heq
    injection heq with _ h1 h2
    have hqp : q = p := Prod.ext h1 h2
    exact hqp ▸ hq
  · intro ⟨hready, h⟩ id hid
    obtain ⟨p, hp, rfl⟩ := List.mem_map.mp hid
    rw [if_pos hready]
    exact List.mem_map.mpr ⟨p, h p hp, rfl⟩

theorem repoPolicy_of_reruns {m : ModelConfig} (hm : m ∈ c.models) {x : Option RunFile}
    (hjob : repoJob c.toConfig false w m x = executeRepo c.toConfig false w m x)
    (hun : ∀ id ∈ Job.ids c.toConfig (.repo m), Unfinished u (recordIn id (.run m.key) x)) :
    JobPolicy u g c w (.repo m) x ↔ Starts c.toConfig w (.repo m) := by
  rw [← executeRepo_starts_iff hm, ← hjob]
  constructor
  · intro h id hid
    exact (h.executed id hid).mpr (hun id hid)
  · intro h
    exact ⟨fun id hid => ⟨fun _ => hun id hid, fun _ => h id hid⟩,
      fun id hid hn => absurd (hun id hid) hn⟩

theorem graded_finished {run : RunJson} {tasks : List TaskKey} {attempts : Nat}
    (hsound : run.Sound tasks attempts) {key : Str} {task : TaskKey} {attempt : Nat}
    (h : ∃ g ∈ run.grades, g.task = task ∧ g.attempt = attempt) :
    ¬ Unfinished u (recordIn (.repo key task attempt) (.run key) (some (.whole run))) := by
  intro hun
  obtain ⟨grade, hg, hout⟩ := RunJson.outcome_graded h
  obtain ⟨status, hs, hor⟩ := hun (.repo (.ok grade)) (by simp [recordIn, hout])
  simp only [Record.statuses, (hsound.grades grade hg).2, Bool.false_eq_true, if_false,
    List.mem_singleton] at hs
  split at hs <;> simp [hs] at hor

theorem repoPolicy_iff {m : ModelConfig} (hm : m ∈ c.models) {x : Option RunFile}
    (hx : ∀ file, x = some file → SoundFile u c (.run m.key) file) :
    JobPolicy u g c w (.repo m) x ↔ FileSettled u (.run m.key) x ∧
      (Reruns (.repo m) x → Starts c.toConfig w (.repo m)) := by
  match x, hx with
  | none, _ =>
    rw [repoPolicy_of_reruns hm rfl fun id hid => by
      obtain ⟨p, _, rfl⟩ := List.mem_map.mp hid
      exact unfinished_none]
    exact ⟨fun h => ⟨trivial, fun _ => h⟩, fun h => h.2 fun _ hf => (nomatch hf)⟩
  | some .torn, _ =>
    refine ⟨fun h => ?_, fun h => absurd h.1 id⟩
    obtain ⟨p, hp⟩ := List.exists_mem_of_ne_nil _ (pairs_ne_nil c m)
    have hstart := (h.executed _ (List.mem_map.mpr ⟨p, hp, rfl⟩)).mpr unfinished_none
    have hstart' : Event.start (.repo m.key p.1 p.2) ∈
        (repoJob c.toConfig false w m (some .torn)).log := hstart
    simp [repoJob] at hstart'
  | some (.whole run), hx =>
    have hsound := hx _ rfl m hm rfl
    by_cases herr : run.errors = []
    · have hjob : repoJob c.toConfig false w m (some (.whole run)) =
          ⟨some (.whole run), [.skip (run.attempts * run.tasks.length) (.run m.key)], true⟩ := by
        rw [repoJob, if_pos herr]
      have hnot : ∀ p ∈ pairs (tasksOf c.toConfig m) c.repetitions,
          ¬ Unfinished u (recordIn (.repo m.key p.1 p.2) (.run m.key) (some (.whole run))) := by
        intro p hp hun
        have hg : ∃ g ∈ run.grades, g.task = p.1 ∧ g.attempt = p.2 := by
          cases hsound.complete p hp with
          | inl h =>
            obtain ⟨g, hg, rfl⟩ := h
            exact ⟨g, hg, rfl, rfl⟩
          | inr h =>
            obtain ⟨e, he, _⟩ := h
            simp [herr] at he
        exact graded_finished hsound hg hun
      refine ⟨fun _ => ⟨.inl herr, fun h => ?_⟩, fun _ => ⟨fun id hid => ?_, fun id hid _ => ?_⟩⟩
      · obtain ⟨run', heq, hne⟩ := h _ rfl
        cases heq
        exact absurd herr hne
      · obtain ⟨p, hp, rfl⟩ := List.mem_map.mp hid
        have hlog : Event.start (.repo m.key p.1 p.2) ∉
            (repoJob c.toConfig false w m (some (.whole run))).log := by
          rw [hjob]
          simp
        exact ⟨fun h => absurd h hlog, fun h => absurd h (hnot p hp)⟩
      · have hkept : (repoJob c.toConfig false w m (some (.whole run))).saved =
            some (.whole run) ∧ Event.skip (run.grades.length + run.errors.length) (.run m.key) ∈
              (repoJob c.toConfig false w m (some (.whole run))).log := by
          rw [hjob, hsound.count, hsound.attempts_eq, hsound.tasks_eq]
          simp
        exact hkept
    · have hjob : repoJob c.toConfig false w m (some (.whole run)) =
          executeRepo c.toConfig false w m (some (.whole run)) := by rw [repoJob, if_neg herr]
      have hreruns : Reruns (.repo m) (some (.whole run)) := by
        intro file hfile
        cases hfile
        exact ⟨run, rfl, herr⟩
      by_cases hgrades : run.grades = []
      · have hun : ∀ id ∈ Job.ids c.toConfig (.repo m),
            Unfinished u (recordIn id (.run m.key) (some (.whole run))) := by
          intro id hid rec hrec
          obtain ⟨p, hp, rfl⟩ := List.mem_map.mp hid
          have he : ∃ e ∈ run.errors, e.task = p.1 ∧ e.attempt = p.2 := by
            cases hsound.complete p hp with
            | inl h =>
              obtain ⟨g, hg, _⟩ := h
              simp [hgrades] at hg
            | inr h =>
              obtain ⟨e, he, rfl⟩ := h
              exact ⟨e, he, rfl, rfl⟩
          obtain ⟨e, hout⟩ := RunJson.outcome_error he hgrades
          simp only [recordIn, hout, Option.map_some, Option.some.injEq] at hrec
          subst hrec
          exact ⟨.invalid, by simp [Record.statuses], .inl rfl⟩
        rw [repoPolicy_of_reruns hm hjob hun]
        exact ⟨fun h => ⟨.inr hgrades, fun _ => h⟩, fun h => h.2 hreruns⟩
      · refine ⟨fun h => ?_, fun h => ?_⟩
        · obtain ⟨g0, hg0⟩ := List.exists_mem_of_ne_nil _ hgrades
          obtain ⟨hp, _⟩ := hsound.grades g0 hg0
          have hskip := (h.kept _ (List.mem_map.mpr ⟨_, hp, rfl⟩)
            (graded_finished hsound ⟨g0, hg0, rfl, rfl⟩)).2
          have hskip' : Event.skip (savedItems (.run m.key) (some (.whole run))) (.run m.key) ∈
              (repoJob c.toConfig false w m (some (.whole run))).log := hskip
          rw [hjob, executeRepo_log] at hskip'
          split at hskip' <;> simp at hskip'
        · exact absurd h.1 (not_or.mpr ⟨herr, hgrades⟩)

end OneJob

/-! The whole loop. -/

section Whole
variable {u : UnicodeData} {g : Graders} {c : ValidConfig} {w : World} {s : Store}

theorem mem_log_iff {j : Job} (hj : j ∈ jobs c.toConfig) {e : Event} (he : e.slot = j.slot) :
    e ∈ (execute u g c.toConfig false w s).2 ↔
      j ∈ turns Job.slot (executeJob u g c.toConfig false w) s (jobs c.toConfig) ∧
        e ∈ (executeJob u g c.toConfig false w j (s j.slot)).log := by
  rw [execute, run_log Job.slot (jobs_nodup c), List.mem_flatMap]
  constructor
  · intro ⟨k, hk, hek⟩
    have hkj : k = j := List.inj_on_of_nodup_map (jobs_nodup c)
      (turns_subset Job.slot s _ hk) hj ((event_slot hek).symm.trans he)
    subst hkj
    exact ⟨hk, hek⟩
  · intro h
    exact ⟨j, h.1, h.2⟩

theorem recorded_eq {s : Store} {id : AttemptId} {i : Slot} (h : id.slot = i) :
    recorded s id = recordIn id i (s i) := by
  subst h
  rfl

theorem ids_ne_nil (j : Job) : j.ids c.toConfig ≠ [] := by
  cases j with
  | text m round attempt => simp [Job.ids]
  | repo m =>
    intro h
    exact pairs_ne_nil c m (List.map_eq_nil_iff.mp h)

/-- The policy holds of a run exactly when every job has its turn and follows the policy for its
file. -/
theorem resumePolicy_iff_jobs : ResumePolicy u g c.toConfig w s ↔
    turns Job.slot (executeJob u g c.toConfig false w) s (jobs c.toConfig) = jobs c.toConfig ∧
      ∀ j ∈ jobs c.toConfig, JobPolicy u g c w j (s j.slot) := by
  constructor
  · intro h
    have hturn : ∀ j ∈ jobs c.toConfig,
        j ∈ turns Job.slot (executeJob u g c.toConfig false w) s (jobs c.toConfig) := by
      intro j hj
      obtain ⟨id, hid⟩ := List.exists_mem_of_ne_nil _ (ids_ne_nil (c := c) j)
      have hmem : id ∈ attempts c.toConfig := List.mem_flatMap.mpr ⟨j, hj, hid⟩
      have hslot := slot_of_mem_ids hid
      by_cases hun : Unfinished u (recorded s id)
      · exact ((mem_log_iff hj (e := .start id) hslot).mp ((h.executed id).mpr ⟨hmem, hun⟩)).1
      · exact ((mem_log_iff hj (e := .skip _ id.slot) hslot).mp (h.kept id hmem hun).2).1
    have hnodup : (jobs c.toConfig).Nodup := (jobs_nodup c).of_map
    have hpre := @turns_initial _ _ _ _ Job.slot (executeJob u g c.toConfig false w) s (jobs c.toConfig)
    have hlen := (hnodup.subperm hturn).length_le
    refine ⟨hpre.eq_of_length (le_antisymm hpre.length_le hlen), fun j hj => ?_⟩
    refine ⟨fun id hid => ?_, fun id hid hn => ?_⟩
    · have hmem : id ∈ attempts c.toConfig := List.mem_flatMap.mpr ⟨j, hj, hid⟩
      have hlog := mem_log_iff (u := u) (g := g) (w := w) (s := s) hj (e := .start id)
        (slot_of_mem_ids hid)
      rw [← recorded_eq (slot_of_mem_ids hid)]
      constructor
      · intro he
        exact ((h.executed id).mp (hlog.mpr ⟨hturn j hj, he⟩)).2
      · intro hun
        exact (hlog.mp ((h.executed id).mpr ⟨hmem, hun⟩)).2
    · have hmem : id ∈ attempts c.toConfig := List.mem_flatMap.mpr ⟨j, hj, hid⟩
      have hslot := slot_of_mem_ids hid
      rw [← recorded_eq hslot] at hn
      obtain ⟨_, hskip⟩ := h.kept id hmem hn
      rw [hslot] at hskip
      have hlog := ((mem_log_iff hj rfl).mp hskip).2
      exact ⟨saved_of_skip hlog, hlog⟩
  · intro ⟨hturns, h⟩
    refine ⟨fun id => ⟨fun he => ?_, fun hu => ?_⟩, fun id hid hn => ?_⟩
    · have he' := he
      rw [execute, run_log Job.slot (jobs_nodup c), List.mem_flatMap] at he'
      obtain ⟨j, hj, hej⟩ := he'
      have hj' := turns_subset Job.slot s _ hj
      have hid := start_mem_ids hej
      refine ⟨List.mem_flatMap.mpr ⟨j, hj', hid⟩, ?_⟩
      rw [recorded_eq (slot_of_mem_ids hid)]
      exact ((h j hj').executed id hid).mp hej
    · obtain ⟨j, hj, hid⟩ := List.mem_flatMap.mp hu.1
      have hslot := slot_of_mem_ids hid
      rw [recorded_eq hslot] at hu
      exact (mem_log_iff hj (e := .start id) hslot).mpr
        ⟨by rw [hturns]; exact hj, ((h j hj).executed id hid).mpr hu.2⟩
    · obtain ⟨j, hj, hid⟩ := List.mem_flatMap.mp hid
      have hslot := slot_of_mem_ids hid
      rw [recorded_eq hslot] at hn
      obtain ⟨hsaved, hskip⟩ := (h j hj).kept id hid hn
      have hturn : j ∈ turns Job.slot (executeJob u g c.toConfig false w) s (jobs c.toConfig) := by
        rw [hturns]
        exact hj
      refine ⟨?_, ?_⟩
      · rw [recorded_eq hslot, recorded_eq hslot, execute,
          run_turn Job.slot (jobs_nodup c) s hturn, hsaved]
      · rw [hslot]
        exact (mem_log_iff hj rfl).mpr ⟨hturn, hskip⟩

end Whole

def ReachedStore (u : UnicodeData) (g : Graders) (c : ValidConfig) : Type :=
  { s : Store // Reachable u g c s }

theorem jobPolicy_iff {u : UnicodeData} {g : Graders} {c : ValidConfig} {w : World} {j : Job}
    (hj : j ∈ jobs c.toConfig) {x : Option (Saved j.slot)}
    (hx : ∀ y, x = some y → SoundFile u c j.slot y) :
    JobPolicy u g c w j x ↔
      FileSettled u j.slot x ∧ (Reruns j x → Starts c.toConfig w j) := by
  cases mem_jobs_model hj with
  | inl h =>
    obtain ⟨m, _, round, attempt, rfl⟩ := h
    exact (textPolicy_iff hx).trans ⟨fun h => ⟨h, fun _ => trivial⟩, fun h => h.1⟩
  | inr h =>
    obtain ⟨m, hm, rfl⟩ := h
    exact repoPolicy_iff hm hx

/-- A resumed run follows the policy exactly when every saved file is settled and nothing that the
run executes is cut short. -/
theorem resumePolicy_iff (u : UnicodeData) (g : Graders) (c : ValidConfig) (w : World)
    (s : ReachedStore u g c) : ResumePolicy u g c.toConfig w s.1 ↔
      (∀ j ∈ jobs c.toConfig, FileSettled u j.slot (s.1 j.slot)) ∧
        Undisturbed u g c.toConfig w s.1 := by
  have hpolicy : ∀ j ∈ jobs c.toConfig, JobPolicy u g c w j (s.1 j.slot) ↔
      FileSettled u j.slot (s.1 j.slot) ∧ (Reruns j (s.1 j.slot) → Starts c.toConfig w j) :=
    fun j hj => jobPolicy_iff hj fun y hy => s.2.sound c _ y hy
  have hmem : ∀ {pre j post}, jobs c.toConfig = pre ++ j :: post → j ∈ jobs c.toConfig := by
    intro pre j post h
    rw [h]
    simp
  rw [resumePolicy_iff_jobs, turns_eq_iff]
  constructor
  · intro ⟨hgo, h⟩
    have hsettled := fun j hj => ((hpolicy j hj).mp (h j hj)).1
    refine ⟨hsettled, fun j hj => ((hpolicy j hj).mp (h j hj)).2, fun pre j post hsplit hpost => ?_⟩
    exact (goesOn_iff (hsettled j (hmem hsplit))).mp (hgo pre j post hsplit hpost)
  · intro ⟨hsettled, hrun⟩
    refine ⟨fun pre j post hsplit hpost => ?_, fun j hj =>
      (hpolicy j hj).mpr ⟨hsettled j hj, hrun.starts j hj⟩⟩
    exact (goesOn_iff (hsettled j (hmem hsplit))).mpr (hrun.completes pre j post hsplit hpost)

/-! An answer that hit the output limit is final in Round 3. -/

def oneQuestion : ValidConfig where
  models := [{ key := "m".toList, itemFilters := [(3, [21])] }]
  repetitions := 1
  rounds := [3]
  valid := by decide

def cutOff : World where
  replies _ _ _ _ _ := some (.ok ⟨[], .str "length".toList, .null⟩)
  saves _ _ _ := true
  repo _ := ⟨false, fun _ _ => ⟨.ok (), fun _ => none, false, .ok false⟩, .unwritten⟩

def noGraders : Graders := ⟨fun _ _ _ => false, fun _ _ => .ok (some false)⟩

def afterCutOff : ReachedStore asciiData noGraders oneQuestion :=
  ⟨_, Reachable.run .empty false cutOff⟩

theorem cutOff_not_retried :
    ¬ ResumePolicy asciiData noGraders oneQuestion.toConfig cutOff afterCutOff.1 := by
  intro h
  have hstart := (h.executed (.text "m".toList 3 1)).mpr ⟨by decide, ?_⟩
  · revert hstart
    decide
  · intro rec hrec
    injection hrec with hrec
    subst hrec
    exact ⟨.incomplete, by decide, .inr rfl⟩

end Campaign
