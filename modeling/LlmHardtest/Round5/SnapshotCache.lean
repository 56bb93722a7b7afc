import LlmHardtest.Library.Latest
import Mathlib.Data.List.Nodup
import Mathlib.Logic.Function.Basic
set_option autoImplicit false

/-! The reference snapshot cache of the snapshot race task. `refresh` reserves an epoch at the lock,
loads without it, and commits at the lock; any number of calls may be between those sections. -/

namespace Round5.SnapshotCache
open Latest

/-- Where a call of `refresh` stands; `returned` with the value it loaded and what it returned. -/
inductive Phase (V E : Type) where
  | loading
  | loaded (value : V)
  | returned (value : V) (result : Option V)
  | raised (e : E)

structure Refresh (K V E : Type) where
  key : K
  epoch : Nat
  phase : Phase V E

/-- The cache and the calls so far, in the order in which they reserved their epochs. An absent epoch
is 0, as `get(key, 0)` reads it. -/
structure State (K V E : Type) where
  values : K → Option V
  nextEpoch : K → Nat := fun _ => 0
  committedEpoch : K → Nat := fun _ => 0
  calls : List (Refresh K V E) := []

inductive Action (K V E : Type) where
  | reserve (key : K)
  | load (i : Nat) (outcome : Except E V)
  | commit (i : Nat)

variable {K V E : Type} [DecidableEq K]

/-- `__init__` -/
def State.start (initial : K → Option V) : State K V E := { values := initial }

def State.get (s : State K V E) (key : K) : Option V := s.values key

def State.reserve (s : State K V E) (key : K) : State K V E :=
  let epoch := s.nextEpoch key + 1
  { s with nextEpoch := Function.update s.nextEpoch key epoch
           calls := s.calls ++ [⟨key, epoch, .loading⟩] }

def Refresh.load (c : Refresh K V E) : Except E V → Refresh K V E
  | .ok value => { c with phase := .loaded value }
  | .error e => { c with phase := .raised e }

def State.publish (s : State K V E) (c : Refresh K V E) (value : V) : State K V E :=
  if s.committedEpoch c.key < c.epoch then
    { s with values := Function.update s.values c.key (some value)
             committedEpoch := Function.update s.committedEpoch c.key c.epoch }
  else s

def Refresh.finish (c : Refresh K V E) (value : V) (result : Option V) : Refresh K V E :=
  { c with phase := .returned value result }

def State.commit (s : State K V E) (i : Nat) (c : Refresh K V E) (value : V) : State K V E :=
  let t := s.publish c value
  { t with calls := t.calls.set i (c.finish value (t.get c.key)) }

def State.step (s : State K V E) : Action K V E → Option (State K V E)
  | .reserve key => some (s.reserve key)
  | .load i outcome =>
      s.calls[i]?.bind fun c =>
        match c.phase with
        | .loading => some { s with calls := s.calls.set i (c.load outcome) }
        | _ => none
  | .commit i =>
      s.calls[i]?.bind fun c =>
        match c.phase with
        | .loaded value => some (s.commit i c value)
        | _ => none

/-- Any order of the sections of any calls; an action that is not possible does nothing. -/
def run (s : State K V E) : List (Action K V E) → State K V E
  | [] => s
  | a :: as => run ((s.step a).getD s) as

def Refresh.finished (c : Refresh K V E) : Option V :=
  match c.phase with
  | .returned value _ => some value
  | _ => none

def State.finished (s : State K V E) (key : K) : List (Nat × V) :=
  s.calls.filterMap fun c => if c.key = key then c.finished.map fun v => (c.epoch, v) else none

def State.cell (s : State K V E) (key : K) : Cell V := ⟨s.committedEpoch key, s.values key⟩

theorem mem_finished {s : State K V E} {key : K} {epoch : Nat} {v : V} :
    (epoch, v) ∈ s.finished key ↔
      ∃ c ∈ s.calls, c.key = key ∧ c.epoch = epoch ∧ c.finished = some v := by
  simp only [State.finished, List.mem_filterMap]
  constructor
  · rintro ⟨c, hc, h⟩
    split at h
    · rename_i hkey
      obtain ⟨w, hw, heq⟩ := Option.map_eq_some_iff.mp h
      cases heq
      exact ⟨c, hc, hkey, rfl, hw⟩
    · cases h
  · rintro ⟨c, hc, hkey, rfl, hv⟩
    exact ⟨c, hc, by rw [if_pos hkey, hv]; rfl⟩

structure Sound (initial : K → Option V) (s : State K V E) : Prop where
  cells : ∀ key, Reflects (initial key) (s.finished key) (s.cell key)
  epochs : ∀ key, (s.calls.filter fun c => c.key = key).map Refresh.epoch =
    List.range' 1 (s.nextEpoch key)
  results : ∀ c ∈ s.calls, ∀ v r, c.phase = .returned v r →
    ∃ d ∈ s.calls, d.key = c.key ∧ c.epoch ≤ d.epoch ∧ d.finished.isSome ∧ d.finished = r

theorem Sound.start (initial : K → Option V) : Sound initial (State.start initial : State K V E) where
  cells _ := Reflects.start
  epochs _ := rfl
  results _ hc := by cases hc

section Sets
variable {α : Type} {l : List α} {i : Nat} {a c d : α}

theorem mem_set_of_ne (hi : l[i]? = some c) (hd : d ∈ l) (hne : d ≠ c) : d ∈ l.set i a := by
  obtain ⟨j, hj⟩ := List.mem_iff_getElem?.mp hd
  have hij : i ≠ j := by
    rintro rfl
    rw [hi] at hj
    exact hne (Option.some.inj hj).symm
  exact List.mem_iff_getElem?.mpr ⟨j, by rw [List.getElem?_set_ne hij, hj]⟩

theorem mem_set_self (hi : l[i]? = some c) : a ∈ l.set i a := by
  obtain ⟨hlt, -⟩ := List.getElem?_eq_some_iff.mp hi
  exact List.mem_iff_getElem?.mpr ⟨i, by rw [List.getElem?_set_self hlt]⟩

theorem map_set_same {β : Type} {f : α → β} (hi : l[i]? = some c) (hf : f a = f c) :
    (l.set i a).map f = l.map f := by
  refine List.ext_getElem? fun j => ?_
  rw [List.getElem?_map, List.getElem?_map, List.getElem?_set]
  split
  · subst j
    obtain ⟨hlt, -⟩ := List.getElem?_eq_some_iff.mp hi
    rw [if_pos hlt, hi]
    exact congrArg some hf
  · rfl

end Sets

section Steps
variable {initial : K → Option V} {s t : State K V E} {i : Nat} {c c' : Refresh K V E} {key : K}

/-- The calls of a key, as its epochs see them. -/
theorem epochs_eq (calls : List (Refresh K V E)) :
    (calls.filter fun c => c.key = key).map Refresh.epoch =
      ((calls.map fun c => (c.key, c.epoch)).filter fun p => p.1 = key).map Prod.snd := by
  rw [List.filter_map, List.map_map]
  rfl

theorem mem_finished_set (hi : s.calls[i]? = some c) (hc : c.finished = none)
    (ht : t.calls = s.calls.set i c') {e : Nat × V} :
    e ∈ t.finished key ↔
      (c'.key = key ∧ c'.finished.map (fun v => (c'.epoch, v)) = some e) ∨ e ∈ s.finished key := by
  obtain ⟨epoch, v⟩ := e
  rw [mem_finished, mem_finished, ht]
  constructor
  · rintro ⟨d, hd, hkey, hepoch, hv⟩
    rcases List.mem_or_eq_of_mem_set hd with hd | rfl
    · exact .inr ⟨d, hd, hkey, hepoch, hv⟩
    · exact .inl ⟨hkey, by rw [hv, ← hepoch]; rfl⟩
  · rintro (⟨hkey, hv⟩ | ⟨d, hd, hkey, hepoch, hv⟩)
    · obtain ⟨w, hw, heq⟩ := Option.map_eq_some_iff.mp hv
      cases heq
      exact ⟨c', mem_set_self hi, hkey, rfl, hw⟩
    · refine ⟨d, mem_set_of_ne hi hd ?_, hkey, hepoch, hv⟩
      rintro rfl
      rw [hc] at hv
      cases hv

omit [DecidableEq K] in
theorem finished_load (outcome : Except E V) : (c.load outcome).finished = none := by
  cases outcome <;> rfl

theorem Sound.reserve (hs : Sound initial s) (key : K) : Sound initial (s.reserve key) where
  cells k := by
    have hsame : (s.reserve key).finished k = s.finished k := by
      simp [State.reserve, State.finished, Refresh.finished]
    rw [hsame]
    exact hs.cells k
  epochs k := by
    rw [State.reserve, List.filter_append, List.map_append, hs.epochs]
    by_cases hk : key = k
    · subst hk
      dsimp only
      rw [Function.update_self, List.range'_concat]
      simp [Nat.add_comm]
    · dsimp only
      rw [Function.update_of_ne (Ne.symm hk)]
      simp [hk]
  results c hc v r hr := by
    rcases List.mem_append.mp hc with hc | hc
    · obtain ⟨d, hd, h⟩ := hs.results c hc v r hr
      exact ⟨d, List.mem_append_left _ hd, h⟩
    · rw [List.mem_singleton.mp hc] at hr
      cases hr

theorem Sound.result (hs : Sound initial s) (hi : s.calls[i]? = some c) (hc : c.finished = none)
    {d : Refresh K V E} (hd : d ∈ s.calls) {v : V} {r : Option V} (hr : d.phase = .returned v r) :
    ∃ e ∈ s.calls.set i c', e.key = d.key ∧ d.epoch ≤ e.epoch ∧ e.finished.isSome ∧
      e.finished = r := by
  obtain ⟨e, he, hkey, hepoch, hsome, hres⟩ := hs.results d hd v r hr
  refine ⟨e, mem_set_of_ne hi he ?_, hkey, hepoch, hsome, hres⟩
  rintro rfl
  rw [hc] at hsome
  cases hsome

theorem Sound.load (hs : Sound initial s) (hi : s.calls[i]? = some c) (hc : c.phase = .loading)
    (outcome : Except E V) :
    Sound initial { s with calls := s.calls.set i (c.load outcome) } := by
  have hfin : c.finished = none := by rw [Refresh.finished, hc]
  refine ⟨fun k => ?_, fun k => ?_, fun d hd v r hr => ?_⟩
  · refine (hs.cells k).congr fun e => ?_
    rw [mem_finished_set hi hfin rfl, finished_load]
    simp
  · rw [epochs_eq, map_set_same hi (by cases outcome <;> rfl), ← epochs_eq, hs.epochs]
  · rcases List.mem_or_eq_of_mem_set hd with hd | rfl
    · exact hs.result hi hfin hd hr
    · cases outcome <;> cases hr

theorem publish_cell (value : V) (k : K) : (s.publish c value).cell k =
    if c.key = k then (s.cell k).offer c.epoch value else s.cell k := by
  unfold State.publish State.cell Cell.offer
  by_cases hk : c.key = k
  · subst hk
    split <;> simp_all
  · rw [if_neg hk]
    split
    · simp [Function.update_of_ne (Ne.symm hk)]
    · rfl

theorem publish_calls (value : V) : (s.publish c value).calls = s.calls ∧
    (s.publish c value).nextEpoch = s.nextEpoch := by
  unfold State.publish
  split <;> exact ⟨rfl, rfl⟩

theorem Sound.epoch_pos (hs : Sound initial s) (hc : c ∈ s.calls) : 0 < c.epoch := by
  have hmem : c.epoch ∈ (s.calls.filter fun d => d.key = c.key).map Refresh.epoch :=
    List.mem_map_of_mem (List.mem_filter.mpr ⟨hc, by simp⟩)
  rw [hs.epochs, List.mem_range'_1] at hmem
  exact hmem.1

theorem Sound.call_unique (hs : Sound initial s) (hc : c ∈ s.calls) (hc' : c' ∈ s.calls)
    (hkey : c.key = c'.key) (hepoch : c.epoch = c'.epoch) : c = c' := by
  have hnodup : ((s.calls.filter fun d => d.key = c.key).map Refresh.epoch).Nodup := by
    rw [hs.epochs]
    exact List.nodup_range'
  refine List.inj_on_of_nodup_map hnodup ?_ ?_ hepoch
  · exact List.mem_filter.mpr ⟨hc, by simp⟩
  · exact List.mem_filter.mpr ⟨hc', by simp [hkey]⟩

theorem Sound.stamps_unique (hs : Sound initial s) :
    ∀ e ∈ s.finished key, ∀ f ∈ s.finished key, e.1 = f.1 → e.2 = f.2 := by
  rintro ⟨n, v⟩ he ⟨m, w⟩ hf hnm
  obtain ⟨c, hc, hckey, hcepoch, hcv⟩ := mem_finished.mp he
  obtain ⟨d, hd, hdkey, hdepoch, hdw⟩ := mem_finished.mp hf
  have hcd := hs.call_unique hc hd (hckey.trans hdkey.symm) (hcepoch.trans (hnm.trans hdepoch.symm))
  rw [hcd, hdw] at hcv
  exact (Option.some.inj hcv).symm

/-- After its commit, a call finds the value of the newest refresh of its key in the cache. -/
theorem Sound.commit (hs : Sound initial s) (hi : s.calls[i]? = some c) {value : V}
    (hc : c.phase = .loaded value) : Sound initial (s.commit i c value) := by
  have hfin : c.finished = none := by rw [Refresh.finished, hc]
  have hmem : c ∈ s.calls := List.mem_of_getElem? hi
  have hcalls : (s.commit i c value).calls = s.calls.set i
      (c.finish value ((s.publish c value).get c.key)) := by
    rw [State.commit, (publish_calls value).1]
  have hcells : ∀ k, Reflects (initial k) ((s.commit i c value).finished k)
      ((s.commit i c value).cell k) := by
    intro k
    have hcell : (s.commit i c value).cell k = (s.publish c value).cell k := rfl
    rw [hcell, publish_cell]
    split
    · rename_i hkey
      refine ((hs.cells k).offer (hs.epoch_pos hmem)).congr fun e => ?_
      rw [mem_finished_set hi hfin hcalls, List.mem_cons]
      exact or_congr_left ⟨fun h => (Option.some.inj h.2).symm, fun h => ⟨hkey, by rw [h]; rfl⟩⟩
    · rename_i hkey
      refine (hs.cells k).congr fun e => ?_
      rw [mem_finished_set hi hfin hcalls]
      exact or_iff_right fun h => hkey h.1
  refine ⟨hcells, fun k => ?_, fun d hd v r hr => ?_⟩
  · have hnext : (s.commit i c value).nextEpoch = s.nextEpoch := (publish_calls value).2
    rw [hcalls, epochs_eq, map_set_same (a := c.finish value _) hi rfl, ← epochs_eq, hs.epochs,
      hnext]
  · rw [hcalls] at hd ⊢
    rcases List.mem_or_eq_of_mem_set hd with hd | rfl
    · exact hs.result hi hfin hd hr
    · cases hr
      have hown : (c.epoch, value) ∈ (s.commit i c value).finished c.key :=
        (mem_finished_set hi hfin hcalls).mpr (.inl ⟨rfl, rfl⟩)
      have hle := (hcells c.key).bound _ hown
      obtain ⟨w, hw, hvalue⟩ := (hcells c.key).taken (Nat.lt_of_lt_of_le (hs.epoch_pos hmem) hle)
      obtain ⟨e, he, hkey, hepoch, hv⟩ := mem_finished.mp hw
      rw [hcalls] at he
      refine ⟨e, he, hkey, hepoch ▸ hle, by rw [hv]; rfl, hv.trans ?_⟩
      exact hvalue.symm

theorem Sound.step (hs : Sound initial s) {a : Action K V E} (h : s.step a = some t) :
    Sound initial t := by
  cases a with
  | reserve key =>
    cases h
    exact hs.reserve key
  | load i outcome =>
    obtain ⟨c, hi, h⟩ := Option.bind_eq_some_iff.mp h
    split at h
    · rename_i hc
      cases h
      exact hs.load hi hc outcome
    · cases h
  | commit i =>
    obtain ⟨c, hi, h⟩ := Option.bind_eq_some_iff.mp h
    split at h
    · rename_i value hc
      cases h
      exact hs.commit hi hc
    · cases h

theorem Sound.run (hs : Sound initial s) (as : List (Action K V E)) : Sound initial (run s as) := by
  induction as generalizing s with
  | nil => exact hs
  | cons a as ih =>
    cases h : s.step a with
    | none =>
      rw [SnapshotCache.run, h]
      exact ih hs
    | some t =>
      rw [SnapshotCache.run, h]
      exact ih (hs.step h)

/-- A value that was once in the cache gives way to newer ones only. -/
theorem committed_mono (a : Action K V E) (h : s.step a = some t) (key : K) :
    s.committedEpoch key ≤ t.committedEpoch key ∧
      (s.committedEpoch key = t.committedEpoch key → s.get key = t.get key) := by
  cases a with
  | reserve k =>
    cases h
    exact ⟨Nat.le_refl _, fun _ => rfl⟩
  | load i outcome =>
    obtain ⟨c, hi, h⟩ := Option.bind_eq_some_iff.mp h
    split at h
    · cases h
      exact ⟨Nat.le_refl _, fun _ => rfl⟩
    · cases h
  | commit i =>
    obtain ⟨c, hi, h⟩ := Option.bind_eq_some_iff.mp h
    split at h
    · rename_i value hc
      cases h
      have hcell : (s.commit i c value).cell key =
          if c.key = key then (s.cell key).offer c.epoch value else s.cell key :=
        publish_cell value key
      change (s.cell key).stamp ≤ ((s.commit i c value).cell key).stamp ∧
        ((s.cell key).stamp = ((s.commit i c value).cell key).stamp →
          (s.cell key).value = ((s.commit i c value).cell key).value)
      rw [hcell]
      split
      · refine ⟨Cell.stamp_le_offer _ _ _, fun heq => ?_⟩
        unfold Cell.offer at heq ⊢
        split at heq
        · rename_i hlt
          exact absurd heq (Nat.ne_of_lt hlt)
        · rename_i hlt
          rw [if_neg hlt]
      · exact ⟨Nat.le_refl _, fun _ => rfl⟩
    · cases h

theorem committed_mono_run (as : List (Action K V E)) (key : K) :
    s.committedEpoch key ≤ (run s as).committedEpoch key ∧
      (s.committedEpoch key = (run s as).committedEpoch key → s.get key = (run s as).get key) := by
  induction as generalizing s with
  | nil => exact ⟨Nat.le_refl _, fun _ => rfl⟩
  | cons a as ih =>
    cases h : s.step a with
    | none =>
      rw [SnapshotCache.run, h]
      exact ih
    | some t =>
      rw [SnapshotCache.run, h]
      obtain ⟨hle, hget⟩ := committed_mono a h key
      obtain ⟨hle', hget'⟩ := ih (s := t)
      refine ⟨Nat.le_trans hle hle', fun heq => ?_⟩
      rw [hget (Nat.le_antisymm hle (heq ▸ hle')), hget' (Nat.le_antisymm hle' (heq ▸ hle))]
      rfl

end Steps

def State.Finished (s : State K V E) (c : Refresh K V E) (value : V) : Prop :=
  c ∈ s.calls ∧ c.finished = some value

/-- The cache shows the newest finished refresh of each key, whatever finished before or after it. -/
structure Newest (initial : K → Option V) (s : State K V E) : Prop where
  untouched : ∀ key, (∀ c value, s.Finished c value → c.key ≠ key) → s.get key = initial key
  newest : ∀ c value, s.Finished c value →
    (∀ d w, s.Finished d w → d.key = c.key → d.epoch ≤ c.epoch) → s.get c.key = some value
  returned : ∀ c ∈ s.calls, ∀ value result, c.phase = .returned value result →
    ∃ d w, s.Finished d w ∧ d.key = c.key ∧ c.epoch ≤ d.epoch ∧ result = some w
  forward : ∀ as key, (run s as).get key = s.get key ∨
    ∃ c value, (run s as).Finished c value ∧ c.key = key ∧ (run s as).get key = some value ∧
      ∀ d w, s.Finished d w → d.key = key → d.epoch < c.epoch

theorem Sound.newest {initial : K → Option V} {s : State K V E} (hs : Sound initial s) :
    Newest initial s where
  untouched key h := by
    refine (hs.cells key).none_taken ?_
    rcases Nat.eq_zero_or_pos (s.cell key).stamp with hzero | hpos
    · exact hzero
    · obtain ⟨v, hv, -⟩ := (hs.cells key).taken hpos
      obtain ⟨c, hc, hkey, -, hcv⟩ := mem_finished.mp hv
      exact absurd hkey (h c v ⟨hc, hcv⟩)
  newest c value hc hmax := by
    refine (hs.cells c.key).value_of_max hs.stamps_unique (hs.epoch_pos hc.1)
      (mem_finished.mpr ⟨c, hc.1, rfl, rfl, hc.2⟩) ?_
    rintro ⟨n, w⟩ he
    obtain ⟨d, hd, hkey, hepoch, hw⟩ := mem_finished.mp he
    exact hepoch ▸ hmax d w ⟨hd, hw⟩ hkey
  returned c hc value result hr := by
    obtain ⟨d, hd, hkey, hepoch, hsome, hres⟩ := hs.results c hc value result hr
    obtain ⟨w, hw⟩ := Option.isSome_iff_exists.mp hsome
    exact ⟨d, w, ⟨hd, hw⟩, hkey, hepoch, hres.symm.trans hw⟩
  forward as key := by
    obtain ⟨hle, hget⟩ := committed_mono_run (s := s) as key
    rcases Nat.eq_or_lt_of_le hle with heq | hlt
    · exact .inl (hget heq).symm
    · right
      obtain ⟨v, hv, hvalue⟩ := ((hs.run as).cells key).taken (Nat.lt_of_le_of_lt (Nat.zero_le _) hlt)
      obtain ⟨c, hc, hkey, hepoch, hcv⟩ := mem_finished.mp hv
      refine ⟨c, v, ⟨hc, hcv⟩, hkey, hvalue, fun d w hd hdkey => ?_⟩
      have hbound := (hs.cells key).bound _ (mem_finished.mpr ⟨d, hd.1, hdkey, rfl, hd.2⟩)
      exact hepoch ▸ Nat.lt_of_le_of_lt hbound hlt

/-- In any order of the sections of any refreshes the cache shows the newest finished ones. -/
theorem run_newest (initial : K → Option V) (as : List (Action K V E)) :
    Newest initial (run (State.start initial) as) :=
  ((Sound.start initial).run as).newest

/-- What came of the refreshes, in the order in which they began: a value, or nothing so far. -/
def State.outcomes (s : State K V E) : List (K × Option V) :=
  s.calls.map fun c => (c.key, c.finished)

theorem Sound.finished_eq {initial : K → Option V} {s : State K V E} (hs : Sound initial s) (key : K) :
    s.finished key =
      let made := (s.outcomes.filter fun p => p.1 = key).map Prod.snd
      ((List.range' 1 made.length).zip made).filterMap fun p => p.2.map fun v => (p.1, v) := by
  have hmade : (s.outcomes.filter fun p => p.1 = key).map Prod.snd =
      (s.calls.filter fun c => c.key = key).map Refresh.finished := by
    rw [State.outcomes, List.filter_map, List.map_map]
    rfl
  have hepochs := hs.epochs key
  have hlen : (s.calls.filter fun c => c.key = key).length = s.nextEpoch key := by
    have := congrArg List.length hepochs
    rwa [List.length_map, List.length_range'] at this
  dsimp only
  rw [hmade, List.length_map, hlen, ← hepochs, List.zip_map', List.filterMap_map,
    List.filterMap_filter]
  simp only [State.finished, Function.comp, decide_eq_true_eq]

/-- What the cache shows depends on the order in which refreshes began and on what they loaded, and
not on the order in which they loaded and committed. -/
theorem run_order_free {initial : K → Option V} {as bs : List (Action K V E)}
    (h : (run (State.start initial) as).outcomes = (run (State.start initial) bs).outcomes) (key : K) :
    (run (State.start initial) as).get key = (run (State.start initial) bs).get key := by
  have hs := (Sound.start initial).run as
  have ht := (Sound.start initial).run bs
  refine (hs.cells key).unique (ht.cells key) (fun e => ?_) hs.stamps_unique
  rw [hs.finished_eq, ht.finished_eq, h]

def twoRefreshes (later : List (Action Bool Nat Unit)) : List (Action Bool Nat Unit) :=
  [.reserve true, .reserve true] ++ later

/-- The older refresh commits last, and the newer value stays. -/
theorem twoRefreshes_order_free :
    (run (State.start fun _ => some 0)
        (twoRefreshes [.load 1 (.ok 2), .commit 1, .load 0 (.ok 1), .commit 0])).get true = some 2 ∧
      (run (State.start fun _ => some 0)
          (twoRefreshes [.load 0 (.ok 1), .commit 0, .load 1 (.ok 2), .commit 1])).get true =
        (run (State.start fun _ => some 0)
          (twoRefreshes [.load 1 (.ok 2), .commit 1, .load 0 (.ok 1), .commit 0])).get true :=
  ⟨rfl, run_order_free rfl true⟩

end Round5.SnapshotCache
