import Mathlib
set_option autoImplicit false

/-! A loop over jobs. Each job reads and writes one slot of a store, logs events, and may stop the
loop. -/

namespace JobLoop

/-- What a job leaves in its slot, what it logs, and whether the loop goes on. -/
structure Verdict (Saved Event : Type) where
  saved : Option Saved
  log : List Event
  goesOn : Bool

section Loop
variable {Slot Job Event : Type} {Saved : Slot → Type} (slot : Job → Slot)
variable (act : (j : Job) → Option (Saved (slot j)) → Verdict (Saved (slot j)) Event)

def run [DecidableEq Slot] : List Job → ((i : Slot) → Option (Saved i)) → ((i : Slot) → Option (Saved i)) × List Event
  | [], s => (s, [])
  | j :: js, s =>
      let v := act j (s (slot j))
      let s' := Function.update s (slot j) v.saved
      if v.goesOn then ((run js s').1, v.log ++ (run js s').2) else (s', v.log)

/-- The jobs whose turn comes before the loop stops. -/
def turns (s : (i : Slot) → Option (Saved i)) : List Job → List Job
  | [] => []
  | j :: js => if (act j (s (slot j))).goesOn then j :: turns s js else [j]

/-- Whether the loop reaches its end, the last job included. -/
def finishes [DecidableEq Slot] : List Job → ((i : Slot) → Option (Saved i)) → Bool
  | [], _ => true
  | j :: js, s =>
      let v := act j (s (slot j))
      v.goesOn && finishes js (Function.update s (slot j) v.saved)

variable {act}

theorem turns_initial (s : (i : Slot) → Option (Saved i)) (js : List Job) :
    turns slot act s js <+: js := by
  induction js with
  | nil => exact List.prefix_refl _
  | cons j js ih =>
    rw [turns]
    split
    · exact (List.prefix_cons_inj j).mpr ih
    · exact ⟨js, rfl⟩

theorem turns_subset (s : (i : Slot) → Option (Saved i)) (js : List Job) :
    turns slot act s js ⊆ js := (turns_initial slot s js).subset

theorem turns_eq_iff (s : (i : Slot) → Option (Saved i)) (js : List Job) :
    turns slot act s js = js ↔
      ∀ pre j post, js = pre ++ j :: post → post ≠ [] → (act j (s (slot j))).goesOn = true := by
  induction js with
  | nil => simp [turns]
  | cons j js ih =>
    rw [turns]
    constructor
    · intro h pre k post hsplit hpost
      split at h
      · rename_i hgo
        injection h with _ h
        cases pre with
        | nil =>
          injection hsplit with hj _
          rw [← hj]
          exact hgo
        | cons p pre =>
          injection hsplit with _ hsplit
          exact ih.mp h pre k post hsplit hpost
      · injection h with _ h
        subst h
        have hlen := congrArg List.length hsplit
        have hpos := List.length_pos_iff.mpr hpost
        simp only [List.length_cons, List.length_nil, List.length_append] at hlen
        omega
    · intro h
      cases js with
      | nil => simp [turns]
      | cons k js =>
        rw [if_pos (h [] j (k :: js) rfl (by simp)),
          ih.mpr fun pre l post hsplit hpost => h (j :: pre) l post (by rw [hsplit]; rfl) hpost]

section Frame
variable [DecidableEq Slot]

theorem turns_update (s : (i : Slot) → Option (Saved i)) (i : Slot) (x : Option (Saved i))
    {js : List Job} (h : ∀ j ∈ js, slot j ≠ i) :
    turns slot act (Function.update s i x) js = turns slot act s js := by
  induction js with
  | nil => rfl
  | cons j js ih =>
    have hj : Function.update s i x (slot j) = s (slot j) := Function.update_of_ne (h j (by simp)) x s
    rw [turns, turns, hj, ih fun k hk => h k (by simp [hk])]

theorem run_of_ne (js : List Job) (s : (i : Slot) → Option (Saved i)) {i : Slot}
    (h : ∀ j ∈ js, slot j ≠ i) : (run slot act js s).1 i = s i := by
  induction js generalizing s with
  | nil => rfl
  | cons j js ih =>
    have hi : i ≠ slot j := (h j (by simp)).symm
    rw [run]
    split
    · exact (ih _ fun k hk => h k (by simp [hk])).trans (Function.update_of_ne hi _ s)
    · exact Function.update_of_ne hi _ s

theorem run_turn {js : List Job} (hnodup : (js.map slot).Nodup) (s : (i : Slot) → Option (Saved i))
    {j : Job} (hj : j ∈ turns slot act s js) :
    (run slot act js s).1 (slot j) = (act j (s (slot j))).saved := by
  induction js generalizing s with
  | nil => simp [turns] at hj
  | cons k js ih =>
    rw [List.map_cons, List.nodup_cons] at hnodup
    have hne : ∀ l ∈ js, slot l ≠ slot k := fun l hl he =>
      hnodup.1 (List.mem_map.mpr ⟨l, hl, he⟩)
    rw [turns] at hj
    rw [run]
    split
    · rename_i hgo
      rw [if_pos hgo] at hj
      cases hj with
      | head => exact (run_of_ne slot js _ hne).trans (Function.update_self _ _ s)
      | tail _ hj =>
        have hl := hne j (turns_subset slot s js hj)
        have hupd := Function.update_of_ne hl (act k (s (slot k))).saved s
        have h := ih hnodup.2 (Function.update s (slot k) (act k (s (slot k))).saved)
          (by rw [turns_update slot s _ _ hne]; exact hj)
        rw [h, hupd]
    · rename_i hgo
      rw [if_neg hgo] at hj
      obtain rfl := List.mem_singleton.mp hj
      exact Function.update_self _ _ s

/-- The log of the loop, when no two jobs share a slot. -/
theorem run_log {js : List Job} (hnodup : (js.map slot).Nodup)
    (s : (i : Slot) → Option (Saved i)) :
    (run slot act js s).2 = (turns slot act s js).flatMap fun j => (act j (s (slot j))).log := by
  induction js generalizing s with
  | nil => rfl
  | cons k js ih =>
    rw [List.map_cons, List.nodup_cons] at hnodup
    have hne : ∀ l ∈ js, slot l ≠ slot k := fun l hl he =>
      hnodup.1 (List.mem_map.mpr ⟨l, hl, he⟩)
    rw [run, turns]
    split
    · rw [ih hnodup.2, turns_update slot s _ _ hne, List.flatMap_cons]
      refine congrArg ((act k (s (slot k))).log ++ ·) (List.flatMap_congr fun j hj => ?_)
      rw [Function.update_of_ne (hne j (turns_subset slot s js hj))]
    · simp

theorem finishes_iff {js : List Job} (hnodup : (js.map slot).Nodup)
    (s : (i : Slot) → Option (Saved i)) :
    finishes slot act js s = true ↔ ∀ j ∈ js, (act j (s (slot j))).goesOn = true := by
  induction js generalizing s with
  | nil => simp [finishes]
  | cons k js ih =>
    rw [List.map_cons, List.nodup_cons] at hnodup
    have hne : ∀ l ∈ js, slot l ≠ slot k := fun l hl he =>
      hnodup.1 (List.mem_map.mpr ⟨l, hl, he⟩)
    rw [finishes, Bool.and_eq_true, ih hnodup.2, List.forall_mem_cons]
    refine and_congr_right fun _ => forall₂_congr fun l hl => ?_
    rw [Function.update_of_ne (hne l hl)]

theorem run_store_congr {Log : Type}
    {act' : (j : Job) → Option (Saved (slot j)) → Verdict (Saved (slot j)) Log} {js : List Job}
    (h : ∀ j x, (act' j x).saved = (act j x).saved ∧ (act' j x).goesOn = (act j x).goesOn)
    (s : (i : Slot) → Option (Saved i)) : (run slot act' js s).1 = (run slot act js s).1 := by
  induction js generalizing s with
  | nil => rfl
  | cons j js ih =>
    have hj := h j (s (slot j))
    rw [run, run, hj.1, hj.2]
    split
    · exact ih _
    · rfl

/-- What every job keeps of its own slot, the loop keeps of the store. -/
theorem run_invariant (P : (i : Slot) → Saved i → Prop) (js : List Job)
    (hact : ∀ j ∈ js, ∀ x, (∀ y, x = some y → P (slot j) y) →
      ∀ y, (act j x).saved = some y → P (slot j) y)
    (s : (i : Slot) → Option (Saved i)) (hs : ∀ i y, s i = some y → P i y) :
    ∀ i y, (run slot act js s).1 i = some y → P i y := by
  induction js generalizing s with
  | nil => exact hs
  | cons j js ih =>
    have hupd : ∀ i y, Function.update s (slot j) (act j (s (slot j))).saved i = some y → P i y := by
      intro i y hy
      by_cases hi : i = slot j
      · subst hi
        rw [Function.update_self] at hy
        exact hact j (by simp) _ (hs _) y hy
      · rw [Function.update_of_ne hi] at hy
        exact hs i y hy
    rw [run]
    split
    · exact ih (fun k hk => hact k (by simp [hk])) _ hupd
    · exact hupd

end Frame

end Loop

/-! Playing a list of moves, any of which may never end. -/

section Play
variable {α β : Type} (play : α → Option β)

/-- The moves that were started, and the results when all of them ended. -/
def playAll : List α → List α × Option (List β)
  | [] => ([], some [])
  | a :: as => match play a with
    | none => ([a], none)
    | some b => (a :: (playAll as).1, (playAll as).2.map (b :: ·))

variable {play}

theorem playAll_ended {l : List α} {bs : List β} (h : (playAll play l).2 = some bs) :
    bs.length = l.length ∧ (∀ b ∈ bs, ∃ a ∈ l, play a = some b) ∧
      ∀ a ∈ l, ∃ b ∈ bs, play a = some b := by
  induction l generalizing bs with
  | nil =>
    cases h
    simp
  | cons a l ih =>
    rw [playAll] at h
    cases ha : play a with
    | none => simp [ha] at h
    | some b =>
      simp only [ha, Option.map_eq_some_iff] at h
      obtain ⟨cs, hcs, rfl⟩ := h
      obtain ⟨hlen, hsound, hall⟩ := ih hcs
      refine ⟨by simp [hlen], ?_, ?_⟩
      · intro c hc
        cases hc with
        | head => exact ⟨a, by simp, ha⟩
        | tail _ hc =>
          obtain ⟨a', ha', hp⟩ := hsound c hc
          exact ⟨a', by simp [ha'], hp⟩
      · intro a' ha'
        cases ha' with
        | head => exact ⟨b, by simp, ha⟩
        | tail _ ha' =>
          obtain ⟨c, hc, hp⟩ := hall a' ha'
          exact ⟨c, by simp [hc], hp⟩

theorem playAll_isSome_iff (l : List α) :
    (playAll play l).2.isSome = true ↔ ∀ a ∈ l, (play a).isSome = true := by
  induction l with
  | nil => simp [playAll]
  | cons a l ih =>
    rw [playAll]
    cases ha : play a with
    | none => simp [ha]
    | some b => simp [ha, ih]

theorem playAll_initial (l : List α) : (playAll play l).1 <+: l := by
  induction l with
  | nil => exact List.prefix_refl _
  | cons a l ih =>
    rw [playAll]
    split
    · exact ⟨l, rfl⟩
    · exact (List.prefix_cons_inj a).mpr ih

theorem playAll_started_iff (l : List α) : (playAll play l).1 = l ↔
    ∀ pre a post, l = pre ++ a :: post → post ≠ [] → (play a).isSome = true := by
  induction l with
  | nil => simp [playAll]
  | cons a l ih =>
    rw [playAll]
    constructor
    · intro h pre x post hsplit hpost
      cases ha : play a with
      | none =>
        simp only [ha] at h
        injection h with _ h
        subst h
        have hlen := congrArg List.length hsplit
        have hpos := List.length_pos_iff.mpr hpost
        simp only [List.length_cons, List.length_nil, List.length_append] at hlen
        omega
      | some b =>
        simp only [ha] at h
        injection h with _ h
        cases pre with
        | nil =>
          injection hsplit with hx _
          rw [← hx, ha]
          rfl
        | cons p pre =>
          injection hsplit with _ hsplit
          exact ih.mp h pre x post hsplit hpost
    · intro h
      cases l with
      | nil => cases ha : play a <;> simp [playAll]
      | cons k l =>
        have ha := h [] a (k :: l) rfl (by simp)
        obtain ⟨b, hb⟩ := Option.isSome_iff_exists.mp ha
        simp only [hb]
        rw [ih.mpr fun pre x post hsplit hpost => h (a :: pre) x post (by rw [hsplit]; rfl) hpost]

theorem forall_mem_started_iff {l : List α} (hl : l.Nodup) : (∀ a ∈ l, a ∈ (playAll play l).1) ↔
    ∀ pre a post, l = pre ++ a :: post → post ≠ [] → (play a).isSome = true := by
  rw [← playAll_started_iff]
  constructor
  · intro h
    have hle := (hl.subperm h).length_le
    exact (playAll_initial l).eq_of_length (le_antisymm (playAll_initial l).length_le hle)
  · intro h a ha
    rw [h]
    exact ha

end Play

end JobLoop
