import Mathlib.Data.List.Nodup
import Mathlib.Logic.Function.Basic
set_option autoImplicit false

/-! Single flight: of the parties that ask for one key at the same time, one does the work and the
others wait for its result. A flight is named by the party that leads it. -/

namespace SingleFlight

/-- Where a party is; `apart` before it has looked and when it never needs a flight. -/
inductive Party (K R : Type) where
  | apart
  | leading (k : K)
  | waiting (k : K) (leader : Nat)
  | ended (k : K) (leader : Nat) (r : R)

structure World (K R : Type) where
  party : Nat → Party K R
  active : List (K × Nat)
  landed : List (Nat × R)

variable {K R : Type}

def World.start : World K R := ⟨fun _ => .apart, [], []⟩

def leaderOf [DecidableEq K] (active : List (K × Nat)) (k : K) : Option Nat :=
  (active.find? fun e => e.1 = k).map Prod.snd

inductive Step [DecidableEq K] : World K R → World K R → Prop
  | launch {w : World K R} {i : Nat} {k : K} : w.party i = .apart → leaderOf w.active k = none →
      Step w ⟨Function.update w.party i (.leading k), w.active ++ [(k, i)], w.landed⟩
  | join {w : World K R} {i leader : Nat} {k : K} : w.party i = .apart →
      leaderOf w.active k = some leader →
      Step w ⟨Function.update w.party i (.waiting k leader), w.active, w.landed⟩
  | land {w : World K R} {i : Nat} {k : K} {r : R} : w.party i = .leading k →
      Step w ⟨Function.update w.party i (.ended k i r), w.active.filter (fun e => e.1 ≠ k),
        w.landed ++ [(i, r)]⟩
  | wake {w : World K R} {i leader : Nat} {k : K} {r : R} : w.party i = .waiting k leader →
      w.landed.lookup leader = some r →
      Step w ⟨Function.update w.party i (.ended k leader r), w.active, w.landed⟩

/-- A party waits for a leader of its key, or for one that has ended. -/
def Waits (party : Nat → Party K R) : Prop :=
  ∀ i k leader, party i = .waiting k leader →
    party leader = .leading k ∨ ∃ r, party leader = .ended k leader r

def Ends (party : Nat → Party K R) : Prop :=
  ∀ i k leader r, party i = .ended k leader r → party leader = .ended k leader r

/-- What holds between the parties and the flights. -/
structure Sound (w : World K R) : Prop where
  keys : (w.active.map Prod.fst).Nodup
  leads : ∀ k i, (k, i) ∈ w.active ↔ w.party i = .leading k
  landed : ∀ i r, (i, r) ∈ w.landed → ∃ k, w.party i = .ended k i r
  waits : Waits w.party
  ends : Ends w.party

section Leaders
variable [DecidableEq K] {active : List (K × Nat)} {k : K}

theorem mem_of_leaderOf {leader : Nat} (h : leaderOf active k = some leader) : (k, leader) ∈ active := by
  obtain ⟨e, he, rfl⟩ := Option.map_eq_some_iff.mp h
  have hkey := List.find?_some he
  rw [← of_decide_eq_true hkey]
  exact List.mem_of_find?_eq_some he

theorem not_mem_of_leaderOf (h : leaderOf active k = none) : k ∉ active.map Prod.fst := by
  rw [leaderOf, Option.map_eq_none_iff, List.find?_eq_none] at h
  intro hk
  obtain ⟨e, he, rfl⟩ := List.mem_map.mp hk
  exact h e he (decide_eq_true rfl)

end Leaders

theorem mem_of_lookup {landed : List (Nat × R)} {i : Nat} {r : R} (h : landed.lookup i = some r) :
    (i, r) ∈ landed := by
  obtain ⟨l₁, l₂, rfl, -⟩ := List.lookup_eq_some_iff.mp h
  simp

section Update
variable {party : Nat → Party K R} {i : Nat} {p : Party K R}

def Party.pending : Party K R → Prop
  | .ended _ _ _ => False
  | _ => True

theorem update_ended (hi : (party i).pending) {j leader : Nat} {k : K} {r : R}
    (hj : party j = .ended k leader r) : Function.update party i p j = .ended k leader r := by
  have hne : j ≠ i := by
    rintro rfl
    rw [hj] at hi
    exact hi
  rw [Function.update_of_ne hne, hj]

theorem Waits.update (hw : Waits party) (hi : (party i).pending)
    (hlead : ∀ k, party i = .leading k → ∃ r, p = .ended k i r)
    (hp : ∀ k leader, p = .waiting k leader → leader ≠ i ∧ party leader = .leading k) :
    Waits (Function.update party i p) := by
  intro j k leader hj
  by_cases hji : j = i
  · subst hji
    rw [Function.update_self] at hj
    obtain ⟨hne, hleader⟩ := hp k leader hj
    exact .inl (by rw [Function.update_of_ne hne, hleader])
  · rw [Function.update_of_ne hji] at hj
    rcases hw j k leader hj with hleader | ⟨r, hleader⟩
    · by_cases hli : leader = i
      · subst hli
        obtain ⟨r, hr⟩ := hlead k hleader
        exact .inr ⟨r, by rw [Function.update_self, hr]⟩
      · exact .inl (by rw [Function.update_of_ne hli, hleader])
    · exact .inr ⟨r, update_ended hi hleader⟩

theorem Ends.update (he : Ends party) (hi : (party i).pending)
    (hp : ∀ k leader r, p = .ended k leader r →
      Function.update party i p leader = .ended k leader r) :
    Ends (Function.update party i p) := by
  intro j k leader r hj
  by_cases hji : j = i
  · subst hji
    rw [Function.update_self] at hj
    exact hp k leader r hj
  · rw [Function.update_of_ne hji] at hj
    exact update_ended hi (he j k leader r hj)

end Update

theorem Sound.start : Sound (World.start : World K R) where
  keys := by simp [World.start]
  leads := by simp [World.start]
  landed := by simp [World.start]
  waits i k leader h := by cases h
  ends i k leader r h := by cases h

section Steps
variable {w w' : World K R} {i j leader : Nat} {k : K} {r : R}

theorem Sound.launch [DecidableEq K] (hw : Sound w) (hi : w.party i = .apart) (hk : leaderOf w.active k = none) :
    Sound ⟨Function.update w.party i (.leading k), w.active ++ [(k, i)], w.landed⟩ where
  keys := by
    rw [List.map_append, List.nodup_append]
    refine ⟨hw.keys, by simp, ?_⟩
    rintro a ha b hb rfl
    rw [List.mem_singleton.mp hb] at ha
    exact not_mem_of_leaderOf hk ha
  leads k' j := by
    rw [List.mem_append, hw.leads, List.mem_singleton]
    by_cases hj : j = i
    · subst hj
      simp [hi, eq_comm]
    · simp [hj]
  landed j r hj := by
    obtain ⟨k', hp⟩ := hw.landed j r hj
    exact ⟨k', update_ended (by rw [hi]; trivial) hp⟩
  waits := hw.waits.update (by rw [hi]; trivial) (by rw [hi]; rintro k ⟨⟩) (by rintro k leader ⟨⟩)
  ends := hw.ends.update (by rw [hi]; trivial) (by rintro k leader r ⟨⟩)

theorem Sound.join [DecidableEq K] (hw : Sound w) (hi : w.party i = .apart)
    (hk : leaderOf w.active k = some leader) :
    Sound ⟨Function.update w.party i (.waiting k leader), w.active, w.landed⟩ where
  keys := hw.keys
  leads k' j := by
    rw [hw.leads]
    by_cases hj : j = i
    · subst hj
      simp [hi]
    · simp [Function.update_of_ne hj]
  landed j r hj := by
    obtain ⟨k', hp⟩ := hw.landed j r hj
    exact ⟨k', update_ended (by rw [hi]; trivial) hp⟩
  waits := by
    have hleader := (hw.leads k leader).mp (mem_of_leaderOf hk)
    refine hw.waits.update (by rw [hi]; trivial) (by rw [hi]; rintro k ⟨⟩) ?_
    rintro k' leader' ⟨⟩
    refine ⟨?_, hleader⟩
    rintro rfl
    rw [hi] at hleader
    cases hleader
  ends := hw.ends.update (by rw [hi]; trivial) (by rintro k leader r ⟨⟩)

theorem Sound.land [DecidableEq K] (hw : Sound w) (hi : w.party i = .leading k) :
    Sound ⟨Function.update w.party i (.ended k i r), w.active.filter (fun e => e.1 ≠ k),
      w.landed ++ [(i, r)]⟩ where
  keys := hw.keys.sublist (List.filter_sublist.map Prod.fst)
  leads k' j := by
    rw [List.mem_filter, hw.leads, decide_eq_true_eq]
    change _ ↔ Function.update w.party i (.ended k i r) j = .leading k'
    by_cases hj : j = i
    · subst hj
      rw [hi, Function.update_self]
      refine iff_of_false ?_ (by simp)
      rintro ⟨h, hne⟩
      cases h
      exact hne rfl
    · rw [Function.update_of_ne hj]
      refine ⟨fun h => h.1, fun h => ⟨h, ?_⟩⟩
      rintro rfl
      have hsame := List.inj_on_of_nodup_map hw.keys ((hw.leads k' j).mpr h)
        ((hw.leads k' i).mpr hi) rfl
      exact hj (congrArg Prod.snd hsame)
  landed j r' hj := by
    rcases List.mem_append.mp hj with hj | hj
    · obtain ⟨k', hp⟩ := hw.landed j r' hj
      exact ⟨k', update_ended (by rw [hi]; trivial) hp⟩
    · cases List.mem_singleton.mp hj
      exact ⟨k, Function.update_self ..⟩
  waits := by
    refine hw.waits.update (by rw [hi]; trivial) ?_ (by rintro k leader ⟨⟩)
    intro k' hk'
    rw [hi] at hk'
    cases hk'
    exact ⟨r, rfl⟩
  ends := by
    refine hw.ends.update (by rw [hi]; trivial) ?_
    rintro k' leader' r' ⟨⟩
    exact Function.update_self ..

theorem Sound.wake (hw : Sound w) (hi : w.party i = .waiting k leader)
    (hr : w.landed.lookup leader = some r) :
    Sound ⟨Function.update w.party i (.ended k leader r), w.active, w.landed⟩ where
  keys := hw.keys
  leads k' j := by
    rw [hw.leads]
    by_cases hj : j = i
    · subst hj
      simp [hi]
    · simp [Function.update_of_ne hj]
  landed j r' hj := by
    obtain ⟨k', hp⟩ := hw.landed j r' hj
    exact ⟨k', update_ended (by rw [hi]; trivial) hp⟩
  waits := hw.waits.update (by rw [hi]; trivial) (by rw [hi]; rintro k ⟨⟩) (by rintro k leader ⟨⟩)
  ends := by
    refine hw.ends.update (by rw [hi]; trivial) ?_
    rintro k' leader' r' ⟨⟩
    obtain ⟨k', hp⟩ := hw.landed leader r (mem_of_lookup hr)
    have hk : k' = k := by
      rcases hw.waits i k leader hi with h | ⟨r', h⟩
      · rw [hp] at h
        cases h
      · rw [hp] at h
        cases h
        rfl
    rw [← hk]
    exact update_ended (by rw [hi]; trivial) hp

theorem Sound.step [DecidableEq K] (hw : Sound w) (hs : Step w w') : Sound w' := by
  cases hs with
  | launch hi hk => exact hw.launch hi hk
  | join hi hk => exact hw.join hi hk
  | land hi => exact hw.land hi
  | wake hi hr => exact hw.wake hi hr

theorem Step.ended [DecidableEq K] (hs : Step w w') (h : w.party j = .ended k leader r) :
    w'.party j = .ended k leader r := by
  cases hs with
  | launch hi _ => exact update_ended (by rw [hi]; trivial) h
  | join hi _ => exact update_ended (by rw [hi]; trivial) h
  | land hi => exact update_ended (by rw [hi]; trivial) h
  | wake hi _ => exact update_ended (by rw [hi]; trivial) h

/-- A party that neither waits for a leader nor has ended with its result. -/
def Away (w : World K R) (j leader : Nat) : Prop :=
  (∀ k, w.party j ≠ .waiting k leader) ∧ ∀ k r, w.party j ≠ .ended k leader r

/-- A party that is away from a leader that has ended stays away from it. -/
theorem Step.away [DecidableEq K] (hs : Step w w') (hw : Sound w)
    (hleader : w.party leader = .ended k leader r) (hj : Away w j leader) : Away w' j leader := by
  have hother : ∀ {i p}, j ≠ i →
      (∀ k, Function.update w.party i p j ≠ .waiting k leader) ∧
        ∀ k r, Function.update w.party i p j ≠ .ended k leader r := by
    intro i p hji
    rw [Function.update_of_ne hji]
    exact hj
  cases hs with
  | @launch i k' hi hk =>
    by_cases hji : j = i
    · subst hji
      exact ⟨by simp, by simp⟩
    · exact hother hji
  | @join i other k' hi hk =>
    by_cases hji : j = i
    · subst hji
      have hne : other ≠ leader := by
        rintro rfl
        have hlead := (hw.leads k' other).mp (mem_of_leaderOf hk)
        rw [hleader] at hlead
        cases hlead
      exact ⟨by simp [hne], by simp⟩
    · exact hother hji
  | @land i k' r' hi =>
    by_cases hji : j = i
    · subst hji
      have hne : j ≠ leader := by
        rintro rfl
        rw [hleader] at hi
        cases hi
      exact ⟨by simp, by simp [hne]⟩
    · exact hother hji
  | @wake i other k' r' hi hr =>
    by_cases hji : j = i
    · subst hji
      have hne : other ≠ leader := by
        rintro rfl
        exact hj.1 k' hi
      exact ⟨by simp, by simp [hne]⟩
    · exact hother hji

end Steps

end SingleFlight
