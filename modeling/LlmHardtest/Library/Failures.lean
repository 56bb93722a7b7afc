import Mathlib.Data.List.Basic
import Mathlib.Data.List.Forall2
import Mathlib.Logic.Basic
set_option autoImplicit false

/-! Programs that may raise, and which errors they raise. -/

namespace Failures

variable {ε α β σ : Type} {P : ε → Prop}

/-- The program returns or raises an error that `P` allows. -/
def RaisesOnly (P : ε → Prop) (x : Except ε α) : Prop := ∀ e, x = .error e → P e

/-- An element that a loop gets to: the ones before it pass. -/
def Reached (passes : α → Prop) (l : List α) (a : α) : Prop :=
  ∃ before after, l = before ++ a :: after ∧ ∀ b ∈ before, passes b

@[simp] theorem raisesOnly_ok {a : α} : RaisesOnly P (.ok a : Except ε α) := fun _ h => nomatch h

@[simp] theorem raisesOnly_pure {a : α} : RaisesOnly P (pure a : Except ε α) := raisesOnly_ok

@[simp] theorem raisesOnly_error {e : ε} : RaisesOnly P (.error e : Except ε α) ↔ P e :=
  ⟨fun h => h e rfl, fun h _ he => Except.error.inj he ▸ h⟩

theorem bind_eq_ok {x : Except ε α} {f : α → Except ε β} {b : β} :
    x >>= f = .ok b ↔ ∃ a, x = .ok a ∧ f a = .ok b := by
  cases x with
  | error e =>
    constructor
    · intro h; cases h
    · rintro ⟨a, h, -⟩; cases h
  | ok a =>
    constructor
    · exact fun h => ⟨a, rfl, h⟩
    · rintro ⟨a', h, h'⟩
      cases h
      exact h'

theorem isOk_iff {x : Except ε α} : x.isOk = true ↔ ∃ a, x = .ok a := by
  cases x with
  | error e => exact iff_of_false (by simp [Except.toBool]) (by rintro ⟨a, h⟩; cases h)
  | ok a => exact iff_of_true rfl ⟨a, rfl⟩

theorem toOption_eq_some {x : Except ε α} {a : α} : x.toOption = some a ↔ x = .ok a := by
  cases x with
  | error e => exact iff_of_false (by simp [Except.toOption]) (by simp)
  | ok b => simp [Except.toOption]

theorem map_eq_ok {x : Except ε α} {f : α → β} {b : β} :
    x.map f = .ok b ↔ ∃ a, x = .ok a ∧ f a = b := by
  cases x with
  | error e => exact iff_of_false (by simp [Except.map]) (by rintro ⟨a, h, -⟩; cases h)
  | ok a => simp [Except.map]

theorem mapM_eq_ok {f : α → Except ε β} {l : List α} {bs : List β} :
    l.mapM f = .ok bs ↔ List.Forall₂ (fun a b => f a = .ok b) l bs := by
  induction l generalizing bs with
  | nil =>
    rw [List.forall₂_nil_left_iff]
    constructor
    · intro h
      cases h
      rfl
    · rintro rfl
      rfl
  | cons a l ih =>
    simp only [List.mapM_cons, bind_eq_ok, ih, List.forall₂_cons_left_iff]
    constructor
    · rintro ⟨b, hb, cs, hcs, h⟩
      cases h
      exact ⟨b, cs, hb, hcs, rfl⟩
    · rintro ⟨b, cs, hb, hcs, rfl⟩
      exact ⟨b, hb, cs, hcs, rfl⟩

theorem raisesOnly_bind {x : Except ε α} {f : α → Except ε β} :
    RaisesOnly P (x >>= f) ↔ RaisesOnly P x ∧ ∀ a, x = .ok a → RaisesOnly P (f a) := by
  cases x with
  | error e =>
    change RaisesOnly P (.error e) ↔ _
    rw [raisesOnly_error, raisesOnly_error]
    exact ⟨fun h => ⟨h, fun a ha => nomatch ha⟩, fun h => h.1⟩
  | ok a =>
    change RaisesOnly P (f a) ↔ _
    refine ⟨fun h => ⟨raisesOnly_ok, fun b hb => ?_⟩, fun h => h.2 a rfl⟩
    rw [← Except.ok.inj hb]
    exact h

theorem raisesOnly_then {x : Except ε α} {f : α → Except ε β} {p : Prop} {q : α → Prop}
    (hx : RaisesOnly P x ↔ p) (hf : ∀ a, x = .ok a → (RaisesOnly P (f a) ↔ q a)) :
    RaisesOnly P (x >>= f) ↔ p ∧ ∀ a, x = .ok a → q a := by
  rw [raisesOnly_bind, hx]
  exact and_congr_right fun _ => forall₂_congr hf

theorem raisesOnly_after {x : Except ε α} {f : α → Except ε β} {q : α → Prop}
    (hx : RaisesOnly P x) (hf : ∀ a, x = .ok a → (RaisesOnly P (f a) ↔ q a)) :
    RaisesOnly P (x >>= f) ↔ ∀ a, x = .ok a → q a := by
  rw [raisesOnly_then (iff_of_true hx trivial) hf]
  exact and_iff_right trivial

theorem raisesOnly_map {x : Except ε α} {f : α → β} :
    RaisesOnly P (x.map f) ↔ RaisesOnly P x := by
  cases x with
  | error e => exact Iff.rfl.trans (raisesOnly_error.trans raisesOnly_error.symm)
  | ok a => exact ⟨fun _ => raisesOnly_ok, fun _ => raisesOnly_ok⟩

theorem reached_nil {passes : α → Prop} {a : α} : ¬ Reached passes [] a := by
  rintro ⟨before, after, h, _⟩
  exact absurd h (by simp)

theorem reached_cons {passes : α → Prop} {a b : α} {l : List α} :
    Reached passes (b :: l) a ↔ a = b ∨ passes b ∧ Reached passes l a := by
  constructor
  · rintro ⟨before, after, h, hpass⟩
    cases before with
    | nil =>
      injection h with h _
      exact .inl h.symm
    | cons c before =>
      injection h with hc h
      subst hc
      exact .inr ⟨hpass b (by simp), before, after, h, fun d hd => hpass d (by simp [hd])⟩
  · rintro (rfl | ⟨hb, before, after, rfl, hpass⟩)
    · exact ⟨[], l, rfl, by simp⟩
    · exact ⟨b :: before, after, rfl, List.forall_mem_cons.mpr ⟨hb, hpass⟩⟩

theorem raisesOnly_mapM {f : α → Except ε β} {l : List α} :
    RaisesOnly P (l.mapM f) ↔ ∀ a, Reached (fun b => ∃ c, f b = .ok c) l a → RaisesOnly P (f a) := by
  induction l with
  | nil => exact ⟨fun _ a ha => absurd ha reached_nil, fun _ => raisesOnly_pure⟩
  | cons b l ih =>
    rw [List.mapM_cons, raisesOnly_bind]
    have hrest : ∀ c, RaisesOnly P (do return c :: (← l.mapM f) : Except ε (List β)) ↔
        RaisesOnly P (l.mapM f) := by
      intro c
      rw [raisesOnly_bind]
      exact ⟨fun h => h.1, fun h => ⟨h, fun _ _ => raisesOnly_pure⟩⟩
    simp only [hrest, ih, reached_cons]
    constructor
    · rintro ⟨hb, hl⟩ a (rfl | ⟨⟨c, hc⟩, ha⟩)
      · exact hb
      · exact hl c hc a ha
    · intro h
      exact ⟨h b (.inl rfl), fun c hc a ha => h a (.inr ⟨⟨c, hc⟩, ha⟩)⟩

theorem raisesOnly_forM {f : α → Except ε PUnit} {l : List α} :
    RaisesOnly P (l.forM f) ↔ ∀ a, Reached (fun b => f b = .ok ()) l a → RaisesOnly P (f a) := by
  induction l with
  | nil => exact ⟨fun _ a ha => absurd ha reached_nil, fun _ => raisesOnly_pure⟩
  | cons b l ih =>
    change RaisesOnly P (f b >>= fun _ => l.forM f) ↔ _
    rw [raisesOnly_bind]
    simp only [ih, reached_cons]
    constructor
    · rintro ⟨hb, hl⟩ a (rfl | ⟨hc, ha⟩)
      · exact hb
      · exact hl () hc a ha
    · intro h
      exact ⟨h b (.inl rfl), fun c hc a ha => h a (.inr ⟨hc, ha⟩)⟩

theorem raisesOnly_foldlM {f : σ → α → Except ε σ} {l : List α} {s : σ} :
    RaisesOnly P (l.foldlM f s) ↔ ∀ before a after, l = before ++ a :: after →
      ∀ t, before.foldlM f s = .ok t → RaisesOnly P (f t a) := by
  induction l generalizing s with
  | nil => exact ⟨fun _ before a after h => absurd h (by simp), fun _ => raisesOnly_pure⟩
  | cons b l ih =>
    rw [List.foldlM_cons, raisesOnly_bind]
    simp only [ih]
    constructor
    · rintro ⟨hb, hl⟩ before a after h t ht
      cases before with
      | nil =>
        injection h with h _
        subst h
        cases ht
        exact hb
      | cons c before =>
        injection h with hc h
        subst hc
        rw [List.foldlM_cons] at ht
        cases hs : f s b with
        | error e =>
          rw [hs] at ht
          cases ht
        | ok u =>
          rw [hs] at ht
          exact hl u hs before a after h t ht
    · intro h
      refine ⟨h [] b l rfl s rfl, fun u hu before a after hl t ht => ?_⟩
      refine h (b :: before) a after (by rw [hl]; rfl) t ?_
      rw [List.foldlM_cons, hu]
      exact ht

end Failures
