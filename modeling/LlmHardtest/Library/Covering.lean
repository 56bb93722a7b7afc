import Mathlib.Data.Finset.Card
import Mathlib.Order.Interval.Finset.Defs
set_option autoImplicit false

/-! Loops with a budget that may stop on their own, and the covering of a set piece by piece. -/

namespace Covering

section Loop
variable {σ α : Type}

/-- At most `n` steps; the loop stops where there is no step. -/
def loop (step : σ → Option σ) : Nat → σ → σ
  | 0, s => s
  | n + 1, s => (step s).elim s (loop step n)

variable {step : σ → Option σ} {s s' : σ} {k n : Nat}

theorem loop_none (h : step s = none) : loop step n s = s := by
  cases n with
  | zero => rfl
  | succ n => rw [loop, h, Option.elim_none]

theorem loop_some (h : step s = some s') : loop step (n + 1) s = loop step n s' := by
  rw [loop, h, Option.elim_some]

/-- What every step keeps, the loop keeps. -/
theorem loop_keeps {P : σ → Prop} (hstep : ∀ s s', P s → step s = some s' → P s') (n : Nat) {s : σ}
    (h : P s) : P (loop step n s) := by
  induction n generalizing s with
  | zero => exact h
  | succ n ih =>
    cases hs : step s with
    | none => rwa [loop_none hs]
    | some s' =>
      rw [loop_some hs]
      exact ih (hstep s s' h hs)

theorem loop_stopped (measure : σ → Nat)
    (hstep : ∀ s s', step s = some s' → measure s' < measure s) (h : measure s ≤ n) :
    step (loop step n s) = none := by
  induction n generalizing s with
  | zero =>
    cases hs : step s with
    | none => exact hs
    | some s' => exact absurd (hstep s s' hs) (by omega)
  | succ n ih =>
    cases hs : step s with
    | none => rwa [loop_none hs]
    | some s' =>
      rw [loop_some hs]
      exact ih (by have := hstep s s' hs; omega)

/-- A loop that has stopped does not go on with a larger budget. -/
theorem loop_of_stopped {m : Nat} (h : step (loop step n s) = none) (hle : n ≤ m) :
    loop step m s = loop step n s := by
  induction n generalizing m s with
  | zero => exact loop_none h
  | succ n ih =>
    obtain ⟨m, rfl⟩ := Nat.exists_eq_add_of_le' (Nat.lt_of_lt_of_le n.succ_pos hle)
    cases hs : step s with
    | none => rw [loop_none hs, loop_none hs]
    | some s' =>
      rw [loop_some hs] at h
      rw [loop_some hs, loop_some hs, ih h (Nat.le_of_succ_le_succ hle)]

section Log
variable (log : σ → List α) (hstep : ∀ s s', step s = some s' → ∃ a, log s' = log s ++ [a])
include hstep

theorem log_grows (n : Nat) (s : σ) : log s <+: log (loop step n s) := by
  induction n generalizing s with
  | zero => exact List.prefix_rfl
  | succ n ih =>
    cases hs : step s with
    | none => rw [loop_none hs]
    | some s' =>
      obtain ⟨a, ha⟩ := hstep s s' hs
      rw [loop_some hs]
      exact (ha ▸ List.prefix_append _ _).trans (ih s')

theorem log_take (h : k ≤ n) (s : σ) :
    log (loop step k s) = (log (loop step n s)).take ((log s).length + k) := by
  induction k generalizing n s with
  | zero => exact (List.prefix_iff_eq_take.mp (log_grows log hstep n s))
  | succ k ih =>
    obtain ⟨m, rfl⟩ := Nat.exists_eq_add_of_le' (Nat.lt_of_lt_of_le k.succ_pos h)
    cases hs : step s with
    | none =>
      rw [loop_none hs, loop_none hs, List.take_of_length_le (by omega)]
    | some s' =>
      obtain ⟨a, ha⟩ := hstep s s' hs
      have hlength : (log s').length + k = (log s).length + (k + 1) := by
        rw [ha, List.length_append, List.length_singleton]
        omega
      rw [loop_some hs, loop_some hs, ih (Nat.le_of_succ_le_succ h), hlength]

end Log

end Loop

section Split
variable {τ : Type} [DecidableEq τ]

/-- The pieces are not empty, share nothing, and with the rest make up the whole. -/
structure Split (whole : Finset τ) (pieces : List (Finset τ)) (rest : Finset τ) : Prop where
  nonempty : ∀ p ∈ pieces, p.Nonempty
  disjoint : pieces.Pairwise Disjoint
  apart : ∀ p ∈ pieces, Disjoint p rest
  mem_iff : ∀ t, t ∈ whole ↔ t ∈ rest ∨ ∃ p ∈ pieces, t ∈ p

variable {whole rest new : Finset τ} {pieces before after : List (Finset τ)}

omit [DecidableEq τ] in
theorem Split.start : Split whole [] whole where
  nonempty := by simp
  disjoint := .nil
  apart := by simp
  mem_iff := by simp

theorem Split.take (h : Split whole pieces rest) (hnew : new ⊆ rest) (hne : new.Nonempty) :
    Split whole (pieces ++ [new]) (rest \ new) where
  nonempty p hp := by
    rcases List.mem_append.mp hp with hp | hp
    · exact h.nonempty p hp
    · exact List.mem_singleton.mp hp ▸ hne
  disjoint := by
    refine List.pairwise_append.mpr ⟨h.disjoint, List.pairwise_singleton _ _, fun p hp q hq => ?_⟩
    rw [List.mem_singleton.mp hq]
    exact (h.apart p hp).mono_right hnew
  apart p hp := by
    rcases List.mem_append.mp hp with hp | hp
    · exact (h.apart p hp).mono_right Finset.sdiff_subset
    · exact List.mem_singleton.mp hp ▸ Finset.disjoint_sdiff
  mem_iff t := by
    rw [h.mem_iff t]
    constructor
    · rintro (ht | ⟨p, hp, ht⟩)
      · by_cases hn : t ∈ new
        · exact .inr ⟨new, by simp, hn⟩
        · exact .inl (Finset.mem_sdiff.mpr ⟨ht, hn⟩)
      · exact .inr ⟨p, by simp [hp], ht⟩
    · rintro (ht | ⟨p, hp, ht⟩)
      · exact .inl (Finset.mem_sdiff.mp ht).1
      · rcases List.mem_append.mp hp with hp | hp
        · exact .inr ⟨p, hp, ht⟩
        · exact .inl (hnew (List.mem_singleton.mp hp ▸ ht))

omit [DecidableEq τ] in
theorem Split.mem_rest (h : Split whole pieces rest) (t : τ) :
    t ∈ rest ↔ t ∈ whole ∧ ∀ p ∈ pieces, t ∉ p := by
  constructor
  · intro ht
    refine ⟨(h.mem_iff t).mpr (.inl ht), fun p hp hmem => ?_⟩
    exact Finset.disjoint_left.mp (h.apart p hp) hmem ht
  · rintro ⟨hwhole, hpieces⟩
    rcases (h.mem_iff t).mp hwhole with ht | ⟨p, hp, ht⟩
    · exact ht
    · exact absurd ht (hpieces p hp)

end Split

end Covering
