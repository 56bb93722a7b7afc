import Mathlib.Data.List.Chain
import Mathlib.Data.List.Nodup
set_option autoImplicit false

/-! Loops that show their states: every round goes on with a new state or ends with a result. -/

namespace Rounds

inductive Next (σ β : Type) where
  | again (s : σ)
  | done (result : β)

/-- A loop that comes to an end, since something becomes less in every round. -/
structure Loop (σ β : Type) where
  next : σ → Next σ β
  left : σ → Nat
  less : ∀ (s s' : σ), next s = .again s' → left s' < left s

variable {σ β : Type} {l : Loop σ β} {s s' : σ} {b : β}

/-- The states at the head of the rounds, and the result. -/
def Loop.run (l : Loop σ β) (s : σ) : List σ × β :=
  match _h : l.next s with
  | .again s' => (s :: (l.run s').1, (l.run s').2)
  | .done b => ([s], b)
termination_by l.left s
decreasing_by all_goals exact l.less s s' _h

def Loop.states (l : Loop σ β) (s : σ) : List σ := (l.run s).1

def Loop.result (l : Loop σ β) (s : σ) : β := (l.run s).2

theorem Loop.run_again (h : l.next s = .again s') :
    l.run s = (s :: l.states s', l.result s') := by
  rw [Loop.run]
  split
  · rename_i t ht
    cases h.symm.trans ht
    rfl
  · rename_i t ht
    cases h.symm.trans ht

theorem Loop.run_done (h : l.next s = .done b) : l.run s = ([s], b) := by
  rw [Loop.run]
  split
  · rename_i t ht
    cases h.symm.trans ht
  · rename_i t ht
    cases h.symm.trans ht
    rfl

theorem Loop.states_again (h : l.next s = .again s') : l.states s = s :: l.states s' := by
  rw [Loop.states, Loop.run_again h]

theorem Loop.states_done (h : l.next s = .done b) : l.states s = [s] := by
  rw [Loop.states, Loop.run_done h]

theorem Loop.result_again (h : l.next s = .again s') : l.result s = l.result s' := by
  rw [Loop.result, Loop.run_again h]

theorem Loop.result_done (h : l.next s = .done b) : l.result s = b := by
  rw [Loop.result, Loop.run_done h]

theorem Loop.induct (l : Loop σ β) {P : σ → Prop}
    (again : ∀ s s', l.next s = .again s' → P s' → P s)
    (done : ∀ s b, l.next s = .done b → P s) (s : σ) : P s := by
  induction hn : l.left s using Nat.strongRecOn generalizing s with
  | _ n ih =>
    cases h : l.next s with
    | again s' => exact again s s' h (ih _ (hn ▸ l.less s s' h) s' rfl)
    | done b => exact done s b h

theorem Loop.head_states (l : Loop σ β) (s : σ) : ∃ ss, l.states s = s :: ss := by
  cases h : l.next s with
  | again s' => exact ⟨_, states_again h⟩
  | done b => exact ⟨_, states_done h⟩

theorem Loop.length_states (l : Loop σ β) (s : σ) : (l.states s).length ≤ l.left s + 1 := by
  induction s using l.induct with
  | again s s' h ih =>
    have hless := l.less s s' h
    rw [states_again h, List.length_cons]
    omega
  | done s b h => rw [states_done h, List.length_singleton]; omega

theorem Loop.chain_states (l : Loop σ β) (s : σ) :
    List.IsChain (fun t t' => l.next t = .again t') (l.states s) := by
  induction s using l.induct with
  | again s s' h ih =>
    rw [states_again h]
    refine List.isChain_cons.mpr ⟨fun t ht => ?_, ih⟩
    obtain ⟨ss, hss⟩ := l.head_states s'
    rw [hss] at ht
    cases ht
    exact h
  | done s b h => rw [states_done h]; exact List.isChain_singleton s

theorem Loop.last_states (l : Loop σ β) (s : σ) :
    ∃ ss t, l.states s = ss ++ [t] ∧ l.next t = .done (l.result s) := by
  induction s using l.induct with
  | again s s' h ih =>
    obtain ⟨ss, t, hss, ht⟩ := ih
    exact ⟨s :: ss, t, by rw [states_again h, hss]; rfl, by rw [result_again h]; exact ht⟩
  | done s b h => exact ⟨[], s, states_done h, by rw [result_done h]; exact h⟩

/-- What holds of the states so far and the next one holds all along. -/
theorem Loop.along {I : List σ → σ → Prop} (h0 : I [] s)
    (hstep : ∀ before t t', I before t → l.next t = .again t' → I (before ++ [t]) t')
    {before : List σ} {t : σ} {after : List σ} (ht : l.states s = before ++ t :: after) :
    I before t := by
  induction s using l.induct generalizing I before with
  | again s s' h ih =>
    rw [states_again h] at ht
    cases before with
    | nil =>
      cases ht
      exact h0
    | cons r before =>
      injection ht with hr hs
      subst hr
      refine ih (I := fun before t => I (s :: before) t) (hstep [] s s' h0 h) ?_ hs
      exact fun before t t' => hstep (s :: before) t t'
  | done s b h =>
    rw [states_done h] at ht
    cases before with
    | nil =>
      cases ht
      exact h0
    | cons r before => simp at ht

theorem Loop.forall_states {I : σ → Prop} (h0 : I s)
    (hstep : ∀ t t', I t → l.next t = .again t' → I t') : ∀ t ∈ l.states s, I t := by
  intro t ht
  obtain ⟨before, after, hsplit⟩ := List.append_of_mem ht
  exact Loop.along (I := fun _ t => I t) h0 (fun _ => hstep) hsplit

/-- Keys that are compared with all the earlier ones are pairwise different. -/
theorem Loop.nodup_states {κ : Type} (key : σ → κ) (seen : σ → List κ)
    (h0 : seen s = [key s])
    (hstep : ∀ t t', l.next t = .again t' → seen t' = seen t ++ [key t'] ∧ key t' ∉ seen t) :
    ((l.states s).map key).Nodup := by
  obtain ⟨before, t, hsplit, -⟩ := l.last_states s
  have hseen : seen t = (before ++ [t]).map key ∧ (seen t).Nodup := by
    refine Loop.along (I := fun before t => seen t = (before ++ [t]).map key ∧ (seen t).Nodup)
      ⟨h0, h0 ▸ List.nodup_singleton _⟩ ?_ hsplit
    rintro before t t' ⟨hseen, hnodup⟩ hnext
    obtain ⟨heq, hnew⟩ := hstep t t' hnext
    refine ⟨by rw [heq, hseen, List.map_append, List.map_append, List.map_append]; rfl, ?_⟩
    rw [heq]
    exact List.nodup_append.mpr ⟨hnodup, List.nodup_singleton _, fun a ha b hb => by
      rw [List.mem_singleton] at hb
      rintro rfl
      exact hnew (hb ▸ ha)⟩
  rw [hsplit, ← hseen.1]
  exact hseen.2

end Rounds
