import Mathlib
set_option autoImplicit false

/-! Programs that change a state and may raise. What they changed before they raise stays. -/

namespace Effects

section Rules
variable {ε σ α β : Type} {R : σ → σ → Prop}

/-- The state that a program leaves, whether it returns or raises. -/
def stateOf : EStateM.Result ε σ α → σ
  | .ok _ s => s
  | .error _ s => s

/-- Every run of the program leaves a state that `R` relates to the one it starts in. -/
def Moves (R : σ → σ → Prop) (m : EStateM ε σ α) : Prop := ∀ s, R s (stateOf (m s))

def reading : Except ε α → EStateM ε σ α
  | .ok a => fun s => .ok a s
  | .error e => fun s => .error e s

theorem bind_eq_ok {m : EStateM ε σ α} {f : α → EStateM ε σ β} {s s' : σ} {b : β} :
    (m >>= f) s = .ok b s' ↔ ∃ a t, m s = .ok a t ∧ f a t = .ok b s' := by
  change EStateM.bind m f s = _ ↔ _
  unfold EStateM.bind
  cases m s with
  | ok a t =>
    constructor
    · exact fun h => ⟨a, t, rfl, h⟩
    · rintro ⟨_, _, h, hf⟩
      cases h
      exact hf
  | error e t =>
    constructor
    · intro h
      cases h
    · rintro ⟨_, _, h, _⟩
      cases h

theorem pure_eq_ok {s s' : σ} {a b : α} :
    (pure a : EStateM ε σ α) s = .ok b s' ↔ b = a ∧ s' = s := by
  change EStateM.Result.ok a s = _ ↔ _
  rw [EStateM.Result.ok.injEq, eq_comm, eq_comm (a := s)]

theorem reading_eq_ok {x : Except ε α} {s s' : σ} {a : α} :
    (reading x : EStateM ε σ α) s = .ok a s' ↔ x = .ok a ∧ s' = s := by
  cases x with
  | ok b => simp [reading, eq_comm]
  | error e => simp [reading]

theorem moves_pure [Std.Refl R] (a : α) : Moves R (pure a : EStateM ε σ α) := fun s => refl_of R s

theorem moves_reading [Std.Refl R] (x : Except ε α) : Moves R (reading x) := by
  intro s
  cases x with
  | ok a => exact refl_of R s
  | error e => exact refl_of R s

theorem moves_bind [IsTrans σ R] {m : EStateM ε σ α} {f : α → EStateM ε σ β} (hm : Moves R m)
    (hf : ∀ a, Moves R (f a)) : Moves R (m >>= f) := by
  intro s
  have hs := hm s
  change R s (stateOf (EStateM.bind m f s))
  unfold EStateM.bind
  cases hms : m s with
  | ok a t =>
    rw [hms] at hs
    exact trans_of R hs (hf a t)
  | error e t =>
    rw [hms] at hs
    exact hs

theorem moves_mapM [Std.Refl R] [IsTrans σ R] {f : α → EStateM ε σ β} (hf : ∀ a, Moves R (f a))
    (l : List α) : Moves R (l.mapM f) := by
  induction l with
  | nil => exact moves_pure []
  | cons a l ih =>
    rw [List.mapM_cons]
    exact moves_bind (hf a) fun b => moves_bind ih fun bs => moves_pure (b :: bs)

/-- What every step of a loop leaves of its element holds at the end, when later steps keep it. -/
theorem mapM_eq_ok [Std.Refl R] [IsTrans σ R] {f : α → EStateM ε σ β} (hf : ∀ a, Moves R (f a))
    {P : α → β → σ → Prop} (hstep : ∀ a s b t, f a s = .ok b t → P a b t)
    (hkeep : ∀ a b s t, R s t → P a b s → P a b t) {l : List α} {s t : σ} {bs : List β}
    (h : l.mapM f s = .ok bs t) : List.Forall₂ (fun a b => P a b t) l bs := by
  induction l generalizing s bs with
  | nil =>
    cases h
    exact .nil
  | cons a l ih =>
    rw [List.mapM_cons] at h
    obtain ⟨b, s₁, hb, h⟩ := bind_eq_ok.mp h
    obtain ⟨bs, s₂, hbs, h⟩ := bind_eq_ok.mp h
    cases h
    have hmoved : R s₁ t := by
      have hl := moves_mapM hf l s₁
      rw [hbs] at hl
      exact hl
    exact .cons (hkeep a b s₁ t hmoved (hstep a s b s₁ hb)) (ih hbs)

end Rules

end Effects
