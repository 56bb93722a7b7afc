import Mathlib.Data.List.Basic
set_option autoImplicit false

/-! Work that may be tried again after a failure and never after a success. -/

namespace OnceOnly

/-- What happens to one piece of work, each with the attempt that did it. -/
inductive Event where
  | began (attempt : Nat)
  | succeeded (attempt : Nat)
  | failed (attempt : Nat)
  deriving DecidableEq, Repr

inductive Stage where
  | free
  | held (attempt : Nat)
  | finished
  deriving DecidableEq, Repr

def Stage.next : Stage → Event → Option Stage
  | .free, .began i => some (.held i)
  | .held i, .succeeded j => if i = j then some .finished else none
  | .held i, .failed j => if i = j then some .free else none
  | _, _ => none

/-- Where a history leaves the work; `none` when it breaks the rules. -/
def Stage.after (st : Stage) : List Event → Option Stage
  | [] => some st
  | e :: es => (st.next e).bind fun st => st.after es

variable {st st' : Stage} {es es' : List Event} {e : Event} {i j : Nat}

theorem Stage.after_append (st : Stage) (es es' : List Event) :
    st.after (es ++ es') = (st.after es).bind fun st => st.after es' := by
  induction es generalizing st with
  | nil => rfl
  | cons e es ih =>
    rw [List.cons_append, Stage.after, Stage.after]
    cases st.next e with
    | none => rfl
    | some st => exact ih st

theorem Stage.after_concat (h : st.after es = some st') : st.after (es ++ [e]) = st'.next e := by
  rw [Stage.after_append, h, Option.bind_some, Stage.after]
  cases st'.next e <;> rfl

theorem finished_after (h : Stage.finished.after es = some st) : es = [] := by
  cases es with
  | nil => rfl
  | cons e es => cases e <;> cases h

/-- A history that keeps the rules. -/
structure Once (es : List Event) : Prop where
  success_last : ∀ pre i post, es = pre ++ .succeeded i :: post → post = []
  retried : ∀ pre i mid j post, es = pre ++ .began i :: (mid ++ .began j :: post) → .failed i ∈ mid
  own : ∀ pre i post, es = pre ++ .succeeded i :: post → ∃ before, pre = before ++ [.began i]

theorem failed_of_began (h : (Stage.held i).after (es ++ .began j :: es') = some st) :
    .failed i ∈ es := by
  cases es with
  | nil => cases h
  | cons e es =>
    cases e with
    | began k => cases h
    | succeeded k =>
      exfalso
      rw [List.cons_append, Stage.after, Stage.next] at h
      split at h
      · exact absurd (finished_after h) (by simp)
      · cases h
    | failed k =>
      rw [List.cons_append, Stage.after, Stage.next] at h
      split at h
      · rename_i hik
        exact hik ▸ List.mem_cons_self
      · cases h

theorem held_last (h : Stage.free.after es = some (.held i)) : ∃ before, es = before ++ [.began i] := by
  rcases List.eq_nil_or_concat es with rfl | ⟨before, e, rfl⟩
  · cases h
  · rw [List.concat_eq_append] at h ⊢
    rw [Stage.after_append] at h
    obtain ⟨st, -, h⟩ := Option.bind_eq_some_iff.mp h
    rw [Stage.after] at h
    obtain ⟨st', hnext, h⟩ := Option.bind_eq_some_iff.mp h
    cases h
    refine ⟨before, ?_⟩
    cases st with
    | free =>
      cases e with
      | began k =>
        cases hnext
        rfl
      | succeeded k => cases hnext
      | failed k => cases hnext
    | held k =>
      cases e with
      | began l => cases hnext
      | succeeded l =>
        rw [Stage.next] at hnext
        split at hnext <;> cases hnext
      | failed l =>
        rw [Stage.next] at hnext
        split at hnext <;> cases hnext
    | finished => cases e <;> cases hnext

theorem once_of_after (h : Stage.free.after es = some st) : Once es where
  success_last pre i post he := by
    subst he
    rw [Stage.after_append] at h
    obtain ⟨st', -, h⟩ := Option.bind_eq_some_iff.mp h
    rw [Stage.after] at h
    obtain ⟨st'', hnext, h⟩ := Option.bind_eq_some_iff.mp h
    have hfin : st'' = .finished := by
      cases st' with
      | free => cases hnext
      | finished => cases hnext
      | held k =>
        rw [Stage.next] at hnext
        split at hnext
        · exact (Option.some.inj hnext).symm
        · cases hnext
    subst hfin
    exact finished_after h
  retried pre i mid j post he := by
    subst he
    rw [Stage.after_append] at h
    obtain ⟨st', -, h⟩ := Option.bind_eq_some_iff.mp h
    rw [Stage.after] at h
    obtain ⟨st'', hnext, h⟩ := Option.bind_eq_some_iff.mp h
    have hheld : st'' = .held i := by
      cases st' with
      | free => exact (Option.some.inj hnext).symm
      | finished => cases hnext
      | held k => cases hnext
    subst hheld
    exact failed_of_began h
  own pre i post he := by
    subst he
    rw [Stage.after_append] at h
    obtain ⟨st', hpre, h⟩ := Option.bind_eq_some_iff.mp h
    rw [Stage.after] at h
    obtain ⟨st'', hnext, -⟩ := Option.bind_eq_some_iff.mp h
    cases st' with
    | free => cases hnext
    | finished => cases hnext
    | held k =>
      rw [Stage.next] at hnext
      split at hnext
      · rename_i hki
        subst hki
        exact held_last hpre
      · cases hnext

end OnceOnly
