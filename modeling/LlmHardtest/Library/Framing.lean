import Mathlib.Data.List.Basic
set_option autoImplicit false

/-! Records that end with a delimiter, read from a stream that arrives in chunks. A reader takes one
stretch of a chunk at a time: up to a delimiter, or up to the end of the chunk. -/

namespace Framing
variable {α S : Type} (isEnd : α → Bool)

/-- The stretches of a chunk, each with whether a delimiter ended it. -/
def stretches : List α → List (List α × Bool)
  | [] => []
  | a :: as =>
      if isEnd a then ([], true) :: stretches as
      else
        match stretches as with
        | [] => [([a], false)]
        | (x, ended) :: rest => (a :: x, ended) :: rest

variable (take : S → List α → Bool → S)

/-- What a reader makes of a chunk. -/
def feed (s : S) (chunk : List α) : S :=
  (stretches isEnd chunk).foldl (fun t p => take t p.1 p.2) s

/-- The reader does not see where a record was cut. -/
def Divisible : Prop :=
  ∀ s x y ended, y ≠ [] ∨ ended = true → take (take s x false) y ended = take s (x ++ y) ended

section Stretches
variable {isEnd} {x as : List α} {d : α}

variable (isEnd) in
theorem cut (as : List α) : (∀ a ∈ as, isEnd a = false) ∨
    ∃ x d rest, as = x ++ d :: rest ∧ (∀ a ∈ x, isEnd a = false) ∧ isEnd d = true := by
  induction as with
  | nil => exact .inl (by simp)
  | cons a as ih =>
    cases ha : isEnd a with
    | true => exact .inr ⟨[], a, as, rfl, by simp, ha⟩
    | false =>
      rcases ih with h | ⟨x, d, rest, rfl, hx, hd⟩
      · exact .inl (by simpa [ha] using h)
      · exact .inr ⟨a :: x, d, rest, rfl, by simpa [ha] using hx, hd⟩

theorem stretches_open (hx : ∀ a ∈ x, isEnd a = false) (hne : x ≠ []) :
    stretches isEnd x = [(x, false)] := by
  induction x with
  | nil => exact absurd rfl hne
  | cons a x ih =>
    rw [stretches, if_neg (by simp [hx a])]
    cases x with
    | nil => rfl
    | cons b x => rw [ih (fun c hc => hx c (List.mem_cons_of_mem _ hc)) (by simp)]

theorem stretches_ended (hx : ∀ a ∈ x, isEnd a = false) (hd : isEnd d = true) :
    stretches isEnd (x ++ d :: as) = (x, true) :: stretches isEnd as := by
  induction x with
  | nil => rw [List.nil_append, stretches, if_pos hd]
  | cons a x ih =>
    rw [List.cons_append, stretches, if_neg (by simp [hx a]),
      ih fun c hc => hx c (List.mem_cons_of_mem _ hc)]

theorem stretches_eq (as : List α) :
    stretches isEnd as = (as.splitOnP isEnd).dropLast.map (fun x => (x, true)) ++
      if (as.splitOnP isEnd).getLastD [] = [] then [] else [((as.splitOnP isEnd).getLastD [], false)] := by
  induction hn : as.length using Nat.strongRecOn generalizing as with
  | ind n ih =>
    rcases cut isEnd as with h | ⟨x, d, rest, rfl, hx, hd⟩
    · rw [List.splitOnP_eq_singleton h]
      by_cases hne : as = []
      · subst hne
        simp [stretches]
      · rw [stretches_open h hne]
        simp [hne]
    · have hlen : rest.length < n := by
        rw [← hn, List.length_append, List.length_cons]
        omega
      rw [stretches_ended hx hd, ih _ hlen rest rfl, List.splitOnP_append_cons_of_forall_mem hx d hd]
      have hrest := List.splitOnP_ne_nil isEnd rest
      cases hs : rest.splitOnP isEnd with
      | nil => exact absurd hs hrest
      | cons r rs => simp

end Stretches

section Chunks
variable {isEnd take} (h : Divisible take) (s : S) {x as : List α} {d : α}
include h

theorem feed_open_append (hx : ∀ a ∈ x, isEnd a = false) (hne : x ≠ []) (as : List α) :
    feed isEnd take (take s x false) as = feed isEnd take s (x ++ as) := by
  rcases cut isEnd as with has | ⟨y, d, rest, rfl, hy, hd⟩
  · by_cases hnil : as = []
    · subst hnil
      rw [List.append_nil, feed, feed, stretches_open hx hne]
      rfl
    · have hall : ∀ a ∈ x ++ as, isEnd a = false := fun a ha =>
        (List.mem_append.mp ha).elim (hx a) (has a)
      rw [feed, feed, stretches_open has hnil, stretches_open hall (by simp [hne])]
      exact h s x as false (.inl hnil)
  · have hall : ∀ a ∈ x ++ y, isEnd a = false := fun a ha =>
      (List.mem_append.mp ha).elim (hx a) (hy a)
    rw [← List.append_assoc, feed, feed, stretches_ended hy hd, stretches_ended hall hd,
      List.foldl_cons, List.foldl_cons, h s x y true (.inr rfl)]

/-- A reader makes of two chunks what it makes of them in one. -/
theorem feed_append (as bs : List α) :
    feed isEnd take (feed isEnd take s as) bs = feed isEnd take s (as ++ bs) := by
  induction hn : as.length using Nat.strongRecOn generalizing as s with
  | ind n ih =>
    rcases cut isEnd as with has | ⟨x, d, rest, rfl, hx, hd⟩
    · by_cases hnil : as = []
      · subst hnil
        rfl
      · rw [feed.eq_def isEnd take s as, stretches_open has hnil]
        exact feed_open_append h s has hnil bs
    · have hlen : rest.length < n := by
        rw [← hn, List.length_append, List.length_cons]
        omega
      have hstep : ∀ t, feed isEnd take s (x ++ d :: t) = feed isEnd take (take s x true) t := by
        intro t
        rw [feed, stretches_ended hx hd, List.foldl_cons]
        rfl
      rw [List.append_assoc, List.cons_append, hstep, hstep, ih _ hlen (take s x true) rest rfl]

end Chunks

end Framing
