import Mathlib
set_option autoImplicit false

/-! Text as lists of characters: the line splitting of `str.splitlines`, the newline
translation of text files, and how splitting undoes concatenation of whole lines. -/

namespace Python

abbrev Str := List Char

instance Str.lawfulBEq : LawfulBEq Str := inferInstance

def isBoundary (c : Char) : Bool :=
  c == '\n' || c == '\r' || c == '\x0b' || c == '\x0c' || c == '\x1c' || c == '\x1d' ||
  c == '\x1e' || c == '\x85' || c == '\u2028' || c == '\u2029'

def consFirst (c : Char) : List Str → List Str
  | [] => [[c]]
  | l :: ls => (c :: l) :: ls

def splitlinesKeep : Str → List Str
  | [] => []
  | '\r' :: '\n' :: cs => ['\r', '\n'] :: splitlinesKeep cs
  | c :: cs => if isBoundary c then [c] :: splitlinesKeep cs else consFirst c (splitlinesKeep cs)

def chomp (l : Str) : Str :=
  match l.reverse with
  | '\n' :: '\r' :: body => body.reverse
  | c :: body => if isBoundary c then body.reverse else l
  | [] => []

def splitlines (text : Str) : List Str := (splitlinesKeep text).map chomp

/-- Text-mode reading with `newline=None`. -/
def universalNewlines : Str → Str
  | [] => []
  | '\r' :: '\n' :: cs => '\n' :: universalNewlines cs
  | '\r' :: cs => '\n' :: universalNewlines cs
  | c :: cs => c :: universalNewlines cs

def Terminated (l : Str) : Prop :=
  ∃ body b, l = body ++ [b] ∧ isBoundary b = true ∧ b ≠ '\r' ∧ ∀ c ∈ body, isBoundary c = false

/-- A nonempty piece without any boundary: the last line of a text that does not end in one. -/
def Bare (l : Str) : Prop := l ≠ [] ∧ ∀ c ∈ l, isBoundary c = false

/-- What `splitlines(keepends=True)` returns on a text without carriage returns. -/
inductive IsLines : List Str → Prop where
  | nil : IsLines []
  | last {u : Str} : Bare u → IsLines [u]
  | cons {l : Str} {ls : List Str} : Terminated l → IsLines ls → IsLines (l :: ls)

@[simp] theorem splitlinesKeep_nil : splitlinesKeep [] = [] := rfl

theorem splitlinesKeep_crlf (cs : Str) :
    splitlinesKeep ('\r' :: '\n' :: cs) = ['\r', '\n'] :: splitlinesKeep cs := rfl

theorem splitlinesKeep_step {c : Char} {cs : Str}
    (hc : ∀ cs', c = '\r' → cs = '\n' :: cs' → False) :
    splitlinesKeep (c :: cs) =
      if isBoundary c then [c] :: splitlinesKeep cs else consFirst c (splitlinesKeep cs) := by
  conv => lhs; unfold splitlinesKeep
  split
  · rename_i h
    cases h
  · rename_i cs' h
    cases h
    exact (hc cs' rfl rfl).elim
  · rename_i h
    cases h
    rfl

theorem splitlinesKeep_cons {c : Char} (hc : c ≠ '\r') (cs : Str) :
    splitlinesKeep (c :: cs) =
      if isBoundary c then [c] :: splitlinesKeep cs else consFirst c (splitlinesKeep cs) :=
  splitlinesKeep_step fun _ h _ => hc h

theorem splitlinesKeep_bare_append (u s : Str) (hu : ∀ c ∈ u, isBoundary c = false)
    (hs : s ≠ []) :
    splitlinesKeep (u ++ s) =
      match splitlinesKeep s with
      | [] => [u]
      | l :: ls => (u ++ l) :: ls := by
  induction u with
  | nil =>
    cases h : splitlinesKeep s with
    | nil =>
      exfalso
      unfold splitlinesKeep at h
      split at h
      · exact hs rfl
      · simp at h
      · rename_i c cs _
        split at h
        · simp at h
        · cases hcs : splitlinesKeep cs <;> simp [consFirst, hcs] at h
    | cons l ls => simp [h]
  | cons c u ih =>
    have hc := hu c (by simp)
    have hcr : c ≠ '\r' := by rintro rfl; simp [isBoundary] at hc
    have hi := ih (fun d hd => hu d (by simp [hd]))
    rw [List.cons_append, splitlinesKeep_cons hcr, hi]
    cases h : splitlinesKeep s <;> simp [hc, consFirst]

theorem splitlinesKeep_bare {u : Str} (hu : Bare u) : splitlinesKeep u = [u] := by
  obtain ⟨hne, hu⟩ := hu
  induction u with
  | nil => exact absurd rfl hne
  | cons c u ih =>
    have hc := hu c (by simp)
    have hcr : c ≠ '\r' := by rintro rfl; simp [isBoundary] at hc
    rw [splitlinesKeep_cons hcr]
    cases u with
    | nil => simp [hc, consFirst]
    | cons d u =>
      rw [ih (by simp) (fun e he => hu e (by simp [he]))]
      simp [hc, consFirst]

theorem splitlinesKeep_terminated_append {l : Str} (hl : Terminated l) (s : Str) :
    splitlinesKeep (l ++ s) = l :: splitlinesKeep s := by
  obtain ⟨body, b, rfl, hb, hbr, hbody⟩ := hl
  have h1 : splitlinesKeep (b :: s) = [b] :: splitlinesKeep s := by
    rw [splitlinesKeep_cons hbr]; simp [hb]
  rw [List.append_assoc, splitlinesKeep_bare_append body _ hbody (by simp), List.singleton_append, h1]

theorem splitlinesKeep_flatten {ls : List Str} (h : IsLines ls) :
    splitlinesKeep ls.flatten = ls := by
  induction h with
  | nil => rfl
  | last hu => simpa using splitlinesKeep_bare hu
  | cons hl _ ih => rw [List.flatten_cons, splitlinesKeep_terminated_append hl, ih]

theorem isLines_consFirst {c : Char} (hc : isBoundary c = false) {ls : List Str}
    (h : IsLines ls) : IsLines (consFirst c ls) := by
  cases h with
  | nil => exact .last ⟨by simp, by simpa using hc⟩
  | last hu =>
    refine .last ⟨by simp, ?_⟩
    intro d hd
    rcases List.mem_cons.mp hd with rfl | hd
    · exact hc
    · exact hu.2 d hd
  | cons hl hls =>
    obtain ⟨body, b, rfl, hb, hbr, hbody⟩ := hl
    refine .cons ⟨c :: body, b, rfl, hb, hbr, ?_⟩ hls
    intro d hd
    rcases List.mem_cons.mp hd with rfl | hd
    · exact hc
    · exact hbody d hd

theorem isLines_splitlinesKeep {s : Str} (h : '\r' ∉ s) : IsLines (splitlinesKeep s) := by
  induction s with
  | nil => exact .nil
  | cons c cs ih =>
    have hc : c ≠ '\r' := by rintro rfl; simp at h
    have hi := ih (fun hm => h (by simp [hm]))
    rw [splitlinesKeep_cons hc]
    by_cases hb : isBoundary c = true
    · rw [if_pos hb]
      exact .cons ⟨[], c, rfl, hb, hc, by simp⟩ hi
    · rw [if_neg hb]
      exact isLines_consFirst (by simpa using hb) hi

theorem cr_not_mem_universalNewlines (s : Str) : '\r' ∉ universalNewlines s := by
  induction s using universalNewlines.induct with
  | case1 => simp [universalNewlines]
  | case2 cs ih => simpa [universalNewlines] using ih
  | case3 cs _ ih => simpa [universalNewlines] using ih
  | case4 c cs _ hc ih =>
    have hcr : c ≠ '\r' := hc
    simp [universalNewlines, ih, hcr.symm]

theorem universalNewlines_of_not_mem {s : Str} (h : '\r' ∉ s) : universalNewlines s = s := by
  induction s with
  | nil => rfl
  | cons c cs ih =>
    have hc : c ≠ '\r' := by rintro rfl; simp at h
    rw [universalNewlines, ih (fun hm => h (by simp [hm]))]
    · rintro cs' rfl; exact absurd rfl hc
    · rintro rfl; exact absurd rfl hc

theorem terminated_cons {c : Char} (hc : isBoundary c = false) {l : Str} (hl : Terminated l) :
    Terminated (c :: l) := by
  obtain ⟨body, b, rfl, hb, hbr, hbody⟩ := hl
  refine ⟨c :: body, b, rfl, hb, hbr, ?_⟩
  intro d hd
  rcases List.mem_cons.mp hd with rfl | hd
  · exact hc
  · exact hbody d hd

theorem bare_cons {c : Char} (hc : isBoundary c = false) {l : Str}
    (hl : ∀ d ∈ l, isBoundary d = false) : Bare (c :: l) := by
  refine ⟨by simp, ?_⟩
  intro d hd
  rcases List.mem_cons.mp hd with rfl | hd
  · exact hc
  · exact hl d hd

theorem chomp_terminated {body : Str} {b : Char} (hb : isBoundary b = true)
    (hbody : ∀ c ∈ body, isBoundary c = false) : chomp (body ++ [b]) = body := by
  have hcr : '\r' ∉ body.reverse := by
    intro hm
    have h := hbody '\r' (List.mem_reverse.mp hm)
    simp [isBoundary] at h
  obtain ⟨r, rfl⟩ : ∃ r : Str, body = r.reverse := ⟨body.reverse, by simp⟩
  rw [List.reverse_reverse] at hcr
  cases r with
  | nil => simp [chomp, hb]
  | cons d r =>
    have hd : d ≠ '\r' := by rintro rfl; simp at hcr
    simp [chomp, hb, hd]

theorem chomp_bare {u : Str} (hu : ∀ c ∈ u, isBoundary c = false) : chomp u = u := by
  unfold chomp
  split
  · rename_i t ht
    have hm : '\n' ∈ u := by rw [← List.mem_reverse, ht]; simp
    exact absurd (hu _ hm) (by decide)
  · rename_i c t _ ht
    have hm : c ∈ u := by rw [← List.mem_reverse, ht]; simp
    simp [hu c hm]
  · rename_i ht
    simpa using ht.symm

theorem IsLines.sublist {ls ls' : List Str} (h : IsLines ls) : ls'.Sublist ls → IsLines ls' := by
  induction h generalizing ls' with
  | nil => intro hs; rw [List.sublist_nil.mp hs]; exact .nil
  | @last u hu =>
    intro hs
    cases hs with
    | cons _ hs => rw [List.sublist_nil.mp hs]; exact .nil
    | cons_cons _ hs => rw [List.sublist_nil.mp hs]; exact .last hu
  | cons hl _ ih =>
    intro hs
    cases hs with
    | cons _ hs => exact ih hs
    | cons_cons _ hs => exact .cons hl (ih hs)

theorem IsLines.map_cons {c : Char} (hc : isBoundary c = false) {ls : List Str} (h : IsLines ls) :
    IsLines (ls.map (c :: ·)) := by
  induction h with
  | nil => exact .nil
  | last hu => exact .last (bare_cons hc hu.2)
  | cons hl _ ih => exact .cons (terminated_cons hc hl) ih

theorem isLines_of_terminated {ls : List Str} (h : ∀ l ∈ ls, Terminated l) : IsLines ls := by
  induction ls with
  | nil => exact .nil
  | cons l ls ih => exact .cons (h l (by simp)) (ih fun m hm => h m (by simp [hm]))

theorem IsLines.append {xs ys : List Str} (hx : ∀ l ∈ xs, Terminated l) (hy : IsLines ys) :
    IsLines (xs ++ ys) := by
  induction xs with
  | nil => exact hy
  | cons l xs ih => exact .cons (hx l (by simp)) (ih fun m hm => hx m (by simp [hm]))

theorem IsLines.cons_inv {l : Str} {ls : List Str} (h : IsLines (l :: ls)) (hne : ls ≠ []) :
    Terminated l ∧ IsLines ls := by
  cases h with
  | last => exact absurd rfl hne
  | cons hl hls => exact ⟨hl, hls⟩

theorem IsLines.append_inv {xs ys : List Str} (h : IsLines (xs ++ ys)) (hy : ys ≠ []) :
    (∀ l ∈ xs, Terminated l) ∧ IsLines ys := by
  induction xs with
  | nil => exact ⟨by simp, h⟩
  | cons l xs ih =>
    have hne : xs ++ ys ≠ [] := by simp [hy]
    obtain ⟨hl, hls⟩ := IsLines.cons_inv (l := l) (by simpa using h) hne
    · obtain ⟨h1, h2⟩ := ih hls
      refine ⟨fun m hm => ?_, h2⟩
      rcases List.mem_cons.mp hm with rfl | hm
      · exact hl
      · exact h1 m hm

theorem splitlinesKeep_ne_nil {s : Str} (hs : s ≠ []) : splitlinesKeep s ≠ [] := by
  intro h
  have hb := splitlinesKeep_bare_append [] s (by simp) hs
  rw [h] at hb
  rw [List.nil_append, h] at hb
  simp at hb

theorem ne_nil_of_mem_splitlinesKeep {s l : Str} (h : l ∈ splitlinesKeep s) : l ≠ [] := by
  induction s using splitlinesKeep.induct with
  | case1 => simp at h
  | case2 cs ih =>
    rw [splitlinesKeep_crlf] at h
    rcases List.mem_cons.mp h with rfl | h
    · simp
    · exact ih h
  | case3 c cs hcs hb ih =>
    rw [splitlinesKeep_step hcs, if_pos hb] at h
    rcases List.mem_cons.mp h with rfl | h
    · simp
    · exact ih h
  | case4 c cs hcs hb ih =>
    rw [splitlinesKeep_step hcs, if_neg hb] at h
    unfold consFirst at h
    split at h
    · rw [List.mem_singleton.mp h]; simp
    · rename_i l' ls hls
      rcases List.mem_cons.mp h with rfl | h
      · simp
      · exact ih (by rw [hls]; simp [h])

theorem chomp_bare_append {u l : Str} (hu : ∀ c ∈ u, isBoundary c = false) (hl : l ≠ []) :
    chomp (u ++ l) = u ++ chomp l := by
  obtain ⟨r, rfl⟩ : ∃ r, l = r.reverse := ⟨l.reverse, by simp⟩
  obtain ⟨v, rfl⟩ : ∃ v, u = v.reverse := ⟨u.reverse, by simp⟩
  have hcr : ∀ t, v ≠ '\r' :: t := by
    rintro t rfl
    have h := hu '\r' (by simp)
    simp [isBoundary] at h
  cases r with
  | nil => simp at hl
  | cons c r =>
    cases r with
    | nil =>
      cases v with
      | nil => simp
      | cons d v =>
        have hd : d ≠ '\r' := by rintro rfl; exact hcr v rfl
        by_cases hb : isBoundary c = true <;> simp [chomp, hb, hd]
    | cons d r =>
      by_cases hcd : c = '\n' ∧ d = '\r'
      · obtain ⟨rfl, rfl⟩ := hcd
        simp [chomp]
      · by_cases hb : isBoundary c = true
        · by_cases hc : c = '\n'
          · have hd : d ≠ '\r' := fun h => hcd ⟨hc, h⟩
            simp [chomp, hb, hd]
          · simp [chomp, hb, hc]
        · have hc : c ≠ '\n' := by rintro rfl; exact hb rfl
          simp [chomp, hb, hc]

theorem splitlines_terminated_append {l : Str} (hl : Terminated l) (s : Str) :
    splitlines (l ++ s) = chomp l :: splitlines s := by
  rw [splitlines, splitlinesKeep_terminated_append hl, List.map_cons, splitlines]

theorem splitlines_bare {u : Str} (hu : Bare u) : splitlines u = [u] := by
  rw [splitlines, splitlinesKeep_bare hu, List.map_singleton, chomp_bare hu.2]

/-- An unterminated piece runs into the first line of what follows it. -/
theorem splitlines_bare_append {u s : Str} (hu : ∀ c ∈ u, isBoundary c = false) (hs : s ≠ []) :
    ∃ l ls, splitlines s = l :: ls ∧ splitlines (u ++ s) = (u ++ l) :: ls := by
  have h := splitlinesKeep_bare_append u s hu hs
  have hne := splitlinesKeep_ne_nil hs
  have hmem := @ne_nil_of_mem_splitlinesKeep s
  unfold splitlines
  cases hk : splitlinesKeep s with
  | nil => exact absurd hk hne
  | cons l ls =>
    rw [hk] at h hmem
    refine ⟨chomp l, ls.map chomp, by simp, ?_⟩
    rw [h, List.map_cons, chomp_bare_append hu (hmem (by simp))]

theorem splitlines_flatten {ls : List Str} (h : IsLines ls) :
    splitlines ls.flatten = ls.map chomp := by
  rw [splitlines, splitlinesKeep_flatten h]

def Piece (p : Str) : Prop := Terminated p ∨ Bare p

theorem Piece.ne_nil {p : Str} (h : Piece p) : p ≠ [] := by
  rcases h with ⟨body, b, rfl, _⟩ | h
  · simp
  · exact h.1

theorem piece_cons {c : Char} (hc : isBoundary c = false) {l : Str} (h : Piece l) :
    Piece (c :: l) := by
  rcases h with h | h
  · exact .inl (terminated_cons hc h)
  · exact .inr (bare_cons hc h.2)

theorem IsLines.piece {ls : List Str} (h : IsLines ls) : ∀ l ∈ ls, Piece l := by
  induction h with
  | nil => simp
  | last hu => intro l hl; rw [List.mem_singleton.mp hl]; exact .inr hu
  | cons hl _ ih =>
    intro m hm
    rcases List.mem_cons.mp hm with rfl | hm
    · exact .inl hl
    · exact ih m hm

section Counting
variable {P : Str → Bool} (hP : ∀ u s, u ≠ [] → P (u ++ s) = true → P u = true)
include hP

theorem countP_bare_append {u s : Str} (hu : Bare u) :
    (splitlines (u ++ s)).countP P ≤ (if P u then 1 else 0) + (splitlines s).countP P := by
  by_cases hs : s = []
  · subst hs
    rw [List.append_nil, splitlines_bare hu, List.countP_singleton]
    omega
  · obtain ⟨l, ls, h1, h2⟩ := splitlines_bare_append hu.2 hs
    rw [h1, h2, List.countP_cons, List.countP_cons]
    have h := hP u l hu.1
    by_cases hul : P (u ++ l) = true
    · simp only [hul, h hul, if_true]; omega
    · simp only [hul]
      simp only [Bool.false_eq_true, if_false]
      omega

theorem countP_splitlines_le {ps : List Str} (hps : ∀ p ∈ ps, Piece p) :
    (splitlines ps.flatten).countP P ≤ (ps.map chomp).countP P := by
  induction ps with
  | nil => simp [splitlines]
  | cons p ps ih =>
    have hi := ih fun q hq => hps q (by simp [hq])
    rw [List.flatten_cons, List.map_cons, List.countP_cons]
    rcases hps p (by simp) with hp | hp
    · rw [splitlines_terminated_append hp, List.countP_cons]
      omega
    · have h := countP_bare_append hP (s := ps.flatten) hp
      rw [chomp_bare hp.2]
      omega

/-- A piece satisfying `P` that is glued to an unterminated one without it is lost. -/
theorem countP_splitlines_lt {pre post : List Str} {p q : Str}
    (hps : ∀ r ∈ pre ++ p :: q :: post, Piece r) (hp : Bare p) (hpP : P p = false)
    (hqP : P (chomp q) = true) :
    (splitlines (pre ++ p :: q :: post).flatten).countP P <
      ((pre ++ p :: q :: post).map chomp).countP P := by
  induction pre with
  | nil =>
    have hq := hps q (by simp)
    have hpieces : ∀ r ∈ post, Piece r := fun r hr => hps r (by simp [hr])
    have hpost := countP_splitlines_le hP hpieces
    have hne : q ++ post.flatten ≠ [] := by simp [hq.ne_nil]
    obtain ⟨l, ls, h1, h2⟩ := splitlines_bare_append hp.2 hne
    have hls : ls.countP P ≤ (splitlines post.flatten).countP P := by
      rcases hq with hq | hq
      · rw [splitlines_terminated_append hq] at h1
        injection h1 with _ h1
        rw [h1]
      · by_cases hs : post.flatten = []
        · rw [hs, List.append_nil, splitlines_bare hq] at h1
          injection h1 with _ h1
          rw [← h1]
          simp
        · obtain ⟨l', ls', h3, h4⟩ := splitlines_bare_append hq.2 hs
          rw [h4] at h1
          injection h1 with _ h1
          rw [h3, h1, List.countP_cons]
          omega
    have hpl : P (p ++ l) = false := by
      by_contra hc
      rw [hP p l hp.1 (by simpa using hc)] at hpP
      cases hpP
    simp only [List.nil_append, List.flatten_cons, List.map_cons, List.countP_cons, h2, hpl, hqP,
      if_true, Bool.false_eq_true, if_false]
    omega
  | cons x pre ih =>
    have hi := ih fun r hr => hps r (by simp only [List.cons_append, List.mem_cons]; exact .inr hr)
    rw [List.cons_append, List.flatten_cons, List.map_cons, List.countP_cons]
    rcases hps x (by simp) with hx | hx
    · rw [splitlines_terminated_append hx, List.countP_cons]
      omega
    · have h := countP_bare_append hP (s := (pre ++ p :: q :: post).flatten) hx
      rw [chomp_bare hx.2]
      omega

end Counting

end Python
