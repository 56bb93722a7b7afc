import LlmHardtest.Python.Difflib
set_option autoImplicit false

/-! The opcodes of `SequenceMatcher` as an edit script: every opcode starts where the previous
one stopped, `equal` ranges agree, and two changes are never adjacent. Grouping only shortens
`equal` ranges. -/

namespace Python.Difflib

section Matcher
variable {α : Type}

structure Match.Ok (a b : List α) (alo ahi blo bhi : Nat) (m : Match) : Prop where
  ilo : alo ≤ m.i
  ihi : m.i + m.size ≤ ahi
  jlo : blo ≤ m.j
  jhi : m.j + m.size ≤ bhi
  agree : ∀ t < m.size, a[m.i + t]? = b[m.j + t]?

/-- The dictionary `j2len` before row `i`: an entry `(j, k)` says that `k` elements ending at
`a[i-1]` and `b[j]` agree. -/
def RowOk (a b : List α) (alo blo bhi i : Nat) (row : List (Nat × Nat)) : Prop :=
  ∀ e ∈ row, 1 ≤ e.2 ∧ e.2 + alo ≤ i ∧ e.2 + blo ≤ e.1 + 1 ∧ e.1 < bhi ∧
    ∀ t < e.2, a[i - 1 - t]? = b[e.1 - t]?

theorem lookup_mem {β γ : Type} [BEq β] [LawfulBEq β] {row : List (β × γ)} {j : β} {k : γ}
    (h : row.lookup j = some k) : (j, k) ∈ row := by
  induction row with
  | nil => simp at h
  | cons e row ih =>
    obtain ⟨j', k'⟩ := e
    rw [List.lookup_cons] at h
    by_cases hj : j == j'
    · simp only [hj, Option.some.injEq] at h
      subst h
      rw [eq_of_beq hj]
      simp
    · simp only [hj] at h
      exact List.mem_cons_of_mem _ (ih h)

theorem entry_ok {a b : List α} {alo blo bhi i j : Nat} {j2len : List (Nat × Nat)}
    (hrow : RowOk a b alo blo bhi i j2len) (hi : alo ≤ i) (hlo : blo ≤ j) (hhi : j < bhi)
    (hij : a[i]? = b[j]?) (k : Nat)
    (hk : k = (if j = 0 then 0 else (j2len.lookup (j - 1)).getD 0) + 1) :
    1 ≤ k ∧ k + alo ≤ i + 1 ∧ k + blo ≤ j + 1 ∧ j < bhi ∧ ∀ t < k, a[i - t]? = b[j - t]? := by
  have hone : k = 1 → 1 ≤ k ∧ k + alo ≤ i + 1 ∧ k + blo ≤ j + 1 ∧ j < bhi ∧
      ∀ t < k, a[i - t]? = b[j - t]? := by
    rintro rfl
    refine ⟨le_refl _, by omega, by omega, hhi, fun t ht => ?_⟩
    obtain rfl : t = 0 := by omega
    simpa using hij
  by_cases hj : j = 0
  · exact hone (by simp [hk, hj])
  cases hl : j2len.lookup (j - 1) with
  | none => exact hone (by simp [hk, hj, hl])
  | some k' =>
    obtain ⟨h1, h2, h3, _, h5⟩ := hrow _ (lookup_mem hl)
    have hk' : k = k' + 1 := by simp [hk, hj, hl]
    refine ⟨by omega, by omega, by simp only at h3; omega, hhi, fun t ht => ?_⟩
    cases t with
    | zero => simpa using hij
    | succ t =>
      have h := h5 t (by omega)
      have e1 : i - 1 - t = i - (t + 1) := by omega
      have e2 : j - 1 - t = j - (t + 1) := by omega
      simpa [e1, e2] using h

theorem scanRow_ok {a b : List α} {alo ahi blo bhi i : Nat} {j2len : List (Nat × Nat)}
    (hrow : RowOk a b alo blo bhi i j2len) (hi : alo ≤ i) (hih : i < ahi) :
    ∀ (js : List Nat) (acc : List (Nat × Nat)) (best : Match),
      (∀ j ∈ js, blo ≤ j ∧ j < bhi ∧ a[i]? = b[j]?) →
      RowOk a b alo blo bhi (i + 1) acc → best.Ok a b alo ahi blo bhi →
      RowOk a b alo blo bhi (i + 1) (scanRow i j2len js acc best).1 ∧
        (scanRow i j2len js acc best).2.Ok a b alo ahi blo bhi := by
  intro js
  induction js with
  | nil => intro acc best _ hacc hbest; exact ⟨hacc, hbest⟩
  | cons j js ih =>
    intro acc best hjs hacc hbest
    obtain ⟨hlo, hhi, hij⟩ := hjs j (by simp)
    generalize hk : (if j = 0 then 0 else (j2len.lookup (j - 1)).getD 0) + 1 = k
    obtain ⟨k1, k2, k3, k4, k5⟩ := entry_ok hrow hi hlo hhi hij k hk.symm
    simp only [scanRow, hk]
    apply ih
    · exact fun j' hj' => hjs j' (by simp [hj'])
    · intro e he
      rcases List.mem_cons.mp he with rfl | he
      · exact ⟨k1, k2, k3, k4, by simpa using k5⟩
      · exact hacc e he
    · split
      · refine ⟨by simp only; omega, by simp only; omega, by simp only; omega,
          by simp only; omega, fun t ht => ?_⟩
        have h := k5 (k - 1 - t) (by simp only at ht; omega)
        have e1 : i - (k - 1 - t) = i + 1 - k + t := by simp only at ht; omega
        have e2 : j - (k - 1 - t) = j + 1 - k + t := by simp only at ht; omega
        simpa [e1, e2] using h
      · exact hbest

theorem mem_b2j [DecidableEq α] {b : List α} {x : α} {j : Nat} (h : j ∈ b2j b x) : b[j]? = some x := by
  unfold b2j at h
  split at h
  · simp at h
  · simpa using (List.mem_filter.mp h).2

theorem scanRows_ok [DecidableEq α] {a b : List α} {alo ahi blo bhi : Nat} (n : Nat) :
    ∀ (i : Nat) (j2len : List (Nat × Nat)) (best : Match), alo ≤ i → i + n ≤ ahi →
      RowOk a b alo blo bhi i j2len → best.Ok a b alo ahi blo bhi →
      (scanRows a b blo bhi (List.range' i n) j2len best).Ok a b alo ahi blo bhi := by
  induction n with
  | zero => intro i j2len best _ _ _ hbest; exact hbest
  | succ n ih =>
    intro i j2len best hi hn hrow hbest
    rw [List.range'_succ]
    simp only [scanRows]
    have h := fun js hjs => scanRow_ok hrow hi (show i < ahi by omega) js [] best hjs
      (by intro e he; simp at he) hbest
    refine (fun hjs => ih (i + 1) _ _ (by omega) (by omega) (h _ hjs).1 (h _ hjs).2) ?_
    intro j hj
    cases hx : a[i]? with
    | none => simp [hx] at hj
    | some x =>
      simp only [hx, List.mem_filter, Bool.and_eq_true, decide_eq_true_eq] at hj
      exact ⟨hj.2.1, hj.2.2, (mem_b2j hj.1).symm⟩

theorem extendLeft_ok [DecidableEq α] {a b : List α} {alo ahi blo bhi : Nat} (fuel : Nat) :
    ∀ m : Match, m.Ok a b alo ahi blo bhi →
      (extendLeft a b alo blo fuel m).Ok a b alo ahi blo bhi := by
  induction fuel with
  | zero => intro m hm; exact hm
  | succ fuel ih =>
    intro m hm
    simp only [extendLeft]
    split
    · rename_i h
      obtain ⟨hi, hj, he⟩ := h
      have h1 := hm.ihi
      have h2 := hm.jhi
      refine ih _ ⟨by simp only; omega, by simp only; omega, by simp only; omega,
        by simp only; omega, fun t ht => ?_⟩
      cases t with
      | zero => simpa using he
      | succ t =>
        have h := hm.agree t (by simp only at ht; omega)
        have e1 : m.i - 1 + (t + 1) = m.i + t := by omega
        have e2 : m.j - 1 + (t + 1) = m.j + t := by omega
        simpa [e1, e2] using h
    · exact hm

theorem extendRight_ok [DecidableEq α] {a b : List α} {alo ahi blo bhi : Nat} (fuel : Nat) :
    ∀ m : Match, m.Ok a b alo ahi blo bhi →
      (extendRight a b ahi bhi fuel m).Ok a b alo ahi blo bhi := by
  induction fuel with
  | zero => intro m hm; exact hm
  | succ fuel ih =>
    intro m hm
    simp only [extendRight]
    split
    · rename_i h
      obtain ⟨hi, hj, he⟩ := h
      refine ih _ ⟨hm.ilo, by simp only; omega, hm.jlo, by simp only; omega, fun t ht => ?_⟩
      rcases Nat.lt_or_ge t m.size with hlt | hge
      · exact hm.agree t hlt
      · obtain rfl : t = m.size := by simp only at ht; omega
        exact he
    · exact hm

theorem findLongestMatch_ok [DecidableEq α] {a b : List α} {alo ahi blo bhi : Nat} (hi : alo ≤ ahi)
    (hj : blo ≤ bhi) :
    (findLongestMatch a b alo ahi blo bhi).Ok a b alo ahi blo bhi := by
  unfold findLongestMatch
  apply extendRight_ok
  apply extendLeft_ok
  apply scanRows_ok _ _ _ _ (le_refl _) (by omega) (by intro e he; simp at he)
  exact ⟨le_refl _, by simpa using hi, le_refl _, by simpa using hj, fun t ht => absurd ht (by simp)⟩

/-- Blocks in increasing order between the corners `(i, j)` and `(i', j')`. -/
def Blocks (a b : List α) : Nat → Nat → Nat → Nat → List Match → Prop
  | i, j, i', j', [] => i ≤ i' ∧ j ≤ j'
  | i, j, i', j', m :: ms =>
      i ≤ m.i ∧ j ≤ m.j ∧ 0 < m.size ∧ (∀ t < m.size, a[m.i + t]? = b[m.j + t]?) ∧
        Blocks a b (m.i + m.size) (m.j + m.size) i' j' ms

theorem Blocks.append {a b : List α} {i' j' : Nat} {m : Match} {right : List Match}
    (hs : 0 < m.size) (he : ∀ t < m.size, a[m.i + t]? = b[m.j + t]?)
    (hr : Blocks a b (m.i + m.size) (m.j + m.size) i' j' right) :
    ∀ {left : List Match} {i j : Nat}, Blocks a b i j m.i m.j left →
      Blocks a b i j i' j' (left ++ m :: right) := by
  intro left
  induction left with
  | nil => intro i j hl; exact ⟨hl.1, hl.2, hs, he, hr⟩
  | cons x left ih => intro i j hl; exact ⟨hl.1, hl.2.1, hl.2.2.1, hl.2.2.2.1, ih hl.2.2.2.2⟩

theorem matchQueue_blocks [DecidableEq α] {a b : List α} (fuel : Nat) :
    ∀ {alo ahi blo bhi : Nat}, alo ≤ ahi → blo ≤ bhi →
      Blocks a b alo blo ahi bhi (matchQueue a b fuel alo ahi blo bhi) := by
  induction fuel with
  | zero => intro alo ahi blo bhi hi hj; exact ⟨hi, hj⟩
  | succ fuel ih =>
    intro alo ahi blo bhi hi hj
    have hm := findLongestMatch_ok (a := a) (b := b) hi hj
    simp only [matchQueue]
    generalize findLongestMatch a b alo ahi blo bhi = m at hm
    split
    · exact ⟨hi, hj⟩
    · rename_i hs
      refine Blocks.append (by omega) hm.agree ?_ ?_
      · split
        · exact ih hm.ihi hm.jhi
        · exact ⟨hm.ihi, hm.jhi⟩
      · split
        · exact ih hm.ilo hm.jlo
        · exact ⟨hm.ilo, hm.jlo⟩

theorem mergeAdjacent_blocks {a b : List α} {i' j' : Nat} :
    ∀ (ms : List Match) (m : Match) {i j : Nat}, i ≤ m.i → j ≤ m.j →
      (∀ t < m.size, a[m.i + t]? = b[m.j + t]?) →
      Blocks a b (m.i + m.size) (m.j + m.size) i' j' ms →
      Blocks a b i j i' j' (mergeAdjacent m ms) := by
  intro ms
  induction ms with
  | nil =>
    intro m i j hi hj he h
    have h' : m.i + m.size ≤ i' ∧ m.j + m.size ≤ j' := h
    simp only [mergeAdjacent]
    split
    · exact ⟨by omega, by omega⟩
    · exact ⟨hi, hj, by omega, he, h⟩
  | cons next rest ih =>
    intro m i j hi hj he h
    obtain ⟨h1, h2, h3, h4, h5⟩ := h
    simp only [mergeAdjacent]
    split
    · rename_i hadj
      refine ih _ hi hj (fun t ht => ?_) ?_
      · rcases Nat.lt_or_ge t m.size with hlt | hge
        · exact he t hlt
        · have h := h4 (t - m.size) (by simp only at ht; omega)
          have e1 : next.i + (t - m.size) = m.i + t := by omega
          have e2 : next.j + (t - m.size) = m.j + t := by omega
          rwa [e1, e2] at h
      · have e1 : m.i + (m.size + next.size) = next.i + next.size := by omega
        have e2 : m.j + (m.size + next.size) = next.j + next.size := by omega
        simpa only [e1, e2] using h5
    · split
      · exact ih next (by omega) (by omega) h4 h5
      · exact ⟨hi, hj, by omega, he, ih next h1 h2 h4 h5⟩

def Opcode.Ok (a b : List α) (c : Opcode) : Prop :=
  match c.tag with
  | .equal => c.i1 < c.i2 ∧ c.j1 < c.j2 ∧ c.i2 - c.i1 = c.j2 - c.j1 ∧
      ∀ t < c.i2 - c.i1, a[c.i1 + t]? = b[c.j1 + t]?
  | .replace => c.i1 < c.i2 ∧ c.j1 < c.j2
  | .delete => c.i1 < c.i2 ∧ c.j1 = c.j2
  | .insert => c.i1 = c.i2 ∧ c.j1 < c.j2

/-- Contiguous opcodes from `(i, j)` to `(i', j')`, a change followed by nothing or by `equal`. -/
def Script (a b : List α) : Nat → Nat → Nat → Nat → List Opcode → Prop
  | i, j, i', j', [] => i = i' ∧ j = j'
  | i, j, i', j', c :: cs =>
      c.i1 = i ∧ c.j1 = j ∧ c.Ok a b ∧ (c.tag ≠ .equal → ∀ d ∈ cs.head?, d.tag = .equal) ∧
        Script a b c.i2 c.j2 i' j' cs

theorem Opcode.Ok.le {a b : List α} {c : Opcode} (h : c.Ok a b) :
    c.i1 ≤ c.i2 ∧ c.j1 ≤ c.j2 ∧ (c.i1 < c.i2 ∨ c.j1 < c.j2) := by
  unfold Opcode.Ok at h
  split at h <;> omega

theorem Script.le {a b : List α} {i' j' : Nat} :
    ∀ {cs : List Opcode} {i j : Nat}, Script a b i j i' j' cs → i ≤ i' ∧ j ≤ j' := by
  intro cs
  induction cs with
  | nil => intro i j h; exact ⟨le_of_eq h.1, le_of_eq h.2⟩
  | cons c cs ih =>
    intro i j h
    obtain ⟨rfl, rfl, hok, _, hs⟩ := h
    have h1 := ih hs
    have h2 := hok.le
    omega

theorem opcodesFrom_script {a b : List α} {la lb : Nat} :
    ∀ {ms : List Match} {i j : Nat}, Blocks a b i j la lb ms →
      Script a b i j la lb (opcodesFrom i j (ms ++ [⟨la, lb, 0⟩])) := by
  intro ms
  induction ms with
  | nil =>
    intro i j h
    obtain ⟨hi, hj⟩ : i ≤ la ∧ j ≤ lb := h
    simp only [List.nil_append, opcodesFrom, gapOpcode]
    rcases Nat.lt_or_ge i la with h1 | h1 <;> rcases Nat.lt_or_ge j lb with h2 | h2
    · simp [h1, h2, Script, Opcode.Ok]
    · obtain rfl : j = lb := by omega
      simp [h1, Script, Opcode.Ok]
    · obtain rfl : i = la := by omega
      simp [h2, Script, Opcode.Ok]
    · obtain rfl : i = la := by omega
      obtain rfl : j = lb := by omega
      simp [Script]
  | cons m ms ih =>
    intro i j h
    obtain ⟨hi, hj, hs, he, hb⟩ := h
    have hrest := ih hb
    have heq : Script a b m.i m.j la lb
        (⟨.equal, m.i, m.i + m.size, m.j, m.j + m.size⟩ ::
          opcodesFrom (m.i + m.size) (m.j + m.size) (ms ++ [⟨la, lb, 0⟩])) := by
      refine ⟨rfl, rfl, ?_, by simp, hrest⟩
      simp only [Opcode.Ok]
      refine ⟨by omega, by omega, by omega, fun t ht => he t (by omega)⟩
    have hne : ¬ m.size = 0 := by omega
    simp only [List.cons_append, opcodesFrom, gapOpcode, hne, if_false]
    rcases Nat.lt_or_ge i m.i with h1 | h1 <;> rcases Nat.lt_or_ge j m.j with h2 | h2
    · simp only [h1, h2, and_self, if_true]
      exact ⟨rfl, rfl, ⟨h1, h2⟩, by simp, heq⟩
    · obtain rfl : j = m.j := by omega
      simp only [h1, lt_irrefl, and_false, if_false, if_true]
      exact ⟨rfl, rfl, ⟨h1, rfl⟩, by simp, heq⟩
    · obtain rfl : i = m.i := by omega
      simp only [h2, lt_irrefl, false_and, if_false, if_true]
      exact ⟨rfl, rfl, ⟨rfl, h2⟩, by simp, heq⟩
    · obtain rfl : i = m.i := by omega
      obtain rfl : j = m.j := by omega
      simpa using heq

/-- The opcodes of any two lists read both from end to end. -/
theorem getOpcodes_script [DecidableEq α] (a b : List α) :
    Script a b 0 0 a.length b.length (getOpcodes a b) := by
  unfold getOpcodes getMatchingBlocks
  apply opcodesFrom_script
  refine mergeAdjacent_blocks _ _ (le_refl 0) (le_refl 0) (fun t ht => absurd ht (by simp)) ?_
  exact matchQueue_blocks _ (Nat.zero_le _) (Nat.zero_le _)

end Matcher

end Python.Difflib
