import LlmHardtest.Python.EditScript
set_option autoImplicit false

/-! `difflib.unified_diff` on lists of lines with three lines of context, and the lines its
output holds: grouping drops context only, and the rendered pieces are whole lines unless the
old text's unterminated last line is replaced. -/

namespace Python.Difflib

def Opcode.isChange (c : Opcode) : Bool := c.tag != .equal

def minusPart (a : List Str) (c : Opcode) : List Str :=
  if c.tag = .replace ∨ c.tag = .delete then (slice a c.i1 c.i2).map ('-' :: ·) else []

def plusPart (b : List Str) (c : Opcode) : List Str :=
  if c.tag = .replace ∨ c.tag = .insert then (slice b c.j1 c.j2).map ('+' :: ·) else []

def renderCode (a b : List Str) (c : Opcode) : List Str :=
  if c.tag = .equal then (slice a c.i1 c.i2).map (' ' :: ·) else minusPart a c ++ plusPart b c

def formatRange (start stop : Nat) : Str :=
  let beginning := start + 1
  let length := stop - start
  if length = 1 then Nat.toDigits 10 beginning
  else
    let beginning := if length = 0 then beginning - 1 else beginning
    Nat.toDigits 10 beginning ++ ",".toList ++ Nat.toDigits 10 length

def hunkHeader (group : List Opcode) : Str :=
  let first := group.headD ⟨.equal, 0, 0, 0, 0⟩
  let last := group.getLastD ⟨.equal, 0, 0, 0, 0⟩
  "@@ -".toList ++ formatRange first.i1 last.i2 ++ " +".toList ++
    formatRange first.j1 last.j2 ++ " @@\n".toList

def renderGroup (a b : List Str) (group : List Opcode) : List Str :=
  hunkHeader group :: group.flatMap (renderCode a b)

def fileHeader (fromfile tofile : Str) : List Str :=
  ["--- ".toList ++ fromfile ++ ['\n'], "+++ ".toList ++ tofile ++ ['\n']]

def groupsOf (a b : List Str) : List (List Opcode) := getGroupedOpcodes 3 (getOpcodes a b)

def unifiedDiff (a b : List Str) (fromfile tofile : Str) : List Str :=
  let groups := groupsOf a b
  if groups.isEmpty then [] else fileHeader fromfile tofile ++ groups.flatMap (renderGroup a b)

def removedLines (a b : List Str) : List (Nat × Str) :=
  (getOpcodes a b).flatMap fun c =>
    if c.tag = .replace ∨ c.tag = .delete then (slice a c.i1 c.i2).zipIdx c.i1 |>.map Prod.swap
    else []

def insertedLines (a b : List Str) : List Str :=
  (getOpcodes a b).flatMap fun c =>
    if c.tag = .replace ∨ c.tag = .insert then slice b c.j1 c.j2 else []

def endsBare (a : List Str) : Bool :=
  match a.getLast? with
  | some u => u.all fun c => !isBoundary c
  | none => false

/-- The old text's last line has no terminator and new lines replace it: their first one is
printed onto the same output line. -/
def swallows (a b : List Str) : Bool :=
  endsBare a && (getOpcodes a b).any fun c => decide (c.tag = .replace) && c.i2 == a.length

theorem slice_sublist (l : List Str) (i j : Nat) : (slice l i j).Sublist l :=
  (List.take_sublist _ _).trans (List.drop_sublist _ _)

theorem slice_getElem? {α : Type} (l : List α) (i j t : Nat) :
    (slice l i j)[t]? = if t < j - i then l[i + t]? else none := by
  unfold slice
  rw [List.getElem?_take]
  split <;> simp [List.getElem?_drop]

theorem slice_congr {α : Type} {a b : List α} {i1 i2 j1 j2 : Nat} (hl : i2 - i1 = j2 - j1)
    (h : ∀ t < i2 - i1, a[i1 + t]? = b[j1 + t]?) : slice a i1 i2 = slice b j1 j2 := by
  apply List.ext_getElem?
  intro t
  rw [slice_getElem?, slice_getElem?, ← hl]
  split
  · exact h t (by assumption)
  · rfl

/-- A slice that stops before the end of a text holds terminated lines only. -/
theorem terminated_of_mem_slice {ls : List Str} (h : IsLines ls) {i j : Nat} (hj : j < ls.length)
    {l : Str} (hl : l ∈ slice ls i j) : Terminated l := by
  have hmem : l ∈ ls.take j := by
    unfold slice at hl
    rw [List.take_drop] at hl
    have := List.mem_of_mem_drop hl
    rcases Nat.lt_or_ge j i with hji | hij
    · have e : i + (j - i) = i := by omega
      rw [e] at hl
      rw [List.drop_take] at hl
      simp at hl
    · have e : i + (j - i) = j := by omega
      rwa [e] at this
  have hsplit : IsLines (ls.take j ++ ls.drop j) := by rwa [List.take_append_drop]
  have hne : ls.drop j ≠ [] := by
    intro he
    have := congrArg List.length he
    simp at this
    omega
  exact (hsplit.append_inv hne).1 l hmem

theorem mem_minusPart {a : List Str} {c : Opcode} {l : Str} (h : l ∈ minusPart a c) :
    ∃ x ∈ slice a c.i1 c.i2, l = '-' :: x := by
  unfold minusPart at h
  split at h
  · obtain ⟨x, hx, rfl⟩ := List.mem_map.mp h
    exact ⟨x, hx, rfl⟩
  · simp at h

theorem mem_plusPart {b : List Str} {c : Opcode} {l : Str} (h : l ∈ plusPart b c) :
    ∃ x ∈ slice b c.j1 c.j2, l = '+' :: x := by
  unfold plusPart at h
  split at h
  · obtain ⟨x, hx, rfl⟩ := List.mem_map.mp h
    exact ⟨x, hx, rfl⟩
  · simp at h

theorem not_boundary_marks :
    isBoundary ' ' = false ∧ isBoundary '-' = false ∧ isBoundary '+' = false := by decide

theorem Script.head_extent {a b : List Str} {i j i' j' : Nat} {c : Opcode} {cs : List Opcode}
    (h : Script a b i j i' j' (c :: cs)) : i < i' ∨ j < j' := by
  obtain ⟨rfl, rfl, hok, _, hs⟩ := h
  have h1 := hok.le
  have h2 := hs.le
  omega

theorem Script.change_next {a b : List Str} {i j i' j' : Nat} {c : Opcode} {cs : List Opcode}
    (h : Script a b i j i' j' (c :: cs)) (hc : c.tag ≠ .equal) (hcs : cs ≠ []) :
    c.i2 < i' ∧ c.j2 < j' := by
  obtain ⟨_, _, _, halt, hs⟩ := h
  cases cs with
  | nil => exact absurd rfl hcs
  | cons d ds =>
    have hd : d.tag = .equal := halt hc d (by simp)
    obtain ⟨h1, h2, hok, _, hs⟩ := hs
    have h3 := hs.le
    unfold Opcode.Ok at hok
    rw [hd] at hok
    simp only at hok
    omega

theorem equal_slices {a b : List Str} {c : Opcode} (hc : c.tag = .equal) (h : c.Ok a b) :
    slice a c.i1 c.i2 = slice b c.j1 c.j2 := by
  unfold Opcode.Ok at h
  rw [hc] at h
  exact slice_congr h.2.2.1 h.2.2.2

theorem isLines_renderScript {a b : List Str} (ha : IsLines a) (hb : IsLines b) :
    ∀ {cs : List Opcode} {i j : Nat}, Script a b i j a.length b.length cs →
      (∀ c ∈ cs, c.tag = .replace → c.i2 = a.length → ∀ l ∈ a, Terminated l) →
      IsLines (cs.flatMap (renderCode a b)) := by
  intro cs
  induction cs with
  | nil => intro i j _ _; exact .nil
  | cons c cs ih =>
    intro i j h hrep
    have hrest : Script a b c.i2 c.j2 a.length b.length cs := h.2.2.2.2
    have htail := ih hrest fun d hd => hrep d (by simp [hd])
    have hok := h.2.2.1
    rw [List.flatMap_cons]
    by_cases hc : c.tag = .equal
    · simp only [renderCode, hc, if_true]
      by_cases hcs : cs = []
      · subst hcs
        simpa using (ha.sublist (slice_sublist a c.i1 c.i2)).map_cons not_boundary_marks.1
      · refine IsLines.append (fun l hl => ?_) htail
        obtain ⟨x, hx, rfl⟩ := List.mem_map.mp hl
        apply terminated_cons not_boundary_marks.1
        cases cs with
        | nil => exact absurd rfl hcs
        | cons d ds =>
          rcases hrest.head_extent with hlt | hlt
          · exact terminated_of_mem_slice ha hlt hx
          · rw [equal_slices hc hok] at hx
            exact terminated_of_mem_slice hb hlt hx
    · simp only [renderCode, hc, if_false]
      by_cases hcs : cs = []
      · subst hcs
        obtain ⟨hi, hj⟩ : c.i2 = a.length ∧ c.j2 = b.length := hrest
        have hminus : IsLines (minusPart a c) := by
          unfold minusPart
          split
          · exact (ha.sublist (slice_sublist a _ _)).map_cons not_boundary_marks.2.1
          · exact .nil
        have hplus : IsLines (plusPart b c) := by
          unfold plusPart
          split
          · exact (hb.sublist (slice_sublist b _ _)).map_cons not_boundary_marks.2.2
          · exact .nil
        simp only [List.flatMap_nil, List.append_nil]
        by_cases hr : c.tag = .replace
        · refine IsLines.append (fun l hl => ?_) hplus
          obtain ⟨x, hx, rfl⟩ := mem_minusPart hl
          exact terminated_cons not_boundary_marks.2.1
            (hrep c (by simp) hr hi x ((slice_sublist a _ _).subset hx))
        · cases htag : c.tag with
          | equal => exact absurd htag hc
          | replace => exact absurd htag hr
          | delete => simpa [plusPart, htag] using hminus
          | insert => simpa [minusPart, htag] using hplus
      · obtain ⟨hi, hj⟩ := h.change_next hc hcs
        refine IsLines.append (fun l hl => ?_) htail
        rcases List.mem_append.mp hl with hl | hl
        · obtain ⟨x, hx, rfl⟩ := mem_minusPart hl
          exact terminated_cons not_boundary_marks.2.1 (terminated_of_mem_slice ha hi hx)
        · obtain ⟨x, hx, rfl⟩ := mem_plusPart hl
          exact terminated_cons not_boundary_marks.2.2 (terminated_of_mem_slice hb hj hx)

/-! Grouping: changes are kept as they are, `equal` ranges only lose lines. -/

theorem slice_eq_drop_take {α : Type} (l : List α) (i j : Nat) :
    slice l i j = (l.take j).drop i := by
  unfold slice
  rw [List.drop_take]

theorem slice_mono {α : Type} (l : List α) {i j i' j' : Nat} (hi : i ≤ i') (hj : j' ≤ j) :
    (slice l i' j').Sublist (slice l i j) := by
  obtain ⟨d, rfl⟩ := Nat.exists_eq_add_of_le hi
  rw [slice_eq_drop_take, slice_eq_drop_take, ← List.drop_drop]
  exact (List.drop_sublist _ _).trans ((List.take_sublist_take_left hj).drop i)

theorem slice_append {α : Type} (l : List α) {i k j : Nat} (hi : i ≤ k) (hk : k ≤ j) :
    slice l i k ++ slice l k j = slice l i j := by
  unfold slice
  have h : l.drop k = (l.drop i).drop (k - i) := by
    rw [List.drop_drop]
    congr 1
    omega
  have hj : j - i = (k - i) + (j - k) := by omega
  rw [h, hj, List.take_add]

theorem slice_ends {α : Type} (l : List α) {i j n : Nat} (h : n + n < j - i) :
    (slice l i (min j (i + n)) ++ slice l (max i (j - n)) j).Sublist (slice l i j) := by
  have hsplit : slice l i (i + n) ++ slice l (i + n) j = slice l i j :=
    slice_append l (by omega) (by omega)
  rw [← hsplit]
  exact (slice_mono l (le_refl _) (by omega)).append (slice_mono l (by omega) (le_refl _))

theorem trimFirst_changes (n : Nat) (codes : List Opcode) :
    (trimFirst n codes).filter Opcode.isChange = codes.filter Opcode.isChange := by
  unfold trimFirst
  split <;> simp [Opcode.isChange]

theorem trimLast_changes (n : Nat) (codes : List Opcode) :
    (trimLast n codes).filter Opcode.isChange = codes.filter Opcode.isChange := by
  induction codes using trimLast.induct with
  | case1 => rfl
  | case2 => simp [trimLast, Opcode.isChange]
  | case3 c cs h ih => rw [trimLast, List.filter_cons, List.filter_cons, ih]; exact h

theorem groupCodes_changes (n : Nat) (codes group : List Opcode) :
    (groupCodes n codes group).flatten.filter Opcode.isChange =
      (group ++ codes).filter Opcode.isChange := by
  induction codes generalizing group with
  | nil =>
    unfold groupCodes
    split <;> simp [Opcode.isChange]
  | cons c cs ih =>
    unfold groupCodes
    split
    · rename_i h
      rw [List.flatten_cons, List.filter_append, ih]
      simp [Opcode.isChange, h.1]
    · rw [ih]
      simp

@[simp] theorem getGroupedOpcodes_nil (n : Nat) : getGroupedOpcodes n [] = [] := by
  have h : ¬ n + n < min 1 (1 - n + n) - (1 - n) := by omega
  simp [getGroupedOpcodes, trimFirst, trimLast, groupCodes, h]

theorem getGroupedOpcodes_cons (n : Nat) (c : Opcode) (cs : List Opcode) :
    getGroupedOpcodes n (c :: cs) = groupCodes n (trimLast n (trimFirst n (c :: cs))) [] := rfl

theorem groups_changes (n : Nat) (codes : List Opcode) :
    (getGroupedOpcodes n codes).flatten.filter Opcode.isChange =
      codes.filter Opcode.isChange := by
  cases codes with
  | nil => simp
  | cons c cs =>
    rw [getGroupedOpcodes_cons, groupCodes_changes, List.nil_append, trimLast_changes, trimFirst_changes]

/-- A function that ignores `equal` codes sees the same codes with and without grouping. -/
theorem flatMap_groups {β : Type} {f : Opcode → List β} (hf : ∀ c, c.tag = .equal → f c = [])
    (n : Nat) (codes : List Opcode) :
    (getGroupedOpcodes n codes).flatten.flatMap f = codes.flatMap f := by
  have key : ∀ l : List Opcode, l.flatMap f = (l.filter Opcode.isChange).flatMap f := by
    intro l
    induction l with
    | nil => rfl
    | cons c l ih =>
      by_cases hc : c.tag = .equal
      · have hch : c.isChange = false := by simp [Opcode.isChange, hc]
        simp [hch, hf c hc, ih]
      · have hch : c.isChange = true := by simp [Opcode.isChange, hc]
        simp [hch, ih]
  rw [key, groups_changes, ← key]

section Render
variable (a b : List Str)

theorem renderCode_equal {c : Opcode} (h : c.tag = .equal) :
    renderCode a b c = (slice a c.i1 c.i2).map (' ' :: ·) := by
  simp [renderCode, h]

theorem trimFirst_render (n : Nat) (codes : List Opcode) :
    ((trimFirst n codes).flatMap (renderCode a b)).Sublist (codes.flatMap (renderCode a b)) := by
  unfold trimFirst
  split
  · simp only [List.flatMap_cons, renderCode, if_true]
    exact ((slice_mono a (by omega) (le_refl _)).map _).append (List.Sublist.refl _)
  · exact List.Sublist.refl _

theorem trimLast_render (n : Nat) (codes : List Opcode) :
    ((trimLast n codes).flatMap (renderCode a b)).Sublist (codes.flatMap (renderCode a b)) := by
  induction codes using trimLast.induct with
  | case1 => exact List.Sublist.refl _
  | case2 i1 i2 j1 j2 =>
    simp only [trimLast, List.flatMap_cons, renderCode, if_true, List.flatMap_nil, List.append_nil]
    exact (slice_mono a (le_refl _) (by omega)).map _
  | case3 c cs h ih =>
    rw [trimLast, List.flatMap_cons, List.flatMap_cons]
    · exact (List.Sublist.refl _).append ih
    · exact h

theorem groupCodes_render (n : Nat) (codes group : List Opcode) :
    ((groupCodes n codes group).flatten.flatMap (renderCode a b)).Sublist
      ((group ++ codes).flatMap (renderCode a b)) := by
  induction codes generalizing group with
  | nil =>
    unfold groupCodes
    split <;> simp
  | cons c cs ih =>
    unfold groupCodes
    split
    · rename_i h
      obtain ⟨hc, hn⟩ := h
      have hsplit : (group ++ c :: cs).flatMap (renderCode a b) =
          group.flatMap (renderCode a b) ++ ((slice a c.i1 c.i2).map (' ' :: ·) ++
            cs.flatMap (renderCode a b)) := by
        simp [List.flatMap_append, renderCode_equal a b hc]
      have hends := ((slice_ends a hn).map (' ' :: ·)).append
        (List.Sublist.refl (cs.flatMap (renderCode a b)))
      rw [hsplit, List.flatten_cons, List.flatMap_append, List.flatMap_append, List.append_assoc]
      refine (List.Sublist.refl _).append (List.Sublist.trans ?_ hends)
      rw [List.map_append, List.append_assoc]
      simp only [List.flatMap_cons, List.flatMap_nil, List.append_nil, renderCode, hc, if_true]
      refine (List.Sublist.refl _).append ((ih _).trans ?_)
      simp [renderCode]
    · refine (ih _).trans ?_
      simp

theorem groups_render (n : Nat) (codes : List Opcode) :
    ((getGroupedOpcodes n codes).flatten.flatMap (renderCode a b)).Sublist
      (codes.flatMap (renderCode a b)) := by
  cases codes with
  | nil => simp
  | cons c cs =>
    rw [getGroupedOpcodes_cons]
    refine (groupCodes_render a b n _ _).trans ?_
    exact (trimLast_render a b n _).trans (trimFirst_render a b n _)

end Render

def Contiguous : Nat → List Opcode → Nat → Prop
  | i, [], i' => i = i'
  | i, c :: cs, i' => c.i1 = i ∧ c.i1 ≤ c.i2 ∧ Contiguous c.i2 cs i'

theorem Contiguous.append {xs ys : List Opcode} {i k i' : Nat} (hx : Contiguous i xs k)
    (hy : Contiguous k ys i') : Contiguous i (xs ++ ys) i' := by
  induction xs generalizing i with
  | nil => obtain rfl : i = k := hx; exact hy
  | cons c xs ih => exact ⟨hx.1, hx.2.1, ih hx.2.2⟩

theorem Contiguous.append_inv {xs ys : List Opcode} {i i' : Nat} (h : Contiguous i (xs ++ ys) i') :
    ∃ k, Contiguous i xs k ∧ Contiguous k ys i' := by
  induction xs generalizing i with
  | nil => exact ⟨i, rfl, h⟩
  | cons c xs ih =>
    obtain ⟨k, h1, h2⟩ := ih h.2.2
    exact ⟨k, ⟨h.1, h.2.1, h1⟩, h2⟩

theorem Contiguous.le {xs : List Opcode} {i i' : Nat} (h : Contiguous i xs i') : i ≤ i' := by
  induction xs generalizing i with
  | nil => exact le_of_eq h
  | cons c xs ih =>
    have h1 := ih h.2.2
    have h2 := h.1
    have h3 := h.2.1
    omega

theorem Contiguous.head {xs : List Opcode} {i i' : Nat} {d : Opcode} (h : Contiguous i xs i')
    (hne : xs ≠ []) : (xs.headD d).i1 = i := by
  cases xs with
  | nil => exact absurd rfl hne
  | cons c xs => exact h.1

theorem Contiguous.last {xs : List Opcode} {i i' : Nat} {d : Opcode} (h : Contiguous i xs i')
    (hne : xs ≠ []) : (xs.getLastD d).i2 = i' := by
  induction xs generalizing i d with
  | nil => exact absurd rfl hne
  | cons c xs ih =>
    cases xs with
    | nil => exact h.2.2
    | cons c' xs => exact ih (d := d) h.2.2 (by simp)

theorem Script.contiguous {α : Type} {a b : List α} {codes : List Opcode} {i j i' j' : Nat}
    (h : Script a b i j i' j' codes) : Contiguous i codes i' := by
  induction codes generalizing i j with
  | nil => exact h.1
  | cons c cs ih => exact ⟨h.1, h.2.2.1.le.1, ih h.2.2.2.2⟩

theorem trimFirst_contiguous {n i i' : Nat} {codes : List Opcode} (h : Contiguous i codes i') :
    ∃ k, Contiguous k (trimFirst n codes) i' := by
  unfold trimFirst
  split
  · obtain ⟨_, h2, h3⟩ := h
    exact ⟨_, rfl, by simp only at h2 ⊢; omega, h3⟩
  · exact ⟨i, h⟩

theorem trimLast_contiguous {n i i' : Nat} {codes : List Opcode} (h : Contiguous i codes i') :
    ∃ k, Contiguous i (trimLast n codes) k := by
  induction codes using trimLast.induct generalizing i with
  | case1 => exact ⟨i', h⟩
  | case2 i1 i2 j1 j2 =>
    obtain ⟨h1, h2, _⟩ := h
    exact ⟨_, h1, by simp only at h2 ⊢; omega, rfl⟩
  | case3 c cs hc ih =>
    obtain ⟨k, hk⟩ := ih h.2.2
    rw [trimLast]
    · exact ⟨k, h.1, h.2.1, hk⟩
    · exact hc

theorem groupCodes_contiguous {n i i' : Nat} {codes group : List Opcode}
    (h : Contiguous i (group ++ codes) i') :
    ∀ g ∈ groupCodes n codes group, g ≠ [] ∧ ∃ k k', Contiguous k g k' := by
  induction codes generalizing group i with
  | nil =>
    rw [List.append_nil] at h
    unfold groupCodes
    split
    · simp
    · simp
    · rename_i hne _
      intro g hg
      rw [List.mem_singleton.mp hg]
      exact ⟨hne, i, i', h⟩
  | cons c cs ih =>
    obtain ⟨k, hg, hc1, hc2, hcs⟩ := h.append_inv
    unfold groupCodes
    split
    · rename_i hn
      intro g hgm
      rcases List.mem_cons.mp hgm with rfl | hgm
      · refine ⟨by simp, i, min c.i2 (c.i1 + n), hg.append ⟨hc1, ?_, rfl⟩⟩
        simp only
        omega
      · have hrest : Contiguous (max c.i1 (c.i2 - n))
            ([⟨c.tag, max c.i1 (c.i2 - n), c.i2, max c.j1 (c.j2 - n), c.j2⟩] ++ cs) i' :=
          ⟨rfl, by simp only; omega, hcs⟩
        exact ih hrest g hgm
    · exact ih (by simpa using h)

theorem groups_contiguous {α : Type} [DecidableEq α] (a b : List α) (n : Nat) :
    ∀ g ∈ getGroupedOpcodes n (getOpcodes a b), g ≠ [] ∧ ∃ k k', Contiguous k g k' := by
  have h := (getOpcodes_script a b).contiguous
  generalize getOpcodes a b = codes at h
  cases codes with
  | nil => simp
  | cons c cs =>
    obtain ⟨k, h1⟩ := trimFirst_contiguous (n := n) h
    obtain ⟨k', h2⟩ := trimLast_contiguous (n := n) h1
    exact groupCodes_contiguous h2

section Stable
variable {Q : Opcode → Prop} {n : Nat}
  (hfront : ∀ i1 i2 j1 j2, Q ⟨.equal, i1, i2, j1, j2⟩ →
    Q ⟨.equal, i1, min i2 (i1 + n), j1, min j2 (j1 + n)⟩)
  (hback : ∀ i1 i2 j1 j2, Q ⟨.equal, i1, i2, j1, j2⟩ →
    Q ⟨.equal, max i1 (i2 - n), i2, max j1 (j2 - n), j2⟩)
include hfront hback

theorem groupCodes_forall {codes group : List Opcode} (hc : ∀ c ∈ codes, Q c)
    (hg : ∀ c ∈ group, Q c) : ∀ c ∈ (groupCodes n codes group).flatten, Q c := by
  induction codes generalizing group with
  | nil =>
    unfold groupCodes
    split
    · simp
    · simp
    · simpa using hg
  | cons c cs ih =>
    have hcs : ∀ d ∈ cs, Q d := fun d hd => hc d (by simp [hd])
    have hcc := hc c (by simp)
    unfold groupCodes
    split
    · rename_i hn
      obtain ⟨tag, i1, i2, j1, j2⟩ := c
      obtain rfl : tag = .equal := hn.1
      intro d hd
      simp only [List.flatten_cons, List.mem_append, List.mem_singleton] at hd
      rcases hd with (hd | rfl) | hd
      · exact hg d hd
      · exact hfront _ _ _ _ hcc
      · refine ih hcs (fun e he => ?_) d hd
        rw [List.mem_singleton.mp he]
        exact hback _ _ _ _ hcc
    · refine ih hcs fun d hd => ?_
      rcases List.mem_append.mp hd with hd | hd
      · exact hg d hd
      · rw [List.mem_singleton.mp hd]; exact hcc

theorem groups_forall {codes : List Opcode} (hc : ∀ c ∈ codes, Q c) :
    ∀ c ∈ (getGroupedOpcodes n codes).flatten, Q c := by
  have hfirst : ∀ {l : List Opcode}, (∀ c ∈ l, Q c) → ∀ c ∈ trimFirst n l, Q c := by
    intro l hl
    unfold trimFirst
    split
    · intro d hd
      rcases List.mem_cons.mp hd with rfl | hd
      · exact hback _ _ _ _ (hl _ (by simp))
      · exact hl d (by simp [hd])
    · exact hl
  have hlast : ∀ {l : List Opcode}, (∀ c ∈ l, Q c) → ∀ c ∈ trimLast n l, Q c := by
    intro l hl
    induction l using trimLast.induct with
    | case1 => simp [trimLast]
    | case2 i1 i2 j1 j2 =>
      intro d hd
      rw [trimLast, List.mem_singleton] at hd
      rw [hd]
      exact hfront _ _ _ _ (hl _ (by simp))
    | case3 c cs h ih =>
      intro d hd
      rw [trimLast] at hd
      · rcases List.mem_cons.mp hd with rfl | hd
        · exact hl _ (by simp)
        · exact ih (fun e he => hl e (by simp [he])) d hd
      · exact h
  cases codes with
  | nil => simp
  | cons c cs =>
    rw [getGroupedOpcodes_cons]
    exact groupCodes_forall hfront hback (hlast (hfirst hc)) (by simp)

end Stable

def Opcode.Visible (a b : List Str) (c : Opcode) : Prop :=
  if c.tag = .insert then c.i1 = c.i2 ∧ c.i2 ≤ a.length ∧ c.j1 < c.j2 ∧ c.j2 ≤ b.length
  else c.i1 < c.i2 ∧ c.i2 ≤ a.length

theorem Script.visible {a b : List Str} {codes : List Opcode} {i j i' j' : Nat}
    (h : Script a b i j i' j' codes) (hi : i' ≤ a.length) (hj : j' ≤ b.length) :
    ∀ c ∈ codes, c.Visible a b := by
  induction codes generalizing i j with
  | nil => simp
  | cons c cs ih =>
    obtain ⟨_, _, hok, _, hs⟩ := h
    have hle := hs.le
    intro d hd
    rcases List.mem_cons.mp hd with rfl | hd
    · unfold Opcode.Ok at hok
      unfold Opcode.Visible
      cases htag : d.tag <;> simp only [htag] at hok <;> simp <;> omega
    · exact ih hs d hd

theorem Script.mem_ok {α : Type} {a b : List α} {codes : List Opcode} {i j i' j' : Nat}
    (h : Script a b i j i' j' codes) : ∀ c ∈ codes, c.Ok a b ∧ c.i2 ≤ i' ∧ c.j2 ≤ j' := by
  induction codes generalizing i j with
  | nil => simp
  | cons c cs ih =>
    obtain ⟨_, _, hok, _, hs⟩ := h
    intro d hd
    rcases List.mem_cons.mp hd with rfl | hd
    · exact ⟨hok, hs.le⟩
    · exact ih hs d hd

theorem insertedLines_sublist (a b : List Str) : (insertedLines a b).Sublist b := by
  have key : ∀ {codes : List Opcode} {i j : Nat}, Script a b i j a.length b.length codes →
      (codes.flatMap fun c => if c.tag = .replace ∨ c.tag = .insert then slice b c.j1 c.j2
        else []).Sublist (b.drop j) := by
    intro codes
    induction codes with
    | nil => intro i j _; exact List.nil_sublist _
    | cons c cs ih =>
      intro i j h
      obtain ⟨_, rfl, hok, _, hs⟩ := h
      have hle := hok.le
      have hrest := ih hs
      have hsplit : b.drop c.j1 = slice b c.j1 c.j2 ++ b.drop c.j2 := by
        have h := (List.take_append_drop (c.j2 - c.j1) (b.drop c.j1)).symm
        rw [List.drop_drop] at h
        have e : c.j1 + (c.j2 - c.j1) = c.j2 := by omega
        rwa [e] at h
      rw [List.flatMap_cons, hsplit]
      refine List.Sublist.append ?_ hrest
      split
      · exact List.Sublist.refl _
      · exact List.nil_sublist _
  have h := key (getOpcodes_script a b)
  simpa [insertedLines] using h

theorem slice_ne_nil {α : Type} {l : List α} {i j : Nat} (h : i < j) (hj : j ≤ l.length) :
    slice l i j ≠ [] := by
  intro he
  have hlen := congrArg List.length he
  simp [slice] at hlen
  omega

theorem Opcode.Visible.render {a b : List Str} {c : Opcode} (h : c.Visible a b) :
    renderCode a b c ≠ [] := by
  unfold Opcode.Visible at h
  unfold renderCode minusPart plusPart
  cases htag : c.tag <;> simp [htag] at h ⊢
  · exact slice_ne_nil h.1 h.2
  · exact fun hs => absurd hs (slice_ne_nil h.1 h.2)
  · exact slice_ne_nil h.1 h.2
  · exact slice_ne_nil h.2.2.1 h.2.2.2

theorem groups_visible (a b : List Str) : ∀ c ∈ (groupsOf a b).flatten, c.Visible a b := by
  have h := (getOpcodes_script a b).visible (le_refl _) (le_refl _)
  refine groups_forall ?_ ?_ h
  · intro i1 i2 j1 j2 hv
    simp only [Opcode.Visible, reduceCtorEq, if_false] at hv ⊢
    omega
  · intro i1 i2 j1 j2 hv
    simp only [Opcode.Visible, reduceCtorEq, if_false] at hv ⊢
    omega

theorem renderGroup_body_ne_nil {a b : List Str} {g : List Opcode} (hg : g ∈ groupsOf a b) :
    g.flatMap (renderCode a b) ≠ [] := by
  have hne := (groups_contiguous a b 3 g hg).1
  cases g with
  | nil => exact absurd rfl hne
  | cons c g =>
    have hc := groups_visible a b c (List.mem_flatten.mpr ⟨_, hg, by simp⟩)
    rw [List.flatMap_cons]
    intro h
    exact hc.render (List.append_eq_nil_iff.mp h).1

theorem not_boundary_of_isDigit {c : Char} (h : c.isDigit = true) : isBoundary c = false := by
  by_contra hb
  have hb : isBoundary c = true := by simpa using hb
  simp only [isBoundary, Bool.or_eq_true, beq_iff_eq] at hb
  rcases hb with ((((((((rfl | rfl) | rfl) | rfl) | rfl) | rfl) | rfl) | rfl) | rfl) | rfl <;>
    simp at h

theorem mem_formatRange {start stop : Nat} {c : Char} (h : c ∈ formatRange start stop) :
    c.isDigit = true ∨ c = ',' := by
  unfold formatRange at h
  simp only at h
  split at h
  · exact .inl (Nat.isDigit_of_mem_toDigits (by omega) (by omega) h)
  · simp only [List.mem_append] at h
    rcases h with (h | h) | h
    · exact .inl (Nat.isDigit_of_mem_toDigits (by omega) (by omega) h)
    · exact .inr (by simpa using h)
    · exact .inl (Nat.isDigit_of_mem_toDigits (by omega) (by omega) h)

theorem not_boundary_of_all {s : Str} (h : (s.all fun c => !isBoundary c) = true) :
    ∀ c ∈ s, isBoundary c = false := by
  simpa using h

theorem terminated_line {body : Str} (h : ∀ c ∈ body, isBoundary c = false) :
    Terminated (body ++ ['\n']) :=
  ⟨body, '\n', rfl, rfl, by decide, h⟩

def hunkText (g : List Opcode) : Str :=
  "@@ -".toList ++ formatRange (g.headD ⟨.equal, 0, 0, 0, 0⟩).i1
    (g.getLastD ⟨.equal, 0, 0, 0, 0⟩).i2 ++ " +".toList ++ formatRange
    (g.headD ⟨.equal, 0, 0, 0, 0⟩).j1 (g.getLastD ⟨.equal, 0, 0, 0, 0⟩).j2 ++ " @@".toList

theorem hunkHeader_eq (g : List Opcode) : hunkHeader g = hunkText g ++ ['\n'] := by
  have e : " @@\n".toList = " @@".toList ++ ['\n'] := rfl
  unfold hunkHeader hunkText
  simp only [e, List.append_assoc]

theorem not_boundary_hunkText (g : List Opcode) : ∀ c ∈ hunkText g, isBoundary c = false := by
  have hr : ∀ s t : Nat, ∀ c ∈ formatRange s t, isBoundary c = false := by
    intro s t c hc
    rcases mem_formatRange hc with h | rfl
    · exact not_boundary_of_isDigit h
    · rfl
  have h1 : ∀ c ∈ "@@ -".toList, isBoundary c = false := not_boundary_of_all (by decide)
  have h2 : ∀ c ∈ " +".toList, isBoundary c = false := not_boundary_of_all (by decide)
  have h3 : ∀ c ∈ " @@".toList, isBoundary c = false := not_boundary_of_all (by decide)
  intro c hc
  unfold hunkText at hc
  simp only [List.mem_append] at hc
  rcases hc with (((hc | hc) | hc) | hc) | hc
  · exact h1 c hc
  · exact hr _ _ c hc
  · exact h2 c hc
  · exact hr _ _ c hc
  · exact h3 c hc

theorem terminated_hunkHeader (g : List Opcode) : Terminated (hunkHeader g) := by
  rw [hunkHeader_eq]
  exact terminated_line (not_boundary_hunkText g)

theorem chomp_hunkHeader (g : List Opcode) : chomp (hunkHeader g) = hunkText g := by
  rw [hunkHeader_eq]
  exact chomp_terminated rfl (not_boundary_hunkText g)

theorem not_boundary_append {s t : Str} (hs : ∀ c ∈ s, isBoundary c = false)
    (ht : ∀ c ∈ t, isBoundary c = false) : ∀ c ∈ s ++ t, isBoundary c = false := by
  intro c hc
  rcases List.mem_append.mp hc with hc | hc
  · exact hs c hc
  · exact ht c hc

theorem not_boundary_fileHeader {fromfile tofile : Str} (hf : ∀ c ∈ fromfile, isBoundary c = false)
    (ht : ∀ c ∈ tofile, isBoundary c = false) :
    (∀ c ∈ "--- ".toList ++ fromfile, isBoundary c = false) ∧
      ∀ c ∈ "+++ ".toList ++ tofile, isBoundary c = false :=
  ⟨not_boundary_append (not_boundary_of_all (by decide)) hf,
    not_boundary_append (not_boundary_of_all (by decide)) ht⟩

theorem terminated_fileHeader {fromfile tofile : Str}
    (hf : ∀ c ∈ fromfile, isBoundary c = false) (ht : ∀ c ∈ tofile, isBoundary c = false) :
    ∀ l ∈ fileHeader fromfile tofile, Terminated l := by
  obtain ⟨h1, h2⟩ := not_boundary_fileHeader hf ht
  intro l hl
  rcases List.mem_pair.mp hl with rfl | rfl
  · exact terminated_line h1
  · exact terminated_line h2

theorem chomp_fileHeader {fromfile tofile : Str}
    (hf : ∀ c ∈ fromfile, isBoundary c = false) (ht : ∀ c ∈ tofile, isBoundary c = false) :
    (fileHeader fromfile tofile).map chomp =
      ["--- ".toList ++ fromfile, "+++ ".toList ++ tofile] := by
  obtain ⟨h1, h2⟩ := not_boundary_fileHeader hf ht
  simp only [fileHeader, List.map_cons, List.map_nil]
  rw [chomp_terminated rfl h1, chomp_terminated rfl h2]

theorem isLines_renderGroups {a b : List Str} (gs : List (List Opcode))
    (hne : ∀ g ∈ gs, g.flatMap (renderCode a b) ≠ [])
    (h : IsLines (gs.flatten.flatMap (renderCode a b))) :
    IsLines (gs.flatMap (renderGroup a b)) := by
  induction gs with
  | nil => exact .nil
  | cons g gs ih =>
    rw [List.flatten_cons, List.flatMap_append] at h
    rw [List.flatMap_cons, renderGroup, List.cons_append]
    refine .cons (terminated_hunkHeader g) ?_
    cases gs with
    | nil => simpa using h
    | cons g' gs =>
      have hrest : (g' :: gs).flatten.flatMap (renderCode a b) ≠ [] := by
        rw [List.flatten_cons, List.flatMap_append]
        intro he
        exact hne g' (by simp) (List.append_eq_nil_iff.mp he).1
      obtain ⟨h1, h2⟩ := h.append_inv hrest
      exact IsLines.append h1 (ih (fun d hd => hne d (by simp [hd])) h2)

section Output
variable {a b : List Str} {fromfile tofile : Str}

theorem terminated_of_not_endsBare (ha : IsLines a) (h : endsBare a = false) :
    ∀ l ∈ a, Terminated l := by
  induction ha with
  | nil => simp
  | @last u hu =>
    have hall : u.all (fun c => !isBoundary c) = true := by simpa using hu.2
    simp [endsBare, hall] at h
  | @cons l ls hl _ ih =>
    intro m hm
    rcases List.mem_cons.mp hm with rfl | hm
    · exact hl
    · refine ih ?_ m hm
      cases ls with
      | nil => simp at hm
      | cons l' ls => simpa [endsBare] using h

theorem isLines_unifiedDiff (ha : IsLines a) (hb : IsLines b) (hs : swallows a b = false)
    (hf : ∀ c ∈ fromfile, isBoundary c = false) (ht : ∀ c ∈ tofile, isBoundary c = false) :
    IsLines (unifiedDiff a b fromfile tofile) := by
  have hrep : ∀ c ∈ getOpcodes a b, c.tag = .replace → c.i2 = a.length → ∀ l ∈ a, Terminated l := by
    intro c hc htag hi
    refine terminated_of_not_endsBare ha ?_
    simp only [swallows, Bool.and_eq_false_iff] at hs
    rcases hs with hs | hs
    · exact hs
    · have hc' := List.any_eq_false.mp hs c hc
      simp [htag, hi] at hc'
  have hall := isLines_renderScript ha hb (getOpcodes_script a b) hrep
  have hgroups := hall.sublist (groups_render a b 3 (getOpcodes a b))
  have hne : ∀ g ∈ groupsOf a b, g.flatMap (renderCode a b) ≠ [] :=
    fun g hg => renderGroup_body_ne_nil hg
  unfold unifiedDiff
  simp only
  split
  · exact .nil
  · exact IsLines.append (terminated_fileHeader hf ht) (isLines_renderGroups _ hne hgroups)

/-- Without a swallowed line, reading the diff back gives the printed lines. -/
theorem splitlines_unifiedDiff (ha : IsLines a) (hb : IsLines b) (hs : swallows a b = false)
    (hf : ∀ c ∈ fromfile, isBoundary c = false) (ht : ∀ c ∈ tofile, isBoundary c = false) :
    splitlines (unifiedDiff a b fromfile tofile).flatten =
      (unifiedDiff a b fromfile tofile).map chomp :=
  splitlines_flatten (isLines_unifiedDiff ha hb hs hf ht)

theorem piece_renderCode (ha : IsLines a) (hb : IsLines b) (c : Opcode) :
    ∀ p ∈ renderCode a b c, Piece p := by
  have hsa : ∀ x ∈ slice a c.i1 c.i2, Piece x :=
    fun x hx => ha.piece x ((slice_sublist a _ _).subset hx)
  have hsb : ∀ x ∈ slice b c.j1 c.j2, Piece x :=
    fun x hx => hb.piece x ((slice_sublist b _ _).subset hx)
  intro p hp
  unfold renderCode at hp
  split at hp
  · obtain ⟨x, hx, rfl⟩ := List.mem_map.mp hp
    exact piece_cons not_boundary_marks.1 (hsa x hx)
  · rcases List.mem_append.mp hp with hp | hp
    · obtain ⟨x, hx, rfl⟩ := mem_minusPart hp
      exact piece_cons not_boundary_marks.2.1 (hsa x hx)
    · obtain ⟨x, hx, rfl⟩ := mem_plusPart hp
      exact piece_cons not_boundary_marks.2.2 (hsb x hx)

theorem piece_unifiedDiff (ha : IsLines a) (hb : IsLines b)
    (hf : ∀ c ∈ fromfile, isBoundary c = false) (ht : ∀ c ∈ tofile, isBoundary c = false) :
    ∀ p ∈ unifiedDiff a b fromfile tofile, Piece p := by
  intro p hp
  unfold unifiedDiff at hp
  simp only at hp
  split at hp
  · simp at hp
  · rcases List.mem_append.mp hp with hp | hp
    · exact .inl (terminated_fileHeader hf ht p hp)
    · obtain ⟨g, _, hp⟩ := List.mem_flatMap.mp hp
      rcases List.mem_cons.mp hp with rfl | hp
      · exact .inl (terminated_hunkHeader g)
      · obtain ⟨c, _, hp⟩ := List.mem_flatMap.mp hp
        exact piece_renderCode ha hb c p hp

/-- A swallowing pair of texts prints an unterminated removed piece right before an added one. -/
theorem swallows_split (ha : IsLines a) (h : swallows a b = true) :
    ∃ pre u v post, Bare u ∧ v ∈ insertedLines a b ∧
      unifiedDiff a b fromfile tofile = pre ++ ('-' :: u) :: ('+' :: v) :: post := by
  simp only [swallows, Bool.and_eq_true, List.any_eq_true, decide_eq_true_eq, beq_iff_eq] at h
  obtain ⟨hbare, c, hc, htag, hi⟩ := h
  obtain ⟨hok, _, hj2⟩ := (getOpcodes_script a b).mem_ok c hc
  simp only [Opcode.Ok, htag] at hok
  have hmem : c ∈ (groupsOf a b).flatten := by
    have hch : c ∈ (getOpcodes a b).filter Opcode.isChange :=
      List.mem_filter.mpr ⟨hc, by simp [Opcode.isChange, htag]⟩
    rw [← groups_changes 3] at hch
    exact (List.mem_filter.mp hch).1
  obtain ⟨g, hg, hcg⟩ := List.mem_flatten.mp hmem
  obtain ⟨gs1, gs2, hgs⟩ := List.append_of_mem hg
  obtain ⟨c1, c2, rfl⟩ := List.append_of_mem hcg
  obtain ⟨olds, u, hold, hu⟩ : ∃ olds u, slice a c.i1 c.i2 = olds ++ [u] ∧ Bare u := by
    have hne : slice a c.i1 c.i2 ≠ [] := slice_ne_nil hok.1 (by omega)
    have hdrop : slice a c.i1 c.i2 = a.drop c.i1 := by
      rw [slice, List.take_of_length_le]
      simp [hi]
    obtain ⟨olds, u, hold⟩ := (List.eq_nil_or_concat' (slice a c.i1 c.i2)).resolve_left hne
    have hlast : a.getLast? = some u := by
      rw [← List.take_append_drop c.i1 a, ← hdrop, hold, ← List.append_assoc]
      simp
    refine ⟨olds, u, hold, ?_⟩
    have hu : Piece u := ha.piece u (List.mem_of_getLast? hlast)
    rcases hu with ⟨body, t, rfl, ht, _⟩ | hu
    · simp [endsBare, hlast, ht] at hbare
    · exact hu
  obtain ⟨v, news, hnew⟩ := List.exists_cons_of_ne_nil (slice_ne_nil (l := b) hok.2 hj2)
  have hv : v ∈ insertedLines a b :=
    List.mem_flatMap.mpr ⟨c, hc, by simp [htag, hnew]⟩
  have hrender : renderCode a b c = (olds.map ('-' :: ·) ++ ['-' :: u]) ++ ('+' :: v) ::
      news.map ('+' :: ·) := by
    simp [renderCode, minusPart, plusPart, htag, hold, hnew]
  have hne : (groupsOf a b).isEmpty = false := by rw [hgs]; simp
  refine ⟨fileHeader fromfile tofile ++ gs1.flatMap (renderGroup a b) ++
    (hunkHeader (c1 ++ c :: c2) :: c1.flatMap (renderCode a b)) ++ olds.map ('-' :: ·), u, v,
    news.map ('+' :: ·) ++ c2.flatMap (renderCode a b) ++ gs2.flatMap (renderGroup a b),
    hu, hv, ?_⟩
  unfold unifiedDiff
  simp only [hne, Bool.false_eq_true, if_false]
  rw [hgs]
  simp [renderGroup, hrender, List.flatMap_append, List.append_assoc]

end Output

end Python.Difflib
