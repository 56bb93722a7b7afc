import LlmHardtest.Python.PieceScan
set_option autoImplicit false

/-! Scanning a text line by line when each of its lines is known to be read alone. This is asked of the
lines and not of the pattern, which may well leave a line elsewhere. -/

namespace Python.Regex

variable {u : UnicodeData} {r : Re} {line : Str} {gs : List (Nat × Str)}

def EndsLine (tail : Str) : Prop := tail = [] ∨ tail.head? = some '\n'

def Pos.atLineStart (p : Pos) : Prop := p.prev = none ∨ p.prev = some '\n'

instance (p : Pos) : Decidable p.atLineStart := inferInstanceAs (Decidable (_ ∨ _))

/-- Nothing is found at the line, whatever follows it. -/
def Silent (u : UnicodeData) (r : Re) (line : Str) : Prop :=
  ∀ prev tail, EndsLine tail → ends u r ⟨prev, line ++ tail, []⟩ = []

def Found (u : UnicodeData) (r : Re) (line : Str) (gs : List (Nat × Str)) : Prop :=
  ∃ body rest, line = body ++ rest ∧ body ≠ [] ∧ ∀ prev tail, EndsLine tail →
    ∃ prev', (ends u r ⟨prev, line ++ tail, []⟩).head? = some ⟨prev', rest ++ tail, gs⟩

/-- What is found at a line. -/
def Reads (u : UnicodeData) (r : Re) (line : Str) : Option (List (Nat × Str)) → Prop
  | none => Silent u r line
  | some gs => Found u r line gs

def tailOf (lines : List Str) : Str := lines.flatMap fun l => '\n' :: l

theorem joinStr_lines (line : Str) (lines : List Str) :
    joinStr ['\n'] (line :: lines) = line ++ tailOf lines := by
  induction lines generalizing line with
  | nil => simp [joinStr, tailOf, List.intercalate]
  | cons l lines ih =>
    have h : joinStr ['\n'] (line :: l :: lines) = line ++ '\n' :: joinStr ['\n'] (l :: lines) := by
      simp [joinStr, List.intercalate]
    rw [h, ih]
    rfl

theorem endsLine_tailOf (lines : List Str) : EndsLine (tailOf lines) := by
  cases lines with
  | nil => exact .inl rfl
  | cons l lines => exact .inr rfl

theorem prev_of_ends {r : Re} {prev prev' : Option Char} {body rest : Str} {c : Char}
    (hq : ⟨prev', rest, gs⟩ ∈ ends u r ⟨prev, body ++ c :: rest, []⟩) : prev' = some c := by
  obtain ⟨w, hw, hprev⟩ := ends_consumed u r _ _ hq
  have hbody : body ++ [c] = w := by
    have h : (body ++ [c]) ++ rest = w ++ rest := by simpa using hw
    exact List.append_cancel_right h
  simpa [← hbody] using hprev

/-- Scanning from a position finds what is found at the line that it starts, if it starts one, and
then what is found at each of the later lines. -/
theorem scan_lines : ∀ (fuel offset : Nat) (p : Pos) (line : Str) (lines : List Str)
    (found : Option (List (Nat × Str))) (founds : List (Option (List (Nat × Str)))),
    p.rest.length < fuel → p.rest = line ++ tailOf lines → '\n' ∉ line → (∀ l ∈ lines, '\n' ∉ l) →
    (p.atLineStart → Reads u r line found) → List.Forall₂ (Reads u r) lines founds →
    (scan u (.seq .bol r) fuel offset false p).map Hit.groups =
      (if p.atLineStart then found.toList else []) ++ founds.reduceOption := by
  intro fuel
  induction fuel with
  | zero => intro _ _ _ _ _ _ h; omega
  | succ fuel ih =>
    intro offset p line lines found founds hfuel hrest hline hlines hfound hfounds
    -- Without a match the scan goes one character on.
    have hdone : p.rest = [] → founds.reduceOption = [] := by
      intro hnil
      rw [hnil] at hrest
      have htail := (List.append_eq_nil_iff.mp hrest.symm).2
      cases hfounds with
      | nil => rfl
      | cons _ _ => cases htail
    have hskip : ∀ c cs, p.rest = c :: cs →
        (scan u (.seq .bol r) fuel (offset + 1) false ⟨some c, cs, []⟩).map Hit.groups =
          founds.reduceOption := by
      intro c cs hcons
      rw [hcons, List.length_cons] at hfuel
      cases hline' : line with
      | nil =>
        rw [hcons, hline', List.nil_append] at hrest
        cases hfounds with
        | nil => cases hrest
        | @cons l found' lines founds hl hfounds =>
          obtain ⟨rfl, rfl⟩ : c = '\n' ∧ cs = l ++ tailOf lines := List.cons.inj hrest
          rw [ih (offset + 1) ⟨some '\n', l ++ tailOf lines, []⟩ l lines found' founds
            (Nat.lt_of_succ_lt_succ hfuel) rfl (hlines l List.mem_cons_self)
            (fun l' hl' => hlines l' (List.mem_cons_of_mem _ hl')) (fun _ => hl) hfounds,
            if_pos (.inr rfl)]
          cases found' <;> rfl
      | cons d line' =>
        rw [hcons, hline', List.cons_append] at hrest
        obtain ⟨rfl, rfl⟩ := List.cons.inj hrest
        rw [hline'] at hline
        have hc : c ≠ '\n' := fun he => hline (by simp [he])
        have hmid : ¬ (⟨some c, line' ++ tailOf lines, []⟩ : Pos).atLineStart := by
          simp [Pos.atLineStart, hc]
        rw [ih (offset + 1) ⟨some c, line' ++ tailOf lines, []⟩ line' lines none founds
          (Nat.lt_of_succ_lt_succ hfuel) rfl (fun h => hline (List.mem_cons_of_mem _ h)) hlines
          (fun h => absurd h hmid) hfounds, if_neg hmid, List.nil_append]
    by_cases hbol : p.atLineStart
    · have hends : ends u (.seq .bol r) { p with groups := [] } =
          ends u r ⟨p.prev, line ++ tailOf lines, []⟩ := by
        have hb : p.prev = none ∨ p.prev = some '\n' := hbol
        simp [ends, hb, hrest]
      rw [if_pos hbol]
      cases found with
      | none =>
        have hnone := hfound hbol p.prev (tailOf lines) (endsLine_tailOf lines)
        simp only [scan, hends, hnone, List.filter_nil, List.head?_nil, Option.toList_none,
          List.nil_append]
        cases hp : p.rest with
        | nil => simp [hdone hp]
        | cons c cs => exact hskip c cs hp
      | some gs =>
        obtain ⟨body, rest, hsplit, hne, hread⟩ := hfound hbol
        obtain ⟨prev', hhead⟩ := hread p.prev (tailOf lines) (endsLine_tailOf lines)
        obtain ⟨init, c, rfl⟩ : ∃ init c, body = init ++ [c] := by
          rcases List.eq_nil_or_concat body with rfl | ⟨init, c, rfl⟩
          · exact absurd rfl hne
          · exact ⟨init, c, List.concat_eq_append⟩
        have hmem : (⟨prev', rest ++ tailOf lines, gs⟩ : Pos) ∈
            ends u r ⟨p.prev, init ++ c :: (rest ++ tailOf lines), []⟩ := by
          have h := List.mem_of_mem_head? hhead
          rw [hsplit] at h
          simpa using h
        have hprev : prev' = some c := prev_of_ends hmem
        have hc : c ≠ '\n' := by
          rintro rfl
          exact hline (by rw [hsplit]; simp)
        have hlength : p.rest.length = init.length + 1 + (rest ++ tailOf lines).length := by
          rw [hrest, hsplit]
          simp
          omega
        have hmid : ¬ (⟨prev', rest ++ tailOf lines, gs⟩ : Pos).atLineStart := by
          simp [Pos.atLineStart, hprev, hc]
        have hlen : (p.rest.length - (rest ++ tailOf lines).length == 0) = false := by
          rw [beq_eq_false_iff_ne]
          omega
        simp only [scan, hends, Bool.not_false, Bool.true_or, List.filter_true, hhead, List.map_cons,
          hlen, Option.toList_some, List.singleton_append]
        rw [ih _ _ rest lines none founds (by simp only; omega) rfl
          (fun h => hline (by rw [hsplit]; exact List.mem_append_right _ h)) hlines
          (fun h => absurd h hmid) hfounds, if_neg hmid, List.nil_append]
    · have hends : ends u (.seq .bol r) { p with groups := [] } = [] := by
        have hb : ¬ (p.prev = none ∨ p.prev = some '\n') := hbol
        simp [ends, hb]
      rw [if_neg hbol, List.nil_append]
      simp only [scan, hends, List.filter_nil, List.head?_nil]
      cases hp : p.rest with
      | nil => simp [hdone hp]
      | cons c cs => exact hskip c cs hp

theorem findIter_lines {lines : List Str} {founds : List (Option (List (Nat × Str)))}
    (hne : lines ≠ []) (hlines : ∀ l ∈ lines, '\n' ∉ l)
    (hfounds : List.Forall₂ (Reads u r) lines founds) :
    (findIter u (.seq .bol r) (joinStr ['\n'] lines)).map Hit.groups = founds.reduceOption := by
  cases hfounds with
  | nil => exact absurd rfl hne
  | @cons l found lines founds hl hfounds =>
    rw [joinStr_lines, findIter, scan_lines _ _ _ l lines found founds (by simp [Pos.atStart]; omega)
      rfl (hlines l List.mem_cons_self) (fun l' hl' => hlines l' (List.mem_cons_of_mem _ hl'))
      (fun _ => hl) hfounds, if_pos (.inl rfl)]
    cases found <;> rfl

end Python.Regex
