import LlmHardtest.Round4.Report
set_option autoImplicit false

/-! The marker search of `parse_report`: it ends, it does not look before the report it finds,
and a copy of the prompt's block after the text leaves the report as it is. -/

namespace Round4
open Python Python.Regex

section Marker
variable {text : Str} {limit s : Nat}

def MarkerAt (text : Str) (s : Nat) : Prop := reportMarker <+: text.drop s

theorem MarkerAt.fits (h : MarkerAt text s) : s + reportMarker.length ≤ text.length := by
  have hl := h.length_le
  rw [List.length_drop] at hl
  have hm : 0 < reportMarker.length := by decide
  omega

/-- The result of `rfind`: the last marker that lies before `limit`, if there is one. -/
def LastMarker (text : Str) (limit : Nat) : Option Nat → Prop
  | some s => s + reportMarker.length ≤ limit ∧ MarkerAt text s ∧
      ∀ r, s < r → r + reportMarker.length ≤ limit → ¬ MarkerAt text r
  | none => ∀ r, r + reportMarker.length ≤ limit → ¬ MarkerAt text r

theorem rfindMarker_spec (text : Str) (limit : Nat) :
    LastMarker text limit (rfindMarker text limit) := by
  have hm : 0 < reportMarker.length := by decide
  unfold rfindMarker
  cases h : (List.range limit).reverse.find? fun s =>
      decide (s + reportMarker.length ≤ limit) && startsWith (text.drop s) reportMarker with
  | none =>
    intro r hr hmk
    have hx := List.find?_eq_none.mp h r (by simp; omega)
    simp [hr, startsWith_iff.mpr hmk] at hx
  | some s =>
    obtain ⟨hs, as, bs, hl, has⟩ := List.find?_eq_some_iff_append.mp h
    simp only [Bool.and_eq_true, decide_eq_true_eq, startsWith_iff] at hs
    refine ⟨hs.1, hs.2, ?_⟩
    intro r hsr hr hmk
    have hmem : r ∈ as := by
      have hsorted : (List.range limit).reverse.Pairwise (· > ·) :=
        List.pairwise_reverse.mpr List.pairwise_lt_range
      have hrm : r ∈ (List.range limit).reverse := by simp; omega
      rw [hl] at hsorted hrm
      rcases List.mem_append.mp hrm with h | h
      · exact h
      · exfalso
        rcases List.mem_cons.mp h with rfl | h
        · omega
        · have hp := (List.pairwise_append.mp hsorted).2.1
          have hgt := List.rel_of_pairwise_cons hp h
          omega
    have hx := has r hmem
    simp [hr, startsWith_iff.mpr hmk] at hx

theorem LastMarker.unique {o o' : Option Nat} (h : LastMarker text limit o)
    (h' : LastMarker text limit o') : o = o' := by
  cases o with
  | none =>
    cases o' with
    | none => rfl
    | some s => exact absurd h'.2.1 (h s h'.1)
  | some s =>
    cases o' with
    | none => exact absurd h.2.1 (h' s h.1)
    | some s' =>
      rcases Nat.lt_trichotomy s s' with hlt | rfl | hlt
      · exact absurd h'.2.1 (h.2.2 s' hlt h'.1)
      · rfl
      · exact absurd h.2.1 (h'.2.2 s hlt h.1)

theorem rfindMarker_eq {o : Option Nat} (h : LastMarker text limit o) :
    rfindMarker text limit = o := (rfindMarker_spec text limit).unique h

theorem rfindMarker_some (h : rfindMarker text limit = some s) : LastMarker text limit (some s) :=
  h ▸ rfindMarker_spec text limit

theorem rfindMarker_none (h : rfindMarker text limit = none) : LastMarker text limit none :=
  h ▸ rfindMarker_spec text limit

theorem rfindMarker_lt (h : rfindMarker text limit = some s) : s < limit := by
  have hm : 0 < reportMarker.length := by decide
  have hs := (rfindMarker_some h).1
  omega

end Marker

/-! ## The loop as a relation -/

inductive Search (u : UnicodeData) (text : Str) : Nat → Option (Str × List (Str × Str)) → Prop
  | absent {limit : Nat} : rfindMarker text limit = none → Search u text limit none
  | found {limit s : Nat} : rfindMarker text limit = some s →
      isTemplate u (parseBlock u (text.drop s)) = false →
      Search u text limit (some (text.drop s, parseBlock u (text.drop s)))
  | skipped {limit s : Nat} {r : Option (Str × List (Str × Str))} :
      rfindMarker text limit = some s → isTemplate u (parseBlock u (text.drop s)) = true →
      Search u text s r → Search u text limit r

def reportOf : Option (Str × List (Str × Str)) → Report
  | none => {}
  | some (seg, fields) =>
      { present := true, fields := fields
        missingFields := reportFields.filter fun f => ((fields.lookup f).getD []).isEmpty
        raw := seg.take 2000 }

section Search
variable {u : UnicodeData} {text : Str} {limit : Nat} {r r' : Option (Str × List (Str × Str))}

theorem Search.unique (h : Search u text limit r) (h' : Search u text limit r') : r = r' := by
  induction h with
  | absent hm =>
    cases h' with
    | absent _ => rfl
    | found hm' _ => rw [hm] at hm'; cases hm'
    | skipped hm' _ _ => rw [hm] at hm'; cases hm'
  | found hm ht =>
    cases h' with
    | absent hm' => rw [hm] at hm'; cases hm'
    | found hm' _ => rw [hm] at hm'; cases hm'; rfl
    | skipped hm' ht' _ => rw [hm] at hm'; cases hm'; rw [ht] at ht'; cases ht'
  | skipped hm ht _ ih =>
    cases h' with
    | absent hm' => rw [hm] at hm'; cases hm'
    | found hm' ht' => rw [hm] at hm'; cases hm'; rw [ht] at ht'; cases ht'
    | skipped hm' _ h' => rw [hm] at hm'; cases hm'; exact ih h'

/-- More fuel than the limit is enough: every round moves the limit down. -/
theorem findBlock_search (u : UnicodeData) (text : Str) {fuel limit : Nat} (h : limit < fuel) :
    Search u text limit (findBlock u text fuel limit) := by
  induction fuel generalizing limit with
  | zero => omega
  | succ fuel ih =>
    unfold findBlock
    cases hm : rfindMarker text limit with
    | none => exact .absent hm
    | some s =>
      have hs := rfindMarker_lt hm
      cases ht : isTemplate u (parseBlock u (text.drop s)) with
      | false =>
        simp only [ht, Bool.false_eq_true, if_false]
        exact .found hm ht
      | true =>
        simp only [ht, if_true]
        exact .skipped hm ht (ih (by omega))

theorem parseReport_search (u : UnicodeData) (text : Str) :
    ∃ r, Search u text text.length r ∧ parseReport u text = reportOf r := by
  refine ⟨_, findBlock_search u text (Nat.lt_succ_self text.length), ?_⟩
  unfold parseReport reportOf
  rfl

theorem parseReport_eq (h : Search u text text.length r) : parseReport u text = reportOf r := by
  obtain ⟨r', h', he⟩ := parseReport_search u text
  rw [he, h'.unique h]

/-! ## Text before the report -/

theorem markerAt_append (x text : Str) (s : Nat) :
    MarkerAt (x ++ text) (x.length + s) ↔ MarkerAt text s := by
  rw [MarkerAt, MarkerAt, List.drop_length_add_append]

theorem rfindMarker_prepend (x : Str) {s : Nat} (h : rfindMarker text limit = some s) :
    rfindMarker (x ++ text) (x.length + limit) = some (x.length + s) := by
  obtain ⟨hs, hm, hlast⟩ := rfindMarker_some h
  refine rfindMarker_eq ⟨by omega, (markerAt_append x text s).mpr hm, ?_⟩
  intro i hi hfit hmk
  obtain ⟨i, rfl⟩ := Nat.exists_eq_add_of_le (show x.length ≤ i by omega)
  exact hlast i (by omega) (by omega) ((markerAt_append x text i).mp hmk)

theorem Search.prepend {b : Str × List (Str × Str)} (x : Str)
    (h : Search u text limit (some b)) :
    Search u (x ++ text) (x.length + limit) (some b) := by
  generalize hr : some b = r at h
  induction h with
  | absent _ => cases hr
  | @found limit s hm ht =>
    have hd : (x ++ text).drop (x.length + s) = text.drop s :=
      List.drop_length_add_append s
    rw [← hd]
    exact .found (rfindMarker_prepend x hm) (by rw [hd]; exact ht)
  | @skipped limit s r hm ht _ ih =>
    have hd : (x ++ text).drop (x.length + s) = text.drop s :=
      List.drop_length_add_append s
    exact .skipped (rfindMarker_prepend x hm) (by rw [hd]; exact ht) (ih hr)

theorem reportOf_present {r : Option (Str × List (Str × Str))} :
    (reportOf r).present = true ↔ ∃ b, r = some b := by
  cases r with
  | none => simp [reportOf]
  | some b => simp [reportOf]

theorem parseReport_prepend (x : Str) (h : (parseReport u text).present = true) :
    parseReport u (x ++ text) = parseReport u text := by
  obtain ⟨r, hr, he⟩ := parseReport_search u text
  rw [he, reportOf_present] at h
  obtain ⟨b, rfl⟩ := h
  have hx := hr.prepend x
  rw [← List.length_append] at hx
  rw [he, parseReport_eq hx]

end Search

/-! ## The template block -/

section Lines

theorem splitlinesKeep_newline (a b : Str) :
    splitlinesKeep (a ++ '\n' :: b) = splitlinesKeep (a ++ ['\n']) ++ splitlinesKeep b := by
  have hn : ∀ s : Str, splitlinesKeep ('\n' :: s) = ['\n'] :: splitlinesKeep s := by
    intro s
    rw [splitlinesKeep_cons (by decide)]
    rfl
  induction a using splitlinesKeep.induct with
  | case1 => simp [hn, splitlinesKeep]
  | case2 cs ih => simpa [splitlinesKeep] using ih
  | case3 c cs hcs hb ih =>
    by_cases hc : c = '\r' ∧ cs = []
    · obtain ⟨rfl, rfl⟩ := hc
      simp [splitlinesKeep]
    · have hs : ∀ s, splitlinesKeep (c :: (cs ++ '\n' :: s)) =
          [c] :: splitlinesKeep (cs ++ '\n' :: s) := by
        intro s
        rw [splitlinesKeep, if_pos hb]
        intro ds hr he
        cases cs with
        | nil => exact hc ⟨hr, rfl⟩
        | cons d cs =>
          injection he with hd _
          subst hd
          exact hcs cs hr rfl
      simp only [List.cons_append, hs, ih]
  | case4 c cs hcs hb ih =>
    have hr : c ≠ '\r' := by rintro rfl; exact hb rfl
    have hne : splitlinesKeep (cs ++ ['\n']) ≠ [] := splitlinesKeep_ne_nil (by simp)
    rw [List.cons_append, List.cons_append, splitlinesKeep_cons hr, splitlinesKeep_cons hr,
      if_neg hb, if_neg hb, ih]
    cases h : splitlinesKeep (cs ++ ['\n']) with
    | nil => exact absurd h hne
    | cons l ls => rfl

theorem splitlines_newline (a b : Str) :
    splitlines (a ++ '\n' :: b) = splitlines (a ++ ['\n']) ++ splitlines b := by
  rw [splitlines, splitlinesKeep_newline, List.map_append, splitlines, splitlines]

theorem splitlines_crlf (s : Str) : splitlines ('\r' :: '\n' :: s) = [] :: splitlines s := rfl

theorem splitlines_boundary {c : Char} {s : Str} (hb : isBoundary c = true)
    (hs : ∀ ds, c = '\r' → s = '\n' :: ds → False) :
    splitlines (c :: s) = [] :: splitlines s := by
  have hc : chomp [c] = [] := by
    by_cases hcn : c = '\n'
    · subst hcn; rfl
    · simp [chomp, hb]
  rw [splitlines, splitlinesKeep, if_pos hb, List.map_cons, hc, splitlines]
  exact hs

theorem splitlines_char {c : Char} {s : Str} (hb : isBoundary c = false) (hne : s ≠ []) :
    ∃ l ls, splitlines s = l :: ls ∧ splitlines (c :: s) = (c :: l) :: ls :=
  splitlines_bare_append (u := [c]) (by simpa using hb) hne

theorem splitlines_concat_newline (s : Str) :
    ∃ extra, (∀ l ∈ extra, l = []) ∧ splitlines (s ++ ['\n']) = splitlines s ++ extra := by
  induction s using splitlinesKeep.induct with
  | case1 => exact ⟨[[]], by simp, rfl⟩
  | case2 cs ih =>
    obtain ⟨extra, he, h⟩ := ih
    exact ⟨extra, he, by simp [splitlines_crlf, h]⟩
  | case3 c cs hcs hb ih =>
    by_cases hc : c = '\r' ∧ cs = []
    · obtain ⟨rfl, rfl⟩ := hc
      exact ⟨[], by simp, rfl⟩
    · obtain ⟨extra, he, h⟩ := ih
      refine ⟨extra, he, ?_⟩
      rw [List.cons_append, splitlines_boundary hb, splitlines_boundary hb hcs, h,
        List.cons_append]
      intro ds hr hd
      cases cs with
      | nil => exact hc ⟨hr, rfl⟩
      | cons d cs =>
        injection hd with hd _
        exact hcs cs hr (by rw [hd])
  | case4 c cs hcs hb ih =>
    have hb : isBoundary c = false := by simpa using hb
    by_cases hne : cs = []
    · subst hne
      refine ⟨[], by simp, ?_⟩
      obtain ⟨l, ls, hl, h⟩ := splitlines_char (s := ['\n']) hb (by simp)
      cases hl
      rw [List.append_nil, splitlines_bare (u := [c]) ⟨by simp, by simpa using hb⟩]
      exact h
    · obtain ⟨extra, he, h⟩ := ih
      refine ⟨extra, he, ?_⟩
      obtain ⟨l, ls, hl, h1⟩ := splitlines_char hb hne
      obtain ⟨l', ls', hl', h2⟩ := splitlines_char (s := cs ++ ['\n']) hb (by simp)
      rw [hl', hl, List.cons_append] at h
      injection h with hll hls
      rw [List.cons_append, h2, h1, List.cons_append, hll, hls]

theorem splitlines_drop_suffix (s : Str) (n : Nat) :
    (splitlines (s.drop n)).drop 1 <:+ (splitlines s).drop 1 := by
  induction n generalizing s with
  | zero => exact List.suffix_rfl
  | succ n ih =>
    cases s with
    | nil => exact List.suffix_rfl
    | cons c s =>
      refine (ih s).trans ?_
      by_cases hcr : ∃ ds, c = '\r' ∧ s = '\n' :: ds
      · obtain ⟨ds, rfl, rfl⟩ := hcr
        rw [splitlines_crlf, splitlines_boundary (by decide) (by simp)]
      · by_cases hb : isBoundary c = true
        · rw [splitlines_boundary hb fun ds h h' => hcr ⟨ds, h, h'⟩]
          exact List.drop_suffix 1 _
        · by_cases hne : s = []
          · subst hne
            exact List.nil_suffix
          · obtain ⟨l, ls, hl, h⟩ := splitlines_char (by simpa using hb) hne
            rw [hl, h]
            exact List.suffix_rfl

end Lines

def TemplateLine (line : Str) : Prop :=
  ∃ key ∈ reportFields, ∃ inner : Str, (∀ c ∈ inner, c ∉ ['<', '>', '\n']) ∧
    line = key ++ ':' :: ' ' :: '<' :: (inner ++ ['>'])

/-- A marker line and then lines whose values are placeholders. -/
def TemplateBlock (b : Str) : Prop :=
  ∃ ls, splitlines b = reportMarker :: ls ∧ ∀ l ∈ ls, TemplateLine l

section Template
variable {u : UnicodeData}

theorem ends_seq_head {r s : Re} {p q q' : Pos} (h : (ends u r p).head? = some q)
    (h' : (ends u s q).head? = some q') : (ends u (.seq r s) p).head? = some q' := by
  obtain ⟨qs, hqs⟩ := List.head?_eq_some_iff.mp h
  rw [ends, hqs, List.flatMap_cons, List.head?_append, h']
  rfl

theorem ends_many_set_head {q : UnicodeData → Char → Bool} (s t : Str) (prev : Option Char)
    (gs : List (Nat × Str)) (hs : ∀ c ∈ s, q u c = true) (ht : ∀ c ∈ t.head?, q u c = false) :
    ∃ prev', (ends u (.many (.set q)) ⟨prev, s ++ t, gs⟩).head? = some ⟨prev', t, gs⟩ :=
  starEnds_set_head s t prev gs hs ht (s ++ t).length (by simp)

def keyChar (c : Char) : Bool := ('A' ≤ c && c ≤ 'Z') || ('0' ≤ c && c ≤ '9') || c == '_'

theorem ends_keyChar (p : Pos) :
    ends u (.or [.range 'A' 'Z', .range '0' '9', .chr '_']) p =
      ends u (.set fun _ c => keyChar c) p := by
  obtain ⟨prev, s, gs⟩ := p
  cases s with
  | nil => rfl
  | cons c s =>
    simp only [Re.or, Re.range, Re.chr, ends, keyChar]
    by_cases h1 : 'A' ≤ c ∧ c ≤ 'Z'
    · have h2 : ¬ ('0' ≤ c ∧ c ≤ '9') := fun h => absurd (h1.1.trans h.2) (by decide)
      have h3 : c ≠ '_' := by rintro rfl; exact absurd h1.2 (by decide)
      simp [h1, h2, h3]
    · by_cases h2 : '0' ≤ c ∧ c ≤ '9'
      · have h3 : c ≠ '_' := by rintro rfl; exact absurd h2.2 (by decide)
        simp [h1, h2, h3]
      · simp [h1, h2]

theorem ends_some_congr {r r' : Re} (h : ∀ p, ends u r p = ends u r' p) (p : Pos) :
    ends u (.some r) p = ends u (.some r') p := by
  have hf : ends u r = ends u r' := funext h
  simp only [Re.some, ends, hf]

theorem reportFields_shape {key : Str} (h : key ∈ reportFields) :
    ∃ c cs, key = c :: cs ∧ ('A' ≤ c ∧ c ≤ 'Z') ∧ cs ≠ [] ∧ ∀ d ∈ cs, keyChar d = true := by
  have hall : ∀ k ∈ reportFields, k.head?.any (fun c => 'A' ≤ c && c ≤ 'Z') = true ∧
      k.tail ≠ [] ∧ k.tail.all keyChar = true := by decide
  obtain ⟨h1, h2, h3⟩ := hall key h
  cases key with
  | nil => simp at h1
  | cons c cs => exact ⟨c, cs, rfl, by simpa using h1, h2, by simpa using h3⟩

theorem matchStart_templateLine {key inner : Str} (hk : key ∈ reportFields)
    (hi : ∀ c ∈ inner, c ∉ ['<', '>', '\n']) :
    ∃ p, matchStart u fieldLine (key ++ ':' :: ' ' :: '<' :: (inner ++ ['>'])) = some p ∧
      p.groups.lookup 1 = some key ∧ p.groups.lookup 2 = some ('<' :: (inner ++ ['>'])) := by
  obtain ⟨c, cs, rfl, hc, hne, hcs⟩ := reportFields_shape hk
  have hsp : isSpace c = false := by
    obtain ⟨h1, h2⟩ := hc
    have h1 : 65 ≤ c.toNat := UInt32.le_iff_toNat_le.mp h1
    have h2 : c.toNat ≤ 90 := UInt32.le_iff_toNat_le.mp h2
    simp [isSpace]
    omega
  have hv : ∀ d ∈ '<' :: (inner ++ ['>']), (d != '\n') = true := by
    intro d hd
    simp only [List.mem_cons, List.mem_append, List.not_mem_nil, or_false] at hd
    rcases hd with rfl | hd | rfl
    · decide
    · have hn := hi d hd
      simp only [List.mem_cons, not_or] at hn
      simpa using hn.2.2.1
    · decide
  -- the key
  obtain ⟨prev1, h1⟩ := ends_many_set_head (u := u) (q := fun _ d => isSpace d) []
    (c :: (cs ++ ':' :: ' ' :: '<' :: (inner ++ ['>']))) none [] (by simp) (by simpa using hsp)
  have h2 : (ends u (.range 'A' 'Z')
      ⟨prev1, c :: (cs ++ ':' :: ' ' :: '<' :: (inner ++ ['>'])), []⟩).head? =
      some ⟨some c, cs ++ ':' :: ' ' :: '<' :: (inner ++ ['>']), []⟩ := by
    simp [Re.range, ends, hc.1, hc.2]
  obtain ⟨prev3, h3⟩ := ends_some_set_head (u := u) (q := fun _ d => keyChar d) (s := cs)
    (t := ':' :: ' ' :: '<' :: (inner ++ ['>'])) (some c) [] hne hcs
    (by intro d hd; cases hd; rfl)
  rw [← ends_some_congr ends_keyChar] at h3
  have h4 := ends_group_head (n := 1) (s := c :: cs) (ends_seq_head h2 h3)
  -- the colon and the blank after it
  obtain ⟨prev5, h5⟩ := ends_many_set_head (u := u) (q := fun _ d => isSpace d) []
    (':' :: ' ' :: '<' :: (inner ++ ['>'])) prev3 [(1, c :: cs)] (by simp)
    (by intro d hd; cases hd; rfl)
  have h6 : (ends u (.chr ':') ⟨prev5, ':' :: ' ' :: '<' :: (inner ++ ['>']),
      [(1, c :: cs)]⟩).head? =
      some ⟨some ':', ' ' :: '<' :: (inner ++ ['>']), [(1, c :: cs)]⟩ := by
    simp [Re.chr, ends]
  obtain ⟨prev7, h7⟩ := ends_many_set_head (u := u) (q := fun _ d => isSpace d) [' ']
    ('<' :: (inner ++ ['>'])) (some ':') [(1, c :: cs)] (by simp [isSpace])
    (by intro d hd; cases hd; rfl)
  -- the value, to the end of the line
  obtain ⟨prev8, h8⟩ := ends_many_set_head (u := u) (q := fun _ d => d != '\n')
    ('<' :: (inner ++ ['>'])) [] prev7 [(1, c :: cs)] hv (by simp)
  have h9 := ends_group_head (n := 2) h8
  have h10 : (ends u .eol ⟨prev8, [], [(2, '<' :: (inner ++ ['>'])), (1, c :: cs)]⟩).head? =
      some ⟨prev8, [], [(2, '<' :: (inner ++ ['>'])), (1, c :: cs)]⟩ := rfl
  rw [List.append_nil] at h9
  have h0 : (ends u .bol (.atStart (c :: cs ++ ':' :: ' ' :: '<' :: (inner ++ ['>'])))).head? =
      some (.atStart (c :: cs ++ ':' :: ' ' :: '<' :: (inner ++ ['>']))) := rfl
  refine ⟨_, ends_seq_head h0 (ends_seq_head h1 (ends_seq_head h4 (ends_seq_head h5
    (ends_seq_head h6 (ends_seq_head h7 (ends_seq_head h9 h10)))))), rfl, rfl⟩

def placeholder : Re := .cat [.chr '<', .many (.noneOf "<>"), .chr '>']

theorem fullMatch_placeholder {inner : Str} (hi : ∀ c ∈ inner, c ∉ ['<', '>', '\n']) :
    fullMatch u placeholder ('<' :: (inner ++ ['>'])) = true := by
  have hin : ∀ d ∈ inner, (!"<>".toList.contains d) = true := by
    intro d hd
    have hn := hi d hd
    simp only [List.mem_cons, not_or] at hn
    simp [hn.1, hn.2.1]
  have h1 : (ends u (.chr '<') (.atStart ('<' :: (inner ++ ['>'])))).head? =
      some ⟨some '<', inner ++ ['>'], []⟩ := by simp [Re.chr, ends, Pos.atStart]
  obtain ⟨prev, h2⟩ := ends_many_set_head (u := u) (q := fun _ d => !"<>".toList.contains d)
    inner ['>'] (some '<') [] hin (by simp)
  have h3 : (ends u (.chr '>') ⟨prev, ['>'], []⟩).head? = some ⟨some '>', [], []⟩ := by
    simp [Re.chr, ends]
  obtain ⟨ps, hps⟩ := List.head?_eq_some_iff.mp (ends_seq_head h1 (ends_seq_head h2 h3))
  have he : ends u placeholder (.atStart ('<' :: (inner ++ ['>']))) =
      ⟨some '>', [], []⟩ :: ps := hps
  simp [fullMatch, he]

theorem strip_placeholder (inner : Str) :
    strip ('<' :: (inner ++ ['>'])) = '<' :: (inner ++ ['>']) := by
  have h1 : isSpace '<' = false := by decide
  have h2 : isSpace '>' = false := by decide
  simp [strip, h1, h2]

theorem forall_mem_dictSet {β : Type} {P : β → Prop} {key : Str} {value : β}
    {es : List (Str × β)} (hv : P value) (h : ∀ e ∈ es, P e.2) :
    ∀ e ∈ dictSet key value es, P e.2 := by
  induction es with
  | nil => simpa [dictSet] using hv
  | cons e es ih =>
    obtain ⟨he, hes⟩ := List.forall_mem_cons.mp h
    unfold dictSet
    split
    · exact List.forall_mem_cons.mpr ⟨hv, hes⟩
    · exact List.forall_mem_cons.mpr ⟨he, ih hes⟩

theorem parseLines_template {ls : List Str} (hls : ∀ l ∈ ls, TemplateLine l)
    (fields : List (Str × Str)) (hf : ∀ f ∈ fields, fullMatch u placeholder f.2 = true) :
    ∀ f ∈ parseLines u fields ls, fullMatch u placeholder f.2 = true := by
  induction ls generalizing fields with
  | nil => exact hf
  | cons l ls ih =>
    obtain ⟨⟨key, hk, inner, hi, rfl⟩, hrest⟩ := List.forall_mem_cons.mp hls
    obtain ⟨p, hp, h1, h2⟩ := matchStart_templateLine (u := u) hk hi
    have hset : ∀ f ∈ dictSet key ('<' :: (inner ++ ['>'])) fields,
        fullMatch u placeholder f.2 = true :=
      forall_mem_dictSet (P := fun v => fullMatch u placeholder v = true)
        (fullMatch_placeholder hi) hf
    unfold parseLines
    simp only [hp, h1, h2, Option.getD_some, strip_placeholder, hk, true_or, if_true]
    exact ih hrest _ hset

theorem isTemplate_of_placeholders {fields : List (Str × Str)}
    (h : ∀ f ∈ fields, fullMatch u placeholder f.2 = true) : isTemplate u fields = true := by
  have hf : (fields.filter fun f => fullMatch u placeholder f.2) = fields :=
    List.filter_eq_self.mpr h
  have hle : fields.length ≤ fields.length * 2 := by omega
  change (fields.isEmpty || decide (fields.length ≤
    (fields.filter fun f => fullMatch u placeholder f.2).length * 2)) = true
  rw [hf]
  simp [hle]

theorem matchStart_marker : matchStart u fieldLine reportMarker = none := rfl

theorem parseLines_marker (fields : List (Str × Str)) (xs ys : List Str) :
    parseLines u fields (xs ++ reportMarker :: ys) =
      if parseLines u fields xs = [] then parseLines u [] ys else parseLines u fields xs := by
  induction xs generalizing fields with
  | nil =>
    have hb : ¬ (strip reportMarker = [] ∨
        ((strip reportMarker).head?.any fun c => "#`-".toList.contains c) = true) := by decide
    have hm : parseLines u fields (reportMarker :: ys) =
        if fields ≠ [] then fields else parseLines u fields ys := by
      rw [parseLines, matchStart_marker]
      simp only [if_neg hb]
    rw [List.nil_append, hm, parseLines]
    by_cases hf : fields = []
    · simp [hf]
    · simp [hf]
  | cons x xs ih =>
    rw [List.cons_append, parseLines, parseLines]
    cases matchStart u fieldLine x with
    | some p =>
      simp only
      split
      · exact ih _
      · exact ih _
    | none =>
      simp only
      split
      · exact ih _
      · by_cases hf : fields = []
        · simp only [hf, ne_eq, not_true_eq_false, if_false]
          exact ih _
        · simp [hf]

theorem parseLines_blank (fields : List (Str × Str)) (xs extra : List Str)
    (he : ∀ l ∈ extra, l = []) :
    parseLines u fields (xs ++ extra) = parseLines u fields xs := by
  have hblank : ∀ fs : List (Str × Str), parseLines u fs extra = fs := by
    intro fs
    induction extra with
    | nil => rfl
    | cons l ls ih =>
      obtain ⟨rfl, hls⟩ := List.forall_mem_cons.mp he
      rw [parseLines]
      have hn : matchStart u fieldLine [] = none := rfl
      simpa [hn, strip] using ih hls
  induction xs generalizing fields with
  | nil => simpa [parseLines] using hblank fields
  | cons x xs ih =>
    rw [List.cons_append, parseLines, parseLines]
    cases matchStart u fieldLine x with
    | some p => simp only [ih]
    | none => simp only [ih]

end Template

/-! ## A template block after the text -/

/-- What follows `t ++ sep` starts on a line of its own. -/
def OnNewLine (t sep : Str) : Prop := sep = ['\n'] ∨ (sep = [] ∧ t.getLast? = some '\n')

section Append
variable {u : UnicodeData} {t sep b : Str} {limit : Nat}
  {r : Option (Str × List (Str × Str))}

theorem OnNewLine.splitlines_append (h : OnNewLine t sep) (b : Str) :
    ∃ extra, (∀ l ∈ extra, l = []) ∧
      splitlines (t ++ sep ++ b) = splitlines t ++ extra ++ splitlines b := by
  rcases h with rfl | ⟨rfl, hl⟩
  · obtain ⟨extra, he, h⟩ := splitlines_concat_newline t
    refine ⟨extra, he, ?_⟩
    rw [List.append_assoc, List.singleton_append, splitlines_newline, h]
  · refine ⟨[], by simp, ?_⟩
    obtain ⟨t, rfl⟩ := List.getLast?_eq_some_iff.mp hl
    rw [List.append_nil, List.append_nil, List.append_assoc, List.singleton_append,
      splitlines_newline]

theorem OnNewLine.drop (h : OnNewLine t sep) {s : Nat} (hs : s < t.length) :
    OnNewLine (t.drop s) sep := by
  rcases h with rfl | ⟨rfl, hl⟩
  · exact .inl rfl
  · exact .inr ⟨rfl, by rw [List.getLast?_drop, if_neg (by omega), hl]⟩

/-- The block before the copy keeps its fields; an empty one goes on into the copy. -/
theorem parseBlock_append (h : OnNewLine t sep) (hb : TemplateBlock b) (hne : t ≠ []) :
    ∃ ps, (∀ f ∈ ps, fullMatch u placeholder f.2 = true) ∧ parseBlock u (t ++ sep ++ b) =
      if parseBlock u t = [] then ps else parseBlock u t := by
  obtain ⟨ls, hls, htl⟩ := hb
  obtain ⟨extra, he, hx⟩ := h.splitlines_append b
  refine ⟨parseLines u [] ls, parseLines_template htl [] (by simp), ?_⟩
  have hlines : splitlines t ≠ [] := by
    intro hnil
    exact splitlinesKeep_ne_nil hne (List.map_eq_nil_iff.mp hnil)
  obtain ⟨l, rest, hl⟩ := List.exists_cons_of_ne_nil hlines
  rw [parseBlock, parseBlock, hx, hls, hl]
  simp only [List.cons_append, List.drop_succ_cons, List.drop_zero]
  rw [parseLines_marker, parseLines_blank [] rest extra he]

theorem isTemplate_append (h : OnNewLine t sep) (hb : TemplateBlock b) (hne : t ≠ []) :
    isTemplate u (parseBlock u (t ++ sep ++ b)) = isTemplate u (parseBlock u t) := by
  obtain ⟨ps, hps, hx⟩ := parseBlock_append (u := u) h hb hne
  rw [hx]
  split
  · rename_i hnil
    rw [hnil, isTemplate_of_placeholders hps]
    rfl
  · rfl

theorem markerAt_append_right (e : Str) {s : Nat} (hs : s + reportMarker.length ≤ t.length) :
    MarkerAt (t ++ e) s ↔ MarkerAt t s := by
  rw [MarkerAt, MarkerAt, List.drop_append_of_le_length (by omega)]
  constructor
  · intro h
    exact List.prefix_of_prefix_length_le h (List.prefix_append _ e)
      (by rw [List.length_drop]; omega)
  · exact fun h => h.trans (List.prefix_append _ e)

theorem rfindMarker_append (e : Str) (hl : limit ≤ t.length) :
    rfindMarker (t ++ e) limit = rfindMarker t limit := by
  refine rfindMarker_eq ?_
  cases h : rfindMarker t limit with
  | none =>
    intro i hi hm
    exact rfindMarker_none h i hi ((markerAt_append_right e (by omega)).mp hm)
  | some s =>
    obtain ⟨hs, hm, hlast⟩ := rfindMarker_some h
    refine ⟨hs, (markerAt_append_right e (by omega)).mpr hm, ?_⟩
    intro i hsi hi hmi
    exact hlast i hsi hi ((markerAt_append_right e (by omega)).mp hmi)

theorem Search.append (hn : OnNewLine t sep) (hb : TemplateBlock b) (h : Search u t limit r)
    (hl : limit ≤ t.length) :
    ∃ r', Search u (t ++ sep ++ b) limit r' ∧ r'.map Prod.snd = r.map Prod.snd := by
  have hfind : ∀ {l : Nat}, l ≤ t.length →
      rfindMarker (t ++ sep ++ b) l = rfindMarker t l := by
    intro l hl
    rw [List.append_assoc, rfindMarker_append _ hl]
  have hdrop : ∀ {s l : Nat}, rfindMarker t l = some s → l ≤ t.length →
      (t ++ sep ++ b).drop s = t.drop s ++ sep ++ b ∧ t.drop s ≠ [] ∧
        OnNewLine (t.drop s) sep := by
    intro s l hs hl
    have hlt := rfindMarker_lt hs
    refine ⟨?_, ?_, hn.drop (by omega)⟩
    · rw [List.append_assoc, List.drop_append_of_le_length (by omega), List.append_assoc]
    · rw [ne_eq, List.drop_eq_nil_iff]
      omega
  induction h with
  | absent hm => exact ⟨none, .absent ((hfind hl).trans hm), rfl⟩
  | @found limit s hm ht =>
    obtain ⟨hd, hne, hns⟩ := hdrop hm hl
    have hkeep := isTemplate_append (u := u) hns hb hne
    obtain ⟨ps, -, hx⟩ := parseBlock_append (u := u) hns hb hne
    have hfields : parseBlock u (t.drop s) ≠ [] := by
      intro hnil
      rw [hnil] at ht
      cases ht
    rw [if_neg hfields] at hx
    refine ⟨_, .found ((hfind hl).trans hm) (by rw [hd, hkeep, ht]), ?_⟩
    rw [Option.map_some, Option.map_some, hd, hx]
  | @skipped limit s r hm ht _ ih =>
    obtain ⟨hd, hne, hns⟩ := hdrop hm hl
    obtain ⟨r', hr', he⟩ := ih ((rfindMarker_lt hm).le.trans hl)
    have hkeep := isTemplate_append (u := u) hns hb hne
    exact ⟨r', .skipped ((hfind hl).trans hm) (by rw [hd, hkeep, ht]) hr', he⟩

/-- Markers from `a` on that head template blocks do not change what is found. -/
theorem Search.skip {text : Str} {a : Nat} (h : Search u text a r) {limit : Nat}
    (ha : a ≤ limit)
    (hskip : ∀ s, a ≤ s → MarkerAt text s → isTemplate u (parseBlock u (text.drop s)) = true)
    (hcut : ∀ s < a, MarkerAt text s → s + reportMarker.length ≤ a) :
    Search u text limit r := by
  induction limit using Nat.strong_induction_on with
  | _ limit ih =>
    cases hm : rfindMarker text limit with
    | none =>
      have hna : rfindMarker text a = none :=
        rfindMarker_eq fun i hi => rfindMarker_none hm i (by omega)
      have hr : r = none := h.unique (.absent hna)
      exact hr ▸ .absent hm
    | some s =>
      obtain ⟨hs, hms, hlast⟩ := rfindMarker_some hm
      by_cases has : a ≤ s
      · exact .skipped hm (hskip s has hms) (ih s (rfindMarker_lt hm) has)
      · have hsa : rfindMarker text a = some s := by
          refine rfindMarker_eq ⟨hcut s (by omega) hms, hms, ?_⟩
          exact fun i hi hfit => hlast i hi (by omega)
        cases ht : isTemplate u (parseBlock u (text.drop s)) with
        | false => exact h.unique (.found hsa ht) ▸ .found hm ht
        | true =>
          cases h with
          | absent hx => rw [hsa] at hx; cases hx
          | found hx hf => rw [hsa] at hx; cases hx; rw [ht] at hf; cases hf
          | skipped hx _ h' => rw [hsa] at hx; cases hx; exact .skipped hm ht h'

theorem TemplateBlock.isTemplate_drop (hb : TemplateBlock b) (n : Nat) :
    isTemplate u (parseBlock u (b.drop n)) = true := by
  obtain ⟨ls, hls, htl⟩ := hb
  have hsuf := splitlines_drop_suffix b n
  rw [hls, List.drop_succ_cons, List.drop_zero] at hsuf
  refine isTemplate_of_placeholders (parseLines_template ?_ [] (by simp))
  exact fun l hl => htl l (hsuf.subset hl)

theorem MarkerAt.no_newline {text : Str} {s i : Nat} (h : MarkerAt text s) (hi : s ≤ i)
    (hil : i < s + reportMarker.length) : text[i]? ≠ some '\n' := by
  obtain ⟨rest, hrest⟩ := h
  obtain ⟨j, rfl⟩ := Nat.exists_eq_add_of_le hi
  have hj : text[s + j]? = reportMarker[j]? := by
    rw [← List.getElem?_drop, ← hrest, List.getElem?_append_left (by omega)]
  rw [hj]
  intro hn
  have hmem := List.mem_of_getElem? hn
  exact absurd hmem (by decide)

theorem search_append (hn : OnNewLine t sep) (hb : TemplateBlock b)
    (h : Search u t t.length r) :
    ∃ r', Search u (t ++ sep ++ b) (t ++ sep ++ b).length r' ∧
      r'.map Prod.snd = r.map Prod.snd := by
  obtain ⟨r', hr', he⟩ := h.append hn hb le_rfl
  refine ⟨r', hr'.skip (by simp only [List.length_append]; omega) ?_ ?_, he⟩
  · intro s hs hm
    by_cases hsep : t.length + sep.length ≤ s
    · obtain ⟨n, rfl⟩ := Nat.exists_eq_add_of_le hsep
      rw [← List.length_append, List.drop_length_add_append]
      exact hb.isTemplate_drop n
    · exfalso
      rcases hn with rfl | ⟨rfl, -⟩
      · simp only [List.length_singleton] at hsep
        have hst : s = t.length := by omega
        have hlen : 0 < reportMarker.length := by decide
        refine hm.no_newline le_rfl (by omega) ?_
        simp [hst]
      · simp at hsep
        omega
  · intro s hs hm
    by_contra hlong
    rcases hn with rfl | ⟨rfl, hl⟩
    · exact hm.no_newline (i := t.length) hs.le (by omega) (by simp)
    · obtain ⟨t, rfl⟩ := List.getLast?_eq_some_iff.mp hl
      simp only [List.length_append, List.length_singleton] at hs hlong
      exact hm.no_newline (i := t.length) (by omega) (by omega) (by simp)

end Append

theorem reportOf_fields {r r' : Option (Str × List (Str × Str))}
    (h : r'.map Prod.snd = r.map Prod.snd) :
    (reportOf r').present = (reportOf r).present ∧ (reportOf r').fields = (reportOf r).fields ∧
      (reportOf r').missingFields = (reportOf r).missingFields := by
  cases r with
  | none =>
    cases r' with
    | none => exact ⟨rfl, rfl, rfl⟩
    | some b => cases h
  | some b =>
    cases r' with
    | none => cases h
    | some b' =>
      have hb : b'.2 = b.2 := Option.some.inj h
      simp [reportOf, hb]

/-- The search ends with one result, does not depend on what comes before a report it finds, and
keeps its fields when a copy of the prompt's block follows. -/
theorem parseReport_stable (u : UnicodeData) (t : Str) :
    (∃! r, Search u t t.length r) ∧
    (∀ r, Search u t t.length r → parseReport u t = reportOf r) ∧
    ((parseReport u t).present = true → ∀ x, parseReport u (x ++ t) = parseReport u t) ∧
    ∀ sep b, OnNewLine t sep → TemplateBlock b →
      (parseReport u (t ++ sep ++ b)).present = (parseReport u t).present ∧
      (parseReport u (t ++ sep ++ b)).fields = (parseReport u t).fields ∧
      (parseReport u (t ++ sep ++ b)).missingFields = (parseReport u t).missingFields := by
  obtain ⟨r, hr, he⟩ := parseReport_search u t
  refine ⟨⟨r, hr, fun r' h' => h'.unique hr⟩, fun r' h' => parseReport_eq h',
    fun hp x => parseReport_prepend x hp, ?_⟩
  intro sep b hn hb
  obtain ⟨r', hr', hf⟩ := search_append hn hb hr
  rw [he, parseReport_eq hr']
  exact reportOf_fields hf

def templateText (fields : List (Str × Str)) : Str :=
  reportMarker ++ '\n' :: fields.flatMap fun f => f.1 ++ ':' :: ' ' :: '<' :: (f.2 ++ ['>', '\n'])

theorem splitlines_line {body : Str} (hb : ∀ c ∈ body, isBoundary c = false) (s : Str) :
    splitlines (body ++ '\n' :: s) = body :: splitlines s := by
  have ht : Terminated (body ++ ['\n']) := ⟨body, '\n', rfl, rfl, by decide, hb⟩
  have h := splitlines_terminated_append ht s
  rwa [chomp_terminated rfl hb, List.append_assoc, List.singleton_append] at h

theorem templateBlock_templateText {fields : List (Str × Str)}
    (h : ∀ f ∈ fields, f.1 ∈ reportFields ∧
      ∀ c ∈ f.2, c ∉ ['<', '>'] ∧ isBoundary c = false) : TemplateBlock (templateText fields) := by
  have hmarker : ∀ c ∈ reportMarker, isBoundary c = false := by
    have h : (reportMarker.all fun c => !isBoundary c) = true := by decide
    simpa using h
  have hkeys : ∀ k ∈ reportFields, ∀ c ∈ k, isBoundary c = false := by
    have h : (reportFields.all fun k => k.all fun c => !isBoundary c) = true := by decide
    simpa using h
  refine ⟨fields.map fun f => f.1 ++ ':' :: ' ' :: '<' :: (f.2 ++ ['>']), ?_, ?_⟩
  · rw [templateText, splitlines_line hmarker]
    congr 1
    induction fields with
    | nil => rfl
    | cons f fields ih =>
      obtain ⟨hf, hrest⟩ := List.forall_mem_cons.mp h
      have hline : ∀ c ∈ f.1 ++ ':' :: ' ' :: '<' :: (f.2 ++ ['>']), isBoundary c = false := by
        intro c hc
        simp only [List.mem_append, List.mem_cons, List.not_mem_nil, or_false] at hc
        rcases hc with hc | rfl | rfl | rfl | hc | rfl
        · exact hkeys f.1 hf.1 c hc
        · rfl
        · rfl
        · rfl
        · exact (hf.2 c hc).2
        · rfl
      have hs := splitlines_line hline
        (fields.flatMap fun f => f.1 ++ ':' :: ' ' :: '<' :: (f.2 ++ ['>', '\n']))
      simp only [List.append_assoc, List.cons_append, List.nil_append] at hs
      simp only [List.flatMap_cons, List.map_cons, List.append_assoc, List.cons_append,
        List.nil_append, hs, ih hrest]
  · intro l hl
    obtain ⟨f, hf, rfl⟩ := List.mem_map.mp hl
    refine ⟨f.1, (h f hf).1, f.2, ?_, rfl⟩
    intro c hc
    have hn : c ≠ '\n' := by
      rintro rfl
      exact absurd ((h f hf).2 '\n' hc).2 (by decide)
    have ha := ((h f hf).2 c hc).1
    simp only [List.mem_cons, List.not_mem_nil, or_false, not_or] at ha ⊢
    exact ⟨ha.1, ha.2, hn⟩

def promptFields : List (Str × Str) :=
  [("ROOT_CAUSE_FILE".toList, "file".toList), ("ROOT_CAUSE_FUNCTION".toList, "function".toList),
   ("FILES_CHANGED".toList, "comma separated".toList),
   ("PUBLIC_TESTS_AFTER_FIX".toList, "N/M".toList),
   ("CONFIDENCE".toList, "high|medium|low".toList), ("REMAINING_RISKS".toList, "one line".toList)]

theorem templateBlock_prompt : TemplateBlock (templateText promptFields) := by
  refine templateBlock_templateText fun f hf => ?_
  have hall : (promptFields.all fun f => reportFields.contains f.1 &&
      f.2.all fun c => c != '<' && c != '>' && !isBoundary c) = true := by decide
  have hx := List.all_eq_true.mp hall f hf
  rw [Bool.and_eq_true, List.all_eq_true] at hx
  refine ⟨by simpa using hx.1, fun c hc => ?_⟩
  have hcc := hx.2 c hc
  simp only [Bool.and_eq_true, bne_iff_ne, Bool.not_eq_true'] at hcc
  simpa using hcc

/-- A short report with the prompt's block echoed before and after it. -/
theorem parseReport_stable_echo :
    (parseReport asciiData
      (templateText promptFields ++ "=== REPORT ===\nCONFIDENCE: high".toList)).fields =
        [("CONFIDENCE".toList, "high".toList)] ∧
      (parseReport asciiData
        ("=== REPORT ===\nCONFIDENCE: high".toList ++ ['\n'] ++
          templateText promptFields)).fields =
          [("CONFIDENCE".toList, "high".toList)] := by
  have hp : (parseReport asciiData "=== REPORT ===\nCONFIDENCE: high".toList).present = true := by
    decide +kernel
  have hf : (parseReport asciiData "=== REPORT ===\nCONFIDENCE: high".toList).fields =
      [("CONFIDENCE".toList, "high".toList)] := by
    decide +kernel
  obtain ⟨-, -, hpre, happ⟩ :=
    parseReport_stable asciiData "=== REPORT ===\nCONFIDENCE: high".toList
  rw [hpre hp (templateText promptFields), (happ _ _ (.inl rfl) templateBlock_prompt).2.1]
  exact ⟨hf, hf⟩

end Round4
