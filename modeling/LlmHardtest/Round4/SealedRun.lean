import LlmHardtest.Python.LineScan
import LlmHardtest.Round4.HunkTracker
import LlmHardtest.Round4.Recorder
set_option autoImplicit false

/-! An honest hidden run: what the grader's patterns read in the lines of its stdout, and that the
run is believed with its own numbers. -/

namespace Round4
open Python Python.Regex

section Patterns
variable {u : UnicodeData}

def htestBody : Re :=
  .cat [.lit "HTEST ", .group 1 (.or [.lit "PASS", .lit "FAIL"]), .chr ' ',
    .group 2 (.seq .any (.star false .any)), .many (.oneOf " \t"), .eol]

def summaryBody : Re :=
  .cat [.lit "HIDDEN", .some .space, .lit "SUMMARY", ratioPassed (.chr ':')]

def shortBody : Re := .cat [.lit "HIDDEN", ratioPassed (.chr ':')]

theorem hiddenPatterns_eq : hiddenPatterns = [.seq .bol summaryBody, .seq .bol shortBody] := rfl

theorem ends_chr (c : Char) (t : Str) (prev : Option Char) (gs : List (Nat × Str)) :
    ends u (.chr c) ⟨prev, c :: t, gs⟩ = [⟨some c, t, gs⟩] := by
  simp [Re.chr, ends]

theorem ends_chr_ne {c d : Char} (h : d ≠ c) (t : Str) (prev : Option Char) (gs : List (Nat × Str)) :
    ends u (.chr c) ⟨prev, d :: t, gs⟩ = [] := by
  simp [Re.chr, ends, h]

theorem ends_seq_nil {r s : Re} {p : Pos} (h : ends u r p = []) : ends u (.seq r s) p = [] := by
  rw [ends, h]
  rfl

theorem starEnds_lazy_head {q : UnicodeData → Char → Bool} {g : Pos → List Pos} {t : Str}
    {gs : List (Nat × Str)} (hlast : ∀ prev, g ⟨prev, t, gs⟩ ≠ []) (s : Str) (prev : Option Char)
    (fuel : Nat) (hf : s.length ≤ fuel) (hs : ∀ c ∈ s, q u c = true)
    (hnone : ∀ b prev, b <:+ s → b ≠ [] → g ⟨prev, b ++ t, gs⟩ = []) :
    ∃ prev', ((starEnds false (ends u (.set q)) fuel ⟨prev, s ++ t, gs⟩).flatMap g).head? =
      (g ⟨prev', t, gs⟩).head? := by
  induction s generalizing prev fuel with
  | nil =>
    refine ⟨prev, ?_⟩
    obtain ⟨o, os, hos⟩ := List.exists_cons_of_ne_nil (hlast prev)
    cases fuel with
    | zero => simp [starEnds]
    | succ fuel => simp [starEnds, hos]
  | cons c s ih =>
    cases fuel with
    | zero => simp at hf
    | succ fuel =>
      obtain ⟨prev', h⟩ := ih (some c) fuel (by simpa using hf) (fun d hd => hs d (by simp [hd]))
        fun b prev hb => hnone b prev (hb.trans (List.suffix_cons c s))
      refine ⟨prev', ?_⟩
      have hc := hs c (by simp)
      have hg : g ⟨prev, c :: (s ++ t), gs⟩ = [] := hnone (c :: s) prev List.suffix_rfl (by simp)
      simp only [starEnds, List.cons_append, ends_set_cons, hc, if_true, Bool.false_eq_true, if_false]
      simpa [hg] using h

theorem mem_starEnds_set {q : UnicodeData → Char → Bool} {greedy : Bool} {fuel : Nat} {p o : Pos}
    (h : o ∈ starEnds greedy (ends u (.set q)) fuel p) :
    ∃ w, p.rest = w ++ o.rest ∧ ∀ c ∈ w, q u c = true := by
  induction fuel generalizing p with
  | zero =>
    rw [starEnds, List.mem_singleton] at h
    exact ⟨[], by rw [h]; rfl, by simp⟩
  | succ fuel ih =>
    have hcases : o = p ∨ ∃ o' ∈ ends u (.set q) p, o ∈ starEnds greedy (ends u (.set q)) fuel o' := by
      rw [starEnds] at h
      cases greedy
      · simp only [Bool.false_eq_true, if_false, List.mem_cons, List.mem_flatMap,
          List.mem_filter] at h
        rcases h with h | ⟨o', ho', h⟩
        · exact .inl h
        · exact .inr ⟨o', ho'.1, h⟩
      · simp only [if_true, List.mem_append, List.mem_flatMap, List.mem_filter,
          List.mem_singleton] at h
        rcases h with ⟨o', ho', h⟩ | h
        · exact .inr ⟨o', ho'.1, h⟩
        · exact .inl h
    rcases hcases with rfl | ⟨o', ho', h⟩
    · exact ⟨[], rfl, by simp⟩
    · obtain ⟨prev, rest, groups⟩ := p
      cases rest with
      | nil => cases ho'
      | cons c cs =>
        rw [ends_set_cons] at ho'
        split at ho'
        · rename_i hc
          rw [List.mem_singleton] at ho'
          subst ho'
          obtain ⟨w, hw, hall⟩ := ih h
          refine ⟨c :: w, by rw [List.cons_append, ← hw], ?_⟩
          intro d hd
          rcases List.mem_cons.mp hd with rfl | hd
          · exact hc
          · exact hall d hd
        · cases ho'

theorem prefix_differs {p q : Str} (t : Str) (h : ¬ p.take q.length <+: q) : ¬ p <+: q ++ t := by
  intro hp
  exact h (List.prefix_of_prefix_length_le ((List.take_prefix _ _).trans hp)
    (List.prefix_append q t) (List.length_take_le _ _))

theorem silent_of_other {s : String} {rest : Re} {line : Str} (hs : '\n' ∉ s.toList)
    (h : ¬ s.toList <+: line) : Silent u (.seq (.lit s) rest) line := by
  intro prev tail htail
  refine ends_seq_nil (ends_lits_eq_nil ?_ prev [])
  intro hprefix
  rcases List.prefix_or_prefix_of_prefix hprefix (List.prefix_append line tail) with h' | ⟨w, hw⟩
  · exact h h'
  · rw [← hw, List.prefix_append_right_inj] at hprefix
    cases w with
    | nil => exact h (by rw [← hw, List.append_nil])
    | cons c w =>
      obtain ⟨rest, rfl⟩ := hprefix
      rcases htail with htail | htail
      · cases htail
      · cases htail
        exact hs (by rw [← hw]; simp)

/-! ## The lines of the tests -/

def isBlank (c : Char) : Bool := " \t".toList.contains c

def blankEnd : Re := .seq (.many (.oneOf " \t")) .eol

theorem blankEnd_tail {tail : Str} (htail : EndsLine tail) (prev : Option Char)
    (gs : List (Nat × Str)) :
    (ends u blankEnd ⟨prev, tail, gs⟩).head? = some ⟨prev, tail, gs⟩ := by
  have hmany : (ends u (.many (.oneOf " \t")) ⟨prev, tail, gs⟩) = [⟨prev, tail, gs⟩] := by
    cases tail with
    | nil => rfl
    | cons c cs =>
      rcases htail with htail | htail
      · cases htail
      · cases htail
        simp [Re.many, Re.oneOf, ends, starEnds]
  have heol : ends u .eol ⟨prev, tail, gs⟩ = [⟨prev, tail, gs⟩] := by
    rw [ends]
    refine if_pos ?_
    rcases htail with rfl | htail
    · exact .inl rfl
    · exact .inr htail
  rw [blankEnd, ends, hmany, List.flatMap_singleton, heol]
  rfl

theorem blankEnd_none {b tail : Str} (hne : b ≠ []) (hbreak : '\n' ∉ b)
    (hlast : ∀ c ∈ b.getLast?, isBlank c = false) (prev : Option Char) (gs : List (Nat × Str)) :
    ends u blankEnd ⟨prev, b ++ tail, gs⟩ = [] := by
  rw [blankEnd, ends, List.flatMap_eq_nil_iff]
  intro o ho
  obtain ⟨w, hw, hall⟩ := mem_starEnds_set ho
  -- The blanks stop before the last character of the text.
  have hnot : ¬ b <+: w := by
    intro hb
    have hmem := hb.subset (List.getLast_mem hne)
    have hblank : isBlank (b.getLast hne) = true := hall _ hmem
    rw [hlast _ (List.getLast?_eq_some_getLast hne)] at hblank
    cases hblank
  obtain ⟨d, ds, hrest, hd⟩ : ∃ d ds, o.rest = d :: ds ∧ d ≠ '\n' := by
    rcases List.append_eq_append_iff.mp hw with ⟨a, rfl, -⟩ | ⟨c, rfl, hrest⟩
    · exact absurd (List.prefix_append b a) hnot
    · cases c with
      | nil => exact absurd (by rw [List.append_nil]) hnot
      | cons d ds =>
        refine ⟨d, ds ++ tail, hrest, ?_⟩
        rintro rfl
        exact hbreak (by simp)
  rw [ends]
  refine if_neg ?_
  rw [hrest]
  rintro (h | h)
  · cases h
  · exact hd (Option.some.inj h)

structure Nameable (name : Str) : Prop where
  ne_nil : name ≠ []
  oneLine : '\n' ∉ name
  noBlankEnd : ∀ c ∈ name.getLast?, isBlank c = false

theorem name_head {name tail : Str} (h : Nameable name) (htail : EndsLine tail) (prev : Option Char)
    (gs : List (Nat × Str)) : ∃ prev',
      (ends u (.seq (.group 2 (.seq .any (.star false .any))) blankEnd)
        ⟨prev, name ++ tail, gs⟩).head? = some ⟨prev', tail, (2, name) :: gs⟩ := by
  obtain ⟨c, cs, rfl⟩ := List.exists_cons_of_ne_nil h.ne_nil
  have hany : ∀ d ∈ c :: cs, (d != '\n') = true := by
    intro d hd
    exact bne_iff_ne.mpr fun he => h.oneLine (he ▸ hd)
  let grouped : Pos → Pos := fun q =>
    { q with groups := (2, (c :: (cs ++ tail)).take ((c :: (cs ++ tail)).length - q.rest.length)) ::
        q.groups }
  have hends : ends u (.seq (.group 2 (.seq .any (.star false .any))) blankEnd)
      ⟨prev, c :: (cs ++ tail), gs⟩ =
      (starEnds false (ends u .any) (cs ++ tail).length ⟨some c, cs ++ tail, gs⟩).flatMap
        fun q => ends u blankEnd (grouped q) := by
    have hc := hany c List.mem_cons_self
    simp only [ends, Re.any, hc, if_true, List.flatMap_singleton, List.flatMap_map]
    rfl
  have hgroup : (c :: (cs ++ tail)).take ((c :: (cs ++ tail)).length - tail.length) = c :: cs := by
    have hlength : (c :: (cs ++ tail)).length - tail.length = (c :: cs).length := by simp; omega
    rw [hlength, ← List.cons_append, List.take_left]
  obtain ⟨prev', hlazy⟩ := starEnds_lazy_head (u := u) (q := fun _ d => d != '\n')
    (g := fun q => ends u blankEnd (grouped q)) (t := tail)
    (fun prev hnil => by
      have := blankEnd_tail (u := u) htail prev ((2, c :: cs) :: gs)
      simp only [grouped, hgroup] at hnil
      rw [hnil] at this
      cases this)
    cs (some c) (cs ++ tail).length (by simp) (fun d hd => hany d (List.mem_cons_of_mem _ hd))
    (fun b prev hb hne => by
      refine blankEnd_none hne (fun hn => ?_) (fun d hd => ?_) prev _
      · exact h.oneLine (List.mem_cons_of_mem _ (hb.subset hn))
      · obtain ⟨front, rfl⟩ := hb
        refine h.noBlankEnd d ?_
        rw [← List.cons_append, List.getLast?_append, Option.mem_def.mp hd]
        rfl)
  refine ⟨prev', ?_⟩
  rw [List.cons_append, hends]
  refine hlazy.trans ?_
  simp only [grouped, hgroup]
  exact blankEnd_tail htail prev' _

theorem testLine_append (name tail : Str) (ok : Bool) :
    Recorder.testLine (name, ok) ++ tail = "HTEST ".toList ++
      ((if ok then "PASS".toList else "FAIL".toList) ++ ' ' :: (name ++ tail)) := by
  have h : ∀ a b : Str, a ++ b ++ ' ' :: name ++ tail = a ++ (b ++ ' ' :: (name ++ tail)) := by
    intro a b
    simp
  exact h _ _

theorem ends_or_left {r s : Re} {p q : Pos} (h : (ends u r p).head? = some q) :
    (ends u (.or [r, s]) p).head? = some q := by
  change (ends u r p ++ ends u s p).head? = some q
  rw [List.head?_append, h]
  rfl

theorem ends_or_right {r s : Re} {p q : Pos} (hr : ends u r p = [])
    (h : (ends u s p).head? = some q) : (ends u (.or [r, s]) p).head? = some q := by
  change (ends u r p ++ ends u s p).head? = some q
  rw [hr, List.nil_append, h]

theorem found_testLine {t : Str × Bool} (h : Nameable t.1) :
    Found u htestBody (Recorder.testLine t)
      [(2, t.1), (1, if t.2 then "PASS".toList else "FAIL".toList)] := by
  obtain ⟨name, ok⟩ := t
  refine ⟨Recorder.testLine (name, ok), [], (List.append_nil _).symm,
    List.append_ne_nil_of_left_ne_nil (List.append_ne_nil_of_left_ne_nil (by decide) _) _, ?_⟩
  intro prev tail htail
  obtain ⟨prev1, h1⟩ := ends_lits (u := u) "HTEST ".toList
    ((if ok then "PASS".toList else "FAIL".toList) ++ ' ' :: (name ++ tail)) prev []
  have h2 : ∃ prev2, (ends u (.or [.lit "PASS", .lit "FAIL"])
      ⟨prev1, (if ok then "PASS".toList else "FAIL".toList) ++ ' ' :: (name ++ tail), []⟩).head? =
      some ⟨prev2, ' ' :: (name ++ tail), []⟩ := by
    cases ok with
    | true =>
      obtain ⟨prev2, h⟩ := ends_lits (u := u) "PASS".toList (' ' :: (name ++ tail)) prev1 []
      exact ⟨prev2, ends_or_left (congrArg List.head? h)⟩
    | false =>
      obtain ⟨prev2, h⟩ := ends_lits (u := u) "FAIL".toList (' ' :: (name ++ tail)) prev1 []
      exact ⟨prev2, ends_or_right (ends_lits_eq_nil (prefix_differs _ (by decide)) _ _)
        (congrArg List.head? h)⟩
  obtain ⟨prev2, h2⟩ := h2
  have h3 := ends_group_head (n := 1) h2
  obtain ⟨prev4, h4⟩ := name_head h htail (some ' ')
    [(1, if ok then "PASS".toList else "FAIL".toList)]
  refine ⟨prev4, ?_⟩
  rw [testLine_append]
  exact ends_seq_head (by rw [Re.lit, h1]; rfl) (ends_seq_head h3
    (ends_seq_head (by rw [ends_chr]; rfl) h4))

/-! ## The summary lines -/

def summaryText (passed total : Nat) : Str :=
  ": ".toList ++ (natStr passed ++ '/' :: (natStr total ++ " passed".toList))

theorem digit_not_space {c : Char} (h : c.isDigit = true) : isSpace c = false := by
  simp only [Char.isDigit, Bool.and_eq_true, decide_eq_true_eq] at h
  have h48 : 48 ≤ c.toNat := UInt32.le_iff_toNat_le.mp h.1
  have h57 : c.toNat ≤ 57 := UInt32.le_iff_toNat_le.mp h.2
  simp [isSpace]
  omega

theorem digits_head (n : Nat) {d : Char} {t : Str} (hd : d.toNat < 128) (hno : d.isDigit = false)
    (g : Nat) (prev : Option Char) (gs : List (Nat × Str)) :
    ∃ prev', (ends u (.group g (.some .digit)) ⟨prev, natStr n ++ d :: t, gs⟩).head? =
      some ⟨prev', d :: t, (g, natStr n) :: gs⟩ := by
  have hrest : ∀ c ∈ (d :: t).head?, (u.decimal c).isSome = false := by
    rintro c ⟨⟩
    rw [u.decimal_ascii d hd, hno]
    rfl
  obtain ⟨prev', h⟩ := ends_some_set_head (u := u) (q := fun u c => (u.decimal c).isSome) prev gs
    (natStr_ne_nil n) (fun c hc => isDigit_decimal (natStr_plain hc)) hrest
  exact ⟨prev', ends_group_head h⟩

theorem no_blanks_head {t : Str} (ht : ∀ c ∈ t.head?, isSpace c = false) (prev : Option Char)
    (gs : List (Nat × Str)) :
    ∃ prev', (ends u (.many .space) ⟨prev, t, gs⟩).head? = some ⟨prev', t, gs⟩ :=
  ends_many_set_head (q := fun _ c => isSpace c) [] t prev gs (by simp) ht

theorem ratioPassed_head (passed total : Nat) (rest : Str) (prev : Option Char) :
    ∃ prev', (ends u (ratioPassed (.chr ':')) ⟨prev, summaryText passed total ++ rest, []⟩).head? =
      some ⟨prev', rest, [(2, natStr total), (1, natStr passed)]⟩ := by
  have htext : summaryText passed total ++ rest = ':' :: ' ' ::
      (natStr passed ++ '/' :: (natStr total ++ ' ' :: ("passed".toList ++ rest))) := by
    simp [summaryText]
  have hdigit : ∀ (n : Nat) (t : Str), ∀ c ∈ (natStr n ++ t).head?, isSpace c = false := by
    intro n t c hc
    obtain ⟨d, ds, hds⟩ := List.exists_cons_of_ne_nil (natStr_ne_nil n)
    rw [hds] at hc
    cases hc
    exact digit_not_space (natStr_plain (by rw [hds]; exact List.mem_cons_self))
  have hblank : ∀ c ∈ [' '], isSpace c = true := by
    intro c hc
    rw [List.mem_singleton.mp hc]
    decide
  obtain ⟨p2, h2⟩ := ends_many_set_head (u := u) (q := fun _ c => isSpace c) [' ']
    (natStr passed ++ '/' :: (natStr total ++ ' ' :: ("passed".toList ++ rest))) (some ':') []
    hblank (hdigit passed _)
  obtain ⟨p3, h3⟩ := digits_head (u := u) passed (d := '/')
    (t := natStr total ++ ' ' :: ("passed".toList ++ rest)) (by decide) (by decide) 1 p2 []
  obtain ⟨p4, h4⟩ := no_blanks_head (u := u)
    (t := '/' :: (natStr total ++ ' ' :: ("passed".toList ++ rest))) (by rintro c ⟨⟩; decide) p3
    [(1, natStr passed)]
  obtain ⟨p5, h5⟩ := no_blanks_head (u := u) (hdigit total (' ' :: ("passed".toList ++ rest)))
    (some '/') [(1, natStr passed)]
  obtain ⟨p6, h6⟩ := digits_head (u := u) total (d := ' ') (t := "passed".toList ++ rest) (by decide)
    (by decide) 2 p5 [(1, natStr passed)]
  obtain ⟨p7, h7⟩ := ends_some_set_head (u := u) (q := fun _ c => isSpace c) (s := [' '])
    (t := "passed".toList ++ rest) p6 [(2, natStr total), (1, natStr passed)] (by simp) hblank
    (by rintro c ⟨⟩; decide)
  obtain ⟨p8, h8⟩ := ends_lits (u := u) "passed".toList rest p7
    [(2, natStr total), (1, natStr passed)]
  refine ⟨p8, ?_⟩
  rw [htext]
  exact ends_seq_head (by rw [ends_chr]; rfl) (ends_seq_head h2 (ends_seq_head h3
    (ends_seq_head h4 (ends_seq_head (by rw [ends_chr]; rfl) (ends_seq_head h5 (ends_seq_head h6
      (ends_seq_head h7 (congrArg List.head? h8))))))))

inductive Summary (passed total : Nat) : Str → Prop where
  | long (more : Str) : '\n' ∉ more →
      Summary passed total ("HIDDEN SUMMARY".toList ++ (summaryText passed total ++ more))
  | short (more : Str) : '\n' ∉ more →
      Summary passed total ("HIDDEN".toList ++ (summaryText passed total ++ more))

def counts (passed total : Nat) : List (Nat × Str) := [(2, natStr total), (1, natStr passed)]

theorem found_short (passed total : Nat) (more : Str) :
    Found u shortBody ("HIDDEN".toList ++ (summaryText passed total ++ more))
      (counts passed total) := by
  refine ⟨"HIDDEN".toList ++ summaryText passed total, more, by simp, by simp, ?_⟩
  intro prev tail _
  obtain ⟨p1, h1⟩ := ends_lits (u := u) "HIDDEN".toList (summaryText passed total ++ (more ++ tail))
    prev []
  obtain ⟨p2, h2⟩ := ratioPassed_head (u := u) passed total (more ++ tail) p1
  refine ⟨p2, ?_⟩
  rw [List.append_assoc, List.append_assoc]
  exact ends_seq_head (congrArg List.head? h1) h2

theorem found_long (passed total : Nat) (more : Str) :
    Found u summaryBody ("HIDDEN SUMMARY".toList ++ (summaryText passed total ++ more))
      (counts passed total) := by
  refine ⟨"HIDDEN SUMMARY".toList ++ summaryText passed total, more, by simp, by simp, ?_⟩
  intro prev tail _
  obtain ⟨p1, h1⟩ := ends_lits (u := u) "HIDDEN".toList
    (' ' :: ("SUMMARY".toList ++ (summaryText passed total ++ (more ++ tail)))) prev []
  obtain ⟨p2, h2⟩ := ends_some_set_head (u := u) (q := fun _ c => isSpace c) (s := [' '])
    (t := "SUMMARY".toList ++ (summaryText passed total ++ (more ++ tail))) p1 [] (by simp)
    (fun c hc => by rw [List.mem_singleton.mp hc]; decide) (by rintro c ⟨⟩; decide)
  obtain ⟨p3, h3⟩ := ends_lits (u := u) "SUMMARY".toList
    (summaryText passed total ++ (more ++ tail)) p2 []
  obtain ⟨p4, h4⟩ := ratioPassed_head (u := u) passed total (more ++ tail) p3
  refine ⟨p4, ?_⟩
  rw [List.append_assoc, List.append_assoc]
  exact ends_seq_head (congrArg List.head? h1) (ends_seq_head h2
    (ends_seq_head (congrArg List.head? h3) h4))

theorem silent_short (text : Str) : Silent u shortBody ("HIDDEN ".toList ++ text) := by
  intro prev tail _
  obtain ⟨p1, h1⟩ := ends_lits (u := u) "HIDDEN".toList (' ' :: (text ++ tail)) prev []
  have hends : ends u (ratioPassed (.chr ':')) ⟨p1, ' ' :: (text ++ tail), []⟩ = [] :=
    ends_seq_nil (ends_chr_ne (by decide) _ _ _)
  change (ends u (Re.lits "HIDDEN".toList) ⟨prev, "HIDDEN".toList ++ ' ' :: (text ++ tail), []⟩).flatMap
    (ends u (ratioPassed (.chr ':'))) = []
  rw [h1, List.flatMap_singleton, hends]

theorem silent_long (text : Str) : Silent u summaryBody ("HIDDEN:".toList ++ text) := by
  intro prev tail _
  obtain ⟨p1, h1⟩ := ends_lits (u := u) "HIDDEN".toList (':' :: (text ++ tail)) prev []
  have hends : ends u (.seq (.some .space) (.cat [.lit "SUMMARY", ratioPassed (.chr ':')]))
      ⟨p1, ':' :: (text ++ tail), []⟩ = [] := by
    refine ends_seq_nil (ends_seq_nil ?_)
    have hcolon : isSpace ':' = false := by decide
    simp [Re.space, ends, hcolon]
  change (ends u (Re.lits "HIDDEN".toList) ⟨prev, "HIDDEN".toList ++ ':' :: (text ++ tail), []⟩).flatMap
    (ends u (.seq (.some .space) (.cat [.lit "SUMMARY", ratioPassed (.chr ':')]))) = []
  rw [h1, List.flatMap_singleton, hends]

/-- A line in which the grader finds nothing. -/
structure Chatter (u : UnicodeData) (line : Str) : Prop where
  oneLine : '\n' ∉ line
  noTest : Silent u htestBody line
  noSummary : Silent u summaryBody line
  noShort : Silent u shortBody line

theorem chatter_of_start {line : Str} (hline : '\n' ∉ line) (htest : ¬ "HTEST ".toList <+: line)
    (hhidden : ¬ "HIDDEN".toList <+: line) : Chatter u line :=
  ⟨hline, silent_of_other (by decide) htest, silent_of_other (by decide) hhidden,
    silent_of_other (by decide) hhidden⟩

theorem chatter_failed : Chatter u "HIDDEN FAILED:".toList where
  oneLine := by decide
  noTest := silent_of_other (by decide) (by decide)
  noSummary := by
    intro prev tail _
    obtain ⟨p1, h1⟩ := ends_lits (u := u) "HIDDEN".toList (' ' :: ("FAILED:".toList ++ tail)) prev []
    have hspace : ends u (.some .space) ⟨p1, ' ' :: ("FAILED:".toList ++ tail), []⟩ =
        [⟨some ' ', "FAILED:".toList ++ tail, []⟩] := by
      have h32 : isSpace ' ' = true := by decide
      have hF : isSpace 'F' = false := by decide
      simp [Re.some, Re.space, ends, starEnds, h32, hF]
    have hno : ¬ "SUMMARY".toList <+: "FAILED:".toList ++ tail := prefix_differs tail (by decide)
    change (ends u (Re.lits "HIDDEN".toList)
      ⟨prev, "HIDDEN".toList ++ ' ' :: ("FAILED:".toList ++ tail), []⟩).flatMap
        (ends u (.seq (.some .space) (.cat [.lit "SUMMARY", ratioPassed (.chr ':')]))) = []
    rw [h1, List.flatMap_singleton, ends, hspace, List.flatMap_singleton]
    exact ends_seq_nil (ends_lits_eq_nil hno _ _)
  noShort := silent_short "FAILED:".toList

variable {passed total : Nat} {line : Str}

theorem natStr_oneLine (n : Nat) : '\n' ∉ natStr n := by
  intro hn
  have hdigit : Char.isDigit '\n' = true := natStr_plain hn
  revert hdigit
  decide

theorem Summary.oneLine (h : Summary passed total line) : '\n' ∉ line := by
  cases h with
  | long more hmore => simp [summaryText, natStr_oneLine, hmore]
  | short more hmore => simp [summaryText, natStr_oneLine, hmore]

theorem Summary.noTest (h : Summary passed total line) : Silent u htestBody line := by
  refine silent_of_other (by decide) ?_
  cases h with
  | long more hmore => exact prefix_differs _ (by decide)
  | short more hmore => exact prefix_differs _ (by decide)

theorem Summary.reads (h : Summary passed total line) :
    Found u summaryBody line (counts passed total) ∧ Silent u shortBody line ∨
      Silent u summaryBody line ∧ Found u shortBody line (counts passed total) := by
  cases h with
  | long more hmore =>
    exact .inl ⟨found_long passed total more,
      silent_short ("SUMMARY".toList ++ (summaryText passed total ++ more))⟩
  | short more hmore =>
    exact .inr ⟨silent_long
      (" ".toList ++ (natStr passed ++ '/' :: (natStr total ++ " passed".toList)) ++ more),
      found_short passed total more⟩

theorem testLine_oneLine {t : Str × Bool} (h : Nameable t.1) : '\n' ∉ Recorder.testLine t := by
  intro hn
  rcases List.mem_append.mp hn with hn | hn
  · revert hn
    cases t.2 <;> decide
  · rcases List.mem_cons.mp hn with hn | hn
    · cases hn
    · exact h.oneLine hn

theorem not_hidden (text : Str) : ¬ "HIDDEN".toList <+: "HTEST".toList ++ text :=
  prefix_differs text (by decide)

theorem not_test (text : Str) : ¬ "HTEST ".toList <+: "HTEST-".toList ++ text :=
  prefix_differs text (by decide)

theorem testLine_noSummary (t : Str × Bool) :
    Silent u summaryBody (Recorder.testLine t) ∧ Silent u shortBody (Recorder.testLine t) := by
  have hno : ¬ "HIDDEN".toList <+: Recorder.testLine t :=
    not_hidden (" ".toList ++ (if t.2 then "PASS".toList else "FAIL".toList) ++ ' ' :: t.1)
  exact ⟨silent_of_other (by decide) hno, silent_of_other (by decide) hno⟩

theorem chatter_count {counted : Str} (h : '\n' ∉ counted) :
    Chatter u ("HTEST-COUNT ".toList ++ counted) := by
  refine chatter_of_start ?_ (not_test ("COUNT ".toList ++ counted))
    (not_hidden ("-COUNT ".toList ++ counted))
  rw [List.mem_append, not_or]
  exact ⟨by decide, h⟩

theorem chatter_countLine (r : Recorder) : Chatter u r.countLine := by
  have hcounted : '\n' ∉ natStr r.passed ++ '/' :: natStr r.total := by
    rw [List.mem_append, List.mem_cons, not_or, not_or]
    exact ⟨natStr_oneLine _, by decide, natStr_oneLine _⟩
  have hline : r.countLine = "HTEST-COUNT ".toList ++ (natStr r.passed ++ '/' :: natStr r.total) := by
    unfold Recorder.countLine
    rw [List.append_assoc]
  rw [hline]
  exact chatter_count hcounted

end Patterns

/-! ## The whole of stdout -/

section Output
variable {u : UnicodeData} {r : Recorder}

def Recorder.stdoutLines (r : Recorder) : List Str := r.records.map testLine ++ [r.countLine]

theorem stdoutText_eq (r : Recorder) : r.stdoutText = r.stdoutLines.flatMap fun l => l ++ ['\n'] := by
  simp [Recorder.stdoutText, Recorder.stdoutLines, List.flatMap_map]

theorem joinStr_append_lines (before : List Str) {after : List Str} (hne : after ≠ []) :
    (before.flatMap fun l => l ++ ['\n']) ++ joinStr ['\n'] after =
      joinStr ['\n'] (before ++ after) := by
  induction before with
  | nil => rfl
  | cons l before ih =>
    have hne' : before ++ after ≠ [] := by simp [hne]
    obtain ⟨m, ms, hms⟩ := List.exists_cons_of_ne_nil hne'
    rw [List.flatMap_cons, List.append_assoc, ih, List.cons_append, hms]
    simp [joinStr, List.intercalate]

/-- The stdout of a runner: what the tests print before, what the recorder publishes, and the report
of the runner, in which there is a summary line with the recorder's counts. -/
structure Honest (u : UnicodeData) (r : Recorder) (output : Str) : Prop where
  names : ∀ t ∈ r.records, Nameable t.1
  text : ∃ before after : List Str,
    output = (before.flatMap fun l => l ++ ['\n']) ++ r.stdoutText ++ joinStr ['\n'] after ∧
    (∀ l ∈ before, Chatter u l) ∧
    (∀ l ∈ after, Chatter u l ∨ Summary r.passed r.total l) ∧
    ∃ l ∈ after, Summary r.passed r.total l

theorem Honest.lines {output : Str} (h : Honest u r output) : ∃ before after : List Str,
    output = joinStr ['\n'] (before ++ r.records.map Recorder.testLine ++ after) ∧
    (∀ l ∈ before, Chatter u l) ∧ (∀ l ∈ after, Chatter u l ∨ Summary r.passed r.total l) ∧
    ∃ l ∈ after, Summary r.passed r.total l := by
  obtain ⟨before, after, rfl, hbefore, hafter, l, hl, hsummary⟩ := h.text
  refine ⟨before, r.countLine :: after, ?_, hbefore, ?_, l, List.mem_cons_of_mem _ hl, hsummary⟩
  · have hne : after ≠ [] := List.ne_nil_of_mem hl
    rw [stdoutText_eq, List.append_assoc, joinStr_append_lines _ hne,
      joinStr_append_lines _ (by simp [hne]), Recorder.stdoutLines]
    simp
  · intro l' hl'
    rcases List.mem_cons.mp hl' with rfl | hl'
    · exact .inl (chatter_countLine r)
    · exact hafter l' hl'

/-- The hits of a pattern in an honest stdout: nothing in chatter and in test lines. -/
theorem founds_of_lines {b : Re} {gs : List (Nat × Str)} {lines : List Str}
    (h : ∀ l ∈ lines, Silent u b l ∨ Found u b l gs) : ∃ founds,
      List.Forall₂ (Reads u b) lines founds ∧ (∀ f ∈ founds.reduceOption, f = gs) ∧
        ((∃ l ∈ lines, Found u b l gs) → gs ∈ founds.reduceOption) := by
  classical
  refine ⟨lines.map fun l => if Found u b l gs then some gs else none, ?_, ?_, ?_⟩
  · rw [List.forall₂_map_right_iff, List.forall₂_same]
    intro l hl
    split
    · assumption
    · rename_i hno
      exact (h l hl).resolve_right hno
  · intro f hf
    obtain ⟨l, -, hl⟩ := List.mem_map.mp (List.reduceOption_mem_iff.mp hf)
    split at hl
    · exact (Option.some.inj hl).symm
    · cases hl
  · rintro ⟨l, hl, hfound⟩
    exact List.reduceOption_mem_iff.mpr (List.mem_map.mpr ⟨l, hl, if_pos hfound⟩)

theorem honest_oneLine {before after : List Str} (hnames : ∀ t ∈ r.records, Nameable t.1)
    (hbefore : ∀ l ∈ before, Chatter u l)
    (hafter : ∀ l ∈ after, Chatter u l ∨ Summary r.passed r.total l) :
    ∀ l ∈ before ++ r.records.map Recorder.testLine ++ after, '\n' ∉ l := by
  intro l hl
  rcases List.mem_append.mp hl with hl | hl
  · rcases List.mem_append.mp hl with hl | hl
    · exact (hbefore l hl).oneLine
    · obtain ⟨t, ht, rfl⟩ := List.mem_map.mp hl
      exact testLine_oneLine (hnames t ht)
  · exact (hafter l hl).elim Chatter.oneLine Summary.oneLine

def verdictGroups (t : Str × Bool) : List (Nat × Str) :=
  [(2, t.1), (1, if t.2 then "PASS".toList else "FAIL".toList)]

theorem htestPairs_honest {output : Str} (h : Honest u r output) : htestPairs u output = r.pairs := by
  obtain ⟨before, after, rfl, hbefore, hafter, l, hl, -⟩ := h.lines
  have hreads : List.Forall₂ (Reads u htestBody) (before ++ r.records.map Recorder.testLine ++ after)
      (before.map (fun _ => none) ++ r.records.map (fun t => some (verdictGroups t)) ++
        after.map fun _ => none) := by
    refine List.rel_append (List.rel_append ?_ ?_) ?_
    · rw [List.forall₂_map_right_iff, List.forall₂_same]
      exact fun l hl => (hbefore l hl).noTest
    · rw [List.forall₂_map_left_iff, List.forall₂_map_right_iff, List.forall₂_same]
      exact fun t ht => found_testLine (h.names t ht)
    · rw [List.forall₂_map_right_iff, List.forall₂_same]
      exact fun l hl => (hafter l hl).elim Chatter.noTest Summary.noTest
  have hhits := findIter_lines (List.ne_nil_of_mem (List.mem_append_right _ hl))
    (honest_oneLine h.names hbefore hafter) hreads
  have hfounds : (before.map (fun _ => none) ++ r.records.map (fun t => some (verdictGroups t)) ++
      after.map fun _ => none).reduceOption = r.records.map verdictGroups := by
    have hnone : ∀ ls : List Str, (ls.map fun _ => (none : Option (List (Nat × Str)))).reduceOption =
        [] := fun ls => by rw [List.map_const', List.reduceOption_replicate_none]
    have hsome : (r.records.map fun t => some (verdictGroups t)).reduceOption =
        r.records.map verdictGroups := by
      induction r.records with
      | nil => rfl
      | cons t ts ih => rw [List.map_cons, List.reduceOption_cons_of_some, ih, List.map_cons]
    rw [List.reduceOption_append, List.reduceOption_append, hnone, hnone, hsome, List.nil_append,
      List.append_nil]
  rw [hfounds] at hhits
  have hpairs : htestPairs u (joinStr ['\n'] (before ++ r.records.map Recorder.testLine ++ after)) =
      ((findIter u (.seq .bol htestBody) (joinStr ['\n']
        (before ++ r.records.map Recorder.testLine ++ after))).map Hit.groups).map fun gs =>
          ((gs.lookup 2).getD [],
            if (gs.lookup 1).getD [] = "PASS".toList then passText else failText) := by
    rw [List.map_map]
    rfl
  rw [hpairs, hhits, List.map_map, Recorder.pairs]
  refine List.map_congr_left fun t _ => ?_
  obtain ⟨name, ok⟩ := t
  cases ok <;> rfl

/-- A line of an honest stdout is read by at most one of the summary patterns, and as the counts. -/
theorem honest_summaries {before after : List Str} (hbefore : ∀ l ∈ before, Chatter u l)
    (hafter : ∀ l ∈ after, Chatter u l ∨ Summary r.passed r.total l) :
    ∀ l ∈ before ++ r.records.map Recorder.testLine ++ after,
      (Silent u summaryBody l ∨ Found u summaryBody l (counts r.passed r.total)) ∧
        (Silent u shortBody l ∨ Found u shortBody l (counts r.passed r.total)) := by
  intro l hl
  rcases List.mem_append.mp hl with hl | hl
  · rcases List.mem_append.mp hl with hl | hl
    · exact ⟨.inl (hbefore l hl).noSummary, .inl (hbefore l hl).noShort⟩
    · obtain ⟨t, -, rfl⟩ := List.mem_map.mp hl
      exact ⟨.inl (testLine_noSummary t).1, .inl (testLine_noSummary t).2⟩
  · rcases hafter l hl with h | h
    · exact ⟨.inl h.noSummary, .inl h.noShort⟩
    · rcases h.reads with ⟨hfound, hsilent⟩ | ⟨hsilent, hfound⟩
      · exact ⟨.inr hfound, .inl hsilent⟩
      · exact ⟨.inl hsilent, .inr hfound⟩

theorem pyInt_natStr {n : Nat} (h : (natStr n).length ≤ maxIntDigits) : pyInt u (natStr n) = .ok n := by
  rw [pyInt, if_neg (by omega), natStr, digitsValue_toDigits]

theorem scanAllScores_counts {output : Str} {passed total : Nat}
    (hpassed : (natStr passed).length ≤ maxIntDigits) (htotal : (natStr total).length ≤ maxIntDigits)
    (hhits : ∀ h ∈ hiddenPatterns.flatMap fun b => findIter u b output, h.groups = counts passed total)
    (hne : (hiddenPatterns.flatMap fun b => findIter u b output) ≠ []) :
    ∃ summaries, scanAllScores u output hiddenPatterns = .ok summaries ∧ summaries ≠ [] ∧
      ∀ s ∈ summaries, s = (passed, total) := by
  rw [scanAllScores]
  generalize (hiddenPatterns.flatMap fun b => findIter u b output) = hits at hhits hne ⊢
  have hmap : (hits.mapM fun h => do
      let n ← pyInt u (h.group 1)
      let m ← pyInt u (h.group 2)
      return (h.start, n, m) : Outcome (List (Nat × Nat × Nat))) =
      .ok (hits.map fun h => (h.start, passed, total)) := by
    clear hne
    induction hits with
    | nil => rfl
    | cons h hits ih =>
      have hgroups := hhits h List.mem_cons_self
      have h1 : h.group 1 = natStr passed := by rw [Hit.group, hgroups]; rfl
      have h2 : h.group 2 = natStr total := by rw [Hit.group, hgroups]; rfl
      rw [List.mapM_cons, ih fun h' hh' => hhits h' (List.mem_cons_of_mem _ hh'), h1, h2,
        pyInt_natStr hpassed, pyInt_natStr htotal]
      rfl
  refine ⟨_, by rw [hmap]; rfl, ?_, ?_⟩
  · intro hnil
    have hlength := congrArg List.length hnil
    rw [List.length_map, List.length_insertionSort, List.length_map] at hlength
    exact hne (List.length_eq_zero_iff.mp hlength)
  · intro s hs
    obtain ⟨x, hx, rfl⟩ := List.mem_map.mp hs
    obtain ⟨h, -, rfl⟩ := List.mem_map.mp ((List.mem_insertionSort hitLe).mp hx)
    rfl

theorem scanAllScores_honest {output : Str} (h : Honest u r output)
    (hpassed : (natStr r.passed).length ≤ maxIntDigits)
    (htotal : (natStr r.total).length ≤ maxIntDigits) :
    ∃ summaries, scanAllScores u output hiddenPatterns = .ok summaries ∧ summaries ≠ [] ∧
      ∀ s ∈ summaries, s = (r.passed, r.total) := by
  obtain ⟨before, after, rfl, hbefore, hafter, l, hl, hsummary⟩ := h.lines
  have hne := List.ne_nil_of_mem (List.mem_append_right
    (before ++ r.records.map Recorder.testLine) hl)
  have hlines := honest_oneLine h.names hbefore hafter
  have hread := honest_summaries (u := u) hbefore hafter
  obtain ⟨longs, hlong, hlongs, hsomeLong⟩ := founds_of_lines fun l hl => (hread l hl).1
  obtain ⟨shorts, hshort, hshorts, hsomeShort⟩ := founds_of_lines fun l hl => (hread l hl).2
  have hhits1 := findIter_lines hne hlines hlong
  have hhits2 := findIter_lines hne hlines hshort
  refine scanAllScores_counts hpassed htotal ?_ ?_
  · intro hit hmem
    rw [hiddenPatterns_eq, List.flatMap_cons, List.flatMap_singleton] at hmem
    rcases List.mem_append.mp hmem with hmem | hmem
    · exact hlongs _ (hhits1 ▸ List.mem_map_of_mem hmem)
    · exact hshorts _ (hhits2 ▸ List.mem_map_of_mem hmem)
  · rw [hiddenPatterns_eq, List.flatMap_cons, List.flatMap_singleton, ne_eq, List.append_eq_nil_iff]
    rintro ⟨hnil1, hnil2⟩
    rw [hnil1] at hhits1
    rw [hnil2] at hhits2
    rcases hsummary.reads (u := u) with ⟨hfound, -⟩ | ⟨-, hfound⟩
    · have hmem := hsomeLong ⟨l, List.mem_append_right _ hl, hfound⟩
      rw [← hhits1] at hmem
      cases hmem
    · have hmem := hsomeShort ⟨l, List.mem_append_right _ hl, hfound⟩
      rw [← hhits2] at hmem
      cases hmem

end Output

namespace Recorder
variable {py : Interpreter} {ft : FloatText} {task : TaskKey} {spec : HarnessSpec} {r : Recorder}
  {p : Process} {nonce output : Str}

/-- What an honest run leaves backs its verdict. -/
theorem backed_honest (hp : p.listening = true) (hnonce : p.nonce = some nonce)
    (hqid : r.qid = (taskMeta task).qid) (hread : ReadsBack py ft r p)
    (hspec : spec.hiddenTests ≠ [])
    (hnames : ∀ name, name ∈ r.records.map Prod.fst ↔ name ∈ spec.hiddenTests)
    (hpassed : (natStr r.passed).length ≤ maxIntDigits)
    (htotal : (natStr r.total).length ≤ maxIntDigits) (hout : Honest py.unicode r output) :
    Backed py task output (r.sealText ft p) nonce spec r.pairs := by
  obtain ⟨summaries, hs, hne, hall⟩ := scanAllScores_honest hout hpassed htotal
  refine ⟨hspec, ⟨htestPairs_honest hout, summaries, hs, hne, ?_⟩, r.sortedFields p, ?_, ?_⟩
  · intro s hs
    rw [hall s hs, passCount_pairs, pairs_length]
  · refine ⟨r.sealedLine ft p, ?_, ?_⟩
    · rw [sealText, if_pos hp, sealedLines, splitlines_line fun c hc =>
        isBoundary_of_printable (r.sealedLine_printable c hc)]
      have hstart : startsWith (r.sealedLine ft p) hiddenResultPrefix = true :=
        startsWith_iff.mpr (List.prefix_append _ _)
      rw [List.filter_cons, if_pos hstart]
      rfl
    · rw [sealedLine, List.drop_left, hread, sortKeys_payload]
  · have hpairs : r.pairs = (r.pairs.map fun t => ((.str t.1 : Json), (.str t.2 : Json))).map
        fun row => (py.str row.1, py.str row.2) := by
      rw [List.map_map]
      refine (List.map_id'' (fun t => ?_) _).symm
      exact Prod.ext (py.str_str _) (py.str_str _)
    constructor
    · exact beq_self_eq_true hiddenProtocol
    · change (optionText p.nonce).eqStr nonce = true
      rw [hnonce]
      exact beq_self_eq_true nonce
    · rw [← hqid]
      exact beq_self_eq_true r.qid
    · rfl
    · exact ⟨_, testRows_pairs r.pairs, hpairs⟩
    · exact r.pairs_status
    · rw [pairs_names]
      exact r.distinct
    · rw [pairs_names]
      exact hnames
    · rw [pairs_length]
      exact beq_self_eq_true (r.total : Int)
    · rw [passCount_pairs]
      exact beq_self_eq_true (r.passed : Int)

/-- A runner that has recorded its tests and published once is believed, with the numbers of its own
tests. -/
theorem publish_believed {tests : List (Str × Bool)}
    (hrun : (new (taskMeta task).qid).recordAll py tests = .ok r) (hp : p.listening = true)
    (hnonce : p.nonce = some nonce) (hread : ReadsBack py ft r p) (hspec : spec.hiddenTests ≠ [])
    (hnames : ∀ name, name ∈ tests.map Prod.fst ↔ name ∈ spec.hiddenTests)
    (hdigits : ∀ n ≤ tests.length, (natStr n).length ≤ maxIntDigits)
    (hout : Honest py.unicode r output) :
    ∃ v, verifyHiddenResult py task output (r.publish ft p).1 nonce spec = .ok v ∧ v.ok = true ∧
      v.passed = some (tests.filter Prod.snd).length ∧ v.total = some tests.length := by
  obtain ⟨hqid, hrecords⟩ := recordAll_eq_ok.mp hrun
  have htests : r.records = tests := hrecords
  have hpassed : r.passed = (tests.filter Prod.snd).length := by rw [passed, htests]
  have htotal : r.total = tests.length := by rw [total, htests]
  have hbacked : Backed py task output (r.sealText ft p) nonce spec r.pairs := by
    refine backed_honest hp hnonce hqid hread hspec (by rw [htests]; exact hnames) ?_ ?_ hout
    · rw [hpassed]
      exact hdigits _ (List.length_filter_le _ _)
    · rw [htotal]
      exact hdigits _ le_rfl
  obtain ⟨v, hv, hok, hvpassed, hvtotal⟩ := verify_ok_iff.mpr ⟨r.pairs, hbacked, rfl, rfl⟩
  refine ⟨v, hv, hok, ?_, ?_⟩
  · rw [hvpassed, passCount_pairs, hpassed]
  · rw [hvtotal, pairs_length, htotal]

/-- A runner with a test that passes and one that fails, and what it leaves. -/
def twoTests : List (Str × Bool) := [("t1".toList, true), ("t2".toList, false)]

def twoRecorder : Recorder := ⟨(taskMeta .q26HiddenTests).qid, twoTests, by decide⟩

def twoProcess : Process := ⟨true, some "0".toList, 1, none⟩

def linesBefore : List Str := ["hok   t1", "HFAIL t2", "      AssertionError: no", ""].map String.toList

def linesAfter : List Str :=
  ["", "HIDDEN SUMMARY: 1/2 passed, 1 failed", "HIDDEN FAILED:", "  - t2: no", ""].map String.toList

def twoOutput : Str :=
  (linesBefore.flatMap fun l => l ++ ['\n']) ++ twoRecorder.stdoutText ++ joinStr ['\n'] linesAfter

def twoPython : Interpreter :=
  .ofTable [(dumps sealStyle plainFloatText (twoRecorder.payload twoProcess),
    (twoRecorder.payload twoProcess).sortKeys)]

def twoSpec : HarnessSpec := ⟨[], false, ["t1".toList, "t2".toList]⟩

theorem two_readsBack : ReadsBack twoPython plainFloatText twoRecorder twoProcess := by
  simp [ReadsBack, twoPython, Interpreter.ofTable]

theorem two_honest : Honest twoPython.unicode twoRecorder twoOutput where
  names := by
    intro t ht
    rcases List.mem_pair.mp ht with rfl | rfl
    · refine ⟨by decide, by decide, ?_⟩
      rintro c ⟨⟩
      decide
    · refine ⟨by decide, by decide, ?_⟩
      rintro c ⟨⟩
      decide
  text := by
    have hsummary : Summary twoRecorder.passed twoRecorder.total
        "HIDDEN SUMMARY: 1/2 passed, 1 failed".toList :=
      Summary.long ", 1 failed".toList (by decide)
    refine ⟨linesBefore, linesAfter, rfl, ?_, ?_, _, .tail _ (.head _), hsummary⟩
    · have hstart : ∀ l ∈ linesBefore, '\n' ∉ l ∧ ¬ "HTEST ".toList <+: l ∧ ¬ "HIDDEN".toList <+: l := by
        decide
      exact fun l hl => chatter_of_start (hstart l hl).1 (hstart l hl).2.1 (hstart l hl).2.2
    · intro l hl
      simp only [linesAfter, List.map_cons, List.map_nil, List.mem_cons, List.not_mem_nil, or_false] at hl
      rcases hl with rfl | rfl | rfl | rfl | rfl
      · exact .inl (chatter_of_start (by decide) (by decide) (by decide))
      · exact .inr hsummary
      · exact .inl chatter_failed
      · exact .inl (chatter_of_start (by decide) (by decide) (by decide))
      · exact .inl (chatter_of_start (by decide) (by decide) (by decide))

theorem two_digits : ∀ n ≤ 2, (natStr n).length ≤ maxIntDigits := by
  intro n hn
  interval_cases n <;> decide

theorem publish_believed_two : ∃ v, verifyHiddenResult twoPython .q26HiddenTests twoOutput
    (twoRecorder.publish plainFloatText twoProcess).1 "0".toList twoSpec = .ok v ∧ v.ok = true ∧
      v.passed = some 1 ∧ v.total = some 2 := by
  have hrun : (new (taskMeta .q26HiddenTests).qid).recordAll twoPython twoTests = .ok twoRecorder :=
    recordAll_eq_ok.mpr ⟨rfl, rfl⟩
  exact publish_believed hrun rfl rfl two_readsBack (by decide) (fun name => Iff.rfl) two_digits
    two_honest

-- The candidate's code writes a line before the record and starts another one after it.
theorem believed_own_two : ∃ v, verifyHiddenResult twoPython .q26HiddenTests twoOutput
    ("loading\n".toList ++ twoRecorder.sealText plainFloatText twoProcess ++ "done".toList)
      "0".toList twoSpec = .ok v ∧
      v.passed = some twoRecorder.passed ∧ v.total = some twoRecorder.total := by
  obtain ⟨htests, hstdout, fields, ⟨line, hlines, hloads⟩, hrecord⟩ :
      Backed twoPython .q26HiddenTests twoOutput
        (twoRecorder.sealText plainFloatText twoProcess) "0".toList twoSpec twoRecorder.pairs :=
    backed_honest rfl rfl rfl two_readsBack (by decide) (fun name => Iff.rfl)
      (two_digits 1 (by decide)) (two_digits 2 le_rfl) two_honest
  have haround : sealedLines ("loading\n".toList ++
      twoRecorder.sealText plainFloatText twoProcess ++ "done".toList) =
      sealedLines "loading\n".toList ++
        twoRecorder.sealedLine plainFloatText twoProcess :: sealedLines "done".toList :=
    twoRecorder.sealedLines_around rfl (.inr (by decide))
  have halone : sealedLines ([] ++ twoRecorder.sealText plainFloatText twoProcess ++ []) =
      sealedLines [] ++ twoRecorder.sealedLine plainFloatText twoProcess :: sealedLines [] :=
    twoRecorder.sealedLines_around rfl (.inl rfl)
  rw [List.nil_append, List.append_nil, hlines] at halone
  have hsame : sealedLines ("loading\n".toList ++ twoRecorder.sealText plainFloatText twoProcess ++
      "done".toList) = [line] := by
    rw [haround, halone]
    rfl
  obtain ⟨v, hv, hok, -⟩ := verify_ok_iff.mpr
    ⟨twoRecorder.pairs, ⟨htests, hstdout, fields, ⟨line, hsame, hloads⟩, hrecord⟩, rfl, rfl⟩
  obtain ⟨hpassed, htotal, -⟩ :=
    twoRecorder.believed_own rfl two_readsBack (.inr (by decide)) hv hok
  exact ⟨v, hv, hpassed, htotal⟩

end Recorder

end Round4
