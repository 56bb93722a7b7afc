import LlmHardtest.Round4.Public
set_option autoImplicit false

/-! Which summary line of a run the score is taken from. -/

namespace Round4
open Python Python.Regex

abbrev SummaryLine := Nat × Nat × Nat

def readSummary (u : UnicodeData) (h : Hit) : Outcome SummaryLine := do
  let n ← pyInt u (h.group 1)
  let m ← pyInt u (h.group 2)
  return (h.start, n, m)

def summaryLines (u : UnicodeData) (text : Str) (patterns : List Re) : Outcome (List SummaryLine) :=
  (patterns.flatMap fun r => findIter u r text).mapM (readSummary u)

def StandsLast (lines : List SummaryLine) (line : SummaryLine) : Prop :=
  line ∈ lines ∧ ∀ other ∈ lines, hitLe other line

/-- Behind the last line of the last format that matches stands no line of a format before it, or the
last of them shows the same numbers. Lines of one format stand in the order of the text; only a match
of nothing leaves two of them in one place. -/
def FinalLineAgrees (u : UnicodeData) (text : Str) (patterns : List Re) : Prop :=
  ∀ before r after earlier own last, patterns = before ++ r :: after →
    (∀ q ∈ after, findIter u q text = []) → summaryLines u text before = .ok earlier →
    summaryLines u text [r] = .ok (own ++ [last]) →
    ∀ line, StandsLast ((earlier ++ own).filter fun other => hitLe last other) line →
      line.2 = last.2

/-- The score is the last of all scores, or none when there are none. -/
def ScoreIsFinal (u : UnicodeData) (text : Str) (patterns : List Re) : Prop :=
  scanScore u text patterns = (scanAllScores u text patterns).map List.getLast?

section Order
variable {a b c : SummaryLine}

theorem hitLe_total (a b : SummaryLine) : hitLe a b ∨ hitLe b a := by
  unfold hitLe
  omega

theorem hitLe_trans (h : hitLe a b) (h' : hitLe b c) : hitLe a c := by
  unfold hitLe at *
  omega

theorem hitLe_antisymm (h : hitLe a b) (h' : hitLe b a) : a = b := by
  obtain ⟨a1, a2, a3⟩ := a
  obtain ⟨b1, b2, b3⟩ := b
  unfold hitLe at h h'
  dsimp only at h h'
  have h1 : a1 = b1 := by omega
  have h2 : a2 = b2 := by omega
  have h3 : a3 = b3 := by omega
  rw [h1, h2, h3]

/-- The line that stands last stands behind any given one, or is it. -/
theorem standsLast_behind {lines : List SummaryLine} {last line : SummaryLine} :
    StandsLast (lines ++ [last]) line ↔
      StandsLast (lines.filter fun other => hitLe last other) line ∨
        line = last ∧ ∀ other ∈ lines, hitLe other last := by
  have hmem : ∀ other, other ∈ lines.filter (fun other => hitLe last other) ↔
      other ∈ lines ∧ hitLe last other := by simp
  constructor
  · rintro ⟨hline, hall⟩
    have hbehind := hall last (by simp)
    rcases List.mem_append.mp hline with hline | hline
    · exact .inl ⟨(hmem line).mpr ⟨hline, hbehind⟩, fun other hother =>
        hall other (List.mem_append_left _ ((hmem other).mp hother).1)⟩
    · obtain rfl := List.mem_singleton.mp hline
      exact .inr ⟨rfl, fun other hother => hall other (List.mem_append_left _ hother)⟩
  · rintro (⟨hline, hall⟩ | ⟨rfl, hall⟩)
    · obtain ⟨hline, hbehind⟩ := (hmem line).mp hline
      refine ⟨List.mem_append_left _ hline, fun other hother => ?_⟩
      rcases List.mem_append.mp hother with hother | hother
      · rcases hitLe_total last other with h | h
        · exact hall other ((hmem other).mpr ⟨hother, h⟩)
        · exact hitLe_trans h hbehind
      · obtain rfl := List.mem_singleton.mp hother
        exact hbehind
    · refine ⟨by simp, fun other hother => ?_⟩
      rcases List.mem_append.mp hother with hother | hother
      · exact hall other hother
      · obtain rfl := List.mem_singleton.mp hother
        exact (hitLe_total other other).elim id id

instance : Std.Total hitLe := ⟨hitLe_total⟩
instance : IsTrans SummaryLine hitLe := ⟨fun _ _ _ => hitLe_trans⟩

theorem standsLast_iff {lines : List SummaryLine} {line : SummaryLine} :
    (lines.insertionSort hitLe).getLast? = some line ↔ StandsLast lines line := by
  have hsorted := List.pairwise_insertionSort hitLe lines
  have hmem : ∀ {l}, l ∈ lines.insertionSort hitLe ↔ l ∈ lines := List.mem_insertionSort hitLe
  have hlast : ∀ {l}, (lines.insertionSort hitLe).getLast? = some l → StandsLast lines l := by
    intro l hl
    obtain ⟨before, hsplit⟩ := List.getLast?_eq_some_iff.mp hl
    refine ⟨hmem.mp (by rw [hsplit]; simp), fun other hother => ?_⟩
    rw [← hmem, hsplit, List.mem_append, List.mem_singleton] at hother
    rw [hsplit, List.pairwise_append] at hsorted
    rcases hother with hother | rfl
    · exact hsorted.2.2 other hother l (by simp)
    · exact (hitLe_total other other).elim id id
  constructor
  · exact hlast
  · intro h
    cases hl : (lines.insertionSort hitLe).getLast? with
    | none =>
      rw [List.getLast?_eq_none_iff] at hl
      have hline := hmem.mpr h.1
      rw [hl] at hline
      exact absurd hline List.not_mem_nil
    | some l =>
      have hs := hlast hl
      rw [hitLe_antisymm (hs.2 line h.1) (h.2 l hs.1)]

end Order

section Scan
variable {u : UnicodeData} {text : Str} {patterns : List Re}

theorem scanHits_eq (hits : List Hit) (best : Option (Nat × Nat)) :
    hits.foldlM (fun _ h => do
      let n ← pyInt u (h.group 1)
      let m ← pyInt u (h.group 2)
      return some (n, m)) best =
      (hits.mapM (readSummary u)).map fun lines => ((lines.map Prod.snd).getLast?).or best := by
  induction hits generalizing best with
  | nil => rfl
  | cons h hits ih =>
    rw [List.foldlM_cons, List.mapM_cons, readSummary]
    cases hn : pyInt u (h.group 1) with
    | error e => rfl
    | ok n =>
      cases hm : pyInt u (h.group 2) with
      | error e => rfl
      | ok m =>
        change hits.foldlM _ (some (n, m)) = _
        rw [ih]
        change _ = Except.map _ (do return (h.start, n, m) :: (← hits.mapM (readSummary u)))
        cases hits.mapM (readSummary u) with
        | error e => rfl
        | ok lines =>
          change Except.ok _ = Except.ok _
          dsimp only
          rw [List.map_cons, List.getLast?_cons]
          cases (lines.map Prod.snd).getLast? with
          | none => rfl
          | some pair => rfl

theorem scanScore_eq : scanScore u text patterns =
    (summaryLines u text patterns).map fun lines => (lines.map Prod.snd).getLast? := by
  rw [scanScore, scanHits_eq, summaryLines]
  simp only [Option.or_none]

theorem scanAllScores_eq : scanAllScores u text patterns =
    (summaryLines u text patterns).map fun lines => (lines.insertionSort hitLe).map Prod.snd := by
  change (summaryLines u text patterns >>= _) = _
  cases summaryLines u text patterns with
  | error e => rfl
  | ok lines => rfl

theorem exists_last_matching {f : Re → List Hit} (h : patterns.flatMap f ≠ []) :
    ∃ before r after, patterns = before ++ r :: after ∧ (∀ q ∈ after, f q = []) ∧ f r ≠ [] := by
  induction patterns with
  | nil => exact absurd rfl h
  | cons r rest ih =>
    by_cases hrest : rest.flatMap f = []
    · refine ⟨[], r, rest, rfl, List.flatMap_eq_nil_iff.mp hrest, fun hr => h ?_⟩
      rw [List.flatMap_cons, hr, hrest, List.append_nil]
    · obtain ⟨before, r', after, rfl, hafter, hr⟩ := ih hrest
      exact ⟨r :: before, r', after, rfl, hafter, hr⟩

theorem summaryLines_split {before after : List Re} {r : Re}
    (hafter : ∀ q ∈ after, findIter u q text = []) {lines : List SummaryLine} :
    summaryLines u text (before ++ r :: after) = .ok lines ↔
      ∃ earlier own, summaryLines u text before = .ok earlier ∧
        summaryLines u text [r] = .ok own ∧ lines = earlier ++ own := by
  have hhits : (before ++ r :: after).flatMap (fun r => findIter u r text) =
      before.flatMap (fun r => findIter u r text) ++ [r].flatMap fun r => findIter u r text := by
    rw [List.flatMap_append, List.flatMap_cons, List.flatMap_eq_nil_iff.mpr hafter]
    simp
  rw [summaryLines, hhits, List.mapM_append, Failures.bind_eq_ok]
  constructor
  · rintro ⟨earlier, hearlier, h⟩
    obtain ⟨own, hown, h⟩ := Failures.bind_eq_ok.mp h
    cases h
    exact ⟨earlier, own, hearlier, hown, rfl⟩
  · rintro ⟨earlier, own, hearlier, hown, rfl⟩
    exact ⟨earlier, hearlier, Failures.bind_eq_ok.mpr ⟨own, hown, rfl⟩⟩

theorem scoreIsFinal_of_lines {lines : List SummaryLine}
    (hlines : summaryLines u text patterns = .ok lines) : ScoreIsFinal u text patterns ↔
      ∀ last ∈ lines.getLast?, ∀ line, StandsLast lines line → line.2 = last.2 := by
  rw [ScoreIsFinal, scanScore_eq, scanAllScores_eq, hlines]
  change Except.ok _ = Except.ok _ ↔ _
  dsimp only
  rw [Except.ok.injEq, List.getLast?_map, List.getLast?_map]
  cases hl : lines.getLast? with
  | none =>
    rw [List.getLast?_eq_none_iff] at hl
    subst hl
    exact iff_of_true rfl (by simp)
  | some last =>
    have hne : lines.insertionSort hitLe ≠ [] := by
      rw [← List.length_pos_iff, List.length_insertionSort, List.length_pos_iff]
      rintro rfl
      cases hl
    obtain ⟨final, hfinal⟩ := List.getLast?_isSome.mpr hne |> Option.isSome_iff_exists.mp
    rw [hfinal]
    have hstands := standsLast_iff.mp hfinal
    simp only [Option.map_some, Option.some.injEq, Option.mem_def, forall_eq']
    constructor
    · intro h line hline
      rw [hitLe_antisymm (hstands.2 line hline.1) (hline.2 final hstands.1)]
      exact h.symm
    · intro h
      exact (h final hstands).symm

/-- The score is that of the last summary line exactly when no format listed before the last one that
matches has other numbers behind it. -/
theorem scoreIsFinal_iff (u : UnicodeData) (text : Str) (patterns : List Re) :
    ScoreIsFinal u text patterns ↔ FinalLineAgrees u text patterns := by
  constructor
  · rintro hfinal before r after earlier own last rfl hafter hearlier hown line hline
    have hlines := (summaryLines_split hafter).mpr ⟨earlier, _, hearlier, hown, rfl⟩
    rw [← List.append_assoc] at hlines
    exact (scoreIsFinal_of_lines hlines).mp hfinal last (by simp) line
      (standsLast_behind.mpr (.inl hline))
  · intro hagrees
    cases hlines : summaryLines u text patterns with
    | error e =>
      rw [ScoreIsFinal, scanScore_eq, scanAllScores_eq, hlines]
      rfl
    | ok lines =>
      refine (scoreIsFinal_of_lines hlines).mpr fun last hlast line hline => ?_
      have hhits : patterns.flatMap (fun r => findIter u r text) ≠ [] := by
        intro hnil
        rw [summaryLines, hnil] at hlines
        cases hlines
        cases hlast
      obtain ⟨before, r, after, rfl, hafter, hr⟩ := exists_last_matching hhits
      obtain ⟨earlier, own, hearlier, hown, rfl⟩ := (summaryLines_split hafter).mp hlines
      have hlength : own.length = (findIter u r text).length := by
        simpa using Outcome.mapM_length hown
      rcases List.eq_nil_or_concat own with rfl | ⟨init, last', rfl⟩
      · exact absurd (List.length_eq_zero_iff.mp hlength.symm) hr
      · rw [List.concat_eq_append] at *
        rw [← List.append_assoc] at hlast hline
        obtain rfl : last' = last := by simpa using hlast
        rcases standsLast_behind.mp hline with hbehind | ⟨rfl, -⟩
        · exact hagrees before r after earlier init last' rfl hafter hearlier hown line hbehind
        · rfl

end Scan

def crossedText : Str := "PUBLIC: 1/2 passed
SUMMARY: 2/2 passed
".toList

/-- The score is 1/2, the last summary of the run is 2/2. -/
theorem crossedText_notFinal : ¬ ScoreIsFinal asciiData crossedText publicPatterns := by
  have hscore : (scanScore asciiData crossedText publicPatterns).toOption = some (some (1, 2)) := by
    decide +kernel
  have hall : scanAllScores asciiData crossedText publicPatterns = .ok [(1, 2), (2, 2)] :=
    Failures.toOption_eq_some.mp (by decide +kernel)
  intro h
  rw [ScoreIsFinal] at h
  rw [h, hall] at hscore
  exact absurd hscore (by decide)

end Round4
