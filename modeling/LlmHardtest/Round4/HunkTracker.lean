import LlmHardtest.Round4.Risk
set_option autoImplicit false

/-! The hunk-number tracker over a rendered difference: on a pristine text of whole lines it
recovers every removed line with its number. -/

namespace Round4
open Python Python.Regex Python.Difflib

section Tracker
variable {u : UnicodeData}

theorem trackRemoved_cons (ln : Option Nat) (raw : Str) (rest : List Str) :
    trackRemoved u ln (raw :: rest) =
      match matchStart u hunkStart raw with
      | some p => do
          let n ← pyInt u ((p.groups.lookup 1).getD [])
          trackRemoved u (some n) rest
      | none =>
          match ln with
          | none => trackRemoved u none rest
          | some n =>
              if startsWith raw "---".toList then trackRemoved u (some n) rest
              else if startsWith raw ['-'] then do
                let out ← trackRemoved u (some (n + 1)) rest
                return (n, raw) :: out
              else if startsWith raw ['+'] then trackRemoved u (some n) rest
              else trackRemoved u (some (n + 1)) rest := by
  cases ln <;> rfl

theorem not_hunkStart {raw : Str} (h : ¬ ['@', '@', ' ', '-'] <+: raw) : matchStart u hunkStart raw = none := by
  have hnil := ends_lits_eq_nil (u := u) h none []
  simp [matchStart, hunkStart, Re.cat, Pos.atStart, ends, Re.lit, hnil]

theorem isDigit_decimal {c : Char} (h : c.isDigit = true) : (u.decimal c).isSome = true := by
  have h' := h
  simp only [Char.isDigit, Bool.and_eq_true, decide_eq_true_eq] at h'
  have h2 : c.toNat ≤ 57 := UInt32.le_iff_toNat_le.mp h'.2
  rw [u.decimal_ascii c (by omega), if_pos h]
  rfl

theorem hunkStart_number {t : Str} (n : Nat) (ht : ∀ c ∈ t.head?, (u.decimal c).isSome = false) :
    ∃ p, matchStart u hunkStart ("@@ -".toList ++ (Nat.toDigits 10 n ++ t)) = some p ∧
      p.groups.lookup 1 = some (Nat.toDigits 10 n) := by
  have hdig : ∀ c ∈ Nat.toDigits 10 n, (u.decimal c).isSome = true := fun c hc =>
    isDigit_decimal (Nat.isDigit_of_mem_toDigits (by omega) (by omega) hc)
  obtain ⟨prev, hlit⟩ := ends_lits (u := u) "@@ -".toList (Nat.toDigits 10 n ++ t) none []
  obtain ⟨prev', hnum⟩ := ends_some_set_head (u := u) (q := fun u d => (u.decimal d).isSome) prev []
    Nat.toDigits_ne_nil hdig ht
  have hgroup := ends_group_head (n := 1) hnum
  refine ⟨⟨prev', t, [(1, Nat.toDigits 10 n)]⟩, ?_, rfl⟩
  unfold matchStart hunkStart Pos.atStart
  simp only [Re.cat, ends, Re.lit, true_or, if_true, List.flatMap_cons, List.flatMap_nil,
    List.append_nil, hlit]
  exact hgroup

/-- Reading `raws` from the line number `ln` records `out` and leaves the number `ln'`. -/
def Tracks (u : UnicodeData) (ln : Option Nat) (raws : List Str) (out : List (Nat × Str))
    (ln' : Option Nat) : Prop :=
  ∀ rest, trackRemoved u ln (raws ++ rest) = (trackRemoved u ln' rest).map (out ++ ·)

theorem Tracks.nil (ln : Option Nat) : Tracks u ln [] [] ln := by
  intro rest
  cases h : trackRemoved u ln rest <;> simp [h, Except.map]

theorem Tracks.append {ln ln' ln'' : Option Nat} {xs ys : List Str} {o o' : List (Nat × Str)}
    (hx : Tracks u ln xs o ln') (hy : Tracks u ln' ys o' ln'') :
    Tracks u ln (xs ++ ys) (o ++ o') ln'' := by
  intro rest
  rw [List.append_assoc, hx, hy]
  cases trackRemoved u ln'' rest <;> simp [Except.map]

theorem Tracks.result {raws : List Str} {out : List (Nat × Str)} {ln ln' : Option Nat}
    (h : Tracks u ln raws out ln') : trackRemoved u ln raws = .ok out := by
  have h0 := h []
  simpa [trackRemoved, Except.map] using h0

theorem tracks_before_hunk {raw : Str} (h : ¬ ['@', '@', ' ', '-'] <+: raw) :
    Tracks u none [raw] [] none := by
  intro rest
  rw [List.singleton_append, trackRemoved_cons, not_hunkStart h]
  cases trackRemoved u none rest <;> simp [Except.map]

theorem tracks_header {raw : Str} {p : Pos} {d : Str} {n : Nat} {ln : Option Nat}
    (hp : matchStart u hunkStart raw = some p) (hd : p.groups.lookup 1 = some d)
    (hn : pyInt u d = .ok n) : Tracks u ln [raw] [] (some n) := by
  intro rest
  rw [List.singleton_append, trackRemoved_cons, hp]
  simp only [hd, Option.getD_some, hn]
  cases h : trackRemoved u (some n) rest <;> simp [h, Except.map, bind, Except.bind]

theorem not_at_of_cons {c : Char} {x : Str} (hc : c ≠ '@') : ¬ ['@', '@', ' ', '-'] <+: c :: x := by
  rintro ⟨t, ht⟩
  injection ht with h1 _
  exact hc h1.symm

theorem tracks_context (n : Nat) (x : Str) : Tracks u (some n) [' ' :: x] [] (some (n + 1)) := by
  intro rest
  rw [List.singleton_append, trackRemoved_cons, not_hunkStart (not_at_of_cons (by decide))]
  simp only [startsWith]
  cases trackRemoved u (some (n + 1)) rest <;> simp [Except.map]

theorem tracks_plus (n : Nat) (x : Str) : Tracks u (some n) ['+' :: x] [] (some n) := by
  intro rest
  rw [List.singleton_append, trackRemoved_cons, not_hunkStart (not_at_of_cons (by decide))]
  simp only [startsWith]
  cases trackRemoved u (some n) rest <;> simp [Except.map]

theorem tracks_minus (n : Nat) {x : Str} (hx : ¬ ['-', '-'] <+: x) :
    Tracks u (some n) ['-' :: x] [(n, '-' :: x)] (some (n + 1)) := by
  intro rest
  rw [List.singleton_append, trackRemoved_cons, not_hunkStart (not_at_of_cons (by decide))]
  have h3 : startsWith ('-' :: x) "---".toList = false := by
    have hp : ['-', '-'].isPrefixOf x = false := by
      rw [← Bool.not_eq_true, List.isPrefixOf_iff_prefix]
      exact hx
    simp [startsWith, hp]
  have h1 : startsWith ('-' :: x) ['-'] = true := by simp [startsWith]
  simp only [h3, h1, if_true]
  cases trackRemoved u (some (n + 1)) rest <;> rfl

def removedOf (a : List Str) (c : Opcode) : List (Nat × Str) :=
  if c.tag = .replace ∨ c.tag = .delete then
    ((slice a c.i1 c.i2).zipIdx (c.i1 + 1)).map fun e => (e.2, '-' :: chomp e.1)
  else []

theorem chomp_mark {c : Char} (hc : isBoundary c = false) {x : Str} (hx : Piece x) :
    chomp (c :: x) = c :: chomp x :=
  chomp_bare_append (u := [c]) (by simpa using hc) hx.ne_nil

theorem tracks_contexts {xs : List Str} (hx : ∀ x ∈ xs, Piece x) (n : Nat) :
    Tracks u (some n) ((xs.map (' ' :: ·)).map chomp) [] (some (n + xs.length)) := by
  induction xs generalizing n with
  | nil => exact Tracks.nil _
  | cons x xs ih =>
    have hrest := ih (fun y hy => hx y (by simp [hy])) (n + 1)
    have h := (tracks_context (u := u) n (chomp x)).append hrest
    rw [← chomp_mark not_boundary_marks.1 (hx x (by simp))] at h
    have e : n + 1 + xs.length = n + (x :: xs).length := by simp; omega
    rw [e] at h
    exact h

theorem tracks_pluses {xs : List Str} (hx : ∀ x ∈ xs, Piece x) (n : Nat) :
    Tracks u (some n) ((xs.map ('+' :: ·)).map chomp) [] (some n) := by
  induction xs with
  | nil => exact Tracks.nil _
  | cons x xs ih =>
    have h := (tracks_plus (u := u) n (chomp x)).append (ih fun y hy => hx y (by simp [hy]))
    rw [← chomp_mark not_boundary_marks.2.2 (hx x (by simp))] at h
    exact h

theorem tracks_minuses {xs : List Str} (hx : ∀ x ∈ xs, Piece x)
    (hd : ∀ x ∈ xs, ¬ ['-', '-'] <+: chomp x) (n : Nat) :
    Tracks u (some n) ((xs.map ('-' :: ·)).map chomp)
      ((xs.zipIdx n).map fun e => (e.2, '-' :: chomp e.1)) (some (n + xs.length)) := by
  induction xs generalizing n with
  | nil => exact Tracks.nil _
  | cons x xs ih =>
    have hrest := ih (fun y hy => hx y (by simp [hy])) (fun y hy => hd y (by simp [hy])) (n + 1)
    have h := (tracks_minus (u := u) n (hd x (by simp))).append hrest
    rw [← chomp_mark not_boundary_marks.2.1 (hx x (by simp))] at h
    have e : n + 1 + xs.length = n + (x :: xs).length := by simp; omega
    rw [e] at h
    simpa [List.zipIdx_cons, chomp_mark not_boundary_marks.2.1 (hx x (by simp))] using h

theorem length_slice {α : Type} (l : List α) {i j : Nat} (hj : j ≤ l.length) :
    (slice l i j).length = j - i := by
  simp [slice]
  omega

section Render
variable {a b : List Str} (ha : ∀ x ∈ a, Piece x) (hb : ∀ x ∈ b, Piece x)
  (hd : ∀ x ∈ a, ¬ ['-', '-'] <+: chomp x)

include ha hb hd in
theorem tracks_code {c : Opcode} (hv : c.Visible a b) :
    Tracks u (some (c.i1 + 1)) ((renderCode a b c).map chomp) (removedOf a c)
      (some (c.i2 + 1)) := by
  have hold : ∀ x ∈ slice a c.i1 c.i2, Piece x :=
    fun x hx => ha x ((slice_sublist a _ _).subset hx)
  have hnew : ∀ x ∈ slice b c.j1 c.j2, Piece x :=
    fun x hx => hb x ((slice_sublist b _ _).subset hx)
  have hdash : ∀ x ∈ slice a c.i1 c.i2, ¬ ['-', '-'] <+: chomp x :=
    fun x hx => hd x ((slice_sublist a _ _).subset hx)
  unfold Opcode.Visible at hv
  unfold renderCode minusPart plusPart removedOf
  cases htag : c.tag <;> simp only [htag, reduceCtorEq, if_true, if_false, or_self, or_true, true_or,
    List.map_append, List.nil_append, List.append_nil] at hv ⊢
  case equal =>
    have h := tracks_contexts (u := u) hold (c.i1 + 1)
    rw [length_slice a hv.2] at h
    have e : c.i1 + 1 + (c.i2 - c.i1) = c.i2 + 1 := by omega
    rwa [e] at h
  case replace =>
    have h := (tracks_minuses (u := u) hold hdash (c.i1 + 1)).append (tracks_pluses hnew _)
    rw [length_slice a hv.2] at h
    have e : c.i1 + 1 + (c.i2 - c.i1) = c.i2 + 1 := by omega
    rwa [e, List.append_nil] at h
  case delete =>
    have h := tracks_minuses (u := u) hold hdash (c.i1 + 1)
    rw [length_slice a hv.2] at h
    have e : c.i1 + 1 + (c.i2 - c.i1) = c.i2 + 1 := by omega
    rwa [e] at h
  case insert =>
    rw [hv.1]
    exact tracks_pluses hnew _

include ha hb hd in
theorem tracks_codes {g : List Opcode} (hv : ∀ c ∈ g, c.Visible a b) {i i' : Nat}
    (hg : Contiguous i g i') :
    Tracks u (some (i + 1)) ((g.flatMap (renderCode a b)).map chomp) (g.flatMap (removedOf a))
      (some (i' + 1)) := by
  induction g generalizing i with
  | nil =>
    obtain rfl : i = i' := hg
    exact Tracks.nil _
  | cons c g ih =>
    have hc := tracks_code (u := u) ha hb hd (hv c (by simp))
    rw [hg.1] at hc
    rw [List.flatMap_cons, List.flatMap_cons, List.map_append]
    exact hc.append (ih (fun d hd => hv d (by simp [hd])) hg.2.2)

include hb in
/-- A group that reads no old line only inserts, whatever number the tracker holds. -/
theorem tracks_insertions {g : List Opcode} (hv : ∀ c ∈ g, c.Visible a b) {i : Nat}
    (hg : Contiguous i g i) (n : Nat) :
    Tracks u (some n) ((g.flatMap (renderCode a b)).map chomp) (g.flatMap (removedOf a))
      (some n) := by
  induction g with
  | nil => exact Tracks.nil _
  | cons c g ih =>
    obtain ⟨h1, h2, h3⟩ := hg
    have hle := h3.le
    have hi : c.i1 = c.i2 := by omega
    have hins : c.tag = .insert := by
      have hvc := hv c (by simp)
      unfold Opcode.Visible at hvc
      by_contra hne
      rw [if_neg hne] at hvc
      omega
    have hnew : ∀ x ∈ slice b c.j1 c.j2, Piece x :=
      fun x hx => hb x ((slice_sublist b _ _).subset hx)
    have hrest : Contiguous i g i := by
      have e : c.i2 = i := by omega
      rwa [e] at h3
    have h := (tracks_pluses (u := u) hnew n).append (ih (fun d hd => hv d (by simp [hd])) hrest)
    rw [List.flatMap_cons, List.flatMap_cons, List.map_append]
    simpa [renderCode, minusPart, plusPart, removedOf, hins] using h

theorem formatRange_split (start stop : Nat) : ∃ t,
    formatRange start stop = Nat.toDigits 10 (if stop - start = 0 then start else start + 1) ++ t ∧
      (t = [] ∨ t.head? = some ',') := by
  unfold formatRange
  by_cases h1 : stop - start = 1
  · exact ⟨[], by simp [h1], .inl rfl⟩
  · by_cases h0 : stop - start = 0
    · exact ⟨[','] ++ Nat.toDigits 10 0, by simp [h0], .inr rfl⟩
    · exact ⟨[','] ++ Nat.toDigits 10 (stop - start), by simp [h0, h1], .inr rfl⟩

theorem decimal_mark {c : Char} (h : c = ',' ∨ c = ' ') : (u.decimal c).isSome = false := by
  rcases h with rfl | rfl
  · rw [u.decimal_ascii ',' (by decide), if_neg (by decide)]
    rfl
  · rw [u.decimal_ascii ' ' (by decide), if_neg (by decide)]
    rfl

/-- Where the tracker starts a group: at the first old line, or just before an insertion. -/
def startNumber (g : List Opcode) : Nat :=
  let first := (g.headD ⟨.equal, 0, 0, 0, 0⟩).i1
  if (g.getLastD ⟨.equal, 0, 0, 0, 0⟩).i2 - first = 0 then first else first + 1

theorem hunkText_start (g : List Opcode) : ∃ t,
    hunkText g = ['@', '@', ' ', '-'] ++ (Nat.toDigits 10 (startNumber g) ++ t) ∧
      ∀ c ∈ t.head?, (u.decimal c).isSome = false := by
  obtain ⟨t, ht, hhead⟩ := formatRange_split (g.headD ⟨.equal, 0, 0, 0, 0⟩).i1
    (g.getLastD ⟨.equal, 0, 0, 0, 0⟩).i2
  refine ⟨t ++ " +".toList ++ formatRange (g.headD ⟨.equal, 0, 0, 0, 0⟩).j1
    (g.getLastD ⟨.equal, 0, 0, 0, 0⟩).j2 ++ " @@".toList, ?_, ?_⟩
  · unfold hunkText startNumber
    rw [ht]
    simp [List.append_assoc]
  · intro c hc
    apply decimal_mark
    rcases hhead with rfl | hhead
    · exact .inr (by simpa using hc.symm)
    · cases t with
      | nil => simp at hhead
      | cons d t =>
        obtain rfl : d = ',' := by simpa using hhead
        exact .inl (by simpa using hc.symm)

theorem tracks_hunkHeader (g : List Opcode) (hn : startNumber g < 10 ^ maxIntDigits)
    (ln : Option Nat) : Tracks u ln [chomp (hunkHeader g)] [] (some (startNumber g)) := by
  obtain ⟨t, ht, hhead⟩ := hunkText_start (u := u) g
  obtain ⟨p, hp, hgroup⟩ := hunkStart_number (u := u) (startNumber g) hhead
  have hlen : (Nat.toDigits 10 (startNumber g)).length ≤ maxIntDigits :=
    (Nat.length_toDigits_le_iff (by omega) (by decide)).mpr hn
  have hint : pyInt u (Nat.toDigits 10 (startNumber g)) = .ok (startNumber g) := by
    rw [pyInt, if_neg (by omega), digitsValue_toDigits]
  rw [chomp_hunkHeader, ht]
  exact tracks_header hp hgroup hint

include ha hb hd in
theorem tracks_group {g : List Opcode} (hg : g ∈ groupsOf a b) (hlen : a.length < 10 ^ maxIntDigits)
    (ln : Option Nat) :
    ∃ ln', Tracks u ln ((renderGroup a b g).map chomp) (g.flatMap (removedOf a)) ln' := by
  obtain ⟨hne, k, k', hcont⟩ := groups_contiguous a b 3 g hg
  have hv : ∀ c ∈ g, c.Visible a b :=
    fun c hc => groups_visible a b c (List.mem_flatten.mpr ⟨g, hg, hc⟩)
  have hfirst : (g.headD ⟨.equal, 0, 0, 0, 0⟩).i1 = k := hcont.head hne
  have hlast : (g.getLastD ⟨.equal, 0, 0, 0, 0⟩).i2 = k' := hcont.last hne
  have hle := hcont.le
  have hk' : k' ≤ a.length := by
    have hm : g.getLastD ⟨.equal, 0, 0, 0, 0⟩ ∈ g := by
      rw [List.getLastD_eq_getLast?, List.getLast?_eq_getLast_of_ne_nil hne]
      exact List.getLast_mem hne
    have hvl := hv _ hm
    unfold Opcode.Visible at hvl
    rw [← hlast]
    split at hvl <;> omega
  have hstart : startNumber g = if k' - k = 0 then k else k + 1 := by
    simp only [startNumber, hfirst, hlast]
  have hhead := tracks_hunkHeader (u := u) g (by rw [hstart]; split <;> omega) ln
  rw [renderGroup, List.map_cons]
  by_cases hz : k' - k = 0
  · obtain rfl : k = k' := by omega
    exact ⟨_, hhead.append (tracks_insertions hb hv hcont _)⟩
  · rw [hstart, if_neg hz] at hhead
    exact ⟨_, hhead.append (tracks_codes ha hb hd hv hcont)⟩

include ha hb hd in
theorem tracks_groups (hlen : a.length < 10 ^ maxIntDigits) :
    ∀ (gs : List (List Opcode)) (ln : Option Nat), (∀ g ∈ gs, g ∈ groupsOf a b) →
      ∃ ln', Tracks u ln ((gs.flatMap (renderGroup a b)).map chomp)
        (gs.flatten.flatMap (removedOf a)) ln' := by
  intro gs
  induction gs with
  | nil => intro ln _; exact ⟨ln, Tracks.nil ln⟩
  | cons g gs ih =>
    intro ln hgs
    obtain ⟨ln1, h1⟩ := tracks_group ha hb hd (hgs g (by simp)) hlen ln
    obtain ⟨ln2, h2⟩ := ih ln1 fun g' hg' => hgs g' (by simp [hg'])
    refine ⟨ln2, ?_⟩
    rw [List.flatMap_cons, List.map_append, List.flatten_cons, List.flatMap_append]
    exact h1.append h2

end Render

theorem removedOf_equal (a : List Str) (c : Opcode) (hc : c.tag = .equal) : removedOf a c = [] := by
  simp [removedOf, hc]

/-- On a difference from whole pristine lines, none of them starting with two dashes, the tracker
records every removed line with its number, and nothing else. -/
theorem removedLineNumbers_diffLines {a b : List Str} (rel : Str) (ha : ∀ l ∈ a, Terminated l)
    (hb : IsLines b) (hd : ∀ x ∈ a, ¬ ['-', '-'] <+: chomp x)
    (hlen : a.length < 10 ^ maxIntDigits) (hrel : ∀ c ∈ rel, isBoundary c = false) :
    removedLineNumbers u (diffLines rel a b).flatten =
      .ok ((getOpcodes a b).flatMap (removedOf a)) := by
  have hla := isLines_of_terminated ha
  have hswallow : swallows a b = false := by
    have hbare : endsBare a = false := by
      unfold endsBare
      split
      · rename_i l hl
        obtain ⟨body, t, rfl, ht, _⟩ := ha l (List.mem_of_getLast? hl)
        simp [ht]
      · rfl
    simp [swallows, hbare]
  have hfrom : ∀ c ∈ "a/".toList ++ rel, isBoundary c = false :=
    not_boundary_append (not_boundary_of_all (by decide)) hrel
  have hto : ∀ c ∈ "b/".toList ++ rel, isBoundary c = false :=
    not_boundary_append (not_boundary_of_all (by decide)) hrel
  have hlines := splitlines_unifiedDiff hla hb hswallow hfrom hto
  rw [removedLineNumbers, diffLines, hlines]
  unfold unifiedDiff
  simp only
  have hflat : (groupsOf a b).flatten.flatMap (removedOf a) = (getOpcodes a b).flatMap (removedOf a) :=
    flatMap_groups (removedOf_equal a) 3 (getOpcodes a b)
  rw [← hflat]
  split
  · rename_i hempty
    rw [List.isEmpty_iff.mp hempty]
    rfl
  · obtain ⟨ln', hgroups⟩ := tracks_groups (u := u) hla.piece hb.piece hd hlen (groupsOf a b) none
      fun g hg => hg
    have hminus : Tracks u none ["--- ".toList ++ ("a/".toList ++ rel)] [] none :=
      tracks_before_hunk (not_at_of_cons (by decide))
    have hplus : Tracks u none ["+++ ".toList ++ ("b/".toList ++ rel)] [] none :=
      tracks_before_hunk (not_at_of_cons (by decide))
    have h := (hminus.append hplus).append hgroups
    rw [List.map_append, chomp_fileHeader hfrom hto]
    exact h.result

theorem mem_removedOf {a b : List Str} {k : Nat} {l : Str} (h : (k, l) ∈ removedLines a b) :
    (k + 1, '-' :: chomp l) ∈ (getOpcodes a b).flatMap (removedOf a) := by
  obtain ⟨c, hc, h⟩ := List.mem_flatMap.mp h
  refine List.mem_flatMap.mpr ⟨c, hc, ?_⟩
  unfold removedOf
  split at h
  · rename_i htag
    rw [if_pos htag]
    obtain ⟨e, he, heq⟩ := List.mem_map.mp h
    obtain ⟨x, n⟩ := e
    injection heq with h1 h2
    subst h1 h2
    refine List.mem_map.mpr ⟨(x, n + 1), ?_, rfl⟩
    rw [List.mem_zipIdx_iff_le_and_getElem?_sub] at he ⊢
    refine ⟨by omega, ?_⟩
    have e1 : n + 1 - (c.i1 + 1) = n - c.i1 := by omega
    simpa [e1] using he.2
  · simp at h

end Tracker
end Round4
