import LlmHardtest.Python.Value
set_option autoImplicit false

/-! Scanning a text piece by piece: a pattern anchored at the start of a line finds in a text what it
finds before a line break and after it, when no match spans the break. -/

namespace Python

theorem flatten_consFirst (c : Char) (ls : List Str) :
    (consFirst c ls).flatten = c :: ls.flatten := by
  cases ls <;> simp [consFirst]

theorem flatten_splitlinesKeep (s : Str) : (splitlinesKeep s).flatten = s := by
  induction s using splitlinesKeep.induct with
  | case1 => rfl
  | case2 cs ih => simp [splitlinesKeep_crlf, ih]
  | case3 c cs hcs hb ih =>
    rw [splitlinesKeep_step hcs, if_pos hb, List.flatten_cons, ih, List.singleton_append]
  | case4 c cs hcs hb ih =>
    rw [splitlinesKeep_step hcs, if_neg hb, flatten_consFirst, ih]

/-- A line feed stands only at the end of a kept line. -/
theorem newline_last {s l : Str} (h : l ∈ splitlinesKeep s) (hn : '\n' ∈ l) :
    l.getLast? = some '\n' := by
  induction s using splitlinesKeep.induct generalizing l with
  | case1 => simp at h
  | case2 cs ih =>
    rw [splitlinesKeep_crlf] at h
    rcases List.mem_cons.mp h with rfl | h
    · rfl
    · exact ih h hn
  | case3 c cs hcs hb ih =>
    rw [splitlinesKeep_step hcs, if_pos hb] at h
    rcases List.mem_cons.mp h with rfl | h
    · rw [List.mem_singleton.mp hn]
      rfl
    · exact ih h hn
  | case4 c cs hcs hb ih =>
    rw [splitlinesKeep_step hcs, if_neg hb] at h
    have hc : '\n' ≠ c := by
      intro hc
      subst hc
      exact hb rfl
    cases hls : splitlinesKeep cs with
    | nil =>
      rw [hls, consFirst, List.mem_singleton] at h
      subst h
      simp [hc] at hn
    | cons m ms =>
      rw [hls, consFirst] at h
      rw [hls] at ih
      rcases List.mem_cons.mp h with rfl | h
      · have hm : '\n' ∈ m := by simpa [hc] using hn
        rw [List.getLast?_cons, ih (by simp) hm]
        rfl
      · exact ih (by simp [h]) hn

end Python

namespace Python.Regex

def Consumed (p q : Pos) : Prop := ∃ w, p.rest = w ++ q.rest ∧ q.prev = w.getLast?.or p.prev

theorem Consumed.refl (p : Pos) : Consumed p p := ⟨[], rfl, rfl⟩

theorem Consumed.trans {p q o : Pos} (h : Consumed p q) (h' : Consumed q o) : Consumed p o := by
  obtain ⟨v, hv, hpv⟩ := h
  obtain ⟨w, hw, hpw⟩ := h'
  refine ⟨v ++ w, by rw [hv, hw, List.append_assoc], ?_⟩
  rw [hpw, hpv, List.getLast?_append, Option.or_assoc]

theorem Consumed.le {p q : Pos} (h : Consumed p q) : q.rest.length ≤ p.rest.length := by
  obtain ⟨w, hw, -⟩ := h
  rw [hw, List.length_append]
  omega

theorem starEnds_consumed {f : Pos → List Pos} {greedy : Bool} (hf : ∀ p, ∀ q ∈ f p, Consumed p q)
    (fuel : Nat) (p : Pos) : ∀ q ∈ starEnds greedy f fuel p, Consumed p q := by
  induction fuel generalizing p with
  | zero =>
    intro q hq
    simp only [starEnds, List.mem_singleton] at hq
    exact hq ▸ Consumed.refl p
  | succ fuel ih =>
    intro q hq
    have hcases : q = p ∨ ∃ o ∈ f p, q ∈ starEnds greedy f fuel o := by
      simp only [starEnds] at hq
      cases greedy
      · simp only [Bool.false_eq_true, if_false, List.mem_cons, List.mem_flatMap,
          List.mem_filter] at hq
        rcases hq with hq | ⟨o, ho, hq⟩
        · exact .inl hq
        · exact .inr ⟨o, ho.1, hq⟩
      · simp only [if_true, List.mem_append, List.mem_flatMap, List.mem_filter,
          List.mem_singleton] at hq
        rcases hq with ⟨o, ho, hq⟩ | hq
        · exact .inr ⟨o, ho.1, hq⟩
        · exact .inl hq
    rcases hcases with rfl | ⟨o, ho, hq⟩
    · exact Consumed.refl _
    · exact (hf p o ho).trans (ih o q hq)

theorem ends_consumed (u : UnicodeData) (r : Re) (p : Pos) : ∀ q ∈ ends u r p, Consumed p q := by
  induction r generalizing p with
  | set f =>
    obtain ⟨prev, rest, groups⟩ := p
    intro q hq
    cases rest with
    | nil => cases hq
    | cons c cs =>
      simp only [ends] at hq
      split at hq
      · rw [List.mem_singleton] at hq
        subst hq
        exact ⟨[c], rfl, rfl⟩
      · cases hq
  | eps =>
    intro q hq
    simp only [ends, List.mem_singleton] at hq
    exact hq ▸ Consumed.refl p
  | seq r s ihr ihs =>
    intro q hq
    obtain ⟨o, ho, hq⟩ := List.mem_flatMap.mp hq
    exact (ihr p o ho).trans (ihs o q hq)
  | alt r s ihr ihs =>
    intro q hq
    rcases List.mem_append.mp hq with hq | hq
    · exact ihr p q hq
    · exact ihs p q hq
  | star greedy r ih => exact starEnds_consumed ih _ p
  | group n r ih =>
    intro q hq
    obtain ⟨o, ho, rfl⟩ := List.mem_map.mp hq
    exact ih p o ho
  | look positive r =>
    intro q hq
    simp only [ends] at hq
    split at hq
    · cases hq
    · exact List.mem_singleton.mp hq ▸ Consumed.refl p
  | bol =>
    intro q hq
    simp only [ends] at hq
    split at hq
    · exact List.mem_singleton.mp hq ▸ Consumed.refl p
    · cases hq
  | eol =>
    intro q hq
    simp only [ends] at hq
    split at hq
    · exact List.mem_singleton.mp hq ▸ Consumed.refl p
    · cases hq
  | wordBoundary =>
    intro q hq
    simp only [ends] at hq
    split at hq
    · cases hq
    · exact List.mem_singleton.mp hq ▸ Consumed.refl p

inductive Plain : Re → Prop where
  | set {q : UnicodeData → Char → Bool} : Plain (.set q)
  | eps : Plain .eps
  | seq {r s : Re} : Plain r → Plain s → Plain (.seq r s)
  | alt {r s : Re} : Plain r → Plain s → Plain (.alt r s)
  | star {greedy : Bool} {r : Re} : Plain r → Plain (.star greedy r)
  | group {n : Nat} {r : Re} : Plain r → Plain (.group n r)
  | bol : Plain .bol
  | wordBoundary : Plain .wordBoundary

def Pos.extend (tail : Str) (p : Pos) : Pos := ⟨p.prev, p.rest ++ tail, p.groups⟩

def inside (p : Pos) : Bool := !p.rest.isEmpty
def before (tail : Str) (q : Pos) : Bool := decide (tail.length < q.rest.length)

section Extend
variable {u : UnicodeData} {tail : Str}

theorem before_extend (p : Pos) : before tail (p.extend tail) = inside p := by
  unfold before inside Pos.extend
  cases p.rest with
  | nil => simp
  | cons c cs => simp

theorem flatMap_filter {α β : Type} {l : List α} {f : α → List β} {keep : α → Bool}
    (h : ∀ a ∈ l, keep a = false → f a = []) : l.flatMap f = (l.filter keep).flatMap f := by
  induction l with
  | nil => rfl
  | cons a l ih =>
    have hrest := ih fun b hb => h b (by simp [hb])
    cases hk : keep a with
    | true => rw [List.filter_cons_of_pos hk, List.flatMap_cons, List.flatMap_cons, hrest]
    | false =>
      rw [List.filter_cons_of_neg (by simp [hk]), List.flatMap_cons, h a (by simp) hk, hrest,
        List.nil_append]

/-- Matches that end before the tail are the matches without it. -/
def Extends (tail : Str) (f : Pos → List Pos) : Prop :=
  ∀ p, inside p = true →
    (f (p.extend tail)).filter (before tail) = ((f p).filter inside).map (Pos.extend tail)

theorem Extends.bind {f g : Pos → List Pos} (hf : Extends tail f) (hg : Extends tail g)
    (hgc : ∀ p, ∀ q ∈ g p, Consumed p q) : Extends tail fun p => (f p).flatMap g := by
  intro p hp
  rw [List.filter_flatMap, List.filter_flatMap, List.map_flatMap]
  have hpast : ∀ q ∈ f (p.extend tail), before tail q = false → (g q).filter (before tail) = [] := by
    intro q _ hq
    rw [List.filter_eq_nil_iff]
    intro o ho
    have hle := (hgc q o ho).le
    simp only [before, decide_eq_false_iff_not, decide_eq_true_eq] at hq ⊢
    omega
  have hend : ∀ q ∈ f p, inside q = false → ((g q).filter inside).map (Pos.extend tail) = [] := by
    intro q _ hq
    rw [List.map_eq_nil_iff, List.filter_eq_nil_iff]
    intro o ho
    have hle := (hgc q o ho).le
    have hnil : q.rest = [] := by simpa [inside] using hq
    rw [hnil, List.length_nil, Nat.le_zero, List.length_eq_zero_iff] at hle
    simp [inside, hle]
  rw [flatMap_filter hpast, flatMap_filter hend, hf p hp, List.flatMap_map]
  refine List.flatMap_congr fun q hq => ?_
  exact hg q (List.mem_filter.mp hq).2

theorem Extends.starEnds {f : Pos → List Pos} (hf : Extends tail f)
    (hc : ∀ p, ∀ q ∈ f p, Consumed p q) (greedy : Bool) (fuel fuel' : Nat) (p : Pos)
    (hp : inside p = true) (hfuel : p.rest.length ≤ fuel)
    (hfuel' : p.rest.length + tail.length ≤ fuel') :
    (Regex.starEnds greedy f fuel' (p.extend tail)).filter (before tail) =
      ((Regex.starEnds greedy f fuel p).filter inside).map (Pos.extend tail) := by
  induction fuel generalizing p fuel' with
  | zero =>
    have hnil : p.rest = [] := List.length_eq_zero_iff.mp (Nat.le_zero.mp hfuel)
    simp [inside, hnil] at hp
  | succ fuel ih =>
    have hne : p.rest ≠ [] := by simpa [inside] using hp
    have hpos := List.length_pos_iff.mpr hne
    obtain ⟨fuel', rfl⟩ : ∃ n, fuel' = n + 1 := ⟨fuel' - 1, by omega⟩
    have hmore : (((f (p.extend tail)).filter fun q =>
          q.rest.length < (p.extend tail).rest.length).flatMap
            (Regex.starEnds greedy f fuel')).filter (before tail) =
        ((((f p).filter fun q => q.rest.length < p.rest.length).flatMap
          (Regex.starEnds greedy f fuel)).filter inside).map (Pos.extend tail) := by
      rw [List.filter_flatMap, List.filter_flatMap, List.map_flatMap]
      have hpast : ∀ q ∈ (f (p.extend tail)).filter fun q =>
          q.rest.length < (p.extend tail).rest.length, before tail q = false →
            (Regex.starEnds greedy f fuel' q).filter (before tail) = [] := by
        intro q _ hq
        rw [List.filter_eq_nil_iff]
        intro o ho
        have hle := (starEnds_consumed hc fuel' q o ho).le
        simp only [before, decide_eq_false_iff_not, decide_eq_true_eq] at hq ⊢
        omega
      have hend : ∀ q ∈ (f p).filter fun q => q.rest.length < p.rest.length,
          inside q = false →
            ((Regex.starEnds greedy f fuel q).filter inside).map (Pos.extend tail) = [] := by
        intro q _ hq
        rw [List.map_eq_nil_iff, List.filter_eq_nil_iff]
        intro o ho
        have hle := (starEnds_consumed hc fuel q o ho).le
        have hnil : q.rest = [] := by simpa [inside] using hq
        rw [hnil, List.length_nil, Nat.le_zero, List.length_eq_zero_iff] at hle
        simp [inside, hle]
      rw [flatMap_filter hpast, flatMap_filter hend, List.filter_filter, List.filter_filter]
      have hswap : (f (p.extend tail)).filter (fun q => before tail q &&
          decide (q.rest.length < (p.extend tail).rest.length)) =
          ((f p).filter fun q => inside q && decide (q.rest.length < p.rest.length)).map
            (Pos.extend tail) := by
        have hcomm : (f (p.extend tail)).filter (fun q => before tail q &&
            decide (q.rest.length < (p.extend tail).rest.length)) =
            ((f (p.extend tail)).filter (before tail)).filter fun q =>
              decide (q.rest.length < (p.extend tail).rest.length) := by
          rw [List.filter_filter]
          exact List.filter_congr fun q _ => Bool.and_comm _ _
        have hcomm' : (f p).filter (fun q => inside q && decide (q.rest.length < p.rest.length)) =
            ((f p).filter inside).filter fun q => decide (q.rest.length < p.rest.length) := by
          rw [List.filter_filter]
          exact List.filter_congr fun q _ => Bool.and_comm _ _
        rw [hcomm, hcomm', hf p hp, List.filter_map]
        congr 1
        refine List.filter_congr fun q _ => ?_
        simp [Pos.extend]
      rw [hswap, List.flatMap_map]
      refine List.flatMap_congr fun q hq => ?_
      have hq := (List.mem_filter.mp hq).2
      simp only [Bool.and_eq_true, decide_eq_true_eq] at hq
      exact ih fuel' q hq.1 (by omega) (by omega)
    have hself : before tail (p.extend tail) = true := by rw [before_extend, hp]
    cases greedy
    · simp only [Regex.starEnds, Bool.false_eq_true, if_false, List.filter_cons, hself, hp, if_true,
        List.map_cons, hmore]
    · simp only [Regex.starEnds, if_true, List.filter_append, List.map_append, hmore,
        List.filter_cons, hself, hp, List.filter_nil, List.map_cons, List.map_nil]

theorem ends_extends {r : Re} (hr : Plain r) : Extends tail (ends u r) := by
  induction hr with
  | @set q =>
    intro p hp
    obtain ⟨prev, rest, groups⟩ := p
    cases rest with
    | nil => simp [inside] at hp
    | cons c cs =>
      simp only [ends, Pos.extend, List.cons_append]
      by_cases hq : q u c = true
      · cases cs with
        | nil => simp [hq, before, inside]
        | cons d cs => simp [hq, before, inside, Pos.extend]
      · simp [hq]
  | eps =>
    intro p hp
    simp [ends, before_extend, hp]
  | seq _ _ ihr ihs => exact ihr.bind ihs (ends_consumed u _)
  | alt _ _ ihr ihs =>
    intro p hp
    simp only [ends, List.filter_append, List.map_append, ihr p hp, ihs p hp]
  | star _ ih =>
    intro p hp
    exact ih.starEnds (ends_consumed u _) _ _ _ p hp le_rfl (by simp [Pos.extend])
  | @group n r _ ih =>
    intro p hp
    have h := ih p hp
    simp only [ends, List.filter_map, List.map_map]
    have hl : (ends u r (p.extend tail)).filter (before tail ∘ fun q : Pos =>
        { q with groups := (n, (p.extend tail).rest.take
          ((p.extend tail).rest.length - q.rest.length)) :: q.groups }) =
        (ends u r (p.extend tail)).filter (before tail) := rfl
    have hr : (ends u r p).filter (inside ∘ fun q : Pos =>
        { q with groups := (n, p.rest.take (p.rest.length - q.rest.length)) :: q.groups }) =
        (ends u r p).filter inside := rfl
    rw [hl, hr, h, List.map_map]
    refine List.map_congr_left fun q hq => ?_
    obtain ⟨w, hw, -⟩ := ends_consumed u r p q (List.mem_filter.mp hq).1
    simp [Pos.extend, hw, List.append_assoc]
  | bol =>
    intro p hp
    by_cases hb : p.prev = none ∨ p.prev = some '\n'
    · have hb' : (p.extend tail).prev = none ∨ (p.extend tail).prev = some '\n' := hb
      simp [ends, if_pos hb, if_pos hb', before_extend, hp]
    · have hb' : ¬((p.extend tail).prev = none ∨ (p.extend tail).prev = some '\n') := hb
      simp [ends, if_neg hb, if_neg hb']
  | wordBoundary =>
    intro p hp
    have hhead : (p.extend tail).rest.head? = p.rest.head? := by
      have hne : p.rest ≠ [] := by simpa [inside] using hp
      simp [Pos.extend, List.head?_append, List.head?_eq_some_head hne]
    have hprev : (p.extend tail).prev = p.prev := rfl
    simp only [ends, hhead, hprev]
    split
    · rfl
    · simp [before_extend, hp]

end Extend

section Count
variable {u : UnicodeData} {r : Re}

def Moves (u : UnicodeData) (r : Re) : Prop :=
  ∀ p, ∀ q ∈ ends u r p, q.rest.length < p.rest.length

def hitCount (u : UnicodeData) (r : Re) (p : Pos) : Nat :=
  (scan u r (p.rest.length + 1) 0 false p).length

theorem scan_length (hr : Moves u r) (fuel fuel' offset offset' : Nat) (must : Bool) (p : Pos)
    (hfuel : p.rest.length < fuel) (hfuel' : p.rest.length < fuel') :
    (scan u r fuel offset must p).length = (scan u r fuel' offset' false p).length := by
  induction fuel generalizing fuel' offset offset' must p with
  | zero => omega
  | succ fuel ih =>
    obtain ⟨fuel', rfl⟩ : ∃ n, fuel' = n + 1 := ⟨fuel' - 1, by omega⟩
    have hall : ∀ must : Bool, ((ends u r { p with groups := [] }).filter fun q =>
        !must || decide (q.rest.length < p.rest.length)) = ends u r { p with groups := [] } := by
      intro must
      rw [List.filter_eq_self]
      intro q hq
      simp [hr _ q hq]
    simp only [scan, hall]
    cases hends : ends u r { p with groups := [] } with
    | nil =>
      cases hrest : p.rest with
      | nil => rfl
      | cons c cs =>
        rw [hrest, List.length_cons] at hfuel hfuel'
        exact ih fuel' _ _ _ ⟨some c, cs, []⟩ (Nat.lt_of_succ_lt_succ hfuel)
          (Nat.lt_of_succ_lt_succ hfuel')
    | cons q qs =>
      have hq := hr { p with groups := [] } q (by simp [hends])
      simp only [List.head?_cons, List.length_cons, Nat.add_right_cancel_iff]
      have hlen : (p.rest.length - q.rest.length == 0) = false := by
        simp only [beq_eq_false_iff_ne, ne_eq]
        simp only at hq
        omega
      rw [hlen]
      simp only at hq
      exact ih fuel' _ _ _ q (by omega) (by omega)

theorem findIter_length (hr : Moves u r) (s : Str) :
    (findIter u r s).length = hitCount u r ⟨none, s, []⟩ :=
  scan_length hr _ _ _ _ _ _ (by simp [Pos.atStart]; omega) (by simp [Pos.atStart])

theorem hitCount_hit (hr : Moves u r) {p q : Pos} {qs : List Pos}
    (h : ends u r { p with groups := [] } = q :: qs) : hitCount u r p = 1 + hitCount u r q := by
  have hq := hr { p with groups := [] } q (by simp [h])
  simp only at hq
  unfold hitCount
  rw [scan]
  simp only [Bool.not_false, Bool.true_or, List.filter_true, h, List.head?_cons, List.length_cons]
  rw [Nat.add_comm]
  congr 1
  exact scan_length hr _ _ _ _ _ q hq (Nat.lt_succ_self _)

theorem hitCount_skip (hr : Moves u r) {p : Pos} {c : Char} {cs : Str} (hp : p.rest = c :: cs)
    (h : ends u r { p with groups := [] } = []) :
    hitCount u r p = hitCount u r ⟨some c, cs, []⟩ := by
  obtain ⟨prev, rest, groups⟩ := p
  obtain rfl : rest = c :: cs := hp
  conv => lhs; unfold hitCount
  rw [scan]
  simp only [Bool.not_false, Bool.true_or, List.filter_true, h, List.head?_nil]
  exact scan_length hr _ _ _ _ _ _ (by simp) (Nat.lt_succ_self _)

theorem hitCount_nil (hr : Moves u r) (prev : Option Char) (groups : List (Nat × Str)) :
    hitCount u r ⟨prev, [], groups⟩ = 0 := by
  have h : ends u r ⟨prev, [], []⟩ = [] := by
    rw [List.eq_nil_iff_forall_not_mem]
    intro q hq
    have hlt := hr _ q hq
    simp at hlt
  unfold hitCount
  rw [scan]
  simp [h]

end Count

/-! A search of each line for a word: `^.*\b` and a pattern that reads its first character. -/

def lineRe (s : Re) : Re := .seq .bol (.seq (.many .any) (.seq .wordBoundary s))

/-- What follows does not look behind its first character. -/
def Blind (u : UnicodeData) (s : Re) : Prop :=
  ∀ (prev prev' : Option Char) (rest : Str) (groups : List (Nat × Str)),
    ends u s ⟨prev, rest, groups⟩ = ends u s ⟨prev', rest, groups⟩

theorem blind_set {u : UnicodeData} {q : UnicodeData → Char → Bool} : Blind u (.set q) :=
  fun _ _ _ _ => rfl

theorem Blind.seq {u : UnicodeData} {r s : Re} (h : Blind u r) : Blind u (.seq r s) := by
  intro prev prev' rest groups
  simp only [ends, h prev prev']

theorem Blind.alt {u : UnicodeData} {r s : Re} (hr : Blind u r) (hs : Blind u s) :
    Blind u (.alt r s) := by
  intro prev prev' rest groups
  simp only [ends, hr prev prev', hs prev prev']

def LastChar (u : UnicodeData) (r : Re) : Prop := ∀ p, ∀ q ∈ ends u r p, q.prev ≠ some '\n'
def Keeps (u : UnicodeData) (r : Re) : Prop :=
  ∀ p, p.prev ≠ some '\n' → ∀ q ∈ ends u r p, q.prev ≠ some '\n'

/-- A pattern for the messages of a log: it starts by reading a character and does not end by
reading a line break. -/
structure Message (u : UnicodeData) (s : Re) : Prop where
  plain : Plain s
  blind : Blind u s
  moves : Moves u s
  lastChar : LastChar u s

section Parts
variable {u : UnicodeData} {r s : Re} {q : UnicodeData → Char → Bool}

theorem moves_set : Moves u (.set q) := by
  intro p o ho
  obtain ⟨prev, rest, groups⟩ := p
  cases rest with
  | nil => cases ho
  | cons c cs =>
    simp only [ends] at ho
    split at ho
    · rw [List.mem_singleton] at ho
      subst ho
      exact Nat.lt_succ_self _
    · cases ho

theorem Moves.seq (h : Moves u r) : Moves u (.seq r s) := by
  intro p o ho
  obtain ⟨m, hm, ho⟩ := List.mem_flatMap.mp ho
  exact Nat.lt_of_le_of_lt (ends_consumed u s m o ho).le (h p m hm)

theorem Moves.alt (hr : Moves u r) (hs : Moves u s) : Moves u (.alt r s) := by
  intro p o ho
  rcases List.mem_append.mp ho with ho | ho
  · exact hr p o ho
  · exact hs p o ho

theorem lastChar_set (h : q u '\n' = false) : LastChar u (.set q) := by
  intro p o ho hprev
  obtain ⟨prev, rest, groups⟩ := p
  cases rest with
  | nil => cases ho
  | cons c cs =>
    simp only [ends] at ho
    split at ho
    · rename_i hc
      rw [List.mem_singleton] at ho
      subst ho
      injection hprev with hprev
      rw [hprev, h] at hc
      cases hc
    · cases ho

theorem LastChar.keeps (h : LastChar u r) : Keeps u r := fun p _ => h p

theorem keeps_wordBoundary : Keeps u .wordBoundary := by
  intro p hp o ho
  simp only [ends] at ho
  split at ho
  · cases ho
  · exact List.mem_singleton.mp ho ▸ hp

theorem Keeps.star {greedy : Bool} (h : Keeps u r) : Keeps u (.star greedy r) := by
  intro p hp
  suffices hfuel : ∀ fuel p, p.prev ≠ some '\n' →
      ∀ o ∈ starEnds greedy (ends u r) fuel p, o.prev ≠ some '\n' from hfuel _ p hp
  intro fuel
  induction fuel with
  | zero =>
    intro p hp o ho
    simp only [starEnds, List.mem_singleton] at ho
    exact ho ▸ hp
  | succ fuel ih =>
    intro p hp o ho
    have hcases : o = p ∨ ∃ m ∈ ends u r p, o ∈ starEnds greedy (ends u r) fuel m := by
      cases greedy
      · simp only [starEnds, Bool.false_eq_true, if_false, List.mem_cons, List.mem_flatMap,
          List.mem_filter] at ho
        rcases ho with ho | ⟨m, hm, ho⟩
        · exact .inl ho
        · exact .inr ⟨m, hm.1, ho⟩
      · simp only [starEnds, if_true, List.mem_append, List.mem_flatMap, List.mem_filter,
          List.mem_singleton] at ho
        rcases ho with ⟨m, hm, ho⟩ | ho
        · exact .inr ⟨m, hm.1, ho⟩
        · exact .inl ho
    rcases hcases with rfl | ⟨m, hm, ho⟩
    · exact hp
    · exact ih m (h p hp m hm) o ho

theorem LastChar.seq (h : LastChar u s) : LastChar u (.seq r s) := by
  intro p o ho
  obtain ⟨m, -, ho⟩ := List.mem_flatMap.mp ho
  exact h m o ho

theorem LastChar.seq_keeps (hr : LastChar u r) (hs : Keeps u s) : LastChar u (.seq r s) := by
  intro p o ho
  obtain ⟨m, hm, ho⟩ := List.mem_flatMap.mp ho
  exact hs m (hr p m hm) o ho

theorem LastChar.group {n : Nat} (h : LastChar u r) : LastChar u (.group n r) := by
  intro p o ho
  obtain ⟨m, hm, rfl⟩ := List.mem_map.mp ho
  exact h p m hm

theorem plain_litsI (t : Str) : Plain (Re.litsI t) := by
  induction t with
  | nil => exact .eps
  | cons c t ih => exact .seq .set ih

theorem keeps_litsI {t : Str} (h : ∀ c ∈ t, u.fold '\n' ≠ u.fold c) : Keeps u (Re.litsI t) := by
  induction t with
  | nil =>
    intro p hp o ho
    exact List.mem_singleton.mp ho ▸ hp
  | cons c t ih =>
    have hset : LastChar u (.chrI c) := lastChar_set (by simpa using h c (by simp))
    exact (hset.seq_keeps (ih fun d hd => h d (by simp [hd]))).keeps

theorem lastChar_litsI {c : Char} {t : Str} (h : ∀ d ∈ c :: t, u.fold '\n' ≠ u.fold d) :
    LastChar u (Re.litsI (c :: t)) :=
  (lastChar_set (by simpa using h c (by simp))).seq_keeps
    (keeps_litsI fun d hd => h d (by simp [hd]))

theorem fold_newline_ne {c : Char} (hc : c.toNat < 128) (hn : '\n' ≠ c.toLower) :
    u.fold '\n' ≠ u.fold c := by
  rw [u.fold_ascii '\n' (by decide), u.fold_ascii c hc]
  exact hn

end Parts

def AtLine (text : Str) : Prop := text = [] ∨ text.getLast? = some '\n'

theorem mem_starEnds_any (u : UnicodeData) (fuel : Nat) (p q : Pos) (hfuel : p.rest.length ≤ fuel) :
    q ∈ starEnds true (ends u .any) fuel p ↔
      ∃ a b, p.rest = a ++ b ∧ '\n' ∉ a ∧ q = ⟨a.getLast?.or p.prev, b, p.groups⟩ := by
  induction fuel generalizing p with
  | zero =>
    obtain ⟨prev, rest, groups⟩ := p
    obtain rfl : rest = [] := List.length_eq_zero_iff.mp (Nat.le_zero.mp hfuel)
    simp only [starEnds, List.mem_singleton]
    constructor
    · intro h
      exact ⟨[], [], rfl, by simp, h⟩
    · intro h
      obtain ⟨a, b, hab, -, h⟩ := h
      obtain ⟨rfl, rfl⟩ := List.append_eq_nil_iff.mp hab.symm
      exact h
  | succ fuel ih =>
    obtain ⟨prev, rest, groups⟩ := p
    simp only [starEnds, if_true, List.mem_append, List.mem_flatMap, List.mem_filter,
      List.mem_singleton, decide_eq_true_eq]
    constructor
    · intro h
      rcases h with ⟨o, ⟨ho, -⟩, h⟩ | h
      · cases rest with
        | nil => cases ho
        | cons c cs =>
          simp only [Re.any, ends] at ho
          split at ho
          · rename_i hc
            rw [List.mem_singleton] at ho
            subst ho
            obtain ⟨a, b, hab, hnl, hq⟩ := (ih _ (by simpa using hfuel)).mp h
            have hc : '\n' ≠ c := by
              intro h
              simp [← h] at hc
            refine ⟨c :: a, b, by simp only at hab; rw [hab]; rfl, by simp [hc, hnl], ?_⟩
            rw [hq, List.getLast?_cons, Option.some_or]
            cases a.getLast? <;> rfl
          · cases ho
      · exact ⟨[], rest, rfl, by simp, h⟩
    · intro h
      obtain ⟨a, b, hab, hnl, hq⟩ := h
      cases a with
      | nil => exact .inr (by simp only [List.nil_append] at hab; rw [hq, hab]; rfl)
      | cons c a =>
        left
        obtain rfl : rest = c :: (a ++ b) := hab
        simp only [List.mem_cons, not_or] at hnl
        refine ⟨⟨some c, a ++ b, groups⟩, ⟨?_, by simp⟩, ?_⟩
        · simp [Re.any, ends, Ne.symm hnl.1]
        · refine (ih _ (by simpa using hfuel)).mpr ⟨a, b, rfl, hnl.2, ?_⟩
          rw [hq, List.getLast?_cons, Option.some_or]
          cases a.getLast? <;> rfl

section LineSearch
variable {u : UnicodeData} {s : Re}

def lineEnds (u : UnicodeData) (s : Re) (text : Str) : List Pos :=
  ends u (lineRe s) ⟨none, text, []⟩

theorem mem_line {prev : Option Char} (hprev : prev = none ∨ prev = some '\n') (text : Str)
    (q : Pos) : q ∈ ends u (lineRe s) ⟨prev, text, []⟩ ↔
      ∃ a b, text = a ++ b ∧ '\n' ∉ a ∧
        q ∈ ends u (.seq .wordBoundary s) ⟨a.getLast?.or prev, b, []⟩ := by
  have hbol : ends u .bol ⟨prev, text, []⟩ = [⟨prev, text, []⟩] := by
    simp only [ends]
    exact if_pos hprev
  rw [lineRe, ends, hbol, List.flatMap_singleton, ends, List.mem_flatMap]
  constructor
  · intro h
    obtain ⟨o, ho, hq⟩ := h
    obtain ⟨a, b, hab, hnl, rfl⟩ := (mem_starEnds_any u _ _ _ le_rfl).mp ho
    exact ⟨a, b, hab, hnl, hq⟩
  · intro h
    obtain ⟨a, b, hab, hnl, hq⟩ := h
    exact ⟨_, (mem_starEnds_any u _ _ _ le_rfl).mpr ⟨a, b, hab, hnl, rfl⟩, hq⟩

theorem isWord_newline (u : UnicodeData) : isWord u '\n' = false := by
  rw [isWord, u.alnum_ascii '\n' (by decide)]
  decide

theorem mem_word_of_mem (hs : Message u s) {prev prev' : Option Char} {text : Str} {q : Pos}
    (hprev : prev.any (isWord u) = false) (hprev' : prev'.any (isWord u) = true →
      text.head?.any (isWord u) = false)
    (hq : q ∈ ends u (.seq .wordBoundary s) ⟨prev, text, []⟩) :
    q ∈ ends u (.seq .wordBoundary s) ⟨prev', text, []⟩ := by
  have hhead : text.head?.any (isWord u) = true := by
    by_contra h
    simp only [Bool.not_eq_true] at h
    simp [ends, hprev, h] at hq
  have hprev' : prev'.any (isWord u) = false := by
    by_contra h
    rw [hprev' (by simpa using h)] at hhead
    cases hhead
  simp only [ends, hprev, hprev', hhead, Bool.false_eq_true, if_false,
    List.flatMap_singleton] at hq ⊢
  rw [hs.blind prev' prev]
  exact hq

theorem lineRe_moves (hs : Message u s) : Moves u (lineRe s) := by
  intro p q hq
  simp only [lineRe, ends, List.mem_flatMap] at hq
  obtain ⟨o, ho, o', ho', o'', ho'', hq⟩ := hq
  have h1 := (ends_consumed u .bol p o (by simpa [ends] using ho)).le
  have h2 := (starEnds_consumed (ends_consumed u .any) _ o o' ho').le
  have h3 := (ends_consumed u .wordBoundary o' o'' (by simpa [ends] using ho'')).le
  have h4 := hs.moves _ _ hq
  omega

theorem lineRe_plain (hs : Message u s) : Plain (lineRe s) :=
  .seq .bol (.seq (.star .set) (.seq .wordBoundary hs.plain))

theorem lineRe_lastChar (hs : Message u s) (p : Pos) : ∀ q ∈ ends u (lineRe s) p,
    q.prev ≠ some '\n' := by
  intro q hq
  simp only [lineRe, ends, List.mem_flatMap] at hq
  obtain ⟨o, -, o', -, o'', -, hq⟩ := hq
  exact hs.lastChar _ _ hq

theorem ends_nil_of_mid {p : Pos} (h : p.prev ≠ none) (h' : p.prev ≠ some '\n') :
    ends u (lineRe s) p = [] := by
  simp [lineRe, ends, h, h']

theorem hitCount_mid (hs : Message u s) (body tail : Str) {c : Char} (hc : c ≠ '\n')
    (hbody : '\n' ∉ body) (groups : List (Nat × Str)) :
    hitCount u (lineRe s) ⟨some c, body ++ '\n' :: tail, groups⟩ =
      hitCount u (lineRe s) ⟨some '\n', tail, []⟩ := by
  induction body generalizing c groups with
  | nil =>
    exact hitCount_skip (lineRe_moves hs) rfl (ends_nil_of_mid (by simp) (by simp [hc]))
  | cons d body ih =>
    simp only [List.mem_cons, not_or] at hbody
    have hskip : hitCount u (lineRe s) ⟨some c, d :: (body ++ '\n' :: tail), groups⟩ =
        hitCount u (lineRe s) ⟨some d, body ++ '\n' :: tail, []⟩ :=
      hitCount_skip (lineRe_moves hs) rfl (ends_nil_of_mid (by simp) (by simp [hc]))
    rw [List.cons_append, hskip]
    exact ih (Ne.symm hbody.1) hbody.2 []

theorem ends_newline (hs : Message u s) (text : Str) :
    ends u (lineRe s) ⟨some '\n', text, []⟩ = lineEnds u s text := by
  have hword : ends u (.seq .wordBoundary s) ⟨some '\n', text, []⟩ =
      ends u (.seq .wordBoundary s) ⟨none, text, []⟩ := by
    simp only [ends, Option.any_some, isWord_newline, Option.any_none]
    split
    · rfl
    · rw [List.flatMap_singleton, List.flatMap_singleton, hs.blind]
  have hbol : ∀ prev : Option Char, prev = none ∨ prev = some '\n' →
      ends u .bol ⟨prev, text, []⟩ = [⟨prev, text, []⟩] := by
    intro prev hprev
    simp only [ends]
    exact if_pos hprev
  have hstar : ∀ prev : Option Char, prev = none ∨ prev = some '\n' →
      ends u (lineRe s) ⟨prev, text, []⟩ =
        ((starEnds true (ends u .any) text.length ⟨prev, text, []⟩).flatMap
          (ends u (.seq .wordBoundary s))) := by
    intro prev hprev
    rw [lineRe, ends, hbol prev hprev, List.flatMap_singleton, ends]
    rfl
  rw [lineEnds, hstar _ (.inr rfl), hstar _ (.inl rfl)]
  cases text with
  | nil => simpa [starEnds] using hword
  | cons c cs =>
    rw [List.length_cons, starEnds, starEnds]
    simp only [if_true, List.flatMap_append, List.flatMap_singleton, hword]
    rfl

theorem hitCount_newline (hs : Message u s) (text : Str) :
    hitCount u (lineRe s) ⟨some '\n', text, []⟩ = hitCount u (lineRe s) ⟨none, text, []⟩ := by
  cases hends : lineEnds u s text with
  | cons q qs =>
    rw [hitCount_hit (lineRe_moves hs) (p := ⟨none, text, []⟩) hends,
      hitCount_hit (lineRe_moves hs) (p := ⟨some '\n', text, []⟩)
        ((ends_newline hs text).trans hends)]
  | nil =>
    cases text with
    | nil => rw [hitCount_nil (lineRe_moves hs), hitCount_nil (lineRe_moves hs)]
    | cons c cs =>
      rw [hitCount_skip (lineRe_moves hs) (p := ⟨none, c :: cs, []⟩) rfl hends,
        hitCount_skip (lineRe_moves hs) (p := ⟨some '\n', c :: cs, []⟩) rfl
          ((ends_newline hs _).trans hends)]

/-- No match of the search from the start of a line runs over the end of that line. -/
def Confined (u : UnicodeData) (s : Re) (text : Str) : Prop :=
  ∀ a b, text = a ++ b → AtLine a → ∀ q ∈ lineEnds u s b, ∃ w, b = w ++ q.rest ∧ '\n' ∉ w

theorem AtLine.append {a b : Str} (ha : AtLine a) (hb : AtLine b) : AtLine (a ++ b) := by
  rcases hb with rfl | hb
  · simpa using ha
  · exact .inr (by rw [List.getLast?_append, hb, Option.some_or])

theorem Confined.suffix {a b : Str} (h : Confined u s (a ++ b)) (ha : AtLine a) :
    Confined u s b := by
  intro c d hcd hc q hq
  exact h (a ++ c) d (by rw [hcd, List.append_assoc]) (ha.append hc) q hq

theorem hitCount_line (hs : Message u s) {body tail : Str} (hbody : '\n' ∉ body)
    (h : ∀ q ∈ lineEnds u s (body ++ '\n' :: tail), tail.length < q.rest.length) :
    hitCount u (lineRe s) ⟨none, body ++ '\n' :: tail, []⟩ =
      (if lineEnds u s (body ++ '\n' :: tail) = [] then 0 else 1) +
        hitCount u (lineRe s) ⟨none, tail, []⟩ := by
  rw [← hitCount_newline hs tail]
  cases hends : lineEnds u s (body ++ '\n' :: tail) with
  | nil =>
    rw [if_pos rfl, Nat.zero_add]
    cases body with
    | nil => exact hitCount_skip (lineRe_moves hs) rfl hends
    | cons c body =>
      simp only [List.mem_cons, not_or] at hbody
      rw [hitCount_skip (lineRe_moves hs) (p := ⟨none, c :: body ++ '\n' :: tail, []⟩) rfl hends]
      exact hitCount_mid hs body tail (Ne.symm hbody.1) hbody.2 []
  | cons q qs =>
    have hq : q ∈ lineEnds u s (body ++ '\n' :: tail) := by simp [hends]
    obtain ⟨w, hw, hprev⟩ := ends_consumed u _ _ _ hq
    have hlt := h q hq
    have hmoves := lineRe_moves hs _ _ hq
    rw [if_neg (by simp), hitCount_hit (lineRe_moves hs)
      (p := ⟨none, body ++ '\n' :: tail, []⟩) hends]
    congr 1
    simp only at hw hmoves hprev
    -- the match ends before the line break
    obtain ⟨v, rfl, hrest⟩ : ∃ v, body = w ++ v ∧ q.rest = v ++ '\n' :: tail := by
      rcases List.append_eq_append_iff.mp hw with ⟨v, hv, htail⟩ | ⟨v, hv, hrest⟩
      · cases v with
        | nil => exact ⟨[], by simpa using hv.symm, by simpa using htail.symm⟩
        | cons d v =>
          have hl := congrArg List.length htail
          simp only [List.length_cons, List.length_append] at hl
          omega
      · exact ⟨v, hv, hrest⟩
    have hne : w ≠ [] := by
      rintro rfl
      rw [hw] at hmoves
      simp at hmoves
    simp only [List.mem_append, not_or] at hbody
    obtain ⟨c, hc⟩ : ∃ c, w.getLast? = some c := ⟨_, List.getLast?_eq_some_getLast hne⟩
    have hcw : c ∈ w := List.mem_of_getLast? hc
    have hqc : q = ⟨some c, v ++ '\n' :: tail, q.groups⟩ := by
      rw [← hrest, show some c = q.prev by rw [hprev, hc, Option.some_or]]
    rw [hqc]
    exact hitCount_mid hs v tail (fun h => hbody.1 (h ▸ hcw)) hbody.2 _

theorem Confined.line {body tail : Str} (hbody : '\n' ∉ body)
    (h : ∀ q ∈ lineEnds u s (body ++ '\n' :: tail), tail.length < q.rest.length)
    (htail : Confined u s tail) : Confined u s (body ++ '\n' :: tail) := by
  intro a b hab ha q hq
  by_cases hnil : a = []
  · subst hnil
    rw [List.nil_append] at hab
    subst hab
    have hlt := h q hq
    obtain ⟨w, hw, -⟩ := ends_consumed u _ _ q hq
    refine ⟨w, hw, ?_⟩
    rcases List.append_eq_append_iff.mp hw with ⟨v, hv, hrest⟩ | ⟨v, rfl, -⟩
    · cases v with
      | nil =>
        rw [hv, List.append_nil]
        exact hbody
      | cons d v =>
        have hl := congrArg List.length hrest
        simp only [List.length_cons, List.length_append] at hl
        omega
    · exact fun hm => hbody (List.mem_append_left _ hm)
  · have hlast := ha.resolve_left hnil
    rcases List.append_eq_append_iff.mp hab with ⟨v, hv, hvb⟩ | ⟨v, hv, -⟩
    · cases v with
      | nil =>
        rw [hv, List.append_nil] at hlast
        exact absurd (List.mem_of_getLast? hlast) hbody
      | cons d v =>
        injection hvb with hd hvb
        subst hd
        refine htail v b hvb ?_ q hq
        by_cases hvn : v = []
        · exact .inl hvn
        · right
          rw [hv, List.getLast?_append, List.getLast?_cons] at hlast
          rw [List.getLast?_eq_some_getLast hvn] at hlast ⊢
          simpa using hlast
    · exact absurd (hv ▸ List.mem_append_left _ (List.mem_of_getLast? hlast)) hbody

theorem Confined.nil (hs : Message u s) : Confined u s [] := by
  intro a b hab _ q hq
  obtain ⟨rfl, rfl⟩ := List.append_eq_nil_iff.mp hab.symm
  have hlt := lineRe_moves hs _ q hq
  simp at hlt

theorem Confined.inLine {body tail : Str} (h : Confined u s (body ++ '\n' :: tail)) :
    ∀ q ∈ lineEnds u s (body ++ '\n' :: tail), tail.length < q.rest.length := by
  intro q hq
  obtain ⟨w, hw, hnl⟩ := h [] _ rfl (.inl rfl) q hq
  rcases List.append_eq_append_iff.mp hw with ⟨v, rfl, htail⟩ | ⟨v, -, hrest⟩
  · cases v with
    | nil =>
      rw [List.nil_append] at htail
      rw [← htail, List.length_cons]
      exact Nat.lt_succ_self _
    | cons d v =>
      injection htail with hd _
      subst hd
      simp at hnl
  · rw [hrest, List.length_append, List.length_cons]
    omega

theorem lineEnds_append (hs : Message u s) {a b : Str} (ha : a.getLast? = some '\n')
    (hin : ∀ q ∈ lineEnds u s (a ++ b), b.length < q.rest.length) :
    lineEnds u s (a ++ b) = (lineEnds u s a).map (Pos.extend b) := by
  have hne : a ≠ [] := by
    rintro rfl
    simp at ha
  have hext := (ends_extends (lineRe_plain hs) : Extends b (ends u (lineRe s))) ⟨none, a, []⟩
    (by simp [inside, hne])
  have hleft : (ends u (lineRe s) (Pos.extend b ⟨none, a, []⟩)).filter (before b) =
      lineEnds u s (a ++ b) := by
    rw [List.filter_eq_self.mpr]
    · rfl
    · intro q hq
      simpa [before] using hin q hq
  have hright : (ends u (lineRe s) ⟨none, a, []⟩).filter inside = lineEnds u s a := by
    rw [List.filter_eq_self.mpr]
    · rfl
    · intro q hq
      obtain ⟨w, hw, hprev⟩ := ends_consumed u _ _ q hq
      have hlast := lineRe_lastChar hs _ q hq
      by_contra hrest
      have hnil : q.rest = [] := by simpa [inside] using hrest
      simp only [hnil, List.append_nil] at hw
      rw [hprev, ← hw, ha, Option.some_or] at hlast
      exact hlast rfl
  rw [hleft, hright] at hext
  exact hext

theorem Confined.head (hs : Message u s) {a b : Str} (h : Confined u s (a ++ b)) (ha : AtLine a) :
    Confined u s a := by
  intro c d hcd hc q hq
  by_cases hd : d = []
  · subst hd
    have hlt := lineRe_moves hs _ q hq
    simp at hlt
  · have hlast : d.getLast? = some '\n' := by
      rcases ha with rfl | ha
      · simp [hd] at hcd
      · rw [hcd, List.getLast?_append] at ha
        rwa [List.getLast?_eq_some_getLast hd, Option.some_or,
          ← List.getLast?_eq_some_getLast hd] at ha
    -- a match of the shorter text is one of the longer text
    have hext := (ends_extends (lineRe_plain hs) : Extends b (ends u (lineRe s))) ⟨none, d, []⟩
      (by simp [inside, hd])
    have hinside : inside q = true := by
      obtain ⟨w, hw, hprev⟩ := ends_consumed u _ _ q hq
      by_contra hrest
      have hnil : q.rest = [] := by simpa [inside] using hrest
      simp only [hnil, List.append_nil] at hw
      have hq' := lineRe_lastChar hs _ q hq
      rw [hprev, ← hw, hlast, Option.some_or] at hq'
      exact hq' rfl
    have hmem : q.extend b ∈ lineEnds u s (d ++ b) := by
      have hm : q.extend b ∈ (((lineEnds u s d).filter inside).map (Pos.extend b)) :=
        List.mem_map_of_mem (List.mem_filter.mpr ⟨hq, hinside⟩)
      rw [lineEnds, ← hext] at hm
      exact (List.mem_filter.mp hm).1
    obtain ⟨w, hw, hnl⟩ := h c (d ++ b) (by rw [hcd, List.append_assoc]) hc _ hmem
    refine ⟨w, ?_, hnl⟩
    have hw' : d ++ b = (w ++ q.rest) ++ b := by rw [hw, List.append_assoc]; rfl
    exact List.append_cancel_right hw'

/-- Whole lines and what follows them are searched one after the other. -/
theorem hitCount_append (hs : Message u s) {a b : Str} (ha : AtLine a)
    (h : Confined u s (a ++ b)) :
    hitCount u (lineRe s) ⟨none, a ++ b, []⟩ =
      hitCount u (lineRe s) ⟨none, a, []⟩ + hitCount u (lineRe s) ⟨none, b, []⟩ := by
  induction hn : a.length using Nat.strongRecOn generalizing a with
  | _ n ih =>
    rcases ha with rfl | ha
    · rw [hitCount_nil (lineRe_moves hs), Nat.zero_add, List.nil_append]
    · obtain ⟨body, tail, rfl, hbody⟩ :=
        List.eq_append_cons_of_mem (List.mem_of_getLast? ha)
      have htail : AtLine tail := by
        by_cases ht : tail = []
        · exact .inl ht
        · right
          rw [List.getLast?_append, List.getLast?_cons] at ha
          rw [List.getLast?_eq_some_getLast ht] at ha ⊢
          simpa using ha
      have hassoc : body ++ '\n' :: tail ++ b = body ++ '\n' :: (tail ++ b) := by simp
      have hin := Confined.inLine (hassoc ▸ h)
      have hline : AtLine (body ++ ['\n']) := .inr (by simp)
      have hrest : Confined u s (tail ++ b) := by
        refine Confined.suffix (a := body ++ ['\n']) ?_ hline
        simpa using h
      have hends := lineEnds_append hs ha (b := b) (by
        intro q hq
        rw [hassoc] at hq
        have hlt := hin q hq
        rw [List.length_append] at hlt
        omega)
      rw [hassoc, hitCount_line hs hbody hin, ih tail.length (by simp [← hn]; omega) htail hrest rfl,
        hitCount_line hs hbody ((h.head hs (.inr ha)).inLine), ← hassoc, hends]
      simp only [List.map_eq_nil_iff]
      omega

/-- Cutting a line short at its front, not inside a word, makes no further match. -/
theorem hitCount_grow (hs : Message u s) {dropped text : Str} (hdropped : '\n' ∉ dropped)
    (hcut : dropped.getLast?.any (isWord u) = true → text.head?.any (isWord u) = false)
    (htext : AtLine text) (h : Confined u s (dropped ++ text)) :
    hitCount u (lineRe s) ⟨none, text, []⟩ ≤ hitCount u (lineRe s) ⟨none, dropped ++ text, []⟩ := by
  rcases htext with rfl | htext
  · rw [hitCount_nil (lineRe_moves hs)]
    exact Nat.zero_le _
  · obtain ⟨body, tail, rfl, hbody⟩ := List.eq_append_cons_of_mem (List.mem_of_getLast? htext)
    have hassoc : dropped ++ (body ++ '\n' :: tail) = (dropped ++ body) ++ '\n' :: tail := by simp
    have hmem : ∀ q ∈ lineEnds u s (body ++ '\n' :: tail),
        q ∈ lineEnds u s (dropped ++ (body ++ '\n' :: tail)) := by
      intro q hq
      obtain ⟨a, b, hab, hnl, hq⟩ := (mem_line (.inl rfl) _ q).mp hq
      refine (mem_line (.inl rfl) _ q).mpr ⟨dropped ++ a, b, by rw [hab, List.append_assoc],
        by simp [hdropped, hnl], ?_⟩
      by_cases ha : a = []
      · subst ha
        rw [List.nil_append] at hab
        rw [List.append_nil, ← hab]
        rw [← hab] at hq
        refine mem_word_of_mem hs (by simp) ?_ hq
        simpa using hcut
      · rw [List.getLast?_append]
        rw [List.getLast?_eq_some_getLast ha] at hq ⊢
        simpa using hq
    have hin := Confined.inLine (hassoc ▸ h)
    have hin' : ∀ q ∈ lineEnds u s (body ++ '\n' :: tail), tail.length < q.rest.length := by
      intro q hq
      exact hin q (hassoc ▸ hmem q hq)
    rw [hassoc, hitCount_line hs (by simp [hdropped, hbody]) hin, hitCount_line hs hbody hin']
    refine Nat.add_le_add_right ?_ _
    by_cases hnil : lineEnds u s (body ++ '\n' :: tail) = []
    · rw [if_pos hnil]
      exact Nat.zero_le _
    · obtain ⟨q, hq⟩ := List.exists_mem_of_ne_nil _ hnil
      have hne := List.ne_nil_of_mem (hmem q hq)
      rw [hassoc] at hne
      rw [if_neg hnil, if_neg hne]

end LineSearch

end Python.Regex
