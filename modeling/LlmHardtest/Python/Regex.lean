import LlmHardtest.Python.Lines
set_option autoImplicit false

/-! The part of `re` that scripts use on text: a backtracking matcher that lists the ends of a
match in order of preference, and `search`, `finditer` and `sub` over it. -/

namespace Python

/-- The character properties the interpreter reads from the Unicode database. -/
structure UnicodeData where
  decimal : Char → Option Nat
  alnum : Char → Bool
  fold : Char → Char
  lower : Char → Str
  upper : Char → Str
  decimal_lt : ∀ c d, decimal c = some d → d < 10
  decimal_ascii : ∀ c : Char, c.toNat < 128 →
    decimal c = if c.isDigit then some (c.toNat - 48) else none
  alnum_ascii : ∀ c : Char, c.toNat < 128 → alnum c = c.isAlphanum
  fold_ascii : ∀ c : Char, c.toNat < 128 → fold c = c.toLower
  lower_ascii : ∀ c : Char, c.toNat < 128 → lower c = [c.toLower]
  upper_ascii : ∀ c : Char, c.toNat < 128 → upper c = [c.toUpper]

def asciiData : UnicodeData where
  decimal c := if c.isDigit then some (c.toNat - 48) else none
  alnum c := c.isAlphanum
  fold c := c.toLower
  lower c := [c.toLower]
  upper c := [c.toUpper]
  decimal_lt := by
    intro c d h
    split at h
    · rename_i hc
      simp only [Char.isDigit, Bool.and_eq_true, decide_eq_true_eq] at hc
      have h1 : c.toNat ≤ 57 := UInt32.le_iff_toNat_le.mp hc.2
      injection h with h
      omega
    · cases h
  decimal_ascii _ _ := rfl
  alnum_ascii _ _ := rfl
  fold_ascii _ _ := rfl
  lower_ascii _ _ := rfl
  upper_ascii _ _ := rfl

/-- `str.isspace` on one character, also `\s`. -/
def isSpace (c : Char) : Bool :=
  let n := c.toNat
  (9 ≤ n && n ≤ 13) || (28 ≤ n && n ≤ 32) || n == 0x85 || n == 0xa0 || n == 0x1680 ||
    (0x2000 ≤ n && n ≤ 0x200a) || n == 0x2028 || n == 0x2029 || n == 0x202f || n == 0x205f ||
    n == 0x3000

def strip (s : Str) : Str := ((s.dropWhile isSpace).reverse.dropWhile isSpace).reverse

def UnicodeData.lowerStr (u : UnicodeData) (s : Str) : Str := s.flatMap u.lower

def UnicodeData.upperStr (u : UnicodeData) (s : Str) : Str := s.flatMap u.upper

namespace Regex

inductive Re where
  | set (p : UnicodeData → Char → Bool)
  | eps
  | seq (r s : Re)
  | alt (r s : Re)
  | star (greedy : Bool) (r : Re)
  | group (n : Nat) (r : Re)
  | look (positive : Bool) (r : Re)
  | bol
  | eol
  | wordBoundary

/-- A position in the text: the character before it, the text after it, the groups so far. -/
structure Pos where
  prev : Option Char
  rest : Str
  groups : List (Nat × Str)
  deriving Repr, DecidableEq

def Pos.atStart (s : Str) : Pos := ⟨none, s, []⟩

def isWord (u : UnicodeData) (c : Char) : Bool := u.alnum c || c == '_'

/-- The ends of `r*`, given the ends of `r`; an iteration that reads nothing is not repeated. -/
def starEnds (greedy : Bool) (f : Pos → List Pos) : Nat → Pos → List Pos
  | 0, p => [p]
  | fuel + 1, p =>
      let more := ((f p).filter fun q => q.rest.length < p.rest.length).flatMap
        (starEnds greedy f fuel)
      if greedy then more ++ [p] else p :: more

/-- Where a match of `r` from `p` can end, the preferred end first. -/
def ends (u : UnicodeData) : Re → Pos → List Pos
  | .set q, p =>
      match p.rest with
      | c :: cs => if q u c then [⟨some c, cs, p.groups⟩] else []
      | [] => []
  | .eps, p => [p]
  | .seq r s, p => (ends u r p).flatMap (ends u s)
  | .alt r s, p => ends u r p ++ ends u s p
  | .star greedy r, p => starEnds greedy (ends u r) p.rest.length p
  | .group n r, p => (ends u r p).map fun q =>
      { q with groups := (n, p.rest.take (p.rest.length - q.rest.length)) :: q.groups }
  | .look positive r, p => if (ends u r p).isEmpty = positive then [] else [p]
  | .bol, p => if p.prev = none ∨ p.prev = some '\n' then [p] else []
  | .eol, p => if p.rest.head? = none ∨ p.rest.head? = some '\n' then [p] else []
  | .wordBoundary, p =>
      if (p.prev.any (isWord u)) = (p.rest.head?.any (isWord u)) then [] else [p]

structure Hit where
  start : Nat
  text : Str
  groups : List (Nat × Str)
  deriving Repr, DecidableEq

def Hit.group (h : Hit) (n : Nat) : Str := (h.groups.lookup n).getD []

/-- The loop of `finditer`; after an empty match the next one must advance. -/
def scan (u : UnicodeData) (r : Re) : Nat → Nat → Bool → Pos → List Hit
  | 0, _, _, _ => []
  | fuel + 1, offset, mustAdvance, p =>
      let found := (ends u r { p with groups := [] }).filter fun q =>
        !mustAdvance || decide (q.rest.length < p.rest.length)
      match found.head? with
      | some q =>
          let len := p.rest.length - q.rest.length
          ⟨offset, p.rest.take len, q.groups⟩ :: scan u r fuel (offset + len) (len == 0) q
      | none =>
          match p.rest with
          | [] => []
          | c :: cs => scan u r fuel (offset + 1) false ⟨some c, cs, []⟩

def findIter (u : UnicodeData) (r : Re) (s : Str) : List Hit :=
  scan u r (2 * s.length + 2) 0 false (.atStart s)

def search (u : UnicodeData) (r : Re) (s : Str) : Bool := !(findIter u r s).isEmpty

def matchStart (u : UnicodeData) (r : Re) (s : Str) : Option Pos :=
  (ends u r (.atStart s)).head?

def fullMatch (u : UnicodeData) (r : Re) (s : Str) : Bool :=
  (ends u r (.atStart s)).any fun p => p.rest.isEmpty

def replaceHits (repl : Str) : Nat → Str → List Hit → Str
  | _, s, [] => s
  | offset, s, h :: hs =>
      s.take (h.start - offset) ++ repl ++
        replaceHits repl (h.start + h.text.length) (s.drop (h.start - offset + h.text.length)) hs

def sub (u : UnicodeData) (r : Re) (repl s : Str) : Str :=
  replaceHits repl 0 s (findIter u r s)

def Re.chr (c : Char) : Re := .set fun _ d => d == c
def Re.chrI (c : Char) : Re := .set fun u d => u.fold d == u.fold c
def Re.any : Re := .set fun _ d => d != '\n'
def Re.space : Re := .set fun _ d => isSpace d
def Re.nonSpace : Re := .set fun _ d => !isSpace d
def Re.digit : Re := .set fun u d => (u.decimal d).isSome
def Re.word : Re := .set isWord
def Re.oneOf (s : String) : Re := .set fun _ d => s.toList.contains d
def Re.noneOf (s : String) : Re := .set fun _ d => !s.toList.contains d
def Re.range (a b : Char) : Re := .set fun _ d => a ≤ d && d ≤ b

/-- A class of ASCII characters under `re.I`. -/
def Re.classI (s : String) : Re := .set fun u d => s.toList.any fun c => u.fold c == u.fold d

def Re.lits : Str → Re
  | [] => .eps
  | c :: cs => .seq (.chr c) (Re.lits cs)

def Re.litsI : Str → Re
  | [] => .eps
  | c :: cs => .seq (.chrI c) (Re.litsI cs)

def Re.lit (s : String) : Re := Re.lits s.toList
def Re.litI (s : String) : Re := Re.litsI s.toList
def Re.many (r : Re) : Re := .star true r
def Re.some (r : Re) : Re := .seq r (.star true r)
def Re.opt (r : Re) : Re := .alt r .eps

def Re.cat : List Re → Re
  | [] => .eps
  | [r] => r
  | r :: rs => .seq r (Re.cat rs)

def Re.or : List Re → Re
  | [] => .look false .eps
  | [r] => r
  | r :: rs => .alt r (Re.or rs)

section Lemmas
variable {u : UnicodeData}

@[simp]
theorem ends_set_cons (q : UnicodeData → Char → Bool) (prev : Option Char) (c : Char) (cs : Str)
    (gs : List (Nat × Str)) :
    ends u (.set q) ⟨prev, c :: cs, gs⟩ = if q u c then [⟨some c, cs, gs⟩] else [] := rfl

theorem ends_lits (s t : Str) (prev : Option Char) (gs : List (Nat × Str)) :
    ∃ prev', ends u (Re.lits s) ⟨prev, s ++ t, gs⟩ = [⟨prev', t, gs⟩] := by
  induction s generalizing prev with
  | nil => exact ⟨prev, rfl⟩
  | cons c s ih =>
    obtain ⟨prev', h⟩ := ih (some c)
    exact ⟨prev', by simp [Re.lits, Re.chr, ends, h]⟩

theorem ends_lits_eq_nil {s t : Str} (h : ¬ s <+: t) (prev : Option Char) (gs : List (Nat × Str)) :
    ends u (Re.lits s) ⟨prev, t, gs⟩ = [] := by
  induction s generalizing t prev with
  | nil => exact absurd (List.nil_prefix) h
  | cons c s ih =>
    cases t with
    | nil => simp [Re.lits, Re.chr, ends]
    | cons d t =>
      by_cases hcd : d = c
      · subst hcd
        have hst : ¬ s <+: t := fun hp => h (by simpa using hp)
        simp [Re.lits, Re.chr, ends, ih hst]
      · simp [Re.lits, Re.chr, ends, hcd]

/-- A greedy run over one character class prefers the longest reading. -/
theorem starEnds_set_head {q : UnicodeData → Char → Bool} (s t : Str) (prev : Option Char)
    (gs : List (Nat × Str)) (hs : ∀ c ∈ s, q u c = true) (ht : ∀ c ∈ t.head?, q u c = false)
    (fuel : Nat) (hf : s.length ≤ fuel) :
    ∃ prev', (starEnds true (ends u (.set q)) fuel ⟨prev, s ++ t, gs⟩).head? =
      some ⟨prev', t, gs⟩ := by
  induction s generalizing prev fuel with
  | nil =>
    refine ⟨prev, ?_⟩
    cases fuel with
    | zero => rfl
    | succ fuel =>
      cases t with
      | nil => simp [starEnds, ends]
      | cons d t =>
        have hd := ht d (by simp)
        simp [starEnds, ends, hd]
  | cons c s ih =>
    cases fuel with
    | zero => simp at hf
    | succ fuel =>
      obtain ⟨prev', h⟩ := ih (some c) (fun d hd => hs d (by simp [hd])) fuel
        (by simpa using hf)
      refine ⟨prev', ?_⟩
      have hc := hs c (by simp)
      simp only [starEnds, List.cons_append, ends_set_cons, hc, if_true, List.head?_append]
      simp [h]

theorem ends_some_set_head {q : UnicodeData → Char → Bool} {s t : Str} (prev : Option Char)
    (gs : List (Nat × Str)) (hne : s ≠ []) (hs : ∀ c ∈ s, q u c = true)
    (ht : ∀ c ∈ t.head?, q u c = false) :
    ∃ prev', (ends u (.some (.set q)) ⟨prev, s ++ t, gs⟩).head? = some ⟨prev', t, gs⟩ := by
  cases s with
  | nil => exact absurd rfl hne
  | cons c s =>
    obtain ⟨prev', h⟩ := starEnds_set_head s t (some c) gs (fun d hd => hs d (by simp [hd])) ht
      (s ++ t).length (by simp)
    refine ⟨prev', ?_⟩
    have hc := hs c (by simp)
    simpa [Re.some, ends, hc] using h

theorem ends_group_head {n : Nat} {r : Re} {s t : Str} {prev prev' : Option Char}
    {gs : List (Nat × Str)} (h : (ends u r ⟨prev, s ++ t, gs⟩).head? = some ⟨prev', t, gs⟩) :
    (ends u (.group n r) ⟨prev, s ++ t, gs⟩).head? = some ⟨prev', t, (n, s) :: gs⟩ := by
  simp only [ends, List.head?_map, h, Option.map_some, List.length_append, Nat.add_sub_cancel]
  simp

end Lemmas

end Regex
end Python
