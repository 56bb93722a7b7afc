import LlmHardtest.Python.Value
set_option autoImplicit false

/-! The text that `json.dumps` writes. A text determines its value, also when more text follows. -/

namespace Python

/-- How `json.dumps` is called. -/
structure DumpStyle where
  ensureAscii : Bool
  spaced : Bool

def intStr : Int → Str
  | .ofNat n => natStr n
  | .negSucc n => '-' :: natStr (n + 1)

def jsonMarks : List Char := ['"', ',', '[', ']', '{', '}']

/-- The text of floats: printable ASCII, different for different values and no other scalar's. -/
structure FloatText where
  repr : PyFloat → Str
  injective : ∀ x y, repr x = repr y → x = y
  plain : ∀ x, ∀ c ∈ repr x, 32 < c.toNat ∧ c.toNat < 127 ∧ c ∉ jsonMarks
  ne_nil : ∀ x, repr x ≠ []
  not_int : ∀ x n, repr x ≠ intStr n
  not_word : ∀ x, repr x ∉ ["null".toList, "true".toList, "false".toList]

def unicodeEscape (n : Nat) : Str :=
  ['\\', 'u', Nat.digitChar (n / 4096 % 16), Nat.digitChar (n / 256 % 16),
    Nat.digitChar (n / 16 % 16), Nat.digitChar (n % 16)]

def shortEscapes : List (Char × Char) :=
  [('"', '"'), ('\\', '\\'), ('\n', 'n'), ('\r', 'r'), ('\t', 't'), ('\x0c', 'f'), ('\x08', 'b')]

def escapeChar (ensureAscii : Bool) (c : Char) : Str :=
  match shortEscapes.lookup c with
  | some e => ['\\', e]
  | none =>
      if c.toNat < 32 ∨ ensureAscii = true ∧ 126 < c.toNat then
        if c.toNat < 0x10000 then unicodeEscape c.toNat
        else unicodeEscape (0xd800 + (c.toNat - 0x10000) / 1024) ++
          unicodeEscape (0xdc00 + (c.toNat - 0x10000) % 1024)
      else [c]

def strText (ensureAscii : Bool) (s : Str) : Str :=
  '"' :: (s.flatMap (escapeChar ensureAscii) ++ ['"'])

def DumpStyle.itemSep (st : DumpStyle) : Str := if st.spaced then [',', ' '] else [',']

def DumpStyle.keySep (st : DumpStyle) : Str := if st.spaced then [':', ' '] else [':']

variable (st : DumpStyle) (ft : FloatText)

mutual

def Json.text : Json → Str
  | .null => "null".toList
  | .bool b => if b then "true".toList else "false".toList
  | .int n => intStr n
  | .float x => ft.repr x
  | .str s => strText st.ensureAscii s
  | .arr items => '[' :: (joinStr st.itemSep (itemTexts items) ++ [']'])
  | .obj fields => '{' :: (joinStr st.itemSep (fieldTexts fields) ++ ['}'])

def itemTexts : List Json → List Str
  | [] => []
  | v :: vs => v.text :: itemTexts vs

def fieldTexts : List (Str × Json) → List Str
  | [] => []
  | (k, v) :: es => (strText st.ensureAscii k ++ st.keySep ++ v.text) :: fieldTexts es

end

mutual

def Json.sortKeys : Json → Json
  | .arr items => .arr (sortItems items)
  | .obj fields => .obj ((sortFields fields).insertionSort fun a b => a.1 ≤ b.1)
  | v => v

def sortItems : List Json → List Json
  | [] => []
  | v :: vs => v.sortKeys :: sortItems vs

def sortFields : List (Str × Json) → List (Str × Json)
  | [] => []
  | (k, v) :: es => (k, v.sortKeys) :: sortFields es

end

def dumps (v : Json) : Str := v.sortKeys.text st ft

section Escape

def hexValue (c : Char) : Nat := if c.toNat < 58 then c.toNat - 48 else c.toNat - 87

theorem hexValue_digitChar {n : Nat} (h : n < 16) : hexValue (Nat.digitChar n) = n := by
  interval_cases n <;> rfl

def readUnit : Str → Option (Nat × Str)
  | '\\' :: 'u' :: a :: b :: c :: d :: rest =>
      some (hexValue a * 4096 + hexValue b * 256 + hexValue c * 16 + hexValue d, rest)
  | _ => none

theorem readUnit_unicodeEscape {n : Nat} (h : n < 0x10000) (rest : Str) :
    readUnit (unicodeEscape n ++ rest) = some (n, rest) := by
  simp only [unicodeEscape, List.cons_append, List.nil_append, readUnit]
  rw [hexValue_digitChar (Nat.mod_lt _ (by omega)), hexValue_digitChar (Nat.mod_lt _ (by omega)),
    hexValue_digitChar (Nat.mod_lt _ (by omega)), hexValue_digitChar (Nat.mod_lt _ (by omega))]
  congr 2
  omega

def readEscaped (s : Str) : Option (Nat × Str) :=
  match readUnit s with
  | some (n, rest) =>
      if 0xd800 ≤ n ∧ n < 0xe000 then
        (readUnit rest).map fun p => (0x10000 + (n - 0xd800) * 1024 + (p.1 - 0xdc00), p.2)
      else some (n, rest)
  | none =>
      match s with
      | '\\' :: e :: rest => ((shortEscapes.map Prod.swap).lookup e).map fun c => (c.toNat, rest)
      | c :: rest => some (c.toNat, rest)
      | [] => none

theorem readUnit_of_ne {c : Char} (h : c ≠ '\\') (rest : Str) : readUnit (c :: rest) = none := by
  unfold readUnit
  split
  · rename_i heq
    injection heq with h1 _
    exact absurd h1 h
  · rfl

theorem toNat_not_surrogate (c : Char) : ¬(0xd800 ≤ c.toNat ∧ c.toNat < 0xe000) := by
  have h := c.valid
  simp only [UInt32.isValidChar, Nat.isValidChar] at h
  have hn : c.val.toNat = c.toNat := rfl
  omega

theorem toNat_lt (c : Char) : c.toNat < 0x110000 := by
  have h := c.valid
  simp only [UInt32.isValidChar, Nat.isValidChar] at h
  have hn : c.val.toNat = c.toNat := rfl
  omega

theorem readEscaped_short {c e : Char} (h : (c, e) ∈ shortEscapes) (rest : Str) :
    readEscaped ('\\' :: e :: rest) = some (c.toNat, rest) := by
  simp only [shortEscapes, List.mem_cons, Prod.mk.injEq, List.not_mem_nil, or_false] at h
  rcases h with ⟨rfl, rfl⟩ | ⟨rfl, rfl⟩ | ⟨rfl, rfl⟩ | ⟨rfl, rfl⟩ | ⟨rfl, rfl⟩ | ⟨rfl, rfl⟩ |
    ⟨rfl, rfl⟩
  all_goals rfl

theorem readEscaped_unit {n : Nat} (h : n < 0x10000) (hs : ¬(0xd800 ≤ n ∧ n < 0xe000)) (rest : Str) :
    readEscaped (unicodeEscape n ++ rest) = some (n, rest) := by
  unfold readEscaped
  rw [readUnit_unicodeEscape h]
  exact if_neg hs

theorem readEscaped_pair {n m : Nat} (h : n < 0x10000) (hs : 0xd800 ≤ n ∧ n < 0xe000)
    (hm : m < 0x10000) (rest : Str) : readEscaped (unicodeEscape n ++ (unicodeEscape m ++ rest)) =
      some (0x10000 + (n - 0xd800) * 1024 + (m - 0xdc00), rest) := by
  unfold readEscaped
  rw [readUnit_unicodeEscape h]
  exact (if_pos hs).trans (by rw [readUnit_unicodeEscape hm, Option.map_some])

theorem readEscaped_escapeChar (ensureAscii : Bool) (c : Char) (rest : Str) :
    readEscaped (escapeChar ensureAscii c ++ rest) = some (c.toNat, rest) := by
  have hs := toNat_not_surrogate c
  have hlt := toNat_lt c
  unfold escapeChar
  cases hshort : shortEscapes.lookup c with
  | some e =>
    obtain ⟨before, after, hmem, -⟩ := List.lookup_eq_some_iff.mp hshort
    exact readEscaped_short (by rw [hmem]; simp) rest
  | none =>
    have hne : c ≠ '\\' := by
      rintro rfl
      simp [shortEscapes, List.lookup_cons] at hshort
    dsimp only
    split
    · split
      · rename_i hsmall
        exact readEscaped_unit hsmall hs rest
      · rename_i hbig
        have hcode : 0x10000 + (0xd800 + (c.toNat - 0x10000) / 1024 - 0xd800) * 1024 +
            (0xdc00 + (c.toNat - 0x10000) % 1024 - 0xdc00) = c.toNat := by omega
        rw [List.append_assoc, readEscaped_pair (by omega) (by omega) (by omega), hcode]
    · unfold readEscaped
      rw [List.singleton_append, readUnit_of_ne hne]
      dsimp only
      split
      · rename_i heq
        injection heq with h1 _
        exact absurd h1 hne
      · rename_i heq
        injection heq with h1 h2
        rw [h1, h2]
      · rename_i heq
        cases heq

theorem escapeChar_head (ensureAscii : Bool) (c : Char) :
    ∃ d rest, escapeChar ensureAscii c = d :: rest ∧ d ≠ '"' := by
  unfold escapeChar
  cases hshort : shortEscapes.lookup c with
  | some e => exact ⟨_, _, rfl, by decide⟩
  | none =>
    dsimp only
    split
    · split
      · exact ⟨_, _, rfl, by decide⟩
      · exact ⟨_, _, rfl, by decide⟩
    · refine ⟨_, _, rfl, ?_⟩
      rintro rfl
      simp [shortEscapes] at hshort

/-- Where a string ends does not depend on what follows. -/
theorem escaped_cancel {ensureAscii : Bool} {s t x y : Str}
    (h : s.flatMap (escapeChar ensureAscii) ++ '"' :: x =
      t.flatMap (escapeChar ensureAscii) ++ '"' :: y) : s = t ∧ x = y := by
  induction s generalizing t with
  | nil =>
    cases t with
    | nil => simpa using h
    | cons d t =>
      obtain ⟨e, rest, he, hne⟩ := escapeChar_head ensureAscii d
      simp only [List.flatMap_nil, List.nil_append, List.flatMap_cons, he, List.cons_append,
        List.cons.injEq] at h
      exact absurd h.1.symm hne
  | cons c s ih =>
    cases t with
    | nil =>
      obtain ⟨e, rest, he, hne⟩ := escapeChar_head ensureAscii c
      simp only [List.flatMap_nil, List.nil_append, List.flatMap_cons, he, List.cons_append,
        List.cons.injEq] at h
      exact absurd h.1 hne
    | cons d t =>
      rw [List.flatMap_cons, List.flatMap_cons, List.append_assoc, List.append_assoc] at h
      have hread := congrArg readEscaped h
      rw [readEscaped_escapeChar, readEscaped_escapeChar, Option.some.injEq, Prod.mk.injEq] at hread
      obtain ⟨hst, hxy⟩ := ih hread.2
      rw [Char.toNat_inj.mp hread.1, hst]
      exact ⟨rfl, hxy⟩

theorem strText_cancel {ensureAscii : Bool} {s t x y : Str}
    (h : strText ensureAscii s ++ x = strText ensureAscii t ++ y) : s = t ∧ x = y := by
  simp only [strText, List.cons_append, List.append_assoc, List.nil_append, List.cons.injEq,
    true_and] at h
  exact escaped_cancel h

end Escape

section Cancel

def Json.isScalar : Json → Bool
  | .null | .bool _ | .int _ | .float _ => true
  | _ => false

/-- What follows a number is a delimiter. -/
def Json.Ends (v : Json) (rest : Str) : Prop :=
  v.isScalar = true → ∃ c more, rest = c :: more ∧ c ∈ jsonMarks

theorem natStr_injective {m n : Nat} (h : natStr m = natStr n) : m = n := by
  have hm := digitsValue_toDigits asciiData m
  rw [show Nat.toDigits 10 m = Nat.toDigits 10 n from h, digitsValue_toDigits] at hm
  exact hm.symm

theorem natStr_plain {n : Nat} {c : Char} (h : c ∈ natStr n) : c.isDigit = true :=
  Nat.isDigit_of_mem_toDigits (by omega) (by omega) h

theorem intStr_plain {n : Int} {c : Char} (h : c ∈ intStr n) : c = '-' ∨ c.isDigit = true := by
  cases n with
  | ofNat n => exact .inr (natStr_plain h)
  | negSucc n =>
    rcases List.mem_cons.mp h with rfl | h
    · exact .inl rfl
    · exact .inr (natStr_plain h)

@[simp] theorem natStr_ne_nil (n : Nat) : natStr n ≠ [] := Nat.toDigits_ne_nil

theorem intStr_injective {m n : Int} (h : intStr m = intStr n) : m = n := by
  cases m with
  | ofNat m =>
    cases n with
    | ofNat n => rw [natStr_injective h]
    | negSucc n =>
      have hmem : '-' ∈ natStr m := by
        rw [show natStr m = '-' :: natStr (n + 1) from h]
        simp
      exact absurd (natStr_plain hmem) (by decide)
  | negSucc m =>
    cases n with
    | ofNat n =>
      have hmem : '-' ∈ natStr n := by
        rw [show natStr n = '-' :: natStr (m + 1) from h.symm]
        simp
      exact absurd (natStr_plain hmem) (by decide)
    | negSucc n =>
      have htail : natStr (m + 1) = natStr (n + 1) := by
        injection h
      have heq := natStr_injective htail
      rw [show m = n by omega]

theorem scalar_plain {v : Json} (hv : v.isScalar = true) : ∀ c ∈ v.text st ft, c ∉ jsonMarks := by
  have hdigit : ∀ c : Char, c.isDigit = true → c ∉ jsonMarks := by
    intro c hc hm
    simp only [jsonMarks, List.mem_cons, List.not_mem_nil, or_false] at hm
    rcases hm with rfl | rfl | rfl | rfl | rfl | rfl
    all_goals exact absurd hc (by decide)
  cases v with
  | null => simp [Json.text, jsonMarks]
  | bool b => cases b <;> simp [Json.text, jsonMarks]
  | int n =>
    intro c hc
    rcases intStr_plain hc with rfl | hc
    · decide
    · exact hdigit c hc
  | float x =>
    intro c hc
    exact (ft.plain x c hc).2.2
  | str s => cases hv
  | arr items => cases hv
  | obj fields => cases hv

def jsonWords : List Str := ["null".toList, "true".toList, "false".toList]

theorem intStr_not_word (n : Int) : intStr n ∉ jsonWords := by
  intro hmem
  obtain ⟨c, rest, hc⟩ : ∃ c rest, intStr n = c :: rest := by
    cases n with
    | ofNat n => exact List.exists_cons_of_ne_nil (natStr_ne_nil n)
    | negSucc n => exact ⟨_, _, rfl⟩
  have hplain := @intStr_plain n c (by rw [hc]; simp)
  rw [hc] at hmem
  simp only [jsonWords, List.mem_cons, List.not_mem_nil, or_false] at hmem
  rcases hmem with h | h | h
  all_goals
    injection h with h _
    rw [h] at hplain
    exact absurd hplain (by decide)

theorem word_injective {v w : Json} (hv : v.isScalar = true) (hw : w.isScalar = true)
    (h : v.text st ft = w.text st ft) (hword : v.text st ft ∈ jsonWords) : v = w := by
  have hsame : w.text st ft ∈ jsonWords := h ▸ hword
  cases v with
  | int n => exact absurd hword (intStr_not_word n)
  | float x => exact absurd hword (ft.not_word x)
  | null =>
    cases w with
    | null => rfl
    | bool c => cases c <;> simp [Json.text] at h
    | int n => exact absurd hsame (intStr_not_word n)
    | float x => exact absurd hsame (ft.not_word x)
    | str | arr | obj => cases hw
  | bool b =>
    cases w with
    | null => cases b <;> simp [Json.text] at h
    | bool c => cases b <;> cases c <;> simp [Json.text] at h ⊢
    | int n => exact absurd hsame (intStr_not_word n)
    | float x => exact absurd hsame (ft.not_word x)
    | str | arr | obj => cases hw
  | str | arr | obj => cases hv

theorem scalar_injective {v w : Json} (hv : v.isScalar = true) (hw : w.isScalar = true)
    (h : v.text st ft = w.text st ft) : v = w := by
  by_cases hword : v.text st ft ∈ jsonWords
  · exact word_injective st ft hv hw h hword
  have hsame : w.text st ft ∉ jsonWords := h ▸ hword
  have hnull : Json.null.text st ft ∈ jsonWords := by simp [Json.text, jsonWords]
  have hbool : ∀ b, (Json.bool b).text st ft ∈ jsonWords := by
    intro b
    cases b <;> simp [Json.text, jsonWords]
  cases v with
  | null => exact absurd hnull hword
  | bool b => exact absurd (hbool b) hword
  | int n =>
    cases w with
    | null => exact absurd hnull hsame
    | bool b => exact absurd (hbool b) hsame
    | int m => rw [intStr_injective h]
    | float x => exact absurd h.symm (ft.not_int x n)
    | str | arr | obj => cases hw
  | float x =>
    cases w with
    | null => exact absurd hnull hsame
    | bool b => exact absurd (hbool b) hsame
    | int n => exact absurd h (ft.not_int x n)
    | float y => rw [ft.injective x y h]
    | str | arr | obj => cases hw
  | str | arr | obj => cases hv

theorem scalar_ne_nil {v : Json} (hv : v.isScalar = true) : v.text st ft ≠ [] := by
  cases v with
  | null => simp [Json.text]
  | bool b => cases b <;> simp [Json.text]
  | int n =>
    cases n with
    | ofNat n => exact natStr_ne_nil n
    | negSucc n => exact List.cons_ne_nil _ _
  | float x => exact ft.ne_nil x
  | str | arr | obj => cases hv

def Json.opening : Json → Char
  | .str _ => '"'
  | .arr _ => '['
  | _ => '{'

theorem closed_head {v : Json} (hv : v.isScalar = false) :
    ∃ rest, v.text st ft = v.opening :: rest := by
  cases v with
  | str s => exact ⟨_, rfl⟩
  | arr items => exact ⟨_, rfl⟩
  | obj fields => exact ⟨_, rfl⟩
  | null | bool | int | float => cases hv

theorem opening_mem (v : Json) : v.opening ∈ jsonMarks := by
  cases v <;> simp [Json.opening, jsonMarks]

theorem scalar_cancel {v w : Json} {s t : Str} (hv : v.isScalar = true) (hw : w.isScalar = true)
    (hs : v.Ends s) (ht : w.Ends t) (h : v.text st ft ++ s = w.text st ft ++ t) : v = w ∧ s = t := by
  obtain ⟨c, s', rfl, hc⟩ := hs hv
  obtain ⟨d, t', rfl, hd⟩ := ht hw
  have htake : ∀ {u : Json} {e : Char} {rest : Str}, u.isScalar = true → e ∈ jsonMarks →
      (u.text st ft ++ e :: rest).takeWhile (· ∉ jsonMarks) = u.text st ft := by
    intro u e rest hu he
    rw [List.takeWhile_append_of_pos fun x hx => by simpa using scalar_plain st ft hu x hx]
    simp [he]
  have heq : v.text st ft = w.text st ft := by
    rw [← htake hv hc, h, htake hw hd]
  rw [heq] at h
  exact ⟨scalar_injective st ft hv hw heq, List.append_cancel_left h⟩

theorem scalar_closed_ne {v w : Json} {s t : Str} (hv : v.isScalar = true) (hw : w.isScalar = false)
    (h : v.text st ft ++ s = w.text st ft ++ t) : False := by
  obtain ⟨rest, hrest⟩ := closed_head st ft hw
  obtain ⟨c, more, hc⟩ := List.exists_cons_of_ne_nil (scalar_ne_nil st ft hv)
  have hplain := scalar_plain st ft hv c (by rw [hc]; simp)
  rw [hrest, hc] at h
  injection h with h _
  rw [h] at hplain
  exact hplain (opening_mem w)

def tail (texts : List Str) : Str := texts.flatMap fun t => st.itemSep ++ t

theorem joinStr_cons (x : Str) (texts : List Str) :
    joinStr st.itemSep (x :: texts) = x ++ tail st texts := by
  induction texts generalizing x with
  | nil => simp [joinStr, tail, List.intercalate]
  | cons y texts ih =>
    have hy := ih y
    simp only [joinStr, List.intercalate, List.intersperse_cons_cons, List.flatten_cons, tail,
      List.flatMap_cons] at hy ⊢
    rw [hy]
    simp

theorem itemSep_head : ∃ rest, st.itemSep = ',' :: rest := by
  unfold DumpStyle.itemSep
  split
  · exact ⟨_, rfl⟩
  · exact ⟨_, rfl⟩

theorem tail_delimits (texts : List Str) {mark : Char} (hm : mark ∈ jsonMarks) (rest : Str) :
    ∃ c more, tail st texts ++ mark :: rest = c :: more ∧ c ∈ jsonMarks := by
  cases texts with
  | nil => exact ⟨_, _, rfl, hm⟩
  | cons x texts =>
    obtain ⟨sep, hsep⟩ := itemSep_head st
    refine ⟨',', sep ++ x ++ tail st texts ++ mark :: rest, ?_, by decide⟩
    simp [tail, hsep]

theorem tail_nil_cons {x : Str} {texts : List Str} {mark : Char} {s t : Str} (hm : mark ≠ ',')
    (h : mark :: s = tail st (x :: texts) ++ mark :: t) : False := by
  obtain ⟨sep, hsep⟩ := itemSep_head st
  simp only [tail, List.flatMap_cons, hsep, List.cons_append, List.cons.injEq] at h
  exact hm h.1

theorem tail_cons_append (x : Str) (texts : List Str) (rest : Str) :
    tail st (x :: texts) ++ rest = st.itemSep ++ (x ++ (tail st texts ++ rest)) := by
  simp [tail]

def Opens (mark : Char) (x : Str) : Prop := ∃ c rest, x = c :: rest ∧ c ≠ mark

theorem join_tail {xs ys : List Str} {mark : Char} {s t : Str} (hx : ∀ x ∈ xs, Opens mark x)
    (hy : ∀ y ∈ ys, Opens mark y)
    (h : joinStr st.itemSep xs ++ mark :: s = joinStr st.itemSep ys ++ mark :: t) :
    tail st xs ++ mark :: s = tail st ys ++ mark :: t := by
  cases xs with
  | nil =>
    cases ys with
    | nil => exact h
    | cons y ys =>
      obtain ⟨c, rest, rfl, hc⟩ := hy y (by simp)
      rw [joinStr_cons] at h
      simp only [joinStr, List.intercalate, List.intersperse_nil, List.flatten_nil, List.nil_append,
        List.cons_append, List.cons.injEq] at h
      exact absurd h.1.symm hc
  | cons x xs =>
    cases ys with
    | nil =>
      obtain ⟨c, rest, rfl, hc⟩ := hx x (by simp)
      rw [joinStr_cons] at h
      simp only [joinStr, List.intercalate, List.intersperse_nil, List.flatten_nil, List.nil_append,
        List.cons_append, List.cons.injEq] at h
      exact absurd h.1 hc
    | cons y ys =>
      rw [joinStr_cons, joinStr_cons, List.append_assoc, List.append_assoc] at h
      rw [tail_cons_append, tail_cons_append, h]

theorem text_opens (v : Json) {mark : Char} (hm : mark ∈ [']', '}']) : Opens mark (v.text st ft) := by
  have hmark : mark ∈ jsonMarks := by
    simp only [List.mem_cons, List.not_mem_nil, or_false] at hm
    rcases hm with rfl | rfl
    · decide
    · decide
  cases hv : v.isScalar with
  | true =>
    obtain ⟨c, more, hc⟩ := List.exists_cons_of_ne_nil (scalar_ne_nil st ft hv)
    refine ⟨c, more, hc, ?_⟩
    rintro rfl
    exact scalar_plain st ft hv c (by rw [hc]; simp) hmark
  | false =>
    obtain ⟨rest, hrest⟩ := closed_head st ft hv
    refine ⟨_, rest, hrest, ?_⟩
    rintro rfl
    cases v <;> simp [Json.opening] at hm

theorem itemTexts_opens (vs : List Json) : ∀ x ∈ itemTexts st ft vs, Opens ']' x := by
  induction vs with
  | nil => simp [itemTexts]
  | cons v vs ih =>
    intro x hx
    rw [itemTexts] at hx
    rcases List.mem_cons.mp hx with rfl | hx
    · exact text_opens st ft v (by simp)
    · exact ih x hx

theorem fieldTexts_opens (es : List (Str × Json)) : ∀ x ∈ fieldTexts st ft es, Opens '}' x := by
  induction es with
  | nil => simp [fieldTexts]
  | cons e es ih =>
    obtain ⟨k, v⟩ := e
    intro x hx
    rw [fieldTexts] at hx
    rcases List.mem_cons.mp hx with rfl | hx
    · exact ⟨'"', _, rfl, by decide⟩
    · exact ih x hx

theorem closed_cancel_ne {v w : Json} {s t : Str} (hv : v.isScalar = false) (hw : w.isScalar = false)
    (hne : v.opening ≠ w.opening) (h : v.text st ft ++ s = w.text st ft ++ t) : False := by
  obtain ⟨rest, hrest⟩ := closed_head st ft hv
  obtain ⟨rest', hrest'⟩ := closed_head st ft hw
  rw [hrest, hrest'] at h
  injection h with h _
  exact hne h

theorem scalar_text_cancel {v w : Json} {s t : Str} (hv : v.isScalar = true) (hs : v.Ends s)
    (ht : w.Ends t) (h : v.text st ft ++ s = w.text st ft ++ t) : v = w ∧ s = t := by
  cases hw : w.isScalar with
  | true => exact scalar_cancel st ft hv hw hs ht h
  | false => exact (scalar_closed_ne st ft hv hw h).elim

mutual

/-- A text determines its value and where it ends. -/
theorem text_cancel : ∀ (v w : Json) (s t : Str), v.Ends s → w.Ends t →
    v.text st ft ++ s = w.text st ft ++ t → v = w ∧ s = t
  | .str a, w, s, t, _, ht, h => by
    cases w with
    | str b =>
      obtain ⟨rfl, hst⟩ := strText_cancel h
      exact ⟨rfl, hst⟩
    | arr items => exact (closed_cancel_ne st ft rfl rfl (by simp [Json.opening]) h).elim
    | obj fields => exact (closed_cancel_ne st ft rfl rfl (by simp [Json.opening]) h).elim
    | null | bool | int | float => exact (scalar_closed_ne st ft rfl rfl h.symm).elim
  | .arr items, w, s, t, _, ht, h => by
    cases w with
    | arr items' =>
      simp only [Json.text, List.cons_append, List.append_assoc, List.nil_append, List.cons.injEq,
        true_and] at h
      obtain ⟨rfl, hst⟩ := items_cancel items items' s t
        (join_tail st (itemTexts_opens st ft items) (itemTexts_opens st ft items') h)
      exact ⟨rfl, hst⟩
    | str b => exact (closed_cancel_ne st ft rfl rfl (by simp [Json.opening]) h).elim
    | obj fields => exact (closed_cancel_ne st ft rfl rfl (by simp [Json.opening]) h).elim
    | null | bool | int | float => exact (scalar_closed_ne st ft rfl rfl h.symm).elim
  | .obj fields, w, s, t, _, ht, h => by
    cases w with
    | obj fields' =>
      simp only [Json.text, List.cons_append, List.append_assoc, List.nil_append, List.cons.injEq,
        true_and] at h
      obtain ⟨rfl, hst⟩ := fields_cancel fields fields' s t
        (join_tail st (fieldTexts_opens st ft fields) (fieldTexts_opens st ft fields') h)
      exact ⟨rfl, hst⟩
    | str b => exact (closed_cancel_ne st ft rfl rfl (by simp [Json.opening]) h).elim
    | arr items => exact (closed_cancel_ne st ft rfl rfl (by simp [Json.opening]) h).elim
    | null | bool | int | float => exact (scalar_closed_ne st ft rfl rfl h.symm).elim
  | .null, _, _, _, hs, ht, h => scalar_text_cancel st ft rfl hs ht h
  | .bool _, _, _, _, hs, ht, h => scalar_text_cancel st ft rfl hs ht h
  | .int _, _, _, _, hs, ht, h => scalar_text_cancel st ft rfl hs ht h
  | .float _, _, _, _, hs, ht, h => scalar_text_cancel st ft rfl hs ht h

theorem items_cancel : ∀ (vs ws : List Json) (s t : Str),
    tail st (itemTexts st ft vs) ++ ']' :: s = tail st (itemTexts st ft ws) ++ ']' :: t →
    vs = ws ∧ s = t
  | [], [], s, t, h => by simpa [itemTexts, tail] using h
  | [], w :: ws, s, t, h => (tail_nil_cons st (by decide) h).elim
  | v :: vs, [], s, t, h => (tail_nil_cons st (by decide) h.symm).elim
  | v :: vs, w :: ws, s, t, h => by
    rw [itemTexts, itemTexts, tail_cons_append, tail_cons_append] at h
    obtain ⟨rfl, hrest⟩ := text_cancel v w _ _ (fun _ => tail_delimits st _ (by decide) s)
      (fun _ => tail_delimits st _ (by decide) t) (List.append_cancel_left h)
    obtain ⟨rfl, hst⟩ := items_cancel vs ws s t hrest
    exact ⟨rfl, hst⟩

theorem fields_cancel : ∀ (es gs : List (Str × Json)) (s t : Str),
    tail st (fieldTexts st ft es) ++ '}' :: s = tail st (fieldTexts st ft gs) ++ '}' :: t →
    es = gs ∧ s = t
  | [], [], s, t, h => by simpa [fieldTexts, tail] using h
  | [], (k, w) :: gs, s, t, h => (tail_nil_cons st (by decide) h).elim
  | (k, v) :: es, [], s, t, h => (tail_nil_cons st (by decide) h.symm).elim
  | (k, v) :: es, (l, w) :: gs, s, t, h => by
    rw [fieldTexts, fieldTexts, tail_cons_append, tail_cons_append, List.append_assoc,
      List.append_assoc, List.append_assoc, List.append_assoc] at h
    obtain ⟨rfl, hvalue⟩ := strText_cancel (List.append_cancel_left h)
    obtain ⟨rfl, hrest⟩ := text_cancel v w _ _ (fun _ => tail_delimits st _ (by decide) s)
      (fun _ => tail_delimits st _ (by decide) t) (List.append_cancel_left hvalue)
    obtain ⟨rfl, hst⟩ := fields_cancel es gs s t hrest
    exact ⟨rfl, hst⟩

end

/-- The text of an object determines it up to the order of its keys, whatever follows. -/
theorem dumps_cancel {es gs : List (Str × Json)} {s t : Str}
    (h : dumps st ft (.obj es) ++ s = dumps st ft (.obj gs) ++ t) :
    (Json.obj es).sortKeys = (Json.obj gs).sortKeys ∧ s = t :=
  text_cancel st ft _ _ s t (fun hs => by simp [Json.sortKeys, Json.isScalar] at hs)
    (fun hs => by simp [Json.sortKeys, Json.isScalar] at hs) h

end Cancel

section Ascii

def Printable (c : Char) : Prop := 32 ≤ c.toNat ∧ c.toNat < 127

instance (c : Char) : Decidable (Printable c) := inferInstanceAs (Decidable (_ ∧ _))

theorem digitChar_printable {n : Nat} (h : n < 16) : Printable (Nat.digitChar n) := by
  interval_cases n <;> decide

theorem unicodeEscape_printable (n : Nat) : ∀ c ∈ unicodeEscape n, Printable c := by
  intro c hc
  simp only [unicodeEscape, List.mem_cons, List.not_mem_nil, or_false] at hc
  rcases hc with rfl | rfl | rfl | rfl | rfl | rfl
  · decide
  · decide
  all_goals exact digitChar_printable (Nat.mod_lt _ (by omega))

theorem escapeChar_printable (c : Char) : ∀ d ∈ escapeChar true c, Printable d := by
  unfold escapeChar
  cases hshort : shortEscapes.lookup c with
  | some e =>
    obtain ⟨before, after, hmem, -⟩ := List.lookup_eq_some_iff.mp hshort
    have he : (c, e) ∈ shortEscapes := by rw [hmem]; simp
    have hall : ∀ p ∈ shortEscapes, Printable p.2 := by decide
    intro d hd
    simp only [List.mem_cons, List.not_mem_nil, or_false] at hd
    rcases hd with rfl | rfl
    · decide
    · exact hall _ he
  | none =>
    dsimp only
    split
    · split
      · exact unicodeEscape_printable _
      · intro d hd
        rcases List.mem_append.mp hd with hd | hd
        · exact unicodeEscape_printable _ d hd
        · exact unicodeEscape_printable _ d hd
    · rename_i h
      intro d hd
      rw [List.mem_singleton.mp hd]
      simp only [true_and, not_or, not_lt] at h
      exact ⟨h.1, by omega⟩

theorem strText_printable (s : Str) : ∀ c ∈ strText true s, Printable c := by
  intro c hc
  simp only [strText, List.mem_cons, List.mem_append, List.mem_flatMap, List.not_mem_nil,
    or_false] at hc
  rcases hc with rfl | ⟨d, _, hd⟩ | rfl
  · decide
  · exact escapeChar_printable d c hd
  · decide

theorem scalar_printable {v : Json} (hv : v.isScalar = true) :
    ∀ c ∈ v.text st ft, Printable c := by
  cases v with
  | null => simp [Json.text, Printable]
  | bool b => cases b <;> simp [Json.text, Printable]
  | int n =>
    intro c hc
    rcases intStr_plain hc with rfl | hc
    · decide
    · simp only [Char.isDigit, Bool.and_eq_true, decide_eq_true_eq] at hc
      have h1 : 48 ≤ c.toNat := UInt32.le_iff_toNat_le.mp hc.1
      have h2 : c.toNat ≤ 57 := UInt32.le_iff_toNat_le.mp hc.2
      exact ⟨by omega, by omega⟩
  | float x =>
    intro c hc
    obtain ⟨h1, h2, -⟩ := ft.plain x c hc
    exact ⟨by omega, h2⟩
  | str | arr | obj => cases hv

theorem joinStr_printable {texts : List Str} (h : ∀ t ∈ texts, ∀ c ∈ t, Printable c) :
    ∀ c ∈ joinStr st.itemSep texts, Printable c := by
  have hsep : ∀ c ∈ st.itemSep, Printable c := by
    unfold DumpStyle.itemSep
    split <;> simp [Printable]
  cases texts with
  | nil => simp [joinStr, List.intercalate]
  | cons x texts =>
    rw [joinStr_cons]
    intro c hc
    simp only [List.mem_append, tail, List.mem_flatMap] at hc
    rcases hc with hc | ⟨t, ht, hc | hc⟩
    · exact h x (by simp) c hc
    · exact hsep c hc
    · exact h t (by simp [ht]) c hc

variable {st}

mutual

theorem text_printable (hst : st.ensureAscii = true) :
    ∀ (v : Json), ∀ c ∈ v.text st ft, Printable c
  | .str s => by
    rw [Json.text, hst]
    exact strText_printable s
  | .arr items => by
    intro c hc
    simp only [Json.text, List.mem_cons, List.mem_append, List.not_mem_nil, or_false] at hc
    rcases hc with rfl | hc | rfl
    · decide
    · exact joinStr_printable st (items_printable hst items) c hc
    · decide
  | .obj fields => by
    intro c hc
    simp only [Json.text, List.mem_cons, List.mem_append, List.not_mem_nil, or_false] at hc
    rcases hc with rfl | hc | rfl
    · decide
    · exact joinStr_printable st (fields_printable hst fields) c hc
    · decide
  | .null => scalar_printable st ft rfl
  | .bool _ => scalar_printable st ft rfl
  | .int _ => scalar_printable st ft rfl
  | .float _ => scalar_printable st ft rfl

theorem items_printable (hst : st.ensureAscii = true) :
    ∀ (vs : List Json), ∀ t ∈ itemTexts st ft vs, ∀ c ∈ t, Printable c
  | [] => by simp [itemTexts]
  | v :: vs => by
    intro t ht
    rw [itemTexts] at ht
    rcases List.mem_cons.mp ht with rfl | ht
    · exact text_printable hst v
    · exact items_printable hst vs t ht

theorem fields_printable (hst : st.ensureAscii = true) :
    ∀ (es : List (Str × Json)), ∀ t ∈ fieldTexts st ft es, ∀ c ∈ t, Printable c
  | [] => by simp [fieldTexts]
  | (k, v) :: es => by
    intro t ht
    rw [fieldTexts] at ht
    rcases List.mem_cons.mp ht with rfl | ht
    · have hsep : ∀ c ∈ st.keySep, Printable c := by
        unfold DumpStyle.keySep
        split <;> simp [Printable]
      intro c hc
      rw [hst] at hc
      simp only [List.mem_append] at hc
      rcases hc with (hc | hc) | hc
      · exact strText_printable k c hc
      · exact hsep c hc
      · exact text_printable hst v c hc
    · exact fields_printable hst es t ht

end

end Ascii

section Plain

def fractionText : PyFloat → Str
  | .finite q => intStr q.num ++ '.' :: natStr q.den
  | .inf negative => if negative then "-Infinity".toList else "Infinity".toList
  | .nan => "NaN".toList

theorem intStr_no_dot (n : Int) : '.' ∉ intStr n := fun h => by
  rcases intStr_plain h with h | h
  · exact absurd h (by decide)
  · exact absurd h (by decide)

theorem dot_cancel {a b c d : Str} (ha : '.' ∉ a) (hb : '.' ∉ b)
    (h : a ++ '.' :: c = b ++ '.' :: d) : a = b ∧ c = d := by
  induction a generalizing b with
  | nil =>
    cases b with
    | nil => simpa using h
    | cons x b =>
      simp only [List.nil_append, List.cons_append, List.cons.injEq] at h
      exact absurd (h.1 ▸ List.mem_cons_self) hb
  | cons x a ih =>
    cases b with
    | nil =>
      simp only [List.nil_append, List.cons_append, List.cons.injEq] at h
      exact absurd (h.1 ▸ List.mem_cons_self) ha
    | cons y b =>
      simp only [List.cons_append, List.cons.injEq] at h
      obtain ⟨rfl, h⟩ := h
      obtain ⟨rfl, hcd⟩ := ih (fun hm => ha (by simp [hm])) (fun hm => hb (by simp [hm])) h
      exact ⟨rfl, hcd⟩

theorem fractionText_dot {q : ℚ} : '.' ∈ fractionText (.finite q) := by
  simp [fractionText]

theorem fractionText_plain (x : PyFloat) :
    ∀ c ∈ fractionText x, 32 < c.toNat ∧ c.toNat < 127 ∧ c ∉ jsonMarks := by
  have hdigit : ∀ c : Char, c.isDigit = true → 32 < c.toNat ∧ c.toNat < 127 ∧ c ∉ jsonMarks := by
    intro c hc
    have hd := hc
    simp only [Char.isDigit, Bool.and_eq_true, decide_eq_true_eq] at hd
    have h1 : 48 ≤ c.toNat := UInt32.le_iff_toNat_le.mp hd.1
    have h2 : c.toNat ≤ 57 := UInt32.le_iff_toNat_le.mp hd.2
    refine ⟨by omega, by omega, fun hm => ?_⟩
    simp only [jsonMarks, List.mem_cons, List.not_mem_nil, or_false] at hm
    rcases hm with rfl | rfl | rfl | rfl | rfl | rfl
    all_goals exact absurd hc (by decide)
  intro c hc
  cases x with
  | finite q =>
    rcases List.mem_append.mp hc with hc | hc
    · rcases intStr_plain hc with rfl | hc
      · decide
      · exact hdigit c hc
    · rcases List.mem_cons.mp hc with rfl | hc
      · decide
      · exact hdigit c (natStr_plain hc)
  | inf negative =>
    revert c
    cases negative <;> simp [fractionText, jsonMarks]
  | nan =>
    revert c
    simp [fractionText, jsonMarks]

theorem fractionText_injective (x y : PyFloat) (h : fractionText x = fractionText y) : x = y := by
  have hno : ∀ z : PyFloat, '.' ∉ fractionText z → ∀ q, fractionText z ≠ fractionText (.finite q) :=
    fun z hz q he => hz (he ▸ fractionText_dot)
  have hinf : ∀ b, '.' ∉ fractionText (.inf b) := fun b => by cases b <;> simp [fractionText]
  have hnan : '.' ∉ fractionText .nan := by simp [fractionText]
  cases x with
  | finite p =>
    cases y with
    | finite q =>
      obtain ⟨hnum, hden⟩ := dot_cancel (intStr_no_dot _) (intStr_no_dot _) h
      rw [Rat.ext (intStr_injective hnum) (natStr_injective hden)]
    | inf b => exact absurd h.symm (hno _ (hinf b) p)
    | nan => exact absurd h.symm (hno _ hnan p)
  | inf a =>
    cases y with
    | finite q => exact absurd h (hno _ (hinf a) q)
    | inf b => cases a <;> cases b <;> simp [fractionText] at h ⊢
    | nan => cases a <;> simp [fractionText] at h
  | nan =>
    cases y with
    | finite q => exact absurd h (hno _ hnan q)
    | inf b => cases b <;> simp [fractionText] at h
    | nan => rfl

theorem fractionText_not_int (x : PyFloat) (n : Int) : fractionText x ≠ intStr n := by
  intro h
  have hplain : ∀ c ∈ fractionText x, c = '-' ∨ c.isDigit = true := fun c hc =>
    intStr_plain (h ▸ hc)
  cases x with
  | finite q => exact intStr_no_dot n (h ▸ fractionText_dot)
  | inf b =>
    have hI := hplain 'I' (by cases b <;> simp [fractionText])
    exact absurd hI (by decide)
  | nan =>
    have hN := hplain 'N' (by simp [fractionText])
    exact absurd hN (by decide)

def plainFloatText : FloatText where
  repr := fractionText
  injective := fractionText_injective
  plain := fractionText_plain
  ne_nil x h := by
    cases x with
    | finite q => simp [fractionText] at h
    | inf b => cases b <;> simp [fractionText] at h
    | nan => simp [fractionText] at h
  not_int := fractionText_not_int
  not_word x h := by
    cases x with
    | finite q =>
      have hdot := @fractionText_dot q
      simp only [List.mem_cons, List.not_mem_nil, or_false] at h
      rcases h with h | h | h
      all_goals
        rw [h] at hdot
        exact absurd hdot (by decide)
    | inf b => cases b <;> simp [fractionText] at h
    | nan => simp [fractionText] at h

end Plain

end Python
