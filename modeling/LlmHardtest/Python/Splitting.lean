import LlmHardtest.Python.JsonText
set_option autoImplicit false

/-! Texts that are joined with a separator and split again, and numbers as `str` writes them. -/

namespace Python
variable {sep : Char} {s w : Str} {parts : List Str}

theorem splitOnChar_eq_splitOn (sep : Char) (s : Str) : splitOnChar sep s = s.splitOn sep := by
  induction s with
  | nil => rfl
  | cons c s ih =>
    rw [splitOnChar, List.splitOn_cons_eq_if_modifyHead, ih]
    by_cases hc : c = sep
    · simp [hc]
    · rw [if_neg hc, if_neg (by simpa using hc)]
      cases hs : s.splitOn sep with
      | nil => exact absurd hs (List.splitOn_ne_nil sep s)
      | cons w ws => rfl

theorem splitOnChar_joinStr (hne : parts ≠ []) (hparts : ∀ w ∈ parts, sep ∉ w) :
    splitOnChar sep (joinStr [sep] parts) = parts := by
  rw [splitOnChar_eq_splitOn]
  exact List.splitOn_intercalate sep hparts hne

theorem joinStr_splitOnChar (sep : Char) (s : Str) : joinStr [sep] (splitOnChar sep s) = s := by
  rw [splitOnChar_eq_splitOn]
  exact List.intercalate_splitOn sep

/-- `0|[1-9][0-9]*`, matched in full. -/
def isDecimal (s : Str) : Bool :=
  s == ['0'] || (!s.isEmpty && s.all Char.isDigit && s.head? != some '0')

theorem digitChar_of_isDigit {c : Char} (hc : c.isDigit = true) :
    ∃ d, d < 10 ∧ c = Nat.digitChar d := by
  have hrange : 48 ≤ c.toNat ∧ c.toNat ≤ 57 := by
    simpa [Char.isDigit, Char.le_def, UInt32.le_iff_toNat_le] using hc
  obtain ⟨d, hd⟩ := Nat.exists_eq_add_of_le hrange.1
  have hlt : d < 10 := by omega
  have hchar : ∀ d < 10, Char.ofNat (48 + d) = Nat.digitChar d := by decide
  exact ⟨d, hlt, by rw [← hchar d hlt, ← hd, Char.ofNat_toNat]⟩

theorem natStr_of_digits (hne : s ≠ []) (hdigits : ∀ c ∈ s, c.isDigit = true)
    (hhead : s.head? ≠ some '0') : ∃ n, 0 < n ∧ s = natStr n := by
  induction s using List.reverseRecOn with
  | nil => exact absurd rfl hne
  | append_singleton init c ih =>
    obtain ⟨d, hd, rfl⟩ := digitChar_of_isDigit (hdigits c (by simp))
    cases init with
    | nil =>
      refine ⟨d, Nat.pos_of_ne_zero ?_, (Nat.toDigits_of_lt_base hd).symm⟩
      rintro rfl
      exact hhead rfl
    | cons b init =>
      obtain ⟨n, hn, hinit⟩ := ih (by simp) (fun c hc => hdigits c (List.mem_append_left _ hc)) hhead
      refine ⟨10 * n + d, by omega, ?_⟩
      rw [hinit, natStr, natStr, ← Nat.toDigits_append_toDigits (by decide) hn hd,
        Nat.toDigits_of_lt_base hd]

theorem natStr_head {n : Nat} (hn : 0 < n) : (natStr n).head? ≠ some '0' := by
  induction n using Nat.strongRecOn with
  | ind n ih =>
    rw [natStr, Nat.toDigits_eq_if (by decide)]
    split
    · simp only [List.head?_cons, ne_eq, Option.some.injEq, Nat.digitChar_eq_zero]
      omega
    · rename_i hlt
      have hpos : 0 < n / 10 := by omega
      rw [List.head?_append_of_ne_nil _ Nat.toDigits_ne_nil]
      exact ih (n / 10) (by omega) hpos

theorem isDecimal_iff : isDecimal s = true ↔ ∃ n, s = natStr n := by
  simp only [isDecimal, Bool.or_eq_true, Bool.and_eq_true, beq_iff_eq, bne_iff_ne, List.all_eq_true,
    Bool.not_eq_true', List.isEmpty_eq_false_iff]
  constructor
  · rintro (rfl | ⟨⟨hne, hdigits⟩, hhead⟩)
    · exact ⟨0, rfl⟩
    · obtain ⟨n, -, hn⟩ := natStr_of_digits hne hdigits hhead
      exact ⟨n, hn⟩
  · rintro ⟨n, rfl⟩
    rcases Nat.eq_zero_or_pos n with rfl | hn
    · exact .inl rfl
    · exact .inr ⟨⟨natStr_ne_nil n, fun c hc => natStr_plain hc⟩, natStr_head hn⟩

end Python
