import LlmHardtest.Library.Failures
import LlmHardtest.Python.Regex
set_option autoImplicit false

/-! Values that the JSON parser returns, the exceptions scripts raise, and what the model takes
as given from the interpreter. -/

namespace Python

abbrev Bytes := List UInt8

inductive PyFloat where
  | finite (q : Rat)
  | inf (negative : Bool)
  | nan
  deriving DecidableEq, Repr

inductive Json where
  | null
  | bool (b : Bool)
  | int (n : Int)
  | float (x : PyFloat)
  | str (s : Str)
  | arr (items : List Json)
  | obj (fields : List (Str × Json))
  deriving Repr

inductive Raised where
  | valueError (message : Str)
  | typeError
  | attributeError
  | keyError
  | indexError
  | overflowError
  | recursionError
  | runtimeError (message : Str)
  deriving DecidableEq, Repr

/-- What a Python function does: it returns or it raises. -/
abbrev Outcome (α : Type) := Except Raised α

def Outcome.returns {α : Type} (x : Outcome α) : Prop := ∃ a, x = .ok a

/-- `d.get(key)` on an object; `None` when the key is absent. -/
def Json.field (fields : List (Str × Json)) (key : String) : Json :=
  (fields.lookup key.toList).getD .null

/-- `d[key] = value` -/
def dictSet {β : Type} (key : Str) (value : β) : List (Str × β) → List (Str × β)
  | [] => [(key, value)]
  | e :: es => if e.1 = key then (key, value) :: es else e :: dictSet key value es

@[simp] def Json.eqStr (s : Str) : Json → Bool
  | .str t => t == s
  | _ => false

/-- `value == n` for an integer `n`: `True`, `False` and integral floats compare as numbers. -/
@[simp] def Json.eqInt (n : Int) : Json → Bool
  | .bool b => (if b then 1 else 0) == n
  | .int m => m == n
  | .float (.finite q) => q == (n : Rat)
  | _ => false

@[simp] def Json.isTrue : Json → Bool
  | .bool b => b
  | _ => false

def Json.eqBool (b : Bool) (v : Json) : Bool := v.eqInt (if b then 1 else 0)

/-- `value is None` -/
@[simp] def Json.isNull : Json → Bool
  | .null => true
  | _ => false

/-- `bool(value)` -/
@[simp] def Json.truthy : Json → Bool
  | .null => false
  | .bool b => b
  | .int n => n != 0
  | .float x => decide (x ≠ .finite 0)
  | .str s => !s.isEmpty
  | .arr items => !items.isEmpty
  | .obj fields => !fields.isEmpty

/-- `d.get(key, default)` -/
def Json.fieldD (fields : List (Str × Json)) (key : String) (default : Json) : Json :=
  (fields.lookup key.toList).getD default

def Json.eqStrs (texts : List Str) : Json → Bool
  | .arr items => items.length == texts.length && (items.zip texts).all fun p => p.1.eqStr p.2
  | _ => false

/-- `set(d) == keys` -/
def Json.keysAre (fields : List (Str × Json)) (keys : List String) : Bool :=
  fields.all (fun e => decide (e.1 ∈ keys.map String.toList)) &&
    keys.all fun k => decide (k.toList ∈ fields.map Prod.fst)

/-- `x >= 0` -/
@[simp] def PyFloat.nonneg : PyFloat → Bool
  | .finite q => decide (0 ≤ q)
  | .inf negative => !negative
  | .nan => false

@[simp] def PyFloat.isFinite : PyFloat → Bool
  | .finite _ => true
  | _ => false

/-- A token of `tokenize`: whether it is a comment, a string or only layout, and its lines. -/
inductive TokenKind where
  | comment | string | layout | code
  deriving DecidableEq, Repr

structure Token where
  kind : TokenKind
  first : Nat
  last : Nat

/-- The parts of the interpreter and its library that a script calls and the model does not
define: every result about scripts holds for any of them. -/
structure Interpreter where
  unicode : UnicodeData
  loads : Str → Outcome Json
  str : Json → Str
  repr : Json → Str
  tokenize : Bytes → Option (List Token)
  loads_error : ∀ s e, loads s = .error e → (∃ m, e = .valueError m) ∨ e = .recursionError
  str_str : ∀ s, str (.str s) = s

def Json.showShort : Json → Str
  | .null => "None".toList
  | .bool true => "True".toList
  | .bool false => "False".toList
  | .int n => (toString n).toList
  | .float _ => "float".toList
  | .str s => s
  | .arr _ => "[...]".toList
  | .obj _ => "{...}".toList

def Interpreter.ofTable (table : List (Str × Json)) : Interpreter where
  unicode := asciiData
  loads s := match table.lookup s with
    | some v => .ok v
    | none => .error (.valueError "Expecting value: line 1 column 1 (char 0)".toList)
  str := Json.showShort
  repr := Json.showShort
  tokenize _ := some []
  loads_error s e h := by
    split at h
    · cases h
    · injection h with h
      exact .inl ⟨_, h.symm⟩
  str_str _ := rfl

/-- Digits an integer literal may have before `int` refuses it. -/
def maxIntDigits : Nat := 4300

def digitsValue (u : UnicodeData) (s : Str) : Nat :=
  s.foldl (fun n c => n * 10 + (u.decimal c).getD 0) 0

def pyInt (u : UnicodeData) (s : Str) : Outcome Nat :=
  if maxIntDigits < s.length then
    .error (.valueError "Exceeds the limit (4300 digits) for integer string conversion".toList)
  else .ok (digitsValue u s)

def natStr (n : Nat) : Str := Nat.toDigits 10 n

def joinStr (sep : Str) (parts : List Str) : Str := sep.intercalate parts

def startsWith (s t : Str) : Bool := t.isPrefixOf s

theorem startsWith_iff {s t : Str} : startsWith s t = true ↔ t <+: s := List.isPrefixOf_iff_prefix

def endsWith (s t : Str) : Bool := t.isSuffixOf s

def sortedNames (names : List Str) : List Str := names.dedup.insertionSort (· ≤ ·)

def splitOnChar (sep : Char) : Str → List Str
  | [] => [[]]
  | c :: cs =>
      if c = sep then [] :: splitOnChar sep cs
      else match splitOnChar sep cs with
        | [] => [[c]]
        | w :: ws => (c :: w) :: ws

def splitWords : Str → List Str
  | [] => []
  | c :: cs =>
      if isSpace c then splitWords cs
      else match cs with
        | [] => [[c]]
        | d :: _ =>
            if isSpace d then [c] :: splitWords cs
            else match splitWords cs with
              | [] => [[c]]
              | w :: ws => (c :: w) :: ws

theorem pyInt_ok_iff {u : UnicodeData} {s : Str} :
    (∃ n, pyInt u s = .ok n) ↔ s.length ≤ maxIntDigits := by
  unfold pyInt
  split
  · rename_i h
    exact ⟨fun ⟨_, hn⟩ => (nomatch hn), fun hle => by omega⟩
  · rename_i h
    exact ⟨fun _ => by omega, fun _ => ⟨_, rfl⟩⟩

@[simp]
theorem Outcome.ok_bind {α β : Type} {a : α} {f : α → Outcome β} : (.ok a >>= f : Outcome β) = f a := rfl

theorem Outcome.unit_bind {β : Type} {x : Outcome Unit} {f : Unit → Outcome β} {b : β} :
    x >>= f = .ok b ↔ x = .ok () ∧ f () = .ok b := by
  rw [Failures.bind_eq_ok]
  exact ⟨fun ⟨_, h⟩ => h, fun h => ⟨(), h⟩⟩

theorem forall₂_partner {α β : Type} {R : α → β → Prop} {as : List α} {bs : List β}
    (h : List.Forall₂ R as bs) :
    (∀ a ∈ as, ∃ b ∈ bs, R a b) ∧ ∀ b ∈ bs, ∃ a ∈ as, R a b := by
  induction h with
  | nil => simp
  | cons hab _ ih =>
    constructor
    · intro x hx
      rcases List.mem_cons.mp hx with rfl | hx
      · exact ⟨_, by simp, hab⟩
      · obtain ⟨y, hy, hxy⟩ := ih.1 x hx
        exact ⟨y, by simp [hy], hxy⟩
    · intro y hy
      rcases List.mem_cons.mp hy with rfl | hy
      · exact ⟨_, by simp, hab⟩
      · obtain ⟨x, hx, hxy⟩ := ih.2 y hy
        exact ⟨x, by simp [hx], hxy⟩

theorem Outcome.mapM_returns {α β : Type} {f : α → Outcome β} {l : List α} :
    (∃ bs, l.mapM f = .ok bs) ↔ ∀ a ∈ l, ∃ b, f a = .ok b := by
  induction l with
  | nil => exact ⟨fun _ a ha => by simp at ha, fun _ => ⟨[], rfl⟩⟩
  | cons a l ih =>
    rw [List.mapM_cons]
    constructor
    · rintro ⟨bs, h⟩
      obtain ⟨b, hb, h⟩ := Failures.bind_eq_ok.mp h
      obtain ⟨cs, hcs, _⟩ := Failures.bind_eq_ok.mp h
      intro a' ha'
      rcases List.mem_cons.mp ha' with rfl | ha'
      · exact ⟨b, hb⟩
      · exact ih.mp ⟨cs, hcs⟩ a' ha'
    · intro h
      obtain ⟨b, hb⟩ := h a (by simp)
      obtain ⟨cs, hcs⟩ := ih.mpr fun a' ha' => h a' (by simp [ha'])
      exact ⟨b :: cs, by rw [hb, hcs]; rfl⟩

theorem Outcome.mapM_mem {α β : Type} {f : α → Outcome β} {l : List α} {bs : List β}
    (h : l.mapM f = .ok bs) :
    (∀ a ∈ l, ∃ b ∈ bs, f a = .ok b) ∧ ∀ b ∈ bs, ∃ a ∈ l, f a = .ok b :=
  forall₂_partner (Failures.mapM_eq_ok.mp h)

theorem Outcome.mapM_length {α β : Type} {f : α → Outcome β} {l : List α} {bs : List β}
    (h : l.mapM f = .ok bs) : bs.length = l.length :=
  (Failures.mapM_eq_ok.mp h).length_eq.symm

theorem digitsValue_toDigits (u : UnicodeData) (n : Nat) : digitsValue u (Nat.toDigits 10 n) = n := by
  have hdig : ∀ c ∈ Nat.toDigits 10 n, (u.decimal c).getD 0 = c.toNat - 48 := by
    intro c hc
    have hd : c.isDigit = true := Nat.isDigit_of_mem_toDigits (by omega) (by omega) hc
    have hd' := hd
    simp only [Char.isDigit, Bool.and_eq_true, decide_eq_true_eq] at hd'
    have h2 : c.toNat ≤ 57 := UInt32.le_iff_toNat_le.mp hd'.2
    rw [u.decimal_ascii c (by omega), if_pos hd]
    rfl
  have hfold : ∀ (l : Str) (acc : Nat), (∀ c ∈ l, (u.decimal c).getD 0 = c.toNat - 48) →
      l.foldl (fun n c => n * 10 + (u.decimal c).getD 0) acc = Nat.ofDigitChars 10 l acc := by
    intro l
    induction l with
    | nil => intro acc _; rfl
    | cons c l ih =>
      intro acc hl
      rw [List.foldl_cons, ih _ fun d hd => hl d (by simp [hd]), hl c (by simp),
        Nat.ofDigitChars_cons]
      congr 1
      simp only [Char.reduceToNat]
      omega
  rw [digitsValue, hfold _ _ hdig, Nat.ofDigitChars_ten_toDigits]

end Python
