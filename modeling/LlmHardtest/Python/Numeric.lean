import LlmHardtest.Python.Number
set_option autoImplicit false

/-! The numbers of a script: integers without bound, and floats, where each operation rounds to the
nearest one. -/

namespace Python
open Binary64

theorem one_lt_floatOverflow : (1 : ℚ) < floatOverflow := by
  have h : (1 : Int) < floatOverflow := by decide +kernel
  exact_mod_cast h

def PyFloat.ofRat (q : ℚ) : PyFloat :=
  if (floatOverflow : ℚ) ≤ |q| then .inf (decide (q < 0)) else .finite (nearest q)

theorem PyFloat.ofRat_eq_finite {q x : ℚ} :
    PyFloat.ofRat q = .finite x ↔ |q| < floatOverflow ∧ nearest q = x := by
  unfold PyFloat.ofRat
  split
  · rename_i h
    simp only [reduceCtorEq, false_iff, not_and]
    intro hlt
    linarith
  · rename_i h
    simp only [PyFloat.finite.injEq]
    exact ⟨fun he => ⟨by linarith [not_le.mp h], he⟩, fun he => he.2⟩

/-- `x + y` -/
def PyFloat.plus : PyFloat → PyFloat → PyFloat
  | .finite a, .finite b => .ofRat (a + b)
  | .inf a, .inf b => if a = b then .inf a else .nan
  | .inf a, .finite _ => .inf a
  | .finite _, .inf b => .inf b
  | _, _ => .nan

/-- `x / y`; scripts divide by positive numbers only. -/
def PyFloat.over : PyFloat → PyFloat → PyFloat
  | .finite a, .finite b => .ofRat (a / b)
  | .inf a, .finite b => .inf (a != decide (b < 0))
  | .finite _, .inf _ => .finite 0
  | _, _ => .nan

def PyFloat.le : PyFloat → PyFloat → Bool
  | .finite a, .finite b => decide (a ≤ b)
  | .finite _, .inf negative => !negative
  | .inf negative, .finite _ => negative
  | .inf a, .inf b => a || !b
  | _, _ => false

inductive PyNum where
  | int (n : Int)
  | float (x : PyFloat)
  deriving DecidableEq, Repr

/-- `isinstance(value, (int, float)) and not isinstance(value, bool)` -/
def Json.number : Json → Option PyNum
  | .int n => some (.int n)
  | .float x => some (.float x)
  | _ => none

def PyNum.toFloat : PyNum → Outcome PyFloat
  | .int n => if floatOverflow ≤ |n| then .error .overflowError else .ok (.finite (nearest n))
  | .float x => .ok x

/-- `x + y` -/
def PyNum.add : PyNum → PyNum → Outcome PyNum
  | .int a, .int b => .ok (.int (a + b))
  | a, b => do
      let x ← a.toFloat
      let y ← b.toFloat
      return .float (x.plus y)

def PyNum.div : PyNum → PyNum → Outcome PyFloat
  | .int a, .int b =>
      if (floatOverflow : ℚ) ≤ |(a : ℚ) / b| then .error .overflowError
      else .ok (.finite (nearest (a / b)))
  | a, b => do
      let x ← a.toFloat
      let y ← b.toFloat
      return x.over y

def PyNum.sum (values : List PyNum) : Outcome PyNum := values.foldlM PyNum.add (.int 0)

/-- `x > 0` -/
def PyNum.positive : PyNum → Bool
  | .int n => decide (0 < n)
  | .float (.finite q) => decide (0 < q)
  | .float (.inf negative) => !negative
  | .float .nan => false

/-- `x >= 0` -/
@[simp] def PyNum.nonneg : PyNum → Bool
  | .int n => decide (0 ≤ n)
  | .float x => x.nonneg

/-- The value of a number that has one. -/
def PyNum.value : PyNum → Option ℚ
  | .int n => some n
  | .float (.finite q) => some q
  | .float _ => none

def PyNum.isFinite : PyNum → Outcome Bool
  | .int n => do
      let _ ← (PyNum.int n).toFloat
      return true
  | .float x => return x.isFinite

def PyFloat.finiteValue : PyFloat → ℚ
  | .finite q => q
  | _ => 0

def PyFloat.mean (xs : List PyFloat) : PyFloat :=
  let special := xs.filter fun x => !x.isFinite
  if special.isEmpty then .finite (nearest ((xs.map PyFloat.finiteValue).sum / xs.length))
  else special.foldl PyFloat.plus (.finite 0)

/-- `math.sqrt`, up to its rounding. -/
structure SquareRoot where
  sqrt : ℚ → ℚ
  nonneg : ∀ q, 0 ≤ q → 0 ≤ sqrt q
  lower : ∀ q, 0 ≤ q → q * (1 - 1 / 2 ^ 50) ≤ sqrt q ^ 2
  upper : ∀ q, 0 ≤ q → sqrt q ^ 2 ≤ q * (1 + 1 / 2 ^ 50)

def fractionRoot (q : ℚ) : ℚ :=
  (Nat.sqrt (q.num.toNat * q.den * 4 ^ 60) : ℚ) / (q.den * 2 ^ 60)

theorem root_error {m s : Nat} (hs : 2 ^ 60 ≤ s) (hlt : m ≤ s * s + s + s) :
    m * 2 ^ 50 ≤ s * s * 2 ^ 50 + m := by
  have hsquares : 2 ^ 60 * s ≤ s * s := Nat.mul_le_mul_right s hs
  generalize s * s = t at hlt hsquares ⊢
  omega

theorem fractionRoot_sq {q : ℚ} (hq : 0 ≤ q) :
    fractionRoot q ^ 2 ≤ q ∧ q * (1 - 1 / 2 ^ 50) ≤ fractionRoot q ^ 2 := by
  obtain ⟨n, hn⟩ := Int.eq_ofNat_of_zero_le (Rat.num_nonneg.mpr hq)
  have hden : (0 : ℚ) < q.den := by exact_mod_cast q.den_pos
  have hqn : q = n / q.den := by
    conv_lhs => rw [← Rat.num_div_den q]
    rw [hn]
    simp
  have hroot : fractionRoot q = (Nat.sqrt (n * q.den * 4 ^ 60) : ℚ) / (q.den * 2 ^ 60) := by
    simp only [fractionRoot, hn, Int.toNat_natCast]
  generalize hs : Nat.sqrt (n * q.den * 4 ^ 60) = s at hroot
  have hle : s * s ≤ n * q.den * 4 ^ 60 := hs ▸ Nat.sqrt_le _
  have hlt : n * q.den * 4 ^ 60 ≤ s * s + s + s := hs ▸ Nat.sqrt_le_add _
  have hscale : q = ((n * q.den * 4 ^ 60 : ℕ) : ℚ) / (q.den * 2 ^ 60) ^ 2 := by
    conv_lhs => rw [hqn]
    push_cast
    field_simp
    norm_num
  have hsquare : fractionRoot q ^ 2 = ((s * s : ℕ) : ℚ) / (q.den * 2 ^ 60) ^ 2 := by
    rw [hroot]
    push_cast
    rw [div_pow]
    ring
  have hpos : (0 : ℚ) < (q.den * 2 ^ 60) ^ 2 := by positivity
  constructor
  · rw [hsquare]
    conv_rhs => rw [hscale]
    exact div_le_div_of_nonneg_right (by exact_mod_cast hle) hpos.le
  · have hbig : n * q.den * 4 ^ 60 * 2 ^ 50 ≤ s * s * 2 ^ 50 + n * q.den * 4 ^ 60 := by
      rcases Nat.eq_zero_or_pos n with hzero | hnpos
      · simp [hzero]
      · have hone : 1 ≤ n * q.den := Nat.mul_pos hnpos q.den_pos
        have hroot60 : 2 ^ 60 ≤ s := by
          rw [← hs, Nat.le_sqrt]
          calc 2 ^ 60 * 2 ^ 60 = 1 * 4 ^ 60 := by norm_num
            _ ≤ n * q.den * 4 ^ 60 := Nat.mul_le_mul_right _ hone
        exact root_error hroot60 hlt
    rw [hsquare]
    conv_lhs => rw [hscale]
    rw [div_mul_eq_mul_div, div_le_div_iff_of_pos_right hpos]
    have hcast : ((n * q.den * 4 ^ 60 : ℕ) : ℚ) * 2 ^ 50 ≤
        ((s * s : ℕ) : ℚ) * 2 ^ 50 + ((n * q.den * 4 ^ 60 : ℕ) : ℚ) := by exact_mod_cast hbig
    have hsplit : (1 : ℚ) - 1 / 2 ^ 50 = (2 ^ 50 - 1) / 2 ^ 50 := by norm_num
    rw [hsplit, ← mul_div_assoc, div_le_iff₀ (by positivity)]
    linarith

def fractionSquareRoot : SquareRoot where
  sqrt := fractionRoot
  nonneg q _ := by
    unfold fractionRoot
    positivity
  lower q hq := (fractionRoot_sq hq).2
  upper q hq := (fractionRoot_sq hq).1.trans (by nlinarith)

theorem PyFloat.plus_nonneg {x y : PyFloat} (hx : x.nonneg = true) (hy : y.nonneg = true) :
    (x.plus y).nonneg = true := by
  cases x with
  | finite a =>
    cases y with
    | finite b =>
      have ha : 0 ≤ a := by simpa using hx
      have hb : 0 ≤ b := by simpa using hy
      have hab : 0 ≤ a + b := by linarith
      rw [PyFloat.plus, PyFloat.ofRat]
      split
      · simpa using hab
      · simpa using nearest_nonneg hab
    | inf b => exact hy
    | nan => cases hy
  | inf a =>
    cases y with
    | finite b => exact hx
    | inf b =>
      have ha : a = false := by simpa using hx
      have hb : b = false := by simpa using hy
      subst ha
      subst hb
      rfl
    | nan => cases hy
  | nan => cases hx

end Python
