import LlmHardtest.Library.Binary64
import LlmHardtest.Python.Value
set_option autoImplicit false

/-! Rounding to decimal digits and the float operations a script calls. -/

namespace Python
open Binary64

def roundDigits (digits : Nat) (q : ℚ) : ℚ := roundHalfEven (q * 10 ^ digits) / 10 ^ digits

theorem roundDigits_mono (digits : Nat) {q r : ℚ} (h : q ≤ r) :
    roundDigits digits q ≤ roundDigits digits r := by
  have hpow : (0 : ℚ) < 10 ^ digits := by positivity
  have hround := roundHalfEven_mono (mul_le_mul_of_nonneg_right h hpow.le)
  exact div_le_div_of_nonneg_right (by exact_mod_cast hround) hpow.le

theorem roundDigits_le_add (digits : Nat) {q r : ℚ} (h : q < r + 1 / 10 ^ digits) :
    roundDigits digits q ≤ roundDigits digits r + 1 / 10 ^ digits := by
  have hpow : (0 : ℚ) < 10 ^ digits := by positivity
  have hround := roundHalfEven_le_add_one (q := q * 10 ^ digits) (r := r * 10 ^ digits) (by
    have hmul := mul_lt_mul_of_pos_right h hpow
    rwa [add_mul, one_div_mul_cancel hpow.ne'] at hmul)
  rw [roundDigits, roundDigits, ← add_div]
  exact div_le_div_of_nonneg_right (by exact_mod_cast hround) hpow.le

/-- A number close to one of those digits rounds to it. -/
theorem roundDigits_near {digits : Nat} {q : ℚ} {n : ℤ}
    (h : |q - n / 10 ^ digits| < 1 / 2 / 10 ^ digits) : roundDigits digits q = n / 10 ^ digits := by
  have hpow : (0 : ℚ) < 10 ^ digits := by positivity
  have hscaled : |q * 10 ^ digits - n| < 1 / 2 := by
    have hsplit : q * 10 ^ digits - n = (q - n / 10 ^ digits) * 10 ^ digits := by
      rw [sub_mul, div_mul_cancel₀ _ hpow.ne']
    rw [hsplit, abs_mul, abs_of_pos hpow]
    exact (lt_div_iff₀ hpow).mp h
  rw [roundDigits, roundHalfEven_unique hscaled.le fun he => absurd he hscaled.ne]

theorem roundDigits_nonneg (digits : Nat) {q : ℚ} (h : 0 ≤ q) : 0 ≤ roundDigits digits q := by
  have h0 : 0 ≤ roundHalfEven (q * 10 ^ digits) := roundHalfEven_nonneg (by positivity)
  rw [roundDigits]
  positivity

/-- The least positive integer too large for a float. -/
def floatOverflow : Int := 2 ^ 1024 - 2 ^ 970

/-- The float operations a script calls, with what they keep of the sign. -/
structure FloatOps where
  ofInt : Int → Outcome PyFloat
  sum : List PyFloat → PyFloat
  round : Nat → PyFloat → PyFloat
  ofInt_nonneg : ∀ n x, 0 ≤ n → ofInt n = .ok x → x.nonneg = true
  sum_nonneg : ∀ xs, (∀ x ∈ xs, PyFloat.nonneg x = true) → (sum xs).nonneg = true
  round_nonneg : ∀ digits x, x.nonneg = true → (round digits x).nonneg = true

def PyFloat.add : PyFloat → PyFloat → PyFloat
  | .finite a, .finite b => .finite (a + b)
  | .inf a, .inf b => if a = b then .inf a else .nan
  | .inf a, .finite _ => .inf a
  | .finite _, .inf b => .inf b
  | _, _ => .nan

def PyFloat.roundTo (digits : Nat) : PyFloat → PyFloat
  | .finite q => .finite (roundDigits digits q)
  | x => x

theorem PyFloat.add_nonneg {a b : PyFloat} (ha : a.nonneg = true) (hb : b.nonneg = true) :
    (a.add b).nonneg = true := by
  cases a <;> cases b <;> simp_all [PyFloat.nonneg, PyFloat.add]
  exact Rat.add_nonneg ha hb

def exactFloats : FloatOps where
  ofInt n := .ok (.finite n)
  sum xs := xs.foldr PyFloat.add (.finite 0)
  round := PyFloat.roundTo
  ofInt_nonneg := by
    intro n x hn hx
    cases hx
    simpa using hn
  sum_nonneg := by
    intro xs h
    induction xs with
    | nil => rfl
    | cons x xs ih =>
      exact PyFloat.add_nonneg (h x (by simp)) (ih fun y hy => h y (by simp [hy]))
  round_nonneg := by
    intro digits x hx
    cases x with
    | finite q =>
      have hq : 0 ≤ q := by simpa using hx
      simpa [PyFloat.roundTo] using roundDigits_nonneg digits hq
    | inf negative => exact hx
    | nan => exact hx

end Python
