import LlmHardtest.Python.Numeric
set_option autoImplicit false

/-! What the loop `total += x` makes of numbers that are not negative: when it raises, the total it
returns, and when the quotient of two totals is a rate. -/

namespace Python
open Binary64

@[simp] def PyNum.isFloat : PyNum → Bool
  | .int _ => false
  | .float _ => true

def hasFloat (vs : List PyNum) : Bool := vs.any PyNum.isFloat

def leadingInts : List PyNum → Int
  | .int n :: vs => n + leadingInts vs
  | _ => 0

@[simp] def PyNum.fits : PyNum → Bool
  | .int n => decide (n < floatOverflow)
  | .float _ => true

/-- No int too large for a float meets a float. -/
def Adds (vs : List PyNum) : Prop :=
  hasFloat vs = true → leadingInts vs < floatOverflow ∧ ∀ v ∈ vs, v.fits = true

instance (vs : List PyNum) : Decidable (Adds vs) := inferInstanceAs (Decidable (_ → _ ∧ _))

/-- The float of a number, infinite where `float(x)` raises. -/
def PyNum.rounded : PyNum → PyFloat
  | .int n => .ofRat n
  | .float x => x

def PyNum.plus : PyNum → PyNum → PyNum
  | .int a, .int b => .int (a + b)
  | a, b => .float (a.rounded.plus b.rounded)

def PyNum.total (vs : List PyNum) : PyNum := vs.foldl PyNum.plus (.int 0)

/-- The fractions that `x / y` divides: two ints as they are, else their floats. -/
def PyNum.operands (a b : PyNum) : Option (ℚ × ℚ) :=
  match a, b with
  | .int m, .int n => some (m, n)
  | a, b =>
      match a.toFloat, b.toFloat with
      | .ok (.finite x), .ok (.finite y) => some (x, y)
      | _, _ => none

section Sums
variable {a b c v s : PyNum} {vs : List PyNum}

@[simp] theorem hasFloat_cons (v : PyNum) (vs : List PyNum) :
    hasFloat (v :: vs) = (v.isFloat || hasFloat vs) := rfl

@[simp] theorem PyNum.plus_isFloat (a b : PyNum) : (a.plus b).isFloat = (a.isFloat || b.isFloat) := by
  cases a <;> cases b <;> rfl

theorem PyNum.toFloat_rounded {x : PyFloat} (h : a.toFloat = .ok x) : x = a.rounded := by
  cases a with
  | int n =>
    rw [PyNum.toFloat] at h
    split at h
    · cases h
    · rename_i hlt
      injection h with h
      rw [← h, PyNum.rounded, eq_comm, PyFloat.ofRat_eq_finite]
      exact ⟨by exact_mod_cast not_le.mp hlt, rfl⟩
  | float y => exact (Except.ok.inj h).symm

theorem PyNum.add_float (h : (a.isFloat || b.isFloat) = true) :
    a.add b = (do let x ← a.toFloat; let y ← b.toFloat; return PyNum.float (x.plus y)) := by
  cases a with
  | int m =>
    cases b with
    | int n => cases h
    | float y => rfl
  | float x => rfl

theorem PyNum.plus_float (h : (a.isFloat || b.isFloat) = true) :
    a.plus b = .float (a.rounded.plus b.rounded) := by
  cases a with
  | int m =>
    cases b with
    | int n => cases h
    | float y => rfl
  | float x => rfl

theorem PyNum.add_eq (h : a.add b = .ok c) : c = a.plus b := by
  by_cases hf : (a.isFloat || b.isFloat) = true
  · rw [PyNum.add_float hf] at h
    obtain ⟨x, hx, h⟩ := Failures.bind_eq_ok.mp h
    obtain ⟨y, hy, h⟩ := Failures.bind_eq_ok.mp h
    injection h with h
    rw [← h, PyNum.plus_float hf, PyNum.toFloat_rounded hx, PyNum.toFloat_rounded hy]
  · cases a with
    | float x => exact absurd rfl hf
    | int m =>
      cases b with
      | float y => exact absurd rfl hf
      | int n => exact (Except.ok.inj h).symm

theorem PyNum.foldlM_eq (h : vs.foldlM PyNum.add a = .ok s) : s = vs.foldl PyNum.plus a := by
  induction vs generalizing a with
  | nil => exact (Except.ok.inj h).symm
  | cons v vs ih =>
    rw [List.foldlM_cons] at h
    obtain ⟨next, hnext, h⟩ := Failures.bind_eq_ok.mp h
    rw [List.foldl_cons, ← PyNum.add_eq hnext]
    exact ih h

theorem PyNum.sum_eq (h : PyNum.sum vs = .ok s) : s = PyNum.total vs := PyNum.foldlM_eq h

theorem PyFloat.ofRat_nonneg {q : ℚ} (h : 0 ≤ q) : (PyFloat.ofRat q).nonneg = true := by
  unfold PyFloat.ofRat
  split
  · simpa using h
  · simpa using nearest_nonneg h

theorem PyNum.rounded_nonneg (h : a.nonneg = true) : a.rounded.nonneg = true := by
  cases a with
  | int n => exact PyFloat.ofRat_nonneg (by exact_mod_cast of_decide_eq_true h)
  | float x => exact h

theorem PyNum.plus_nonneg (ha : a.nonneg = true) (hb : b.nonneg = true) :
    (a.plus b).nonneg = true := by
  by_cases hf : (a.isFloat || b.isFloat) = true
  · rw [PyNum.plus_float hf]
    exact PyFloat.plus_nonneg (PyNum.rounded_nonneg ha) (PyNum.rounded_nonneg hb)
  · cases a with
    | float x => exact absurd rfl hf
    | int m =>
      cases b with
      | float y => exact absurd rfl hf
      | int n => exact decide_eq_true (Int.add_nonneg (of_decide_eq_true ha) (of_decide_eq_true hb))

theorem PyNum.foldl_induction {P : PyNum → Prop} (ha : P a)
    (hstep : ∀ acc, P acc → ∀ v ∈ vs, P (acc.plus v)) : P (vs.foldl PyNum.plus a) := by
  induction vs generalizing a with
  | nil => exact ha
  | cons v vs ih =>
    exact ih (hstep a ha v (by simp)) fun acc hacc w hw => hstep acc hacc w (by simp [hw])

theorem PyNum.total_nonneg (h : ∀ v ∈ vs, v.nonneg = true) : (PyNum.total vs).nonneg = true :=
  PyNum.foldl_induction (P := fun n => n.nonneg = true) rfl fun _ hacc v hv =>
    PyNum.plus_nonneg hacc (h v hv)

theorem PyNum.foldl_isFloat (a : PyNum) (vs : List PyNum) :
    (vs.foldl PyNum.plus a).isFloat = (a.isFloat || hasFloat vs) := by
  induction vs generalizing a with
  | nil => simp [hasFloat]
  | cons v vs ih => rw [List.foldl_cons, ih, PyNum.plus_isFloat, hasFloat_cons, Bool.or_assoc]

theorem PyNum.toFloat_returns {v : PyNum} (hv : v.nonneg = true) :
    (∃ x, v.toFloat = .ok x) ↔ v.fits = true := by
  cases v with
  | float x => simp [PyNum.toFloat]
  | int n =>
    have hn : 0 ≤ n := of_decide_eq_true hv
    rw [PyNum.toFloat, abs_of_nonneg hn, PyNum.fits, decide_eq_true_eq]
    split
    · rename_i hle
      simp only [reduceCtorEq, exists_false, false_iff, not_lt]
      exact hle
    · rename_i hlt
      simp only [Except.ok.injEq, exists_eq', true_iff]
      omega

theorem leadingInts_nonneg {vs : List PyNum} (h : ∀ v ∈ vs, v.nonneg = true) : 0 ≤ leadingInts vs := by
  induction vs with
  | nil => simp [leadingInts]
  | cons v vs ih =>
    cases v with
    | int n =>
      have hn : 0 ≤ n := of_decide_eq_true (h (.int n) (by simp))
      have := ih fun v hv => h v (by simp [hv])
      rw [leadingInts]
      omega
    | float x => simp [leadingInts]

theorem Adds_int {m : Int} {vs : List PyNum} (hvs : ∀ v ∈ vs, v.nonneg = true) :
    Adds (.int m :: vs) ↔ (hasFloat vs = true → m + leadingInts vs < floatOverflow ∧
      ∀ v ∈ vs, v.fits = true) := by
  have h0 := leadingInts_nonneg hvs
  unfold Adds
  rw [hasFloat_cons]
  simp only [PyNum.isFloat, Bool.false_or, leadingInts, List.forall_mem_cons, PyNum.fits,
    decide_eq_true_eq]
  refine imp_congr_right fun _ => and_congr_right fun hlt => and_iff_right ?_
  omega

@[simp] theorem Adds_float {x : PyFloat} {vs : List PyNum} :
    Adds (.float x :: vs) ↔ ∀ v ∈ vs, v.fits = true := by
  have hpos : (0 : Int) < floatOverflow := by exact_mod_cast zero_lt_one.trans one_lt_floatOverflow
  simp only [Adds, hasFloat_cons, PyNum.isFloat, Bool.true_or, leadingInts, hpos, true_and,
    List.forall_mem_cons, PyNum.fits, forall_const]

/-- The loop returns exactly when no int too large for a float meets a float. -/
theorem PyNum.fold_returns {vs : List PyNum} {acc : PyNum} (hacc : acc.nonneg = true)
    (hvs : ∀ v ∈ vs, v.nonneg = true) :
    (∃ s, vs.foldlM PyNum.add acc = .ok s) ↔ Adds (acc :: vs) := by
  induction vs generalizing acc with
  | nil =>
    cases acc with
    | int m => simp [Adds, hasFloat, pure, Except.pure]
    | float x => simp [pure, Except.pure]
  | cons v vs ih =>
    have hv := hvs v (by simp)
    have hrest : ∀ w ∈ vs, w.nonneg = true := fun w hw => hvs w (by simp [hw])
    have hsplit : (∃ s, (v :: vs).foldlM PyNum.add acc = .ok s) ↔
        ∃ next, acc.add v = .ok next ∧ Adds (next :: vs) := by
      rw [List.foldlM_cons]
      constructor
      · rintro ⟨s, hs⟩
        obtain ⟨next, hnext, hs⟩ := Failures.bind_eq_ok.mp hs
        exact ⟨next, hnext, (ih (PyNum.add_eq hnext ▸ PyNum.plus_nonneg hacc hv) hrest).mp ⟨s, hs⟩⟩
      · rintro ⟨next, hnext, hadds⟩
        obtain ⟨s, hs⟩ := (ih (PyNum.add_eq hnext ▸ PyNum.plus_nonneg hacc hv) hrest).mpr hadds
        exact ⟨s, Failures.bind_eq_ok.mpr ⟨next, hnext, hs⟩⟩
    rw [hsplit]
    -- From the first float on the sum is a float.
    have hfloat : (acc.isFloat || v.isFloat) = true →
        ((∃ next, acc.add v = .ok next ∧ Adds (next :: vs)) ↔
          acc.fits = true ∧ v.fits = true ∧ ∀ w ∈ vs, w.fits = true) := by
      intro hf
      rw [PyNum.add_float hf, ← PyNum.toFloat_returns hacc, ← PyNum.toFloat_returns hv]
      constructor
      · rintro ⟨next, hnext, hadds⟩
        obtain ⟨x, hx, hnext⟩ := Failures.bind_eq_ok.mp hnext
        obtain ⟨y, hy, hnext⟩ := Failures.bind_eq_ok.mp hnext
        cases hnext
        exact ⟨⟨x, hx⟩, ⟨y, hy⟩, Adds_float.mp hadds⟩
      · rintro ⟨⟨x, hx⟩, ⟨y, hy⟩, hadds⟩
        exact ⟨.float (x.plus y), by rw [hx, hy]; rfl, Adds_float.mpr hadds⟩
    cases acc with
    | float x =>
      rw [hfloat rfl, Adds_float, List.forall_mem_cons]
      simp
    | int m =>
      rw [Adds_int hvs, hasFloat_cons, List.forall_mem_cons]
      cases v with
      | float y =>
        rw [hfloat rfl]
        simp [leadingInts]
      | int n =>
        have hm : 0 ≤ m := of_decide_eq_true hacc
        have hlead := leadingInts_nonneg hrest
        have hadd : (∃ next, (PyNum.int m).add (.int n) = .ok next ∧ Adds (next :: vs)) ↔
            Adds (.int (m + n) :: vs) :=
          ⟨fun ⟨next, hnext, h⟩ => by cases hnext; exact h, fun h => ⟨_, rfl, h⟩⟩
        rw [hadd, Adds_int hrest]
        simp only [PyNum.isFloat, Bool.false_or, leadingInts, add_assoc, PyNum.fits,
          decide_eq_true_eq]
        refine imp_congr_right fun _ => and_congr_right fun hlt => (and_iff_right ?_).symm
        omega

theorem PyNum.sum_returns {vs : List PyNum} (hvs : ∀ v ∈ vs, v.nonneg = true) :
    (∃ s, PyNum.sum vs = .ok s) ↔ Adds vs := by
  rw [PyNum.sum, PyNum.fold_returns rfl hvs, Adds_int hvs, zero_add]
  rfl

end Sums

/-- A float is its own nearest one. -/
def PyNum.Settled : PyNum → Prop
  | .float (.finite q) => nearest q = q
  | _ => True

/-- The second number is at least the first, as numbers and as floats. -/
structure PyNum.Below (a b : PyNum) : Prop where
  rounded : a.rounded.le b.rounded = true
  float : a.isFloat = true → b.isFloat = true
  ints : ∀ m n, a = .int m → b = .int n → m ≤ n

section Order
variable {a b c : PyNum}

theorem PyFloat.ofRat_mono {q r : ℚ} (h0 : 0 ≤ q) (h : q ≤ r) :
    (PyFloat.ofRat q).le (.ofRat r) = true := by
  rw [PyFloat.ofRat, PyFloat.ofRat, abs_of_nonneg h0, abs_of_nonneg (h0.trans h)]
  by_cases hr : (floatOverflow : ℚ) ≤ r
  · rw [if_pos hr, decide_eq_false (not_lt.mpr (h0.trans h))]
    split
    · rw [decide_eq_false (not_lt.mpr h0)]
      rfl
    · rfl
  · rw [if_neg hr, if_neg fun hq => hr (hq.trans h)]
    exact decide_eq_true (nearest_mono h)

theorem PyFloat.le_trans {x y z : PyFloat} (hxy : x.le y = true) (hyz : y.le z = true) :
    x.le z = true := by
  cases x <;> cases y <;> cases z <;> simp_all [PyFloat.le]
  · exact hxy.trans hyz
  · rcases hxy with h | h <;> simp_all

theorem PyFloat.le_refl {x : PyFloat} (h : x.nonneg = true) : x.le x = true := by
  cases x with
  | finite q => exact decide_eq_true Rat.le_refl
  | inf negative => simp [PyFloat.le]
  | nan => cases h

theorem PyNum.below_refl (h : a.nonneg = true) : a.Below a :=
  ⟨PyFloat.le_refl (PyNum.rounded_nonneg h), id, fun m n hm hn => by rw [hm] at hn; cases hn; rfl⟩

theorem PyNum.Below.trans (hab : a.Below b) (hbc : b.Below c) : a.Below c where
  rounded := PyFloat.le_trans hab.rounded hbc.rounded
  float h := hbc.float (hab.float h)
  ints m n hm hn := by
    cases b with
    | int k => exact (hab.ints m k hm rfl).trans (hbc.ints k n rfl hn)
    | float y =>
      have := hbc.float rfl
      rw [hn] at this
      cases this

theorem PyFloat.le_plus {x y : PyFloat} (hx : x.nonneg = true) (hy : y.nonneg = true)
    (hsettled : ∀ q, x = .finite q → nearest q = q) : x.le (x.plus y) = true := by
  cases x with
  | finite p =>
    have hp : 0 ≤ p := by simpa using hx
    cases y with
    | finite q =>
      have hq : 0 ≤ q := by simpa using hy
      rw [PyFloat.plus, PyFloat.ofRat]
      split
      · rw [decide_eq_false (not_lt.mpr (by linarith))]
        rfl
      · refine decide_eq_true ?_
        conv_lhs => rw [← hsettled p rfl]
        exact nearest_mono (le_add_of_nonneg_right hq)
    | inf b => exact hy
    | nan => cases hy
  | inf a =>
    have ha : a = false := by simpa using hx
    subst ha
    cases y with
    | finite q => rfl
    | inf b =>
      have hb : b = false := by simpa using hy
      subst hb
      rfl
    | nan => cases hy
  | nan => cases hx

theorem PyFloat.plus_settled {x y : PyFloat} {z : ℚ} (h : x.plus y = .finite z) : nearest z = z := by
  cases x with
  | finite p =>
    cases y with
    | finite q => rw [← (PyFloat.ofRat_eq_finite.mp h).2, nearest_nearest]
    | inf negative => cases h
    | nan => cases h
  | inf negative =>
    cases y with
    | finite q => cases h
    | inf negative' =>
      rw [PyFloat.plus] at h
      split at h <;> cases h
    | nan => cases h
  | nan => cases h

theorem PyNum.plus_settled (a b : PyNum) : (a.plus b).Settled := by
  by_cases hf : (a.isFloat || b.isFloat) = true
  · rw [PyNum.plus_float hf]
    cases hz : a.rounded.plus b.rounded with
    | finite z => exact PyFloat.plus_settled hz
    | inf negative => trivial
    | nan => trivial
  · cases a with
    | float x => exact absurd rfl hf
    | int m =>
      cases b with
      | float y => exact absurd rfl hf
      | int n => trivial

theorem PyNum.total_settled (vs : List PyNum) : (PyNum.total vs).Settled :=
  PyNum.foldl_induction (P := PyNum.Settled) trivial fun acc _ v _ => PyNum.plus_settled acc v

theorem PyNum.below_plus (ha : a.nonneg = true) (hb : b.nonneg = true) (hsettled : a.Settled) :
    a.Below (a.plus b) := by
  by_cases hf : (a.isFloat || b.isFloat) = true
  · rw [PyNum.plus_float hf]
    refine ⟨PyFloat.le_plus (PyNum.rounded_nonneg ha) (PyNum.rounded_nonneg hb) fun q hq => ?_,
      fun _ => rfl, fun m n _ hn => by cases hn⟩
    cases a with
    | int n => rw [← (PyFloat.ofRat_eq_finite.mp hq).2, nearest_nearest]
    | float x =>
      have hx : x = .finite q := hq
      subst hx
      exact hsettled
  · cases a with
    | float x => exact absurd rfl hf
    | int m =>
      cases b with
      | float y => exact absurd rfl hf
      | int n =>
        have hm : 0 ≤ m := of_decide_eq_true ha
        have hn : 0 ≤ n := of_decide_eq_true hb
        have hle : m ≤ m + n := by omega
        refine ⟨PyFloat.ofRat_mono (by exact_mod_cast hm) (by exact_mod_cast hle),
          fun h => absurd h Bool.false_ne_true, ?_⟩
        rintro _ _ ⟨⟩ ⟨⟩
        exact hle

theorem PyNum.below_foldl {vs : List PyNum} (ha : a.nonneg = true) (hsettled : a.Settled)
    (hvs : ∀ v ∈ vs, v.nonneg = true) : a.Below (vs.foldl PyNum.plus a) := by
  refine (PyNum.foldl_induction (P := fun acc => a.Below acc ∧ acc.nonneg = true ∧ acc.Settled)
    ⟨PyNum.below_refl ha, ha, hsettled⟩ ?_).1
  rintro acc ⟨hbelow, hacc, hset⟩ v hv
  exact ⟨hbelow.trans (PyNum.below_plus hacc (hvs v hv) hset), PyNum.plus_nonneg hacc (hvs v hv),
    PyNum.plus_settled acc v⟩

end Order

def UnitRate (x : Outcome PyFloat) : Prop := ∃ q : ℚ, x = .ok (.finite q) ∧ 0 ≤ q ∧ q ≤ 1

section Quotients
variable {a b : PyNum} {p t : ℚ}

/-- The quotient of two fractions rounds to a rate when it is not beyond one by more than half of
the spacing there. -/
theorem nearest_div_le_one (ht : 0 < t) : nearest (p / t) ≤ 1 ↔ p ≤ t * (1 + 1 / 2 ^ 53) := by
  rw [nearest_le_one_iff, div_le_iff₀ ht, mul_comm]

theorem quotient_fits (ht : 0 < t) (hp : 0 ≤ p) (h : p ≤ t * (1 + 1 / 2 ^ 53)) :
    |p / t| < floatOverflow := by
  have htwo : (2 : ℚ) < floatOverflow := by
    have h : (2 : Int) < floatOverflow := by decide +kernel
    exact_mod_cast h
  rw [abs_of_nonneg (div_nonneg hp ht.le), div_lt_iff₀ ht]
  have hsmall : (1 : ℚ) + 1 / 2 ^ 53 ≤ 2 := by norm_num
  nlinarith

theorem unitRate_ofRat (hp : 0 ≤ p) (ht : 0 < t) :
    UnitRate (.ok (PyFloat.ofRat (p / t))) ↔ p ≤ t * (1 + 1 / 2 ^ 53) := by
  constructor
  · rintro ⟨q, hq, -, h1⟩
    obtain ⟨-, rfl⟩ := PyFloat.ofRat_eq_finite.mp (Except.ok.inj hq)
    exact (nearest_div_le_one ht).mp h1
  · intro hle
    exact ⟨_, congrArg Except.ok (PyFloat.ofRat_eq_finite.mpr ⟨quotient_fits ht hp hle, rfl⟩),
      nearest_nonneg (div_nonneg hp ht.le), (nearest_div_le_one ht).mpr hle⟩

theorem PyNum.div_ints {m n : Int} (h : (0 : ℚ) ≤ m) (hn : (0 : ℚ) < n) :
    UnitRate ((PyNum.int m).div (.int n)) ↔ (m : ℚ) ≤ n * (1 + 1 / 2 ^ 53) := by
  rw [PyNum.div]
  constructor
  · rintro ⟨q, hq, -, h1⟩
    split at hq
    · cases hq
    · cases hq
      exact (nearest_div_le_one hn).mp h1
  · intro hle
    rw [if_neg (not_le.mpr (quotient_fits hn h hle))]
    exact ⟨_, rfl, nearest_nonneg (div_nonneg h hn.le), (nearest_div_le_one hn).mpr hle⟩

theorem PyNum.div_float (h : (a.isFloat || b.isFloat) = true) :
    a.div b = (do let x ← a.toFloat; let y ← b.toFloat; return x.over y) := by
  cases a with
  | int m =>
    cases b with
    | int n => cases h
    | float y => rfl
  | float x => rfl

theorem PyNum.positive_cases (h : b.positive = true) :
    (∃ n : Int, b = .int n ∧ 0 < n) ∨ (∃ q : ℚ, b = .float (.finite q) ∧ 0 < q) ∨
      b = .float (.inf false) := by
  cases b with
  | int n => exact .inl ⟨n, rfl, of_decide_eq_true h⟩
  | float y =>
    cases y with
    | finite q => exact .inr (.inl ⟨q, rfl, of_decide_eq_true h⟩)
    | inf negative =>
      cases negative with
      | false => exact .inr (.inr rfl)
      | true => cases h
    | nan => cases h

theorem PyNum.toFloat_positive {y : PyFloat} (h : b.positive = true)
    (hfinite : b ≠ .float (.inf false)) (hy : b.toFloat = .ok y) :
    ∃ t : ℚ, y = .finite t ∧ 0 < t := by
  rcases PyNum.positive_cases h with ⟨n, rfl, hn⟩ | ⟨q, rfl, hq⟩ | rfl
  · rw [PyNum.toFloat] at hy
    split at hy
    · cases hy
    · cases hy
      have hone : (1 : ℚ) ≤ n := by exact_mod_cast hn
      exact ⟨_, rfl, by linarith [nearest_one ▸ nearest_mono hone]⟩
  · cases hy
    exact ⟨q, rfl, hq⟩
  · exact absurd rfl hfinite

theorem PyNum.div_unitRate (ha : a.nonneg = true) (hb : b.positive = true)
    (hfinite : b ≠ .float (.inf false)) :
    UnitRate (a.div b) ↔ ∃ p t, a.operands b = some (p, t) ∧ p ≤ t * (1 + 1 / 2 ^ 53) := by
  by_cases hf : (a.isFloat || b.isFloat) = true
  · have hoperands : a.operands b = match a.toFloat, b.toFloat with
        | .ok (.finite x), .ok (.finite y) => some (x, y)
        | _, _ => none := by
      cases a with
      | int m =>
        cases b with
        | int n => cases hf
        | float y => rfl
      | float x => rfl
    have hnone : ∀ e : Raised, ¬ UnitRate (.error e) := by
      rintro e ⟨q, hq, -⟩
      cases hq
    rw [PyNum.div_float hf, hoperands]
    cases hx : a.toFloat with
    | error e => exact iff_of_false (hnone e) (by simp)
    | ok x =>
      cases hy : b.toFloat with
      | error e => exact iff_of_false (hnone e) (by simp)
      | ok y =>
        obtain ⟨t, rfl, ht⟩ := PyNum.toFloat_positive hb hfinite hy
        have hnonneg : x.nonneg = true := PyNum.toFloat_rounded hx ▸ PyNum.rounded_nonneg ha
        cases x with
        | finite p =>
          have hp : 0 ≤ p := by simpa using hnonneg
          change UnitRate (.ok (PyFloat.ofRat (p / t))) ↔ _
          rw [unitRate_ofRat hp ht]
          simp
        | inf negative =>
          refine iff_of_false ?_ (by simp)
          rintro ⟨q, hq, -⟩
          cases hq
        | nan => cases hnonneg
  · cases a with
    | float x => exact absurd rfl hf
    | int m =>
      cases b with
      | float y => exact absurd rfl hf
      | int n =>
        have hm : (0 : ℚ) ≤ m := by exact_mod_cast of_decide_eq_true ha
        have hn : (0 : ℚ) < n := by exact_mod_cast of_decide_eq_true hb
        simpa [PyNum.operands] using PyNum.div_ints hm hn

theorem PyNum.div_below (ha : a.nonneg = true) (hbelow : a.Below b) (hb : b.positive = true)
    (hfits : b.isFloat = true → a.fits = true) (hfinite : a ≠ .float (.inf false)) :
    UnitRate (a.div b) := by
  have hslack : ∀ {p t : ℚ}, 0 < t → p ≤ t → p ≤ t * (1 + 1 / 2 ^ 53) := fun ht hle =>
    hle.trans (le_mul_of_one_le_right ht.le (by norm_num))
  cases b with
  | int n =>
    cases a with
    | float x => cases hbelow.float rfl
    | int m =>
      have hm : (0 : ℚ) ≤ m := by exact_mod_cast of_decide_eq_true ha
      have hn : (0 : ℚ) < n := by exact_mod_cast of_decide_eq_true hb
      exact (PyNum.div_ints hm hn).mpr (hslack hn (by exact_mod_cast hbelow.ints m n rfl rfl))
  | float y =>
    obtain ⟨x, hx⟩ := (PyNum.toFloat_returns ha).mpr (hfits rfl)
    have hrounded := PyNum.toFloat_rounded hx
    have hp : ∃ p : ℚ, x = .finite p ∧ 0 ≤ p := by
      have hnonneg := PyNum.rounded_nonneg ha
      rw [← hrounded] at hnonneg
      cases x with
      | finite p => exact ⟨p, rfl, by simpa using hnonneg⟩
      | inf negative =>
        have hpositive : negative = false := by simpa using hnonneg
        subst hpositive
        cases a with
        | float z => exact absurd (congrArg PyNum.float hrounded.symm) hfinite
        | int m =>
          rw [PyNum.toFloat] at hx
          split at hx <;> cases hx
      | nan => cases hnonneg
    obtain ⟨p, rfl, hp⟩ := hp
    rw [PyNum.div_float (by simp), hx, Outcome.ok_bind]
    rcases PyNum.positive_cases hb with ⟨n, hn, -⟩ | ⟨t, ht, hpos⟩ | hinf
    · cases hn
    · cases ht
      have hle := hbelow.rounded
      rw [← hrounded] at hle
      exact (unitRate_ofRat hp hpos).mpr (hslack hpos (of_decide_eq_true hle))
    · cases hinf
      exact ⟨0, rfl, le_rfl, zero_le_one⟩

theorem PyNum.div_infinite : ¬ UnitRate ((PyNum.float (.inf false)).div b) := by
  rintro ⟨q, hq, -⟩
  rw [PyNum.div_float rfl] at hq
  obtain ⟨x, hx, hq⟩ := Failures.bind_eq_ok.mp hq
  obtain ⟨y, hy, hq⟩ := Failures.bind_eq_ok.mp hq
  cases hx
  cases y <;> cases hq

end Quotients

end Python
