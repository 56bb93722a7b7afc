import LlmHardtest.Round5.WebhookReplay
set_option autoImplicit false

/-! Which requests the webhook processor lets through to its replay check. -/

namespace Round5.Webhook
open Python Binary64

def headerNames : List Str := ["t".toList, "kid".toList, "v1".toList]

def partText (p : Str × Str) : Str := joinStr ['='] [p.1, p.2]

/-- A text that says a header: its fields in any order, with one time, one key and some signatures. -/
structure Written (text : Str) (h : SignatureHeader) : Prop where
  parts : ∃ parts : List (Str × Str), parts ≠ [] ∧ text = joinStr [','] (parts.map partText) ∧
    (∀ p ∈ parts, p.1 ∈ headerNames) ∧ fieldItems parts "t" = [natStr h.timestamp] ∧
    fieldItems parts "kid" = [h.kid] ∧ fieldItems parts "v1" = h.signatures
  time : (natStr h.timestamp).length ≤ maxIntDigits
  kid : isKid h.kid = true
  signed : h.signatures ≠ []
  signatures : ∀ s ∈ h.signatures, isSignature s = true

section Parts
variable {part name item : Str} {p : Str × Str}

theorem partOf_ok : partOf part = .ok p ↔
    splitOnChar '=' part = [p.1, p.2] ∧ p.1 ∈ headerNames ∧ p.2 ≠ [] := by
  obtain ⟨name, item⟩ := p
  unfold partOf
  split
  · rename_i name' item' hsplit
    rw [hsplit]
    split
    · rename_i hok
      constructor
      · intro h
        cases h
        exact ⟨rfl, hok⟩
      · rintro ⟨h, -⟩
        cases h
        rfl
    · rename_i hok
      refine iff_of_false (by rintro ⟨⟩) ?_
      rintro ⟨h, h'⟩
      cases h
      exact hok h'
  · rename_i hno
    exact iff_of_false (by rintro ⟨⟩) fun h => hno _ _ h.1

theorem partText_of_split (h : splitOnChar '=' part = [p.1, p.2]) : part = partText p := by
  rw [partText, ← h, joinStr_splitOnChar]

theorem partText_eq (p : Str × Str) : partText p = p.1 ++ '=' :: p.2 := by
  simp [partText, joinStr, List.intercalate]

def itemChar (c : Char) : Bool := c != ',' && c != '='

theorem names_plain (h : name ∈ headerNames) : name.all itemChar = true := by
  revert name
  decide

theorem itemChar_of_isDigit {c : Char} (h : c.isDigit = true) : itemChar c = true := by
  simp only [itemChar, Bool.and_eq_true, bne_iff_ne]
  constructor
  · rintro rfl
    exact absurd h (by decide)
  · rintro rfl
    exact absurd h (by decide)

theorem kid_plain (h : isKid item = true) : item.all itemChar = true := by
  simp only [isKid, Bool.and_eq_true, List.all_eq_true] at h ⊢
  intro c hc
  have hkid := h.2 c hc
  simp only [itemChar, Bool.and_eq_true, bne_iff_ne]
  constructor
  · rintro rfl
    exact absurd hkid (by decide)
  · rintro rfl
    exact absurd hkid (by decide)

theorem signature_plain (h : isSignature item = true) : item.all itemChar = true := by
  simp only [isSignature, Bool.and_eq_true, List.all_eq_true] at h ⊢
  intro c hc
  have hhex := h.2 c hc
  simp only [itemChar, Bool.and_eq_true, bne_iff_ne]
  constructor
  · rintro rfl
    exact absurd hhex (by decide)
  · rintro rfl
    exact absurd hhex (by decide)

theorem natStr_plainItem (n : Nat) : (natStr n).all itemChar = true :=
  List.all_eq_true.mpr fun _ hc => itemChar_of_isDigit (natStr_plain hc)

end Parts

theorem mem_fieldItems {parts : List (Str × Str)} {name : String} {item : Str} :
    item ∈ fieldItems parts name ↔ (name.toList, item) ∈ parts := by
  simp only [fieldItems, List.mem_map, List.mem_filter, decide_eq_true_eq]
  constructor
  · rintro ⟨⟨_, _⟩, ⟨h, rfl⟩, rfl⟩
    exact h
  · exact fun h => ⟨_, ⟨h, rfl⟩, rfl⟩

theorem Written.part_plain {h : SignatureHeader} {parts : List (Str × Str)}
    (hnames : ∀ p ∈ parts, p.1 ∈ headerNames) (ht : fieldItems parts "t" = [natStr h.timestamp])
    (hkid : fieldItems parts "kid" = [h.kid]) (hv1 : fieldItems parts "v1" = h.signatures)
    (hk : isKid h.kid = true) (hs : ∀ s ∈ h.signatures, isSignature s = true) :
    ∀ p ∈ parts, p.2.all itemChar = true ∧ p.2 ≠ [] := by
  rintro ⟨name, item⟩ hp
  have hname := hnames _ hp
  simp only [headerNames, List.mem_cons, List.not_mem_nil, or_false] at hname
  rcases hname with rfl | rfl | rfl
  · have hitem := mem_fieldItems.mpr hp
    rw [ht, List.mem_singleton] at hitem
    subst hitem
    exact ⟨natStr_plainItem _, natStr_ne_nil _⟩
  · have hitem := mem_fieldItems.mpr hp
    rw [hkid, List.mem_singleton] at hitem
    subst hitem
    refine ⟨kid_plain hk, fun hnil => ?_⟩
    change h.kid = [] at hnil
    rw [hnil] at hk
    exact absurd hk (by decide)
  · have hitem := mem_fieldItems.mpr hp
    rw [hv1] at hitem
    refine ⟨signature_plain (hs _ hitem), fun hnil => ?_⟩
    change item = [] at hnil
    rw [hnil] at hitem
    exact absurd (hs _ hitem) (by decide)

theorem not_mem_of_plain {s : Str} (h : s.all itemChar = true) : ',' ∉ s ∧ '=' ∉ s := by
  rw [List.all_eq_true] at h
  exact ⟨fun hc => absurd (h _ hc) (by decide), fun hc => absurd (h _ hc) (by decide)⟩

theorem partOf_partText {p : Str × Str} (hname : p.1 ∈ headerNames) (hitem : p.2.all itemChar = true)
    (hne : p.2 ≠ []) : partOf (partText p) = .ok p := by
  refine partOf_ok.mpr ⟨?_, hname, hne⟩
  refine splitOnChar_joinStr (by simp) fun w hw => ?_
  rcases List.mem_pair.mp hw with rfl | rfl
  · exact (not_mem_of_plain (names_plain hname)).2
  · exact (not_mem_of_plain hitem).2

theorem mapM_partOf {texts : List Str} {parts : List (Str × Str)} :
    texts.mapM partOf = .ok parts → texts = parts.map partText ∧
      ∀ p ∈ parts, p.1 ∈ headerNames := by
  induction texts generalizing parts with
  | nil =>
    intro h
    cases h
    exact ⟨rfl, by simp⟩
  | cons text texts ih =>
    intro h
    rw [List.mapM_cons] at h
    obtain ⟨p, hp, h⟩ := Failures.bind_eq_ok.mp h
    obtain ⟨ps, hps, h⟩ := Failures.bind_eq_ok.mp h
    cases h
    obtain ⟨hsplit, hname, -⟩ := partOf_ok.mp hp
    obtain ⟨htexts, hnames⟩ := ih hps
    refine ⟨by rw [List.map_cons, ← htexts, ← partText_of_split hsplit], ?_⟩
    intro q hq
    rcases List.mem_cons.mp hq with rfl | hq
    · exact hname
    · exact hnames q hq

theorem mapM_partText {parts : List (Str × Str)} (h : ∀ p ∈ parts, partOf (partText p) = .ok p) :
    (parts.map partText).mapM partOf = .ok parts := by
  induction parts with
  | nil => rfl
  | cons p parts ih =>
    rw [List.map_cons, List.mapM_cons]
    refine Failures.bind_eq_ok.mpr ⟨p, h p List.mem_cons_self, ?_⟩
    exact Failures.bind_eq_ok.mpr ⟨parts, ih fun q hq => h q (List.mem_cons_of_mem _ hq), rfl⟩

theorem header_parts_ok {u : UnicodeData} {text : Str} {h : SignatureHeader} :
    header u (some text) = .ok h ↔ text ≠ [] ∧ ∃ parts t,
      (splitOnChar ',' text).mapM partOf = .ok parts ∧ fieldItems parts "t" = [t] ∧
      fieldItems parts "kid" = [h.kid] ∧ fieldItems parts "v1" = h.signatures ∧ h.signatures ≠ [] ∧
      isDecimal t = true ∧ isKid h.kid = true ∧ (∀ s ∈ h.signatures, isSignature s = true) ∧
      pyInt u t = .ok h.timestamp := by
  cases text with
  | nil => exact iff_of_false (by rintro ⟨⟩) (by rintro ⟨h, -⟩; exact h rfl)
  | cons c cs =>
    constructor
    · intro hh
      obtain ⟨parts, hparts, hh⟩ := Failures.bind_eq_ok.mp hh
      split at hh
      · rename_i t kid s ss ht hkid hv1
        obtain ⟨_, hcheck, hh⟩ := Failures.bind_eq_ok.mp hh
        obtain ⟨n, hn, hh⟩ := Failures.bind_eq_ok.mp hh
        cases hh
        have hok := check_ok.mp hcheck
        simp only [Bool.and_eq_true] at hok
        refine ⟨by simp, parts, t, hparts, ht, hkid, hv1, by simp, hok.1.1, hok.1.2,
          List.all_eq_true.mp hok.2, ?_⟩
        cases hp : pyInt u t with
        | ok m =>
          rw [hp] at hn
          cases hn
          rfl
        | error e =>
          rw [hp] at hn
          cases hn
      · cases hh
    · rintro ⟨-, parts, t, hparts, ht, hkid, hv1, hne, hdec, hk, hsig, hint⟩
      obtain ⟨timestamp, kid, signatures⟩ := h
      cases signatures with
      | nil => exact absurd rfl hne
      | cons s ss =>
        refine Failures.bind_eq_ok.mpr ⟨parts, hparts, ?_⟩
        rw [ht, hkid, hv1]
        refine Failures.bind_eq_ok.mpr ⟨(), check_ok.mpr ?_, ?_⟩
        · simp only [hdec, hk, Bool.true_and]
          exact List.all_eq_true.mpr hsig
        · exact Failures.bind_eq_ok.mpr ⟨timestamp, by rw [hint]; rfl, rfl⟩

/-- The header of a text is what the text says, and other texts have none. -/
theorem header_ok {u : UnicodeData} {text : Str} {h : SignatureHeader} :
    header u (some text) = .ok h ↔ Written text h := by
  rw [header_parts_ok]
  constructor
  · rintro ⟨-, parts, t, hparts, ht, hkid, hv1, hne, hdec, hk, hsig, hint⟩
    obtain ⟨n, rfl⟩ := isDecimal_iff.mp hdec
    obtain ⟨htexts, hnames⟩ := mapM_partOf hparts
    have hshort := pyInt_ok_iff.mp ⟨_, hint⟩
    have hn : n = h.timestamp := by
      have hvalue := digitsValue_toDigits u n
      rw [pyInt, if_neg (by omega)] at hint
      rw [← hvalue]
      exact Except.ok.inj hint
    subst hn
    refine ⟨⟨parts, ?_, ?_, hnames, ht, hkid, hv1⟩, hshort, hk, hne, hsig⟩
    · rintro rfl
      cases ht
    · rw [← htexts, joinStr_splitOnChar]
  · rintro ⟨⟨parts, hnil, rfl, hnames, ht, hkid, hv1⟩, hshort, hk, hne, hsig⟩
    have hplain := Written.part_plain hnames ht hkid hv1 hk hsig
    have hparts : splitOnChar ',' (joinStr [','] (parts.map partText)) = parts.map partText := by
      refine splitOnChar_joinStr (by simpa using hnil) fun w hw => ?_
      obtain ⟨p, hp, rfl⟩ := List.mem_map.mp hw
      rw [partText_eq, List.mem_append, List.mem_cons]
      rintro (hc | hc | hc)
      · exact (not_mem_of_plain (names_plain (hnames p hp))).1 hc
      · cases hc
      · exact (not_mem_of_plain (hplain p hp).1).1 hc
    refine ⟨?_, parts, natStr h.timestamp, ?_, ht, hkid, hv1, hne, isDecimal_iff.mpr ⟨_, rfl⟩, hk,
      hsig, ?_⟩
    · intro hempty
      rw [hempty] at hparts
      cases parts with
      | nil => exact hnil rfl
      | cons p ps =>
        have hhead := congrArg List.head? hparts
        simp only [splitOnChar, List.head?_cons, List.map_cons, Option.some.injEq, partText_eq] at hhead
        exact absurd hhead.symm (by simp)
    · rw [hparts]
      exact mapM_partText fun p hp => partOf_partText (hnames p hp) (hplain p hp).1 (hplain p hp).2
    · rw [pyInt, if_neg (by omega)]
      exact congrArg Except.ok (digitsValue_toDigits u h.timestamp)

/-- The clock is near enough, a float clock by the float of the difference. A clock that says NaN is
near any time that a float can hold. -/
def InTime (tolerance timestamp : Nat) (now : Json) : Prop :=
  (∃ n : Int, now = .int n ∧ |n - timestamp| ≤ tolerance) ∨
    ((timestamp : Int) < floatOverflow ∧ (now = .float .nan ∨ ∃ q : ℚ, now = .float (.finite q) ∧
      |q - nearest timestamp| < floatOverflow ∧ |nearest (q - nearest timestamp)| ≤ tolerance))

section Times
variable {tolerance timestamp : Nat} {now : Json}

theorem toFloat_nat (n : Nat) (x : PyFloat) : lift (PyNum.int n).toFloat = .ok x ↔
    (n : Int) < floatOverflow ∧ x = .finite (nearest n) := by
  unfold PyNum.toFloat
  dsimp only
  rw [abs_of_nonneg (Int.natCast_nonneg n)]
  split
  · rename_i h
    exact iff_of_false (by rintro ⟨⟩) (by omega)
  · rename_i h
    refine ⟨fun hx => ⟨by omega, ?_⟩, fun hx => ?_⟩
    · cases hx
      rfl
    · rw [hx.2]
      rfl

theorem isOutside_int {n : Int} :
    isOutside tolerance timestamp (.int n) = .ok false ↔ |n - timestamp| ≤ tolerance := by
  unfold isOutside
  rw [Except.ok.injEq, decide_eq_false_iff_not, not_lt]

theorem isOutside_float {x : PyFloat} : isOutside tolerance timestamp (.float x) = .ok false ↔
    (timestamp : Int) < floatOverflow ∧ (x = .nan ∨ ∃ q : ℚ, x = .finite q ∧
      |q - nearest timestamp| < floatOverflow ∧ |nearest (q - nearest timestamp)| ≤ tolerance) := by
  unfold isOutside
  constructor
  · intro h
    obtain ⟨t, ht, h⟩ := Failures.bind_eq_ok.mp h
    obtain ⟨hfit, rfl⟩ := (toFloat_nat _ _).mp ht
    refine ⟨hfit, ?_⟩
    cases x with
    | nan => exact .inl rfl
    | inf negative => cases h
    | finite q =>
      dsimp only [PyFloat.finiteValue] at h
      split at h
      · rename_i d hd
        obtain ⟨hlt, rfl⟩ := PyFloat.ofRat_eq_finite.mp hd
        refine .inr ⟨q, rfl, hlt, ?_⟩
        have hfalse : decide ((tolerance : ℚ) < |nearest (q - nearest timestamp)|) = false :=
          Except.ok.inj h
        simpa using hfalse
      · cases h
  · rintro ⟨hfit, rfl | ⟨q, rfl, hlt, hle⟩⟩
    · exact Failures.bind_eq_ok.mpr ⟨_, (toFloat_nat _ _).mpr ⟨hfit, rfl⟩, rfl⟩
    · refine Failures.bind_eq_ok.mpr ⟨_, (toFloat_nat _ _).mpr ⟨hfit, rfl⟩, ?_⟩
      dsimp only [PyFloat.finiteValue]
      rw [PyFloat.ofRat_eq_finite.mpr ⟨hlt, rfl⟩]
      exact congrArg Except.ok (by simpa using hle)

theorem checkTime_ok : checkTime tolerance timestamp now = .ok () ↔ InTime tolerance timestamp now := by
  have hcheck : ∀ n, now.number = some n → (checkTime tolerance timestamp now = .ok () ↔
      isOutside tolerance timestamp n = .ok false) := by
    intro n hn
    rw [checkTime, hn]
    constructor
    · intro h
      obtain ⟨outside, ho, h⟩ := Failures.bind_eq_ok.mp h
      have hfalse : outside = false := by simpa using check_ok.mp h
      rw [ho, hfalse]
    · intro h
      exact Failures.bind_eq_ok.mpr ⟨false, h, rfl⟩
  cases now with
  | int n =>
    rw [hcheck _ rfl, isOutside_int]
    simp [InTime]
  | float x =>
    rw [hcheck _ rfl, isOutside_float]
    simp [InTime]
  | null => exact iff_of_false (by rintro ⟨⟩) (by simp [InTime])
  | bool b => exact iff_of_false (by rintro ⟨⟩) (by simp [InTime])
  | str s => exact iff_of_false (by rintro ⟨⟩) (by simp [InTime])
  | arr items => exact iff_of_false (by rintro ⟨⟩) (by simp [InTime])
  | obj fields => exact iff_of_false (by rintro ⟨⟩) (by simp [InTime])

end Times

section Bodies
variable {env : Env} {cfg : Config} {body : Bytes} {payload : List (Str × Json)}

theorem mapM_object {objects : List (List (Str × Json))} :
    (∃ us, objects.mapM object = .ok us) ↔ ∀ pairs ∈ objects, (pairs.map Prod.fst).Nodup := by
  induction objects with
  | nil => exact iff_of_true ⟨[], rfl⟩ (by simp)
  | cons pairs objects ih =>
    rw [List.mapM_cons, List.forall_mem_cons, ← ih]
    constructor
    · rintro ⟨us, h⟩
      obtain ⟨_, hpairs, h⟩ := Failures.bind_eq_ok.mp h
      obtain ⟨vs, hvs, -⟩ := Failures.bind_eq_ok.mp h
      exact ⟨of_decide_eq_true (check_ok.mp hpairs), vs, hvs⟩
    · rintro ⟨hpairs, vs, hvs⟩
      refine ⟨() :: vs, Failures.bind_eq_ok.mpr ⟨(), check_ok.mpr (decide_eq_true hpairs), ?_⟩⟩
      exact Failures.bind_eq_ok.mpr ⟨vs, hvs, rfl⟩

theorem parseBody_ok : parseBody env body = .ok payload ↔
    (∀ pairs ∈ (env.loads body).completed, (pairs.map Prod.fst).Nodup) ∧
      (env.loads body).result = .ok (.obj payload) := by
  rw [← mapM_object]
  constructor
  · intro h
    obtain ⟨us, hus, h⟩ := Failures.bind_eq_ok.mp h
    refine ⟨⟨us, hus⟩, ?_⟩
    split at h
    · rename_i fields hres
      cases h
      exact hres
    · cases h
    · cases h
    · cases h
  · rintro ⟨⟨us, hus⟩, hres⟩
    refine Failures.bind_eq_ok.mpr ⟨us, hus, ?_⟩
    rw [hres]
    rfl

theorem isSigned_iff {secrets : List Bytes} {signatures : List Str} {signed : Bytes} :
    isSigned env secrets signatures signed = true ↔
      ∃ secret ∈ secrets, env.hmac secret signed ∈ signatures := by
  simp [isSigned]

end Bodies

/-- The request of a sender who holds a secret of the key that it names: a written header, near the
clock, with a signature of this very body, which is a JSON object without repeated names. -/
def Genuine (env : Env) (cfg : Config) (r : Request) (token : Token) (payload : List (Str × Json)) :
    Prop :=
  ∃ body text h now secrets, r.body = some body ∧ r.header = some text ∧ Written text h ∧
    r.clock = .ok now ∧ InTime cfg.tolerance h.timestamp now ∧
    cfg.keys.table.lookup h.kid = some secrets ∧
    (∃ secret ∈ secrets, env.hmac secret (signedBytes h.timestamp body) ∈ h.signatures) ∧
    (∀ pairs ∈ (env.loads body).completed, (pairs.map Prod.fst).Nodup) ∧
    (env.loads body).result = .ok (.obj payload) ∧
    token = ⟨h.kid, h.timestamp, env.sha256 (signedBytes h.timestamp body)⟩

theorem accept_iff {env : Env} {cfg : Config} {r : Request} {token : Token}
    {payload : List (Str × Json)} :
    accept env cfg r = .ok (token, payload) ↔ Genuine env cfg r token payload := by
  rw [accept_ok]
  constructor
  · rintro ⟨body, h, now, secrets, hbody, hh, hnow, htime, hsecrets, hsigned, hp, rfl⟩
    cases htext : r.header with
    | none =>
      rw [htext] at hh
      cases hh
    | some text =>
      rw [htext] at hh
      obtain ⟨hdistinct, hres⟩ := parseBody_ok.mp hp
      exact ⟨body, text, h, now, secrets, hbody, htext, header_ok.mp hh, hnow, checkTime_ok.mp htime,
        hsecrets, isSigned_iff.mp hsigned, hdistinct, hres, rfl⟩
  · rintro ⟨body, text, h, now, secrets, hbody, htext, hh, hnow, htime, hsecrets, hsigned, hdistinct,
      hres, rfl⟩
    exact ⟨body, h, now, secrets, hbody, by rw [htext]; exact header_ok.mpr hh, hnow,
      checkTime_ok.mpr htime, hsecrets, isSigned_iff.mpr hsigned, parseBody_ok.mpr ⟨hdistinct, hres⟩,
      rfl⟩

/-- The handler runs for genuine requests only, with what their own bodies say, and a call of any
other request ends in an error. -/
structure Gated {R : Type} (env : Env) (cfg : Config) (s : State R) : Prop where
  began : ∀ token i, (token, .began i) ∈ s.log → ∃ c, s.calls[i]? = some c ∧
    ∃ payload, Genuine env cfg c.request token payload
  handling : ∀ (i : Nat) (c : Call R) token payload, s.calls[i]? = some c →
    c.phase = .handling token payload → Genuine env cfg c.request token payload
  refused : ∀ (i : Nat) (c : Call R), s.calls[i]? = some c →
    (∀ token payload, ¬ Genuine env cfg c.request token payload) → ∃ e, c.phase = .ended (.error e)

theorem run_gated {R : Type} (env : Env) (cfg : Config) (as : List (Action R)) :
    Gated env cfg (run env cfg {} as) := by
  have hs : Sound env cfg (run env cfg {} as) := Sound.start.run as
  refine ⟨fun token i hlog => ?_, fun i c token payload hi hc => ?_, fun i c hi hno => ?_⟩
  · obtain ⟨c, hi, payload, hadmit⟩ := hs.traced.began token i hlog
    exact ⟨c, hi, payload, accept_iff.mp hadmit⟩
  · exact accept_iff.mp (hs.traced.admitted i c hi _ (by rw [hc]; rfl))
  · have hwork : ∀ token payload, c.phase.work ≠ some (token, payload) := fun token payload hw =>
      hno token payload (accept_iff.mp (hs.traced.admitted i c hi _ hw))
    cases hc : c.phase with
    | ready token payload => exact absurd (by rw [hc]; rfl) (hwork token payload)
    | handling token payload => exact absurd (by rw [hc]; rfl) (hwork token payload)
    | handled token payload outcome => exact absurd (by rw [hc]; rfl) (hwork token payload)
    | ended outcome =>
      cases outcome with
      | error e => exact ⟨e, rfl⟩
      | ok result =>
        obtain ⟨token, payload, hadmit, -⟩ := hs.traced.returned i c result hi hc
        exact absurd (accept_iff.mp hadmit) (hno token payload)

end Round5.Webhook
