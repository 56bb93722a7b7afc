import LlmHardtest.Round5.CacheSharing
set_option autoImplicit false

/-! Variant isolation and freshness of the shared cache. -/

namespace Round5.SharedCache
open Python SingleFlight

/-- A body from the store: the call agrees with the exchange that last renewed the entry on the
entry's `Vary`, and the entry is fresh. -/
def FromStore (env : Env) (s : State) (c : Call) (b : Body) : Prop :=
  ∃ e y current, Stored env s.log c.url e ∧ b = e.body ∧ s.log[e.renewed]? = some y ∧
    (∀ name ∈ e.vary, c.request.value name = y.request.value name) ∧
    currentAge env e c.now = .ok current ∧ current < (e.maxAge : ℚ)

structure Isolated (env : Env) (s : State) : Prop where
  hit : ∀ {i c b flight}, Returned s i c b flight → ¬ Contacted s.log i →
    (∀ leader, flight = some leader → leader = i) → FromStore env s c b
  sensitive : ∀ {i c b flight}, Returned s i c b flight → isSensitive c.request = true →
    flight = none ∧ Fetched s.log i c b
  stored : ∀ {url e}, e ∈ s.entries.at url → Stored env s.log url e
  renewal : ∀ {i : Nat} {c : Call} {e e' : Entry} {b : Body} {y : Exchange} {r : Response},
    s.calls[i]? = some c → c.phase = .storing (some e') b → c.entry = some e →
      s.log[e'.renewed]? = some y → y.received = .ok r → r.status = 304 →
        e.age ≤ 2 ^ 53 → e.age ≤ e'.age
  flights : ∀ {k i}, (k, i) ∈ s.flights →
    ∃ c, s.calls[i]? = some c ∧ ∀ outcome flight, c.phase ≠ .done outcome flight

section Isolation
variable {env : Env} {s : State}

theorem agree_of_values {vary : List Str} {d d' : Dict} (h : valuesOf vary d = valuesOf vary d') :
    ∀ name ∈ vary, d.value name = d'.value name :=
  List.map_inj_left.mp h

theorem Traced.hit (ht : Traced env s) {i : Nat} {c : Call} {b : Body} {flight : Option Nat}
    (hreturned : Returned s i c b flight) (hcontact : ¬ Contacted s.log i)
    (hown : ∀ leader, flight = some leader → leader = i) : FromStore env s c b := by
  obtain ⟨hi, hdone⟩ := hreturned
  have hc := ht.calls i c hi
  have hphase := hc.phase
  rw [hdone] at hphase
  cases flight with
  | some leader => exact absurd (hphase.2 (hown leader rfl)).1 hcontact
  | none =>
    rcases hphase b rfl with ⟨-, x, fields, hx, hcall, -⟩ | ⟨-, e, current, he, hb, hvalues, hfresh⟩
    · exact absurd ⟨x, List.mem_of_getElem? hx, hcall⟩ hcontact
    · have hstored := hc.entry e he
      obtain ⟨y, r, hy, -, -, -, -, hrenewed⟩ := hstored.renewed
      exact ⟨e, y, current, hstored, hb, hy, agree_of_values (hvalues.symm.trans hrenewed), hfresh⟩

theorem Traced.isolated (hw : Sound s.world) (ht : Traced env s) : Isolated env s where
  hit := ht.hit
  sensitive := by
    rintro i c b flight ⟨hi, hdone⟩ hsensitive
    have hphase := (ht.calls i c hi).phase
    rw [hdone] at hphase
    cases flight with
    | none =>
      rcases hphase b rfl with ⟨-, hfetched⟩ | ⟨hplain, -⟩
      · exact ⟨rfl, hfetched⟩
      · rw [hsensitive] at hplain
        cases hplain
    | some leader =>
      have hplain := hphase.1
      rw [hsensitive] at hplain
      cases hplain
  stored := by
    intro url e he
    exact ht.entries url e he
  renewal := by
    intro i c e e' b y r hi hp he hy hr hstatus hexact
    have hphase := (ht.calls i c hi).phase
    rw [hp] at hphase
    obtain ⟨-, -, -, hupdated⟩ := hphase
    rcases (hupdated e' rfl).2 with ⟨z, r', hz, hr', hstatus'⟩ | hkept
    · rw [hy] at hz
      cases hz
      rw [hr] at hr'
      cases hr'
      rw [hstatus] at hstatus'
      exact absurd hstatus' (by decide)
    · exact hkept e he hexact
  flights := by
    intro k i hk
    have hparty : s.party i = .leading k := (hw.leads k i).mp hk
    unfold State.party at hparty
    split at hparty
    · rename_i c hc
      refine ⟨c, hc, fun outcome flight hdone => ?_⟩
      rw [Call.party, hdone] at hparty
      cases flight <;> cases hparty
    · cases hparty

end Isolation

theorem cache_isolated (env : Env) (actions : List Action) :
    Isolated env (run env .start actions) := by
  obtain ⟨hw, ht⟩ := traced_reachable env actions
  exact ht.isolated hw

section Sample

/-- The second call renews the entry that it matches in its language and moves it to its own region,
where the third call finds it. -/
def rekeyedRun : List Action :=
  [callAt 0 [("Accept-Language", "en"), ("X-Region", "ap")], proceed 0,
    answer 0 200 [("Cache-Control", "max-age=1"), ("Vary", "Accept-Language")] [120], proceed 0,
    proceed 0, callAt 1 [("Accept-Language", "en"), ("X-Region", "eu")], proceed 1,
    answer 1 304 [("Cache-Control", "max-age=20"), ("Vary", "X-Region")] [], proceed 1, proceed 1,
    callAt 1 [("Accept-Language", "en"), ("X-Region", "eu")], proceed 2]

/-- Above 2^53 only even numbers are floats. -/
def coarseFloats : Floats where
  nearest q := if q ≤ 2 ^ 53 then q else ((2 * ⌊q / 2⌋ : Int) : ℚ)
  nearest_mono := by
    intro a b hab
    by_cases hb : b ≤ 2 ^ 53
    · rw [if_pos hb, if_pos (hab.trans hb)]
      exact WithTop.coe_le_coe.mpr hab
    · rw [if_neg hb]
      split
      · rename_i ha
        have hfloor : (2 ^ 52 : Int) ≤ ⌊b / 2⌋ := by
          rw [Int.le_floor]
          push_cast
          linarith [not_le.mp hb]
        have hcast : ((2 ^ 52 : Int) : ℚ) ≤ (⌊b / 2⌋ : Int) := Int.cast_le.mpr hfloor
        push_cast at hcast ⊢
        refine WithTop.coe_le_coe.mpr ?_
        linarith
      · have hfloor : ⌊a / 2⌋ ≤ ⌊b / 2⌋ := Int.floor_le_floor (by linarith)
        refine WithTop.coe_le_coe.mpr (Int.cast_le.mpr ?_)
        omega
  nearest_nat n hn := by
    have hcast : (n : ℚ) ≤ 2 ^ 53 := by exact_mod_cast hn
    rw [if_pos hcast]

/-- A revalidation of an entry whose age no float holds. -/
def agedRun : List Action :=
  [callAt 0 [], proceed 0,
    answer 0 200 [("Cache-Control", "max-age=1"), ("Age", "9007199254740993")] [120], proceed 0,
    proceed 0, callAt 0 [], proceed 1, answer 1 304 [("Age", "0")] []]

def coarseEnv : Env := ⟨asciiData, coarseFloats⟩

theorem not_contacted_of {s : State} {i : Nat} (h : (s.log.all fun x => x.call != i) = true) :
    ¬ Contacted s.log i := by
  rintro ⟨x, hx, hcall⟩
  have hne := List.all_eq_true.mp h x hx
  rw [hcall] at hne
  simp at hne

def Phase.updated : Phase → Option Entry
  | .storing updated _ => updated
  | _ => none

theorem updated_of {p : Phase} {e : Entry} (h : p.updated = some e) :
    ∃ b, p = .storing (some e) b := by
  unfold Phase.updated at h
  split at h
  · rename_i b
    exact ⟨b, by rw [h]⟩
  · cases h

def ReturnsUnstorable (env : Env) (s : State) : Prop :=
  ∃ i c b flight x, Returned s i c b flight ∧ ¬ Contacted s.log i ∧ s.log[b.origin]? = some x ∧
    Forbidden env x

def ReturnsOtherVariant (s : State) : Prop :=
  ∃ i c b e x name, Returned s i c b none ∧ ¬ Contacted s.log i ∧ c.entry = some e ∧
    s.log[b.origin]? = some x ∧ name ∈ e.vary ∧ c.request.value name ≠ x.request.value name

def LowersAge (s : State) : Prop :=
  ∃ (i : Nat) (c : Call) (e e' : Entry) (b : Body) (y : Exchange) (r : Response),
    s.calls[i]? = some c ∧ c.entry = some e ∧ c.phase = .storing (some e') b ∧
      s.log[e'.renewed]? = some y ∧ y.received = .ok r ∧ r.status = 304 ∧ e'.age < e.age

theorem coalescedRun_unstorable : ReturnsUnstorable sampleEnv (run sampleEnv .start coalescedRun) := by
  have hreturned : ((run sampleEnv .start coalescedRun).calls[1]?.bind fun c => c.phase.returned) =
      some (⟨[120], 0⟩, some 0) := by decide +kernel
  have hx : ((run sampleEnv .start coalescedRun).log[0]?.map fun x => x.forbidden sampleEnv) =
      some true := by decide +kernel
  have hcontact : ((run sampleEnv .start coalescedRun).log.all fun x => x.call != 1) = true := by
    decide +kernel
  revert hreturned hx hcontact
  generalize run sampleEnv .start coalescedRun = s
  intro hreturned hx hcontact
  obtain ⟨c, hc⟩ := returned_of hreturned
  obtain ⟨x, hlog, hforbidden⟩ := Option.map_eq_some_iff.mp hx
  exact ⟨1, c, ⟨[120], 0⟩, some 0, x, hc, not_contacted_of hcontact, hlog, forbidden_of hforbidden⟩

theorem rekeyedRun_variant : ReturnsOtherVariant (run sampleEnv .start rekeyedRun) := by
  have hreturned : ((run sampleEnv .start rekeyedRun).calls[2]?.bind fun c => c.phase.returned) =
      some (⟨[120], 0⟩, none) := by decide +kernel
  have hcall : ((run sampleEnv .start rekeyedRun).calls[2]?.map fun c =>
      (c.entry.map Entry.vary, c.request.value "x-region".toList)) =
        some (some ["x-region".toList], "eu".toList) := by decide +kernel
  have hx : ((run sampleEnv .start rekeyedRun).log[0]?.map fun x =>
      x.request.value "x-region".toList) = some "ap".toList := by decide +kernel
  have hcontact : ((run sampleEnv .start rekeyedRun).log.all fun x => x.call != 2) = true := by
    decide +kernel
  revert hreturned hcall hx hcontact
  generalize run sampleEnv .start rekeyedRun = s
  intro hreturned hcall hx hcontact
  obtain ⟨c, hc⟩ := returned_of hreturned
  rw [hc.1] at hcall
  obtain ⟨hentry, hregion⟩ := Prod.mk.inj (Option.some.inj hcall)
  obtain ⟨e, he, hvary⟩ := Option.map_eq_some_iff.mp hentry
  obtain ⟨x, hlog, hother⟩ := Option.map_eq_some_iff.mp hx
  refine ⟨2, c, ⟨[120], 0⟩, e, x, "x-region".toList, hc, not_contacted_of hcontact, he, hlog, ?_, ?_⟩
  · rw [hvary]
    exact List.mem_singleton_self _
  · rw [hregion, hother]
    decide

theorem agedRun_lowers : LowersAge (run coarseEnv .start agedRun) := by
  have hcall : ((run coarseEnv .start agedRun).calls[1]?.map fun c =>
      (c.entry.map Entry.age, c.phase.updated.map fun e => (e.age, e.renewed))) =
        some (some 9007199254740993, some (9007199254740992, 1)) := by decide +kernel
  have hlog : ((run coarseEnv .start agedRun).log[1]?.bind fun y =>
      y.received.toOption.map Response.status) = some 304 := by decide +kernel
  revert hcall hlog
  generalize run coarseEnv .start agedRun = s
  intro hcall hlog
  obtain ⟨c, hc, hages⟩ := Option.map_eq_some_iff.mp hcall
  obtain ⟨hold, hnew⟩ := Prod.mk.inj hages
  obtain ⟨e, he, hage⟩ := Option.map_eq_some_iff.mp hold
  obtain ⟨e', hupdated, hage'⟩ := Option.map_eq_some_iff.mp hnew
  obtain ⟨hage', hrenewed⟩ := Prod.mk.inj hage'
  obtain ⟨b, hphase⟩ := updated_of hupdated
  obtain ⟨y, hy, hr⟩ := Option.bind_eq_some_iff.mp hlog
  obtain ⟨r, hr, hstatus⟩ := Option.map_eq_some_iff.mp hr
  have hreceived : y.received = .ok r := by
    cases hy' : y.received with
    | error f =>
      rw [hy'] at hr
      cases hr
    | ok r' =>
      rw [hy'] at hr
      cases hr
      rfl
  refine ⟨1, c, e, e', b, y, r, hc, he, hphase, ?_, hreceived, hstatus, by omega⟩
  rw [hrenewed]
  exact hy

/-- Three runs of the cache that the strict reading of isolation rules out. -/
theorem strict_isolation_fails :
    ReturnsUnstorable sampleEnv (run sampleEnv .start coalescedRun) ∧
      ReturnsOtherVariant (run sampleEnv .start rekeyedRun) ∧
      LowersAge (run coarseEnv .start agedRun) :=
  ⟨coalescedRun_unstorable, rekeyedRun_variant, agedRun_lowers⟩

end Sample

end Round5.SharedCache
