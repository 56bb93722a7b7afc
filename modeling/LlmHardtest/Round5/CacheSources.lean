import LlmHardtest.Round5.CacheFlights
set_option autoImplicit false

/-! Where the bodies of the shared cache come from: the exchange that delivered each of them, and the
exchange that last renewed each entry. -/

namespace Round5.SharedCache
open Python SingleFlight
open Failures (bind_eq_ok)

/-- The call `i` fetched the body in a 200 response of its own. -/
def Fetched (log : List Exchange) (i : Nat) (c : Call) (b : Body) : Prop :=
  ∃ x fields, log[b.origin]? = some x ∧ x.call = i ∧ x.url = c.url ∧ x.request = c.request ∧
    x.received = .ok ⟨200, fields, b.bytes⟩

/-- An entry of a URL: its body came in a 200 response whose policy allowed to store it, and the
request of that exchange, or of a later 304, gave it its values. -/
structure Stored (env : Env) (log : List Exchange) (url : Str) (e : Entry) : Prop where
  origin : ∃ x fields policy, log[e.body.origin]? = some x ∧ x.url = url ∧
    isSensitive x.request = false ∧ x.received = .ok ⟨200, fields, e.body.bytes⟩ ∧
    cachePolicy env.unicode fields = .ok (some policy)
  renewed : ∃ y r, log[e.renewed]? = some y ∧ y.url = url ∧ isSensitive y.request = false ∧
    y.received = .ok r ∧ (e.renewed = e.body.origin ∨ r.status = 304) ∧
    e.values = valuesOf e.vary y.request

/-- What the leader of a flight returns: what it fetched, or the body of the entry that it found. -/
def Led (log : List Exchange) (i : Nat) (c : Call) (b : Body) : Prop :=
  Fetched log i c b ∨ ∃ e, c.entry = some e ∧ b = e.body

def Contacted (log : List Exchange) (i : Nat) : Prop := ∃ x ∈ log, x.call = i

def Fresh (env : Env) (c : Call) (b : Body) : Prop :=
  ∃ e current, c.entry = some e ∧ b = e.body ∧ e.values = valuesOf e.vary c.request ∧
    currentAge env e c.now = .ok current ∧ current < (e.maxAge : ℚ)

/-- A renewal has not lowered the age that the entry had. -/
def Renewed (log : List Exchange) (c : Call) (e' : Entry) : Prop :=
  (∃ y r, log[e'.renewed]? = some y ∧ y.received = .ok r ∧ r.status = 200) ∨
    ∀ e, c.entry = some e → e.age ≤ 2 ^ 53 → e.age ≤ e'.age

def PhaseTraced (env : Env) (log : List Exchange) (i : Nat) (c : Call) : Phase → Prop
  | .ready | .waiting _ | .leading => isSensitive c.request = false
  | .sensitive => isSensitive c.request = true
  | .storing updated result => isSensitive c.request = false ∧ Contacted log i ∧
      Led log i c result ∧ ∀ e, updated = some e → Stored env log c.url e ∧ Renewed log c e
  | .landing outcome => isSensitive c.request = false ∧ Contacted log i ∧
      ∀ b, outcome = .ok b → Led log i c b
  | .done outcome none => ∀ b, outcome = .ok b →
      isSensitive c.request = true ∧ Fetched log i c b ∨
        isSensitive c.request = false ∧ Fresh env c b
  | .done outcome (some leader) => isSensitive c.request = false ∧
      (leader = i → Contacted log i ∧ ∀ b, outcome = .ok b → Led log i c b)

structure CallTraced (env : Env) (log : List Exchange) (i : Nat) (c : Call) : Prop where
  entry : ∀ e, c.entry = some e → Stored env log c.url e
  phase : PhaseTraced env log i c c.phase

structure Traced (env : Env) (s : State) : Prop where
  entries : ∀ url, ∀ e ∈ s.entries.at url, Stored env s.log url e
  calls : ∀ i c, s.calls[i]? = some c → CallTraced env s.log i c

/-! ## The log grows -/

section Growth
variable {env : Env} {log log' : List Exchange} {i : Nat} {c : Call} {b : Body} {e : Entry} {url : Str}

theorem getElem?_of_prefix (h : log <+: log') {n : Nat} {x : Exchange} (hx : log[n]? = some x) :
    log'[n]? = some x := by
  obtain ⟨more, rfl⟩ := h
  obtain ⟨hlt, -⟩ := List.getElem?_eq_some_iff.mp hx
  rw [List.getElem?_append_left hlt, hx]

theorem Fetched.mono (h : log <+: log') (hb : Fetched log i c b) : Fetched log' i c b := by
  obtain ⟨x, fields, hx, hrest⟩ := hb
  exact ⟨x, fields, getElem?_of_prefix h hx, hrest⟩

theorem Stored.mono (h : log <+: log') (he : Stored env log url e) : Stored env log' url e := by
  obtain ⟨⟨x, fields, policy, hx, horigin⟩, ⟨y, r, hy, hrenewed⟩⟩ := he
  exact ⟨⟨x, fields, policy, getElem?_of_prefix h hx, horigin⟩,
    ⟨y, r, getElem?_of_prefix h hy, hrenewed⟩⟩

theorem Led.mono (h : log <+: log') (hb : Led log i c b) : Led log' i c b := by
  rcases hb with hb | hb
  · exact .inl (hb.mono h)
  · exact .inr hb

theorem Contacted.mono (h : log <+: log') (hi : Contacted log i) : Contacted log' i := by
  obtain ⟨x, hx, hcall⟩ := hi
  exact ⟨x, h.subset hx, hcall⟩

theorem Renewed.mono (h : log <+: log') (he : Renewed log c e) : Renewed log' c e := by
  rcases he with ⟨y, r, hy, hrest⟩ | he
  · exact .inl ⟨y, r, getElem?_of_prefix h hy, hrest⟩
  · exact .inr he

theorem PhaseTraced.mono (h : log <+: log') {p : Phase} (hp : PhaseTraced env log i c p) :
    PhaseTraced env log' i c p := by
  cases p with
  | ready | sensitive | waiting | leading => exact hp
  | storing updated result =>
    obtain ⟨hplain, hcontact, hled, hupdated⟩ := hp
    exact ⟨hplain, hcontact.mono h, hled.mono h,
      fun e he => ⟨(hupdated e he).1.mono h, (hupdated e he).2.mono h⟩⟩
  | landing outcome =>
    obtain ⟨hplain, hcontact, hled⟩ := hp
    exact ⟨hplain, hcontact.mono h, fun b hb => (hled b hb).mono h⟩
  | done outcome flight =>
    cases flight with
    | none =>
      intro b hb
      rcases hp b hb with ⟨hsensitive, hfetched⟩ | hfresh
      · exact .inl ⟨hsensitive, hfetched.mono h⟩
      · exact .inr hfresh
    | some leader =>
      refine ⟨hp.1, fun hleader => ?_⟩
      obtain ⟨hcontact, hled⟩ := hp.2 hleader
      exact ⟨hcontact.mono h, fun b hb => (hled b hb).mono h⟩

theorem CallTraced.mono (h : log <+: log') (hc : CallTraced env log i c) : CallTraced env log' i c :=
  ⟨fun e he => (hc.entry e he).mono h, hc.phase.mono h⟩

end Growth

/-! ## What the helpers return -/

section Helpers
variable {env : Env} {e : Entry} {now : ℚ}

/-- An age that a float holds exactly has not shrunk when it is taken as the least age. -/
theorem age_le_ceiling {current : WithTop ℚ} {least : Nat} (hage : e.age ≤ 2 ^ 53)
    (hcurrent : currentAge env e now = .ok current) (hleast : ceiling current = .ok least) :
    e.age ≤ least := by
  unfold currentAge at hcurrent
  split at hcurrent
  · cases hcurrent
  · cases hcurrent
    have hexact : env.floats.nearest (e.age : ℚ) = ((e.age : ℚ) : WithTop ℚ) :=
      env.floats.nearest_nat e.age hage
    have hsum : ((e.age : ℚ) : WithTop ℚ) ≤ env.floats.nearest (e.age : ℚ) +
        max 0 (env.floats.nearest (now - e.storedAt)) := by
      rw [hexact]
      exact le_add_of_nonneg_right (le_max_left _ _)
    revert hleast hsum
    generalize env.floats.nearest (e.age : ℚ) + max 0 (env.floats.nearest (now - e.storedAt)) = sum
    intro hleast hsum
    cases sum with
    | top => cases hleast
    | coe q =>
      have hround : ((e.age : ℚ) : WithTop ℚ) ≤ env.floats.nearest q := by
        rw [← hexact]
        exact env.floats.nearest_mono (WithTop.coe_le_coe.mp hsum)
      change ceiling (env.floats.nearest q) = .ok least at hleast
      cases hq : env.floats.nearest q with
      | top =>
        rw [hq] at hleast
        cases hleast
      | coe q' =>
        rw [hq] at hleast hround
        cases hleast
        have hle : (e.age : ℚ) ≤ q' := WithTop.coe_le_coe.mp hround
        have hceil : (e.age : Int) ≤ ⌈q'⌉ := by
          have hcast : ((e.age : Int) : ℚ) ≤ (⌈q'⌉ : Int) := by
            push_cast
            exact hle.trans (Int.le_ceil q')
          exact_mod_cast hcast
        omega

theorem entryOf_ok {body : Body} {fields : Fields} {request : Dict} {least : WithTop ℚ} {n : Nat}
    (h : entryOf env body fields request now least n = .ok (some e)) :
    ∃ policy floor, cachePolicy env.unicode fields = .ok (some policy) ∧
      ceiling least = .ok floor ∧ e.body = body ∧ e.vary = policy.vary ∧
      e.values = valuesOf e.vary request ∧ e.renewed = n ∧ floor ≤ e.age := by
  obtain ⟨policy, hpolicy, h⟩ := bind_eq_ok.mp h
  cases policy with
  | none => cases h
  | some policy =>
    obtain ⟨stated, -, h⟩ := bind_eq_ok.mp h
    obtain ⟨floor, hfloor, h⟩ := bind_eq_ok.mp h
    cases h
    exact ⟨policy, floor, hpolicy, hfloor, rfl, rfl, rfl, rfl, le_max_right _ _⟩

variable {c : Call} {n : Nat} {r : Response} {updated : Option Entry} {result : Body}

theorem check_ok {ok : Bool} {message : String} (h : check ok message = .ok ()) : ok = true := by
  unfold check at h
  split at h
  · assumption
  · cases h

theorem process_ok (h : c.process env n r = .ok (updated, result)) :
    (r.status = 304 ∧ ∃ e oldAge, c.entry = some e ∧ result = e.body ∧
      currentAge env e c.now = .ok oldAge ∧ entryOf env e.body (mergeFields e.fields r.fields)
        c.request c.now oldAge n = .ok updated) ∨
    (r.status = 200 ∧ result = ⟨r.body, n⟩ ∧
      entryOf env ⟨r.body, n⟩ r.fields c.request c.now 0 n = .ok updated) := by
  unfold Call.process at h
  split at h
  · rename_i hstatus
    refine .inl ⟨hstatus, ?_⟩
    split at h
    · cases h
    · rename_i e he
      obtain ⟨_, -, h⟩ := bind_eq_ok.mp h
      obtain ⟨oldAge, hage, h⟩ := bind_eq_ok.mp h
      obtain ⟨updated', hupdated, h⟩ := bind_eq_ok.mp h
      cases h
      exact ⟨e, oldAge, he, rfl, hage, hupdated⟩
  · split at h
    · rename_i hstatus
      obtain ⟨updated', hupdated, h⟩ := bind_eq_ok.mp h
      cases h
      exact .inr ⟨hstatus, rfl, hupdated⟩
    · cases h

theorem fallback_ok {raised : Failure} {b : Body} (h : c.fallback env raised = .ok b) :
    ∃ e, c.entry = some e ∧ b = e.body := by
  unfold Call.fallback at h
  split at h
  · cases h
  · rename_i e he
    split at h
    · cases h
    · obtain ⟨current, -, h⟩ := bind_eq_ok.mp h
      split at h
      · cases h
        exact ⟨e, he, rfl⟩
      · cases h

theorem uncached_ok {reply : Reply} {b : Body} (h : uncached env n reply = .ok b) :
    ∃ fields, received env reply = .ok ⟨200, fields, b.bytes⟩ ∧ b.origin = n := by
  obtain ⟨r, hr, h⟩ := bind_eq_ok.mp h
  obtain ⟨_, hstatus, h⟩ := bind_eq_ok.mp h
  cases h
  have h200 := of_decide_eq_true (check_ok hstatus)
  refine ⟨r.fields, ?_, rfl⟩
  rw [hr, ← h200]

theorem matching_some {entries : Entries} {url : Str} {request : Dict}
    (h : matching entries url request = some e) :
    e ∈ entries.at url ∧ e.values = valuesOf e.vary request := by
  have hvalues := List.find?_some h
  exact ⟨List.mem_of_find?_eq_some h, eq_of_beq hvalues⟩

theorem mem_replaceIn {entries : List Entry} {old new : Option Entry}
    (h : e ∈ replaceIn entries old new) : e ∈ entries ∨ new = some e := by
  have hkept : ∀ {e}, e ∈ replaceIn entries old none → e ∈ entries := by
    intro e he
    cases old with
    | none => exact he
    | some old => exact List.mem_of_mem_eraseP he
  cases new with
  | none => exact .inl (hkept h)
  | some new =>
    rcases List.mem_append.mp h with h | h
    · exact .inl (hkept (List.mem_of_mem_filter h))
    · exact .inr (congrArg some (List.mem_singleton.mp h).symm)

theorem lookup_cons_ite {β : Type} {k : Str} {e : Str × β} {d : List (Str × β)} :
    (e :: d).lookup k = if k = e.1 then some e.2 else d.lookup k := by
  rw [List.lookup_cons]
  by_cases hk : k = e.1
  · rw [if_pos hk, beq_iff_eq.mpr hk]
  · rw [if_neg hk, beq_eq_false_iff_ne.mpr hk]

theorem lookup_dictSet {β : Type} {k k' : Str} {v : β} {d : List (Str × β)} :
    (dictSet k v d).lookup k' = if k' = k then some v else d.lookup k' := by
  induction d with
  | nil => rw [dictSet, lookup_cons_ite]
  | cons e d ih =>
    rw [dictSet]
    by_cases he : e.1 = k
    · rw [if_pos he, lookup_cons_ite, lookup_cons_ite, he]
      split <;> rfl
    · rw [if_neg he, lookup_cons_ite, lookup_cons_ite, ih]
      by_cases hk : k' = e.1
      · rw [if_pos hk, if_pos hk, if_neg (by rw [hk]; exact he)]
      · rw [if_neg hk, if_neg hk]

theorem lookup_filter_ne {β : Type} {k k' : Str} {d : List (Str × β)} :
    (d.filter fun e => e.1 ≠ k).lookup k' = if k' = k then none else d.lookup k' := by
  induction d with
  | nil => simp
  | cons e d ih =>
    rw [List.filter_cons, lookup_cons_ite]
    by_cases he : e.1 = k
    · rw [if_neg (by simpa using he), ih, he]
      split <;> rfl
    · rw [if_pos (by simpa using he), lookup_cons_ite, ih]
      by_cases hk : k' = e.1
      · rw [if_pos hk, if_pos hk, if_neg (by rw [hk]; exact he)]
      · rw [if_neg hk, if_neg hk]

theorem mem_replace {entries : Entries} {url url' : Str} {old new : Option Entry}
    (h : e ∈ (replace entries url old new).at url') :
    e ∈ entries.at url' ∨ url' = url ∧ new = some e := by
  simp only [replace] at h
  split at h
  · rw [Entries.at, lookup_filter_ne] at h
    split at h
    · cases h
    · exact .inl h
  · rw [Entries.at, lookup_dictSet] at h
    split at h
    · rename_i hurl
      rcases mem_replaceIn h with h | h
      · exact .inl (hurl ▸ h)
      · exact .inr ⟨hurl, h⟩
    · exact .inl h

end Helpers

/-! ## One section -/

section Sections
variable {env : Env} {s s' : State} {i : Nat} {c c' : Call}

theorem Traced.set (ht : Traced env s) (hcalls : s'.calls = s.calls.set i c')
    (hlog : s.log <+: s'.log) (hc : CallTraced env s'.log i c')
    (hentries : ∀ url, ∀ e ∈ s'.entries.at url,
      e ∈ s.entries.at url ∨ Stored env s'.log url e) : Traced env s' where
  entries url e he := by
    rcases hentries url e he with h | h
    · exact (ht.entries url e h).mono hlog
    · exact h
  calls j d hd := by
    rw [hcalls, List.getElem?_set] at hd
    split at hd
    · rename_i hij
      subst hij
      split at hd
      · cases hd
        exact hc
      · cases hd
    · exact (ht.calls j d hd).mono hlog

theorem Traced.put (ht : Traced env s) (hcalls : s'.calls = s.calls.set i c')
    (hlog : s'.log = s.log) (hentries : s'.entries = s.entries) (hc : CallTraced env s.log i c') :
    Traced env s' := by
  refine ht.set hcalls (hlog ▸ List.prefix_rfl) (hlog ▸ hc) fun url e he => ?_
  rw [hentries] at he
  exact .inl he

theorem Traced.board (ht : Traced env s) (hplain : isSensitive c.request = false)
    (hentry : ∀ e, c.entry = some e → Stored env s.log c.url e) : Traced env (s.board i c) := by
  unfold State.board
  split
  · exact ht.put rfl rfl rfl ⟨hentry, hplain⟩
  · exact ht.put rfl rfl rfl ⟨hentry, hplain⟩

theorem Traced.lookup (ht : Traced env s) (hplain : isSensitive c.request = false)
    (hentry : ∀ e, c.entry = some e → Stored env s.log c.url e) :
    Traced env (s.lookup env i c) := by
  unfold State.lookup
  split
  · exact ht.board hplain hentry
  · rename_i e he
    obtain ⟨hmem, hvalues⟩ := matching_some he
    have hstored : ∀ e', some e = some e' → Stored env s.log c.url e' := by
      rintro e' ⟨⟩
      exact ht.entries c.url e hmem
    split
    · exact ht.put rfl rfl rfl ⟨hstored, by rintro b ⟨⟩⟩
    · rename_i current hcurrent
      split
      · rename_i hlt
        refine ht.put rfl rfl rfl ⟨hstored, ?_⟩
        rintro b ⟨⟩
        exact .inr ⟨hplain, e, current, rfl, rfl, hvalues, hcurrent, hlt⟩
      · exact ht.board hplain hstored

theorem State.logged {sent : Dict} {reply : Reply} : (s.exchange env i c sent reply).log[s.log.length]? =
    some ⟨i, c.url, c.request, sent, received env reply⟩ := by
  rw [State.exchange, List.getElem?_append_right le_rfl, Nat.sub_self]
  rfl

theorem contacted_exchange {sent : Dict} {reply : Reply} :
    Contacted (s.exchange env i c sent reply).log i :=
  ⟨_, List.mem_of_getElem? State.logged, rfl⟩

theorem answered_traced {log : List Exchange} {n : Nat} {x : Exchange} {reply : Reply}
    (hplain : isSensitive c.request = false)
    (hentry : ∀ e, c.entry = some e → Stored env log c.url e) (hcontact : Contacted log i)
    (hx : log[n]? = some x) (hcall : x.call = i) (hurl : x.url = c.url)
    (hrequest : x.request = c.request) (hreceived : x.received = received env reply) :
    PhaseTraced env log i c (c.answered env n reply) := by
  unfold Call.answered
  split
  · refine ⟨hplain, hcontact, fun b hb => .inr ?_⟩
    exact fallback_ok hb
  · exact ⟨hplain, hcontact, by rintro b ⟨⟩⟩
  · rename_i value
    split
    · rename_i updated result hprocess
      obtain ⟨r, hr, hprocess⟩ := bind_eq_ok.mp hprocess
      have hxr : x.received = .ok r := hreceived.trans hr
      have hxplain : isSensitive x.request = false := hrequest ▸ hplain
      rcases process_ok hprocess with ⟨hstatus, e, oldAge, he, rfl, hage, hupdated⟩ |
        ⟨hstatus, rfl, hupdated⟩
      · refine ⟨hplain, hcontact, .inr ⟨e, he, rfl⟩, ?_⟩
        rintro e' rfl
        obtain ⟨policy, floor, -, hfloor, hbody, -, hvalues, hn, hle⟩ := entryOf_ok hupdated
        have horigin := (hentry e he).origin
        rw [← hbody] at horigin
        refine ⟨⟨horigin, x, r, ?_, hurl, hxplain, hxr, .inr hstatus, ?_⟩, .inr ?_⟩
        · rw [hn, hx]
        · rw [hvalues, hrequest]
        · intro e₀ he₀ hexact
          rw [he] at he₀
          cases he₀
          exact (age_le_ceiling hexact hage hfloor).trans hle
      · have hfetched : x.received = .ok ⟨200, r.fields, r.body⟩ := by rw [hxr, ← hstatus]
        refine ⟨hplain, hcontact, .inl ⟨x, r.fields, hx, hcall, hurl, hrequest, hfetched⟩, ?_⟩
        rintro e' rfl
        obtain ⟨policy, floor, hpolicy, -, hbody, -, hvalues, hn, -⟩ := entryOf_ok hupdated
        refine ⟨⟨⟨x, r.fields, policy, ?_, hurl, hxplain, ?_, hpolicy⟩, x, r, ?_, hurl, hxplain, hxr,
          .inl ?_, ?_⟩, .inl ⟨x, r, ?_, hxr, hstatus⟩⟩
        · rw [hbody, hx]
        · rw [hbody, hfetched]
        · rw [hn, hx]
        · rw [hn, hbody]
        · rw [hvalues, hrequest]
        · rw [hn, hx]
    · exact ⟨hplain, hcontact, by rintro b ⟨⟩⟩

theorem Traced.turn {reply : Reply} (hw : Sound s.world) (ht : Traced env s)
    (hi : s.calls[i]? = some c) (hs : s.turn env i c reply = some s') : Traced env s' := by
  have hc := ht.calls i c hi
  have hphase := hc.phase
  unfold State.turn at hs
  split at hs
  · rename_i hp
    rw [hp] at hphase
    cases hs
    exact ht.lookup hphase hc.entry
  · rename_i hp
    rw [hp] at hphase
    cases hs
    refine ht.set rfl (List.prefix_append _ _) ⟨fun e he => ?_, fun b hb => .inl ⟨hphase, ?_⟩⟩
      fun url e he => .inl he
    · exact (hc.entry e he).mono (List.prefix_append _ _)
    · obtain ⟨fields, hreceived, horigin⟩ := uncached_ok hb
      refine ⟨⟨i, c.url, c.request, c.wire, received env reply⟩, fields, ?_, rfl, rfl, rfl,
        hreceived⟩
      rw [horigin]
      exact State.logged
  · rename_i leader hp
    rw [hp] at hphase
    obtain ⟨outcome, -, rfl⟩ := Option.map_eq_some_iff.mp hs
    refine ht.put rfl rfl rfl ⟨hc.entry, hphase, ?_⟩
    rintro rfl
    -- A call that waits for itself would have to be leading or done.
    have hparty : s.world.party leader = c.phase.party c.key := State.party_of hi
    rw [hp] at hparty
    rcases hw.waits leader c.key leader hparty with h | ⟨r, h⟩
    · rw [hparty] at h
      cases h
    · rw [hparty] at h
      cases h
  · rename_i hp
    rw [hp] at hphase
    cases hs
    have hentry : ∀ e, c.entry = some e →
        Stored env (s.exchange env i c c.outbound reply).log c.url e :=
      fun e he => (hc.entry e he).mono (List.prefix_append _ _)
    exact ht.set rfl (List.prefix_append _ _) ⟨hentry, answered_traced hphase hentry
      contacted_exchange State.logged rfl rfl rfl rfl⟩ fun url e he => .inl he
  · rename_i updated result hp
    rw [hp] at hphase
    cases hs
    obtain ⟨hplain, hcontact, hled, hupdated⟩ := hphase
    refine ht.set rfl List.prefix_rfl ⟨hc.entry, hplain, hcontact, ?_⟩ fun url e he => ?_
    · rintro b ⟨⟩
      exact hled
    · rcases mem_replace he with he | ⟨rfl, hnew⟩
      · exact .inl he
      · exact .inr (hupdated e hnew).1
  · rename_i outcome hp
    rw [hp] at hphase
    cases hs
    obtain ⟨hplain, hcontact, hled⟩ := hphase
    exact ht.put rfl rfl rfl ⟨hc.entry, hplain, fun _ => ⟨hcontact, hled⟩⟩
  · cases hs

theorem Traced.call {c : Call} (ht : Traced env s) (hc : CallTraced env s.log s.calls.length c) :
    Traced env { s with calls := s.calls ++ [c] } where
  entries := ht.entries
  calls j d hd := by
    by_cases hj : j < s.calls.length
    · rw [List.getElem?_append_left hj] at hd
      exact ht.calls j d hd
    · rw [List.getElem?_append_right (by omega)] at hd
      obtain ⟨hlt, -⟩ := List.getElem?_eq_some_iff.mp hd
      have hlen : j = s.calls.length := by
        simp only [List.length_cons, List.length_nil] at hlt
        omega
      subst hlen
      rw [Nat.sub_self] at hd
      cases hd
      exact hc

theorem Traced.step {a : Action} (hw : Sound s.world) (ht : Traced env s)
    (hs : s.step env a = some s') : Traced env s' := by
  cases a with
  | call url headers clock =>
    cases hs
    refine ht.call ?_
    split
    · rename_i c hb
      obtain ⟨hentry, hphase⟩ := begin_ok hb
      refine ⟨by rw [hentry]; rintro e ⟨⟩, ?_⟩
      rw [hphase]
      split
      · rename_i hsensitive
        exact hsensitive
      · rename_i hplain
        exact eq_false_of_ne_true hplain
    · exact ⟨by rintro e ⟨⟩, by rintro b ⟨⟩⟩
  | turn i reply =>
    obtain ⟨c, hi, hturn⟩ := Option.bind_eq_some_iff.mp hs
    exact ht.turn hw hi hturn

theorem Traced.start : Traced env .start where
  entries url e he := by
    cases he
  calls i c hc := by
    cases hc

theorem traced_run (actions : List Action) (hw : Sound s.world) (ht : Traced env s) :
    Sound (run env s actions).world ∧ Traced env (run env s actions) := by
  refine run_induction (P := fun s => Sound s.world ∧ Traced env s) actions ⟨hw, ht⟩ ?_
  rintro s a s' ⟨hw, ht⟩ hs
  exact ⟨sound_step hw hs, ht.step hw hs⟩

/-- Every reachable state is sound and traced. -/
theorem traced_reachable (env : Env) (actions : List Action) :
    Sound (run env .start actions).world ∧ Traced env (run env .start actions) :=
  traced_run actions .start .start

end Sections

end Round5.SharedCache
