import LlmHardtest.Community.Leaks
set_option autoImplicit false

/-! The texts and settings of accepted bundles. -/

namespace Community
open Python
open Round5 (require_bind require_ok)

structure Printable (s : Str) : Prop where
  visible : strip s ≠ []
  printable : ∀ c ∈ s, 32 ≤ c.toNat

/-- Settings of which the keys say whether they are numbers. -/
structure Settings.Accepted (numeric : Str → Bool) (s : Settings) : Prop where
  texts : ∀ k t, (k, Setting.text t) ∈ s → numeric k = false ∧ Printable t
  numbers : ∀ k n, (k, Setting.number n) ∈ s →
    numeric k = true ∧ ∀ m, n = .int m → |m| < floatOverflow

def numericParameter (k : Str) : Bool := !decide (k = "reasoning_effort".toList)

structure Serving.Accepted (s : Serving) : Prop where
  scope : inNames ["same_host", "remote", "unreported"] s.scope = true
  os : ∀ o, s.os = some o → inNames systems o = true
  architecture : ∀ a, s.architecture = some a → Printable a

structure Identity.Accepted (i : Identity) : Prop where
  os : inNames systems i.environment.os = true
  architecture : Printable i.environment.architecture
  python : isVersion i.environment.python = true
  serving : i.serving.Accepted
  model : Printable i.model
  transport : inNames ["openai_compat", "codex_cli"] i.transport = true
  parameters : i.parameters.Accepted numericParameter
  publicMetadata : i.publicMetadata.Accepted (inNames metadataNumbers)

section Texts
variable {maximum : Nat} {message : String} {v : Json} {s : Str}

theorem checkedText_ok (h : checkedText maximum message v = .ok s) : v = .str s ∧ strip s ≠ [] := by
  unfold checkedText at h
  split at h
  · rename_i text t hpublic
    cases h
    refine ⟨rfl, fun hempty => ?_⟩
    rw [publicText, hempty] at hpublic
    simp at hpublic
  · cases h

theorem printable_of_allowed {k : Str} (hkey : keyAllowed k (.str s) = true) :
    ∀ c ∈ s, 32 ≤ c.toNat := by
  simp only [keyAllowed, Bool.and_eq_true, Bool.not_eq_true', Bool.or_eq_false_iff] at hkey
  intro c hc
  have hprivate := hkey.2.1
  simp only [privateString, Bool.or_eq_false_iff] at hprivate
  have hany := List.any_eq_false.mp hprivate.2 c hc
  simpa using hany

theorem checkedText_printable {k : Str} (hkey : keyAllowed k v = true)
    (h : checkedText maximum message v = .ok s) : Printable s := by
  obtain ⟨rfl, hvisible⟩ := checkedText_ok h
  exact ⟨hvisible, printable_of_allowed hkey⟩

theorem keyAllowed_field {fields : List (Str × Json)} {name : String}
    (hwalk : walkAllowed (.obj fields) = true) (h : Json.field fields name = v) (hv : v ≠ .null) :
    keyAllowed name.toList v = true ∧ walkAllowed v = true := by
  cases hl : fields.lookup name.toList with
  | none =>
    rw [Json.field, hl] at h
    exact absurd h.symm hv
  | some w =>
    rw [field_of_lookup hl] at h
    exact h ▸ walk_field hwalk hl

theorem printable_field {fields : List (Str × Json)} {name : String}
    (hwalk : walkAllowed (.obj fields) = true)
    (h : checkedText maximum message (Json.field fields name) = .ok s) : Printable s := by
  obtain ⟨hstr, _⟩ := checkedText_ok h
  exact checkedText_printable (keyAllowed_field hwalk rfl (by rw [hstr]; simp)).1 h

theorem memberOf_ok {names : List String} (h : memberOf names message v = .ok s) :
    inNames names s = true := by
  cases v with
  | str t =>
    rw [memberOf] at h
    split at h
    · rename_i hin
      cases h
      exact hin
    · cases h
  | null | bool | int | float | arr | obj => cases h

end Texts

section Models
variable {index schemaVersion : Nat} {v : Json}

theorem readServing_accepted {environment : Environment} {serving : Serving}
    (hwalk : walkAllowed v = true) (h : readServing index environment v = .ok serving) :
    serving.Accepted := by
  obtain ⟨fields, hfields, h⟩ := Failures.bind_eq_ok.mp h
  obtain rfl := asObject_ok hfields
  obtain ⟨_, h⟩ := require_bind.mp h
  obtain ⟨scope, hscope, h⟩ := Failures.bind_eq_ok.mp h
  obtain ⟨os, hos, h⟩ := Failures.bind_eq_ok.mp h
  obtain ⟨architecture, harchitecture, h⟩ := Failures.bind_eq_ok.mp h
  obtain ⟨_, h⟩ := require_bind.mp h
  obtain ⟨_, h⟩ := require_bind.mp h
  cases h
  refine ⟨memberOf_ok hscope, fun o ho => ?_, fun a ha => ?_⟩
  · dsimp only at ho
    subst ho
    cases hv : Json.field fields "os" with
    | str s =>
      rw [hv] at hos
      obtain ⟨t, ht, hos⟩ := Failures.bind_eq_ok.mp hos
      cases hos
      exact memberOf_ok ht
    | null | bool | int | float | arr | obj =>
      rw [hv] at hos
      cases hos
  · dsimp only at ha
    subst ha
    cases hv : Json.field fields "architecture" with
    | str s =>
      rw [hv] at harchitecture
      obtain ⟨t, ht, harchitecture⟩ := Failures.bind_eq_ok.mp harchitecture
      cases harchitecture
      exact checkedText_printable (keyAllowed_field hwalk hv (by simp)).1 ht
    | null | bool | int | float | arr | obj =>
      rw [hv] at harchitecture
      cases harchitecture

theorem readSettings_accepted {numeric : Str → Bool} {read : Str × Json → Outcome (Str × Setting)}
    {fields : List (Str × Json)} {settings : Settings}
    (hread : ∀ k w e, keyAllowed k w = true → read (k, w) = .ok e → Settings.Accepted numeric [e])
    (hwalk : walkAllowed (.obj fields) = true) (h : fields.mapM read = .ok settings) :
    settings.Accepted numeric := by
  have heach : ∀ e ∈ settings, Settings.Accepted numeric [e] := by
    intro e he
    obtain ⟨field, hfield, hfound⟩ := (Outcome.mapM_mem h).2 e he
    exact hread field.1 field.2 e (walk_mem hwalk hfield).1 hfound
  exact ⟨fun k t ht => (heach _ ht).texts k t (by simp), fun k n hn => (heach _ hn).numbers k n (by simp)⟩

theorem accepted_text {numeric : Str → Bool} {k s : Str} (hk : numeric k = false) (hs : Printable s) :
    Settings.Accepted numeric [(k, .text s)] := by
  constructor
  · intro k' t ht
    obtain ⟨rfl, hsame⟩ := Prod.mk.inj (List.mem_singleton.mp ht)
    cases hsame
    exact ⟨hk, hs⟩
  · intro k' n hn
    obtain ⟨_, hsame⟩ := Prod.mk.inj (List.mem_singleton.mp hn)
    cases hsame

theorem accepted_number {numeric : Str → Bool} {k : Str} {n : FiniteNum} (hk : numeric k = true)
    (hn : ∀ m, n = .int m → |m| < floatOverflow) : Settings.Accepted numeric [(k, .number n)] := by
  constructor
  · intro k' t ht
    obtain ⟨_, hsame⟩ := Prod.mk.inj (List.mem_singleton.mp ht)
    cases hsame
  · intro k' n' hn'
    obtain ⟨rfl, hsame⟩ := Prod.mk.inj (List.mem_singleton.mp hn')
    cases hsame
    exact ⟨hk, hn⟩

theorem readMetadata_accepted {k : Str} {e : Str × Setting} (hkey : keyAllowed k v = true)
    (h : readMetadata index (k, v) = .ok e) : Settings.Accepted (inNames metadataNumbers) [e] := by
  rw [readMetadata] at h
  split at h
  · rename_i hin
    obtain ⟨n, hn, h⟩ := Failures.bind_eq_ok.mp h
    cases h
    exact accepted_number hin (readNumber_ok hn).2
  · rename_i hout
    obtain ⟨s, hs, h⟩ := Failures.bind_eq_ok.mp h
    cases h
    exact accepted_text (by simpa using hout) (checkedText_printable hkey hs)

theorem readParameter_accepted {k : Str} {e : Str × Setting} (hkey : keyAllowed k v = true)
    (h : readParameter index (k, v) = .ok e) : Settings.Accepted numericParameter [e] := by
  rw [readParameter] at h
  split at h
  · rename_i heffort
    obtain ⟨s, hs, h⟩ := Failures.bind_eq_ok.mp h
    cases h
    have hk : numericParameter k = false := by
      rw [numericParameter, decide_eq_true heffort]
      rfl
    exact accepted_text hk (checkedText_printable hkey hs)
  · rename_i hother
    obtain ⟨n, hn, h⟩ := Failures.bind_eq_ok.mp h
    cases h
    have hk : numericParameter k = true := by
      rw [numericParameter, decide_eq_false hother]
      rfl
    exact accepted_number hk (readNumber_ok hn).2

structure Model.Accepted (m : Model) : Prop where
  publicName : Printable m.publicName
  transport : inNames ["openai_compat", "codex_cli"] m.transport = true
  serving : ∀ s, m.serving = some s → s.Accepted
  parameters : m.parameters.Accepted numericParameter
  publicMetadata : m.publicMetadata.Accepted (inNames metadataNumbers)

theorem since_some {β : Type} {first : Nat} {check : Outcome β} {b : β}
    (h : since first schemaVersion check = .ok (some b)) : check = .ok b := by
  rw [since] at h
  split at h
  · cases check with
    | error e => cases h
    | ok c =>
      cases h
      rfl
  · cases h

theorem readModel_accepted {rounds : List Int} {environment : Environment} {m : Model}
    (hwalk : walkAllowed v = true) (h : readModel index schemaVersion rounds environment v = .ok m) :
    m.Accepted := by
  obtain ⟨fields, hfields, h⟩ := Failures.bind_eq_ok.mp h
  obtain rfl := asObject_ok hfields
  obtain ⟨_, h⟩ := require_bind.mp h
  obtain ⟨publicName, hpublic, h⟩ := Failures.bind_eq_ok.mp h
  obtain ⟨transport, htransport, h⟩ := Failures.bind_eq_ok.mp h
  obtain ⟨scaffold, _, h⟩ := Failures.bind_eq_ok.mp h
  obtain ⟨serving, hserving, h⟩ := Failures.bind_eq_ok.mp h
  obtain ⟨roundEntries, _, h⟩ := Failures.bind_eq_ok.mp h
  obtain ⟨_, h⟩ := require_bind.mp h
  obtain ⟨results, _, h⟩ := Failures.bind_eq_ok.mp h
  obtain ⟨_, h⟩ := Outcome.unit_bind.mp h
  obtain ⟨_, h⟩ := Outcome.unit_bind.mp h
  obtain ⟨metadata, hmetadata, h⟩ := Failures.bind_eq_ok.mp h
  obtain ⟨publicMetadata, hmetaRead, h⟩ := Failures.bind_eq_ok.mp h
  obtain ⟨settings, hparameters, h⟩ := Failures.bind_eq_ok.mp h
  obtain ⟨parameters, hparamRead, h⟩ := Failures.bind_eq_ok.mp h
  cases h
  refine ⟨printable_field hwalk hpublic, memberOf_ok htransport, fun s hs => ?_, ?_, ?_⟩
  · dsimp only at hs
    subst hs
    have hread := since_some hserving
    have hnull : Json.field fields "serving_environment" ≠ .null := by
      intro hnull
      rw [hnull] at hread
      cases hread
    exact readServing_accepted (keyAllowed_field hwalk rfl hnull).2 hread
  · have hobject := itemsOf_ok hparameters
    have hinner := (keyAllowed_field hwalk hobject (by simp)).2
    exact readSettings_accepted (fun _ _ _ hkey he => readParameter_accepted hkey he) hinner hparamRead
  · have hobject := itemsOf_ok hmetadata
    have hinner := (keyAllowed_field hwalk hobject (by simp)).2
    exact readSettings_accepted (fun _ _ _ hkey he => readMetadata_accepted hkey he) hinner hmetaRead

theorem readModels_accepted {rounds : List Int} {environment : Environment} {items : List Json}
    {models : List Model} (hwalk : ∀ v ∈ items, walkAllowed v = true)
    (h : readModels schemaVersion rounds environment index items = .ok models) :
    ∀ m ∈ models, m.Accepted := by
  induction items generalizing index models with
  | nil =>
    cases h
    simp
  | cons v items ih =>
    obtain ⟨model, hmodel, h⟩ := Failures.bind_eq_ok.mp h
    obtain ⟨rest, hrest, h⟩ := Failures.bind_eq_ok.mp h
    cases h
    intro m hm
    rcases List.mem_cons.mp hm with rfl | hm
    · exact readModel_accepted (hwalk v (by simp)) hmodel
    · exact ih (fun v hv => hwalk v (by simp [hv])) hrest m hm

end Models

structure Bundle.Accepted (b : Bundle) : Prop where
  os : inNames systems b.environment.os = true
  architecture : Printable b.environment.architecture
  python : isVersion b.environment.python = true
  models : ∀ m ∈ b.models, m.Accepted

theorem validatePublicResult_accepted {h : Hashing} {payload : Json} {b : Bundle}
    (hv : validatePublicResult h payload = .ok b) : b.Accepted := by
  obtain ⟨fields, hfields, hv⟩ := Failures.bind_eq_ok.mp hv
  obtain rfl := asObject_ok hfields
  obtain ⟨_, hv⟩ := require_bind.mp hv
  split at hv
  · obtain ⟨_, hv⟩ := require_bind.mp hv
    obtain ⟨_, hv⟩ := require_bind.mp hv
    obtain ⟨computed, _, hv⟩ := Failures.bind_eq_ok.mp hv
    obtain ⟨_, hv⟩ := require_bind.mp hv
    obtain ⟨_, hv⟩ := Outcome.unit_bind.mp hv
    obtain ⟨benchmark, _, hv⟩ := Failures.bind_eq_ok.mp hv
    obtain ⟨environment, henvironment, hv⟩ := Failures.bind_eq_ok.mp hv
    obtain ⟨items, hitems, hv⟩ := Failures.bind_eq_ok.mp hv
    obtain ⟨_, hv⟩ := require_bind.mp hv
    obtain ⟨models, hmodels, hv⟩ := Failures.bind_eq_ok.mp hv
    obtain ⟨_, hv⟩ := require_bind.mp hv
    obtain ⟨hwalk, hv⟩ := require_bind.mp hv
    obtain ⟨_, hv⟩ := require_bind.mp hv
    cases hv
    have hmodelsWalk := (keyAllowed_field hwalk (asArray_ok hitems) (by simp)).2
    obtain ⟨inner, hinner, henvironment⟩ := Failures.bind_eq_ok.mp henvironment
    have hwalkInner := (keyAllowed_field hwalk (asObject_ok hinner) (by simp)).2
    obtain ⟨_, henvironment⟩ := require_bind.mp henvironment
    obtain ⟨os, hos, henvironment⟩ := Failures.bind_eq_ok.mp henvironment
    obtain ⟨architecture, harchitecture, henvironment⟩ := Failures.bind_eq_ok.mp henvironment
    split at henvironment
    · obtain ⟨hpython, henvironment⟩ := require_bind.mp henvironment
      cases henvironment
      exact ⟨memberOf_ok hos, printable_field hwalkInner harchitecture, hpython,
        readModels_accepted (walk_item hmodelsWalk) hmodels⟩
    · cases henvironment
  · cases hv
  · cases hv

theorem entries_accepted {h : Hashing} {b : Bundle} {es : List Entry} (hb : b.Accepted)
    (hes : entries h b = .ok es) : ∀ e ∈ es, e.identity.Accepted := by
  intro e he
  obtain ⟨m, hm, hmade⟩ := (Outcome.mapM_mem hes).2 e he
  obtain ⟨configuration, _, hmade⟩ := Failures.bind_eq_ok.mp hmade
  obtain ⟨identity, hidentity, hmade⟩ := Failures.bind_eq_ok.mp hmade
  cases hmade
  obtain ⟨serving, hserving, hidentity⟩ := Failures.bind_eq_ok.mp hidentity
  cases hidentity
  have hmodel := hb.models m hm
  refine ⟨hb.os, hb.architecture, hb.python, ?_, hmodel.publicName, hmodel.transport,
    hmodel.parameters, hmodel.publicMetadata⟩
  unfold normalizedServing at hserving
  split at hserving
  · cases hs : m.serving with
    | none =>
      rw [hs] at hserving
      cases hserving
    | some s =>
      rw [hs] at hserving
      cases hserving
      exact hmodel.serving _ hs
  · cases hserving
    have hscope : inNames ["same_host", "remote", "unreported"] "unreported".toList = true := by decide
    exact ⟨hscope, by simp, by simp⟩

section Register
variable {known configurations : List (ConfigurationId × Identity)} {es : List Entry}

theorem register_origin (h : register known es = .ok configurations)
    {id : ConfigurationId} {i : Identity} (hi : configurations.lookup id = some i) :
    known.lookup id = some i ∨ ∃ e ∈ es, e.configuration = id ∧ e.identity = i := by
  induction es generalizing known with
  | nil =>
    cases h
    exact .inl hi
  | cons e es ih =>
    rw [register] at h
    cases hknown : known.lookup e.configuration with
    | none =>
      rw [hknown] at h
      rcases ih h with hold | ⟨e', he', hfound⟩
      · rw [List.lookup_append] at hold
        cases hl : known.lookup id with
        | some j =>
          rw [hl] at hold
          exact .inl hold
        | none =>
          rw [hl, Option.none_or, List.lookup_cons] at hold
          split at hold
          · rename_i heq
            cases hold
            exact .inr ⟨e, by simp, (eq_of_beq heq).symm, rfl⟩
          · cases hold
      · exact .inr ⟨e', by simp [he'], hfound⟩
    | some previous =>
      rw [hknown] at h
      dsimp only at h
      split at h
      · rcases ih h with hold | ⟨e', he', hfound⟩
        · exact .inl hold
        · exact .inr ⟨e', by simp [he'], hfound⟩
      · cases h

end Register

/-- The rows of accepted bundles have accepted coordinates. -/
theorem aggregateSubmissions_accepted {h : Hashing} {u : UnicodeData} {sq : SquareRoot}
    {subs : List Bundle} {rows : List AggregateRow} (hsubs : ∀ b ∈ subs, b.Accepted)
    (hrows : aggregateSubmissions h u sq subs = .ok rows) : ∀ row ∈ rows, row.identity.Accepted := by
  obtain ⟨p, hp, hrows⟩ := Failures.bind_eq_ok.mp hrows
  obtain ⟨es, hes, hp⟩ := Failures.bind_eq_ok.mp hp
  obtain ⟨configurations, hreg, hp⟩ := Failures.bind_eq_ok.mp hp
  obtain ⟨groups, hgroups, hp⟩ := Failures.bind_eq_ok.mp hp
  cases hp
  obtain ⟨made, hmade, hrows⟩ := Failures.bind_eq_ok.mp hrows
  cases hrows
  intro row hrow
  obtain ⟨g, hg, hrow⟩ := (Outcome.mapM_mem hmade).2 row
    ((List.perm_insertionSort (rowLe u) made).mem_iff.mp hrow)
  have hlookup := (rowOf_ok hrow).2.1
  rcases register_origin hreg hlookup with hold | ⟨e, he, -, hidentity⟩
  · cases hold
  · obtain ⟨list, hlist, he⟩ := List.mem_flatten.mp he
    obtain ⟨b, hb, hbes⟩ := (Outcome.mapM_mem hes).2 list hlist
    exact hidentity ▸ entries_accepted (hsubs b hb) hbes e he

/-- Rows as an aggregate of accepted bundles has them. -/
structure Coherent (rows : List AggregateRow) : Prop where
  keys : (rows.map AggregateRow.key).Nodup
  accepted : ∀ row ∈ rows, row.identity.Accepted
  model : ∀ row ∈ rows, row.identity.model = row.key.model
  same : ∀ row ∈ rows, ∀ other ∈ rows, row.key.configuration = other.key.configuration →
    row.identity.same other.identity = true

theorem aggregateSubmissions_coherent {h : Hashing} {u : UnicodeData} {sq : SquareRoot}
    {subs : List Bundle} {rows : List AggregateRow} (hsubs : ∀ b ∈ subs, b.Accepted)
    (hrows : aggregateSubmissions h u sq subs = .ok rows) : Coherent rows := by
  obtain ⟨hkeys, hfor, -⟩ := aggregateSubmissions_rows hrows
  have hentry : ∀ row ∈ rows, ∃ b ∈ subs, ∃ es, entries h b = .ok es ∧ ∃ e ∈ es,
      e.configuration = row.key.configuration ∧ e.identity.model = row.key.model := by
    intro row hrow
    obtain ⟨b, hb, gs, hgs, hk⟩ := localsAt_ne_nil (hfor row hrow).observed
    obtain ⟨es, hes, he⟩ := contribution_entry hgs hk
    exact ⟨b, hb, es, hes, he⟩
  refine ⟨hkeys, aggregateSubmissions_accepted hsubs hrows, fun row hrow => ?_,
    fun row hrow other hother hconf => ?_⟩
  · obtain ⟨b, hb, es, hes, e, he, hec, hem⟩ := hentry row hrow
    have hsame := (hfor row hrow).identity b hb es hes e he hec
    rw [← hem, (Identity.same_iff.mp hsame).2.2.1]
  · obtain ⟨b, hb, es, hes, e, he, hec, -⟩ := hentry other hother
    have hown := (hfor other hother).identity b hb es hes e he hec
    have hcross := (hfor row hrow).identity b hb es hes e he (hec.trans hconf.symm)
    exact Identity.same_trans hcross (Identity.same_symm hown)

theorem Coherent.model_eq {rows : List AggregateRow} (hc : Coherent rows) {row other : AggregateRow}
    (hrow : row ∈ rows) (hother : other ∈ rows)
    (hconf : row.key.configuration = other.key.configuration) : row.key.model = other.key.model := by
  rw [← hc.model row hrow, ← hc.model other hother,
    (Identity.same_iff.mp (hc.same row hrow other hother hconf)).2.2.1]

end Community
