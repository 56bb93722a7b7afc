import LlmHardtest.Community.DatabaseObservations
import LlmHardtest.Community.SoundRates
import LlmHardtest.Round5.Reordered
set_option autoImplicit false

/-! What the rows of the database tell: of a configuration its identity, of the rounds of a bundle
what the bundle itself tells of them. -/

namespace Community
open Python
open Round5 (mapM_perm)

section Settings

theorem lookup_sort {β : Type} (l : List (Str × β)) (k : Str) :
    (l.insertionSort fun a b => a.1 ≤ b.1).lookup k = l.lookup k := by
  have hinsert : ∀ (e : Str × β) (es : List (Str × β)),
      (es.orderedInsert (fun a b => a.1 ≤ b.1) e).lookup k = (e :: es).lookup k := by
    intro e es
    induction es with
    | nil => rfl
    | cons d es ih =>
      rw [List.orderedInsert_cons]
      split
      · rfl
      · rename_i hlt
        rw [List.lookup_cons, ih, List.lookup_cons, List.lookup_cons, List.lookup_cons]
        cases hd : k == d.1 with
        | false => rfl
        | true =>
          have hne : (k == e.1) = false := by
            rw [beq_eq_false_iff_ne]
            rintro rfl
            exact hlt (le_of_eq (eq_of_beq hd))
          rw [hne]
  induction l with
  | nil => rfl
  | cons e es ih =>
    rw [List.insertionSort_cons, hinsert, List.lookup_cons, List.lookup_cons, ih]

@[simp] theorem Setting.json_sortKeys (s : Setting) : s.json.sortKeys = s.json := by
  cases s with
  | text s => rfl
  | number n => cases n <;> rfl

@[simp] theorem settingOf_json (s : Setting) : settingOf s.json = .ok s := by
  cases s with
  | text s => rfl
  | number n => cases n <;> rfl

theorem Settings.json_sortKeys (s : Settings) :
    s.json.sortKeys = Settings.json (s.insertionSort fun a b => a.1 ≤ b.1) := by
  have hleaf : ∀ t : Settings, sortFields (t.map fun e => (e.1, e.2.json)) =
      t.map fun e => (e.1, e.2.json) := by
    intro t
    induction t with
    | nil => rfl
    | cons e t ih => rw [List.map_cons, sortFields, ih, Setting.json_sortKeys]
  rw [Settings.json, Json.sortKeys, hleaf, Settings.json,
    List.map_insertionSort (fun a b : Str × Setting => a.1 ≤ b.1) (fun a b : Str × Json => a.1 ≤ b.1)
      (fun e : Str × Setting => (e.1, e.2.json)) s fun _ _ _ _ => Iff.rfl]

@[simp] theorem settingsOf_json (s : Settings) : settingsOf s.json = .ok s := by
  change (s.map fun e => (e.1, e.2.json)).mapM (fun e : Str × Json => do
    let v ← settingOf e.2
    return (e.1, v)) = .ok s
  induction s with
  | nil => rfl
  | cons e s ih =>
    rw [List.map_cons, List.mapM_cons, ih, settingOf_json]
    rfl

theorem Settings.same_sort (s : Settings) :
    Settings.same (s.insertionSort fun a b => a.1 ≤ b.1) s = true := by
  rw [Settings.same_iff]
  intro k
  rw [Settings.get, lookup_sort]
  rfl

theorem servingOf_sortKeys (s : Serving) : servingOf s.json.sortKeys = .ok s := by
  have hleaf : ∀ t : Option Str, (textOrNull t).sortKeys = textOrNull t := by
    intro t
    cases t <;> rfl
  have hread : ∀ t : Option Str, textOrNoneOf (textOrNull t) = .ok t := by
    intro t
    cases t <;> rfl
  have hfields : s.json.sortKeys = .obj (List.insertionSort (fun a b => a.1 ≤ b.1)
      [("scope".toList, .str s.scope), ("os".toList, textOrNull s.os),
        ("architecture".toList, textOrNull s.architecture)]) := by
    rw [Serving.json, Json.sortKeys, sortFields, sortFields, sortFields, sortFields, hleaf, hleaf]
    rfl
  rw [hfields]
  simp only [servingOf, Json.field, lookup_sort]
  rw [show List.lookup "os".toList [("scope".toList, Json.str s.scope), ("os".toList, textOrNull s.os),
      ("architecture".toList, textOrNull s.architecture)] = some (textOrNull s.os) from rfl,
    show List.lookup "architecture".toList [("scope".toList, Json.str s.scope),
      ("os".toList, textOrNull s.os), ("architecture".toList, textOrNull s.architecture)] =
        some (textOrNull s.architecture) from rfl]
  simp only [Option.getD_some, hread]
  rfl

end Settings

section Identities
variable {h : Hashing} {b : Bundle} {m : Model} {c d : ConfigurationRow} {i : Identity}

def Reads (py : Interpreter) (h : Hashing) (v : Json) : Prop :=
  py.loads (h.canonicalText v) = .ok v.sortKeys

structure ConfigurationRow.Tells (h : Hashing) (c : ConfigurationRow) (i : Identity) : Prop where
  environment : c.environment = i.environment
  model : c.publicName = i.model
  transport : c.transport = i.transport
  serving : c.servingEnvironmentJson = h.canonicalText i.serving.json
  parameters : c.parametersJson = h.canonicalText i.parameters.json
  publicMetadata : c.publicMetadataJson = h.canonicalText i.publicMetadata.json

structure Identity.Reads (py : Interpreter) (h : Hashing) (i : Identity) : Prop where
  serving : Community.Reads py h i.serving.json
  parameters : Community.Reads py h i.parameters.json
  publicMetadata : Community.Reads py h i.publicMetadata.json

theorem configurationRow_tells (hc : configurationRow h b m = .ok c) :
    configurationId h b m = .ok c.configurationId ∧ ∃ i, identityOf b m = .ok i ∧ c.Tells h i := by
  obtain ⟨id, hid, hc⟩ := Failures.bind_eq_ok.mp hc
  obtain ⟨serving, hserving, hc⟩ := Failures.bind_eq_ok.mp hc
  obtain ⟨scaffold, -, hc⟩ := Failures.bind_eq_ok.mp hc
  cases hc
  refine ⟨hid, ⟨b.environment, serving, m.publicName, m.transport, m.parameters, m.publicMetadata⟩, ?_,
    rfl, rfl, rfl, rfl, rfl, rfl⟩
  rw [identityOf, hserving]
  rfl

theorem ConfigurationRow.Tells.identity {py : Interpreter} (hc : c.Tells h i) (hi : i.Reads py h) :
    ∃ j, c.identity py = .ok j ∧ j.same i = true := by
  have hserving : py.loads c.servingEnvironmentJson = .ok i.serving.json.sortKeys :=
    hc.serving ▸ hi.serving
  have hparameters : py.loads c.parametersJson = .ok i.parameters.json.sortKeys :=
    hc.parameters ▸ hi.parameters
  have hmetadata : py.loads c.publicMetadataJson = .ok i.publicMetadata.json.sortKeys :=
    hc.publicMetadata ▸ hi.publicMetadata
  rw [Settings.json_sortKeys] at hparameters hmetadata
  refine ⟨⟨c.environment, i.serving, c.publicName, c.transport,
    i.parameters.insertionSort fun a b => a.1 ≤ b.1,
    i.publicMetadata.insertionSort fun a b => a.1 ≤ b.1⟩, ?_, ?_⟩
  · rw [ConfigurationRow.identity, hserving, hparameters, hmetadata]
    simp only [Outcome.ok_bind, servingOf_sortKeys, settingsOf_json]
    rfl
  · rw [Identity.same_iff]
    exact ⟨hc.environment, rfl, hc.model, hc.transport, Settings.same_iff.mp (Settings.same_sort _),
      Settings.same_iff.mp (Settings.same_sort _)⟩

theorem ConfigurationRow.same_refl (c : ConfigurationRow) : c.same c = true := by
  simp [ConfigurationRow.same]

theorem ConfigurationRow.identity_congr (py : Interpreter) (hsame : c.same d = true) :
    c.identity py = d.identity py := by
  simp only [ConfigurationRow.same, Bool.and_eq_true, beq_iff_eq, decide_eq_true_eq] at hsame
  rw [ConfigurationRow.identity, ConfigurationRow.identity]
  simp only [hsame]

@[simp] theorem ConfigurationRow.identity_stored (py : Interpreter) (fl : FloatRounding)
    (c : ConfigurationRow) : (c.stored fl).identity py = c.identity py := rfl

/-- Every configuration has a row under its id that is the same. -/
theorem setConfigurations_ok {known cs result : List ConfigurationRow}
    (hok : setConfigurations known cs = .ok result) :
    (∀ d ∈ known, d ∈ result) ∧ (∀ d ∈ result, d ∈ known ∨ d ∈ cs) ∧
      ∀ c ∈ cs, ∃ d ∈ result, d.configurationId = c.configurationId ∧ d.same c = true := by
  induction cs generalizing known with
  | nil =>
    cases hok
    exact ⟨fun _ hd => hd, fun _ hd => .inl hd, by simp⟩
  | cons c cs ih =>
    rw [setConfigurations] at hok
    split at hok
    · obtain ⟨hstay, hfrom, hall⟩ := ih hok
      refine ⟨fun d hd => hstay d (by simp [hd]), fun d hd => ?_, fun e he => ?_⟩
      · rcases hfrom d hd with hd | hd
        · rcases List.mem_append.mp hd with hd | hd
          · exact .inl hd
          · exact .inr (by simp [List.mem_singleton.mp hd])
        · exact .inr (List.mem_cons_of_mem _ hd)
      · rcases List.mem_cons.mp he with rfl | he
        · exact ⟨e, hstay e (by simp), rfl, e.same_refl⟩
        · exact hall e he
    · rename_i previous hfind
      split at hok
      · rename_i hsame
        obtain ⟨hstay, hfrom, hall⟩ := ih hok
        refine ⟨hstay, fun d hd => (hfrom d hd).imp id (List.mem_cons_of_mem _), fun e he => ?_⟩
        rcases List.mem_cons.mp he with rfl | he
        · exact ⟨previous, hstay _ (List.mem_of_find?_eq_some hfind),
            by simpa using List.find?_some hfind, hsame⟩
        · exact hall e he
      · cases hok

end Identities

section Runs
variable {h : Hashing} {b : Bundle}

def modelEntry (h : Hashing) (b : Bundle) (m : Model) : Outcome Entry := do
  let configuration ← configurationId h b m
  let identity ← identityOf b m
  return { configuration, identity, model := m }

def cellOf (b : Bundle) (e : Entry) (r : RoundNumber × RoundResult) : Outcome Cell := do
  let pack ← ofKey (b.packs.lookup r.1)
  return { key := ⟨r.1, pack, e.model.publicName, e.configuration⟩, result := r.2 }

def RoundRows.observed (r : RoundRows) : ObservationKey × RunValues := (r.run.key, r.run.values r.items)

def RoundRows.Owns (r : RoundRows) : Prop := ∀ item ∈ r.items, item.runId = r.run.runId

theorem rowsOfRound_tells {e : Entry} {ordinal : Nat} {r : RoundNumber × RoundResult} {rows : RoundRows}
    (hrows : rowsOfRound h b e.configuration ordinal r = .ok rows) :
    (∃ c, cellOf b e r = .ok c ∧ c.observed b = rows.observed) ∧ rows.Owns := by
  obtain ⟨pack, hpack, hrows⟩ := Failures.bind_eq_ok.mp hrows
  obtain ⟨tasks, -, hrows⟩ := Failures.bind_eq_ok.mp hrows
  cases hrows
  refine ⟨⟨_, by rw [cellOf, hpack]; rfl, ?_⟩, fun item hitem => ?_⟩
  · refine Prod.ext rfl ?_
    change RunValues.mk _ _ = RunValues.mk _ _
    rw [List.map_map]
    rfl
  · obtain ⟨o, -, rfl⟩ := List.mem_map.mp hitem
    rfl

theorem rounds_tell {e : Entry} {ordinal : Nat} {rs : List (RoundNumber × RoundResult)}
    {rows : List RoundRows} (hrows : rs.mapM (rowsOfRound h b e.configuration ordinal) = .ok rows) :
    (∃ cs, rs.mapM (cellOf b e) = .ok cs ∧ cs.map (Cell.observed b) = rows.map RoundRows.observed) ∧
      ∀ r ∈ rows, r.Owns := by
  induction rs generalizing rows with
  | nil =>
    cases hrows
    exact ⟨⟨[], rfl, rfl⟩, by simp⟩
  | cons r rs ih =>
    rw [List.mapM_cons] at hrows
    obtain ⟨row, hrow, hrows⟩ := Failures.bind_eq_ok.mp hrows
    obtain ⟨rest, hrest, hrows⟩ := Failures.bind_eq_ok.mp hrows
    cases hrows
    obtain ⟨⟨c, hc, hobserved⟩, howns⟩ := rowsOfRound_tells hrow
    obtain ⟨⟨cs, hcs, hall⟩, hrestOwns⟩ := ih hrest
    refine ⟨⟨c :: cs, ?_, by rw [List.map_cons, List.map_cons, hobserved, hall]⟩,
      List.forall_mem_cons.mpr ⟨howns, hrestOwns⟩⟩
    rw [List.mapM_cons, hc, hcs]
    rfl

structure ModelRows.Tells (h : Hashing) (rows : ModelRows) (e : Entry) : Prop where
  configuration : rows.configuration.configurationId = e.configuration
  identity : rows.configuration.Tells h e.identity

/-- What the rows of a list of model entries tell. -/
structure Told (h : Hashing) (b : Bundle) (ms : List Model) (rows : List ModelRows) (es : List Entry)
    (cs : List Cell) : Prop where
  entries : ms.mapM (modelEntry h b) = .ok es
  tells : List.Forall₂ (ModelRows.Tells h) rows es
  cells : Community.cells b es = .ok cs
  observed : ((rows.flatMap ModelRows.rounds).map RoundRows.observed).Perm (cs.map (Cell.observed b))
  owns : ∀ r ∈ rows.flatMap ModelRows.rounds, r.Owns

theorem cells_cons {e : Entry} {es : List Entry} {cs more : List Cell}
    (he : e.model.rounds.mapM (cellOf b e) = .ok cs) (hes : cells b es = .ok more) :
    cells b (e :: es) = .ok (cs ++ more) := by
  obtain ⟨perEntry, hper, hmore⟩ := Failures.bind_eq_ok.mp hes
  cases hmore
  refine Failures.bind_eq_ok.mpr ⟨cs :: perEntry, ?_, rfl⟩
  rw [List.mapM_cons]
  exact Failures.bind_eq_ok.mpr ⟨cs, he, Failures.bind_eq_ok.mpr ⟨perEntry, hper, rfl⟩⟩

theorem modelRows_tell {m : Model} {ordinal : Nat} {rows : ModelRows}
    (hrows : modelRows h b (m, ordinal) = .ok rows) : ∃ e cs, modelEntry h b m = .ok e ∧ rows.Tells h e ∧
      e.model.rounds.mapM (cellOf b e) = .ok cs ∧
      (rows.rounds.map RoundRows.observed).Perm (cs.map (Cell.observed b)) ∧
      ∀ r ∈ rows.rounds, r.Owns := by
  obtain ⟨c, hc, hrows⟩ := Failures.bind_eq_ok.mp hrows
  obtain ⟨rounds, hrounds, hrows⟩ := Failures.bind_eq_ok.mp hrows
  cases hrows
  obtain ⟨hid, i, hi, htells⟩ := configurationRow_tells hc
  obtain ⟨plain, hplain, hperm⟩ := mapM_perm (List.perm_insertionSort _ m.rounds) hrounds
  obtain ⟨⟨cs, hcs, hobserved⟩, howns⟩ :=
    rounds_tell (e := ⟨c.configurationId, i, m⟩) hplain
  refine ⟨⟨c.configurationId, i, m⟩, cs, ?_, ⟨rfl, htells⟩, hcs, ?_, fun r hr => ?_⟩
  · rw [modelEntry, hid, hi]
    rfl
  · rw [hobserved]
    exact hperm.map _
  · exact howns r (hperm.mem_iff.mp hr)

theorem models_told {ms : List Model} {first : Nat} {rows : List ModelRows}
    (hrows : (ms.zipIdx first).mapM (modelRows h b) = .ok rows) : ∃ es cs, Told h b ms rows es cs := by
  induction ms generalizing first rows with
  | nil =>
    cases hrows
    exact ⟨[], [], rfl, .nil, rfl, .nil, by simp⟩
  | cons m ms ih =>
    rw [List.zipIdx_cons, List.mapM_cons] at hrows
    obtain ⟨row, hrow, hrows⟩ := Failures.bind_eq_ok.mp hrows
    obtain ⟨rest, hrest, hrows⟩ := Failures.bind_eq_ok.mp hrows
    cases hrows
    obtain ⟨e, cs, he, htells, hcs, hobserved, howns⟩ := modelRows_tell hrow
    obtain ⟨es, more, htold⟩ := ih hrest
    refine ⟨e :: es, cs ++ more, ?_, .cons htells htold.tells, cells_cons hcs htold.cells, ?_, ?_⟩
    · rw [List.mapM_cons, he, htold.entries]
      rfl
    · rw [List.flatMap_cons, List.map_append, List.map_append]
      exact hobserved.append htold.observed
    · rw [List.flatMap_cons]
      exact List.forall_mem_append.mpr ⟨howns, htold.owns⟩

end Runs

section Submissions
variable {h : Hashing} {submissions : List Bundle}

structure AllTold (h : Hashing) (submissions : List Bundle) (rows : List ModelRows) (es : List Entry)
    (runs : List (List (ObservationKey × RunValues))) : Prop where
  entries : ∃ perBundle, submissions.mapM (Community.entries h) = .ok perBundle ∧
    es = perBundle.flatten
  tells : List.Forall₂ (ModelRows.Tells h) rows es
  observes : submissions.mapM (observedRuns h) = .ok runs
  observed : ((rows.flatMap ModelRows.rounds).map RoundRows.observed).Perm runs.flatten
  owns : ∀ r ∈ rows.flatMap ModelRows.rounds, r.Owns
  known : ∀ p ∈ runs.flatten, ∃ e ∈ es, e.configuration = p.1.configuration

theorem submissions_told {models : List (List ModelRows)}
    (hrows : submissions.mapM (bundleRows h) = .ok models) :
    ∃ es runs, AllTold h submissions models.flatten es runs := by
  induction submissions generalizing models with
  | nil =>
    cases hrows
    exact ⟨[], [], ⟨[], rfl, rfl⟩, .nil, rfl, .nil, by simp, by simp⟩
  | cons b rest ih =>
    rw [List.mapM_cons] at hrows
    obtain ⟨rows, hb, hrows⟩ := Failures.bind_eq_ok.mp hrows
    obtain ⟨more, hmore, hrows⟩ := Failures.bind_eq_ok.mp hrows
    cases hrows
    obtain ⟨es, cs, htold⟩ := models_told hb
    obtain ⟨es', runs, hall⟩ := ih hmore
    obtain ⟨perBundle, hper, rfl⟩ := hall.entries
    have hentries : entries h b = .ok es := htold.entries
    have hruns : observedRuns h b = .ok (cs.map (Cell.observed b)) := by
      exact Failures.bind_eq_ok.mpr
        ⟨es, hentries, Failures.bind_eq_ok.mpr ⟨cs, htold.cells, rfl⟩⟩
    refine ⟨es ++ perBundle.flatten, cs.map (Cell.observed b) :: runs, ⟨es :: perBundle, ?_, rfl⟩, ?_,
      ?_, ?_, ?_, ?_⟩
    · rw [List.mapM_cons, hentries, hper]
      rfl
    · rw [List.flatten_cons]
      exact List.rel_append htold.tells hall.tells
    · rw [List.mapM_cons, hruns, hall.observes]
      rfl
    · rw [List.flatten_cons, List.flatten_cons, List.flatMap_append, List.map_append]
      exact htold.observed.append hall.observed
    · rw [List.flatten_cons, List.flatMap_append]
      exact List.forall_mem_append.mpr ⟨htold.owns, hall.owns⟩
    · rw [List.flatten_cons]
      refine List.forall_mem_append.mpr ⟨fun p hp => ?_, fun p hp => ?_⟩
      · obtain ⟨c, hc, rfl⟩ := List.mem_map.mp hp
        obtain ⟨e, he, hconf, -⟩ := cells_mem htold.cells hc
        exact ⟨e, List.mem_append_left _ he, hconf⟩
      · obtain ⟨e, he, hconf⟩ := hall.known p hp
        exact ⟨e, List.mem_append_right _ he, hconf⟩

end Submissions

end Community
