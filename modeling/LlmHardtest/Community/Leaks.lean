import LlmHardtest.Community.SoundRates
import LlmHardtest.Python.Levels
set_option autoImplicit false

/-! What an accepted public result can hold, level by level. -/

namespace Community
open Python
open Round5 (asBool require_bind require_ok)

/-- The leaves of a public result; every one but `plain` may be a string. -/
inductive Leaf where
  | plain
  | word (names : List String)
  | fingerprint
  | version
  | text (maximum : Nat)

def freeText (maximum : Nat) (s : Str) : Prop :=
  privateString s = false ∧ secretString s = false ∧ (strip s).length ≤ maximum

def Leaf.allows : Leaf → Json → Prop
  | _, .obj _ => False
  | _, .arr _ => False
  | .plain, .str _ => False
  | .word names, .str s => inNames names s = true
  | .fingerprint, .str s => isFingerprint s = true
  | .version, .str s => isVersion s = true
  | .text maximum, .str s => freeText maximum s
  | _, _ => True

abbrev Place := String × Level Leaf

def plain (name : String) : Place := (name, .leaf .plain)

def itemPlaces : List Place :=
  [("item", .leaf (.text 80)), plain "attempt",
    ("status", .leaf (.word ["PASS", "FAIL", "INCOMPLETE", "REVIEW", "INVALID"])),
    plain "wall_seconds", plain "tokens"]

def taskPlaces : List Place :=
  ("task", .leaf (.text 80)) :: (["handoff_utility"] ++ taskBooleans ++ taskNumbers).map plain

def roundPlaces (schemaVersion : Nat) (round : RoundNumber) : List Place :=
  roundFields.map plain ++
    (if round.1 = 4 then [("tasks", Level.list (.object taskPlaces))] else []) ++
    if 2 ≤ schemaVersion then [("items", Level.list (.object itemPlaces))] else []

def scaffoldPlaces : List Place :=
  [("agent_backend", .leaf (.word ["codex_cli", "opencode_cli", "pi_cli"])),
    ("isolation_mode", .leaf (.word ["none", "macos_seatbelt"])),
    ("network", .leaf (.word ["unrestricted", "model_endpoint_only"])), plain "fail_closed"]

def servingPlaces : List Place :=
  [("scope", .leaf (.word ["same_host", "remote", "unreported"])), ("os", .leaf (.word systems)),
    ("architecture", .leaf (.text 32))]

def metadataPlace (name : String) : Place :=
  (name, .leaf (if name ∈ metadataNumbers then .plain else .text 160))

def parameterPlace (name : String) : Place :=
  (name, .leaf (if name = "reasoning_effort" then .text 32 else .plain))

def allRounds : List (String × RoundNumber) :=
  [("1", firstRound), ("2", secondRound), ("3", thirdRound), ("4", fourthRound)]

def modelPlaces (schemaVersion : Nat) : List Place :=
  [("public_name", Level.leaf (.text 160)),
    ("transport", Level.leaf (.word ["openai_compat", "codex_cli"])),
    ("rounds", Level.object (allRounds.map fun r => (r.1, .object (roundPlaces schemaVersion r.2)))),
    ("parameters", Level.object (parameterFields.map parameterPlace)),
    ("public_metadata", Level.object (metadataFields.map metadataPlace))] ++
    (if 3 ≤ schemaVersion then [("serving_environment", Level.object servingPlaces)] else []) ++
    if 4 ≤ schemaVersion then [("execution_scaffold", Level.object scaffoldPlaces)] else []

def privacyPlaces : List Place :=
  [plain "raw_artifacts_included", plain "credentials_included", plain "local_paths_included",
    ("submission_mode", .leaf (.word ["explicit-opt-in"]))]

def publicPlaces (schemaVersion : Nat) : List Place :=
  [plain "schema_version", ("bundle_id", .leaf .fingerprint),
    ("tool", .object [("name", .leaf (.word ["llm-hardtest-report"])),
      ("version", .leaf (.text 32))]),
    ("benchmark", .object [("rounds", .list (.leaf .plain)),
      ("packs", .object (allRounds.map fun r => (r.1, .leaf .fingerprint)))]),
    ("environment", .object [("os", .leaf (.word systems)), ("architecture", .leaf (.text 32)),
      ("python", .leaf .version)]),
    ("models", .list (.object (modelPlaces schemaVersion))), ("privacy", .object privacyPlaces)]

section Texts
variable {s : Str}

theorem mem_splitOnChar {sep c : Char} (hc : c ∈ s) : c = sep ∨ c ∈ (splitOnChar sep s).flatten := by
  induction s with
  | nil => simp at hc
  | cons d s ih =>
    rw [splitOnChar]
    rcases List.mem_cons.mp hc with rfl | hc
    · by_cases hd : c = sep
      · exact .inl hd
      · rw [if_neg hd]
        cases splitOnChar sep s <;> simp
    · rcases ih hc with hsep | hpart
      · exact .inl hsep
      · refine .inr ?_
        split
        · simpa using hpart
        · split
          · rename_i hnil
            rw [hnil] at hpart
            simp at hpart
          · rename_i hcons
            rw [hcons] at hpart
            simp only [List.flatten_cons, List.mem_append, List.mem_cons] at hpart ⊢
            tauto

theorem version_chars (h : isVersion s = true) {c : Char} (hc : c ∈ s) :
    c = '.' ∨ c.isDigit = true := by
  unfold isVersion at h
  split at h
  · rename_i major minor hsplit
    simp only [Bool.and_eq_true, List.all_eq_true] at h
    rcases @mem_splitOnChar s '.' c hc with hdot | hpart
    · exact .inl hdot
    · rw [hsplit] at hpart
      simp only [List.flatten_cons, List.flatten_nil, List.append_nil] at hpart
      exact .inr (h.2 c hpart)
  · cases h

end Texts

/-- The value holds what its level allows, everywhere. -/
def CleanAt (l : Level Leaf) (v : Json) : Prop := Clean Leaf.allows l v

def Leaf.isText : Leaf → Bool
  | .text _ => true
  | _ => false

/-- A reading of the leaves that the checks of a public result establish. -/
class LeafRules (R : Leaf → Json → Prop) : Prop where
  allows : ∀ {a v}, R a v → a.allows v
  of_allows : ∀ {a v}, a.allows v → a.isText = false ∨ v = .null → R a v
  of_text : ∀ {m k s}, keyAllowed k (.str s) = true → (publicText m (.str s)).isSome = true →
    R (.text m) (.str s)

/-- Text that both the field's check and the walk accept. -/
theorem freeText_of_checked {maximum : Nat} {k s : Str} (hkey : keyAllowed k (.str s) = true)
    (hpublic : (publicText maximum (.str s)).isSome = true) : freeText maximum s := by
  simp only [keyAllowed, Bool.and_eq_true, Bool.not_eq_true', Bool.or_eq_false_iff] at hkey
  refine ⟨hkey.2.1, hkey.2.2, ?_⟩
  rw [publicText] at hpublic
  split at hpublic
  · cases hpublic
  · rename_i hcheck
    simp only [Bool.or_eq_true, decide_eq_true_eq, not_or] at hcheck
    exact not_lt.mp hcheck.1.1.1.2

instance : LeafRules Leaf.allows where
  allows h := h
  of_allows h _ := h
  of_text hkey hpublic := freeText_of_checked hkey hpublic

section Leaves
variable {R : Leaf → Json → Prop} [LeafRules R] {a : Leaf} {message : String} {v : Json}

theorem asObject_ok {fields : List (Str × Json)} (h : asObject message v = .ok fields) :
    v = .obj fields := by
  cases v with
  | obj fields' =>
    cases h
    rfl
  | null | bool | int | float | str | arr => cases h

theorem itemsOf_ok {fields : List (Str × Json)} (h : itemsOf v = .ok fields) : v = .obj fields := by
  cases v with
  | obj fields' =>
    cases h
    rfl
  | null | bool | int | float | str | arr => cases h

theorem asArray_ok {items : List Json} (h : asArray message v = .ok items) : v = .arr items := by
  cases v with
  | arr items' =>
    cases h
    rfl
  | null | bool | int | float | str | obj => cases h

theorem clean_of_ok (h : R a v) : Clean R (.leaf a) v := by
  have ha := LeafRules.allows h
  refine clean_leaf h fun step => ?_
  cases v with
  | obj fields => cases a <;> cases ha
  | arr items => cases a <;> cases ha
  | null | bool | int | float | str => cases step <;> rfl

theorem cleanAt_leaf (ht : a.isText = false) (h : a.allows v) : Clean R (.leaf a) v :=
  clean_of_ok (LeafRules.of_allows h (.inl ht))

theorem cleanAt_null : Clean R (.leaf a) .null :=
  clean_of_ok (LeafRules.of_allows (by cases a <;> trivial) (.inr rfl))

theorem cleanAt_number {ok : ℚ → Bool} {n : FiniteNum} (h : readNumber ok message v = .ok n) :
    Clean R (.leaf .plain) v := by
  cases v with
  | int n => exact cleanAt_leaf rfl trivial
  | float x => exact cleanAt_leaf rfl trivial
  | null | bool | str | arr | obj => cases h

theorem cleanAt_optional {n : Option FiniteNum} (h : readOptional message v = .ok n) :
    Clean R (.leaf .plain) v := by
  cases v with
  | null => exact cleanAt_null
  | bool b => cases h
  | int n => exact cleanAt_leaf rfl trivial
  | float x => exact cleanAt_leaf rfl trivial
  | str s => cases h
  | arr items => cases h
  | obj fields => cases h

theorem cleanAt_tokens {n : Option Int} (h : readTokens message v = .ok n) :
    Clean R (.leaf .plain) v := by
  cases v with
  | null => exact cleanAt_null
  | int n => exact cleanAt_leaf rfl trivial
  | bool | float | str | arr | obj => cases h

theorem cleanAt_bool {b : Bool} (h : asBool message v = .ok b) : Clean R (.leaf .plain) v := by
  cases v with
  | bool b => exact cleanAt_leaf rfl trivial
  | null | int | float | str | arr | obj => cases h

theorem cleanAt_word {names : List String} {s : Str} (h : memberOf names message v = .ok s) :
    Clean R (.leaf (.word names)) v := by
  cases v with
  | str t =>
    rw [memberOf] at h
    split at h
    · rename_i hin
      exact cleanAt_leaf rfl hin
    · cases h
  | null | bool | int | float | arr | obj => cases h

theorem cleanAt_text {maximum : Nat} {k s : Str} (hkey : keyAllowed k v = true)
    (h : checkedText maximum message v = .ok s) : Clean R (.leaf (.text maximum)) v := by
  cases v with
  | str t =>
    refine clean_of_ok (LeafRules.of_text hkey ?_)
    unfold checkedText at h
    split at h
    · rename_i text _ hp _
      rw [hp]
      rfl
    · cases h
  | null | bool | int | float | arr | obj => cases h

theorem cleanAt_status {status : Campaign.Status} (h : readStatus message v = .ok status) :
    Clean R (.leaf (.word ["PASS", "FAIL", "INCOMPLETE", "REVIEW", "INVALID"])) v := by
  cases v with
  | str s =>
    rw [readStatus] at h
    split at h
    · rename_i found hfound
      have hname : (Status.name found).toList = s := by simpa using List.find?_some hfound
      refine cleanAt_leaf rfl ?_
      change inNames _ s = true
      rw [← hname]
      cases found <;> decide
    · cases h
  | null | bool | int | float | arr | obj => cases h

end Leaves

section Walk
variable {fields : List (Str × Json)} {items : List Json}

theorem walk_mem (h : walkAllowed (.obj fields) = true) {e : Str × Json} (he : e ∈ fields) :
    keyAllowed e.1 e.2 = true ∧ walkAllowed e.2 = true := by
  rw [walkAllowed] at h
  induction fields with
  | nil => simp at he
  | cons e' fields ih =>
    rw [walkFields, Bool.and_eq_true, Bool.and_eq_true] at h
    rcases List.mem_cons.mp he with rfl | he
    · exact h.1
    · exact ih h.2 he

theorem walk_field (h : walkAllowed (.obj fields) = true) {k : Str} {v : Json}
    (hv : fields.lookup k = some v) : keyAllowed k v = true ∧ walkAllowed v = true := by
  obtain ⟨before, after, hmem, -⟩ := List.lookup_eq_some_iff.mp hv
  exact walk_mem h (e := (k, v)) (by rw [hmem]; simp)

theorem walk_item (h : walkAllowed (.arr items) = true) : ∀ v ∈ items, walkAllowed v = true := by
  rw [walkAllowed] at h
  induction items with
  | nil => simp
  | cons w items ih =>
    rw [walkItems, Bool.and_eq_true] at h
    intro v hv
    rcases List.mem_cons.mp hv with rfl | hv
    · exact h.1
    · exact ih h.2 v hv

theorem field_of_lookup {name : String} {v : Json} (h : fields.lookup name.toList = some v) :
    Json.field fields name = v := by
  rw [Json.field, h]
  rfl

theorem keys_of_keysAre {places : List Place} {names : List String}
    (h : Json.keysAre fields names = true) (hnames : names = places.map Prod.fst) :
    ∀ e ∈ fields, e.1 ∈ places.map fun f => f.1.toList := by
  intro e he
  rw [Json.keysAre, Bool.and_eq_true] at h
  have hin := of_decide_eq_true (List.all_eq_true.mp h.1 e he)
  rwa [hnames, List.map_map] at hin

theorem keys_of_inNames {places : List Place} {names : List String}
    (h : (fields.all fun e => inNames names e.1) = true) (hnames : names = places.map Prod.fst) :
    ∀ e ∈ fields, e.1 ∈ places.map fun f => f.1.toList := by
  intro e he
  have hin := of_decide_eq_true (List.all_eq_true.mp h e he)
  rwa [hnames, List.map_map] at hin

end Walk

section Readers
variable {R : Leaf → Json → Prop} [LeafRules R] {index schemaVersion : Nat} {v : Json}

theorem readItem_clean {seen : List ItemOutcome} {item : ItemOutcome} (hwalk : walkAllowed v = true)
    (h : readItem index seen v = .ok item) : Clean R (.object itemPlaces) v := by
  obtain ⟨fields, hfields, h⟩ := Failures.bind_eq_ok.mp h
  obtain rfl := asObject_ok hfields
  obtain ⟨hkeys, h⟩ := require_bind.mp h
  obtain ⟨identity, hidentity, h⟩ := Failures.bind_eq_ok.mp h
  obtain ⟨hname, hattempt, _⟩ := readIdentity_ok hidentity
  obtain ⟨status, hstatus, h⟩ := Failures.bind_eq_ok.mp h
  obtain ⟨wall, hwall, h⟩ := Failures.bind_eq_ok.mp h
  obtain ⟨tokens, htokens, h⟩ := Failures.bind_eq_ok.mp h
  refine clean_object (keys_of_keysAre hkeys rfl) ?_
  simp only [itemPlaces, plain, List.forall_mem_cons]
  refine ⟨fun v hv => ?_, fun v hv => ?_, fun v hv => ?_, fun v hv => ?_, fun v hv => ?_, by simp⟩
  · rw [field_of_lookup hv] at hname
    exact cleanAt_text (walk_field hwalk hv).1 hname
  · rw [field_of_lookup hv] at hattempt
    rw [hattempt]
    exact cleanAt_leaf rfl trivial
  · rw [field_of_lookup hv] at hstatus
    exact cleanAt_status hstatus
  · rw [field_of_lookup hv] at hwall
    exact cleanAt_optional hwall
  · rw [field_of_lookup hv] at htokens
    exact cleanAt_tokens htokens

theorem readItems_clean {seen items : List ItemOutcome} {vs : List Json}
    (hwalk : ∀ v ∈ vs, walkAllowed v = true) (h : readItems index seen vs = .ok items) :
    ∀ v ∈ vs, Clean R (.object itemPlaces) v := by
  induction vs generalizing seen with
  | nil => simp
  | cons v vs ih =>
    obtain ⟨item, hitem, h⟩ := Failures.bind_eq_ok.mp h
    intro w hw
    rcases List.mem_cons.mp hw with rfl | hw
    · exact readItem_clean (hwalk w (by simp)) hitem
    · exact ih (fun v hv => hwalk v (by simp [hv])) h w hw

theorem checkTaskField_clean {field : Str × Json} (htask : field.1 ≠ "task".toList)
    (h : checkTaskField index field = .ok ()) : Clean R (.leaf .plain) field.2 := by
  rw [checkTaskField, if_neg htask] at h
  split at h
  · obtain ⟨b, hb, -⟩ := Failures.bind_eq_ok.mp h
    exact cleanAt_bool hb
  · split at h
    · split at h
      · rename_i hnull
        rw [hnull]
        exact cleanAt_leaf rfl trivial
      · obtain ⟨b, hb, -⟩ := Failures.bind_eq_ok.mp h
        exact cleanAt_bool hb
    · obtain ⟨n, hn, -⟩ := Failures.bind_eq_ok.mp h
      exact cleanAt_optional hn

theorem forM_mem {α : Type} {f : α → Outcome Unit} {l : List α} (h : l.forM f = .ok ()) :
    ∀ a ∈ l, f a = .ok () := by
  induction l with
  | nil => simp
  | cons a l ih =>
    obtain ⟨u, hu, h⟩ := Failures.bind_eq_ok.mp h
    intro b hb
    rcases List.mem_cons.mp hb with rfl | hb
    · exact hu
    · exact ih h b hb

theorem readTask_clean {task : List (Str × Json)} (hwalk : walkAllowed v = true)
    (h : readTask index v = .ok task) : Clean R (.object taskPlaces) v := by
  obtain ⟨fields, hfields, h⟩ := Failures.bind_eq_ok.mp h
  obtain rfl := asObject_ok hfields
  obtain ⟨hkeys, h⟩ := require_bind.mp h
  obtain ⟨name, hname, h⟩ := Failures.bind_eq_ok.mp h
  obtain ⟨u, hall, h⟩ := Failures.bind_eq_ok.mp h
  refine clean_object (keys_of_inNames hkeys (by decide)) ?_
  rw [taskPlaces, List.forall_mem_cons, List.forall_mem_map]
  refine ⟨fun v hv => ?_, fun f hf v hv => ?_⟩
  · rw [field_of_lookup hv] at hname
    exact cleanAt_text (walk_field hwalk hv).1 hname
  · obtain ⟨before, after, hmem, -⟩ := List.lookup_eq_some_iff.mp hv
    have hne : f ≠ "task" := by
      rintro rfl
      exact absurd hf (by decide)
    have hchecked := forM_mem hall (f.toList, v) (by rw [hmem]; simp [plain])
    exact checkTaskField_clean (fun he => hne (String.toList_injective he)) hchecked

theorem readItemList_clean {items : List ItemOutcome} (hwalk : walkAllowed v = true)
    (h : readItemList index v = .ok items) : Clean R (.list (.object itemPlaces)) v := by
  obtain ⟨rows, hrows, hread⟩ := Failures.bind_eq_ok.mp h
  obtain rfl := asArray_ok hrows
  exact clean_list (readItems_clean (walk_item hwalk) hread)

theorem readTaskList_clean {tasks : List (List (Str × Json))} (hwalk : walkAllowed v = true)
    (h : readTaskList index v = .ok tasks) : Clean R (.list (.object taskPlaces)) v := by
  obtain ⟨rows, hrows, hread⟩ := Failures.bind_eq_ok.mp h
  obtain rfl := asArray_ok hrows
  refine clean_list fun row hrow => ?_
  obtain ⟨task, _, htask⟩ := (Outcome.mapM_mem hread).1 row hrow
  exact readTask_clean (walk_item hwalk row hrow) htask

theorem roundPlaces_names (schemaVersion : Nat) (round : RoundNumber) :
    roundFields ++ (if round.1 = 4 then ["tasks"] else []) ++
      (if 2 ≤ schemaVersion then ["items"] else []) = (roundPlaces schemaVersion round).map Prod.fst := by
  unfold roundPlaces
  rw [List.map_append, List.map_append]
  congr 1
  · congr 1
    split <;> rfl
  · split <;> rfl

theorem readRound_clean {rounds : List Int} {entry : Str × Json} {r : RoundNumber × RoundResult}
    (hwalk : walkAllowed entry.2 = true) (h : readRound index schemaVersion rounds entry = .ok r) :
    roundOfKey entry.1 = some r.1 ∧ Clean R (.object (roundPlaces schemaVersion r.1)) entry.2 := by
  obtain ⟨fields, hfields, h⟩ := Failures.bind_eq_ok.mp h
  rw [asObject_ok hfields] at hwalk ⊢
  split at h
  · cases h
  · rename_i round hround
    obtain ⟨_, h⟩ := require_bind.mp h
    obtain ⟨hkeys, h⟩ := require_bind.mp h
    obtain ⟨_, h⟩ := require_bind.mp h
    obtain ⟨parts, hparts, h⟩ := Failures.bind_eq_ok.mp h
    obtain ⟨_, h⟩ := require_bind.mp h
    cases h
    refine ⟨hround, clean_object (keys_of_inNames hkeys (roundPlaces_names _ _)) ?_⟩
    intro f hf v hv
    have hwalkField := (walk_field hwalk hv).2
    obtain ⟨before, after, hmem, -⟩ := List.lookup_eq_some_iff.mp hv
    obtain ⟨part, _, hpart⟩ := (Outcome.mapM_mem hparts).1 (f.1.toList, v) (by rw [hmem]; simp)
    rcases List.mem_append.mp hf with hf | hf
    · rcases List.mem_append.mp hf with hf | hf
      · -- The metrics are what is neither `items` nor `tasks`.
        obtain ⟨name, hname, rfl⟩ := List.mem_map.mp hf
        have hother : ∀ name ∈ roundFields, name.toList ≠ "items".toList ∧
            name.toList ≠ "tasks".toList := by decide
        rcases readRoundField_ok hpart with ⟨_, _, hkey, _⟩ | ⟨_, _, hkey, _⟩ | ⟨metric, _, _, _, hm⟩
        · exact absurd hkey (hother name hname).1
        · exact absurd hkey (hother name hname).2
        · obtain ⟨value, hvalue, _⟩ := Failures.bind_eq_ok.mp hm
          exact cleanAt_optional hvalue
      · split at hf
        · obtain rfl := List.mem_singleton.mp hf
          rcases readRoundField_ok hpart with ⟨_, _, hkey, _⟩ | ⟨_, _, _, hread⟩ | ⟨_, _, _, hne, _⟩
          · exact absurd (show "tasks".toList = "items".toList from hkey) (by decide)
          · exact readTaskList_clean hwalkField hread
          · exact absurd rfl hne
        · cases hf
    · split at hf
      · obtain rfl := List.mem_singleton.mp hf
        rcases readRoundField_ok hpart with ⟨_, _, _, hread⟩ | ⟨_, _, hkey, _⟩ | ⟨_, _, hne, _⟩
        · exact readItemList_clean hwalkField hread
        · exact absurd (show "items".toList = "tasks".toList from hkey) (by decide)
        · exact absurd rfl hne
      · cases hf

theorem readScaffold_clean {scaffold : Scaffold} (h : readScaffold index v = .ok scaffold) :
    Clean R (.object scaffoldPlaces) v := by
  obtain ⟨fields, hfields, h⟩ := Failures.bind_eq_ok.mp h
  obtain rfl := asObject_ok hfields
  obtain ⟨hkeys, h⟩ := require_bind.mp h
  obtain ⟨backend, hbackend, h⟩ := Failures.bind_eq_ok.mp h
  obtain ⟨isolation, hisolation, h⟩ := Failures.bind_eq_ok.mp h
  obtain ⟨network, hnetwork, h⟩ := Failures.bind_eq_ok.mp h
  obtain ⟨closed, hclosed, h⟩ := Failures.bind_eq_ok.mp h
  refine clean_object (keys_of_keysAre hkeys rfl) ?_
  simp only [scaffoldPlaces, plain, List.forall_mem_cons]
  refine ⟨fun v hv => ?_, fun v hv => ?_, fun v hv => ?_, fun v hv => ?_, by simp⟩
  · rw [field_of_lookup hv] at hbackend
    exact cleanAt_word hbackend
  · rw [field_of_lookup hv] at hisolation
    exact cleanAt_word hisolation
  · rw [field_of_lookup hv] at hnetwork
    exact cleanAt_word hnetwork
  · rw [field_of_lookup hv] at hclosed
    exact cleanAt_bool hclosed

theorem readServing_clean {environment : Environment} {serving : Serving}
    (hwalk : walkAllowed v = true) (h : readServing index environment v = .ok serving) :
    Clean R (.object servingPlaces) v := by
  obtain ⟨fields, hfields, h⟩ := Failures.bind_eq_ok.mp h
  obtain rfl := asObject_ok hfields
  obtain ⟨hkeys, h⟩ := require_bind.mp h
  obtain ⟨scope, hscope, h⟩ := Failures.bind_eq_ok.mp h
  obtain ⟨os, hos, h⟩ := Failures.bind_eq_ok.mp h
  obtain ⟨architecture, harch, h⟩ := Failures.bind_eq_ok.mp h
  refine clean_object (keys_of_keysAre hkeys rfl) ?_
  simp only [servingPlaces, List.forall_mem_cons]
  refine ⟨fun v hv => ?_, fun v hv => ?_, fun v hv => ?_, by simp⟩
  · rw [field_of_lookup hv] at hscope
    exact cleanAt_word hscope
  · rw [field_of_lookup hv] at hos
    cases v with
    | null => exact cleanAt_null
    | str s =>
      obtain ⟨t, ht, _⟩ := Failures.bind_eq_ok.mp hos
      exact cleanAt_word ht
    | bool | int | float | arr | obj => cases hos
  · rw [field_of_lookup hv] at harch
    cases v with
    | null => exact cleanAt_null
    | str s =>
      obtain ⟨t, ht, _⟩ := Failures.bind_eq_ok.mp harch
      exact cleanAt_text (walk_field hwalk hv).1 ht
    | bool | int | float | arr | obj => cases harch

theorem readMetadata_clean {k : Str} {e : Str × Setting} {name : String} (hname : name.toList = k)
    (hkey : keyAllowed k v = true) (h : readMetadata index (k, v) = .ok e) :
    Clean R (metadataPlace name).2 v := by
  rw [readMetadata] at h
  unfold metadataPlace
  split at h
  · rename_i hin
    obtain ⟨n, hn, _⟩ := Failures.bind_eq_ok.mp h
    obtain ⟨other, hother, hk⟩ := List.mem_map.mp (of_decide_eq_true hin)
    rw [if_pos (String.toList_injective (hk.trans hname.symm) ▸ hother)]
    exact cleanAt_number hn
  · rename_i hout
    obtain ⟨s, hs, _⟩ := Failures.bind_eq_ok.mp h
    rw [if_neg fun hin => hout (decide_eq_true (List.mem_map.mpr ⟨name, hin, hname⟩))]
    exact cleanAt_text hkey hs

theorem readParameter_clean {k : Str} {e : Str × Setting} {name : String} (hname : name.toList = k)
    (hkey : keyAllowed k v = true) (h : readParameter index (k, v) = .ok e) :
    Clean R (parameterPlace name).2 v := by
  rw [readParameter] at h
  unfold parameterPlace
  split at h
  · rename_i heffort
    obtain ⟨s, hs, _⟩ := Failures.bind_eq_ok.mp h
    rw [if_pos (String.toList_injective (hname.trans heffort))]
    exact cleanAt_text hkey hs
  · rename_i hother
    obtain ⟨n, hn, _⟩ := Failures.bind_eq_ok.mp h
    rw [if_neg fun he => hother (by rw [← hname, he])]
    exact cleanAt_number hn

theorem clean_rounds {Q : Leaf → Json → Prop} {place : RoundNumber → Level Leaf} {fields : List (Str × Json)}
    (h : ∀ e ∈ fields, ∃ round, roundOfKey e.1 = some round ∧ Clean Q (place round) e.2) :
    Clean Q (.object (allRounds.map fun r => (r.1, place r.2))) (.obj fields) := by
  have hnames : ∀ round, ∀ k : Str, roundOfKey k = some round → ∃ r ∈ allRounds, r.1.toList = k := by
    intro round k hk
    unfold roundOfKey at hk
    split at hk
    · rename_i he
      exact ⟨("1", firstRound), by simp [allRounds], he.symm⟩
    · split at hk
      · rename_i he
        exact ⟨("2", secondRound), by simp [allRounds], he.symm⟩
      · split at hk
        · rename_i he
          exact ⟨("3", thirdRound), by simp [allRounds], he.symm⟩
        · split at hk
          · rename_i he
            exact ⟨("4", fourthRound), by simp [allRounds], he.symm⟩
          · cases hk
  have hrounds : ∀ r ∈ allRounds, roundOfKey r.1.toList = some r.2 := by decide
  refine clean_object (fun e he => ?_) ?_
  · obtain ⟨round, hround, -⟩ := h e he
    obtain ⟨r, hr, hkey⟩ := hnames round e.1 hround
    rw [List.map_map]
    exact List.mem_map.mpr ⟨r, hr, hkey⟩
  · rw [List.forall_mem_map]
    intro r hr v hv
    obtain ⟨before, after, hmem, -⟩ := List.lookup_eq_some_iff.mp hv
    obtain ⟨round, hround, hclean⟩ := h (r.1.toList, v) (by rw [hmem]; simp)
    rw [hrounds r hr] at hround
    cases hround
    exact hclean

theorem modelPlaces_names (schemaVersion : Nat) :
    modelFields schemaVersion = (modelPlaces schemaVersion).map Prod.fst := by
  unfold modelPlaces modelFields
  rw [List.map_append, List.map_append]
  congr 1
  · congr 1
    split <;> rfl
  · split <;> rfl

theorem since_ok {β : Type} {first : Nat} {check : Outcome β} {b : Option β}
    (h : since first schemaVersion check = .ok b) (hle : first ≤ schemaVersion) :
    ∃ c, check = .ok c := by
  rw [since, if_pos hle] at h
  cases check with
  | error e => cases h
  | ok c => exact ⟨c, rfl⟩

theorem readModel_clean {rounds : List Int} {environment : Environment} {m : Model}
    (hwalk : walkAllowed v = true) (h : readModel index schemaVersion rounds environment v = .ok m) :
    Clean R (.object (modelPlaces schemaVersion)) v := by
  obtain ⟨fields, hfields, hread⟩ := Failures.bind_eq_ok.mp h
  obtain rfl := asObject_ok hfields
  obtain ⟨hkeys, hread⟩ := require_bind.mp hread
  obtain ⟨publicName, hpublic, hread⟩ := Failures.bind_eq_ok.mp hread
  obtain ⟨transport, htransport, hread⟩ := Failures.bind_eq_ok.mp hread
  obtain ⟨scaffold, hscaffold, hread⟩ := Failures.bind_eq_ok.mp hread
  obtain ⟨serving, hserving, hread⟩ := Failures.bind_eq_ok.mp hread
  obtain ⟨roundEntries, hrounds, hread⟩ := Failures.bind_eq_ok.mp hread
  obtain ⟨_, hread⟩ := require_bind.mp hread
  obtain ⟨results, hresults, hread⟩ := Failures.bind_eq_ok.mp hread
  obtain ⟨hmetaKeys, hread⟩ := Outcome.unit_bind.mp hread
  obtain ⟨hparamKeys, hread⟩ := Outcome.unit_bind.mp hread
  obtain ⟨metadata, hmetadata, hread⟩ := Failures.bind_eq_ok.mp hread
  obtain ⟨publicMetadata, hmetaRead, hread⟩ := Failures.bind_eq_ok.mp hread
  obtain ⟨settings, hparameters, hread⟩ := Failures.bind_eq_ok.mp hread
  obtain ⟨parameters, hparamRead, _⟩ := Failures.bind_eq_ok.mp hread
  refine clean_object (keys_of_keysAre hkeys (modelPlaces_names _)) ?_
  unfold modelPlaces
  rw [List.forall_mem_append, List.forall_mem_append]
  refine ⟨⟨?_, fun f hf => ?_⟩, fun f hf => ?_⟩
  · simp only [List.forall_mem_cons]
    refine ⟨fun v hv => ?_, fun v hv => ?_, fun v hv => ?_, fun v hv => ?_, fun v hv => ?_, by simp⟩
    · rw [field_of_lookup hv] at hpublic
      exact cleanAt_text (walk_field hwalk hv).1 hpublic
    · rw [field_of_lookup hv] at htransport
      exact cleanAt_word htransport
    · rw [field_of_lookup hv] at hrounds
      have hinner := (walk_field hwalk hv).2
      rw [asObject_ok hrounds] at hinner ⊢
      refine @clean_rounds _ (fun round => .object (roundPlaces schemaVersion round)) _ fun e he => ?_
      obtain ⟨r, _, hr⟩ := (Outcome.mapM_mem hresults).1 e he
      exact ⟨r.1, readRound_clean (walk_mem hinner he).2 hr⟩
    · rw [field_of_lookup hv] at hparameters
      have hinner := (walk_field hwalk hv).2
      rw [field_of_lookup hv] at hparamKeys
      rw [itemsOf_ok hparameters] at hinner hparamKeys ⊢
      refine clean_object (keys_of_inNames (require_ok.mp hparamKeys) (by decide)) ?_
      rw [List.forall_mem_map]
      intro name hname w hw
      obtain ⟨before, after, hmem, -⟩ := List.lookup_eq_some_iff.mp hw
      obtain ⟨e, _, he⟩ := (Outcome.mapM_mem hparamRead).1 (name.toList, w)
        (by rw [hmem]; simp [parameterPlace])
      exact readParameter_clean rfl (walk_field hinner hw).1 he
    · rw [field_of_lookup hv] at hmetadata
      have hinner := (walk_field hwalk hv).2
      rw [field_of_lookup hv] at hmetaKeys
      rw [itemsOf_ok hmetadata] at hinner hmetaKeys ⊢
      refine clean_object (keys_of_inNames (require_ok.mp hmetaKeys) (by decide)) ?_
      rw [List.forall_mem_map]
      intro name hname w hw
      obtain ⟨before, after, hmem, -⟩ := List.lookup_eq_some_iff.mp hw
      obtain ⟨e, _, he⟩ := (Outcome.mapM_mem hmetaRead).1 (name.toList, w)
        (by rw [hmem]; simp [metadataPlace])
      exact readMetadata_clean rfl (walk_field hinner hw).1 he
  · split at hf
    · rename_i h3
      obtain rfl := List.mem_singleton.mp hf
      intro v hv
      obtain ⟨s, hs⟩ := since_ok hserving h3
      rw [field_of_lookup hv] at hs
      exact readServing_clean (walk_field hwalk hv).2 hs
    · cases hf
  · split at hf
    · rename_i h4
      obtain rfl := List.mem_singleton.mp hf
      intro v hv
      obtain ⟨s, hs⟩ := since_ok hscaffold h4
      rw [field_of_lookup hv] at hs
      exact readScaffold_clean hs
    · cases hf

theorem readModels_clean {rounds : List Int} {environment : Environment} {items : List Json}
    {models : List Model} (hwalk : ∀ v ∈ items, walkAllowed v = true)
    (h : readModels schemaVersion rounds environment index items = .ok models) :
    ∀ v ∈ items, Clean R (.object (modelPlaces schemaVersion)) v := by
  induction items generalizing index models with
  | nil => simp
  | cons v items ih =>
    obtain ⟨model, hmodel, h⟩ := Failures.bind_eq_ok.mp h
    obtain ⟨rest, hrest, h⟩ := Failures.bind_eq_ok.mp h
    intro w hw
    rcases List.mem_cons.mp hw with rfl | hw
    · exact readModel_clean (hwalk w (by simp)) hmodel
    · exact ih (fun v hv => hwalk v (by simp [hv])) hrest w hw

theorem readRounds_clean {items : List Json} {rounds : List Int} (h : readRounds items = .ok rounds) :
    ∀ v ∈ items, Clean R (.leaf .plain) v := by
  induction items generalizing rounds with
  | nil => simp
  | cons v items ih =>
    cases v with
    | int n =>
      obtain ⟨_, h⟩ := require_bind.mp h
      obtain ⟨rest, hrest, _⟩ := Failures.bind_eq_ok.mp h
      intro w hw
      rcases List.mem_cons.mp hw with rfl | hw
      · exact cleanAt_leaf rfl trivial
      · exact ih hrest w hw
    | null | bool | float | str | arr | obj => cases h

theorem readPack_clean {e : Str × Json} {p : RoundNumber × Fingerprint} (h : readPack e = .ok p) :
    ∃ round, roundOfKey e.1 = some round ∧ Clean R (.leaf .fingerprint) e.2 := by
  unfold readPack at h
  split at h
  · rename_i round s hround hs
    split at h
    · rename_i hfingerprint
      rw [hs]
      exact ⟨round, hround, cleanAt_leaf rfl hfingerprint⟩
    · cases h
  · cases h

theorem readBenchmark_clean {b : List Int × List (RoundNumber × Fingerprint)}
    (h : readBenchmark v = .ok b) : Clean R (.object [("rounds", .list (.leaf .plain)),
      ("packs", .object (allRounds.map fun r => (r.1, .leaf .fingerprint)))]) v := by
  obtain ⟨fields, hfields, hread⟩ := Failures.bind_eq_ok.mp h
  obtain rfl := asObject_ok hfields
  obtain ⟨hkeys, hread⟩ := require_bind.mp hread
  obtain ⟨items, hitems, hread⟩ := Failures.bind_eq_ok.mp hread
  obtain ⟨rounds, hrounds, hread⟩ := Failures.bind_eq_ok.mp hread
  obtain ⟨_, hread⟩ := require_bind.mp hread
  obtain ⟨packFields, hpackFields, hread⟩ := Failures.bind_eq_ok.mp hread
  obtain ⟨_, hread⟩ := require_bind.mp hread
  obtain ⟨packs, hpacks, _⟩ := Failures.bind_eq_ok.mp hread
  refine clean_object (keys_of_keysAre hkeys rfl) ?_
  simp only [List.forall_mem_cons]
  refine ⟨fun v hv => ?_, fun v hv => ?_, by simp⟩
  · rw [field_of_lookup hv] at hitems
    rw [asArray_ok hitems]
    exact clean_list (readRounds_clean hrounds)
  · rw [field_of_lookup hv] at hpackFields
    rw [asObject_ok hpackFields]
    refine @clean_rounds _ (fun _ => .leaf .fingerprint) _ fun e he => ?_
    obtain ⟨p, _, hp⟩ := (Outcome.mapM_mem hpacks).1 e he
    exact readPack_clean hp

theorem readEnvironment_clean {environment : Environment} (hwalk : walkAllowed v = true)
    (h : readEnvironment v = .ok environment) : Clean R (.object [("os", .leaf (.word systems)),
      ("architecture", .leaf (.text 32)), ("python", .leaf .version)]) v := by
  obtain ⟨fields, hfields, hread⟩ := Failures.bind_eq_ok.mp h
  obtain rfl := asObject_ok hfields
  obtain ⟨hkeys, hread⟩ := require_bind.mp hread
  obtain ⟨os, hos, hread⟩ := Failures.bind_eq_ok.mp hread
  obtain ⟨architecture, harch, hread⟩ := Failures.bind_eq_ok.mp hread
  split at hread
  · rename_i python hpython
    obtain ⟨hversion, _⟩ := require_bind.mp hread
    refine clean_object (keys_of_keysAre hkeys rfl) ?_
    simp only [List.forall_mem_cons]
    refine ⟨fun v hv => ?_, fun v hv => ?_, fun v hv => ?_, by simp⟩
    · rw [field_of_lookup hv] at hos
      exact cleanAt_word hos
    · rw [field_of_lookup hv] at harch
      exact cleanAt_text (walk_field hwalk hv).1 harch
    · rw [field_of_lookup hv] at hpython
      rw [hpython]
      exact cleanAt_leaf rfl hversion
  · cases hread

theorem cleanAt_eqStr {s : String} {v : Json} (h : v.eqStr s.toList = true) :
    Clean R (.leaf (.word [s])) v := by
  cases v with
  | str t =>
    rw [Json.eqStr, beq_iff_eq] at h
    subst h
    have hin : inNames [s] s.toList = true := by simp [inNames]
    exact cleanAt_leaf rfl hin
  | null | bool | int | float | arr | obj => cases h

theorem checkTool_clean (hwalk : walkAllowed v = true) (h : checkTool v = .ok ()) :
    Clean R (.object [("name", .leaf (.word ["llm-hardtest-report"])),
      ("version", .leaf (.text 32))]) v := by
  obtain ⟨fields, hfields, hread⟩ := Failures.bind_eq_ok.mp h
  obtain rfl := asObject_ok hfields
  obtain ⟨hkeys, hread⟩ := require_bind.mp hread
  obtain ⟨hname, hread⟩ := require_bind.mp hread
  obtain ⟨version, hversion, _⟩ := Failures.bind_eq_ok.mp hread
  refine clean_object (keys_of_keysAre hkeys rfl) ?_
  simp only [List.forall_mem_cons]
  refine ⟨fun v hv => ?_, fun v hv => ?_, by simp⟩
  · rw [field_of_lookup hv] at hname
    have htool : Clean R (.leaf (.word ["llm-hardtest-report"])) v := cleanAt_eqStr hname
    exact htool
  · rw [field_of_lookup hv] at hversion
    exact cleanAt_text (walk_field hwalk hv).1 hversion

theorem cleanAt_eqBool {b : Bool} (h : v.eqBool b = true) : Clean R (.leaf .plain) v := by
  cases v with
  | bool | int | float => exact cleanAt_leaf rfl trivial
  | null | str | arr | obj => cases h

theorem privacyAgrees_clean (h : privacyAgrees v = true) : Clean R (.object privacyPlaces) v := by
  cases v with
  | obj fields =>
    simp only [privacyAgrees, Bool.and_eq_true] at h
    obtain ⟨⟨⟨⟨hkeys, hraw⟩, hcredentials⟩, hpaths⟩, hmode⟩ := h
    refine clean_object (keys_of_keysAre hkeys rfl) ?_
    simp only [privacyPlaces, plain, List.forall_mem_cons]
    refine ⟨fun v hv => ?_, fun v hv => ?_, fun v hv => ?_, fun v hv => ?_, by simp⟩
    · rw [field_of_lookup hv] at hraw
      exact cleanAt_eqBool hraw
    · rw [field_of_lookup hv] at hcredentials
      exact cleanAt_eqBool hcredentials
    · rw [field_of_lookup hv] at hpaths
      exact cleanAt_eqBool hpaths
    · rw [field_of_lookup hv] at hmode
      have hopt : Clean R (.leaf (.word ["explicit-opt-in"])) v := cleanAt_eqStr hmode
      exact hopt
  | null | bool | int | float | str | arr => cases h

end Readers

theorem validatePublicResult_places {R : Leaf → Json → Prop} [LeafRules R] (h : Hashing) (payload : Json) (b : Bundle)
    (hv : validatePublicResult h payload = .ok b) :
    Clean R (.object (publicPlaces b.schemaVersion)) payload := by
  obtain ⟨fields, hfields, hread⟩ := Failures.bind_eq_ok.mp hv
  obtain rfl := asObject_ok hfields
  obtain ⟨hkeys, hread⟩ := require_bind.mp hread
  split at hread
  · rename_i version bundleId hversion hid
    obtain ⟨_, hread⟩ := require_bind.mp hread
    obtain ⟨hfingerprint, hread⟩ := require_bind.mp hread
    obtain ⟨computed, _, hread⟩ := Failures.bind_eq_ok.mp hread
    obtain ⟨_, hread⟩ := require_bind.mp hread
    obtain ⟨htool, hread⟩ := Outcome.unit_bind.mp hread
    obtain ⟨benchmark, hbenchmark, hread⟩ := Failures.bind_eq_ok.mp hread
    obtain ⟨environment, henvironment, hread⟩ := Failures.bind_eq_ok.mp hread
    obtain ⟨items, hitems, hread⟩ := Failures.bind_eq_ok.mp hread
    obtain ⟨_, hread⟩ := require_bind.mp hread
    obtain ⟨models, hmodels, hread⟩ := Failures.bind_eq_ok.mp hread
    obtain ⟨hprivacy, hread⟩ := require_bind.mp hread
    obtain ⟨hwalk, hread⟩ := require_bind.mp hread
    obtain ⟨_, hread⟩ := require_bind.mp hread
    cases hread
    refine clean_object (keys_of_keysAre hkeys rfl) ?_
    simp only [publicPlaces, plain, List.forall_mem_cons]
    refine ⟨fun v hv => ?_, fun v hv => ?_, fun v hv => ?_, fun v hv => ?_, fun v hv => ?_,
      fun v hv => ?_, fun v hv => ?_, by simp⟩
    · rw [field_of_lookup hv] at hversion
      rw [hversion]
      exact cleanAt_leaf rfl trivial
    · rw [field_of_lookup hv] at hid
      rw [hid]
      exact cleanAt_leaf rfl hfingerprint
    · rw [field_of_lookup hv] at htool
      exact checkTool_clean (walk_field hwalk hv).2 htool
    · rw [field_of_lookup hv] at hbenchmark
      exact readBenchmark_clean hbenchmark
    · rw [field_of_lookup hv] at henvironment
      exact readEnvironment_clean (walk_field hwalk hv).2 henvironment
    · rw [field_of_lookup hv] at hitems
      have hinner := (walk_field hwalk hv).2
      rw [asArray_ok hitems] at hinner ⊢
      exact clean_list (readModels_clean (walk_item hinner) hmodels)
    · rw [field_of_lookup hv] at hprivacy
      exact privacyAgrees_clean hprivacy
  · cases hread
  · cases hread

/-- An accepted public result holds nothing but what its allowlist has: every key at any depth is one
of its level, and every string is a fixed word, a fingerprint, a version or bounded free text. -/
theorem validatePublicResult_clean (h : Hashing) (payload : Json) (b : Bundle)
    (hv : validatePublicResult h payload = .ok b) :
    CleanAt (.object (publicPlaces b.schemaVersion)) payload :=
  validatePublicResult_places h payload b hv

theorem samplePayload_clean : ∃ b, validatePublicResult sampleHashing (samplePayload 1 2) = .ok b ∧
    CleanAt (.object (publicPlaces b.schemaVersion)) (samplePayload 1 2) := by
  obtain ⟨b, hb⟩ := samplePayload_accepted
  exact ⟨b, hb, validatePublicResult_clean sampleHashing (samplePayload 1 2) b hb⟩

def fixedWords : List String :=
  ["PASS", "FAIL", "INCOMPLETE", "REVIEW", "INVALID", "codex_cli", "opencode_cli", "pi_cli", "none",
    "macos_seatbelt", "unrestricted", "model_endpoint_only", "same_host", "remote", "unreported",
    "openai_compat", "explicit-opt-in", "llm-hardtest-report"] ++ systems

/-- A version is neither a fixed word nor a fingerprint, and no limit bounds it. -/
theorem longVersion_accepted : ∃ path s,
    (validatePublicResult sampleHashing (sampleDocument s (object []))).isOk = true ∧
      (sampleDocument s (object [])).at path = some (.str s) ∧ inNames fixedWords s = false ∧
      isFingerprint s = false ∧ 160 < (strip s).length :=
  ⟨[.key "environment".toList, .key "python".toList], List.replicate 200 '3' ++ ".1".toList,
    by decide +kernel, rfl, by decide +kernel, by decide +kernel, by decide +kernel⟩

end Community
