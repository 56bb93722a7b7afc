import LlmHardtest.Community.Leaks
import LlmHardtest.Round5.PublicRow
set_option autoImplicit false

/-! The checks that a public pilot result has to pass, and what an accepted one can hold. -/

namespace Community
open Python
open Round5 (require require_bind require_ok asBool modelText validateRow validateScore
  validateProtocolFields validNonnegative knownReason gradeStatus attemptFieldsV1 attemptFieldsV2)

/-- `schema_version not in {1, 2}`; what equals a number is in the set. -/
def pilotVersion : Json → Outcome Nat
  | .arr _ => .error .typeError
  | .obj _ => .error .typeError
  | v =>
      if v.eqInt 1 then .ok 1
      else if v.eqInt 2 then .ok 2
      else fail "public pilot result has unexpected top-level fields"

def checkPilotTool (v : Json) : Outcome Unit := do
  let message := "public pilot tool identity is invalid"
  let fields ← asObject message v
  require (Json.keysAre fields ["name", "version"]) message
  require ((Json.field fields "name").eqStr "llm-hardtest-report".toList) message
  let _ ← checkedText 32 message (Json.field fields "version")
  return ()

def checkPilotId (v : Json) : Outcome Unit := do
  let message := "public pilot identity is invalid"
  let fields ← asObject message v
  require (Json.keysAre fields ["id", "pack", "canonical_score"]) message
  let _ ← checkedText 80 message (Json.field fields "id")
  match Json.field fields "pack", Json.field fields "canonical_score" with
  | .str pack, .bool false => require (isFingerprint pack) message
  | _, _ => fail message

def checkPilotEnvironment (v : Json) : Outcome Unit := do
  let message := "public pilot environment is invalid"
  let fields ← asObject message v
  require (Json.keysAre fields ["os", "architecture", "python"]) message
  let _ ← memberOf systems message (Json.field fields "os")
  let _ ← checkedText 32 message (Json.field fields "architecture")
  match Json.field fields "python" with
  | .str python => require (isVersion python) message
  | _ => fail message

variable (index : Nat)

def checkPilotMetadata (e : Str × Json) : Outcome Unit :=
  if inNames metadataNumbers e.1 then do
    let _ ← readNumber (fun q => decide (0 < q))
      (modelText index (" metadata " ++ String.ofList e.1 ++ " is invalid")) e.2
    return ()
  else do
    let _ ← checkedText 160 (modelText index (" metadata " ++ String.ofList e.1 ++ " is unsafe")) e.2
    return ()

def checkPilotParameter (e : Str × Json) : Outcome Unit :=
  let message := modelText index (" parameter " ++ String.ofList e.1 ++ " is invalid")
  if e.1 = "reasoning_effort".toList then do
    let _ ← checkedText 32 message e.2
    return ()
  else do
    let _ ← readNumber (fun q => decide (0 ≤ q)) message e.2
    return ()

/-- `_validate_model_identity` -/
def checkPilotIdentity (fields : List (Str × Json)) : Outcome Unit := do
  let _ ← checkedText 160 (modelText index " has an unsafe public_name")
    (Json.field fields "public_name")
  require ((Json.field fields "transport").eqStr "codex_cli".toList)
    (modelText index " requires codex_cli transport")
  let metadata ← asObject (modelText index " metadata is not allowlisted")
    (Json.field fields "public_metadata")
  require (metadata.all fun e => inNames metadataFields e.1)
    (modelText index " metadata is not allowlisted")
  let parameters ← asObject (modelText index " parameters are not allowlisted")
    (Json.field fields "parameters")
  require (parameters.all fun e => inNames parameterFields e.1)
    (modelText index " parameters are not allowlisted")
  metadata.forM (checkPilotMetadata index)
  parameters.forM (checkPilotParameter index)

def attemptOf : Json → List Int
  | .obj row =>
      match Json.field row "attempt" with
      | .int n => [n]
      | _ => []
  | _ => []

def checkPilotRows (schemaVersion : Nat) : List Int → List Json → Outcome Unit
  | _, [] => .ok ()
  | seen, row :: rows => do
      validateRow schemaVersion index seen row
      checkPilotRows schemaVersion (seen ++ attemptOf row) rows

def checkPilotModel (schemaVersion : Nat) (v : Json) : Outcome Unit := do
  let fields ← asObject (modelText index " has unexpected fields") v
  require (Json.keysAre fields
      ["public_name", "transport", "parameters", "public_metadata", "attempts"])
    (modelText index " has unexpected fields")
  checkPilotIdentity index fields
  let rows ← asArray (modelText index " requires attempts") (Json.field fields "attempts")
  require (!rows.isEmpty) (modelText index " requires attempts")
  checkPilotRows index schemaVersion [] rows

def checkPilotModels (schemaVersion : Nat) : Nat → List Json → Outcome Unit
  | _, [] => .ok ()
  | index, v :: vs => do
      checkPilotModel index schemaVersion v
      checkPilotModels schemaVersion (index + 1) vs

def validatePublicPilotResult (h : Hashing) (payload : Json) : Outcome Unit := do
  let fields ← asObject "public pilot result must be a JSON object" payload
  require (Json.keysAre fields ["schema_version", "bundle_id", "tool", "pilot", "environment",
    "models", "privacy"]) "public pilot result has unexpected top-level fields"
  let version ← pilotVersion (Json.field fields "schema_version")
  let mismatch := "public pilot bundle_id does not match its content"
  match Json.field fields "bundle_id" with
  | .str stated => do
      require (isFingerprint stated) mismatch
      let computed ← h.bundleId (fields.filter fun e => e.1 ≠ "bundle_id".toList)
      require (stated == computed) mismatch
      checkPilotTool (Json.field fields "tool")
      checkPilotId (Json.field fields "pilot")
      checkPilotEnvironment (Json.field fields "environment")
      let items ← asArray "public pilot result requires at least one model"
        (Json.field fields "models")
      require (!items.isEmpty) "public pilot result requires at least one model"
      checkPilotModels version 1 items
      require (privacyAgrees (Json.field fields "privacy"))
        "public pilot privacy declaration is invalid"
      require (walkAllowed payload) "private-looking string or forbidden private field"
      require (decide ((h.canonical payload).length ≤ 2000000)) "public pilot result is too large"
  | _ => fail mismatch

/-! ## The allowlist -/

def scorePlaces : List Place := [plain "passed", plain "total", plain "timed_out"]

def stopReasonNames : List String :=
  ["unsupported_tool_loop", "timeout", "agent_exit", "missing_session", "empty_output",
    "preapproval_edit", "incomplete_turns"]

def attemptPlaces (schemaVersion : Nat) : List Place :=
  [plain "attempt", ("status", .leaf (.word ["COMPLETE", "INCOMPLETE"])), plain "turns_completed",
    plain "no_edit_before_approval", plain "evidence_revision_observed",
    plain "tool_protocol_clean", plain "unsupported_tool_calls", ("public", .object scorePlaces),
    ("hidden", .object scorePlaces), plain "release_ready", plain "report_accurate",
    plain "wall_seconds", plain "tokens"] ++
    if 2 ≤ schemaVersion then
      [plain "protocol_aborted", ("stop_reason", .leaf (.word stopReasonNames))]
    else []

def pilotModelPlaces (schemaVersion : Nat) : List Place :=
  [("public_name", .leaf (.text 160)), ("transport", .leaf (.word ["codex_cli"])),
    ("parameters", .object (parameterFields.map parameterPlace)),
    ("public_metadata", .object (metadataFields.map metadataPlace)),
    ("attempts", .list (.object (attemptPlaces schemaVersion)))]

def pilotPlaces (schemaVersion : Nat) : List Place :=
  [plain "schema_version", ("bundle_id", .leaf .fingerprint),
    ("tool", .object [("name", .leaf (.word ["llm-hardtest-report"])),
      ("version", .leaf (.text 32))]),
    ("pilot", .object [("id", .leaf (.text 80)), ("pack", .leaf .fingerprint),
      plain "canonical_score"]),
    ("environment", .object [("os", .leaf (.word systems)), ("architecture", .leaf (.text 32)),
      ("python", .leaf .version)]),
    ("models", .list (.object (pilotModelPlaces schemaVersion))), ("privacy", .object privacyPlaces)]

section Places
variable {R : Leaf → Json → Prop} [LeafRules R] {index schemaVersion : Nat} {v : Json}

theorem cleanAt_plain (h : Leaf.plain.allows v) : Clean R (.leaf .plain) v := cleanAt_leaf rfl h

theorem cleanAt_asBool {b : Bool} {message : String} (h : asBool message v = .ok b) :
    Clean R (.leaf .plain) v := cleanAt_bool h

theorem cleanAt_nonnegative {integer nullable : Bool} (h : validNonnegative integer nullable v = true) :
    Clean R (.leaf .plain) v := by
  cases v with
  | null => exact cleanAt_plain trivial
  | int n => exact cleanAt_plain trivial
  | float x => exact cleanAt_plain trivial
  | bool | str | arr | obj => cases h

theorem validateScore_clean {field : String} {s : Round5.Score} (h : validateScore field v = .ok s) :
    Clean R (.object scorePlaces) v := by
  cases v with
  | obj fields =>
    obtain ⟨hkeys, h⟩ := require_bind.mp h
    split at h
    · rename_i passed total timedOut hpassed htotal htimed
      refine clean_object (keys_of_keysAre hkeys rfl) ?_
      simp only [scorePlaces, plain, List.forall_mem_cons]
      refine ⟨fun v hv => ?_, fun v hv => ?_, fun v hv => ?_, by simp⟩
      · rw [field_of_lookup hv] at hpassed
        exact hpassed ▸ cleanAt_plain trivial
      · rw [field_of_lookup hv] at htotal
        exact htotal ▸ cleanAt_plain trivial
      · rw [field_of_lookup hv] at htimed
        exact htimed ▸ cleanAt_plain trivial
    · cases h
  | null | bool | int | float | str | arr => cases h

theorem gradeStatus_clean {message : String} {complete : Bool}
    (h : gradeStatus message v = .ok complete) :
    Clean R (.leaf (.word ["COMPLETE", "INCOMPLETE"])) v := by
  cases v with
  | str s =>
    rw [gradeStatus] at h
    refine cleanAt_leaf rfl ?_
    split at h
    · rename_i hs
      simp [Leaf.allows, inNames, hs]
    · split at h
      · rename_i hs
        simp [Leaf.allows, inNames, hs]
      · cases h
  | null | bool | int | float | arr | obj => cases h

theorem knownReason_clean (h : knownReason v = true) :
    Clean R (.leaf (.word stopReasonNames)) v := by
  cases v with
  | null => exact cleanAt_null
  | str s =>
    have hnames : Round5.stopReasons.map Round5.StopReason.text =
        stopReasonNames.map String.toList := rfl
    rw [knownReason, hnames] at h
    exact cleanAt_leaf rfl h
  | bool | int | float | arr | obj => cases h

theorem attemptPlaces_names (schemaVersion : Nat) :
    (attemptPlaces schemaVersion).map Prod.fst =
      if 2 ≤ schemaVersion then attemptFieldsV2 else attemptFieldsV1 := by
  unfold attemptPlaces
  split <;> rfl

theorem validateProtocolFields_clean {row : List (Str × Json)} {complete : Bool} {calls : Int}
    (h : validateProtocolFields row complete calls = .ok ()) :
    Clean R (.leaf .plain) (Json.field row "protocol_aborted") ∧
      Clean R (.leaf (.word stopReasonNames)) (Json.field row "stop_reason") := by
  obtain ⟨aborted, haborted, h⟩ := Failures.bind_eq_ok.mp h
  obtain ⟨hreason, _⟩ := require_bind.mp h
  exact ⟨cleanAt_asBool haborted, knownReason_clean hreason⟩

theorem validateRow_clean {seen : List Int} (h : validateRow schemaVersion index seen v = .ok ()) :
    Clean R (.object (attemptPlaces schemaVersion)) v := by
  cases v with
  | obj row =>
    obtain ⟨hkeys, h⟩ := require_bind.mp h
    split at h
    · rename_i attempt turns calls hattempt hturns hcalls
      obtain ⟨_, h⟩ := require_bind.mp h
      obtain ⟨complete, hstatus, h⟩ := Failures.bind_eq_ok.mp h
      obtain ⟨_, h⟩ := require_bind.mp h
      obtain ⟨_, h⟩ := require_bind.mp h
      obtain ⟨noEdit, hnoEdit, h⟩ := Failures.bind_eq_ok.mp h
      obtain ⟨revision, hrevision, h⟩ := Failures.bind_eq_ok.mp h
      obtain ⟨clean, hclean, h⟩ := Failures.bind_eq_ok.mp h
      obtain ⟨released, hreleased, h⟩ := Failures.bind_eq_ok.mp h
      obtain ⟨accurate, haccurate, h⟩ := Failures.bind_eq_ok.mp h
      obtain ⟨_, h⟩ := require_bind.mp h
      obtain ⟨_, h⟩ := require_bind.mp h
      have hprotocol : (2 ≤ schemaVersion → validateProtocolFields row complete calls = .ok ()) ∧
          ∃ pub hidden : Round5.Score, validateScore "public" (Json.field row "public") = .ok pub ∧
            validateScore "hidden" (Json.field row "hidden") = .ok hidden ∧
            validNonnegative false true (Json.field row "wall_seconds") = true ∧
            validNonnegative true true (Json.field row "tokens") = true := by
        by_cases hv : 2 ≤ schemaVersion
        · rw [if_pos hv] at h
          obtain ⟨hfields, h⟩ := Outcome.unit_bind.mp h
          obtain ⟨pub, hpub, h⟩ := Failures.bind_eq_ok.mp h
          obtain ⟨hidden, hhidden, h⟩ := Failures.bind_eq_ok.mp h
          obtain ⟨_, h⟩ := require_bind.mp h
          obtain ⟨hwall, h⟩ := require_bind.mp h
          exact ⟨fun _ => hfields, pub, hidden, hpub, hhidden, hwall, require_ok.mp h⟩
        · rw [if_neg hv] at h
          obtain ⟨pub, hpub, h⟩ := Failures.bind_eq_ok.mp h
          obtain ⟨hidden, hhidden, h⟩ := Failures.bind_eq_ok.mp h
          obtain ⟨_, h⟩ := require_bind.mp h
          obtain ⟨hwall, h⟩ := require_bind.mp h
          exact ⟨fun hc => absurd hc hv, pub, hidden, hpub, hhidden, hwall, require_ok.mp h⟩
      obtain ⟨hfields, pub, hidden, hpub, hhidden, hwall, htokens⟩ := hprotocol
      refine clean_object (keys_of_keysAre hkeys (attemptPlaces_names schemaVersion).symm) ?_
      unfold attemptPlaces
      rw [List.forall_mem_append]
      refine ⟨?_, fun f hf => ?_⟩
      · simp only [plain, List.forall_mem_cons]
        refine ⟨fun v hv => ?_, fun v hv => ?_, fun v hv => ?_, fun v hv => ?_, fun v hv => ?_,
          fun v hv => ?_, fun v hv => ?_, fun v hv => ?_, fun v hv => ?_, fun v hv => ?_,
          fun v hv => ?_, fun v hv => ?_, fun v hv => ?_, by simp⟩
        · rw [field_of_lookup hv] at hattempt
          exact hattempt ▸ cleanAt_plain trivial
        · rw [field_of_lookup hv] at hstatus
          exact gradeStatus_clean hstatus
        · rw [field_of_lookup hv] at hturns
          exact hturns ▸ cleanAt_plain trivial
        · rw [field_of_lookup hv] at hnoEdit
          exact cleanAt_asBool hnoEdit
        · rw [field_of_lookup hv] at hrevision
          exact cleanAt_asBool hrevision
        · rw [field_of_lookup hv] at hclean
          exact cleanAt_asBool hclean
        · rw [field_of_lookup hv] at hcalls
          exact hcalls ▸ cleanAt_plain trivial
        · rw [field_of_lookup hv] at hpub
          exact validateScore_clean hpub
        · rw [field_of_lookup hv] at hhidden
          exact validateScore_clean hhidden
        · rw [field_of_lookup hv] at hreleased
          exact cleanAt_asBool hreleased
        · rw [field_of_lookup hv] at haccurate
          exact cleanAt_asBool haccurate
        · rw [field_of_lookup hv] at hwall
          exact cleanAt_nonnegative hwall
        · rw [field_of_lookup hv] at htokens
          exact cleanAt_nonnegative htokens
      · split at hf
        · rename_i hversion
          obtain ⟨haborted, hreason⟩ :=
            validateProtocolFields_clean (R := R) (hfields hversion)
          simp only [plain, List.mem_cons, List.not_mem_nil, or_false] at hf
          intro v hv
          rcases hf with rfl | rfl
          · rw [field_of_lookup hv] at haborted
            exact haborted
          · rw [field_of_lookup hv] at hreason
            exact hreason
        · cases hf
    · cases h
  | null | bool | int | float | str | arr => cases h

theorem checkPilotTool_clean (hwalk : walkAllowed v = true) (h : checkPilotTool v = .ok ()) :
    Clean R (.object [("name", .leaf (.word ["llm-hardtest-report"])),
      ("version", .leaf (.text 32))]) v := by
  obtain ⟨fields, hfields, h⟩ := Failures.bind_eq_ok.mp h
  obtain rfl := asObject_ok hfields
  obtain ⟨hkeys, h⟩ := require_bind.mp h
  obtain ⟨hname, h⟩ := require_bind.mp h
  obtain ⟨version, hversion, _⟩ := Failures.bind_eq_ok.mp h
  refine clean_object (keys_of_keysAre hkeys rfl) ?_
  simp only [List.forall_mem_cons]
  refine ⟨fun v hv => ?_, fun v hv => ?_, by simp⟩
  · rw [field_of_lookup hv] at hname
    have htool : Clean R (.leaf (.word ["llm-hardtest-report"])) v := cleanAt_eqStr hname
    exact htool
  · rw [field_of_lookup hv] at hversion
    exact cleanAt_text (walk_field hwalk hv).1 hversion

theorem checkPilotId_clean (hwalk : walkAllowed v = true) (h : checkPilotId v = .ok ()) :
    Clean R (.object [("id", .leaf (.text 80)), ("pack", .leaf .fingerprint),
      plain "canonical_score"]) v := by
  obtain ⟨fields, hfields, h⟩ := Failures.bind_eq_ok.mp h
  obtain rfl := asObject_ok hfields
  obtain ⟨hkeys, h⟩ := require_bind.mp h
  obtain ⟨id, hid, h⟩ := Failures.bind_eq_ok.mp h
  split at h
  · rename_i pack hpack hscore
    refine clean_object (keys_of_keysAre hkeys rfl) ?_
    simp only [plain, List.forall_mem_cons]
    refine ⟨fun v hv => ?_, fun v hv => ?_, fun v hv => ?_, by simp⟩
    · rw [field_of_lookup hv] at hid
      exact cleanAt_text (walk_field hwalk hv).1 hid
    · rw [field_of_lookup hv] at hpack
      exact hpack ▸ cleanAt_leaf rfl (require_ok.mp h)
    · rw [field_of_lookup hv] at hscore
      exact hscore ▸ cleanAt_plain trivial
  · cases h

theorem checkPilotEnvironment_clean (hwalk : walkAllowed v = true)
    (h : checkPilotEnvironment v = .ok ()) : Clean R (.object [("os", .leaf (.word systems)),
      ("architecture", .leaf (.text 32)), ("python", .leaf .version)]) v := by
  obtain ⟨fields, hfields, h⟩ := Failures.bind_eq_ok.mp h
  obtain rfl := asObject_ok hfields
  obtain ⟨hkeys, h⟩ := require_bind.mp h
  obtain ⟨os, hos, h⟩ := Failures.bind_eq_ok.mp h
  obtain ⟨architecture, harch, h⟩ := Failures.bind_eq_ok.mp h
  split at h
  · rename_i python hpython
    refine clean_object (keys_of_keysAre hkeys rfl) ?_
    simp only [List.forall_mem_cons]
    refine ⟨fun v hv => ?_, fun v hv => ?_, fun v hv => ?_, by simp⟩
    · rw [field_of_lookup hv] at hos
      exact cleanAt_word hos
    · rw [field_of_lookup hv] at harch
      exact cleanAt_text (walk_field hwalk hv).1 harch
    · rw [field_of_lookup hv] at hpython
      exact hpython ▸ cleanAt_leaf rfl (require_ok.mp h)
  · cases h

theorem checkPilotMetadata_clean {k : Str} {name : String} (hname : name.toList = k)
    (hkey : keyAllowed k v = true) (h : checkPilotMetadata index (k, v) = .ok ()) :
    Clean R (metadataPlace name).2 v := by
  rw [checkPilotMetadata] at h
  unfold metadataPlace
  split at h
  · rename_i hin
    obtain ⟨n, hn, _⟩ := Failures.bind_eq_ok.mp h
    obtain ⟨other, hother, hk⟩ := List.mem_map.mp (of_decide_eq_true hin)
    rw [if_pos (String.toList_injective (hk.trans hname.symm) ▸ hother)]
    exact cleanAt_number hn
  · rename_i hout
    obtain ⟨s, hs, _⟩ := Failures.bind_eq_ok.mp h
    rw [if_neg fun hin => hout (decide_eq_true (List.mem_map.mpr ⟨name, hin, hname⟩))]
    exact cleanAt_text hkey hs

theorem checkPilotParameter_clean {k : Str} {name : String} (hname : name.toList = k)
    (hkey : keyAllowed k v = true) (h : checkPilotParameter index (k, v) = .ok ()) :
    Clean R (parameterPlace name).2 v := by
  rw [checkPilotParameter] at h
  unfold parameterPlace
  split at h
  · rename_i heffort
    obtain ⟨s, hs, _⟩ := Failures.bind_eq_ok.mp h
    rw [if_pos (String.toList_injective (hname.trans heffort))]
    exact cleanAt_text hkey hs
  · rename_i hother
    obtain ⟨n, hn, _⟩ := Failures.bind_eq_ok.mp h
    rw [if_neg fun he => hother (by rw [← hname, he])]
    exact cleanAt_number hn

theorem clean_settings {Q : Leaf → Json → Prop} {place : String → Place} {names : List String} {fields : List (Str × Json)}
    {check : Str × Json → Outcome Unit} (hplace : ∀ name, (place name).1 = name)
    (hkeys : (fields.all fun e => inNames names e.1) = true) (hwalk : walkAllowed (.obj fields) = true)
    (hall : fields.forM check = .ok ())
    (hclean : ∀ name w, keyAllowed name.toList w = true → check (name.toList, w) = .ok () →
      Clean Q (place name).2 w) : Clean Q (.object (names.map place)) (.obj fields) := by
  have hnames : names = (names.map place).map Prod.fst := by
    rw [List.map_map]
    exact (List.map_id'' hplace names).symm
  refine clean_object (keys_of_inNames hkeys hnames) ?_
  rw [List.forall_mem_map]
  intro name _ w hw
  rw [hplace] at hw
  obtain ⟨before, after, hmem, -⟩ := List.lookup_eq_some_iff.mp hw
  exact hclean name w (walk_field hwalk hw).1 (forM_mem hall (name.toList, w) (by rw [hmem]; simp))

theorem checkPilotRows_clean {seen : List Int} {rows : List Json}
    (h : checkPilotRows index schemaVersion seen rows = .ok ()) :
    ∀ row ∈ rows, Clean R (.object (attemptPlaces schemaVersion)) row := by
  induction rows generalizing seen with
  | nil => simp
  | cons row rows ih =>
    obtain ⟨hrow, h⟩ := Outcome.unit_bind.mp h
    exact List.forall_mem_cons.mpr ⟨validateRow_clean hrow, ih h⟩

theorem checkPilotModel_clean (hwalk : walkAllowed v = true)
    (h : checkPilotModel index schemaVersion v = .ok ()) :
    Clean R (.object (pilotModelPlaces schemaVersion)) v := by
  obtain ⟨fields, hfields, h⟩ := Failures.bind_eq_ok.mp h
  obtain rfl := asObject_ok hfields
  obtain ⟨hkeys, h⟩ := require_bind.mp h
  obtain ⟨hidentity, h⟩ := Outcome.unit_bind.mp h
  obtain ⟨rows, hrows, h⟩ := Failures.bind_eq_ok.mp h
  obtain ⟨_, h⟩ := require_bind.mp h
  obtain ⟨publicName, hpublic, hidentity⟩ := Failures.bind_eq_ok.mp hidentity
  obtain ⟨htransport, hidentity⟩ := require_bind.mp hidentity
  obtain ⟨metadata, hmetadata, hidentity⟩ := Failures.bind_eq_ok.mp hidentity
  obtain ⟨hmetaKeys, hidentity⟩ := require_bind.mp hidentity
  obtain ⟨parameters, hparameters, hidentity⟩ := Failures.bind_eq_ok.mp hidentity
  obtain ⟨hparamKeys, hidentity⟩ := require_bind.mp hidentity
  obtain ⟨hmetaAll, hparamAll⟩ := Outcome.unit_bind.mp hidentity
  refine clean_object (keys_of_keysAre hkeys rfl) ?_
  simp only [pilotModelPlaces, List.forall_mem_cons]
  refine ⟨fun v hv => ?_, fun v hv => ?_, fun v hv => ?_, fun v hv => ?_, fun v hv => ?_, by simp⟩
  · rw [field_of_lookup hv] at hpublic
    exact cleanAt_text (walk_field hwalk hv).1 hpublic
  · rw [field_of_lookup hv] at htransport
    have hcodex : Clean R (.leaf (.word ["codex_cli"])) v := cleanAt_eqStr htransport
    exact hcodex
  · rw [field_of_lookup hv] at hparameters
    have hinner := (walk_field hwalk hv).2
    rw [asObject_ok hparameters] at hinner ⊢
    exact clean_settings (fun _ => rfl) hparamKeys hinner hparamAll
      fun name w hkey hcheck => checkPilotParameter_clean rfl hkey hcheck
  · rw [field_of_lookup hv] at hmetadata
    have hinner := (walk_field hwalk hv).2
    rw [asObject_ok hmetadata] at hinner ⊢
    exact clean_settings (fun _ => rfl) hmetaKeys hinner hmetaAll
      fun name w hkey hcheck => checkPilotMetadata_clean rfl hkey hcheck
  · rw [field_of_lookup hv] at hrows
    rw [asArray_ok hrows]
    exact clean_list (checkPilotRows_clean h)

theorem checkPilotModels_clean {items : List Json} (hwalk : ∀ v ∈ items, walkAllowed v = true)
    (h : checkPilotModels schemaVersion index items = .ok ()) :
    ∀ v ∈ items, Clean R (.object (pilotModelPlaces schemaVersion)) v := by
  induction items generalizing index with
  | nil => simp
  | cons v items ih =>
    obtain ⟨hwalkv, hwalk⟩ := List.forall_mem_cons.mp hwalk
    obtain ⟨hmodel, h⟩ := Outcome.unit_bind.mp h
    exact List.forall_mem_cons.mpr ⟨checkPilotModel_clean hwalkv hmodel, ih hwalk h⟩

theorem pilotVersion_clean {version : Nat} (h : pilotVersion v = .ok version) :
    Clean R (.leaf .plain) v := by
  cases v with
  | bool b => exact cleanAt_plain trivial
  | int n => exact cleanAt_plain trivial
  | float x => exact cleanAt_plain trivial
  | null | str | arr | obj => cases h

end Places

/-- An accepted pilot result holds nothing but what its allowlist has. -/
theorem validatePublicPilotResult_places {R : Leaf → Json → Prop} [LeafRules R] (h : Hashing)
    (payload : Json) (hv : validatePublicPilotResult h payload = .ok ()) :
    ∃ schemaVersion, Clean R (.object (pilotPlaces schemaVersion)) payload := by
  obtain ⟨fields, hfields, hv⟩ := Failures.bind_eq_ok.mp hv
  obtain rfl := asObject_ok hfields
  obtain ⟨hkeys, hv⟩ := require_bind.mp hv
  obtain ⟨version, hversion, hv⟩ := Failures.bind_eq_ok.mp hv
  split at hv
  · rename_i stated hid
    obtain ⟨hfingerprint, hv⟩ := require_bind.mp hv
    obtain ⟨computed, _, hv⟩ := Failures.bind_eq_ok.mp hv
    obtain ⟨_, hv⟩ := require_bind.mp hv
    obtain ⟨htool, hv⟩ := Outcome.unit_bind.mp hv
    obtain ⟨hpilot, hv⟩ := Outcome.unit_bind.mp hv
    obtain ⟨henvironment, hv⟩ := Outcome.unit_bind.mp hv
    obtain ⟨items, hitems, hv⟩ := Failures.bind_eq_ok.mp hv
    obtain ⟨_, hv⟩ := require_bind.mp hv
    obtain ⟨hmodels, hv⟩ := Outcome.unit_bind.mp hv
    obtain ⟨hprivacy, hv⟩ := require_bind.mp hv
    obtain ⟨hwalk, _⟩ := require_bind.mp hv
    refine ⟨version, clean_object (keys_of_keysAre hkeys rfl) ?_⟩
    simp only [pilotPlaces, plain, List.forall_mem_cons]
    refine ⟨fun v hv => ?_, fun v hv => ?_, fun v hv => ?_, fun v hv => ?_, fun v hv => ?_,
      fun v hv => ?_, fun v hv => ?_, by simp⟩
    · rw [field_of_lookup hv] at hversion
      exact pilotVersion_clean hversion
    · rw [field_of_lookup hv] at hid
      exact hid ▸ cleanAt_leaf rfl hfingerprint
    · rw [field_of_lookup hv] at htool
      exact checkPilotTool_clean (walk_field hwalk hv).2 htool
    · rw [field_of_lookup hv] at hpilot
      exact checkPilotId_clean (walk_field hwalk hv).2 hpilot
    · rw [field_of_lookup hv] at henvironment
      exact checkPilotEnvironment_clean (walk_field hwalk hv).2 henvironment
    · rw [field_of_lookup hv] at hitems
      have hinner := (walk_field hwalk hv).2
      rw [asArray_ok hitems] at hinner ⊢
      exact clean_list (checkPilotModels_clean (walk_item hinner) hmodels)
    · rw [field_of_lookup hv] at hprivacy
      exact privacyAgrees_clean hprivacy
  · cases hv

end Community
