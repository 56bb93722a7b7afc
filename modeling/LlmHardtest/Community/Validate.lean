import LlmHardtest.Community.Bundle
import LlmHardtest.Round5.Validate
set_option autoImplicit false

/-! The checks that a public result has to pass, and the bundle that they leave. -/

namespace Community
open Python
open Campaign (Status)
open Round5 (require asBool)

def fail {α : Type} (message : String) : Outcome α := .error (.valueError message.toList)

/-- A value that a set or a dictionary can look up: no list and no object. -/
def hashable : Json → Bool
  | .arr _ => false
  | .obj _ => false
  | _ => true

def hashed (v : Json) : Outcome Unit := if hashable v then .ok () else .error .typeError

/-- `value in names` -/
def memberOf (names : List String) (message : String) : Json → Outcome Str
  | .str s => if inNames names s then .ok s else fail message
  | .arr _ => .error .typeError
  | .obj _ => .error .typeError
  | _ => fail message

def asObject (message : String) : Json → Outcome (List (Str × Json))
  | .obj fields => .ok fields
  | _ => fail message

def asArray (message : String) : Json → Outcome (List Json)
  | .arr items => .ok items
  | _ => fail message

section Texts

def hasInfix (t s : Str) : Bool := s.tails.any fun rest => startsWith rest t

def isAsciiLetter (c : Char) : Bool :=
  (65 ≤ c.toNat && c.toNat ≤ 90) || (97 ≤ c.toNat && c.toNat ≤ 122)

def drivePath : Str → Bool
  | c :: ':' :: d :: _ => isAsciiLetter c && (d == '\\' || d == '/')
  | _ => false

/-- `PRIVATE_STRING.search(s)` -/
def privateString (s : Str) : Bool :=
  startsWith s ['/'] || startsWith s ['~'] || drivePath s || s.contains '\\' ||
    hasInfix "://".toList s || hasInfix "/Users/".toList s || hasInfix "/home/".toList s ||
    s.contains '@' || s.any fun c => decide (c.toNat < 32)

def classRun (count : Nat) (p : Char → Bool) (s : Str) : Bool :=
  decide (count ≤ s.length) && (s.take count).all p

/-- `SECRET_STRING.search(s)` -/
def secretString (s : Str) : Bool :=
  s.tails.any fun rest =>
    (startsWith rest "AKIA".toList &&
      classRun 16 (fun c => c.isDigit || (65 ≤ c.toNat && c.toNat ≤ 90)) (rest.drop 4)) ||
    ["sk-", "gho-", "ghp-", "ghu-", "ghs-", "ghr-"].any fun mark =>
      startsWith rest mark.toList &&
        classRun 16 (fun c => c.isDigit || isAsciiLetter c || c == '_' || c == '-')
          (rest.drop mark.length)

def publicText (maximum : Nat) : Json → Option Str
  | .str value =>
      let text := strip value
      let parts := splitOnChar '/' (text.map fun c => if c = '\\' then '/' else c)
      if text.isEmpty || decide (maximum < text.length) || privateString text || secretString text ||
          parts.any (fun part => part == ['.'] || part == ['.', '.']) then none
      else some text
  | _ => none

def checkedText (maximum : Nat) (message : String) (v : Json) : Outcome Str :=
  match publicText maximum v, v with
  | some _, .str s => .ok s
  | _, _ => fail message

end Texts

section Numbers

/-- A finite number with a further check; `isfinite` raises for an integer too large for a float. -/
def readNumber (ok : ℚ → Bool) (message : String) : Json → Outcome FiniteNum
  | .int n =>
      if floatOverflow ≤ |n| then .error .overflowError
      else if ok n then .ok (.int n) else fail message
  | .float (.finite q) => if ok q then .ok (.float q) else fail message
  | _ => fail message

def readOptional (message : String) : Json → Outcome (Option FiniteNum)
  | .null => .ok none
  | v => do return some (← readNumber (fun q => decide (0 ≤ q)) message v)

def readTokens (message : String) : Json → Outcome (Option Int)
  | .null => .ok none
  | .int n => if 0 ≤ n then .ok (some n) else fail message
  | _ => fail message

end Numbers

def roundFields : List String :=
  ["attempts", "passed", "total", "mean_wall_seconds", "manual_review", "incomplete",
    "infrastructure_errors", "planned_attempts", "release_ready", "handoff_utility",
    "handoff_applicable", "false_green", "tampering", "mean_auto_score", "auto_score_max"]

def taskBooleans : List String := ["release_ready", "false_green", "tampering", "timed_out"]

def taskNumbers : List String :=
  ["attempt", "public_passed", "public_total", "hidden_passed", "hidden_total", "auto_score",
    "wall_seconds", "tokens"]

def itemFields : List String := ["item", "attempt", "status", "wall_seconds", "tokens"]

def metadataFields : List String :=
  ["model_revision", "quantization", "model_format", "parameter_count_b", "server",
    "server_version", "accelerator", "accelerator_count", "memory_gb", "system_memory_gb"]

def metadataNumbers : List String :=
  ["parameter_count_b", "accelerator_count", "memory_gb", "system_memory_gb"]

def parameterFields : List String :=
  ["reasoning_effort", "context_window", "max_tokens", "temperature", "top_p", "top_k", "min_p"]

def forbiddenKeys : List String :=
  ["api_key", "api_key_env", "base_url", "content", "error", "generated_at", "key", "label",
    "prompt", "raw_usage", "response", "run_id", "transcript"]

def Status.name : Status → String
  | .pass => "PASS"
  | .fail => "FAIL"
  | .incomplete => "INCOMPLETE"
  | .review => "REVIEW"
  | .invalid => "INVALID"

def allStatuses : List Status := [.pass, .fail, .incomplete, .review, .invalid]

def readStatus (message : String) : Json → Outcome Status
  | .str s =>
      match allStatuses.find? fun status => (Status.name status).toList == s with
      | some status => .ok status
      | none => fail message
  | .arr _ => .error .typeError
  | .obj _ => .error .typeError
  | _ => fail message

def roundOfKey (key : Str) : Option RoundNumber :=
  if key = "1".toList then some firstRound
  else if key = "2".toList then some secondRound
  else if key = "3".toList then some thirdRound
  else if key = "4".toList then some fourthRound
  else none

def modelMessage (index : Nat) (message : String) : String :=
  "public model " ++ toString index ++ message

variable (index : Nat)

def readIdentity (seen : List ItemOutcome) (fields : List (Str × Json)) : Outcome (Str × Int) := do
  let invalid := modelMessage index " item outcome is invalid"
  hashed (Json.field fields "item")
  hashed (Json.field fields "attempt")
  let item ← checkedText 80 invalid (Json.field fields "item")
  match Json.field fields "attempt" with
  | .int attempt => do
      require (seen.all fun other => !(other.item == item && other.attempt == attempt)) invalid
      require (decide (1 ≤ attempt)) invalid
      return (item, attempt)
  | _ => fail invalid

def readItem (seen : List ItemOutcome) (v : Json) : Outcome ItemOutcome := do
  let fields ← asObject (modelMessage index " has an invalid item outcome") v
  require (Json.keysAre fields itemFields) (modelMessage index " has an invalid item outcome")
  let identity ← readIdentity index seen fields
  let status ← readStatus (modelMessage index " item outcome is invalid") (Json.field fields "status")
  let wallSeconds ← readOptional (modelMessage index " item wall_seconds is invalid")
    (Json.field fields "wall_seconds")
  let tokens ← readTokens (modelMessage index " item tokens is invalid") (Json.field fields "tokens")
  return { item := identity.1, attempt := identity.2, status, wallSeconds, tokens }

def readItems (seen : List ItemOutcome) : List Json → Outcome (List ItemOutcome)
  | [] => .ok seen
  | v :: vs => do
      let item ← readItem index seen v
      readItems (seen ++ [item]) vs

def checkTaskField (field : Str × Json) : Outcome Unit :=
  let message := modelMessage index (" task " ++ String.ofList field.1 ++ " is invalid")
  if field.1 = "task".toList then .ok ()
  else if inNames taskBooleans field.1 then do
    let _ ← asBool message field.2
    return ()
  else if field.1 = "handoff_utility".toList then
    match field.2 with
    | .null => .ok ()
    | v => do
        let _ ← asBool message v
        return ()
  else do
    let _ ← readOptional message field.2
    return ()

def readTask (v : Json) : Outcome (List (Str × Json)) := do
  let fields ← asObject (modelMessage index " has an invalid task row") v
  require (fields.all fun e =>
      inNames (["task", "handoff_utility"] ++ taskBooleans ++ taskNumbers) e.1)
    (modelMessage index " has an invalid task row")
  let _ ← checkedText 80 (modelMessage index " has an unsafe task id") (Json.field fields "task")
  fields.forM (checkTaskField index)
  return fields

def readItemList (v : Json) : Outcome (List ItemOutcome) := do
  let rows ← asArray (modelMessage index " items must be a list") v
  readItems index [] rows

def readTaskList (v : Json) : Outcome (List (List (Str × Json))) := do
  let rows ← asArray (modelMessage index " tasks must be a list") v
  rows.mapM (readTask index)

def roundMessage (key : Str) (message : String) : String :=
  modelMessage index (" round " ++ String.ofList key ++ message)

def readMetric (e : Str × Json) : Outcome (Str × Option FiniteNum) := do
  let value ← readOptional (modelMessage index (" round metric " ++ String.ofList e.1 ++
    " is invalid")) e.2
  return (e.1, value)

inductive RoundPart where
  | items (items : List ItemOutcome)
  | tasks (tasks : List (List (Str × Json)))
  | metric (metric : Str × Option FiniteNum)

def RoundPart.asItems : RoundPart → Option (List ItemOutcome)
  | .items list => some list
  | _ => none

def RoundPart.asTasks : RoundPart → Option (List (List (Str × Json)))
  | .tasks list => some list
  | _ => none

def RoundPart.asMetric : RoundPart → Option (Str × Option FiniteNum)
  | .metric entry => some entry
  | _ => none

def readRoundField (e : Str × Json) : Outcome RoundPart :=
  if e.1 = "items".toList then (readItemList index e.2).map .items
  else if e.1 = "tasks".toList then (readTaskList index e.2).map .tasks
  else (readMetric index e).map .metric

def RoundResult.ofParts (parts : List RoundPart) : RoundResult :=
  { metrics := parts.filterMap RoundPart.asMetric
    items := parts.findSome? RoundPart.asItems
    tasks := parts.findSome? RoundPart.asTasks }

def countStatus (items : List ItemOutcome) (status : Status) : Nat :=
  items.countP fun item => item.status = status

def expectedMetrics (round : RoundNumber) (items : List ItemOutcome) : List (String × Nat) :=
  if round.1 = 4 then [("release_ready", countStatus items .pass)]
  else [("passed", countStatus items .pass),
    ("total", countStatus items .pass + countStatus items .fail),
    ("incomplete", countStatus items .incomplete), ("manual_review", countStatus items .review),
    ("infrastructure_errors", countStatus items .invalid)]

def metricAgrees (metrics : List (Str × Option FiniteNum)) (e : String × Nat) : Bool :=
  match metrics.lookup e.1.toList with
  | none => true
  | some none => false
  | some (some n) => decide (n.value = e.2)

def readRound (schemaVersion : Nat) (rounds : List Int) (entry : Str × Json) :
    Outcome (RoundNumber × RoundResult) := do
  let fields ← asObject (roundMessage index entry.1 " is invalid") entry.2
  match roundOfKey entry.1 with
  | none => fail (modelMessage index " contains an unselected round")
  | some round => do
      require (decide ((round.1 : Int) ∈ rounds)) (modelMessage index " contains an unselected round")
      require (fields.all fun e => inNames (roundFields ++ (if round.1 = 4 then ["tasks"] else []) ++
          (if 2 ≤ schemaVersion then ["items"] else [])) e.1)
        (roundMessage index entry.1 " has extra fields")
      require (decide (schemaVersion < 2) || decide ("items".toList ∈ fields.map Prod.fst))
        (roundMessage index entry.1 " has no item outcomes")
      let parts ← fields.mapM (readRoundField index)
      let result := RoundResult.ofParts parts
      require (decide (schemaVersion < 2) ||
          (expectedMetrics round (result.items.getD [])).all (metricAgrees result.metrics))
        (roundMessage index entry.1 " contradicts item outcomes")
      return (round, result)

def readScaffold (v : Json) : Outcome Scaffold := do
  let message := modelMessage index " execution scaffold is invalid"
  let fields ← asObject message v
  require (Json.keysAre fields ["agent_backend", "isolation_mode", "network", "fail_closed"]) message
  let agentBackend ← memberOf ["codex_cli", "opencode_cli", "pi_cli"] message
    (Json.field fields "agent_backend")
  let isolationMode ← memberOf ["none", "macos_seatbelt"] message (Json.field fields "isolation_mode")
  let network ← memberOf ["unrestricted", "model_endpoint_only"] message (Json.field fields "network")
  let failClosed ← asBool message (Json.field fields "fail_closed")
  require (!(isolationMode == "macos_seatbelt".toList &&
    (!failClosed || network != "model_endpoint_only".toList))) message
  require (!(isolationMode == "none".toList && (failClosed || network != "unrestricted".toList)))
    message
  return { agentBackend, isolationMode, network, failClosed }

def systems : List String := ["Linux", "Darwin", "Windows", "Other"]

def readCoordinate (message : String) (check : Json → Outcome Str) : Json → Outcome (Option Str)
  | .null => .ok none
  | .str s => do return some (← check (.str s))
  | _ => fail message

def readServing (environment : Environment) (v : Json) : Outcome Serving := do
  let message := modelMessage index " serving environment is invalid"
  let fields ← asObject message v
  require (Json.keysAre fields ["scope", "os", "architecture"]) message
  let scope ← memberOf ["same_host", "remote", "unreported"] message (Json.field fields "scope")
  let os ← readCoordinate message (memberOf systems message) (Json.field fields "os")
  let architecture ← readCoordinate message (checkedText 32 message)
    (Json.field fields "architecture")
  require (!(scope == "same_host".toList && (os != some environment.os ||
      architecture != some environment.architecture)))
    (modelMessage index " same_host environment contradicts runner")
  require (!(scope == "unreported".toList && (os.isSome || architecture.isSome)))
    (modelMessage index " unreported environment has coordinates")
  return { scope, os, architecture }

def readMetadata (e : Str × Json) : Outcome (Str × Setting) :=
  if inNames metadataNumbers e.1 then do
    let n ← readNumber (fun q => decide (0 < q))
      (modelMessage index (" metadata " ++ String.ofList e.1 ++ " is invalid")) e.2
    return (e.1, .number n)
  else do
    let s ← checkedText 160 (modelMessage index (" metadata " ++ String.ofList e.1 ++ " is unsafe")) e.2
    return (e.1, .text s)

def readParameter (e : Str × Json) : Outcome (Str × Setting) :=
  if e.1 = "reasoning_effort".toList then do
    let s ← checkedText 32 (modelMessage index " reasoning effort is invalid") e.2
    return (e.1, .text s)
  else do
    let n ← readNumber (fun _ => true)
      (modelMessage index (" parameter " ++ String.ofList e.1 ++ " is invalid")) e.2
    return (e.1, .number n)

/-- `set(value) - names`, before the value is known to be an object: the keys of an object, the
characters of a string or the elements of a list. -/
def checkNames (names : List String) (message : String) : Json → Outcome Unit
  | .obj fields => require (fields.all fun e => inNames names e.1) message
  | .str s => require (s.all fun c => inNames names [c]) message
  | .arr items => do
      items.forM hashed
      require (items.all fun item => names.any fun name => item.eqStr name.toList) message
  | _ => .error .typeError

def itemsOf : Json → Outcome (List (Str × Json))
  | .obj fields => .ok fields
  | _ => .error .attributeError

/-- A check of a field that a schema version introduced. -/
def since {α : Type} (first schemaVersion : Nat) (check : Outcome α) : Outcome (Option α) :=
  if first ≤ schemaVersion then check.map some else .ok none

def modelFields (schemaVersion : Nat) : List String :=
  ["public_name", "transport", "rounds", "parameters", "public_metadata"] ++
    (if 3 ≤ schemaVersion then ["serving_environment"] else []) ++
    (if 4 ≤ schemaVersion then ["execution_scaffold"] else [])

def readModel (schemaVersion : Nat) (rounds : List Int) (environment : Environment) (v : Json) :
    Outcome Model := do
  let fields ← asObject (modelMessage index " has unexpected fields") v
  require (Json.keysAre fields (modelFields schemaVersion))
    (modelMessage index " has unexpected fields")
  let publicName ← checkedText 160 (modelMessage index " has an unsafe public_name")
    (Json.field fields "public_name")
  let transport ← memberOf ["openai_compat", "codex_cli"]
    (modelMessage index " has an invalid transport") (Json.field fields "transport")
  let scaffold ← since 4 schemaVersion (readScaffold index (Json.field fields "execution_scaffold"))
  let serving ← since 3 schemaVersion
    (readServing index environment (Json.field fields "serving_environment"))
  let roundFields ← asObject (modelMessage index " rounds must be an object")
    (Json.field fields "rounds")
  require (roundFields.all fun e => decide (e.1 ∈ rounds.map fun n => (toString n).toList))
    (modelMessage index " contains an unselected round")
  let results ← roundFields.mapM (readRound index schemaVersion rounds)
  checkNames metadataFields (modelMessage index " metadata is not allowlisted")
    (Json.field fields "public_metadata")
  checkNames parameterFields (modelMessage index " parameters are not allowlisted")
    (Json.field fields "parameters")
  let metadata ← itemsOf (Json.field fields "public_metadata")
  let publicMetadata ← metadata.mapM (readMetadata index)
  let settings ← itemsOf (Json.field fields "parameters")
  let parameters ← settings.mapM (readParameter index)
  return { publicName, transport, serving, scaffold, rounds := results, parameters, publicMetadata }

def readModels (schemaVersion : Nat) (rounds : List Int) (environment : Environment) :
    Nat → List Json → Outcome (List Model)
  | _, [] => .ok []
  | index, v :: vs => do
      let model ← readModel index schemaVersion rounds environment v
      return model :: (← readModels schemaVersion rounds environment (index + 1) vs)

def readRounds : List Json → Outcome (List Int)
  | [] => .ok []
  | .int n :: vs => do
      require (decide (1 ≤ n) && decide (n ≤ 4)) "public result selected rounds are invalid"
      return n :: (← readRounds vs)
  | _ => fail "public result selected rounds are invalid"

def readPack (e : Str × Json) : Outcome (RoundNumber × Fingerprint) :=
  match roundOfKey e.1, e.2 with
  | some round, .str s =>
      if hs : isFingerprint s = true then .ok (round, ⟨s, hs⟩)
      else fail "public result pack fingerprints are invalid"
  | _, _ => fail "public result pack fingerprints are invalid"

def readBenchmark (v : Json) : Outcome (List Int × List (RoundNumber × Fingerprint)) := do
  let fields ← asObject "public result benchmark identity is invalid" v
  require (Json.keysAre fields ["rounds", "packs"]) "public result benchmark identity is invalid"
  let items ← asArray "public result selected rounds are invalid" (Json.field fields "rounds")
  let rounds ← readRounds items
  require (!rounds.isEmpty && decide rounds.Nodup) "public result selected rounds are invalid"
  let packFields ← asObject "public result pack fingerprints are invalid" (Json.field fields "packs")
  require (Json.keysAre packFields (rounds.map toString))
    "public result pack fingerprints are invalid"
  let packs ← packFields.mapM readPack
  return (rounds, packs)

def readEnvironment (v : Json) : Outcome Environment := do
  let message := "public result environment is invalid"
  let fields ← asObject message v
  require (Json.keysAre fields ["os", "architecture", "python"]) message
  let os ← memberOf systems message (Json.field fields "os")
  let architecture ← checkedText 32 message (Json.field fields "architecture")
  match Json.field fields "python" with
  | .str python => do
      require (isVersion python) message
      return { os, architecture, python }
  | _ => fail message

def checkTool (v : Json) : Outcome Unit := do
  let message := "public result tool identity is invalid"
  let fields ← asObject message v
  require (Json.keysAre fields ["name", "version"]) message
  require ((Json.field fields "name").eqStr "llm-hardtest-report".toList) message
  let _ ← checkedText 32 message (Json.field fields "version")
  return ()

def privacyAgrees : Json → Bool
  | .obj fields =>
      Json.keysAre fields ["raw_artifacts_included", "credentials_included", "local_paths_included",
        "submission_mode"] &&
      (Json.field fields "raw_artifacts_included").eqBool false &&
      (Json.field fields "credentials_included").eqBool false &&
      (Json.field fields "local_paths_included").eqBool false &&
      (Json.field fields "submission_mode").eqStr "explicit-opt-in".toList
  | _ => false

def keyAllowed (key : Str) (v : Json) : Bool :=
  !inNames forbiddenKeys key &&
    match v with
    | .str s => !(privateString s || secretString s)
    | _ => true

mutual

def depth : Json → Nat
  | .obj fields => depthFields fields + 1
  | .arr items => depthItems items + 1
  | _ => 0

def depthFields : List (Str × Json) → Nat
  | [] => 0
  | (_, v) :: es => max (depth v) (depthFields es)

def depthItems : List Json → Nat
  | [] => 0
  | v :: vs => max (depth v) (depthItems vs)

end

mutual

/-- No key of `_walk` is forbidden and no string under a key looks private. -/
def walkAllowed : Json → Bool
  | .obj fields => walkFields fields
  | .arr items => walkItems items
  | _ => true

def walkFields : List (Str × Json) → Bool
  | [] => true
  | (key, v) :: es => keyAllowed key v && walkAllowed v && walkFields es

def walkItems : List Json → Bool
  | [] => true
  | v :: vs => walkAllowed v && walkItems vs

end

/-- `_bundle_id`, of an object that nests no deeper than the encoder does. -/
def bundleIdOf (h : Hashing) (withoutId : List (Str × Json)) : Str :=
  "sha256:".toList ++ h.sha.hexdigest (h.canonical (.obj withoutId))

def Hashing.bundleId (h : Hashing) (withoutId : List (Str × Json)) : Outcome Str :=
  if h.nesting < depth (.obj withoutId) then .error .recursionError
  else .ok (bundleIdOf h withoutId)

def validatePublicResult (h : Hashing) (payload : Json) : Outcome Bundle := do
  let fields ← asObject "public result must be a JSON object" payload
  let unexpected := "public result has unsupported or unexpected top-level fields"
  require (Json.keysAre fields ["schema_version", "bundle_id", "tool", "benchmark", "environment",
    "models", "privacy"]) unexpected
  match Json.field fields "schema_version", Json.field fields "bundle_id" with
  | .int version, .str stated => do
      require (decide (1 ≤ version) && decide (version ≤ 4)) unexpected
      let mismatch := "public result bundle_id does not match its content"
      require (isFingerprint stated) mismatch
      let computed ← h.bundleId (fields.filter fun e => e.1 ≠ "bundle_id".toList)
      require (stated == computed) mismatch
      checkTool (Json.field fields "tool")
      let benchmark ← readBenchmark (Json.field fields "benchmark")
      let environment ← readEnvironment (Json.field fields "environment")
      let items ← asArray "public result requires at least one model" (Json.field fields "models")
      require (!items.isEmpty) "public result requires at least one model"
      let models ← readModels version.toNat benchmark.1 environment 1 items
      require (privacyAgrees (Json.field fields "privacy"))
        "public result privacy declaration is invalid"
      require (walkAllowed payload) "private-looking string or forbidden private field"
      -- The payload nests as deep as the object that was encoded for its id.
      require (decide ((h.canonical payload).length ≤ 2000000)) "public result is too large"
      return { schemaVersion := version.toNat, bundleId := stated, packs := benchmark.2, environment, models }
  | .int _, _ => fail "public result bundle_id does not match its content"
  | _, _ => fail unexpected

end Community
