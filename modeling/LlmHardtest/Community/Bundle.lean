import LlmHardtest.Campaign.TextRounds
import LlmHardtest.Python.Digest
import LlmHardtest.Python.Numeric
set_option autoImplicit false

/-! Public result bundles, as the validator leaves them, and the identity of a configuration. -/

namespace Community
open Python
open Campaign (Status)

def inNames (names : List String) (key : Str) : Bool := decide (key ∈ names.map String.toList)

def isVersion (s : Str) : Bool :=
  match splitOnChar '.' s with
  | [major, minor] => !major.isEmpty && !minor.isEmpty && (major ++ minor).all Char.isDigit
  | _ => false

abbrev RoundNumber := {n : Nat // 1 ≤ n ∧ n ≤ 4}

def firstRound : RoundNumber := ⟨1, by decide⟩
def secondRound : RoundNumber := ⟨2, by decide⟩
def thirdRound : RoundNumber := ⟨3, by decide⟩
def fourthRound : RoundNumber := ⟨4, by decide⟩

inductive FiniteNum where
  | int (n : Int)
  | float (q : ℚ)
  deriving DecidableEq, Repr

@[simp] def FiniteNum.num : FiniteNum → PyNum
  | .int n => .int n
  | .float q => .float (.finite q)

@[simp] def FiniteNum.json : FiniteNum → Json
  | .int n => .int n
  | .float q => .float (.finite q)

@[simp] def FiniteNum.value : FiniteNum → ℚ
  | .int n => n
  | .float q => q

inductive Setting where
  | text (s : Str)
  | number (n : FiniteNum)
  deriving DecidableEq, Repr

@[simp] def Setting.json : Setting → Json
  | .text s => .str s
  | .number n => n.json

@[simp] def Setting.value : Setting → Str ⊕ ℚ
  | .text s => .inl s
  | .number n => .inr n.value

abbrev Settings := List (Str × Setting)

def Settings.json (s : Settings) : Json := .obj (s.map fun e => (e.1, e.2.json))

def Settings.get (s : Settings) (key : Str) : Option Setting := s.lookup key

/-- `d == e` -/
def Settings.same (d e : Settings) : Bool :=
  (d.map Prod.fst ++ e.map Prod.fst).all fun k =>
    decide ((d.get k).map Setting.value = (e.get k).map Setting.value)

structure Environment where
  os : Str
  architecture : Str
  python : Str
  deriving DecidableEq, Repr

def Environment.json (e : Environment) : Json :=
  .obj [("os".toList, .str e.os), ("architecture".toList, .str e.architecture),
    ("python".toList, .str e.python)]

structure Serving where
  scope : Str
  os : Option Str
  architecture : Option Str
  deriving DecidableEq, Repr

def textOrNull : Option Str → Json
  | none => .null
  | some s => .str s

def Serving.json (s : Serving) : Json :=
  .obj [("scope".toList, .str s.scope), ("os".toList, textOrNull s.os),
    ("architecture".toList, textOrNull s.architecture)]

structure Scaffold where
  agentBackend : Str
  isolationMode : Str
  network : Str
  failClosed : Bool
  deriving DecidableEq, Repr

def Scaffold.json (s : Scaffold) : Json :=
  .obj [("agent_backend".toList, .str s.agentBackend),
    ("isolation_mode".toList, .str s.isolationMode), ("network".toList, .str s.network),
    ("fail_closed".toList, .bool s.failClosed)]

structure ItemOutcome where
  item : Str
  attempt : Int
  status : Status
  wallSeconds : Option FiniteNum
  tokens : Option Int
  deriving Repr

/-- A round of a model entry; `items` is absent before schema 2. -/
structure RoundResult where
  metrics : List (Str × Option FiniteNum)
  items : Option (List ItemOutcome)
  tasks : Option (List (List (Str × Json)))

def RoundResult.metric (r : RoundResult) (key : String) : Option FiniteNum :=
  (r.metrics.lookup key.toList).join

/-- A model entry; the serving environment is absent before schema 3, the scaffold before 4. -/
structure Model where
  publicName : Str
  transport : Str
  serving : Option Serving
  scaffold : Option Scaffold
  rounds : List (RoundNumber × RoundResult)
  parameters : Settings
  publicMetadata : Settings

structure Bundle where
  schemaVersion : Nat
  bundleId : Str
  packs : List (RoundNumber × Fingerprint)
  environment : Environment
  models : List Model

/-- `d[key]` -/
def ofKey {α : Type} : Option α → Outcome α
  | some a => .ok a
  | none => .error .keyError

def normalizedServing (b : Bundle) (m : Model) : Outcome Serving :=
  if 3 ≤ b.schemaVersion then ofKey m.serving
  else .ok { scope := "unreported".toList, os := none, architecture := none }

/-- `normalized_execution_scaffold` -/
def normalizedScaffold (b : Bundle) (m : Model) : Outcome Scaffold :=
  if 4 ≤ b.schemaVersion then ofKey m.scaffold
  else .ok { agentBackend := "codex_cli".toList, isolationMode := "none".toList
             network := "unrestricted".toList, failClosed := false }

/-- What `_configuration_id` and its canonical form take from the library; `nesting` is how deep
the JSON encoder follows lists and objects before it raises. -/
structure Hashing where
  sha : Sha256
  floats : FloatText
  nesting : Nat

def Hashing.canonical (h : Hashing) (v : Json) : Bytes :=
  utf8Encode (dumps ⟨false, false⟩ h.floats v)

def configurationId (h : Hashing) (b : Bundle) (m : Model) : Outcome ConfigurationId := do
  let serving ← normalizedServing b m
  let scaffold ← normalizedScaffold b m
  let identity := Json.obj [
    ("runner_environment".toList, b.environment.json),
    ("serving_environment".toList, serving.json),
    ("execution_scaffold".toList, scaffold.json),
    ("public_name".toList, .str m.publicName),
    ("transport".toList, .str m.transport),
    ("parameters".toList, m.parameters.json),
    ("public_metadata".toList, m.publicMetadata.json)]
  return h.sha.configurationId (h.canonical identity)

structure Identity where
  environment : Environment
  serving : Serving
  model : Str
  transport : Str
  parameters : Settings
  publicMetadata : Settings

/-- `identity == other` -/
def Identity.same (i j : Identity) : Bool :=
  i.environment == j.environment && i.serving == j.serving && i.model == j.model &&
    i.transport == j.transport && i.parameters.same j.parameters &&
    i.publicMetadata.same j.publicMetadata

theorem Settings.get_eq_none {s : Settings} {k : Str} (h : k ∉ s.map Prod.fst) : s.get k = none := by
  rw [Settings.get, List.lookup_eq_none_iff]
  intro e he
  have hne : k ≠ e.1 := fun hk => h (List.mem_map.mpr ⟨e, he, hk.symm⟩)
  simpa using hne

theorem Settings.same_iff {d e : Settings} :
    d.same e = true ↔ ∀ k, (d.get k).map Setting.value = (e.get k).map Setting.value := by
  simp only [Settings.same, List.all_eq_true, List.mem_append, decide_eq_true_eq]
  constructor
  · intro h k
    by_cases hk : k ∈ d.map Prod.fst ∨ k ∈ e.map Prod.fst
    · exact h k hk
    · rw [not_or] at hk
      rw [Settings.get_eq_none hk.1, Settings.get_eq_none hk.2]
  · intro h k _
    exact h k

theorem Identity.same_iff {i j : Identity} : i.same j = true ↔
    i.environment = j.environment ∧ i.serving = j.serving ∧ i.model = j.model ∧
      i.transport = j.transport ∧
      (∀ k, (i.parameters.get k).map Setting.value = (j.parameters.get k).map Setting.value) ∧
      ∀ k, (i.publicMetadata.get k).map Setting.value =
        (j.publicMetadata.get k).map Setting.value := by
  simp only [Identity.same, Bool.and_eq_true, beq_iff_eq, Settings.same_iff, and_assoc]

theorem Identity.same_refl (i : Identity) : i.same i = true := by
  simp [Identity.same_iff]

theorem Identity.same_symm {i j : Identity} (h : i.same j = true) : j.same i = true := by
  obtain ⟨h1, h2, h3, h4, h5, h6⟩ := Identity.same_iff.mp h
  exact Identity.same_iff.mpr ⟨h1.symm, h2.symm, h3.symm, h4.symm, fun k => (h5 k).symm,
    fun k => (h6 k).symm⟩

theorem Identity.same_trans {i j k : Identity} (h : i.same j = true) (h' : j.same k = true) :
    i.same k = true := by
  obtain ⟨h1, h2, h3, h4, h5, h6⟩ := Identity.same_iff.mp h
  obtain ⟨g1, g2, g3, g4, g5, g6⟩ := Identity.same_iff.mp h'
  exact Identity.same_iff.mpr ⟨h1.trans g1, h2.trans g2, h3.trans g3, h4.trans g4,
    fun k => (h5 k).trans (g5 k), fun k => (h6 k).trans (g6 k)⟩

end Community
