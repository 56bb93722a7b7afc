import LlmHardtest.Community.Leaks
import LlmHardtest.Library.Failures
set_option autoImplicit false

/-! Which public results the validator refuses with another error than its own. -/

namespace Community
open Python Failures
open Round5 (require asBool)

/-- `ValueError` -/
def Refusal (e : Raised) : Prop := ∃ message, e = .valueError message

/-- It returns, or it raises `ValueError`. -/
def Graceful {α : Type} (x : Outcome α) : Prop := RaisesOnly Refusal x

/-- A number that `isfinite` takes: no integer too large for a float. -/
def measurable : Json → Bool
  | .int n => decide (|n| < floatOverflow)
  | _ => true

section Checks
variable {index : Nat} {message : String} {v : Json} {fields : List (Str × Json)}

theorem graceful_fail {α : Type} : Graceful (fail message : Outcome α) :=
  raisesOnly_error.mpr ⟨_, rfl⟩

theorem graceful_require {b : Bool} : Graceful (require b message) := by
  cases b with
  | true => exact raisesOnly_ok
  | false => exact raisesOnly_error.mpr ⟨_, rfl⟩

theorem graceful_asObject : Graceful (asObject message v) := by
  cases v with
  | obj fields => exact raisesOnly_ok
  | null | bool | int | float | str | arr => exact graceful_fail

theorem graceful_asArray : Graceful (asArray message v) := by
  cases v with
  | arr items => exact raisesOnly_ok
  | null | bool | int | float | str | obj => exact graceful_fail

theorem graceful_asBool : Graceful (asBool message v) := by
  cases v with
  | bool b => exact raisesOnly_ok
  | null | int | float | str | arr | obj => exact raisesOnly_error.mpr ⟨_, rfl⟩

theorem graceful_checkedText {maximum : Nat} : Graceful (checkedText maximum message v) := by
  unfold checkedText
  split
  · exact raisesOnly_ok
  · exact graceful_fail

theorem graceful_readTokens : Graceful (readTokens message v) := by
  cases v with
  | null => exact raisesOnly_ok
  | int n =>
    rw [readTokens]
    split
    · exact raisesOnly_ok
    · exact graceful_fail
  | bool | float | str | arr | obj => exact graceful_fail

theorem not_graceful {α : Type} {e : Raised} (h : ∀ message, e ≠ .valueError message) :
    ¬ Graceful (.error e : Outcome α) := by
  intro hg
  obtain ⟨message, hm⟩ := raisesOnly_error.mp hg
  exact h message hm

theorem graceful_hashed : Graceful (hashed v) ↔ hashable v = true := by
  rw [hashed]
  cases hashable v with
  | true => exact iff_of_true raisesOnly_ok rfl
  | false => exact iff_of_false (not_graceful fun _ h => by cases h) Bool.false_ne_true

theorem graceful_memberOf {names : List String} :
    Graceful (memberOf names message v) ↔ hashable v = true := by
  cases v with
  | str s =>
    refine iff_of_true ?_ rfl
    rw [memberOf]
    split
    · exact raisesOnly_ok
    · exact graceful_fail
  | arr | obj => exact iff_of_false (not_graceful fun _ h => by cases h) Bool.false_ne_true
  | null | bool | int | float => exact iff_of_true graceful_fail rfl

theorem graceful_readStatus : Graceful (readStatus message v) ↔ hashable v = true := by
  cases v with
  | str s =>
    refine iff_of_true ?_ rfl
    rw [readStatus]
    split
    · exact raisesOnly_ok
    · exact graceful_fail
  | arr | obj => exact iff_of_false (not_graceful fun _ h => by cases h) Bool.false_ne_true
  | null | bool | int | float => exact iff_of_true graceful_fail rfl

theorem graceful_readNumber {ok : ℚ → Bool} :
    Graceful (readNumber ok message v) ↔ measurable v = true := by
  cases v with
  | int n =>
    rw [readNumber, measurable, decide_eq_true_eq]
    split
    · rename_i h
      exact iff_of_false (not_graceful fun _ h => by cases h) h.not_gt
    · rename_i h
      refine iff_of_true ?_ (not_le.mp h)
      split
      · exact raisesOnly_ok
      · exact graceful_fail
  | float x =>
    refine iff_of_true ?_ rfl
    cases x with
    | finite q =>
      rw [readNumber]
      split
      · exact raisesOnly_ok
      · exact graceful_fail
    | inf | nan => exact graceful_fail
  | null | bool | str | arr | obj => exact iff_of_true graceful_fail rfl

theorem graceful_readOptional : Graceful (readOptional message v) ↔ measurable v = true := by
  have hread : ∀ w, Graceful (do return some (← readNumber (fun q => decide (0 ≤ q)) message w) :
      Outcome (Option FiniteNum)) ↔ measurable w = true := by
    intro w
    have hnumber : Graceful (readNumber (fun q => decide (0 ≤ q)) message w) ↔ measurable w = true :=
      graceful_readNumber
    rw [← hnumber]
    exact raisesOnly_bind.trans ⟨fun h => h.1, fun h => ⟨h, fun _ _ => raisesOnly_pure⟩⟩
  cases v with
  | null => exact iff_of_true raisesOnly_ok rfl
  | bool | int | float | str | arr | obj => exact hread _

end Checks

section Sequences
variable {α β : Type} {index : Nat} {message : String} {v : Json}

theorem returns_imp {x : Outcome α} {q : Prop} : (x.returns → q) ↔ ∀ a, x = .ok a → q :=
  ⟨fun h a ha => h ⟨a, ha⟩, fun h hx => hx.elim h⟩

theorem graceful_then {x : Outcome α} {f : α → Outcome β} {p q : Prop} (hx : Graceful x ↔ p)
    (hf : ∀ a, x = .ok a → (Graceful (f a) ↔ q)) : Graceful (x >>= f) ↔ p ∧ (x.returns → q) :=
  (raisesOnly_then hx hf).trans (and_congr_right fun _ => returns_imp.symm)

theorem graceful_after {x : Outcome α} {f : α → Outcome β} {q : Prop} (hx : Graceful x)
    (hf : ∀ a, x = .ok a → (Graceful (f a) ↔ q)) : Graceful (x >>= f) ↔ (x.returns → q) :=
  (raisesOnly_after hx hf).trans returns_imp.symm

theorem graceful_object {f : List (Str × Json) → Outcome β} {q : List (Str × Json) → Prop}
    (hf : ∀ fields, v = .obj fields → (Graceful (f fields) ↔ q fields)) :
    Graceful (asObject message v >>= f) ↔ ∀ fields, v = .obj fields → q fields := by
  refine (raisesOnly_after graceful_asObject fun fields h => hf fields (asObject_ok h)).trans ?_
  exact forall_congr' fun fields => ⟨fun h hv => h (by rw [hv]; rfl), fun h hv => h (asObject_ok hv)⟩

theorem graceful_array {f : List Json → Outcome β} {q : List Json → Prop}
    (hf : ∀ items, v = .arr items → (Graceful (f items) ↔ q items)) :
    Graceful (asArray message v >>= f) ↔ ∀ items, v = .arr items → q items := by
  refine (raisesOnly_after graceful_asArray fun items h => hf items (asArray_ok h)).trans ?_
  exact forall_congr' fun items => ⟨fun h hv => h (by rw [hv]; rfl), fun h hv => h (asArray_ok hv)⟩

theorem graceful_check {b : Bool} {f : Unit → Outcome β} {q : Prop}
    (hf : b = true → (Graceful (f ()) ↔ q)) : Graceful (require b message >>= f) ↔ (b = true → q) := by
  refine (raisesOnly_after graceful_require fun _ h => hf (Round5.require_ok.mp h)).trans ?_
  exact ⟨fun h hb => h () (Round5.require_ok.mpr hb), fun h _ hb => h (Round5.require_ok.mp hb)⟩

theorem graceful_map {x : Outcome α} {f : α → β} : Graceful (x.map f) ↔ Graceful x := raisesOnly_map

theorem graceful_last {x : Outcome α} {f : α → Outcome β} {p : Prop} (hx : Graceful x ↔ p)
    (hf : ∀ a, x = .ok a → Graceful (f a)) : Graceful (x >>= f) ↔ p :=
  raisesOnly_bind.trans ⟨fun h => hx.mp h.1, fun h => ⟨hx.mpr h, hf⟩⟩

end Sequences

section Operands
variable (index : Nat)

structure ItemOperands (seen : List ItemOutcome) (fields : List (Str × Json)) : Prop where
  item : hashable (Json.field fields "item") = true
  attempt : hashable (Json.field fields "attempt") = true
  status : (readIdentity index seen fields).returns → hashable (Json.field fields "status") = true
  wall : (readIdentity index seen fields).returns →
    (readStatus (modelMessage index " item outcome is invalid") (Json.field fields "status")).returns →
      measurable (Json.field fields "wall_seconds") = true

def measuredKey (k : Str) : Bool := !inNames (["task", "handoff_utility"] ++ taskBooleans) k

def TaskOperands (fields : List (Str × Json)) : Prop :=
  ∀ e, Reached (fun e => checkTaskField index e = .ok ()) fields e →
    measuredKey e.1 = true → measurable e.2 = true

def ItemListOperands (v : Json) : Prop :=
  ∀ rows, v = .arr rows → ∀ before row after, rows = before ++ row :: after →
    ∀ seen, readItems index [] before = .ok seen →
      ∀ fields, row = .obj fields → Json.keysAre fields itemFields = true →
        ItemOperands index seen fields

def TaskListOperands (v : Json) : Prop :=
  ∀ rows, v = .arr rows → ∀ row, Reached (fun row => (readTask index row).returns) rows row →
    ∀ fields, row = .obj fields →
      (fields.all fun e =>
        inNames (["task", "handoff_utility"] ++ taskBooleans ++ taskNumbers) e.1) = true →
      (checkedText 80 (modelMessage index " has an unsafe task id") (Json.field fields "task")).returns →
        TaskOperands index fields

def RoundFieldOperands (e : Str × Json) : Prop :=
  if e.1 = "items".toList then ItemListOperands index e.2
  else if e.1 = "tasks".toList then TaskListOperands index e.2
  else measurable e.2 = true

structure RoundOpened (schemaVersion : Nat) (rounds : List Int) (entry : Str × Json)
    (round : RoundNumber) (fields : List (Str × Json)) : Prop where
  object : entry.2 = .obj fields
  key : roundOfKey entry.1 = some round
  selected : (round.1 : Int) ∈ rounds
  allowed : (fields.all fun e => inNames (roundFields ++ (if round.1 = 4 then ["tasks"] else []) ++
    (if 2 ≤ schemaVersion then ["items"] else [])) e.1) = true
  listed : schemaVersion < 2 ∨ "items".toList ∈ fields.map Prod.fst

def RoundOperands (schemaVersion : Nat) (rounds : List Int) (entry : Str × Json) : Prop :=
  ∀ round fields, RoundOpened schemaVersion rounds entry round fields →
    ∀ e, Reached (fun e => (readRoundField index e).returns) fields e → RoundFieldOperands index e

structure ScaffoldOperands (fields : List (Str × Json)) : Prop where
  agentBackend : hashable (Json.field fields "agent_backend") = true
  isolationMode :
    (memberOf ["codex_cli", "opencode_cli", "pi_cli"]
      (modelMessage index " execution scaffold is invalid") (Json.field fields "agent_backend")).returns →
      hashable (Json.field fields "isolation_mode") = true
  network :
    (memberOf ["codex_cli", "opencode_cli", "pi_cli"]
      (modelMessage index " execution scaffold is invalid") (Json.field fields "agent_backend")).returns →
    (memberOf ["none", "macos_seatbelt"]
      (modelMessage index " execution scaffold is invalid") (Json.field fields "isolation_mode")).returns →
      hashable (Json.field fields "network") = true

def listable : Json → Bool
  | .obj _ => true
  | .str _ => true
  | .arr items => items.all hashable
  | _ => false

def MetadataOperands (entries : List (Str × Json)) : Prop :=
  ∀ e, Reached (fun e => (readMetadata index e).returns) entries e →
    inNames metadataNumbers e.1 = true → measurable e.2 = true

def ParameterOperands (entries : List (Str × Json)) : Prop :=
  ∀ e, Reached (fun e => (readParameter index e).returns) entries e →
    e.1 ≠ "reasoning_effort".toList → measurable e.2 = true

end Operands

section Operands
variable (index schemaVersion : Nat) (rounds : List Int) (environment : Environment)
  (fields : List (Str × Json))

structure NameAccepted : Prop where
  publicName : (checkedText 160 (modelMessage index " has an unsafe public_name")
    (Json.field fields "public_name")).returns
  transport : (memberOf ["openai_compat", "codex_cli"] (modelMessage index " has an invalid transport")
    (Json.field fields "transport")).returns

structure HeadAccepted : Prop extends NameAccepted index fields where
  scaffold : (since 4 schemaVersion
    (readScaffold index (Json.field fields "execution_scaffold"))).returns
  serving : (since 3 schemaVersion
    (readServing index environment (Json.field fields "serving_environment"))).returns

def RoundsSelected (entries : List (Str × Json)) : Prop :=
  (entries.all fun e => decide (e.1 ∈ rounds.map fun n => (toString n).toList)) = true

structure RoundsAccepted : Prop extends HeadAccepted index schemaVersion environment fields where
  entries : ∃ entries, Json.field fields "rounds" = .obj entries ∧ RoundsSelected rounds entries ∧
    (entries.mapM (readRound index schemaVersion rounds)).returns

structure NamesAccepted : Prop extends
    RoundsAccepted index schemaVersion rounds environment fields where
  metadata : (checkNames metadataFields (modelMessage index " metadata is not allowlisted")
    (Json.field fields "public_metadata")).returns
  parameters : (checkNames parameterFields (modelMessage index " parameters are not allowlisted")
    (Json.field fields "parameters")).returns

structure ModelOperands : Prop where
  transport : (checkedText 160 (modelMessage index " has an unsafe public_name")
    (Json.field fields "public_name")).returns → hashable (Json.field fields "transport") = true
  scaffold : NameAccepted index fields → 4 ≤ schemaVersion → ∀ inner,
    Json.field fields "execution_scaffold" = .obj inner →
      Json.keysAre inner ["agent_backend", "isolation_mode", "network", "fail_closed"] = true →
        ScaffoldOperands index inner
  serving : NameAccepted index fields →
    (since 4 schemaVersion (readScaffold index (Json.field fields "execution_scaffold"))).returns →
      3 ≤ schemaVersion → ∀ inner, Json.field fields "serving_environment" = .obj inner →
        Json.keysAre inner ["scope", "os", "architecture"] = true →
          hashable (Json.field inner "scope") = true
  roundEntries : HeadAccepted index schemaVersion environment fields → ∀ entries,
    Json.field fields "rounds" = .obj entries → RoundsSelected rounds entries → ∀ e,
      Reached (fun e => (readRound index schemaVersion rounds e).returns) entries e →
        RoundOperands index schemaVersion rounds e
  metadataNames : RoundsAccepted index schemaVersion rounds environment fields →
    listable (Json.field fields "public_metadata") = true
  parameterNames : RoundsAccepted index schemaVersion rounds environment fields →
    (checkNames metadataFields (modelMessage index " metadata is not allowlisted")
      (Json.field fields "public_metadata")).returns →
        listable (Json.field fields "parameters") = true
  metadata : NamesAccepted index schemaVersion rounds environment fields → ∃ entries,
    Json.field fields "public_metadata" = .obj entries ∧ MetadataOperands index entries
  parameters : NamesAccepted index schemaVersion rounds environment fields → ∀ entries,
    Json.field fields "public_metadata" = .obj entries →
      (entries.mapM (readMetadata index)).returns → ∃ settings,
        Json.field fields "parameters" = .obj settings ∧ ParameterOperands index settings

end Operands

section Rounds
variable {index : Nat} {v : Json} {fields : List (Str × Json)}

theorem graceful_readIdentity {seen : List ItemOutcome} :
    Graceful (readIdentity index seen fields) ↔ hashable (Json.field fields "item") = true ∧
      hashable (Json.field fields "attempt") = true := by
  refine (graceful_then graceful_hashed fun _ _ => graceful_last graceful_hashed fun _ _ => ?_).trans ?_
  · refine raisesOnly_bind.mpr ⟨graceful_checkedText, fun name _ => ?_⟩
    split
    · exact raisesOnly_bind.mpr ⟨graceful_require, fun _ _ =>
        raisesOnly_bind.mpr ⟨graceful_require, fun _ _ => raisesOnly_pure⟩⟩
    · exact graceful_fail
  · exact and_congr_right fun hitem => forall_prop_of_true ⟨(), if_pos hitem⟩

theorem graceful_readItem {seen : List ItemOutcome} :
    Graceful (readItem index seen v) ↔ ∀ fields, v = .obj fields →
      Json.keysAre fields itemFields = true → ItemOperands index seen fields := by
  refine graceful_object fun fields _ => graceful_check fun _ => ?_
  refine (graceful_then graceful_readIdentity fun identity _ =>
    graceful_then graceful_readStatus fun status _ =>
      graceful_last graceful_readOptional fun wall _ => ?_).trans ?_
  · exact raisesOnly_bind.mpr ⟨graceful_readTokens, fun _ _ => raisesOnly_pure⟩
  · constructor
    · rintro ⟨⟨hitem, hattempt⟩, hrest⟩
      exact ⟨hitem, hattempt, fun h => (hrest h).1, fun h => (hrest h).2⟩
    · intro h
      exact ⟨⟨h.item, h.attempt⟩, fun hi => ⟨h.status hi, h.wall hi⟩⟩

theorem readItems_eq {seen : List ItemOutcome} {rows : List Json} :
    readItems index seen rows =
      rows.foldlM (fun seen row => do return seen ++ [← readItem index seen row]) seen := by
  induction rows generalizing seen with
  | nil => rfl
  | cons row rows ih =>
    rw [readItems, List.foldlM_cons, bind_assoc]
    refine bind_congr fun item => ?_
    rw [pure_bind]
    exact ih

theorem graceful_readItemList : Graceful (readItemList index v) ↔ ItemListOperands index v := by
  refine graceful_array fun rows _ => ?_
  rw [readItems_eq]
  refine raisesOnly_foldlM.trans ?_
  simp only [← readItems_eq]
  refine forall₄_congr fun before row after _ => forall₂_congr fun seen _ => ?_
  exact graceful_last graceful_readItem fun _ _ => raisesOnly_pure

theorem graceful_checkTaskField {e : Str × Json} :
    Graceful (checkTaskField index e) ↔ (measuredKey e.1 = true → measurable e.2 = true) := by
  have hbool : ∀ {message : String} {w : Json},
      Graceful (do let _ ← asBool message w; return () : Outcome Unit) :=
    raisesOnly_bind.mpr ⟨graceful_asBool, fun _ _ => raisesOnly_pure⟩
  have hkey : measuredKey e.1 = true ↔ e.1 ≠ "task".toList ∧ e.1 ≠ "handoff_utility".toList ∧
      inNames taskBooleans e.1 = false := by
    simp [measuredKey, inNames]
  rw [hkey]
  unfold checkTaskField
  split
  · rename_i h
    exact iff_of_true raisesOnly_ok fun hne => absurd h hne.1
  · rename_i htask
    split
    · rename_i h
      exact iff_of_true hbool fun hne => absurd h (by rw [hne.2.2]; exact Bool.false_ne_true)
    · rename_i hflag
      split
      · rename_i h
        refine iff_of_true ?_ fun hne => absurd h hne.2.1
        split
        · exact raisesOnly_ok
        · exact hbool
      · rename_i hhandoff
        rw [forall_prop_of_true ⟨htask, hhandoff, Bool.eq_false_iff.mpr hflag⟩]
        exact graceful_last graceful_readOptional fun _ _ => raisesOnly_pure

theorem graceful_readTaskList : Graceful (readTaskList index v) ↔ TaskListOperands index v := by
  refine graceful_array fun rows _ => raisesOnly_mapM.trans ?_
  refine forall₂_congr fun row _ => graceful_object fun fields _ => graceful_check fun _ => ?_
  refine graceful_after graceful_checkedText fun _ _ => graceful_last ?_ fun _ _ => raisesOnly_pure
  exact raisesOnly_forM.trans (forall₂_congr fun e _ => graceful_checkTaskField)

theorem graceful_readRoundField {e : Str × Json} :
    Graceful (readRoundField index e) ↔ RoundFieldOperands index e := by
  unfold readRoundField RoundFieldOperands
  split
  · exact graceful_map.trans graceful_readItemList
  · split
    · exact graceful_map.trans graceful_readTaskList
    · exact graceful_map.trans (graceful_last graceful_readOptional fun _ _ => raisesOnly_pure)

theorem graceful_readRound {schemaVersion : Nat} {rounds : List Int} {entry : Str × Json} :
    Graceful (readRound index schemaVersion rounds entry) ↔
      RoundOperands index schemaVersion rounds entry := by
  refine (graceful_object (q := fun fields => ∀ round,
    RoundOpened schemaVersion rounds entry round fields → ∀ e,
      Reached (fun e => (readRoundField index e).returns) fields e → RoundFieldOperands index e)
    fun fields hobject => ?_).trans ?_
  · split
    · rename_i hnone
      exact iff_of_true graceful_fail fun round h => absurd (hnone.symm.trans h.key) (by simp)
    · rename_i round hround
      refine (graceful_check fun hselected => graceful_check fun hallowed => graceful_check fun hlisted =>
        graceful_last (raisesOnly_mapM.trans (forall₂_congr fun e _ => graceful_readRoundField))
          fun _ _ => raisesOnly_bind.mpr ⟨graceful_require, fun _ _ => raisesOnly_pure⟩).trans ?_
      constructor
      · intro h other hopened
        obtain rfl : round = other := Option.some.inj (hround.symm.trans hopened.key)
        exact h (decide_eq_true hopened.selected) hopened.allowed (by simpa using hopened.listed)
      · intro h hselected hallowed hlisted
        exact h round ⟨hobject, hround, of_decide_eq_true hselected, hallowed, by simpa using hlisted⟩
  · constructor
    · intro h round fields hopened
      exact h fields hopened.object round hopened
    · intro h fields _ round
      exact h round fields

end Rounds

section Models
variable {index schemaVersion : Nat} {v : Json} {fields : List (Str × Json)} {rounds : List Int}
  {environment : Environment}

theorem graceful_readScaffold : Graceful (readScaffold index v) ↔ ∀ fields, v = .obj fields →
    Json.keysAre fields ["agent_backend", "isolation_mode", "network", "fail_closed"] = true →
      ScaffoldOperands index fields := by
  refine graceful_object fun fields _ => graceful_check fun _ => ?_
  refine (graceful_then graceful_memberOf fun _ _ => graceful_then graceful_memberOf fun _ _ =>
    graceful_last graceful_memberOf fun _ _ => ?_).trans ?_
  · refine raisesOnly_bind.mpr ⟨graceful_asBool, fun _ _ => ?_⟩
    exact raisesOnly_bind.mpr ⟨graceful_require, fun _ _ =>
      raisesOnly_bind.mpr ⟨graceful_require, fun _ _ => raisesOnly_pure⟩⟩
  · constructor
    · rintro ⟨hbackend, hrest⟩
      exact ⟨hbackend, fun h => (hrest h).1, fun h => (hrest h).2⟩
    · intro h
      exact ⟨h.agentBackend, fun hb => ⟨h.isolationMode hb, h.network hb⟩⟩

theorem graceful_readCoordinate {message : String} {check : Json → Outcome Str}
    (hcheck : ∀ s, Graceful (check (.str s))) : Graceful (readCoordinate message check v) := by
  cases v with
  | null => exact raisesOnly_ok
  | str s => exact raisesOnly_bind.mpr ⟨hcheck s, fun _ _ => raisesOnly_pure⟩
  | bool | int | float | arr | obj => exact graceful_fail

theorem graceful_readServing : Graceful (readServing index environment v) ↔ ∀ fields, v = .obj fields →
    Json.keysAre fields ["scope", "os", "architecture"] = true →
      hashable (Json.field fields "scope") = true := by
  refine graceful_object fun fields _ => graceful_check fun _ => graceful_last graceful_memberOf
    fun _ _ => ?_
  refine raisesOnly_bind.mpr ⟨graceful_readCoordinate fun s => graceful_memberOf.mpr rfl, fun _ _ => ?_⟩
  refine raisesOnly_bind.mpr ⟨graceful_readCoordinate fun s => graceful_checkedText, fun _ _ => ?_⟩
  exact raisesOnly_bind.mpr ⟨graceful_require, fun _ _ =>
    raisesOnly_bind.mpr ⟨graceful_require, fun _ _ => raisesOnly_pure⟩⟩

theorem graceful_since {α : Type} {first : Nat} {check : Outcome α} :
    Graceful (since first schemaVersion check) ↔ (first ≤ schemaVersion → Graceful check) := by
  rw [since]
  split
  · rename_i h
    rw [forall_prop_of_true h]
    exact graceful_map
  · rename_i h
    exact iff_of_true raisesOnly_ok fun h' => absurd h' h

theorem graceful_hashes {items : List Json} :
    Graceful (items.forM hashed) ↔ items.all hashable = true := by
  induction items with
  | nil => exact iff_of_true raisesOnly_pure rfl
  | cons item items ih =>
    rw [List.all_cons, Bool.and_eq_true, ← ih]
    refine (graceful_then graceful_hashed fun _ _ => Iff.rfl).trans (and_congr_right fun hitem => ?_)
    exact forall_prop_of_true ⟨(), if_pos hitem⟩

theorem graceful_checkNames {names : List String} {message : String} :
    Graceful (checkNames names message v) ↔ listable v = true := by
  cases v with
  | obj fields => exact iff_of_true graceful_require rfl
  | str s => exact iff_of_true graceful_require rfl
  | arr items => exact graceful_last graceful_hashes fun _ _ => graceful_require
  | null | bool | int | float =>
    exact iff_of_false (not_graceful fun _ h => by cases h) Bool.false_ne_true

theorem graceful_entries {β : Type} {f : List (Str × Json) → Outcome β} {q : List (Str × Json) → Prop}
    (hf : ∀ entries, v = .obj entries → (Graceful (f entries) ↔ q entries)) :
    Graceful (itemsOf v >>= f) ↔ ∃ entries, v = .obj entries ∧ q entries := by
  cases v with
  | obj entries =>
    change Graceful (f entries) ↔ _
    rw [hf entries rfl]
    constructor
    · intro h
      exact ⟨entries, rfl, h⟩
    · rintro ⟨_, h, hq⟩
      cases h
      exact hq
  | null | bool | int | float | str | arr =>
    refine iff_of_false (not_graceful fun _ h => by cases h) ?_
    rintro ⟨_, h, _⟩
    cases h

theorem graceful_readMetadata {e : Str × Json} : Graceful (readMetadata index e) ↔
    (inNames metadataNumbers e.1 = true → measurable e.2 = true) := by
  rw [readMetadata]
  split
  · rename_i h
    rw [forall_prop_of_true h]
    exact graceful_last graceful_readNumber fun _ _ => raisesOnly_pure
  · rename_i h
    exact iff_of_true (raisesOnly_bind.mpr ⟨graceful_checkedText, fun _ _ => raisesOnly_pure⟩)
      fun h' => absurd h' h

theorem graceful_readParameter {e : Str × Json} : Graceful (readParameter index e) ↔
    (e.1 ≠ "reasoning_effort".toList → measurable e.2 = true) := by
  rw [readParameter]
  split
  · rename_i h
    exact iff_of_true (raisesOnly_bind.mpr ⟨graceful_checkedText, fun _ _ => raisesOnly_pure⟩)
      fun h' => absurd h h'
  · rename_i h
    rw [forall_prop_of_true h]
    exact graceful_last graceful_readNumber fun _ _ => raisesOnly_pure

theorem graceful_readRounds {entries : List (Str × Json)} :
    Graceful (entries.mapM (readRound index schemaVersion rounds)) ↔
      ∀ e, Reached (fun e => (readRound index schemaVersion rounds e).returns) entries e →
        RoundOperands index schemaVersion rounds e :=
  raisesOnly_mapM.trans (forall₂_congr fun _ _ => graceful_readRound)

theorem graceful_metadata {entries : List (Str × Json)} :
    Graceful (entries.mapM (readMetadata index)) ↔ MetadataOperands index entries :=
  raisesOnly_mapM.trans (forall₂_congr fun _ _ => graceful_readMetadata)

theorem graceful_parameters {entries : List (Str × Json)} :
    Graceful (entries.mapM (readParameter index)) ↔ ParameterOperands index entries :=
  raisesOnly_mapM.trans (forall₂_congr fun _ _ => graceful_readParameter)

theorem graceful_readModel : Graceful (readModel index schemaVersion rounds environment v) ↔
    ∀ fields, v = .obj fields → Json.keysAre fields (modelFields schemaVersion) = true →
      ModelOperands index schemaVersion rounds environment fields := by
  refine graceful_object fun fields _ => graceful_check fun _ => ?_
  refine Iff.trans (graceful_after graceful_checkedText fun _ _ =>
    graceful_then graceful_memberOf fun _ _ => graceful_then (graceful_since.trans (forall_congr' fun _ => graceful_readScaffold)) fun _ _ =>
    graceful_then (graceful_since.trans (forall_congr' fun _ => graceful_readServing)) fun _ _ =>
    graceful_object fun entries _ => graceful_check fun _ =>
    graceful_then graceful_readRounds fun _ _ =>
    graceful_then graceful_checkNames fun _ _ => graceful_then graceful_checkNames fun _ _ =>
    graceful_entries fun metadata _ =>
    graceful_then graceful_metadata fun _ _ =>
    graceful_entries fun settings _ =>
    graceful_last graceful_parameters fun _ _ => raisesOnly_pure) ?_
  constructor
  · intro h
    refine ⟨fun hn => (h hn).1, fun hn => ((h hn.1).2 hn.2).1, fun hn hs => (((h hn.1).2 hn.2).2 hs).1,
      ?_, ?_, ?_, ?_, ?_⟩
    · intro hh entries he hsel
      exact ((((h hh.publicName).2 hh.transport).2 hh.scaffold).2 hh.serving entries he hsel).1
    · intro hr
      obtain ⟨entries, he, hsel, hread⟩ := hr.entries
      exact (((((h hr.publicName).2 hr.transport).2 hr.scaffold).2 hr.serving entries he hsel).2 hread).1
    · intro hr hm
      obtain ⟨entries, he, hsel, hread⟩ := hr.entries
      exact ((((((h hr.publicName).2 hr.transport).2 hr.scaffold).2 hr.serving entries he hsel).2
        hread).2 hm).1
    · intro hr
      obtain ⟨entries, he, hsel, hread⟩ := hr.entries
      obtain ⟨metadata, hmetadata, hops, _⟩ :=
        ((((((h hr.publicName).2 hr.transport).2 hr.scaffold).2 hr.serving entries he hsel).2
          hread).2 hr.metadata).2 hr.parameters
      exact ⟨metadata, hmetadata, hops⟩
    · intro hr metadata hmetadata hmread
      obtain ⟨entries, he, hsel, hread⟩ := hr.entries
      obtain ⟨other, hother, _, hrest⟩ :=
        ((((((h hr.publicName).2 hr.transport).2 hr.scaffold).2 hr.serving entries he hsel).2
          hread).2 hr.metadata).2 hr.parameters
      rw [hother] at hmetadata
      cases hmetadata
      exact hrest hmread
  · intro h hn
    refine ⟨h.transport hn, fun ht => ⟨h.scaffold ⟨hn, ht⟩, fun hs => ⟨h.serving ⟨hn, ht⟩ hs, ?_⟩⟩⟩
    intro hv entries he hsel
    have hh : HeadAccepted index schemaVersion environment fields := ⟨⟨hn, ht⟩, hs, hv⟩
    refine ⟨h.roundEntries hh entries he hsel, fun hread => ?_⟩
    have hr : RoundsAccepted index schemaVersion rounds environment fields :=
      ⟨hh, entries, he, hsel, hread⟩
    refine ⟨h.metadataNames hr, fun hm => ⟨h.parameterNames hr hm, fun hp => ?_⟩⟩
    have hnames : NamesAccepted index schemaVersion rounds environment fields := ⟨hr, hm, hp⟩
    obtain ⟨metadata, hmetadata, hops⟩ := h.metadata hnames
    exact ⟨metadata, hmetadata, hops, fun hmread => h.parameters hnames metadata hmetadata hmread⟩

theorem readModels_eq {items : List Json} : readModels schemaVersion rounds environment index items =
    (items.zipIdx index).mapM fun p => readModel p.2 schemaVersion rounds environment p.1 := by
  induction items generalizing index with
  | nil => rfl
  | cons v items ih =>
    rw [readModels, List.zipIdx_cons, List.mapM_cons]
    refine bind_congr fun model => ?_
    rw [ih]

end Models

section Payload
variable {v : Json}

theorem graceful_readRounds_selected {items : List Json} : Graceful (readRounds items) := by
  induction items with
  | nil => exact raisesOnly_pure
  | cons v items ih =>
    cases v with
    | int n =>
      exact raisesOnly_bind.mpr ⟨graceful_require, fun _ _ =>
        raisesOnly_bind.mpr ⟨ih, fun _ _ => raisesOnly_pure⟩⟩
    | null | bool | float | str | arr | obj => exact graceful_fail

theorem graceful_readPack {e : Str × Json} : Graceful (readPack e) := by
  unfold readPack
  split
  · split
    · exact raisesOnly_ok
    · exact graceful_fail
  · exact graceful_fail

theorem graceful_readBenchmark : Graceful (readBenchmark v) := by
  refine raisesOnly_bind.mpr ⟨graceful_asObject, fun fields _ => ?_⟩
  refine raisesOnly_bind.mpr ⟨graceful_require, fun _ _ => ?_⟩
  refine raisesOnly_bind.mpr ⟨graceful_asArray, fun items _ => ?_⟩
  refine raisesOnly_bind.mpr ⟨graceful_readRounds_selected, fun rounds _ => ?_⟩
  refine raisesOnly_bind.mpr ⟨graceful_require, fun _ _ => ?_⟩
  refine raisesOnly_bind.mpr ⟨graceful_asObject, fun packs _ => ?_⟩
  refine raisesOnly_bind.mpr ⟨graceful_require, fun _ _ => ?_⟩
  refine raisesOnly_bind.mpr ⟨?_, fun _ _ => raisesOnly_pure⟩
  exact raisesOnly_mapM.mpr fun _ _ => graceful_readPack

theorem graceful_checkTool : Graceful (checkTool v) := by
  refine raisesOnly_bind.mpr ⟨graceful_asObject, fun fields _ => ?_⟩
  refine raisesOnly_bind.mpr ⟨graceful_require, fun _ _ => ?_⟩
  refine raisesOnly_bind.mpr ⟨graceful_require, fun _ _ => ?_⟩
  exact raisesOnly_bind.mpr ⟨graceful_checkedText, fun _ _ => raisesOnly_pure⟩

theorem graceful_readEnvironment : Graceful (readEnvironment v) ↔ ∀ fields, v = .obj fields →
    Json.keysAre fields ["os", "architecture", "python"] = true →
      hashable (Json.field fields "os") = true := by
  refine graceful_object fun fields _ => graceful_check fun _ => graceful_last graceful_memberOf
    fun _ _ => ?_
  refine raisesOnly_bind.mpr ⟨graceful_checkedText, fun _ _ => ?_⟩
  split
  · exact raisesOnly_bind.mpr ⟨graceful_require, fun _ _ => raisesOnly_pure⟩
  · exact graceful_fail

def withoutId (fields : List (Str × Json)) : List (Str × Json) :=
  fields.filter fun e => e.1 ≠ "bundle_id".toList

variable (h : Hashing) (fields : List (Str × Json))

structure PayloadOpened (version : Int) (stated : Str) : Prop where
  keys : Json.keysAre fields ["schema_version", "bundle_id", "tool", "benchmark", "environment",
    "models", "privacy"] = true
  schemaVersion : Json.field fields "schema_version" = .int version
  supported : 1 ≤ version ∧ version ≤ 4
  bundleId : Json.field fields "bundle_id" = .str stated
  fingerprint : isFingerprint stated = true

structure PayloadIdentified (version : Int) (stated : Str)
    (benchmark : List Int × List (RoundNumber × Fingerprint)) : Prop extends
    PayloadOpened fields version stated where
  computed : stated = bundleIdOf h (withoutId fields)
  tool : checkTool (Json.field fields "tool") = .ok ()
  benchmark : readBenchmark (Json.field fields "benchmark") = .ok benchmark

/-- The operands of the checks of a payload: each of those that are reached is one that its
operation takes. -/
structure PayloadOperands : Prop where
  nesting : ∀ version stated, PayloadOpened fields version stated →
    depth (.obj (withoutId fields)) ≤ h.nesting
  environment : ∀ version stated benchmark, PayloadIdentified h fields version stated benchmark →
    ∀ inner, Json.field fields "environment" = .obj inner →
      Json.keysAre inner ["os", "architecture", "python"] = true →
        hashable (Json.field inner "os") = true
  models : ∀ version stated benchmark, PayloadIdentified h fields version stated benchmark →
    ∀ environment items, readEnvironment (Json.field fields "environment") = .ok environment →
      Json.field fields "models" = .arr items → ∀ entry,
        Reached (fun p => (readModel p.2 version.toNat benchmark.1 environment p.1).returns)
          (items.zipIdx 1) entry → ∀ inner, entry.1 = .obj inner →
            Json.keysAre inner (modelFields version.toNat) = true →
              ModelOperands entry.2 version.toNat benchmark.1 environment inner

variable {h : Hashing} {fields : List (Str × Json)}

theorem graceful_bundleId : Graceful (h.bundleId fields) ↔ depth (.obj fields) ≤ h.nesting := by
  rw [Hashing.bundleId]
  split
  · rename_i hdeep
    exact iff_of_false (not_graceful fun _ h => by cases h) (by omega)
  · rename_i hdeep
    exact iff_of_true raisesOnly_ok (by omega)

theorem bundleId_ok {id : Str} (hid : h.bundleId fields = .ok id) : id = bundleIdOf h fields := by
  rw [Hashing.bundleId] at hid
  split at hid
  · cases hid
  · cases hid
    rfl

theorem graceful_readModels {version : Nat} {rounds : List Int} {environment : Environment}
    {items : List Json} : Graceful (readModels version rounds environment 1 items) ↔ ∀ entry,
      Reached (fun p => (readModel p.2 version rounds environment p.1).returns) (items.zipIdx 1) entry →
        ∀ inner, entry.1 = .obj inner → Json.keysAre inner (modelFields version) = true →
          ModelOperands entry.2 version rounds environment inner := by
  rw [readModels_eq]
  exact raisesOnly_mapM.trans (forall₂_congr fun entry _ => graceful_readModel)

theorem PayloadOperands.of_not_opened (hnot : ∀ version stated, ¬ PayloadOpened fields version stated) :
    PayloadOperands h fields :=
  ⟨fun version stated ho => absurd ho (hnot version stated),
    fun version stated _ hi => absurd hi.toPayloadOpened (hnot version stated),
    fun version stated _ hi => absurd hi.toPayloadOpened (hnot version stated)⟩

theorem graceful_validatePublicResult {payload : Json} :
    Graceful (validatePublicResult h payload) ↔
      ∀ fields, payload = .obj fields → PayloadOperands h fields := by
  refine graceful_object fun fields _ => ?_
  refine Iff.trans (graceful_check (q := PayloadOperands h fields) fun hkeys => ?_) ?_
  · split
    · rename_i version stated hversion hid
      refine Iff.trans (graceful_check fun _ => graceful_check fun _ =>
        raisesOnly_then graceful_bundleId fun _ _ => graceful_check fun _ =>
        graceful_after graceful_checkTool fun _ _ => raisesOnly_after graceful_readBenchmark fun _ _ =>
        raisesOnly_then graceful_readEnvironment fun _ _ => graceful_array fun _ _ =>
        graceful_check fun _ => graceful_last graceful_readModels fun _ _ => ?_) ?_
      · exact raisesOnly_bind.mpr ⟨graceful_require, fun _ _ => raisesOnly_bind.mpr ⟨graceful_require,
          fun _ _ => raisesOnly_bind.mpr ⟨graceful_require, fun _ _ => raisesOnly_pure⟩⟩⟩
      · constructor
        · intro hall
          have hsame : ∀ {other stated'}, PayloadOpened fields other stated' →
              version = other ∧ stated = stated' := fun ho =>
            ⟨Json.int.inj (hversion.symm.trans ho.schemaVersion), Json.str.inj (hid.symm.trans ho.bundleId)⟩
          have hopened : ∀ {other stated'}, PayloadOpened fields other stated' →
              (decide (1 ≤ version) && decide (version ≤ 4)) = true ∧ isFingerprint stated = true := by
            intro other stated' ho
            obtain ⟨rfl, rfl⟩ := hsame ho
            exact ⟨by simpa using ho.supported, ho.fingerprint⟩
          have hcomputed : ∀ {other stated'} (ho : PayloadOpened fields other stated'),
              h.bundleId (withoutId fields) = .ok (bundleIdOf h (withoutId fields)) := fun ho =>
            if_neg (not_lt.mpr (hall (hopened ho).1 (hopened ho).2).1)
          refine ⟨fun other stated' ho => (hall (hopened ho).1 (hopened ho).2).1, ?_, ?_⟩
          · intro other stated' benchmark hi
            have hrest := (hall (hopened hi.toPayloadOpened).1 (hopened hi.toPayloadOpened).2).2 _
              (hcomputed hi.toPayloadOpened)
            obtain ⟨rfl, rfl⟩ := hsame hi.toPayloadOpened
            exact (hrest (beq_iff_eq.mpr hi.computed) ⟨(), hi.tool⟩ benchmark hi.benchmark).1
          · intro other stated' benchmark hi environment items henvironment hitems entry hentry
            have hrest := (hall (hopened hi.toPayloadOpened).1 (hopened hi.toPayloadOpened).2).2 _
              (hcomputed hi.toPayloadOpened)
            obtain ⟨rfl, rfl⟩ := hsame hi.toPayloadOpened
            have hne : (!items.isEmpty) = true := by
              cases items with
              | nil => exact absurd hentry reached_nil
              | cons => rfl
            exact (hrest (beq_iff_eq.mpr hi.computed) ⟨(), hi.tool⟩ benchmark hi.benchmark).2
              environment henvironment items hitems hne entry hentry
        · intro hops hsupported hfingerprint
          have ho : PayloadOpened fields version stated :=
            ⟨hkeys, hversion, by simpa using hsupported, hid, hfingerprint⟩
          refine ⟨hops.nesting version stated ho, ?_⟩
          intro computed hcomputed heq htool benchmark hbenchmark
          have hi : PayloadIdentified h fields version stated benchmark :=
            ⟨ho, (eq_of_beq heq).trans (bundleId_ok hcomputed), htool.elim fun _ ht => ht, hbenchmark⟩
          refine ⟨hops.environment version stated benchmark hi, ?_⟩
          intro environment henvironment items hitems _
          exact hops.models version stated benchmark hi environment items henvironment hitems
    · rename_i hid
      exact iff_of_true graceful_fail (.of_not_opened fun version stated ho => hid stated ho.bundleId)
    · rename_i hversion _
      exact iff_of_true graceful_fail (.of_not_opened fun version stated ho =>
        hversion version ho.schemaVersion)
  · exact ⟨fun hall => ⟨fun version stated ho => (hall ho.keys).nesting version stated ho,
      fun version stated benchmark hi => (hall hi.keys).environment version stated benchmark hi,
      fun version stated benchmark hi => (hall hi.keys).models version stated benchmark hi⟩,
      fun hops _ => hops⟩

end Payload

/-- A payload is accepted or refused with `ValueError` exactly when every operand that its checks reach
is one that they take. -/
theorem validatePublicResult_graceful_iff (h : Hashing) (payload : Json) :
    ((∃ b, validatePublicResult h payload = .ok b) ∨
        ∃ message, validatePublicResult h payload = .error (.valueError message)) ↔
      ∀ fields, payload = .obj fields → PayloadOperands h fields := by
  rw [← graceful_validatePublicResult]
  constructor
  · rintro (⟨b, hb⟩ | ⟨message, hm⟩)
    · rw [hb]
      exact raisesOnly_ok
    · rw [hm]
      exact raisesOnly_error.mpr ⟨message, rfl⟩
  · intro hg
    cases hx : validatePublicResult h payload with
    | ok b => exact .inl ⟨b, rfl⟩
    | error e =>
      obtain ⟨message, rfl⟩ := hg e hx
      exact .inr ⟨message, rfl⟩

def raised {α : Type} : Outcome α → Option Raised
  | .error e => some e
  | .ok _ => none

theorem raised_eq {α : Type} {x : Outcome α} {e : Raised} (h : raised x = some e) : x = .error e := by
  cases x with
  | ok a => cases h
  | error e' =>
    cases h
    rfl

def hostileDocument (transport metadata passed : Json) : Json :=
  object [("schema_version", .int 1), ("bundle_id", .str ("sha256:".toList ++ List.replicate 64 '0')),
    ("tool", object [("name", text "llm-hardtest-report"), ("version", text "1.0")]),
    ("benchmark", object [("rounds", .arr [.int 1]), ("packs", object [("1", .str samplePack.1)])]),
    ("environment", object [("os", text "Linux"), ("architecture", text "x86_64"),
      ("python", text "3.12")]),
    ("models", .arr [object [("public_name", text "model"), ("transport", transport),
      ("rounds", object [("1", object [("passed", passed)])]), ("parameters", object []),
      ("public_metadata", metadata)]]),
    ("privacy", object [("raw_artifacts_included", .bool false), ("credentials_included", .bool false),
      ("local_paths_included", .bool false), ("submission_mode", text "explicit-opt-in")])]

/-- A list as the transport, a list as the metadata and an integer that no float holds. -/
theorem hostileDocument_crashes :
    validatePublicResult sampleHashing (hostileDocument (.arr []) (object []) (.int 1)) =
        .error .typeError ∧
      validatePublicResult sampleHashing (hostileDocument (text "codex_cli") (.arr []) (.int 1)) =
        .error .attributeError ∧
      validatePublicResult sampleHashing
          (hostileDocument (text "codex_cli") (object []) (.int (2 ^ 1024))) =
        .error .overflowError := by
  refine ⟨raised_eq ?_, raised_eq ?_, raised_eq ?_⟩
  · decide +kernel
  · decide +kernel
  · decide +kernel

end Community
