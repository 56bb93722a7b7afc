import LlmHardtest.Community.Validate
set_option autoImplicit false

/-! What an accepted bundle is known to satisfy. -/

namespace Community
open Python
open Round5 (require asBool require_bind require_ok)

def Measured (n : FiniteNum) : Prop := 0 ≤ n.value ∧ ∀ m, n = .int m → m < floatOverflow

structure ItemOutcome.Valid (item : ItemOutcome) : Prop where
  attempt : 1 ≤ item.attempt
  wall : ∀ wall, item.wallSeconds = some wall → Measured wall
  tokens : ∀ tokens, item.tokens = some tokens → 0 ≤ tokens

structure RoundResult.Valid (schemaVersion : Nat) (r : RoundResult) : Prop where
  metrics : ∀ e ∈ r.metrics, ∀ n, e.2 = some n → Measured n
  items : ∀ item ∈ r.items.getD [], item.Valid
  distinct : ((r.items.getD []).map fun item => (item.item, item.attempt)).Nodup
  legacy : schemaVersion < 2 → r.items = none

structure Bundle.Valid (b : Bundle) : Prop where
  serving : ∀ m ∈ b.models, 3 ≤ b.schemaVersion → m.serving.isSome = true
  scaffold : ∀ m ∈ b.models, 4 ≤ b.schemaVersion → m.scaffold.isSome = true
  packs : ∀ m ∈ b.models, ∀ r ∈ m.rounds, (b.packs.lookup r.1).isSome = true
  rounds : ∀ m ∈ b.models, ∀ r ∈ m.rounds, r.2.Valid b.schemaVersion

section Readers
variable {index : Nat} {message : String}

theorem readNumber_ok {ok : ℚ → Bool} {v : Json} {n : FiniteNum}
    (h : readNumber ok message v = .ok n) :
    ok n.value = true ∧ ∀ m, n = .int m → |m| < floatOverflow := by
  cases v with
  | int m =>
    rw [readNumber] at h
    split at h
    · cases h
    · rename_i hlt
      split at h
      · rename_i hok
        injection h with h
        subst h
        exact ⟨hok, fun k hk => by injection hk with hk; rw [← hk]; omega⟩
      · cases h
  | float x =>
    cases x with
    | finite q =>
      rw [readNumber] at h
      split at h
      · rename_i hok
        injection h with h
        subst h
        exact ⟨hok, fun k hk => by cases hk⟩
      · cases h
    | inf negative => cases h
    | nan => cases h
  | null | bool | str | arr | obj => cases h

theorem readOptional_ok {v : Json} {n : FiniteNum} (h : readOptional message v = .ok (some n)) :
    Measured n := by
  have hread : ∀ w, (do return some (← readNumber (fun q => decide (0 ≤ q)) message w) :
      Outcome (Option FiniteNum)) = .ok (some n) → Measured n := by
    intro w hw
    obtain ⟨m, hm, hw⟩ := Failures.bind_eq_ok.mp hw
    cases hw
    obtain ⟨hnonneg, hlt⟩ := readNumber_ok hm
    exact ⟨of_decide_eq_true hnonneg, fun k hk => lt_of_abs_lt (hlt k hk)⟩
  cases v with
  | null => cases h
  | bool b => exact hread _ h
  | int m => exact hread _ h
  | float x => exact hread _ h
  | str s => exact hread _ h
  | arr items => exact hread _ h
  | obj fields => exact hread _ h

theorem readTokens_ok {v : Json} {n : Int} (h : readTokens message v = .ok (some n)) : 0 ≤ n := by
  cases v with
  | int m =>
    rw [readTokens] at h
    split at h
    · rename_i hm
      cases h
      exact hm
    · cases h
  | null => cases h
  | bool | float | str | arr | obj => cases h

theorem readIdentity_ok {seen : List ItemOutcome} {fields : List (Str × Json)} {identity : Str × Int}
    (h : readIdentity index seen fields = .ok identity) :
    checkedText 80 (modelMessage index " item outcome is invalid") (Json.field fields "item") =
        .ok identity.1 ∧
      Json.field fields "attempt" = .int identity.2 ∧ 1 ≤ identity.2 ∧
      identity ∉ seen.map fun other => (other.item, other.attempt) := by
  obtain ⟨_, h⟩ := Outcome.unit_bind.mp h
  obtain ⟨_, h⟩ := Outcome.unit_bind.mp h
  obtain ⟨name, hname, h⟩ := Failures.bind_eq_ok.mp h
  split at h
  · rename_i attempt hattempt
    obtain ⟨hseen, h⟩ := require_bind.mp h
    obtain ⟨hpos, h⟩ := require_bind.mp h
    cases h
    refine ⟨hname, hattempt, of_decide_eq_true hpos, ?_⟩
    intro hmem
    obtain ⟨other, hother, heq⟩ := List.mem_map.mp hmem
    rw [Prod.mk.injEq] at heq
    have hnot := List.all_eq_true.mp hseen other hother
    simp [heq.1, heq.2] at hnot
  · cases h

theorem readItem_ok {seen : List ItemOutcome} {v : Json} {item : ItemOutcome}
    (h : readItem index seen v = .ok item) :
    item.Valid ∧ (item.item, item.attempt) ∉ seen.map fun other => (other.item, other.attempt) := by
  obtain ⟨fields, _, h⟩ := Failures.bind_eq_ok.mp h
  obtain ⟨_, h⟩ := require_bind.mp h
  obtain ⟨identity, hidentity, h⟩ := Failures.bind_eq_ok.mp h
  obtain ⟨status, _, h⟩ := Failures.bind_eq_ok.mp h
  obtain ⟨wall, hwall, h⟩ := Failures.bind_eq_ok.mp h
  obtain ⟨tokens, htokens, h⟩ := Failures.bind_eq_ok.mp h
  cases h
  obtain ⟨_, _, hpos, hnew⟩ := readIdentity_ok hidentity
  refine ⟨⟨hpos, ?_, ?_⟩, hnew⟩
  · rintro w rfl
    exact readOptional_ok hwall
  · rintro t rfl
    exact readTokens_ok htokens

theorem readItems_ok {seen : List ItemOutcome} {vs : List Json} {items : List ItemOutcome}
    (h : readItems index seen vs = .ok items) (hvalid : ∀ item ∈ seen, item.Valid)
    (hdistinct : (seen.map fun item => (item.item, item.attempt)).Nodup) :
    (∀ item ∈ items, item.Valid) ∧ (items.map fun item => (item.item, item.attempt)).Nodup := by
  induction vs generalizing seen with
  | nil =>
    cases h
    exact ⟨hvalid, hdistinct⟩
  | cons v vs ih =>
    obtain ⟨item, hitem, h⟩ := Failures.bind_eq_ok.mp h
    obtain ⟨hv, hnew⟩ := readItem_ok hitem
    refine ih h ?_ ?_
    · intro other hother
      rcases List.mem_append.mp hother with hother | hother
      · exact hvalid other hother
      · rw [List.mem_singleton.mp hother]
        exact hv
    · rw [List.map_append, List.nodup_append]
      refine ⟨hdistinct, by simp, ?_⟩
      intro a ha b hb hab
      simp only [List.map_cons, List.map_nil, List.mem_singleton] at hb
      exact hnew (by rw [← hb, ← hab]; exact ha)

theorem map_eq_ok {α β : Type} {x : Outcome α} {f : α → β} {b : β} (h : x.map f = .ok b) :
    ∃ a, x = .ok a ∧ f a = b := by
  cases x with
  | error e => cases h
  | ok a =>
    cases h
    exact ⟨a, rfl, rfl⟩

theorem readRoundField_ok {e : Str × Json} {part : RoundPart}
    (h : readRoundField index e = .ok part) :
    (∃ items, part = .items items ∧ e.1 = "items".toList ∧ readItemList index e.2 = .ok items) ∨
      (∃ tasks, part = .tasks tasks ∧ e.1 = "tasks".toList ∧ readTaskList index e.2 = .ok tasks) ∨
      ∃ metric, part = .metric metric ∧ e.1 ≠ "items".toList ∧ e.1 ≠ "tasks".toList ∧
        readMetric index e = .ok metric := by
  rw [readRoundField] at h
  split at h
  · rename_i hitems
    obtain ⟨items, hread, rfl⟩ := map_eq_ok h
    exact .inl ⟨items, rfl, hitems, hread⟩
  · rename_i hitems
    split at h
    · rename_i htasks
      obtain ⟨tasks, hread, rfl⟩ := map_eq_ok h
      exact .inr (.inl ⟨tasks, rfl, htasks, hread⟩)
    · rename_i htasks
      obtain ⟨metric, hread, rfl⟩ := map_eq_ok h
      exact .inr (.inr ⟨metric, rfl, hitems, htasks, hread⟩)

theorem mem_metrics {fields : List (Str × Json)} {parts : List RoundPart}
    (hparts : fields.mapM (readRoundField index) = .ok parts) {metric : Str × Option FiniteNum}
    (h : metric ∈ (RoundResult.ofParts parts).metrics) :
    ∃ e ∈ fields, readMetric index e = .ok metric := by
  obtain ⟨part, hpart, hmetric⟩ := List.mem_filterMap.mp h
  obtain ⟨e, he, hread⟩ := (Outcome.mapM_mem hparts).2 part hpart
  rcases readRoundField_ok hread with ⟨_, rfl, _⟩ | ⟨_, rfl, _⟩ | ⟨m, rfl, _, _, hm⟩
  · cases hmetric
  · cases hmetric
  · cases hmetric
    exact ⟨e, he, hm⟩

theorem items_of_parts {fields : List (Str × Json)} {parts : List RoundPart}
    (hparts : fields.mapM (readRoundField index) = .ok parts) {items : List ItemOutcome}
    (h : (RoundResult.ofParts parts).items = some items) :
    ∃ e ∈ fields, e.1 = "items".toList ∧ readItemList index e.2 = .ok items := by
  obtain ⟨part, hpart, hitems⟩ := List.exists_of_findSome?_eq_some h
  obtain ⟨e, he, hread⟩ := (Outcome.mapM_mem hparts).2 part hpart
  rcases readRoundField_ok hread with ⟨list, rfl, hkey, hlist⟩ | ⟨_, rfl, _⟩ | ⟨_, rfl, _⟩
  · cases hitems
    exact ⟨e, he, hkey, hlist⟩
  · cases hitems
  · cases hitems

theorem readItemList_ok {v : Json} {items : List ItemOutcome} (h : readItemList index v = .ok items) :
    (∀ item ∈ items, item.Valid) ∧ (items.map fun item => (item.item, item.attempt)).Nodup := by
  obtain ⟨rows, _, h⟩ := Failures.bind_eq_ok.mp h
  exact readItems_ok h (by simp) (by simp)

theorem readRound_ok {schemaVersion : Nat} {rounds : List Int} {entry : Str × Json}
    {r : RoundNumber × RoundResult} (h : readRound index schemaVersion rounds entry = .ok r) :
    (r.1.1 : Int) ∈ rounds ∧ r.2.Valid schemaVersion := by
  obtain ⟨fields, _, h⟩ := Failures.bind_eq_ok.mp h
  split at h
  · cases h
  · rename_i round _
    obtain ⟨hround, h⟩ := require_bind.mp h
    obtain ⟨hallowed, h⟩ := require_bind.mp h
    obtain ⟨_, h⟩ := require_bind.mp h
    obtain ⟨parts, hparts, h⟩ := Failures.bind_eq_ok.mp h
    obtain ⟨_, h⟩ := require_bind.mp h
    cases h
    refine ⟨of_decide_eq_true hround, ?_⟩
    constructor
    · rintro e he n hn
      obtain ⟨field, _, hfield⟩ := mem_metrics hparts he
      obtain ⟨value, hvalue, hfield⟩ := Failures.bind_eq_ok.mp hfield
      cases hfield
      rw [show value = some n from hn] at hvalue
      exact readOptional_ok hvalue
    · cases hitems : (RoundResult.ofParts parts).items with
      | none => simp
      | some items =>
        obtain ⟨e, _, _, hread⟩ := items_of_parts hparts hitems
        exact (readItemList_ok hread).1
    · cases hitems : (RoundResult.ofParts parts).items with
      | none => simp
      | some items =>
        obtain ⟨e, _, _, hread⟩ := items_of_parts hparts hitems
        exact (readItemList_ok hread).2
    · intro hold
      cases hitems : (RoundResult.ofParts parts).items with
      | none => rfl
      | some items =>
        obtain ⟨e, he, hkey, _⟩ := items_of_parts hparts hitems
        have hin := List.all_eq_true.mp hallowed e he
        rw [if_neg (show ¬ 2 ≤ schemaVersion by omega), hkey] at hin
        split at hin
        · exact absurd hin (by decide)
        · exact absurd hin (by decide)

theorem since_isSome {α : Type} {first schemaVersion : Nat} {check : Outcome α} {a : Option α}
    (h : since first schemaVersion check = .ok a) (hle : first ≤ schemaVersion) :
    a.isSome = true := by
  rw [since, if_pos hle] at h
  cases check with
  | error e => cases h
  | ok b =>
    cases h
    rfl

theorem readModel_ok {schemaVersion : Nat} {rounds : List Int} {environment : Environment}
    {v : Json} {m : Model} (h : readModel index schemaVersion rounds environment v = .ok m) :
    (3 ≤ schemaVersion → m.serving.isSome = true) ∧
      (4 ≤ schemaVersion → m.scaffold.isSome = true) ∧
      ∀ r ∈ m.rounds, (r.1.1 : Int) ∈ rounds ∧ r.2.Valid schemaVersion := by
  obtain ⟨fields, _, h⟩ := Failures.bind_eq_ok.mp h
  obtain ⟨_, h⟩ := require_bind.mp h
  obtain ⟨publicName, _, h⟩ := Failures.bind_eq_ok.mp h
  obtain ⟨transport, _, h⟩ := Failures.bind_eq_ok.mp h
  obtain ⟨scaffold, hscaffold, h⟩ := Failures.bind_eq_ok.mp h
  obtain ⟨serving, hserving, h⟩ := Failures.bind_eq_ok.mp h
  obtain ⟨roundFields, _, h⟩ := Failures.bind_eq_ok.mp h
  obtain ⟨_, h⟩ := require_bind.mp h
  obtain ⟨results, hresults, h⟩ := Failures.bind_eq_ok.mp h
  obtain ⟨_, h⟩ := Outcome.unit_bind.mp h
  obtain ⟨_, h⟩ := Outcome.unit_bind.mp h
  obtain ⟨metadata, _, h⟩ := Failures.bind_eq_ok.mp h
  obtain ⟨publicMetadata, _, h⟩ := Failures.bind_eq_ok.mp h
  obtain ⟨settings, _, h⟩ := Failures.bind_eq_ok.mp h
  obtain ⟨parameters, _, h⟩ := Failures.bind_eq_ok.mp h
  cases h
  refine ⟨fun h3 => ?_, fun h4 => ?_, fun r hr => ?_⟩
  · exact since_isSome hserving h3
  · exact since_isSome hscaffold h4
  · obtain ⟨entry, _, hentry⟩ := (Outcome.mapM_mem hresults).2 r hr
    exact readRound_ok hentry

theorem readModels_mem {schemaVersion : Nat} {rounds : List Int} {environment : Environment}
    {items : List Json} {models : List Model}
    (h : readModels schemaVersion rounds environment index items = .ok models) :
    ∀ m ∈ models, ∃ i v, readModel i schemaVersion rounds environment v = .ok m := by
  induction items generalizing index models with
  | nil =>
    cases h
    simp
  | cons v items ih =>
    obtain ⟨model, hmodel, h⟩ := Failures.bind_eq_ok.mp h
    obtain ⟨rest, hrest, h⟩ := Failures.bind_eq_ok.mp h
    cases h
    intro m hm
    rcases List.mem_cons.mp hm with rfl | hm
    · exact ⟨index, v, hmodel⟩
    · exact ih hrest m hm

theorem roundOfKey_toString (round : RoundNumber) :
    roundOfKey (toString (round.1 : Int)).toList = some round := by
  have hall : ∀ n : Fin 5, ∀ h : 1 ≤ n.1 ∧ n.1 ≤ 4,
      roundOfKey (toString (n.1 : Int)).toList = some ⟨n.1, h⟩ := by
    decide +kernel
  exact hall ⟨round.1, Nat.lt_succ_of_le round.2.2⟩ round.2

theorem readBenchmark_packs {v : Json} {rounds : List Int} {packs : List (RoundNumber × Fingerprint)}
    (h : readBenchmark v = .ok (rounds, packs)) (round : RoundNumber)
    (hround : (round.1 : Int) ∈ rounds) : (packs.lookup round).isSome = true := by
  obtain ⟨fields, _, h⟩ := Failures.bind_eq_ok.mp h
  obtain ⟨_, h⟩ := require_bind.mp h
  obtain ⟨items, _, h⟩ := Failures.bind_eq_ok.mp h
  obtain ⟨selected, _, h⟩ := Failures.bind_eq_ok.mp h
  obtain ⟨_, h⟩ := require_bind.mp h
  obtain ⟨packFields, _, h⟩ := Failures.bind_eq_ok.mp h
  obtain ⟨hkeys, h⟩ := require_bind.mp h
  obtain ⟨read, hread, h⟩ := Failures.bind_eq_ok.mp h
  cases h
  rw [Json.keysAre, Bool.and_eq_true] at hkeys
  have hkey := List.all_eq_true.mp hkeys.2 (toString (round.1 : Int))
    (List.mem_map.mpr ⟨_, hround, rfl⟩)
  rw [decide_eq_true_eq] at hkey
  obtain ⟨e, he, hname⟩ := List.mem_map.mp hkey
  obtain ⟨p, hp, hpack⟩ := (Outcome.mapM_mem hread).1 e he
  have hfst : p.1 = round := by
    unfold readPack at hpack
    split at hpack
    · rename_i round' s hr _
      split at hpack
      · cases hpack
        rw [hname] at hr
        rw [roundOfKey_toString] at hr
        exact (Option.some.inj hr).symm
      · cases hpack
    · cases hpack
  rw [Option.isSome_iff_ne_none, ne_eq, List.lookup_eq_none_iff]
  intro hall
  have hne := hall p hp
  rw [hfst] at hne
  simp at hne

end Readers

/-- The validator leaves a valid bundle. -/
theorem validatePublicResult_valid {h : Hashing} {payload : Json} {b : Bundle}
    (hv : validatePublicResult h payload = .ok b) : b.Valid := by
  obtain ⟨fields, _, hv⟩ := Failures.bind_eq_ok.mp hv
  obtain ⟨_, hv⟩ := require_bind.mp hv
  split at hv
  · obtain ⟨_, hv⟩ := require_bind.mp hv
    obtain ⟨_, hv⟩ := require_bind.mp hv
    obtain ⟨computed, _, hv⟩ := Failures.bind_eq_ok.mp hv
    obtain ⟨_, hv⟩ := require_bind.mp hv
    obtain ⟨_, hv⟩ := Outcome.unit_bind.mp hv
    obtain ⟨benchmark, hbenchmark, hv⟩ := Failures.bind_eq_ok.mp hv
    obtain ⟨environment, _, hv⟩ := Failures.bind_eq_ok.mp hv
    obtain ⟨items, _, hv⟩ := Failures.bind_eq_ok.mp hv
    obtain ⟨_, hv⟩ := require_bind.mp hv
    obtain ⟨models, hmodels, hv⟩ := Failures.bind_eq_ok.mp hv
    obtain ⟨_, hv⟩ := require_bind.mp hv
    obtain ⟨_, hv⟩ := require_bind.mp hv
    obtain ⟨_, hv⟩ := require_bind.mp hv
    cases hv
    have hread := readModels_mem hmodels
    constructor
    · intro m hm
      obtain ⟨i, v, hi⟩ := hread m hm
      exact (readModel_ok hi).1
    · intro m hm
      obtain ⟨i, v, hi⟩ := hread m hm
      exact (readModel_ok hi).2.1
    · intro m hm r hr
      obtain ⟨i, v, hi⟩ := hread m hm
      exact readBenchmark_packs hbenchmark r.1 ((readModel_ok hi).2.2 r hr).1
    · intro m hm r hr
      obtain ⟨i, v, hi⟩ := hread m hm
      exact ((readModel_ok hi).2.2 r hr).2
  · cases hv
  · cases hv

end Community
