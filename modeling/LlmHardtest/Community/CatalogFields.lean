import LlmHardtest.Community.Accepted
import LlmHardtest.Community.Catalog
set_option autoImplicit false

/-! The fields of a catalog: what they hold, and when a constraint on one of them is taken. -/

namespace Community
open Python
open Round5 (require_ok)

def textLimit (field : String) : Nat := if field = "serving_architecture" then 32 else 160

structure FieldText (field : String) (s : Str) : Prop where
  printable : Printable s
  configuration : field = "configuration" → isConfigurationId s = true
  python : field = "python" → isVersion s = true
  transport : field = "transport" → inNames ["openai_compat", "codex_cli"] s = true
  scope : field = "serving_scope" → inNames ["same_host", "remote", "unreported"] s = true
  os : field = "serving_os" → inNames systems s = true

section Texts
variable {s : Str} {field : String}

theorem safeText_iff (h : Printable s) : safeText s = true ↔ s.length ≤ 160 := by
  have hvisible : (strip s).isEmpty = false := by simpa using h.visible
  have hall : (s.all fun c => decide (32 ≤ c.toNat)) = true := by simpa using h.printable
  rw [safeText, hvisible, hall]
  simp

theorem printable_of_safeText (h : safeText s = true) : Printable s := by
  simp only [safeText, Bool.and_eq_true, decide_eq_true_eq, List.all_eq_true, Bool.not_eq_true'] at h
  exact ⟨by simpa using h.1.1, h.2⟩

theorem printable_of_word {names : List String} (hnames : ∀ name ∈ names, safeText name.toList = true)
    (h : inNames names s = true) : Printable s := by
  obtain ⟨name, hname, rfl⟩ := List.mem_map.mp (of_decide_eq_true h)
  exact printable_of_safeText (hnames name hname)

theorem printable_version (hversion : isVersion s = true) : Printable s := by
  have h := hversion
  unfold isVersion at h
  split at h
  · rename_i major minor hsplit
    simp only [Bool.and_eq_true, Bool.not_eq_true', List.all_eq_true] at h
    have hrange : ∀ c ∈ s, 33 ≤ c.toNat ∧ c.toNat < 127 := by
      intro c hc
      rcases version_chars hversion hc with rfl | hdigit
      · decide
      · have hr := isLowerHex_range (by rw [isLowerHex, hdigit, Bool.true_or])
        omega
    have hspace : ∀ c ∈ s, isSpace c = false := by
      intro c hc
      have hr := hrange c hc
      simp only [isSpace, Bool.or_eq_false_iff, Bool.and_eq_false_iff, decide_eq_false_iff_not,
        beq_eq_false_iff_ne]
      omega
    refine ⟨?_, fun c hc => by have hr := hrange c hc; omega⟩
    rw [strip_of_not_space hspace]
    rintro rfl
    simp [splitOnChar] at hsplit
  · cases h

end Texts

section Fields
variable {row : AggregateRow} {field : String}

def coordinateFacets : List String :=
  ["configuration", "model", "os", "architecture", "python", "serving_scope", "serving_os",
    "serving_architecture", "transport"]

theorem facetFields_cases (h : field ∈ facetFields) :
    field ∈ coordinateFacets ∨ field ∈ parameterFacets ∨ field ∈ metadataFacets := by
  have hall : ∀ f ∈ facetFields, f ∈ coordinateFacets ∨ f ∈ parameterFacets ∨ f ∈ metadataFacets := by
    decide
  exact hall field h

theorem facetValue_parameter (h : field ∈ parameterFacets) :
    facetValue row field = row.identity.parameters.get field.toList := by
  have hne : ∀ f ∈ parameterFacets, ∀ g ∈ coordinateFacets, f ≠ g := by decide
  have hno := hne field h
  simp only [coordinateFacets, List.forall_mem_cons] at hno
  simp only [facetValue, hno, if_false, h, if_true]

theorem facetValue_metadata (h : field ∈ metadataFacets) :
    facetValue row field = row.identity.publicMetadata.get field.toList := by
  have hne : ∀ f ∈ metadataFacets, ∀ g ∈ coordinateFacets, f ≠ g := by decide
  have hparam : ∀ f ∈ metadataFacets, f ∉ parameterFacets := by decide
  have hno := hne field h
  simp only [coordinateFacets, List.forall_mem_cons] at hno
  simp only [facetValue, hno, if_false, hparam field h]

/-- The recommender reads a field as the catalog does. -/
theorem constraintValue_facet (h : field ∈ facetFields) :
    constraintValue row field.toList = facetValue row field := by
  rcases facetFields_cases h with h | h | h
  · simp only [coordinateFacets, List.mem_cons, List.not_mem_nil, or_false] at h
    rcases h with rfl | rfl | rfl | rfl | rfl | rfl | rfl | rfl | rfl <;>
      simp [constraintValue, facetValue]
  · rw [facetValue_parameter h]
    have hne : ∀ f ∈ parameterFacets, ∀ g ∈ coordinateFacets, f.toList ≠ g.toList := by decide
    have hin : ∀ f ∈ parameterFacets, inNames parameterConstraints f.toList = true := by decide
    have hno := hne field h
    simp only [coordinateFacets, List.forall_mem_cons] at hno
    simp only [constraintValue, hno, if_false, hin field h, if_true]
  · rw [facetValue_metadata h]
    have hne : ∀ f ∈ metadataFacets, ∀ g ∈ coordinateFacets, f.toList ≠ g.toList := by decide
    have hout : ∀ f ∈ metadataFacets, inNames parameterConstraints f.toList = false ∧
        inNames maxConstraints f.toList = false := by decide
    have hno := hne field h
    simp only [coordinateFacets, List.forall_mem_cons] at hno
    simp only [constraintValue, hno, if_false, hout field h, Bool.false_eq_true]

theorem get_mem {settings : Settings} {k : Str} {v : Setting} (h : settings.get k = some v) :
    (k, v) ∈ settings := by
  obtain ⟨before, after, hmem, -⟩ := List.lookup_eq_some_iff.mp h
  rw [hmem]
  simp

theorem fieldText_of_printable {s : Str} (hs : Printable s) (h : field ∉ ["configuration", "python",
    "transport", "serving_scope", "serving_os"]) : FieldText field s := by
  simp only [List.mem_cons, List.not_mem_nil, or_false, not_or] at h
  exact ⟨hs, fun he => absurd he h.1, fun he => absurd he h.2.1, fun he => absurd he h.2.2.1,
    fun he => absurd he h.2.2.2.1, fun he => absurd he h.2.2.2.2⟩

theorem facetValue_text (hi : row.identity.Accepted) (hmodel : Printable row.key.model) {s : Str}
    (hf : field ∈ facetFields) (h : facetValue row field = some (.text s)) :
    field ∈ textConstraints ∧ FieldText field s := by
  rcases facetFields_cases hf with hf | hf | hf
  · simp only [coordinateFacets, List.mem_cons, List.not_mem_nil, or_false] at hf
    have hsystems : ∀ name ∈ systems, safeText name.toList = true := by decide
    rcases hf with rfl | rfl | rfl | rfl | rfl | rfl | rfl | rfl | rfl <;>
      refine ⟨by decide, ?_⟩ <;> simp only [facetValue, String.reduceEq, if_true, if_false,
        Option.some.injEq, Setting.text.injEq, Option.map_eq_some_iff, exists_eq_right] at h
    · subst h
      exact ⟨printable_of_safeText (safeText_configurationId _), fun _ => row.key.configuration.2,
        by simp, by simp, by simp, by simp⟩
    · exact fieldText_of_printable (h ▸ hmodel) (by decide)
    · exact fieldText_of_printable (h ▸ printable_of_word hsystems hi.os) (by decide)
    · exact fieldText_of_printable (h ▸ hi.architecture) (by decide)
    · subst h
      exact ⟨printable_version hi.python, by simp, fun _ => hi.python, by simp, by simp, by simp⟩
    · subst h
      exact ⟨printable_of_word (by decide) hi.serving.scope, by simp, by simp, by simp,
        fun _ => hi.serving.scope, by simp⟩
    · have hos := hi.serving.os s h
      exact ⟨printable_of_word hsystems hos, by simp, by simp, by simp, by simp, fun _ => hos⟩
    · exact fieldText_of_printable (hi.serving.architecture s h) (by decide)
    · subst h
      exact ⟨printable_of_word (by decide) hi.transport, by simp, by simp, fun _ => hi.transport,
        by simp, by simp⟩
  · rw [facetValue_parameter hf] at h
    obtain ⟨hnumeric, hs⟩ := hi.parameters.texts _ _ (get_mem h)
    have hfield : ∀ f ∈ parameterFacets, numericParameter f.toList = false → f ∈ textConstraints ∧
        f ∉ ["configuration", "python", "transport", "serving_scope", "serving_os"] := by decide
    exact ⟨(hfield field hf hnumeric).1, fieldText_of_printable hs (hfield field hf hnumeric).2⟩
  · rw [facetValue_metadata hf] at h
    obtain ⟨hnumeric, hs⟩ := hi.publicMetadata.texts _ _ (get_mem h)
    have hfield : ∀ f ∈ metadataFacets, inNames metadataNumbers f.toList = false →
        f ∈ textConstraints ∧
        f ∉ ["configuration", "python", "transport", "serving_scope", "serving_os"] := by decide
    exact ⟨(hfield field hf hnumeric).1, fieldText_of_printable hs (hfield field hf hnumeric).2⟩

theorem facetValue_number (hi : row.identity.Accepted) {n : FiniteNum} (hf : field ∈ facetFields)
    (h : facetValue row field = some (.number n)) :
    field ∈ numericConstraints ∧ ∀ m, n = .int m → |m| < floatOverflow := by
  rcases facetFields_cases hf with hf | hf | hf
  · simp only [coordinateFacets, List.mem_cons, List.not_mem_nil, or_false] at hf
    rcases hf with rfl | rfl | rfl | rfl | rfl | rfl | rfl | rfl | rfl <;> simp [facetValue] at h
  · rw [facetValue_parameter hf] at h
    obtain ⟨hnumeric, hn⟩ := hi.parameters.numbers _ _ (get_mem h)
    have hfield : ∀ f ∈ parameterFacets, numericParameter f.toList = true → f ∈ numericConstraints := by
      decide
    exact ⟨hfield field hf hnumeric, hn⟩
  · rw [facetValue_metadata hf] at h
    obtain ⟨hnumeric, hn⟩ := hi.publicMetadata.numbers _ _ (get_mem h)
    have hfield : ∀ f ∈ metadataFacets, inNames metadataNumbers f.toList = true →
        f ∈ numericConstraints := by decide
    exact ⟨hfield field hf hnumeric, hn⟩

end Fields

/-! One constraint, checked. -/

section Check
variable {field : String} {s : Str} {v : Json}

theorem checkEach_single_iff {names : List String} {check : String → Json → Outcome Unit} :
    checkEach [(field.toList, v)] names check = .ok () ↔ (field ∈ names → check field v = .ok ()) := by
  constructor
  · intro h hf
    have heach := forM_mem h field hf
    rw [List.lookup_cons, BEq.rfl] at heach
    exact heach
  · intro h
    refine checkEach_singleton fun name hname hkey => ?_
    obtain rfl := String.toList_injective hkey
    exact h hname

theorem checkText_single_iff {name : String} {ok : Str → Bool} {message : String} :
    checkText [(field.toList, .str s)] name ok message = .ok () ↔ (field = name → ok s = true) := by
  by_cases h : name = field
  · subst h
    rw [checkText, constraintText, List.lookup_cons, BEq.rfl]
    simp
  · rw [checkText_of_ne fun he => h (String.toList_injective he)]
    simp [Ne.symm h]

theorem checkText_other {name : String} {ok : Str → Bool} {message : String} (hv : ∀ s, v ≠ .str s) :
    checkText [(field.toList, v)] name ok message = .ok () := by
  have hnone : constraintText [(field.toList, v)] name = none := by
    rw [constraintText, List.lookup_cons]
    split
    · rename_i s hfound
      split at hfound
      · cases hfound
        exact absurd rfl (hv s)
      · cases hfound
    · rfl
  rw [checkText, hnone]

theorem known_single (h : field ∈ textConstraints ++ numericConstraints ++ maxConstraints) :
    (([(field.toList, v)].map Prod.fst).filter fun key =>
      !inNames (textConstraints ++ numericConstraints ++ maxConstraints) key) = [] := by
  have hin : inNames (textConstraints ++ numericConstraints ++ maxConstraints) field.toList = true :=
    decide_eq_true (List.mem_map.mpr ⟨field, h, rfl⟩)
  rw [List.map_cons, List.map_nil, List.filter_cons_of_neg (by rw [hin]; decide), List.filter_nil]

theorem checkConstraints_text (hf : field ∈ textConstraints) (hs : FieldText field s) :
    checkConstraints [(field.toList, .str s)] = .ok () ↔ s.length ≤ textLimit field := by
  have hmax : ∀ f ∈ textConstraints, f ∉ maxConstraints ∧ f ∉ numericConstraints := by decide
  have hsafe : checkSafeText field (.str s) = .ok () ↔ s.length ≤ 160 := by
    rw [checkSafeText, require_ok, safeText_iff hs.printable]
  unfold checkConstraints
  dsimp only
  rw [known_single (by simp [hf])]
  simp only [List.isEmpty_nil, require_ok, Outcome.unit_bind, checkEach_single_iff,
    checkText_single_iff, hmax field hf, hf, hsafe, forall_const, false_implies, true_and,
    decide_eq_true_eq]
  have hall : (field = "configuration" → isConfigurationId s = true) ∧
      (field = "python" → isVersion s = true) ∧
      (field = "transport" → inNames ["openai_compat", "codex_cli"] s = true) ∧
      (field = "serving_scope" → inNames ["same_host", "remote", "unreported"] s = true) ∧
      (field = "serving_os" → inNames ["Linux", "Darwin", "Windows", "Other"] s = true) :=
    ⟨hs.configuration, hs.python, hs.transport, hs.scope, hs.os⟩
  unfold textLimit
  constructor
  · rintro ⟨h160, -, -, -, -, -, h32⟩
    split
    · rename_i harchitecture
      exact h32 harchitecture
    · exact h160
  · intro h
    refine ⟨?_, hall.1, hall.2.1, hall.2.2.1, hall.2.2.2.1, hall.2.2.2.2, fun he => ?_⟩
    · split at h <;> omega
    · rwa [if_pos he] at h

theorem checkConstraints_number (hf : field ∈ numericConstraints) (x : ℚ) :
    checkConstraints [(field.toList, .float (.finite x))] = .ok () := by
  have hmax : ∀ f ∈ numericConstraints, f ∉ maxConstraints ∧ f ∉ textConstraints := by decide
  have hnumeric : checkNumeric field (.float (.finite x)) = .ok () := rfl
  unfold checkConstraints
  dsimp only
  rw [known_single (by simp [hf])]
  simp only [List.isEmpty_nil, require_ok, Outcome.unit_bind, checkEach_single_iff, hmax field hf,
    hf, hnumeric, forall_const, false_implies, true_and]
  simp [checkText_other]

end Check

end Community
