import LlmHardtest.Python.Value
set_option autoImplicit false

/-! Paths into a JSON value, and what a document may hold at each of them. -/

namespace Python

inductive Step where
  | key (k : Str)
  | index (i : Nat)
  deriving DecidableEq, Repr

def Json.child : Json → Step → Option Json
  | .obj fields, .key k => fields.lookup k
  | .arr items, .index i => items[i]?
  | _, _ => none

def Json.at (v : Json) (path : List Step) : Option Json := path.foldlM Json.child v

/-- What a document may hold: a leaf of some class, an object with its allowed keys, or a list. -/
inductive Level (α : Type) where
  | leaf (a : α)
  | object (fields : List (String × Level α))
  | list (item : Level α)

section Levels
variable {α : Type} {ok : α → Json → Prop}

def Level.child : Level α → Step → Option (Level α)
  | .object fields, .key k => (fields.find? fun f => f.1.toList = k).map Prod.snd
  | .list item, .index _ => some item
  | _, _ => none

def Level.at (l : Level α) (path : List Step) : Option (Level α) := path.foldlM Level.child l

def Level.allows (ok : α → Json → Prop) : Level α → Json → Prop
  | .leaf a, v => ok a v
  | .object fields, .obj es => ∀ e ∈ es, e.1 ∈ fields.map fun f => f.1.toList
  | .list _, .arr _ => True
  | _, _ => False

/-- Everything in the value is allowed at its place. -/
def Clean (ok : α → Json → Prop) (l : Level α) (v : Json) : Prop :=
  ∀ path w, v.at path = some w → ∃ place, l.at path = some place ∧ place.allows ok w

/-- A value is clean when its level allows it and its children are clean. -/
theorem clean_of_children {l : Level α} {v : Json} (hv : l.allows ok v)
    (hchild : ∀ step w, v.child step = some w → ∃ place, l.child step = some place ∧ Clean ok place w) :
    Clean ok l v := by
  intro path w hw
  cases path with
  | nil =>
    cases hw
    exact ⟨l, rfl, hv⟩
  | cons step path =>
    rw [Json.at, List.foldlM_cons, Option.bind_eq_bind, Option.bind_eq_some_iff] at hw
    obtain ⟨c, hc, hw⟩ := hw
    obtain ⟨place, hplace, hclean⟩ := hchild step c hc
    obtain ⟨deep, hdeep, hallows⟩ := hclean path w hw
    refine ⟨deep, ?_, hallows⟩
    rw [Level.at, List.foldlM_cons, hplace]
    exact hdeep

theorem clean_leaf {a : α} {v : Json} (hv : ok a v) (hchild : ∀ step, v.child step = none) :
    Clean ok (.leaf a) v := by
  refine clean_of_children hv fun step w hw => ?_
  rw [hchild] at hw
  cases hw

theorem clean_object {fields : List (String × Level α)} {es : List (Str × Json)}
    (hkeys : ∀ e ∈ es, e.1 ∈ fields.map fun f => f.1.toList)
    (hall : ∀ f ∈ fields, ∀ v, es.lookup f.1.toList = some v → Clean ok f.2 v) :
    Clean ok (.object fields) (.obj es) := by
  refine clean_of_children hkeys fun step w hw => ?_
  cases step with
  | index i => cases hw
  | key k =>
    have hlookup : es.lookup k = some w := hw
    obtain ⟨before, after, hmem, -⟩ := List.lookup_eq_some_iff.mp hlookup
    have hk := hkeys (k, w) (by rw [hmem]; simp)
    have hfound : (fields.find? fun f => f.1.toList = k).isSome = true := by
      rw [List.find?_isSome]
      obtain ⟨f, hf, hfk⟩ := List.mem_map.mp hk
      exact ⟨f, hf, by simpa using hfk⟩
    obtain ⟨f, hf⟩ := Option.isSome_iff_exists.mp hfound
    have hname : f.1.toList = k := by simpa using List.find?_some hf
    refine ⟨f.2, by simp [Level.child, hf], hall f (List.mem_of_find?_eq_some hf) w ?_⟩
    rw [hname]
    exact hlookup

theorem clean_list {item : Level α} {items : List Json} (h : ∀ v ∈ items, Clean ok item v) :
    Clean ok (.list item) (.arr items) := by
  refine clean_of_children trivial fun step w hw => ?_
  cases step with
  | key k => cases hw
  | index i => exact ⟨item, rfl, h w (List.mem_of_getElem? hw)⟩

end Levels

end Python
