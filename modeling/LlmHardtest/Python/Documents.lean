import LlmHardtest.Python.Numeric
set_option autoImplicit false

/-! `==` on parsed JSON documents: numbers compare by value, objects without regard to order. -/

namespace Python

def Json.numeric : Json → Option PyFloat
  | .bool b => some (.finite (if b then 1 else 0))
  | .int n => some (.finite n)
  | .float x => some x
  | _ => none

def numericEq : Option PyFloat → Option PyFloat → Bool
  | some .nan, _ => false
  | some a, some b => a == b
  | _, _ => false

def Json.isArr : Json → Bool
  | .arr _ => true
  | _ => false

def Json.items : Json → List Json
  | .arr items => items
  | _ => []

mutual

/-- `a == b` -/
def Json.pyEq : Json → Json → Bool
  | .null, b => b.isNull
  | .str s, b => b.eqStr s
  | .arr xs, b => b.isArr && Json.itemsEq xs b.items
  | .obj xs, b =>
      match b with
      | .obj ys => xs.length == ys.length && Json.fieldsEq xs ys
      | _ => false
  | .bool x, b => numericEq (Json.bool x).numeric b.numeric
  | .int x, b => numericEq (Json.int x).numeric b.numeric
  | .float x, b => numericEq (Json.float x).numeric b.numeric
termination_by structural a => a

def Json.itemsEq : List Json → List Json → Bool
  | [], ys => ys.isEmpty
  | x :: xs, ys =>
      match ys with
      | [] => false
      | y :: ys => x.pyEq y && Json.itemsEq xs ys
termination_by structural xs => xs

def Json.fieldsEq : List (Str × Json) → List (Str × Json) → Bool
  | [], _ => true
  | x :: xs, ys => Json.fieldEq x ys && Json.fieldsEq xs ys
termination_by structural xs => xs

def Json.fieldEq : Str × Json → List (Str × Json) → Bool
  | (k, v), ys =>
      match ys.lookup k with
      | some w => v.pyEq w
      | none => false
termination_by structural x => x

end

example : (Json.obj [("a".toList, .int 1), ("b".toList, .null)]).pyEq
    (.obj [("b".toList, .null), ("a".toList, .bool true)]) = true := by
  decide +kernel

end Python
