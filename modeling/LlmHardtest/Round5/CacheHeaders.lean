import Mathlib.Order.WithBot
import LlmHardtest.Python.Number
set_option autoImplicit false

/-! The headers that the shared cache reads: pairs, directives, the storage policy and the age. -/

namespace Round5.SharedCache
open Python

/-- What a call or a helper raises. `transport` stands for what the transport raised; `ordinary`
when it is an `Exception`. -/
inductive Failure where
  | cacheError (message : Str)
  | raised (r : Raised)
  | transport (ordinary : Bool) (what : Nat)
  deriving DecidableEq, Repr

def refuse {α : Type} (message : String) : Except Failure α := .error (.cacheError message.toList)

def check (ok : Bool) (message : String) : Except Failure Unit :=
  if ok then .ok () else refuse message

abbrev Dict := List (Str × Str)

/-- `dict[str, list[str]]` -/
abbrev Fields := List (Str × List Str)

/-- `d.get(name, "")` -/
def Dict.value (d : Dict) (name : Str) : Str := (d.lookup name).getD []

/-- `d.get(name, [])` -/
def Fields.values (fields : Fields) (name : String) : List Str :=
  (fields.lookup name.toList).getD []

def Dict.setDefault (d : Dict) (name value : Str) : Dict :=
  if name ∈ d.map Prod.fst then d else d ++ [(name, value)]

/-- `fields.setdefault(name, []).append(value)` -/
def Fields.append (fields : Fields) (name value : Str) : Fields :=
  dictSet name ((fields.lookup name).getD [] ++ [value]) fields

inductive Part where
  | str (s : Str)
  | other
  deriving Repr

/-- The headers that a caller or the transport hands over. An item of an iterable is `none` when it is
no tuple and no list of two. -/
inductive Headers where
  | none
  | mapping (items : List (Part × Part))
  | text
  | iterable (items : List (Option (Part × Part)))
  | other
  deriving Repr

section Texts

def isAscii (s : Str) : Bool := s.all fun c => decide (c.toNat < 128)

/-- `[!#$%&'*+.^_|~0-9A-Za-z-]` and the backtick. -/
def tokenChar (c : Char) : Bool :=
  c.isDigit || (65 ≤ c.toNat && c.toNat ≤ 90) || (97 ≤ c.toNat && c.toNat ≤ 122) ||
    decide (c.toNat ∈ [33, 35, 36, 37, 38, 39, 42, 43, 46, 94, 95, 96, 124, 126, 45])

/-- `_TOKEN.fullmatch(name)` -/
def isToken (s : Str) : Bool := !s.isEmpty && s.all tokenChar

def stripBlanks (s : Str) : Str :=
  let blank := fun c => c == ' ' || c == '\t'
  ((s.dropWhile blank).reverse.dropWhile blank).reverse

def partition (sep : Char) (s : Str) : Str × Bool × Str :=
  (s.takeWhile (· ≠ sep), s.contains sep, (s.dropWhile (· ≠ sep)).drop 1)

end Texts

def sensitiveNames : List String :=
  ["authorization", "cookie", "range", "if-none-match", "if-modified-since"]

def hopByHop : List String :=
  ["connection", "keep-alive", "proxy-authenticate", "proxy-authorization", "te", "trailer",
    "transfer-encoding", "upgrade"]

def isHopByHop (name : Str) : Bool := decide (name ∈ hopByHop.map String.toList)

/-- `set(request) & _SENSITIVE` -/
def isSensitive (request : Dict) : Bool :=
  request.any fun e => decide (e.1 ∈ sensitiveNames.map String.toList)

structure Collected where
  normalized : Dict := []
  fields : Fields := []
  wire : Dict := []
  deriving Repr

variable (u : UnicodeData)

def collect (request : Bool) (found : Collected) (pair : Option (Part × Part)) :
    Except Failure Collected := do
  match pair with
  | none => refuse "headers must be pairs"
  | some (.str name, value) => do
      check (isAscii name && isToken name) "invalid header name"
      match value with
      | .str raw => do
          check (!raw.contains '\r' && !raw.contains '\n') "invalid header value"
          let lower := u.lowerStr name
          let clean := stripBlanks raw
          check (!request || (found.normalized.lookup lower).all fun old => old == clean)
            "conflicting request header"
          return { normalized := if request then dictSet lower clean found.normalized
                                 else found.normalized
                   fields := found.fields.append lower clean
                   wire := if request then found.wire.setDefault name clean else found.wire }
      | .other => refuse "invalid header value"
  | some (.other, _) => refuse "invalid header name"

def headerPairs (request : Bool) (value : Headers) : Except Failure Collected :=
  let pairs : Except Failure (List (Option (Part × Part))) :=
    match value with
    | .none => if request then .ok [] else refuse "headers must be pairs"
    | .mapping items => .ok (items.map some)
    | .text => refuse "headers must be pairs"
    | .iterable items => .ok items
    | .other => refuse "headers must be pairs"
  pairs >>= List.foldlM (collect u request) {}

def readInt (message : String) (raw : Str) : Except Failure Nat :=
  if isAscii raw && !raw.isEmpty && raw.all Char.isDigit then (pyInt u raw).mapError .raised
  else refuse message

/-- One part of a `Cache-Control` value: the number that it gives for `name`, if it names it. -/
def directiveNumber (name : String) (text : Str) : Except Failure (Option Nat) := do
  let part := strip text
  check (!part.isEmpty) "empty Cache-Control directive"
  let (key, separator, raw) := partition '=' part
  if u.lowerStr (strip key) ≠ name.toList then return none
  else
    check separator (name ++ " requires a value")
    let raw := strip raw
    let quoted := decide (2 ≤ raw.length) && raw.head? == some '"' && raw.getLast? == some '"'
    return some (← readInt u ("invalid " ++ name) (if quoted then raw.tail.dropLast else raw))

/-- `_numeric_directive`; `required` makes no difference. -/
def numericDirective (values : List Str) (name : String) : Except Failure (Option Nat) := do
  let selected ← (values.flatMap (splitOnChar ',')).mapM (directiveNumber u name)
  let selected := selected.filterMap id
  check (selected.all fun n => some n == selected.head?) ("conflicting " ++ name)
  return selected.head?

def varyNames : List Str → List Str → Except Failure (Option (List Str))
  | [], vary => .ok (some vary)
  | text :: rest, vary =>
      let name := u.lowerStr (strip text)
      if name = "*".toList then .ok none
      else if isAscii name && isToken name then
        varyNames rest (if name ∈ vary then vary else vary ++ [name])
      else refuse "invalid Vary"

structure Policy where
  vary : List Str
  maxAge : Nat
  staleIfError : Option Nat
  deriving DecidableEq, Repr

/-- `_cache_policy`; `none` when the response may not be stored. -/
def cachePolicy (fields : Fields) : Except Failure (Option Policy) := do
  let controls := fields.values "cache-control"
  let directives := controls.flatMap fun value => (splitOnChar ',' value).map fun part =>
    u.lowerStr (strip part)
  let maxAge ← numericDirective u controls "max-age"
  let stale ← numericDirective u controls "stale-if-error"
  let forbidden := directives.any fun part =>
    let name := strip (partition '=' part).1
    name == "private".toList || name == "no-store".toList
  match ← varyNames u ((fields.values "vary").flatMap (splitOnChar ',')) [] with
  | none => return none
  | some vary =>
      if forbidden || (fields.lookup "set-cookie".toList).isSome then return none
      else return maxAge.map fun n => ⟨vary, n, stale⟩

def age (fields : Fields) : Except Failure Nat :=
  match fields.values "age" with
  | [] => .ok 0
  | first :: rest =>
      if rest.all (· == first) then readInt u "invalid Age" first
      else refuse "invalid Age"

end Round5.SharedCache
