import LlmHardtest.Library.OnceOnly
import LlmHardtest.Python.Digest
import LlmHardtest.Python.Numeric
import LlmHardtest.Python.Splitting
set_option autoImplicit false

/-! The reference webhook processor of the replay task: signed requests, of which each is handled to
its end at most once, however many calls run at the same time. -/

namespace Round5.Webhook
open Python OnceOnly

/-- What a call raises; `handler` stands for what the handler raised, `clock` for the clock. -/
inductive Failure where
  | webhookError (message : Str)
  | raised (r : Raised)
  | clock (what : Nat)
  | handler (what : Nat)
  deriving DecidableEq, Repr

def refuse {α : Type} (message : String) : Except Failure α := .error (.webhookError message.toList)

def check (ok : Bool) (message : String) : Except Failure Unit :=
  if ok then .ok () else refuse message

def lift {α : Type} : Outcome α → Except Failure α
  | .ok a => .ok a
  | .error r => .error (.raised r)

/-! ## The header -/

def kidChar (c : Char) : Bool :=
  c.isDigit || (65 ≤ c.toNat && c.toNat ≤ 90) || (97 ≤ c.toNat && c.toNat ≤ 122) ||
    decide (c ∈ ['.', '_', '-'])

/-- `_KID.fullmatch` -/
def isKid (s : Str) : Bool := !s.isEmpty && s.all kidChar

/-- `_SIGNATURE.fullmatch` -/
def isSignature (s : Str) : Bool := s.length == 64 && s.all isLowerHex

def partOf (part : Str) : Except Failure (Str × Str) :=
  match splitOnChar '=' part with
  | [name, item] =>
      if name ∈ ["t".toList, "kid".toList, "v1".toList] ∧ item ≠ [] then .ok (name, item)
      else refuse "malformed signature header"
  | _ => refuse "malformed signature header"

/-- `fields[name]` -/
def fieldItems (parts : List (Str × Str)) (name : String) : List Str :=
  (parts.filter fun p => p.1 = name.toList).map Prod.snd

structure SignatureHeader where
  timestamp : Nat
  kid : Str
  signatures : List Str
  deriving DecidableEq, Repr

/-- `_header`; `none` for a value that is no text. -/
def header (u : UnicodeData) : Option Str → Except Failure SignatureHeader
  | some (c :: cs) => do
      let parts ← (splitOnChar ',' (c :: cs)).mapM partOf
      match fieldItems parts "t", fieldItems parts "kid", fieldItems parts "v1" with
      | [t], [kid], s :: ss => do
          check (isDecimal t && isKid kid && (s :: ss).all isSignature) "malformed signature header"
          let timestamp ← lift (pyInt u t)
          return ⟨timestamp, kid, s :: ss⟩
      | _, _, _ => refuse "malformed signature header"
  | _ => refuse "malformed signature header"

/-! ## A request -/

inductive LoadError where
  | invalid
  | raised (r : Raised)

/-- `json.loads` on bytes: the pairs of the objects that it completes, in the order in which it hands
them to the hook, and how it ends. -/
structure Loaded where
  completed : List (List (Str × Json))
  result : Except LoadError Json

structure Env where
  unicode : UnicodeData
  hmac : Bytes → Bytes → Str
  sha256 : Bytes → Bytes
  loads : Bytes → Loaded

structure Keys where
  table : List (Str × List Bytes)
  secrets : ∀ e ∈ table, e.2 ≠ [] ∧ ∀ secret ∈ e.2, secret ≠ []

structure Config where
  keys : Keys
  tolerance : Nat

def object (pairs : List (Str × Json)) : Except Failure Unit :=
  check (decide (pairs.map Prod.fst).Nodup) "duplicate JSON key"

def parseBody (env : Env) (body : Bytes) : Except Failure (List (Str × Json)) := do
  let loaded := env.loads body
  let _ ← loaded.completed.mapM object
  match loaded.result with
  | .ok (.obj fields) => return fields
  | .ok _ => refuse "webhook JSON must be an object"
  | .error .invalid => refuse "invalid JSON"
  | .error (.raised r) => .error (.raised r)

/-- `abs(now - timestamp) > self._tolerance`; comparisons with NaN are false. -/
def isOutside (tolerance timestamp : Nat) : PyNum → Except Failure Bool
  | .int n => .ok (decide ((tolerance : Int) < |n - timestamp|))
  | .float x => do
      -- A float minus an integer makes a float of the integer first, and one of the difference.
      let t ← lift (PyNum.int timestamp).toFloat
      match x with
      | .finite q =>
          match PyFloat.ofRat (q - t.finiteValue) with
          | .finite d => return decide ((tolerance : ℚ) < |d|)
          | _ => return true
      | .inf _ => return true
      | .nan => return false

def checkTime (tolerance timestamp : Nat) (now : Json) : Except Failure Unit :=
  match now.number with
  | none => refuse "timestamp outside tolerance"
  | some n => do
      let outside ← isOutside tolerance timestamp n
      check (!outside) "timestamp outside tolerance"

/-- `str(timestamp).encode("ascii") + b"." + body` -/
def signedBytes (timestamp : Nat) (body : Bytes) : Bytes :=
  utf8Encode (natStr timestamp) ++ 46 :: body

structure Token where
  kid : Str
  timestamp : Nat
  digest : Bytes
  deriving DecidableEq, Repr

/-- The arguments of a call, and what the clock says when it is read; `none` for a body that is no
bytes and for a header that is no text. -/
structure Request where
  body : Option Bytes
  header : Option Str
  clock : Except Nat Json

def ofOption {α : Type} (message : String) : Option α → Except Failure α
  | some a => .ok a
  | none => refuse message

def readClock : Except Nat Json → Except Failure Json
  | .ok now => .ok now
  | .error what => .error (.clock what)

variable (env : Env) (cfg : Config)

/-- `authenticated` -/
def isSigned (secrets : List Bytes) (signatures : List Str) (signed : Bytes) : Bool :=
  secrets.any fun secret => signatures.any fun supplied => env.hmac secret signed == supplied

/-- `process` up to its first use of what calls share: the token and the payload. -/
def accept (r : Request) : Except Failure (Token × List (Str × Json)) := do
  let body ← ofOption "body must be bytes" r.body
  let h ← header env.unicode r.header
  let now ← readClock r.clock
  checkTime cfg.tolerance h.timestamp now
  let secrets ← ofOption "unknown key" (cfg.keys.table.lookup h.kid)
  let signed := signedBytes h.timestamp body
  check (isSigned env secrets h.signatures signed) "invalid signature"
  let payload ← parseBody env body
  return (⟨h.kid, h.timestamp, env.sha256 signed⟩, payload)

/-! ## Calls -/

/-- Where a call of `process` stands; `handled` between the handler and the last section. -/
inductive Phase (R : Type) where
  | ready (token : Token) (payload : List (Str × Json))
  | handling (token : Token) (payload : List (Str × Json))
  | handled (token : Token) (payload : List (Str × Json)) (outcome : Except Nat R)
  | ended (outcome : Except Failure R)

structure Call (R : Type) where
  request : Request
  phase : Phase R

structure State (R : Type) where
  pending : List Token := []
  done : List Token := []
  calls : List (Call R) := []
  log : List (Token × Event) := []

inductive Action (R : Type) where
  | process (r : Request)
  | reserve (i : Nat)
  | handle (i : Nat) (outcome : Except Nat R)
  | settle (i : Nat)

variable {R : Type}

def State.put (s : State R) (i : Nat) (c : Call R) (phase : Phase R) : State R :=
  { s with calls := s.calls.set i { c with phase := phase } }

def State.reserve (s : State R) (i : Nat) (c : Call R) (token : Token)
    (payload : List (Str × Json)) : State R :=
  if token ∈ s.pending ∨ token ∈ s.done then s.put i c (.ended (refuse "replayed webhook"))
  else
    { s.put i c (.handling token payload) with
      pending := s.pending ++ [token], log := s.log ++ [(token, .began i)] }

def State.settle (s : State R) (i : Nat) (c : Call R) (token : Token) : Except Nat R → State R
  | .ok result =>
      { s.put i c (.ended (.ok result)) with
        pending := s.pending.filter (· ≠ token), done := s.done.insert token
        log := s.log ++ [(token, .succeeded i)] }
  | .error what =>
      { s.put i c (.ended (.error (.handler what))) with
        pending := s.pending.filter (· ≠ token), log := s.log ++ [(token, .failed i)] }

def begin (r : Request) : Call R :=
  match accept env cfg r with
  | .ok (token, payload) => ⟨r, .ready token payload⟩
  | .error e => ⟨r, .ended (.error e)⟩

def State.step (s : State R) : Action R → Option (State R)
  | .process r => some { s with calls := s.calls ++ [begin env cfg r] }
  | .reserve i =>
      s.calls[i]?.bind fun c =>
        match c.phase with
        | .ready token payload => some (s.reserve i c token payload)
        | _ => none
  | .handle i outcome =>
      s.calls[i]?.bind fun c =>
        match c.phase with
        | .handling token payload => some (s.put i c (.handled token payload outcome))
        | _ => none
  | .settle i =>
      s.calls[i]?.bind fun c =>
        match c.phase with
        | .handled token _ outcome => some (s.settle i c token outcome)
        | _ => none

/-- Any order of the sections of any calls; an action that is not possible does nothing. -/
def run (s : State R) : List (Action R) → State R
  | [] => s
  | a :: as => run ((s.step env cfg a).getD s) as

end Round5.Webhook
