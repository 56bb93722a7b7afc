import LlmHardtest.Library.SingleFlight
import LlmHardtest.Round5.CacheHeaders
set_option autoImplicit false

/-! The shared HTTP cache that the cache task takes as correct: one store, one flight for each
request representation, and any number of calls that take turns at its lock. -/

namespace Round5.SharedCache
open Python SingleFlight

/-- Rounding to the nearest 8-byte float; `⊤` is what lies beyond the largest. -/
structure Floats where
  nearest : ℚ → WithTop ℚ
  nearest_mono : ∀ {a b : ℚ}, a ≤ b → nearest a ≤ nearest b
  nearest_nat : ∀ n : Nat, n ≤ 2 ^ 53 → nearest n = (n : ℚ)

theorem exact_mono {a b : ℚ} (h : a ≤ b) : (a : WithTop ℚ) ≤ b := WithTop.coe_le_coe.mpr h

theorem exact_nat (n : Nat) (_ : n ≤ 2 ^ 53) : ((n : ℚ) : WithTop ℚ) = (n : ℚ) := rfl

def exactFloats : Floats where
  nearest q := q
  nearest_mono := @exact_mono
  nearest_nat := exact_nat

structure Env where
  unicode : UnicodeData
  floats : Floats

/-- A body, with the number of the exchange that delivered it, which the code does not read. -/
structure Body where
  bytes : Bytes
  origin : Nat
  deriving DecidableEq, Repr

/-- `_Entry`, with the number of the exchange that made it, which the code does not read. -/
structure Entry where
  vary : List Str
  values : List Str
  body : Body
  fields : Fields
  storedAt : ℚ
  age : Nat
  maxAge : Nat
  staleIfError : Option Nat
  renewed : Nat
  deriving Repr

/-- `d == e` -/
def Fields.same (d e : Fields) : Bool :=
  (d.map Prod.fst ++ e.map Prod.fst).all fun k => d.lookup k == e.lookup k

def Entry.same (e f : Entry) : Bool :=
  e.vary == f.vary && e.values == f.values && e.body.bytes == f.body.bytes &&
    e.fields.same f.fields && e.storedAt == f.storedAt && e.age == f.age && e.maxAge == f.maxAge &&
    e.staleIfError == f.staleIfError

abbrev Entries := List (Str × List Entry)

def Entries.at (entries : Entries) (url : Str) : List Entry := (entries.lookup url).getD []

/-- `tuple(request.get(name, "") for name in vary)` -/
def valuesOf (vary : List Str) (request : Dict) : List Str := vary.map request.value

def matching (entries : Entries) (url : Str) (request : Dict) : Option Entry :=
  (entries.at url).find? fun e => e.values == valuesOf e.vary request

def replaceIn (entries : List Entry) (old new : Option Entry) : List Entry :=
  let kept := match old with
    | none => entries
    | some old => entries.eraseP old.same
  match new with
  | none => kept
  | some new => kept.filter (fun e => !(e.vary == new.vary && e.values == new.values)) ++ [new]

def replace (entries : Entries) (url : Str) (old new : Option Entry) : Entries :=
  let left := replaceIn (entries.at url) old new
  if left.isEmpty then entries.filter fun e => e.1 ≠ url else dictSet url left entries

section Ages
variable (env : Env)

def Floats.round (f : Floats) : WithTop ℚ → WithTop ℚ
  | ⊤ => ⊤
  | (q : ℚ) => f.nearest q

def currentAge (e : Entry) (now : ℚ) : Except Failure (WithTop ℚ) :=
  if floatOverflow ≤ e.age then .error (.raised .overflowError)
  else .ok (env.floats.round (env.floats.nearest e.age +
    max 0 (env.floats.nearest (now - e.storedAt))))

def ceiling : WithTop ℚ → Except Failure Nat
  | ⊤ => .error (.raised .overflowError)
  | (q : ℚ) => .ok ⌈q⌉.toNat

def nowOf : Json → Except Failure ℚ
  | .int n =>
      if floatOverflow ≤ |n| then .error (.raised .overflowError)
      else if n < 0 then refuse "clock must return finite non-negative time"
      else match env.floats.nearest n with
        | ⊤ => .error (.raised .overflowError)
        | (q : ℚ) => .ok q
  | .float (.finite q) =>
      if q < 0 then refuse "clock must return finite non-negative time" else .ok q
  | _ => refuse "clock must return finite non-negative time"

end Ages

section Responses

/-- What the transport returns: the status is `none` when it is no integer, the body when it is no
bytes object. -/
inductive RawResponse where
  | malformed
  | parts (status : Option Int) (headers : Headers) (body : Option Bytes)
  deriving Repr

inductive Reply where
  | raises (ordinary : Bool) (what : Nat)
  | returns (value : RawResponse)
  deriving Repr

structure Response where
  status : Int
  fields : Fields
  body : Bytes
  deriving Repr

variable (env : Env)

def response : RawResponse → Except Failure Response
  | .malformed => refuse "invalid response shape"
  | .parts none _ _ => refuse "invalid response status"
  | .parts (some _) _ none => refuse "response body must be bytes"
  | .parts (some status) headers (some body) => do
      let found ← headerPairs env.unicode false headers
      return ⟨status, found.fields, body⟩

def mergeFields (old update : Fields) : Fields :=
  update.foldl (fun merged e => if isHopByHop e.1 then merged else dictSet e.1 e.2 merged)
    (old.filter fun e => !isHopByHop e.1)

def entryOf (body : Body) (fields : Fields) (request : Dict) (now : ℚ) (minimumAge : WithTop ℚ)
    (renewed : Nat) : Except Failure (Option Entry) := do
  match ← cachePolicy env.unicode fields with
  | none => return none
  | some policy =>
      let stated ← age env.unicode fields
      let least ← ceiling minimumAge
      return some {
        vary := policy.vary, values := valuesOf policy.vary request, body := body
        fields := fields.filter fun e => !isHopByHop e.1
        storedAt := now, age := max stated least, maxAge := policy.maxAge
        staleIfError := policy.staleIfError, renewed := renewed }

end Responses

/-! ## Calls -/

/-- Where a call stands; `done` with what it returns or raises, and its flight. A flight is named by
the call that created it. -/
inductive Phase where
  | ready
  | sensitive
  | waiting (flight : Nat)
  | leading
  | storing (updated : Option Entry) (result : Body)
  | landing (outcome : Except Failure Body)
  | done (outcome : Except Failure Body) (flight : Option Nat)

structure Call where
  url : Str
  request : Dict
  wire : Dict
  now : ℚ
  entry : Option Entry := none
  phase : Phase

abbrev Key := Str × Dict

def Call.key (c : Call) : Key := (c.url, c.request.insertionSort fun a b => a.1 ≤ b.1)

def Call.outbound (c : Call) : Dict :=
  match c.entry with
  | none => c.wire
  | some e =>
      match (e.fields.values "etag").getLast?, (e.fields.values "last-modified").getLast? with
      | some tag, _ => dictSet "If-None-Match".toList tag c.wire
      | none, some date => dictSet "If-Modified-Since".toList date c.wire
      | none, none => c.wire

/-- An exchange with the transport, and what `_response` makes of it. -/
structure Exchange where
  call : Nat
  url : Str
  request : Dict
  sent : Dict
  received : Except Failure Response

structure State where
  calls : List Call := []
  entries : Entries := []
  flights : List (Key × Nat) := []
  landed : List (Nat × Except Failure Body) := []
  log : List Exchange := []

def State.start : State := {}

variable (env : Env)

def begin (url : Option Str) (headers : Headers) (clock : Except Failure Json) :
    Except Failure Call := do
  match url with
  | some (c :: cs) => do
      let found ← headerPairs env.unicode true headers
      let now ← clock >>= nowOf env
      return { url := c :: cs, request := found.normalized, wire := found.wire, now := now
               phase := if isSensitive found.normalized then .sensitive else .ready }
  | _ => refuse "URL must be non-empty text"

def Call.failed (e : Failure) : Call :=
  { url := [], request := [], wire := [], now := 0, phase := .done (.error e) none }

def State.put (s : State) (i : Nat) (c : Call) : State := { s with calls := s.calls.set i c }

def State.board (s : State) (i : Nat) (c : Call) : State :=
  match leaderOf s.flights c.key with
  | some leader => s.put i { c with phase := .waiting leader }
  | none => { s.put i { c with phase := .leading } with flights := s.flights ++ [(c.key, i)] }

def State.lookup (s : State) (i : Nat) (c : Call) : State :=
  match matching s.entries c.url c.request with
  | none => s.board i c
  | some e =>
      match currentAge env e c.now with
      | .error raised => s.put i { c with entry := some e, phase := .done (.error raised) none }
      | .ok current =>
          if current < (e.maxAge : ℚ) then
            s.put i { c with entry := some e, phase := .done (.ok e.body) none }
          else s.board i { c with entry := some e }

/-- `self._response(self.transport(...))` -/
def received : Reply → Except Failure Response
  | .raises ordinary what => .error (.transport ordinary what)
  | .returns value => response env value

/-- What a response makes of a flight; `n` is the number of the exchange. -/
def Call.process (c : Call) (n : Nat) (r : Response) : Except Failure (Option Entry × Body) :=
  if r.status = 304 then
    match c.entry with
    | none => refuse "invalid 304 response"
    | some e => do
        check r.body.isEmpty "invalid 304 response"
        let oldAge ← currentAge env e c.now
        let updated ← entryOf env e.body (mergeFields e.fields r.fields) c.request c.now oldAge n
        return (updated, e.body)
  else if r.status = 200 then do
    let updated ← entryOf env ⟨r.body, n⟩ r.fields c.request c.now 0 n
    return (updated, ⟨r.body, n⟩)
  else refuse "unexpected response status"

/-- The entry that a failed transport call falls back to, or what is raised. -/
def Call.fallback (c : Call) (raised : Failure) : Except Failure Body :=
  match c.entry with
  | none => .error raised
  | some e =>
      match e.staleIfError with
      | none => .error raised
      | some bound => do
          let current ← currentAge env e c.now
          if current < ((e.maxAge + bound : Nat) : ℚ) then return e.body else .error raised

def Call.answered (c : Call) (n : Nat) : Reply → Phase
  | .raises true what => .landing (c.fallback env (.transport true what))
  | .raises false what => .landing (.error (.transport false what))
  | .returns value =>
      match response env value >>= c.process env n with
      | .ok (updated, result) => .storing updated result
      | .error e => .landing (.error e)

def uncached (n : Nat) (reply : Reply) : Except Failure Body := do
  let r ← received env reply
  check (decide (r.status = 200)) "unexpected response status"
  return ⟨r.body, n⟩

def State.exchange (s : State) (i : Nat) (c : Call) (sent : Dict) (reply : Reply) : State :=
  { s with log := s.log ++ [⟨i, c.url, c.request, sent, received env reply⟩] }

def State.turn (s : State) (i : Nat) (c : Call) (reply : Reply) : Option State :=
  match c.phase with
  | .ready => some (s.lookup env i c)
  | .sensitive =>
      some ((s.exchange env i c c.wire reply).put i
        { c with phase := .done (uncached env s.log.length reply) none })
  | .waiting leader =>
      (s.landed.lookup leader).map fun outcome =>
        s.put i { c with phase := .done outcome (some leader) }
  | .leading =>
      some ((s.exchange env i c c.outbound reply).put i
        { c with phase := c.answered env s.log.length reply })
  | .storing updated result =>
      some { s.put i { c with phase := .landing (.ok result) } with
             entries := replace s.entries c.url c.entry updated }
  | .landing outcome =>
      some { s.put i { c with phase := .done outcome (some i) } with
             flights := s.flights.filter fun e => e.1 ≠ c.key
             landed := s.landed ++ [(i, outcome)] }
  | .done _ _ => none

inductive Action where
  | call (url : Option Str) (headers : Headers) (clock : Except Failure Json)
  | turn (i : Nat) (reply : Reply)

def State.step (s : State) : Action → Option State
  | .call url headers clock =>
      let c := match begin env url headers clock with
        | .ok c => c
        | .error e => .failed e
      some { s with calls := s.calls ++ [c] }
  | .turn i reply => s.calls[i]?.bind fun c => s.turn env i c reply

/-- Any order of the sections of any calls; an action that is not possible does nothing. -/
def run (s : State) : List Action → State
  | [] => s
  | a :: as => run ((s.step env a).getD s) as

end Round5.SharedCache
