import Mathlib.Order.WithBot
import LlmHardtest.Library.Fencing
import LlmHardtest.Python.Number
set_option autoImplicit false

/-! The job queue that the lease task takes as correct: one table, four transactions. -/

namespace Round5.JobQueue
open Python Fencing

inductive Failure where
  | valueError (message : Str)
  | typeError (message : Str)
  | leaseError (message : Str)
  | overflowError
  | integrityError
  | operationalError
  | raised (r : Raised)
  deriving DecidableEq, Repr

/-- The JSON library and the 8-byte floats. A float is finite or, after an overflow, `inf`. -/
structure Platform where
  dumps : Json → Outcome Str
  loads : Str → Outcome Json
  nearest : ℚ → WithTop ℚ
  loads_dumps : ∀ v s, dumps v = .ok s → (loads s).returns
  nearest_mono : ∀ {a b : ℚ}, a ≤ b → nearest a ≤ nearest b
  nearest_idem : ∀ {a b : ℚ}, nearest a = b → nearest b = b
  nearest_zero : nearest 0 = 0

/-- Numbers without rounding, and the one payload `{}`. -/
def exactPlatform : Platform where
  dumps
    | .obj [] => .ok "{}".toList
    | _ => .error .typeError
  loads s := if s = "{}".toList then .ok (.obj []) else .error .typeError
  nearest q := q
  loads_dumps v s h := by
    split at h
    · cases h
      exact ⟨.obj [], rfl⟩
    · cases h
  nearest_mono h := WithTop.coe_le_coe.mpr h
  nearest_idem _ := rfl
  nearest_zero := rfl

inductive Time where
  | int (n : Int)
  | float (x : WithTop ℚ)

def Time.value : Time → WithTop ℚ
  | .int n => ((n : ℚ) : WithTop ℚ)
  | .float x => x

section Checks

def identifier (value : Json) (name : String) : Except Failure Str :=
  match value with
  | .str (c :: cs) => .ok (c :: cs)
  | _ => .error (.valueError (name ++ " must be a non-empty string").toList)

def number (value : Json) (name : String) (positive : Bool) : Except Failure Time :=
  match value with
  | .int n =>
      if floatOverflow ≤ |n| then .error .overflowError
      else if positive && decide (n ≤ 0) then
        .error (.valueError (name ++ " is outside its domain").toList)
      else .ok (.int n)
  | .float (.finite q) =>
      if positive && decide (q ≤ 0) then
        .error (.valueError (name ++ " is outside its domain").toList)
      else .ok (.float q)
  | .float _ => .error (.valueError (name ++ " is outside its domain").toList)
  | _ => .error (.typeError (name ++ " must be numeric").toList)

def priorityOf (value : Json) : Except Failure Int :=
  match value with
  | .int n => .ok n
  | _ => .error (.typeError "priority must be an integer".toList)

def tokenOf (value : Json) : Except Failure Int :=
  match value with
  | .int n => if n ≤ 0 then .error (.valueError "lease_token must be a positive integer".toList)
      else .ok n
  | _ => .error (.valueError "lease_token must be a positive integer".toList)

/-- An int as a parameter of a statement. -/
def bindInt (n : Int) : Except Failure Unit :=
  if -2 ^ 63 ≤ n ∧ n < 2 ^ 63 then .ok () else .error .overflowError

def bindTime : Time → Except Failure Unit
  | .int n => bindInt n
  | .float _ => .ok ()

end Checks

variable {P : Platform}

namespace Platform

def round (P : Platform) : WithTop ℚ → WithTop ℚ
  | ⊤ => ⊤
  | (q : ℚ) => P.nearest q

/-- What a `REAL` column keeps of a number. -/
def real (P : Platform) (t : Time) : WithTop ℚ := P.round t.value

/-- `a + b` -/
def plus (P : Platform) : Time → Time → Time
  | .int a, .int b => .int (a + b)
  | a, b => .float (P.round (P.real a + P.real b))

end Platform

/-- `max(now, until)` -/
def later (now : Time) (x : WithTop ℚ) : Time := if now.value < x then .float x else now

def Encoded (P : Platform) : Type := { s : Str // (P.loads s).returns }

/-- `json.dumps(payload, ...)` -/
def Platform.encode (P : Platform) (payload : Json) : Except Failure (Encoded P) :=
  match h : P.dumps payload with
  | .ok s => .ok ⟨s, P.loads_dumps payload s h⟩
  | .error r => .error (.raised r)

/-- The columns `worker`, `lease_until`, `lease_token` and `completed`. -/
abbrev Lease : Type := Fence Str (WithTop ℚ)

structure Row (P : Platform) where
  id : Str
  payload : Encoded P
  priority : Int
  createdAt : WithTop ℚ
  lease : Lease := {}

def Platform.Stored (P : Platform) (l : Lease) : Prop := ∀ x ∈ l.expiry, P.round x = x

theorem Platform.round_round (P : Platform) (x : WithTop ℚ) : P.round (P.round x) = P.round x := by
  cases x with
  | top => rfl
  | coe q =>
    change P.round (P.nearest q) = P.nearest q
    cases h : P.nearest q with
    | top => rfl
    | coe y => exact P.nearest_idem h

theorem Platform.stored_real (P : Platform) (t : Time) {token : Nat} {owner : Option Str}
    {done : Bool} : P.Stored ⟨token, owner, some (P.real t), done⟩ := by
  rintro x ⟨⟩
  exact P.round_round t.value

def Row.withLease (r : Row P) (l : Lease) : Row P := { r with lease := l }

structure Table (P : Platform) where
  rows : List (Row P)
  ids : (rows.map Row.id).Nodup
  stored : ∀ r ∈ rows, P.Stored r.lease

def Table.empty : Table P := ⟨[], by simp, by simp⟩

def Table.insert (t : Table P) (id : Str) (payload : Encoded P) (priority : Int)
    (createdAt : WithTop ℚ) (h : id ∉ t.rows.map Row.id) : Table P where
  rows := t.rows ++ [{ id := id, payload := payload, priority := priority, createdAt := createdAt }]
  ids := by
    rw [List.map_append, List.nodup_append]
    refine ⟨t.ids, by simp, ?_⟩
    rintro a ha b hb rfl
    simp only [List.map_cons, List.map_nil, List.mem_singleton] at hb
    exact h (hb ▸ ha)
  stored := by
    intro r hr
    rcases List.mem_append.mp hr with hr | hr
    · exact t.stored r hr
    · rw [List.mem_singleton.mp hr]
      simp [Platform.Stored]

def Table.update (t : Table P) (p : Row P → Bool) (f : Lease → Lease)
    (hf : ∀ l, P.Stored l → P.Stored (f l)) : Table P where
  rows := t.rows.map fun r => if p r then r.withLease (f r.lease) else r
  ids := by
    have hid : (Row.id ∘ fun r => if p r then r.withLease (f r.lease) else r) =
        (Row.id : Row P → Str) := by
      funext r
      simp only [Function.comp_apply]
      split <;> rfl
    rw [List.map_map, hid]
    exact t.ids
  stored := by
    intro s hs
    obtain ⟨r, hr, rfl⟩ := List.mem_map.mp hs
    split
    · exact hf _ (t.stored r hr)
    · exact t.stored r hr

/-- The database file before the first queue opens it. A table that the shipped code made has no
column for tokens; what stands for it here is not read. -/
inductive Database (P : Platform) where
  | missing
  | shipped (t : Table P)

/-- `JobQueue.__init__`; on a table that has the column it does nothing. -/
def Database.initialise : Database P → Table P
  | .missing => .empty
  | .shipped t => t.update (fun _ => true) (fun l => { l with token := 0 }) fun _ h => h

/-- Between `BEGIN IMMEDIATE` and the commit or the rollback; `after` follows the commit. -/
def transaction {α β γ : Type} (refused : Bool) (t : Table P) (checks : Except Failure α)
    (body : α → Table P → Except Failure (Table P × β)) (after : β → Except Failure γ) :
    Table P × Except Failure γ :=
  match checks with
  | .error e => (t, .error e)
  | .ok a =>
      if refused then (t, .error .operationalError)
      else
        match body a t with
        | .error e => (t, .error e)
        | .ok (t', b) => (t', after b)

/-- `completed = 0 AND (lease_until IS NULL OR lease_until <= ?)` -/
def Row.available (now : WithTop ℚ) (r : Row P) : Bool :=
  !r.lease.done && r.lease.expiry.all fun x => decide (x ≤ now)

/-- `ORDER BY priority DESC, created_at ASC, id ASC` -/
def Row.le (r s : Row P) : Bool :=
  decide (s.priority < r.priority ∨ r.priority = s.priority ∧
    (r.createdAt < s.createdAt ∨ r.createdAt = s.createdAt ∧ r.id ≤ s.id))

/-- `id = ? AND completed = 0 AND worker = ? AND lease_token = ? AND lease_until > ?` -/
def Row.held (id worker : Str) (token : Int) (now : WithTop ℚ) (r : Row P) : Bool :=
  r.id == id && !r.lease.done && r.lease.owner == some worker && (r.lease.token : Int) == token &&
    r.lease.expiry.any fun x => decide (now < x)

def Table.first (t : Table P) (now : WithTop ℚ) : Option (Row P) :=
  ((t.rows.filter (Row.available now)).mergeSort Row.le).head?

structure Claim where
  id : Str
  payload : Json
  priority : Int
  createdAt : WithTop ℚ
  leaseToken : Nat
  leaseUntil : Time

/-- `isinstance(payload, dict)` -/
def objectOf (payload : Json) : Except Failure Unit :=
  match payload with
  | .obj _ => .ok ()
  | _ => .error (.typeError "payload must be a JSON object".toList)

def createdOf (clock createdAt : Json) : Except Failure Time :=
  match createdAt with
  | .null => number clock "clock" false
  | v => number v "created_at" false

section Operations
variable (clock : Json)

def enqueueArguments (jobId payload priority createdAt : Json) :
    Except Failure (Str × Encoded P × Int × Time) := do
  let id ← identifier jobId "job_id"
  objectOf payload
  let encoded ← P.encode payload
  let priority ← priorityOf priority
  let created ← createdOf clock createdAt
  return (id, encoded, priority, created)

def enqueueRow (a : Str × Encoded P × Int × Time) (t : Table P) :
    Except Failure (Table P × Unit) := do
  bindInt a.2.2.1
  bindTime a.2.2.2
  if h : a.1 ∈ t.rows.map Row.id then throw .integrityError
  else return (t.insert a.1 a.2.1 a.2.2.1 (P.real a.2.2.2) h, ())

def enqueue (refused : Bool) (t : Table P) (jobId payload priority createdAt : Json) :
    Table P × Except Failure Unit :=
  transaction refused t (enqueueArguments clock jobId payload priority createdAt) enqueueRow pure

def claimArguments (worker leaseSeconds : Json) : Except Failure (Str × Time × Time) := do
  let worker ← identifier worker "worker"
  let seconds ← number leaseSeconds "lease_seconds" true
  let now ← number clock "clock" false
  return (worker, seconds, now)

def claimRow (a : Str × Time × Time) (t : Table P) :
    Except Failure (Table P × Option (Row P × Time)) := do
  let (worker, seconds, now) := a
  bindTime now
  match t.first now.value with
  | none => return (t, none)
  | some row =>
      let token := row.lease.token + 1
      let expiry := P.plus now seconds
      bindTime expiry
      bindInt token
      return (t.update (fun r => r.id == row.id)
        (fun l => { l with owner := some worker, expiry := some (P.real expiry), token := token })
        (fun _ _ => P.stored_real expiry), some (row, expiry))

/-- The answer, made after the commit. -/
def claimAnswer : Option (Row P × Time) → Except Failure (Option Claim)
  | none => return none
  | some (row, expiry) => do
      let payload ← (P.loads row.payload.val).mapError Failure.raised
      return some { id := row.id, payload := payload, priority := row.priority
                    createdAt := row.createdAt, leaseToken := row.lease.token + 1
                    leaseUntil := expiry }

def claim (refused : Bool) (t : Table P) (worker leaseSeconds : Json) :
    Table P × Except Failure (Option Claim) :=
  transaction refused t (claimArguments clock worker leaseSeconds) claimRow claimAnswer

def heartbeatArguments (jobId worker leaseToken leaseSeconds : Json) :
    Except Failure (Str × Str × Int × Time × Time) := do
  let id ← identifier jobId "job_id"
  let worker ← identifier worker "worker"
  let token ← tokenOf leaseToken
  let seconds ← number leaseSeconds "lease_seconds" true
  let now ← number clock "clock" false
  return (id, worker, token, seconds, now)

def heartbeatRow (a : Str × Str × Int × Time × Time) (t : Table P) :
    Except Failure (Table P × Time) := do
  let (id, worker, token, seconds, now) := a
  bindInt token
  bindTime now
  match (t.rows.find? (Row.held id worker token now.value)).bind (·.lease.expiry) with
  | none => throw (.leaseError "lease is stale or expired".toList)
  | some x =>
      let expiry := P.plus (later now x) seconds
      bindTime expiry
      return (t.update (fun r => r.id == id) (fun l => { l with expiry := some (P.real expiry) })
        (fun _ _ => P.stored_real expiry), expiry)

def heartbeat (refused : Bool) (t : Table P) (jobId worker leaseToken leaseSeconds : Json) :
    Table P × Except Failure Time :=
  transaction refused t (heartbeatArguments clock jobId worker leaseToken leaseSeconds)
    heartbeatRow pure

def completeArguments (jobId worker leaseToken : Json) :
    Except Failure (Str × Str × Int × Time) := do
  let id ← identifier jobId "job_id"
  let worker ← identifier worker "worker"
  let token ← tokenOf leaseToken
  let now ← number clock "clock" false
  return (id, worker, token, now)

def completeRow (a : Str × Str × Int × Time) (t : Table P) :
    Except Failure (Table P × Bool) := do
  let (id, worker, token, now) := a
  bindInt token
  bindTime now
  let held := Row.held id worker token now.value
  let changed := t.rows.countP held
  let t := t.update held (fun l => { l with done := true, owner := none, expiry := none })
    (fun _ _ => by simp [Platform.Stored])
  if changed ≠ 1 then throw (.leaseError "lease is stale or expired".toList)
  else return (t, true)

def complete (refused : Bool) (t : Table P) (jobId worker leaseToken : Json) :
    Table P × Except Failure Bool :=
  transaction refused t (completeArguments clock jobId worker leaseToken) completeRow pure

end Operations

inductive Call where
  | enqueue (jobId payload priority createdAt : Json)
  | claim (worker leaseSeconds : Json)
  | heartbeat (jobId worker leaseToken leaseSeconds : Json)
  | complete (jobId worker leaseToken : Json)

inductive Reply where
  | enqueued (u : Unit)
  | claimed (lease : Option Claim)
  | extended (expiry : Time)
  | completed (changed : Bool)

/-- A call, with the value that the clock gives it and whether the database turns it away. -/
structure Request where
  refused : Bool
  clock : Json
  call : Call

/-- One call after another: every order of the transactions of all workers. -/
def exec (t : Table P) (q : Request) : Table P × Except Failure Reply :=
  match q.call with
  | .enqueue jobId payload priority createdAt =>
      (enqueue q.clock q.refused t jobId payload priority createdAt).map id (·.map .enqueued)
  | .claim worker leaseSeconds =>
      (claim q.clock q.refused t worker leaseSeconds).map id (·.map .claimed)
  | .heartbeat jobId worker leaseToken leaseSeconds =>
      (heartbeat q.clock q.refused t jobId worker leaseToken leaseSeconds).map id (·.map .extended)
  | .complete jobId worker leaseToken =>
      (complete q.clock q.refused t jobId worker leaseToken).map id (·.map .completed)

structure Entry (P : Platform) where
  before : Table P
  request : Request
  reply : Except Failure Reply
  after : Table P

def run (t : Table P) : List Request → List (Entry P)
  | [] => []
  | q :: qs => ⟨t, q, (exec t q).2, (exec t q).1⟩ :: run (exec t q).1 qs

end Round5.JobQueue
