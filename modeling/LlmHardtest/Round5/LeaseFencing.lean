import Mathlib.Tactic.Linarith
import LlmHardtest.Library.Failures
import LlmHardtest.Round5.JobQueue
set_option autoImplicit false

/-! What the transactions of the job queue do to the lease of each job, in any order. -/

namespace Round5.JobQueue
open Python Fencing
open Failures (bind_eq_ok)

variable {P : Platform}

/-! ## Arithmetic of lease ends -/

theorem round_mono {x y : WithTop ℚ} (h : x ≤ y) : P.round x ≤ P.round y := by
  cases y with
  | top => exact le_top
  | coe b =>
    cases x with
    | top => exact absurd h (by simp)
    | coe a => exact P.nearest_mono (WithTop.coe_le_coe.mp h)

@[simp] theorem round_zero : P.round 0 = 0 := P.nearest_zero

theorem real_pos {s : Time} (h : 0 ≤ s.value) : 0 ≤ P.real s := by
  have hr := round_mono (P := P) h
  rwa [round_zero] at hr

/-- A new end does not lie before a recorded one that `x` has reached. -/
theorem le_real_plus {e : WithTop ℚ} {x s : Time} (he : P.round e = e) (hx : e ≤ x.value)
    (hs : 0 ≤ s.value) : e ≤ P.real (P.plus x s) := by
  have hfloat : e ≤ P.round (P.round (P.real x + P.real s)) := by
    have h1 : e ≤ P.real x := he ▸ round_mono hx
    have h2 : e ≤ P.real x + P.real s := le_add_of_le_of_nonneg h1 (real_pos hs)
    rw [P.round_round]
    exact he ▸ round_mono h2
  cases x with
  | float a => exact hfloat
  | int a =>
    cases s with
    | float b => exact hfloat
    | int b =>
      have h1 : e ≤ ((((a + b : Int) : ℚ)) : WithTop ℚ) := by
        have hb : (0 : ℚ) ≤ b := WithTop.coe_le_coe.mp hs
        refine hx.trans (WithTop.coe_le_coe.mpr ?_)
        push_cast
        linarith
      exact he ▸ round_mono h1

theorem le_value_later (now : Time) (x : WithTop ℚ) : x ≤ (later now x).value := by
  unfold later
  split
  · exact le_rfl
  · rename_i h
    exact not_lt.mp h

/-! ## The order of the jobs -/

theorem Row.le_or_le (r s : Row P) : (r.le s || s.le r) = true := by
  simp only [Row.le, Bool.or_eq_true, decide_eq_true_eq]
  rcases lt_trichotomy r.priority s.priority with h | h | h
  · exact .inr (.inl h)
  · rcases lt_trichotomy r.createdAt s.createdAt with hc | hc | hc
    · exact .inl (.inr ⟨h, .inl hc⟩)
    · rcases le_total r.id s.id with hi | hi
      · exact .inl (.inr ⟨h, .inr ⟨hc, hi⟩⟩)
      · exact .inr (.inr ⟨h.symm, .inr ⟨hc.symm, hi⟩⟩)
    · exact .inr (.inr ⟨h.symm, .inl hc⟩)
  · exact .inl (.inl h)

theorem Row.le_chain (r s q : Row P) (h : r.le s = true) (h' : s.le q = true) :
    r.le q = true := by
  simp only [Row.le, decide_eq_true_eq] at h h' ⊢
  rcases h with h | ⟨hp, h⟩
  · rcases h' with h' | ⟨hp', -⟩
    · exact .inl (h'.trans h)
    · exact .inl (hp' ▸ h)
  · rcases h' with h' | ⟨hp', h'⟩
    · exact .inl (hp ▸ h')
    · refine .inr ⟨hp.trans hp', ?_⟩
      rcases h with h | ⟨hc, h⟩
      · rcases h' with h' | ⟨hc', -⟩
        · exact .inl (h.trans h')
        · exact .inl (hc' ▸ h)
      · rcases h' with h' | ⟨hc', h'⟩
        · exact .inl (hc ▸ h')
        · exact .inr ⟨hc.trans hc', h.trans h'⟩

theorem first_spec {t : Table P} {now : WithTop ℚ} {row : Row P} (h : t.first now = some row) :
    row ∈ t.rows ∧ row.available now = true ∧
      ∀ r ∈ t.rows, r.available now = true → row.le r = true := by
  obtain ⟨rest, hrest⟩ := List.head?_eq_some_iff.mp h
  have hsorted : ((t.rows.filter (Row.available now)).mergeSort Row.le).Pairwise
      fun r s => r.le s = true := List.pairwise_mergeSort Row.le_chain Row.le_or_le _
  have hmem : ∀ r, r ∈ row :: rest ↔ r ∈ t.rows ∧ r.available now = true := by
    intro r
    rw [← hrest, List.mem_mergeSort, List.mem_filter]
  rw [hrest] at hsorted
  obtain ⟨h1, h2⟩ := (hmem row).mp (by simp)
  refine ⟨h1, h2, fun r hr ha => ?_⟩
  rcases List.mem_cons.mp ((hmem r).mpr ⟨hr, ha⟩) with rfl | hr
  · simpa using Row.le_or_le r r
  · exact List.rel_of_pairwise_cons hsorted hr

theorem first_none {t : Table P} {now : WithTop ℚ} (h : t.first now = none) :
    ∀ r ∈ t.rows, r.available now = false := by
  have hnil : t.rows.filter (Row.available now) = [] := by
    rw [Table.first, List.head?_eq_none_iff] at h
    have hp := List.mergeSort_perm (t.rows.filter (Row.available now)) Row.le
    rw [h] at hp
    exact hp.symm.eq_nil
  intro r hr
  simpa using List.filter_eq_nil_iff.mp hnil r hr

/-! ## The lease of one job -/

/-- The lease of a job; a job that is not there has a new one. -/
def leaseOf (t : Table P) (id : Str) : Lease :=
  ((t.rows.find? fun r => r.id == id).map Row.lease).getD {}

theorem find?_row {t : Table P} {row : Row P} (h : row ∈ t.rows) :
    (t.rows.find? fun r => r.id == row.id) = some row := by
  have hids := t.ids
  revert h hids
  generalize t.rows = rows
  intro h hids
  induction rows with
  | nil => simp at h
  | cons r rows ih =>
    rw [List.map_cons, List.nodup_cons] at hids
    rcases List.mem_cons.mp h with rfl | h
    · simp
    · have hne : r.id ≠ row.id := fun he => hids.1 (he ▸ List.mem_map_of_mem h)
      simpa [hne] using ih h hids.2

theorem leaseOf_row {t : Table P} {row : Row P} (h : row ∈ t.rows) :
    leaseOf t row.id = row.lease := by
  rw [leaseOf, find?_row h]
  rfl

theorem leaseOf_insert {t : Table P} {id : Str} {payload : Encoded P} {priority : Int}
    {createdAt : WithTop ℚ} (h : id ∉ t.rows.map Row.id) (j : Str) :
    leaseOf (t.insert id payload priority createdAt h) j = leaseOf t j := by
  simp only [leaseOf, Table.insert, List.find?_append]
  cases hf : t.rows.find? fun r => r.id == j with
  | some r => rfl
  | none =>
    by_cases hj : id = j
    · simp [hj]
    · simp [hj]

theorem leaseOf_update {t : Table P} {p : Row P → Bool} {f : Lease → Lease}
    {hf : ∀ l, P.Stored l → P.Stored (f l)} {row : Row P} (h : row ∈ t.rows)
    (hp : ∀ r ∈ t.rows, p r = true ↔ r.id = row.id) (j : Str) :
    leaseOf (t.update p f hf) j = if row.id = j then f row.lease else leaseOf t j := by
  have hfind : ∀ k, ((t.update p f hf).rows.find? fun r => r.id == k) =
      (t.rows.find? fun r => r.id == k).map
        fun r => if p r then r.withLease (f r.lease) else r := by
    intro k
    rw [Table.update, List.find?_map]
    congr 2
    funext r
    simp only [Function.comp_apply]
    split <;> rfl
  rw [leaseOf, hfind]
  by_cases hj : row.id = j
  · subst hj
    rw [find?_row h]
    simp [(hp row h).mpr rfl, Row.withLease]
  · rw [if_neg hj, leaseOf]
    cases hr : t.rows.find? fun r => r.id == j with
    | none => rfl
    | some r =>
      have hid : r.id = j := by simpa using List.find?_some hr
      have hpr : p r = false := by
        rw [← Bool.not_eq_true, hp r (List.mem_of_find?_eq_some hr), hid]
        exact fun he => hj he.symm
      simp [hpr]

/-! ## What one call does -/

section Checks
variable {value : Json} {name : String} {positive : Bool} {s : Str} {n : Time}

theorem identifier_ok (h : identifier value name = .ok s) : value = .str s := by
  unfold identifier at h
  split at h
  · cases h; rfl
  · cases h

def numberOf : Json → WithTop ℚ
  | .int n => ((n : ℚ) : WithTop ℚ)
  | .float (.finite q) => q
  | _ => 0

theorem number_ok (h : number value name positive = .ok n) : n.value = numberOf value := by
  unfold number at h
  split at h
  · split at h
    · cases h
    · split at h
      · cases h
      · cases h; rfl
  · split at h
    · cases h
    · cases h; rfl
  · cases h
  · cases h

theorem number_pos (h : number value name true = .ok n) : 0 ≤ n.value := by
  unfold number at h
  split at h
  · split at h
    · cases h
    · split at h
      · cases h
      · rename_i k _ hk
        cases h
        have hk : (0 : ℚ) ≤ k := by
          simp only [Bool.true_and, decide_eq_true_eq, not_le] at hk
          exact_mod_cast hk.le
        exact WithTop.coe_le_coe.mpr hk
  · split at h
    · cases h
    · rename_i q hq
      cases h
      simp only [Bool.true_and, decide_eq_true_eq, not_le] at hq
      exact WithTop.coe_le_coe.mpr hq.le
  · cases h
  · cases h

theorem tokenOf_ok {k : Int} (h : tokenOf value = .ok k) : value = .int k ∧ 0 < k := by
  unfold tokenOf at h
  split at h
  · split at h
    · cases h
    · cases h
      exact ⟨rfl, by omega⟩
  · cases h

theorem priorityOf_ok {k : Int} (h : priorityOf value = .ok k) : value = .int k := by
  unfold priorityOf at h
  split at h
  · cases h; rfl
  · cases h

theorem objectOf_ok {u : Unit} (h : objectOf value = .ok u) : ∃ fields, value = .obj fields := by
  unfold objectOf at h
  split at h
  · exact ⟨_, rfl⟩
  · cases h

theorem encode_ok {e : Encoded P} (h : P.encode value = .ok e) : P.dumps value = .ok e.val := by
  unfold Platform.encode at h
  split at h
  · rename_i hs
    cases h
    exact hs
  · cases h

end Checks

/-- What a call can do to the table, and what it answers then. -/
inductive Effect (t : Table P) (clock : Json) : Call → Except Failure Reply → Table P → Prop
  | failed {call : Call} {e : Failure} : Effect t clock call (.error e) t
  | enqueued {id : Str} {fields : List (Str × Json)} {encoded : Encoded P} {priority : Int}
      {createdAt : Json} {created : Time} (h : id ∉ t.rows.map Row.id) :
      P.dumps (.obj fields) = .ok encoded.val → createdOf clock createdAt = .ok created →
      Effect t clock (.enqueue (.str id) (.obj fields) (.int priority) createdAt)
        (.ok (.enqueued ())) (t.insert id encoded priority (P.real created) h)
  | idle {worker seconds : Json} : (∀ r ∈ t.rows, r.available (numberOf clock) = false) →
      Effect t clock (.claim worker seconds) (.ok (.claimed none)) t
  | claimed {worker : Str} {seconds : Json} {row : Row P} {c : Claim}
      {f : Lease → Lease} (hf : ∀ l, P.Stored l → P.Stored (f l)) :
      t.first (numberOf clock) = some row → c.id = row.id → c.priority = row.priority →
      c.createdAt = row.createdAt → c.leaseToken = row.lease.token + 1 →
      P.loads row.payload.val = .ok c.payload →
      (∀ l, f l = ⟨row.lease.token + 1, some worker, some (P.real c.leaseUntil), l.done⟩) →
      (∀ x, P.round x = x → x ≤ numberOf clock → x ≤ P.real c.leaseUntil) →
      Effect t clock (.claim (.str worker) seconds) (.ok (.claimed (some c)))
        (t.update (fun r => r.id == row.id) f hf)
  | extended {worker id : Str} {token : Nat} {seconds : Json} {row : Row P} {x : WithTop ℚ}
      {expiry : Time} {f : Lease → Lease} (hf : ∀ l, P.Stored l → P.Stored (f l)) :
      row ∈ t.rows → row.id = id → row.lease.Held worker token (numberOf clock) x →
      x ≤ P.real expiry → (∀ l, f l = { l with expiry := some (P.real expiry) }) →
      Effect t clock (.heartbeat (.str id) (.str worker) (.int token) seconds)
        (.ok (.extended expiry)) (t.update (fun r => r.id == row.id) f hf)
  | completed {worker id : Str} {token : Nat} {row : Row P} {x : WithTop ℚ} {p : Row P → Bool}
      {f : Lease → Lease} (hf : ∀ l, P.Stored l → P.Stored (f l)) :
      row ∈ t.rows → row.id = id → row.lease.Held worker token (numberOf clock) x →
      (∀ r ∈ t.rows, p r = true ↔ r.id = row.id) →
      (∀ l, f l = { l with done := true, owner := none, expiry := none }) →
      Effect t clock (.complete (.str id) (.str worker) (.int token)) (.ok (.completed true))
        (t.update p f hf)

theorem transaction_cases {α β γ : Type} (refused : Bool) (t : Table P) (checks : Except Failure α)
    (body : α → Table P → Except Failure (Table P × β)) (after : β → Except Failure γ) :
    (∃ e, transaction refused t checks body after = (t, .error e)) ∨
      ∃ a t' b, checks = .ok a ∧ body a t = .ok (t', b) ∧
        transaction refused t checks body after = (t', after b) := by
  unfold transaction
  cases checks with
  | error e => exact .inl ⟨e, rfl⟩
  | ok a =>
    cases refused with
    | true => exact .inl ⟨_, rfl⟩
    | false =>
      cases hb : body a t with
      | error e => exact .inl ⟨e, by simp [hb]⟩
      | ok r => exact .inr ⟨a, r.1, r.2, rfl, hb, by simp [hb]⟩

section Calls
variable (refused : Bool) (clock : Json) (t : Table P)

theorem enqueue_effect (jobId payload priority createdAt : Json) :
    Effect t clock (.enqueue jobId payload priority createdAt)
      ((enqueue clock refused t jobId payload priority createdAt).2.map .enqueued)
      (enqueue clock refused t jobId payload priority createdAt).1 := by
  unfold enqueue
  obtain ⟨e, h⟩ | ⟨a, t', b, hc, hb, h⟩ := transaction_cases refused t
    (enqueueArguments clock jobId payload priority createdAt) enqueueRow pure
  · rw [h]
    exact .failed
  · rw [h]
    simp only [enqueueArguments, bind_eq_ok] at hc
    obtain ⟨id, hid, _, hobj, encoded, he, k, hk, created, hcr, hc⟩ := hc
    cases hc
    obtain rfl := identifier_ok hid
    obtain ⟨fields, rfl⟩ := objectOf_ok hobj
    obtain rfl := priorityOf_ok hk
    simp only [enqueueRow, bind_eq_ok] at hb
    obtain ⟨-, -, -, -, hb⟩ := hb
    split at hb
    · cases hb
    · rename_i hnew
      cases hb
      exact .enqueued hnew (encode_ok he) hcr

theorem claim_effect (worker leaseSeconds : Json) :
    Effect t clock (.claim worker leaseSeconds)
      ((claim clock refused t worker leaseSeconds).2.map .claimed)
      (claim clock refused t worker leaseSeconds).1 := by
  unfold claim
  obtain ⟨e, h⟩ | ⟨a, t', b, hc, hb, h⟩ := transaction_cases refused t
    (claimArguments clock worker leaseSeconds) claimRow claimAnswer
  · rw [h]
    exact .failed
  · rw [h]
    simp only [claimArguments, bind_eq_ok] at hc
    obtain ⟨w, hw, seconds, hs, now, hn, hc⟩ := hc
    cases hc
    obtain rfl := identifier_ok hw
    have hnow := number_ok hn
    simp only [claimRow, bind_eq_ok] at hb
    obtain ⟨-, -, hb⟩ := hb
    split at hb
    · rename_i hf
      cases hb
      refine .idle ?_
      rw [← hnow]
      exact first_none hf
    · rename_i row hf
      simp only [bind_eq_ok] at hb
      obtain ⟨-, -, -, -, hb⟩ := hb
      cases hb
      -- the payload can be read back, so the answer does not fail after the commit
      obtain ⟨v, hv⟩ := row.payload.property
      simp only [claimAnswer, hv]
      rw [hnow] at hf
      refine .claimed (fun _ _ => P.stored_real _) hf rfl rfl rfl rfl hv (fun l => rfl) ?_
      intro x hx hle
      exact le_real_plus hx (hnow ▸ hle) (number_pos hs)

theorem held_iff {id worker : Str} {k : Int} {now : WithTop ℚ} {r : Row P} :
    Row.held id worker k now r = true ↔ r.id = id ∧ ∃ x, r.lease.done = false ∧
      r.lease.owner = some worker ∧ (r.lease.token : Int) = k ∧ r.lease.expiry = some x ∧
      now < x := by
  simp only [Row.held, Bool.and_eq_true, beq_iff_eq, Bool.not_eq_true', Option.any_eq_true,
    decide_eq_true_eq]
  constructor
  · rintro ⟨⟨⟨⟨h1, h2⟩, h3⟩, h4⟩, x, h5, h6⟩
    exact ⟨h1, x, h2, h3, h4, h5, h6⟩
  · rintro ⟨h1, x, h2, h3, h4, h5, h6⟩
    exact ⟨⟨⟨⟨h1, h2⟩, h3⟩, h4⟩, x, h5, h6⟩

theorem heartbeat_effect (jobId worker leaseToken leaseSeconds : Json) :
    Effect t clock (.heartbeat jobId worker leaseToken leaseSeconds)
      ((heartbeat clock refused t jobId worker leaseToken leaseSeconds).2.map .extended)
      (heartbeat clock refused t jobId worker leaseToken leaseSeconds).1 := by
  unfold heartbeat
  obtain ⟨e, h⟩ | ⟨a, t', b, hc, hb, h⟩ := transaction_cases refused t
    (heartbeatArguments clock jobId worker leaseToken leaseSeconds) heartbeatRow pure
  · rw [h]
    exact .failed
  · rw [h]
    simp only [heartbeatArguments, bind_eq_ok] at hc
    obtain ⟨id, hid, w, hw, k, hk, seconds, hs, now, hn, hc⟩ := hc
    cases hc
    obtain rfl := identifier_ok hid
    obtain rfl := identifier_ok hw
    obtain ⟨rfl, hpos⟩ := tokenOf_ok hk
    have hnow := number_ok hn
    simp only [heartbeatRow, bind_eq_ok] at hb
    obtain ⟨-, -, -, -, hb⟩ := hb
    split at hb
    · cases hb
    · rename_i x hf
      simp only [bind_eq_ok] at hb
      obtain ⟨-, -, hb⟩ := hb
      cases hb
      obtain ⟨row, hrow, hx⟩ := Option.bind_eq_some_iff.mp hf
      have hmem := List.mem_of_find?_eq_some hrow
      obtain ⟨hrid, y, h1, h2, h3, h4, h5⟩ := held_iff.mp (List.find?_some hrow)
      obtain rfl : x = y := Option.some.inj (hx.symm.trans h4)
      subst hrid
      obtain rfl := h3
      refine .extended (fun _ _ => P.stored_real _) hmem rfl ⟨h1, by exact_mod_cast hpos, h2, rfl, h4, hnow ▸ h5⟩ ?_
        fun l => rfl
      exact le_real_plus (t.stored row hmem x h4) (le_value_later now x) (number_pos hs)

theorem complete_effect (jobId worker leaseToken : Json) :
    Effect t clock (.complete jobId worker leaseToken)
      ((complete clock refused t jobId worker leaseToken).2.map .completed)
      (complete clock refused t jobId worker leaseToken).1 := by
  unfold complete
  obtain ⟨e, h⟩ | ⟨a, t', b, hc, hb, h⟩ := transaction_cases refused t
    (completeArguments clock jobId worker leaseToken) completeRow pure
  · rw [h]
    exact .failed
  · rw [h]
    simp only [completeArguments, bind_eq_ok] at hc
    obtain ⟨id, hid, w, hw, k, hk, now, hn, hc⟩ := hc
    cases hc
    obtain rfl := identifier_ok hid
    obtain rfl := identifier_ok hw
    obtain ⟨rfl, hpos⟩ := tokenOf_ok hk
    have hnow := number_ok hn
    simp only [completeRow, bind_eq_ok] at hb
    obtain ⟨-, -, -, -, hb⟩ := hb
    split at hb
    · cases hb
    · rename_i hone
      cases hb
      have hcount : 0 < t.rows.countP (Row.held id w k now.value) := by omega
      obtain ⟨row, hmem, hheld⟩ := List.countP_pos_iff.mp hcount
      obtain ⟨hrid, x, h1, h2, h3, h4, h5⟩ := held_iff.mp hheld
      subst hrid
      obtain rfl := h3
      refine .completed (fun _ _ => by simp [Platform.Stored]) hmem rfl ⟨h1, by exact_mod_cast hpos, h2, rfl, h4, hnow ▸ h5⟩ ?_
        fun l => rfl
      intro r hr
      constructor
      · exact fun h => (held_iff.mp h).1
      · intro hid
        have he := find?_row hr
        rw [hid, find?_row hmem] at he
        obtain rfl := Option.some.inj he
        exact hheld

theorem exec_effect (q : Request) : Effect t q.clock q.call (exec t q).2 (exec t q).1 := by
  unfold exec
  cases q.call with
  | enqueue jobId payload priority createdAt =>
    exact enqueue_effect q.refused q.clock t jobId payload priority createdAt
  | claim worker leaseSeconds => exact claim_effect q.refused q.clock t worker leaseSeconds
  | heartbeat jobId worker leaseToken leaseSeconds =>
    exact heartbeat_effect q.refused q.clock t jobId worker leaseToken leaseSeconds
  | complete jobId worker leaseToken =>
    exact complete_effect q.refused q.clock t jobId worker leaseToken

end Calls

/-! ## Histories -/

def textOf : Json → Str
  | .str s => s
  | _ => []

def natOf : Json → Nat
  | .int n => n.toNat
  | _ => 0

/-- What a call that succeeded did to the lease of the job `id`. The end of a lease is the one
that the table records. -/
def event (id : Str) (e : Entry P) : Option (Event Str (WithTop ℚ)) :=
  match e.request.call, e.reply with
  | .claim worker _, .ok (.claimed (some c)) =>
      if c.id = id then
        some (.granted (textOf worker) c.leaseToken (numberOf e.request.clock) (P.real c.leaseUntil))
      else none
  | .heartbeat jobId worker token _, .ok (.extended expiry) =>
      if textOf jobId = id then
        some (.extended (textOf worker) (natOf token) (numberOf e.request.clock) (P.real expiry))
      else none
  | .complete jobId worker token, .ok (.completed _) =>
      if textOf jobId = id then
        some (.finished (textOf worker) (natOf token) (numberOf e.request.clock))
      else none
  | _, _ => none

def history (id : Str) (log : List (Entry P)) : List (Event Str (WithTop ℚ)) :=
  log.filterMap (event id)

theorem available_iff {now : WithTop ℚ} {r : Row P} :
    r.available now = true ↔ r.lease.done = false ∧ ∀ x ∈ r.lease.expiry, x ≤ now := by
  cases h : r.lease.expiry <;> simp [Row.available, h]

/-- A call leaves the lease of a job alone or takes one step of it. -/
theorem exec_step (t : Table P) (q : Request) (id : Str) :
    let e : Entry P := ⟨t, q, (exec t q).2, (exec t q).1⟩
    (event id e = none ∧ leaseOf e.after id = leaseOf t id) ∨
      ∃ v, event id e = some v ∧ Step (leaseOf t id) v (leaseOf e.after id) := by
  intro e
  have heff : Effect t q.clock q.call e.reply e.after := exec_effect t q
  have hclock : e.request.clock = q.clock := rfl
  have hcall : e.request.call = q.call := rfl
  generalize e.after = t' at heff ⊢
  unfold event
  rw [hclock, hcall]
  generalize e.reply = reply, q.call = call at heff ⊢
  cases heff with
  | failed => exact .inl ⟨by cases call <;> rfl, rfl⟩
  | enqueued h _ _ => exact .inl ⟨rfl, leaseOf_insert h id⟩
  | idle _ => exact .inl ⟨rfl, rfl⟩
  | @claimed worker seconds row c f hf hfirst hid _ _ htoken _ hf' hend =>
    obtain ⟨hmem, hav, -⟩ := first_spec hfirst
    obtain ⟨hdone, hold⟩ := available_iff.mp hav
    rw [leaseOf_update hmem (by simp)]
    simp only [hid, textOf, htoken]
    by_cases hj : row.id = id
    · subst hj
      simp only [if_true, hf', hdone]
      refine .inr ⟨_, rfl, ?_⟩
      rw [leaseOf_row hmem]
      exact .grant hdone fun y hy => ⟨hold y hy, hend y (t.stored row hmem y hy) (hold y hy)⟩
    · simp only [if_neg hj]
      exact .inl ⟨trivial, trivial⟩
  | @extended worker _ token seconds row x expiry f hf hmem hid hheld hx hf' =>
    rw [leaseOf_update hmem (by simp)]
    simp only [textOf, natOf, Int.toNat_natCast, ← hid]
    by_cases hj : row.id = id
    · subst hj
      simp only [if_true, hf']
      refine .inr ⟨_, rfl, ?_⟩
      rw [leaseOf_row hmem]
      exact .extend hheld hx
    · simp only [if_neg hj]
      exact .inl ⟨trivial, trivial⟩
  | @completed worker _ token row x p f hf hmem hid hheld hp hf' =>
    rw [leaseOf_update hmem hp]
    simp only [textOf, natOf, Int.toNat_natCast, ← hid]
    by_cases hj : row.id = id
    · subst hj
      simp only [if_true, hf']
      refine .inr ⟨_, rfl, ?_⟩
      rw [leaseOf_row hmem]
      exact .finish hheld
    · simp only [if_neg hj]
      exact .inl ⟨trivial, trivial⟩

/-- Whatever is called in whatever order, the history of each job is a run of its lease. -/
theorem run_history (t : Table P) (qs : List Request) (id : Str) :
    ∃ l, Run (leaseOf t id) (history id (run t qs)) l := by
  induction qs generalizing t with
  | nil => exact ⟨_, .nil⟩
  | cons q qs ih =>
    obtain ⟨l, hl⟩ := ih (exec t q).1
    refine ⟨l, ?_⟩
    rw [run, history, List.filterMap_cons]
    obtain ⟨hv, hsame⟩ | ⟨v, hv, hstep⟩ := exec_step t q id
    · rw [hv]
      rw [hsame] at hl
      exact hl
    · rw [hv]
      exact .cons hstep hl

theorem mem_run {t : Table P} {qs : List Request} {e : Entry P} (h : e ∈ run t qs) :
    Effect e.before e.request.clock e.request.call e.reply e.after := by
  induction qs generalizing t with
  | nil => cases h
  | cons q qs ih =>
    rcases List.mem_cons.mp h with rfl | h
    · exact exec_effect t q
    · exact ih h

theorem initialise_token (d : Database P) (id : Str) : (leaseOf d.initialise id).token = 0 := by
  unfold leaseOf
  cases h : d.initialise.rows.find? fun r => r.id == id with
  | none => rfl
  | some row =>
    have hmem := List.mem_of_find?_eq_some h
    cases d with
    | missing => cases hmem
    | shipped t =>
      obtain ⟨r, -, rfl⟩ := List.mem_map.mp hmem
      rfl

section Sample

def sampleCalls : List Request :=
  [⟨false, .int 0, .enqueue (.str "j".toList) (.obj []) (.int 1) .null⟩,
   ⟨false, .int 0, .claim (.str "a".toList) (.int 5)⟩,
   ⟨false, .int 3, .claim (.str "b".toList) (.int 5)⟩,
   ⟨false, .int 5, .claim (.str "b".toList) (.int 5)⟩,
   ⟨false, .int 6, .complete (.str "j".toList) (.str "a".toList) (.int 1)⟩,
   ⟨false, .int 6, .complete (.str "j".toList) (.str "b".toList) (.int 2)⟩]

-- The lease of the first worker runs out: the second one has the job, and only it can complete it.
example : let log := run (Database.missing (P := exactPlatform)).initialise sampleCalls
    grants (history "j".toList log) = [("a".toList, 1), ("b".toList, 2)] ∧
    expiries (history "j".toList log) = [5, 10] ∧
    log.map (fun e => e.reply.isOk) = [true, true, true, true, false, true] := by
  decide +kernel

end Sample

end Round5.JobQueue
