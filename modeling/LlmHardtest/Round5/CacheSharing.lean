import LlmHardtest.Round5.CacheSources
set_option autoImplicit false

/-! Who gets the body of a response that the policy forbids to store. -/

namespace Round5.SharedCache
open Python SingleFlight

/-- A 200 response that the policy forbids to store. -/
def Forbidden (env : Env) (x : Exchange) : Prop :=
  ∃ fields bytes, x.received = .ok ⟨200, fields, bytes⟩ ∧ cachePolicy env.unicode fields = .ok none

/-- The call has returned the body, through the flight if any. -/
def Returned (s : State) (i : Nat) (c : Call) (b : Body) (flight : Option Nat) : Prop :=
  s.calls[i]? = some c ∧ c.phase = .done (.ok b) flight

section Source
variable {env : Env} {s s' : State} {i : Nat} {c : Call} {b : Body} {flight : Option Nat}

theorem Call.url_of_key {c d : Call} (h : c.key = d.key) : c.url = d.url := congrArg Prod.fst h

/-- A body that a call returned was fetched by the call itself or by the leader of its flight, or it
is the body of an entry of its URL. -/
theorem source (hw : Sound s.world) (ht : Traced env s) (hreturned : Returned s i c b flight) :
    (∃ j l, s.calls[j]? = some l ∧ l.key = c.key ∧ Fetched s.log j l b ∧
      (j = i ∨ flight = some j)) ∨ ∃ e, Stored env s.log c.url e ∧ b = e.body := by
  obtain ⟨hi, hdone⟩ := hreturned
  have hc := ht.calls i c hi
  have hphase := hc.phase
  rw [hdone] at hphase
  cases flight with
  | none =>
    rcases hphase b rfl with ⟨-, hfetched⟩ | ⟨-, e, current, he, hb, -⟩
    · exact .inl ⟨i, c, hi, rfl, hfetched, .inl rfl⟩
    · exact .inr ⟨e, hc.entry e he, hb⟩
  | some leader =>
    have hparty : s.world.party i = .ended c.key leader (.ok b) := by
      have h : s.world.party i = c.phase.party c.key := State.party_of hi
      rw [hdone] at h
      exact h
    have hleader := hw.ends i c.key leader (.ok b) hparty
    -- The leader returned the same body, for the same key.
    obtain ⟨l, hl, hkey, hldone⟩ : ∃ l, s.calls[leader]? = some l ∧ l.key = c.key ∧
        l.phase = .done (.ok b) (some leader) := State.call_of_ended hleader
    have htraced := ht.calls leader l hl
    have hled := htraced.phase
    rw [hldone] at hled
    rcases (hled.2 rfl).2 b rfl with hfetched | ⟨e, he, hb⟩
    · exact .inl ⟨leader, l, hl, hkey, hfetched, .inr rfl⟩
    · exact .inr ⟨e, Call.url_of_key hkey ▸ htraced.entry e he, hb⟩

theorem turn_calls {reply : Reply} (hs : s.turn env i c reply = some s') :
    ∃ c', s'.calls = s.calls.set i c' := by
  have hboard : ∀ d, ∃ c', (s.board i d).calls = s.calls.set i c' := by
    intro d
    unfold State.board
    split
    · exact ⟨_, rfl⟩
    · exact ⟨_, rfl⟩
  unfold State.turn at hs
  split at hs
  · cases hs
    unfold State.lookup
    split
    · exact hboard c
    · split
      · exact ⟨_, rfl⟩
      · split
        · exact ⟨_, rfl⟩
        · exact hboard _
  · cases hs
    exact ⟨_, rfl⟩
  · obtain ⟨outcome, -, rfl⟩ := Option.map_eq_some_iff.mp hs
    exact ⟨_, rfl⟩
  · cases hs
    exact ⟨_, rfl⟩
  · cases hs
    exact ⟨_, rfl⟩
  · cases hs
    exact ⟨_, rfl⟩
  · cases hs

theorem done_step {a : Action} {outcome : Except Failure Body} (hi : s.calls[i]? = some c)
    (hdone : c.phase = .done outcome flight) (hs : s.step env a = some s') :
    s'.calls[i]? = some c := by
  cases a with
  | call url headers clock =>
    cases hs
    obtain ⟨hlt, -⟩ := List.getElem?_eq_some_iff.mp hi
    rw [List.getElem?_append_left hlt, hi]
  | turn j reply =>
    obtain ⟨d, hj, hturn⟩ := Option.bind_eq_some_iff.mp hs
    have hne : j ≠ i := by
      rintro rfl
      rw [hi] at hj
      cases hj
      rw [State.turn, hdone] at hturn
      cases hturn
    obtain ⟨d', hcalls⟩ := turn_calls hturn
    rw [hcalls, List.getElem?_set_ne hne, hi]

theorem done_run {outcome : Except Failure Body} (actions : List Action)
    (hi : s.calls[i]? = some c) (hdone : c.phase = .done outcome flight) :
    (run env s actions).calls[i]? = some c :=
  run_induction (P := fun s => s.calls[i]? = some c) actions hi fun hi hs => done_step hi hdone hs

end Source

/-- What the cache keeps to, between a state and a later one: a response that the policy forbids to
store is returned by the call that fetched it and by the calls of the same request that waited on its
flight, and by no call that looked up after the flight had ended. -/
structure SharedInFlight (env : Env) (s s' : State) : Prop where
  delivered : ∀ {i c b flight}, Returned s' i c b flight →
    ∃ x fields, s'.log[b.origin]? = some x ∧ x.url = c.url ∧ x.received = .ok ⟨200, fields, b.bytes⟩
  forbidden : ∀ {i c b flight x}, Returned s' i c b flight → s'.log[b.origin]? = some x →
    Forbidden env x → x.call = i ∨
      flight = some x.call ∧ ∃ l, s'.calls[x.call]? = some l ∧ l.key = c.key
  later : ∀ {i c b flight x l outcome flight'}, Returned s' i c b flight →
    s'.log[b.origin]? = some x → Forbidden env x → x.call ≠ i →
      s.calls[x.call]? = some l → l.phase = .done outcome flight' →
        ∃ c₀, s.calls[i]? = some c₀ ∧ c₀.phase ≠ .ready

theorem forbidden_shared (env : Env) (before after : List Action) :
    SharedInFlight env (run env .start before) (run env (run env .start before) after) := by
  obtain ⟨hw, ht⟩ := traced_reachable env before
  obtain ⟨hw', ht'⟩ := traced_run after hw ht
  revert hw ht hw' ht'
  generalize hs : run env .start before = s
  generalize hs' : run env s after = s'
  intro hw ht hw' ht'
  have hforbidden : ∀ {i c b flight x}, Returned s' i c b flight → s'.log[b.origin]? = some x →
      Forbidden env x → x.call = i ∨
        flight = some x.call ∧ ∃ l, s'.calls[x.call]? = some l ∧ l.key = c.key := by
    intro i c b flight x hreturned hx hforbids
    rcases source hw' ht' hreturned with ⟨j, l, hl, hkey, ⟨y, fields, hy, hcall, -⟩, hj⟩ |
      ⟨e, hstored, rfl⟩
    · rw [hx] at hy
      cases hy
      rcases hj with rfl | hflight
      · exact .inl hcall
      · exact .inr ⟨by rw [hcall, hflight], l, by rw [hcall, hl], hkey⟩
    · obtain ⟨y, fields, policy, hy, -, -, hreceived, hpolicy⟩ := hstored.origin
      rw [hx] at hy
      cases hy
      obtain ⟨fields', bytes, hreceived', hnone⟩ := hforbids
      rw [hreceived] at hreceived'
      cases hreceived'
      rw [hpolicy] at hnone
      cases hnone
  refine ⟨?_, hforbidden, ?_⟩
  · intro i c b flight hreturned
    rcases source hw' ht' hreturned with ⟨j, l, hl, hkey, ⟨y, fields, hy, -, hurl, -, hreceived⟩, -⟩ |
      ⟨e, hstored, rfl⟩
    · exact ⟨y, fields, hy, hurl.trans (Call.url_of_key hkey), hreceived⟩
    · obtain ⟨y, fields, policy, hy, hurl, -, hreceived, -⟩ := hstored.origin
      exact ⟨y, fields, hy, hurl, hreceived⟩
  · intro i c b flight x l outcome flight' hreturned hx hforbids hne hl hldone
    rcases hforbidden hreturned hx hforbids with h | ⟨rfl, -⟩
    · exact absurd h hne
    · by_contra hready
      -- The leader is the same call before and after; the other call is away from it.
      have hparty : s'.world.party i = .ended c.key x.call (.ok b) := by
        have h : s'.world.party i = c.phase.party c.key := State.party_of hreturned.1
        rw [hreturned.2] at h
        exact h
      obtain ⟨l', hl', hkey, hldone'⟩ :=
        State.call_of_ended (hw'.ends i c.key x.call (.ok b) hparty)
      have hsame : (run env s after).calls[x.call]? = some l := done_run after hl hldone
      rw [hs', hl'] at hsame
      obtain rfl := Option.some.inj hsame
      have hleader : s.world.party x.call = .ended l'.key x.call (.ok b) := by
        have h : s.world.party x.call = l'.phase.party l'.key := State.party_of hl
        rw [hldone'] at h
        exact h
      have haway : Away s.world i x.call := by
        have hapart : s.party i = .apart := by
          unfold State.party
          split
          · rename_i c₀ hc₀
            have hphase : c₀.phase = .ready := by
              by_contra hne'
              exact hready ⟨c₀, hc₀, hne'⟩
            rw [Call.party, hphase, Phase.party]
          · rfl
        have hworld : s.world.party i = .apart := hapart
        exact ⟨by simp [hworld], by simp [hworld]⟩
      have haway' : Away (run env s after).world i x.call := away_run after hw hleader haway
      rw [hs'] at haway'
      exact haway'.2 c.key (.ok b) hparty

section Sample

def sampleEnv : Env := ⟨asciiData, exactFloats⟩

def sampleUrl : Str := "http://service".toList

def pairsOf (pairs : List (String × String)) : Headers :=
  .iterable (pairs.map fun e => some (.str e.1.toList, .str e.2.toList))

def callAt (now : Int) (pairs : List (String × String)) : Action :=
  .call (some sampleUrl) (pairsOf pairs) (.ok (.int now))

def proceed (i : Nat) : Action := .turn i (.raises true 0)

def answer (i : Nat) (status : Int) (pairs : List (String × String)) (body : Bytes) : Action :=
  .turn i (.returns (.parts (some status) (pairsOf pairs) (some body)))

def coalescedRun : List Action :=
  [callAt 0 [], callAt 0 [], proceed 0, proceed 1,
    answer 0 200 [("Cache-Control", "no-store")] [120], proceed 0, proceed 0, proceed 1]

def Phase.returned : Phase → Option (Body × Option Nat)
  | .done (.ok b) flight => some (b, flight)
  | _ => none

def Exchange.forbidden (env : Env) (x : Exchange) : Bool :=
  match x.received with
  | .ok r => r.status == 200 && (cachePolicy env.unicode r.fields).toOption == some none
  | .error _ => false

theorem returned_of {s : State} {i : Nat} {b : Body} {flight : Option Nat}
    (h : (s.calls[i]?.bind fun c => c.phase.returned) = some (b, flight)) :
    ∃ c, Returned s i c b flight := by
  obtain ⟨c, hc, h⟩ := Option.bind_eq_some_iff.mp h
  refine ⟨c, hc, ?_⟩
  unfold Phase.returned at h
  split at h
  · rename_i hphase
    cases h
    exact hphase
  · cases h

theorem forbidden_of {env : Env} {x : Exchange} (h : x.forbidden env = true) : Forbidden env x := by
  unfold Exchange.forbidden at h
  split at h
  · rename_i r hr
    rw [Bool.and_eq_true, beq_iff_eq, beq_iff_eq] at h
    obtain ⟨hstatus, hpolicy⟩ := h
    refine ⟨r.fields, r.body, by rw [hr, ← hstatus], ?_⟩
    cases hp : cachePolicy env.unicode r.fields with
    | error e =>
      rw [hp] at hpolicy
      cases hpolicy
    | ok policy =>
      rw [hp] at hpolicy
      exact congrArg Except.ok (Option.some.inj hpolicy)
  · cases h

/-- A response with `no-store` goes to the call that waited. -/
theorem coalesced_forbidden : ∃ i c b flight x,
    Returned (run sampleEnv .start coalescedRun) i c b flight ∧
      (run sampleEnv .start coalescedRun).log[b.origin]? = some x ∧ Forbidden sampleEnv x ∧
      x.call ≠ i := by
  have hreturned : ((run sampleEnv .start coalescedRun).calls[1]?.bind fun c => c.phase.returned) =
      some (⟨[120], 0⟩, some 0) := by decide +kernel
  obtain ⟨c, hc⟩ := returned_of hreturned
  have hx : ((run sampleEnv .start coalescedRun).log[0]?.map fun x =>
      (x.call, x.forbidden sampleEnv)) = some (0, true) := by decide +kernel
  obtain ⟨x, hlog, hx⟩ := Option.map_eq_some_iff.mp hx
  obtain ⟨hcall, hforbidden⟩ := Prod.mk.inj hx
  exact ⟨1, c, ⟨[120], 0⟩, some 0, x, hc, hlog, forbidden_of hforbidden, by rw [hcall]; decide⟩

end Sample

end Round5.SharedCache
