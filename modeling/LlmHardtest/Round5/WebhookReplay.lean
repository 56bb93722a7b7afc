import LlmHardtest.Library.Failures
import LlmHardtest.Round5.Webhook
set_option autoImplicit false

/-! However the calls of the webhook processor interleave, each token is handled to its end at most
once, and one attempt at a time. -/

namespace Round5.Webhook
open Python OnceOnly

variable (env : Env) (cfg : Config) {R : Type}

def State.events (s : State R) (token : Token) : List Event :=
  (s.log.filter fun e => e.1 = token).map Prod.snd

def Phase.work : Phase R → Option (Token × List (Str × Json))
  | .ready token payload | .handling token payload | .handled token payload _ => some (token, payload)
  | .ended _ => none

def Phase.held : Phase R → Option Token
  | .handling token _ | .handled token _ _ => some token
  | _ => none

def State.Holds (s : State R) (i : Nat) (token : Token) : Prop :=
  ∃ c, s.calls[i]? = some c ∧ c.phase.held = some token

/-- Where a token stands, as the two sets and the calls tell it. -/
structure Stands (s : State R) (token : Token) (st : Stage) : Prop where
  after : Stage.free.after (s.events token) = some st
  held : ∀ i, st = .held i ↔ s.Holds i token
  pending : token ∈ s.pending ↔ ∃ i, st = .held i
  done : token ∈ s.done ↔ st = .finished

structure Traced (s : State R) : Prop where
  admitted : ∀ (i : Nat) (c : Call R), s.calls[i]? = some c → ∀ work, c.phase.work = some work →
    accept env cfg c.request = .ok work
  began : ∀ token i, (token, .began i) ∈ s.log → ∃ c, s.calls[i]? = some c ∧
    ∃ payload, accept env cfg c.request = .ok (token, payload)
  returned : ∀ (i : Nat) (c : Call R) (result : R), s.calls[i]? = some c →
    c.phase = .ended (.ok result) → ∃ token payload,
      accept env cfg c.request = .ok (token, payload) ∧ (token, .succeeded i) ∈ s.log

section Stages
variable {s t : State R} {i j : Nat} {c : Call R} {phase : Phase R} {token other : Token} {e : Event}
  {st : Stage}

theorem getElem?_set_cases {d : Call R} (hi : s.calls[i]? = some c)
    (h : (s.put i c phase).calls[j]? = some d) :
    j = i ∧ d = { c with phase := phase } ∨ j ≠ i ∧ s.calls[j]? = some d := by
  obtain ⟨hlt, -⟩ := List.getElem?_eq_some_iff.mp hi
  change (s.calls.set i { c with phase := phase })[j]? = some d at h
  by_cases hij : i = j
  · subst hij
    rw [List.getElem?_set_self hlt] at h
    exact .inl ⟨rfl, (Option.some.inj h).symm⟩
  · rw [List.getElem?_set_ne hij] at h
    exact .inr ⟨Ne.symm hij, h⟩

theorem getElem?_put_self (hi : s.calls[i]? = some c) :
    (s.put i c phase).calls[i]? = some { c with phase := phase } := by
  obtain ⟨hlt, -⟩ := List.getElem?_eq_some_iff.mp hi
  exact List.getElem?_set_self hlt

theorem getElem?_put_ne (hj : j ≠ i) : (s.put i c phase).calls[j]? = s.calls[j]? :=
  List.getElem?_set_ne (Ne.symm hj)

theorem holds_put (hi : s.calls[i]? = some c) : (s.put i c phase).Holds j token ↔
    j = i ∧ phase.held = some token ∨ j ≠ i ∧ s.Holds j token := by
  constructor
  · rintro ⟨d, hd, hheld⟩
    rcases getElem?_set_cases hi hd with ⟨hji, rfl⟩ | ⟨hji, hd⟩
    · exact .inl ⟨hji, hheld⟩
    · exact .inr ⟨hji, d, hd, hheld⟩
  · rintro (⟨rfl, hheld⟩ | ⟨hji, d, hd, hheld⟩)
    · exact ⟨_, getElem?_put_self hi, hheld⟩
    · exact ⟨d, by rw [getElem?_put_ne hji, hd], hheld⟩

theorem holds_put_same (hi : s.calls[i]? = some c) (hheld : phase.held = c.phase.held) :
    (s.put i c phase).Holds j token ↔ s.Holds j token := by
  rw [holds_put hi]
  constructor
  · rintro (⟨rfl, h⟩ | ⟨-, h⟩)
    · exact ⟨c, hi, hheld ▸ h⟩
    · exact h
  · intro h
    by_cases hji : j = i
    · subst hji
      obtain ⟨d, hd, h⟩ := h
      rw [hi] at hd
      cases hd
      exact .inl ⟨rfl, hheld.trans h⟩
    · exact .inr ⟨hji, h⟩

theorem Stands.congr (hs : Stands s token st) (hevents : t.events token = s.events token)
    (hholds : ∀ j, t.Holds j token ↔ s.Holds j token)
    (hpending : token ∈ t.pending ↔ token ∈ s.pending) (hdone : token ∈ t.done ↔ token ∈ s.done) :
    Stands t token st where
  after := hevents ▸ hs.after
  held j := (hs.held j).trans (hholds j).symm
  pending := hpending.trans hs.pending
  done := hdone.trans hs.done

theorem events_concat (log : List (Token × Event)) :
    (((log ++ [(other, e)]).filter fun e => e.1 = token).map Prod.snd) =
      (log.filter fun e => e.1 = token).map Prod.snd ++ if other = token then [e] else [] := by
  rw [List.filter_append, List.map_append]
  congr 1
  by_cases h : other = token <;> simp [h]

theorem events_same (log : List (Token × Event)) (h : other ≠ token) :
    (((log ++ [(other, e)]).filter fun e => e.1 = token).map Prod.snd) =
      (log.filter fun e => e.1 = token).map Prod.snd := by
  rw [events_concat, if_neg h, List.append_nil]

theorem Stands.put (hs : Stands s token st) (hi : s.calls[i]? = some c)
    (hheld : phase.held = c.phase.held) : Stands (s.put i c phase) token st :=
  hs.congr rfl (fun _ => holds_put_same hi hheld) Iff.rfl Iff.rfl

theorem Stands.process (hs : Stands s token st) (r : Request) :
    Stands { s with calls := s.calls ++ [begin env cfg r] } token st := by
  refine hs.congr rfl (fun j => ?_) Iff.rfl Iff.rfl
  constructor
  · rintro ⟨d, hd, hheld⟩
    rcases Nat.lt_or_ge j s.calls.length with hlt | hge
    · rw [List.getElem?_append_left hlt] at hd
      exact ⟨d, hd, hheld⟩
    · rw [List.getElem?_append_right hge] at hd
      rw [List.mem_singleton.mp (List.mem_of_getElem? hd), begin] at hheld
      split at hheld <;> cases hheld
  · rintro ⟨d, hd, hheld⟩
    obtain ⟨hlt, -⟩ := List.getElem?_eq_some_iff.mp hd
    exact ⟨d, by rw [List.getElem?_append_left hlt, hd], hheld⟩

theorem Stands.reserve (hs : Stands s other st) (hi : s.calls[i]? = some c)
    {payload : List (Str × Json)} (hc : c.phase = .ready token payload) :
    ∃ st', Stands (s.reserve i c token payload) other st' := by
  unfold State.reserve
  split
  · exact ⟨st, hs.put hi (by rw [hc]; rfl)⟩
  · rename_i hnew
    rw [not_or] at hnew
    by_cases hother : other = token
    · subst hother
      have hfree : st = .free := by
        cases st with
        | free => rfl
        | held j => exact absurd (hs.pending.mpr ⟨j, rfl⟩) hnew.1
        | finished => exact absurd (hs.done.mpr rfl) hnew.2
      subst hfree
      refine ⟨.held i, ?_, fun j => ?_, ?_, ?_⟩
      · change Stage.free.after (((s.log ++ _).filter _).map _) = _
        rw [events_concat, if_pos rfl]
        exact Stage.after_concat hs.after
      · change _ ↔ (s.put i c (.handling other payload)).Holds j other
        rw [holds_put hi]
        constructor
        · rintro ⟨⟩
          exact .inl ⟨rfl, rfl⟩
        · rintro (⟨rfl, -⟩ | ⟨-, h⟩)
          · rfl
          · cases (hs.held j).mpr h
      · simp
      · refine iff_of_false hnew.2 ?_
        simp
    · refine ⟨st, hs.congr ?_ (fun j => ?_) ?_ Iff.rfl⟩
      · exact events_same s.log (Ne.symm hother)
      · change (s.put i c (.handling token payload)).Holds j other ↔ _
        rw [holds_put hi]
        constructor
        · rintro (⟨-, h⟩ | ⟨-, h⟩)
          · cases h
            exact absurd rfl hother
          · exact h
        · intro h
          refine .inr ⟨?_, h⟩
          rintro rfl
          obtain ⟨d, hd, hheld⟩ := h
          rw [hi] at hd
          cases hd
          rw [hc] at hheld
          cases hheld
      · simp [hother]

/-- The section that ends a token's attempt leaves the other tokens alone. -/
theorem Stands.settle_other (hs : Stands s other st) (hi : s.calls[i]? = some c)
    {payload : List (Str × Json)} {outcome : Except Nat R}
    (hc : c.phase = .handled token payload outcome) (hother : other ≠ token) :
    Stands (s.settle i c token outcome) other st := by
  have hholds : ∀ result : Except Failure R, ∀ j,
      (s.put i c (.ended result)).Holds j other ↔ s.Holds j other := by
    intro result j
    rw [holds_put hi]
    constructor
    · rintro (⟨-, h⟩ | ⟨-, h⟩)
      · cases h
      · exact h
    · intro h
      refine .inr ⟨?_, h⟩
      rintro rfl
      obtain ⟨d, hd, hheld⟩ := h
      rw [hi] at hd
      cases hd
      rw [hc] at hheld
      cases hheld
      exact hother rfl
  cases outcome with
  | ok result =>
    refine hs.congr (events_same s.log (Ne.symm hother)) (hholds _) ?_ ?_
    · simp [State.settle, hother]
    · simp [State.settle, hother]
  | error what =>
    refine hs.congr (events_same s.log (Ne.symm hother)) (hholds _) ?_ Iff.rfl
    simp [State.settle, hother]

theorem Stands.settle (hs : Stands s token st) (hi : s.calls[i]? = some c)
    {payload : List (Str × Json)} {outcome : Except Nat R}
    (hc : c.phase = .handled token payload outcome) :
    ∃ st', Stands (s.settle i c token outcome) token st' := by
  have hst : st = .held i := (hs.held i).mpr ⟨c, hi, by rw [hc]; rfl⟩
  subst hst
  have hfree : ∀ result : Except Failure R, ∀ j,
      ¬ (s.put i c (.ended result)).Holds j token := by
    intro result j h
    rcases (holds_put hi).mp h with ⟨-, h⟩ | ⟨hji, h⟩
    · cases h
    · cases (hs.held j).mpr h
      exact hji rfl
  have hundone : token ∉ s.done := fun h => by cases hs.done.mp h
  cases outcome with
  | ok result =>
    refine ⟨.finished, ?_, fun j => ?_, ?_, ?_⟩
    · change Stage.free.after (((s.log ++ _).filter _).map _) = _
      rw [events_concat, if_pos rfl]
      exact (Stage.after_concat hs.after).trans (if_pos rfl)
    · exact iff_of_false (by rintro ⟨⟩) (hfree _ j)
    · exact iff_of_false (by simp [State.settle]) (by simp)
    · simp [State.settle]
  | error what =>
    refine ⟨.free, ?_, fun j => ?_, ?_, ?_⟩
    · change Stage.free.after (((s.log ++ _).filter _).map _) = _
      rw [events_concat, if_pos rfl]
      exact (Stage.after_concat hs.after).trans (if_pos rfl)
    · exact iff_of_false (by rintro ⟨⟩) (hfree _ j)
    · exact iff_of_false (by simp [State.settle]) (by simp)
    · exact iff_of_false hundone (by simp)

end Stages

section Traces
variable {env} {cfg} {s t : State R} {i j : Nat} {c : Call R} {phase : Phase R} {token : Token}

theorem Traced.put (ht : Traced env cfg s) (hi : s.calls[i]? = some c)
    (hwork : ∀ work, phase.work = some work → c.phase.work = some work)
    (hreturned : ∀ result, phase ≠ .ended (.ok result)) : Traced env cfg (s.put i c phase) where
  admitted j d hd work hw := by
    rcases getElem?_set_cases hi hd with ⟨rfl, rfl⟩ | ⟨-, hd⟩
    · exact ht.admitted j c hi work (hwork work hw)
    · exact ht.admitted j d hd work hw
  began token j hlog := by
    obtain ⟨d, hd, h⟩ := ht.began token j hlog
    by_cases hji : j = i
    · subst hji
      rw [hi] at hd
      cases hd
      exact ⟨_, getElem?_put_self hi, h⟩
    · exact ⟨d, by rw [getElem?_put_ne hji, hd], h⟩
  returned j d result hd hres := by
    rcases getElem?_set_cases hi hd with ⟨rfl, rfl⟩ | ⟨-, hd⟩
    · exact absurd hres (hreturned result)
    · exact ht.returned j d result hd hres

theorem Traced.process (ht : Traced env cfg s) (r : Request) :
    Traced env cfg { s with calls := s.calls ++ [begin env cfg r] } := by
  have hcases : ∀ (j : Nat) (d : Call R), (s.calls ++ [begin env cfg r])[j]? = some d →
      s.calls[j]? = some d ∨ d = begin env cfg r := by
    intro j d hd
    rcases Nat.lt_or_ge j s.calls.length with hlt | hge
    · rw [List.getElem?_append_left hlt] at hd
      exact .inl hd
    · rw [List.getElem?_append_right hge] at hd
      exact .inr (List.mem_singleton.mp (List.mem_of_getElem? hd))
  refine ⟨fun j d hd work hw => ?_, fun token j hlog => ?_, fun j d result hd hres => ?_⟩
  · rcases hcases j d hd with hd | rfl
    · exact ht.admitted j d hd work hw
    · unfold begin at hw ⊢
      split at hw
      · rename_i token payload hadmit
        cases hw
        exact hadmit
      · cases hw
  · obtain ⟨d, hd, h⟩ := ht.began token j hlog
    obtain ⟨hlt, -⟩ := List.getElem?_eq_some_iff.mp hd
    exact ⟨d, (List.getElem?_append_left hlt).trans hd, h⟩
  · rcases hcases j d hd with hd | rfl
    · exact ht.returned j d result hd hres
    · unfold begin at hres
      split at hres <;> cases hres

theorem Traced.reserve (ht : Traced env cfg s) (hi : s.calls[i]? = some c)
    {payload : List (Str × Json)} (hc : c.phase = .ready token payload) :
    Traced env cfg (s.reserve i c token payload) := by
  unfold State.reserve
  split
  · exact ht.put hi (by rintro work ⟨⟩) (by rintro result ⟨⟩)
  · have hput : Traced env cfg (s.put i c (.handling token payload)) :=
      ht.put hi (by rintro work ⟨⟩; rw [hc]; rfl) (by rintro result ⟨⟩)
    refine ⟨hput.admitted, fun other j hlog => ?_, fun j d result hd hres => ?_⟩
    · rcases List.mem_append.mp hlog with hlog | hlog
      · exact hput.began other j hlog
      · cases List.mem_singleton.mp hlog
        exact ⟨_, getElem?_put_self hi, payload, ht.admitted _ c hi _ (by rw [hc]; rfl)⟩
    · obtain ⟨other, p, hadmit, hlog⟩ := hput.returned j d result hd hres
      exact ⟨other, p, hadmit, List.mem_append_left _ hlog⟩

theorem Traced.settle (ht : Traced env cfg s) (hi : s.calls[i]? = some c)
    {payload : List (Str × Json)} {outcome : Except Nat R}
    (hc : c.phase = .handled token payload outcome) :
    Traced env cfg (s.settle i c token outcome) := by
  have hbegan : ∀ (phase : Phase R) (e : Event), (∀ j, e ≠ .began j) → ∀ other j,
      (other, .began j) ∈ s.log ++ [(token, e)] → ∃ d, (s.put i c phase).calls[j]? = some d ∧
        ∃ p, accept env cfg d.request = .ok (other, p) := by
    intro phase e he other j hlog
    rcases List.mem_append.mp hlog with hlog | hlog
    · obtain ⟨d, hd, h⟩ := ht.began other j hlog
      by_cases hji : j = i
      · subst hji
        rw [hi] at hd
        cases hd
        exact ⟨_, getElem?_put_self hi, h⟩
      · exact ⟨d, by rw [getElem?_put_ne hji, hd], h⟩
    · cases List.mem_singleton.mp hlog
      exact absurd rfl (he j)
  have hadmitted : ∀ (result : Except Failure R) (j : Nat) (d : Call R),
      (s.put i c (.ended result)).calls[j]? = some d →
      ∀ work, d.phase.work = some work → accept env cfg d.request = .ok work := by
    intro result j d hd work hw
    rcases getElem?_set_cases hi hd with ⟨rfl, rfl⟩ | ⟨-, hd⟩
    · cases hw
    · exact ht.admitted j d hd work hw
  have hreturned : ∀ (result : Except Failure R) (e : Event) (j : Nat) (d : Call R) (r : R),
      j ≠ i → (s.put i c (.ended result)).calls[j]? = some d → d.phase = .ended (.ok r) →
      ∃ other p, accept env cfg d.request = .ok (other, p) ∧
        (other, .succeeded j) ∈ s.log ++ [(token, e)] := by
    intro result e j d r hji hd hres
    rw [getElem?_put_ne hji] at hd
    obtain ⟨other, p, hadmit, hlog⟩ := ht.returned j d r hd hres
    exact ⟨other, p, hadmit, List.mem_append_left _ hlog⟩
  cases outcome with
  | ok result =>
    refine ⟨hadmitted _, hbegan _ _ (by rintro j ⟨⟩), fun j d r hd hres => ?_⟩
    by_cases hji : j = i
    · subst hji
      have hd' : d.request = c.request := by
        rcases getElem?_set_cases hi hd with ⟨-, rfl⟩ | ⟨hji, -⟩
        · rfl
        · exact absurd rfl hji
      refine ⟨token, payload, hd' ▸ ht.admitted j c hi _ (by rw [hc]; rfl), ?_⟩
      exact List.mem_append_right _ List.mem_cons_self
    · exact hreturned _ _ j d r hji hd hres
  | error what =>
    refine ⟨hadmitted _, hbegan _ _ (by rintro j ⟨⟩), fun j d r hd hres => ?_⟩
    by_cases hji : j = i
    · rcases getElem?_set_cases hi hd with ⟨-, rfl⟩ | ⟨hne, -⟩
      · cases hres
      · exact absurd hji hne
    · exact hreturned _ _ j d r hji hd hres

end Traces

structure Sound (s : State R) : Prop where
  stands : ∀ token, ∃ st, Stands s token st
  traced : Traced env cfg s

section Runs
variable {env} {cfg} {s t : State R}

theorem Sound.start : Sound env cfg ({} : State R) where
  stands token := by
    refine ⟨.free, rfl, fun i => ?_, ?_, ?_⟩
    · exact iff_of_false (by rintro ⟨⟩) (by rintro ⟨c, hc, -⟩; cases hc)
    · exact iff_of_false (by simp) (by simp)
    · exact iff_of_false (by simp) (by simp)
  traced := ⟨fun i c hc => by (cases hc), fun token i h => by (cases h), fun i c r hc => by (cases hc)⟩

theorem Sound.step (hs : Sound env cfg s) {a : Action R} (h : s.step env cfg a = some t) :
    Sound env cfg t := by
  cases a with
  | process r =>
    cases h
    refine ⟨fun token => ?_, hs.traced.process r⟩
    obtain ⟨st, hst⟩ := hs.stands token
    exact ⟨st, hst.process env cfg r⟩
  | reserve i =>
    obtain ⟨c, hi, h⟩ := Option.bind_eq_some_iff.mp h
    split at h
    · rename_i token payload hc
      cases h
      refine ⟨fun other => ?_, hs.traced.reserve hi hc⟩
      obtain ⟨st, hst⟩ := hs.stands other
      exact hst.reserve hi hc
    · cases h
  | handle i outcome =>
    obtain ⟨c, hi, h⟩ := Option.bind_eq_some_iff.mp h
    split at h
    · rename_i token payload hc
      cases h
      refine ⟨fun other => ?_, hs.traced.put hi (by rintro work ⟨⟩; rw [hc]; rfl)
        (by rintro result ⟨⟩)⟩
      obtain ⟨st, hst⟩ := hs.stands other
      exact ⟨st, hst.put hi (by rw [hc]; rfl)⟩
    · cases h
  | settle i =>
    obtain ⟨c, hi, h⟩ := Option.bind_eq_some_iff.mp h
    split at h
    · rename_i token payload outcome hc
      cases h
      refine ⟨fun other => ?_, hs.traced.settle hi hc⟩
      obtain ⟨st, hst⟩ := hs.stands other
      by_cases hother : other = token
      · subst hother
        exact hst.settle hi hc
      · exact ⟨st, hst.settle_other hi hc hother⟩
    · cases h

theorem Sound.run (hs : Sound env cfg s) (as : List (Action R)) : Sound env cfg (run env cfg s as) := by
  induction as generalizing s with
  | nil => exact hs
  | cons a as ih =>
    cases h : s.step env cfg a with
    | none =>
      rw [Webhook.run, h]
      exact ih hs
    | some t =>
      rw [Webhook.run, h]
      exact ih (hs.step h)

end Runs

/-- Two requests carry one message: the body, the key and the second are the same, whatever else the
headers say. -/
def SameMessage (r r' : Request) : Prop :=
  r.body = r'.body ∧ ∃ h h', header env.unicode r.header = .ok h ∧
    header env.unicode r'.header = .ok h' ∧ h.kid = h'.kid ∧ h.timestamp = h'.timestamp

/-- The attempts at each token come one after the other, up to one that succeeds; the handler only
gets what a request was admitted with; no message is handled to its end twice. -/
structure ReplaySafe (s : State R) : Prop where
  once : ∀ token, Once (s.events token)
  began : ∀ token i, (token, .began i) ∈ s.log → ∃ c, s.calls[i]? = some c ∧
    ∃ payload, accept env cfg c.request = .ok (token, payload)
  handled : ∀ (i : Nat) (c : Call R) token payload, s.calls[i]? = some c →
    c.phase = .handling token payload → accept env cfg c.request = .ok (token, payload)
  alone : ∀ i j token, s.Holds i token → s.Holds j token → i = j
  single : ∀ (i j : Nat) (c d : Call R) (r r' : R), s.calls[i]? = some c → s.calls[j]? = some d →
    c.phase = .ended (.ok r) → d.phase = .ended (.ok r') →
    SameMessage env c.request d.request → i = j

section Admission
variable {env} {cfg} {r : Request} {token : Token} {payload : List (Str × Json)}

@[simp] theorem ofOption_ok {α : Type} {message : String} {o : Option α} {a : α} :
    ofOption message o = .ok a ↔ o = some a := by
  cases o with
  | none => exact iff_of_false (by rintro ⟨⟩) (by rintro ⟨⟩)
  | some b => exact ⟨fun h => by cases h; rfl, fun h => by cases h; rfl⟩

@[simp]
theorem check_ok {ok : Bool} {message : String} {a : Unit} : check ok message = .ok a ↔ ok = true := by
  cases ok with
  | false => exact iff_of_false (by rintro ⟨⟩) (by decide)
  | true => exact iff_of_true rfl rfl

theorem readClock_ok {clock : Except Nat Json} {now : Json} :
    readClock clock = .ok now ↔ clock = .ok now := by
  cases clock with
  | ok v => exact ⟨fun h => by cases h; rfl, fun h => by cases h; rfl⟩
  | error e => exact iff_of_false (by rintro ⟨⟩) (by rintro ⟨⟩)

theorem accept_ok : accept env cfg r = .ok (token, payload) ↔
    ∃ body h now secrets, r.body = some body ∧ header env.unicode r.header = .ok h ∧
      r.clock = .ok now ∧ checkTime cfg.tolerance h.timestamp now = .ok () ∧
      cfg.keys.table.lookup h.kid = some secrets ∧
      isSigned env secrets h.signatures (signedBytes h.timestamp body) = true ∧
      parseBody env body = .ok payload ∧
      token = ⟨h.kid, h.timestamp, env.sha256 (signedBytes h.timestamp body)⟩ := by
  constructor
  · intro hadmit
    obtain ⟨body, hbody, hadmit⟩ := Failures.bind_eq_ok.mp hadmit
    obtain ⟨h, hh, hadmit⟩ := Failures.bind_eq_ok.mp hadmit
    obtain ⟨now, hnow, hadmit⟩ := Failures.bind_eq_ok.mp hadmit
    obtain ⟨⟨⟩, htime, hadmit⟩ := Failures.bind_eq_ok.mp hadmit
    obtain ⟨secrets, hsecrets, hadmit⟩ := Failures.bind_eq_ok.mp hadmit
    obtain ⟨_, hsigned, hadmit⟩ := Failures.bind_eq_ok.mp hadmit
    obtain ⟨p, hp, hadmit⟩ := Failures.bind_eq_ok.mp hadmit
    cases hadmit
    exact ⟨body, h, now, secrets, ofOption_ok.mp hbody, hh, readClock_ok.mp hnow, htime,
      ofOption_ok.mp hsecrets, check_ok.mp hsigned, hp, rfl⟩
  · rintro ⟨body, h, now, secrets, hbody, hh, hnow, htime, hsecrets, hsigned, hp, rfl⟩
    refine Failures.bind_eq_ok.mpr ⟨body, ofOption_ok.mpr hbody, ?_⟩
    refine Failures.bind_eq_ok.mpr ⟨h, hh, ?_⟩
    refine Failures.bind_eq_ok.mpr ⟨now, readClock_ok.mpr hnow, ?_⟩
    refine Failures.bind_eq_ok.mpr ⟨(), htime, ?_⟩
    refine Failures.bind_eq_ok.mpr ⟨secrets, ofOption_ok.mpr hsecrets, ?_⟩
    refine Failures.bind_eq_ok.mpr ⟨(), check_ok.mpr hsigned, ?_⟩
    exact Failures.bind_eq_ok.mpr ⟨payload, hp, rfl⟩

theorem SameMessage.token_eq {r' : Request} {token' : Token} {payload' : List (Str × Json)}
    (h : SameMessage env r r') (hr : accept env cfg r = .ok (token, payload))
    (hr' : accept env cfg r' = .ok (token', payload')) : token = token' := by
  obtain ⟨hbody, h1, h2, hh1, hh2, hkid, htime⟩ := h
  obtain ⟨b1, g1, -, -, hb1, hg1, -, -, -, -, -, rfl⟩ := accept_ok.mp hr
  obtain ⟨b2, g2, -, -, hb2, hg2, -, -, -, -, -, rfl⟩ := accept_ok.mp hr'
  rw [hh1] at hg1
  rw [hh2] at hg2
  cases hg1
  cases hg2
  rw [hb1, hb2] at hbody
  cases hbody
  rw [hkid, htime]

end Admission

/-- A history has one success at most. -/
theorem success_unique {es : List Event} (h : Once es) {i j : Nat} (hi : .succeeded i ∈ es)
    (hj : .succeeded j ∈ es) : i = j := by
  obtain ⟨pre, post, rfl⟩ := List.append_of_mem hi
  have hpost := h.success_last pre i post rfl
  subst hpost
  obtain ⟨pre', post', he⟩ := List.append_of_mem hj
  have hpost' := h.success_last pre' j post' he
  subst hpost'
  have hlast := (List.append_inj' he rfl).2
  cases hlast
  rfl

theorem mem_events {s : State R} {token : Token} {e : Event} :
    e ∈ s.events token ↔ (token, e) ∈ s.log := by
  simp only [State.events, List.mem_map, List.mem_filter, decide_eq_true_eq]
  constructor
  · rintro ⟨⟨_, _⟩, ⟨h, rfl⟩, rfl⟩
    exact h
  · exact fun h => ⟨_, ⟨h, rfl⟩, rfl⟩

theorem Sound.safe {env : Env} {cfg : Config} {s : State R} (hs : Sound env cfg s) :
    ReplaySafe env cfg s := by
  have honce : ∀ token, Once (s.events token) := by
    intro token
    obtain ⟨st, hst⟩ := hs.stands token
    exact once_of_after hst.after
  refine ⟨honce, hs.traced.began, ?_, ?_, ?_⟩
  · intro i c token payload hi hc
    exact hs.traced.admitted i c hi _ (by rw [hc]; rfl)
  · intro i j token hi hj
    obtain ⟨st, hst⟩ := hs.stands token
    have h := ((hst.held i).mpr hi).symm.trans ((hst.held j).mpr hj)
    cases h
    rfl
  · intro i j c d r r' hi hj hc hd hsame
    obtain ⟨token, p, hadmit, hlog⟩ := hs.traced.returned i c r hi hc
    obtain ⟨token', p', hadmit', hlog'⟩ := hs.traced.returned j d r' hj hd
    have htoken := hsame.token_eq hadmit hadmit'
    subst htoken
    exact success_unique (honce token) (mem_events.mpr hlog) (mem_events.mpr hlog')

/-- In any order of the sections of any calls, whatever the handler does. -/
theorem run_replaySafe (as : List (Action R)) : ReplaySafe env cfg (run env cfg {} as) :=
  (Sound.start.run as).safe

end Round5.Webhook
