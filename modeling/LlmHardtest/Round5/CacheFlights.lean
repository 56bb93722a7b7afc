import LlmHardtest.Library.Failures
import LlmHardtest.Round5.SharedCache
set_option autoImplicit false

/-! The flights of the shared cache are single flights, and where the bodies that calls return come
from. -/

namespace Round5.SharedCache
open Python SingleFlight
open Failures (bind_eq_ok)

/-! ## The cache as a world of flights -/

def Phase.party (k : Key) : Phase → Party Key (Except Failure Body)
  | .waiting leader => .waiting k leader
  | .leading | .storing _ _ | .landing _ => .leading k
  | .done outcome (some leader) => .ended k leader outcome
  | .ready | .sensitive | .done _ none => .apart

def Call.party (c : Call) : Party Key (Except Failure Body) := c.phase.party c.key

def State.party (s : State) (i : Nat) : Party Key (Except Failure Body) :=
  match s.calls[i]? with
  | some c => c.party
  | none => .apart

def State.world (s : State) : World Key (Except Failure Body) := ⟨s.party, s.flights, s.landed⟩

section World
variable {env : Env} {s s' : State} {i : Nat} {c c' : Call}

theorem State.party_of (hi : s.calls[i]? = some c) : s.party i = c.party := by
  rw [State.party, hi]

theorem State.call_of_ended {k : Key} {leader : Nat} {outcome : Except Failure Body}
    (h : s.party i = .ended k leader outcome) : ∃ c, s.calls[i]? = some c ∧ c.key = k ∧
      c.phase = .done outcome (some leader) := by
  unfold State.party at h
  split at h
  · rename_i c hc
    refine ⟨c, hc, ?_⟩
    unfold Call.party Phase.party at h
    split at h
    all_goals cases h
    rename_i hphase
    exact ⟨rfl, hphase⟩
  · cases h

theorem party_set (hi : s.calls[i]? = some c) (hs : s'.calls = s.calls.set i c') :
    s'.party = Function.update s.party i c'.party := by
  funext j
  obtain ⟨hlt, -⟩ := List.getElem?_eq_some_iff.mp hi
  by_cases hj : j = i
  · subst hj
    rw [Function.update_self, State.party, hs, List.getElem?_set_self hlt]
  · rw [Function.update_of_ne hj, State.party, State.party, hs,
      List.getElem?_set_ne (fun h => hj h.symm)]

theorem world_set (hi : s.calls[i]? = some c) (hs : s'.calls = s.calls.set i c') :
    s'.world = ⟨Function.update s.party i c'.party, s'.flights, s'.landed⟩ := by
  rw [State.world, party_set hi hs]

theorem world_same (hi : s.calls[i]? = some c) (hs : s'.calls = s.calls.set i c')
    (hflights : s'.flights = s.flights) (hlanded : s'.landed = s.landed)
    (hparty : c'.party = c.party) : s'.world = s.world := by
  rw [world_set hi hs, hflights, hlanded, hparty, ← State.party_of hi, Function.update_eq_self]
  rfl

theorem world_board (hi : s.calls[i]? = some c) (hapart : c.party = .apart) :
    Step s.world (s.board i c').world := by
  have hp : s.world.party i = .apart := (State.party_of hi).trans hapart
  rw [State.board]
  split
  · rename_i leader hleader
    have hcalls : (s.put i { c' with phase := .waiting leader }).calls =
        s.calls.set i { c' with phase := .waiting leader } := rfl
    rw [world_set hi hcalls]
    exact .join hp hleader
  · rename_i hnone
    have hcalls : ({ s.put i { c' with phase := .leading } with
        flights := s.flights ++ [(c'.key, i)] } : State).calls =
        s.calls.set i { c' with phase := .leading } := rfl
    rw [world_set hi hcalls]
    exact .launch hp hnone

theorem party_answered {n : Nat} {reply : Reply} {k : Key} :
    (c.answered env n reply).party k = .leading k := by
  unfold Call.answered
  split
  · rfl
  · rfl
  · split
    · rfl
    · rfl

/-- A section of a call is a step of the flights, or changes none of them. -/
theorem world_turn {reply : Reply} (hi : s.calls[i]? = some c) (ht : s.turn env i c reply = some s') :
    s'.world = s.world ∨ Step s.world s'.world := by
  have hp : s.world.party i = c.phase.party c.key := State.party_of hi
  unfold State.turn at ht
  split at ht
  · rename_i hphase
    have hapart : c.party = .apart := by rw [Call.party, hphase, Phase.party]
    cases ht
    unfold State.lookup
    split
    · exact .inr (world_board hi hapart)
    · split
      · exact .inl (world_same hi rfl rfl rfl hapart.symm)
      · split
        · exact .inl (world_same hi rfl rfl rfl hapart.symm)
        · exact .inr (world_board hi hapart)
  · rename_i hphase
    cases ht
    refine .inl (world_same hi rfl rfl rfl ?_)
    rw [Call.party, Call.party, hphase, Phase.party, Phase.party]
  · rename_i leader hphase
    obtain ⟨outcome, houtcome, rfl⟩ := Option.map_eq_some_iff.mp ht
    rw [hphase] at hp
    rw [world_set hi rfl]
    exact .inr (.wake hp houtcome)
  · rename_i hphase
    cases ht
    refine .inl (world_same hi rfl rfl rfl ?_)
    rw [Call.party, Call.party, party_answered, hphase]
    rfl
  · rename_i updated result hphase
    cases ht
    refine .inl (world_same hi rfl rfl rfl ?_)
    rw [Call.party, Call.party, hphase]
    rfl
  · rename_i outcome hphase
    cases ht
    rw [hphase] at hp
    rw [world_set hi rfl]
    exact .inr (.land hp)
  · cases ht

theorem begin_ok {url : Option Str} {headers : Headers} {clock : Except Failure Json}
    (hb : begin env url headers clock = .ok c) :
    c.entry = none ∧ c.phase = if isSensitive c.request then .sensitive else .ready := by
  unfold begin at hb
  split at hb
  · obtain ⟨found, -, hb⟩ := bind_eq_ok.mp hb
    obtain ⟨now, -, hb⟩ := bind_eq_ok.mp hb
    cases hb
    exact ⟨rfl, rfl⟩
  · cases hb

theorem world_call {c : Call} (hc : c.party = .apart) (hs : s'.calls = s.calls ++ [c])
    (hflights : s'.flights = s.flights) (hlanded : s'.landed = s.landed) : s'.world = s.world := by
  have hparty : s'.party = s.party := by
    funext j
    rw [State.party, State.party, hs]
    by_cases hj : j < s.calls.length
    · rw [List.getElem?_append_left hj]
    · rw [List.getElem?_append_right (by omega), List.getElem?_eq_none (show s.calls.length ≤ j by omega)]
      cases hget : [c][j - s.calls.length]? with
      | none => rfl
      | some c' =>
        obtain rfl := List.mem_singleton.mp (List.mem_of_getElem? hget)
        exact hc
  rw [State.world, State.world, hparty, hflights, hlanded]

theorem world_step {a : Action} (hs : s.step env a = some s') :
    s'.world = s.world ∨ Step s.world s'.world := by
  cases a with
  | call url headers clock =>
    cases hs
    refine .inl (world_call ?_ rfl rfl rfl)
    split
    · rename_i c hb
      rw [Call.party, (begin_ok hb).2]
      split <;> rfl
    · rfl
  | turn i reply =>
    obtain ⟨c, hi, ht⟩ := Option.bind_eq_some_iff.mp hs
    exact world_turn hi ht

theorem sound_step {a : Action} (hw : Sound s.world) (hs : s.step env a = some s') :
    Sound s'.world := by
  rcases world_step hs with h | h
  · rw [h]
    exact hw
  · exact hw.step h

theorem run_induction {P : State → Prop} (actions : List Action) (hs : P s)
    (hstep : ∀ {s a s'}, P s → s.step env a = some s' → P s') : P (run env s actions) := by
  induction actions generalizing s with
  | nil => exact hs
  | cons a actions ih =>
    rw [run]
    cases hnext : s.step env a with
    | none => exact ih hs
    | some s' => exact ih (hstep hs hnext)

theorem ended_step {a : Action} {j leader : Nat} {k : Key} {outcome : Except Failure Body}
    (hs : s.step env a = some s') (h : s.world.party j = .ended k leader outcome) :
    s'.world.party j = .ended k leader outcome := by
  rcases world_step hs with hsame | hstep
  · rw [hsame]
    exact h
  · exact hstep.ended h

/-- A call that is away from a flight that has ended stays away from it. -/
theorem away_run {j leader : Nat} {k : Key} {outcome : Except Failure Body} (actions : List Action)
    (hw : Sound s.world) (hleader : s.world.party leader = .ended k leader outcome)
    (hj : Away s.world j leader) : Away (run env s actions).world j leader := by
  have hall : Sound (run env s actions).world ∧
      (run env s actions).world.party leader = .ended k leader outcome ∧
        Away (run env s actions).world j leader := by
    refine run_induction (P := fun s => Sound s.world ∧
      s.world.party leader = .ended k leader outcome ∧ Away s.world j leader) actions
      ⟨hw, hleader, hj⟩ ?_
    rintro s a s' ⟨hw, hleader, hj⟩ hs
    refine ⟨sound_step hw hs, ended_step hs hleader, ?_⟩
    rcases world_step hs with hsame | hstep
    · rw [hsame]
      exact hj
    · exact hstep.away hw hleader hj
  exact hall.2.2

end World

end Round5.SharedCache
