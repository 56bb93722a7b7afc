import Mathlib.Order.Lattice
import Mathlib.Data.List.Basic
set_option autoImplicit false

/-! A lease with a fencing token on one thing: who holds it, until when, and what has happened to
it so far. Times come from clocks that need not agree, so nothing is assumed of their order. -/

namespace Fencing

/-- The state of a lease; `done` when nobody can hold it again. -/
structure Fence (W T : Type) where
  token : Nat := 0
  owner : Option W := none
  expiry : Option T := none
  done : Bool := false

/-- What happens to a lease, each with the time its actor read. -/
inductive Event (W T : Type) where
  | granted (worker : W) (token : Nat) (now expiry : T)
  | extended (worker : W) (token : Nat) (now expiry : T)
  | finished (worker : W) (token : Nat) (now : T)

variable {W T : Type}

def Event.expiry : Event W T → Option T
  | .granted _ _ _ x | .extended _ _ _ x => some x
  | .finished _ _ _ => none

def Event.grant : Event W T → Option (W × Nat)
  | .granted w k _ _ => some (w, k)
  | _ => none

def Event.isFinish : Event W T → Bool
  | .finished _ _ _ => true
  | _ => false

def grants (es : List (Event W T)) : List (W × Nat) := es.filterMap Event.grant
def expiries (es : List (Event W T)) : List T := es.filterMap Event.expiry

@[simp] theorem grants_concat (es : List (Event W T)) (e : Event W T) :
    grants (es ++ [e]) = grants es ++ e.grant.toList := by
  cases hg : e.grant <;> simp [grants, hg]

@[simp] theorem expiries_concat (es : List (Event W T)) (e : Event W T) :
    expiries (es ++ [e]) = expiries es ++ e.expiry.toList := by
  cases hx : e.expiry <;> simp [expiries, hx]

/-- The worker holds the lease under its own token, and it has not run out. -/
structure Fence.Held [LT T] (f : Fence W T) (w : W) (token : Nat) (now x : T) : Prop where
  live : f.done = false
  positive : 0 < token
  owner : f.owner = some w
  token : f.token = token
  expiry : f.expiry = some x
  unexpired : now < x

inductive Step [LinearOrder T] : Fence W T → Event W T → Fence W T → Prop
  | grant {f : Fence W T} {w : W} {now x : T} : f.done = false →
      (∀ y ∈ f.expiry, y ≤ now ∧ y ≤ x) →
      Step f (.granted w (f.token + 1) now x) ⟨f.token + 1, some w, some x, false⟩
  | extend {f : Fence W T} {w : W} {k : Nat} {now x y : T} : f.Held w k now y → y ≤ x →
      Step f (.extended w k now x) { f with expiry := some x }
  | finish {f : Fence W T} {w : W} {k : Nat} {now y : T} : f.Held w k now y →
      Step f (.finished w k now) { f with owner := none, expiry := none, done := true }

inductive Run [LinearOrder T] : Fence W T → List (Event W T) → Fence W T → Prop
  | nil {f : Fence W T} : Run f [] f
  | cons {f g h : Fence W T} {e : Event W T} {es : List (Event W T)} :
      Step f e g → Run g es h → Run f (e :: es) h

structure History [LinearOrder T] (f : Fence W T) (es : List (Event W T)) (g : Fence W T) :
    Prop where
  tokens : (grants es).map Prod.snd = List.range' 1 g.token
  owner : ∀ w ∈ g.owner, 0 < g.token → (grants es).getLast? = some (w, g.token)
  expiry : ∀ x ∈ g.expiry, 0 < g.token → (expiries es).getLast? = some x
  within : ∀ x ∈ g.expiry, (∀ y ∈ f.expiry, y ≤ x) ∧ ∀ y ∈ expiries es, y ≤ x
  free : g.expiry = none → g.done = false → f.expiry = none ∧ expiries es = []
  done : g.done = false → ∀ e ∈ es, e.isFinish = false

section Runs
variable [LinearOrder T] {f g h : Fence W T} {e : Event W T} {es es' : List (Event W T)}

theorem History.nil (hf : f.token = 0) : History f [] f where
  tokens := by simp [grants, hf]
  owner := by simp [hf]
  expiry := by simp [hf]
  within x hx := by
    refine ⟨fun y hy => ?_, by simp [expiries]⟩
    rw [Option.mem_unique hy hx]
  free hx _ := ⟨hx, rfl⟩
  done _ := by simp

theorem History.step (hh : History f es g) (hs : Step g e h) : History f (es ++ [e]) h := by
  cases hs with
  | @grant w now x hdone hold =>
    have hpast : (∀ y ∈ f.expiry, y ≤ x) ∧ ∀ y ∈ expiries es, y ≤ x := by
      cases hx : g.expiry with
      | none =>
        obtain ⟨h1, h2⟩ := hh.free hx hdone
        simp [h1, h2]
      | some y =>
        obtain ⟨h1, h2⟩ := hh.within y hx
        have hyx := (hold y hx).2
        exact ⟨fun z hz => (h1 z hz).trans hyx, fun z hz => (h2 z hz).trans hyx⟩
    refine ⟨?_, ?_, ?_, ?_, ?_, ?_⟩
    · rw [grants_concat, List.map_append, hh.tokens, List.range'_concat]
      simp [Event.grant, Nat.add_comm]
    · simp [Event.grant]
    · simp [Event.expiry]
    · rintro y ⟨⟩
      refine ⟨hpast.1, ?_⟩
      rw [expiries_concat]
      intro z hz
      rcases List.mem_append.mp hz with hz | hz
      · exact hpast.2 z hz
      · simp only [Event.expiry, Option.toList_some, List.mem_singleton] at hz
        exact hz.le
    · simp
    · intro _ e he
      rcases List.mem_append.mp he with he | he
      · exact hh.done hdone e he
      · rw [List.mem_singleton.mp he]
        rfl
  | @extend w k now x y hheld hyx =>
    obtain ⟨h1, h2⟩ := hh.within y hheld.expiry
    refine ⟨?_, ?_, ?_, ?_, ?_, ?_⟩
    · simpa [Event.grant] using hh.tokens
    · simpa [Event.grant] using hh.owner
    · simp [Event.expiry]
    · rintro z ⟨⟩
      refine ⟨fun z hz => (h1 z hz).trans hyx, ?_⟩
      rw [expiries_concat]
      intro z hz
      rcases List.mem_append.mp hz with hz | hz
      · exact (h2 z hz).trans hyx
      · simp only [Event.expiry, Option.toList_some, List.mem_singleton] at hz
        exact hz.le
    · simp
    · intro hdone e he
      rcases List.mem_append.mp he with he | he
      · exact hh.done hdone e he
      · rw [List.mem_singleton.mp he]
        rfl
  | @finish w k now y hheld =>
    refine ⟨?_, by simp, by simp, by simp, by simp, by simp⟩
    simpa [Event.grant] using hh.tokens

theorem Run.history (hr : Run g es' h) (hh : History f es g) : History f (es ++ es') h := by
  induction hr generalizing es with
  | nil => simpa using hh
  | cons hs _ ih => simpa using ih (hh.step hs)

theorem Run.split (hr : Run f (es ++ es') h) : ∃ g, Run f es g ∧ Run g es' h := by
  induction es generalizing f with
  | nil => exact ⟨f, .nil, hr⟩
  | cons e es ih =>
    cases hr with
    | cons hs hr =>
      obtain ⟨g, h1, h2⟩ := ih hr
      exact ⟨g, .cons hs h1, h2⟩

theorem Run.of_done (hr : Run f es h) (hd : f.done = true) : es = [] := by
  cases hr with
  | nil => rfl
  | cons hs _ =>
    exfalso
    cases hs with
    | grant hdone _ => rw [hd] at hdone; cases hdone
    | extend hheld _ => exact absurd (hheld.live.symm.trans hd) (by decide)
    | finish hheld => exact absurd (hheld.live.symm.trans hd) (by decide)

end Runs

/-- A history in which the lease `f` was handed on without overlap, each holder fenced off by the
next token, up to one finish. -/
structure Fenced [LinearOrder T] (f : Fence W T) (es : List (Event W T)) : Prop where
  tokens : (grants es).map Prod.snd = List.range' 1 (grants es).length
  granted : ∀ pre w k now x post, es = pre ++ .granted w k now x :: post →
    (∀ y ∈ f.expiry, y ≤ now) ∧ (∀ y ∈ expiries pre, y ≤ now) ∧ ∀ e ∈ pre, e.isFinish = false
  extended : ∀ pre w k now x post, es = pre ++ .extended w k now x :: post →
    (grants pre).getLast? = some (w, k) ∧
      ∃ y, (expiries pre).getLast? = some y ∧ now < y ∧ y ≤ x
  finished : ∀ pre w k now post, es = pre ++ .finished w k now :: post →
    (grants pre).getLast? = some (w, k) ∧ (∃ y, (expiries pre).getLast? = some y ∧ now < y) ∧
      post = []

section Runs
variable [LinearOrder T] {f g h : Fence W T} {es : List (Event W T)}

theorem History.held {w : W} {k : Nat} {now y : T} (hh : History f es g)
    (hheld : g.Held w k now y) :
    (grants es).getLast? = some (w, k) ∧ (expiries es).getLast? = some y ∧ now < y := by
  have hpos : 0 < g.token := hheld.token ▸ hheld.positive
  refine ⟨?_, hh.expiry y hheld.expiry hpos, hheld.unexpired⟩
  rw [← hheld.token]
  exact hh.owner w hheld.owner hpos

theorem Run.fenced (hf : f.token = 0) (hr : Run f es h) : Fenced f es := by
  have hstart : ∀ {pre post : List (Event W T)} {e : Event W T}, es = pre ++ e :: post →
      ∃ g g', History f pre g ∧ Step g e g' ∧ Run g' post h := by
    rintro pre post e rfl
    obtain ⟨g, hpre, hrest⟩ := hr.split
    cases hrest with
    | cons hs hpost => exact ⟨g, _, hpre.history (.nil hf), hs, hpost⟩
  have hall : History f es h := by simpa using hr.history (.nil hf)
  refine ⟨?_, ?_, ?_, ?_⟩
  · have hlen := congrArg List.length hall.tokens
    rw [List.length_map, List.length_range'] at hlen
    rw [hall.tokens, hlen]
  · intro pre w k now x post he
    obtain ⟨g, g', hh, hs, -⟩ := hstart he
    cases hs with
    | grant hdone hold =>
      refine ⟨?_, ?_, hh.done hdone⟩
      · cases hx : g.expiry with
        | none => simp [(hh.free hx hdone).1]
        | some z => exact fun y hy => ((hh.within z hx).1 y hy).trans (hold z hx).1
      · cases hx : g.expiry with
        | none => simp [(hh.free hx hdone).2]
        | some z => exact fun y hy => ((hh.within z hx).2 y hy).trans (hold z hx).1
  · intro pre w k now x post he
    obtain ⟨g, g', hh, hs, -⟩ := hstart he
    cases hs with
    | extend hheld hyx =>
      obtain ⟨h1, h2, h3⟩ := hh.held hheld
      exact ⟨h1, _, h2, h3, hyx⟩
  · intro pre w k now post he
    obtain ⟨g, g', hh, hs, hpost⟩ := hstart he
    cases hs with
    | finish hheld =>
      obtain ⟨h1, h2, h3⟩ := hh.held hheld
      exact ⟨h1, ⟨_, h2, h3⟩, hpost.of_done rfl⟩

end Runs

end Fencing
