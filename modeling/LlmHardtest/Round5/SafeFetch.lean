import LlmHardtest.Library.Failures
import LlmHardtest.Round5.SafeHttp
set_option autoImplicit false

/-! What a whole fetch does, whatever the names resolve to and the servers answer. -/

namespace Round5.SafeHttp
open Python Rounds
open Failures (bind_eq_ok)
open SharedCache (Dict Headers Part isAscii isToken)

section Checks
variable {lib : Library}

@[simp]
theorem check_eq_ok {ok : Bool} {message : String} : check ok message = .ok () ↔ ok = true := by
  cases ok
  · exact iff_of_false (fun h => by cases h) (by decide)
  · exact iff_of_true rfl rfl

theorem check_bind {α : Type} {ok : Bool} {message : String} {f : Unit → Except Failure α} {a : α} :
    check ok message >>= f = .ok a ↔ ok = true ∧ f () = .ok a := by
  rw [bind_eq_ok]
  constructor
  · rintro ⟨_, hok, h⟩
    exact ⟨check_eq_ok.mp hok, h⟩
  · rintro ⟨hok, h⟩
    exact ⟨(), check_eq_ok.mpr hok, h⟩

structure ValidHeader (h : Str × Str) : Prop where
  ascii : isAscii h.1 = true
  token : isToken h.1 = true
  oneLine : '\r' ∉ h.2 ∧ '\n' ∉ h.2

theorem validHeader_of_ok {name value : Part} {h : Str × Str}
    (hok : validateHeader name value = .ok h) : ValidHeader h := by
  cases name with
  | other => cases hok
  | str name =>
    obtain ⟨hname, hok⟩ := check_bind.mp hok
    cases value with
    | other => cases hok
    | str text =>
      obtain ⟨htext, hok⟩ := check_bind.mp hok
      cases hok
      simp only [Bool.and_eq_true, Bool.not_eq_true', List.contains_eq_mem, decide_eq_false_iff_not]
        at hname htext
      exact ⟨hname.1, hname.2, htext⟩

theorem mem_dictSet {β : Type} {key : Str} {value : β} {es : List (Str × β)} {e : Str × β}
    (he : e ∈ dictSet key value es) : e = (key, value) ∨ e ∈ es := by
  induction es with
  | nil => exact .inl (List.mem_singleton.mp he)
  | cons e' es ih =>
    rw [dictSet] at he
    split at he
    · rcases List.mem_cons.mp he with rfl | he
      · exact .inl rfl
      · exact .inr (List.mem_cons_of_mem _ he)
    · rcases List.mem_cons.mp he with rfl | he
      · exact .inr List.mem_cons_self
      · exact (ih he).imp_right (List.mem_cons_of_mem _)

/-- What the caller may hand over: valid headers of which none is the client's own. -/
def Callers (lib : Library) (headers : Dict) : Prop :=
  ∀ h ∈ headers, ValidHeader h ∧ lib.unicode.lowerStr h.1 ≠ "host".toList

theorem callers_of_ok {headers : Headers} {output : Dict}
    (hok : requestHeaders lib headers = .ok output) : Callers lib output := by
  have hfold : ∀ (items : List (Part × Part)) (start : Dict), Callers lib start →
      items.foldlM (addHeader lib) start = .ok output → Callers lib output := by
    intro items
    induction items with
    | nil =>
      intro start hstart h
      cases h
      exact hstart
    | cons item items ih =>
      intro start hstart h
      obtain ⟨next, hnext, h⟩ := bind_eq_ok.mp (List.foldlM_cons.symm.trans h)
      refine ih next ?_ h
      obtain ⟨⟨name, value⟩, hvalid, hnext⟩ := bind_eq_ok.mp hnext
      obtain ⟨hhost, hnext⟩ := check_bind.mp hnext
      cases hnext
      intro e he
      rcases mem_dictSet he with rfl | he
      · exact ⟨validHeader_of_ok hvalid, bne_iff_ne.mp hhost⟩
      · exact hstart e he
  cases headers with
  | none =>
    cases hok
    exact fun h hh => by cases hh
  | mapping items => exact hfold items [] (fun h hh => by cases hh) hok
  | text => cases hok
  | iterable items => cases hok
  | other => cases hok

def Public (lib : Library) (item : Option Str) (ip : Str) : Prop :=
  ∃ address parsed, item = some address ∧ '%' ∉ address ∧ lib.ipAddress address = some parsed ∧
    parsed.isPublic = true ∧ ip = parsed.compressed

theorem approve_eq_ok {item : Option Str} {ip : Str} :
    approve lib item = .ok ip ↔ Public lib item ip := by
  cases item with
  | none => exact iff_of_false (fun h => by cases h) (by rintro ⟨_, _, ⟨⟩, -⟩)
  | some address =>
    rw [approve, check_bind]
    cases hparsed : lib.ipAddress address with
    | none =>
      refine iff_of_false (fun h => by cases h.2) ?_
      rintro ⟨_, _, ⟨⟩, -, h, -⟩
      cases hparsed.symm.trans h
    | some parsed =>
      simp only [check_bind, Bool.not_eq_true', List.contains_eq_mem, decide_eq_false_iff_not]
      constructor
      · rintro ⟨hzone, hpublic, h⟩
        cases h
        exact ⟨address, parsed, rfl, hzone, hparsed, hpublic, rfl⟩
      · rintro ⟨_, parsed', ⟨⟩, hzone, h, hpublic, rfl⟩
        cases hparsed.symm.trans h
        exact ⟨hzone, hpublic, rfl⟩

/-- All addresses of the answer are public and the text is that of the first. -/
def Vetted (lib : Library) (answer : Answer) (ip : Str) : Prop :=
  ∃ address rest, answer = .addresses (address :: rest) ∧ Public lib address ip ∧
    ∀ item ∈ rest, ∃ other, Public lib item other

theorem resolve_eq_ok {answer : Answer} {ip : Str} :
    resolve lib answer = .ok ip ↔ Vetted lib answer ip := by
  cases answer with
  | raises t => exact iff_of_false (fun h => by cases h) (by rintro ⟨_, _, ⟨⟩, -⟩)
  | addresses items =>
    cases items with
    | nil => exact iff_of_false (fun h => by cases h) (by rintro ⟨_, _, ⟨⟩, -⟩)
    | cons address rest =>
      simp only [resolve, bind_eq_ok, approve_eq_ok, Failures.mapM_eq_ok]
      constructor
      · rintro ⟨first, hfirst, ips, hrest, h⟩
        cases h
        refine ⟨address, rest, rfl, hfirst, fun item hitem => ?_⟩
        exact ((forall₂_partner hrest).1 item hitem).imp fun _ h => h.2
      · rintro ⟨_, _, h, hfirst, hrest⟩
        cases h
        obtain ⟨ips, hips⟩ : ∃ ips, List.Forall₂ (Public lib) rest ips := by
          clear hfirst
          induction rest with
          | nil => exact ⟨[], .nil⟩
          | cons item rest ih =>
            obtain ⟨other, hother⟩ := hrest item List.mem_cons_self
            obtain ⟨ips, hips⟩ := ih fun i hi => hrest i (List.mem_cons_of_mem _ hi)
            exact ⟨other :: ips, .cons hother hips⟩
        exact ⟨ip, hfirst, ips, hips, rfl⟩

end Checks

namespace SafeHttpClient
variable {c : SafeHttpClient} {s s' : Hop} {received : Received} {r : Request}

theorem request_eq_ok : c.request s = .ok r ↔ Vetted c.lib (c.answer s) r.ip ∧
    r = { ip := r.ip, port := s.url.port, serverName := s.url.host, target := s.url.target
          headers := dictSet "Host".toList (hostValue c.lib s.url) s.requestHeaders } := by
  rw [request]
  simp only [bind_eq_ok, resolve_eq_ok]
  constructor
  · rintro ⟨ip, hip, h⟩
    cases h
    exact ⟨hip, rfl⟩
  · rintro ⟨hip, h⟩
    exact ⟨r.ip, hip, congrArg Except.ok h.symm⟩

/-- The one location of a response leads from a URL to another. -/
def Leads (lib : Library) (url : Url) (headers : List (Str × Str)) (url' : Url) : Prop :=
  ∃ location nextUrl, headerValues lib headers "location" = [location] ∧ location ≠ [] ∧
    lib.urljoin url.canonical location = some nextUrl ∧
    normalizeUrl lib (some nextUrl) = .ok url'

theorem redirect_eq_ok : c.redirect s received = .ok s' ↔
    Leads c.lib s.url received.headers s'.url ∧ s.redirects < c.maxRedirects ∧
      s'.url.key ∉ s.seen ∧ s' = s.follow c.lib s'.url := by
  rw [redirect]
  split
  · rename_i location hlocation
    simp only [check_bind, Bool.not_eq_true', List.isEmpty_eq_false_iff, decide_eq_true_eq]
    cases hjoin : c.lib.urljoin s.url.canonical location with
    | none =>
      refine iff_of_false (fun h => by cases h.2.2) ?_
      rintro ⟨⟨location', nextUrl, hloc, -, hj, -⟩, -⟩
      cases hlocation.symm.trans hloc
      cases hjoin.symm.trans hj
    | some nextUrl =>
      constructor
      · rintro ⟨hne, hleft, h⟩
        obtain ⟨url, hurl, h⟩ := bind_eq_ok.mp h
        obtain ⟨hnew, h⟩ := check_bind.mp h
        cases h
        exact ⟨⟨location, nextUrl, hlocation, hne, hjoin, hurl⟩, hleft, of_decide_eq_true hnew, rfl⟩
      · rintro ⟨⟨location', nextUrl', hloc, hne, hj, hurl⟩, hleft, hnew, h⟩
        cases hlocation.symm.trans hloc
        cases hjoin.symm.trans hj
        exact ⟨hne, hleft, bind_eq_ok.mpr ⟨s'.url, hurl,
          check_bind.mpr ⟨decide_eq_true hnew, congrArg Except.ok h.symm⟩⟩⟩
  · rename_i hno
    refine iff_of_false (fun h => by cases h) ?_
    rintro ⟨⟨location, _, hloc, -⟩, -⟩
    exact hno location hloc

theorem round_again {taken : Nat} : c.round s = (taken, .again s') ↔ taken = 0 ∧
    ∃ received, c.received s = .ok received ∧ received.status ∈ redirectStatuses ∧
      c.redirect s received = .ok s' := by
  rw [round]
  cases hreceived : c.received s with
  | error e => exact iff_of_false (fun h => by cases h) (by rintro ⟨-, _, ⟨⟩, -⟩)
  | ok received =>
    simp only [Except.ok.injEq, exists_eq_left']
    by_cases hstatus : received.status ∈ redirectStatuses
    · rw [if_pos hstatus]
      cases hredirect : c.redirect s received with
      | error e => exact iff_of_false (fun h => by cases h) (by rintro ⟨-, -, ⟨⟩⟩)
      | ok next =>
        constructor
        · rintro ⟨⟩
          exact ⟨rfl, hstatus, rfl⟩
        · rintro ⟨rfl, -, h⟩
          cases h
          rfl
    · rw [if_neg hstatus]
      exact iff_of_false (fun h => by cases h) fun h => hstatus h.2.1

theorem redirects_lt (h : (c.round s).2 = .again s') :
    s.redirects < c.maxRedirects ∧ s'.redirects = s.redirects + 1 := by
  obtain ⟨-, received, -, -, hredirect⟩ := round_again.mp (Prod.ext rfl h : c.round s = (_, .again s'))
  obtain ⟨-, hleft, -, hs'⟩ := redirect_eq_ok.mp hredirect
  exact ⟨hleft, by rw [hs']; rfl⟩

variable (c)

theorem left_lt (s s' : Hop) (h : (c.round s).2 = .again s') :
    c.maxRedirects - s'.redirects < c.maxRedirects - s.redirects := by
  obtain ⟨hleft, hs'⟩ := redirects_lt h
  omega

def loop : Loop Hop (Except Failure Bytes) where
  next s := (c.round s).2
  left s := c.maxRedirects - s.redirects
  less := c.left_lt

def visit (s : Hop) : Visit where
  url := s.url
  answer := c.answer s
  request := (c.request s).toOption
  reply := (c.request s).toOption.map (c.transport s.redirects)
  taken := (c.round s).1

def begin (url : Option Str) (headers : Headers) : Except Failure Hop := do
  let output ← requestHeaders c.lib headers
  let normalized ← normalizeUrl c.lib url
  return Hop.start output normalized

def get (url : Option Str) (headers : Headers) : List Visit × Except Failure Bytes :=
  match c.begin url headers with
  | .error e => ([], .error e)
  | .ok s => ((c.loop.states s).map c.visit, c.loop.result s)

end SafeHttpClient

end Round5.SafeHttp
