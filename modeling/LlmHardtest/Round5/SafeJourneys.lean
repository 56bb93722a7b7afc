import LlmHardtest.Round5.SafeFetch
set_option autoImplicit false

/-! The journey of a fetch: where it connects, which way it goes, what it tells, what it brings back. -/

namespace Round5.SafeHttp
open Python Rounds
open Failures (bind_eq_ok)
open SharedCache (Dict Headers Part isAscii isToken)

namespace SafeHttpClient
variable {c : SafeHttpClient} {url : Option Str} {headers : Headers} {s s' : Hop}

theorem get_cases (c : SafeHttpClient) (url : Option Str) (headers : Headers) :
    (c.get url headers).1 = [] ∧ (∃ e, (c.get url headers).2 = .error e) ∨
    ∃ output first, requestHeaders c.lib headers = .ok output ∧ normalizeUrl c.lib url = .ok first ∧
      (c.get url headers).1 = (c.loop.states (Hop.start output first)).map c.visit ∧
      (c.get url headers).2 = c.loop.result (Hop.start output first) := by
  rw [get]
  cases hbegin : c.begin url headers with
  | error e => exact .inl ⟨rfl, e, rfl⟩
  | ok s =>
    obtain ⟨output, houtput, h⟩ := bind_eq_ok.mp hbegin
    obtain ⟨first, hfirst, h⟩ := bind_eq_ok.mp h
    cases h
    exact .inr ⟨output, first, houtput, hfirst, rfl, rfl⟩

theorem next_again (h : c.loop.next s = .again s') : ∃ received, c.received s = .ok received ∧
    received.status ∈ redirectStatuses ∧ Leads c.lib s.url received.headers s'.url ∧
      s.redirects < c.maxRedirects ∧ s'.url.key ∉ s.seen ∧ s' = s.follow c.lib s'.url ∧
      (c.round s).1 = 0 := by
  obtain ⟨htaken, received, hreceived, hstatus, h⟩ :=
    round_again.mp (Prod.ext rfl h : c.round s = ((c.round s).1, .again s'))
  obtain ⟨hleads, hleft, hnew, hs'⟩ := redirect_eq_ok.mp h
  exact ⟨received, hreceived, hstatus, hleads, hleft, hnew, hs', htaken⟩

/-- The visits have numbers, by which the resolver and the transport are told them. -/
theorem redirects_eq {before after : List Hop} {first : Hop} (h0 : first.redirects = 0)
    (hsplit : c.loop.states first = before ++ s :: after) : s.redirects = before.length := by
  refine Loop.along (I := fun before s => s.redirects = before.length) h0 ?_ hsplit
  intro before t t' ht hnext
  obtain ⟨_, -, -, -, -, -, hs', -⟩ := next_again hnext
  rw [hs', List.length_append, ← ht]
  rfl

/-- What a fetch shows at a position comes from a state at this position. -/
theorem visit_at {i : Nat} {v : Visit} (hv : (c.get url headers).1[i]? = some v) :
    ∃ output first before s after, requestHeaders c.lib headers = .ok output ∧
      normalizeUrl c.lib url = .ok first ∧
      c.loop.states (Hop.start output first) = before ++ s :: after ∧ before.length = i ∧
      (c.get url headers).1 = (before ++ s :: after).map c.visit ∧ v = c.visit s ∧
      s.redirects = i := by
  rcases get_cases c url headers with ⟨hnil, -⟩ | ⟨output, first, houtput, hfirst, hget, -⟩
  · rw [hnil] at hv
    cases hv
  · rw [hget, List.getElem?_map] at hv
    obtain ⟨s, hs, rfl⟩ := Option.map_eq_some_iff.mp hv
    obtain ⟨hi, hs⟩ := List.getElem?_eq_some_iff.mp hs
    have hsplit : c.loop.states (Hop.start output first) =
        (c.loop.states (Hop.start output first)).take i ++
          s :: (c.loop.states (Hop.start output first)).drop (i + 1) := by
      rw [← hs, ← List.drop_eq_getElem_cons hi, List.take_append_drop]
    have hlength : ((c.loop.states (Hop.start output first)).take i).length = i := by
      rw [List.length_take]
      omega
    exact ⟨output, first, _, s, _, houtput, hfirst, hsplit, hlength, hsplit ▸ hget, rfl,
      (redirects_eq rfl hsplit).trans hlength⟩

theorem request_of_visit {r : Request} (hr : (c.visit s).request = some r) :
    c.request s = .ok r ∧ (c.visit s).reply = some (c.transport s.redirects r) := by
  simp only [visit] at hr ⊢
  cases h : c.request s with
  | error e =>
    rw [h] at hr
    cases hr
  | ok r' =>
    rw [h] at hr
    cases hr
    exact ⟨rfl, rfl⟩

/-! ## Where it connects -/

/-- What a hop sends: to the first address of its own answer, of which all are public, in the name of
its own URL, with headers that are one line each and a Host that only the client sets. -/
structure Pinned (lib : Library) (url : Url) (answer : Answer) (r : Request) : Prop where
  vetted : Vetted lib answer r.ip
  port : r.port = url.port
  serverName : r.serverName = url.host
  target : r.target = url.target
  host : ("Host".toList, hostValue lib url) ∈ r.headers
  hostOnce : ∀ h ∈ r.headers, lib.unicode.lowerStr h.1 = "host".toList →
    h = ("Host".toList, hostValue lib url)
  valid : ∀ h ∈ r.headers, h = ("Host".toList, hostValue lib url) ∨ ValidHeader h

end SafeHttpClient

theorem mem_dictSet_self {β : Type} (key : Str) (value : β) (es : List (Str × β)) :
    (key, value) ∈ dictSet key value es := by
  induction es with
  | nil => exact List.mem_singleton_self _
  | cons e es ih =>
    rw [dictSet]
    split
    · exact List.mem_cons_self
    · exact List.mem_cons_of_mem _ ih

theorem mem_dropCredentials {lib : Library} {headers : Dict} {h : Str × Str} :
    h ∈ dropCredentials lib headers ↔ h ∈ headers ∧ isCredential lib h.1 = false := by
  rw [dropCredentials, List.mem_filter, Bool.not_eq_true']

theorem lowerStr_host (lib : Library) : lib.unicode.lowerStr "Host".toList = "host".toList := by
  simp [UnicodeData.lowerStr, lib.unicode.lower_ascii]

theorem host_not_credential (lib : Library) : isCredential lib "Host".toList = false := by
  rw [isCredential, lowerStr_host]
  decide

theorem callers_dropCredentials {lib : Library} {headers : Dict} (h : Callers lib headers) :
    Callers lib (dropCredentials lib headers) :=
  fun e he => h e (mem_dropCredentials.mp he).1

namespace SafeHttpClient
variable {c : SafeHttpClient} {url : Option Str} {headers : Headers} {s s' : Hop}

theorem callers_follow (h : Callers c.lib s.requestHeaders) (url : Url) :
    Callers c.lib (s.follow c.lib url).requestHeaders := by
  simp only [Hop.follow]
  split
  · exact callers_dropCredentials h
  · exact h

theorem callers_states {output : Dict} {first : Url} (houtput : requestHeaders c.lib headers = .ok output) :
    ∀ s ∈ c.loop.states (Hop.start output first), Callers c.lib s.requestHeaders := by
  refine Loop.forall_states (I := fun s : Hop => Callers c.lib s.requestHeaders) (callers_of_ok houtput) ?_
  intro t t' ht hnext
  obtain ⟨_, -, -, -, -, -, hs', -⟩ := next_again hnext
  rw [hs']
  exact callers_follow ht _

theorem pinned_of_request {r : Request} (hcallers : Callers c.lib s.requestHeaders)
    (hr : c.request s = .ok r) : Pinned c.lib s.url (c.answer s) r := by
  obtain ⟨hvetted, hr⟩ := request_eq_ok.mp hr
  refine ⟨hvetted, by rw [hr], by rw [hr], by rw [hr], ?_, ?_, ?_⟩
  · rw [hr]
    exact mem_dictSet_self _ _ _
  · intro h hh hname
    rw [hr] at hh
    rcases mem_dictSet hh with rfl | hh
    · rfl
    · exact absurd hname (hcallers h hh).2
  · intro h hh
    rw [hr] at hh
    exact (mem_dictSet hh).imp_right fun hh => (hcallers h hh).1

/-- The hops of a fetch: each asks for its own name once, and whatever it sends is pinned to that
answer. -/
structure Anchored (c : SafeHttpClient) (visits : List Visit) : Prop where
  asked : ∀ i v, visits[i]? = some v → v.answer = c.resolver i v.url.host v.url.port
  sent : ∀ i v r, visits[i]? = some v → v.request = some r →
    v.reply = some (c.transport i r) ∧ Pinned c.lib v.url v.answer r

theorem get_anchored (c : SafeHttpClient) (url : Option Str) (headers : Headers) :
    Anchored c (c.get url headers).1 where
  asked i v hv := by
    obtain ⟨output, first, before, s, after, -, -, -, -, -, rfl, hi⟩ := visit_at hv
    rw [← hi]
    rfl
  sent i v r hv hr := by
    obtain ⟨output, first, before, s, after, houtput, -, hsplit, -, -, rfl, hi⟩ := visit_at hv
    obtain ⟨hrequest, hreply⟩ := request_of_visit hr
    refine ⟨by rw [hreply, hi], ?_⟩
    exact pinned_of_request (callers_states houtput s (by rw [hsplit]; simp)) hrequest

/-! ## Which way it goes -/

/-- A visit is followed by the one that its redirect names; its body stays unread. -/
def Follows (c : SafeHttpClient) (v v' : Visit) : Prop :=
  ∃ reply received, v.reply = some reply ∧ receive c.lib reply = .ok received ∧
    received.status ∈ redirectStatuses ∧ Leads c.lib v.url received.headers v'.url ∧ v.taken = 0

theorem received_eq_ok {received : Received} : c.received s = .ok received ↔
    ∃ r, c.request s = .ok r ∧ receive c.lib (c.transport s.redirects r) = .ok received := bind_eq_ok

theorem visit_of_request {r : Request} (hr : c.request s = .ok r) :
    (c.visit s).request = some r ∧ (c.visit s).reply = some (c.transport s.redirects r) := by
  simp only [visit, hr]
  exact ⟨rfl, rfl⟩

theorem follows_of_next (h : c.loop.next s = .again s') : Follows c (c.visit s) (c.visit s') := by
  obtain ⟨received, hreceived, hstatus, hleads, -, -, -, htaken⟩ := next_again h
  obtain ⟨r, hr, hreceive⟩ := received_eq_ok.mp hreceived
  exact ⟨_, received, (visit_of_request hr).2, hreceive, hstatus, hleads, htaken⟩

/-- The visits are a path without a loop from the caller's URL, with a redirect for each step and no
more of these than allowed. -/
structure Path (c : SafeHttpClient) (url : Option Str) (visits : List Visit) : Prop where
  first : ∀ v ∈ visits.head?, normalizeUrl c.lib url = .ok v.url
  steps : List.IsChain (Follows c) visits
  fresh : (visits.map fun v => v.url.key).Nodup
  short : visits.length ≤ c.maxRedirects + 1

theorem get_path (c : SafeHttpClient) (url : Option Str) (headers : Headers) :
    Path c url (c.get url headers).1 := by
  rcases get_cases c url headers with ⟨hnil, -⟩ | ⟨output, first, -, hfirst, hget, -⟩
  · rw [hnil]
    exact ⟨by rintro v ⟨⟩, List.isChain_nil, List.nodup_nil, Nat.zero_le _⟩
  rw [hget]
  refine ⟨?_, ?_, ?_, ?_⟩
  · obtain ⟨rest, hrest⟩ := c.loop.head_states (Hop.start output first)
    rw [hrest]
    intro v hv
    cases hv
    exact hfirst
  · refine (List.isChain_map _).mpr ?_
    exact (c.loop.chain_states _).imp fun t t' h => follows_of_next h
  · rw [List.map_map]
    refine Loop.nodup_states (fun s : Hop => s.url.key) Hop.seen rfl ?_
    intro t t' h
    obtain ⟨_, -, -, -, -, hnew, hs', -⟩ := next_again h
    exact ⟨by rw [hs']; rfl, hnew⟩
  · rw [List.length_map]
    exact c.loop.length_states _

/-! ## What it tells -/

def Loyal (origins : List (Str × Nat)) : Prop := ∀ o ∈ origins, origins.head? = some o

instance (origins : List (Str × Nat)) : Decidable (Loyal origins) :=
  inferInstanceAs (Decidable (∀ o ∈ origins, _))

/-- The headers of the caller that a hop passes on: without credentials once another origin has been
visited. -/
def passedOn (lib : Library) (output : Dict) (origins : List (Str × Nat)) : Dict :=
  if Loyal origins then output else dropCredentials lib output

theorem loyal_concat {origins : List (Str × Nat)} {o p : Str × Nat} :
    Loyal (origins ++ [o] ++ [p]) ↔ Loyal (origins ++ [o]) ∧ p = o := by
  have hhead : (origins ++ [o] ++ [p]).head? = (origins ++ [o]).head? := by
    cases origins <;> rfl
  unfold Loyal
  rw [hhead]
  constructor
  · intro h
    have ho := h o (by simp)
    have hp := h p (by simp)
    exact ⟨fun q hq => h q (List.mem_append_left _ hq), Option.some.inj (hp.symm.trans ho)⟩
  · rintro ⟨h, rfl⟩ q hq
    rcases List.mem_append.mp hq with hq | hq
    · exact h q hq
    · rw [List.mem_singleton.mp hq]
      exact h p (by simp)

theorem dropCredentials_twice (lib : Library) (output : Dict) :
    dropCredentials lib (dropCredentials lib output) = dropCredentials lib output := by
  simp [dropCredentials, List.filter_filter]

theorem requestHeaders_states {output : Dict} {first : Url} {before after : List Hop}
    (hsplit : c.loop.states (Hop.start output first) = before ++ s :: after) :
    s.requestHeaders = passedOn c.lib output ((before ++ [s]).map fun t => t.url.origin) := by
  refine Loop.along (I := fun before s => s.requestHeaders =
    passedOn c.lib output ((before ++ [s]).map fun t => t.url.origin)) ?_ ?_ hsplit
  · exact (if_pos fun o ho => by rw [List.mem_singleton.mp ho]; rfl).symm
  · intro before t t' ht hnext
    obtain ⟨_, -, -, -, -, -, hs', -⟩ := next_again hnext
    simp only [List.map_append, List.map_cons, List.map_nil] at ht ⊢
    have hheaders : t'.requestHeaders = if t'.url.origin ≠ t.url.origin then
        dropCredentials c.lib t.requestHeaders else t.requestHeaders := by
      rw [hs']
      rfl
    rw [hheaders, ht, passedOn, passedOn]
    simp only [loyal_concat]
    by_cases hloyal : Loyal (before.map (fun t => t.url.origin) ++ [t.url.origin])
    · by_cases hsame : t'.url.origin = t.url.origin
      · rw [if_neg (by simpa using hsame), if_pos hloyal, if_pos ⟨hloyal, hsame⟩]
      · rw [if_pos hsame, if_pos hloyal, if_neg fun h => hsame h.2]
    · rw [if_neg hloyal, dropCredentials_twice, ite_self, if_neg fun h => hloyal h.1]

def originsUpTo (visits : List Visit) (i : Nat) : List (Str × Nat) :=
  (visits.take (i + 1)).map fun v => v.url.origin

/-- The requests of a fetch tell what the caller said, and nothing that is a credential once the fetch
has been to another origin, even when it comes back. -/
structure Discreet (c : SafeHttpClient) (headers : Headers) (visits : List Visit) : Prop where
  told : ∀ i v r, visits[i]? = some v → v.request = some r →
    ∃ output, requestHeaders c.lib headers = .ok output ∧
      r.headers = dictSet "Host".toList (hostValue c.lib v.url)
        (passedOn c.lib output (originsUpTo visits i))
  silent : ∀ i v r, visits[i]? = some v → v.request = some r → ¬ Loyal (originsUpTo visits i) →
    ∀ h ∈ r.headers, isCredential c.lib h.1 = false

theorem told_headers (c : SafeHttpClient) (url : Option Str) (headers : Headers) {i : Nat} {v : Visit}
    {r : Request} (hv : (c.get url headers).1[i]? = some v) (hr : v.request = some r) :
    ∃ output, requestHeaders c.lib headers = .ok output ∧
      r.headers = dictSet "Host".toList (hostValue c.lib v.url)
        (passedOn c.lib output (originsUpTo (c.get url headers).1 i)) := by
  obtain ⟨output, first, before, s, after, houtput, -, hsplit, hi, hget, rfl, -⟩ := visit_at hv
  obtain ⟨hrequest, -⟩ := request_of_visit hr
  have horigins : originsUpTo (c.get url headers).1 i =
      (before ++ [s]).map fun t => t.url.origin := by
    have htake : (before ++ s :: after).take (i + 1) = before ++ [s] := by
      rw [← hi, List.take_append, List.take_of_length_le (by omega)]
      simp
    rw [originsUpTo, hget, ← List.map_take, htake, List.map_map]
    rfl
  refine ⟨output, houtput, ?_⟩
  rw [(request_eq_ok.mp hrequest).2, horigins, ← requestHeaders_states hsplit]
  rfl

theorem get_discreet (c : SafeHttpClient) (url : Option Str) (headers : Headers) :
    Discreet c headers (c.get url headers).1 where
  told _ _ _ := told_headers c url headers
  silent i v r hv hr hloyal h hh := by
    obtain ⟨output, -, hheaders⟩ := told_headers c url headers hv hr
    rw [hheaders, passedOn, if_neg hloyal] at hh
    rcases mem_dictSet hh with rfl | hh
    · exact host_not_credential c.lib
    · exact (mem_dropCredentials.mp hh).2

/-! ## What it brings back -/

def content (items : List (Option Bytes)) : Bytes := (items.filterMap id).flatten

@[simp] theorem content_cons (chunk : Bytes) (items : List (Option Bytes)) :
    content (some chunk :: items) = chunk ++ content items := rfl

theorem readChunks_ok {limit total taken : Nat} {ending : Option Thrown} {chunks : List Bytes}
    {items : List (Option Bytes)} {body : Bytes} (htotal : total ≤ limit) :
    readChunks limit ending total chunks items = (taken, .ok body) ↔
      ending = none ∧ taken = items.length ∧ ∃ cs : List Bytes, items = cs.map some ∧
        body = chunks.flatten ++ cs.flatten ∧ total + cs.flatten.length ≤ limit := by
  induction items generalizing total chunks taken with
  | nil =>
    cases ending with
    | none =>
      constructor
      · rintro ⟨⟩
        exact ⟨rfl, rfl, [], rfl, by simp, by simpa using htotal⟩
      · rintro ⟨-, rfl, cs, hcs, rfl, -⟩
        rw [List.map_eq_nil_iff.mp hcs.symm, List.flatten_nil, List.append_nil]
        rfl
    | some t => exact iff_of_false (fun h => by cases h) (by rintro ⟨⟨⟩, -⟩)
  | cons item items ih =>
    cases item with
    | none =>
      refine iff_of_false (fun h => by cases h) ?_
      rintro ⟨-, -, cs, hcs, -⟩
      cases cs <;> cases hcs
    | some chunk =>
      rw [readChunks]
      dsimp only
      by_cases hlimit : limit < total + chunk.length
      · rw [if_pos hlimit]
        refine iff_of_false (fun h => by cases h) ?_
        rintro ⟨-, -, cs, hcs, -, hle⟩
        cases cs with
        | nil => cases hcs
        | cons b cs =>
          cases hcs
          rw [List.flatten_cons, List.length_append] at hle
          omega
      · rw [if_neg hlimit]
        cases hread : readChunks limit ending (total + chunk.length) (chunks ++ [chunk]) items with
        | mk n result =>
          constructor
          · intro h
            cases h
            obtain ⟨hending, rfl, cs, rfl, rfl, hle⟩ := (ih (by omega)).mp hread
            refine ⟨hending, rfl, chunk :: cs, rfl, by simp, ?_⟩
            rw [List.flatten_cons, List.length_append]
            omega
          · rintro ⟨hending, rfl, cs, hcs, rfl, hle⟩
            cases cs with
            | nil => cases hcs
            | cons b cs =>
              cases hcs
              rw [List.flatten_cons, List.length_append] at hle
              have hbody : chunks.flatten ++ (chunk :: cs).flatten =
                  (chunks ++ [chunk]).flatten ++ cs.flatten := by simp
              have hfits : total + chunk.length + cs.flatten.length ≤ limit := by omega
              have hrest := (ih (by omega)).mpr ⟨hending, rfl, cs, rfl, hbody, hfits⟩
              cases hread.symm.trans hrest
              rfl

/-- What has been taken before the last chunk fits. -/
theorem readChunks_taken {limit total taken : Nat} {ending : Option Thrown} {chunks : List Bytes}
    {items : List (Option Bytes)} {result : Except Failure Bytes} (htotal : total ≤ limit)
    (h : readChunks limit ending total chunks items = (taken, result)) :
    taken ≤ items.length ∧ total + (content (items.take (taken - 1))).length ≤ limit := by
  induction items generalizing total chunks taken with
  | nil =>
    cases ending <;> cases h <;> exact ⟨Nat.zero_le _, by simpa [content] using htotal⟩
  | cons item items ih =>
    cases item with
    | none =>
      cases h
      exact ⟨by simp, by simpa [content] using htotal⟩
    | some chunk =>
      rw [readChunks] at h
      dsimp only at h
      by_cases hlimit : limit < total + chunk.length
      · rw [if_pos hlimit] at h
        cases h
        exact ⟨by simp, by simpa [content] using htotal⟩
      · rw [if_neg hlimit] at h
        cases hread : readChunks limit ending (total + chunk.length) (chunks ++ [chunk]) items with
        | mk n result' =>
          rw [hread] at h
          cases h
          obtain ⟨hn, hle⟩ := ih (by omega) hread
          refine ⟨Nat.succ_le_succ hn, ?_⟩
          cases n with
          | zero => simpa [content] using htotal
          | succ n =>
            rw [Nat.add_sub_cancel] at hle ⊢
            rw [List.take_succ_cons, content_cons, List.length_append]
            omega

theorem checkLength_eq_ok {lengths : List Str} : c.checkLength lengths = .ok () ↔
    ∀ length ∈ lengths.head?, ∃ n, pyInt c.lib.unicode length = .ok n ∧ n ≤ c.maxBodyBytes := by
  cases lengths with
  | nil => exact iff_of_true rfl (by rintro _ ⟨⟩)
  | cons length rest =>
    simp only [checkLength, List.head?_cons, Option.mem_some_iff, forall_eq']
    cases pyInt c.lib.unicode length with
    | error r => exact iff_of_false (fun h => by cases h) (by rintro ⟨_, ⟨⟩, -⟩)
    | ok n =>
      rw [check_eq_ok, decide_eq_true_eq]
      constructor
      · exact fun h => ⟨n, rfl, h⟩
      · rintro ⟨_, ⟨⟩, h⟩
        exact h

theorem accept_eq_ok {received : Received} {body : Body} : c.accept received = .ok body ↔
    200 ≤ received.status ∧ received.status < 300 ∧
    (∀ length ∈ received.lengths.head?,
      ∃ n, pyInt c.lib.unicode length = .ok n ∧ n ≤ c.maxBodyBytes) ∧
    received.body = some body := by
  rw [accept, check_bind, Bool.and_eq_true, decide_eq_true_eq, decide_eq_true_eq, and_assoc,
    ← checkLength_eq_ok, bind_eq_ok]
  refine and_congr_right fun _ => and_congr_right fun _ => ?_
  cases received.body with
  | none =>
    refine iff_of_false ?_ (by rintro ⟨-, ⟨⟩⟩)
    rintro ⟨_, -, h⟩
    cases h
  | some b =>
    constructor
    · rintro ⟨_, hlength, h⟩
      cases h
      exact ⟨hlength, rfl⟩
    · rintro ⟨hlength, h⟩
      cases h
      exact ⟨(), hlength, rfl⟩

/-- The answer of a hop brings the body: it is a success whose declared and actual length fit, and
every chunk has been taken. -/
def Delivers (c : SafeHttpClient) (v : Visit) (body : Bytes) : Prop :=
  ∃ reply received, v.reply = some reply ∧ receive c.lib reply = .ok received ∧
    200 ≤ received.status ∧ received.status < 300 ∧
    (∀ length ∈ received.lengths.head?,
      ∃ n, pyInt c.lib.unicode length = .ok n ∧ n ≤ c.maxBodyBytes) ∧
    ∃ chunks : List Bytes, received.body = some ⟨chunks.map some, none⟩ ∧ body = chunks.flatten ∧
      body.length ≤ c.maxBodyBytes ∧ v.taken = chunks.length

theorem reply_of_visit {reply : Reply} (hreply : (c.visit s).reply = some reply) :
    ∃ r, c.request s = .ok r ∧ reply = c.transport s.redirects r := by
  simp only [visit] at hreply
  cases hr : c.request s with
  | error e =>
    rw [hr] at hreply
    cases hreply
  | ok r =>
    rw [hr] at hreply
    cases hreply
    exact ⟨r, rfl, rfl⟩

theorem received_of_visit {reply : Reply} {received : Received}
    (hreply : (c.visit s).reply = some reply) (hreceive : receive c.lib reply = .ok received) :
    c.received s = .ok received := by
  obtain ⟨r, hr, rfl⟩ := reply_of_visit hreply
  exact received_eq_ok.mpr ⟨r, hr, hreceive⟩

theorem not_redirect {status : Int} (h200 : 200 ≤ status) (h300 : status < 300) :
    status ∉ redirectStatuses := by
  simp only [redirectStatuses, List.mem_cons, List.not_mem_nil, or_false]
  omega

theorem round_read {received : Received} (hreceived : c.received s = .ok received)
    (hstatus : received.status ∉ redirectStatuses) :
    c.round s = ((c.read received).1, .done (c.read received).2) := by
  rw [round, hreceived]
  exact if_neg hstatus

theorem round_delivers {body : Bytes} :
    c.loop.next s = .done (.ok body) ↔ Delivers c (c.visit s) body := by
  change (c.round s).2 = _ ↔ _
  constructor
  · intro h
    cases hreceived : c.received s with
    | error e =>
      rw [round, hreceived] at h
      cases h
    | ok received =>
      obtain ⟨r, hr, hreceive⟩ := received_eq_ok.mp hreceived
      by_cases hstatus : received.status ∈ redirectStatuses
      · rw [round, hreceived] at h
        dsimp only at h
        rw [if_pos hstatus] at h
        cases hredirect : c.redirect s received <;> rw [hredirect] at h <;> cases h
      · have hround := round_read hreceived hstatus
        rw [hround] at h
        cases hadmit : c.accept received with
        | error e =>
          rw [read, hadmit] at h
          cases h
        | ok b =>
          obtain ⟨h200, h300, hlengths, hbody⟩ := accept_eq_ok.mp hadmit
          have hread : c.read received =
              readChunks c.maxBodyBytes b.ending 0 [] b.chunks := by rw [read, hadmit]
          have hok : (c.read received).2 = .ok body := Next.done.inj h
          obtain ⟨hending, htaken, chunks, hchunks, hflat, hle⟩ :=
            (readChunks_ok (Nat.zero_le _)).mp (hread.symm.trans (Prod.ext rfl hok :
              c.read received = ((c.read received).1, .ok body)))
          have hb : b = ⟨chunks.map some, none⟩ := by
            cases b
            cases hending
            cases hchunks
            rfl
          refine ⟨_, received, (visit_of_request hr).2, hreceive, h200, h300, hlengths, chunks,
            hb ▸ hbody, by simpa using hflat, ?_, ?_⟩
          · rw [hflat, List.flatten_nil, List.nil_append]
            omega
          · change (c.round s).1 = _
            rw [hround]
            dsimp only
            rw [htaken, hchunks, List.length_map]
  · rintro ⟨reply, received, hreply, hreceive, h200, h300, hlengths, chunks, hbody, rfl, hle, htaken⟩
    have hreceived := received_of_visit hreply hreceive
    have hread : readChunks c.maxBodyBytes none 0 [] (chunks.map some) =
        ((chunks.map some).length, .ok chunks.flatten) :=
      (readChunks_ok (Nat.zero_le _)).mpr ⟨rfl, rfl, chunks, rfl, rfl, by omega⟩
    rw [round_read hreceived (not_redirect h200 h300), read,
      accept_eq_ok.mpr ⟨h200, h300, hlengths, hbody⟩]
    dsimp only
    rw [hread]

theorem taken_le {received : Received} {body : Body} (hreceived : c.received s = .ok received)
    (hbody : received.body = some body) :
    (content (body.chunks.take ((c.visit s).taken - 1))).length ≤ c.maxBodyBytes := by
  change (content (body.chunks.take ((c.round s).1 - 1))).length ≤ _
  by_cases hstatus : received.status ∈ redirectStatuses
  · rw [round, hreceived]
    dsimp only
    rw [if_pos hstatus]
    cases c.redirect s received <;> exact Nat.zero_le _
  · rw [round_read hreceived hstatus, read]
    cases hadmit : c.accept received with
    | error e => exact Nat.zero_le _
    | ok b =>
      obtain ⟨-, -, -, hb⟩ := accept_eq_ok.mp hadmit
      cases hbody.symm.trans hb
      have hle := (readChunks_taken (Nat.zero_le _) (Prod.ext rfl rfl :
        readChunks c.maxBodyBytes body.ending 0 [] body.chunks = (_, _))).2
      rwa [Nat.zero_add] at hle

/-- A fetch returns what its last hop delivers and nothing else, and no hop has taken more than a chunk
beyond the limit. -/
theorem get_delivers (c : SafeHttpClient) (url : Option Str) (headers : Headers) :
    (∀ body, (c.get url headers).2 = .ok body ↔
      ∃ v ∈ (c.get url headers).1.getLast?, Delivers c v body) ∧
    ∀ v ∈ (c.get url headers).1, ∀ reply received body, v.reply = some reply →
      receive c.lib reply = .ok received → received.body = some body →
        (content (body.chunks.take (v.taken - 1))).length ≤ c.maxBodyBytes := by
  rcases get_cases c url headers with ⟨hnil, e, he⟩ | ⟨output, first, -, -, hget, hresult⟩
  · rw [hnil, he]
    exact ⟨fun body => iff_of_false (by rintro ⟨⟩) (by rintro ⟨v, ⟨⟩, -⟩), by rintro v ⟨⟩⟩
  rw [hget, hresult]
  constructor
  · intro body
    obtain ⟨before, t, hsplit, hlast⟩ := c.loop.last_states (Hop.start output first)
    rw [hsplit, List.map_append, List.map_singleton, List.getLast?_concat]
    simp only [Option.mem_some_iff, exists_eq_left']
    rw [← round_delivers, hlast]
    exact ⟨fun h => by rw [h], fun h => Next.done.inj h⟩
  · intro v hv reply received body hreply hreceive hbody
    obtain ⟨s, -, rfl⟩ := List.mem_map.mp hv
    exact taken_le (received_of_visit hreply hreceive) hbody

end SafeHttpClient

end Round5.SafeHttp
