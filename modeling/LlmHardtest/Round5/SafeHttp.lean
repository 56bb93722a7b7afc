import LlmHardtest.Library.Rounds
import LlmHardtest.Round5.CacheHeaders
set_option autoImplicit false

/-! The reference client of the outbound request task: HTTPS only, each hop's name resolved once and
pinned to a public address, redirects followed by hand. -/

namespace Round5.SafeHttp
open Python Rounds
open SharedCache (Dict Headers Part isAscii isToken)

/-- What the resolver, the transport or a body raises; an `interrupt` is no `Exception`. -/
inductive Thrown where
  | fetchError (message : Str)
  | exception (what : Nat)
  | interrupt (what : Nat)
  deriving DecidableEq, Repr

inductive Failure where
  | fetchError (message : Str)
  | raised (r : Raised)
  | interrupt (what : Nat)
  deriving DecidableEq, Repr

def refuse {α : Type} (message : String) : Except Failure α := .error (.fetchError message.toList)

def check (ok : Bool) (message : String) : Except Failure Unit :=
  if ok then .ok () else refuse message

/-- `except Exception as exc: raise FetchError(message) from exc` -/
def wrap (message : String) : Thrown → Failure
  | .interrupt what => .interrupt what
  | _ => .fetchError message.toList

def wrapOthers (message : String) : Thrown → Failure
  | .fetchError m => .fetchError m
  | t => wrap message t

/-! ## URLs -/

/-- What `urlsplit` returns with the properties read off it; `port` is `none` when it raises. -/
structure SplitResult where
  scheme : Str
  netloc : Str
  hostname : Option Str
  username : Option Str
  password : Option Str
  port : Option (Option Nat)
  path : Str
  query : Str
  fragment : Str

/-- An address of `ipaddress`; `ipv4Mapped` is `is_global` of the mapped address. -/
structure Address where
  version : Nat
  compressed : Str
  isGlobal : Bool
  ipv4Mapped : Option Bool

def Address.isPublic (a : Address) : Bool := a.ipv4Mapped.getD a.isGlobal

/-- The functions of the libraries; `none` where they raise. -/
structure Library where
  unicode : UnicodeData
  urlsplit : Str → Option SplitResult
  urlunsplit : Str → Str → Str → Str → Str → Str
  urljoin : Str → Str → Option Str
  ipAddress : Str → Option Address
  idna : Str → Option Str

structure Url where
  canonical : Str
  host : Str
  port : Nat
  target : Str
  deriving DecidableEq, Repr

def Url.origin (url : Url) : Str × Nat := (url.host, url.port)

def Url.key (url : Url) : Str × Nat × Str := (url.host, url.port, url.target)

variable (lib : Library)

/-- `parsed.port or 443` -/
def portOf : Option (Option Nat) → Except Failure Nat
  | none => refuse "invalid URL authority"
  | some none => .ok 443
  | some (some port) => .ok (if port = 0 then 443 else port)

def dropDot (host : Str) : Except Failure Str :=
  if endsWith host ['.'] then do
    let host := host.dropLast
    check (!host.isEmpty && !endsWith host ['.']) "invalid trailing dot"
    return host
  else .ok host

def hostOf (rawHost : Str) : Except Failure (Str × Str) :=
  match lib.ipAddress rawHost with
  | some literal =>
      let host := literal.compressed
      .ok (host, if literal.version = 6 then '[' :: host ++ [']'] else host)
  | none =>
      match lib.idna rawHost with
      | none => refuse "invalid DNS hostname"
      | some encoded => do
          let host := lib.unicode.lowerStr encoded
          check (!host.isEmpty && decide (host.length ≤ 253) &&
            (splitOnChar '.' host).all fun label => !label.isEmpty && decide (label.length ≤ 63))
            "invalid DNS hostname"
          return (host, host)

def normalizeUrl : Option Str → Except Failure Url
  | none => refuse "URL must be text"
  | some value =>
      match lib.urlsplit value with
      | none => refuse "invalid URL authority"
      | some parsed => do
          let hostname := parsed.hostname.getD []
          check (lib.unicode.lowerStr parsed.scheme == "https".toList && !parsed.netloc.isEmpty &&
            !hostname.isEmpty) "absolute HTTPS URL required"
          check (parsed.username.isNone && parsed.password.isNone && parsed.fragment.isEmpty)
            "credentials and fragments are forbidden"
          let port ← portOf parsed.port
          check (!hostname.contains '%') "zone identifiers are forbidden"
          let rawHost ← dropDot hostname
          let (host, urlHost) ← hostOf lib rawHost
          check (decide (1 ≤ port) && decide (port ≤ 65535)) "invalid port"
          let path := if parsed.path.isEmpty then ['/'] else parsed.path
          let target := path ++ if parsed.query.isEmpty then [] else '?' :: parsed.query
          let netloc := if port = 443 then urlHost else urlHost ++ ':' :: natStr port
          return { canonical := lib.urlunsplit "https".toList netloc path parsed.query []
                   host, port, target }

/-! ## Headers -/

def validateHeader : Part → Part → Except Failure (Str × Str)
  | .str name, value => do
      check (isAscii name && isToken name) "invalid header name"
      match value with
      | .str text => do
          check (!text.contains '\r' && !text.contains '\n') "invalid header value"
          return (name, text)
      | .other => refuse "invalid header value"
  | .other, _ => refuse "invalid header name"

def addHeader (output : Dict) (item : Part × Part) : Except Failure Dict := do
  let (name, value) ← validateHeader item.1 item.2
  check (lib.unicode.lowerStr name != "host".toList) "Host is owned by the client"
  return dictSet name value output

def requestHeaders : Headers → Except Failure Dict
  | .none => .ok []
  | .mapping items => items.foldlM (addHeader lib) []
  | _ => refuse "headers must be a mapping"

/-- `re.fullmatch(r"[0-9]+", item)` -/
def isDigits (item : Str) : Bool := !item.isEmpty && item.all Char.isDigit

/-- `[value for name, value in headers if name.lower() == wanted]` -/
def headerValues (headers : List (Str × Str)) (wanted : String) : List Str :=
  (headers.filter fun h => lib.unicode.lowerStr h.1 == wanted.toList).map Prod.snd

/-- `_response_headers`; `none` for a value that is not iterable, and for an item that is no pair. -/
def responseHeaders : Option (List (Option (Part × Part))) →
    Except Failure (List (Str × Str) × List Str)
  | none => refuse "response headers must be pairs"
  | some pairs => do
      let output ← pairs.mapM fun
        | none => refuse "response headers must be pairs"
        | some pair => validateHeader pair.1 pair.2
      let lengths := headerValues lib output "content-length"
      check (lengths.all isDigits) "invalid Content-Length"
      check (lengths.all fun item => lengths.head? == some item) "conflicting Content-Length"
      return (output, lengths)

/-- `name.lower() in {"authorization", "cookie"}` -/
def isCredential (name : Str) : Bool :=
  decide (lib.unicode.lowerStr name ∈ ["authorization".toList, "cookie".toList])

def dropCredentials (headers : Dict) : Dict := headers.filter fun h => !isCredential lib h.1

/-! ## The client -/

inductive Answer where
  | addresses (items : List (Option Str))
  | raises (t : Thrown)

structure Request where
  ip : Str
  port : Nat
  serverName : Str
  target : Str
  headers : Dict
  deriving DecidableEq, Repr

/-- The chunks of a body, `none` for one that is not bytes, and what the iterator raises after them. -/
structure Body where
  chunks : List (Option Bytes)
  ending : Option Thrown := none

/-- A mapping that the transport returns: `status` is `none` when it is absent or no integer, the others
when they are not iterable. What is absent reads as empty. -/
structure Response where
  status : Option Int
  headers : Option (List (Option (Part × Part)))
  body : Option Body

inductive Reply where
  | mapping (response : Response)
  | other
  | raises (t : Thrown)

/-- The client as `__init__` leaves it. The resolver and the transport may answer each call in another
way; they are told its number. -/
structure SafeHttpClient where
  lib : Library
  resolver : Nat → Str → Nat → Answer
  transport : Nat → Request → Reply
  maxRedirects : Nat
  maxBodyBytes : Nat

structure Hop where
  requestHeaders : Dict
  url : Url
  seen : List (Str × Nat × Str)
  redirects : Nat

def Hop.start (headers : Dict) (url : Url) : Hop := ⟨headers, url, [url.key], 0⟩

def Hop.follow (s : Hop) (url : Url) : Hop where
  requestHeaders :=
    if url.origin ≠ s.url.origin then dropCredentials lib s.requestHeaders else s.requestHeaders
  url := url
  seen := s.seen ++ [url.key]
  redirects := s.redirects + 1

def approve : Option Str → Except Failure Str
  | none => refuse "invalid DNS address"
  | some address => do
      check (!address.contains '%') "invalid DNS address"
      match lib.ipAddress address with
      | none => refuse "invalid DNS address"
      | some parsed => do
          check parsed.isPublic "non-global DNS address"
          return parsed.compressed

def resolve : Answer → Except Failure Str
  | .raises t => .error (wrap "DNS resolution failed" t)
  | .addresses [] => refuse "hostname did not resolve"
  | .addresses (address :: rest) => do
      let first ← approve lib address
      let _ ← rest.mapM (approve lib)
      return first

/-- `outgoing["Host"]` -/
def hostValue (url : Url) : Str :=
  let host := match lib.ipAddress url.host with
    | some literal => if literal.version = 6 then '[' :: url.host ++ [']'] else url.host
    | none => url.host
  if url.port = 443 then host else host ++ ':' :: natStr url.port

structure Received where
  status : Int
  headers : List (Str × Str)
  lengths : List Str
  body : Option Body

def receive : Reply → Except Failure Received
  | .raises t => .error (wrap "HTTPS transport failed" t)
  | .other => refuse "invalid response"
  | .mapping response =>
      match response.status with
      | none => refuse "invalid response status"
      | some status => do
          let (headers, lengths) ← responseHeaders lib response.headers
          return { status, headers, lengths, body := response.body }

def redirectStatuses : List Int := [301, 302, 303, 307, 308]

/-- The loop over the chunks: how many it takes, and what comes of them. -/
def readChunks (limit : Nat) (ending : Option Thrown) (total : Nat) (chunks : List Bytes) :
    List (Option Bytes) → Nat × Except Failure Bytes
  | [] =>
      match ending with
      | none => (0, .ok chunks.flatten)
      | some t => (0, .error (wrapOthers "response body failed" t))
  | none :: _ => (1, refuse "response chunks must be bytes")
  | some chunk :: rest =>
      let total := total + chunk.length
      if limit < total then (1, refuse "response body is too large")
      else
        let (taken, result) := readChunks limit ending total (chunks ++ [chunk]) rest
        (taken + 1, result)

namespace SafeHttpClient
variable (c : SafeHttpClient)

def answer (s : Hop) : Answer := c.resolver s.redirects s.url.host s.url.port

def request (s : Hop) : Except Failure Request := do
  let ip ← resolve c.lib (c.answer s)
  return { ip, port := s.url.port, serverName := s.url.host, target := s.url.target
           headers := dictSet "Host".toList (hostValue c.lib s.url) s.requestHeaders }

def received (s : Hop) : Except Failure Received := do
  let request ← c.request s
  receive c.lib (c.transport s.redirects request)

def redirect (s : Hop) (received : Received) : Except Failure Hop :=
  match headerValues c.lib received.headers "location" with
  | [location] => do
      check (!location.isEmpty) "redirect requires exactly one Location"
      check (decide (s.redirects < c.maxRedirects)) "too many redirects"
      match c.lib.urljoin s.url.canonical location with
      | none => refuse "invalid redirect"
      | some nextUrl => do
          let normalized ← normalizeUrl c.lib (some nextUrl)
          check (decide (normalized.key ∉ s.seen)) "redirect loop"
          return s.follow c.lib normalized
  | _ => refuse "redirect requires exactly one Location"

def checkLength : List Str → Except Failure Unit
  | [] => .ok ()
  | length :: _ =>
      match pyInt c.lib.unicode length with
      | .error r => .error (.raised r)
      | .ok length => check (decide (length ≤ c.maxBodyBytes)) "response body is too large"

def accept (received : Received) : Except Failure Body := do
  check (decide (200 ≤ received.status) && decide (received.status < 300)) "unexpected status"
  c.checkLength received.lengths
  match received.body with
  | none => refuse "response body is not iterable"
  | some body => return body

def read (received : Received) : Nat × Except Failure Bytes :=
  match c.accept received with
  | .error e => (0, .error e)
  | .ok body => readChunks c.maxBodyBytes body.ending 0 [] body.chunks

/-- One round of the loop: how many chunks it takes, and how it goes on. -/
def round (s : Hop) : Nat × Next Hop (Except Failure Bytes) :=
  match c.received s with
  | .error e => (0, .done (.error e))
  | .ok received =>
      if received.status ∈ redirectStatuses then
        match c.redirect s received with
        | .error e => (0, .done (.error e))
        | .ok s' => (0, .again s')
      else
        let (taken, result) := c.read received
        (taken, .done result)

end SafeHttpClient

structure Visit where
  url : Url
  answer : Answer
  request : Option Request
  reply : Option Reply
  taken : Nat

end Round5.SafeHttp
