import Intellivault.Lib.Utf8
import Intellivault.Agent.Schemas
import Intellivault.Agent.Text
import Intellivault.Agent.Calls

/-!
# Fetching a source

`app/agent/fetch.py`: the guard that resolves a URL before anything connects to it, and
`fetch_text`, which follows redirects itself and guards every hop.  What leaves the process
is a `Fetch.Call`; what is computed by the standard library on URLs, addresses and HTML, by
httpx and by trafilatura is in `Fetch.Libs`.
-/

namespace Intellivault.Agent.Fetch

open Lib

/-! ## Exceptions -/

/-- What can be raised here; all but the first are raised by the libraries. -/
inductive Exn where
  | ssrf (message : String)
  | valueError (message : String)
  /-- A subclass of `ValueError`. -/
  | unicodeError (message : String)
  | osError (message : String)
  /-- Any other exception, with what `str` and `repr` print for it. -/
  | other (str repr : String)

namespace Exn

/-- `str(exc)` -/
def str : Exn → String
  | .ssrf message | .valueError message | .unicodeError message | .osError message => message
  | .other str _ => str

/-- The exception as its callers see it. -/
def toAgent : Exn → Agent.Exn
  | .ssrf message => .ssrf message
  | .valueError message => .other message ("ValueError(" ++ pyRepr message ++ ")")
  | .unicodeError message => .other message ("UnicodeError(" ++ pyRepr message ++ ")")
  | .osError message => .other message ("OSError(" ++ pyRepr message ++ ")")
  | .other str repr => .other str repr

def isOSError : Exn → Bool
  | .osError _ => true
  | _ => false

end Exn

/-! ## What the libraries compute -/

/-- The attributes of an address that `_ip_is_public` looks at. -/
structure AddressFlags where
  isPrivate : Bool
  isLoopback : Bool
  isLinkLocal : Bool
  isReserved : Bool
  isMulticast : Bool
  isUnspecified : Bool

/-- An `IPv4Address` or `IPv6Address`. -/
structure IPAddress extends AddressFlags where
  ipv4Mapped : Option AddressFlags

/-- `SplitResult`.  Reading `.port` gives the port or raises a `ValueError`. -/
structure SplitResult where
  scheme : String
  hostname : Option String
  port : Except String (Option Nat)

/-- The handlers `HTMLParser.feed` calls. -/
inductive HtmlEvent where
  | startTag (tag : String)
  | endTag (tag : String)
  | data (data : String)

structure Libs where
  urlsplit : String → Except Exn SplitResult
  urljoin : String → String → Except Exn String
  ipAddress : String → Except Exn IPAddress
  /-- The `HTTPStatusError` of a status. -/
  statusError : Nat → Exn
  /-- `trafilatura.extract(html, include_comments=False, include_tables=True)` -/
  extract : String → Except Exn (Option String)
  /-- `HTMLParser.feed(html)` -/
  feed : String → Except Exn (List HtmlEvent)

/-! ## The calls -/

/-- The head of a response. -/
structure Response where
  status : Nat
  /-- The `location` header. -/
  location : Option String

inductive Call where
  /-- `loop.getaddrinfo(host, port, type=socket.SOCK_STREAM)` -/
  | getaddrinfo (host : String) (port : Nat)
  /-- `client.stream("GET", url)`, up to the head of the response. -/
  | stream (url : String)
  /-- The next chunk of `response.aiter_bytes()`. -/
  | nextChunk

/-- Addresses are answered as the first member of each `sockaddr`; `aiter_bytes` never
yields an empty chunk. -/
def Call.Answer : Call → Type
  | .getaddrinfo _ _ => List String
  | .stream _ => Response
  | .nextChunk => Option { chunk : List UInt8 // chunk ≠ [] }

abbrev Coroutine (α : Type) : Type := Prog Call Call.Answer Exn α

def call (c : Call) : Coroutine c.Answer := Prog.perform c

/-- What a library function returns or raises. -/
def lift {α : Type} : Except Exn α → Coroutine α := Prog.ended

/-! ## The guard -/

def allowedSchemes : List String := ["http", "https"]

/-- `_ip_is_public` -/
def ipIsPublic (ip : IPAddress) : Bool :=
  let ip := ip.ipv4Mapped.getD ip.toAddressFlags
  ¬(ip.isPrivate ∨ ip.isLoopback ∨ ip.isLinkLocal ∨ ip.isReserved ∨ ip.isMulticast ∨
    ip.isUnspecified)

/-- `_resolve` -/
def resolve (host : String) (port : Nat) : Coroutine (List String) := call (.getaddrinfo host port)

/-- The last loop of `guard_url`. -/
def checkAddresses (libs : Libs) (host : String) : List String → Coroutine Unit
  | [] => return ()
  | address :: rest => do
      let ip ← lift (libs.ipAddress address)
      if ipIsPublic ip then checkAddresses libs host rest
      else .raise (.ssrf (host ++ " resolves to non-public " ++ address))

/-- `parts.port or (443 if parts.scheme == "https" else 80)` -/
def SplitResult.portOr (parts : SplitResult) (port : Option Nat) : Nat :=
  match port with
  | some 0 | none => if parts.scheme = "https" then 443 else 80
  | some port => port

/-- `guard_url` -/
def guardUrl (libs : Libs) (url : String) : Coroutine String := do
  let parts ← lift (libs.urlsplit url)
  let host := parts.hostname.getD ""
  if parts.scheme ∉ allowedSchemes ∨ host = "" then
    .raise (.ssrf ("blocked scheme or missing host: " ++ pyRepr url))
  else match parts.port with
    | .error _ => .raise (.ssrf ("invalid port in " ++ pyRepr url))
    | .ok port => do
        let addresses ← (resolve host (parts.portOr port)).handle fun x =>
          if x.isOSError then .raise (.ssrf ("cannot resolve " ++ pyRepr host ++ ": " ++ x.str))
          else .raise x
        if addresses = [] then .raise (.ssrf ("no DNS answer for " ++ pyRepr host))
        else do
          checkAddresses libs host addresses
          return url

/-! ## Text -/

def skipTags : List String := ["script", "style", "head", "noscript", "template"]

/-- `_TextExtractor` -/
structure TextExtractor where
  skipDepth : Nat := 0
  chunks : List String := []

/-- `text.split()` -/
def words (text : String) : List String :=
  ((text.toList.splitOnP isSpace).filter (· ≠ [])).map String.ofList

/-- `handle_starttag`, `handle_endtag` and `handle_data`. -/
def TextExtractor.on (parser : TextExtractor) : HtmlEvent → TextExtractor
  | .startTag tag =>
      if tag ∈ skipTags then { parser with skipDepth := parser.skipDepth + 1 } else parser
  | .endTag tag =>
      if tag ∈ skipTags then { parser with skipDepth := parser.skipDepth - 1 } else parser
  | .data data =>
      if parser.skipDepth = 0 ∧ strip data ≠ "" then
        { parser with chunks := parser.chunks ++ [strip data] }
      else parser

def TextExtractor.text (parser : TextExtractor) : String :=
  " ".intercalate (words (" ".intercalate parser.chunks))

/-- `_strip_tags` -/
def stripTags (libs : Libs) (html : String) : Except Exn String := do
  let events ← libs.feed html
  return (events.foldl TextExtractor.on {}).text

/-- `_extract_text` -/
def extractText (libs : Libs) (body : List UInt8) : Except Exn String :=
  let html := String.ofList (Utf8.decode body)
  let extracted := match libs.extract html with
    | .ok extracted => extracted
    | .error _ => none
  match extracted with
  | none | some "" => stripTags libs html
  | some text => .ok text

/-! ## The fetch -/

/-- `Settings`, as far as `fetch.py` reads them. -/
structure Settings where
  fetchMaxRedirects : Nat := 3
  fetchMaxBytes : Nat := 2000000
  sourceCharLimit : Nat := 12000

/-- `_read_capped`, with what has been read so far. -/
def readCapped (limit : Nat) (got : List UInt8) : Coroutine (List UInt8) :=
  .call .nextChunk fun
    | .error x => .raise x
    | .ok none => .ret (got.take limit)
    | .ok (some chunk) =>
        if limit ≤ (got ++ chunk.val).length then .ret ((got ++ chunk.val).take limit)
        else readCapped limit (got ++ chunk.val)
termination_by limit - got.length
decreasing_by
  have nonempty := List.length_pos_iff.mpr chunk.property
  rename_i room
  rw [List.length_append] at room ⊢
  omega

/-- Where a redirect goes, if the response is one. -/
def Response.redirect (response : Response) : Option String :=
  if 300 ≤ response.status ∧ response.status ≤ 399 then response.location.filter (· ≠ "") else none

/-- `response.raise_for_status()` -/
def raiseForStatus (libs : Libs) (response : Response) : Coroutine Unit :=
  if 200 ≤ response.status ∧ response.status ≤ 299 then return ()
  else .raise (libs.statusError response.status)

/-- The loop of `fetch_text`, with the hops it has left. -/
def fetchHops (libs : Libs) (settings : Settings) (url : String) : Nat → String → Coroutine FetchedDoc
  | 0, _ => .raise (.ssrf ("too many redirects for " ++ pyRepr url))
  | hops + 1, current => do
      let response ← call (.stream current)
      match Response.redirect response with
      | some location =>
          let target ← lift (libs.urljoin current location)
          let current ← guardUrl libs target
          fetchHops libs settings url hops current
      | none =>
          raiseForStatus libs response
          let body ← readCapped settings.fetchMaxBytes []
          let text ← lift (extractText libs body)
          return { url, text := String.ofList (text.toList.take settings.sourceCharLimit) }

/-- `fetch_text` -/
def fetchText (libs : Libs) (settings : Settings) (url : String) : Coroutine FetchedDoc := do
  let current ← guardUrl libs url
  fetchHops libs settings url (settings.fetchMaxRedirects + 1) current

end Intellivault.Agent.Fetch
