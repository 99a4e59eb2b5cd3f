import Mathlib.Data.Seq.Basic
import Intellivault.Lib.Script
import Intellivault.Agent.Fetch

/-!
# What a fetch connects to, and what it keeps

Over every run of `fetch_text`, against any resolver that answers alike during the call and
any server: how many requests it makes, that each of them was cleared by the guard before, and
which bytes the text comes from.  A body may have no end, so it is a sequence.
-/

namespace Intellivault.Agent.Fetch

open Lib
open Stream' (Seq)

/-! ## The surroundings -/

/-- The body of the current response, and what of it has not been delivered. -/
structure Wire where
  body : Seq UInt8
  unread : Seq UInt8

/-- The resolver answers by a function; a server sends what it likes, in chunks as it likes. -/
def Web (dns : String → Nat → Except Exn (List String)) : Prog.Handler Call Call.Answer Exn Wire
  | .getaddrinfo host port, wire, r, wire' => r = dns host port ∧ wire' = wire
  | .stream _, wire, r, wire' =>
      (∃ x, r = .error x ∧ wire' = wire) ∨ ∃ response body, r = .ok response ∧ wire' = ⟨body, body⟩
  | .nextChunk, wire, r, wire' =>
      (∃ x, r = .error x ∧ wire' = wire) ∨ (r = .ok none ∧ wire.unread = .nil ∧ wire' = wire) ∨
        ∃ chunk rest, r = .ok (some chunk) ∧
          wire.unread = (Seq.ofList chunk.val).append rest ∧ wire' = { wire with unread := rest }

abbrev Log := List (Prog.Event Call Call.Answer Exn)

/-- The answers of the resolver. -/
def Real (dns : String → Nat → Except Exn (List String)) : Prog.Event Call Call.Answer Exn → Prop
  | ⟨.getaddrinfo host port, r⟩ => r = dns host port
  | _ => True

theorem real_of_web {dns : String → Nat → Except Exn (List String)} (c : Call) (wire : Wire)
    (r : Except Exn c.Answer) (wire' : Wire) (answered : Web dns c wire r wire') :
    Real dns ⟨c, r⟩ := by
  cases c with
  | getaddrinfo host port => exact answered.1
  | stream url => trivial
  | nextChunk => trivial

/-! ## The guard, before each request -/

/-- What `guard_url` lets pass: a URL with an allowed scheme and a host, and public addresses
of the host. -/
structure Passes (libs : Libs) (url host : String) (port : Nat) (addresses : List String) :
    Prop where
  parts : ∃ parts p, libs.urlsplit url = .ok parts ∧ parts.scheme ∈ allowedSchemes ∧
    parts.hostname = some host ∧ host ≠ "" ∧ parts.port = .ok p ∧ parts.portOr p = port
  answered : addresses ≠ []
  isPublic : ∀ a ∈ addresses, ∃ ip, libs.ipAddress a = .ok ip ∧ ipIsPublic ip

/-- The URL was resolved, and passed. -/
def Cleared (libs : Libs) (dns : String → Nat → Except Exn (List String)) (url : String)
    (log : Log) : Prop :=
  ∃ host port addresses, dns host port = .ok addresses ∧
    ⟨.getaddrinfo host port, .ok addresses⟩ ∈ log ∧ Passes libs url host port addresses

def isRequest : Prog.Event Call Call.Answer Exn → Bool
  | ⟨.stream _, _⟩ => true
  | _ => false

/-- How many requests were made. -/
def requests (log : Log) : Nat := log.countP isRequest

/-- No run makes more calls than this. -/
def callBound (settings : Settings) : Nat :=
  2 * settings.fetchMaxRedirects + settings.fetchMaxBytes + 3

/-- What `fetch_text` may call after which calls. -/
def Allowed (libs : Libs) (settings : Settings) (dns : String → Nat → Except Exn (List String))
    (log : Log) (c : Call) : Prop :=
  log.length < callBound settings ∧
    match c with
    | .stream url => requests log ≤ settings.fetchMaxRedirects ∧ Cleared libs dns url log
    | _ => True

section Guard

variable {libs : Libs} {settings : Settings} {dns : String → Nat → Except Exn (List String)}
  {past : Log} {url host : String}

/-- A host that is not missing. -/
theorem host_given {named : Option String} (given : named.getD "" ≠ "") :
    named = some (named.getD "") := by
  cases named with
  | none => exact (given rfl).elim
  | some host => rfl

theorem scripted_resolve {real : Prog.Event Call Call.Answer Exn → Prop} {allow : Log → Call → Prop}
    {done : Log → Except Exn (List String) → Prop} {port : Nat} :
    (resolve host port).Scripted real allow done past ↔ allow past (.getaddrinfo host port) ∧
      ∀ r, real ⟨.getaddrinfo host port, r⟩ → done (past ++ [⟨.getaddrinfo host port, r⟩]) r :=
  Prog.scripted_perform

theorem checkAddresses_scripted (addresses : List String) :
    (checkAddresses libs host addresses).Scripted (Real dns) (Allowed libs settings dns)
      (fun log r => log = past ∧
        ∀ u, r = .ok u → ∀ a ∈ addresses, ∃ ip, libs.ipAddress a = .ok ip ∧ ipIsPublic ip)
      past := by
  induction addresses with
  | nil => exact ⟨rfl, fun _ _ a mem => (List.not_mem_nil mem).elim⟩
  | cons address rest ih =>
      rw [checkAddresses, Prog.scripted_bind, lift, Prog.scripted_ended]
      cases parsed : libs.ipAddress address with
      | error x => exact ⟨rfl, nofun⟩
      | ok ip =>
          dsimp only
          split
          · rename_i isPublic
            refine ih.mono fun log r ⟨same, all⟩ => ⟨same, fun u returned a mem => ?_⟩
            rcases List.mem_cons.mp mem with rfl | mem
            · exact ⟨ip, parsed, isPublic⟩
            · exact all u returned a mem
          · exact ⟨rfl, nofun⟩

/-- The guard makes at most one call, and what it returns is the URL, cleared. -/
theorem guardUrl_scripted (room : past.length < callBound settings) :
    (guardUrl libs url).Scripted (Real dns) (Allowed libs settings dns)
      (fun log r => log.length ≤ past.length + 1 ∧ requests log = requests past ∧
        ∀ u, r = .ok u → u = url ∧ Cleared libs dns url log) past := by
  rw [guardUrl, Prog.scripted_bind, lift, Prog.scripted_ended]
  cases split : libs.urlsplit url with
  | error x => exact ⟨Nat.le_succ _, rfl, nofun⟩
  | ok parts =>
      dsimp only
      split
      · exact ⟨Nat.le_succ _, rfl, nofun⟩
      rename_i admitted
      rw [not_or, not_not] at admitted
      cases port : parts.port with
      | error x => exact ⟨Nat.le_succ _, rfl, nofun⟩
      | ok p =>
          dsimp only
          rw [Prog.scripted_bind, Prog.scripted_handle, scripted_resolve]
          refine ⟨⟨room, trivial⟩, fun r answer => ?_⟩
          have one : requests (past ++ [⟨.getaddrinfo (parts.hostname.getD "") (parts.portOr p), r⟩]) =
              requests past := List.countP_append
          have length : (past ++ [(⟨.getaddrinfo (parts.hostname.getD "") (parts.portOr p), r⟩ :
              Prog.Event Call Call.Answer Exn)]).length = past.length + 1 := List.length_append
          cases r with
          | error x =>
              dsimp only
              split <;> exact ⟨length.le, one, nofun⟩
          | ok addresses =>
              dsimp only
              split
              · exact ⟨length.le, one, nofun⟩
              rename_i answered
              rw [Prog.scripted_bind]
              refine (checkAddresses_scripted addresses).mono fun log r ⟨same, all⟩ => ?_
              rw [same]
              cases r with
              | error x => exact ⟨length.le, one, nofun⟩
              | ok u =>
                  refine ⟨length.le, one, fun u' same => ⟨(Except.ok.inj same).symm, ?_⟩⟩
                  refine ⟨_, _, addresses, Eq.symm answer,
                    List.mem_append_right _ (List.mem_singleton.mpr rfl),
                    ⟨parts, p, split, admitted.1, host_given admitted.2, admitted.2, port, rfl⟩,
                    answered, all u rfl⟩

end Guard

/-! ## The reading and the hops -/

section Hops

variable {libs : Libs} {settings : Settings} {dns : String → Nat → Except Exn (List String)}
  {past : Log} {url : String}

/-- Every chunk has a byte, so the cap is reached after so many of them. -/
theorem readCapped_scripted (got : List UInt8)
    (room : past.length + (settings.fetchMaxBytes - got.length) < callBound settings) :
    (readCapped settings.fetchMaxBytes got).Scripted (Real dns) (Allowed libs settings dns)
      (fun _ _ => True) past := by
  generalize hn : settings.fetchMaxBytes - got.length = n at room
  induction n using Nat.strong_induction_on generalizing got past with
  | h n ih =>
      rw [readCapped]
      refine ⟨⟨by omega, trivial⟩, fun r _ => ?_⟩
      have longer : (past ++ [(⟨.nextChunk, r⟩ : Prog.Event Call Call.Answer Exn)]).length =
          past.length + 1 := List.length_append
      match r with
      | .error x => trivial
      | .ok none => trivial
      | .ok (some chunk) =>
          dsimp only
          split
          · trivial
          rename_i below
          have nonempty := List.length_pos_iff.mpr chunk.property
          rw [List.length_append] at below
          refine ih _ ?_ (got ++ chunk.val) rfl ?_
          · rw [List.length_append]
            omega
          · rw [longer, List.length_append]
            omega

/-- A round of the loop: one request, and at most one lookup. -/
theorem fetchHops_scripted (hops : Nat) {current : String} (cleared : Cleared libs dns current past)
    (left : requests past + hops = settings.fetchMaxRedirects + 1)
    (length : past.length ≤ 1 + 2 * requests past) :
    (fetchHops libs settings url hops current).Scripted (Real dns) (Allowed libs settings dns)
      (fun _ _ => True) past := by
  induction hops generalizing past current with
  | zero => trivial
  | succ hops ih =>
      rw [fetchHops, Prog.scripted_bind]
      have room : past.length < callBound settings := by
        unfold callBound
        omega
      refine Prog.scripted_perform.mpr ⟨⟨room, by omega, cleared⟩, fun r _ => ?_⟩
      have one : requests (past ++ [⟨.stream current, r⟩]) = requests past + 1 :=
        List.countP_append
      have longer : (past ++ [(⟨.stream current, r⟩ : Prog.Event Call Call.Answer Exn)]).length =
          past.length + 1 := List.length_append
      cases r with
      | error x => trivial
      | ok response =>
          dsimp only
          split
          · rename_i location _
            rw [Prog.scripted_bind, lift, Prog.scripted_ended]
            cases libs.urljoin current location with
            | error x => trivial
            | ok target =>
                dsimp only
                rw [Prog.scripted_bind]
                refine (guardUrl_scripted (by unfold callBound; omega)).mono
                  fun log r ⟨lookup, same, passed⟩ => ?_
                cases r with
                | error x => trivial
                | ok u =>
                    obtain ⟨rfl, cleared⟩ := passed u rfl
                    exact ih cleared (by omega) (by omega)
          · rw [Prog.scripted_bind]
            unfold raiseForStatus
            split
            · refine Prog.scripted_bind.mpr ((readCapped_scripted [] ?_).mono fun log r _ => ?_)
              · unfold callBound
                simp only [List.length_nil]
                omega
              · cases r with
                | error x => trivial
                | ok body =>
                    dsimp only
                    rw [Prog.scripted_bind, lift, Prog.scripted_ended]
                    cases extractText libs body <;> trivial
            · trivial

theorem fetchText_scripted :
    (fetchText libs settings url).Scripted (Real dns) (Allowed libs settings dns)
      (fun _ _ => True) [] := by
  rw [fetchText, Prog.scripted_bind]
  have room : ([] : Log).length < callBound settings := by
    unfold callBound
    exact Nat.succ_pos _
  refine (guardUrl_scripted room).mono fun log r ⟨lookup, same, passed⟩ => ?_
  have none : requests log = 0 := same
  cases r with
  | error x => trivial
  | ok u =>
      obtain ⟨rfl, cleared⟩ := passed u rfl
      refine fetchHops_scripted _ cleared (by omega) ?_
      simp only [List.length_nil] at lookup
      omega

end Hops

/-! ## The bytes -/

section Bytes

variable {libs : Libs} {settings : Settings} {dns : String → Nat → Except Exn (List String)}
  {url : String} {wire : Wire}

theorem take_ofList_append {xs : List UInt8} {rest : Seq UInt8} {n : Nat}
    (enough : n ≤ xs.length ∨ rest = .nil) : ((Seq.ofList xs).append rest).take n = xs.take n := by
  induction xs generalizing n with
  | nil =>
      rw [Seq.ofList_nil, Seq.nil_append, List.take_nil]
      rcases enough with none | rfl
      · rw [Nat.le_zero.mp none, Seq.take_zero]
      · exact Seq.take_nil
  | cons x xs ih =>
      rw [Seq.ofList_cons, Seq.cons_append]
      cases n with
      | zero => exact Seq.take_zero
      | succ n =>
          rw [Seq.take_succ_cons, List.take_succ_cons, ih (enough.imp_left Nat.le_of_succ_le_succ)]

/-- What was read and what is unread make up the body, so what is returned is its beginning. -/
theorem readCapped_holds (limit : Nat) (got : List UInt8)
    (delivered : wire.body = (Seq.ofList got).append wire.unread) :
    (readCapped limit got).Holds (Web dns) (fun _ => True)
      (fun r wire' => ∀ bytes, r = .ok bytes → bytes = wire'.body.take limit) wire := by
  generalize hn : limit - got.length = n
  induction n using Nat.strong_induction_on generalizing got wire with
  | h n ih =>
      rw [readCapped]
      refine fun r wire' answered => ⟨trivial, ?_⟩
      rcases answered with ⟨x, rfl, rfl⟩ | ⟨rfl, done, rfl⟩ | ⟨chunk, rest, rfl, next, rfl⟩
      · exact nofun
      · rintro bytes ⟨⟩
        rw [delivered, take_ofList_append (.inr done)]
      · have delivered' : wire.body = (Seq.ofList (got ++ chunk.val)).append rest := by
          rw [delivered, next, Seq.ofList_append, Seq.append_assoc]
        dsimp only
        split
        · rename_i full
          rintro bytes ⟨⟩
          rw [delivered', take_ofList_append (.inl full)]
        · rename_i below
          have nonempty := List.length_pos_iff.mpr chunk.property
          rw [List.length_append] at below
          refine ih _ ?_ (got ++ chunk.val) delivered' rfl
          rw [List.length_append]
          omega

/-- The document has the asked URL, and the text of the first bytes of the body. -/
def Extracted (libs : Libs) (settings : Settings) (url : String) (body : Seq UInt8)
    (doc : FetchedDoc) : Prop :=
  doc.url = url ∧ ∃ text, extractText libs (body.take settings.fetchMaxBytes) = .ok text ∧
    doc.text = String.ofList (text.toList.take settings.sourceCharLimit)

theorem Extracted.length_le {body : Seq UInt8} {doc : FetchedDoc}
    (extracted : Extracted libs settings url body doc) :
    doc.text.length ≤ settings.sourceCharLimit := by
  obtain ⟨-, text, -, cut⟩ := extracted
  rw [cut, String.length_ofList, List.length_take]
  exact Nat.min_le_left _ _

theorem fetchHops_holds (hops : Nat) (current : String) :
    (fetchHops libs settings url hops current).Holds (Web dns) (fun _ => True)
      (fun r wire' => ∀ doc, r = .ok doc → Extracted libs settings url wire'.body doc) wire := by
  induction hops generalizing current wire with
  | zero => exact nofun
  | succ hops ih =>
      rw [fetchHops, Prog.holds_bind]
      refine Prog.holds_perform.mpr fun r wire' answered => ⟨trivial, ?_⟩
      rcases answered with ⟨x, rfl, rfl⟩ | ⟨response, body, rfl, rfl⟩
      · exact nofun
      dsimp only
      split
      · rename_i location _
        rw [Prog.holds_bind, lift, Prog.holds_ended]
        cases libs.urljoin current location with
        | error x => exact nofun
        | ok target =>
            dsimp only
            refine Prog.holds_bind.mpr ((Prog.holds_true _ _).mono fun r wire' _ => ?_)
            cases r with
            | error x => exact nofun
            | ok u => exact ih u
      · rw [Prog.holds_bind]
        unfold raiseForStatus
        split
        · refine Prog.holds_bind.mpr ((readCapped_holds _ [] ?_).mono fun r wire' first => ?_)
          · rw [Seq.ofList_nil, Seq.nil_append]
          · cases r with
            | error x => exact nofun
            | ok bytes =>
                dsimp only
                rw [Prog.holds_bind, lift, Prog.holds_ended]
                have same := first bytes rfl
                cases extracted : extractText libs bytes with
                | error x => exact nofun
                | ok text =>
                    rintro doc ⟨⟩
                    exact ⟨rfl, text, same ▸ extracted, rfl⟩
        · exact nofun

theorem fetchText_holds :
    (fetchText libs settings url).Holds (Web dns) (fun _ => True)
      (fun r wire' => ∀ doc, r = .ok doc → Extracted libs settings url wire'.body doc) wire := by
  rw [fetchText]
  refine Prog.holds_bind.mpr ((Prog.holds_true _ _).mono fun r wire' _ => ?_)
  cases r with
  | error x => exact nofun
  | ok current => exact fetchHops_holds _ current

end Bytes

/-- **The guard covers every connection.**  Whatever the server does, a run of `fetch_text` is
over after so many calls, makes one request more than there may be redirects at most, and each
of them to a URL the guard has resolved and let pass before.  If it returns, the document has
the URL that was asked for, and a text within the limit that comes from the first bytes of the
last body, up to the cap.  How the client itself resolves the host of such a URL (its IDNA encoding)
is outside, and so is a decoder that takes bytes and yields no chunk. -/
theorem fetch_guarded (libs : Libs) (settings : Settings)
    (dns : String → Nat → Except Exn (List String)) (url : String) {wire wire' : Wire} {log : Log}
    {p : Coroutine FetchedDoc}
    (run : Prog.Runs (Web dns) (fetchText libs settings url) wire log p wire') :
    log.length ≤ callBound settings ∧ requests log ≤ settings.fetchMaxRedirects + 1 ∧
      (∀ before u r after, log = before ++ ⟨.stream u, r⟩ :: after → Cleared libs dns u before) ∧
      ∀ r, p = Prog.ended r → (∃ x, r = .error x) ∨
        ∃ doc, r = .ok doc ∧ doc.url = url ∧ doc.text.length ≤ settings.sourceCharLimit ∧
          ∃ text, extractText libs (wire'.body.take settings.fetchMaxBytes) = .ok text ∧
            doc.text = String.ofList (text.toList.take settings.sourceCharLimit) := by
  obtain ⟨allowed, -⟩ := run.scripted real_of_web fetchText_scripted
  refine ⟨?_, countP_le_of_each fun before e after here request => ?_,
    fun before u r after here => (allowed before _ after here).2.2, ?_⟩
  · have length : ∀ log : Log, log.countP (fun _ => true) = log.length := congrFun List.countP_true
    rw [← length log]
    refine countP_le_of_each fun before e after here _ => ?_
    rw [length before]
    exact (allowed before e after here).1
  · obtain ⟨c, r⟩ := e
    cases c with
    | stream u => exact Nat.lt_succ_of_le (allowed before _ after here).2.1
    | getaddrinfo host port => cases request
    | nextChunk => cases request
  · rintro r rfl
    cases r with
    | error x => exact .inl ⟨x, rfl⟩
    | ok doc =>
        have extracted := run.post trivial fetchText_holds doc rfl
        exact .inr ⟨doc, rfl, extracted.1, extracted.length_le, extracted.2⟩

/-! ## A page, fetched -/

/-- The libraries on `http://example.com/` and where it redirects to; the hosts have public
addresses. -/
def exampleLibs : Libs where
  urlsplit url := .ok {
    scheme := "http"
    hostname := some (if url = "http://example.com/" then "example.com" else "www.example.com")
    port := .ok none }
  urljoin _ location := .ok location
  ipAddress _ := .ok ⟨⟨false, false, false, false, false, false⟩, none⟩
  statusError _ := .other "Client error" "HTTPStatusError('Client error')"
  extract html := .ok (some html)
  feed html := .ok [.data html]

def exampleDns (_ : String) (_ : Nat) : Except Exn (List String) := .ok ["93.184.216.34"]

/-- The body `ok!`. -/
def exampleBody : List UInt8 := [111, 107, 33]

/-- A request that is redirected, and one that is answered with the body in one chunk. -/
def exampleLog : Log :=
  [⟨.getaddrinfo "example.com" 80, .ok ["93.184.216.34"]⟩,
    ⟨.stream "http://example.com/", .ok ⟨301, some "http://www.example.com/"⟩⟩,
    ⟨.getaddrinfo "www.example.com" 80, .ok ["93.184.216.34"]⟩,
    ⟨.stream "http://www.example.com/", .ok ⟨200, none⟩⟩,
    ⟨.nextChunk, .ok (some ⟨exampleBody, by decide⟩)⟩]

/-- The cap cuts the body after two bytes. -/
theorem exampleRun :
    Prog.Runs (Web exampleDns) (fetchText exampleLibs ⟨1, 2, 10⟩ "http://example.com/") ⟨.nil, .nil⟩
      exampleLog (Prog.ended (.ok ⟨"http://example.com/", "ok"⟩)) ⟨.ofList exampleBody, .nil⟩ := by
  have read : Prog.Runs (Web exampleDns) (readCapped 2 [] >>= fun body => do
        let text ← lift (extractText exampleLibs body)
        return { url := "http://example.com/", text := String.ofList (text.toList.take 10) })
      ⟨.ofList exampleBody, .ofList exampleBody⟩ [⟨.nextChunk, .ok (some ⟨exampleBody, by decide⟩)⟩]
      (Prog.ended (.ok (⟨"http://example.com/", "ok"⟩ : FetchedDoc))) ⟨.ofList exampleBody, .nil⟩ := by
    rw [readCapped]
    refine .step (.inr (.inr ⟨⟨exampleBody, by decide⟩, .nil, rfl, ?_, rfl⟩)) ?_
    · exact (Stream'.Seq.append_nil _).symm
    · exact .refl
  refine .step ⟨rfl, rfl⟩ ?_
  refine .step (.inr ⟨⟨301, some "http://www.example.com/"⟩, .nil, rfl, rfl⟩) ?_
  refine .step ⟨rfl, rfl⟩ ?_
  exact .step (.inr ⟨⟨200, none⟩, .ofList exampleBody, rfl, rfl⟩) read

theorem fetch_guarded_example :
    exampleLog.length ≤ 7 ∧ requests exampleLog ≤ 2 ∧
      (∀ before u r after, exampleLog = before ++ ⟨.stream u, r⟩ :: after →
        Cleared exampleLibs exampleDns u before) ∧
      ∃ text, extractText exampleLibs ((Seq.ofList exampleBody).take 2) = .ok text ∧
        "ok" = String.ofList (text.toList.take 10) := by
  obtain ⟨calls, gets, guarded, result⟩ :=
    fetch_guarded exampleLibs ⟨1, 2, 10⟩ exampleDns "http://example.com/" exampleRun
  refine ⟨calls, gets, guarded, ?_⟩
  rcases result _ rfl with ⟨x, failed⟩ | ⟨doc, returned, -, -, text, extracted, cut⟩
  · cases failed
  · cases returned
    exact ⟨text, extracted, cut⟩

end Intellivault.Agent.Fetch
