import Intellivault.Lib.Rounds
import Intellivault.Agent.FetchRuns
import Intellivault.Agent.Research

/-!
# A bad search hit

`guard_url` promises to return its URL or to raise an `SsrfError`, and `search_node` catches
nothing else.  The promise is kept for a URL `urlsplit` takes apart and a resolver that raises
nothing but `OSError`; any other URL among the hits ends the node, and with it the run.
-/

namespace Intellivault.Agent

open Lib

namespace Fetch

abbrev Resolver := String → Nat → Except Exn (List String)

/-- What the standard library promises. -/
structure Documented (libs : Libs) (dns : Resolver) : Prop where
  /-- `urlsplit` raises a `ValueError` only. -/
  urlsplit : ∀ url x, libs.urlsplit url = .error x → ∃ message, x = .valueError message
  /-- Resolving a name raises an `OSError` or a `UnicodeError`. -/
  getaddrinfo : ∀ host port x, dns host port = .error x →
    (∃ message, x = .osError message) ∨ ∃ message, x = .unicodeError message
  /-- The resolver answers with addresses. -/
  numeric : ∀ host port addresses, dns host port = .ok addresses →
    ∀ a ∈ addresses, ∃ ip, libs.ipAddress a = .ok ip

/-- A run of `guard_url` ends so. -/
def GuardEnds (libs : Libs) (dns : Resolver) (url : String) (r : Except Exn String) : Prop :=
  ∃ wire log wire', Prog.Runs (Web dns) (guardUrl libs url) wire log (Prog.ended r) wire'

/-- The URL, or an `SsrfError`. -/
def Contained (url : String) (r : Except Exn String) : Prop :=
  r = .ok url ∨ ∃ message, r = .error (.ssrf message)

/-- `urlsplit` takes the URL apart, and if its host is looked up, that raises nothing but
`OSError`. -/
def Harmless (libs : Libs) (dns : Resolver) (url : String) : Prop :=
  ∃ parts, libs.urlsplit url = .ok parts ∧
    ∀ host p x, parts.scheme ∈ allowedSchemes → parts.hostname = some host → host ≠ "" →
      parts.port = .ok p → dns host (parts.portOr p) = .error x → x.isOSError

section Guard

variable {libs : Libs} {dns : Resolver} {url host : String} {past : Log}

theorem contained_ssrf {message : String} : Contained url (.error (.ssrf message)) :=
  .inr ⟨message, rfl⟩

theorem not_contained_valueError {message : String} :
    ¬Contained url (.error (.valueError message)) := by
  rintro (same | ⟨_, same⟩) <;> cases same

theorem not_contained_unicodeError {message : String} :
    ¬Contained url (.error (.unicodeError message)) := by
  rintro (same | ⟨_, same⟩) <;> cases same

/-- Over addresses that are addresses, the last loop passes or raises an `SsrfError`. -/
theorem checkAddresses_contained {addresses : List String}
    (numeric : ∀ a ∈ addresses, ∃ ip, libs.ipAddress a = .ok ip) :
    (checkAddresses libs host addresses >>= fun _ => (return url : Coroutine String)).Scripted
      (Real dns) (fun _ _ => True) (fun _ r => Contained url r) past := by
  induction addresses with
  | nil => exact .inl rfl
  | cons address rest ih =>
      obtain ⟨ip, parsed⟩ := numeric address List.mem_cons_self
      rw [checkAddresses, lift, parsed, Prog.bind_assoc]
      show Prog.Scripted _ _ _ past (ite _ _ _ >>= _)
      split
      · exact ih fun a mem => numeric a (List.mem_cons_of_mem _ mem)
      · exact contained_ssrf

/-- A URL that is refused before its host is looked up is harmless. -/
theorem harmless_refused {parts : SplitResult} (split : libs.urlsplit url = .ok parts)
    (refused : parts.scheme ∉ allowedSchemes ∨ parts.hostname.getD "" = "" ∨
      ∃ x, parts.port = .error x) : Harmless libs dns url := by
  refine ⟨parts, split, fun host p x scheme named given port _ => ?_⟩
  rcases refused with other | missing | ⟨x, invalid⟩
  · exact (other scheme).elim
  · rw [named] at missing
    exact (given missing).elim
  · cases port.symm.trans invalid

/-- Otherwise it depends on how the one lookup ends. -/
theorem harmless_lookup {parts : SplitResult} {p : Option Nat}
    (split : libs.urlsplit url = .ok parts) (scheme : parts.scheme ∈ allowedSchemes)
    (given : parts.hostname.getD "" ≠ "") (port : parts.port = .ok p) :
    Harmless libs dns url ↔
      ∀ x, dns (parts.hostname.getD "") (parts.portOr p) = .error x → x.isOSError := by
  constructor
  · rintro ⟨parts', taken, lookup⟩ x raised
    obtain rfl := Except.ok.inj (split.symm.trans taken)
    exact lookup _ p x scheme (host_given given) given port raised
  · intro lookup
    refine ⟨parts, split, fun host p' x _ named _ port' raised => lookup x ?_⟩
    obtain rfl := Except.ok.inj (port.symm.trans port')
    rw [named]
    exact raised

/-- The guard keeps its promise for the harmless URLs. -/
theorem guardUrl_contained (documented : Documented libs dns) :
    (guardUrl libs url).Scripted (Real dns) (fun _ _ => True)
      (fun _ r => Contained url r ↔ Harmless libs dns url) past := by
  rw [guardUrl, Prog.scripted_bind, lift, Prog.scripted_ended]
  cases split : libs.urlsplit url with
  | error x =>
      obtain ⟨message, rfl⟩ := documented.urlsplit url x split
      refine iff_of_false not_contained_valueError ?_
      rintro ⟨parts, taken, -⟩
      rw [split] at taken
      cases taken
  | ok parts =>
      dsimp only
      split
      · rename_i refused
        exact iff_of_true contained_ssrf (harmless_refused split (refused.imp_right .inl))
      rename_i admitted
      rw [not_or, not_not] at admitted
      cases port : parts.port with
      | error x =>
          exact iff_of_true contained_ssrf (harmless_refused split (.inr (.inr ⟨x, port⟩)))
      | ok p =>
          rw [harmless_lookup split admitted.1 admitted.2 port]
          dsimp only
          rw [Prog.scripted_bind, Prog.scripted_handle, scripted_resolve]
          refine ⟨trivial, fun r answer => ?_⟩
          have lookup : r = dns (parts.hostname.getD "") (parts.portOr p) := answer
          rw [← lookup]
          cases r with
          | error x =>
              dsimp only
              rcases documented.getaddrinfo _ _ x lookup.symm with ⟨message, rfl⟩ | ⟨message, rfl⟩
              · refine iff_of_true contained_ssrf fun x' raised => ?_
                obtain rfl := Except.error.inj raised
                rfl
              · refine iff_of_false not_contained_unicodeError fun promised => ?_
                cases promised _ rfl
          | ok addresses =>
              dsimp only
              split
              · exact iff_of_true contained_ssrf fun x raised => by cases raised
              · exact (checkAddresses_contained (documented.numeric _ _ _ lookup.symm)).mono
                  fun log r contained => iff_of_true contained fun x raised => by cases raised

theorem guardUrl_returns : (guardUrl libs url).Returns (· = url) := by
  refine Prog.Returns.bind fun parts => ?_
  dsimp only
  split
  · trivial
  split
  · trivial
  refine Prog.Returns.bind fun addresses => ?_
  split
  · trivial
  · exact Prog.Returns.bind fun _ => rfl

/-- A guarded URL is harmless if the guard's outcome is what its callers expect. -/
theorem GuardEnds.harmless_iff (documented : Documented libs dns) {r : Except Exn String}
    (ends : GuardEnds libs dns url r) : Contained url r ↔ Harmless libs dns url := by
  obtain ⟨wire, log, wire', run⟩ := ends
  have scripted : (guardUrl libs url).Scripted (Real dns) (fun _ _ => True)
      (fun _ r => Contained url r ↔ Harmless libs dns url) [] := guardUrl_contained documented
  exact Prog.scripted_ended.mp (run.scripted real_of_web scripted).2

theorem GuardEnds.contained_iff {r : Except Exn String} (ends : GuardEnds libs dns url r) :
    Contained url r ↔ ∀ x, r = .error x → ∃ message, x.toAgent = .ssrf message := by
  cases r with
  | ok u =>
      obtain ⟨wire, log, wire', run⟩ := ends
      have same : u = url := guardUrl_returns.of_ends run.ends
      exact iff_of_true (.inl (congrArg _ same)) nofun
  | error x =>
      constructor
      · rintro (same | ⟨message, same⟩)
        · cases same
        · cases same
          exact fun x' same => ⟨message, by cases same; rfl⟩
      · intro caught
        obtain ⟨message, same⟩ := caught x rfl
        cases x with
        | ssrf message => exact contained_ssrf
        | _ => cases same

end Guard

end Fetch

/-! ## The search -/

section Search

open Fetch (Libs Resolver GuardEnds)

/-- What the guard's call answers: the outcome of a run of `guard_url`.  While a URL is guarded
the resolver answers by a function; the search tool answers anything or raises. -/
def SearchAnswer (libs : Libs) (dns : String → Resolver) : Prog.Event Call Call.Answer Exn → Prop
  | ⟨.guardUrl url, r⟩ => ∃ outcome, GuardEnds libs (dns url) url outcome ∧
      r = match outcome with
        | .ok _ => .ok ()
        | .error x => .error x.toAgent
  | ⟨.tool _ _, r⟩ => ∀ x, r = .error x → x.isException
  | _ => True

/-- The note on a URL the guard rejected. -/
def rejected (url message : String) : String := "search: " ++ url ++ " (" ++ message ++ ")"

/-- Each URL the guard was asked about passed, or is noted. -/
def Noted (log : List (Prog.Event Call Call.Answer Exn)) (skipped : List String) : Prop :=
  ∀ url answer, ⟨.guardUrl url, answer⟩ ∈ log →
    answer = .ok () ∨ ∃ message, answer = .error (.ssrf message) ∧ rejected url message ∈ skipped

/-- The guard raised something else. -/
def Escaped (log : List (Prog.Event Call Call.Answer Exn)) (x : Exn) : Prop :=
  ∃ url, ⟨.guardUrl url, .error x⟩ ∈ log ∧ ¬x.isSsrf

variable {libs : Libs} {dns : String → Resolver} {deps : Deps}
  {past : List (Prog.Event Call Call.Answer Exn)} {loop : SearchLoop} {url : String}

theorem noted_nil {skipped : List String} : Noted [] skipped :=
  fun _ _ mem => (List.not_mem_nil mem).elim

theorem Noted.snoc {skipped skipped' : List String} {e : Prog.Event Call Call.Answer Exn}
    (noted : Noted past skipped) (more : skipped ⊆ skipped')
    (this : ∀ url answer, ⟨.guardUrl url, answer⟩ = e → answer = .ok () ∨
      ∃ message, answer = .error (.ssrf message) ∧ rejected url message ∈ skipped') :
    Noted (past ++ [e]) skipped' := by
  intro url answer mem
  rcases List.mem_append.mp mem with old | new
  · exact (noted url answer old).imp_right fun ⟨message, same, here⟩ => ⟨message, same, more here⟩
  · exact this url answer (List.mem_singleton.mp new)

/-- What the loops over the hits and the queries end with. -/
def SearchDone (log : List (Prog.Event Call Call.Answer Exn)) : Except Exn SearchLoop → Prop
  | .ok loop => Noted log loop.skipped
  | .error x => Escaped log x

theorem searchHits_scripted (limit : Nat) (hits : List SearchHit)
    (noted : Noted past loop.skipped) :
    (searchHits limit hits loop).Scripted (SearchAnswer libs dns) (fun _ _ => True) SearchDone
      past := by
  induction hits generalizing past loop with
  | nil => exact noted
  | cons hit rest ih =>
      rw [searchHits]
      split
      · exact ih noted
      rw [Prog.scripted_bind, tryExcept, Prog.scripted_handle, Prog.scripted_bind]
      refine Prog.scripted_free.mpr fun r _ => ?_
      cases r with
      | ok u =>
          refine ih (noted.snoc (List.Subset.refl _) ?_)
          rintro _ _ ⟨⟩
          exact .inl rfl
      | error x =>
          cases x with
          | ssrf message =>
              refine ih (noted.snoc (List.subset_append_left _ _) ?_)
              rintro _ _ ⟨⟩
              exact .inr ⟨message, rfl, List.mem_append_right _ (List.mem_singleton.mpr rfl)⟩
          | _ => exact ⟨hit.url, List.mem_append_right _ (List.mem_singleton.mpr rfl), nofun⟩

theorem searchQueries_scripted (queries : List String) (noted : Noted past loop.skipped) :
    (searchQueries deps queries loop).Scripted (SearchAnswer libs dns) (fun _ _ => True) SearchDone
      past := by
  induction queries generalizing past loop with
  | nil => exact noted
  | cons query rest ih =>
      rw [searchQueries, Prog.scripted_bind, returnException, tryExcept, Prog.scripted_handle,
        Prog.scripted_bind]
      refine Prog.scripted_free.mpr fun r answered => ?_
      cases r with
      | ok raw =>
          refine Prog.scripted_bind.mpr ((searchHits_scripted _ _
            (noted.snoc (List.Subset.refl _) fun _ _ same => by cases same)).mono fun log r done => ?_)
          cases r with
          | ok loop => exact ih done
          | error x => exact done
      | error x =>
          have caught : x.isException := answered x rfl
          dsimp only
          rw [if_pos caught]
          exact ih (noted.snoc (List.subset_append_left _ _) fun _ _ same => by cases same)

/-- What `search_node` ends with. -/
theorem searchNode_scripted (state : AgentState) :
    (searchNode deps state).Scripted (SearchAnswer libs dns) (fun _ _ => True)
      (fun log r => match r with
        | .ok update => Noted log (update.skipped.getD [])
        | .error x => Escaped log x) [] := by
  unfold searchNode
  split
  · exact noted_nil
  split
  · exact noted_nil
  · rw [Prog.scripted_bind]
    refine (searchQueries_scripted _ noted_nil).mono fun log r done => ?_
    cases r with
    | ok loop => exact done
    | error x => exact done

end Search

/-- **When a bad hit is contained.**  `guard_url` keeps its promise exactly for the harmless
URLs, and `search_node` returns, with a note on each URL the guard rejected, exactly if all the
URLs it hands to the guard are harmless. -/
theorem bad_hits_contained_iff {libs : Fetch.Libs} {dns : String → Fetch.Resolver}
    (documented : ∀ url, Fetch.Documented libs (dns url)) :
    (∀ url r, Fetch.GuardEnds libs (dns url) url r →
      (Fetch.Contained url r ↔ Fetch.Harmless libs (dns url) url)) ∧
    ∀ (deps : Deps) (state : AgentState) log r,
      Prog.Runs (fun c (_ : Unit) r _ => SearchAnswer libs dns ⟨c, r⟩) (searchNode deps state) () log
        (Prog.ended r) () →
      ((∃ update, r = .ok update ∧ ∀ url x, ⟨.guardUrl url, .error x⟩ ∈ log →
          rejected url x.str ∈ update.skipped.getD []) ↔
        ∀ url answer, ⟨.guardUrl url, answer⟩ ∈ log → Fetch.Harmless libs (dns url) url) := by
  refine ⟨fun url r ends => ends.harmless_iff (documented url), fun deps state log r run => ?_⟩
  have guarded : ∀ url answer, ⟨.guardUrl url, answer⟩ ∈ log →
      ((∀ x, answer = .error x → ∃ message, x = .ssrf message) ↔
        Fetch.Harmless libs (dns url) url) := by
    intro url answer mem
    obtain ⟨outcome, ends, rfl⟩ := run.answered (fun c _ r _ answered => answered) _ mem
    rw [← ends.harmless_iff (documented url), ends.contained_iff]
    cases outcome with
    | ok u => exact iff_of_true nofun nofun
    | error x => exact ⟨fun caught x' same => by cases same; exact caught _ rfl,
        fun caught x' same => by cases same; exact caught x rfl⟩
  have done := (run.scripted (fun c _ r _ answered => answered) (searchNode_scripted state)).2
  rw [List.nil_append, Prog.scripted_ended] at done
  cases r with
  | ok update =>
      refine iff_of_true ⟨update, rfl, fun url x mem => ?_⟩ fun url answer mem => ?_
      · rcases done url _ mem with same | ⟨message, same, noted⟩
        · cases same
        · cases same
          exact noted
      · refine (guarded url answer mem).mp fun x same => ?_
        rcases done url answer mem with passed | ⟨message, caught, -⟩
        · cases passed.symm.trans same
        · exact ⟨message, Except.error.inj (same.symm.trans caught)⟩
  | error x =>
      refine iff_of_false ?_ fun harmless => ?_
      · rintro ⟨update, same, -⟩
        cases same
      obtain ⟨url, mem, escaped⟩ := done
      obtain ⟨message, rfl⟩ := (guarded url _ mem).mpr (harmless url _ mem) x rfl
      exact escaped rfl

/-! ## Two hits -/

namespace Fetch

/-- Only the host of `http://example.com/` has an address. -/
def hitsDns (url : String) : Resolver :=
  if url = "http://example.com/" then exampleDns else fun _ _ => .ok []

theorem hitsDocumented (url : String) : Documented exampleLibs (hitsDns url) where
  urlsplit := nofun
  getaddrinfo host port x raised := by
    unfold hitsDns at raised
    split at raised <;> cases raised
  numeric := fun _ _ _ _ _ _ => ⟨_, rfl⟩

theorem exampleEnds :
    GuardEnds exampleLibs exampleDns "http://example.com/" (.ok "http://example.com/") :=
  ⟨⟨.nil, .nil⟩, [⟨.getaddrinfo "example.com" 80, .ok ["93.184.216.34"]⟩], _,
    .step ⟨rfl, rfl⟩ .refl⟩

theorem unanswered_ends {url : String} (other : url ≠ "http://example.com/") :
    GuardEnds exampleLibs (hitsDns url) url
      (.error (.ssrf "no DNS answer for 'www.example.com'")) := by
  have parts : exampleLibs.urlsplit url = .ok ⟨"http", some "www.example.com", .ok none⟩ := by
    dsimp only [exampleLibs]
    rw [if_neg other]
  have empty : hitsDns url "www.example.com" 80 = .ok [] := by rw [hitsDns, if_neg other]
  refine ⟨⟨.nil, .nil⟩, [⟨.getaddrinfo "www.example.com" 80, .ok []⟩], ⟨.nil, .nil⟩, ?_⟩
  rw [guardUrl, parts]
  exact .step ⟨empty.symm, rfl⟩ .refl

theorem hitsHarmless (url : String) : Harmless exampleLibs (hitsDns url) url := by
  refine ⟨_, rfl, fun host port x _ _ _ _ raised => ?_⟩
  unfold hitsDns at raised
  split at raised <;> cases raised

/-- The libraries on `http://[`. -/
def bracketLibs : Libs :=
  { exampleLibs with urlsplit := fun _ => .error (.valueError "Invalid IPv6 URL") }

theorem bracketDocumented (_ : String) : Documented bracketLibs exampleDns where
  urlsplit := fun _ _ raised => by
    cases raised
    exact ⟨_, rfl⟩
  getaddrinfo := nofun
  numeric := fun _ _ _ _ _ _ => ⟨_, rfl⟩

theorem bracketEnds :
    GuardEnds bracketLibs exampleDns "http://[" (.error (.valueError "Invalid IPv6 URL")) :=
  ⟨⟨.nil, .nil⟩, [], _, .refl⟩

end Fetch

def hitsDeps : Deps :=
  { settings := { recursionLimit := 25 }, searchTool := true, wikipediaTools := []
    py := { lower := id, loads := fun _ => none, strOf := fun _ => "" } }

/-- One query. -/
def hitsState : AgentState :=
  { initialState "hits" 1 7 with plan := some ⟨"", ["hits"], by decide⟩ }

/-- The tool finds two pages, and the guard rejects the second one. -/
def hitsAnswer (c : Call) (_ : Unit) : Except Exn c.Answer × Unit :=
  match c with
  | .tool _ _ =>
      (.ok (.obj [("results", .arr [.obj [("url", .str "http://example.com/")],
        .obj [("url", .str "http://example.org/")]])]), ())
  | .guardUrl url =>
      (if url = "http://example.com/" then .ok ()
        else .error (.ssrf "no DNS answer for 'www.example.com'"), ())
  | _ => (.error .timeout, ())

theorem hitsAnswer_allowed (c : Call) (s : Unit) :
    SearchAnswer Fetch.exampleLibs Fetch.hitsDns ⟨c, (hitsAnswer c s).1⟩ := by
  cases c with
  | tool _ _ => exact nofun
  | guardUrl url =>
      by_cases same : url = "http://example.com/"
      · subst same
        exact ⟨_, Fetch.exampleEnds, rfl⟩
      · exact ⟨_, Fetch.unanswered_ends same, if_neg same⟩
  | _ => trivial

def hitsRun : List (Prog.Event Call Call.Answer Exn) × Except Exn Update × Unit :=
  (searchNode hitsDeps hitsState).run hitsAnswer ()

/-- The guard passes one page, and the node notes the other one. -/
theorem bad_hits_contained_example :
    (Fetch.Contained "http://example.com/" (.ok "http://example.com/") ↔
      Fetch.Harmless Fetch.exampleLibs (Fetch.hitsDns "http://example.com/") "http://example.com/") ∧
    ∃ update, hitsRun.2.1 = .ok update ∧
      rejected "http://example.org/" "no DNS answer for 'www.example.com'" ∈
        update.skipped.getD [] := by
  obtain ⟨guard, node⟩ := bad_hits_contained_iff Fetch.hitsDocumented
  have run := Prog.runs_run
    (H := fun c (_ : Unit) r _ => SearchAnswer Fetch.exampleLibs Fetch.hitsDns ⟨c, r⟩)
    hitsAnswer_allowed (searchNode hitsDeps hitsState) ()
  obtain ⟨update, returned, noted⟩ := (node hitsDeps hitsState _ _ run).mpr fun url _ _ =>
    Fetch.hitsHarmless url
  refine ⟨guard _ _ Fetch.exampleEnds, update, returned, noted "http://example.org/"
    (.ssrf "no DNS answer for 'www.example.com'") ?_⟩
  exact List.mem_cons_of_mem _ (List.mem_cons_of_mem _ (List.mem_singleton_self _))

/-- `http://[` comes out of the guard as a `ValueError`. -/
theorem bad_hit_escapes :
    ¬∀ (libs : Fetch.Libs) (dns : String → Fetch.Resolver)
      (_ : ∀ url, Fetch.Documented libs (dns url)) (url : String) (r : Except Fetch.Exn String),
      Fetch.GuardEnds libs (dns url) url r → Fetch.Contained url r :=
  fun promised => Fetch.not_contained_valueError
    (promised Fetch.bracketLibs (fun _ => Fetch.exampleDns) Fetch.bracketDocumented "http://[" _
      Fetch.bracketEnds)

end Intellivault.Agent
