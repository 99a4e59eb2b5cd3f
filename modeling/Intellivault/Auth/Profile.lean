import Intellivault.Lib.Keyed
import Intellivault.Lib.Since
import Intellivault.Auth.Effects

/-!
# Partial updates of an account

`PATCH /auth/me` writes both columns.  What the request leaves out is filled in from the
user that the session was resolved to, so the value of a request that was not done by then is
reverted.
-/

namespace Intellivault.Auth

open Lib

/-! ## What the requests have set -/

/-- The call updated this user. -/
def updates (id : UUID) : RouteEvent → Bool
  | ⟨.updateAccount id' _ _, .ok (some _)⟩ => id' = id
  | _ => false

/-- The request of a step that updated this user.  After that nothing can fail any more. -/
def patched (id : UUID) : ServerAction → Option UpdateAccountRequest
  | .call (.patchMe _ req) _ e => if updates id e then some req else none
  | _ => none

/-- The emails that requests have set, in the order of their updates. -/
def emailsSet (tr : List ServerTransition) (id : UUID) : List String :=
  tr.filterMap fun x => (patched id x.label).bind UpdateAccountRequest.email

def namesSet (tr : List ServerTransition) (id : UUID) : List String :=
  tr.filterMap fun x => (patched id x.label).bind fun req => req.displayName.map Bounded.val

/-- A field that has been set holds a value that a request set. -/
structure Supplied (tr : List ServerTransition) (user : UserRow) : Prop where
  email : emailsSet tr user.id ≠ [] → user.email ∈ emailsSet tr user.id
  displayName : namesSet tr user.id ≠ [] → user.displayName ∈ namesSet tr user.id

/-- It is the last one: no request has reverted it. -/
structure Latest (tr : List ServerTransition) (user : UserRow) : Prop where
  email : ∀ value ∈ (emailsSet tr user.id).getLast?, user.email = value
  displayName : ∀ value ∈ (namesSet tr user.id).getLast?, user.displayName = value

/-- The session was resolved to this user. -/
def Resolves (id : UUID) (e : RouteEvent) : Prop :=
  ∃ tokenHash user, user.id = id ∧ e = ⟨.resolveSession tokenHash, .ok (some user)⟩

/-- Between the `resolve_session` of a request and its `UPDATE`, no other request sets a field of
the user that this one leaves out. -/
def Undisturbed (before : List ServerTransition) (x : ServerTransition) : Prop :=
  match x.label with
  | .call (.patchMe cookies req) past ⟨.updateAccount id _ _, .ok (some _)⟩ =>
      Pool.Since before (.patchMe cookies req) past (Resolves id) fun z =>
        ∀ other ∈ patched id z.label, (req.email.isNone → other.email.isNone) ∧
          (req.displayName.isNone → other.displayName.isNone)
  | _ => True

/-- An update writes what is stored into the fields that its request leaves out. -/
def Current (x : ServerTransition) : Prop :=
  match x.label with
  | .call (.patchMe _ req) _ ⟨.updateAccount id email displayName, .ok (some _)⟩ =>
      ∀ user ∈ x.source.world.accounts.users, user.id = id →
        (req.email.isNone → email = user.email) ∧
          (req.displayName.isNone → displayName = user.displayName)
  | _ => True

section Profile

variable {site : Site} {draws : Draws} {w w' : Store} {e : RouteEvent} {s s' : Server}
  {l : ServerAction} {tr : List ServerTransition} {x : ServerTransition} {id : UUID}
  {user : UserRow}

theorem updates_writes (idle : writes e = false) : updates id e = false := by
  unfold updates
  split
  · cases idle
  · rfl

/-- A user is new, or as before, or the call wrote both fields. -/
theorem Effect.users (effect : Effect site draws (w.tick draws) e w') :
    ∀ user ∈ w'.accounts.users,
      user.id = draws.choices.userId ∧ updates user.id e = false ∨
      user ∈ w.accounts.users ∧ updates user.id e = false ∨
      ∃ old ∈ w.accounts.users, old.id = user.id ∧ ∃ row,
        e = ⟨.updateAccount user.id user.email user.displayName, .ok (some row)⟩ := by
  cases effect with
  | idle idle => exact fun user mem => .inr (.inl ⟨mem, updates_writes idle⟩)
  | registered emailFree passkeyFree =>
      exact forall_mem_snoc.mpr ⟨fun user mem => .inr (.inl ⟨mem, rfl⟩), .inl ⟨rfl, rfl⟩⟩
  | @updated id email displayName found present emailFree =>
      intro user mem
      obtain ⟨old, inside, rfl⟩ := List.mem_map.mp mem
      by_cases hit : old.id = id
      · rw [if_pos hit]
        subst hit
        exact .inr (.inr ⟨old, inside, rfl, _, rfl⟩)
      · rw [if_neg hit]
        exact .inr (.inl ⟨inside, decide_eq_false (Ne.symm hit)⟩)
  | _ => exact fun user mem => .inr (.inl ⟨mem, rfl⟩)

/-- Only users there are are updated. -/
theorem Effect.updates_known (effect : Effect site draws (w.tick draws) e w')
    (hit : updates id e = true) : ∃ user ∈ w.accounts.users, user.id = id := by
  cases effect with
  | idle idle =>
      rw [updates_writes idle] at hit
      cases hit
  | updated found emailFree =>
      obtain rfl := of_decide_eq_true hit
      have named := List.find?_some found
      exact ⟨_, List.mem_of_find?_eq_some found, of_decide_eq_true named⟩
  | _ => cases hit

theorem emailsSet_snoc :
    emailsSet (tr ++ [x]) id =
      emailsSet tr id ++ ((patched id x.label).bind UpdateAccountRequest.email).toList := by
  rw [emailsSet, List.filterMap_append, List.filterMap_cons]
  cases (patched id x.label).bind UpdateAccountRequest.email <;> rfl

theorem namesSet_snoc :
    namesSet (tr ++ [x]) id = namesSet tr id ++
      ((patched id x.label).bind fun req => req.displayName.map Bounded.val).toList := by
  rw [namesSet, List.filterMap_append, List.filterMap_cons]
  cases (patched id x.label).bind fun req => req.displayName.map Bounded.val <;> rfl

theorem patched_none {k : RouteRequest} {past : RouteLog} (quiet : updates id e = false) :
    patched id (.call k past e) = none := by
  cases k <;> simp [patched, quiet]

/-- A step that does not update a user leaves what was set for it. -/
theorem Latest.later (latest : Latest tr user) (quiet : patched user.id x.label = none) :
    Latest (tr ++ [x]) user := by
  have emails : emailsSet (tr ++ [x]) user.id = emailsSet tr user.id := by
    rw [emailsSet_snoc, quiet]
    exact List.append_nil _
  have names : namesSet (tr ++ [x]) user.id = namesSet tr user.id := by
    rw [namesSet_snoc, quiet]
    exact List.append_nil _
  refine ⟨?_, ?_⟩
  · rw [emails]
    exact latest.email
  · rw [names]
    exact latest.displayName

/-- A field after a request that set it, or that left it at what was stored. -/
theorem last_set {values : List String} {value stored old : String} {supplied : Option String}
    (before : ∀ v ∈ values.getLast?, old = v) (written : value = supplied.getD stored)
    (kept : supplied.isNone → value = old) :
    ∀ v ∈ (values ++ supplied.toList).getLast?, value = v := by
  cases supplied with
  | none =>
      rw [kept rfl, Option.toList_none, List.append_nil]
      exact before
  | some given =>
      intro v mem
      rw [Option.toList_some, List.getLast?_concat] at mem
      rw [written]
      exact Option.some.inj mem

/-- The request that updates a user, with what it writes. -/
theorem Latest.patch {old : UserRow} {cookies : Cookies} {req : UpdateAccountRequest}
    {past : RouteLog} {row : UserRow} {email displayName : String} (latest : Latest tr old)
    (same : old.id = user.id) (mem : old ∈ x.source.world.accounts.users)
    (label : x.label = .call (.patchMe cookies req) past
      ⟨.updateAccount user.id user.email user.displayName, .ok (some row)⟩)
    (emailIs : user.email = req.email.getD email)
    (nameIs : user.displayName = (req.displayName.map Bounded.val).getD displayName)
    (current : Current x) : Latest (tr ++ [x]) user := by
  have asked : patched user.id x.label = some req := by
    rw [label]
    exact if_pos (decide_eq_true rfl)
  rw [Current, label] at current
  obtain ⟨emailKept, nameKept⟩ := current old mem same
  refine ⟨?_, ?_⟩
  · rw [emailsSet_snoc, asked]
    have before := latest.email
    rw [same] at before
    exact last_set before emailIs emailKept
  · rw [namesSet_snoc, asked]
    have before := latest.displayName
    rw [same] at before
    have kept : (req.displayName.map Bounded.val).isNone → user.displayName = old.displayName := by
      rwa [Option.isNone_map]
    exact last_set before nameIs kept

/-- What was set was set for a user there is. -/
theorem patched_minted (history : History (Server.Step site) Server.empty tr s) :
    ∀ x ∈ tr, ∀ id, patched id x.label ≠ none → id ∈ s.world.minted := by
  induction history with
  | start => exact List.forall_mem_nil _
  | @next tr t u l before step ih =>
      refine forall_mem_snoc.mpr ⟨fun x mem id hit => step.minted (ih x mem id hit), ?_⟩
      intro id hit
      rcases step.cases with ⟨-, k, rfl⟩ | ⟨k, past, e, draws, rfl, fresh, effect⟩
      · exact (hit rfl).elim
      · cases updated : updates id e with
        | false => exact (hit (patched_none updated)).elim
        | true =>
            obtain ⟨user, mem, rfl⟩ := effect.updates_known updated
            exact step.minted ((Server.ids before).userMinted user mem)

theorem latest_of_nothing (nothing : ∀ x ∈ tr, patched user.id x.label = none) :
    Latest tr user := by
  have emails : emailsSet tr user.id = [] := by
    refine List.filterMap_eq_nil_iff.mpr fun x mem => ?_
    rw [nothing x mem]
    rfl
  have names : namesSet tr user.id = [] := by
    refine List.filterMap_eq_nil_iff.mpr fun x mem => ?_
    rw [nothing x mem]
    rfl
  refine ⟨?_, ?_⟩
  · rw [emails]
    exact fun _ absurd => by cases absurd
  · rw [names]
    exact fun _ absurd => by cases absurd

theorem Server.latest (history : History (Server.Step site) Server.empty tr s)
    (current : ∀ x ∈ tr, Current x) : ∀ user ∈ s.world.accounts.users, Latest tr user := by
  induction history with
  | start => exact List.forall_mem_nil _
  | @next tr t u l before step ih =>
      obtain ⟨earlier, here⟩ := forall_mem_snoc.mp current
      have whole := before.next step
      rcases step.cases with ⟨same, k, rfl⟩ | ⟨k, past, e, draws, rfl, fresh, effect⟩
      · intro user mem
        rw [same] at mem
        exact (ih earlier user mem).later rfl
      intro user mem
      rcases effect.users user mem with ⟨new, quiet⟩ | ⟨old, quiet⟩ | ⟨old, inside, same, row, rfl⟩
      · refine Latest.later (latest_of_nothing fun x mem => ?_) (patched_none quiet)
        by_contra hit
        have drawn := patched_minted before x mem user.id hit
        rw [new] at drawn
        exact fresh.userId drawn
      · exact (ih earlier user old).later (patched_none quiet)
      · have allowed := Server.allowed whole (List.mem_append_right _ (List.mem_singleton_self _)) rfl
        obtain ⟨cookies, req, signed, rfl, -, -, emailIs, nameIs⟩ := allowed
        exact (ih earlier old inside).patch same inside rfl emailIs nameIs here

theorem Latest.supplied (latest : Latest tr user) : Supplied tr user where
  email some := by
    rw [latest.email _ (List.getLast?_eq_some_getLast some)]
    exact List.getLast_mem some
  displayName some := by
    rw [latest.displayName _ (List.getLast?_eq_some_getLast some)]
    exact List.getLast_mem some

/-! ## Between the read and the write -/

/-- A user stays, as it was or as the call has written it. -/
theorem Effect.usersKept (effect : Effect site draws (w.tick draws) e w') :
    ∀ old ∈ w.accounts.users, old ∈ w'.accounts.users ∨
      ∃ user ∈ w'.accounts.users, user.id = old.id ∧ ∃ row,
        e = ⟨.updateAccount old.id user.email user.displayName, .ok (some row)⟩ := by
  cases effect with
  | registered emailFree passkeyFree => exact fun old mem => .inl (List.mem_append_left _ mem)
  | @updated id email displayName found present emailFree =>
      intro old mem
      by_cases hit : old.id = id
      · subst hit
        exact .inr ⟨{ old with email, displayName }, List.mem_map.mpr ⟨old, mem, if_pos rfl⟩, rfl,
          _, rfl⟩
      · exact .inl (List.mem_map.mpr ⟨old, mem, if_neg hit⟩)
  | _ => exact fun old mem => .inl mem

/-- A session is resolved to a user in the table. -/
theorem served_resolved {tokenHash : Bytes}
    (answer : served site (.resolveSession tokenHash) w (.ok (some user)) w') :
    user ∈ w.accounts.users ∧ w'.accounts = w.accounts := by
  obtain ⟨draws, -, ⟨same, rfl⟩ | ⟨⟨message, failed⟩, -⟩⟩ := answer
  · obtain ⟨session, -, owned⟩ := List.exists_of_findSome?_eq_some (Except.ok.inj same).symm
    exact ⟨List.mem_of_find?_eq_some owned, rfl⟩
  · cases failed

/-- The user still has what its session has read, in the fields that the request leaves out. -/
def StillRead (req : UpdateAccountRequest) (read : UserRow) (w : Store) : Prop :=
  ∃ stored ∈ w.accounts.users, stored.id = read.id ∧
    (req.email.isNone → stored.email = read.email) ∧
      (req.displayName.isNone → stored.displayName = read.displayName)

theorem StillRead.step {req : UpdateAccountRequest} {read : UserRow}
    (before : History (Server.Step site) Server.empty tr s) (step : Server.Step site s l s')
    (current : Current ⟨s, l, s'⟩) (still : StillRead req read s.world)
    (quiet : ∀ other ∈ patched read.id l, (req.email.isNone → other.email.isNone) ∧
      (req.displayName.isNone → other.displayName.isNone)) : StillRead req read s'.world := by
  obtain ⟨old, there, oldIs, emailKept, nameKept⟩ := still
  rcases step.cases with ⟨same, -⟩ | ⟨k, log, e, draws, rfl, -, effect⟩
  · exact ⟨old, same ▸ there, oldIs, emailKept, nameKept⟩
  rcases effect.usersKept old there with kept | ⟨new, inside, newIs, written, rfl⟩
  · exact ⟨old, kept, oldIs, emailKept, nameKept⟩
  obtain ⟨cookies, other, _, rfl, -⟩ :=
    Server.allowed (before.next step) (List.mem_append_right _ (List.mem_singleton_self _)) rfl
  have asked : other ∈ patched read.id (.call (.patchMe cookies other) log
      ⟨.updateAccount old.id new.email new.displayName, .ok (some written)⟩) := by
    rw [oldIs]
    exact if_pos (decide_eq_true rfl)
  obtain ⟨noEmail, noName⟩ := quiet other asked
  obtain ⟨emailLeft, nameLeft⟩ := current old there rfl
  exact ⟨new, inside, newIs.trans oldIs,
    fun none => (emailLeft (noEmail none)).trans (emailKept none),
    fun none => (nameLeft (noName none)).trans (nameKept none)⟩

/-- What a request leaves out is still as its session has read it, if it is undisturbed. -/
theorem current_of_undisturbed (before : History (Server.Step site) Server.empty tr s)
    (step : Server.Step site s l s') (current : ∀ x ∈ tr, Current x)
    (undisturbed : Undisturbed tr ⟨s, l, s'⟩) : Current ⟨s, l, s'⟩ := by
  unfold Current
  split
  · rename_i cookies req past id email displayName row label
    obtain rfl : l = .call (.patchMe cookies req) past
      ⟨.updateAccount id email displayName, .ok (some row)⟩ := label
    intro user mem same
    obtain ⟨_, _, read, kind, ⟨token, -, resolved⟩, rfl, emailIs, nameIs⟩ :=
      Server.allowed (before.next step) (List.mem_append_right _ (List.mem_singleton_self _)) rfl
    cases kind
    have since : Pool.Since tr (.patchMe cookies req) past (Resolves read.id) _ := undisturbed
    have still : StillRead req read s.world := by
      refine since.kept (P := fun t => StillRead req read t.world) before resolved
        ⟨_, read, rfl, rfl⟩ ?_ ?_
      · intro _ x _ _ _ answer
        obtain ⟨found, kept⟩ := served_resolved answer
        exact ⟨read, kept ▸ found, rfl, fun _ => rfl, fun _ => rfl⟩
      · intro earlier z later split first moved quiet still
        subst split
        have zMem : z ∈ earlier ++ z :: later := List.mem_append_right _ List.mem_cons_self
        exact still.step first moved (current z zMem) quiet
    obtain ⟨stored, there, storedIs, emailKept, nameKept⟩ := still
    obtain rfl : user = stored := List.inj_on_of_nodup_map (Server.ids before).users mem there
      (same.trans storedIs.symm)
    refine ⟨fun none => ?_, fun none => ?_⟩
    · rw [emailKept none, emailIs, Option.isNone_iff_eq_none.mp none, Option.getD_none]
    · rw [nameKept none, nameIs, Option.isNone_iff_eq_none.mp none, Option.map_none,
        Option.getD_none]
  · trivial

theorem Server.current (history : History (Server.Step site) Server.empty tr s)
    (undisturbed : Throughout Undisturbed tr) : ∀ x ∈ tr, Current x := by
  induction history with
  | start => exact List.forall_mem_nil _
  | next before step ih =>
      obtain ⟨earlier, last⟩ := throughout_snoc.mp undisturbed
      have current := ih earlier
      exact forall_mem_snoc.mpr ⟨current, current_of_undisturbed before step current last⟩

/-- **No partial update is lost as long as no other request sets what a request leaves out**
between its `resolve_session` and its `UPDATE`: each field then holds what the last request that
set it asked for. -/
theorem profile_kept (history : History (Server.Step site) Server.empty tr s)
    (undisturbed : Throughout Undisturbed tr) :
    ∀ user ∈ s.world.accounts.users, Supplied tr user ∧ Latest tr user := by
  intro user mem
  have latest := Server.latest history (Server.current history undisturbed) user mem
  exact ⟨latest.supplied, latest⟩

end Profile

/-! ## Two tabs -/

/-- Both tabs resolve the session, and then both change the email. -/
def crossingEmails : List (Pool.Move RouteRequest Draws) :=
  registering ++ .start (.patchMe { session := adasSession } { email := some "countess@example.org" }) ::
    .start (.patchMe { session := adasSession } { email := some "lovelace@example.org" }) ::
    inTurn 2 14 1 ++ inTurn 3 15 1 ++ inTurn 2 16 1 ++ inTurn 3 17 1

/-- No request sets a name, or leaves the email out. -/
def onlyEmails (x : ServerTransition) : Bool :=
  match x.label with
  | .call (.patchMe _ req) _ _ => req.email.isSome && req.displayName.isNone
  | _ => true

theorem onlyEmails_patched {x : ServerTransition} (only : onlyEmails x = true) {id : UUID} :
    ∀ req ∈ patched id x.label, req.displayName.isNone := by
  intro req asked
  unfold patched at asked
  split at asked
  · rename_i label
    obtain ⟨-, same⟩ := Option.ite_none_right_eq_some.mp asked
    obtain rfl := Option.some.inj same
    rw [onlyEmails, label] at only
    exact (Bool.and_eq_true_iff.mp only).2
  · cases asked

theorem undisturbed_of_onlyEmails {site : Site} {tr : List ServerTransition} {s : Server}
    (history : History (Server.Step site) Server.empty tr s)
    (only : ∀ x ∈ tr, onlyEmails x = true) : Throughout Undisturbed tr := by
  rintro before x after rfl
  unfold Undisturbed
  split
  · rename_i cookies req past id email displayName row label
    intro earlier e later log read
    obtain ⟨upTo, step⟩ := history.upTo rfl
    rw [label] at step
    obtain ⟨first, y, between, rfl, called⟩ := Pool.Step.recalled upTo step log
    refine ⟨first, y, between, rfl, called, fun z inside other asked => ⟨fun none => ?_, fun _ => ?_⟩⟩
    · have given := only x (List.mem_append_right _ List.mem_cons_self)
      rw [onlyEmails, label] at given
      have some := (Bool.and_eq_true_iff.mp given).1
      rw [Option.isNone_iff_eq_none.mp none] at some
      cases some
    · exact onlyEmails_patched (only z (by simp [inside])) other asked
  · trivial

theorem profile_kept_crossingEmails : ∃ (tr : List ServerTransition) (s : Server),
    History (Server.Step localhost) Server.empty tr s ∧
      s.world.accounts.users.map (fun user => user.email) = ["lovelace@example.org"] ∧
      ∀ user ∈ s.world.accounts.users, Supplied tr user ∧ Latest tr user := by
  have emails : (Server.play localhost onlyEmails crossingEmails).map (fun s =>
      s.world.accounts.users.map fun user => user.email) = some ["lovelace@example.org"] := by
    decide +kernel
  obtain ⟨s, played, both⟩ := Option.map_eq_some_iff.mp emails
  obtain ⟨tr, history, only⟩ := Server.play_history played
  exact ⟨tr, s, history, both, profile_kept history (undisturbed_of_onlyEmails history only)⟩

/-- Both tabs resolve the session before either updates the account. -/
def crossingTabs : List (Pool.Move RouteRequest Draws) :=
  registering ++ .start (.patchMe { session := adasSession } { email := some "countess@example.org" }) ::
    .start (.patchMe { session := adasSession } { displayName := some ⟨"Ada Lovelace", by decide⟩ }) ::
    inTurn 2 14 1 ++ inTurn 3 15 1 ++ inTurn 2 16 1 ++ inTurn 3 17 1

/-- The request set the email of this user. -/
def setsEmail (id : UUID) (p : Process RouteRequest RouteCall RouteCall.Answer Exn) : Bool :=
  match p.kind with
  | .patchMe _ req => req.email.isSome && p.past.any (updates id)
  | _ => false

/-- The step does not set this email. -/
def setsNot (email : String) (id : UUID) (x : ServerTransition) : Bool :=
  (patched id x.label).bind UpdateAccountRequest.email ≠ some email

theorem emailsSet_ne_nil {site : Site} {tr : List ServerTransition} {s : Server} {id : UUID}
    {p : Process RouteRequest RouteCall RouteCall.Answer Exn}
    (history : History (Server.Step site) Server.empty tr s) (mem : p ∈ s.processes)
    (sets : setsEmail id p = true) : emailsSet tr id ≠ [] := by
  unfold setsEmail at sets
  split at sets
  · rename_i cookies req kind
    obtain ⟨given, updated⟩ := Bool.and_eq_true_iff.mp sets
    obtain ⟨email, given⟩ := Option.isSome_iff_exists.mp given
    obtain ⟨e, called, hit⟩ := List.any_eq_true.mp updated
    obtain ⟨x, inside, past, label, -⟩ := Server.logged history mem called
    have asked : patched id x.label = some req := by
      rw [label, kind]
      exact if_pos hit
    have listed : email ∈ emailsSet tr id := by
      refine List.mem_filterMap.mpr ⟨x, inside, ?_⟩
      rw [asked]
      exact given
    exact List.ne_nil_of_mem listed
  · cases sets

theorem email_reverted : ∃ (tr : List ServerTransition) (s : Server),
    History (Server.Step localhost) Server.empty tr s ∧ s.processes.map (·.returned) =
      [true, true, true, true] ∧ ¬∀ user ∈ s.world.accounts.users, Supplied tr user := by
  have fields : (Server.play localhost (setsNot "ada@example.org" 20) crossingTabs).map (fun s =>
      (s.processes.map (·.returned), s.processes.any (setsEmail 20),
        s.world.accounts.users.map fun user => (user.id, user.email))) =
      some ([true, true, true, true], true, [(20, "ada@example.org")]) := by decide +kernel
  obtain ⟨s, played, all⟩ := Option.map_eq_some_iff.mp fields
  obtain ⟨tr, history, never⟩ := Server.play_history played
  obtain ⟨returned, rest⟩ := Prod.mk.inj all
  obtain ⟨set, users⟩ := Prod.mk.inj rest
  refine ⟨tr, s, history, returned, fun supplied => ?_⟩
  obtain ⟨user, mem, fields⟩ := List.mem_map.mp (users ▸ List.mem_singleton_self _)
  obtain ⟨id, email⟩ := Prod.mk.inj fields
  obtain ⟨p, there, sets⟩ := List.any_eq_true.mp set
  have kept := (supplied user mem).email
  rw [id, email] at kept
  obtain ⟨x, inside, given⟩ := List.mem_filterMap.mp (kept (emailsSet_ne_nil history there sets))
  have none := never x inside
  rw [setsNot, given] at none
  exact of_decide_eq_true none rfl

end Intellivault.Auth
