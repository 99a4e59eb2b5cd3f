import Intellivault.Lib.Keyed
import Intellivault.Auth.Effects

/-!
# Challenges are used once

Three ceremonies share one table and one cookie.  A challenge leaves the table with the
`DELETE` that returns it, so at most one request ever holds it, whatever that request then
does with it.  `Ledger` ties the table to the steps so far.
-/

namespace Intellivault.Auth

open Lib

/-! ## The ledger of the challenges -/

/-- The call consumed the challenge of this id. -/
def consumes (id : UUID) : RouteEvent → Bool
  | ⟨.popChallenge _, .ok (some row)⟩ => row.id = id
  | _ => false

/-- The challenge was stored by this request, after these calls. -/
def IssuedBy (tr : List ServerTransition) (k : RouteRequest) (past : RouteLog)
    (row : ChallengeRow) : Prop :=
  ∃ x ∈ tr, x.label = .call k past row.stored

def Issued (tr : List ServerTransition) (row : ChallengeRow) : Prop :=
  ∃ k past, IssuedBy tr k past row

structure Ledger (tr : List ServerTransition) (w : Store) : Prop where
  minted : ∀ row ∈ w.challenges, row.id ∈ w.minted
  distinct : (w.challenges.map (·.id)).Nodup
  issued : ∀ row ∈ w.challenges, Issued tr row
  /-- What has been consumed is not there, and its id is not drawn again. -/
  spent : ∀ x ∈ tr, ∀ id, x.label.does (consumes id) = true →
    id ∈ w.minted ∧ ∀ row ∈ w.challenges, row.id ≠ id
  once : ∀ id, (tr.countP fun x => x.label.does (consumes id)) ≤ 1
  sound : ∀ x ∈ tr, ∀ k past id row, x.label = .call k past ⟨.popChallenge id, .ok (some row)⟩ →
    id = row.id ∧ Issued tr row ∧ x.target.world.now < row.expiresAt

section Ledger

variable {site : Site} {s s' : Server} {l : ServerAction} {tr : List ServerTransition}
  {w w' : Store} {row : ChallengeRow}

theorem IssuedBy.later {k : RouteRequest} {past : RouteLog} {x : ServerTransition}
    (issued : IssuedBy tr k past row) : IssuedBy (tr ++ [x]) k past row := by
  obtain ⟨y, mem, label⟩ := issued
  exact ⟨y, List.mem_append_left _ mem, label⟩

theorem Issued.later {x : ServerTransition} (issued : Issued tr row) : Issued (tr ++ [x]) row := by
  obtain ⟨k, past, issued⟩ := issued
  exact ⟨k, past, issued.later⟩

/-- What was consumed stays accounted for. -/
theorem Ledger.sound_earlier {x : ServerTransition} (ledger : Ledger tr w) :
    ∀ y ∈ tr, ∀ k past id row, y.label = .call k past ⟨.popChallenge id, .ok (some row)⟩ →
      id = row.id ∧ Issued (tr ++ [x]) row ∧ y.target.world.now < row.expiresAt := by
  intro y inside k past id row label
  obtain ⟨same, issued, inTime⟩ := ledger.sound y inside k past id row label
  exact ⟨same, issued.later, inTime⟩

theorem Ledger.sound_quiet {x : ServerTransition} (ledger : Ledger tr w)
    (quiet : ∀ id, x.label.does (consumes id) = false) :
    ∀ y ∈ tr ++ [x], ∀ k past id row, y.label = .call k past ⟨.popChallenge id, .ok (some row)⟩ →
      id = row.id ∧ Issued (tr ++ [x]) row ∧ y.target.world.now < row.expiresAt := by
  refine forall_mem_snoc.mpr ⟨ledger.sound_earlier, fun k past id row label => ?_⟩
  have hit : x.label.does (consumes row.id) = true := by
    rw [label]
    exact decide_eq_true rfl
  rw [quiet] at hit
  cases hit

/-- A step that consumes nothing and only loses challenges. -/
theorem Ledger.shrinks {x : ServerTransition} (ledger : Ledger tr w)
    (quiet : ∀ id, x.label.does (consumes id) = false) (fewer : w'.challenges.Sublist w.challenges)
    (noted : w.minted ⊆ w'.minted) : Ledger (tr ++ [x]) w' where
  minted row mem := noted (ledger.minted row (fewer.subset mem))
  distinct := (fewer.map _).nodup ledger.distinct
  issued row mem := (ledger.issued row (fewer.subset mem)).later
  spent := by
    refine forall_mem_snoc.mpr ⟨fun y inside id hit => ?_, fun id hit => ?_⟩
    · obtain ⟨known, gone⟩ := ledger.spent y inside id hit
      exact ⟨noted known, fun row mem => gone row (fewer.subset mem)⟩
    · rw [quiet id] at hit
      cases hit
  once id := by
    rw [List.countP_append, List.countP_singleton, quiet id]
    exact ledger.once id
  sound := ledger.sound_quiet quiet

theorem Ledger.stores {x : ServerTransition} {k : RouteRequest} {past : RouteLog}
    (ledger : Ledger tr w) (label : x.label = .call k past row.stored) (fresh : row.id ∉ w.minted)
    (stored : w'.challenges = w.challenges ++ [row]) (noted : w.minted ⊆ w'.minted)
    (drawn : row.id ∈ w'.minted) : Ledger (tr ++ [x]) w' := by
  have quiet : ∀ id, x.label.does (consumes id) = false := fun id => by rw [label]; rfl
  refine ⟨?_, ?_, ?_, ?_, fun id => ?_, ledger.sound_quiet quiet⟩
  · rw [stored]
    exact forall_mem_snoc.mpr ⟨fun row mem => noted (ledger.minted row mem), drawn⟩
  · rw [stored, List.map_append, List.nodup_append]
    refine ⟨ledger.distinct, List.nodup_singleton _, fun a old b new same => ?_⟩
    obtain ⟨earlier, mem, rfl⟩ := List.mem_map.mp old
    rw [List.mem_singleton.mp new] at same
    have known := ledger.minted earlier mem
    rw [same] at known
    exact fresh known
  · rw [stored]
    exact forall_mem_snoc.mpr ⟨fun row mem => (ledger.issued row mem).later,
      k, past, x, List.mem_append_right _ (List.mem_singleton_self _), label⟩
  · refine forall_mem_snoc.mpr ⟨fun y inside id hit => ?_, fun id hit => ?_⟩
    · obtain ⟨known, gone⟩ := ledger.spent y inside id hit
      refine ⟨noted known, ?_⟩
      rw [stored]
      exact forall_mem_snoc.mpr ⟨gone, fun same => fresh (same ▸ known)⟩
    · rw [quiet id] at hit
      cases hit
  · rw [List.countP_append, List.countP_singleton, quiet id]
    exact ledger.once id

theorem Ledger.consumed {x : ServerTransition} {k : RouteRequest} {past : RouteLog}
    (ledger : Ledger tr w) (label : x.label = .call k past row.consumed) (mem : row ∈ w.challenges)
    (inTime : x.target.world.now < row.expiresAt)
    (popped : w'.challenges =
      w.challenges.filter fun c => !Statement.isPending row.id x.target.world.now c)
    (noted : w.minted ⊆ w'.minted) : Ledger (tr ++ [x]) w' := by
  have fewer : w'.challenges.Sublist w.challenges := popped ▸ List.filter_sublist
  have hits : ∀ id, x.label.does (consumes id) = decide (row.id = id) := fun id => by
    rw [label]
    rfl
  -- The ids in the table are distinct, so the row that goes was the only one with its id.
  have gone : ∀ c ∈ w'.challenges, c.id ≠ row.id := by
    intro c inside same
    rw [popped] at inside
    obtain ⟨old, kept⟩ := List.mem_filter.mp inside
    obtain rfl := List.inj_on_of_nodup_map ledger.distinct old mem same
    simp [Statement.isPending, inTime] at kept
  refine ⟨?_, (fewer.map _).nodup ledger.distinct, ?_, ?_, fun id => ?_, ?_⟩
  · exact fun c inside => noted (ledger.minted c (fewer.subset inside))
  · exact fun c inside => (ledger.issued c (fewer.subset inside)).later
  · refine forall_mem_snoc.mpr ⟨fun y inside id hit => ?_, fun id hit => ?_⟩
    · obtain ⟨known, absent⟩ := ledger.spent y inside id hit
      exact ⟨noted known, fun c inside => absent c (fewer.subset inside)⟩
    · rw [hits, decide_eq_true_eq] at hit
      subst hit
      exact ⟨noted (ledger.minted row mem), gone⟩
  · rw [List.countP_append, List.countP_singleton, hits]
    have before := ledger.once id
    by_cases same : row.id = id
    · have none : (tr.countP fun y => y.label.does (consumes id)) = 0 := by
        refine List.countP_eq_zero.mpr fun y inside hit => ?_
        exact (ledger.spent y inside id hit).2 row mem same
      rw [none]
      split <;> omega
    · rw [decide_eq_false same]
      exact before
  · refine forall_mem_snoc.mpr ⟨ledger.sound_earlier, fun k' past' id row' label' => ?_⟩
    rw [label] at label'
    cases label'
    exact ⟨rfl, (ledger.issued row mem).later, inTime⟩

theorem consumes_writes {e : RouteEvent} (idle : writes e = false) (id : UUID) :
    consumes id e = false := by
  unfold consumes
  split
  · cases idle
  · rfl

theorem Ledger.step (ledger : Ledger tr s.world) (step : Server.Step site s l s') :
    Ledger (tr ++ [⟨s, l, s'⟩]) s'.world := by
  rcases step.cases with ⟨same, k, rfl⟩ | ⟨k, past, e, draws, rfl, fresh, effect⟩
  · exact ledger.shrinks (fun _ => rfl) (by rw [same]) (by rw [same]; exact List.Subset.refl _)
  obtain ⟨now, minted⟩ := effect.steady
  have noted : s.world.minted ⊆ s'.world.minted := by
    rw [minted]
    exact fun id mem => List.mem_cons_of_mem _ (List.mem_cons_of_mem _ mem)
  generalize after : s'.world = w' at *
  cases effect with
  | idle idle =>
      exact ledger.shrinks (consumes_writes idle) (List.Sublist.refl _) noted
  | sweptChallenges =>
      exact ledger.shrinks (fun _ => rfl) List.filter_sublist noted
  | @stored row drawn =>
      refine ledger.stores rfl ?_ rfl noted ?_
      · rw [drawn]
        exact fresh.id
      · rw [drawn, minted]
        exact List.mem_cons_self
  | @consumed row mem inTime =>
      refine ledger.consumed rfl mem ?_ ?_ noted
      · rw [after, now]
        exact inTime
      · rw [after, now]
        rfl
  | _ => exact ledger.shrinks (fun _ => rfl) (List.Sublist.refl _) noted

theorem Server.ledger (history : History (Server.Step site) Server.empty tr s) :
    Ledger tr s.world := by
  induction history with
  | start =>
      have none : Server.empty.world.challenges = [] := rfl
      refine ⟨?_, ?_, ?_, List.forall_mem_nil _, fun _ => Nat.zero_le 1, List.forall_mem_nil _⟩
      · rw [none]
        exact List.forall_mem_nil _
      · rw [none]
        exact List.nodup_nil
      · rw [none]
        exact List.forall_mem_nil _
  | next before step ih => exact ih.step step

/-- A challenge a request holds was stored, and the request took it before it expired. -/
theorem Server.popped (history : History (Server.Step site) Server.empty tr s)
    {p : Process RouteRequest RouteCall RouteCall.Answer Exn} (mem : p ∈ s.processes)
    (popped : Popped p.past row) : Issued tr row := by
  obtain ⟨id, answered⟩ := popped
  obtain ⟨x, inside, past, label, -⟩ := Server.logged history mem answered
  exact ((Server.ledger history).sound x inside p.kind past id row label).2.1

/-- The request that stored a challenge stored what its ceremony begins with. -/
theorem IssuedBy.begins (history : History (Server.Step site) Server.empty tr s)
    {k : RouteRequest} {past : RouteLog} (issued : IssuedBy tr k past row) :
    k.Begins site past row.userId row.email row.displayName := by
  obtain ⟨x, inside, label⟩ := issued
  exact Server.allowed history inside label

/-- A process that has returned. -/
theorem Server.done (history : History (Server.Step site) Server.empty tr s)
    {p : Process RouteRequest RouteCall RouteCall.Answer Exn} (mem : p ∈ s.processes)
    (returned : p.rest = .ret ()) : p.kind.Done site p.past (.ok ()) := by
  have ended : p.rest = Prog.ended (.ok ()) := returned
  exact Pool.Scripted.ended (Server.scripted history).1 mem ended

end Ledger

/-! ## No challenge is replayed -/

/-- The request added a user with this email and name. -/
def CreatedBy (tr : List ServerTransition) (p : Process RouteRequest RouteCall RouteCall.Answer Exn)
    (email displayName : String) : Prop :=
  ∃ verified transports, ∃ user : UserRow, user.email = email ∧ user.displayName = displayName ∧
    Answered p.past (.account (.registration email displayName verified transports)) user ∧
      ∃ x ∈ tr, ∃ past,
        x.label = .call p.kind past
          ⟨.account (.registration email displayName verified transports), .ok user⟩ ∧
        x.target.world.accounts.users = x.source.world.accounts.users ++ [user]

structure ReplaySafe (site : Site) (tr : List ServerTransition) (s : Server) : Prop where
  /-- All requests together consume a challenge at most once. -/
  once : ∀ id, (s.processes.map fun p => p.past.countP (consumes id)).sum ≤ 1
  /-- Before it expires. -/
  inTime : ∀ x ∈ tr, ∀ k past row, x.label = .call k past row.consumed →
    Issued tr row ∧ x.target.world.now < row.expiresAt
  finished : ∀ p ∈ s.processes, p.kind.Finishes → p.rest = .ret () →
    ∃ row, Popped p.past row ∧ Issued tr row
  registered : ∀ p ∈ s.processes, ∀ cookies credential,
    p.kind = .registerFinish cookies credential → p.rest = .ret () →
      ∃ row req past, Popped p.past row ∧ IssuedBy tr (.registerBegin req) past row ∧
        CreatedBy tr p req.email req.displayName.val
  added : ∀ p ∈ s.processes, ∀ cookies req,
    p.kind = .addPasskeyFinish cookies req → p.rest = .ret () →
      ∃ row cookies' past begun user, Popped p.past row ∧
        IssuedBy tr (.addPasskeyBegin cookies') past row ∧ SignedIn site cookies' past begun ∧
          SignedIn site cookies p.past user ∧ begun.id = user.id
  /-- The sweep leaves what has not expired. -/
  sweep : ∀ x ∈ tr, ∀ k past r, x.label = .call k past ⟨.sweepChallenges, r⟩ →
    ∀ row ∈ x.source.world.challenges, x.target.world.now ≤ row.expiresAt →
      row ∈ x.target.world.challenges

section ReplaySafe

variable {site : Site} {s : Server} {tr : List ServerTransition}
  {p : Process RouteRequest RouteCall RouteCall.Answer Exn}

theorem Server.finished (history : History (Server.Step site) Server.empty tr s)
    (mem : p ∈ s.processes) (finishes : p.kind.Finishes) (returned : p.rest = .ret ()) :
    ∃ row, Popped p.past row ∧ Issued tr row := by
  have outcome := (Server.done history mem returned).1
  obtain ⟨kind, past, rest⟩ := p
  cases kind with
  | registerFinish cookies credential =>
      obtain ⟨row, _, _, _, _, _, popped, -⟩ := outcome
      exact ⟨row, popped, Server.popped history mem popped⟩
  | loginFinish cookies credential =>
      obtain ⟨row, popped⟩ := outcome
      exact ⟨row, popped, Server.popped history mem popped⟩
  | addPasskeyFinish cookies req =>
      obtain ⟨row, _, popped, -⟩ := outcome
      exact ⟨row, popped, Server.popped history mem popped⟩
  | _ => cases finishes

theorem Server.created (history : History (Server.Step site) Server.empty tr s)
    (mem : p ∈ s.processes) {email displayName : String} {verified : Verified}
    {transports : List String} {user : UserRow}
    (answered : Answered p.past (.account (.registration email displayName verified transports))
      user) : CreatedBy tr p email displayName := by
  obtain ⟨x, inside, past, label, -⟩ := Server.logged history mem answered
  obtain ⟨draws, _, effect⟩ := served_effect (Server.answered history inside label)
  generalize after : x.target.world = w' at effect
  cases effect with
  | idle idle => cases idle
  | registered =>
      refine ⟨verified, transports, _, rfl, rfl, answered, x, inside, past, label, ?_⟩
      rw [after]
      rfl

theorem Server.registered (history : History (Server.Step site) Server.empty tr s)
    (mem : p ∈ s.processes) {cookies : Cookies} {credential : CeremonyResponse}
    (kind : p.kind = .registerFinish cookies credential) (returned : p.rest = .ret ()) :
    ∃ row req past, Popped p.past row ∧ IssuedBy tr (.registerBegin req) past row ∧
      CreatedBy tr p req.email req.displayName.val := by
  have outcome := (Server.done history mem returned).1
  rw [kind] at outcome
  obtain ⟨row, email, displayName, verified, transports, user, popped, hasEmail, hasName, answered⟩ :=
    outcome
  obtain ⟨begun, past, issued⟩ := Server.popped history mem popped
  have begins := issued.begins history
  rw [hasEmail, hasName] at begins
  cases begun with
  | registerBegin req =>
      obtain ⟨-, email', name'⟩ := begins
      have created := Server.created history mem answered
      rw [Option.some.inj email', Option.some.inj name'] at created
      exact ⟨row, req, past, popped, issued, created⟩
  | loginBegin => cases begins.2.1
  | addPasskeyBegin _ => cases begins.2.1
  | _ => exact begins.elim

theorem Server.added (history : History (Server.Step site) Server.empty tr s)
    (mem : p ∈ s.processes) {cookies : Cookies} {req : AddPasskeyFinishRequest}
    (kind : p.kind = .addPasskeyFinish cookies req) (returned : p.rest = .ret ()) :
    ∃ row cookies' past begun user, Popped p.past row ∧
      IssuedBy tr (.addPasskeyBegin cookies') past row ∧ SignedIn site cookies' past begun ∧
        SignedIn site cookies p.past user ∧ begun.id = user.id := by
  have outcome := (Server.done history mem returned).1
  rw [kind] at outcome
  obtain ⟨row, user, popped, signedIn, owned⟩ := outcome
  obtain ⟨begun, past, issued⟩ := Server.popped history mem popped
  have begins := issued.begins history
  rw [owned] at begins
  cases begun with
  | addPasskeyBegin cookies' =>
      obtain ⟨⟨user', signedIn', same⟩, -⟩ := begins
      exact ⟨row, cookies', past, user', user, popped, issued, signedIn', signedIn,
        (Option.some.inj same).symm⟩
  | registerBegin _ => cases begins.1
  | loginBegin => cases begins.1
  | _ => exact begins.elim

theorem Server.swept (history : History (Server.Step site) Server.empty tr s)
    {x : ServerTransition} (inside : x ∈ tr) {k : RouteRequest} {past : RouteLog}
    {r : Except Exn Unit} (label : x.label = .call k past ⟨.sweepChallenges, r⟩)
    {row : ChallengeRow} (mem : row ∈ x.source.world.challenges)
    (inTime : x.target.world.now ≤ row.expiresAt) : row ∈ x.target.world.challenges := by
  obtain ⟨draws, _, effect⟩ := served_effect (Server.answered history inside label)
  have now := effect.steady.1
  generalize after : x.target.world = w' at *
  cases effect with
  | idle idle => exact mem
  | sweptChallenges =>
      refine List.mem_filter.mpr ⟨mem, decide_eq_true ?_⟩
      exact Nat.not_lt.mpr inTime

/-- **No challenge is used twice, late or for another account**: whatever requests come and
however their calls interleave, a challenge is consumed once, before it expires; a
registration finishes what a registration began, with its email and name, and a passkey is
added for the user who asked for it. -/
theorem replay_safe (history : History (Server.Step site) Server.empty tr s) :
    ReplaySafe site tr s where
  once id := by
    rw [Pool.logged_count (consumes id) history]
    exact (Server.ledger history).once id
  inTime x inside k past row label := ((Server.ledger history).sound x inside k past _ row label).2
  finished _ mem finishes returned := Server.finished history mem finishes returned
  registered _ mem _ _ kind returned := Server.registered history mem kind returned
  added _ mem _ _ kind returned := Server.added history mem kind returned
  sweep _ inside _ _ _ label _ mem inTime := Server.swept history inside label mem inTime

end ReplaySafe

/-- Ada registers and adds a second passkey. -/
def secondPasskey : List (Pool.Move RouteRequest Draws) :=
  registering ++ .start (.addPasskeyBegin { session := adasSession }) :: inTurn 2 14 6 ++
    .start (.addPasskeyFinish
      { session := adasSession, ceremony := some "00000000000000000000000000000027" }
      ⟨⟨"Laptop", by decide⟩, passkey⟩) :: inTurn 3 20 2 ++
    .call 3 { draw 22 with choices := { (draw 22).choices with verified := .ok ⟨[9], [2], 0, "0"⟩ } } ::
      inTurn 3 23 2

theorem replay_safe_secondPasskey : ∃ (tr : List ServerTransition) (s : Server),
    History (Server.Step localhost) Server.empty tr s ∧ s.processes.map (·.returned) =
      [true, true, true, true] ∧ ReplaySafe localhost tr s := by
  have finished : (Server.play localhost (fun _ => true) secondPasskey).map
      (fun s => s.processes.map (·.returned)) = some [true, true, true, true] := by decide
  obtain ⟨s, played, returned⟩ := Option.map_eq_some_iff.mp finished
  obtain ⟨tr, history, -⟩ := Server.play_history played
  exact ⟨tr, s, history, returned, replay_safe history⟩

/-! ## Which challenges complete a login -/

/-- Every login that succeeded was begun as a login. -/
def LoginBound (tr : List ServerTransition) (s : Server) : Prop :=
  ∀ p ∈ s.processes, ∀ cookies credential, p.kind = .loginFinish cookies credential →
    p.rest = .ret () → ∀ row, Popped p.past row → ∃ past, IssuedBy tr .loginBegin past row

/-- Nothing is stored with the challenge. -/
def ChallengeRow.Blank (row : ChallengeRow) : Prop :=
  row.userId = none ∧ row.email = none ∧ row.displayName = none

/-- Every login that succeeded took a challenge that nothing is stored with. -/
def LoginsBlank (s : Server) : Prop :=
  ∀ p ∈ s.processes, ∀ cookies credential, p.kind = .loginFinish cookies credential →
    p.rest = .ret () → ∀ row, Popped p.past row → row.Blank

section LoginBound

variable {site : Site} {s : Server} {tr : List ServerTransition} {row : ChallengeRow}

/-- Only a login begins with a blank challenge. -/
theorem Issued.byLogin_iff (history : History (Server.Step site) Server.empty tr s)
    (issued : Issued tr row) : (∃ past, IssuedBy tr .loginBegin past row) ↔ row.Blank := by
  apply Iff.intro
  · intro ⟨past, byLogin⟩
    exact byLogin.begins history
  · intro ⟨noUser, noEmail, _⟩
    obtain ⟨k, past, issued⟩ := issued
    have begins := issued.begins history
    rw [noUser, noEmail] at begins
    cases k with
    | loginBegin => exact ⟨past, issued⟩
    | registerBegin _ => cases begins.2.1
    | addPasskeyBegin _ =>
        obtain ⟨⟨_, _, same⟩, _⟩ := begins
        cases same
    | _ => exact begins.elim

/-- **A login is bound to a login ceremony exactly as long as the challenges it takes are
blank**: `finish_login` does not look at what is stored with its challenge. -/
theorem login_bound_iff (history : History (Server.Step site) Server.empty tr s) :
    LoginBound tr s ↔ LoginsBlank s := by
  have each : ∀ p ∈ s.processes, ∀ row, Popped p.past row →
      ((∃ past, IssuedBy tr .loginBegin past row) ↔ row.Blank) := fun p mem row popped =>
    (Server.popped history mem popped).byLogin_iff history
  apply Iff.intro
  · intro bound p mem cookies credential kind returned row popped
    exact (each p mem row popped).mp (bound p mem cookies credential kind returned row popped)
  · intro blank p mem cookies credential kind returned row popped
    exact (each p mem row popped).mpr (blank p mem cookies credential kind returned row popped)

end LoginBound

/-- Ada logs in. -/
def loggingIn : List (Pool.Move RouteRequest Draws) :=
  registering ++ .start .loginBegin :: inTurn 2 14 4 ++
    .start (.loginFinish { ceremony := some "00000000000000000000000000000023" } passkey) ::
      inTurn 3 18 9

theorem login_bound_iff_loggingIn : ∃ (tr : List ServerTransition) (s : Server),
    History (Server.Step localhost) Server.empty tr s ∧ s.processes.map (·.returned) =
      [true, true, true, true] ∧ (LoginBound tr s ↔ LoginsBlank s) := by
  have finished : (Server.play localhost (fun _ => true) loggingIn).map
      (fun s => s.processes.map (·.returned)) = some [true, true, true, true] := by decide +kernel
  obtain ⟨s, played, returned⟩ := Option.map_eq_some_iff.mp finished
  obtain ⟨tr, history, -⟩ := Server.play_history played
  exact ⟨tr, s, history, returned, login_bound_iff history⟩

/-- Ada's passkey answers the challenge of a registration that Bob began. -/
def borrowing : List (Pool.Move RouteRequest Draws) :=
  registering ++ .start (.registerBegin ⟨"bob@example.org", ⟨"Bob", by decide⟩⟩) :: inTurn 2 14 6 ++
    .start (.loginFinish { ceremony := some "00000000000000000000000000000027" } passkey) ::
      inTurn 3 20 9

/-- The call took a challenge with an email. -/
def takesNamed : RouteEvent → Bool
  | ⟨.popChallenge _, .ok (some row)⟩ => row.email.isSome
  | _ => false

/-- A login that succeeded with such a challenge. -/
def borrowed (p : Process RouteRequest RouteCall RouteCall.Answer Exn) : Bool :=
  match p.kind with
  | .loginFinish _ _ => p.returned && p.past.any takesNamed
  | _ => false

theorem login_not_bound : ∃ (tr : List ServerTransition) (s : Server),
    History (Server.Step localhost) Server.empty tr s ∧ ¬LoginBound tr s := by
  have finished : (Server.play localhost (fun _ => true) borrowing).map
      (fun s => s.processes.any borrowed) = some true := by decide +kernel
  obtain ⟨s, played, hit⟩ := Option.map_eq_some_iff.mp finished
  obtain ⟨tr, history, -⟩ := Server.play_history played
  refine ⟨tr, s, history, fun bound => ?_⟩
  obtain ⟨p, mem, hit⟩ := List.any_eq_true.mp hit
  unfold borrowed at hit
  split at hit
  · rename_i cookies credential kind
    obtain ⟨returned, taken⟩ := Bool.and_eq_true_iff.mp hit
    obtain ⟨e, called, named⟩ := List.any_eq_true.mp taken
    unfold takesNamed at named
    split at named
    · rename_i id row
      obtain ⟨past, issued⟩ := bound p mem cookies credential kind
        (Process.rest_of_returned returned) row ⟨id, called⟩
      rw [(issued.begins history).2.1] at named
      cases named
    · cases named
  · cases hit

end Intellivault.Auth
