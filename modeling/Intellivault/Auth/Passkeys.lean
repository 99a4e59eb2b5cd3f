import Intellivault.Lib.Keyed
import Intellivault.Lib.Since
import Intellivault.Auth.Service

/-!
# The last passkey

`delete_credential.sql` counts the user's passkeys in the snapshot it starts from.  That keeps
the last one as long as no other `DELETE` takes a passkey of the user before this one takes
effect; two sessions that start before either has removed its row take both.
-/

namespace Intellivault.Auth

open Lib

/-! ## What a call does to the tables -/

/-- The changes that only add rows. -/
inductive Db.Grows (db : Db) : Db → Prop
  | same : Grows db db
  | registered {user : UserRow} {row : CredentialRow} (own : row.userId = user.id)
      (fresh : ∀ c ∈ db.credentials, c.id ≠ row.id) :
      Grows db { users := db.users ++ [user], credentials := db.credentials ++ [row] }
  | added {row : CredentialRow} (known : ∃ user ∈ db.users, user.id = row.userId)
      (fresh : ∀ c ∈ db.credentials, c.id ≠ row.id) :
      Grows db { db with credentials := db.credentials ++ [row] }

theorem Statement.insertUser_ok {lower : String → String} {id : UUID} {now : Time}
    {email displayName : String} {db db' : Db} {user : UserRow}
    (done : insertUser lower id now email displayName db = .ok (some user, db')) :
    db' = { db with users := db.users ++ [user] } := by
  unfold insertUser at done
  split at done
  · cases done
  · split at done
    · cases done
    · injection done with done
      injection done with row table
      injection row with row
      rw [← table, ← row]

theorem Statement.insertCredential_ok {id newId : UUID} {now : Time} {userId : UUID}
    {verified : Verified} {transports : List String} {name : String} {db db' : Db}
    (done : insertCredential id now userId verified transports name db = .ok (newId, db')) :
    ∃ row : CredentialRow, row.userId = userId ∧ (∀ c ∈ db.credentials, c.id ≠ row.id) ∧
      (∃ user ∈ db.users, user.id = userId) ∧
      db' = { db with credentials := db.credentials ++ [row] } := by
  unfold insertCredential at done
  split at done
  · cases done
  rename_i free
  split at done
  · cases done
  rename_i known
  injection done with done
  injection done with _ table
  exact ⟨_, rfl, fun c mem same => free ⟨c, mem, .inl same⟩, not_not.mp known, table.symm⟩

/-- The transaction adds the user and the passkey, or nothing. -/
theorem registration_ok {lower : String → String} {userId id : UUID} {now : Time}
    {email displayName : String} {verified : Verified} {transports : List String} {db db' : Db}
    {user : UserRow}
    (done : registration lower userId id now email displayName verified transports db =
      .ok (user, db')) : db.Grows db' := by
  unfold registration at done
  split at done
  · cases done
  · cases done
  · rename_i row middle inserted
    have users := Statement.insertUser_ok inserted
    split at done
    · cases done
    · rename_i newId last stored
      injection done with done
      injection done with _ table
      obtain ⟨credential, own, fresh, _, rfl⟩ := Statement.insertCredential_ok stored
      rw [← table, users]
      rw [users] at fresh
      exact .registered own fresh

theorem Statement.deleteCredential_cases (seen : Db) (id userId : UUID) (db : Db) :
    (deleteCredential seen id userId db).2 = db ∨
      mayDelete seen id userId ∧ db.credentials.any (isTarget id userId) ∧
        (deleteCredential seen id userId db).2 = remove id userId db := by
  unfold deleteCredential
  split
  · rename_i deletes
    exact .inr ⟨deletes.1, deletes.2, rfl⟩
  · exact .inl rfl

/-- The `DELETE` of a row that is there, by a statement whose snapshot had another one. -/
structure Removal (seen : Db) (id userId : UUID) (db db' : Db) : Prop where
  allowed : Statement.mayDelete seen id userId
  present : db.credentials.any (Statement.isTarget id userId)
  removed : db' = Statement.remove id userId db

/-- A call adds rows, or it is a `DELETE` that removes its target. -/
theorem Call.respond_cases (lower : String → String) (choices : Choices) (c : Call) (db : Db) :
    db.Grows (c.respond lower choices db).2 ∨ ∃ seen id userId,
      c = .deleteCredential seen id userId ∧
      Removal seen id userId db (c.respond lower choices db).2 := by
  cases c with
  | verify _ _ | issueSession _ | credentialSummaryById _ | snapshot | credentialExists _ _ =>
      exact .inl .same
  | registration email displayName verified transports =>
      rw [respond]
      split
      · rename_i user after ran
        exact .inl (registration_ok ran)
      · exact .inl .same
  | insertCredential userId verified transports name =>
      rw [respond]
      split
      · rename_i id after ran
        obtain ⟨row, own, fresh, known, table⟩ := Statement.insertCredential_ok ran
        rw [table]
        exact .inl (.added (by rwa [own]) fresh)
      · exact .inl .same
  | deleteCredential seen id userId =>
      rcases Statement.deleteCredential_cases seen id userId db with
        kept | ⟨allowed, present, removed⟩
      · refine .inl ?_
        rw [respond, kept]
        exact .same
      · exact .inr ⟨seen, id, userId, rfl, allowed, present, removed⟩

/-- A step of the sessions, seen from the tables. -/
theorem Sessions.Step.cases {lower : String → String} {s s' : Sessions}
    {a : Action Request Call Call.Answer Exn} (moved : Sessions.Step lower s a s') :
    s.world.Grows s'.world ∨ ∃ kind past seen id userId r,
      a = .call kind past ⟨.deleteCredential seen id userId, r⟩ ∧
      Removal seen id userId s.world s'.world := by
  cases moved with
  | start arrived =>
      obtain rfl : _ = _ := arrived
      exact .inl .same
  | @call db db' before after kind past c f r answer =>
      obtain ⟨choices, answer⟩ := answer
      have outcome : db' = db ∨ db' = (c.respond lower choices db).2 := by
        rcases answer with ⟨_, done⟩ | ⟨_, done⟩
        · exact .inr done
        · exact done
      rcases outcome with rfl | rfl
      · exact .inl .same
      · rcases c.respond_cases lower choices db with grown | ⟨seen, id, userId, rfl, removal⟩
        · exact .inl grown
        · exact .inr ⟨kind, past, seen, id, userId, r, rfl, removal⟩

/-! ## The invariant -/

/-- The constraints the tables keep. -/
structure Db.Sound (db : Db) : Prop where
  ids : (db.credentials.map (·.id)).Nodup
  refs : ∀ c ∈ db.credentials, ∃ user ∈ db.users, user.id = c.userId

theorem Db.passkeys_append (db : Db) (users : List UserRow) (row : CredentialRow) (userId : UUID) :
    Db.passkeys { users, credentials := db.credentials ++ [row] } userId =
      db.passkeys userId + if row.userId = userId then 1 else 0 := by
  simp [Db.passkeys, List.countP_append]

/-- Removing a passkey takes exactly one from its user's count. -/
theorem Statement.passkeys_remove {db : Db} (sound : db.Sound) {id userId : UUID}
    (present : db.credentials.any (isTarget id userId)) :
    (remove id userId db).passkeys userId + 1 = db.passkeys userId := by
  obtain ⟨c, mem, hit⟩ := List.any_eq_true.mp present
  have owned : ∀ d, isTarget id userId d → d.userId = userId := by
    intro d target
    simp only [isTarget, decide_eq_true_eq] at target
    exact target.2
  have single : (db.credentials.filter (isTarget id userId)).countP (·.userId = userId) = 1 := by
    have same : db.credentials.filter (isTarget id userId) = [c] := by
      refine filter_eq_singleton sound.ids mem hit fun d _ other => ?_
      simp only [isTarget, decide_eq_true_eq] at hit other
      rw [other.1, hit.1]
    rw [same]
    simp [owned c hit]
  have parts := List.countP_eq_countP_filter_add db.credentials (·.userId = userId)
    (isTarget id userId)
  rw [single, Nat.add_comm] at parts
  exact parts.symm

theorem Statement.passkeys_remove_of_ne (db : Db) {id userId other : UUID} (ne : other ≠ userId) :
    (remove id userId db).passkeys other = db.passkeys other := by
  rw [Db.passkeys, Db.passkeys, remove, List.countP_filter]
  refine List.countP_congr fun c _ => ?_
  simp only [isTarget, decide_eq_true_eq, Bool.and_eq_true, Bool.not_eq_true', decide_eq_false_iff_not]
  constructor
  · exact fun h => h.1
  · rintro rfl
    exact ⟨rfl, fun h => ne h.2⟩

theorem Statement.sound_remove {db : Db} (sound : db.Sound) (id userId : UUID) :
    (remove id userId db).Sound where
  ids := (List.filter_sublist.map _).nodup sound.ids
  refs c mem := sound.refs c (List.mem_of_mem_filter mem)

theorem Db.Grows.sound {db db' : Db} (grows : db.Grows db') (sound : db.Sound) : db'.Sound := by
  cases grows with
  | same => exact sound
  | @registered user row own fresh =>
      refine ⟨?_, fun c mem => ?_⟩
      · simpa [List.nodup_append, sound.ids] using fresh
      · rcases List.mem_append.mp mem with old | new
        · obtain ⟨user, known, same⟩ := sound.refs c old
          exact ⟨user, List.mem_append_left _ known, same⟩
        · rw [List.mem_singleton.mp new]
          exact ⟨user, by simp, own.symm⟩
  | @added row known fresh =>
      refine ⟨?_, fun c mem => ?_⟩
      · simpa [List.nodup_append, sound.ids] using fresh
      · rcases List.mem_append.mp mem with old | new
        · exact sound.refs c old
        · rw [List.mem_singleton.mp new]
          exact known

theorem Db.Grows.noneLockedOut {db db' : Db} (grows : db.Grows db') (fine : db.NoneLockedOut) :
    db'.NoneLockedOut := by
  cases grows with
  | same => exact fine
  | registered own _ =>
      intro user mem
      rw [Db.passkeys_append]
      rcases List.mem_append.mp mem with old | new
      · exact Nat.add_pos_left (fine user old) _
      · rw [List.mem_singleton.mp new, if_pos own]
        exact Nat.succ_pos _
  | added _ _ =>
      intro user mem
      rw [Db.passkeys_append]
      exact Nat.add_pos_left (fine user mem) _

theorem Sessions.Step.sound {lower : String → String} {s s' : Sessions}
    {a : Action Request Call Call.Answer Exn} (moved : Sessions.Step lower s a s')
    (sound : s.world.Sound) : s'.world.Sound := by
  rcases moved.cases with grows | ⟨_, _, _, id, userId, _, _, removal⟩
  · exact grows.sound sound
  · rw [removal.removed]
    exact Statement.sound_remove sound id userId

/-! ## When a delete is safe -/

/-- The step takes a passkey from the user. -/
def Takes (userId : UUID) (x : Transition Sessions (Action Request Call Call.Answer Exn)) : Prop :=
  x.target.world.passkeys userId < x.source.world.passkeys userId

/-- Between the snapshot of a `DELETE` and its effect, no other one takes a passkey of the user. -/
def NoRival (before : List (Transition Sessions (Action Request Call Call.Answer Exn)))
    (x : Transition Sessions (Action Request Call Call.Answer Exn)) : Prop :=
  match x.label with
  | .call k past ⟨.deleteCredential seen _ userId, _⟩ =>
      Pool.Since before k past (· = ⟨.snapshot, .ok seen⟩) fun z => ¬Takes userId z
  | _ => True

section Sessions

variable {lower : String → String} {s s' : Sessions} {a : Action Request Call Call.Answer Exn}
  {tr : List (Transition Sessions (Action Request Call Call.Answer Exn))}

/-- A `DELETE` takes effect after its snapshot. -/
def Request.Allows (_ : Request) (log : List (Prog.Event Call Call.Answer Exn)) : Call → Prop
  | .deleteCredential seen _ _ => ⟨.snapshot, .ok seen⟩ ∈ log
  | _ => True

def Call.isDelete : Call → Bool
  | .deleteCredential _ _ _ => true
  | _ => false

theorem calls_other {c : Call} (other : c.isDelete = false) :
    (call c).Calls fun c => c.isDelete = false := Prog.calls_perform other

theorem verifyRegistration_calls {challenge : Bytes} {credential : CeremonyResponse} :
    (verifyRegistration challenge credential).Calls fun c => c.isDelete = false := by
  refine (calls_other rfl).handle fun exc => ?_
  cases exc <;> exact Prog.calls_raise

theorem finishRegistration_calls {challenge : Bytes} {email displayName : Option String}
    {credential : CeremonyResponse} :
    (finishRegistration challenge email displayName credential).Calls fun c => c.isDelete = false := by
  unfold finishRegistration
  split
  · refine verifyRegistration_calls.bind fun verified => ?_
    refine (calls_other rfl).bind fun row => ?_
    exact (calls_other rfl).bind fun token => Prog.calls_ret
  · exact Prog.calls_raise

theorem finishAddPasskey_calls {challenge : Bytes} {userId : Option UUID} {user : SessionUser}
    {req : AddPasskeyFinishRequest} :
    (finishAddPasskey challenge userId user req).Calls fun c => c.isDelete = false := by
  unfold finishAddPasskey
  split
  · exact Prog.calls_raise
  · refine verifyRegistration_calls.bind fun verified => ?_
    refine ((calls_other rfl).handle fun exc => Prog.calls_raise).bind fun newId => ?_
    refine (calls_other rfl).bind fun row => ?_
    cases row
    · exact Prog.calls_raise
    · exact Prog.calls_ret

theorem Request.allows_other {k : Request} {log : List (Prog.Event Call Call.Answer Exn)} {c : Call}
    (other : c.isDelete = false) : k.Allows log c := by
  cases c with
  | deleteCredential seen id userId => cases other
  | _ => trivial

theorem deleteCredential_scripted {k : Request} {user : SessionUser} {credentialId : UUID} :
    (deleteCredential user credentialId).Scripted (fun _ => True) k.Allows (fun _ _ => True) [] := by
  unfold deleteCredential deleteStatement
  refine Prog.scripted_bind.mpr (Prog.scripted_bind.mpr ?_)
  refine Prog.scripted_perform.mpr ⟨trivial, fun snapshot _ => ?_⟩
  rcases snapshot with _ | seen
  · trivial
  have read : k.Allows [⟨.snapshot, .ok seen⟩] (.deleteCredential seen credentialId user.id) :=
    List.mem_singleton_self _
  refine Prog.scripted_perform.mpr ⟨read, fun deleted _ => ?_⟩
  rcases deleted with _ | deleted
  · trivial
  refine Prog.Calls.anytime (P := fun c => c.isDelete = false) ?_ fun _ _ => Request.allows_other
  split
  · exact Prog.calls_ret
  · refine (calls_other rfl).bind fun found => ?_
    split <;> exact Prog.calls_raise

theorem Request.scripted (k : Request) :
    k.body.Scripted (fun _ => True) k.Allows (fun _ _ => True) [] := by
  cases k with
  | finishRegistration challenge email displayName credential =>
      exact (finishRegistration_calls.bind fun _ => Prog.calls_ret).anytime fun _ _ => allows_other
  | finishAddPasskey challenge userId user req =>
      exact (finishAddPasskey_calls.bind fun _ => Prog.calls_ret).anytime fun _ _ => allows_other
  | deleteCredential user credentialId => exact deleteCredential_scripted

theorem Sessions.scripted (history : History (Sessions.Step lower) ⟨{}, []⟩ tr s) :
    Pool.Scripted (fun _ => True) Request.Allows (fun _ _ _ => True) s := by
  induction history with
  | start => exact nofun
  | next before step ih =>
      exact Pool.Step.scripted (fun _ _ _ _ _ => trivial) Request.scripted step ih

theorem Sessions.sound (history : History (Sessions.Step lower) ⟨{}, []⟩ tr s) :
    s.world.Sound := by
  induction history with
  | start => exact ⟨List.nodup_nil, List.forall_mem_nil _⟩
  | next before step ih => exact step.sound ih

/-- What a `DELETE` sees is what is committed. -/
theorem postgres_snapshot {seen db db' : Db} (answer : postgres lower .snapshot db (.ok seen) db') :
    db' = seen := by
  obtain ⟨choices, ⟨same, rfl⟩ | ⟨⟨exc, failed⟩, -⟩⟩ := answer
  · exact (Except.ok.inj same).symm
  · cases failed

/-- Without a rival, the user has as many passkeys as the `DELETE` has counted. -/
theorem counted {kind : Request} {past : List (Prog.Event Call Call.Answer Exn)} {seen : Db}
    {id userId : UUID} {r : Except Exn (Option UUID)}
    (before : History (Sessions.Step lower) ⟨{}, []⟩ tr s)
    (step : Sessions.Step lower s (.call kind past ⟨.deleteCredential seen id userId, r⟩) s')
    (alone : NoRival tr ⟨s, .call kind past ⟨.deleteCredential seen id userId, r⟩, s'⟩) :
    seen.passkeys userId ≤ s.world.passkeys userId := by
  have since : Pool.Since tr kind past (· = ⟨.snapshot, .ok seen⟩) _ := alone
  refine since.kept (P := fun t => seen.passkeys userId ≤ t.world.passkeys userId) before
    (Pool.Step.allows step (Sessions.scripted before)) rfl ?_ ?_
  · intro _ x _ _ _ answer
    rw [postgres_snapshot answer]
  · intro _ z _ _ _ _ quiet enough
    exact enough.trans (Nat.le_of_not_lt quiet)

/-- A step without a rival leaves every user a passkey. -/
theorem noneLockedOut_step (before : History (Sessions.Step lower) ⟨{}, []⟩ tr s)
    (step : Sessions.Step lower s a s') (alone : NoRival tr ⟨s, a, s'⟩)
    (fine : s.world.NoneLockedOut) : s'.world.NoneLockedOut := by
  rcases step.cases with grows | ⟨kind, past, seen, id, userId, r, rfl, removal⟩
  · exact grows.noneLockedOut fine
  have guard : 1 < seen.passkeys userId := (of_decide_eq_true removal.allowed).2
  have enough : 1 < s.world.passkeys userId := guard.trans_le (counted before step alone)
  have one := Statement.passkeys_remove (Sessions.sound before) removal.present
  intro user mem
  rw [removal.removed] at mem ⊢
  by_cases same : user.id = userId
  · rw [same]
    omega
  · rw [Statement.passkeys_remove_of_ne _ same]
    exact fine user mem

/-- **The last passkey stays as long as no `DELETE` has a rival.** -/
theorem passkey_kept (history : History (Sessions.Step lower) ⟨{}, []⟩ tr s)
    (alone : Throughout NoRival tr) : ∀ x ∈ tr, x.target.world.NoneLockedOut := by
  have start : Db.NoneLockedOut {} := List.forall_mem_nil _
  suffices all : s.world.NoneLockedOut ∧ ∀ x ∈ tr, x.target.world.NoneLockedOut from all.2
  induction history with
  | start => exact ⟨start, List.forall_mem_nil _⟩
  | next before step ih =>
      obtain ⟨earlier, last⟩ := throughout_snoc.mp alone
      obtain ⟨fine, all⟩ := ih earlier
      have fine' := noneLockedOut_step before step last fine
      exact ⟨fine', forall_mem_snoc.mpr ⟨all, fine'⟩⟩

end Sessions

/-! ## Two deletes at once -/

theorem Db.Grows.passkeys_le {db db' : Db} (grows : db.Grows db') (userId : UUID) :
    db.passkeys userId ≤ db'.passkeys userId := by
  cases grows with
  | same => exact le_rfl
  | registered _ _ | added _ _ =>
      rw [Db.passkeys_append]
      exact Nat.le_add_right _ _

def deletes (x : Transition Sessions (Action Request Call Call.Answer Exn)) : Bool :=
  x.label.does fun e => e.1.isDelete

/-- The one `DELETE` of a history has no rival. -/
theorem noRival_of_one {lower : String → String} {s : Sessions}
    {tr : List (Transition Sessions (Action Request Call Call.Answer Exn))}
    (history : History (Sessions.Step lower) ⟨{}, []⟩ tr s)
    (one : tr.countP deletes ≤ 1) : Throughout NoRival tr := by
  intro before x after split
  subst split
  unfold NoRival
  split
  · rename_i k past seen id userId r label
    intro earlier e later log read
    obtain ⟨upTo, step⟩ := history.upTo rfl
    rw [label] at step
    obtain ⟨first, y, between, rfl, called⟩ := Pool.Step.recalled upTo step log
    refine ⟨first, y, between, rfl, called, fun z inside takes => ?_⟩
    have moved := history.step_of_mem z (by simp [inside])
    rcases Sessions.Step.cases moved with grows | ⟨_, _, _, _, _, _, other, _⟩
    · exact absurd takes (Nat.not_lt_of_le (grows.passkeys_le userId))
    · have there : deletes z = true := by
        rw [deletes, other]
        rfl
      have here : deletes x = true := by
        rw [deletes, label]
        rfl
      have twice : 0 < between.countP deletes := List.countP_pos_iff.mpr ⟨z, inside, there⟩
      rw [List.countP_append, List.countP_append, List.countP_cons, List.countP_cons, if_pos here]
        at one
      omega
  · trivial

section Race

def raceResponse : CeremonyResponse := ⟨.obj [], []⟩

def raceUser : SessionUser := ⟨1, "u@example.com", "U"⟩

/-- One user registers and adds a second passkey. -/
def twoPasskeys : List (Pool.Move Request Choices) := [
  .start (.finishRegistration [] (some "u@example.com") (some "U") raceResponse),
  .call 0 { verified := .ok ⟨[1], [], 0, ""⟩ },
  .call 0 { userId := 1, id := 11 },
  .start (.finishAddPasskey [] (some 1) raceUser ⟨⟨"second", by decide⟩, raceResponse⟩),
  .call 1 { verified := .ok ⟨[2], [], 0, ""⟩ },
  .call 1 { id := 12 }]

/-- Both are deleted in two tabs. -/
def twoTabs : List (Pool.Move Request Choices) :=
  twoPasskeys ++ [
    .start (.deleteCredential raceUser 11), .start (.deleteCredential raceUser 12),
    .call 2 {}, .call 3 {}, .call 2 {}, .call 3 {}]

/-- One is deleted while a third one is added. -/
def addedMeanwhile : List (Pool.Move Request Choices) :=
  twoPasskeys ++ [
    .start (.deleteCredential raceUser 11),
    .start (.finishAddPasskey [] (some 1) raceUser ⟨⟨"third", by decide⟩, raceResponse⟩),
    .call 2 {}, .call 3 { verified := .ok ⟨[3], [], 0, ""⟩ }, .call 3 { id := 13 }, .call 2 {}]

def Sessions.play (moves : List (Pool.Move Request Choices)) : Option Sessions :=
  Pool.play Request.body (fun db _ => some db) (fun choices c db => some (c.respond id choices db))
    (fun _ => true) ⟨{}, []⟩ moves

theorem Sessions.play_history {moves : List (Pool.Move Request Choices)} {s : Sessions}
    (played : Sessions.play moves = some s) :
    ∃ tr, History (Sessions.Step id) ⟨{}, []⟩ tr s := by
  have arriving : ∀ (db : Db) (k : Request) (db' : Db), some db = some db' → arrives db k db' :=
    fun _ _ _ same => (Option.some.inj same).symm
  have answers : ∀ (choices : Choices) (c : Call) (db : Db) r db',
      some (c.respond id choices db) = some (r, db') → postgres id c db r db' := by
    intro choices c db r db' same
    obtain ⟨rfl, rfl⟩ := Prod.mk.inj (Option.some.inj same)
    exact ⟨choices, .inl ⟨rfl, rfl⟩⟩
  obtain ⟨tr, history, _⟩ := Pool.play_history arriving answers .start (List.forall_mem_nil _) played
  exact ⟨tr, history⟩

/-- Both deletes see two passkeys, and both go. -/
theorem passkey_lost : ¬∀ tr s, History (Sessions.Step id) ⟨{}, []⟩ tr s →
    s.world.NoneLockedOut := by
  intro always
  have locked : (Sessions.play twoTabs).map (fun s => decide s.world.NoneLockedOut) =
      some false := by decide
  obtain ⟨s, played, outcome⟩ := Option.map_eq_some_iff.mp locked
  obtain ⟨tr, history⟩ := Sessions.play_history played
  exact of_decide_eq_false outcome (always tr s history)

theorem passkey_kept_addedMeanwhile : ∃ tr s, History (Sessions.Step id) ⟨{}, []⟩ tr s ∧
    s.world.credentials.map (·.id) = [12, 13] ∧ ∀ x ∈ tr, x.target.world.NoneLockedOut := by
  have fields : (Sessions.play addedMeanwhile).map (fun s => (s.world.credentials.map (·.id),
      (s.processes.map fun p => p.past.countP fun e => e.1.isDelete).sum)) =
      some ([12, 13], 1) := by decide
  obtain ⟨s, played, outcome⟩ := Option.map_eq_some_iff.mp fields
  obtain ⟨left, one⟩ := Prod.mk.inj outcome
  obtain ⟨tr, history⟩ := Sessions.play_history played
  have single : tr.countP deletes = 1 := (Pool.logged_count _ history).symm.trans one
  exact ⟨tr, s, history, left, passkey_kept history (noRival_of_one history single.le)⟩

end Race

end Intellivault.Auth
