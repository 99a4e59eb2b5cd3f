import Intellivault.Lib.Keyed
import Intellivault.Lib.Since
import Intellivault.Auth.Effects

/-!
# The signature counter

`finish_login` verifies the asserted counter against the one it has read, and then writes it
over whatever is stored by then.  The counter falls exactly when a login with a larger counter
writes in between.
-/

namespace Intellivault.Auth

open Lib

/-- No counter is lower in `w'` than it was in `w`. -/
def CountsLe (w w' : Store) : Prop :=
  ∀ c ∈ w.accounts.credentials, ∀ d ∈ w'.accounts.credentials, c.id = d.id →
    c.signCount ≤ d.signCount

/-- What was committed along a history, the oldest first. -/
def committed (tr : List ServerTransition) : List Store :=
  Server.empty.world :: tr.map fun x => x.target.world

/-- The counter that a step writes to this passkey. -/
def bump (id : UUID) : ServerAction → Option Nat
  | .call _ _ ⟨.updateSignCount signCount id', .ok _⟩ => if id' = id then some signCount else none
  | _ => none

/-- `credential_with_user.sql` has found this passkey. -/
def ReadsPasskey (id : UUID) (e : RouteEvent) : Prop :=
  ∃ rawId row owner, row.id = id ∧ e = ⟨.credentialWithUser rawId, .ok (some (row, owner))⟩

/-- Between the `credential_with_user` of a login and its `UPDATE`, no login with a larger counter
writes to the passkey, or else the passkey is gone by then. -/
def NotOvertaken (before : List ServerTransition) (x : ServerTransition) : Prop :=
  match x.label with
  | .call k past ⟨.updateSignCount signCount id, .ok _⟩ =>
      (∃ c ∈ x.source.world.accounts.credentials, c.id = id) →
        Pool.Since before k past (ReadsPasskey id) fun z => ∀ n ∈ bump id z.label, n ≤ signCount
  | _ => True

/-- A login writes at least the counter that is stored when it writes. -/
def Rising (x : ServerTransition) : Prop :=
  ∀ id, ∀ n ∈ bump id x.label, ∀ c ∈ x.source.world.accounts.credentials, c.id = id →
    c.signCount ≤ n

section SignCount

variable {site : Site} {draws : Draws} {w w' : Store} {e : RouteEvent} {s s' : Server}
  {l : ServerAction} {tr : List ServerTransition}

theorem mem_bump {id : UUID} {n : Nat} :
    n ∈ bump id l ↔ ∃ k past, l = .call k past ⟨.updateSignCount n id, .ok ()⟩ := by
  constructor
  · intro written
    unfold bump at written
    split at written
    · obtain ⟨rfl, counter⟩ := Option.ite_none_right_eq_some.mp written
      obtain rfl := Option.some.inj counter
      exact ⟨_, _, rfl⟩
    · cases written
  · rintro ⟨k, past, rfl⟩
    exact if_pos rfl

/-- A passkey is new, or it was there with the same counter, or the call wrote the counter. -/
theorem Effect.counts (effect : Effect site draws (w.tick draws) e w') :
    ∀ d ∈ w'.accounts.credentials, d.id = draws.choices.id ∨
      ∃ c ∈ w.accounts.credentials, c.id = d.id ∧
        (c.signCount = d.signCount ∨ e = ⟨.updateSignCount d.signCount d.id, .ok ()⟩) := by
  cases effect with
  | registered emailFree passkeyFree =>
      exact forall_mem_snoc.mpr ⟨fun d mem => .inr ⟨d, mem, rfl, .inl rfl⟩, .inl rfl⟩
  | added known passkeyFree =>
      exact forall_mem_snoc.mpr ⟨fun d mem => .inr ⟨d, mem, rfl, .inl rfl⟩, .inl rfl⟩
  | deleted => exact fun d mem => .inr ⟨d, List.mem_of_mem_filter mem, rfl, .inl rfl⟩
  | @bumped signCount id =>
      intro d mem
      obtain ⟨c, inside, rfl⟩ := List.mem_map.mp mem
      by_cases hit : c.id = id
      · rw [if_pos hit]
        exact .inr ⟨c, inside, rfl, .inr (by rw [← hit])⟩
      · rw [if_neg hit]
        exact .inr ⟨c, inside, rfl, .inl rfl⟩
  | _ => exact fun d mem => .inr ⟨d, mem, rfl, .inl rfl⟩

/-- A counter after a step is the one before it or the one it writes. -/
theorem Server.Step.counter (step : Server.Step site s l s') {d : CredentialRow}
    (known : d.id ∈ s.world.minted) (mem : d ∈ s'.world.accounts.credentials) :
    ∃ c ∈ s.world.accounts.credentials, c.id = d.id ∧
      (c.signCount = d.signCount ∨ d.signCount ∈ bump d.id l) := by
  rcases step.cases with ⟨still, -⟩ | ⟨k, past, e, draws, rfl, fresh, effect⟩
  · rw [still] at mem
    exact ⟨d, mem, rfl, .inl rfl⟩
  · rcases effect.counts d mem with new | ⟨c, inside, sameId, counted⟩
    · rw [new] at known
      exact (fresh.id known).elim
    · refine ⟨c, inside, sameId, counted.imp_right ?_⟩
      rintro rfl
      exact mem_bump.mpr ⟨k, past, rfl⟩

/-- What a login writes is there after it. -/
theorem Server.Step.bumped {id : UUID} {n : Nat} (step : Server.Step site s l s')
    (written : n ∈ bump id l) :
    s'.world.accounts.credentials = s.world.accounts.credentials.map fun c =>
      if c.id = id then { c with signCount := n, lastUsedAt := some s'.world.now } else c := by
  obtain ⟨k, past, rfl⟩ := mem_bump.mp written
  rcases step.cases with ⟨-, k, absurd⟩ | ⟨_, _, _, draws, label, -, effect⟩
  · cases absurd
  cases label
  generalize after : s'.world = w' at *
  cases effect with
  | idle idle => cases idle
  | bumped => rfl

/-- A step lowers a counter exactly by writing less than is stored. -/
theorem Server.Step.rising_iff (step : Server.Step site s l s') (ids : s.world.Ids) :
    Rising ⟨s, l, s'⟩ ↔ CountsLe s.world s'.world := by
  constructor
  · intro rising c mem d mem' keyed
    have known : d.id ∈ s.world.minted := keyed ▸ ids.credentialMinted c mem
    obtain ⟨old, inside, sameId, kept | written⟩ := step.counter known mem'
    · rw [List.inj_on_of_nodup_map ids.credentials mem inside (keyed.trans sameId.symm), kept]
    · exact rising d.id d.signCount written c mem keyed
  · intro lower id n written c mem hit
    have after := step.bumped written
    refine lower c mem { c with signCount := n, lastUsedAt := some s'.world.now } ?_ rfl
    rw [after]
    exact List.mem_map.mpr ⟨c, mem, if_pos hit⟩

theorem committed_append {more : List ServerTransition} :
    committed tr ⊆ committed (tr ++ more) := by
  intro w mem
  rw [committed, List.map_append, ← List.cons_append]
  exact List.mem_append_left _ mem

theorem committed_snoc {x : ServerTransition} :
    committed (tr ++ [x]) = committed tr ++ [x.target.world] := by
  simp [committed]

theorem last_committed (history : History (Server.Step site) Server.empty tr s) :
    s.world ∈ committed tr := by
  cases history with
  | start => exact List.mem_cons_self
  | next before step =>
      rw [committed_snoc]
      exact List.mem_append_right _ (List.mem_singleton_self _)

theorem committed_minted (history : History (Server.Step site) Server.empty tr s) :
    ∀ w ∈ committed tr, ∀ c ∈ w.accounts.credentials, c.id ∈ s.world.minted := by
  induction history with
  | start =>
      intro w mem
      rw [List.mem_singleton.mp mem]
      exact List.forall_mem_nil _
  | @next tr t u l before step ih =>
      rw [committed_snoc]
      refine forall_mem_snoc.mpr ⟨fun w mem c inside => step.minted (ih w mem c inside), ?_⟩
      exact (step.ids (Server.ids before)).credentialMinted

/-- No counter falls over a step if none fell before and none falls in it. -/
theorem CountsLe.step (step : Server.Step site s l s')
    (known : ∀ c ∈ w.accounts.credentials, c.id ∈ s.world.minted) (before : CountsLe w s.world)
    (after : CountsLe s.world s'.world) : CountsLe w s'.world := by
  intro c mem d mem' keyed
  rcases step.cases with ⟨same, -⟩ | ⟨_, _, _, draws, -, fresh, effect⟩
  · rw [same] at mem'
    exact before c mem d mem' keyed
  rcases effect.counts d mem' with new | ⟨old, inside, sameId, -⟩
  · have drawn := known c mem
    rw [keyed, new] at drawn
    exact (fresh.id drawn).elim
  · exact (before c mem old inside (keyed.trans sameId.symm)).trans (after old inside d mem' sameId)

theorem countsLe_refl (ids : w.Ids) : CountsLe w w := by
  intro c mem d mem' keyed
  rw [List.inj_on_of_nodup_map ids.credentials mem mem' keyed]

/-- Counters that never fell are at most the last ones. -/
theorem counts_upTo (history : History (Server.Step site) Server.empty tr s)
    (rises : (committed tr).Pairwise CountsLe) : ∀ w ∈ committed tr, CountsLe w s.world := by
  have ids := Server.ids history
  cases history with
  | start =>
      intro w mem
      rw [List.mem_singleton.mp mem]
      exact List.forall_mem_nil _
  | next before step =>
      rw [committed_snoc, List.pairwise_append] at rises
      rw [committed_snoc]
      exact forall_mem_snoc.mpr ⟨fun w mem => rises.2.2 w mem _ (List.mem_singleton_self _),
        countsLe_refl ids⟩

theorem rises_iff_rising (history : History (Server.Step site) Server.empty tr s) :
    (committed tr).Pairwise CountsLe ↔ ∀ x ∈ tr, Rising x := by
  induction history with
  | start => exact iff_of_true (List.pairwise_singleton _ _) (List.forall_mem_nil _)
  | @next tr t u l before step ih =>
      have each : (committed tr).Pairwise CountsLe →
          ((∀ w ∈ committed tr, CountsLe w u.world) ↔ Rising ⟨t, l, u⟩) := by
        intro rises
        rw [step.rising_iff (Server.ids before)]
        apply Iff.intro
        · exact fun all => all t.world (last_committed before)
        · intro one w mem
          exact (counts_upTo before rises w mem).step step (committed_minted before w mem) one
      rw [committed_snoc, List.pairwise_append, forall_mem_snoc, ← ih]
      simp only [List.pairwise_singleton, true_and, List.forall_mem_singleton]
      exact and_congr_right each

/-! ## Between the read and the write -/

theorem Statement.credentialWithUser_mem {rawId : Bytes} {passkey : CredentialRow} {user : UserRow}
    (found : Statement.credentialWithUser rawId w = some (passkey, user)) :
    passkey ∈ w.accounts.credentials := by
  obtain ⟨c, matched, owned⟩ := List.exists_of_findSome?_eq_some found
  obtain ⟨row, -, same⟩ := Option.map_eq_some_iff.mp owned
  obtain ⟨rfl, -⟩ := Prod.mk.inj same
  exact List.mem_of_mem_filter matched

/-- A login has read its passkey in the table. -/
theorem served_passkey {rawId : Bytes} {passkey : CredentialRow} {user : UserRow}
    (answer : served site (.credentialWithUser rawId) w (.ok (some (passkey, user))) w') :
    passkey ∈ w.accounts.credentials ∧ w'.accounts = w.accounts ∧ w.minted ⊆ w'.minted := by
  obtain ⟨draws, -, ⟨same, rfl⟩ | ⟨⟨message, failed⟩, -⟩⟩ := answer
  · exact ⟨Statement.credentialWithUser_mem (Except.ok.inj same).symm, rfl,
      fun id known => minted_tick known⟩
  · cases failed

/-- py_webauthn has compared the counters. -/
theorem served_assertion {challenge publicKey : Bytes} {credential : CeremonyResponse}
    {current asserted : Nat}
    (answer : served site (.verifyAuthentication challenge credential publicKey current) w
      (.ok asserted) w') : current ≤ asserted := by
  obtain ⟨draws, -, ⟨same, -⟩ | ⟨⟨message, failed⟩, -⟩⟩ := answer
  · simp only [RouteCall.respond] at same
    cases drawn : draws.assertion with
    | error exc =>
        rw [drawn] at same
        cases same
    | ok counter =>
        rw [drawn] at same
        dsimp only at same
        split at same
        · rename_i accepted
          obtain rfl := Except.ok.inj same
          simp only [counterAccepted, decide_eq_true_eq] at accepted
          omega
        · cases same
  · cases failed

/-- The passkey's id has been drawn, and its counter, while it is there, is at most `n`. -/
def AtMost (id : UUID) (n : Nat) (w : Store) : Prop :=
  id ∈ w.minted ∧ ∀ c ∈ w.accounts.credentials, c.id = id → c.signCount ≤ n

def AtLeast (id : UUID) (n : Nat) (w : Store) : Prop :=
  id ∈ w.minted ∧ ∀ c ∈ w.accounts.credentials, c.id = id → n ≤ c.signCount

theorem AtMost.step {id : UUID} {n : Nat} (low : AtMost id n s.world)
    (step : Server.Step site s l s') (quiet : ∀ m ∈ bump id l, m ≤ n) : AtMost id n s'.world := by
  refine ⟨step.minted low.1, fun c mem hit => ?_⟩
  obtain ⟨old, there, sameId, kept | written⟩ := step.counter (hit.symm ▸ low.1) mem
  · rw [← kept]
    exact low.2 old there (sameId.trans hit)
  · exact quiet _ (hit ▸ written)

theorem AtLeast.step {id : UUID} {n : Nat} (high : AtLeast id n s.world)
    (step : Server.Step site s l s') (rising : Rising ⟨s, l, s'⟩) : AtLeast id n s'.world := by
  refine ⟨step.minted high.1, fun c mem hit => ?_⟩
  obtain ⟨old, there, sameId, kept | raised⟩ := step.counter (hit.symm ▸ high.1) mem
  · rw [← kept]
    exact high.2 old there (sameId.trans hit)
  · exact (high.2 old there (sameId.trans hit)).trans (rising _ _ raised old there sameId)

/-- After an `UPDATE` the counter is what it has written. -/
theorem Server.Step.atLeast {id : UUID} {n : Nat} (step : Server.Step site s l s')
    (known : id ∈ s.world.minted) (written : n ∈ bump id l) : AtLeast id n s'.world := by
  refine ⟨step.minted known, fun c mem hit => ?_⟩
  rw [step.bumped written] at mem
  obtain ⟨old, there, rfl⟩ := List.mem_map.mp mem
  split at hit
  · rw [if_pos ‹_›]
  · contradiction

/-- What a login asserts is at least what it finds stored, if it is not overtaken. -/
theorem rising_of_notOvertaken (before : History (Server.Step site) Server.empty tr s)
    (step : Server.Step site s l s') (notOvertaken : NotOvertaken tr ⟨s, l, s'⟩) :
    Rising ⟨s, l, s'⟩ := by
  intro id signCount written c mem hit
  obtain ⟨k, past, rfl⟩ := mem_bump.mp written
  have whole := before.next step
  obtain ⟨rawId, row, owner, challenge, credential, found, rowIs, verified⟩ :=
    Server.allowed whole (List.mem_append_right _ (List.mem_singleton_self _)) rfl
  obtain ⟨x, inside, past', label⟩ := Server.recalled before step verified
  have atLeast := served_assertion (Server.answered before inside label)
  have low : AtMost id signCount s.world := by
    have since := notOvertaken ⟨c, mem, hit⟩
    refine since.kept (P := fun t => AtMost id signCount t.world) before found
      ⟨rawId, row, owner, rowIs, rfl⟩ ?_ ?_
    · intro earlier x later _ first answer
      obtain ⟨stored, same, grows⟩ := served_passkey answer
      have ids := Server.ids first
      refine ⟨grows (rowIs ▸ ids.credentialMinted row stored), fun d mem hit => ?_⟩
      rw [same] at mem
      rw [List.inj_on_of_nodup_map ids.credentials mem stored (hit.trans rowIs.symm)]
      exact atLeast
    · intro _ z _ _ _ moved quiet low
      exact low.step moved quiet
  exact low.2 c mem hit

/-- A login that is overtaken writes less than is stored. -/
theorem notOvertaken_of_rising (before : History (Server.Step site) Server.empty tr s)
    (step : Server.Step site s l s') (rising : ∀ x ∈ tr, Rising x) (last : Rising ⟨s, l, s'⟩) :
    NotOvertaken tr ⟨s, l, s'⟩ := by
  unfold NotOvertaken
  split
  · rename_i k past signCount id a label
    obtain rfl : l = .call k past ⟨.updateSignCount signCount id, .ok a⟩ := label
    rintro ⟨c, mem, hit⟩ earlier _ later log ⟨rawId, row, owner, rowIs, rfl⟩
    obtain ⟨first, x, after, rfl, label⟩ := Pool.Step.recalled before step log
    refine ⟨first, x, after, rfl, label, fun z inside n written => ?_⟩
    obtain ⟨middle, rest, rfl⟩ := List.append_of_mem inside
    have split : first ++ x :: (middle ++ z :: rest) = (first ++ x :: middle) ++ z :: rest := by
      rw [List.append_assoc, List.cons_append]
    obtain ⟨upToX, stepX⟩ := before.upTo rfl
    obtain ⟨upToZ, stepZ⟩ := before.upTo split
    rw [label] at stepX
    obtain ⟨stored, -, grows⟩ := served_passkey (Pool.Step.answers stepX)
    have drawn := grows (rowIs ▸ (Server.ids upToX).credentialMinted row stored)
    have known : id ∈ z.source.world.minted :=
      upToZ.since (P := fun t => id ∈ t.world.minted) drawn
        fun _ y _ _ _ moved known => Server.Step.minted (s := y.source) moved known
    rw [split] at before rising
    have high : AtLeast id n s.world := by
      refine before.since (P := fun t => AtLeast id n t.world) (stepZ.atLeast known written) ?_
      intro between y others here _ moved high
      exact high.step moved (rising y (by simp [here]))
    exact (high.2 c mem hit).trans (last id signCount (mem_bump.mpr ⟨k, past, rfl⟩) c mem hit)
  · trivial

/-- **The stored counter never goes backwards exactly as long as no login is overtaken** by one
with a larger counter between its `credential_with_user` and its `UPDATE`. -/
theorem counts_rise_iff (history : History (Server.Step site) Server.empty tr s) :
    (committed tr).Pairwise CountsLe ↔ Throughout NotOvertaken tr := by
  rw [rises_iff_rising history]
  induction history with
  | start => exact iff_of_true (List.forall_mem_nil _) throughout_nil
  | @next tr t u l before step ih =>
      rw [forall_mem_snoc, throughout_snoc, ← ih]
      refine and_congr_right fun rising => ?_
      exact ⟨notOvertaken_of_rising before step rising, rising_of_notOvertaken before step⟩

end SignCount

/-! ## One login, and two at once -/

def asserting (n signCount : Nat) : Draws := { draw n with assertion := .ok signCount }

/-- The ids of the passkeys, and their counters. -/
def counters (s : Server) : List (UUID × Nat) :=
  s.world.accounts.credentials.map fun c => (c.id, c.signCount)

/-- Ada logs in and her passkey asserts 7. -/
def countingUp : List (Pool.Move RouteRequest Draws) :=
  registering ++ .start .loginBegin :: inTurn 2 14 4 ++
    .start (.loginFinish { ceremony := some "00000000000000000000000000000023" } passkey) ::
      inTurn 3 18 2 ++ .call 3 (asserting 20 7) :: inTurn 3 21 6

theorem counts_rise_iff_countingUp : ∃ (tr : List ServerTransition) (s : Server),
    History (Server.Step localhost) Server.empty tr s ∧ counters s = [(19, 7)] ∧
      ((committed tr).Pairwise CountsLe ↔ Throughout NotOvertaken tr) := by
  have counted : (Server.play localhost (fun _ => true) countingUp).map counters =
      some [(19, 7)] := by decide +kernel
  obtain ⟨s, played, seven⟩ := Option.map_eq_some_iff.mp counted
  obtain ⟨tr, history, -⟩ := Server.play_history played
  exact ⟨tr, s, history, seven, counts_rise_iff history⟩

/-- Two logins have verified the counters 1 and 2, and the second one has written. -/
def overlapping : List (Pool.Move RouteRequest Draws) :=
  registering ++ .start .loginBegin :: inTurn 2 14 4 ++ .start .loginBegin :: inTurn 3 18 4 ++
    .start (.loginFinish { ceremony := some "00000000000000000000000000000023" } passkey) ::
      inTurn 4 22 2 ++ .call 4 (asserting 24 1) ::
    .start (.loginFinish { ceremony := some "0000000000000000000000000000002b" } passkey) ::
      inTurn 5 25 2 ++ .call 5 (asserting 27 2) :: inTurn 5 28 6

theorem counter_falls : ∃ (tr : List ServerTransition) (s : Server),
    History (Server.Step localhost) Server.empty tr s ∧ ¬(committed tr).Pairwise CountsLe := by
  have counted : ((Server.play localhost (fun _ => true) overlapping).bind fun s =>
      (Server.playOn localhost (fun _ => true) s (inTurn 4 34 6)).map fun s' =>
        (counters s, counters s')) = some ([(19, 2)], [(19, 1)]) := by decide +kernel
  obtain ⟨s, played, later⟩ := Option.bind_eq_some_iff.mp counted
  obtain ⟨s', playedOn, both⟩ := Option.map_eq_some_iff.mp later
  obtain ⟨two, one⟩ := Prod.mk.inj both
  obtain ⟨tr, history, -⟩ := Server.play_history played
  have free : ∀ x ∈ tr, (fun _ : ServerTransition => true) x = true := fun _ _ => rfl
  obtain ⟨more, history', -⟩ := Server.playOn_history history free playedOn
  refine ⟨tr ++ more, s', history', fun rises => ?_⟩
  have falls : CountsLe s.world s'.world :=
    counts_upTo history' rises _ (committed_append (last_committed history))
  obtain ⟨c, mem, isTwo⟩ := List.mem_map.mp (two ▸ List.mem_singleton_self _)
  obtain ⟨d, mem', isOne⟩ := List.mem_map.mp (one ▸ List.mem_singleton_self _)
  obtain ⟨id, isTwo⟩ := Prod.mk.inj isTwo
  obtain ⟨id', isOne⟩ := Prod.mk.inj isOne
  have lower := falls c mem d mem' (id.trans id'.symm)
  omega

end Intellivault.Auth
