import NestApi.Properties.Families

/-!
# The session cutoff

A sign-in reads the cutoff with the password, and its session starts only if the cutoff is still
the same. Whatever ends the sessions of an account moves the cutoff, to a whole second. Two of
them within a second move it to the same value, so the comparison does not see the second one.
-/

namespace NestApi

open Txn

variable {a : Agent Request} {L : RowLock → Prop} {w : SystemWorld} {ev : Event}
  {db db' : Database} {userId : Uuid}

/-! ### What moves a cutoff -/

/-- The cutoff of an account, if the account is there. -/
def Database.cutoff? (db : Database) (userId : Uuid) : Option (Option ℕ) :=
  (db.users.find? userId).map User.passwordChangedAt

/-- The cutoff that an event sets for the account. -/
def Event.cutoff? (userId : Uuid) : Event → Option ℕ
  | .sessionsEnded _ id cutoff => if id = userId then some cutoff else none
  | _ => none

theorem cutoff?_updateUser {id : Uuid} {f : Rewrite User.id}
    (hf : ∀ u, id = userId → (f.row u).passwordChangedAt = u.passwordChangedAt) :
    (db.updateUser id f).cutoff? userId = db.cutoff? userId := by
  unfold Database.cutoff? Database.updateUser
  rw [Table.find?_update, Option.map_map]
  by_cases hid : userId ∈ [id]
  · have hsame : id = userId := (List.mem_singleton.mp hid).symm
    refine congrFun (congrArg _ (funext fun u => ?_)) _
    simp [hsame, hf u hsame]
  · simp [hid, Function.comp_def]

/-- Only the end of the sessions of an account moves its cutoff. -/
theorem Commit.cutoff? (h : Commit a L w ev db') (userId : Uuid) :
    (ev.cutoff? userId = none ∧ db'.cutoff? userId = w.db.cutoff? userId) ∨
      ∃ cutoff, ev.cutoff? userId = some cutoff ∧
        db'.cutoff? userId = (w.db.cutoff? userId).map fun _ => some cutoff := by
  have hsame : ev.cutoff? userId = none → db'.users = w.db.users →
      (ev.cutoff? userId = none ∧ db'.cutoff? userId = w.db.cutoff? userId) ∨
        ∃ cutoff, ev.cutoff? userId = some cutoff ∧
          db'.cutoff? userId = (w.db.cutoff? userId).map fun _ => some cutoff := by
    intro hnone husers
    refine .inl ⟨hnone, ?_⟩
    unfold Database.cutoff?
    rw [husers]
  cases h with
  | rosterChanged _ _ _ _ _ _ _ _ _ _ _ _ hwrite => exact hsame rfl hwrite.tables.1
  | invitationAccepted _ _ _ _ _ _ _ _ _ _ _ _ _ _ _ _ _ _ _ hjoins =>
    exact hsame rfl hjoins.tables.1
  | userUpdated | passwordResetMinted =>
    exact .inl ⟨rfl, cutoff?_updateUser fun _ _ => rfl⟩
  | sessionsEnded reason id cutoff data actorId closed _ closedAt =>
    by_cases hid : id = userId
    · refine .inr ⟨cutoff, by simp [Event.cutoff?, hid], ?_⟩
      subst hid
      unfold Database.cutoff?
      simp only [Database.updateTokens, Database.updateUser, Database.updateWorkspaces]
      rw [Table.find?_update, Option.map_map, Option.map_map]
      simp [Function.comp_def, UserUpdateInput.endSessions]
    · refine .inl ⟨by simp [Event.cutoff?, hid], ?_⟩
      exact (cutoff?_updateUser fun _ h => absurd h hid :
        ((w.db.updateWorkspaces closed (Workspace.deleted closedAt id)).updateUser id
          (data.endSessions actorId cutoff)).cutoff? userId = w.db.cutoff? userId)
  | _ => exact hsame rfl rfl

variable {env : Env} {Allowed : Request → Prop} {init : Database} {σ : SystemConfig}

/-- Between two points of the history the cutoff is the same, or the last end of the account's
sessions in between has set it. -/
theorem RunsTo.cutoff? (hrun : RunsTo env Allowed init σ)
    {l l' : List (Entry Database Event Request)} (hl : l <:+ l') (hl' : l' <:+ σ.world.log)
    {before : Option ℕ} (hbefore : (stateOf init l).cutoff? userId = some before) :
    (stateOf init l').cutoff? userId = some before ∧
        (∀ e k, l <:+ k → (e :: k) <:+ l' → e.event.cutoff? userId = none) ∨
      ∃ e k cutoff, l <:+ k ∧ (e :: k) <:+ l' ∧ e.event.cutoff? userId = some cutoff ∧
        (stateOf init l').cutoff? userId = some (some cutoff) := by
  induction l' with
  | nil =>
    obtain rfl := List.suffix_nil.mp hl
    exact .inl ⟨hbefore, fun e k _ hk => absurd hk (by simp)⟩
  | cons e k ih =>
    rcases List.suffix_cons_iff.mp hl with rfl | hk
    · refine .inl ⟨hbefore, fun e' k' hle hk' => ?_⟩
      have hlength := hle.length_le.trans_lt (hk'.length_le)
      simp at hlength
    · obtain ⟨w, L, rfl, rfl, -, hcommit⟩ := hrun.entry hl'
      rcases hcommit.cutoff? userId with ⟨hnone, hsame⟩ | ⟨cutoff, hends, hset⟩
      · rcases ih hk ((List.suffix_cons _ _).trans hl') with
          ⟨hkept, hquiet⟩ | ⟨e', k', cutoff, hle, hk', hends, hset⟩
        · refine .inl ⟨hsame.trans hkept, fun e' k' hle hk' => ?_⟩
          rcases List.suffix_cons_iff.mp hk' with hnew | hold
          · obtain ⟨rfl, rfl⟩ := List.cons.inj hnew
            exact hnone
          · exact hquiet e' k' hle hold
        · refine .inr ⟨e', k', cutoff, hle, hk'.trans (List.suffix_cons _ _), hends, ?_⟩
          exact hsame.trans hset
      · -- the account is still there, so the cutoff is the one that was set
        refine .inr ⟨e, w.log, cutoff, hk, List.suffix_refl _, hends, ?_⟩
        have hthere : ∃ now, w.db.cutoff? userId = some now := by
          rcases ih hk ((List.suffix_cons _ _).trans hl') with ⟨hkept, -⟩ | ⟨_, _, now, -, -, -, h⟩
          · exact ⟨_, hkept⟩
          · exact ⟨_, h⟩
        obtain ⟨now, hnow⟩ := hthere
        refine hset.trans ?_
        rw [hnow]
        rfl

/-! ### Signing in -/

/-- The account whose session a sign-in started. -/
def Entry.signedIn? (e : Entry Database Event Request) : Option Uuid :=
  match e.event, e.agent.req with
  | .sessionStarted userId _ _, .login _ _ => some userId
  | _, _ => none

/-- The account row that a sign-in judged. -/
def Event.judged? : Event → Option User
  | .credentialsRead found => found
  | _ => none

/-- Every session that a sign-in starts rests on a row of the account that its process read
after the account's sessions were ended for the last time. -/
def SessionsCurrent (log : List (Entry Database Event Request)) : Prop :=
  EveryEntry (fun e l => ∀ userId ∈ Entry.signedIn? e, SomeEntry (fun x k =>
    x.agent = e.agent ∧ (∃ v ∈ x.event.judged?, v.id = userId) ∧
      EveryEntry (fun r m => k.length < m.length → r.event.cutoff? userId = none) l) l) log

instance (log : List (Entry Database Event Request)) : Decidable (SessionsCurrent log) :=
  inferInstanceAs (Decidable (EveryEntry _ log))

/-- The entry is the read of a sign-in that found this cutoff. -/
def ReadsCutoff (a : Agent Request) (userId : Uuid) (cutoff : ℕ)
    (x : Entry Database Event Request) : Prop :=
  x.agent = a ∧ ∃ v ∈ x.event.judged?, v.id = userId ∧ v.passwordChangedAt = some cutoff

instance (a : Agent Request) (userId : Uuid) (cutoff : ℕ) (x : Entry Database Event Request) :
    Decidable (ReadsCutoff a userId cutoff x) :=
  inferInstanceAs (Decidable (_ ∧ _))

/-- No end of an account's sessions, between the read of a sign-in and the start of its session,
set the cutoff to what the sign-in had read. -/
def CutoffsDistinct (log : List (Entry Database Event Request)) : Prop :=
  EveryEntry (fun e l => ∀ userId ∈ Entry.signedIn? e, EveryEntry (fun r m =>
    ∀ cutoff ∈ r.event.cutoff? userId, ∀ x ∈ m, ¬ ReadsCutoff e.agent userId cutoff x) l) log

instance (log : List (Entry Database Event Request)) : Decidable (CutoffsDistinct log) :=
  inferInstanceAs (Decidable (EveryEntry _ log))

theorem of_signedIn? {e : Entry Database Event Request} (h : userId ∈ Entry.signedIn? e) :
    (∃ familyId tokenId, e.event = .sessionStarted userId familyId tokenId) ∧
      ∃ identifier password, e.agent.req = .login identifier password := by
  unfold Entry.signedIn? at h
  split at h
  · obtain rfl := Option.some_inj.mp h
    exact ⟨⟨_, _, by assumption⟩, _, _, by assumption⟩
  · cases h

/-- The row that a sign-in judged is one of the database. -/
theorem RunsTo.judged (hrun : RunsTo env Allowed init σ) {d : Database} {v : User}
    {k : List (Entry Database Event Request)}
    (hk : (⟨a, .credentialsRead (some v), d⟩ :: k) <:+ σ.world.log) :
    d.cutoff? v.id = some v.passwordChangedAt := by
  obtain ⟨w, L, rfl, rfl, -, hcommit⟩ := hrun.entry hk
  have hmem : v ∈ d.users := by
    cases hcommit with
    | credentialsRead _ hfound => exact hfound v rfl
  unfold Database.cutoff?
  rw [Table.find?_of_mem hmem]
  rfl

/-- Where two ends of sessions never set the cutoff that a sign-in in progress had read, no
session starts on a credential that was superseded. -/
theorem sessionsCurrent_of_distinct (hrun : RunsTo env Allowed init σ)
    (hdistinct : CutoffsDistinct σ.world.log) : SessionsCurrent σ.world.log := by
  rw [SessionsCurrent, everyEntry_iff]
  intro e l hl userId hsigned
  have hends := everyEntry_iff.mp (everyEntry_iff.mp hdistinct e l hl userId hsigned)
  obtain ⟨⟨familyId, tokenId, hev⟩, identifier, password, hreq⟩ := of_signedIn? hsigned
  obtain ⟨w, L, rfl, hinit, -, hcommit⟩ := hrun.entry hl
  rw [hev] at hcommit
  -- the commit compared the cutoff that was read with the one under the lock
  obtain ⟨k, d, v, hk, huser, hnow⟩ : ∃ k d v, (⟨e.agent, .credentialsRead (some v), d⟩ :: k) <:+
      w.log ∧ v.id = userId ∧ w.db.cutoff? userId = some v.passwordChangedAt := by
    generalize e.db = db' at hcommit
    cases hcommit with
    | sessionStarted t owner _ howner hid _ _ _ _ hjudged =>
      obtain ⟨k, d, v, hk, huser, hsame⟩ := hjudged identifier password hreq
      refine ⟨k, d, v, hk, huser, ?_⟩
      unfold Database.cutoff?
      rw [← hid, Table.find?_of_mem howner, hsame]
      rfl
  have hlog : w.log <:+ σ.world.log := (List.suffix_cons _ _).trans hl
  have hread : d.cutoff? userId = some v.passwordChangedAt := by
    rw [← huser]
    exact hrun.judged (hk.trans hlog)
  refine someEntry_iff.mpr ⟨⟨e.agent, .credentialsRead (some v), d⟩, k, hk, rfl,
    ⟨v, rfl, huser⟩, everyEntry_iff.mpr fun r m hm hlater => ?_⟩
  rcases hrun.cutoff? hk hlog hread with
    ⟨-, hquiet⟩ | ⟨r', m', cutoff, hle, hm', hset, hlast⟩
  · exact hquiet r m (List.suffix_of_suffix_length_le hk
      ((List.suffix_cons _ _).trans hm) hlater) hm
  · rw [← hinit] at hlast
    have hmoved : v.passwordChangedAt = some cutoff :=
      Option.some_inj.mp (hnow.symm.trans hlast)
    have hcollides : ReadsCutoff e.agent userId cutoff ⟨e.agent, .credentialsRead (some v), d⟩ :=
      ⟨rfl, v, rfl, huser, hmoved⟩
    exact absurd hcollides (hends r' m' hm' cutoff hset _ (hle.subset List.mem_cons_self))

/-- Ann ends her sessions, and signs in again a second later. -/
def revokeThenSignIn : List (Order Request) :=
  [.serve 1 (.logoutAll "ann"), .proceed 1, .pass 1000, .serve 2 (.login "ann" "secret"),
    .proceed 2, .proceed 2]

theorem sessionsCurrent_revokeThenSignIn :
    SessionsCurrent (Sample.perform (Sample.database [] ["ann"]) 4500 revokeThenSignIn).world.log :=
  sessionsCurrent_of_distinct (Sample.runsTo_perform (Sample.database [] ["ann"]) 4500
    revokeThenSignIn) (by decide +kernel)

/-- The sessions are ended a second time, within the same second, while a sign-in waits for the
cutoff that it read between the two. -/
def signInBetweenRevocations : List (Order Request) :=
  [.serve 1 (.logoutAll "ann"), .proceed 1, .serve 2 (.login "ann" "secret"), .proceed 2,
    .serve 3 (.logoutAll "ann"), .proceed 3, .pass 1000, .proceed 2]

theorem sessionsCurrent_signInBetweenRevocations :
    RunsTo Sample.env (fun _ => True) (Sample.database [] ["ann"])
        (Sample.perform (Sample.database [] ["ann"]) 4500 signInBetweenRevocations) ∧
      ¬ SessionsCurrent (Sample.perform (Sample.database [] ["ann"]) 4500
        signInBetweenRevocations).world.log :=
  ⟨Sample.runsTo_perform _ _ _, by decide +kernel⟩

end NestApi
